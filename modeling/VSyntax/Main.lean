import VSyntax.Program

/-!
# Command line

The program on a real file system. What a run asks of the system is looked up beforehand, the run
itself is decided elsewhere, and its effects are carried out here. A file's time is counted up
whenever its bytes are seen to have changed.
-/
namespace VSyntax.CommandLine.Main

/-- The error behind a failed request to the system, by the number and the words that the system
gives it. One without a number is no error of a file. -/
def fileError : IO.Error → FileError
  | .noFileOrDirectory _ code words | .interrupted _ code words | .alreadyExists _ code words
  | .invalidArgument _ code words | .permissionDenied _ code words
  | .resourceExhausted _ code words | .inappropriateType _ code words
  | .noSuchThing _ code words | .otherError code words | .resourceBusy code words
  | .resourceVanished code words | .unsupportedOperation code words | .hardwareFault code words
  | .unsatisfiedConstraints code words | .illegalOperation code words
  | .protocolError code words | .timeExpired code words => .ofNumber code.toNat words
  | .unexpectedEof => .other 0 "unexpected end of file"
  | .userError words => .other 0 words

/-- What a path leads to, with the given time. -/
def find (p : Path) (time : Int) : IO (Except FileError FileEntry) := do
  try
    let handle ← IO.FS.Handle.mk (String.ofList p.text) .read
    return .ok (.file (← handle.readBinToEnd).toList time)
  catch e =>
    match fileError e with
    | .isDirectory => return .ok (.directory time)
    | error => return .error error

/-- What keeps a file from being written. A file that is missing can be made in a directory. -/
def writeError? (p : Path) : IO (Option FileError) := do
  try
    let _ ← IO.FS.Handle.mk (String.ofList p.text) .readWrite
    return none
  catch e =>
    match fileError e with
    | .notFound =>
      match ← find p.parent 0 with
      | .ok (.directory _) => return none
      | _ => return some .notFound
    | error => return some error

/-- The file system as far as the given paths show it. -/
def look (paths : List Path) (time : Int) : IO FileView := do
  let found ← paths.mapM fun p => return (p, ← find p time)
  let faults ← paths.mapM fun p => return (p, ← writeError? p)
  return {
    find := fun p => (found.lookup p).getD (.error .notFound)
    writeError? := fun p => (faults.lookup p).getD none }

/-- The paths that a command line may ask about. -/
def pathsOf (arguments : List (List Char)) : List Path :=
  match Arguments.read Platform.standard.dialect arguments with
  | .ok args =>
    [.ofChars args.input, Job.configPath args] ++ (args.output.map Path.ofChars).toList
  | .error _ => []

/-- Carries out an effect. -/
def perform : Effect → IO Unit
  | .print text => do
    IO.print (String.ofList text)
    (← IO.getStdout).flush
  | .report text => IO.eprint (String.ofList text)
  | .save p text => IO.FS.writeFile (String.ofList p.text) (String.ofList text)

/-- Reports a fault that ends the program out of order. -/
def abort (f : RunFault) : IO UInt32 := do
  IO.eprintln f.message
  return 1

/-- Polls the input of a job for ever; `last` is what it led to at the last poll, with a time. -/
partial def watch (job : Job) (seen : Int) (last : Option FileEntry) (time : Int) :
    IO UInt32 := do
  let now := (← find job.input 0).toOption
  let time := if now = last then time else time + 1
  let view ← look (job.input :: job.output.toList) time
  let p := job.poll view seen
  p.effects.forM perform
  match p.escape with
  | some f => abort f
  | none =>
    IO.sleep 500
    watch job p.seen now time

end VSyntax.CommandLine.Main

open VSyntax in
/-- Runs the program on the arguments of the command line. -/
def main (args : List String) : IO UInt32 := do
  let arguments := args.map String.toList
  let view ← CommandLine.Main.look (CommandLine.Main.pathsOf arguments) 1
  match Program.course .standard view arguments with
  | .watching job =>
    CommandLine.Main.perform job.watchNotice
    CommandLine.Main.watch job Job.unseen none 1
  | .ended effects ending =>
    effects.forM CommandLine.Main.perform
    match ending with
    | .exit code => return UInt32.ofNat code
    | .usage code => return UInt32.ofNat code
    | .escaped f => CommandLine.Main.abort f
