import VSyntax.Path
import VSyntax.Quoted

/-!
# Files

What a run of the program can learn of the file system: what a path leads to at one moment, and
whether it can be written. Changes between two moments are changes of the view.
-/
namespace VSyntax

/-! ## Faults -/

/-- Why a path leads nowhere useful. -/
inductive FileError where
  | notFound
  | badDescriptor
  | denied
  | notDirectory
  | isDirectory
  | nameTooLong
  | linkLoop
  /-- Any other error, by its number and the words for it. -/
  | other (number : Nat) (words : String)
  deriving DecidableEq, Repr

namespace FileError

/-- The number of an error. -/
def number : FileError → Nat
  | .notFound => 2
  | .badDescriptor => 9
  | .denied => 13
  | .notDirectory => 20
  | .isDirectory => 21
  | .nameTooLong => 36
  | .linkLoop => 40
  | .other number _ => number

/-- The words for an error. -/
def words : FileError → String
  | .notFound => "No such file or directory"
  | .badDescriptor => "Bad file descriptor"
  | .denied => "Permission denied"
  | .notDirectory => "Not a directory"
  | .isDirectory => "Is a directory"
  | .nameTooLong => "File name too long"
  | .linkLoop => "Too many levels of symbolic links"
  | .other _ words => words

/-- The error of a number. -/
def ofNumber (number : Nat) (words : String) : FileError :=
  let known := [notFound, badDescriptor, denied, notDirectory, isDirectory, nameTooLong, linkLoop]
  (known.find? (·.number == number)).getD (.other number words)

/-- Whether an error says no more than that a path leads to nothing. -/
def isAbsence (e : FileError) : Bool :=
  [notFound, badDescriptor, notDirectory, linkLoop].any (·.number == e.number)

end FileError

/-- An error with the path that has it. -/
structure FileFault where
  error : FileError
  path : Path
  deriving DecidableEq, Repr

/-- The words for an error with its path. -/
def FileFault.message (f : FileFault) : String :=
  "[Errno " ++ Numeral.nat f.error.number ++ "] " ++ f.error.words ++ ": " ++
    String.ofList (Quoted.encode f.path.text)

/-! ## Views -/

/-- What a path leads to, with the time of its last change: a file with its bytes, a file that an
error keeps from being read, or a directory. -/
inductive FileEntry where
  | file (bytes : List UInt8) (time : Int)
  | unreadable (error : FileError) (time : Int)
  | directory (time : Int)
  deriving DecidableEq, Repr

/-- The time of the last change. -/
def FileEntry.time : FileEntry → Int
  | .file _ time | .unreadable _ time => time
  | .directory time => time

/-- The file system at one moment. -/
structure FileView where
  find : Path → Except FileError FileEntry
  writeError? : Path → Option FileError

namespace FileView

/-- The bytes of a file. -/
def read (v : FileView) (p : Path) : Except FileFault (List UInt8) :=
  match v.find p with
  | .error e => .error ⟨e, p⟩
  | .ok (.directory _) => .error ⟨.isDirectory, p⟩
  | .ok (.unreadable e _) => .error ⟨e, p⟩
  | .ok (.file bytes _) => .ok bytes

/-- Whether a path leads to a file. One that leads to nothing does not; any other error stays one.
-/
def isFile (v : FileView) (p : Path) : Except FileFault Bool :=
  match v.find p with
  | .ok (.file _ _) | .ok (.unreadable _ _) => .ok true
  | .ok (.directory _) => .ok false
  | .error e => if e.isAbsence then .ok false else .error ⟨e, p⟩

/-- The time of the last change of what a path leads to. -/
def time? (v : FileView) (p : Path) : Option Int :=
  match v.find p with
  | .ok entry => some entry.time
  | .error _ => none

end FileView

end VSyntax
