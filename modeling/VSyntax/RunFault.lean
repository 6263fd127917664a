import VSyntax.Fault
import VSyntax.Files
import VSyntax.Utf8
import VSyntax.Delimiters
import VSyntax.CommandLine.Value
import VSyntax.Toml.Fault

/-!
# Faults of a run

Everything that can keep a run of the program from its result once the command line makes sense.
Which faults a run reports, and which end it, depends on how far it has come.
-/
namespace VSyntax

/-- Why a run has no result. -/
inductive RunFault where
  /-- The value of a flag does not have its form. -/
  | value (f : CommandLine.ValueFault)
  /-- A vocabulary or a pattern is refused. -/
  | refused (f : Fault)
  /-- The configuration file is malformed. -/
  | malformedConfig (m : Toml.Malformed)
  /-- The configuration file, or the words for what is wrong with it, hit a limit. -/
  | limit (l : Limit)
  /-- A file cannot be read or written. -/
  | file (f : FileFault)
  /-- The bytes of a file are no text. -/
  | undecodable (f : Utf8.Malformed)
  /-- A path holds a null character, which no file name can. -/
  | unnameable
  /-- A scan stops short. -/
  | scan (f : ScanFault)
  deriving Repr

namespace RunFault

/-- The fault of a run whose configuration file has no table. -/
def ofToml : Toml.Fault → RunFault
  | .malformed m => .malformedConfig m
  | .limit l => .limit l

/-- The fault of a run whose keyword sets are refused. The words for it write the value that is no
word; where they cannot, that is the fault. -/
def ofKeywords (room : Nat) (f : Fault) : RunFault :=
  match f with
  | .config (.notText d _) => (d.writeLimit? room).elim (.refused f) .limit
  | _ => .refused f

/-- The words for a fault. -/
def message : RunFault → String
  | .value f => f.message
  | .refused f => f.message
  | .malformedConfig m => "invalid config file: " ++ m.message
  | .limit l => l.message
  | .file f => f.message
  | .undecodable f => f.message
  | .unnameable => "embedded null byte"
  | .scan f => f.message

/-- The exit code and the line with which a fault of the settings ends a run in order. -/
def ofSettings? : RunFault → Option (Nat × String)
  | .value f => some (2, "error: " ++ f.message)
  | .refused f => some (1, f.message)
  | .malformedConfig m => some (1, "error: invalid config file: " ++ m.message)
  | .limit _ | .file _ | .undecodable _ | .unnameable | .scan _ => none

/-- The line with which a fault of one pass over the input is reported. -/
def ofPass? : RunFault → Option String
  | .refused f => some f.message
  | .file f => some ("error: " ++ f.message)
  | .undecodable f => some ("error: " ++ f.message)
  | .value _ | .malformedConfig _ | .limit _ | .unnameable | .scan _ => none

end RunFault

namespace Path

/-- Whether a path can name a file at all. -/
def isNameable (p : Path) : Bool := p.names.all fun name => !name.contains (Char.ofNat 0)

end Path

namespace FileView

/-- The bytes of a file, for a run. -/
def load (v : FileView) (p : Path) : Except RunFault (List UInt8) :=
  if p.isNameable then
    match v.read p with
    | .ok bytes => .ok bytes
    | .error f => .error (.file f)
  else .error .unnameable

end FileView

end VSyntax
