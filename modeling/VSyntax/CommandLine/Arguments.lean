import VSyntax.CommandLine.Argument

/-!
# Command lines

The settings that a command line gives. Arguments are gone through from left to right: the first
word is the input, a flag takes its attached value or the word after it, and what has no use is
collected. Letters of flags without values may be written together after one dash.

What may be attached to a flag has changed once, so there are two dialects. They read the same
values, unless a value is two dashes or is attached to a letter that is not the first.
-/
namespace VSyntax.CommandLine

/-! ## Dialects -/

/-- How attached characters are read. -/
inductive Dialect where
  /-- An attached value of two dashes leaves the value out. A flag without values goes on with any
  letter that is a flag, even behind an equals sign, and nothing else may follow. An equals sign
  behind a later letter is part of the value. -/
  | early
  /-- Two dashes are a value like any other. A flag without values takes neither an equals sign nor
  a dash; a letter that is no flag has no use, with all that follows. An equals sign behind a later
  letter is dropped, as it is behind the first. -/
  | late
  deriving DecidableEq, Repr

namespace Dialect

/-- The value that attached characters stand for, unless they leave it out. -/
def valueOf (dialect : Dialect) (text : List Char) : Option (List Char) :=
  match dialect with
  | .early => if text = ['-', '-'] then none else some text
  | .late => some text

/-- Whether a flag without values refuses what is attached, whose first character is `c`. -/
def refuses (dialect : Dialect) (marked : Bool) (c : Char) : Bool :=
  match dialect with
  | .early => false
  | .late => marked || c == '-'

end Dialect

/-- The settings of a command line. -/
structure Arguments where
  input : List Char
  output : Option (List Char)
  format : Format
  region : Option (List Char)
  outline : Bool
  config : Option (List Char)
  keywords : List (List Char)
  watch : Bool
  debug : Bool
  verbose : Bool
  deriving DecidableEq, Repr

/-- Why no settings come of a command line: help is asked for, or it makes no sense. -/
inductive Halt where
  | help
  | misuse (fault : UsageFault)
  deriving DecidableEq, Repr

namespace Arguments

/-- The settings that a command line with the given input begins with. -/
def initial (input : List Char) : Arguments where
  input := input
  output := none
  format := .spans
  region := none
  outline := false
  config := none
  keywords := []
  watch := false
  debug := false
  verbose := false

/-! ## Flags of one argument -/

/-- What one argument sets: flags with their values, and perhaps a last flag whose value is the word
after it, or a rest without use. A value is missing after a flag that takes none, or where it is
left out. -/
structure Cluster where
  settings : List (Flag × Option (List Char))
  waiting : Option Flag
  unused : Option (List Char)
  deriving DecidableEq, Repr

namespace Cluster

/-- A flag with its value. -/
def setting (f : Flag) (value : Option (List Char)) : Cluster := ⟨[(f, value)], none, none⟩

/-- The flag alone. -/
def single (f : Flag) : Cluster := if f.takesValue then ⟨[], some f, none⟩ else setting f none

/-- The cluster with a flag in front. -/
def after (f : Flag) (c : Cluster) : Cluster := { c with settings := (f, none) :: c.settings }

/-- The refusal of what is attached to a flag. -/
def refuse (f : Flag) (text : List Char) : Except Halt Cluster :=
  .error (.misuse (.valueUnwanted f text))

/-- The cluster of the flag `f` with characters attached. They are its value if it takes one; if
not, and no long name is written, they are letters of further flags, the last of which may have
characters attached in its turn. -/
def ofAttached (dialect : Dialect) (f : Flag) (long marked : Bool) :
    List Char → Except Halt Cluster
  | [] => if f.takesValue then .ok (setting f (some [])) else refuse f []
  | c :: rest =>
    if f.takesValue then .ok (setting f (dialect.valueOf (c :: rest)))
    else if long || dialect.refuses marked c then refuse f (c :: rest)
    else
      match Flag.ofLetter? c with
      | none =>
        match dialect with
        | .early => refuse f (c :: rest)
        | .late => .ok { setting f none with unused := some ('-' :: c :: rest) }
      | some g =>
        match rest, dialect with
        | [], _ => .ok ((single g).after f)
        | '=' :: more, .late => (ofAttached .late g false true more).map (after f)
        | d :: more, _ => (ofAttached dialect g false false (d :: more)).map (after f)

/-- The cluster of a flag. -/
def ofFlag (dialect : Dialect) (f : Flag) (long : Bool) (attached : Option Attached) :
    Except Halt Cluster :=
  match attached with
  | none => .ok (single f)
  | some a => ofAttached dialect f long a.marked a.text

end Cluster

/-! ## Settings -/

/-- The settings so far, whether the input is among them, and the arguments without use. -/
structure Gathered where
  settings : Arguments
  hasInput : Bool
  unused : List (List Char)
  deriving DecidableEq, Repr

/-- What stands for a keyword that is left out. It has no equals sign, so it is in no keyword set.
-/
def keywordLeftOut : List Char := ['[', ']']

/-- The settings with one more flag and its value. A value that is left out takes back an earlier
one. -/
def setFlag (s : Arguments) (f : Flag) (value : Option (List Char)) : Except Halt Arguments :=
  match f with
  | .help => .error .help
  | .output => .ok { s with output := value }
  | .format =>
    match value with
    | none => .ok { s with format := .spans }
    | some name =>
      match Format.ofName? name with
      | some format => .ok { s with format := format }
      | none => .error (.misuse (.unknownFormat name))
  | .region => .ok { s with region := value }
  | .outline => .ok { s with outline := true }
  | .config => .ok { s with config := value }
  | .keyword => .ok { s with keywords := s.keywords ++ [value.getD keywordLeftOut] }
  | .watch => .ok { s with watch := true }
  | .debug => .ok { s with debug := true }
  | .verbose => .ok { s with verbose := true }

namespace Gathered

/-- Nothing gathered yet. -/
def empty : Gathered := ⟨initial [], false, []⟩

/-- One more flag with its value. -/
def setFlag (g : Gathered) (setting : Flag × Option (List Char)) : Except Halt Gathered :=
  (g.settings.setFlag setting.1 setting.2).map fun s => { g with settings := s }

/-- The given flags, in their order. -/
def setAll (g : Gathered) (settings : List (Flag × Option (List Char))) : Except Halt Gathered :=
  settings.foldlM setFlag g

/-- The input. -/
def setInput (g : Gathered) (input : List Char) : Gathered :=
  { g with settings := { g.settings with input := input }, hasInput := true }

/-- One more argument without use. -/
def leave (g : Gathered) (text : List Char) : Gathered := { g with unused := g.unused ++ [text] }

end Gathered

/-! ## Command lines -/

/-- What the arguments add to what is gathered. The separator goes with the input: it may stand
right before or right after it. -/
def gather (dialect : Dialect) : Gathered → List Argument → Except Halt Gathered
  | g, [] => .ok g
  | g, .separator :: .word w :: rest =>
    if g.hasInput then gather dialect ((g.leave ['-', '-']).leave w) rest
    else gather dialect (g.setInput w) rest
  | g, .separator :: rest => gather dialect (g.leave ['-', '-']) rest
  | g, .word w :: .separator :: rest =>
    if g.hasInput then gather dialect (g.leave w) (.separator :: rest)
    else gather dialect (g.setInput w) rest
  | g, .word w :: rest =>
    if g.hasInput then gather dialect (g.leave w) rest else gather dialect (g.setInput w) rest
  | g, .unknown text :: rest => gather dialect (g.leave text) rest
  | g, .flag f long attached :: rest =>
    match Cluster.ofFlag dialect f long attached with
    | .error h => .error h
    | .ok c =>
      match c.waiting with
      | none =>
        match g.setAll c.settings with
        | .error h => .error h
        | .ok g' => gather dialect (c.unused.elim g' g'.leave) rest
      | some last =>
        match rest with
        | .word w :: rest' =>
          match g.setAll (c.settings ++ [(last, some w)]) with
          | .error h => .error h
          | .ok g' => gather dialect g' rest'
        | _ => .error (.misuse (.valueMissing last))

/-- The settings gathered from a whole command line, if it names an input and nothing is left
over. -/
def complete (g : Gathered) : Except Halt Arguments :=
  if g.hasInput then
    match g.unused with
    | [] => .ok g.settings
    | texts => .error (.misuse (.unrecognized texts))
  else .error (.misuse .inputMissing)

/-- The settings of a command line. -/
def read (dialect : Dialect) (texts : List (List Char)) : Except Halt Arguments :=
  match Argument.readAll texts with
  | .error f => .error (.misuse f)
  | .ok arguments =>
    match gather dialect .empty arguments with
    | .error h => .error h
    | .ok g => complete g

end Arguments

end VSyntax.CommandLine
