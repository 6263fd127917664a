import VSyntax.Datum
import VSyntax.Report
import VSyntax.Regex.Error

/-!
# Faults

Why a configuration, a delimiter table, a layout or an outline is refused, each cause with its
words. A fault in a keyword class or in a pattern is reported with the class or the pattern.
-/
namespace VSyntax

/-! ## Configuration -/

/-- Why a keyword set, a layout or a delimiter table is refused. -/
inductive ConfigFault where
  /-- A class has no name, or one that is not a text. -/
  | unnamedClass
  /-- The words of a class are one text and not a collection. -/
  | wordsUncollected (name : String)
  /-- A word of a class or set is not a text. -/
  | notText (word : Datum) (name : String)
  /-- A word of a class is empty. -/
  | emptyWord (name : String)
  /-- A word of a class holds a character that is not of a word. -/
  | notWord (word : String) (name : String)
  /-- A class has no words. -/
  | emptyClass (name : String)
  /-- There is no keyword set of that name. -/
  | unknownSet (name : String)
  /-- A keyword set is given as something other than a list. -/
  | notList (kind : String) (name : String)
  /-- The keyword sets as a whole are not a table. -/
  | keywordsNotTable
  /-- A layout has no place for a class. -/
  | noSlot (name : String)
  /-- Comments have no opener. -/
  | emptyCommentOpener
  /-- Comments have no terminator. -/
  | emptyCommentTerminator
  /-- A string delimiter is a word character. -/
  | wordDelimiter (c : Char)
  deriving Repr

namespace ConfigFault

/-- What is wrong. -/
def summary : ConfigFault → String
  | .unnamedClass => "keyword class name must be a non-empty string"
  | .wordsUncollected _ => "words must be a collection of strings, not a single string"
  | .notText word _ => "keyword " ++ word.write ++ " is not a string"
  | .emptyWord _ => "empty keyword"
  | .notWord word _ => "keyword " ++ Quoted.ofString word ++ " contains non-word characters"
  | .emptyClass _ => "keyword set is empty"
  | .unknownSet name => "unknown keyword set '" ++ name ++ "'"
  | .notList kind _ => "keyword set must be a list, got " ++ kind
  | .keywordsNotTable => "[keywords] must be a table"
  | .noSlot _ => "no rule slot for keyword class"
  | .emptyCommentOpener => "comment opener must not be empty"
  | .emptyCommentTerminator => "comment terminator must not be empty"
  | .wordDelimiter c =>
    "string delimiter " ++ String.ofList (Quoted.encode [c]) ++ " is a word character"

/-- The keyword class or set that a fault is about. -/
def subject? : ConfigFault → Option String
  | .wordsUncollected name | .notText _ name | .emptyWord name | .notWord _ name | .emptyClass name
  | .unknownSet name | .notList _ name | .noSlot name => some name
  | .unnamedClass | .keywordsNotTable | .emptyCommentOpener | .emptyCommentTerminator
  | .wordDelimiter _ => none

/-- The report on a fault. -/
def message (f : ConfigFault) : String := Report.config f.summary f.subject?

end ConfigFault

/-! ## Patterns -/

/-- Why a pattern is refused. -/
inductive PatternReason where
  /-- The pattern text is no regular expression. -/
  | malformed (m : Regex.Malformed)
  /-- The capture group asked for is not among those of the pattern. -/
  | noGroup (group : Int) (groups : Nat)
  deriving DecidableEq, Repr

/-- A refused pattern, with the name of its rule or outline kind. -/
structure PatternFault where
  name : String
  pattern : String
  reason : PatternReason
  deriving DecidableEq, Repr

namespace PatternFault

/-- Whether a refused pattern is reported as one. One that is refused because of a limit is not: the
caller is told of the limit alone. -/
def isReported (f : PatternFault) : Bool :=
  match f.reason with
  | .malformed m => !m.flaw.isLimit
  | .noGroup _ _ => true

/-- What is wrong. -/
def summary (f : PatternFault) : String :=
  match f.reason with
  | .malformed m => m.flaw.message
  | .noGroup group groups =>
    "capture group " ++ Numeral.int group ++ " out of range (pattern has " ++
      Numeral.nat groups ++ ")"

/-- The offset in the pattern that a fault is charged to. -/
def index? (f : PatternFault) : Option Int :=
  match f.reason with
  | .malformed m => m.index.map fun (i : Nat) => (i : Int)
  | .noGroup _ _ => none

/-- The report on a fault. -/
def message (f : PatternFault) : String :=
  if f.isReported then Report.pattern f.summary f.pattern (some f.name) f.index? else f.summary

end PatternFault

/-! ## Both -/

/-- Why a value cannot be built from what a caller gave. -/
inductive Fault where
  | config (f : ConfigFault)
  | pattern (f : PatternFault)
  /-- Words are given as a value that has no items. -/
  | noItems (kind : String)
  deriving Repr

/-- The words for a fault. -/
def Fault.message : Fault → String
  | .config f => f.message
  | .pattern f => f.message
  | .noItems kind => "'" ++ kind ++ "' object is not iterable"

end VSyntax
