import VSyntax.WordClass

/-!
# Vocabularies

The seven configurable keyword sets of the source language, with their standard words. A vocabulary
is changed by building another: a set is replaced as a whole, or extended by the words that it
lacks. Entries stay as they were given until the word classes are built from them.
-/
namespace VSyntax

/-! ## Keyword sets -/

/-- A configurable set of keywords. -/
inductive KeywordSet where
  | declaration
  | preprocessor
  | careful
  | builtin
  | constants
  | operatorFunctions
  | keywords
  deriving DecidableEq, Repr

namespace KeywordSet

/-- Every set, in the order in which classes are built. -/
def all : List KeywordSet :=
  [.declaration, .preprocessor, .careful, .builtin, .constants, .operatorFunctions, .keywords]

/-- The written name of a set. -/
def name : KeywordSet → String
  | .declaration => "declaration_keywords"
  | .preprocessor => "preprocessor_keywords"
  | .careful => "careful_keywords"
  | .builtin => "builtin_keywords"
  | .constants => "constants"
  | .operatorFunctions => "operator_functions"
  | .keywords => "keywords"

/-- The set with a written name. -/
def ofName? (s : String) : Option KeywordSet := all.find? fun k => k.name == s

/-- The category in which the words of a set are shown. -/
def category : KeywordSet → Category
  | .declaration => .declaration
  | .preprocessor => .preprocessor
  | .careful => .careful
  | .builtin => .builtinType
  | .constants | .operatorFunctions | .keywords => .keyword

/-- The standard words of a set. -/
def standardWords : KeywordSet → List String
  | .declaration => ["type", "interface", "struct", "enum", "fn", "union"]
  | .preprocessor => ["module", "pub", "const", "__global", "import"]
  | .careful => [
    "break", "continue", "return", "goto", "defer", "panic", "error", "unsafe", "go", "spawn"]
  | .builtin => [
    "bool", "string", "i8", "i16", "int", "i64", "i128", "isize", "u8", "u16", "u32", "u64", "u128",
    "usize", "byte", "rune", "f32", "f64", "byteptr", "voidptr", "charptr", "any", "map", "chan",
    "thread"]
  | .constants => ["true", "false", "none", "nil"]
  | .operatorFunctions => [
    "len", "cap", "isnil", "free", "delete", "sizeof", "typeof", "isreftype", "__offsetof", "dump"]
  | .keywords => [
    "as", "asm", "assert", "atomic", "else", "for", "if", "in", "is", "lock", "match", "mut", "or",
    "rlock", "select", "shared", "static", "volatile"]

end KeywordSet

/-! ## Vocabularies -/

/-- The entries of every keyword set. -/
@[ext]
structure Vocabulary where
  entries : KeywordSet → List Datum

namespace Vocabulary

/-- The vocabulary of the standard words. -/
def standard : Vocabulary := ⟨fun s => s.standardWords.map Datum.text⟩

/-- The vocabulary with the entries of one set replaced. -/
def set (v : Vocabulary) (s : KeywordSet) (words : List Datum) : Vocabulary :=
  ⟨fun s' => if s' = s then words else v.entries s'⟩

/-- The word classes of a vocabulary, in the order of the sets. -/
def classes (v : Vocabulary) : Except Fault (List WordClass) :=
  KeywordSet.all.mapM fun s => WordClass.define s.name (v.entries s) s.category

/-- The vocabulary with the set extended by the words that it lacks. Words are compared with the
entries of before only. -/
def append (v : Vocabulary) (s : KeywordSet) (words : List Datum) : Vocabulary :=
  v.set s (v.entries s ++ words.filter fun w => !(v.entries s).any (Datum.same w))

/-- The vocabulary with the set of a given name extended by the items of a value. -/
def extend (v : Vocabulary) (name : String) (words : Datum) : Except Fault Vocabulary :=
  match KeywordSet.ofName? name with
  | none => .error (.config (.unknownSet name))
  | some s =>
    match words.items? with
    | none => .error (.noItems words.fullKindName)
    | some items => .ok (v.append s items)

/-- The first item that is not a text. -/
def firstNonText? (items : List Datum) : Option Datum :=
  items.find? fun
    | .text _ => false
    | _ => true

/-- The set and the words that an entry of a keyword table gives. -/
def readEntry (entry : String × Datum) : Except Fault (KeywordSet × List Datum) :=
  match KeywordSet.ofName? entry.1 with
  | none => .error (.config (.unknownSet entry.1))
  | some s =>
    match entry.2 with
    | .list items =>
      match firstNonText? items with
      | some d => .error (.config (.notText d entry.1))
      | none => .ok (s, items)
    | d => .error (.config (.notList d.kindName entry.1))

/-- The vocabulary with every set that a keyword table names replaced by the table's words. -/
def replace (v : Vocabulary) (table : List (String × Datum)) : Except Fault Vocabulary := do
  let changes ← table.mapM readEntry
  return changes.foldl (fun w change => w.set change.1 change.2) v

end Vocabulary

end VSyntax
