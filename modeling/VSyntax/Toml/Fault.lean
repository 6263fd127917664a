import VSyntax.Limit
import VSyntax.Position
import VSyntax.Quoted

/-!
# Malformed configuration files

Why a text is not read as a configuration file, and the words for it: what is wrong, and the line
and the column where reading stopped. A file in which nothing is wrong may still hit a limit.
-/
namespace VSyntax.Toml

/-- What is wrong with a text. -/
inductive Flaw where
  /-- A line begins with what no line may begin with. -/
  | noStatement
  /-- A line does not end where it should. -/
  | noLineEnd
  /-- A mark that must come is missing. -/
  | expected (mark : String)
  /-- A comment or a string without escapes holds a control character. -/
  | controlCharacter (c : Char)
  /-- A string with escapes holds a control character. -/
  | illegalCharacter (c : Char)
  /-- A string is not closed. -/
  | openString
  /-- A backslash is followed by what it does not stand before. -/
  | badEscape
  /-- An escape by code point has too few digits. -/
  | badHex
  /-- An escape by code point names no character. -/
  | notScalar
  /-- A key begins with what no key may begin with. -/
  | noKey
  /-- A key has no value. -/
  | noEquals
  /-- A header is not closed. -/
  | openHeader
  /-- A header for the next table of an array is not closed. -/
  | openArrayHeader
  /-- A header names a table that is there already. -/
  | declaredTwice (names : List String)
  /-- A table that is given as a whole would be changed. -/
  | immutable (names : List String)
  /-- A table that a header opened would be extended by a dotted key. -/
  | redefined (names : List String)
  /-- A value would take the place of another. -/
  | overwritten
  /-- A table on one line names a key twice. -/
  | repeatedKey (name : String)
  /-- An array is not closed. -/
  | openArray
  /-- A table on one line is not closed. -/
  | openTable
  /-- There is no such day. -/
  | noSuchDay
  /-- No value stands where one should. -/
  | noValue
  deriving DecidableEq, Repr

namespace Flaw

/-- The written form of the names on the way to a table. -/
def writeNames : List String → String
  | [name] => "(" ++ Quoted.ofString name ++ ",)"
  | names => "(" ++ ", ".intercalate (names.map Quoted.ofString) ++ ")"

/-- The words for what is wrong with a text. -/
def message : Flaw → String
  | .noStatement => "Invalid statement"
  | .noLineEnd => "Expected newline or end of document after a statement"
  | .expected mark => "Expected " ++ Quoted.ofString mark
  | .controlCharacter c => "Found invalid character " ++ String.ofList (Quoted.encode [c])
  | .illegalCharacter c => "Illegal character " ++ String.ofList (Quoted.encode [c])
  | .openString => "Unterminated string"
  | .badEscape => "Unescaped '\\' in a string"
  | .badHex => "Invalid hex value"
  | .notScalar => "Escaped character is not a Unicode scalar value"
  | .noKey => "Invalid initial character for a key part"
  | .noEquals => "Expected '=' after a key in a key/value pair"
  | .openHeader => "Expected ']' at the end of a table declaration"
  | .openArrayHeader => "Expected ']]' at the end of an array declaration"
  | .declaredTwice names => "Cannot declare " ++ writeNames names ++ " twice"
  | .immutable names => "Cannot mutate immutable namespace " ++ writeNames names
  | .redefined names => "Cannot redefine namespace " ++ writeNames names
  | .overwritten => "Cannot overwrite a value"
  | .repeatedKey name => "Duplicate inline table key " ++ Quoted.ofString name
  | .openArray => "Unclosed array"
  | .openTable => "Unclosed inline table"
  | .noSuchDay => "Invalid date or datetime"
  | .noValue => "Invalid value"

end Flaw

/-- A flaw and the position that it is charged to, unless that is the end of the text. -/
structure Malformed where
  flaw : Flaw
  position : Option Position
  deriving DecidableEq, Repr

/-- The words for a flaw with its position. -/
def Malformed.message (m : Malformed) : String :=
  let place :=
    match m.position with
    | none => "end of document"
    | some p => "line " ++ Numeral.nat p.line ++ ", column " ++ Numeral.nat p.column
  m.flaw.message ++ " (at " ++ place ++ ")"

/-- Why a text has no table. -/
inductive Fault where
  | malformed (m : Malformed)
  | limit (l : Limit)
  deriving DecidableEq, Repr

end VSyntax.Toml
