/-!
# Categories

The display categories that a classified stretch of source text can have, each with the name under
which it is written out.
-/
namespace VSyntax

/-- What a classified stretch of source text is, for display. The first five are kinds of keywords,
the last two are the stretches that delimiters open. -/
inductive Category where
  | builtinType
  | careful
  | attribute
  | declaration
  | preprocessor
  | operator
  | separator
  | delimiter
  | numericLiteral
  | functionName
  | typeName
  | keyword
  | charLiteral
  | callReference
  | parameter
  | tupleReference
  | variableReference
  | comment
  | string
  deriving DecidableEq, Repr, Inhabited

namespace Category

/-- Every category, in the order of its number. -/
def all : List Category := [
  .builtinType, .careful, .attribute, .declaration, .preprocessor, .operator, .separator,
  .delimiter, .numericLiteral, .functionName, .typeName, .keyword, .charLiteral, .callReference,
  .parameter, .tupleReference, .variableReference, .comment, .string]

/-- The written name of a category. -/
def name : Category → String
  | .builtinType => "builtin_type"
  | .careful => "careful"
  | .attribute => "attribute"
  | .declaration => "declaration"
  | .preprocessor => "preprocessor"
  | .operator => "operator"
  | .separator => "separator"
  | .delimiter => "delimiter"
  | .numericLiteral => "numeric_literal"
  | .functionName => "function_name"
  | .typeName => "type_name"
  | .keyword => "keyword"
  | .charLiteral => "char_literal"
  | .callReference => "call_reference"
  | .parameter => "parameter"
  | .tupleReference => "tuple_reference"
  | .variableReference => "variable_reference"
  | .comment => "comment"
  | .string => "string"

/-- The category with a written name. -/
def ofName? (s : String) : Option Category := all.find? fun c => c.name == s

/-- The number of a category: its place in `all`. -/
def index (c : Category) : Nat := all.idxOf c

/-- Comments and strings, the categories that delimiters decide and rules do not. -/
def isDelimited : Category → Bool
  | .comment | .string => true
  | _ => false

end Category

end VSyntax
