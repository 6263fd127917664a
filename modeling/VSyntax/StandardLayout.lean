import VSyntax.Rule
import VSyntax.Vocabulary

/-!
# The standard layout

The lexical shapes of the source language in the order in which they are tried, with the places of
the keyword sets among them. Of two rules that match at an offset the earlier one wins.
-/
namespace VSyntax

namespace Layout

/-- The characters that operators are made of, as items of a character set. -/
def operatorItems : String := "+\\-*/%<>=!&|^~"

/-- The shapes and keyword places of the source language. -/
def standard : Layout := [
  .slot ["builtin_keywords"] false,
  .slot ["careful_keywords"] false,
  .shape ⟨"attribute", "([@$][A-Za-z_]\\w*)", 1, .attribute⟩,
  .slot ["declaration_keywords"] false,
  .slot ["preprocessor_keywords"] false,
  .shape ⟨"multi_char_operator",
    "(<<=|>>=|\\.\\.\\.|\\.\\.|:=|=>|<-|->|\\|>|\\+\\+|--|[+\\-*/%&|^]=)", 1, .operator⟩,
  .shape ⟨"separator", "([,;]|\\.(?!_\\d))", 1, .separator⟩,
  .shape ⟨"arithmetic_operator", "(!=|[+\\-*/%<>=]+)", 1, .operator⟩,
  .shape ⟨"logical_operator", "([!&|^~?]+)", 1, .operator⟩,
  .shape ⟨"colon", "(?<![:" ++ operatorItems ++ "])(:)(?![:" ++ operatorItems ++ "])", 1,
    .separator⟩,
  .shape ⟨"delimiter", "([()\\[\\]\x7b\x7d])", 1, .delimiter⟩,
  .shape ⟨"numeric_literal",
    "(?:^|(?<=[\\s" ++ operatorItems ++ ":(\\[\x7b,]))" ++
      "(0[xX][0-9a-fA-F_]+|0[bB][01_]+|0[oO][0-7_]+" ++
      "|\\d[\\d_]*(?:\\.\\d[\\d_]*)?(?:[eE][+-]?\\d+)?)", 1, .numericLiteral⟩,
  .shape ⟨"function_name", "(?<=\\bfn\\s)([A-Za-z_]\\w*)", 1, .functionName⟩,
  .shape ⟨"type_name", "(?<!\\w)([A-Z]\\w*)", 1, .typeName⟩,
  .slot ["keywords", "constants", "operator_functions"] true,
  .shape ⟨"char_literal", "(\x60(?:\\\\.|[^\x60\\\\])\x60)", 1, .charLiteral⟩,
  .shape ⟨"call_reference", "(?<!\\w)([A-Za-z_]\\w*)(?=\\()", 1, .callReference⟩,
  .shape ⟨"parameter", "(?:(?<=[(,])|(?<=[(,]\\s))([a-z_]\\w*)", 1, .parameter⟩,
  .shape ⟨"tuple_reference", "\\.(_\\d+)(?!\\w)", 1, .tupleReference⟩,
  .shape ⟨"variable_reference", "(?<!\\w)([a-z_]\\w*)", 1, .variableReference⟩]

end Layout

namespace Vocabulary

/-- The rule table of a vocabulary under the standard layout. -/
def rules (v : Vocabulary) : Except Fault RuleTable := do
  let classes ← v.classes
  Layout.standard.compile .standard classes

end Vocabulary

/-- The rule table of the standard vocabulary. -/
def RuleTable.standard : Except Fault RuleTable := Vocabulary.standard.rules

end VSyntax
