import VSyntax.Proofs.Vocabulary

/-!
# The standard rule table

What the standard layout compiles to, written out: the expressions of the shapes as trees, and among
them the words of the seven keyword sets. A vocabulary whose word classes can be built compiles to
this table (`Vocabulary.rules_eq_table`), and a set of the table holds the words that the vocabulary
gives it and no others.
-/
namespace VSyntax

namespace Standard

open Regex

/-! ## Expressions of the shapes -/

/-- A character that one of the items names. -/
def one (items : List CharItem) : Expr := .oneOf false items

/-- A run of characters that the items name, at least `least` of them and as many as there are. -/
def run (least : Nat) (items : List CharItem) : Expr := .many least none true (one items)

/-- An expression that may be left out. -/
def maybe (e : Expr) : Expr := .many 0 (some 1) true e

def wordItems : List CharItem := [.kind .word false]

def upperItems : List CharItem := [.range 0x41 0x5A]

def lowerItems : List CharItem := [.range 0x61 0x7A, .code 0x5F]

def letterItems : List CharItem := [.range 0x41 0x5A, .range 0x61 0x7A, .code 0x5F]

def digitItems : List CharItem := [.kind .digit false]

def numeralItems : List CharItem := [.kind .digit false, .code 0x5F]

/-- The characters `+ - * / % < > = ! & | ^ ~`. -/
def operatorItems : List CharItem :=
  [0x2B, 0x2D, 0x2A, 0x2F, 0x25, 0x3C, 0x3E, 0x3D, 0x21, 0x26, 0x7C, 0x5E, 0x7E].map .code

/-- A captured name: a character that the items name, then word characters. -/
def name (heads : List CharItem) : Expr := .group 1 (.seq (one heads) (run 0 wordItems))

/-- No word character stands in front. -/
def fresh : Expr := .behind true 1 (one wordItems)

def attributeName : Expr :=
  .group 1 (.seq (one [.code 0x40, .code 0x24]) (.seq (one letterItems) (run 0 wordItems)))

def multiCharOperator : Expr :=
  .group 1 (.ofAlt [
    .ofSeq [.char 0x3C, .char 0x3C, .char 0x3D],
    .ofSeq [.char 0x3E, .char 0x3E, .char 0x3D],
    .ofSeq [.char 0x2E, .char 0x2E, .char 0x2E],
    .ofSeq [.char 0x2E, .char 0x2E],
    .ofSeq [.char 0x3A, .char 0x3D],
    .ofSeq [.char 0x3D, .char 0x3E],
    .ofSeq [.char 0x3C, .char 0x2D],
    .ofSeq [.char 0x2D, .char 0x3E],
    .ofSeq [.char 0x7C, .char 0x3E],
    .ofSeq [.char 0x2B, .char 0x2B],
    .ofSeq [.char 0x2D, .char 0x2D],
    .ofSeq [one ([0x2B, 0x2D, 0x2A, 0x2F, 0x25, 0x26, 0x7C, 0x5E].map .code), .char 0x3D]])

def separator : Expr :=
  .group 1 (.alt (one [.code 0x2C, .code 0x3B])
    (.seq (.char 0x2E) (.ahead true (.seq (.char 0x5F) (one digitItems)))))

def arithmeticOperator : Expr :=
  .group 1 (.alt (.seq (.char 0x21) (.char 0x3D))
    (run 1 ([0x2B, 0x2D, 0x2A, 0x2F, 0x25, 0x3C, 0x3E, 0x3D].map .code)))

def logicalOperator : Expr :=
  .group 1 (run 1 ([0x21, 0x26, 0x7C, 0x5E, 0x7E, 0x3F].map .code))

def colon : Expr :=
  .seq (.behind true 1 (one (.code 0x3A :: operatorItems)))
    (.seq (.group 1 (.char 0x3A)) (.ahead true (one (.code 0x3A :: operatorItems))))

def delimiter : Expr := .group 1 (one ([0x28, 0x29, 0x5B, 0x5D, 0x7B, 0x7D].map .code))

/-- The start of the text, or a blank, an operator character or an opening in front. -/
def numericFront : Expr :=
  .alt (.anchor .textStart) (.behind false 1
    (one (.kind .blank false :: (operatorItems ++ [0x3A, 0x28, 0x5B, 0x7B, 0x2C].map .code))))

/-- A numeral after `0` and the letter of its base. -/
def based (letters digits : List CharItem) : Expr :=
  .seq (.char 0x30) (.seq (one letters) (run 1 digits))

def fraction : Expr := .seq (.char 0x2E) (.seq (one digitItems) (run 0 numeralItems))

def exponent : Expr :=
  .seq (one [.code 0x65, .code 0x45]) (.seq (maybe (one [.code 0x2B, .code 0x2D]))
    (run 1 digitItems))

def decimal : Expr :=
  .seq (one digitItems) (.seq (run 0 numeralItems) (.seq (maybe fraction) (maybe exponent)))

def numericLiteral : Expr :=
  .seq numericFront (.group 1 (.ofAlt [
    based [.code 0x78, .code 0x58]
      [.range 0x30 0x39, .range 0x61 0x66, .range 0x41 0x46, .code 0x5F],
    based [.code 0x62, .code 0x42] [.code 0x30, .code 0x31, .code 0x5F],
    based [.code 0x6F, .code 0x4F] [.range 0x30 0x37, .code 0x5F],
    decimal]))

def afterFn : Expr :=
  .behind false 3 (.seq (.anchor (.wordEdge .word)) (.seq (.char 0x66) (.seq (.char 0x6E)
    (one [.kind .blank false]))))

def functionName : Expr := .seq afterFn (name letterItems)

def typeName : Expr := .seq fresh (name upperItems)

def charLiteral : Expr :=
  .group 1 (.seq (.char 0x60) (.seq (.alt (.seq (.char 0x5C) .anyButLineEnd)
    (.oneOf true [.code 0x60, .code 0x5C])) (.char 0x60)))

def callReference : Expr := .seq fresh (.seq (name letterItems) (.ahead false (.char 0x28)))

def afterOpening : Expr :=
  .alt (.behind false 1 (one [.code 0x28, .code 0x2C]))
    (.behind false 2 (.seq (one [.code 0x28, .code 0x2C]) (one [.kind .blank false])))

def parameter : Expr := .seq afterOpening (name lowerItems)

def tupleReference : Expr :=
  .seq (.char 0x2E) (.seq (.group 1 (.seq (.char 0x5F) (run 1 digitItems)))
    (.ahead true (one wordItems)))

def variableReference : Expr := .seq fresh (name lowerItems)

/-! ## The table -/

/-- The rule of a shape, whose first group counts. -/
def shapeRule (name : String) (category : Category) (body : Expr) : Rule :=
  .shape name category ⟨body, 1⟩ 1

/-- The rule for the words of a keyword set. -/
def setRule (words : KeywordSet → List (List Char)) (s : KeywordSet) : Rule :=
  .words s.name s.category (words s)

/-- The rules of the source language with the given words. -/
def table (words : KeywordSet → List (List Char)) : RuleTable := [
  setRule words .builtin,
  setRule words .careful,
  shapeRule "attribute" .attribute attributeName,
  setRule words .declaration,
  setRule words .preprocessor,
  shapeRule "multi_char_operator" .operator multiCharOperator,
  shapeRule "separator" .separator separator,
  shapeRule "arithmetic_operator" .operator arithmeticOperator,
  shapeRule "logical_operator" .operator logicalOperator,
  shapeRule "colon" .separator colon,
  shapeRule "delimiter" .delimiter delimiter,
  shapeRule "numeric_literal" .numericLiteral numericLiteral,
  shapeRule "function_name" .functionName functionName,
  shapeRule "type_name" .typeName typeName,
  setRule words .keywords,
  setRule words .constants,
  setRule words .operatorFunctions,
  shapeRule "char_literal" .charLiteral charLiteral,
  shapeRule "call_reference" .callReference callReference,
  shapeRule "parameter" .parameter parameter,
  shapeRule "tuple_reference" .tupleReference tupleReference,
  shapeRule "variable_reference" .variableReference variableReference]

/-- The expressions of the shapes, in the order of the table. -/
def shapes : List Expr := [
  attributeName, multiCharOperator, separator, arithmeticOperator, logicalOperator, colon,
  delimiter, numericLiteral, functionName, typeName, charLiteral, callReference, parameter,
  tupleReference, variableReference]

/-- The shapes with the categories that they are shown in. -/
def shown : List (Category × Expr) := [
  (.attribute, attributeName), (.operator, multiCharOperator), (.separator, separator),
  (.operator, arithmeticOperator), (.operator, logicalOperator), (.separator, colon),
  (.delimiter, delimiter), (.numericLiteral, numericLiteral), (.functionName, functionName),
  (.typeName, typeName), (.charLiteral, charLiteral), (.callReference, callReference),
  (.parameter, parameter), (.tupleReference, tupleReference),
  (.variableReference, variableReference)]

variable {words : KeywordSet → List (List Char)} {rule : Rule}

/-- Each rule of the table is the rule of a keyword set, or of a shape in its category. -/
theorem mem_table_shown (h : rule ∈ table words) : (∃ s, rule = setRule words s) ∨
    ∃ name, ∃ x ∈ shown, rule = shapeRule name x.1 x.2 := by
  simp only [table, List.mem_cons, List.not_mem_nil, or_false] at h
  rcases h with rfl | rfl | rfl | rfl | rfl | rfl | rfl | rfl | rfl | rfl | rfl | rfl | rfl | rfl |
    rfl | rfl | rfl | rfl | rfl | rfl | rfl | rfl
  all_goals first
    | exact .inl ⟨_, rfl⟩
    | exact .inr ⟨_, (_, _), by decide, rfl⟩

/-- Each rule of the table is the rule of a keyword set or of a shape. -/
theorem mem_table (h : rule ∈ table words) : (∃ s, rule = setRule words s) ∨
    ∃ name category, ∃ body ∈ shapes, rule = shapeRule name category body := by
  have hshapes : ∀ x ∈ shown, x.2 ∈ shapes := by decide
  rcases mem_table_shown h with hset | ⟨name, x, hx, rfl⟩
  · exact .inl hset
  · exact .inr ⟨name, x.1, x.2, hshapes x hx, rfl⟩

/-- No shape captures in an assertion on what stands behind. -/
theorem capturesBehind_of_mem_table (h : rule ∈ table words) : rule.capturesBehind = false := by
  rcases mem_table h with ⟨s, rfl⟩ | ⟨name, category, body, hbody, rfl⟩
  · rfl
  · have hshapes : ∀ e ∈ shapes, e.capturesBehind = false := by decide
    exact hshapes body hbody

set_option maxRecDepth 16000 in
/-- Wherever there is room for six calls inside each other, the standard layout compiles to the
table: every pattern parses to the expression written above. -/
theorem compile_eq_table {host : Regex.Host} (h : 6 ≤ host.room)
    (words : KeywordSet → List (List Char)) :
    Layout.standard.compile host (KeywordSet.all.map fun s => ⟨s.name, words s, s.category⟩) =
      .ok (table words) := by
  obtain ⟨named?, room⟩ := host
  obtain ⟨more, rfl⟩ := Nat.exists_eq_add_of_le' h
  rfl

end Standard

/-- A vocabulary whose word classes can be built has the standard table of its words. -/
theorem Vocabulary.rules_eq_table {v : Vocabulary} {cs : List WordClass} (h : v.classes = .ok cs) :
    v.rules = .ok (Standard.table v.words) := by
  simp only [Vocabulary.rules, h, bind, Except.bind]
  rw [(Vocabulary.classes_eq h).1, Standard.compile_eq_table (by decide)]

end VSyntax
