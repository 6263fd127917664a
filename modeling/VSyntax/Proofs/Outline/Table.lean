import VSyntax.Outline
import VSyntax.Proofs.Standard.Table

/-!
# The standard outline patterns

What the patterns of a standard outline compile to, written out. A declaration is told by its
keyword alone: its pattern is one expression with the keyword as a parameter
(`Declaration.expr`), in which a mark of public declarations and a receiver may have a place. The
outline of a text is then the sorted list of what the seven expressions find (`outline_eq`).
-/
namespace VSyntax.Outline

open Regex Standard

/-! ## Parts of the patterns -/

/-- The characters ` ` and tab. -/
def gapItems : List CharItem := [.code 0x20, .code 0x09]

/-- A gap of at least `least` characters. -/
def gap (least : Nat) : Expr := run least gapItems

/-- The characters of a word one by one, then `rest`. -/
def spell (word : List Char) (rest : Expr) : Expr :=
  word.foldr (fun c e => .seq (.char c.toNat) e) rest

/-- The mark of a public declaration and a gap, which may be left out. -/
def publicMark : Expr := maybe (spell "pub".toList (gap 1))

/-- A receiver in parentheses, which may be left out. -/
def receiver : Expr :=
  maybe (spell ['('] (.seq (.many 0 none true (.oneOf true [.code 0x29, .code 0x0A]))
    (spell [')'] (gap 0))))

/-- The captured name of a declaration. -/
def label : Expr := name letterItems

/-! ## Declarations -/

/-- A kind of declaration: its keyword, and whether it may be public and may have a receiver. -/
structure Declaration where
  kind : String
  word : List Char
  canBePublic : Bool
  hasReceiver : Bool
  deriving DecidableEq, Repr

namespace Declaration

/-- What stands between the keyword of a declaration and its name. -/
def beforeLabel (d : Declaration) (rest : Expr) : Expr :=
  if d.hasReceiver then .seq receiver rest else rest

/-- What stands in front of the keyword of a declaration. -/
def beforeWord (d : Declaration) (rest : Expr) : Expr :=
  if d.canBePublic then .seq publicMark rest else rest

/-- A line that begins with the declaration, up to its name. -/
def expr (d : Declaration) : Expr :=
  .seq (.anchor .lineStart) (.seq (gap 0)
    (d.beforeWord (spell d.word (.seq (gap 1) (d.beforeLabel label)))))

/-- The kinds of declarations of the source language. -/
def all : List Declaration := [
  ⟨"function", "fn".toList, true, true⟩,
  ⟨"struct", "struct".toList, true, false⟩,
  ⟨"interface", "interface".toList, true, false⟩,
  ⟨"type", "type".toList, true, false⟩,
  ⟨"enum", "enum".toList, true, false⟩,
  ⟨"module", "module".toList, false, false⟩]

end Declaration

/-! ## Reminders -/

/-- The words that a reminder begins with. -/
def reminderWords : List (List Char) := ["TODO", "FIXME", "XXX", "HACK"].map String.toList

/-- The captured text of a reminder, from its word on. -/
def reminderLabel : Expr :=
  .group 1 (.seq (.ofAlt (reminderWords.map fun w => .ofSeq (w.map fun c => .char c.toNat)))
    (.seq (.anchor (.wordEdge .word)) (.many 0 none false .anyButLineEnd)))

/-- A line comment with a reminder, up to the end of the line. -/
def reminder : Expr :=
  spell ['/', '/'] (.seq (gap 0) (.seq reminderLabel (.seq (gap 0) (.anchor .lineEnd))))

/-! ## The table -/

/-- What the standard patterns compile to, by the kinds of their entries. -/
def table : List (String × Expr) :=
  (Declaration.all.map fun d => (d.kind, d.expr)) ++ [("todo", reminder)]

set_option maxRecDepth 16000 in
/-- Wherever there is room for six calls inside each other, the patterns compile to the table: each
parses to the expression written above, and its first group counts. -/
theorem compile_eq_table {host : Host} (h : 6 ≤ host.room) :
    (OutlinePattern.standard.mapM fun p => return (p.kind, ← p.compile host)) =
      .ok (table.map fun c => (c.1, (⟨c.2, 1⟩, 1))) := by
  obtain ⟨named?, room⟩ := host
  obtain ⟨more, rfl⟩ := Nat.exists_eq_add_of_le' h
  rfl

/-- The entries of a kind that an expression finds in a text. -/
def entriesOf (t : Text) (c : String × Expr) : List OutlineEntry :=
  OutlinePattern.entries c.1 t (⟨c.2, 1⟩, 1)

/-- The outline of a text is what the expressions of the table find, sorted. -/
theorem outline_eq (t : Text) :
    outline t = .ok ((table.flatMap (entriesOf t)).mergeSort OutlineEntry.before) := by
  rw [outline, outlineBy, compile_eq_table (by decide)]
  simp only [bind, Except.bind, pure, Except.pure, List.flatMap_map]
  rfl

end VSyntax.Outline
