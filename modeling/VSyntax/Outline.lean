import VSyntax.Text
import VSyntax.Fault
import VSyntax.Regex.Matching
import VSyntax.Regex.Parser

/-!
# Outlines

The declarations and reminders of a text, found by one line pattern per kind and listed by offset.
The patterns see the plain text: the outline does not depend on comments, strings or rules.
-/
namespace VSyntax

/-- A kind of outline entry with its line pattern and the capture group that holds the label. -/
structure OutlinePattern where
  kind : String
  pattern : String
  group : Int
  deriving DecidableEq, Repr

/-- An entry of an outline: its kind, its label and where the label stands. -/
structure OutlineEntry where
  kind : String
  label : Text
  offset : Nat
  deriving DecidableEq, Repr

namespace OutlinePattern

/-- The name of a declaration, captured. -/
def nameGroup : String := "([A-Za-z_]\\w*)"

/-- The start of a line up to a declaration that may be public. -/
def lineHead : String := "^[ \\t]*(?:pub[ \\t]+)?"

/-- The declarations of the source language, and reminders in comments. -/
def standard : List OutlinePattern := [
  ⟨"function", lineHead ++ "fn[ \\t]+(?:\\([^)\\n]*\\)[ \\t]*)?" ++ nameGroup, 1⟩,
  ⟨"struct", lineHead ++ "struct[ \\t]+" ++ nameGroup, 1⟩,
  ⟨"interface", lineHead ++ "interface[ \\t]+" ++ nameGroup, 1⟩,
  ⟨"type", lineHead ++ "type[ \\t]+" ++ nameGroup, 1⟩,
  ⟨"enum", lineHead ++ "enum[ \\t]+" ++ nameGroup, 1⟩,
  ⟨"module", "^[ \\t]*module[ \\t]+" ++ nameGroup, 1⟩,
  ⟨"todo", "//[ \\t]*((?:TODO|FIXME|XXX|HACK)\\b.*?)[ \\t]*$", 1⟩]

/-- The regular expression of a pattern and its group, unless the pattern is malformed or has no
such group. -/
def compile (p : OutlinePattern) (host : Regex.Host) : Except Fault (Regex × Nat) :=
  match Regex.parse host p.pattern true with
  | .error m => .error (.pattern ⟨p.kind, p.pattern, .malformed m⟩)
  | .ok regex =>
    if 0 ≤ p.group ∧ p.group ≤ regex.groups then .ok (regex, p.group.toNat)
    else .error (.pattern ⟨p.kind, p.pattern, .noGroup p.group regex.groups⟩)

/-- The entry of a match; a group that took no part gives none. -/
def entryOf? (kind : String) (t : Text) (group : Nat) (m : Regex.Match) : Option OutlineEntry :=
  (m.extent? group).map fun extent => ⟨kind, t.slice extent.1 extent.2, extent.1⟩

/-- The entries of a compiled pattern in a text. -/
def entries (kind : String) (t : Text) (compiled : Regex × Nat) : List OutlineEntry :=
  (Regex.allMatches compiled.1 t).filterMap (entryOf? kind t compiled.2)

end OutlinePattern

namespace OutlineEntry

/-- The order of an outline: by offset, and at one offset by kind. -/
def before (a b : OutlineEntry) : Bool :=
  decide (a.offset < b.offset) || (a.offset == b.offset && !decide (b.kind < a.kind))

end OutlineEntry

/-- The outline of a text under the given patterns. Every pattern is compiled before the first is
matched. -/
def outlineBy (host : Regex.Host) (patterns : List OutlinePattern) (t : Text) :
    Except Fault (List OutlineEntry) := do
  let compiled ← patterns.mapM fun p => return (p.kind, ← p.compile host)
  let entries := compiled.flatMap fun c => OutlinePattern.entries c.1 t c.2
  return entries.mergeSort OutlineEntry.before

/-- The outline of a text of the source language. -/
def outline (t : Text) : Except Fault (List OutlineEntry) :=
  outlineBy .standard OutlinePattern.standard t

end VSyntax
