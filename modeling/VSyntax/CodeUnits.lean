import VSyntax.Text

/-!
# Code units

How editors count along a line. A character is one or more code units of the encoding that editor
and server have agreed on, or simply one where they count characters. The module converts between
offsets and places, the line and the code units before an offset on it, both counted from zero.
-/
namespace VSyntax

/-- A count of code units per character, at least one for each. -/
structure CodeUnits where
  width : Char → Nat
  width_pos : ∀ c, 1 ≤ width c

namespace CodeUnits

/-- The code units of UTF-8. -/
def utf8 : CodeUnits where
  width c :=
    if c.toNat < 0x80 then 1
    else if c.toNat < 0x800 then 2
    else if c.toNat < 0x10000 then 3
    else 4
  width_pos c := by (repeat' split) <;> omega

/-- The code units of UTF-16. -/
def utf16 : CodeUnits where
  width c := if c.toNat < 0x10000 then 1 else 2
  width_pos c := by split <;> omega

/-- The code units of UTF-32, one for each character. -/
def utf32 : CodeUnits where
  width _ := 1
  width_pos _ := Nat.le_refl 1

/-- The code units of a text. -/
def count (u : CodeUnits) (t : Text) : Nat := (t.toList.map u.width).foldr (· + ·) 0

end CodeUnits

/-- The length of a text in code units, or in characters. -/
def unitCount (units : Option CodeUnits) (t : Text) : Nat :=
  match units with
  | none => t.size
  | some u => u.count t

/-- A place in a text: a line and the code units before it on that line, both from zero. -/
structure Place where
  line : Nat
  unit : Nat
  deriving DecidableEq, Repr

namespace Place

/-- The offset reached from `pos` once `target` code units are behind, `taken` of them so far,
within the next `steps` characters. -/
def advance (u : CodeUnits) (t : Text) (target : Nat) : Nat → Nat → Nat → Nat
  | 0, pos, _ => pos
  | steps + 1, pos, taken =>
    if taken < target then
      advance u t target steps (pos + 1) (taken + ((t[pos]?).map u.width).getD 0)
    else pos

/-- The offset of a place. A line past the last one stands for the end of the text, a code unit past
the line for its end, and a code unit inside a character for the offset after it. -/
def offset (t : Text) (units : Option CodeUnits) (p : Place) : Nat :=
  match t.lineStart? p.line with
  | none => t.size
  | some start =>
    match units with
    | none => min (start + p.unit) (t.lineEnd start)
    | some u => advance u t p.unit (t.lineEnd start - start) start 0

/-- The line of an offset: the last that begins at the offset or before it. -/
def lineOf (starts : List Nat) (offset : Nat) : Nat := starts.countP (· ≤ offset) - 1

/-- The place of an offset, given where the lines begin. -/
def ofOffset (t : Text) (units : Option CodeUnits) (starts : List Nat) (offset : Nat) : Place :=
  let line := lineOf starts offset
  ⟨line, unitCount units (t.slice (starts[line]?.getD 0) offset)⟩

end Place

end VSyntax
