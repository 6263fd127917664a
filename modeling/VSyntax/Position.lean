import VSyntax.Text

/-!
# Positions

The line and the column of an offset, both counted from one and in characters. An offset outside the
text stands for the nearest offset inside.
-/
namespace VSyntax

/-- A place in a text: line and column from one, offset from zero. -/
structure Position where
  line : Nat
  column : Nat
  offset : Nat
  deriving DecidableEq, Repr

namespace Position

/-- The position of an offset inside the text: one more than the line ends before it, and one more
than the characters after the last of them. -/
def ofOffset (t : Text) (offset : Nat) : Position :=
  let before := (t.slice 0 offset).toList
  { line := before.count '\n' + 1
    column := (before.reverse.takeWhile (· != '\n')).length + 1
    offset := offset }

/-- The position of any integer offset, moved to the nearest offset of the text first. -/
def nearest (t : Text) (offset : Int) : Position :=
  ofOffset t (min offset t.size).toNat

end Position

end VSyntax
