import VSyntax.Text
import VSyntax.Category

/-!
# Spans and regions

A span is a stretch of a text with its category. A region is a pair of offsets that a caller asks
for; it may be negative, inverted or past the end, and is fitted to a text before use.
-/
namespace VSyntax

/-- The stretch from offset `start` up to, and without, offset `stop`, with its category. -/
structure Span where
  start : Nat
  stop : Nat
  category : Category
  deriving DecidableEq, Repr

namespace Span

/-- The text under a span. -/
def text (s : Span) (source : Text) : Text := source.slice s.start s.stop

/-- The part of a span that lies in `lo, …, hi - 1`, if it is not empty. -/
def clip (lo hi : Nat) (s : Span) : Option Span :=
  if max s.start lo < min s.stop hi then
    some { s with start := max s.start lo, stop := min s.stop hi }
  else none

end Span

/-- A pair of offsets as a caller gives it. -/
structure Region where
  start : Int
  stop : Int
  deriving DecidableEq, Repr

namespace Region

/-- The start of a region within a text of the given size. -/
def lower (r : Region) (size : Nat) : Nat := (min r.start size).toNat

/-- The stop of a region within a text of the given size, never before its start. -/
def upper (r : Region) (size : Nat) : Nat := max (r.lower size) (min r.stop size).toNat

/-- The bounds that an optional region sets on a text: without one, the whole text. -/
def bounds (region : Option Region) (size : Nat) : Nat × Nat :=
  match region with
  | none => (0, size)
  | some r => (r.lower size, r.upper size)

end Region

end VSyntax
