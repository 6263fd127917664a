/-!
# Texts

A text is an array of characters, so an offset counts characters and never bytes. A character is a
Unicode scalar value: texts that hold halves of surrogate pairs, which no decoding of UTF-8 gives,
are left out. The module holds the questions that the scanners ask of a text: what stands between
two offsets, whether a fixed part stands at an offset, where it stands next, and where the lines
begin.
-/
namespace VSyntax

/-- A text by its characters. -/
abbrev Text := Array Char

namespace Text

/-- The text of a string. -/
def ofString (s : String) : Text := s.toList.toArray

/-- The string of a text. -/
def string (t : Text) : String := String.ofList t.toList

/-- The characters from `start` on and before `stop`; an offset past the end counts as the end. -/
def slice (t : Text) (start stop : Nat) : Text := t.extract start stop

/-- Whether `part` stands at `pos` and ends no later than `stop`. -/
def startsAt (t : Text) : List Char → Nat → Nat → Bool
  | [], _, _ => true
  | c :: part, pos, stop =>
    decide (pos < stop) && t[pos]? == some c && startsAt t part (pos + 1) stop

/-- The first offset in `pos, …, pos + steps - 1` at which `part` stands and ends by `stop`. -/
def findWithin (t : Text) (part : List Char) (stop : Nat) : Nat → Nat → Option Nat
  | 0, _ => none
  | steps + 1, pos =>
    if startsAt t part pos stop then some pos else findWithin t part stop steps (pos + 1)

/-- The first offset from `pos` on at which `part` stands and ends by `stop`. -/
def find? (t : Text) (part : List Char) (pos stop : Nat) : Option Nat :=
  findWithin t part stop (stop - pos) pos

/-- The offset of the first line end from `pos` on, or the size of the text. -/
def lineEnd (t : Text) (pos : Nat) : Nat := (find? t ['\n'] pos t.size).getD t.size

/-- The offset at which the line begins that is so many lines after the one that begins at `first`.
-/
def lineStartAfter (t : Text) : Nat → Nat → Option Nat
  | 0, first => some first
  | lines + 1, first =>
    match t.find? ['\n'] first t.size with
    | none => none
    | some last => lineStartAfter t lines (last + 1)

/-- The offset at which a line begins, found by one search for a line end after the other. -/
def lineStart? (t : Text) (line : Nat) : Option Nat := t.lineStartAfter line 0

/-- The offsets at which the lines begin: zero, and each offset just after a line end. -/
def lineStarts (t : Text) : List Nat :=
  0 :: ((List.range t.size).filter fun i => t[i]? == some '\n').map (· + 1)

end Text

end VSyntax
