import VSyntax.Unicode.Property
import VSyntax.Numeral

/-!
# Quoted texts

The quoted form of a text in messages and span dumps: one line, in quotes, from which the text can
be read back. The mark is an apostrophe, unless the text holds an apostrophe and no double quote.
The mark and the backslash are escaped, so are line feed, carriage return and tab, and every other
character without a visible form is written by its code point.
-/
namespace VSyntax.Quoted

/-- The mark that encloses a text: the apostrophe, or the double quote where that alone avoids an
escape. -/
def mark (s : List Char) : Char := if '\x27' ∈ s ∧ '"' ∉ s then '"' else '\x27'

/-- A character without a visible form by its code point, in two, four or eight digits. -/
def escapeCode (c : Char) : List Char :=
  if c.toNat < 0x100 then '\\' :: 'x' :: Numeral.hex 2 c.toNat
  else if c.toNat < 0x10000 then '\\' :: 'u' :: Numeral.hex 4 c.toNat
  else '\\' :: 'U' :: Numeral.hex 8 c.toNat

/-- One character inside the marks `m`. -/
def escape (m c : Char) : List Char :=
  if c = m ∨ c = '\\' then ['\\', c]
  else if c = '\n' then ['\\', 'n']
  else if c = '\r' then ['\\', 'r']
  else if c = '\t' then ['\\', 't']
  else if Unicode.isVisible c then [c]
  else escapeCode c

/-- The quoted form of a text. -/
def encode (s : List Char) : List Char :=
  mark s :: s.flatMap (escape (mark s)) ++ [mark s]

/-- The quoted form of a string. -/
def ofString (s : String) : String := String.ofList (encode s.toList)

end VSyntax.Quoted
