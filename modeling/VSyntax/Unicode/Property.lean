import VSyntax.Unicode.Letter
import VSyntax.Unicode.Numeric
import VSyntax.Unicode.Mark
import VSyntax.Unicode.Hidden

/-!
# Character properties

The character classes that the rest of the library asks for: alphanumeric, blank, decimal digit
(with its value), visible, and the two identifier classes. Each is decided by the general categories
of Unicode 14.0. ASCII is decided by comparison alone, so that evaluation on ASCII text never opens
a table; beyond ASCII a table of closed ranges is searched by halving.
-/
namespace VSyntax.Unicode

/-! ## Range tables -/

/-- Whether one of the ranges `t[lo], …, t[hi - 1]` holds `n`, by halving at most `steps` times. -/
def searchRanges (t : Array (Nat × Nat)) (n : Nat) : Nat → Nat → Nat → Bool
  | 0, _, _ => false
  | steps + 1, lo, hi =>
    if lo < hi then
      match t[(lo + hi) / 2]? with
      | none => false
      | some (first, last) =>
        if n < first then searchRanges t n steps lo ((lo + hi) / 2)
        else if last < n then searchRanges t n steps ((lo + hi) / 2 + 1) hi
        else true
    else false

/-- Whether a table of increasing closed ranges holds `n`. -/
def inRanges (t : Array (Nat × Nat)) (n : Nat) : Bool :=
  searchRanges t n (t.size.log2 + 1) 0 t.size

/-! ## Digits -/

/-- The code points of the digits zero; the nine code points after each are the digits one to nine
of the same script. -/
def decimalZeros : List Nat := [
  0x30, 0x660, 0x6f0, 0x7c0, 0x966, 0x9e6, 0xa66, 0xae6, 0xb66, 0xbe6, 0xc66, 0xce6, 0xd66, 0xde6,
  0xe50, 0xed0, 0xf20, 0x1040, 0x1090, 0x17e0, 0x1810, 0x1946, 0x19d0, 0x1a80, 0x1a90, 0x1b50,
  0x1bb0, 0x1c40, 0x1c50, 0xa620, 0xa8d0, 0xa900, 0xa9d0, 0xa9f0, 0xaa50, 0xabf0, 0xff10, 0x104a0,
  0x10d30, 0x11066, 0x110f0, 0x11136, 0x111d0, 0x112f0, 0x11450, 0x114d0, 0x11650, 0x116c0,
  0x11730, 0x118e0, 0x11950, 0x11c50, 0x11d50, 0x11da0, 0x16a60, 0x16ac0, 0x16b50, 0x1d7ce,
  0x1d7d8, 0x1d7e2, 0x1d7ec, 0x1d7f6, 0x1e140, 0x1e2f0, 0x1e950, 0x1fbf0]

/-- The value of a decimal digit of any script. -/
def decimalValue? (c : Char) : Option Nat :=
  if c.toNat < 0x80 then
    if 0x30 ≤ c.toNat ∧ c.toNat ≤ 0x39 then some (c.toNat - 0x30) else none
  else (decimalZeros.find? fun z => z ≤ c.toNat && c.toNat < z + 10).map (c.toNat - ·)

/-- A decimal digit of any script. -/
def isDecimal (c : Char) : Bool := (decimalValue? c).isSome

/-! ## Letters and numerals -/

/-- A letter of any script. -/
def isLetter (c : Char) : Bool :=
  if c.toNat < 0x80 then
    (0x41 ≤ c.toNat && c.toNat ≤ 0x5A) || (0x61 ≤ c.toNat && c.toNat ≤ 0x7A)
  else inRanges letterRanges c.toNat

/-- A numeral that is neither a letter nor a decimal digit, such as a superscript or a fraction. -/
def isNumeral (c : Char) : Bool :=
  if c.toNat < 0x80 then false else inRanges numeralRanges c.toNat

/-- A letter, a decimal digit or another numeral. -/
def isAlphanumeric (c : Char) : Bool := isLetter c || isDecimal c || isNumeral c

/-! ## Blanks -/

/-- A blank: a separator of words or lines, or one of the control characters that part text. -/
def isBlank (c : Char) : Bool :=
  let n := c.toNat
  if n < 0x80 then (0x09 ≤ n && n ≤ 0x0D) || (0x1C ≤ n && n ≤ 0x20)
  else n == 0x85 || n == 0xA0 || n == 0x1680 || (0x2000 ≤ n && n ≤ 0x200A) || n == 0x2028 ||
    n == 0x2029 || n == 0x202F || n == 0x205F || n == 0x3000

/-! ## Visible characters -/

/-- A character with a visible form; of the separators only the space counts. -/
def isVisible (c : Char) : Bool :=
  if c.toNat < 0x80 then 0x20 ≤ c.toNat && c.toNat ≤ 0x7E else !inRanges hiddenRanges c.toNat

/-! ## Identifiers -/

/-- The letter numbers, numerals that may begin an identifier. -/
def letterNumberRanges : Array (Nat × Nat) := #[
  (0x16ee, 0x16f0), (0x2160, 0x2182), (0x2185, 0x2188), (0x3007, 0x3007), (0x3021, 0x3029),
  (0x3038, 0x303a), (0xa6e6, 0xa6ef), (0x10140, 0x10174), (0x10341, 0x10341), (0x1034a, 0x1034a),
  (0x103d1, 0x103d5), (0x12400, 0x1246e)]

/-- The connecting punctuation beside the underscore. -/
def connectorRanges : Array (Nat × Nat) := #[
  (0x203f, 0x2040), (0x2054, 0x2054), (0xfe33, 0xfe34), (0xfe4d, 0xfe4f), (0xff3f, 0xff3f)]

/-- Where the class of identifier starts departs from letters and letter numbers: compatibility
forms are left out, two letter-like symbols are let in. -/
def startExceptions : Array (Nat × Nat) := #[
  (0x37a, 0x37a), (0xe33, 0xe33), (0xeb3, 0xeb3), (0x1885, 0x1886), (0x2118, 0x2118),
  (0x212e, 0x212e), (0x2e2f, 0x2e2f), (0xfc5e, 0xfc63), (0xfdfa, 0xfdfb), (0xfe70, 0xfe70),
  (0xfe72, 0xfe72), (0xfe74, 0xfe74), (0xfe76, 0xfe76), (0xfe78, 0xfe78), (0xfe7a, 0xfe7a),
  (0xfe7c, 0xfe7c), (0xfe7e, 0xfe7e), (0xff9e, 0xff9f)]

/-- Where the class of identifier parts departs from letters, letter numbers, digits, marks and
connectors. -/
def partExceptions : Array (Nat × Nat) := #[
  (0xb7, 0xb7), (0x37a, 0x37a), (0x387, 0x387), (0x1369, 0x1371), (0x19da, 0x19da),
  (0x2118, 0x2118), (0x212e, 0x212e), (0x2e2f, 0x2e2f), (0xfc5e, 0xfc63), (0xfdfa, 0xfdfb),
  (0xfe70, 0xfe70), (0xfe72, 0xfe72), (0xfe74, 0xfe74), (0xfe76, 0xfe76), (0xfe78, 0xfe78),
  (0xfe7a, 0xfe7a), (0xfe7c, 0xfe7c), (0xfe7e, 0xfe7e)]

/-- A character that may begin an identifier. -/
def isIdentifierStart (c : Char) : Bool :=
  if c.toNat < 0x80 then isLetter c || c == '_'
  else (isLetter c || inRanges letterNumberRanges c.toNat) != inRanges startExceptions c.toNat

/-- A character that may stand in an identifier after its first. -/
def isIdentifierPart (c : Char) : Bool :=
  if c.toNat < 0x80 then isLetter c || isDecimal c || c == '_'
  else
    (isLetter c || inRanges letterNumberRanges c.toNat || isDecimal c ||
      inRanges markRanges c.toNat || inRanges connectorRanges c.toNat) !=
        inRanges partExceptions c.toNat

/-- An identifier: one character that may begin it, then characters that may continue it. -/
def isIdentifier : List Char → Bool
  | [] => false
  | c :: rest => isIdentifierStart c && rest.all isIdentifierPart

end VSyntax.Unicode
