import VSyntax.Numeral
import VSyntax.Unicode.Property

/-!
# Written integers

The numbers that a text can spell: with blanks around them, with a sign, in the digits of any
script, and with single underscores between digits. A number of too many digits is not read.
-/
namespace VSyntax.Integer

/-- A blank that may stand around a number. -/
def isPadding (c : Char) : Bool :=
  if c.toNat < 0x80 then c == ' ' || (0x09 ≤ c.toNat && c.toNat ≤ 0x0D) else Unicode.isBlank c

/-- A text without the padding at both ends. -/
def trimPadding (s : List Char) : List Char :=
  ((s.dropWhile isPadding).reverse.dropWhile isPadding).reverse

/-- A digit before the digits that follow it. -/
def digitBefore (c : Char) (digits : Option (List Nat)) : Option (List Nat) :=
  match Unicode.decimalValue? c, digits with
  | some d, some ds => some (d :: ds)
  | _, _ => none

/-- The digits of a number, with single underscores between them. -/
def digitsOf : List Char → Option (List Nat)
  | [] => none
  | [c] => digitBefore c (some [])
  | c :: '_' :: rest => digitBefore c (digitsOf rest)
  | c :: rest => digitBefore c (digitsOf rest)

/-- The most digits that a decimal number may have. -/
def digitLimit : Nat := 4300

/-- The words for a decimal number of too many digits. -/
def limitMessage (digits : Nat) : String :=
  "Exceeds the limit (" ++ Numeral.nat digitLimit ++ " digits) for integer string conversion: " ++
    "value has " ++ Numeral.nat digits ++ " digits; use sys.set_int_max_str_digits() to " ++
    "increase the limit"

/-- The number of a run of digits. -/
def readNatural (s : List Char) : Option Nat :=
  match digitsOf s with
  | none => none
  | some digits =>
    if digits.length ≤ digitLimit then some (digits.foldl (fun n d => n * 10 + d) 0) else none

/-- The number that a text spells. -/
def read (s : List Char) : Option Int :=
  match trimPadding s with
  | '-' :: digits => (readNatural digits).map fun n => -(n : Int)
  | '+' :: digits => (readNatural digits).map fun n => (n : Int)
  | digits => (readNatural digits).map fun n => (n : Int)

end VSyntax.Integer
