/-!
# Numerals

The written forms of whole numbers: decimal, with a sign where one is needed, and hexadecimal of a
least width.
-/
namespace VSyntax.Numeral

/-- The decimal digits of a natural number. -/
def ofNat (n : Nat) : List Char := Nat.toDigits 10 n

/-- The decimal digits of an integer, after a minus sign when it is negative. -/
def ofInt : Int → List Char
  | .ofNat n => ofNat n
  | .negSucc n => '-' :: ofNat (n + 1)

/-- A numeral led by zeros up to a least width. -/
def zeroPadded (width : Nat) (digits : List Char) : List Char :=
  List.replicate (width - digits.length) '0' ++ digits

/-- The lowercase hexadecimal digits of a natural number, led by zeros up to a least width. -/
def hex (width n : Nat) : List Char := zeroPadded width (Nat.toDigits 16 n)

/-- The written form of a natural number. -/
def nat (n : Nat) : String := String.ofList (ofNat n)

/-- The written form of an integer. -/
def int (n : Int) : String := String.ofList (ofInt n)

end VSyntax.Numeral
