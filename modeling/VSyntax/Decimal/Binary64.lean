/-!
# Binary fractions of 64 bits

The numbers that a written decimal fraction stands for: a sign and `mantissa · 2 ^ exponent` with at
most 53 bits of mantissa, the two infinities, and not-a-number. A decimal is read as the nearest
such number, a tie going to the even mantissa, in exact arithmetic on natural numbers.
-/
namespace VSyntax

/-- A number of the double format. A finite number other than zero has 53 bits of mantissa, or fewer
at the least exponent, -1074. -/
inductive Binary64 where
  | finite (negative : Bool) (mantissa : Nat) (exponent : Int)
  | infinite (negative : Bool)
  | nan
  deriving DecidableEq, Repr

namespace Binary64

/-- Zero, with a sign. -/
def zero (negative : Bool) : Binary64 := .finite negative 0 (-1074)

/-- The nearest integer to a quotient, a tie going to the even one. -/
def roundDiv (num den : Nat) : Nat :=
  let q := num / den
  let r := num % den
  if 2 * r < den then q else if den < 2 * r then q + 1 else if q % 2 = 0 then q else q + 1

/-- `num / den` over a power of two, as a numerator and a denominator. -/
def scaleDown (num den : Nat) (exponent : Int) : Nat × Nat :=
  match exponent with
  | .ofNat e => (num, den * Nat.pow 2 e)
  | .negSucc e => (num * Nat.pow 2 (e + 1), den)

/-- The exponent at which `num / den` has a mantissa of 53 bits, or the least exponent. -/
def exponentOf (num den : Nat) : Int :=
  let e : Int := (num.log2 : Int) - den.log2 - 52
  let (n, d) := scaleDown num den e
  max (if n / d < Nat.pow 2 52 then e - 1 else e) (-1074)

/-- The double nearest to a positive quotient. -/
def ofRatio (negative : Bool) (num den : Nat) : Binary64 :=
  let e := exponentOf num den
  let (n, d) := scaleDown num den e
  let m := roundDiv n d
  let (m, e) := if m = Nat.pow 2 53 then (Nat.pow 2 52, e + 1) else (m, e)
  if 971 < e then .infinite negative else .finite negative m e

/-- The double nearest to `digits · 10 ^ power`. Beyond three hundred and some places every number
is an infinity or a zero. -/
def ofDecimal (negative : Bool) (digits : Nat) (power : Int) : Binary64 :=
  if digits = 0 then zero negative
  else
    let size : Int := (Nat.toDigits 10 digits).length + power
    if 400 < size then .infinite negative
    else if size < -400 then zero negative
    else
      match power with
      | .ofNat p => ofRatio negative (digits * Nat.pow 10 p) 1
      | .negSucc p => ofRatio negative digits (Nat.pow 10 (p + 1))

end Binary64

end VSyntax
