import VSyntax.Decimal.Binary64
import VSyntax.Numeral

/-!
# Shortest decimals

The fewest digits that read back as a given double, and of several such decimals the nearest. The
reals that read back as a double form an interval around it, ends included when the mantissa is
even. For one digit, two digits and so on, the two neighbours of the double on that decimal grid are
tested against the interval in exact arithmetic; seventeen digits always suffice.
-/
namespace VSyntax.Decimal

/-- A positive decimal `0.d₁d₂… · 10 ^ point`. -/
structure Digits where
  digits : List Char
  point : Int
  deriving DecidableEq, Repr

/-- A double with the ends of its rounding interval, over a common denominator. -/
structure Interval where
  lo : Nat
  mid : Nat
  hi : Nat
  den : Nat
  closed : Bool

/-- The rounding interval of `mantissa · 2 ^ exponent`, in quarters of the last mantissa bit. Below
a power of two the neighbour is only half as far away. -/
def interval (mantissa : Nat) (exponent : Int) : Interval :=
  let low :=
    if mantissa = Nat.pow 2 52 ∧ -1074 < exponent then 4 * mantissa - 1 else 4 * mantissa - 2
  let closed := mantissa % 2 = 0
  match exponent - 2 with
  | .ofNat e =>
    ⟨low * Nat.pow 2 e, 4 * mantissa * Nat.pow 2 e, (4 * mantissa + 2) * Nat.pow 2 e, 1, closed⟩
  | .negSucc e => ⟨low, 4 * mantissa, 4 * mantissa + 2, Nat.pow 2 (e + 1), closed⟩

/-- How many powers of ten lift a fraction to one or more, in at most `steps` tries. -/
def liftToOne (den : Nat) : Nat → Nat → Nat → Nat
  | 0, _, j => j
  | steps + 1, num, j => if den ≤ num then j else liftToOne den steps (num * 10) (j + 1)

/-- The place of the decimal point before the first digit of `num / den`. -/
def pointOf (num den : Nat) : Int :=
  if den ≤ num then ((Nat.toDigits 10 (num / den)).length : Int)
  else 1 - (liftToOne den 400 num 0 : Int)

/-- `count` in units of `10 ^ power`, compared with `num / den`: both numerators over one
denominator. -/
def align (count : Nat) (power : Int) (num den : Nat) : Nat × Nat :=
  match power with
  | .ofNat p => (count * Nat.pow 10 p * den, num)
  | .negSucc p => (count * den, num * Nat.pow 10 (p + 1))

/-- Whether `count` units of `10 ^ power` lie in an interval. -/
def Interval.holds (i : Interval) (count : Nat) (power : Int) : Bool :=
  let (a, lo) := align count power i.lo i.den
  let (b, hi) := align count power i.hi i.den
  if i.closed then lo ≤ a && b ≤ hi else lo < a && b < hi

/-- Of two counts that lie one unit apart around the middle of an interval, the nearer; a tie goes
to the even one. -/
def Interval.nearer (i : Interval) (below : Nat) (power : Int) : Nat :=
  let (a, mid) := align below power i.mid i.den
  let (b, _) := align (below + 1) power i.mid i.den
  if mid - a < b - mid then below
  else if b - mid < mid - a then below + 1
  else if below % 2 = 0 then below else below + 1

/-- The decimal of `count` digits that reads back, if one of the two neighbours does. -/
def onGrid (i : Interval) (point : Int) (count : Nat) : Option Nat :=
  let power := point - count
  let unit := align 1 power i.mid i.den
  let below := unit.2 / unit.1
  match i.holds below power && below != 0, i.holds (below + 1) power with
  | true, true => some (i.nearer below power)
  | true, false => some below
  | false, true => some (below + 1)
  | false, false => none

/-- Digits without the zeros at their end. -/
def trimZeros (digits : List Char) : List Char := (digits.reverse.dropWhile (· == '0')).reverse

/-- Tries grids of `count` digits and more. -/
def search (i : Interval) (point : Int) : Nat → Nat → Digits
  | 0, _ => ⟨['0'], point⟩
  | steps + 1, count =>
    match onGrid i point count with
    | some n =>
      let ds := Numeral.ofNat n
      ⟨trimZeros ds, if count < ds.length then point + 1 else point⟩
    | none => search i point steps (count + 1)

/-- The shortest decimal that reads back as `mantissa · 2 ^ exponent`, for a positive mantissa. -/
def shortest (mantissa : Nat) (exponent : Int) : Digits :=
  let i := interval mantissa exponent
  search i (pointOf i.mid i.den) 17 1

/-! ## Written form -/

/-- A decimal without exponent, with at least one digit on each side of the point. -/
def Digits.positional (d : Digits) : List Char :=
  match d.point with
  | .negSucc n => "0.".toList ++ List.replicate (n + 1) '0' ++ d.digits
  | .ofNat 0 => "0.".toList ++ d.digits
  | .ofNat n =>
    if d.digits.length ≤ n then d.digits ++ List.replicate (n - d.digits.length) '0' ++ ".0".toList
    else d.digits.take n ++ '.' :: d.digits.drop n

/-- A decimal with one digit before the point and a signed exponent of at least two digits. -/
def Digits.scientific (d : Digits) : List Char :=
  let e := d.point - 1
  d.digits.take 1 ++ (if d.digits.length ≤ 1 then [] else '.' :: d.digits.drop 1) ++
    'e' :: (if e < 0 then '-' else '+') :: Numeral.zeroPadded 2 (Numeral.ofNat e.natAbs)

/-- The written form of a double: positional from `1e-4` up to, and without, `1e16`, by exponent
beyond. -/
def write : Binary64 → String
  | .nan => "nan"
  | .infinite negative => if negative then "-inf" else "inf"
  | .finite negative mantissa exponent =>
    let body :=
      if mantissa = 0 then "0.0".toList
      else
        let d := shortest mantissa exponent
        if -4 < d.point ∧ d.point ≤ 16 then d.positional else d.scientific
    String.ofList (if negative then '-' :: body else body)

end VSyntax.Decimal
