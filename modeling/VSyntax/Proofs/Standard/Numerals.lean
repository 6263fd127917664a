import VSyntax.Proofs.Standard.Names

/-!
# Numerals

What the shape of numerals finds. A numeral is read in the first form that applies: in one of the
three bases with a letter, or else in decimal, with a fraction and an exponent where these follow.
Each part takes in as much as there is, and nothing that is asked for after it can make it shorter,
so the end of the numeral is found by going forward only (`numeralEnd`). The matcher, which would
try shorter parts, never does (`run_decimal`, `run_based`), since the rest accepts every offset
(`Accepts`).

A numeral is made of word characters and dots, but for one place: the sign of an exponent
(`ExponentSign`).
-/
namespace VSyntax

namespace Standard

open Regex

/-! ## Reading a numeral -/

/-- A digit or an underscore. -/
def isNumeralPart (c : Char) : Bool := Unicode.isDecimal c || c == '_'

/-- The characters that a numeral may stand behind, other than the start of the text. -/
def isNumeralFront (c : Char) : Bool :=
  Unicode.isBlank c || ['+', '-', '*', '/', '%', '<', '>', '=', '!', '&', '|', '^', '~', ':', '(',
    '[', '\x7b', ','].contains c

def isExponentLetter (c : Char) : Bool := ['e', 'E'].contains c

def isSign (c : Char) : Bool := ['+', '-'].contains c

/-- A numeral stands at the start of the text or behind a character of its front. -/
def mayBegin (t : Text) (x : Nat) : Bool := x == 0 || t.follows isNumeralFront x

/-- A way to write numerals after a zero: a letter, then digits and underscores. -/
structure Base where
  letters : List Char
  digits : List Char

def Base.hexadecimal : Base :=
  ⟨['x', 'X'], ['0', '1', '2', '3', '4', '5', '6', '7', '8', '9', 'a', 'b', 'c', 'd', 'e', 'f',
    'A', 'B', 'C', 'D', 'E', 'F', '_']⟩

def Base.binary : Base := ⟨['b', 'B'], ['0', '1', '_']⟩

def Base.octal : Base := ⟨['o', 'O'], ['0', '1', '2', '3', '4', '5', '6', '7', '_']⟩

/-- The bases with a letter, in the order in which they are tried. -/
def Base.all : List Base := [.hexadecimal, .binary, .octal]

/-- The end of the numeral of a base at `x`, which has at least one digit or underscore. -/
def Base.end? (b : Base) (t : Text) (stop x : Nat) : Option Nat :=
  if t.sees stop (· == '0') x && t.sees stop b.letters.contains (x + 1) &&
      t.sees stop b.digits.contains (x + 2) then
    some (t.runEnd b.digits.contains stop (x + 3))
  else none

/-- The end of the numeral at `x` in the first base with a letter that applies. -/
def basedEnd? (t : Text) (stop x : Nat) : Option Nat := Base.all.findSome? (·.end? t stop x)

/-- The end of the fraction at `x`, or `x`: a dot is part of a numeral if a digit follows. -/
def fractionEnd (t : Text) (stop x : Nat) : Nat :=
  if t.sees stop isDot x && t.sees stop Unicode.isDecimal (x + 1) then
    t.runEnd isNumeralPart stop (x + 2)
  else x

/-- The end of the digits that begin at `x`, with the fraction after them. -/
def mantissaEnd (t : Text) (stop x : Nat) : Nat :=
  fractionEnd t stop (t.runEnd isNumeralPart stop (x + 1))

/-- The offset after the sign at `x`, or `x`. -/
def afterSign (t : Text) (stop x : Nat) : Nat := if t.sees stop isSign x then x + 1 else x

/-- The end of the exponent at `x`, or `x`: a letter is part of a decimal numeral if digits follow,
with or without a sign. -/
def exponentEnd (t : Text) (stop x : Nat) : Nat :=
  if t.sees stop isExponentLetter x && t.sees stop Unicode.isDecimal (afterSign t stop (x + 1)) then
    t.runEnd Unicode.isDecimal stop (afterSign t stop (x + 1) + 1)
  else x

/-- The end of the numeral at `x` in code up to `stop`. -/
def numeralEnd (t : Text) (stop x : Nat) : Nat :=
  (basedEnd? t stop x).getD (exponentEnd t stop (mantissaEnd t stop x))

/-- At `y` stands the sign of the exponent of the numeral at `x`. -/
structure ExponentSign (t : Text) (stop x y : Nat) : Prop where
  decimal : basedEnd? t stop x = none
  place : y = mantissaEnd t stop x + 1
  letter : t.sees stop isExponentLetter (mantissaEnd t stop x) = true
  sign : t.sees stop isSign y = true
  digit : t.sees stop Unicode.isDecimal (y + 1) = true

variable {t : Text} {stop x y : Nat} {s : State} {k : Rest}

theorem le_fractionEnd : x ≤ fractionEnd t stop x := by
  have hrun : x + 2 ≤ t.runEnd isNumeralPart stop (x + 2) := Text.le_runEnd
  unfold fractionEnd
  split
  · omega
  · exact Nat.le_refl _

theorem lt_mantissaEnd : x < mantissaEnd t stop x :=
  Nat.lt_of_lt_of_le Text.le_runEnd le_fractionEnd

theorem le_afterSign : x ≤ afterSign t stop x := by
  unfold afterSign
  split
  · exact Nat.le_succ x
  · exact Nat.le_refl x

theorem le_exponentEnd : x ≤ exponentEnd t stop x := by
  have hsign : x + 1 ≤ afterSign t stop (x + 1) := le_afterSign
  have hrun : afterSign t stop (x + 1) + 1 ≤
      t.runEnd Unicode.isDecimal stop (afterSign t stop (x + 1) + 1) := Text.le_runEnd
  unfold exponentEnd
  split
  · omega
  · exact Nat.le_refl _

/-- The numeral of a base begins with a digit and is not empty. -/
theorem Base.sees_of_end? {b : Base} (h : b.end? t stop x = some y) :
    t.sees stop Unicode.isDecimal x = true ∧ x < y := by
  have hrun : x + 3 ≤ t.runEnd b.digits.contains stop (x + 3) := Text.le_runEnd
  unfold end? at h
  split at h
  · next hform =>
    cases h
    simp only [Bool.and_eq_true] at hform
    obtain ⟨hlt, hzero⟩ := Text.sees_iff.mp hform.1.1
    have hdigit : t.Has Unicode.isDecimal x := Text.Has.imp hzero fun c hc => by
      rw [beq_iff_eq.mp hc]
      decide
    exact ⟨Text.sees_of_has hdigit hlt, by omega⟩
  · cases h

/-- A numeral is not empty. -/
theorem lt_numeralEnd : x < numeralEnd t stop x := by
  unfold numeralEnd
  cases hbased : basedEnd? t stop x with
  | none => exact Nat.lt_of_lt_of_le lt_mantissaEnd le_exponentEnd
  | some y =>
    obtain ⟨b, -, hend⟩ := List.exists_of_findSome?_eq_some hbased
    exact (b.sees_of_end? hend).2

/-! ## The matcher on a numeral -/

/-- The rest of the work accepts every state. -/
def Accepts (k : Rest) : Prop := ∀ s, ∃ r, k s = some r

theorem Accepts.orElse {f : Unit → Option State} (hk : Accepts k) : (k s).orElse f = k s := by
  obtain ⟨r, hr⟩ := hk s
  rw [hr]
  rfl

/-- Items name the characters of a list if they name no others and leave none out. -/
theorem items_holds {items : List CharItem} {l : List Char}
    (hwithin : items.all (·.within [] l.contains) = true)
    (hall : l.all (fun c => items.any (·.holds c)) = true) :
    (fun c => items.any (·.holds c)) = l.contains := by
  funext c
  rw [Bool.eq_iff_iff]
  constructor
  · intro h
    obtain ⟨item, hitem, hholds⟩ := List.any_eq_true.mp h
    exact CharItem.of_within (fun _ hk => absurd hk List.not_mem_nil)
      (List.all_eq_true.mp hwithin item hitem) hholds
  · exact fun h => List.all_eq_true.mp hall c (List.contains_iff_mem.mp h)

theorem numeralItems_holds : (fun c => numeralItems.any (·.holds c)) = isNumeralPart := by
  funext c
  have hscore : [CharItem.code 0x5F].any (·.holds c) = (c == '_') := congrFun (code_holds '_') c
  rw [numeralItems, List.any_cons, hscore]
  simp only [CharItem.holds, CharKind.holds, Bool.bne_false, isNumeralPart]

/-- What may be left out is taken where that leads on. -/
theorem run_maybe {e : Expr} : (maybe e).run t stop s k =
    (e.run t stop s k).orElse fun _ => k s := by
  simp only [maybe, Expr.run, times, upTo, Nat.sub_zero, if_true, ite_self]

/-- If the rest accepts everything, a repetition takes in a whole run. -/
theorem run_many_accepts {items : List CharItem} {p : Char → Bool}
    (hp : (fun c => items.any (·.holds c)) = p) (hk : Accepts k) :
    (run 0 items).run t stop s k = k { s with pos := t.runEnd p stop s.pos } := by
  obtain ⟨r, hr⟩ := hk { s with pos := t.runEnd p stop s.pos }
  rw [hr]
  exact run_many_of_accepts hp hr

theorem run_many_one_accepts {items : List CharItem} {p : Char → Bool}
    (hp : (fun c => items.any (·.holds c)) = p) (hk : Accepts k) :
    (run 1 items).run t stop s k = if t.sees stop p s.pos then
      k { s with pos := t.runEnd p stop (s.pos + 1) } else none := by
  rw [run, one, run_many_one hp]
  exact if_congr Iff.rfl (run_many_accepts hp hk) rfl

/-- The shape of a base goes to the end of its numeral. -/
theorem run_based {b : Base} {letters digits : List CharItem}
    (hl : (fun c => letters.any (·.holds c)) = b.letters.contains)
    (hd : (fun c => digits.any (·.holds c)) = b.digits.contains) (hk : Accepts k) :
    (based letters digits).run t stop s k =
      (b.end? t stop s.pos).bind fun y => k { s with pos := y } := by
  have hzero : ∀ k : Rest, (Expr.char 0x30).run t stop s k =
      if t.sees stop (· == '0') s.pos then k { s with pos := s.pos + 1 } else none :=
    fun _ => run_oneOf (code_holds '0')
  rw [based, run_seq, hzero, Base.end?]
  cases t.sees stop (· == '0') s.pos with
  | false => rfl
  | true =>
    rw [if_pos rfl, run_seq, one, run_oneOf hl]
    cases t.sees stop b.letters.contains (s.pos + 1) with
    | false => rfl
    | true =>
      rw [if_pos rfl, run_many_one_accepts hd hk]
      cases t.sees stop b.digits.contains (s.pos + 2) with
      | false => rfl
      | true => rfl

theorem run_fraction (hk : Accepts k) :
    (maybe fraction).run t stop s k = k { s with pos := fractionEnd t stop s.pos } := by
  rw [run_maybe, fraction, run_seq, run_dot, fractionEnd]
  cases t.sees stop isDot s.pos with
  | false => rfl
  | true =>
    rw [if_pos rfl, run_seq, one, run_oneOf digitItems_holds]
    cases t.sees stop Unicode.isDecimal (s.pos + 1) with
    | false => rfl
    | true =>
      rw [if_pos rfl, run_many_accepts numeralItems_holds hk]
      exact hk.orElse

/-- A sign in front of digits is taken in, and never given back: where it stands there is no
digit. -/
theorem run_signed (hk : Accepts k) :
    (Expr.seq (maybe (one [.code 0x2B, .code 0x2D])) (run 1 digitItems)).run t stop s k =
      if t.sees stop Unicode.isDecimal (afterSign t stop s.pos) then
        k { s with pos := t.runEnd Unicode.isDecimal stop (afterSign t stop s.pos + 1) }
      else none := by
  have hsigns : (fun c => [CharItem.code 0x2B, .code 0x2D].any (·.holds c)) = isSign :=
    codes_holds ['+', '-']
  have hdigits : ∀ s' : State, (run 1 digitItems).run t stop s' k =
      if t.sees stop Unicode.isDecimal s'.pos then
        k { s' with pos := t.runEnd Unicode.isDecimal stop (s'.pos + 1) } else none :=
    fun _ => run_many_one_accepts digitItems_holds hk
  rw [run_seq, run_maybe, one, run_oneOf hsigns, hdigits, hdigits, afterSign]
  cases hsign : t.sees stop isSign s.pos with
  | false => rfl
  | true =>
    have hnodigit : ¬ t.sees stop Unicode.isDecimal s.pos = true := by
      intro hsees
      exact (Text.has_of_sees hsign).not_both (Text.has_of_sees hsees)
        fun _ => not_of_contains (by decide)
    rw [if_neg hnodigit, if_pos rfl, if_pos rfl, Option.orElse_eq_or, Option.or_none]

theorem run_exponent (hk : Accepts k) :
    (maybe exponent).run t stop s k = k { s with pos := exponentEnd t stop s.pos } := by
  have hletters : (fun c => [CharItem.code 0x65, .code 0x45].any (·.holds c)) =
      isExponentLetter := codes_holds ['e', 'E']
  rw [run_maybe, exponent, run_seq, one, run_oneOf hletters, exponentEnd]
  cases t.sees stop isExponentLetter s.pos with
  | false => rfl
  | true =>
    rw [if_pos rfl, run_signed hk]
    cases t.sees stop Unicode.isDecimal (afterSign t stop (s.pos + 1)) with
    | false => rfl
    | true =>
      exact hk.orElse

theorem run_decimal (hk : Accepts k) : decimal.run t stop s k =
    if t.sees stop Unicode.isDecimal s.pos then
      k { s with pos := exponentEnd t stop (mantissaEnd t stop s.pos) } else none := by
  have hback : ∀ s' : State, (maybe exponent).run t stop s' k =
      k { s' with pos := exponentEnd t stop s'.pos } := fun _ => run_exponent hk
  have hmiddle : ∀ s' : State, (Expr.seq (maybe fraction) (maybe exponent)).run t stop s' k =
      k { s' with pos := exponentEnd t stop (fractionEnd t stop s'.pos) } := by
    intro s'
    rw [run_seq, run_fraction fun m => by rw [hback]; exact hk _, hback]
  rw [decimal, run_seq, one, run_oneOf digitItems_holds]
  cases t.sees stop Unicode.isDecimal s.pos with
  | false => rfl
  | true =>
    rw [if_pos rfl, run_seq, run_many_accepts numeralItems_holds fun m => by
      rw [hmiddle]; exact hk _, hmiddle]
    rfl

theorem frontItems_holds :
    (fun c => (.kind .blank false :: (operatorItems ++ [0x3A, 0x28, 0x5B, 0x7B, 0x2C].map
      CharItem.code)).any (·.holds c)) = isNumeralFront := by
  have hcodes := codes_holds ['+', '-', '*', '/', '%', '<', '>', '=', '!', '&', '|', '^', '~', ':',
    '(', '[', '\x7b', ',']
  funext c
  have hcode := congrFun hcodes c
  rw [List.any_cons, isNumeralFront, ← hcode]
  simp only [CharItem.holds, CharKind.holds, Bool.bne_false]
  rfl

theorem run_numericFront (hs : s.pos ≤ stop) : numericFront.run t stop s k =
    if mayBegin t s.pos then k s else none := by
  rw [numericFront, run_alt, run_anchor, one, run_behind_one frontItems_holds hs, Anchor.holds,
    Bool.bne_false, mayBegin, Option.orElse_eq_or]
  cases hzero : s.pos == 0 with
  | false => rw [if_neg Bool.false_ne_true, Option.none_or, Bool.false_or]
  | true =>
    have hfollows : t.follows isNumeralFront s.pos = false := by
      rw [beq_iff_eq.mp hzero]
      rfl
    rw [if_pos rfl, hfollows, if_neg Bool.false_ne_true, Option.or_none, Bool.true_or, if_pos rfl]

/-- The forms of a numeral, tried in order. -/
theorem run_forms (hk : Accepts k) :
    (Expr.ofAlt [
      based [.code 0x78, .code 0x58]
        [.range 0x30 0x39, .range 0x61 0x66, .range 0x41 0x46, .code 0x5F],
      based [.code 0x62, .code 0x42] [.code 0x30, .code 0x31, .code 0x5F],
      based [.code 0x6F, .code 0x4F] [.range 0x30 0x37, .code 0x5F],
      decimal]).run t stop s k =
    if t.sees stop Unicode.isDecimal s.pos then k { s with pos := numeralEnd t stop s.pos }
      else none := by
  have hhexadecimal : (based [.code 0x78, .code 0x58]
      [.range 0x30 0x39, .range 0x61 0x66, .range 0x41 0x46, .code 0x5F]).run t stop s k =
      (Base.hexadecimal.end? t stop s.pos).bind fun y => k { s with pos := y } :=
    run_based (codes_holds ['x', 'X']) (items_holds (by decide) (by decide)) hk
  have hbinary : (based [.code 0x62, .code 0x42] [.code 0x30, .code 0x31, .code 0x5F]).run t stop s
      k = (Base.binary.end? t stop s.pos).bind fun y => k { s with pos := y } :=
    run_based (codes_holds ['b', 'B']) (codes_holds ['0', '1', '_']) hk
  have hoctal : (based [.code 0x6F, .code 0x4F] [.range 0x30 0x37, .code 0x5F]).run t stop s k =
      (Base.octal.end? t stop s.pos).bind fun y => k { s with pos := y } :=
    run_based (codes_holds ['o', 'O']) (items_holds (by decide) (by decide)) hk
  simp only [Expr.ofAlt, run_alt, hhexadecimal, hbinary, hoctal, run_decimal hk, numeralEnd,
    basedEnd?, Base.all, List.findSome?_cons, List.findSome?_nil]
  cases hx : Base.hexadecimal.end? t stop s.pos with
  | some y => exact hk.orElse.trans (if_pos (Base.sees_of_end? hx).1).symm
  | none =>
    cases hb : Base.binary.end? t stop s.pos with
    | some y => exact hk.orElse.trans (if_pos (Base.sees_of_end? hb).1).symm
    | none =>
      cases ho : Base.octal.end? t stop s.pos with
      | some y => exact hk.orElse.trans (if_pos (Base.sees_of_end? ho).1).symm
      | none => rfl

/-- A numeral is claimed where it may begin, up to the end of its first form that applies. -/
theorem shapeClaim?_numericLiteral (hx : x ≤ stop) :
    shapeClaim? ⟨numericLiteral, 1⟩ 1 t x stop =
      if mayBegin t x && t.sees stop Unicode.isDecimal x then some (x, numeralEnd t stop x)
        else none := by
  have hlt : x < numeralEnd t stop x := lt_numeralEnd
  have hk : Accepts fun s' => some { s' with captures := (1, x, s'.pos) :: s'.captures } :=
    fun _ => ⟨_, rfl⟩
  unfold shapeClaim? matchAt? numericLiteral
  rw [run_seq, run_numericFront hx]
  cases mayBegin t x with
  | false => rfl
  | true =>
    rw [if_pos rfl, run_group, run_forms hk]
    cases t.sees stop Unicode.isDecimal x with
    | false => rfl
    | true => exact if_pos hlt

-- Where a base has no digit the zero is read alone, and so is a digit before two dots.
example : numeralEnd (Text.ofString "0x+1") 4 0 = 1 := by cbv
example : numeralEnd (Text.ofString "1..5") 4 0 = 1 := by cbv
example : numeralEnd (Text.ofString "1_0.5e-3x") 9 0 = 8 := by cbv

/-! ## The characters of a numeral -/

/-- A word character or a dot. -/
def isNumeralChar (c : Char) : Bool := isWordChar c || isDot c

theorem isNumeralChar_of_isDecimal {c : Char} (h : Unicode.isDecimal c = true) :
    isNumeralChar c = true := by
  rw [isNumeralChar, isWordChar_of_isDecimal h]
  rfl

theorem isNumeralChar_of_isNumeralPart {c : Char} (h : isNumeralPart c = true) :
    isNumeralChar c = true := by
  rcases (Bool.or_eq_true _ _).mp h with h | h
  · exact isNumeralChar_of_isDecimal h
  · rw [beq_iff_eq.mp h]
    decide

theorem has_of_sees_isDecimal (h : t.sees stop Unicode.isDecimal x = true) :
    t.Has isNumeralChar x :=
  (Text.has_of_sees h).imp fun _ => isNumeralChar_of_isDecimal

/-- A run of a class that is written in numerals. -/
theorem spelled_runEnd {p : Char → Bool} (hp : ∀ c, p c = true → isNumeralChar c = true) :
    t.Spelled isNumeralChar x (t.runEnd p stop x) :=
  fun _ hy hlt => (Text.has_of_sees (Text.sees_of_lt_runEnd hy hlt)).imp hp

theorem spelled_of_end? {b : Base} (hb : b ∈ Base.all) (h : b.end? t stop x = some y) :
    t.Spelled isNumeralChar x y := by
  have hbases : ∀ b ∈ Base.all,
      b.letters.all isNumeralChar = true ∧ b.digits.all isNumeralChar = true := by
    simp only [Base.all, List.forall_mem_cons]
    decide
  obtain ⟨hletters, hdigits⟩ := hbases b hb
  have hhead := has_of_sees_isDecimal (b.sees_of_end? h).1
  unfold Base.end? at h
  split at h
  · next hform =>
    cases h
    simp only [Bool.and_eq_true] at hform
    have hletter := (Text.has_of_sees hform.1.2).imp fun _ => of_contains hletters
    have hdigit := (Text.has_of_sees hform.2).imp fun _ => of_contains hdigits
    exact (((Text.Spelled.one hhead).append (.one hletter)).append (.one hdigit)).append
      (spelled_runEnd fun _ => of_contains hdigits)
  · cases h

theorem spelled_fractionEnd : t.Spelled isNumeralChar x (fractionEnd t stop x) := by
  unfold fractionEnd
  split
  · next hform =>
    obtain ⟨hdot, hdigit⟩ := Bool.and_eq_true_iff.mp hform
    have hpoint : t.Has isNumeralChar x := (Text.has_of_sees hdot).imp fun c hc => by
      rw [isNumeralChar, hc, Bool.or_true]
    exact ((Text.Spelled.one hpoint).append (.one (has_of_sees_isDecimal hdigit))).append
      (spelled_runEnd fun _ => isNumeralChar_of_isNumeralPart)
  · exact .nil

theorem spelled_mantissaEnd (hdigit : t.sees stop Unicode.isDecimal x = true) :
    t.Spelled isNumeralChar x (mantissaEnd t stop x) :=
  ((Text.Spelled.one (has_of_sees_isDecimal hdigit)).append
    (spelled_runEnd fun _ => isNumeralChar_of_isNumeralPart)).append spelled_fractionEnd

/-- An exponent is written with word characters, but for its sign. -/
theorem has_of_lt_exponentEnd (hx : x ≤ y) (hy : y < exponentEnd t stop x) :
    t.Has isNumeralChar y ∨ (y = x + 1 ∧ t.sees stop isExponentLetter x = true ∧
      t.sees stop isSign y = true ∧ t.sees stop Unicode.isDecimal (y + 1) = true) := by
  unfold exponentEnd at hy
  split at hy
  · next hform =>
    obtain ⟨hletter, hdigit⟩ := Bool.and_eq_true_iff.mp hform
    rcases Nat.eq_or_lt_of_le hx with rfl | hafter
    · exact .inl ((Text.has_of_sees hletter).imp fun _ => of_contains (by decide))
    · have hrun : t.Spelled isNumeralChar (afterSign t stop (x + 1) + 1)
          (t.runEnd Unicode.isDecimal stop (afterSign t stop (x + 1) + 1)) :=
        spelled_runEnd fun _ => isNumeralChar_of_isDecimal
      rcases Nat.lt_or_ge y (afterSign t stop (x + 1)) with hsign | hrest
      · unfold afterSign at hsign hdigit
        split at hsign
        · next hsees =>
          rw [if_pos hsees] at hdigit
          obtain rfl : y = x + 1 := by omega
          exact .inr ⟨rfl, hletter, hsees, hdigit⟩
        · omega
      · exact .inl ((Text.Spelled.one (has_of_sees_isDecimal hdigit)).append hrun y hrest hy)
  · omega

/-- A numeral is written with word characters and dots, but for the sign of its exponent. -/
theorem has_of_lt_numeralEnd (hdigit : t.sees stop Unicode.isDecimal x = true) (hx : x ≤ y)
    (hy : y < numeralEnd t stop x) : t.Has isNumeralChar y ∨ ExponentSign t stop x y := by
  unfold numeralEnd at hy
  cases hbased : basedEnd? t stop x with
  | some z =>
    rw [hbased, Option.getD_some] at hy
    obtain ⟨b, hb, hend⟩ := List.exists_of_findSome?_eq_some hbased
    exact .inl (spelled_of_end? hb hend y hx hy)
  | none =>
    rw [hbased, Option.getD_none] at hy
    rcases Nat.lt_or_ge y (mantissaEnd t stop x) with hfront | hback
    · exact .inl (spelled_mantissaEnd hdigit y hx hfront)
    · rcases has_of_lt_exponentEnd hback hy with h | ⟨hplace, hletter, hsign, hafter⟩
      · exact .inl h
      · exact .inr ⟨hbased, hplace, hletter, hsign, hafter⟩

end Standard

end VSyntax
