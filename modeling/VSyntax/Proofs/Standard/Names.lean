import VSyntax.Proofs.Standard.Joins
import VSyntax.Proofs.Regex.Runs

/-!
# Names

What the shapes of names find, where a whole run of word characters begins (`WordRun`) and
elsewhere. Most of these shapes ask for something in front of the name: `run_fresh`, `run_afterFn`
and `run_afterOpening` give the three conditions as questions to the text. After it comes the name
itself, which takes the run as a whole. The matcher tries the whole run first, and what a shape asks
for after the name stands nowhere inside the run.
-/
namespace VSyntax

/-! ## Runs of word characters -/

/-- The text from `i` up to `j` is a whole run of word characters. -/
structure WordRun (t : Text) (i j : Nat) : Prop where
  lt : i < j
  word : t.Spelled isWordChar i j
  starts : ¬ t.follows isWordChar i = true
  ends : ¬ t.Has isWordChar j

namespace Text

variable {t : Text} {p : Char → Bool} {x stop : Nat}

/-- The character before an offset is a blank, and `fn` stands before it, with no word character in
front. -/
def followsFn (t : Text) (i : Nat) : Bool :=
  decide (3 ≤ i) && t[i - 3]? == some 'f' && t[i - 2]? == some 'n' &&
    t.follows Unicode.isBlank i && !t.follows isWordChar (i - 3)

/-- An opening parenthesis or a comma stands before an offset, or before a blank that stands
there. -/
def followsOpening (t : Text) (i : Nat) : Bool :=
  t.follows ['(', ','].contains i ||
    (t.follows Unicode.isBlank i && t.follows ['(', ','].contains (i - 1))

/-- The length of the run of characters that satisfy `p` just before an offset. -/
def runBefore (t : Text) (p : Char → Bool) : Nat → Nat
  | 0 => 0
  | x + 1 => if (t[x]?).any p then runBefore t p x + 1 else 0

/-- A class takes in a part of the text if it takes in each of its characters. -/
theorem all_slice {a b : Nat} (hb : b ≤ t.size) :
    (t.slice a b).toList.all p = true ↔ t.Spelled p a b := by
  induction hn : b - a generalizing a with
  | zero =>
    rw [slice_eq_nil (by omega)]
    exact ⟨fun _ y hy hlt => absurd hlt (by omega), fun _ => rfl⟩
  | succ n ih =>
    have ha : a < t.size := by omega
    rw [slice_cons (by omega) hb, List.all_cons, Bool.and_eq_true, ih (by omega)]
    constructor
    · rintro ⟨hhead, htail⟩
      exact (Spelled.one ⟨_, Array.getElem?_eq_getElem ha, hhead⟩).append htail
    · intro hspelled
      obtain ⟨c, hc, hp⟩ := hspelled a (Nat.le_refl _) (by omega)
      rw [Array.getElem?_eq_getElem ha, Option.some.injEq] at hc
      exact ⟨hc ▸ hp, fun y hy hlt => hspelled y (by omega) hlt⟩

theorem sees_of_has (h : t.Has p x) (hx : x < stop) : t.sees stop p x = true :=
  sees_iff.mpr ⟨hx, h⟩

theorem sees_eq_getElem? {c : Char} (hx : x < stop) :
    t.sees stop (· == c) x = (t[x]? == some c) := by
  rw [Bool.eq_iff_iff, sees_iff, beq_iff_eq]
  constructor
  · rintro ⟨-, c', hc', heq⟩
    rw [hc', beq_iff_eq.mp heq]
  · exact fun h => ⟨hx, c, h, beq_iff_eq.mpr rfl⟩

/-- The character before an offset is the one that is seen there. -/
theorem follows_eq_sees {y : Nat} (hx : x = y + 1) (hstop : y < stop) :
    t.follows p x = t.sees stop p y := by
  subst hx
  simp only [follows, sees, Nat.succ_pos, hstop, Nat.add_sub_cancel]

theorem follows_iff (hx : 0 < x) : t.follows p x = true ↔ t.Has p (x - 1) := by
  have hback : x = x - 1 + 1 := by omega
  rw [follows_eq_sees hback (Nat.lt_succ_self _), sees_iff]
  exact ⟨And.right, fun h => ⟨Nat.lt_succ_self _, h⟩⟩

theorem runBefore_le : t.runBefore p x ≤ x := by
  induction x with
  | zero => exact Nat.le_refl _
  | succ x ih =>
    unfold runBefore
    split
    · exact Nat.succ_le_succ ih
    · exact Nat.zero_le _

theorem spelled_runBefore : t.Spelled p (x - t.runBefore p x) x := by
  induction x with
  | zero => exact fun y hy hlt => absurd hlt (by omega)
  | succ x ih =>
    unfold runBefore
    split
    · next hany =>
      rw [Nat.add_sub_add_right]
      exact ih.append (.one ((Option.any_eq_true _ _).mp hany))
    · exact .nil

/-- The run before an offset has no character of the class in front. -/
theorem not_follows_runBefore : ¬ t.follows p (x - t.runBefore p x) = true := by
  induction x with
  | zero => exact Bool.false_ne_true
  | succ x ih =>
    unfold runBefore
    split
    · rwa [Nat.add_sub_add_right]
    · next hany =>
      rw [Nat.sub_zero, follows_iff (Nat.succ_pos _)]
      exact fun hhas => hany ((Option.any_eq_true _ _).mpr hhas)

end Text

namespace WordRun

variable {t : Text} {i j e : Nat}

theorem le_size (h : WordRun t i j) : j ≤ t.size := by
  have hlt := h.lt
  obtain ⟨c, hc, -⟩ := h.word (j - 1) (by omega) (by omega)
  have := (Array.getElem?_eq_some_iff.mp hc).1
  omega

/-- From inside the run its end is where the word characters end. -/
theorem runEnd_eq (h : WordRun t i j) (hj : j ≤ e) {x : Nat} (hi : i ≤ x) (hx : x ≤ j) :
    t.runEnd isWordChar e x = j := by
  refine Text.runEnd_eq hx (fun y hy hlt => ?_) fun hsees => h.ends (Text.has_of_sees hsees)
  exact Text.sees_of_has (h.word y (by omega) hlt) (by omega)

end WordRun

namespace Standard

open Regex

variable {t : Text} {stop x : Nat} {s r : State} {k : Rest}

/-! ## Conditions in front -/

theorem run_fresh (hs : s.pos ≤ stop) : fresh.run t stop s k =
    if t.follows isWordChar s.pos then none else k s := by
  rw [fresh, one, run_behind_one wordItems_holds hs]
  cases t.follows isWordChar s.pos with
  | true => rfl
  | false => rfl

theorem run_fresh_of_not (hs : s.pos ≤ stop) : fresh.run t stop s k =
    if !t.follows isWordChar s.pos then k s else none := by
  rw [run_fresh hs]
  cases t.follows isWordChar s.pos with
  | true => rfl
  | false => rfl

theorem run_afterOpening (hs : s.pos ≤ stop) : afterOpening.run t stop s k =
    if t.followsOpening s.pos then k s else none := by
  have hone : (Expr.behind false 1 (one [.code 0x28, .code 0x2C])).run t stop s k =
      if t.follows ['(', ','].contains s.pos then k s else none := by
    rw [one, run_behind_one openingItems_holds hs, Bool.bne_false]
  have htwo : (Expr.behind false 2 (.seq (one [.code 0x28, .code 0x2C])
      (one [.kind .blank false]))).run t stop s k =
      if t.follows Unicode.isBlank s.pos && t.follows ['(', ','].contains (s.pos - 1) then k s
        else none := by
    by_cases hpos : 2 ≤ s.pos
    · have hback : s.pos - 2 + 1 + 1 = s.pos := by omega
      have hblank : t.follows Unicode.isBlank s.pos =
          t.sees stop Unicode.isBlank (s.pos - 2 + 1) :=
        Text.follows_eq_sees (by omega) (by omega)
      have hopening : t.follows ['(', ','].contains (s.pos - 1) =
          t.sees stop ['(', ','].contains (s.pos - 2) :=
        Text.follows_eq_sees (by omega) (by omega)
      rw [run_behind hpos, hblank, hopening]
      simp only [run_seq, one, run_oneOf openingItems_holds, run_oneOf blankItems_holds, hback]
      cases t.sees stop ['(', ','].contains (s.pos - 2) with
      | true =>
        cases t.sees stop Unicode.isBlank (s.pos - 2 + 1) with
        | true => rfl
        | false => rfl
      | false => rw [Bool.and_false]; rfl
    · have hopening : t.follows ['(', ','].contains (s.pos - 1) = false := by
        simp only [Text.follows, show ¬ 0 < s.pos - 1 by omega, decide_false, Bool.false_and]
      rw [run_behind_of_lt (by omega), hopening, Bool.and_false]
      rfl
  rw [afterOpening, run_alt, hone, htwo, Text.followsOpening, Option.orElse_eq_or]
  cases t.follows ['(', ','].contains s.pos with
  | true =>
    cases t.follows Unicode.isBlank s.pos && t.follows ['(', ','].contains (s.pos - 1) with
    | true => exact Option.or_self
    | false => exact Option.or_none
  | false => exact Option.none_or

theorem kindBefore_eq (x : Nat) : kindBefore .word t x = t.follows isWordChar x := by
  cases x with
  | zero => rfl
  | succ x =>
    simp only [kindBefore, CharKind.holds, Text.follows, Nat.succ_pos, decide_true, Bool.true_and,
      Nat.add_sub_cancel]

theorem run_afterFn (hs : s.pos ≤ stop) : afterFn.run t stop s k =
    if t.followsFn s.pos then k s else none := by
  by_cases hpos : 3 ≤ s.pos
  · have hback : s.pos - 3 + 1 + 1 + 1 = s.pos := by omega
    have hletter : t.sees stop (· == 'f') (s.pos - 3) = (t[s.pos - 3]? == some 'f') :=
      Text.sees_eq_getElem? (by omega)
    have hsecond : t.sees stop (· == 'n') (s.pos - 3 + 1) = (t[s.pos - 2]? == some 'n') := by
      rw [show s.pos - 3 + 1 = s.pos - 2 by omega]
      exact Text.sees_eq_getElem? (by omega)
    have hblank : t.follows Unicode.isBlank s.pos =
        t.sees stop Unicode.isBlank (s.pos - 3 + 1 + 1) :=
      Text.follows_eq_sees (by omega) (by omega)
    have hf : ∀ s k, (Expr.char 0x66).run t stop s k =
        if t.sees stop (· == 'f') s.pos then k { s with pos := s.pos + 1 } else none :=
      fun _ _ => run_oneOf (code_holds 'f')
    have hn : ∀ s k, (Expr.char 0x6E).run t stop s k =
        if t.sees stop (· == 'n') s.pos then k { s with pos := s.pos + 1 } else none :=
      fun _ _ => run_oneOf (code_holds 'n')
    have hhead : t.followsFn s.pos = (t[s.pos - 3]? == some 'f' && t[s.pos - 2]? == some 'n' &&
        t.follows Unicode.isBlank s.pos && !t.follows isWordChar (s.pos - 3)) := by
      simp only [Text.followsFn, hpos, decide_true, Bool.true_and]
    rw [afterFn, run_behind hpos, hhead, hblank]
    simp only [run_seq, run_anchor, hf, hn, one, run_oneOf blankItems_holds, hback, hletter,
      hsecond]
    cases hseen : t[s.pos - 3]? == some 'f' with
    | false =>
      simp only [Bool.false_and, Bool.false_eq_true, if_false, ite_self, Option.bind_none]
    | true =>
      -- at the letter the edge of a word is where no word character stands in front
      have hword : kindAt .word t stop (s.pos - 3) = true :=
        Text.sees_of_has ⟨'f', beq_iff_eq.mp hseen, by decide⟩ (by omega)
      have hstop : (stop != 0) = true := bne_iff_ne.mpr (by omega)
      rw [Anchor.holds, hword, hstop, kindBefore_eq, Bool.true_and, Bool.bne_true]
      cases t.follows isWordChar (s.pos - 3) with
      | true => simp only [Bool.not_true, Bool.false_eq_true, if_false, Bool.and_false,
          Option.bind_none]
      | false =>
        cases t[s.pos - 2]? == some 'n' with
        | false => rfl
        | true =>
          cases t.sees stop Unicode.isBlank (s.pos - 3 + 1 + 1) with
          | true => rfl
          | false => rfl
  · have hhead : t.followsFn s.pos = false := by
      simp only [Text.followsFn, hpos, decide_false, Bool.false_and]
    rw [afterFn, run_behind_of_lt (by omega), hhead]
    rfl

/-! ## Claims of names -/

section
variable {items : List CharItem} {p : Char → Bool} (hp : (fun c => items.any (·.holds c)) = p)

include hp

/-- If the rest accepts the end of the run, a name is a head and all word characters after it. -/
theorem run_name_accepts (hhead : t.sees stop p s.pos = true)
    (hk : k ⟨t.runEnd isWordChar stop (s.pos + 1),
      (1, s.pos, t.runEnd isWordChar stop (s.pos + 1)) :: s.captures⟩ = some r) :
    (name items).run t stop s k = some r := by
  rw [name, run_group, run_seq, one, run_oneOf hp, if_pos hhead]
  exact run_many_of_accepts wordItems_holds hk

theorem run_name_rejects
    (hk : ∀ y, s.pos + 1 ≤ y → y ≤ t.runEnd isWordChar stop (s.pos + 1) →
      k ⟨y, (1, s.pos, y) :: s.captures⟩ = none) :
    (name items).run t stop s k = none := by
  rw [name, run_group, run_seq, one, run_oneOf hp]
  split
  · exact run_many_of_rejects wordItems_holds hk
  · rfl

theorem run_name_headless (hhead : t.sees stop p s.pos = false) :
    (name items).run t stop s k = none := by
  rw [name, run_group, run_seq, one, run_oneOf hp, hhead]
  rfl

/-- A guarded name claims a head and all word characters after it. -/
theorem shapeClaim?_name {guard : Expr} {b : Bool}
    (hg : ∀ k, guard.run t stop ⟨x, []⟩ k = if b then k ⟨x, []⟩ else none) :
    shapeClaim? ⟨.seq guard (name items), 1⟩ 1 t x stop =
      if b && t.sees stop p x then some (x, t.runEnd isWordChar stop (x + 1)) else none := by
  have hlt : x < t.runEnd isWordChar stop (x + 1) := Text.le_runEnd
  unfold shapeClaim? matchAt?
  rw [run_seq, hg]
  cases b with
  | false => rfl
  | true =>
    cases hhead : t.sees stop p x with
    | false =>
      rw [if_pos rfl, run_name_headless hp hhead]
      rfl
    | true =>
      rw [if_pos rfl, run_name_accepts hp hhead rfl]
      exact if_pos hlt

end

theorem shapeClaim?_callReference (hx : x ≤ stop) :
    shapeClaim? ⟨callReference, 1⟩ 1 t x stop =
      if !t.follows isWordChar x && t.sees stop isNameHead x &&
          t.sees stop (· == '(') (t.runEnd isWordChar stop (x + 1))
        then some (x, t.runEnd isWordChar stop (x + 1)) else none := by
  have hlt : x < t.runEnd isWordChar stop (x + 1) := Text.le_runEnd
  have hopen : ∀ {s k}, (Expr.ahead false (.char 0x28)).run t stop s k =
      if t.sees stop (· == '(') s.pos then k s else none := by
    intro s k
    have hparen : (fun c => [CharItem.code 0x28].any (·.holds c)) = (· == '(') := code_holds '('
    rw [Expr.char, run_ahead_one hparen, Bool.bne_false]
  unfold shapeClaim? matchAt? callReference
  rw [run_seq, run_fresh hx]
  cases t.follows isWordChar x with
  | true => rfl
  | false =>
    cases hhead : t.sees stop isNameHead x with
    | false =>
      rw [if_neg (by decide), run_seq, run_name_headless letterItems_holds hhead]
      rfl
    | true =>
      cases hend : t.sees stop (· == '(') (t.runEnd isWordChar stop (x + 1)) with
      | true =>
        rw [if_neg (by decide), run_seq, run_name_accepts letterItems_holds hhead
          (by rw [hopen, if_pos hend])]
        exact if_pos hlt
      | false =>
        -- after a part of the run there is a word character
        rw [if_neg (by decide), run_seq, run_name_rejects letterItems_holds]
        · rfl
        · intro y hy hle
          rw [hopen]
          rcases Nat.eq_or_lt_of_le hle with rfl | hlt'
          · rw [hend]
            rfl
          · have hword := Text.has_of_sees (Text.sees_of_lt_runEnd hy hlt')
            exact if_neg fun hsees => hword.not_char (by decide) (Text.has_of_sees hsees)

/-- An attribute is claimed with its sigil. -/
theorem shapeClaim?_attributeName :
    shapeClaim? ⟨attributeName, 1⟩ 1 t x stop =
      if t.sees stop isSigil x && t.sees stop isNameHead (x + 1)
        then some (x, t.runEnd isWordChar stop (x + 2)) else none := by
  have hlt : x < t.runEnd isWordChar stop (x + 2) := Nat.lt_of_succ_lt Text.le_runEnd
  unfold shapeClaim? matchAt? attributeName
  rw [run_group, run_seq, one, run_oneOf sigilItems_holds]
  cases t.sees stop isSigil x with
  | false => rfl
  | true =>
    rw [if_pos rfl, run_seq, one, run_oneOf letterItems_holds]
    cases t.sees stop isNameHead (x + 1) with
    | false => rfl
    | true =>
      rw [if_pos rfl, run, one, run_many_of_accepts wordItems_holds (by rfl)]
      exact if_pos hlt

theorem run_dot : (Expr.char 0x2E).run t stop s k =
    if t.sees stop isDot s.pos then k { s with pos := s.pos + 1 } else none :=
  run_oneOf (code_holds '.')

/-- The member of a tuple is claimed if its digits end the word. -/
theorem shapeClaim?_tupleReference :
    shapeClaim? ⟨tupleReference, 1⟩ 1 t x stop =
      if t.sees stop isDot x && t.sees stop (· == '_') (x + 1) &&
          t.sees stop Unicode.isDecimal (x + 2) &&
          !t.sees stop isWordChar (t.runEnd Unicode.isDecimal stop (x + 3))
        then some (x + 1, t.runEnd Unicode.isDecimal stop (x + 3)) else none := by
  have hlt : x + 1 < t.runEnd Unicode.isDecimal stop (x + 3) := Nat.lt_of_succ_lt Text.le_runEnd
  have hscore : ∀ {s k}, (Expr.char 0x5F).run t stop s k =
      if t.sees stop (· == '_') s.pos then k { s with pos := s.pos + 1 } else none :=
    run_oneOf (code_holds '_')
  unfold shapeClaim? matchAt? tupleReference
  rw [run_seq, run_dot]
  cases t.sees stop isDot x with
  | false => rfl
  | true =>
    rw [if_pos rfl, run_seq, run_group, run_seq, hscore]
    cases t.sees stop (· == '_') (x + 1) with
    | false => rfl
    | true =>
      rw [if_pos rfl, run, one, run_many_one digitItems_holds]
      cases t.sees stop Unicode.isDecimal (x + 2) with
      | false => rfl
      | true =>
        rw [if_pos rfl]
        cases hend : t.sees stop isWordChar (t.runEnd Unicode.isDecimal stop (x + 3)) with
        | false =>
          rw [run_many_of_accepts digitItems_holds
            (by rw [one, run_ahead_one wordItems_holds, hend]; rfl)]
          exact if_pos hlt
        | true =>
          -- after a part of the digits there is a digit
          rw [run_many_of_rejects digitItems_holds]
          · rfl
          · intro y hy hle
            rw [one, run_ahead_one wordItems_holds]
            rcases Nat.eq_or_lt_of_le hle with rfl | hlt
            · exact if_neg (by simp [hend])
            · have hdigit := Text.sees_of_lt_runEnd hy hlt
              have hword : t.sees stop isWordChar y = true :=
                Text.sees_of_has ((Text.has_of_sees hdigit).imp fun _ => isWordChar_of_isDecimal)
                  (Text.lt_of_sees hdigit)
              exact if_neg (by simp [hword])

end Standard

end VSyntax
