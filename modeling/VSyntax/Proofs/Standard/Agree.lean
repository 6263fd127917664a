import VSyntax.Proofs.Classify.Agree
import VSyntax.Proofs.Standard.Names

/-!
# Standard claims in texts that agree

Where two texts agree, the standard rules claim the same in both (`claimsAlike`). All rules but two
look at one character in front of the offset at most. The name of a function and a parameter are
told by more: what is in front must put the same question to both texts, and only where such a name
could begin.

So texts that agree at their beginnings have one course there (`course_of_agree_front`), and texts
that agree from a mark on have one course behind it (`course_of_agree_mark`).
-/
namespace VSyntax

variable {t t' : Text} {d : Delimiters} {q : Char → Bool} {a b n x e : Nat}

/-! ## What stands in front -/

namespace Text

theorem pos_of_follows (h : t.follows q x = true) : 0 < x := by
  simp only [Text.follows, Bool.and_eq_true, decide_eq_true_eq] at h
  exact h.1

/-- The word `fn` in front of an offset, letter by letter. -/
theorem followsFn_eq (hx : 3 ≤ x) : t.followsFn x =
    (t.follows (· == 'f') (x - 2) && t.follows (· == 'n') (x - 1) &&
      t.follows Unicode.isBlank x && !t.follows isWordChar (x - 3)) := by
  have hletter : ∀ (d : Char) {y : Nat}, 0 < y →
      t.follows (· == d) y = (t[y - 1]? == some d) := by
    intro d y hy
    cases hd : t[y - 1]? with
    | none => simp [Text.follows, hd]
    | some e => simp [Text.follows, hd, hy]
  rw [Text.followsFn, hletter 'f' (by omega), hletter 'n' (by omega), Nat.sub_sub, Nat.sub_sub]
  simp only [hx, decide_true, Bool.true_and]

/-- The word `fn` is in front in both texts or in neither. -/
theorem Agree.followsFn_eq (h : t.Agree t' a b n) (hx : x ≤ n) (hk : Known a b 4 x) :
    t.followsFn (a + x) = t'.followsFn (b + x) := by
  by_cases hthree : 3 ≤ x
  · have hback : ∀ (q : Char → Bool) (w : Nat), w < x → Known a b 1 (x - w) →
        t.follows q (a + x - w) = t'.follows q (b + x - w) := by
      intro q w hw hk
      rw [Nat.add_sub_assoc (Nat.le_of_lt hw), Nat.add_sub_assoc (Nat.le_of_lt hw)]
      exact h.follows_eq (by omega) hk
    have hf := hback (· == 'f') 2 (by omega) (.inl (by omega))
    have hn := hback (· == 'n') 1 (by omega) (.inl (by omega))
    have hblank := hback Unicode.isBlank 0 (by omega) (.inl (by omega))
    have hword : t.follows isWordChar (a + x - 3) = t'.follows isWordChar (b + x - 3) := by
      rw [Nat.add_sub_assoc hthree, Nat.add_sub_assoc hthree]
      exact h.follows_eq (by omega) (hk.imp_left fun hk => by omega)
    rw [Nat.sub_zero, Nat.sub_zero] at hblank
    rw [Text.followsFn_eq (by omega), Text.followsFn_eq (by omega), hf, hn, hblank, hword]
  · obtain hk | ⟨rfl, rfl⟩ := hk
    · omega
    · have hnot : ¬ 3 ≤ 0 + x := by omega
      simp only [followsFn, hnot, decide_false, Bool.false_and]

/-- An opening is in front in both texts or in neither. -/
theorem Agree.followsOpening_eq (h : t.Agree t' a b n) (hx : x ≤ n) (hk : Known a b 2 x) :
    t.followsOpening (a + x) = t'.followsOpening (b + x) := by
  have hhere : ∀ q, t.follows q (a + x) = t'.follows q (b + x) := fun q =>
    h.follows_eq hx (hk.imp_left fun hk => by omega)
  have hback : t.follows ['(', ','].contains (a + x - 1) =
      t'.follows ['(', ','].contains (b + x - 1) := by
    cases x with
    | zero =>
      obtain hk | ⟨rfl, rfl⟩ := hk
      · exact absurd hk (by omega)
      · rfl
    | succ y => exact h.follows_eq (by omega) (hk.imp_left fun hk => by omega)
  simp only [followsOpening, hhere, hback]

/-! ## Behind a mark -/

section Mark

variable {mark : Char} (hat : t[a]? = some mark)

include hat

theorem follows_mark : t.follows q (a + 1) = q mark := by
  have hback : t[a + 1 - 1]? = some mark := hat
  simp only [follows, hback, Nat.succ_pos, decide_true, Bool.true_and, Option.any_some]

/-- Behind a mark that is not blank the word `fn` is not in front. -/
theorem followsFn_mark (hblank : Unicode.isBlank mark = false) : t.followsFn (a + 1) = false := by
  rw [followsFn, follows_mark hat, hblank, Bool.and_false, Bool.false_and]

/-- Behind a mark that is not blank, only the mark itself can be the opening in front. -/
theorem followsOpening_mark (hblank : Unicode.isBlank mark = false) :
    t.followsOpening (a + 1) = ['(', ','].contains mark := by
  rw [followsOpening, follows_mark hat, follows_mark hat, hblank, Bool.false_and, Bool.or_false]

/-- A mark that is not the second letter of the word `fn` does not stand in its place. -/
theorem followsFn_mark_second (hn : mark ≠ 'n') : t.followsFn (a + 2) = false := by
  have hsecond : (t[a + 2 - 2]? == some 'n') = false := by
    rw [Nat.add_sub_cancel, hat]
    exact beq_eq_false_iff_ne.mpr fun h => hn (Option.some.inj h)
  rw [followsFn, hsecond, Bool.and_false, Bool.false_and, Bool.false_and]

/-- A mark that is not the first letter of the word `fn` does not stand in its place. -/
theorem followsFn_mark_first (hf : mark ≠ 'f') : t.followsFn (a + 3) = false := by
  have hfirst : (t[a + 3 - 3]? == some 'f') = false := by
    rw [Nat.add_sub_cancel, hat]
    exact beq_eq_false_iff_ne.mpr fun h => hf (Option.some.inj h)
  rw [followsFn, hfirst, Bool.and_false, Bool.false_and, Bool.false_and, Bool.false_and]

/-- In texts that agree from a mark on, the word `fn` is in front in both or in neither, if that is
so right behind the mark. -/
theorem Agree.followsFn_eq_of_mark (h : t.Agree t' a b n) (hf : mark ≠ 'f') (hn : mark ≠ 'n')
    (hx : 1 ≤ x) (hxn : x ≤ n) (hnext : x = 1 → t.followsFn (a + x) = t'.followsFn (b + x)) :
    t.followsFn (a + x) = t'.followsFn (b + x) := by
  have hat' : t'[b]? = some mark := (h.same 0 (Nat.lt_of_lt_of_le hx hxn)).symm.trans hat
  rcases Nat.lt_or_ge x 4 with hnear | hfar
  · obtain rfl | rfl | rfl : x = 1 ∨ x = 2 ∨ x = 3 := by omega
    · exact hnext rfl
    · rw [followsFn_mark_second hat hn, followsFn_mark_second hat' hn]
    · rw [followsFn_mark_first hat hf, followsFn_mark_first hat' hf]
  · exact h.followsFn_eq hxn (.inl hfar)

end Mark

/-- An opening is in front in both texts or in neither, if that is so right behind the first
character on which they agree. -/
theorem Agree.followsOpening_eq_of_next (h : t.Agree t' a b n) (hx : 1 ≤ x) (hxn : x ≤ n)
    (hnext : x = 1 → t.followsOpening (a + x) = t'.followsOpening (b + x)) :
    t.followsOpening (a + x) = t'.followsOpening (b + x) := by
  rcases Nat.eq_or_lt_of_le hx with rfl | hlt
  · exact hnext rfl
  · exact h.followsOpening_eq hxn (.inl hlt)

end Text

namespace Standard

open Regex
open Text (Agree Known)

/-- Only the names of functions and parameters are told by more than one character in front. -/
theorem within_of_mem_shapes {body : Expr} (h : body ∈ shapes) (hfn : body ≠ functionName)
    (hparameter : body ≠ parameter) : body.within 1 = true := by
  have hshapes : ∀ body ∈ shapes,
      body.within 1 = true ∨ body = functionName ∨ body = parameter := by
    decide
  rcases hshapes body h with hwithin | hname | hname
  · exact hwithin
  · exact absurd hname hfn
  · exact absurd hname hparameter

/-- A guarded name is claimed alike, if the guard holds alike wherever the name could begin. -/
theorem claimsAlike_name {name : String} {category : Category} {guard : Expr}
    {items : List CharItem} {p : Char → Bool} (hp : (fun c => items.any (·.holds c)) = p)
    (h : t.Agree t' a b n) (he : e ≤ n) {g : Text → Nat → Bool}
    (hg : ∀ {t : Text} {stop i : Nat} {k : Rest}, i ≤ stop →
      guard.run t stop ⟨i, []⟩ k = if g t i then k ⟨i, []⟩ else none)
    (hx : x < e) (hsame : t.Has p (a + x) → g t (a + x) = g t' (b + x)) :
    (shapeRule name category (.seq guard (Standard.name items))).ClaimsAlike d t t' a b x e := by
  have hsees : t.sees (a + e) p (a + x) = t'.sees (b + e) p (b + x) := h.sees_eq he
  have hrun : ∃ r, x + 1 ≤ r ∧ t.runEnd isWordChar (a + e) (a + x + 1) = a + r ∧
      t'.runEnd isWordChar (b + e) (b + x + 1) = b + r := h.runEnd_eq (x := x + 1) he
  obtain ⟨r, -, hr, hr'⟩ := hrun
  have hclaim := shapeClaim?_name hp fun k => hg (t := t) (k := k) (show a + x ≤ a + e by omega)
  have hclaim' := shapeClaim?_name hp fun k => hg (t := t') (k := k) (show b + x ≤ b + e by omega)
  rw [hr] at hclaim
  rw [hr', ← hsees] at hclaim'
  refine ⟨if g t (a + x) && t.sees (a + e) p (a + x) then some (x, r) else none, ?_, ?_⟩
  · simp only [shapeRule, Rule.claim?, hclaim]
    split
    · rfl
    · rfl
  · cases hhead : t.sees (a + e) p (a + x) with
    | false => simp only [shapeRule, Rule.claim?, hclaim', hhead, Bool.and_false]; rfl
    | true =>
      rw [hhead, ← hsame (Text.has_of_sees hhead)] at hclaim'
      simp only [shapeRule, Rule.claim?, hclaim', Bool.and_true]
      split
      · rfl
      · rfl

/-- **The standard rules claim the same in texts that agree**, if one character in front is known and
what tells the names of functions and parameters is the same wherever such a name could begin. -/
theorem claimsAlike {words : KeywordSet → List (List Char)} (h : t.Agree t' a b n) (hx : x < e)
    (he : e ≤ n) (hk : Known a b 1 x)
    (hfn : t.Has isNameHead (a + x) → t.followsFn (a + x) = t'.followsFn (b + x))
    (hopening : t.Has isLowerHead (a + x) → t.followsOpening (a + x) = t'.followsOpening (b + x)) :
    ∀ rule ∈ table words, rule.ClaimsAlike d t t' a b x e := by
  intro rule hrule
  rcases mem_table hrule with ⟨s, rfl⟩ | ⟨name, category, body, hbody, rfl⟩
  · exact Rule.claimsAlike_words h hx he hk
  · by_cases hname : body = functionName
    · subst hname
      exact claimsAlike_name letterItems_holds h he (fun hi => run_afterFn hi) hx hfn
    · by_cases hname' : body = parameter
      · subst hname'
        exact claimsAlike_name lowerItems_holds h he (fun hi => run_afterOpening hi) hx hopening
      · exact Rule.claimsAlike_shape h (Nat.le_of_lt hx) he
          (within_of_mem_shapes hbody hname hname') hk

/-! ## Courses -/

variable {words : KeywordSet → List (List Char)} {m L : Nat} {l : List Span}

/-- Texts that agree from their beginnings on have one course there. -/
theorem course_of_agree_front (h : Delimiters.standard.AgreeUpTo t t' 0 0 m L)
    (hcourse : Course (table words) .standard t m 0 l) :
    Course (table words) .standard t' m 0 l := by
  have hknown : ∀ {w x}, Known 0 0 w x := .inr ⟨rfl, rfl⟩
  have hle := h.le
  have hclaims : ∀ x e, 0 ≤ x → x < e → e ≤ m → ∀ rule ∈ table words,
      rule.ClaimsAlike .standard t t' 0 0 x e :=
    fun x e _ hx he => claimsAlike h.agree hx (Nat.le_trans he hle) hknown
      (fun _ => h.agree.followsFn_eq (by omega) hknown)
      fun _ => h.agree.followsOpening_eq (by omega) hknown
  have hcourse' : Course (table words) .standard t (0 + m) (0 + 0) l := by
    rwa [Nat.zero_add]
  obtain ⟨l', rfl, hother⟩ := hcourse'.agree (fun _ => capturesBehind_of_mem_table)
    h hclaims (Nat.le_refl 0)
  rw [Nat.zero_add] at hother
  exact hother

/-- Texts that agree from a mark on have one course behind it, if what tells the names of functions
and parameters is the same right behind the mark, should such a name begin there. -/
theorem course_of_agree_mark (h : Delimiters.standard.AgreeUpTo t t' a b m L) {mark : Char}
    (hat : t[a]? = some mark) (hf : mark ≠ 'f') (hn : mark ≠ 'n')
    (hfn : t.Has isNameHead (a + 1) → t.followsFn (a + 1) = t'.followsFn (b + 1))
    (hopening : t.Has isLowerHead (a + 1) →
      t.followsOpening (a + 1) = t'.followsOpening (b + 1))
    (hcourse : Course (table words) .standard t (a + m) (a + 1) l) :
    ∃ l' : List Span, l = l'.map (Span.up a) ∧
      Course (table words) .standard t' (b + m) (b + 1) (l'.map (Span.up b)) := by
  have hle := h.le
  have hclaims : ∀ x e, 1 ≤ x → x < e → e ≤ m → ∀ rule ∈ table words,
      rule.ClaimsAlike .standard t t' a b x e := by
    intro x e hone hx he
    refine claimsAlike h.agree hx (by omega) (.inl hone) (fun hhead => ?_) fun hhead => ?_
    · refine Text.Agree.followsFn_eq_of_mark hat h.agree hf hn hone (by omega) fun hx => ?_
      subst hx
      exact hfn hhead
    · refine h.agree.followsOpening_eq_of_next hone (by omega) fun hx => ?_
      subst hx
      exact hopening hhead
  exact hcourse.agree (fun _ => capturesBehind_of_mem_table) h hclaims (Nat.le_refl 1)

end Standard

end VSyntax
