import VSyntax.Proofs.Text

/-!
# Texts that agree on a stretch

Two texts with the same characters on a stretch, which may begin at another offset in each
(`Text.Agree`). A reader that keeps to the stretch gives the same answer in both, counted from where
the stretch begins. A reader that looks behind an offset needs to know what it looks at: the
characters in front of the offset belong to the stretch, or both texts begin where the stretch does
(`Text.Known`).
-/
namespace VSyntax.Text

variable {t t' : Text} {p : Char → Bool} {part : List Char} {a b m n w x y : Nat}

/-- The texts have the same `n` characters, the one from `a` on and the other from `b` on. -/
structure Agree (t t' : Text) (a b n : Nat) : Prop where
  same : ∀ x, x < n → t[a + x]? = t'[b + x]?
  le_size : a + n ≤ t.size
  le_size' : b + n ≤ t'.size

/-- In front of offset `x` of a stretch `w` characters are of the stretch, or there are none before
the stretch in either text. -/
def Known (a b w x : Nat) : Prop := w ≤ x ∨ a = 0 ∧ b = 0

theorem Known.mono (h : Known a b w x) (hx : x ≤ y) : Known a b w y :=
  h.imp_left fun hw => Nat.le_trans hw hx

namespace Agree

theorem take (h : Agree t t' a b n) (hm : m ≤ n) : Agree t t' a b m where
  same x hx := h.same x (Nat.lt_of_lt_of_le hx hm)
  le_size := Nat.le_trans (Nat.add_le_add_left hm a) h.le_size
  le_size' := Nat.le_trans (Nat.add_le_add_left hm b) h.le_size'

/-! ## Single characters -/

theorem exists_char (h : Agree t t' a b n) (hx : x < n) :
    ∃ c, t[a + x]? = some c ∧ t'[b + x]? = some c := by
  have hlt : a + x < t.size := Nat.lt_of_lt_of_le (Nat.add_lt_add_left hx a) h.le_size
  refine ⟨t[a + x], Array.getElem?_eq_getElem hlt, ?_⟩
  rw [← h.same x hx, Array.getElem?_eq_getElem hlt]

theorem sees_eq (h : Agree t t' a b n) (hm : m ≤ n) :
    t.sees (a + m) p (a + x) = t'.sees (b + m) p (b + x) := by
  by_cases hx : x < m
  · simp only [sees, h.same x (Nat.lt_of_lt_of_le hx hm), Nat.add_lt_add_iff_left]
  · simp only [sees, Nat.add_lt_add_iff_left, hx, decide_false, Bool.false_and]

theorem follows_eq (h : Agree t t' a b n) (hx : x ≤ n) (hk : Known a b 1 x) :
    t.follows p (a + x) = t'.follows p (b + x) := by
  cases x with
  | zero =>
    obtain hk | ⟨rfl, rfl⟩ := hk
    · exact absurd hk (Nat.not_succ_le_zero 0)
    · rfl
  | succ y =>
    have hpos : 0 < a + (y + 1) := Nat.succ_pos _
    have hpos' : 0 < b + (y + 1) := Nat.succ_pos _
    have hback : a + (y + 1) - 1 = a + y := rfl
    have hback' : b + (y + 1) - 1 = b + y := rfl
    simp only [follows, hpos, hpos', hback, hback', h.same y hx]

/-! ## Runs and parts -/

theorem runEnd_eq (h : Agree t t' a b n) (hm : m ≤ n) :
    ∃ r, x ≤ r ∧ t.runEnd p (a + m) (a + x) = a + r ∧ t'.runEnd p (b + m) (b + x) = b + r := by
  have hle : a + x ≤ t.runEnd p (a + m) (a + x) := le_runEnd
  obtain ⟨r, hr⟩ : ∃ r, t.runEnd p (a + m) (a + x) = a + r :=
    ⟨_, (Nat.add_sub_of_le (by omega)).symm⟩
  have hxr : x ≤ r := by omega
  refine ⟨r, hxr, hr, Text.runEnd_eq (Nat.add_le_add_left hxr b) ?_ ?_⟩
  · intro i hi hlt
    obtain ⟨y, rfl⟩ : ∃ y, i = b + y := ⟨i - b, by omega⟩
    rw [← h.sees_eq hm]
    have hi' : a + x ≤ a + y := by omega
    exact sees_of_lt_runEnd hi' (by omega)
  · rw [← h.sees_eq hm, ← hr]
    exact not_sees_runEnd

theorem slice_eq (h : Agree t t' a b n) (hy : y ≤ n) :
    t.slice (a + x) (a + y) = t'.slice (b + x) (b + y) := by
  have hsize := h.le_size
  have hsize' := h.le_size'
  apply Array.ext_getElem?
  intro i
  simp only [slice, Array.getElem?_extract]
  by_cases hi : i < y - x
  · have hsame := h.same (x + i) (by omega)
    rw [if_pos (by omega), if_pos (by omega), Nat.add_assoc, Nat.add_assoc, hsame]
  · rw [if_neg (by omega), if_neg (by omega)]

theorem startsAt_eq (h : Agree t t' a b n) (hm : m ≤ n) :
    t.startsAt part (a + x) (a + m) = t'.startsAt part (b + x) (b + m) := by
  induction part generalizing x with
  | nil => rfl
  | cons c part ih =>
    have hrest := ih (x := x + 1)
    by_cases hx : x < m
    · have hsame := h.same x (Nat.lt_of_lt_of_le hx hm)
      simp only [startsAt, Nat.add_lt_add_iff_left, hsame, Nat.add_assoc, hrest]
    · simp only [startsAt, Nat.add_lt_add_iff_left, hx, decide_false, Bool.false_and]

theorem findWithin_eq (h : Agree t t' a b n) (hm : m ≤ n) {steps : Nat} :
    ∃ o : Option Nat, t.findWithin part (a + m) steps (a + x) = o.map (a + ·) ∧
      t'.findWithin part (b + m) steps (b + x) = o.map (b + ·) := by
  induction steps generalizing x with
  | zero => exact ⟨none, rfl, rfl⟩
  | succ steps ih =>
    have hsame : t.startsAt part (a + x) (a + m) = t'.startsAt part (b + x) (b + m) :=
      h.startsAt_eq hm
    unfold findWithin
    rw [← hsame]
    by_cases hat : t.startsAt part (a + x) (a + m) = true
    · exact ⟨some x, if_pos hat, if_pos hat⟩
    · rw [if_neg hat, if_neg hat]
      exact ih (x := x + 1)

theorem find?_eq (h : Agree t t' a b n) (hm : m ≤ n) :
    ∃ o : Option Nat, t.find? part (a + x) (a + m) = o.map (a + ·) ∧
      t'.find? part (b + x) (b + m) = o.map (b + ·) := by
  simp only [find?, Nat.add_sub_add_left]
  exact h.findWithin_eq hm

end Agree

/-! ## Texts that are gone on with -/

theorem agree_append : Agree t (t ++ t') 0 0 t.size where
  same i hi := by
    rw [Nat.zero_add, Array.getElem?_append_left hi]
  le_size := Nat.le_of_eq (Nat.zero_add _)
  le_size' := by
    rw [Array.size_append]
    omega

theorem slice_append_left (hy : y ≤ t.size) : (t ++ t').slice x y = t.slice x y := by
  have h : t.slice (0 + x) (0 + y) = (t ++ t').slice (0 + x) (0 + y) := agree_append.slice_eq hy
  rw [Nat.zero_add, Nat.zero_add] at h
  exact h.symm

end VSyntax.Text
