import VSyntax.Classify
import VSyntax.Proofs.Text

/-!
# Openings

Where a comment or a string opens, said of the whole text (`Delimiters.Opens`) or under a bound by
which an opener of comments has to end (`Delimiters.OpensBy`), and the stretches of code between
openings (`Delimiters.CodeTo`). `nextOpening_spec` says that the search under a bound ends at the
first offset where something opens under that bound.

The scanner looks for openers a little beyond the end of its region, because an opener that begins
inside may reach over that end; `nextOpening_codeTo` says that what it finds, cut back to the region,
is the end of the code in the sense of the whole text. A stretch of code has one end only
(`CodeTo.unique`), and any later offset of it has the same end (`CodeTo.mono`).
-/
namespace VSyntax

namespace Delimiters

variable {d : Delimiters} {t : Text} {pos stop e : Nat}

/-- A comment or a string opens at an offset of the text. -/
def Opens (d : Delimiters) (t : Text) (pos : Nat) : Prop :=
  t.startsAt d.commentOpener pos t.size = true ∨ ∃ c ∈ d.strings, t[pos]? = some c

/-- A comment or a string opens at an offset, as far as the text before `stop` shows it. -/
def OpensBy (d : Delimiters) (t : Text) (stop pos : Nat) : Prop :=
  t.startsAt d.commentOpener pos stop = true ∨ ∃ c ∈ d.strings, t[pos]? = some c

/-- The code from `pos` on goes up to `e`: nothing opens before `e`, and unless `e` is `stop`,
something opens there. -/
structure CodeTo (d : Delimiters) (t : Text) (stop pos e : Nat) : Prop where
  start_le : pos ≤ e
  le_stop : e ≤ stop
  quiet : ∀ i, pos ≤ i → i < e → ¬ d.Opens t i
  opens : e < stop → d.Opens t e

/-- What opens, opens inside the text. -/
theorem Opens.lt_size (h : d.Opens t pos) : pos < t.size := by
  rcases h with h | ⟨c, -, hc⟩
  · have := Text.startsAt_end_le d.opener_ne h
    have := List.length_pos_iff.mpr d.opener_ne
    omega
  · exact (Array.getElem?_eq_some_iff.mp hc).1

namespace CodeTo

theorem unique {e' : Nat} (h : d.CodeTo t stop pos e) (h' : d.CodeTo t stop pos e') : e = e' := by
  have := h.start_le
  have := h'.start_le
  have := h.le_stop
  have := h'.le_stop
  rcases Nat.lt_trichotomy e e' with hlt | heq | hlt
  · exact absurd (h.opens (by omega)) (h'.quiet e (by omega) hlt)
  · exact heq
  · exact absurd (h'.opens (by omega)) (h.quiet e' (by omega) hlt)

/-- Further on in a stretch of code its end is the same. -/
theorem mono {p : Nat} (h : d.CodeTo t stop pos e) (hp : pos ≤ p) (hpe : p ≤ e) :
    d.CodeTo t stop p e :=
  ⟨hpe, h.le_stop, fun i hi hlt => h.quiet i (by omega) hlt, h.opens⟩

/-- The code goes on as long as nothing opens. -/
theorem le_of_quiet {q : Nat} (h : d.CodeTo t stop pos e) (hq : q ≤ stop)
    (hquiet : ∀ i, pos ≤ i → i < q → ¬ d.Opens t i) : q ≤ e := by
  apply Nat.le_of_not_lt
  intro hlt
  exact hquiet e h.start_le hlt (h.opens (by omega))

/-- An earlier bound cuts the code. -/
theorem cut {b : Nat} (h : d.CodeTo t stop pos e) (hpos : pos ≤ b) (hb : b ≤ stop) :
    d.CodeTo t b pos (min e b) where
  start_le := Nat.le_min.mpr ⟨h.start_le, hpos⟩
  le_stop := Nat.min_le_right _ _
  quiet i hi hlt := h.quiet i hi (by omega)
  opens hlt := by
    have he : min e b = e := by omega
    rw [he] at hlt ⊢
    exact h.opens (by omega)

end CodeTo

end Delimiters

/-! ## The bound on openers -/

variable {d : Delimiters} {t : Text} {pos stop : Nat}

theorem openerLimit_le : openerLimit d t stop ≤ t.size := Nat.min_le_right _ _

theorem le_openerLimit (h : stop ≤ t.size) : stop ≤ openerLimit d t stop := by
  have := List.length_pos_iff.mpr d.opener_ne
  simp only [openerLimit]
  omega

theorem openerLimit_size : openerLimit d t t.size = t.size :=
  Nat.le_antisymm openerLimit_le (le_openerLimit (Nat.le_refl _))

/-- Before `stop` the bound on openers lets every comment opener of the text through. -/
theorem startsAt_openerLimit (h : pos < stop) :
    t.startsAt d.commentOpener pos (openerLimit d t stop) =
      t.startsAt d.commentOpener pos t.size := by
  rw [Bool.eq_iff_iff, Text.startsAt_iff_whole d.opener_ne openerLimit_le]
  constructor
  · exact And.left
  · intro hat
    have := Text.startsAt_end_le d.opener_ne hat
    refine ⟨hat, ?_⟩
    simp only [openerLimit]
    omega

namespace Delimiters

/-- Under the bound on openers the same opens before `stop` as in the whole text. -/
theorem opensBy_openerLimit (h : pos < stop) :
    d.OpensBy t (openerLimit d t stop) pos ↔ d.Opens t pos := by
  rw [OpensBy, Opens, startsAt_openerLimit h]

/-! ## The search for openings -/

/-- The search over `steps` offsets ends at the first one where something opens within `limit`, or
after them all. -/
theorem openingFrom_spec (limit : Nat) {steps : Nat} (h : pos + steps ≤ t.size) :
    ∃ o, d.openingFrom t limit steps pos = .ok o ∧ pos ≤ o ∧ o ≤ pos + steps ∧
      (∀ i, pos ≤ i → i < o → ¬ d.OpensBy t limit i) ∧
      (o < pos + steps → d.OpensBy t limit o) := by
  induction steps generalizing pos with
  | zero => exact ⟨pos, rfl, Nat.le_refl _, Nat.le_refl _, fun i hi hlt => absurd hlt (by omega),
      fun hlt => absurd hlt (Nat.lt_irrefl _)⟩
  | succ steps ih =>
    have hpos : pos < t.size := by omega
    simp only [openingFrom, Text.charAt_eq_ok hpos]
    by_cases hcom : t.startsAt d.commentOpener pos limit = true
    · exact ⟨pos, if_pos hcom, Nat.le_refl _, by omega, fun i hi hlt => absurd hlt (by omega),
        fun _ => .inl hcom⟩
    rw [if_neg hcom]
    by_cases hstr : t[pos] ∈ d.strings
    · exact ⟨pos, if_pos hstr, Nat.le_refl _, by omega, fun i hi hlt => absurd hlt (by omega),
        fun _ => .inr ⟨_, hstr, Array.getElem?_eq_getElem hpos⟩⟩
    rw [if_neg hstr]
    have hnext : pos + 1 + steps ≤ t.size := by omega
    obtain ⟨o, hrun, hle, hlt, hquiet, hopens⟩ := ih hnext
    refine ⟨o, hrun, by omega, by omega, fun i hi hio => ?_, fun ho => hopens (by omega)⟩
    rcases Nat.eq_or_lt_of_le hi with rfl | hlt'
    · rintro (hat | ⟨c, hc, hat⟩)
      · exact hcom hat
      · rw [Array.getElem?_eq_getElem hpos, Option.some.injEq] at hat
        exact hstr (hat ▸ hc)
    · exact hquiet i hlt' hio

/-- The search ends at the first offset before `stop` where something opens under that bound, or at
`stop`. -/
theorem nextOpening_spec (hpos : pos ≤ stop) (hstop : stop ≤ t.size) :
    ∃ o, d.nextOpening t pos stop = .ok o ∧ pos ≤ o ∧ o ≤ stop ∧
      (∀ i, pos ≤ i → i < o → ¬ d.OpensBy t stop i) ∧ (o < stop → d.OpensBy t stop o) := by
  rcases Nat.eq_or_lt_of_le hpos with rfl | hlt
  · exact ⟨pos, by rw [nextOpening, if_neg (Nat.lt_irrefl _)], Nat.le_refl _, Nat.le_refl _,
      fun i hi hlt => absurd hlt (by omega), fun hlt => absurd hlt (Nat.lt_irrefl _)⟩
  · rw [nextOpening, if_pos hlt]
    have hsteps : pos + (stop - pos) = stop := by omega
    have hspec := openingFrom_spec (d := d) stop (Nat.le_trans (Nat.le_of_eq hsteps) hstop)
    rwa [hsteps] at hspec

/-- What the scanner finds with its bound on openers is, cut back to `stop`, the end of the code. -/
theorem nextOpening_codeTo (hpos : pos ≤ stop) (hstop : stop ≤ t.size) :
    ∃ o, d.nextOpening t pos (openerLimit d t stop) = .ok o ∧ d.CodeTo t stop pos (min o stop) := by
  have hlim : stop ≤ openerLimit d t stop := le_openerLimit hstop
  obtain ⟨o, hrun, hle, -, hquiet, hopens⟩ :=
    nextOpening_spec (d := d) (Nat.le_trans hpos hlim) openerLimit_le
  refine ⟨o, hrun, by omega, Nat.min_le_right _ _, fun i hi hlt => ?_, fun hlt => ?_⟩
  · rw [← opensBy_openerLimit (show i < stop by omega)]
    exact hquiet i hi (by omega)
  · have homin : min o stop = o := by omega
    rw [homin] at hlt ⊢
    exact (opensBy_openerLimit hlt).mp (hopens (by omega))

end Delimiters

end VSyntax
