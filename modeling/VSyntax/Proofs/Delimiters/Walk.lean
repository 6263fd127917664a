import VSyntax.Proofs.Delimiters.Regions
import Mathlib.Logic.Relation

/-!
# The walk over comments and strings

Which offsets lie outside every comment and string (`Delimiters.Clear`) and which lie inside one
(`Delimiters.Inside`), by the walk from the start of the text that passes single characters of code
and whole comments and strings. The walk has one way to go, so a region that it enters before a
clear offset ends by that offset (`Clear.region_le`).

`enclosing?_spec` says that the search which a region starts with answers exactly this question.
-/
namespace VSyntax

open Relation

namespace Delimiters

variable {d : Delimiters} {t : Text} {p q pos stop e : Nat} {category : Category}

/-- One step of the walk: over a character of code, or over a comment or string. -/
inductive Step (d : Delimiters) (t : Text) : Nat → Nat → Prop
  | code {p : Nat} (h : p < t.size) (quiet : ¬ d.Opens t p) : Step d t p (p + 1)
  | region {p close : Nat} {category : Category} (opens : d.Opens t p)
    (found : d.regionAt t p t.size = .ok (some (close, category))) : Step d t p close

/-- No comment or string is open at an offset: the walk from the start of the text meets it. -/
def Clear (d : Delimiters) (t : Text) (p : Nat) : Prop := ReflTransGen (d.Step t) 0 p

/-- The offset lies inside a comment or string that ends at `close`. -/
def Inside (d : Delimiters) (t : Text) (p close : Nat) (category : Category) : Prop :=
  ∃ o, d.Clear t o ∧ d.Opens t o ∧ d.regionAt t o t.size = .ok (some (close, category)) ∧
    o < p ∧ p < close

/-- A region that is found where something opens ends later and inside the text. -/
theorem regionAt_bounds {close : Nat} (h : d.Opens t p)
    (hrun : d.regionAt t p t.size = .ok (some (close, category))) :
    p < close ∧ close ≤ t.size ∧ category.isDelimited = true := by
  obtain ⟨close', category', hrun', hlt, hle, hcat⟩ :=
    regionAt_of_opensBy h h.lt_size (Nat.le_refl _)
  rw [hrun] at hrun'
  cases hrun'
  exact ⟨hlt, hle, hcat⟩

theorem Step.lt (h : d.Step t p q) : p < q := by
  cases h with
  | code => exact Nat.lt_succ_self _
  | region opens found => exact (regionAt_bounds opens found).1

theorem Step.unique : Relator.RightUnique (d.Step t) := by
  intro p q q' h h'
  cases h with
  | code _ quiet =>
    cases h' with
    | code => rfl
    | region opens => exact absurd opens quiet
  | region opens found =>
    cases h' with
    | code _ quiet => exact absurd opens quiet
    | region _ found' =>
      rw [found] at found'
      cases found'
      rfl

theorem walk_le (h : ReflTransGen (d.Step t) p q) : p ≤ q := by
  induction h with
  | refl => exact Nat.le_refl _
  | tail _ hstep ih => exact Nat.le_trans ih (Nat.le_of_lt hstep.lt)

/-- Of two offsets that the walk meets, it meets the later one from the earlier one. -/
theorem Clear.walk (hp : d.Clear t p) (hq : d.Clear t q) (hle : p ≤ q) :
    ReflTransGen (d.Step t) p q := by
  rcases ReflTransGen.total_of_right_unique Step.unique hp hq with h | h
  · exact h
  · have heq : p = q := Nat.le_antisymm hle (walk_le h)
    exact heq ▸ .refl

theorem Clear.start : d.Clear t 0 := .refl

theorem Clear.region {close : Nat} (h : d.Clear t p) (opens : d.Opens t p)
    (found : d.regionAt t p t.size = .ok (some (close, category))) : d.Clear t close :=
  h.tail (.region opens found)

/-- Every offset of the code from a clear offset on is clear, its end too. -/
theorem Clear.code (h : d.Clear t pos) (hcode : d.CodeTo t stop pos e) (hstop : stop ≤ t.size)
    (hp : pos ≤ p) (hpe : p ≤ e) : d.Clear t p := by
  induction p with
  | zero => exact .start
  | succ p ih =>
    rcases Nat.eq_or_lt_of_le hp with rfl | hlt
    · exact h
    · have := hcode.le_stop
      exact (ih (by omega) (by omega)).tail (.code (by omega) (hcode.quiet p (by omega) (by omega)))

/-- A region that begins at a clear offset ends by any later clear offset. -/
theorem Clear.region_le {close : Nat} (hp : d.Clear t p) (hq : d.Clear t q) (hlt : p < q)
    (opens : d.Opens t p) (found : d.regionAt t p t.size = .ok (some (close, category))) :
    close ≤ q := by
  rcases ReflTransGen.cases_head (hp.walk hq (Nat.le_of_lt hlt)) with heq | ⟨m, hstep, hrest⟩
  · omega
  · rw [Step.unique (.region opens found) hstep]
    exact walk_le hrest

/-- An offset that is clear is not inside a comment or string. -/
theorem Clear.not_inside {close : Nat} (h : d.Clear t p) : ¬ d.Inside t p close category := by
  rintro ⟨o, ho, opens, found, hlt, hin⟩
  have := ho.region_le h hlt opens found
  omega

end Delimiters

/-! ## The search for the region around an offset -/

variable {d : Delimiters} {t : Text} {pos offset : Nat}

theorem enclosingFrom_spec {steps : Nat} (hoff : offset ≤ t.size) (hclear : d.Clear t pos)
    (hpos : pos ≤ offset) (hsteps : offset ≤ pos + steps) :
    (enclosingFrom d t offset (openerLimit d t offset) steps pos = .ok none ∧
      d.Clear t offset) ∨
    ∃ close category, enclosingFrom d t offset (openerLimit d t offset) steps pos =
      .ok (some (close, category)) ∧ d.Inside t offset close category := by
  induction steps generalizing pos with
  | zero =>
    have heq : pos = offset := by omega
    exact .inl ⟨rfl, heq ▸ hclear⟩
  | succ steps ih =>
    rcases Nat.eq_or_lt_of_le hpos with rfl | hlt
    · exact .inl ⟨by rw [enclosingFrom, if_neg (Nat.lt_irrefl _)], hclear⟩
    obtain ⟨o, hnext, hcode⟩ := Delimiters.nextOpening_codeTo (d := d) hpos hoff
    simp only [enclosingFrom, if_pos hlt, hnext, bind, Except.bind]
    by_cases hreach : offset ≤ o
    · refine .inl ⟨by rw [if_pos hreach]; rfl, hclear.code hcode hoff hpos ?_⟩
      exact Nat.le_min.mpr ⟨hreach, Nat.le_refl _⟩
    -- the opening lies before the offset, and so does the code up to it
    have hmin : min o offset = o := by omega
    rw [hmin] at hcode
    have hle := hcode.start_le
    have hopens := hcode.opens (by omega)
    have ho : d.Clear t o := hclear.code hcode hoff hle (Nat.le_refl _)
    obtain ⟨close, category, hfound, -⟩ := Delimiters.regionAt_whole hopens
    have hlater := (Delimiters.regionAt_bounds hopens hfound).1
    simp only [if_neg hreach, hfound]
    by_cases hin : offset < close
    · exact .inr ⟨close, category, by rw [if_pos hin]; rfl, o, ho, hopens, hfound, by omega, hin⟩
    · rw [if_neg hin]
      exact ih (ho.region hopens hfound) (by omega) (by omega)

/-- The search finds the comment or string that the offset lies inside, and none at a clear
offset. -/
theorem enclosing?_spec (hoff : offset ≤ t.size) :
    (enclosing? d t offset = .ok none ∧ d.Clear t offset) ∨
    ∃ close category, enclosing? d t offset = .ok (some (close, category)) ∧
      d.Inside t offset close category :=
  enclosingFrom_spec hoff .start (Nat.zero_le _) (by omega)

end VSyntax
