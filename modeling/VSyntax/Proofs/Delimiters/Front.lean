import VSyntax.Proofs.Delimiters.Agree
import VSyntax.Proofs.Delimiters.Walk

/-!
# Comments and strings in texts with the same front

Two texts with the same characters up to an offset, and a little further, as far as an opener of
comments may reach over it (`AgreeUpTo.of_slice`). In front of the offset the walk over comments and
strings meets the same offsets in both (`Clear.front`). A region that the walk enters there may go
on beyond the offset, and then it may end elsewhere in each text: what both share is its end cut
back to the offset (`AgreeUpTo.regionAt_whole`). For this the terminator of comments must be no
longer than the opener, else it could stand across the offset and end in what only one text has.
-/
namespace VSyntax.Delimiters

variable {d : Delimiters} {t t' : Text} {m L p close : Nat} {category : Category}

namespace AgreeUpTo

/-- Texts agree as far as the scanner looks if their fronts are the same that far. -/
theorem of_slice (hm : m ≤ t.size)
    (h : t.slice 0 (m + d.commentOpener.length - 1) = t'.slice 0 (m + d.commentOpener.length - 1)) :
    d.AgreeUpTo t t' 0 0 m (openerLimit d t m) := by
  have hsize := congrArg Array.size h
  simp only [Text.slice, Array.size_extract, Nat.sub_zero] at hsize
  have hlimit : openerLimit d t m = openerLimit d t' m := hsize
  have hle : openerLimit d t m ≤ t.size := openerLimit_le
  have hle' : openerLimit d t' m ≤ t'.size := openerLimit_le
  refine ⟨⟨fun x hx => ?_, by omega, by omega⟩, le_openerLimit hm, ?_, ?_⟩
  · -- both characters stand in the fronts, at the same place
    have hat : ∀ u : Text, (u.slice 0 (m + d.commentOpener.length - 1))[x]? =
        if x < openerLimit d u m then u[x]? else none := fun u => by
      simp only [Text.slice, Array.getElem?_extract, Nat.sub_zero, Nat.zero_add]
      rfl
    have hx' : x < openerLimit d t' m := hlimit ▸ hx
    have hsame := hat t
    rw [h, hat t', if_pos hx, if_pos hx'] at hsame
    rw [Nat.zero_add, hsame]
  · rw [Nat.zero_add, Nat.zero_add]
  · rw [Nat.zero_add, Nat.zero_add, hlimit]

variable (h : d.AgreeUpTo t t' 0 0 m L)

include h

theorem le_size_front : m ≤ t.size ∧ m ≤ t'.size := by
  have hsize := h.agree.le_size
  have hsize' := h.agree.le_size'
  have hle := h.le
  omega

theorem opens_front (hp : p < m) : d.Opens t p ↔ d.Opens t' p := by
  have hopens : d.Opens t (0 + p) ↔ d.Opens t' (0 + p) := h.opens_iff hp
  rwa [Nat.zero_add] at hopens

/-- What opens in front of the offset is found alike under the scanner's bound. -/
theorem regionAt_front (hp : p < m) (hopens : d.Opens t p)
    (found : d.regionAt t p (openerLimit d t m) = .ok (some (close, category))) :
    d.regionAt t' p (openerLimit d t' m) = .ok (some (close, category)) := by
  have hlimit := h.limit
  have hlimit' := h.limit'
  rw [Nat.zero_add m] at hlimit hlimit'
  rw [hlimit, ← Nat.zero_add p] at found
  rw [← Nat.zero_add p] at hopens
  obtain ⟨y, rfl, found'⟩ := h.regionAt hp hopens found
  rwa [← hlimit', Nat.zero_add p] at found'

/-- What opens in front of the offset has the same end in both texts, cut back to the offset. -/
theorem regionAt_whole (hterm : d.commentTerminator.length ≤ d.commentOpener.length) (hp : p < m)
    (hopens : d.Opens t p) (found : d.regionAt t p t.size = .ok (some (close, category))) :
    ∃ close', d.regionAt t' p t'.size = .ok (some (close', category)) ∧
      min close' m = min close m := by
  obtain ⟨hm, hm'⟩ := h.le_size_front
  have hopens' := (h.opens_front hp).mp hopens
  obtain ⟨cut, hcut, hmin⟩ := regionAt_cut hterm hopens hp hm found
  have hcut' := h.regionAt_front hp hopens hcut
  obtain ⟨close', category', found', -⟩ := Delimiters.regionAt_whole hopens'
  obtain ⟨cut', hsame, hmin'⟩ := regionAt_cut hterm hopens' hp hm' found'
  rw [hcut'] at hsame
  cases hsame
  exact ⟨close', found', hmin'.symm.trans hmin⟩

end AgreeUpTo

/-! ## The walk -/

variable (h : d.AgreeUpTo t t' 0 0 m L)
  (hterm : d.commentTerminator.length ≤ d.commentOpener.length)

include h hterm

/-- In front of the offset the walk meets the same offsets in both texts. -/
theorem Clear.front (hclear : d.Clear t p) (hp : p < m) : d.Clear t' p := by
  unfold Clear at hclear
  induction hclear with
  | refl => exact .start
  | @tail q p _ hstep ih =>
    have hq : q < m := Nat.lt_trans hstep.lt hp
    refine (ih hq).tail ?_
    cases hstep with
    | code hlt quiet =>
      have hsize := h.le_size_front.2
      exact .code (by omega) fun hopens => quiet ((h.opens_front hq).mpr hopens)
    | region opens found =>
      obtain ⟨close', found', hmin⟩ := h.regionAt_whole hterm hq opens found
      obtain rfl : close' = p := by omega
      exact .region ((h.opens_front hq).mp opens) found'

/-- In front of the offset the same offsets lie inside a comment or string, which has the same end
in both texts, cut back to the offset. -/
theorem Inside.front (hinside : d.Inside t p close category) (hp : p < m) :
    ∃ close', d.Inside t' p close' category ∧ min close' m = min close m := by
  obtain ⟨o, hclear, opens, found, ho, hclose⟩ := hinside
  have hom : o < m := Nat.lt_trans ho hp
  obtain ⟨close', found', hmin⟩ := h.regionAt_whole hterm hom opens found
  have hclose' : p < close' := by omega
  exact ⟨close', ⟨o, hclear.front h hterm hom, (h.opens_front hom).mp opens, found', ho, hclose'⟩,
    hmin⟩

end VSyntax.Delimiters
