import VSyntax.Proofs.Agree
import VSyntax.Proofs.Delimiters.Regions

/-!
# Comments and strings in texts that agree

Where two texts agree, and a little further, as far as the scanner looks for openers, comments and
strings open at the same offsets (`AgreeUpTo.opens_iff`) and the scanner finds the same ends for
them (`AgreeUpTo.regionAt`), counted from where the stretch begins.
-/
namespace VSyntax.Delimiters

variable {d : Delimiters} {t t' : Text} {a b m L x e : Nat}

/-- The texts agree on a stretch of `m` characters, and on up to `L` characters, which are all that
the scanner reads when it is given the stretch. -/
structure AgreeUpTo (d : Delimiters) (t t' : Text) (a b m L : Nat) : Prop where
  agree : t.Agree t' a b L
  le : m ≤ L
  limit : openerLimit d t (a + m) = a + L
  limit' : openerLimit d t' (b + m) = b + L

namespace AgreeUpTo

/-- Something opens in both texts or in neither. -/
theorem opens_iff (h : d.AgreeUpTo t t' a b m L) (hx : x < m) :
    d.Opens t (a + x) ↔ d.Opens t' (b + x) := by
  have hsame : t.startsAt d.commentOpener (a + x) t.size =
      t'.startsAt d.commentOpener (b + x) t'.size := by
    rw [← startsAt_openerLimit (Nat.add_lt_add_left hx a), h.limit,
      ← startsAt_openerLimit (Nat.add_lt_add_left hx b), h.limit']
    exact h.agree.startsAt_eq (Nat.le_refl L)
  rw [Opens, Opens, hsame, h.agree.same x (Nat.lt_of_lt_of_le hx h.le)]

/-- A stretch of code of the one text is one of the other. -/
theorem codeTo (h : d.AgreeUpTo t t' a b m L) (hcode : d.CodeTo t (a + m) (a + x) e) :
    ∃ y, e = a + y ∧ d.CodeTo t' (b + m) (b + x) (b + y) := by
  have hle := hcode.start_le
  have hend := hcode.le_stop
  obtain ⟨y, rfl⟩ : ∃ y, e = a + y := ⟨e - a, by omega⟩
  refine ⟨y, rfl, by omega, by omega, fun i hi hlt => ?_, fun hlt => ?_⟩
  · obtain ⟨z, rfl⟩ : ∃ z, i = b + z := ⟨i - b, by omega⟩
    rw [← h.opens_iff (by omega)]
    exact hcode.quiet (a + z) (by omega) (by omega)
  · rw [← h.opens_iff (by omega)]
    exact hcode.opens (by omega)

/-- The search for the closing quote ends at the same character. -/
theorem closingFrom (h : d.AgreeUpTo t t' a b m L) (quote : Char) {steps : Nat} :
    ∃ y, d.closingFrom t quote (a + L) steps (a + x) = .ok (a + y) ∧
      d.closingFrom t' quote (b + L) steps (b + x) = .ok (b + y) := by
  induction steps generalizing x with
  | zero => exact ⟨x, rfl, rfl⟩
  | succ steps ih =>
    unfold Delimiters.closingFrom
    by_cases hx : x < L
    · obtain ⟨c, hc, hc'⟩ := h.agree.exists_char hx
      rw [if_pos (Nat.add_lt_add_left hx a), if_pos (Nat.add_lt_add_left hx b)]
      simp only [Text.charAt, hc, hc']
      by_cases hescape : d.escape = [c]
      · rw [if_pos hescape, if_pos hescape]
        exact ih (x := x + 2)
      · rw [if_neg hescape, if_neg hescape]
        by_cases hquote : c = quote
        · rw [if_pos hquote, if_pos hquote]
          exact ⟨x + 1, rfl, rfl⟩
        · rw [if_neg hquote, if_neg hquote]
          exact ih (x := x + 1)
    · rw [if_neg (by omega), if_neg (by omega)]
      exact ⟨x, rfl, rfl⟩

/-- What opens ends at the same character. -/
theorem regionAt (h : d.AgreeUpTo t t' a b m L) (hx : x < m) (hopens : d.Opens t (a + x))
    {close : Nat} {category : Category}
    (found : d.regionAt t (a + x) (a + L) = .ok (some (close, category))) :
    ∃ y, close = a + y ∧ d.regionAt t' (b + x) (b + L) = .ok (some (b + y, category)) := by
  have hsame : t.startsAt d.commentOpener (a + x) (a + L) =
      t'.startsAt d.commentOpener (b + x) (b + L) := h.agree.startsAt_eq (Nat.le_refl L)
  by_cases hcom : t.startsAt d.commentOpener (a + x) (a + L) = true
  · have hfind : ∃ o : Option Nat,
        t.find? d.commentTerminator (a + (x + d.commentOpener.length)) (a + L) = o.map (a + ·) ∧
          t'.find? d.commentTerminator (b + (x + d.commentOpener.length)) (b + L) =
            o.map (b + ·) := h.agree.find?_eq (Nat.le_refl L)
    obtain ⟨o, ho, ho'⟩ := hfind
    rw [regionAt_comment hcom, Nat.add_assoc, ho] at found
    rw [regionAt_comment (hsame ▸ hcom), Nat.add_assoc, ho']
    cases found
    cases o with
    | none => exact ⟨L, rfl, rfl⟩
    | some y => exact ⟨y, rfl, rfl⟩
  · rcases hopens with hopens | ⟨quote, hq, hat⟩
    · rw [← startsAt_openerLimit (Nat.add_lt_add_left hx a), h.limit] at hopens
      exact absurd hopens hcom
    · have hclosing : ∃ y, d.closingFrom t quote (a + L) (L - x) (a + x + 1) = .ok (a + y) ∧
          d.closingFrom t' quote (b + L) (L - x) (b + x + 1) = .ok (b + y) :=
        h.closingFrom (x := x + 1) quote
      obtain ⟨y, hy, hy'⟩ := hclosing
      have hat' : t'[b + x]? = some quote := by
        rw [← h.agree.same x (Nat.lt_of_lt_of_le hx h.le), hat]
      have hleft : a + L - (a + x) = L - x := Nat.add_sub_add_left a L x
      have hleft' : b + L - (b + x) = L - x := Nat.add_sub_add_left b L x
      rw [regionAt_string hcom hat hq (by rw [hleft]; exact hy)] at found
      rw [regionAt_string (fun hc => hcom (hsame.trans hc)) hat' hq (by rw [hleft']; exact hy')]
      cases found
      exact ⟨min y L, by omega, by rw [Nat.add_min_add_left]⟩

end AgreeUpTo

end VSyntax.Delimiters
