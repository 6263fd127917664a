import VSyntax.Proofs.Delimiters.Agree

/-!
# Texts in which one part changes

A text around a part that is framed by marks: `framed p u c w r` is `p`, then `c` between `u` and
`w`, then `r`. Two such texts that differ in the framed part only agree in front of it, opening mark
included, and from its closing mark on (`agree_front`, `agree_rest`). A comment and a string are
such parts, and so are their marks.
-/
namespace VSyntax

open Text (Agree)

variable {p u c c₁ c₂ w r : Text} {d : Delimiters} {x : Nat}

/-- The text `p`, then `c` between `u` and `w`, then `r`. -/
def framed (p u c w r : Text) : Text := p ++ (u ++ (c ++ (w ++ r)))

theorem getElem?_append_add (xs ys : Text) (i : Nat) : (xs ++ ys)[xs.size + i]? = ys[i]? := by
  rw [Array.getElem?_append_right (Nat.le_add_right _ _), Nat.add_sub_cancel_left]

namespace Framed

theorem size_eq : (framed p u c w r).size = p.size + u.size + c.size + (w.size + r.size) := by
  simp only [framed, Array.size_append, Nat.add_assoc]

theorem getElem?_front (hx : x < p.size) : (framed p u c w r)[x]? = p[x]? :=
  Array.getElem?_append_left hx

theorem getElem?_opener (hx : x < u.size) : (framed p u c w r)[p.size + x]? = u[x]? := by
  rw [framed, getElem?_append_add, Array.getElem?_append_left hx]

theorem getElem?_body {body : Text} (hx : x < body.size) :
    (framed p u body w r)[p.size + u.size + x]? = body[x]? := by
  rw [framed, Nat.add_assoc, getElem?_append_add, getElem?_append_add,
    Array.getElem?_append_left hx]

theorem getElem?_after :
    (framed p u c w r)[p.size + u.size + c.size + x]? = (w ++ r)[x]? := by
  rw [framed, Nat.add_assoc, Nat.add_assoc, getElem?_append_add, getElem?_append_add,
    getElem?_append_add]

theorem getElem?_closer (hx : x < w.size) :
    (framed p u c w r)[p.size + u.size + c.size + x]? = w[x]? := by
  rw [getElem?_after, Array.getElem?_append_left hx]

/-- Between its marks stands the framed part. -/
theorem slice_body :
    (framed p u c w r).slice (p.size + u.size) (p.size + u.size + c.size) = c := by
  have h : c.Agree (framed p u c w r) 0 (p.size + u.size) c.size := by
    refine ⟨fun i hi => ?_, Nat.le_of_eq (Nat.zero_add _), ?_⟩
    · rw [getElem?_body hi, Nat.zero_add]
    · rw [size_eq]
      exact Nat.le_add_right _ _
  have hslice := h.slice_eq (x := 0) (Nat.le_refl c.size)
  rw [Nat.zero_add, Nat.zero_add, Nat.add_zero] at hslice
  rw [← hslice]
  exact Array.extract_size

/-! ## Where two such texts agree -/

theorem agree_front : (framed p u c₁ w r).Agree (framed p u c₂ w r) 0 0 (p.size + u.size) where
  same x hx := by
    rw [Nat.zero_add]
    rcases Nat.lt_or_ge x p.size with hlt | hge
    · rw [getElem?_front hlt, getElem?_front hlt]
    · obtain ⟨y, rfl⟩ := Nat.exists_eq_add_of_le hge
      have hy : y < u.size := Nat.lt_of_add_lt_add_left hx
      rw [getElem?_opener hy, getElem?_opener hy]
  le_size := by
    rw [size_eq]
    omega
  le_size' := by
    rw [size_eq]
    omega

theorem agree_rest : (framed p u c₁ w r).Agree (framed p u c₂ w r) (p.size + u.size + c₁.size)
    (p.size + u.size + c₂.size) (w.size + r.size) where
  same _ _ := getElem?_after.trans getElem?_after.symm
  le_size := Nat.le_of_eq size_eq.symm
  le_size' := Nat.le_of_eq size_eq.symm

/-- In front of the part the scanner reads the same, if it reads no further than the opening mark. -/
theorem agreeUpTo_front (h : d.commentOpener.length ≤ u.size + 1) :
    d.AgreeUpTo (framed p u c₁ w r) (framed p u c₂ w r) 0 0 p.size
      (p.size + (d.commentOpener.length - 1)) := by
  have hopener := List.length_pos_iff.mpr d.opener_ne
  have hlimit : ∀ c, openerLimit d (framed p u c w r) (0 + p.size) =
      0 + (p.size + (d.commentOpener.length - 1)) := by
    intro c
    rw [openerLimit, size_eq]
    omega
  refine ⟨agree_front.take ?_, Nat.le_add_right _ _, hlimit c₁, hlimit c₂⟩
  omega

theorem agreeUpTo_rest :
    d.AgreeUpTo (framed p u c₁ w r) (framed p u c₂ w r) (p.size + u.size + c₁.size)
      (p.size + u.size + c₂.size) (w.size + r.size) (w.size + r.size) := by
  have hlimit : ∀ c, openerLimit d (framed p u c w r)
      (p.size + u.size + c.size + (w.size + r.size)) =
        p.size + u.size + c.size + (w.size + r.size) := by
    intro c
    rw [← size_eq, openerLimit_size]
  exact ⟨agree_rest, Nat.le_refl _, hlimit c₁, hlimit c₂⟩

end Framed

end VSyntax
