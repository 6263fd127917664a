import VSyntax.Proofs.Lines

/-!
# Places

Offsets and places, converted into one another. The code units of two stretches that meet add up
(`unitCount_append`), and a stretch has at least as many as it has characters (`le_unitCount`). So
the walk along a line that counts code units reaches each offset of the line exactly when the units
before it are behind (`Place.advance_eq`), and converting the place of an offset back gives the
offset (`Place.offset_ofOffset`). A later offset has a later place (`Place.ofOffset_before`).
-/
namespace VSyntax

variable {t : Text} {u : CodeUnits} {units : Option CodeUnits} {a b m k first last pos x : Nat}

/-! ## Counting code units -/

namespace CodeUnits

/-- Code units counted on from a number are added to it. -/
theorem foldr_width (u : CodeUnits) (cs : List Char) (n : Nat) :
    (cs.map u.width).foldr (· + ·) n = (cs.map u.width).foldr (· + ·) 0 + n := by
  induction cs with
  | nil => simp
  | cons c cs ih =>
    simp only [List.map_cons, List.foldr_cons, ih]
    omega

theorem count_append {t₁ t₂ : Text} (h : t.toList = t₁.toList ++ t₂.toList) :
    u.count t = u.count t₁ + u.count t₂ := by
  simp only [count, h, List.map_append, List.foldr_append]
  exact foldr_width u t₁.toList _

theorem count_nil (h : t.toList = []) : u.count t = 0 := by
  simp [count, h]

theorem count_cons {c : Char} {t₁ : Text} (h : t.toList = c :: t₁.toList) :
    u.count t = u.width c + u.count t₁ := by
  simp [count, h]

theorem size_le_count (u : CodeUnits) (t : Text) : t.size ≤ u.count t := by
  rw [← Array.length_toList]
  unfold count
  induction t.toList with
  | nil => exact Nat.le_refl _
  | cons c cs ih =>
    have := u.width_pos c
    simp only [List.length_cons, List.map_cons, List.foldr_cons]
    omega

end CodeUnits

/-- The code units of two stretches that meet add up. -/
theorem unitCount_append (ham : a ≤ m) (hmb : m ≤ b) :
    unitCount units (t.slice a b) =
      unitCount units (t.slice a m) + unitCount units (t.slice m b) := by
  have happend := Text.slice_append (t := t) ham hmb
  cases units with
  | none =>
    simp only [unitCount, ← Array.length_toList, happend, List.length_append]
  | some u =>
    exact CodeUnits.count_append happend

theorem unitCount_self : unitCount units (t.slice a a) = 0 := by
  have hnil := Text.slice_eq_nil (t := t) (Nat.le_refl a)
  cases units with
  | none => simp only [unitCount, ← Array.length_toList, hnil, List.length_nil]
  | some u => exact CodeUnits.count_nil hnil

/-- A stretch has at least one code unit for each character. -/
theorem le_unitCount (hb : b ≤ t.size) : b - a ≤ unitCount units (t.slice a b) := by
  have hsize : (t.slice a b).size = b - a := by
    simp only [Text.slice, Array.size_extract]
    omega
  rw [← hsize]
  cases units with
  | none => exact Nat.le_refl _
  | some u => exact u.size_le_count _

/-- In characters, a stretch is as long as its offsets are apart. -/
theorem unitCount_none (hb : b ≤ t.size) : unitCount none (t.slice a b) = b - a := by
  simp only [unitCount, Text.slice, Array.size_extract]
  omega

namespace Place

/-! ## From places to offsets -/

/-- The walk along a line stops where as many code units are behind as asked for. -/
theorem advance_eq {target taken steps : Nat} (hx : x ≤ t.size) (hpos : pos ≤ x)
    (hsteps : x ≤ pos + steps) (htarget : target = taken + u.count (t.slice pos x)) :
    advance u t target steps pos taken = x := by
  induction steps generalizing pos taken with
  | zero =>
    unfold advance
    omega
  | succ steps ih =>
    unfold advance
    rcases Nat.eq_or_lt_of_le hpos with rfl | hlt
    · have hself : unitCount (some u) (t.slice pos pos) = 0 := unitCount_self
      simp only [unitCount] at hself
      rw [if_neg (by omega)]
    · have hmore : x - pos ≤ unitCount (some u) (t.slice pos x) := le_unitCount hx
      simp only [unitCount] at hmore
      have hsize : pos < t.size := by omega
      rw [if_pos (by omega)]
      refine ih hlt (by omega) ?_
      rw [htarget, CodeUnits.count_cons (Text.slice_cons hlt hx), Array.getElem?_eq_getElem hsize]
      simp only [Option.map_some, Option.getD_some]
      omega

/-- The place with the code units before an offset of a line stands for the offset. -/
theorem offset_eq (h : t.IsLine k first last) (hx : first ≤ x) (hxl : x ≤ last) :
    offset t units ⟨k, unitCount units (t.slice first x)⟩ = x := by
  have hsize := Nat.le_trans hxl h.le_size
  simp only [offset, Text.lineStart?_eq, h.starts, h.lineEnd_eq]
  cases units with
  | none =>
    rw [unitCount_none hsize]
    simp only
    omega
  | some u => exact advance_eq hsize hx (by omega) (by simp only [unitCount, Nat.zero_add])

/-- The place of an offset is its line with the code units before it. -/
theorem ofOffset_eq (h : t.IsLine k first last) (hx : first ≤ x) (hxl : x ≤ last) :
    ofOffset t units t.lineStarts x = ⟨k, unitCount units (t.slice first x)⟩ := by
  simp only [ofOffset, h.lineOf_eq hx hxl, h.starts, Option.getD_some]

/-- The place of the first offset is the start of the first line. -/
theorem ofOffset_zero : ofOffset t units t.lineStarts 0 = ⟨0, 0⟩ := by
  have hline : t.IsLine 0 0 (t.lineEnd 0) := Text.isLine_lineEnd rfl
  rw [ofOffset_eq hline (Nat.le_refl 0) hline.le, unitCount_self]

/-- Lines are counted upwards. -/
theorem lineOf_le_of_le {starts : List Nat} {y : Nat} (h : x ≤ y) :
    lineOf starts x ≤ lineOf starts y := by
  have hcount : starts.countP (· ≤ x) ≤ starts.countP (· ≤ y) := by
    apply List.countP_mono_left
    intro first _ hfirst
    simp only [decide_eq_true_eq] at hfirst ⊢
    exact Nat.le_trans hfirst h
  exact Nat.sub_le_sub_right hcount 1

/-- On one line, the place of a later offset is counted on from that of an earlier one. -/
theorem ofOffset_of_lineOf_eq {y : Nat} (hxy : x ≤ y) (hy : y ≤ t.size)
    (hline : lineOf t.lineStarts y = lineOf t.lineStarts x) :
    ofOffset t units t.lineStarts y = ⟨(ofOffset t units t.lineStarts x).line,
      (ofOffset t units t.lineStarts x).unit + unitCount units (t.slice x y)⟩ := by
  obtain ⟨first, last, hx, hfirst, hlast⟩ := Text.exists_isLine (Nat.le_trans hxy hy)
  obtain ⟨first', last', hy', hfirst', hlast'⟩ := Text.exists_isLine hy
  rw [hline] at hy'
  obtain rfl : first' = first := Option.some.inj (hy'.starts.symm.trans hx.starts)
  rw [ofOffset_eq hx hfirst hlast, ofOffset_eq hy' hfirst' hlast', unitCount_append hfirst hxy]

/-- The place of an offset stands for the offset. -/
theorem offset_ofOffset (h : x ≤ t.size) :
    offset t units (ofOffset t units t.lineStarts x) = x := by
  obtain ⟨first, last, hline, hx, hxl⟩ := Text.exists_isLine h
  rw [ofOffset_eq hline hx hxl, offset_eq hline hx hxl]

/-- The start of a line stands for the line start, and past the last line for the end of the
text. -/
theorem offset_lineStart : offset t units ⟨k, 0⟩ = (t.lineStarts[k]?).getD t.size := by
  cases hk : t.lineStarts[k]? with
  | none => simp only [offset, Text.lineStart?_eq, hk, Option.getD_none]
  | some first =>
    have hline := Text.isLine_lineEnd hk
    have hzero : offset t units ⟨k, unitCount units (t.slice first first)⟩ = first :=
      offset_eq hline (Nat.le_refl first) hline.le
    rwa [unitCount_self] at hzero

/-! ## The order of places -/

/-- A place stands before another: on an earlier line, or earlier on the same line. -/
def Before (p q : Place) : Prop := p.line < q.line ∨ p.line = q.line ∧ p.unit < q.unit

/-- A later offset has a later place. -/
theorem ofOffset_before {y : Nat} (hxy : x < y) (hy : y ≤ t.size) :
    (ofOffset t units t.lineStarts x).Before (ofOffset t units t.lineStarts y) := by
  have hlines : lineOf t.lineStarts x ≤ lineOf t.lineStarts y :=
    lineOf_le_of_le (Nat.le_of_lt hxy)
  rcases Nat.eq_or_lt_of_le hlines with heq | hlt
  · have hunits : y - x ≤ unitCount units (t.slice x y) := le_unitCount hy
    rw [ofOffset_of_lineOf_eq (Nat.le_of_lt hxy) hy heq.symm]
    exact .inr ⟨rfl, Nat.lt_add_of_pos_right (by omega)⟩
  · exact .inl hlt

end Place

end VSyntax
