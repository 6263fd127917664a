import VSyntax.Position
import VSyntax.Proofs.Places

/-!
# Positions and places

A line of a text is located in three ways: by one search for a line end after the other
(`Place.offset`), in the table of the line starts (`Place.ofOffset`), and by counting the line ends
in front of an offset (`Position.ofOffset`). The three agree. The searches lead to the line starts
of the table (`Text.lineStart?_eq`), and in front of the start of a line there are as many line ends
as its number says (`Text.count_lineStart`), so a position is a place counted from one
(`Position.ofOffset_eq`).

`Place.conversions_agree` puts this together with the way back from places to offsets.
-/
namespace VSyntax

variable {t : Text} {k first last x : Nat}

namespace Text

/-! ## Line ends in front of an offset -/

/-- A part of a line holds no line end. -/
theorem IsLine.count_slice (h : t.IsLine k first last) (hxl : x ≤ last) :
    (t.slice first x).toList.count '\n' = 0 := by
  rw [List.count_eq_zero]
  intro hmem
  obtain ⟨i, hi⟩ := List.mem_iff_getElem?.mp hmem
  simp only [slice, Array.getElem?_toList, Array.getElem?_extract] at hi
  split at hi
  · exact h.plain (first + i) (Nat.le_add_right _ _) (by omega) hi
  · cases hi

/-- In front of the start of a line there are as many line ends as its number says. -/
theorem count_lineStart (h : t.lineStarts[k]? = some first) :
    (t.slice 0 first).toList.count '\n' = k := by
  induction k generalizing first with
  | zero =>
    obtain rfl : 0 = first := Option.some.inj h
    rw [slice_eq_nil (Nat.le_refl 0)]
    rfl
  | succ k ih =>
    obtain ⟨prev, hprev⟩ : ∃ prev, t.lineStarts[k]? = some prev := by
      have hlt := (List.getElem?_eq_some_iff.mp h).1
      exact ⟨_, List.getElem?_eq_getElem (by omega)⟩
    have hline := isLine_lineEnd hprev
    have hsize : t.lineEnd prev < t.size := by
      rcases Nat.eq_or_lt_of_le hline.le_size with heq | hlt
      · rw [hline.next_eq_none heq] at h
        cases h
      · exact hlt
    obtain rfl : t.lineEnd prev + 1 = first := Option.some.inj ((hline.next hsize).symm.trans h)
    have hchar : t[t.lineEnd prev] = '\n' := by
      have := hline.ends hsize
      rwa [Array.getElem?_eq_getElem hsize, Option.some.injEq] at this
    rw [slice_append (Nat.zero_le prev) (Nat.le_succ_of_le hline.le),
      slice_append hline.le (Nat.le_succ _), slice_cons (Nat.lt_succ_self _) hsize,
      slice_eq_nil (Nat.le_refl _), List.count_append, List.count_append, ih hprev,
      hline.count_slice (Nat.le_refl _), hchar]
    rfl

/-- In front of an offset of a line, the characters after the last line end are those of the
line. -/
theorem IsLine.length_takeWhile (h : t.IsLine k first last) (hx : first ≤ x) (hxl : x ≤ last) :
    ((t.slice 0 x).toList.reverse.takeWhile (· != '\n')).length = x - first := by
  have hsize := Nat.le_trans hxl h.le_size
  have hplain : ∀ c ∈ (t.slice first x).toList.reverse, (c != '\n') = true := by
    intro c hc
    rw [List.mem_reverse] at hc
    rw [bne_iff_ne]
    rintro rfl
    exact absurd (h.count_slice hxl) (Nat.ne_of_gt (List.count_pos_iff.mpr hc))
  have hfront : (t.slice 0 first).toList.reverse.takeWhile (· != '\n') = [] := by
    rcases mem_lineStarts.mp (List.mem_of_getElem? h.starts) with rfl | ⟨hpos, hat⟩
    · rw [slice_eq_nil (Nat.le_refl 0)]
      rfl
    · have hlt := (Array.getElem?_eq_some_iff.mp hat).1
      rw [Array.getElem?_eq_getElem hlt, Option.some.injEq] at hat
      rw [slice_append (Nat.zero_le (first - 1)) (Nat.sub_le first 1),
        slice_cons (show first - 1 < first by omega) (by omega), hat,
        slice_eq_nil (show first ≤ first - 1 + 1 by omega), List.reverse_append]
      rfl
  rw [slice_append (Nat.zero_le first) hx, List.reverse_append,
    List.takeWhile_append_of_pos hplain, hfront, List.append_nil, List.length_reverse,
    Array.length_toList, slice, Array.size_extract]
  omega

end Text

/-! ## Positions -/

/-- A position is the place in characters, counted from one. -/
theorem Position.ofOffset_eq (hx : x ≤ t.size) :
    Position.ofOffset t x = ⟨(Place.ofOffset t none t.lineStarts x).line + 1,
      (Place.ofOffset t none t.lineStarts x).unit + 1, x⟩ := by
  obtain ⟨first, last, hline, hfirst, hlast⟩ := Text.exists_isLine hx
  rw [Place.ofOffset_eq hline hfirst hlast, unitCount_none hx]
  simp only [Position.ofOffset, Position.mk.injEq, and_true, Nat.add_right_cancel_iff]
  constructor
  · rw [Text.slice_append (Nat.zero_le first) hfirst, List.count_append,
      Text.count_lineStart hline.starts, hline.count_slice hlast, Nat.add_zero]
  · exact hline.length_takeWhile hfirst hlast

/-- **Positions and places agree and convert back.** For every text and every encoding: the place of
an offset of the text stands for the offset; counted in characters and from one instead of zero it
is the position of the offset; and an offset outside the text has the position of the nearest bound.
The way back searches for one line end after the other, and the table of the line starts, by which a
place is found, holds where these searches lead. -/
theorem Place.conversions_agree (t : Text) (units : Option CodeUnits) :
    (∀ k, t.lineStart? k = t.lineStarts[k]?) ∧
      (∀ x ≤ t.size, Place.offset t units (Place.ofOffset t units t.lineStarts x) = x ∧
        Position.nearest t x = ⟨(Place.ofOffset t none t.lineStarts x).line + 1,
          (Place.ofOffset t none t.lineStarts x).unit + 1, x⟩) ∧
      (∀ o : Int, o < 0 → Position.nearest t o = Position.nearest t 0) ∧
      ∀ o : Int, t.size < o → Position.nearest t o = Position.nearest t t.size := by
  refine ⟨t.lineStart?_eq, fun x hx => ⟨Place.offset_ofOffset hx, ?_⟩, fun o ho => ?_,
    fun o ho => ?_⟩
  · rw [← Position.ofOffset_eq hx, Position.nearest]
    exact congrArg _ (by omega)
  · exact congrArg (Position.ofOffset t) (by omega)
  · exact congrArg (Position.ofOffset t) (by omega)

/-- The theorem holds after a character of two code units, on the second line. -/
theorem Place.conversions_agree_second :
    3 ≤ (Text.ofString "e\n😀b").size ∧
      Place.ofOffset (Text.ofString "e\n😀b") (some .utf16) (Text.ofString "e\n😀b").lineStarts 3 =
        ⟨1, 2⟩ ∧
      Place.offset (Text.ofString "e\n😀b") (some .utf16) ⟨1, 2⟩ = 3 ∧
      Position.nearest (Text.ofString "e\n😀b") (3 : Nat) = ⟨2, 2, 3⟩ := by
  have hsize : 3 ≤ (Text.ofString "e\n😀b").size := by decide
  have hplace : Place.ofOffset (Text.ofString "e\n😀b") (some .utf16)
      (Text.ofString "e\n😀b").lineStarts 3 = ⟨1, 2⟩ := by decide
  obtain ⟨hback, hposition⟩ :=
    (Place.conversions_agree (Text.ofString "e\n😀b") (some .utf16)).2.1 3 hsize
  rw [hplace] at hback
  exact ⟨hsize, hplace, hback, hposition⟩

end VSyntax
