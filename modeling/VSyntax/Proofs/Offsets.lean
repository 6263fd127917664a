import Mathlib.Order.Bounds.Basic
import VSyntax.Proofs.Positions

/-!
# Offsets of places

Which offset a place stands for, when its code unit may be anything: inside a character, past the
line, or on a line that the text does not have. On a line it is the first offset with that many code
units behind it, or the end of the line where there is none (`Place.offset_spec`), so it increases
with the place (`Place.offset_le_offset`). A walk that counts one code unit for each character comes
to the offset that is computed without a walk (`Place.offset_utf32`).

The walk is described once (`Place.advance_spec`), and the computed offset is one more walk.
-/
namespace VSyntax

variable {t : Text} {u : CodeUnits} {units : Option CodeUnits} {k first last n pos x : Nat}
  {p q : Place}

namespace Text

/-- There is one line more than there are line ends. -/
theorem length_lineStarts (t : Text) : t.lineStarts.length = t.toList.count '\n' + 1 := by
  obtain ⟨k, hk⟩ : ∃ k, t.lineStarts.length = k + 1 := ⟨_, rfl⟩
  have hline := isLine_lineEnd (List.getElem?_eq_getElem (show k < t.lineStarts.length by omega))
  have hlast : k < t.lineStarts.length := by omega
  -- the last line goes up to the end of the text
  have hend : t.lineEnd t.lineStarts[k] = t.size := by
    apply Nat.le_antisymm hline.le_size
    apply Nat.le_of_not_lt
    intro hlt
    have := (List.getElem?_eq_some_iff.mp (hline.next hlt)).1
    omega
  have hfirst := Nat.le_trans hline.le hline.le_size
  have hcount := hline.count_slice (Nat.le_refl _)
  rw [hend] at hcount
  have hwhole : t.toList.count '\n' = (t.slice 0 t.size).toList.count '\n' := by
    rw [slice, Array.extract_size]
  rw [hk, hwhole, slice_append (Nat.zero_le _) hfirst, List.count_append,
    count_lineStart hline.starts, hcount, Nat.add_zero]

/-- A text has the lines up to the number of its line ends. -/
theorem exists_isLine_of_le (h : k ≤ t.toList.count '\n') :
    ∃ first last, t.IsLine k first last := by
  have hlt : k < t.lineStarts.length := by
    rw [length_lineStarts]
    omega
  exact ⟨_, _, isLine_lineEnd (List.getElem?_eq_getElem hlt)⟩

/-- An earlier line ends before a later one begins. -/
theorem IsLine.last_lt {k' first' last' : Nat} (h : t.IsLine k first last)
    (h' : t.IsLine k' first' last') (hk : k < k') : last < first' := by
  apply Nat.lt_of_not_le
  intro hbegun
  have := (lineStart_le_iff h'.starts).mp hbegun
  rw [h.lineOf_eq h.le (Nat.le_refl _)] at this
  omega

end Text

namespace Place

/-! ## The walk along a line -/

/-- The walk goes on as long as the code units asked for are not behind, up to its last step. -/
theorem advance_spec (u : CodeUnits) (target pos taken : Nat) {steps : Nat}
    (hsize : pos + steps ≤ t.size) :
    pos ≤ advance u t target steps pos taken ∧
      advance u t target steps pos taken ≤ pos + steps ∧
      (∀ x, pos ≤ x → x < advance u t target steps pos taken →
        taken + u.count (t.slice pos x) < target) ∧
      (advance u t target steps pos taken < pos + steps →
        target ≤ taken + u.count (t.slice pos (advance u t target steps pos taken))) := by
  induction steps generalizing pos taken with
  | zero =>
    rw [advance]
    exact ⟨Nat.le_refl _, Nat.le_refl _, fun x hx hlt => by omega,
      fun hlt => absurd hlt (Nat.lt_irrefl _)⟩
  | succ steps ih =>
    have hself : u.count (t.slice pos pos) = 0 :=
      CodeUnits.count_nil (Text.slice_eq_nil (Nat.le_refl _))
    have hpos : pos < t.size := by omega
    rw [advance]
    by_cases hmore : taken < target
    · have hnext : ((t[pos]?).map u.width).getD 0 = u.width t[pos] := by
        rw [Array.getElem?_eq_getElem hpos, Option.map_some, Option.getD_some]
      have hcons : ∀ x, pos < x → x ≤ t.size →
          u.count (t.slice pos x) = u.width t[pos] + u.count (t.slice (pos + 1) x) :=
        fun x hx hxs => CodeUnits.count_cons (Text.slice_cons hx hxs)
      rw [if_pos hmore, hnext]
      obtain ⟨hle, hend, hshort, hreached⟩ := ih (pos + 1) (taken + u.width t[pos]) (by omega)
      refine ⟨by omega, by omega, fun x hx hlt => ?_, fun hlt => ?_⟩
      · rcases Nat.eq_or_lt_of_le hx with rfl | hx
        · omega
        · have := hshort x hx hlt
          rw [hcons x hx (by omega)]
          omega
      · have := hreached (by omega)
        rw [hcons _ (by omega) (by omega)]
        omega
    · rw [if_neg hmore, hself]
      exact ⟨Nat.le_refl _, by omega, fun x hx hlt => by omega, fun _ => by omega⟩

/-! ## One code unit for each character -/

/-- In UTF-32 a text has as many code units as characters. -/
theorem count_utf32 (t : Text) : CodeUnits.utf32.count t = t.size := by
  rw [← Array.length_toList, CodeUnits.count]
  induction t.toList with
  | nil => rfl
  | cons c cs ih =>
    rw [List.map_cons, List.foldr_cons, ih, List.length_cons, Nat.add_comm]
    rfl

/-- **The walk in UTF-32 comes to the offset that is computed without a walk.** -/
theorem offset_utf32 (t : Text) (p : Place) : offset t (some .utf32) p = offset t none p := by
  cases hk : t.lineStarts[p.line]? with
  | none => simp only [offset, Text.lineStart?_eq, hk]
  | some first =>
    have hline := Text.isLine_lineEnd hk
    have hle := hline.le
    have hend := hline.le_size
    have hcount : ∀ x, x ≤ t.size → CodeUnits.utf32.count (t.slice first x) = x - first := by
      intro x hx
      rw [count_utf32, Text.slice, Array.size_extract]
      omega
    simp only [offset, Text.lineStart?_eq, hk]
    have hsteps : first + (t.lineEnd first - first) ≤ t.size := by omega
    obtain ⟨hfirst, hlast, hshort, hreached⟩ := advance_spec .utf32 p.unit first 0 hsteps
    generalize advance .utf32 t p.unit (t.lineEnd first - first) first 0 = e at *
    rw [Nat.add_sub_cancel' hle] at hlast hreached
    rw [hcount e (by omega)] at hreached
    rcases Nat.eq_or_lt_of_le hfirst with rfl | hlt
    · omega
    · have := hshort (e - 1) (by omega) (by omega)
      rw [hcount (e - 1) (by omega)] at this
      omega

/-! ## Offsets on a line -/

/-- The offsets of a line with `n` code units behind them, counted from the start of the line. -/
def reached (t : Text) (units : Option CodeUnits) (first last n : Nat) : Set Nat :=
  {x | first ≤ x ∧ x ≤ last ∧ n ≤ unitCount units (t.slice first x)}

/-- On a line, no offset before that of the place has the code units of the place behind it, and
that of the place has, unless it is the end of the line. -/
theorem offset_spec (h : t.IsLine k first last) (units : Option CodeUnits) (n : Nat) :
    first ≤ offset t units ⟨k, n⟩ ∧ offset t units ⟨k, n⟩ ≤ last ∧
      (∀ x, first ≤ x → x < offset t units ⟨k, n⟩ → unitCount units (t.slice first x) < n) ∧
      (offset t units ⟨k, n⟩ < last →
        n ≤ unitCount units (t.slice first (offset t units ⟨k, n⟩))) := by
  have hle := h.le
  have hsize := h.le_size
  have hcounted : ∀ u : CodeUnits, first ≤ offset t (some u) ⟨k, n⟩ ∧
      offset t (some u) ⟨k, n⟩ ≤ last ∧
      (∀ x, first ≤ x → x < offset t (some u) ⟨k, n⟩ → u.count (t.slice first x) < n) ∧
      (offset t (some u) ⟨k, n⟩ < last →
        n ≤ u.count (t.slice first (offset t (some u) ⟨k, n⟩))) := by
    intro u
    have hsteps : first + (last - first) ≤ t.size := by omega
    have hwalk := advance_spec u n first 0 hsteps
    simp only [Nat.add_sub_cancel' hle, Nat.zero_add] at hwalk
    simpa only [offset, Text.lineStart?_eq, h.starts, h.lineEnd_eq] using hwalk
  cases units with
  | some u => exact hcounted u
  | none =>
    have hchars := hcounted .utf32
    simp only [count_utf32, offset_utf32] at hchars
    exact hchars

theorem offset_eq_size (h : t.lineStarts.length ≤ p.line) : offset t units p = t.size := by
  rw [offset, Text.lineStart?_eq, List.getElem?_eq_none h]

theorem offset_le_size : offset t units p ≤ t.size := by
  cases hk : t.lineStarts[p.line]? with
  | none => rw [offset_eq_size (List.getElem?_eq_none_iff.mp hk)]
  | some first =>
    have hline := Text.isLine_lineEnd hk
    exact Nat.le_trans (offset_spec hline units p.unit).2.1 hline.le_size

/-- A later place does not stand for an earlier offset. -/
theorem offset_le_offset (h : p.Before q) : offset t units p ≤ offset t units q := by
  obtain ⟨k, n⟩ := p
  obtain ⟨k', n'⟩ := q
  cases hq : t.lineStarts[k']? with
  | none =>
    rw [offset_eq_size (p := ⟨k', n'⟩) (List.getElem?_eq_none_iff.mp hq)]
    exact offset_le_size
  | some first' =>
    have hline' := Text.isLine_lineEnd hq
    obtain ⟨hfirst', -, -, hreached'⟩ := offset_spec hline' units n'
    have hlen := (List.getElem?_eq_some_iff.mp hq).1
    rcases h with hlt | ⟨heq, hunit⟩
    · have hlt : k < k' := hlt
      have hline := Text.isLine_lineEnd (List.getElem?_eq_getElem (Nat.lt_trans hlt hlen))
      have hlast := (offset_spec hline units n).2.1
      have := hline.last_lt hline' hlt
      omega
    · obtain rfl : k = k' := heq
      have hunit : n < n' := hunit
      obtain ⟨-, hlast, hshort, -⟩ := offset_spec hline' units n
      apply Nat.le_of_not_lt
      intro hback
      -- the earlier offset would have the more code units behind it
      have hfew := hshort _ hfirst' hback
      have hmany := hreached' (Nat.lt_of_lt_of_le hback hlast)
      omega

/-- **Every place stands for an offset of the text, and in order.** For every text and every
encoding, in code units or in characters: the offset of a place is within the text, a later place
never has an earlier offset, and past the last line it is the end of the text. On a line, from its
start up to its line end or the end of the text, it is the least offset with the code units of the
place behind it, and the end of the line if there is none. Counting the code units of UTF-32 leads
where counting the characters does. -/
theorem offset_least (t : Text) (units : Option CodeUnits) :
    (∀ p, offset t units p ≤ t.size) ∧
      (∀ p q : Place, p.Before q → offset t units p ≤ offset t units q) ∧
      (∀ k n, t.toList.count '\n' < k → offset t units ⟨k, n⟩ = t.size) ∧
      (∀ k ≤ t.toList.count '\n', ∃ first last, t.IsLine k first last ∧ ∀ n,
        (first ≤ offset t units ⟨k, n⟩ ∧ offset t units ⟨k, n⟩ ≤ last) ∧
          ((reached t units first last n).Nonempty →
            IsLeast (reached t units first last n) (offset t units ⟨k, n⟩)) ∧
          (reached t units first last n = ∅ → offset t units ⟨k, n⟩ = last)) ∧
      ∀ p, offset t (some .utf32) p = offset t none p := by
  refine ⟨fun p => offset_le_size, fun p q => offset_le_offset, fun k n hk => ?_, fun k hk => ?_,
    offset_utf32 t⟩
  · apply offset_eq_size
    rw [Text.length_lineStarts]
    exact hk
  · obtain ⟨first, last, hline⟩ := Text.exists_isLine_of_le hk
    refine ⟨first, last, hline, fun n => ?_⟩
    obtain ⟨hfirst, hlast, hshort, hreached⟩ := offset_spec hline units n
    have hleast : ∀ x ∈ reached t units first last n, offset t units ⟨k, n⟩ ≤ x := by
      rintro x ⟨hx, -, hunits⟩
      apply Nat.le_of_not_lt
      intro hlt
      have := hshort x hx hlt
      omega
    refine ⟨⟨hfirst, hlast⟩, fun hsome => ⟨⟨hfirst, hlast, ?_⟩, hleast⟩, fun hnone => ?_⟩
    · obtain ⟨x, hx⟩ := hsome
      rcases Nat.eq_or_lt_of_le hlast with heq | hlt
      · have hle := hleast x hx
        obtain ⟨-, hxlast, hunits⟩ := hx
        rwa [show offset t units ⟨k, n⟩ = x by omega]
      · exact hreached hlt
    · apply Nat.le_antisymm hlast
      apply Nat.le_of_not_lt
      intro hlt
      have hmem : offset t units ⟨k, n⟩ ∈ reached t units first last n :=
        ⟨hfirst, hlast, hreached hlt⟩
      rw [hnone] at hmem
      exact hmem

/-- The theorem holds inside a character of two code units on the second line, and past the end of
the line. -/
theorem offset_least_inside :
    Before ⟨1, 1⟩ ⟨1, 9⟩ ∧
      offset (Text.ofString "e\n😀b") (some .utf16) ⟨1, 1⟩ = 3 ∧
      offset (Text.ofString "e\n😀b") (some .utf16) ⟨1, 1⟩ ≤
        offset (Text.ofString "e\n😀b") (some .utf16) ⟨1, 9⟩ ∧
      1 ≤ (Text.ofString "e\n😀b").toList.count '\n' ∧
      (reached (Text.ofString "e\n😀b") (some .utf16) 2 4 1).Nonempty ∧
      IsLeast (reached (Text.ofString "e\n😀b") (some .utf16) 2 4 1) 3 := by
  have hbefore : Before ⟨1, 1⟩ ⟨1, 9⟩ := .inr ⟨rfl, by decide⟩
  have hinside : offset (Text.ofString "e\n😀b") (some .utf16) ⟨1, 1⟩ = 3 := by decide
  have hexists : 1 ≤ (Text.ofString "e\n😀b").toList.count '\n' := by decide
  have hreached : (reached (Text.ofString "e\n😀b") (some .utf16) 2 4 1).Nonempty :=
    ⟨3, by decide, by decide, by decide⟩
  obtain ⟨-, hmono, -, hlines, -⟩ := offset_least (Text.ofString "e\n😀b") (some .utf16)
  obtain ⟨first, last, hline, hoffsets⟩ := hlines 1 hexists
  have hstarts : (Text.ofString "e\n😀b").lineStarts[1]? = some 2 := by decide
  obtain rfl : 2 = first := Option.some.inj (hstarts.symm.trans hline.starts)
  have hend : (Text.ofString "e\n😀b").lineEnd 2 = 4 := by decide
  obtain rfl : 4 = last := hend.symm.trans hline.lineEnd_eq
  exact ⟨hbefore, hinside, hmono _ _ hbefore, hexists, hreached,
    hinside ▸ (hoffsets 1).2.1 hreached⟩

end Place

end VSyntax
