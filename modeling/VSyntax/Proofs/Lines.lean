import VSyntax.CodeUnits
import VSyntax.Proofs.Text

/-!
# Lines

The lines of a text, each with its number and the offsets where it begins and ends
(`Text.IsLine`); the end of a line is its line end, or the end of the text. Every offset of a text
lies on one line, and that is the line which `Place.lineOf` reads off the line starts
(`Text.exists_isLine`, `Text.IsLine.lineOf_eq`).

One search for a line end after the other leads to the same line starts (`Text.lineStart?_eq`).

The line starts increase, and the count of those up to an offset decides: a start is at most the
offset exactly if its number is below that count (`getElem?_le_iff`).
-/
namespace VSyntax

/-- Of increasing numbers, those up to `x` are the first ones, as many as the count of them says. -/
theorem getElem?_le_iff {l : List Nat} {i a x : Nat} (h : l.Pairwise (· < ·))
    (ha : l[i]? = some a) : a ≤ x ↔ i < l.countP (· ≤ x) := by
  induction l generalizing i with
  | nil => cases ha
  | cons b l ih =>
    obtain ⟨hb, htail⟩ := List.pairwise_cons.mp h
    have hnone : x < b → l.countP (· ≤ x) = 0 := by
      intro hlt
      rw [List.countP_eq_zero]
      intro c hc
      have := hb c hc
      simp only [decide_eq_true_eq]
      omega
    cases i with
    | zero =>
      simp only [List.getElem?_cons_zero, Option.some.injEq] at ha
      subst ha
      by_cases hle : b ≤ x
      · simp [hle]
      · simp [hle, hnone (by omega)]
    | succ i =>
      simp only [List.getElem?_cons_succ] at ha
      have hlt := hb a (List.mem_of_getElem? ha)
      by_cases hle : b ≤ x
      · simp only [List.countP_cons, decide_eq_true hle, if_true, Nat.add_lt_add_iff_right]
        exact ih htail ha
      · simp only [List.countP_cons, decide_eq_false hle, hnone (by omega), Bool.false_eq_true,
          if_false]
        omega

namespace Text

variable {t : Text} {c : Char} {k first last pos stop x : Nat}

/-! ## Single characters -/

/-- The first offset before `stop` where a character stands, or `stop`. -/
theorem find?_char_spec (h : pos ≤ stop) :
    pos ≤ (t.find? [c] pos stop).getD stop ∧ (t.find? [c] pos stop).getD stop ≤ stop ∧
      (∀ i, pos ≤ i → i < (t.find? [c] pos stop).getD stop → t[i]? ≠ some c) ∧
      ((t.find? [c] pos stop).getD stop < stop → t[(t.find? [c] pos stop).getD stop]? = some c) := by
  cases hf : t.find? [c] pos stop with
  | none =>
    have hnone := find?_eq_none (List.cons_ne_nil c []) hf
    refine ⟨h, Nat.le_refl _, fun i hi hlt hat => ?_, fun hlt => absurd hlt (Nat.lt_irrefl _)⟩
    exact hnone i hi (startsAt_char.mpr ⟨hlt, hat⟩)
  | some e =>
    obtain ⟨hle, hat, hquiet⟩ := find?_eq_some hf
    obtain ⟨hlt, hchar⟩ := startsAt_char.mp hat
    simp only [Option.getD_some]
    refine ⟨hle, Nat.le_of_lt hlt, fun i hi hie hat' => ?_, fun _ => hchar⟩
    exact hquiet i hi hie (startsAt_char.mpr ⟨Nat.lt_trans hie hlt, hat'⟩)

/-! ## Line starts -/

/-- A line begins at zero and just after each line end. -/
theorem mem_lineStarts : x ∈ t.lineStarts ↔ x = 0 ∨ 0 < x ∧ t[x - 1]? = some '\n' := by
  simp only [lineStarts, List.mem_cons, List.mem_map, List.mem_filter, List.mem_range, beq_iff_eq]
  constructor
  · rintro (rfl | ⟨i, ⟨-, hi⟩, rfl⟩)
    · exact .inl rfl
    · exact .inr ⟨Nat.succ_pos i, hi⟩
  · rintro (rfl | ⟨hx, hat⟩)
    · exact .inl rfl
    · exact .inr ⟨x - 1, ⟨(Array.getElem?_eq_some_iff.mp hat).1, hat⟩, by omega⟩

theorem lineStarts_increasing : t.lineStarts.Pairwise (· < ·) := by
  unfold lineStarts
  rw [List.pairwise_cons, List.pairwise_map]
  constructor
  · intro x hx
    obtain ⟨i, -, rfl⟩ := List.mem_map.mp hx
    exact Nat.succ_pos i
  · exact (List.pairwise_lt_range.filter _).imp Nat.succ_lt_succ

/-- There is a line start up to each offset. -/
theorem countP_lineStarts_pos : 0 < t.lineStarts.countP (· ≤ x) := by
  rw [List.countP_pos_iff]
  exact ⟨0, mem_lineStarts.mpr (.inl rfl), by simp⟩

/-- A line begins by an offset exactly if it is the line of the offset or an earlier one. -/
theorem lineStart_le_iff (h : t.lineStarts[k]? = some first) :
    first ≤ x ↔ k ≤ Place.lineOf t.lineStarts x := by
  have hpos := countP_lineStarts_pos (t := t) (x := x)
  rw [getElem?_le_iff lineStarts_increasing h, Place.lineOf]
  omega

theorem lineOf_lt_length : Place.lineOf t.lineStarts x < t.lineStarts.length := by
  have hpos := countP_lineStarts_pos (t := t) (x := x)
  have hle : t.lineStarts.countP (· ≤ x) ≤ t.lineStarts.length := List.countP_le_length
  unfold Place.lineOf
  omega

/-! ## Lines -/

/-- Line `k` of the text goes from `first` up to `last`, where its line end is or the text ends. -/
structure IsLine (t : Text) (k first last : Nat) : Prop where
  starts : t.lineStarts[k]? = some first
  le : first ≤ last
  le_size : last ≤ t.size
  plain : ∀ i, first ≤ i → i < last → t[i]? ≠ some '\n'
  ends : last < t.size → t[last]? = some '\n'

theorem lineStart_le_size (h : x ∈ t.lineStarts) : x ≤ t.size := by
  rcases mem_lineStarts.mp h with rfl | ⟨hpos, hat⟩
  · exact Nat.zero_le _
  · have := (Array.getElem?_eq_some_iff.mp hat).1
    omega

/-- Where a line begins, it goes up to the next line end. -/
theorem isLine_lineEnd (h : t.lineStarts[k]? = some first) :
    t.IsLine k first (t.lineEnd first) := by
  have hsize := lineStart_le_size (List.mem_of_getElem? h)
  obtain ⟨hle, hend, hplain, hends⟩ := find?_char_spec (c := '\n') hsize
  exact ⟨h, hle, hend, hplain, hends⟩

namespace IsLine

theorem lineEnd_eq (h : t.IsLine k first last) : t.lineEnd first = last := by
  have hline := isLine_lineEnd h.starts
  have hsize := h.le_size
  have hsize' := hline.le_size
  rcases Nat.lt_trichotomy (t.lineEnd first) last with hlt | heq | hlt
  · exact absurd (hline.ends (by omega)) (h.plain _ hline.le hlt)
  · exact heq
  · exact absurd (h.ends (by omega)) (hline.plain _ h.le hlt)

/-- The next line begins later than this one ends. -/
theorem lt_next {next : Nat} (h : t.IsLine k first last)
    (hnext : t.lineStarts[k + 1]? = some next) : last < next := by
  have hlater : first < next := by
    obtain ⟨hk, rfl⟩ := List.getElem?_eq_some_iff.mp h.starts
    obtain ⟨hk', rfl⟩ := List.getElem?_eq_some_iff.mp hnext
    exact List.pairwise_iff_getElem.mp lineStarts_increasing k (k + 1) hk hk' (Nat.lt_succ_self k)
  rcases mem_lineStarts.mp (List.mem_of_getElem? hnext) with rfl | ⟨hpos, hat⟩
  · omega
  · have hge : ¬ next - 1 < last := fun hlt => h.plain (next - 1) (by omega) hlt hat
    omega

/-- Every offset of a line is of that line. -/
theorem lineOf_eq (h : t.IsLine k first last) (hx : first ≤ x) (hxl : x ≤ last) :
    Place.lineOf t.lineStarts x = k := by
  have hle := (lineStart_le_iff h.starts).mp hx
  have hlt := lineOf_lt_length (t := t) (x := x)
  rcases Nat.eq_or_lt_of_le hle with heq | hmore
  · exact heq.symm
  · have hnext := List.getElem?_eq_getElem (show k + 1 < t.lineStarts.length by omega)
    have hbegun := (lineStart_le_iff (x := x) hnext).mpr hmore
    have := h.lt_next hnext
    omega

end IsLine

/-- Every offset lies on a line. -/
theorem exists_isLine (h : x ≤ t.size) :
    ∃ first last, t.IsLine (Place.lineOf t.lineStarts x) first last ∧ first ≤ x ∧ x ≤ last := by
  have hstarts := List.getElem?_eq_getElem (lineOf_lt_length (t := t) (x := x))
  have hline := isLine_lineEnd hstarts
  refine ⟨_, _, hline, (lineStart_le_iff hstarts).mpr (Nat.le_refl _), ?_⟩
  apply Nat.le_of_not_lt
  intro hbeyond
  -- else a line would begin after the line end, and by the offset
  have hend := hline.ends (Nat.lt_of_lt_of_le hbeyond h)
  obtain ⟨j, hj⟩ := List.mem_iff_getElem?.mp
    (mem_lineStarts.mpr (.inr ⟨Nat.succ_pos _, by rwa [Nat.succ_sub_one]⟩))
  have hle := (lineStart_le_iff hj).mp hbeyond
  rw [← hline.lineOf_eq (Nat.le_refl _) hline.le] at hle
  have := (lineStart_le_iff hj).mpr hle
  have := hline.le
  omega

/-! ## Lines found one after the other -/

/-- After a line end the next line begins. -/
theorem IsLine.next (h : t.IsLine k first last) (hend : last < t.size) :
    t.lineStarts[k + 1]? = some (last + 1) := by
  have hmem : last + 1 ∈ t.lineStarts :=
    mem_lineStarts.mpr (.inr ⟨Nat.succ_pos _, by rw [Nat.add_sub_cancel]; exact h.ends hend⟩)
  obtain ⟨j, hj⟩ := List.mem_iff_getElem?.mp hmem
  have hline := isLine_lineEnd hj
  -- the line that begins there is a later one
  have hlater : k < j := by
    have hlate : ¬ j ≤ k := fun hle => by
      have := (lineStart_le_iff hj).mpr (h.lineOf_eq h.le (Nat.le_refl _) ▸ hle)
      omega
    omega
  have hlt := (List.getElem?_eq_some_iff.mp hj).1
  have hnext := List.getElem?_eq_getElem (show k + 1 < t.lineStarts.length by omega)
  have hbegun := (lineStart_le_iff (x := last + 1) hnext).mpr
    (hline.lineOf_eq (Nat.le_refl _) hline.le ▸ hlater)
  have := h.lt_next hnext
  rw [hnext]
  exact congrArg some (by omega)

/-- The last line has no next one. -/
theorem IsLine.next_eq_none (h : t.IsLine k first last) (hend : last = t.size) :
    t.lineStarts[k + 1]? = none := by
  cases hnext : t.lineStarts[k + 1]? with
  | none => rfl
  | some next =>
    have := h.lt_next hnext
    have := lineStart_le_size (List.mem_of_getElem? hnext)
    omega

/-- The searches for line ends lead from one line start to a later one. -/
theorem lineStartAfter_eq (h : t.lineStarts[k]? = some first) (lines : Nat) :
    t.lineStartAfter lines first = t.lineStarts[k + lines]? := by
  induction lines generalizing k first with
  | zero => exact h.symm
  | succ lines ih =>
    have hline := isLine_lineEnd h
    rw [lineStartAfter]
    cases hfind : t.find? ['\n'] first t.size with
    | none =>
      have hend : t.lineEnd first = t.size := by rw [lineEnd, hfind, Option.getD_none]
      have hlast := List.getElem?_eq_none_iff.mp (hline.next_eq_none hend)
      exact (List.getElem?_eq_none (by omega)).symm
    | some last =>
      have hend : t.lineEnd first = last := by rw [lineEnd, hfind, Option.getD_some]
      have hsize := (startsAt_char.mp (find?_eq_some hfind).2.1).1
      rw [hend] at hline
      have hnext := ih (hline.next hsize)
      rwa [Nat.add_assoc, Nat.add_comm 1] at hnext

/-- The searches for line ends lead to the line starts. -/
theorem lineStart?_eq (t : Text) (k : Nat) : t.lineStart? k = t.lineStarts[k]? := by
  have hzero : t.lineStarts[0]? = some 0 := rfl
  rw [lineStart?, lineStartAfter_eq hzero, Nat.zero_add]

end Text

end VSyntax
