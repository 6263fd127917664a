import VSyntax.Delimiters

/-!
# What a text answers

The scanners ask a text three questions: which character stands at an offset, whether a fixed part
stands there, and where the part stands next. Each answer is given here by the characters alone.
A part stands within a bound exactly when it stands in the whole text and ends by that bound
(`startsAt_iff_whole`), so a bound only cuts off what reaches beyond it.

The last section measures runs of characters: `runEnd` is where a run ends, and a bound cuts a run
only where the run would have gone on (`runEnd_cut`).
-/
namespace VSyntax.Text

variable {t : Text} {part : List Char} {p : Char → Bool} {pos stop : Nat}

/-! ## Characters -/

/-- Inside the text the character is found. -/
theorem charAt_eq_ok (h : pos < t.size) : t.charAt pos = .ok t[pos] := by
  simp only [charAt, Array.getElem?_eq_getElem h]

/-- A stretch of the text begins with its first character. -/
theorem slice_cons (h : pos < stop) (hs : stop ≤ t.size) :
    (t.slice pos stop).toList = t[pos] :: (t.slice (pos + 1) stop).toList := by
  simp only [slice, Array.toList_extract, List.extract_eq_take_drop]
  rw [List.drop_eq_getElem_cons (by simpa using Nat.lt_of_lt_of_le h hs),
    show stop - pos = (stop - (pos + 1)) + 1 by omega, List.take_succ_cons]
  simp only [Array.getElem_toList]

/-- A stretch without an offset in it is empty. -/
theorem head?_slice (h : pos < stop) (hs : stop ≤ t.size) :
    (t.slice pos stop).toList.head? = t[pos]? := by
  rw [slice_cons h hs, List.head?_cons, Array.getElem?_eq_getElem]

theorem slice_eq_nil (h : stop ≤ pos) : (t.slice pos stop).toList = [] := by
  simp only [slice, Array.toList_extract, List.extract_eq_take_drop, Nat.sub_eq_zero_of_le h,
    List.take_zero]

/-- Two stretches that meet make one. -/
theorem slice_append {mid : Nat} (h : pos ≤ mid) (hs : mid ≤ stop) :
    (t.slice pos stop).toList = (t.slice pos mid).toList ++ (t.slice mid stop).toList := by
  simp only [slice, ← Array.toList_append, Array.extract_append_extract, Nat.min_eq_left h,
    Nat.max_eq_right hs]

/-! ## Fixed parts -/

/-- A part stands at an offset when each of its characters does, before the bound. -/
theorem startsAt_iff : t.startsAt part pos stop = true ↔
    ∀ i (h : i < part.length), pos + i < stop ∧ t[pos + i]? = some part[i] := by
  induction part generalizing pos with
  | nil => exact ⟨fun _ i h => absurd h (Nat.not_lt_zero i), fun _ => rfl⟩
  | cons c part ih =>
    simp only [startsAt, Bool.and_eq_true, decide_eq_true_eq, beq_iff_eq, ih]
    constructor
    · rintro ⟨⟨hlt, hc⟩, hrest⟩ i hi
      cases i with
      | zero => exact ⟨hlt, hc⟩
      | succ i =>
        rw [List.getElem_cons_succ, show pos + (i + 1) = pos + 1 + i by omega]
        exact hrest i (by simpa using hi)
    · intro h
      refine ⟨h 0 (by simp), fun i hi => ?_⟩
      rw [show pos + 1 + i = pos + (i + 1) by omega]
      exact h (i + 1) (by simpa using hi)

theorem startsAt_char {c : Char} :
    t.startsAt [c] pos stop = true ↔ pos < stop ∧ t[pos]? = some c := by
  simp [startsAt]

/-- A part that stands within a bound ends by it. -/
theorem startsAt_end_le (hne : part ≠ []) (h : t.startsAt part pos stop = true) :
    pos + part.length ≤ stop := by
  have hlen := List.length_pos_iff.mpr hne
  have := (startsAt_iff.mp h (part.length - 1) (by omega)).1
  omega

/-- A bound changes nothing about a part but that the part has to end by it. -/
theorem startsAt_iff_whole (hne : part ≠ []) (hs : stop ≤ t.size) :
    t.startsAt part pos stop = true ↔
      t.startsAt part pos t.size = true ∧ pos + part.length ≤ stop := by
  constructor
  · intro h
    refine ⟨startsAt_iff.mpr fun i hi => ?_, startsAt_end_le hne h⟩
    obtain ⟨hlt, hc⟩ := startsAt_iff.mp h i hi
    exact ⟨by omega, hc⟩
  · rintro ⟨h, hend⟩
    apply startsAt_iff.mpr
    intro i hi
    exact ⟨by omega, (startsAt_iff.mp h i hi).2⟩

/-! ## Finding a part -/

/-- The found offset is the first one at which the part stands. -/
theorem findWithin_eq_some {steps first : Nat}
    (h : t.findWithin part stop steps pos = some first) :
    pos ≤ first ∧ first < pos + steps ∧ t.startsAt part first stop = true ∧
      ∀ i, pos ≤ i → i < first → ¬ t.startsAt part i stop = true := by
  induction steps generalizing pos with
  | zero => cases h
  | succ steps ih =>
    simp only [findWithin] at h
    split at h
    · next hhere =>
      cases h
      exact ⟨Nat.le_refl _, by omega, hhere, fun i hi hlt => absurd hlt (by omega)⟩
    · next hnot =>
      obtain ⟨hle, hlt, hat, hquiet⟩ := ih h
      refine ⟨by omega, by omega, hat, fun i hi hia => ?_⟩
      rcases Nat.eq_or_lt_of_le hi with rfl | hlt'
      · exact hnot
      · exact hquiet i hlt' hia

/-- Nothing is found exactly where the part stands nowhere. -/
theorem findWithin_eq_none {steps : Nat} (h : t.findWithin part stop steps pos = none) :
    ∀ i, pos ≤ i → i < pos + steps → ¬ t.startsAt part i stop = true := by
  induction steps generalizing pos with
  | zero => intro i hi hlt; omega
  | succ steps ih =>
    simp only [findWithin] at h
    split at h
    · cases h
    · next hnot =>
      intro i hi hlt
      rcases Nat.eq_or_lt_of_le hi with rfl | hlt'
      · exact hnot
      · exact ih h i hlt' (by omega)

/-- The part is found at the first offset where it stands. -/
theorem find?_eq_some {first : Nat} (h : t.find? part pos stop = some first) :
    pos ≤ first ∧ t.startsAt part first stop = true ∧
      ∀ i, pos ≤ i → i < first → ¬ t.startsAt part i stop = true := by
  obtain ⟨hle, -, hat, hfirst⟩ := findWithin_eq_some h
  exact ⟨hle, hat, hfirst⟩

/-- A part that is not found stands nowhere from `pos` on. -/
theorem find?_eq_none (hne : part ≠ []) (h : t.find? part pos stop = none) :
    ∀ i, pos ≤ i → ¬ t.startsAt part i stop = true := by
  intro i hi hat
  have hlen := List.length_pos_iff.mpr hne
  have hend := startsAt_end_le hne hat
  exact findWithin_eq_none h i hi (by omega) hat

/-- A search under a bound finds the first offset in the whole text if the part ends by the bound
there, and nothing if it does not. -/
theorem find?_bounded (hne : part ≠ []) (hstop : stop ≤ t.size) :
    (t.find? part pos stop).getD stop =
      if (t.find? part pos t.size).getD t.size + part.length ≤ stop then
        (t.find? part pos t.size).getD t.size
      else stop := by
  have hlen := List.length_pos_iff.mpr hne
  cases hf : t.find? part pos t.size with
  | none =>
    cases hf' : t.find? part pos stop with
    | none =>
      have hbeyond : ¬ t.size + part.length ≤ stop := by omega
      simp only [Option.getD_none, if_neg hbeyond]
    | some first =>
      obtain ⟨hle, hat, -⟩ := find?_eq_some hf'
      exact absurd ((startsAt_iff_whole hne hstop).mp hat).1 (find?_eq_none hne hf first hle)
  | some first =>
    obtain ⟨hle, hat, hquiet⟩ := find?_eq_some hf
    cases hf' : t.find? part pos stop with
    | none =>
      have hbeyond : ¬ first + part.length ≤ stop := fun hend =>
        find?_eq_none hne hf' first hle ((startsAt_iff_whole hne hstop).mpr ⟨hat, hend⟩)
      simp only [Option.getD_none, Option.getD_some, if_neg hbeyond]
    | some first' =>
      obtain ⟨hle', hat', hquiet'⟩ := find?_eq_some hf'
      obtain ⟨hwhole, hend⟩ := (startsAt_iff_whole hne hstop).mp hat'
      have hge : first ≤ first' := Nat.le_of_not_lt fun hlt => hquiet first' hle' hlt hwhole
      have hge' : first' ≤ first := Nat.le_of_not_lt fun hlt =>
        hquiet' first hle hlt ((startsAt_iff_whole hne hstop).mpr ⟨hat, by omega⟩)
      obtain rfl := Nat.le_antisymm hge hge'
      simp only [Option.getD_some, if_pos hend]

/-! ## Runs of characters -/

/-- Whether the character at an offset before `stop` satisfies `p`. -/
def sees (t : Text) (stop : Nat) (p : Char → Bool) (pos : Nat) : Bool :=
  decide (pos < stop) && (t[pos]?).any p

/-- Whether there is a character before an offset and it satisfies `p`. -/
def follows (t : Text) (p : Char → Bool) (pos : Nat) : Bool :=
  decide (0 < pos) && (t[pos - 1]?).any p

/-- The end of the run of characters that satisfy `p`, from `pos` on and before `stop`. -/
def runEnd (t : Text) (p : Char → Bool) (stop pos : Nat) : Nat :=
  if t.sees stop p pos then runEnd t p stop (pos + 1) else pos
termination_by stop - pos
decreasing_by
  next h =>
    simp only [sees, Bool.and_eq_true, decide_eq_true_eq] at h
    omega

theorem sees_iff : t.sees stop p pos = true ↔ pos < stop ∧ ∃ c, t[pos]? = some c ∧ p c = true := by
  simp only [sees, Bool.and_eq_true, decide_eq_true_eq, Option.any_eq_true]

theorem sees_iff_getElem (h : pos < t.size) :
    t.sees stop p pos = true ↔ pos < stop ∧ p t[pos] = true := by
  simp only [sees, Array.getElem?_eq_getElem h, Option.any_some, Bool.and_eq_true,
    decide_eq_true_eq]

theorem lt_of_sees (h : t.sees stop p pos = true) : pos < stop := (sees_iff.mp h).1

theorem runEnd_of_sees (h : t.sees stop p pos = true) :
    t.runEnd p stop pos = t.runEnd p stop (pos + 1) := by
  rw [runEnd, if_pos h]

theorem runEnd_of_not_sees (h : ¬ t.sees stop p pos = true) : t.runEnd p stop pos = pos := by
  rw [runEnd, if_neg h]

theorem le_runEnd : pos ≤ t.runEnd p stop pos := by
  fun_induction runEnd t p stop pos with
  | case1 pos h ih => omega
  | case2 pos h => exact Nat.le_refl _

theorem lt_runEnd (h : t.sees stop p pos = true) : pos < t.runEnd p stop pos := by
  rw [runEnd_of_sees h]
  exact le_runEnd

theorem runEnd_le (h : pos ≤ stop) : t.runEnd p stop pos ≤ stop := by
  fun_induction runEnd t p stop pos with
  | case1 pos hs ih => exact ih (lt_of_sees hs)
  | case2 pos hs => exact h

/-- Every offset of a run is seen. -/
theorem sees_of_lt_runEnd {i : Nat} (hi : pos ≤ i) (h : i < t.runEnd p stop pos) :
    t.sees stop p i = true := by
  fun_induction runEnd t p stop pos with
  | case1 pos hs ih =>
    rcases Nat.eq_or_lt_of_le hi with rfl | hlt
    · exact hs
    · exact ih hlt h
  | case2 pos hs => omega

/-- The offset after a run is not seen. -/
theorem not_sees_runEnd : ¬ t.sees stop p (t.runEnd p stop pos) = true := by
  fun_induction runEnd t p stop pos with
  | case1 pos hs ih => exact ih
  | case2 pos hs => exact hs

/-- A run is known by its offsets and by the one after them. -/
theorem runEnd_eq {e : Nat} (hle : pos ≤ e) (hrun : ∀ i, pos ≤ i → i < e → t.sees stop p i = true)
    (hend : ¬ t.sees stop p e = true) : t.runEnd p stop pos = e := by
  fun_induction runEnd t p stop pos with
  | case1 pos hs ih =>
    refine ih ?_ (fun i hi hlt => hrun i (by omega) hlt)
    rcases Nat.eq_or_lt_of_le hle with rfl | hlt
    · exact absurd hs hend
    · exact hlt
  | case2 pos hs =>
    rcases Nat.eq_or_lt_of_le hle with rfl | hlt
    · rfl
    · exact absurd (hrun pos (Nat.le_refl _) hlt) hs

/-- Two bounds see the same before the smaller one. -/
theorem sees_cut {q : Nat} (hq : q ≤ stop) (hpos : pos < q) :
    t.sees q p pos = t.sees stop p pos := by
  simp only [sees, hpos, Nat.lt_of_lt_of_le hpos hq]

/-- A bound at which the run would have ended anyway does not cut it. -/
theorem runEnd_cut {q : Nat} (hpos : pos ≤ q) (hq : q ≤ stop) (hend : ¬ t.sees stop p q = true) :
    t.runEnd p q pos = t.runEnd p stop pos := by
  have hle : t.runEnd p q pos ≤ q := runEnd_le hpos
  symm
  refine runEnd_eq le_runEnd (fun i hi hlt => ?_) ?_
  · rw [← sees_cut hq (by omega)]
    exact sees_of_lt_runEnd hi hlt
  · rcases Nat.eq_or_lt_of_le hle with heq | hlt
    · rw [heq]
      exact hend
    · rw [← sees_cut hq hlt]
      exact not_sees_runEnd

end VSyntax.Text
