import Mathlib.Data.List.Perm.Basic
import Mathlib.Data.List.Pairwise
import VSyntax.Outline

/-!
# The order of outlines

An outline is sorted by offset and, at one offset, by kind, and the sort is stable: entries that it
does not tell apart stay in the order in which they were found (`filter_mergeSort`). So a sorted
list of entries is known by what it has at each offset of each kind (`eq_of_ordered`).
-/
namespace VSyntax.OutlineEntry

variable {e e' : OutlineEntry} {l l' : List OutlineEntry} {offset : Nat} {kind : String}

theorem before_iff : before e e' = true ↔
    e.offset < e'.offset ∨ e.offset = e'.offset ∧ e.kind ≤ e'.kind := by
  simp only [before, Bool.or_eq_true, Bool.and_eq_true, decide_eq_true_eq, beq_iff_eq,
    Bool.not_eq_true', decide_eq_false_iff_not, String.not_lt]

theorem before_trans (e e' e'' : OutlineEntry) (h : before e e' = true)
    (h' : before e' e'' = true) : before e e'' = true := by
  rw [before_iff] at h h' ⊢
  rcases h with hlt | ⟨heq, hkind⟩
  · exact .inl (by omega)
  · rcases h' with hlt' | ⟨heq', hkind'⟩
    · exact .inl (by omega)
    · exact .inr ⟨heq.trans heq', String.le_trans hkind hkind'⟩

theorem before_total (e e' : OutlineEntry) : (before e e' || before e' e) = true := by
  rw [Bool.or_eq_true, before_iff, before_iff]
  rcases Nat.lt_trichotomy e.offset e'.offset with hlt | heq | hlt
  · exact .inl (.inl hlt)
  · rcases String.le_total e.kind e'.kind with hkind | hkind
    · exact .inl (.inr ⟨heq, hkind⟩)
    · exact .inr (.inr ⟨heq.symm, hkind⟩)
  · exact .inr (.inl hlt)

/-- A sorted list of entries is in order. -/
theorem ordered_mergeSort (l : List OutlineEntry) :
    (l.mergeSort before).Pairwise fun e e' => before e e' = true :=
  List.pairwise_mergeSort before_trans before_total l

/-! ## Stability -/

/-- Whether an entry is of a kind and stands at an offset. -/
def isAt (offset : Nat) (kind : String) (e : OutlineEntry) : Bool :=
  e.offset == offset && e.kind == kind

theorem isAt_iff : e.isAt offset kind = true ↔ e.offset = offset ∧ e.kind = kind := by
  rw [isAt, Bool.and_eq_true, beq_iff_eq, beq_iff_eq]

theorem isAt_self (e : OutlineEntry) : e.isAt e.offset e.kind = true := isAt_iff.mpr ⟨rfl, rfl⟩

/-- Sorting leaves the entries of one kind at one offset as they were. -/
theorem filter_mergeSort :
    (l.mergeSort before).filter (isAt offset kind) = l.filter (isAt offset kind) := by
  have hbefore : (l.filter (isAt offset kind)).Pairwise fun e e' => before e e' = true := by
    refine List.pairwise_of_forall_mem_list fun e he e' he' => ?_
    obtain ⟨hoffset, hkind⟩ := isAt_iff.mp (List.mem_filter.mp he).2
    obtain ⟨hoffset', hkind'⟩ := isAt_iff.mp (List.mem_filter.mp he').2
    exact before_iff.mpr (.inr ⟨hoffset.trans hoffset'.symm,
      hkind.trans hkind'.symm ▸ String.le_refl _⟩)
  have hsub : (l.filter (isAt offset kind)).Sublist (l.mergeSort before) :=
    List.sublist_mergeSort before_trans before_total hbefore List.filter_sublist
  have hfilter : (l.filter (isAt offset kind)).Sublist
      ((l.mergeSort before).filter (isAt offset kind)) := by
    have hkept := hsub.filter (isAt offset kind)
    rwa [List.filter_eq_self.mpr fun _ he => (List.mem_filter.mp he).2] at hkept
  have hlength := ((List.mergeSort_perm l before).filter (isAt offset kind)).length_eq
  exact (hfilter.eq_of_length hlength.symm).symm

/-- The first entries of two lists in order that have the same entries of each kind at each offset
are the same. -/
theorem head_eq_of_ordered (h : (e :: l).Pairwise fun e e' => before e e' = true)
    (h' : (e' :: l').Pairwise fun e e' => before e e' = true)
    (hsame : ∀ offset kind,
      (e :: l).filter (isAt offset kind) = (e' :: l').filter (isAt offset kind)) : e = e' := by
  have hrefl : ∀ e, before e e = true := fun e => before_iff.mpr (.inr ⟨rfl, String.le_refl _⟩)
  have hmem : e ∈ e' :: l' := by
    have hfilter : e ∈ (e :: l).filter (isAt e.offset e.kind) :=
      List.mem_filter.mpr ⟨List.mem_cons_self, isAt_self e⟩
    rw [hsame] at hfilter
    exact (List.mem_filter.mp hfilter).1
  have hmem' : e' ∈ e :: l := by
    have hfilter : e' ∈ (e' :: l').filter (isAt e'.offset e'.kind) :=
      List.mem_filter.mpr ⟨List.mem_cons_self, isAt_self e'⟩
    rw [← hsame] at hfilter
    exact (List.mem_filter.mp hfilter).1
  -- each of the two is before the other, so they are of one kind and at one offset
  have hle : before e e' = true := by
    rcases List.mem_cons.mp hmem' with rfl | hin
    · exact hrefl _
    · exact (List.pairwise_cons.mp h).1 e' hin
  have hge : before e' e = true := by
    rcases List.mem_cons.mp hmem with rfl | hin
    · exact hrefl _
    · exact (List.pairwise_cons.mp h').1 e hin
  have hat : e'.isAt e.offset e.kind = true := by
    rw [before_iff] at hle hge
    rcases hle with hlt | ⟨hoffset, hkind⟩
    · omega
    · rcases hge with hlt | ⟨-, hkind'⟩
      · omega
      · exact isAt_iff.mpr ⟨hoffset.symm, String.le_antisymm hkind' hkind⟩
  have hboth := hsame e.offset e.kind
  rw [List.filter_cons_of_pos (isAt_self e), List.filter_cons_of_pos hat] at hboth
  exact (List.cons.inj hboth).1

/-- Two lists in order that have the same entries of each kind at each offset are the same. -/
theorem eq_of_ordered (h : l.Pairwise fun e e' => before e e' = true)
    (h' : l'.Pairwise fun e e' => before e e' = true)
    (hsame : ∀ offset kind, l.filter (isAt offset kind) = l'.filter (isAt offset kind)) :
    l = l' := by
  induction l generalizing l' with
  | nil =>
    cases l' with
    | nil => rfl
    | cons e' l' =>
      have hnone := hsame e'.offset e'.kind
      rw [List.filter_nil, List.filter_cons_of_pos (isAt_self e')] at hnone
      cases hnone
  | cons e l ih =>
    cases l' with
    | nil =>
      have hnone := hsame e.offset e.kind
      rw [List.filter_nil, List.filter_cons_of_pos (isAt_self e)] at hnone
      cases hnone
    | cons e' l' =>
      obtain rfl := head_eq_of_ordered h h' hsame
      refine congrArg (e :: ·) (ih (List.pairwise_cons.mp h).2 (List.pairwise_cons.mp h').2 ?_)
      intro offset kind
      have hboth := hsame offset kind
      by_cases hat : e.isAt offset kind = true
      · rw [List.filter_cons_of_pos hat, List.filter_cons_of_pos hat] at hboth
        exact (List.cons.inj hboth).2
      · rwa [List.filter_cons_of_neg hat, List.filter_cons_of_neg hat] at hboth

end VSyntax.OutlineEntry
