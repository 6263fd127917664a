import VSyntax.Proofs.Layout
import VSyntax.Proofs.Outline.Order
import VSyntax.Proofs.Refusal
import VSyntax.Proofs.Regex.Extent

/-!
# Outlines under any patterns

What holds of an outline under patterns of any kind: they may match the empty text, and their groups
may take no part or lie outside of the match. The first unfit pattern refuses the list, whatever the
text is. Otherwise the outline has all that the patterns find one by one, sorted, and as the sort is
stable, the order of patterns of different kinds makes no difference to it (`outlineBy_merged`).

A pattern that comes to a limit, such as a repetition that is too large to count, is refused too,
but not reported like other malformed patterns (`outlineBy_boundTooLarge`).
-/
namespace VSyntax

/-- The entries are the outline of a text under the patterns: sorted by offset and kind, with labels
that stand in the text, all that each pattern alone finds and nothing else, and the same for the
patterns in another order if these are of different kinds. -/
structure Outline.Merged (host : Regex.Host) (patterns : List OutlinePattern) (t : Text)
    (entries : List OutlineEntry) : Prop where
  sorted : entries.Pairwise fun e e' =>
    e.offset < e'.offset ∨ e.offset = e'.offset ∧ e.kind ≤ e'.kind
  labels : ∀ e ∈ entries, e.offset + e.label.size ≤ t.size ∧
    e.label = t.slice e.offset (e.offset + e.label.size)
  union : ∃ parts, List.Forall₂ (fun p part => outlineBy host [p] t = .ok part) patterns parts ∧
    entries.Perm parts.flatten
  reordered : (patterns.map (·.kind)).Nodup → ∀ patterns', patterns.Perm patterns' →
    outlineBy host patterns' t = .ok entries

namespace OutlinePattern

variable {host : Regex.Host} {p : OutlinePattern} {patterns patterns' : List OutlinePattern}
  {t : Text} {e : OutlineEntry} {kind : String} {offset : Nat}

/-- The entries that a pattern finds in a text, none if it is refused. -/
def found (p : OutlinePattern) (host : Regex.Host) (t : Text) : List OutlineEntry :=
  match p.compile host with
  | .ok compiled => entries p.kind t compiled
  | .error _ => []

/-- An entry is of the kind of its pattern, and its label stands in the text. -/
theorem of_mem_found (h : e ∈ p.found host t) : e.kind = p.kind ∧
    e.offset + e.label.size ≤ t.size ∧ e.label = t.slice e.offset (e.offset + e.label.size) := by
  unfold found at h
  split at h
  · next compiled hcompiled =>
    obtain ⟨m, hm, hentry⟩ := List.mem_filterMap.mp h
    obtain ⟨⟨first, last⟩, hextent, rfl⟩ := Option.map_eq_some_iff.mp hentry
    obtain ⟨hle, hlast⟩ := Regex.extent_of_mem_allMatches hm hextent
    have hsize : first + (t.slice first last).size = last := by
      rw [Text.slice, Array.size_extract, Nat.min_eq_left hlast, Nat.add_sub_of_le hle]
    exact ⟨rfl, hsize.symm ▸ hlast, congrArg (t.slice first) hsize.symm⟩
  · exact absurd h List.not_mem_nil

/-- A compiled pattern under its kind. -/
def named (p : OutlinePattern) (host : Regex.Host) : Except Fault (String × Regex × Nat) :=
  return (p.kind, ← p.compile host)

theorem named_eq_ok (h : p.Fit host) : ∃ c, p.named host = .ok c := by
  obtain ⟨compiled, hcompiled⟩ := exists_compiled h
  exact ⟨(p.kind, compiled), by rw [named, hcompiled]; rfl⟩

theorem named_eq_error {reason : PatternReason} (h : p.Refused host reason) :
    p.named host = .error (.pattern ⟨p.kind, p.pattern, reason⟩) := by
  rw [named, compile_eq_error h]
  rfl

/-- Compiled patterns find what the patterns do. -/
theorem flatMap_entries {compiled : List (String × Regex × Nat)}
    (h : List.Forall₂ (fun p c => p.named host = .ok c) patterns compiled) :
    (compiled.flatMap fun c => entries c.1 t c.2) = patterns.flatMap (·.found host t) := by
  induction h with
  | nil => rfl
  | @cons p c patterns compiled hp _ ih =>
    cases hcompile : p.compile host with
    | error fault =>
      rw [named, hcompile] at hp
      cases hp
    | ok regex =>
      rw [named, hcompile] at hp
      cases hp
      rw [List.flatMap_cons, List.flatMap_cons, ih, found, hcompile]

/-- Under fit patterns the outline has what they find, sorted. -/
theorem outlineBy_eq_ok (h : ∀ p ∈ patterns, p.Fit host) :
    outlineBy host patterns t =
      .ok ((patterns.flatMap (·.found host t)).mergeSort OutlineEntry.before) := by
  obtain ⟨compiled, hcompiled⟩ := exists_mapM_eq_ok fun p hp => named_eq_ok (h p hp)
  have hentries := flatMap_entries (t := t) (forall₂_of_mapM_eq_ok hcompiled)
  have hmapM : (patterns.mapM fun p => return (p.kind, ← p.compile host)) = Except.ok compiled :=
    hcompiled
  rw [outlineBy, hmapM, ← hentries]
  rfl

/-- The first pattern that is refused refuses the list. -/
theorem outlineBy_eq_error {front back : List OutlinePattern} {reason : PatternReason}
    (hfront : ∀ p ∈ front, p.Fit host) (hp : p.Refused host reason) :
    outlineBy host (front ++ p :: back) t = .error (.pattern ⟨p.kind, p.pattern, reason⟩) := by
  have hmapM : ((front ++ p :: back).mapM fun p => return (p.kind, ← p.compile host)) = _ :=
    mapM_eq_error (fun q hq => named_eq_ok (hfront q hq)) (named_eq_error hp)
  rw [outlineBy, hmapM]
  rfl

/-- Of patterns of different kinds, the one of a given kind is the same in every order. -/
theorem filter_kind_eq (hperm : patterns.Perm patterns') (hkinds : (patterns.map (·.kind)).Nodup) :
    patterns.filter (·.kind == kind) = patterns'.filter (·.kind == kind) := by
  have hne : ∀ {l : List OutlinePattern}, (l.map (·.kind)).Nodup →
      (l.filter (·.kind == kind)).Pairwise fun p q => p.kind ≠ q.kind := fun h =>
    (List.pairwise_map.mp h).filter _
  refine (hperm.filter _).eq_of_pairwise (fun p q hp hq hdiffer _ => ?_) (hne hkinds)
    (hne ((hperm.map _).nodup_iff.mp hkinds))
  have hkind := beq_iff_eq.mp (List.mem_filter.mp hp).2
  have hkind' := beq_iff_eq.mp (List.mem_filter.mp hq).2
  exact absurd (hkind.trans hkind'.symm) hdiffer

/-- What stands of a kind at an offset comes from the patterns of the kind. -/
theorem filter_found : (patterns.flatMap (·.found host t)).filter (OutlineEntry.isAt offset kind) =
    (patterns.filter (·.kind == kind)).flatMap
      fun p => (p.found host t).filter (OutlineEntry.isAt offset kind) := by
  rw [List.filter_flatMap]
  induction patterns with
  | nil => rfl
  | cons p patterns ih =>
    rw [List.flatMap_cons, ih]
    cases hkind : p.kind == kind with
    | true => simp only [List.filter_cons, hkind, if_true, List.flatMap_cons]
    | false =>
      have hnone : (p.found host t).filter (OutlineEntry.isAt offset kind) = [] := by
        refine List.filter_eq_nil_iff.mpr fun e he hat => beq_eq_false_iff_ne.mp hkind ?_
        exact (of_mem_found he).1.symm.trans (OutlineEntry.isAt_iff.mp hat).2
      simp only [List.filter_cons, hkind, Bool.false_eq_true, if_false, hnone, List.nil_append]

/-- Fit patterns give a merged outline. -/
theorem exists_merged (h : ∀ p ∈ patterns, p.Fit host) (t : Text) :
    ∃ entries, outlineBy host patterns t = .ok entries ∧
      Outline.Merged host patterns t entries := by
  have hperm := List.mergeSort_perm (patterns.flatMap (·.found host t)) OutlineEntry.before
  refine ⟨_, outlineBy_eq_ok h, ?_, fun e he => ?_, ?_, fun hkinds patterns' hreordered => ?_⟩
  · exact (OutlineEntry.ordered_mergeSort _).imp OutlineEntry.before_iff.mp
  · obtain ⟨p, -, hfound⟩ := List.mem_flatMap.mp (hperm.mem_iff.mp he)
    exact (of_mem_found hfound).2
  · refine ⟨patterns.map fun p => (p.found host t).mergeSort OutlineEntry.before, ?_, ?_⟩
    · refine List.forall₂_map_right_iff.mpr (List.forall₂_same.mpr fun p hp => ?_)
      rw [outlineBy_eq_ok (List.forall_mem_singleton.mpr (h p hp)), List.flatMap_singleton]
    · rw [← List.flatMap_def]
      exact hperm.trans (List.Perm.flatMap_left _ fun p _ => (List.mergeSort_perm _ _).symm)
  · have h' : ∀ p ∈ patterns', p.Fit host := fun p hp => h p (hreordered.mem_iff.mpr hp)
    rw [outlineBy_eq_ok h']
    refine congrArg Except.ok (OutlineEntry.eq_of_ordered (OutlineEntry.ordered_mergeSort _)
      (OutlineEntry.ordered_mergeSort _) fun offset kind => ?_)
    rw [OutlineEntry.filter_mergeSort, OutlineEntry.filter_mergeSort, filter_found, filter_found,
      filter_kind_eq hreordered hkinds]

end OutlinePattern

/-- **An outline is the merge of what its patterns find.** If some pattern of a list is malformed or
has no group of the index that it asks for, then the outline of every text is refused with a fault
that names the first such pattern and the reason, and it is reported unless reading the pattern came
to a limit. Otherwise every text has an outline: it is sorted by offset and kind, each label stands
in the text at its offset, the entries are those that the patterns give one by one, none lost and
none twice, and if the patterns are of different kinds, each order of them gives the same list. -/
theorem outlineBy_merged (host : Regex.Host) (patterns : List OutlinePattern) :
    (∃ front p back f, patterns = front ++ p :: back ∧ (∀ q ∈ front, q.Fit host) ∧ ¬ p.Fit host ∧
      p.Refused host f.reason ∧ f.name = p.kind ∧ f.pattern = p.pattern ∧
      (f.isReported = true ↔ ∀ m, f.reason = .malformed m → m.flaw.isLimit = false) ∧
      ∀ t, outlineBy host patterns t = .error (.pattern f)) ∨
    (∀ p ∈ patterns, p.Fit host) ∧ ∀ t, ∃ entries, outlineBy host patterns t = .ok entries ∧
      Outline.Merged host patterns t entries := by
  rcases exists_first (·.Fit host) patterns with hfit | ⟨front, p, back, rfl, hfront, hp⟩
  · exact .inr ⟨hfit, OutlinePattern.exists_merged hfit⟩
  · obtain ⟨reason, hrefused⟩ := exists_applies hp
    exact .inl ⟨front, p, back, ⟨p.kind, p.pattern, reason⟩, rfl, hfront, hp, hrefused, rfl, rfl,
      PatternFault.isReported_iff, fun t => OutlinePattern.outlineBy_eq_error hfront hrefused⟩

/-- A pattern with a bound that is too large to count is refused, and not reported. -/
theorem outlineBy_boundTooLarge : ∃ f,
    OutlinePattern.Refused ⟨"many", "a\x7b4294967295\x7d", 0⟩ .standard f.reason ∧
    outlineBy .standard [⟨"many", "a\x7b4294967295\x7d", 0⟩] (Text.ofString "a") =
      .error (.pattern f) ∧
    f.isReported = false ∧ f.message = "the repetition number is too large" :=
  ⟨⟨"many", "a\x7b4294967295\x7d", .malformed ⟨.boundTooLarge, none⟩⟩, rfl, rfl, rfl, rfl⟩

end VSyntax
