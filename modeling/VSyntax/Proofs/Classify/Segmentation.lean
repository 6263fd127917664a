import VSyntax.Proofs.Classify.Order
import Mathlib.Data.List.Pairwise

/-!
# The segmentation of a text

The comments and strings of a text as a list of spans (`Segmentation`): each span is a comment or a
string of the text, they stand one after the other, and wherever something opens one of them covers
the offset. A text has one segmentation (`Segmentation.unique`), because the first offset where
something opens is the start of the first span, and a region that opens has one end.

`classify_segmentation` says that a rule table which gives no delimited category leaves the
segmentation alone: whatever its rules claim in the code, the comments and strings of the answer are
the segmentation of the text.
-/
namespace VSyntax

variable {rules : RuleTable} {d : Delimiters} {t : Text} {pos lo : Nat} {l : List Span}

/-! ## Regions as spans -/

namespace Delimiters

/-- A span is a comment or a string of the text. -/
def IsRegion (d : Delimiters) (t : Text) (s : Span) : Prop :=
  s.category = .comment ∧ d.IsComment t s.start s.stop ∨
    s.category = .string ∧ d.IsString t s.start s.stop

namespace IsRegion

variable {s s' : Span}

theorem lt (h : d.IsRegion t s) : s.start < s.stop := by
  rcases h with ⟨-, h⟩ | ⟨-, h⟩
  · exact h.lt
  · exact h.lt

theorem opens (h : d.IsRegion t s) : d.Opens t s.start := by
  rcases h with ⟨-, h⟩ | ⟨-, h⟩
  · exact .inl h.opens
  · obtain ⟨quote, hq, hat, -⟩ := h.quoted
    exact .inr ⟨quote, hq, hat⟩

/-- At an offset there is one comment or string at most. -/
theorem unique (h : d.IsRegion t s) (h' : d.IsRegion t s') (hstart : s.start = s'.start) :
    s = s' := by
  obtain ⟨start, stop, category⟩ := s
  obtain ⟨start', stop', category'⟩ := s'
  cases hstart
  rcases h with ⟨hcat, h⟩ | ⟨hcat, h⟩
  · rcases h' with ⟨hcat', h'⟩ | ⟨hcat', h'⟩
    · cases hcat
      cases hcat'
      exact congrArg (Span.mk start · .comment) (h.unique h')
    · exact absurd h.opens h'.not_comment
  · rcases h' with ⟨hcat', h'⟩ | ⟨hcat', h'⟩
    · exact absurd h'.opens h.not_comment
    · cases hcat
      cases hcat'
      exact congrArg (Span.mk start · .string) (h.unique h')

end IsRegion

end Delimiters

/-! ## Segmentations -/

/-- The comments and strings of the text from `lo` on. -/
structure Segmentation (d : Delimiters) (t : Text) (lo : Nat) (l : List Span) : Prop where
  regions : ∀ s ∈ l, d.IsRegion t s
  apart : l.Pairwise fun a b => a.stop ≤ b.start
  after : ∀ s ∈ l, lo ≤ s.start
  covers : ∀ o, lo ≤ o → d.Opens t o → ∃ s ∈ l, s.start ≤ o ∧ o < s.stop

namespace Segmentation

variable {s : Span}

/-- Nothing opens before the first span. -/
theorem head_le {o : Nat} (h : Segmentation d t lo (s :: l)) (hlo : lo ≤ o)
    (hopens : d.Opens t o) : s.start ≤ o := by
  obtain ⟨s', hs', hle, -⟩ := h.covers o hlo hopens
  rcases List.mem_cons.mp hs' with rfl | hs'
  · exact hle
  · have hlt := (h.regions s List.mem_cons_self).lt
    have := (List.pairwise_cons.mp h.apart).1 s' hs'
    omega

/-- After its first span the rest of a segmentation is one. -/
theorem tail (h : Segmentation d t lo (s :: l)) : Segmentation d t s.stop l where
  regions s' hs' := h.regions s' (List.mem_cons_of_mem _ hs')
  apart := (List.pairwise_cons.mp h.apart).2
  after := (List.pairwise_cons.mp h.apart).1
  covers o ho hopens := by
    have hlt := (h.regions s List.mem_cons_self).lt
    have hafter := h.after s List.mem_cons_self
    obtain ⟨s', hs', hle, hin⟩ := h.covers o (by omega) hopens
    rcases List.mem_cons.mp hs' with rfl | hs'
    · omega
    · exact ⟨s', hs', hle, hin⟩

/-- A text has one segmentation. -/
theorem unique {l' : List Span} (h : Segmentation d t lo l) (h' : Segmentation d t lo l') :
    l = l' := by
  induction l generalizing lo l' with
  | nil =>
    cases l' with
    | nil => rfl
    | cons s' l' =>
      have hregion := h'.regions s' List.mem_cons_self
      obtain ⟨s, hs, -⟩ := h.covers s'.start (h'.after s' List.mem_cons_self) hregion.opens
      exact absurd hs List.not_mem_nil
  | cons s l ih =>
    have hregion := h.regions s List.mem_cons_self
    have hafter := h.after s List.mem_cons_self
    cases l' with
    | nil =>
      obtain ⟨s', hs', -⟩ := h'.covers s.start hafter hregion.opens
      exact absurd hs' List.not_mem_nil
    | cons s' l' =>
      have hregion' := h'.regions s' List.mem_cons_self
      have hafter' := h'.after s' List.mem_cons_self
      have hstart : s.start = s'.start := Nat.le_antisymm
        (h.head_le hafter' hregion'.opens) (h'.head_le hafter hregion.opens)
      obtain rfl := hregion.unique hregion' hstart
      rw [ih h.tail h'.tail]

/-- Offsets at which nothing opens may be passed. -/
theorem mono (h : Segmentation d t lo l) (hle : pos ≤ lo)
    (hquiet : ∀ i, pos ≤ i → i < lo → ¬ d.Opens t i) : Segmentation d t pos l where
  regions := h.regions
  apart := h.apart
  after s hs := Nat.le_trans hle (h.after s hs)
  covers o ho hopens := by
    rcases Nat.lt_or_ge o lo with hlt | hge
    · exact absurd hopens (hquiet o ho hlt)
    · exact h.covers o hge hopens

/-- A comment or string in front of a segmentation. -/
theorem cons (h : Segmentation d t s.stop l) (hs : d.IsRegion t s) :
    Segmentation d t s.start (s :: l) where
  regions s' hs' := by
    rcases List.mem_cons.mp hs' with rfl | hs'
    · exact hs
    · exact h.regions s' hs'
  apart := List.pairwise_cons.mpr ⟨h.after, h.apart⟩
  after s' hs' := by
    have hlt := hs.lt
    rcases List.mem_cons.mp hs' with rfl | hs'
    · exact Nat.le_refl _
    · exact Nat.le_trans (Nat.le_of_lt hlt) (h.after s' hs')
  covers o ho hopens := by
    rcases Nat.lt_or_ge o s.stop with hlt | hge
    · exact ⟨s, List.mem_cons_self, ho, hlt⟩
    · obtain ⟨s', hs', hin⟩ := h.covers o hge hopens
      exact ⟨s', List.mem_cons_of_mem _ hs', hin⟩

end Segmentation

/-! ## The segmentation of a course -/

/-- What a course through the whole text leaves of comments and strings is the segmentation. -/
theorem Course.segmentation (hr : ∀ rule ∈ rules, rule.capturesBehind = false)
    (hcat : ∀ rule ∈ rules, rule.category.isDelimited = false)
    (h : Course rules d t t.size pos l) :
    Segmentation d t pos (l.filter fun s => s.category.isDelimited) := by
  induction h with
  | done hle =>
    refine ⟨fun s hs => absurd hs List.not_mem_nil, .nil, fun s hs => absurd hs List.not_mem_nil,
      fun o ho hopens => ?_⟩
    have := hopens.lt_size
    omega
  | @skip pos e l code hlt unclaimed rest ih =>
    exact ih.mono (Nat.le_succ pos) fun i hi hie => code.quiet i hi (by omega)
  | @claim pos e s l code hlt claimed rest ih =>
    obtain ⟨hfirst, hnonempty, hlast, rule, hrule, hof, -⟩ :=
      firstClaim?_eq_some hr hlt code.le_stop claimed
    have hplain : s.category.isDelimited = false := hof ▸ hcat rule hrule
    rw [List.filter_cons_of_neg (by simp only [hplain, Bool.false_eq_true, not_false_eq_true])]
    exact ih.mono (by omega) fun i hi his => code.quiet i hi (by omega)
  | @region pos close category l hlt opens found rest ih =>
    rw [openerLimit_size] at found
    obtain ⟨hlater, hclose, hdelimited⟩ := Delimiters.regionAt_bounds opens found
    rw [Nat.min_eq_left hclose] at ih ⊢
    have hspan : d.IsRegion t ⟨pos, close, category⟩ :=
      Delimiters.isRegion_of_regionAt opens found
    rw [List.filter_cons, if_pos hdelimited]
    exact Segmentation.cons (s := ⟨pos, close, category⟩) ih hspan

variable {host : Regex.Host} {layout : Layout} {classes : List WordClass}

/-- The comments and strings of a classified text are its segmentation, if no rule gives their
categories. -/
theorem exists_segmentation (hl : layout.capturesBehind host = false)
    (hc : layout.compile host classes = .ok rules)
    (hcat : ∀ rule ∈ rules, rule.category.isDelimited = false) (d : Delimiters) (t : Text) :
    ∃ spans, classify rules d t none = .ok spans ∧ OrderedSpans 0 t.size spans ∧
      Segmentation d t 0 (spans.filter fun s => s.category.isDelimited) := by
  have hr := Layout.not_capturesBehind_of_compile hl hc
  obtain ⟨spans, hrun, hclassified⟩ :=
    classifyWithin_classified (d := d) (t := t) 0 hr (Nat.le_refl _)
  refine ⟨spans, hrun, hclassified.ordered hr (Nat.le_refl _), ?_⟩
  cases hclassified with
  | empty hempty => exact (Course.done hempty).segmentation hr hcat
  | outside hlt clear course => exact course.segmentation hr hcat
  | inside hlt inside => exact absurd inside Delimiters.Clear.start.not_inside

/-- **Comments and strings are the canonical segmentation.** For every text, all marks of comments
and strings, and every compiled table that captures nothing behind and gives no delimited category:
nothing opens at an offset outside the delimited spans; each comment span begins with the opener and
goes up to the first terminator after it; each string span begins with a quote that opens no comment
and ends just after the first such quote that no escape takes in; a region that is not closed ends
with the text; and no other span overlaps one of them. Any other such table leaves the same
delimited spans, so they depend on the text and its marks alone. -/
theorem classify_segmentation (hl : layout.capturesBehind host = false)
    (hc : layout.compile host classes = .ok rules)
    (hcat : ∀ rule ∈ rules, rule.category.isDelimited = false) (d : Delimiters) (t : Text) :
    ∃ spans, classify rules d t none = .ok spans ∧
      (∀ o, (∀ s ∈ spans, s.category.isDelimited = true → ¬ (s.start ≤ o ∧ o < s.stop)) →
        ¬ d.Opens t o) ∧
      (∀ s ∈ spans, s.category = .comment → d.IsComment t s.start s.stop) ∧
      (∀ s ∈ spans, s.category = .string → d.IsString t s.start s.stop) ∧
      (∀ s ∈ spans, s.category.isDelimited = true → ∀ s' ∈ spans, s' ≠ s →
        s'.stop ≤ s.start ∨ s.stop ≤ s'.start) ∧
      ∀ (host' : Regex.Host) (layout' : Layout) (classes' : List WordClass) (rules' : RuleTable),
        layout'.capturesBehind host' = false → layout'.compile host' classes' = .ok rules' →
        (∀ rule ∈ rules', rule.category.isDelimited = false) →
        ∃ spans', classify rules' d t none = .ok spans' ∧
          (spans'.filter fun s => s.category.isDelimited) =
            spans.filter fun s => s.category.isDelimited := by
  obtain ⟨spans, hrun, hordered, hseg⟩ := exists_segmentation hl hc hcat d t
  have hregion : ∀ s ∈ spans, s.category.isDelimited = true → d.IsRegion t s := fun s hs hdel =>
    hseg.regions s (List.mem_filter.mpr ⟨hs, hdel⟩)
  refine ⟨spans, hrun, ?_, ?_, ?_, ?_, ?_⟩
  · intro o hout hopens
    obtain ⟨s, hs, hin⟩ := hseg.covers o (Nat.zero_le _) hopens
    obtain ⟨hmem, hdel⟩ := List.mem_filter.mp hs
    exact hout s hmem hdel hin
  · intro s hs hcomment
    rcases hregion s hs (hcomment ▸ rfl) with ⟨-, h⟩ | ⟨hstring, -⟩
    · exact h
    · rw [hcomment] at hstring
      cases hstring
  · intro s hs hstring
    rcases hregion s hs (hstring ▸ rfl) with ⟨hcomment, -⟩ | ⟨-, h⟩
    · rw [hstring] at hcomment
      cases hcomment
    · exact h
  · intro s hs hdel s' hs' hne
    have hsymm : Std.Symm fun a b : Span => a.stop ≤ b.start ∨ b.stop ≤ a.start :=
      ⟨fun a b h => h.symm⟩
    have hapart : spans.Pairwise fun a b => a.stop ≤ b.start ∨ b.stop ≤ a.start :=
      hordered.apart.imp Or.inl
    exact hapart.forall hs' hs hne
  · intro host' layout' classes' rules' hl' hc' hcat'
    obtain ⟨spans', hrun', -, hseg'⟩ := exists_segmentation hl' hc' hcat' d t
    exact ⟨spans', hrun', hseg'.unique hseg⟩

/-- The theorem holds of a real table, on a text where a string holds a comment opener and an
escaped quote, and a comment holds a quote. -/
theorem classify_segmentation_mixed :
    Layout.capturesBehind [.shape ⟨"mark", "(a)", 1, .keyword⟩] .standard = false ∧
      ∃ rules spans, Layout.compile [.shape ⟨"mark", "(a)", 1, .keyword⟩] .standard [] = .ok rules ∧
        (∀ rule ∈ rules, rule.category.isDelimited = false) ∧
        classify rules .standard (Text.ofString "a'//\\'b'a//'") none = .ok spans ∧
        ∀ s ∈ spans, s.category = .comment →
          Delimiters.standard.IsComment (Text.ofString "a'//\\'b'a//'") s.start s.stop := by
  have hl : Layout.capturesBehind [.shape ⟨"mark", "(a)", 1, .keyword⟩] .standard = false := by
    decide +kernel
  have hc : Layout.compile [.shape ⟨"mark", "(a)", 1, .keyword⟩] .standard [] =
      .ok [.shape "mark" .keyword ⟨.group 1 (.char 97), 1⟩ 1] := by
    rfl
  have hcat : ∀ rule ∈ [Rule.shape "mark" .keyword ⟨.group 1 (.char 97), 1⟩ 1],
      rule.category.isDelimited = false := by
    decide
  obtain ⟨spans, hrun, -, hcomments, -⟩ :=
    classify_segmentation hl hc hcat .standard (Text.ofString "a'//\\'b'a//'")
  exact ⟨hl, _, spans, hc, hcat, hrun, hcomments⟩

end VSyntax
