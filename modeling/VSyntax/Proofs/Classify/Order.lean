import VSyntax.Proofs.Layout
import VSyntax.Proofs.Classify.Course

/-!
# The order of spans

A classification ends, without a fault, in non-empty spans that stand one after the other inside
the region (`classify_ordered`). The induction is on the course: each step leaves at most one span,
between the offset where it began and the offset where the walk goes on.
-/
namespace VSyntax

variable {rules : RuleTable} {d : Delimiters} {t : Text} {pos start stop : Nat} {l : List Span}

/-- Spans that stand one after the other between two offsets, none of them empty. -/
structure OrderedSpans (lo hi : Nat) (l : List Span) : Prop where
  nonempty : ∀ s ∈ l, s.start < s.stop
  apart : l.Pairwise fun a b => a.stop ≤ b.start
  between : ∀ s ∈ l, lo ≤ s.start ∧ s.stop ≤ hi

namespace OrderedSpans

variable {lo hi : Nat}

theorem nil : OrderedSpans lo hi [] :=
  ⟨fun _ h => absurd h List.not_mem_nil, .nil, fun _ h => absurd h List.not_mem_nil⟩

/-- A span in front of ordered spans. -/
theorem cons {s : Span} {mid : Nat} (h : OrderedSpans mid hi l) (hlo : lo ≤ s.start)
    (hs : s.start < s.stop) (hhi : s.stop ≤ hi) (hmid : s.stop ≤ mid) :
    OrderedSpans lo hi (s :: l) where
  nonempty s' hs' := by
    rcases List.mem_cons.mp hs' with rfl | hs'
    · exact hs
    · exact h.nonempty s' hs'
  apart := List.pairwise_cons.mpr
    ⟨fun s' hs' => Nat.le_trans hmid (h.between s' hs').1, h.apart⟩
  between s' hs' := by
    rcases List.mem_cons.mp hs' with rfl | hs'
    · exact ⟨hlo, hhi⟩
    · have := h.between s' hs'
      omega

/-- The spans behind the first one are ordered from its end on. -/
theorem tail {s : Span} (h : OrderedSpans lo hi (s :: l)) : OrderedSpans s.stop hi l where
  nonempty s' hs' := h.nonempty s' (List.mem_cons_of_mem s hs')
  apart := (List.pairwise_cons.mp h.apart).2
  between s' hs' := ⟨(List.pairwise_cons.mp h.apart).1 s' hs',
    (h.between s' (List.mem_cons_of_mem s hs')).2⟩

theorem mono {lo' : Nat} (h : OrderedSpans lo' hi l) (hle : lo ≤ lo') : OrderedSpans lo hi l :=
  ⟨h.nonempty, h.apart, fun s hs => ⟨Nat.le_trans hle (h.between s hs).1, (h.between s hs).2⟩⟩

end OrderedSpans

/-- The spans of a course are ordered, from its offset on. -/
theorem Course.ordered (hr : ∀ rule ∈ rules, rule.capturesBehind = false) (hstop : stop ≤ t.size)
    (h : Course rules d t stop pos l) : OrderedSpans pos stop l := by
  induction h with
  | done => exact .nil
  | skip code hlt unclaimed rest ih => exact ih.mono (Nat.le_succ _)
  | claim code hlt claimed rest ih =>
    have hle := code.le_stop
    obtain ⟨hfirst, hnonempty, hlast, -⟩ :=
      firstClaim?_eq_some hr hlt (Nat.le_trans hle hstop) claimed
    exact ih.cons hfirst hnonempty (Nat.le_trans hlast hle) (Nat.le_refl _)
  | region hlt opens found rest ih =>
    obtain ⟨close, category, hfound, hlater, -⟩ :=
      Delimiters.regionAt_openerLimit opens hlt hstop
    rw [found] at hfound
    cases hfound
    exact ih.cons (Nat.le_refl _) (by simp only; omega) (Nat.min_le_right _ _) (Nat.le_refl _)

/-- The spans of a classification are ordered, within its region. -/
theorem Classified.ordered (hr : ∀ rule ∈ rules, rule.capturesBehind = false)
    (hstop : stop ≤ t.size) (h : Classified rules d t start stop l) :
    OrderedSpans start stop l := by
  cases h with
  | empty => exact .nil
  | outside hlt clear course => exact course.ordered hr hstop
  | inside hlt inside course =>
    obtain ⟨o, -, -, -, -, hin⟩ := inside
    exact (course.ordered hr hstop).cons (Nat.le_refl _) (by simp only; omega)
      (Nat.min_le_right _ _) (Nat.min_le_left _ _)

/-! ## Regions -/

theorem Region.bounds_snd_le (region : Option Region) (size : Nat) :
    (Region.bounds region size).2 ≤ size := by
  cases region with
  | none => exact Nat.le_refl _
  | some r =>
    simp only [bounds, upper, lower]
    omega

/-- A region whose offsets are in order and inside the text is taken as it is. -/
theorem Region.bounds_of_le {a b size : Nat} (hab : a ≤ b) (hb : b ≤ size) :
    Region.bounds (some ⟨a, b⟩) size = (a, b) := by
  simp only [bounds, upper, lower, Prod.mk.injEq]
  omega

/-- **Every classification ends in ordered spans.** For a table compiled from a layout that captures
nothing behind, whatever the marks of comments and strings, the text and the region: the scanners
answer without a fault, so that every opening that they found is one and every character that they
asked for is there. Their answer is the outcome of a finite course, so no loop is cut short. Its
spans are not empty and stand one after the other, inside the region and inside the text. -/
theorem classify_ordered {host : Regex.Host} {layout : Layout} {classes : List WordClass}
    (hl : layout.capturesBehind host = false) (hc : layout.compile host classes = .ok rules)
    (d : Delimiters) (t : Text) (region : Option Region) :
    ∃ spans, classify rules d t region = .ok spans ∧
      Classified rules d t (Region.bounds region t.size).1 (Region.bounds region t.size).2 spans ∧
      (∀ s ∈ spans, s.start < s.stop) ∧
      spans.Pairwise (fun a b => a.stop ≤ b.start) ∧
      (∀ s ∈ spans, s.stop ≤ t.size) ∧
      ∀ r, region = some r → ∀ s ∈ spans, r.start ≤ s.start ∧ (s.stop : Int) ≤ r.stop := by
  have hr := Layout.not_capturesBehind_of_compile hl hc
  have hstop := Region.bounds_snd_le region t.size
  obtain ⟨spans, hrun, hclassified⟩ := classifyWithin_classified (d := d)
    (Region.bounds region t.size).1 hr hstop
  have hordered := hclassified.ordered hr hstop
  refine ⟨spans, hrun, hclassified, hordered.nonempty, hordered.apart, fun s hs => ?_, ?_⟩
  · exact Nat.le_trans (hordered.between s hs).2 hstop
  · rintro r rfl s hs
    have hbetween := hordered.between s hs
    have hnonempty := hordered.nonempty s hs
    simp only [Region.bounds, Region.lower, Region.upper] at hbetween
    omega

/-- The theorem holds of a real table: its group is captured ahead, beyond where the match ends, and
the region is out of bounds on both sides. -/
theorem classify_ordered_ahead :
    Layout.capturesBehind [.shape ⟨"pair", "(?=(ab))a", 1, .keyword⟩] .standard = false ∧
      ∃ rules spans,
        Layout.compile [.shape ⟨"pair", "(?=(ab))a", 1, .keyword⟩] .standard [] = .ok rules ∧
        classify rules .standard (Text.ofString "abab//x") (some ⟨-3, 99⟩) = .ok spans ∧
        spans.Pairwise (fun a b => a.stop ≤ b.start) := by
  have hl : Layout.capturesBehind [.shape ⟨"pair", "(?=(ab))a", 1, .keyword⟩] .standard =
      false := by
    decide +kernel
  have hc : Layout.compile [.shape ⟨"pair", "(?=(ab))a", 1, .keyword⟩] .standard [] = .ok
      [.shape "pair" .keyword
        ⟨.seq (.ahead false (.group 1 (.seq (.char 97) (.char 98)))) (.char 97), 1⟩ 1] := by
    rfl
  obtain ⟨spans, hrun, -, -, hapart, -⟩ :=
    classify_ordered hl hc .standard (Text.ofString "abab//x") (some ⟨-3, 99⟩)
  exact ⟨hl, _, spans, hc, hrun, hapart⟩

end VSyntax
