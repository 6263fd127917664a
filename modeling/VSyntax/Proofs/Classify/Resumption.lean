import VSyntax.Proofs.Classify.Clip

/-!
# Resuming a classification

A classification can be taken up again at the end of any of its spans: from there the rest of the
text has the spans that come after it (`classify_resumed`). The resumed pass does not know how it got
there. It walks over the comments and strings from the start of the text to find out whether its
start lies inside one, and it does not, because a span ends where nothing is open, be it the claim
of a rule or itself a comment or string. From such an offset the course through the rest of the text
is the one that the first pass went on with (`Course.resume`).
-/
namespace VSyntax

variable {rules : RuleTable} {d : Delimiters} {t : Text} {pos : Nat} {s : Span}
  {before after : List Span}

/-- At the end of each span of a course nothing is open, and the course goes on from there with the
spans that come after. -/
theorem Course.resume (hr : ∀ rule ∈ rules, rule.capturesBehind = false)
    (h : Course rules d t t.size pos (before ++ s :: after)) (hclear : d.Clear t pos) :
    d.Clear t s.stop ∧ Course rules d t t.size s.stop after := by
  -- by induction on the course; a step that leaves a span leaves the given one or an earlier one
  generalize hl : before ++ s :: after = l at h
  induction h generalizing before with
  | done hle => simp at hl
  | skip code hlt unclaimed rest ih =>
    exact ih (hclear.code code (Nat.le_refl _) (Nat.le_succ _) hlt) hl
  | claim code hlt claimed rest ih =>
    obtain ⟨hfirst, hnonempty, hlast, -⟩ := firstClaim?_eq_some hr hlt code.le_stop claimed
    have hend := hclear.code code (Nat.le_refl _)
      (Nat.le_trans hfirst (Nat.le_of_lt hnonempty)) hlast
    cases before with
    | nil =>
      cases hl
      exact ⟨hend, rest⟩
    | cons s' before =>
      cases hl
      exact ih hend rfl
  | region hlt opens found rest ih =>
    rw [openerLimit_size] at found
    have hclose := (Delimiters.regionAt_bounds opens found).2.1
    rw [Nat.min_eq_left hclose] at rest ih hl
    have hend := hclear.region opens found
    cases before with
    | nil =>
      cases hl
      exact ⟨hend, rest⟩
    | cons s' before =>
      cases hl
      exact ih hend rfl

/-- From an offset where nothing is open, the rest of the text is classified by its course. -/
theorem Course.classified (hclear : d.Clear t pos) (h : Course rules d t t.size pos after) :
    Classified rules d t pos t.size after := by
  rcases Nat.lt_or_ge pos t.size with hlt | hge
  · exact .outside hlt hclear h
  · have hnil := h.unique (.done hge)
    rw [hnil]
    exact .empty hge

/-- **A classification can be resumed at the end of any of its spans.** For every text, all marks of
comments and strings, and every compiled table that captures nothing behind: the classification of
the text from the end of a span on is answered, and it is the list of the spans that come after. -/
theorem classify_resumed {host : Regex.Host} {layout : Layout} {classes : List WordClass}
    (hl : layout.capturesBehind host = false) (hc : layout.compile host classes = .ok rules)
    (d : Delimiters) (t : Text) :
    ∃ spans, classify rules d t none = .ok spans ∧
      ∀ before s after, spans = before ++ s :: after →
        classify rules d t (some ⟨s.stop, t.size⟩) = .ok after := by
  have hr := Layout.not_capturesBehind_of_compile hl hc
  obtain ⟨spans, hrun, hwhole⟩ :=
    classifyWithin_classified (d := d) 0 hr (Nat.le_refl t.size)
  refine ⟨spans, hrun, ?_⟩
  rintro before s after rfl
  have hstop : s.stop ≤ t.size :=
    ((hwhole.ordered hr (Nat.le_refl _)).between s (List.mem_append_right _ List.mem_cons_self)).2
  obtain ⟨hclear, hrest⟩ := hwhole.course.resume hr Delimiters.Clear.start
  obtain ⟨part, hrun', hpart⟩ :=
    classifyWithin_classified (d := d) s.stop hr (Nat.le_refl t.size)
  have hsame := hpart.unique (hrest.classified hclear)
  rw [classify, Region.bounds_of_le hstop (Nat.le_refl _), ← hsame]
  exact hrun'

/-- The theorem holds of a real table, whose rule captures beyond its match, and of a string that a
comment follows. -/
theorem classify_resumed_string :
    Layout.capturesBehind [.shape ⟨"pair", "(?=(ab))a", 1, .keyword⟩] .standard = false ∧
      ∃ rules,
        Layout.compile [.shape ⟨"pair", "(?=(ab))a", 1, .keyword⟩] .standard [] = .ok rules ∧
        classify rules .standard (Text.ofString "ab'a'//'\nab") none =
          .ok ([⟨0, 2, .keyword⟩] ++ ⟨2, 5, .string⟩ :: [⟨5, 8, .comment⟩, ⟨9, 11, .keyword⟩]) ∧
        classify rules .standard (Text.ofString "ab'a'//'\nab") (some ⟨(5 : Nat), (11 : Nat)⟩) =
          .ok [⟨5, 8, .comment⟩, ⟨9, 11, .keyword⟩] := by
  have hl : Layout.capturesBehind [.shape ⟨"pair", "(?=(ab))a", 1, .keyword⟩] .standard =
      false := by
    decide +kernel
  have hc : Layout.compile [.shape ⟨"pair", "(?=(ab))a", 1, .keyword⟩] .standard [] = .ok
      [.shape "pair" .keyword
        ⟨.seq (.ahead false (.group 1 (.seq (.char 97) (.char 98)))) (.char 97), 1⟩ 1] := by
    rfl
  obtain ⟨spans, hrun, hresume⟩ :=
    classify_resumed hl hc .standard (Text.ofString "ab'a'//'\nab")
  have hwhole : classify [.shape "pair" .keyword
      ⟨.seq (.ahead false (.group 1 (.seq (.char 97) (.char 98)))) (.char 97), 1⟩ 1] .standard
      (Text.ofString "ab'a'//'\nab") none =
        .ok ([⟨0, 2, .keyword⟩] ++ ⟨2, 5, .string⟩ :: [⟨5, 8, .comment⟩, ⟨9, 11, .keyword⟩]) := by
    rfl
  have hspans := Except.ok.inj (hrun.symm.trans hwhole)
  exact ⟨hl, _, hc, hwhole, hresume _ _ _ hspans⟩

end VSyntax
