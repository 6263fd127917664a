import VSyntax.Proofs.Classify.Clip

/-!
# Comments and strings of a part

A part of a text holds the comments and strings of the whole text, cut at the ends of the part, with
any rules that give no delimited category (`classify_delimited_part`). No alignment is asked for: a
part may begin or end inside an opener, an escape pair or a string.

What the rules claim in the code is hidden from this question. A claim keeps to its stretch of code,
so a course without the spans of its rules is the course of the empty table (`Course.delimited`),
which passes the same stretch character by character (`Course.through`). For the empty table every
offset is a barrier and severs what is claimed, since nothing is; so its classification of a part is
the clipped whole.
-/
namespace VSyntax

variable {rules : RuleTable} {d : Delimiters} {t : Text} {pos start stop q e : Nat} {l : List Span}

/-! ## Courses without rules -/

/-- Without rules a course passes the characters of code one by one. -/
theorem Course.through (code : d.CodeTo t stop pos e) (hq : pos ≤ q) (hqe : q ≤ e)
    (h : Course [] d t stop q l) : Course [] d t stop pos l := by
  induction hn : q - pos generalizing pos with
  | zero =>
    obtain rfl : pos = q := by omega
    exact h
  | succ n ih =>
    have hlt : pos < e := by omega
    refine .skip code hlt rfl ?_
    exact ih (code.mono (Nat.le_succ _) hlt) (by omega) (by omega)

/-- Without rules no claim crosses an offset. -/
theorem Barrier.empty : Barrier [] d t q := by
  intro p e s _ _ _ claimed
  cases claimed

/-- Without rules no claim depends on an offset. -/
theorem Severs.empty : Severs [] d t q := fun _ _ _ _ _ => rfl

/-! ## The delimited spans of a course -/

section

variable (hr : ∀ rule ∈ rules, rule.capturesBehind = false)
  (hcat : ∀ rule ∈ rules, rule.category.isDelimited = false) (hstop : stop ≤ t.size)

include hr hcat hstop

/-- The comments and strings that a course leaves are the course of the empty table. -/
theorem Course.delimited (h : Course rules d t stop pos l) :
    Course [] d t stop pos (l.filter fun s => s.category.isDelimited) := by
  induction h with
  | done hle => exact .done hle
  | skip code hlt unclaimed rest ih => exact .skip code hlt rfl ih
  | @claim pos e s l code hlt claimed rest ih =>
    obtain ⟨hfirst, hnonempty, hlast, rule, hrule, hof, -⟩ :=
      firstClaim?_eq_some hr hlt (Nat.le_trans code.le_stop hstop) claimed
    have hplain : s.category.isDelimited = false := hof ▸ hcat rule hrule
    rw [List.filter_cons_of_neg (by simp [hplain])]
    exact ih.through code (by omega) hlast
  | @region pos close category l hlt opens found rest ih =>
    obtain ⟨close', category', hfound, -, -, hdelimited⟩ :=
      Delimiters.regionAt_openerLimit opens hlt hstop
    rw [found] at hfound
    cases hfound
    rw [List.filter_cons_of_pos (by simpa using hdelimited)]
    exact .region hlt opens found ih

/-- The comments and strings of a classification are the classification of the empty table. -/
theorem Classified.delimited (h : Classified rules d t start stop l) :
    Classified [] d t start stop (l.filter fun s => s.category.isDelimited) := by
  cases h with
  | empty hle => exact .empty hle
  | outside hlt clear course => exact .outside hlt clear (course.delimited hr hcat hstop)
  | @inside close category l hlt inside course =>
    obtain ⟨o, -, opens, found, -⟩ := id inside
    have hdelimited := (Delimiters.regionAt_bounds opens found).2.2
    rw [List.filter_cons_of_pos (by simpa using hdelimited)]
    exact .inside hlt inside (course.delimited hr hcat hstop)

end

/-! ## Parts -/

/-- The bounds of a region are in order. -/
theorem Region.bounds_le (region : Option Region) (size : Nat) :
    (Region.bounds region size).1 ≤ (Region.bounds region size).2 := by
  cases region with
  | none => exact Nat.zero_le _
  | some r => exact Nat.le_max_left _ _

/-- **A part has the comments and strings of the whole, clipped.** For every text and every region,
all marks with a terminator of comments no longer than the opener, and every compiled table that
captures nothing behind and gives no delimited category: both classifications are answered, and the
comments and strings of the region are those of the whole text, each intersected with the bounds of
the region and the empty ones dropped. -/
theorem classify_delimited_part {host : Regex.Host} {layout : Layout} {classes : List WordClass}
    (hl : layout.capturesBehind host = false) (hc : layout.compile host classes = .ok rules)
    (hcat : ∀ rule ∈ rules, rule.category.isDelimited = false)
    (hterm : d.commentTerminator.length ≤ d.commentOpener.length) (t : Text)
    (region : Option Region) :
    ∃ spans part, classify rules d t none = .ok spans ∧ classify rules d t region = .ok part ∧
      (part.filter fun s => s.category.isDelimited) =
        (spans.filter fun s => s.category.isDelimited).filterMap
          (Span.clip (Region.bounds region t.size).1 (Region.bounds region t.size).2) := by
  have hr := Layout.not_capturesBehind_of_compile hl hc
  have hstop := Region.bounds_snd_le region t.size
  have hbounds := Region.bounds_le region t.size
  obtain ⟨spans, hrun, hwhole⟩ :=
    classifyWithin_classified (d := d) 0 hr (Nat.le_refl t.size)
  obtain ⟨part, hrun', hpart⟩ :=
    classifyWithin_classified (d := d) (Region.bounds region t.size).1 hr hstop
  refine ⟨spans, part, hrun, hrun', ?_⟩
  have hclip := (hwhole.delimited hr hcat (Nat.le_refl _)).clip
    (fun _ hrule => absurd hrule List.not_mem_nil) hterm .empty .empty hbounds hstop
  exact (hpart.delimited hr hcat hstop).unique hclip

/-- The theorem holds of a real table, for a region that begins inside an opener of comments and ends
inside an escape pair. -/
theorem classify_delimited_part_split :
    Layout.capturesBehind [.shape ⟨"mark", "(a)", 1, .keyword⟩] .standard = false ∧
      ∃ rules spans part,
        Layout.compile [.shape ⟨"mark", "(a)", 1, .keyword⟩] .standard [] = .ok rules ∧
        (∀ rule ∈ rules, rule.category.isDelimited = false) ∧
        classify rules .standard (Text.ofString "a//b\n'\\''a") none = .ok spans ∧
        classify rules .standard (Text.ofString "a//b\n'\\''a") (some ⟨2, 7⟩) = .ok part ∧
        (part.filter fun s => s.category.isDelimited) =
          (spans.filter fun s => s.category.isDelimited).filterMap (Span.clip 2 7) := by
  have hl : Layout.capturesBehind [.shape ⟨"mark", "(a)", 1, .keyword⟩] .standard = false := by
    decide +kernel
  have hc : Layout.compile [.shape ⟨"mark", "(a)", 1, .keyword⟩] .standard [] =
      .ok [.shape "mark" .keyword ⟨.group 1 (.char 97), 1⟩ 1] := by
    rfl
  have hcat : ∀ rule ∈ [Rule.shape "mark" .keyword ⟨.group 1 (.char 97), 1⟩ 1],
      rule.category.isDelimited = false := by
    decide
  obtain ⟨spans, part, hrun, hrun', hsame⟩ := classify_delimited_part (d := .standard) hl hc hcat
    (by decide) (Text.ofString "a//b\n'\\''a") (some ⟨2, 7⟩)
  exact ⟨hl, _, spans, part, hc, hcat, hrun, hrun', hsame⟩

end VSyntax
