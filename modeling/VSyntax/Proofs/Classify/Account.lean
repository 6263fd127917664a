import VSyntax.Proofs.Classify.Segmentation

/-!
# The account of a classification

What becomes of every offset of a text, and where every span comes from (`Account`). The spans are
the comments and strings of the text and, in the code between them, what the rules claim; an offset
lies in a comment or string, or a claim that was made at it or before it has passed it, or nothing
is claimed there. Each step of a course accounts for the offsets that it passes, so a course through
the whole text has an account (`Course.account`), and a statement about every classification needs
to be shown of single claims only.

The stretches of code are told from the comments and strings alone (`IsGap`); a claim is made in one
of them, whose end is the end of the code for it (`Segmentation.exists_gap`).
-/
namespace VSyntax

variable {rules : RuleTable} {d : Delimiters} {t : Text} {lo pos p e x a b : Nat} {s : Span}
  {l regions : List Span}

/-! ## Accounts -/

/-- At an offset of code that goes up to `e` the rules claim a span first. -/
structure Claims (rules : RuleTable) (d : Delimiters) (t : Text) (p e : Nat) (s : Span) :
    Prop where
  lt : p < e
  code : d.CodeTo t t.size p e
  claimed : firstClaim? d t p e rules = .ok (some s)

/-- From `lo` on, beside the comments and strings, the rules claim a span first. -/
structure ClaimsBeside (rules : RuleTable) (d : Delimiters) (t : Text) (lo : Nat)
    (regions : List Span) (p e : Nat) (s : Span) : Prop extends Claims rules d t p e s where
  start_le : lo ≤ p
  beside : ∀ r ∈ regions, r.stop ≤ p ∨ e ≤ r.start

/-- At an offset of code that goes up to `e` the rules claim nothing. -/
structure Unclaimed (rules : RuleTable) (d : Delimiters) (t : Text) (p e : Nat) : Prop where
  lt : p < e
  code : d.CodeTo t t.size p e
  unclaimed : firstClaim? d t p e rules = .ok none

/-- The spans of the text from `lo` on, accounted for: they are the comments and strings and the
claims in the code beside them, and an offset is in one of the first, passed by one of the second,
or left alone. -/
structure Account (rules : RuleTable) (d : Delimiters) (t : Text) (lo : Nat) (l : List Span)
    (regions : List Span) : Prop where
  segmentation : Segmentation d t lo regions
  kept : ∀ r ∈ regions, r ∈ l
  origin : ∀ s ∈ l, s ∈ regions ∨ ∃ p e, ClaimsBeside rules d t lo regions p e s
  passed : ∀ x, lo ≤ x → x < t.size → (∃ r ∈ regions, r.start ≤ x ∧ x < r.stop) ∨
    (∃ e, Unclaimed rules d t x e) ∨
    ∃ p e, ∃ s ∈ l, ClaimsBeside rules d t lo regions p e s ∧ p ≤ x ∧ x < s.stop

namespace ClaimsBeside

theorem mono (h : ClaimsBeside rules d t lo regions p e s) (hle : pos ≤ lo) :
    ClaimsBeside rules d t pos regions p e s :=
  ⟨h.toClaims, Nat.le_trans hle h.start_le, h.beside⟩

/-- What is claimed after a comment or string is claimed beside it. -/
theorem cons {r : Span} (h : ClaimsBeside rules d t r.stop regions p e s) (hr : d.IsRegion t r) :
    ClaimsBeside rules d t r.start (r :: regions) p e s where
  toClaims := h.toClaims
  start_le := Nat.le_trans (Nat.le_of_lt hr.lt) h.start_le
  beside r' hr' := by
    rcases List.mem_cons.mp hr' with rfl | hr'
    · exact .inl h.start_le
    · exact h.beside r' hr'

end ClaimsBeside

namespace Account

theorem nil (h : t.size ≤ lo) : Account rules d t lo [] [] where
  segmentation := ⟨fun r hr => absurd hr List.not_mem_nil, .nil,
    fun r hr => absurd hr List.not_mem_nil, fun o ho hopens => by
      have := hopens.lt_size
      omega⟩
  kept r hr := absurd hr List.not_mem_nil
  origin s hs := absurd hs List.not_mem_nil
  passed x hx hlt := absurd hlt (by omega)

/-- A character that nothing claims in front of what is accounted for. -/
theorem skip (h : Account rules d t (lo + 1) l regions) (hskip : Unclaimed rules d t lo e) :
    Account rules d t lo l regions where
  segmentation := h.segmentation.mono (Nat.le_succ lo) fun i hi hie =>
    hskip.code.quiet i hi (Nat.lt_of_lt_of_le hie hskip.lt)
  kept := h.kept
  origin s hs := by
    rcases h.origin s hs with hmem | ⟨p, e, hclaim⟩
    · exact .inl hmem
    · exact .inr ⟨p, e, hclaim.mono (Nat.le_succ lo)⟩
  passed x hx hsize := by
    rcases Nat.eq_or_lt_of_le hx with rfl | hlater
    · exact .inr (.inl ⟨e, hskip⟩)
    · rcases h.passed x hlater hsize with hin | hskip | ⟨p, e, s, hs, hclaim, hrest⟩
      · exact .inl hin
      · exact .inr (.inl hskip)
      · exact .inr (.inr ⟨p, e, s, hs, hclaim.mono (Nat.le_succ lo), hrest⟩)

/-- A claim in front of what is accounted for. -/
theorem claim (hr : ∀ rule ∈ rules, rule.capturesBehind = false)
    (h : Account rules d t s.stop l regions) (hclaim : Claims rules d t lo e s) :
    Account rules d t lo (s :: l) regions := by
  have code := hclaim.code
  obtain ⟨hfirst, hnonempty, hlast, -⟩ :=
    firstClaim?_eq_some hr hclaim.lt code.le_stop hclaim.claimed
  have hle : lo ≤ s.stop := by omega
  have hseg : Segmentation d t lo regions :=
    h.segmentation.mono hle fun i hi his => code.quiet i hi (by omega)
  have hmade : ClaimsBeside rules d t lo regions lo e s := by
    refine ⟨hclaim, Nat.le_refl lo, fun r hr => .inr (Nat.le_of_not_lt fun hin => ?_)⟩
    exact code.quiet r.start (hseg.after r hr) hin (hseg.regions r hr).opens
  refine ⟨hseg, fun r hr => List.mem_cons_of_mem s (h.kept r hr), fun s' hs' => ?_,
    fun x hx hsize => ?_⟩
  · rcases List.mem_cons.mp hs' with rfl | hs'
    · exact .inr ⟨lo, e, hmade⟩
    · rcases h.origin s' hs' with hmem | ⟨p, e', hclaim'⟩
      · exact .inl hmem
      · exact .inr ⟨p, e', hclaim'.mono hle⟩
  · rcases Nat.lt_or_ge x s.stop with hin | hlater
    · exact .inr (.inr ⟨lo, e, s, List.mem_cons_self, hmade, hx, hin⟩)
    · rcases h.passed x hlater hsize with hin | hskip | ⟨p, e', s', hs', hclaim', hrest⟩
      · exact .inl hin
      · exact .inr (.inl hskip)
      · exact .inr (.inr ⟨p, e', s', List.mem_cons_of_mem s hs', hclaim'.mono hle, hrest⟩)

/-- A comment or string in front of what is accounted for. -/
theorem region (h : Account rules d t s.stop l regions) (hs : d.IsRegion t s) :
    Account rules d t s.start (s :: l) (s :: regions) where
  segmentation := h.segmentation.cons hs
  kept r hr := by
    rcases List.mem_cons.mp hr with rfl | hr
    · exact List.mem_cons_self
    · exact List.mem_cons_of_mem s (h.kept r hr)
  origin s' hs' := by
    rcases List.mem_cons.mp hs' with rfl | hs'
    · exact .inl List.mem_cons_self
    · rcases h.origin s' hs' with hmem | ⟨p, e, hclaim⟩
      · exact .inl (List.mem_cons_of_mem s hmem)
      · exact .inr ⟨p, e, hclaim.cons hs⟩
  passed x hx hsize := by
    rcases Nat.lt_or_ge x s.stop with hin | hlater
    · exact .inl ⟨s, List.mem_cons_self, hx, hin⟩
    · rcases h.passed x hlater hsize with ⟨r, hr, hin⟩ | hskip | ⟨p, e, s', hs', hclaim, hrest⟩
      · exact .inl ⟨r, List.mem_cons_of_mem s hr, hin⟩
      · exact .inr (.inl hskip)
      · exact .inr (.inr ⟨p, e, s', List.mem_cons_of_mem s hs', hclaim.cons hs, hrest⟩)

end Account

/-- A course through the whole text has an account. -/
theorem Course.account (hr : ∀ rule ∈ rules, rule.capturesBehind = false)
    (h : Course rules d t t.size pos l) : ∃ regions, Account rules d t pos l regions := by
  induction h with
  | done hle => exact ⟨[], .nil hle⟩
  | skip code hlt unclaimed rest ih =>
    obtain ⟨regions, acc⟩ := ih
    exact ⟨regions, acc.skip ⟨hlt, code, unclaimed⟩⟩
  | claim code hlt claimed rest ih =>
    obtain ⟨regions, acc⟩ := ih
    exact ⟨regions, acc.claim hr ⟨hlt, code, claimed⟩⟩
  | @region pos close category l hlt opens found rest ih =>
    rw [openerLimit_size] at found
    have hclose := (Delimiters.regionAt_bounds opens found).2.1
    rw [Nat.min_eq_left hclose] at ih ⊢
    obtain ⟨regions, acc⟩ := ih
    have hregion := Delimiters.isRegion_of_regionAt opens found
    exact ⟨_, Account.region (s := ⟨pos, close, category⟩) acc hregion⟩

/-- Every text is classified by a course. -/
theorem exists_course (hr : ∀ rule ∈ rules, rule.capturesBehind = false) (d : Delimiters)
    (t : Text) :
    ∃ spans, classify rules d t none = .ok spans ∧ OrderedSpans 0 t.size spans ∧
      Course rules d t t.size 0 spans := by
  obtain ⟨spans, hrun, hwhole⟩ :=
    classifyWithin_classified (d := d) 0 hr (Nat.le_refl t.size)
  exact ⟨spans, hrun, hwhole.ordered hr (Nat.le_refl _), hwhole.course⟩

/-- The classification of a text has an account. -/
theorem exists_account (hr : ∀ rule ∈ rules, rule.capturesBehind = false) (d : Delimiters)
    (t : Text) :
    ∃ spans regions, classify rules d t none = .ok spans ∧ OrderedSpans 0 t.size spans ∧
      Account rules d t 0 spans regions := by
  obtain ⟨spans, hrun, hordered, hcourse⟩ := exists_course hr d t
  obtain ⟨regions, acc⟩ := hcourse.account hr
  exact ⟨spans, regions, hrun, hordered, acc⟩

/-- If the rules leave the categories of comments and strings alone, the account is by the spans of
these categories. -/
theorem exists_account_filter (hr : ∀ rule ∈ rules, rule.capturesBehind = false)
    (hcat : ∀ rule ∈ rules, rule.category.isDelimited = false) (d : Delimiters) (t : Text) :
    ∃ spans, classify rules d t none = .ok spans ∧ OrderedSpans 0 t.size spans ∧
      Account rules d t 0 spans (spans.filter fun s => s.category.isDelimited) := by
  obtain ⟨spans, hrun, hordered, hcourse⟩ := exists_course hr d t
  obtain ⟨regions, acc⟩ := hcourse.account hr
  have hsame := acc.segmentation.unique (hcourse.segmentation hr hcat)
  exact ⟨spans, hrun, hordered, hsame ▸ acc⟩

/-! ## Stretches of code -/

/-- The text from `a` up to `b` is a whole stretch between comments and strings. -/
structure IsGap (regions : List Span) (size a b : Nat) : Prop where
  le : a ≤ b
  free : ∀ r ∈ regions, r.stop ≤ a ∨ b ≤ r.start
  front : a = 0 ∨ ∃ r ∈ regions, r.stop = a
  back : b = size ∨ ∃ r ∈ regions, r.start = b

/-- An offset stands outside the comments and strings among spans. -/
def Outside (l : List Span) (x : Nat) : Prop :=
  ∀ s ∈ l, s.category.isDelimited = true → s.stop ≤ x ∨ x < s.start

/-- An offset stands outside the comments and strings among spans, and the stretch of code that it
stands in goes up to `b`. -/
def CodeAround (l : List Span) (size x b : Nat) : Prop :=
  ∃ a, IsGap (l.filter fun s => s.category.isDelimited) size a b ∧ a ≤ x ∧ x < b

theorem CodeAround.lt {size : Nat} (h : CodeAround l size x b) : x < b := by
  obtain ⟨-, -, -, hlt⟩ := h
  exact hlt

theorem CodeAround.outside {size : Nat} (h : CodeAround l size x b) : Outside l x := by
  obtain ⟨a, hgap, ha, hb⟩ := h
  intro s hs hdelimited
  rcases hgap.free s (List.mem_filter.mpr ⟨hs, hdelimited⟩) with hbefore | hafter
  · exact .inl (Nat.le_trans hbefore ha)
  · exact .inr (Nat.lt_of_lt_of_le hb hafter)

namespace Segmentation

/-- Between the comments and strings there is code. -/
theorem codeTo (h : Segmentation d t 0 regions) (hgap : IsGap regions t.size a b) :
    d.CodeTo t t.size a b where
  start_le := hgap.le
  le_stop := by
    rcases hgap.back with rfl | ⟨r, hr, rfl⟩
    · exact Nat.le_refl _
    · exact Nat.le_of_lt (h.regions r hr).opens.lt_size
  quiet i hi hib hopens := by
    obtain ⟨r, hr, hle, hlt⟩ := h.covers i (Nat.zero_le i) hopens
    rcases hgap.free r hr with hbefore | hafter
    · omega
    · omega
  opens hb := by
    rcases hgap.back with rfl | ⟨r, hr, rfl⟩
    · exact absurd hb (Nat.lt_irrefl _)
    · exact (h.regions r hr).opens

/-- An offset beside the comments and strings has a last one in front of it, or none. -/
theorem exists_front (h : Segmentation d t 0 regions)
    (hout : ∀ r ∈ regions, r.stop ≤ x ∨ x < r.start) :
    ∃ a, a ≤ x ∧ (a = 0 ∨ ∃ r ∈ regions, r.stop = a) ∧ ∀ r ∈ regions, r.stop ≤ a ∨ x < r.start := by
  induction x with
  | zero => exact ⟨0, Nat.le_refl 0, .inl rfl, hout⟩
  | succ x ih =>
    by_cases hends : ∃ r ∈ regions, r.stop = x + 1
    · exact ⟨x + 1, Nat.le_refl _, .inr hends, hout⟩
    · have hbeside : ∀ r ∈ regions, r.stop ≤ x ∨ x + 1 < r.start := by
        intro r hr
        have hne : r.stop ≠ x + 1 := fun heq => hends ⟨r, hr, heq⟩
        have := hout r hr
        omega
      obtain ⟨a, hle, hfront, hfree⟩ := ih fun r hr => (hbeside r hr).imp id Nat.lt_of_succ_lt
      refine ⟨a, Nat.le_succ_of_le hle, hfront, fun r hr => ?_⟩
      have hlt := (h.regions r hr).lt
      have := hfree r hr
      have := hbeside r hr
      omega

/-- What stands beside the comments and strings stands in a stretch of code, which goes on as far as
the code does. -/
theorem exists_gap (h : Segmentation d t 0 regions) (hlt : p < e)
    (code : d.CodeTo t t.size p e) (hapart : ∀ r ∈ regions, r.stop ≤ p ∨ e ≤ r.start) :
    ∃ a, a ≤ p ∧ IsGap regions t.size a e := by
  obtain ⟨a, hle, hfront, hfree⟩ := h.exists_front fun r hr =>
    (hapart r hr).imp id (Nat.lt_of_lt_of_le hlt)
  refine ⟨a, hle, Nat.le_trans hle code.start_le, fun r hr => ?_, hfront, ?_⟩
  · have hregion := (h.regions r hr).lt
    have := hfree r hr
    have := hapart r hr
    omega
  · rcases Nat.eq_or_lt_of_le code.le_stop with heq | hend
    · exact .inl heq
    · obtain ⟨r, hr, hstart, hstop⟩ := h.covers e (Nat.zero_le e) (code.opens hend)
      have := hapart r hr
      exact .inr ⟨r, hr, by omega⟩

/-- The code around an offset goes up to the next comment or string. -/
theorem codeTo_around (h : Segmentation d t 0 (l.filter fun s => s.category.isDelimited))
    (hcode : CodeAround l t.size x b) : d.CodeTo t t.size x b := by
  obtain ⟨a, hgap, ha, hb⟩ := hcode
  exact (h.codeTo hgap).mono ha (Nat.le_of_lt hb)

/-- Every offset outside the comments and strings stands in a stretch of code. -/
theorem exists_codeAround (h : Segmentation d t 0 (l.filter fun s => s.category.isDelimited))
    (hx : x < t.size) (hout : Outside l x) : ∃ b, CodeAround l t.size x b := by
  obtain ⟨o, -, code⟩ := Delimiters.nextOpening_codeTo (d := d) (Nat.le_of_lt hx) (Nat.le_refl _)
  have hbeside : ∀ r ∈ l.filter fun s => s.category.isDelimited, r.stop ≤ x ∨ x < r.start :=
    fun r hr => hout r (List.mem_filter.mp hr).1 (List.mem_filter.mp hr).2
  have hlt : x < min o t.size := by
    apply Nat.lt_of_le_of_ne code.start_le
    intro heq
    -- something would open at the offset, and it is covered
    obtain ⟨r, hr, hin⟩ := h.covers x (Nat.zero_le x) (heq ▸ code.opens (heq ▸ hx))
    have := hbeside r hr
    omega
  have hapart : ∀ r ∈ l.filter fun s => s.category.isDelimited,
      r.stop ≤ x ∨ min o t.size ≤ r.start := by
    intro r hr
    refine (hbeside r hr).imp id fun hafter => Nat.le_of_not_lt fun hin => ?_
    exact code.quiet r.start (Nat.le_of_lt hafter) hin (h.regions r hr).opens
  obtain ⟨a, hle, hgap⟩ := h.exists_gap hlt code hapart
  exact ⟨_, a, hgap, hle, hlt⟩

end Segmentation

namespace Account

/-- What is claimed beside the comments and strings is claimed in a stretch of code. -/
theorem exists_gap (h : Account rules d t 0 l regions)
    (hclaim : ClaimsBeside rules d t 0 regions p e s) : ∃ a, a ≤ p ∧ IsGap regions t.size a e :=
  h.segmentation.exists_gap hclaim.lt hclaim.code hclaim.beside

/-- A span that is no comment or string is claimed in a stretch of code. -/
theorem exists_claim (h : Account rules d t 0 l (l.filter fun s => s.category.isDelimited))
    (hs : s ∈ l) (hplain : s.category.isDelimited = false) :
    ∃ p b, Claims rules d t p b s ∧ CodeAround l t.size p b := by
  rcases h.origin s hs with hregion | ⟨p, e, hclaim⟩
  · have hdelimited := (List.mem_filter.mp hregion).2
    rw [hplain] at hdelimited
    cases hdelimited
  · obtain ⟨a, hle, hgap⟩ := h.exists_gap hclaim
    exact ⟨p, e, hclaim.toClaims, a, hgap, hle, hclaim.lt⟩

/-- An offset of code at which the rules claim something is passed by a claim, which is made in the
same stretch of code. -/
theorem exists_passing (hr : ∀ rule ∈ rules, rule.capturesBehind = false)
    (h : Account rules d t 0 l regions) (hgap : IsGap regions t.size a b) (ha : a ≤ x) (hb : x < b)
    (hclaim : ∃ s, firstClaim? d t x b rules = .ok (some s)) :
    ∃ p, ∃ s ∈ l, Claims rules d t p b s ∧ a ≤ p ∧ p ≤ x ∧ x < s.stop := by
  have code := (h.segmentation.codeTo hgap).mono ha (Nat.le_of_lt hb)
  have hsize := code.le_stop
  rcases h.passed x (Nat.zero_le x) (by omega) with ⟨r, hr, hin⟩ | ⟨e, hskip⟩ |
    ⟨p, e, s, hs, hpass, hle, hlt⟩
  · rcases hgap.free r hr with hbefore | hafter
    · omega
    · omega
  · obtain ⟨s, hs⟩ := hclaim
    have hnone := hskip.unclaimed
    rw [hskip.code.unique code, hs] at hnone
    cases hnone
  · obtain ⟨-, -, hend, -⟩ := firstClaim?_eq_some hr hpass.lt hpass.code.le_stop hpass.claimed
    obtain rfl := (hpass.code.mono hle (by omega)).unique code
    refine ⟨p, s, hs, hpass.toClaims, ?_, hle, hlt⟩
    rcases hgap.front with rfl | ⟨r, hr, rfl⟩
    · exact Nat.zero_le p
    · -- the comment or string in front of the stretch is in front of the claim
      have := (h.segmentation.regions r hr).lt
      have := hpass.beside r hr
      omega

theorem exists_passing_around (hr : ∀ rule ∈ rules, rule.capturesBehind = false)
    (h : Account rules d t 0 l (l.filter fun s => s.category.isDelimited))
    (hcode : CodeAround l t.size x b) (hclaim : ∃ s, firstClaim? d t x b rules = .ok (some s)) :
    ∃ p, ∃ s ∈ l, Claims rules d t p b s ∧ CodeAround l t.size p b ∧ p ≤ x ∧ x < s.stop := by
  obtain ⟨a, hgap, ha, hb⟩ := hcode
  obtain ⟨p, s, hs, hpass, hap, hrest⟩ := h.exists_passing hr hgap ha hb hclaim
  exact ⟨p, s, hs, hpass, ⟨a, hgap, hap, hpass.lt⟩, hrest⟩

end Account

end VSyntax
