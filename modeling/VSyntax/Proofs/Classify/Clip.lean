import VSyntax.Proofs.Classify.Order

/-!
# Parts of a classified text

When the classification of a part of a text is the classification of the whole text, clipped to the
part. Two things are asked of the offsets where the part begins and ends. At its start no claim of
the whole text crosses (`Barrier`): then the walk through the whole text meets the start, or passes
it inside a comment or string (`Course.visit`). At its end the claims before it do not depend on the
text after it (`Severs`): then the walk through the part makes the same steps (`Course.cut`).
`Classified.clip` puts the two together.
-/
namespace VSyntax

variable {rules : RuleTable} {d : Delimiters} {t : Text} {pos start stop a b q : Nat}
  {l : List Span}

/-! ## Classifications are determined -/

/-- An offset lies inside one comment or string at most. -/
theorem Delimiters.Inside.unique {close close' : Nat} {category category' : Category}
    (h : d.Inside t q close category) (h' : d.Inside t q close' category') :
    close = close' ∧ category = category' := by
  obtain ⟨o, ho, opens, found, hlt, hin⟩ := h
  obtain ⟨o', ho', opens', found', hlt', hin'⟩ := h'
  rcases Nat.lt_trichotomy o o' with hoo | rfl | hoo
  · have := ho.region_le ho' hoo opens found
    omega
  · rw [found] at found'
    cases found'
    exact ⟨rfl, rfl⟩
  · have := ho'.region_le ho hoo opens' found'
    omega

/-- Whatever the rules are, a region is empty, or its course begins at its start, or it begins with
the rest of one comment or string and its course at the end of that. -/
theorem Classified.alike {rules' : RuleTable} {l' : List Span}
    (h : Classified rules d t start stop l) (h' : Classified rules' d t start stop l') :
    (l = [] ∧ l' = []) ∨
      (Course rules d t stop start l ∧ Course rules' d t stop start l') ∨
      ∃ s close l₁ l₁', l = s :: l₁ ∧ l' = s :: l₁' ∧ Course rules d t stop close l₁ ∧
        Course rules' d t stop close l₁' := by
  cases h with
  | empty hle =>
    cases h' with
    | empty => exact .inl ⟨rfl, rfl⟩
    | outside hlt => omega
    | inside hlt => omega
  | outside hlt clear course =>
    cases h' with
    | empty hle => omega
    | outside _ _ course' => exact .inr (.inl ⟨course, course'⟩)
    | inside _ inside => exact absurd inside clear.not_inside
  | inside hlt inside course =>
    cases h' with
    | empty hle => omega
    | outside _ clear => exact absurd inside clear.not_inside
    | inside _ inside' course' =>
      obtain ⟨rfl, rfl⟩ := inside.unique inside'
      exact .inr (.inr ⟨_, _, _, _, rfl, rfl, course, course'⟩)

/-- The text between two offsets has one classification. -/
theorem Classified.unique {l' : List Span} (h : Classified rules d t start stop l)
    (h' : Classified rules d t start stop l') : l = l' := by
  rcases h.alike h' with ⟨rfl, rfl⟩ | ⟨course, course'⟩ |
    ⟨s, close, l₁, l₁', rfl, rfl, course, course'⟩
  · rfl
  · exact course.unique course'
  · rw [course.unique course']

/-! ## Where parts begin and end -/

/-- No claim in the code of the whole text crosses the offset. -/
def Barrier (rules : RuleTable) (d : Delimiters) (t : Text) (q : Nat) : Prop :=
  ∀ p e s, p < q → p < e → d.CodeTo t t.size p e →
    firstClaim? d t p e rules = .ok (some s) → s.stop ≤ q

/-- What is claimed before the offset is the same if the code ends there. -/
def Severs (rules : RuleTable) (d : Delimiters) (t : Text) (b : Nat) : Prop :=
  ∀ p e, p < b → p < e → d.CodeTo t t.size p e →
    firstClaim? d t p (min e b) rules = firstClaim? d t p e rules

/-! ## The start of a part -/

variable (hr : ∀ rule ∈ rules, rule.capturesBehind = false)

include hr in
/-- The walk through the whole text meets a barrier, or passes it inside a comment or string. -/
theorem Course.visit (hbar : Barrier rules d t q) (h : Course rules d t t.size pos l)
    (hclear : d.Clear t pos) (hpos : pos ≤ q) (hq : q ≤ t.size) :
    (d.Clear t q ∧ ∃ l₁ l₂, l = l₁ ++ l₂ ∧ (∀ s ∈ l₁, s.stop ≤ q) ∧
      Course rules d t t.size q l₂) ∨
    ∃ o close category l₁ l₂, l = l₁ ++ ⟨o, close, category⟩ :: l₂ ∧ (∀ s ∈ l₁, s.stop ≤ q) ∧
      o < q ∧ q < close ∧ d.Clear t o ∧ d.Opens t o ∧
      d.regionAt t o t.size = .ok (some (close, category)) ∧ Course rules d t t.size close l₂ := by
  have hnil : ∀ s ∈ ([] : List Span), s.stop ≤ q := fun s hs => absurd hs List.not_mem_nil
  have hcons : ∀ {s : Span} {l₁ : List Span}, s.stop ≤ q → (∀ s' ∈ l₁, s'.stop ≤ q) →
      ∀ s' ∈ s :: l₁, s'.stop ≤ q := fun hs hl s' hs' => by
    rcases List.mem_cons.mp hs' with rfl | hs'
    · exact hs
    · exact hl s' hs'
  induction h with
  | @done pos hle =>
    obtain rfl : pos = q := by omega
    exact .inl ⟨hclear, [], [], rfl, hnil, .done hle⟩
  | @skip pos e l code hlt unclaimed rest ih =>
    rcases Nat.eq_or_lt_of_le hpos with rfl | hpos
    · exact .inl ⟨hclear, [], l, rfl, hnil, .skip code hlt unclaimed rest⟩
    · exact ih (hclear.code code (Nat.le_refl _) (Nat.le_succ _) hlt) hpos
  | @claim pos e s l code hlt claimed rest ih =>
    rcases Nat.eq_or_lt_of_le hpos with rfl | hpos
    · exact .inl ⟨hclear, [], s :: l, rfl, hnil, .claim code hlt claimed rest⟩
    · obtain ⟨hfirst, hnonempty, hlast, -⟩ := firstClaim?_eq_some hr hlt code.le_stop claimed
      have hstop := hbar pos e s hpos hlt code claimed
      have hafter := hclear.code code (Nat.le_refl _) (by omega) hlast
      rcases ih hafter hstop with ⟨hq, l₁, l₂, rfl, hl, hcourse⟩ |
        ⟨o, close, category, l₁, l₂, rfl, hl, hinside⟩
      · exact .inl ⟨hq, s :: l₁, l₂, rfl, hcons hstop hl, hcourse⟩
      · exact .inr ⟨o, close, category, s :: l₁, l₂, rfl, hcons hstop hl, hinside⟩
  | @region pos close category l hlt opens found rest ih =>
    rcases Nat.eq_or_lt_of_le hpos with rfl | hpos
    · exact .inl ⟨hclear, [], _, rfl, hnil, .region hlt opens found rest⟩
    · rw [openerLimit_size] at found
      have hclose := (Delimiters.regionAt_bounds opens found).2.1
      rw [Nat.min_eq_left hclose] at rest ih ⊢
      rcases Nat.lt_or_ge q close with hin | hout
      · exact .inr ⟨pos, close, category, [], l, rfl, hnil, hpos, hin, hclear, opens, found, rest⟩
      · rcases ih (hclear.region opens found) hout with ⟨hq, l₁, l₂, rfl, hl, hcourse⟩ |
          ⟨o, close', category', l₁, l₂, rfl, hl, hinside⟩
        · exact .inl ⟨hq, _ :: l₁, l₂, rfl, hcons hout hl, hcourse⟩
        · exact .inr ⟨o, close', category', _ :: l₁, l₂, rfl, hcons hout hl, hinside⟩

/-! ## The end of a part -/

namespace Span

variable {s : Span}

/-- A span that begins in the part is cut at its end. -/
theorem clip_of_start (ha : a ≤ s.start) (hs : s.start < s.stop) (hb : s.start < b) :
    s.clip a b = some ⟨s.start, min s.stop b, s.category⟩ := by
  rw [clip, Nat.max_eq_left ha, if_pos (Nat.lt_min.mpr ⟨hs, hb⟩)]

theorem clip_of_le (h : s.stop ≤ a) : s.clip a b = none := by
  rw [clip, if_neg (by omega)]

theorem clip_of_ge (h : b ≤ s.start) : s.clip a b = none := by
  rw [clip, if_neg (by omega)]

end Span

include hr in
/-- The walk through the text up to an offset that severs what is claimed makes the same steps, and
its last span is cut there. -/
theorem Course.cut (hterm : d.commentTerminator.length ≤ d.commentOpener.length)
    (hsev : Severs rules d t b) (hb : b ≤ t.size) (h : Course rules d t t.size pos l)
    (ha : a ≤ pos) : Course rules d t b pos (l.filterMap (Span.clip a b)) := by
  -- from the end of the part on nothing is left of the spans
  have hnone : ∀ {pos l}, Course rules d t t.size pos l → b ≤ pos →
      l.filterMap (Span.clip a b) = [] := by
    intro pos l h hle
    rw [List.filterMap_eq_nil_iff]
    intro s hs
    exact Span.clip_of_ge (Nat.le_trans hle ((h.ordered hr (Nat.le_refl _)).between s hs).1)
  have hbeyond : ∀ {pos l}, Course rules d t t.size pos l → b ≤ pos →
      Course rules d t b pos (l.filterMap (Span.clip a b)) := by
    intro pos l h hle
    rw [hnone h hle]
    exact .done hle
  induction h with
  | @done pos hle => exact hbeyond (.done hle) (Nat.le_trans hb hle)
  | @skip pos e l code hlt unclaimed rest ih =>
    rcases Nat.lt_or_ge pos b with hpos | hpos
    · refine .skip (code.cut (Nat.le_of_lt hpos) hb) (Nat.lt_min.mpr ⟨hlt, hpos⟩) ?_
        (ih (Nat.le_succ_of_le ha))
      rw [hsev pos e hpos hlt code, unclaimed]
    · exact hbeyond (.skip code hlt unclaimed rest) hpos
  | @claim pos e s l code hlt claimed rest ih =>
    rcases Nat.lt_or_ge pos b with hpos | hpos
    · have hsame := hsev pos e hpos hlt code
      rw [claimed] at hsame
      have hcut : pos < min e b := Nat.lt_min.mpr ⟨hlt, hpos⟩
      have hsize : min e b ≤ t.size := Nat.le_trans (Nat.min_le_right _ _) hb
      obtain ⟨hfirst, hnonempty, hlast, -⟩ := firstClaim?_eq_some hr hcut hsize hsame
      have hend : s.stop ≤ b := Nat.le_trans hlast (Nat.min_le_right _ _)
      have hclip : s.clip a b = some s := by
        rw [Span.clip_of_start (by omega) hnonempty (by omega), Nat.min_eq_left hend]
      rw [List.filterMap_cons_some hclip]
      exact .claim (code.cut (Nat.le_of_lt hpos) hb) hcut hsame (ih (by omega))
    · exact hbeyond (.claim code hlt claimed rest) hpos
  | @region pos close category l hlt opens found rest ih =>
    rcases Nat.lt_or_ge pos b with hpos | hpos
    · have hwhole := found
      rw [openerLimit_size] at hwhole
      obtain ⟨hlater, hclose, -⟩ := Delimiters.regionAt_bounds opens hwhole
      obtain ⟨close', hcut, hmin⟩ := Delimiters.regionAt_cut hterm opens hpos hb hwhole
      rw [Nat.min_eq_left hclose] at rest ih ⊢
      have hclip : Span.clip a b ⟨pos, close, category⟩ = some ⟨pos, min close' b, category⟩ := by
        rw [Span.clip_of_start ha hlater hpos, hmin]
      rw [List.filterMap_cons_some hclip]
      refine .region hpos opens hcut ?_
      rw [hmin]
      rcases Nat.le_total close b with hin | hout
      · rw [Nat.min_eq_left hin]
        exact ih (by omega)
      · rw [Nat.min_eq_right hout, hnone rest hout]
        exact .done (Nat.le_refl _)
    · exact hbeyond (.region hlt opens found rest) hpos

/-! ## Where something opens -/

include hr in
/-- No claim crosses the opener of a comment or string. -/
theorem Barrier.of_opens (h : d.Opens t q) : Barrier rules d t q := by
  intro p e s hp hpe code claimed
  have hlast := (firstClaim?_eq_some hr hpe code.le_stop claimed).2.2.1
  apply Nat.le_trans hlast
  apply Nat.le_of_not_lt
  intro hlt
  exact code.quiet q (Nat.le_of_lt hp) hlt h

/-- What is claimed before the opener of a comment or string does not depend on what follows. -/
theorem Severs.of_opens (h : d.Opens t b) : Severs rules d t b := by
  intro p e hp hpe code
  have hle : e ≤ b := Nat.le_of_not_lt fun hlt => code.quiet b (Nat.le_of_lt hp) hlt h
  rw [Nat.min_eq_left hle]

include hr in
/-- Where something opens outside comments and strings, the course of the text falls in two. -/
theorem Course.split (hterm : d.commentTerminator.length ≤ d.commentOpener.length)
    (h : Course rules d t t.size 0 l) (hclear : d.Clear t q) (hopens : d.Opens t q) :
    ∃ l₁ l₂, l = l₁ ++ l₂ ∧ Course rules d t q 0 l₁ ∧ Course rules d t t.size q l₂ := by
  have hq : q ≤ t.size := Nat.le_of_lt hopens.lt_size
  rcases h.visit hr (.of_opens hr hopens) .start (Nat.zero_le q) hq with
    ⟨-, l₁, l₂, rfl, hl, hrest⟩ | ⟨o, close, category, l₁, l₂, -, -, ho, hclose, hinside⟩
  · have hordered := h.ordered hr (Nat.le_refl _)
    have hfront := h.cut hr hterm (.of_opens hopens) hq (Nat.le_refl 0)
    have hkept : l₁.filterMap (Span.clip 0 q) = l₁ := by
      rw [List.filterMap_congr (g := some), List.filterMap_some]
      intro s hs
      have hnonempty := hordered.nonempty s (List.mem_append_left l₂ hs)
      have hstop := hl s hs
      rw [Span.clip_of_start (Nat.zero_le _) hnonempty (by omega), Nat.min_eq_left hstop]
    have hdropped : l₂.filterMap (Span.clip 0 q) = [] := by
      rw [List.filterMap_eq_nil_iff]
      intro s hs
      exact Span.clip_of_ge ((hrest.ordered hr (Nat.le_refl _)).between s hs).1
    rw [List.filterMap_append, hkept, hdropped, List.append_nil] at hfront
    exact ⟨l₁, l₂, rfl, hfront, hrest⟩
  · obtain ⟨hclear', hopens', hfound, -⟩ := hinside
    exact absurd ⟨o, hclear', hopens', hfound, ho, hclose⟩ hclear.not_inside

include hr in
/-- The classification of a text falls in two around a comment or string. -/
theorem classify_around (hterm : d.commentTerminator.length ≤ d.commentOpener.length)
    (hclear : d.Clear t q) (hopens : d.Opens t q) {close : Nat} {category : Category}
    (found : d.regionAt t q t.size = .ok (some (close, category))) :
    ∃ l₁ l₂, classify rules d t none = .ok (l₁ ++ ⟨q, close, category⟩ :: l₂) ∧
      Course rules d t q 0 l₁ ∧ Course rules d t t.size close l₂ := by
  obtain ⟨l, hrun, hwhole⟩ := classifyWithin_classified (d := d) 0 hr (Nat.le_refl t.size)
  obtain ⟨l₁, l₂, rfl, hfront, hrest⟩ := hwhole.course.split hr hterm hclear hopens
  obtain ⟨l₃, rfl, hafter⟩ := hrest.opened hopens found
  exact ⟨l₁, l₃, hrun, hfront, hafter⟩

/-! ## Parts -/

include hr in
/-- **A part is the whole, clipped.** Between a barrier and an offset that severs what is claimed,
the classification is that of the whole text, each span intersected with the part. -/
theorem Classified.clip (hterm : d.commentTerminator.length ≤ d.commentOpener.length)
    (hbar : Barrier rules d t a) (hsev : Severs rules d t b) (hab : a ≤ b) (hb : b ≤ t.size)
    (h : Classified rules d t 0 t.size l) :
    Classified rules d t a b (l.filterMap (Span.clip a b)) := by
  have hcourse := h.course
  have hbefore : ∀ {l₁ : List Span}, (∀ s ∈ l₁, s.stop ≤ a) →
      l₁.filterMap (Span.clip a b) = [] := by
    intro l₁ hl
    rw [List.filterMap_eq_nil_iff]
    exact fun s hs => Span.clip_of_le (hl s hs)
  rcases Nat.eq_or_lt_of_le hab with rfl | hlt
  · have hnone : l.filterMap (Span.clip a a) = [] := by
      rw [List.filterMap_eq_nil_iff]
      intro s hs
      rw [Span.clip, if_neg (by omega)]
    rw [hnone]
    exact .empty (Nat.le_refl _)
  · rcases hcourse.visit hr hbar Delimiters.Clear.start (Nat.zero_le _) (by omega) with
      ⟨hclear, l₁, l₂, rfl, hl, hrest⟩ |
      ⟨o, close, category, l₁, l₂, rfl, hl, ho, hclose, hclear, opens, found, hrest⟩
    · rw [List.filterMap_append, hbefore hl, List.nil_append]
      exact .outside hlt hclear (hrest.cut hr hterm hsev hb (Nat.le_refl _))
    · have hclip : Span.clip a b ⟨o, close, category⟩ = some ⟨a, min close b, category⟩ := by
        rw [Span.clip, Nat.max_eq_right (Nat.le_of_lt ho), if_pos (Nat.lt_min.mpr ⟨hclose, hlt⟩)]
      rw [List.filterMap_append, hbefore hl, List.nil_append, List.filterMap_cons_some hclip]
      exact .inside hlt ⟨o, hclear, opens, found, ho, hclose⟩
        (hrest.cut hr hterm hsev hb (Nat.le_of_lt hclose))

end VSyntax
