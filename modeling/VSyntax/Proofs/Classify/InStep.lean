import VSyntax.Proofs.Classify.Clip

/-!
# Two tables in step

When two rule tables leave the same spans, but for spans that do not count. It is enough to look at
single offsets of code (`InStep`): there the tables claim the same, or what each of them claims, if
anything, is one and the same stretch, whose span does not count, and no later claim begins inside
the stretch (`Sole`). Then a walk that leaves the stretch alone catches up with one that claims it at
the end of the stretch (`Sole.course`), so the two walks meet again and again up to the end of the
text (`Course.filter_eq`).
-/
namespace VSyntax

variable {rules rules' : RuleTable} {d : Delimiters} {t : Text} {pos start stop e r x : Nat}
  {l l' : List Span} {counts : Span → Bool}

/-! ## Single offsets of code -/

/-- In code up to `e` the rules claim at `x` the stretch up to `r`, if anything, and they claim
nothing inside it. -/
structure Sole (rules : RuleTable) (d : Delimiters) (t : Text) (x r e : Nat) : Prop where
  lt : x < r
  le : r ≤ e
  claims : ∃ c : Option Category, firstClaim? d t x e rules = .ok (c.map (Span.mk x r))
  inside : ∀ y, x < y → y < r → firstClaim? d t y e rules = .ok none

/-- In code up to `e` both tables claim the same at `x`, or each of them claims one certain stretch,
whose span does not count, or leaves it alone. -/
def InStep (counts : Span → Bool) (rules rules' : RuleTable) (d : Delimiters) (t : Text)
    (x e : Nat) : Prop :=
  firstClaim? d t x e rules = firstClaim? d t x e rules' ∨
    ∃ r, Sole rules d t x r e ∧ Sole rules' d t x r e ∧
      ∀ category, counts ⟨x, r, category⟩ = false

/-- From a stretch that is claimed as a whole or not at all a course goes on at its end, with at
most the span of the stretch. -/
theorem Sole.course (h : Sole rules d t x r e) (code : d.CodeTo t stop x e)
    (hcourse : Course rules d t stop x l) (hcounts : ∀ category, counts ⟨x, r, category⟩ = false) :
    ∃ l₁, Course rules d t stop r l₁ ∧ l.filter counts = l₁.filter counts := by
  have hlt := h.lt
  have hle := h.le
  have hlate : x < e := Nat.lt_of_lt_of_le hlt hle
  have hstop : x < stop := Nat.lt_of_lt_of_le hlate code.le_stop
  have hquiet := code.quiet x (Nat.le_refl _) hlate
  obtain ⟨c, hclaim⟩ := h.claims
  have hhere : ∀ e', d.CodeTo t stop x e' → x < e' →
      firstClaim? d t x e' rules = .ok (c.map (Span.mk x r)) := by
    intro e' code' _
    rw [code'.unique code, hclaim]
  cases c with
  | none =>
    have hrest := hcourse.skipped hstop hquiet hhere
    refine ⟨l, hrest.skippedTo hlt (Nat.le_trans hle code.le_stop) ?_ ?_, rfl⟩
    · exact fun y hy hyr => code.quiet y (Nat.le_of_lt hy) (Nat.lt_of_lt_of_le hyr hle)
    · intro y e' hy hyr code' _
      rw [code'.unique (code.mono (Nat.le_of_lt hy) (Nat.le_trans (Nat.le_of_lt hyr) hle))]
      exact h.inside y hy hyr
  | some category =>
    obtain ⟨l₁, rfl, hrest⟩ := hcourse.claimed hstop hquiet hhere
    exact ⟨l₁, hrest, List.filter_cons_of_neg (Bool.eq_false_iff.mp (hcounts category))⟩

/-! ## Whole courses -/

variable (hr : ∀ rule ∈ rules, rule.capturesBehind = false) (hstop : stop ≤ t.size)
  (hstep : ∀ x e, x < e → d.CodeTo t stop x e → InStep counts rules rules' d t x e)

include hr hstop hstep

/-- Tables in step leave the same spans that count. -/
theorem Course.filter_eq (h : Course rules d t stop pos l) (h' : Course rules' d t stop pos l') :
    l.filter counts = l'.filter counts := by
  -- by induction on what is left of the region; each case ends where both walks are again
  induction hn : stop - pos using Nat.strongRecOn generalizing pos l l' with
  | ind n ih =>
    rcases Nat.lt_or_ge pos stop with hpos | hend
    · by_cases hopens : d.Opens t pos
      · obtain ⟨close, category, l₁, rfl, found, hrest⟩ := h.next_region hpos hopens
        obtain ⟨close', category', l₁', rfl, found', hrest'⟩ := h'.next_region hpos hopens
        rw [found] at found'
        cases found'
        obtain ⟨close', category', found', hlater, -⟩ :=
          Delimiters.regionAt_openerLimit hopens hpos hstop
        rw [found] at found'
        cases found'
        simp only [List.filter_cons, ih _ (by omega) hrest hrest' rfl]
      · obtain ⟨e, code, hlt, hnext⟩ := h.next hpos hopens
        obtain ⟨e', code', -, hnext'⟩ := h'.next hpos hopens
        obtain rfl := code.unique code'
        rcases hstep pos e hlt code with hsame | ⟨r, hsole, hsole', hcounts⟩
        · rcases hnext with ⟨hnone, hrest⟩ | ⟨s, l₁, rfl, hclaim, hrest⟩
          · rcases hnext' with ⟨-, hrest'⟩ | ⟨s', l₁', -, hclaim', -⟩
            · exact ih _ (by omega) hrest hrest' rfl
            · rw [← hsame, hnone] at hclaim'
              cases hclaim'
          · rcases hnext' with ⟨hnone', -⟩ | ⟨s', l₁', rfl, hclaim', hrest'⟩
            · rw [← hsame, hclaim] at hnone'
              cases hnone'
            · rw [← hsame, hclaim] at hclaim'
              cases hclaim'
              have hsize := Nat.le_trans code.le_stop hstop
              obtain ⟨hfirst, hnonempty, -⟩ := firstClaim?_eq_some hr hlt hsize hclaim
              simp only [List.filter_cons, ih _ (by omega) hrest hrest' rfl]
        · have hlater := hsole.lt
          obtain ⟨l₁, hrest, hl⟩ := hsole.course code h hcounts
          obtain ⟨l₁', hrest', hl'⟩ := hsole'.course code h' hcounts
          rw [hl, hl']
          exact ih _ (by omega) hrest hrest' rfl
    · rw [h.unique (.done hend), h'.unique (.done hend)]

/-- Tables in step give the text between two offsets the same spans that count. -/
theorem Classified.filter_eq (h : Classified rules d t start stop l)
    (h' : Classified rules' d t start stop l') : l.filter counts = l'.filter counts := by
  rcases h.alike h' with ⟨rfl, rfl⟩ | ⟨course, course'⟩ |
    ⟨s, close, l₁, l₁', rfl, rfl, course, course'⟩
  · rfl
  · exact course.filter_eq hr hstop hstep course'
  · simp only [List.filter_cons, course.filter_eq hr hstop hstep course']

end VSyntax
