import VSyntax.Classify
import VSyntax.Proofs.Regex.Path

/-!
# Claims

What a rule claims at an offset of code. A word rule claims a whole run of word characters or
nothing (`wordClaim?_eq`); a shape rule claims what its expression captures. A claim is never empty,
and it lies between the offset and the end of the code as long as no group is captured in an
assertion on what stands behind (`Rule.claim?_spec`); the first claim of a rule table inherits this
(`firstClaim?_spec`).
-/
namespace VSyntax

variable {d : Delimiters} {t : Text} {pos stop first last : Nat} {rule : Rule} {rules : RuleTable}

/-! ## Words -/

/-- Whether a character has the role of a word character. -/
def Delimiters.isWord (d : Delimiters) (c : Char) : Bool := decide (d.role c = .word)

/-- The search for the end of a word measures a run. -/
theorem wordEndFrom_eq {steps : Nat} (h : pos + steps ≤ t.size) :
    wordEndFrom d t steps pos = .ok (t.runEnd d.isWord (pos + steps) pos) := by
  induction steps generalizing pos with
  | zero =>
    have hnot : ¬ t.sees (pos + 0) d.isWord pos = true := fun hsees =>
      absurd (Text.lt_of_sees hsees) (Nat.lt_irrefl _)
    rw [Text.runEnd_of_not_sees hnot]
    rfl
  | succ steps ih =>
    have hpos : pos < t.size := by omega
    have hsum : pos + (steps + 1) = pos + 1 + steps := by omega
    simp only [wordEndFrom, Text.charAt_eq_ok hpos]
    by_cases hw : d.role t[pos] = .word
    · have hsees : t.sees (pos + (steps + 1)) d.isWord pos = true :=
        (Text.sees_iff_getElem hpos).mpr ⟨by omega, decide_eq_true hw⟩
      rw [if_pos hw, Text.runEnd_of_sees hsees, hsum]
      exact ih (by omega)
    · have hsees : ¬ t.sees (pos + (steps + 1)) d.isWord pos = true := fun h =>
        hw (of_decide_eq_true ((Text.sees_iff_getElem hpos).mp h).2)
      rw [if_neg hw, Text.runEnd_of_not_sees hsees]

theorem afterWord_eq (h : pos ≤ t.size) : afterWord d t pos = .ok (t.follows d.isWord pos) := by
  by_cases hpos : 0 < pos
  · have hlt : pos - 1 < t.size := by omega
    simp only [afterWord, Text.follows, hpos, if_true, Text.charAt_eq_ok hlt,
      Array.getElem?_eq_getElem hlt, decide_true, Bool.true_and, Option.any_some]
    rfl
  · simp only [afterWord, Text.follows, hpos, if_false, decide_false, Bool.false_and]

/-- A word is claimed where a run of word characters begins, as a whole, if it is in the list. -/
theorem wordClaim?_eq {words : List (List Char)} (hpos : pos < stop) (hstop : stop ≤ t.size) :
    wordClaim? d words t pos stop = .ok
      (if t.sees stop d.isWord pos = true ∧ ¬ t.follows d.isWord pos = true ∧
          (t.slice pos (t.runEnd d.isWord stop pos)).toList ∈ words
        then some (pos, t.runEnd d.isWord stop pos) else none) := by
  have hsize : pos < t.size := by omega
  have hsteps : pos + 1 + (stop - (pos + 1)) = stop := by omega
  have hend : wordEndFrom d t (stop - (pos + 1)) (pos + 1) =
      .ok (t.runEnd d.isWord stop (pos + 1)) := by
    rw [wordEndFrom_eq (by omega), hsteps]
  simp only [wordClaim?, Text.charAt_eq_ok hsize, afterWord_eq (Nat.le_of_lt hsize), hend, bind,
    Except.bind, pure, Except.pure]
  by_cases hw : d.role t[pos] = .word
  · have hsees : t.sees stop d.isWord pos = true :=
      (Text.sees_iff_getElem hsize).mpr ⟨hpos, decide_eq_true hw⟩
    rw [if_neg (not_not_intro hw), Text.runEnd_of_sees hsees]
    by_cases hbefore : t.follows d.isWord pos = true
    · rw [if_pos hbefore, if_neg fun h => h.2.1 hbefore]
    · rw [if_neg hbefore]
      by_cases hmem : (t.slice pos (t.runEnd d.isWord stop (pos + 1))).toList ∈ words
      · rw [if_pos hmem, if_pos ⟨hsees, hbefore, hmem⟩]
      · rw [if_neg hmem, if_neg fun h => hmem h.2.2]
  · have hsees : ¬ t.sees stop d.isWord pos = true := fun h =>
      hw (of_decide_eq_true ((Text.sees_iff_getElem hsize).mp h).2)
    rw [if_pos hw, if_neg fun h => hsees h.1]

/-! ## Rules -/

/-- Whether a rule captures a group in an assertion on what stands behind. -/
def Rule.capturesBehind : Rule → Bool
  | .words _ _ _ => false
  | .shape _ _ regex _ => regex.body.capturesBehind

theorem shapeClaim?_eq_some {regex : Regex} {group : Nat}
    (h : shapeClaim? regex group t pos stop = some (first, last)) :
    first < last ∧
      ∃ m, Regex.matchAt? regex t pos stop = some m ∧ m.extent? group = some (first, last) := by
  unfold shapeClaim? at h
  split at h
  · cases h
  · next m hm =>
    split at h
    · cases h
    · next a b hext =>
      split at h
      · next hlt =>
        cases h
        exact ⟨hlt, m, hm, hext⟩
      · cases h

/-- A rule answers without a fault, and what it claims is not empty and lies in the code from the
offset on. -/
theorem Rule.claim?_spec (hr : rule.capturesBehind = false) (hpos : pos < stop)
    (hstop : stop ≤ t.size) :
    ∃ c, rule.claim? d t pos stop = .ok c ∧
      ∀ first last, c = some (first, last) → pos ≤ first ∧ first < last ∧ last ≤ stop := by
  cases rule with
  | words name category ws =>
    refine ⟨_, wordClaim?_eq hpos hstop, fun first last h => ?_⟩
    split at h
    · next hclaim =>
      cases h
      exact ⟨Nat.le_refl _, Text.lt_runEnd hclaim.1, Text.runEnd_le (Nat.le_of_lt hpos)⟩
    · cases h
  | shape name category regex group =>
    refine ⟨_, rfl, fun first last h => ?_⟩
    obtain ⟨hlt, m, hm, hext⟩ := shapeClaim?_eq_some h
    obtain ⟨hle, hend⟩ := Regex.matchAt?_extent hstop (Nat.le_of_lt hpos) hr hm hext
    exact ⟨hle, hlt, hend⟩

/-! ## Rule tables -/

theorem firstClaim?_cons_of_none (h : rule.claim? d t pos stop = .ok none) :
    firstClaim? d t pos stop (rule :: rules) = firstClaim? d t pos stop rules := by
  simp only [firstClaim?, h, bind, Except.bind]

theorem firstClaim?_cons_of_some (h : rule.claim? d t pos stop = .ok (some (first, last))) :
    firstClaim? d t pos stop (rule :: rules) = .ok (some ⟨first, last, rule.category⟩) := by
  simp only [firstClaim?, h, bind, Except.bind, pure, Except.pure]

/-- A rule that claims one certain extent, if anything, in front of rules that do so too. -/
theorem firstClaim?_cons_of_ite {b : Bool} {y : Option Category}
    (h : rule.claim? d t pos stop = .ok (if b then some (first, last) else none))
    (hrest : firstClaim? d t pos stop rules = .ok (y.map (Span.mk first last))) :
    firstClaim? d t pos stop (rule :: rules) =
      .ok ((if b then some rule.category else y).map (Span.mk first last)) := by
  cases b with
  | true => exact firstClaim?_cons_of_some h
  | false => exact (firstClaim?_cons_of_none h).trans hrest

/-- Rules that claim nothing may be left out. -/
theorem firstClaim?_filter (keep : Rule → Bool)
    (h : ∀ rule ∈ rules, keep rule = false → rule.claim? d t pos stop = .ok none) :
    firstClaim? d t pos stop rules = firstClaim? d t pos stop (rules.filter keep) := by
  induction rules with
  | nil => rfl
  | cons rule rules ih =>
    have hrest := ih fun r hr => h r (List.mem_cons_of_mem _ hr)
    cases hkeep : keep rule with
    | true => rw [List.filter_cons_of_pos hkeep, firstClaim?, firstClaim?, hrest]
    | false =>
      rw [List.filter_cons_of_neg (by rw [hkeep]; exact Bool.false_ne_true),
        firstClaim?_cons_of_none (h rule List.mem_cons_self hkeep), hrest]

theorem firstClaim?_eq_none (h : ∀ rule ∈ rules, rule.claim? d t pos stop = .ok none) :
    firstClaim? d t pos stop rules = .ok none := by
  rw [firstClaim?_filter (fun _ => false) fun rule hrule _ => h rule hrule,
    List.filter_eq_nil_iff.mpr fun _ _ => Bool.false_ne_true]
  rfl

/-- A rule table answers without a fault, and what it claims is the claim of one of its rules. -/
theorem firstClaim?_spec (hr : ∀ rule ∈ rules, rule.capturesBehind = false) (hpos : pos < stop)
    (hstop : stop ≤ t.size) :
    ∃ c, firstClaim? d t pos stop rules = .ok c ∧ ∀ s, c = some s →
      pos ≤ s.start ∧ s.start < s.stop ∧ s.stop ≤ stop ∧
        ∃ rule ∈ rules, s.category = rule.category ∧
          rule.claim? d t pos stop = .ok (some (s.start, s.stop)) := by
  induction rules with
  | nil => exact ⟨none, rfl, fun s h => absurd h (by simp)⟩
  | cons rule rules ih =>
    obtain ⟨c, hclaim, hbounds⟩ := Rule.claim?_spec (d := d) (hr rule List.mem_cons_self) hpos hstop
    cases c with
    | none =>
      obtain ⟨c', hrest, hspec⟩ := ih fun r h => hr r (List.mem_cons_of_mem _ h)
      refine ⟨c', (firstClaim?_cons_of_none hclaim).trans hrest, fun s hs => ?_⟩
      obtain ⟨hle, hlt, hend, r, hmem, hof⟩ := hspec s hs
      exact ⟨hle, hlt, hend, r, List.mem_cons_of_mem _ hmem, hof⟩
    | some extent =>
      obtain ⟨first, last⟩ := extent
      obtain ⟨hle, hlt, hend⟩ := hbounds first last rfl
      refine ⟨_, firstClaim?_cons_of_some hclaim, fun s hs => ?_⟩
      cases hs
      exact ⟨hle, hlt, hend, rule, List.mem_cons_self, rfl, hclaim⟩

/-- What a rule table claims is not empty, lies in the code from the offset on, and is the claim of
one of its rules. -/
theorem firstClaim?_eq_some {s : Span} (hr : ∀ rule ∈ rules, rule.capturesBehind = false)
    (hpos : pos < stop) (hstop : stop ≤ t.size)
    (h : firstClaim? d t pos stop rules = .ok (some s)) :
    pos ≤ s.start ∧ s.start < s.stop ∧ s.stop ≤ stop ∧
      ∃ rule ∈ rules, s.category = rule.category ∧
        rule.claim? d t pos stop = .ok (some (s.start, s.stop)) := by
  obtain ⟨c, hclaim, hspec⟩ := firstClaim?_spec (d := d) hr hpos hstop
  rw [h] at hclaim
  cases hclaim
  exact hspec s rfl

/-- Where one of the rules claims something, so does the table. -/
theorem exists_firstClaim? (hr : ∀ rule ∈ rules, rule.capturesBehind = false) (hpos : pos < stop)
    (hstop : stop ≤ t.size) (hrule : rule ∈ rules)
    (h : rule.claim? d t pos stop = .ok (some (first, last))) :
    ∃ s, firstClaim? d t pos stop rules = .ok (some s) := by
  induction rules with
  | nil => exact absurd hrule List.not_mem_nil
  | cons head rules ih =>
    obtain ⟨c, hclaim, -⟩ := Rule.claim?_spec (d := d) (hr head List.mem_cons_self) hpos hstop
    cases c with
    | some extent => exact ⟨_, firstClaim?_cons_of_some hclaim⟩
    | none =>
      rcases List.mem_cons.mp hrule with rfl | hrest
      · rw [hclaim] at h
        cases h
      · obtain ⟨s, hs⟩ := ih (fun r hmem => hr r (List.mem_cons_of_mem _ hmem)) hrest
        exact ⟨s, (firstClaim?_cons_of_none hclaim).trans hs⟩

/-- Where every rule claims the same under two bounds, so does the table. -/
theorem firstClaim?_congr {stop' : Nat}
    (h : ∀ rule ∈ rules, rule.claim? d t pos stop = rule.claim? d t pos stop') :
    firstClaim? d t pos stop rules = firstClaim? d t pos stop' rules := by
  induction rules with
  | nil => rfl
  | cons rule rules ih =>
    have hrest := ih fun r hr => h r (List.mem_cons_of_mem _ hr)
    simp only [firstClaim?, h rule List.mem_cons_self, hrest]

end VSyntax
