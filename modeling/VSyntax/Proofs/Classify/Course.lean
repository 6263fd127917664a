import VSyntax.Proofs.Delimiters.Walk
import VSyntax.Proofs.Classify.Claims

/-!
# The course of a classification

A classification told as one walk over the offsets of a region (`Course`): where something opens, a
comment or string is passed and leaves its span; elsewhere the first claim of the rules leaves its
span and the walk goes on after it; where nothing is claimed, one character is passed. The scanners
run this walk as loops within loops and count their steps. A course counts nothing, and it is a
finite derivation: that one exists says that the loops come to their end by themselves.

`classifyWithin_classified` is the bridge: for rules that capture nothing behind, the scanners
answer without a fault, and what they answer is the course of the region, after the comment or
string that the region may begin in (`Classified`). Whatever is proved by induction on a course
holds of every classification.

Where nothing opens the course has one step to take, which the claim there tells (`Course.skipped`,
`Course.claimed`); so a text has one course from an offset (`Course.unique`).
-/
namespace VSyntax

variable {rules : RuleTable} {d : Delimiters} {t : Text} {pos start stop e : Nat} {l : List Span}

/-! ## Courses -/

/-- The course from an offset where nothing is open up to `stop`, with the spans that it leaves. -/
inductive Course (rules : RuleTable) (d : Delimiters) (t : Text) (stop : Nat) :
    Nat → List Span → Prop
  /-- The end is reached. -/
  | done {pos : Nat} (h : stop ≤ pos) : Course rules d t stop pos []
  /-- No rule claims anything. -/
  | skip {pos e : Nat} {l : List Span} (code : d.CodeTo t stop pos e) (h : pos < e)
    (unclaimed : firstClaim? d t pos e rules = .ok none)
    (rest : Course rules d t stop (pos + 1) l) : Course rules d t stop pos l
  /-- A rule claims a stretch of the code. -/
  | claim {pos e : Nat} {s : Span} {l : List Span} (code : d.CodeTo t stop pos e) (h : pos < e)
    (claimed : firstClaim? d t pos e rules = .ok (some s))
    (rest : Course rules d t stop s.stop l) : Course rules d t stop pos (s :: l)
  /-- A comment or string opens. -/
  | region {pos close : Nat} {category : Category} {l : List Span} (h : pos < stop)
    (opens : d.Opens t pos)
    (found : d.regionAt t pos (openerLimit d t stop) = .ok (some (close, category)))
    (rest : Course rules d t stop (min close stop) l) :
    Course rules d t stop pos (⟨pos, min close stop, category⟩ :: l)

/-- The classification of the text between two offsets: nothing for an empty region; else a course
from its start, or from the end of the comment or string that the start lies inside. -/
inductive Classified (rules : RuleTable) (d : Delimiters) (t : Text) (start stop : Nat) :
    List Span → Prop
  | empty (h : stop ≤ start) : Classified rules d t start stop []
  | outside {l : List Span} (h : start < stop) (clear : d.Clear t start)
    (course : Course rules d t stop start l) : Classified rules d t start stop l
  | inside {close : Nat} {category : Category} {l : List Span} (h : start < stop)
    (inside : d.Inside t start close category) (course : Course rules d t stop close l) :
    Classified rules d t start stop (⟨start, min close stop, category⟩ :: l)

/-! ## The scanners run courses -/

/-- The scan of a stretch of code is a course up to the end of the code. -/
theorem codeSpans_course {steps : Nat} (hr : ∀ rule ∈ rules, rule.capturesBehind = false)
    (hstop : stop ≤ t.size) (hcode : d.CodeTo t stop pos e) (hsteps : e ≤ pos + steps) :
    ∃ code, codeSpans rules d t e steps pos = .ok code ∧
      ∀ rest, Course rules d t stop e rest → Course rules d t stop pos (code ++ rest) := by
  induction steps generalizing pos with
  | zero =>
    have heq : pos = e := Nat.le_antisymm hcode.start_le hsteps
    exact ⟨[], rfl, fun rest h => heq ▸ h⟩
  | succ steps ih =>
    have hle := hcode.le_stop
    rcases Nat.eq_or_lt_of_le hcode.start_le with rfl | hlt
    · exact ⟨[], by rw [codeSpans, if_neg (Nat.lt_irrefl _)], fun rest h => h⟩
    obtain ⟨c, hclaim, hspec⟩ := firstClaim?_spec (d := d) hr hlt (Nat.le_trans hle hstop)
    simp only [codeSpans, if_pos hlt, hclaim, bind, Except.bind, pure, Except.pure]
    cases c with
    | none =>
      obtain ⟨code, hrun, hcourse⟩ := ih (hcode.mono (Nat.le_succ pos) hlt) (by omega)
      exact ⟨code, hrun, fun rest h => .skip hcode hlt hclaim (hcourse rest h)⟩
    | some s =>
      obtain ⟨hfirst, hnonempty, hlast, -⟩ := hspec s rfl
      obtain ⟨code, hrun, hcourse⟩ := ih (hcode.mono (by omega) hlast) (by omega)
      refine ⟨s :: code, by simp only [hrun], fun rest h => ?_⟩
      exact .claim hcode hlt hclaim (hcourse rest h)

/-- The scan of the rest of a region is a course up to the end of the region. -/
theorem spansFrom_course {steps : Nat} (hr : ∀ rule ∈ rules, rule.capturesBehind = false)
    (hstop : stop ≤ t.size) (hsteps : stop ≤ pos + steps) :
    ∃ l, spansFrom rules d t stop steps pos = .ok l ∧ Course rules d t stop pos l := by
  induction steps generalizing pos with
  | zero => exact ⟨[], rfl, .done hsteps⟩
  | succ steps ih =>
    by_cases hpos : pos < stop
    · obtain ⟨o, hnext, hcode⟩ := Delimiters.nextOpening_codeTo (d := d) (Nat.le_of_lt hpos) hstop
      have hle := hcode.start_le
      have hspare : min o stop ≤ pos + (min o stop - pos) := by omega
      obtain ⟨code, hscan, hcourse⟩ := codeSpans_course hr hstop hcode hspare
      simp only [spansFrom, if_pos hpos, hnext, hscan, bind, Except.bind, pure, Except.pure]
      by_cases hend : min o stop = stop
      · refine ⟨code, by rw [if_pos hend], ?_⟩
        have := hcourse [] (.done (Nat.le_of_eq hend.symm))
        rwa [List.append_nil] at this
      · have hlt : min o stop < stop := Nat.lt_of_le_of_ne hcode.le_stop hend
        have hopens := hcode.opens hlt
        obtain ⟨close, category, hfound, hlater, -⟩ :=
          Delimiters.regionAt_openerLimit hopens hlt hstop
        have hrest : stop ≤ min close stop + steps := by omega
        obtain ⟨l, hrun, hl⟩ := ih hrest
        refine ⟨code ++ ⟨min o stop, min close stop, category⟩ :: l, ?_, ?_⟩
        · simp only [if_neg hend, hfound, hrun]
        · exact hcourse _ (.region hlt hopens hfound hl)
    · exact ⟨[], by rw [spansFrom, if_neg hpos], .done (Nat.le_of_not_lt hpos)⟩

/-- The scanners answer every region without a fault, and their answer is its classification. -/
theorem classifyWithin_classified (start : Nat)
    (hr : ∀ rule ∈ rules, rule.capturesBehind = false) (hstop : stop ≤ t.size) :
    ∃ l, classifyWithin rules d t start stop = .ok l ∧ Classified rules d t start stop l := by
  by_cases h : start < stop
  · rcases enclosing?_spec (d := d) (Nat.le_of_lt (Nat.lt_of_lt_of_le h hstop)) with
      ⟨hnone, hclear⟩ | ⟨close, category, hsome, hinside⟩
    · have hsteps : stop ≤ start + (stop - start) := by omega
      obtain ⟨l, hrun, hcourse⟩ := spansFrom_course hr hstop hsteps
      exact ⟨l, by simp only [classifyWithin, if_pos h, hnone, hrun, bind, Except.bind],
        .outside h hclear hcourse⟩
    · have hsteps : stop ≤ close + (stop - close) := by omega
      obtain ⟨l, hrun, hcourse⟩ := spansFrom_course hr hstop hsteps
      exact ⟨_, by simp only [classifyWithin, if_pos h, hsome, hrun, bind, Except.bind, pure,
        Except.pure], .inside h hinside hcourse⟩
  · exact ⟨[], by rw [classifyWithin, if_neg h], .empty (Nat.le_of_not_lt h)⟩

/-! ## Single steps -/

/-- At an offset where nothing opens a course skips a character or claims a stretch. -/
theorem Course.next (h : Course rules d t stop pos l) (hpos : pos < stop)
    (hquiet : ¬ d.Opens t pos) :
    ∃ e, d.CodeTo t stop pos e ∧ pos < e ∧
      (firstClaim? d t pos e rules = .ok none ∧ Course rules d t stop (pos + 1) l ∨
        ∃ s l', l = s :: l' ∧ firstClaim? d t pos e rules = .ok (some s) ∧
          Course rules d t stop s.stop l') := by
  cases h with
  | done hle => omega
  | @skip pos e l code hlt unclaimed rest => exact ⟨e, code, hlt, .inl ⟨unclaimed, rest⟩⟩
  | @claim pos e s l code hlt claimed rest =>
    exact ⟨e, code, hlt, .inr ⟨s, l, rfl, claimed, rest⟩⟩
  | region hlt opens => exact absurd opens hquiet

/-- Where nothing is claimed a course skips a character. -/
theorem Course.skipped (h : Course rules d t stop pos l) (hpos : pos < stop)
    (hquiet : ¬ d.Opens t pos)
    (hnone : ∀ e, d.CodeTo t stop pos e → pos < e → firstClaim? d t pos e rules = .ok none) :
    Course rules d t stop (pos + 1) l := by
  obtain ⟨e, code, hlt, ⟨-, hrest⟩ | ⟨s, l', -, hclaim, -⟩⟩ := h.next hpos hquiet
  · exact hrest
  · rw [hnone e code hlt] at hclaim
    cases hclaim

/-- Through a stretch where nothing is claimed a course goes on to its end. -/
theorem Course.skippedTo {r : Nat} (h : Course rules d t stop pos l) (hpos : pos ≤ r)
    (hr : r ≤ stop) (hquiet : ∀ y, pos ≤ y → y < r → ¬ d.Opens t y)
    (hnone : ∀ y e, pos ≤ y → y < r → d.CodeTo t stop y e → y < e →
      firstClaim? d t y e rules = .ok none) : Course rules d t stop r l := by
  induction hn : r - pos generalizing pos l with
  | zero =>
    obtain rfl : pos = r := by omega
    exact h
  | succ n ih =>
    have hlt : pos < r := by omega
    have hrest := h.skipped (Nat.lt_of_lt_of_le hlt hr) (hquiet pos (Nat.le_refl _) hlt) fun e =>
      hnone pos e (Nat.le_refl _) hlt
    exact ih hrest hlt (fun y hy => hquiet y (Nat.le_of_succ_le hy))
      (fun y e hy => hnone y e (Nat.le_of_succ_le hy)) (by omega)

/-- Where a span is claimed a course leaves it. -/
theorem Course.claimed {s : Span} (h : Course rules d t stop pos l) (hpos : pos < stop)
    (hquiet : ¬ d.Opens t pos)
    (hsome : ∀ e, d.CodeTo t stop pos e → pos < e → firstClaim? d t pos e rules = .ok (some s)) :
    ∃ l', l = s :: l' ∧ Course rules d t stop s.stop l' := by
  obtain ⟨e, code, hlt, ⟨hnone, -⟩ | ⟨s', l', rfl, hclaim, hrest⟩⟩ := h.next hpos hquiet
  · rw [hsome e code hlt] at hnone
    cases hnone
  · rw [hsome e code hlt] at hclaim
    cases hclaim
    exact ⟨l', rfl, hrest⟩

/-- Where something opens a course leaves its span, cut at the end of the region. -/
theorem Course.next_region (h : Course rules d t stop pos l) (hpos : pos < stop)
    (hopens : d.Opens t pos) :
    ∃ close category l', l = ⟨pos, min close stop, category⟩ :: l' ∧
      d.regionAt t pos (openerLimit d t stop) = .ok (some (close, category)) ∧
      Course rules d t stop (min close stop) l' := by
  cases h with
  | done hle => omega
  | skip code hlt => exact absurd hopens (code.quiet pos (Nat.le_refl _) hlt)
  | claim code hlt => exact absurd hopens (code.quiet pos (Nat.le_refl _) hlt)
  | region hlt opens found rest => exact ⟨_, _, _, rfl, found, rest⟩

/-- Where something opens in the whole text a course leaves its span. -/
theorem Course.opened {close : Nat} {category : Category} (h : Course rules d t t.size pos l)
    (hopens : d.Opens t pos) (hfound : d.regionAt t pos t.size = .ok (some (close, category))) :
    ∃ l', l = ⟨pos, close, category⟩ :: l' ∧ Course rules d t t.size close l' := by
  obtain ⟨close', category', l', rfl, found, hrest⟩ := h.next_region hopens.lt_size hopens
  rw [openerLimit_size, hfound] at found
  cases found
  rw [Nat.min_eq_left (Delimiters.regionAt_bounds hopens hfound).2.1] at hrest ⊢
  exact ⟨l', rfl, hrest⟩

/-- The classification from the start of the text on is a course. -/
theorem Classified.course (h : Classified rules d t 0 stop l) : Course rules d t stop 0 l := by
  cases h with
  | empty hle => exact .done hle
  | outside hlt clear course => exact course
  | inside hlt inside => exact absurd inside Delimiters.Clear.start.not_inside

/-! ## Courses are determined -/

theorem Course.unique {l' : List Span} (h : Course rules d t stop pos l)
    (h' : Course rules d t stop pos l') : l = l' := by
  induction h generalizing l' with
  | done hle =>
    cases h' with
    | done => rfl
    | skip code hlt => exact absurd code.le_stop (by omega)
    | claim code hlt => exact absurd code.le_stop (by omega)
    | region hlt => omega
  | skip code hlt unclaimed rest ih =>
    cases h' with
    | done hle => exact absurd code.le_stop (by omega)
    | skip code' hlt' unclaimed' rest' => exact ih rest'
    | claim code' hlt' claimed rest' =>
      rw [code.unique code', claimed] at unclaimed
      cases unclaimed
    | region hlt' opens => exact absurd opens (code.quiet _ (Nat.le_refl _) hlt)
  | claim code hlt claimed rest ih =>
    cases h' with
    | done hle => exact absurd code.le_stop (by omega)
    | skip code' hlt' unclaimed =>
      rw [code'.unique code, claimed] at unclaimed
      cases unclaimed
    | claim code' hlt' claimed' rest' =>
      rw [code'.unique code, claimed] at claimed'
      cases claimed'
      rw [ih rest']
    | region hlt' opens => exact absurd opens (code.quiet _ (Nat.le_refl _) hlt)
  | region hlt opens found rest ih =>
    cases h' with
    | done hle => omega
    | skip code hlt' => exact absurd opens (code.quiet _ (Nat.le_refl _) hlt')
    | claim code hlt' => exact absurd opens (code.quiet _ (Nat.le_refl _) hlt')
    | region _ _ found' rest' =>
      rw [found] at found'
      cases found'
      rw [ih rest']

end VSyntax
