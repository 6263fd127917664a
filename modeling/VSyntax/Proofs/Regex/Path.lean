import VSyntax.Regex.Matching
import VSyntax.Proofs.Text

/-!
# Paths through an expression

What a match does to the state of the matcher, said without the order of choices: a path through an
expression leads from one state to another (`Expr.Path`). A path may take either side of a choice
or a condition, any allowed number of repetitions and any way through an atomic part, so an
expression has more paths than the matcher takes; every way that the matcher finds is a path
(`Expr.exists_path`).

`Expr.Path.within` is the bound that follows: unless a group is captured in an assertion on what
stands behind, a match and all its captures lie between the offset where it began and the end of the
text.
-/
namespace VSyntax.Regex

variable {t : Text} {stop : Nat}

/-! ## Paths -/

/-- A relation between states, taken `n` times. -/
def Iterate (R : State → State → Prop) : Nat → State → State → Prop
  | 0, s, s' => s' = s
  | n + 1, s, s' => ∃ m, R s m ∧ Iterate R n m s'

/-- A path through an expression, from a state to a state. -/
def Expr.Path (t : Text) (stop : Nat) : Expr → State → State → Prop
  | .empty, s, s' => s' = s
  | .anyButLineEnd, s, s' =>
    t.sees stop (· != '\n') s.pos = true ∧ s' = { s with pos := s.pos + 1 }
  | .oneOf negated items, s, s' =>
    t.sees stop (fun c => items.any (·.holds c) != negated) s.pos = true ∧
      s' = { s with pos := s.pos + 1 }
  | .anchor a, s, s' => a.holds t stop s.pos = true ∧ s' = s
  | .seq a b, s, s' => ∃ m, a.Path t stop s m ∧ b.Path t stop m s'
  | .alt a b, s, s' | .ifGroup _ a b, s, s' => a.Path t stop s s' ∨ b.Path t stop s s'
  | .group index body, s, s' => ∃ m, body.Path t stop s m ∧
      s' = { m with captures := (index, s.pos, m.pos) :: m.captures }
  | .backref fold index, s, s' => ∃ a b, s.captured? index = some (a, b) ∧
      (fold.text t).startsAt ((fold.text t).slice a b).toList s.pos stop = true ∧
      s' = { s with pos := s.pos + (b - a) }
  | .many least most _ body, s, s' => ∃ n, least ≤ n ∧ (∀ m ∈ most, n ≤ max least m) ∧
      Iterate (body.Path t stop) n s s'
  | .ahead false body, s, s' => ∃ m, body.Path t stop s m ∧ s' = { m with pos := s.pos }
  | .ahead true body, s, s' => body.run t stop s some = none ∧ s' = s
  | .behind false width body, s, s' => width ≤ s.pos ∧
      ∃ m, body.Path t stop { s with pos := s.pos - width } m ∧ s' = { m with pos := s.pos }
  | .behind true width body, s, s' =>
      (width ≤ s.pos → body.run t stop { s with pos := s.pos - width } some = none) ∧ s' = s
  | .atomic body, s, s' => body.Path t stop s s'
  | .reopen index, s, s' => s' = s.reopen index

theorem Iterate.add {R : State → State → Prop} {n n' : Nat} {s m s' : State}
    (h : Iterate R n s m) (h' : Iterate R n' m s') : Iterate R (n + n') s s' := by
  induction n generalizing s with
  | zero =>
    cases h
    rwa [Nat.zero_add]
  | succ n ih =>
    obtain ⟨mid, hstep, hrest⟩ := h
    rw [Nat.add_right_comm]
    exact ⟨mid, hstep, ih hrest⟩

/-- What a step keeps, its iterations keep. -/
theorem Iterate.keeps {R : State → State → Prop} {P : State → Prop} {n : Nat} {s s' : State}
    (h : Iterate R n s s') (hstep : ∀ a b, R a b → P a → P b) (hs : P s) : P s' := by
  induction n generalizing s with
  | zero =>
    cases h
    exact hs
  | succ n ih =>
    obtain ⟨mid, hfirst, hrest⟩ := h
    exact ih hrest (hstep s mid hfirst hs)

/-! ## Every way of the matcher is a path -/

/-- A consumed character was seen. -/
theorem consume_eq (p : Char → Bool) (s : State) (k : Rest) :
    consume t stop p s k = if t.sees stop p s.pos then k { s with pos := s.pos + 1 } else none := by
  by_cases hpos : s.pos < stop
  · cases hc : t[s.pos]? with
    | none => simp only [consume, Text.sees, hpos, hc, if_true, Option.any_none, Bool.and_false,
        Bool.false_eq_true, if_false]
    | some c => simp only [consume, Text.sees, hpos, hc, if_true, Option.any_some, decide_true,
        Bool.true_and]
  · simp only [consume, Text.sees, hpos, if_false, decide_false, Bool.false_and, Bool.false_eq_true]

theorem consume_eq_some {p : Char → Bool} {s r : State} {k : Rest}
    (h : consume t stop p s k = some r) :
    t.sees stop p s.pos = true ∧ k { s with pos := s.pos + 1 } = some r := by
  rw [consume_eq] at h
  split at h
  · next hsees => exact ⟨hsees, h⟩
  · cases h

variable {step : State → Rest → Option State} {R : State → State → Prop}

theorem times_eq_some
    (hstep : ∀ s k r, step s k = some r → ∃ s', R s s' ∧ k s' = some r) {n : Nat} {s r : State}
    {k : Rest} (h : times step n s k = some r) : ∃ s', Iterate R n s s' ∧ k s' = some r := by
  induction n generalizing s with
  | zero => exact ⟨s, rfl, h⟩
  | succ n ih =>
    obtain ⟨m, hfirst, hrest⟩ := hstep _ _ _ h
    obtain ⟨s', hpath, hk⟩ := ih hrest
    exact ⟨s', ⟨m, hfirst, hpath⟩, hk⟩

theorem upTo_eq_some
    (hstep : ∀ s k r, step s k = some r → ∃ s', R s s' ∧ k s' = some r) {greedy : Bool} {n : Nat}
    {s r : State} {k : Rest} (h : upTo step greedy n s k = some r) :
    ∃ n' s', n' ≤ n ∧ Iterate R n' s s' ∧ k s' = some r := by
  induction n generalizing s with
  | zero => exact ⟨0, s, Nat.le_refl _, rfl, h⟩
  | succ n ih =>
    -- one more repetition, which is the last if it consumed nothing
    have more : (step s fun s' => if s'.pos = s.pos then k s'
          else upTo step greedy n s' k) = some r →
        ∃ n' s', n' ≤ n + 1 ∧ Iterate R n' s s' ∧ k s' = some r := by
      intro hmore
      obtain ⟨m, hfirst, hrest⟩ := hstep _ _ _ hmore
      split at hrest
      · exact ⟨1, m, by omega, ⟨m, hfirst, rfl⟩, hrest⟩
      · obtain ⟨n', s', hle, hpath, hk⟩ := ih hrest
        exact ⟨n' + 1, s', by omega, ⟨m, hfirst, hpath⟩, hk⟩
    have stay : k s = some r → ∃ n' s', n' ≤ n + 1 ∧ Iterate R n' s s' ∧ k s' = some r :=
      fun hk => ⟨0, s, Nat.zero_le _, rfl, hk⟩
    cases greedy with
    | true =>
      simp only [upTo, if_true, Option.orElse_eq_or, Option.or_eq_some_iff] at h
      rcases h with h | ⟨-, h⟩
      · exact more h
      · exact stay h
    | false =>
      simp only [upTo, Bool.false_eq_true, if_false, Option.orElse_eq_or,
        Option.or_eq_some_iff] at h
      rcases h with h | ⟨-, h⟩
      · exact stay h
      · exact more h

/-- Every way that the matcher finds through an expression is a path, and the rest of the work
accepts where it leads. -/
theorem Expr.exists_path {e : Expr} {s r : State} {k : Rest} (h : e.run t stop s k = some r) :
    ∃ s', e.Path t stop s s' ∧ k s' = some r := by
  induction e generalizing s k r with
  | empty => exact ⟨s, rfl, h⟩
  | anyButLineEnd =>
    obtain ⟨hsees, hk⟩ := consume_eq_some h
    exact ⟨_, ⟨hsees, rfl⟩, hk⟩
  | oneOf negated items =>
    obtain ⟨hsees, hk⟩ := consume_eq_some h
    exact ⟨_, ⟨hsees, rfl⟩, hk⟩
  | anchor a =>
    simp only [run] at h
    split at h
    · next ha => exact ⟨s, ⟨ha, rfl⟩, h⟩
    · cases h
  | seq a b iha ihb =>
    obtain ⟨m, hfirst, hrest⟩ := iha h
    obtain ⟨s', hsecond, hk⟩ := ihb hrest
    exact ⟨s', ⟨m, hfirst, hsecond⟩, hk⟩
  | alt a b iha ihb =>
    simp only [run, Option.orElse_eq_or, Option.or_eq_some_iff] at h
    rcases h with h | ⟨-, h⟩
    · obtain ⟨s', hpath, hk⟩ := iha h
      exact ⟨s', .inl hpath, hk⟩
    · obtain ⟨s', hpath, hk⟩ := ihb h
      exact ⟨s', .inr hpath, hk⟩
  | group index body ih =>
    obtain ⟨m, hbody, hk⟩ := ih h
    exact ⟨_, ⟨m, hbody, rfl⟩, hk⟩
  | backref fold index =>
    simp only [run] at h
    split at h
    · cases h
    · next a b hcap =>
      split at h
      · next hat => exact ⟨_, ⟨a, b, hcap, hat, rfl⟩, h⟩
      · cases h
  | many least most greedy body ih =>
    simp only [run] at h
    have hstep : ∀ s k r, body.run t stop s k = some r →
        ∃ s', body.Path t stop s s' ∧ k s' = some r := fun _ _ _ => ih
    obtain ⟨m, hfirst, hrest⟩ := times_eq_some hstep h
    obtain ⟨n, s', hle, hmore, hk⟩ := upTo_eq_some hstep hrest
    refine ⟨s', ⟨least + n, by omega, fun bound hbound => ?_, hfirst.add hmore⟩, hk⟩
    cases hbound
    simp only at hle
    omega
  | ahead negated body ih =>
    simp only [run] at h
    split at h
    · next m hm =>
      cases negated with
      | true => cases h
      | false =>
        obtain ⟨m', hpath, hsome⟩ := ih hm
        cases hsome
        exact ⟨_, ⟨m, hpath, rfl⟩, h⟩
    · next hnone =>
      cases negated with
      | true => exact ⟨s, ⟨hnone, rfl⟩, h⟩
      | false => cases h
  | behind negated width body ih =>
    simp only [run] at h
    split at h
    · next hwidth =>
      split at h
      · next m hm =>
        cases negated with
        | true => cases h
        | false =>
          obtain ⟨m', hpath, hsome⟩ := ih hm
          cases hsome
          exact ⟨_, ⟨hwidth, m, hpath, rfl⟩, h⟩
      · next hnone =>
        cases negated with
        | true => exact ⟨s, ⟨fun _ => hnone, rfl⟩, h⟩
        | false => cases h
    · next hwidth =>
      cases negated with
      | true => exact ⟨s, ⟨fun hle => absurd hle hwidth, rfl⟩, h⟩
      | false => cases h
  | atomic body ih =>
    obtain ⟨m, hm, hk⟩ := Option.bind_eq_some_iff.mp h
    obtain ⟨m', hpath, hsome⟩ := ih hm
    cases hsome
    exact ⟨m, hpath, hk⟩
  | ifGroup index yes no ihyes ihno =>
    simp only [run] at h
    split at h
    · obtain ⟨s', hpath, hk⟩ := ihyes h
      exact ⟨s', .inl hpath, hk⟩
    · obtain ⟨s', hpath, hk⟩ := ihno h
      exact ⟨s', .inr hpath, hk⟩
  | reopen index => exact ⟨_, rfl, h⟩

/-! ## Texts as they are compared -/

theorem Fold.size_text (fold : Fold) (t : Text) : (fold.text t).size = t.size := by
  cases fold with
  | exact => rfl
  | ascii | unicode => exact Array.size_map

/-- A stretch of a text is as long as it is however it is compared. -/
theorem Fold.length_slice (fold : Fold) (first : Nat) {last : Nat} (h : last ≤ t.size) :
    ((fold.text t).slice first last).toList.length = last - first := by
  rw [Text.slice, Array.length_toList, Array.size_extract, fold.size_text, Nat.min_eq_left h]

/-! ## Where paths lead -/

/-- The state and all that it has captured lie between two offsets. -/
structure State.Within (lo hi : Nat) (s : State) : Prop where
  start_le : lo ≤ s.pos
  le_stop : s.pos ≤ hi
  captures : ∀ x ∈ s.captures, lo ≤ x.2.1 ∧ x.2.2 ≤ hi

/-- What a group captured last is among the captures. -/
theorem State.mem_captures {s : State} {index first last : Nat}
    (h : s.captured? index = some (first, last)) : (index, first, last) ∈ s.captures := by
  obtain ⟨l₁, l₂, hl, -⟩ := List.lookup_eq_some_iff.mp h
  exact hl ▸ List.mem_append_right l₁ List.mem_cons_self

@[simp] theorem State.reopen_pos (s : State) (index : Nat) : (s.reopen index).pos = s.pos := by
  unfold reopen
  split
  · rfl
  · split
    · rfl
    · rfl

/-- What is captured when a group begins once more was captured before, or runs from here to where
the group ended. -/
theorem State.mem_reopen {s : State} {index : Nat} {x : Nat × Nat × Nat}
    (h : x ∈ (s.reopen index).captures) : x ∈ s.captures ∨ ∃ first last,
      s.captured? index = some (first, last) ∧ s.pos ≤ last ∧ x = (index, s.pos, last) := by
  unfold reopen at h
  split at h
  · exact .inl h
  · next first last hcap =>
    split at h
    · next hle => exact (List.mem_cons.mp h).symm.imp_right fun hx => ⟨first, last, hcap, hle, hx⟩
    · exact .inl (List.mem_filter.mp h).1

theorem State.Within.captured {s : State} {lo hi index first last : Nat} (hs : s.Within lo hi)
    (h : s.captured? index = some (first, last)) : lo ≤ first ∧ last ≤ hi :=
  hs.captures _ (State.mem_captures h)

theorem State.Within.reopen {s : State} {lo hi : Nat} (hs : s.Within lo hi) (index : Nat) :
    (s.reopen index).Within lo hi where
  start_le := by
    rw [s.reopen_pos index]
    exact hs.start_le
  le_stop := by
    rw [s.reopen_pos index]
    exact hs.le_stop
  captures x hx := by
    rcases mem_reopen hx with hx | ⟨first, last, hcap, -, rfl⟩
    · exact hs.captures x hx
    · exact ⟨hs.start_le, (hs.captured hcap).2⟩

/-- A path through an expression without groups captures nothing. -/
theorem Expr.Path.captures_eq {e : Expr} {s s' : State} (he : e.captures = false)
    (h : e.Path t stop s s') : s'.captures = s.captures := by
  induction e generalizing s s' with
  | empty =>
    cases h
    rfl
  | anyButLineEnd =>
    obtain ⟨-, rfl⟩ := h
    rfl
  | oneOf negated items =>
    obtain ⟨-, rfl⟩ := h
    rfl
  | anchor a => exact congrArg State.captures h.2
  | seq a b iha ihb =>
    simp only [captures, Bool.or_eq_false_iff] at he
    obtain ⟨m, hfirst, hsecond⟩ := h
    rw [ihb he.2 hsecond, iha he.1 hfirst]
  | alt a b iha ihb | ifGroup _ a b iha ihb =>
    simp only [captures, Bool.or_eq_false_iff] at he
    rcases h with h | h
    · exact iha he.1 h
    · exact ihb he.2 h
  | group index body ih => cases he
  | backref fold index =>
    obtain ⟨a, b, -, -, rfl⟩ := h
    rfl
  | many least most greedy body ih =>
    obtain ⟨n, -, -, hn⟩ := h
    exact hn.keeps (P := fun m => m.captures = s.captures)
      (fun a b hab ha => (ih he hab).trans ha) rfl
  | ahead negated body ih =>
    cases negated with
    | true => exact congrArg State.captures h.2
    | false =>
      obtain ⟨m, hpath, rfl⟩ := h
      have heq : m.captures = s.captures := ih he hpath
      exact heq
  | behind negated width body ih =>
    cases negated with
    | true => exact congrArg State.captures h.2
    | false =>
      obtain ⟨-, m, hpath, rfl⟩ := h
      have heq := ih he hpath
      exact heq
  | atomic body ih => exact ih he h
  | reopen index => cases he

/-- A path leads on, and stays with its captures between the bounds it began in, unless the
expression captures behind. -/
theorem Expr.Path.within {e : Expr} {lo : Nat} {s s' : State} (hstop : stop ≤ t.size)
    (he : e.capturesBehind = false) (h : e.Path t stop s s') (hs : s.Within lo stop) :
    s.pos ≤ s'.pos ∧ s'.Within lo stop := by
  induction e generalizing s s' with
  | empty =>
    cases h
    exact ⟨Nat.le_refl _, hs⟩
  | anyButLineEnd =>
    obtain ⟨hsees, rfl⟩ := h
    have := Text.lt_of_sees hsees
    exact ⟨Nat.le_succ _, Nat.le_trans hs.start_le (Nat.le_succ _), this, hs.captures⟩
  | oneOf negated items =>
    obtain ⟨hsees, rfl⟩ := h
    have := Text.lt_of_sees hsees
    exact ⟨Nat.le_succ _, Nat.le_trans hs.start_le (Nat.le_succ _), this, hs.captures⟩
  | anchor a =>
    obtain ⟨-, rfl⟩ := h
    exact ⟨Nat.le_refl _, hs⟩
  | seq a b iha ihb =>
    simp only [capturesBehind, Bool.or_eq_false_iff] at he
    obtain ⟨m, hfirst, hsecond⟩ := h
    obtain ⟨hle, hm⟩ := iha he.1 hfirst hs
    obtain ⟨hle', hs'⟩ := ihb he.2 hsecond hm
    exact ⟨Nat.le_trans hle hle', hs'⟩
  | alt a b iha ihb | ifGroup _ a b iha ihb =>
    simp only [capturesBehind, Bool.or_eq_false_iff] at he
    rcases h with h | h
    · exact iha he.1 h hs
    · exact ihb he.2 h hs
  | group index body ih =>
    obtain ⟨m, hbody, rfl⟩ := h
    obtain ⟨hle, hm⟩ := ih he hbody hs
    refine ⟨hle, hm.start_le, hm.le_stop, fun x hx => ?_⟩
    rcases List.mem_cons.mp hx with rfl | hx
    · exact ⟨hs.start_le, hm.le_stop⟩
    · exact hm.captures x hx
  | backref fold index =>
    obtain ⟨a, b, hcap, hat, rfl⟩ := h
    refine ⟨Nat.le_add_right _ _, Nat.le_trans hs.start_le (Nat.le_add_right _ _), ?_, hs.captures⟩
    -- the repeated text is as long as the captured one, which lies in the text
    by_cases hab : a < b
    · have hb : b ≤ stop := (hs.captured hcap).2
      have hlen := fold.length_slice a (Nat.le_trans hb hstop)
      have hne : ((fold.text t).slice a b).toList ≠ [] := List.ne_nil_of_length_pos (by omega)
      have := Text.startsAt_end_le hne hat
      rwa [hlen] at this
    · have hzero : b - a = 0 := by omega
      simpa only [hzero, Nat.add_zero] using hs.le_stop
  | many least most greedy body ih =>
    obtain ⟨n, -, -, hn⟩ := h
    exact hn.keeps (P := fun m => s.pos ≤ m.pos ∧ m.Within lo stop)
      (fun a b hab ha => ⟨Nat.le_trans ha.1 (ih he hab ha.2).1, (ih he hab ha.2).2⟩)
      ⟨Nat.le_refl _, hs⟩
  | ahead negated body ih =>
    cases negated with
    | true =>
      obtain ⟨-, rfl⟩ := h
      exact ⟨Nat.le_refl _, hs⟩
    | false =>
      obtain ⟨m, hpath, rfl⟩ := h
      exact ⟨Nat.le_refl _, hs.start_le, hs.le_stop, (ih he hpath hs).2.captures⟩
  | behind negated width body ih =>
    cases negated with
    | true =>
      obtain ⟨-, rfl⟩ := h
      exact ⟨Nat.le_refl _, hs⟩
    | false =>
      obtain ⟨-, m, hpath, rfl⟩ := h
      refine ⟨Nat.le_refl _, hs.start_le, hs.le_stop, ?_⟩
      rw [hpath.captures_eq he]
      exact hs.captures
  | atomic body ih => exact ih he h hs
  | reopen index =>
    cases h
    exact ⟨Nat.le_of_eq (s.reopen_pos index).symm, hs.reopen index⟩

/-! ## Where matches lie -/

/-- A match and every group of it lie between the offset where it began and the end of the text,
unless the expression captures behind. -/
theorem matchAt?_extent {r : Regex} {pos index first last : Nat} {m : Match}
    (hstop : stop ≤ t.size) (hpos : pos ≤ stop) (hr : r.body.capturesBehind = false)
    (h : matchAt? r t pos stop = some m) (hm : m.extent? index = some (first, last)) :
    pos ≤ first ∧ last ≤ stop := by
  obtain ⟨s, hrun, rfl⟩ := Option.map_eq_some_iff.mp h
  obtain ⟨s', hpath, hsome⟩ := Expr.exists_path hrun
  cases hsome
  have hstart : State.Within pos stop ⟨pos, []⟩ :=
    ⟨Nat.le_refl _, hpos, fun x hx => absurd hx List.not_mem_nil⟩
  obtain ⟨-, hs⟩ := hpath.within hstop hr hstart
  cases index with
  | zero =>
    simp only [Match.extent?, Option.some.injEq, Prod.mk.injEq] at hm
    obtain ⟨rfl, rfl⟩ := hm
    exact ⟨Nat.le_refl _, hs.le_stop⟩
  | succ index =>
    have hcaptured : s.captured? (index + 1) = some (first, last) := hm
    exact hs.captures _ (State.mem_captures hcaptured)

end VSyntax.Regex
