import VSyntax.Proofs.Regex.Agree

/-!
# Matches in texts with the same front

An expression, whatever it looks at behind or repeats of what it captured, reads nothing at or after
the end that the matcher is given. So two texts with the same characters before that end have the
same matches (`matchAt?_front`).

The two runs take the same states. What is kept along them is that a state and its captures lie
before the end (`State.Within`): a reference back then repeats a part that both texts have. The rest
of the work needs to agree on such states only.
-/
namespace VSyntax.Regex

open Text (Agree)

variable {t t' : Text} {stop pos first last : Nat} {p : Char → Bool} {s : State} {k k' : Rest}

/-! ## Steps that agree -/

section

variable {step step' : State → Rest → Option State} {P : State → Prop}
  (hstep : ∀ (s : State) (k k' : Rest), P s → (∀ s', P s' → k s' = k' s') → step s k = step' s k')

include hstep

theorem times_congr {n : Nat} (hs : P s) (hk : ∀ s', P s' → k s' = k' s') :
    times step n s k = times step' n s k' := by
  induction n generalizing s with
  | zero => exact hk s hs
  | succ n ih =>
    apply hstep s _ _ hs
    intro s' hs'
    exact ih hs'

theorem upTo_congr {greedy : Bool} {n : Nat} (hs : P s) (hk : ∀ s', P s' → k s' = k' s') :
    upTo step greedy n s k = upTo step' greedy n s k' := by
  induction n generalizing s with
  | zero => exact hk s hs
  | succ n ih =>
    have hmore : (step s fun s' => if s'.pos = s.pos then k s' else upTo step greedy n s' k) =
        step' s fun s' => if s'.pos = s.pos then k' s' else upTo step' greedy n s' k' := by
      apply hstep s _ _ hs
      intro s' hs'
      rw [hk s' hs', ih hs']
    simp only [upTo, hmore, hk s hs]

end

/-! ## What is read -/

theorem sees_front (h : t.Agree t' 0 0 stop) : t.sees stop p pos = t'.sees stop p pos := by
  have hsees : t.sees (0 + stop) p (0 + pos) = t'.sees (0 + stop) p (0 + pos) :=
    h.sees_eq (Nat.le_refl _)
  simpa only [Nat.zero_add] using hsees

theorem consume_front (h : t.Agree t' 0 0 stop)
    (hk : s.pos + 1 ≤ stop → k { s with pos := s.pos + 1 } = k' { s with pos := s.pos + 1 }) :
    consume t stop p s k = consume t' stop p s k' := by
  rw [consume_eq, consume_eq, sees_front h]
  split
  · next hsees => exact hk (Text.lt_of_sees hsees)
  · rfl

theorem Anchor.holds_front (h : t.Agree t' 0 0 stop) (hpos : pos ≤ stop) (a : Anchor) :
    a.holds t stop pos = a.holds t' stop pos := by
  have hholds : a.holds t (0 + stop) (0 + pos) = a.holds t' (0 + stop) (0 + pos) :=
    a.holds_agree h (Nat.le_refl _) hpos (.inr ⟨rfl, rfl⟩)
  simpa only [Nat.zero_add] using hholds

/-- Texts that agree do so however they are compared. -/
theorem Fold.agree_text {a b n : Nat} (fold : Fold) (h : t.Agree t' a b n) :
    (fold.text t).Agree (fold.text t') a b n where
  same x hx := by
    cases fold with
    | exact => exact h.same x hx
    | ascii | unicode => simp only [text, Array.getElem?_map, h.same x hx]
  le_size := by
    rw [fold.size_text]
    exact h.le_size
  le_size' := by
    rw [fold.size_text]
    exact h.le_size'

/-- A part of the front, repeated. -/
theorem startsAt_slice_front (h : t.Agree t' 0 0 stop) (hlast : last ≤ stop) :
    t.startsAt (t.slice first last).toList pos stop =
      t'.startsAt (t'.slice first last).toList pos stop := by
  have hslice : t.slice (0 + first) (0 + last) = t'.slice (0 + first) (0 + last) :=
    h.slice_eq hlast
  have hstarts : ∀ part, t.startsAt part (0 + pos) (0 + stop) =
      t'.startsAt part (0 + pos) (0 + stop) := fun _ => h.startsAt_eq (Nat.le_refl _)
  simp only [Nat.zero_add] at hslice hstarts
  rw [hslice, hstarts]

/-! ## Expressions -/

theorem Expr.capturesBehind_of_captures {e : Expr} (h : e.captures = false) :
    e.capturesBehind = false := by
  induction e with
  | empty | anyButLineEnd | oneOf | anchor | backref => rfl
  | seq a b iha ihb | alt a b iha ihb | ifGroup _ a b iha ihb =>
    obtain ⟨ha, hb⟩ := Bool.or_eq_false_iff.mp h
    exact Bool.or_eq_false_iff.mpr ⟨iha ha, ihb hb⟩
  | group | reopen => cases h
  | many _ _ _ _ ih | ahead _ _ ih | atomic _ ih => exact ih h
  | behind => exact h

/-- What an expression finds on its own lies before the end. -/
theorem Expr.run_within {e : Expr} {s' : State} (hstop : stop ≤ t.size)
    (he : e.capturesBehind = false) (hs : s.Within 0 stop) (hrun : e.run t stop s some = some s') :
    s'.Within 0 stop := by
  obtain ⟨m, hpath, hsome⟩ := exists_path hrun
  cases hsome
  exact (hpath.within hstop he hs).2

/-- Where the texts have the same front, an expression has the same runs. -/
theorem Expr.run_front {e : Expr} (h : t.Agree t' 0 0 stop) (he : e.capturesBehind = false)
    (hs : s.Within 0 stop) (hk : ∀ s' : State, s'.Within 0 stop → k s' = k' s') :
    e.run t stop s k = e.run t' stop s k' := by
  have hstop : stop ≤ t'.size := by
    have hsize := h.le_size'
    omega
  induction e generalizing s k k' with
  | empty => exact hk s hs
  | anyButLineEnd | oneOf =>
    apply consume_front h
    intro hlt
    exact hk _ ⟨Nat.zero_le _, hlt, hs.captures⟩
  | anchor a => rw [run, run, a.holds_front h hs.le_stop, hk s hs]
  | seq a b iha ihb =>
    obtain ⟨ha, hb⟩ := Bool.or_eq_false_iff.mp he
    apply iha ha hs
    intro s' hs'
    exact ihb hb hs' hk
  | alt a b iha ihb =>
    obtain ⟨ha, hb⟩ := Bool.or_eq_false_iff.mp he
    rw [run, run, iha ha hs hk, ihb hb hs hk]
  | group index body ih =>
    apply ih he hs
    intro s' hs'
    refine hk _ ⟨hs'.start_le, hs'.le_stop, fun x hx => ?_⟩
    rcases List.mem_cons.mp hx with rfl | hx
    · exact ⟨Nat.zero_le _, hs'.le_stop⟩
    · exact hs'.captures x hx
  | backref fold index =>
    simp only [run]
    cases hcap : s.captured? index with
    | none => rfl
    | some c =>
      obtain ⟨first, last⟩ := c
      simp only [startsAt_slice_front (fold.agree_text h) (hs.captured hcap).2]
      split
      · next hat =>
        -- the state behind the repeated part is one that a path leads to
        have hpath : (Expr.backref fold index).Path t' stop s
            { s with pos := s.pos + (last - first) } := ⟨first, last, hcap, hat, rfl⟩
        exact hk _ (hpath.within hstop rfl hs).2
      · rfl
  | many least most greedy body ih =>
    have hstep : ∀ (s : State) (k k' : Rest), s.Within 0 stop →
        (∀ s' : State, s'.Within 0 stop → k s' = k' s') →
        body.run t stop s k = body.run t' stop s k' := fun _ _ _ hs hk => ih he hs hk
    apply times_congr hstep hs
    intro s' hs'
    exact upTo_congr hstep hs' hk
  | ahead negated body ih =>
    have he : body.capturesBehind = false := he
    have hbody : body.run t stop s some = body.run t' stop s some := ih he hs fun _ _ => rfl
    simp only [run, hbody]
    cases hfound : body.run t' stop s some with
    | none => simp only [hk s hs]
    | some s' =>
      have hs' := run_within hstop he hs hfound
      simp only [hk { s' with pos := s.pos } ⟨hs.start_le, hs.le_stop, hs'.captures⟩]
  | behind negated width body ih =>
    have hnone : body.capturesBehind = false := capturesBehind_of_captures he
    have hback : ({ s with pos := s.pos - width } : State).Within 0 stop :=
      ⟨Nat.zero_le _, Nat.le_trans (Nat.sub_le _ _) hs.le_stop, hs.captures⟩
    have hbody : body.run t stop { s with pos := s.pos - width } some =
        body.run t' stop { s with pos := s.pos - width } some := ih hnone hback fun _ _ => rfl
    simp only [run, hbody, hk s hs]
    cases hfound : body.run t' stop { s with pos := s.pos - width } some with
    | none => rfl
    | some s' =>
      have hs' := run_within hstop hnone hback hfound
      simp only [hk { s' with pos := s.pos } ⟨hs.start_le, hs.le_stop, hs'.captures⟩]
  | atomic body ih =>
    have he : body.capturesBehind = false := he
    have hbody : body.run t stop s some = body.run t' stop s some := ih he hs fun _ _ => rfl
    rw [run, run, hbody]
    cases hfound : body.run t' stop s some with
    | none => rfl
    | some s' => exact hk s' (run_within hstop he hs hfound)
  | ifGroup index yes no ihyes ihno =>
    obtain ⟨hyes, hno⟩ := Bool.or_eq_false_iff.mp he
    rw [run, run, ihyes hyes hs hk, ihno hno hs hk]
  | reopen index => exact hk _ (hs.reopen index)

/-! ## Matches -/

/-- Where the texts have the same front, a regular expression has the same match at an offset. -/
theorem matchAt?_front {r : Regex} (h : t.Agree t' 0 0 stop)
    (hr : r.body.capturesBehind = false) (hpos : pos ≤ stop) :
    matchAt? r t pos stop = matchAt? r t' pos stop := by
  have hstart : State.Within 0 stop ⟨pos, []⟩ :=
    ⟨Nat.zero_le _, hpos, fun x hx => absurd hx List.not_mem_nil⟩
  have hrun : r.body.run t stop ⟨pos, []⟩ some = r.body.run t' stop ⟨pos, []⟩ some :=
    Expr.run_front h hr hstart fun _ _ => rfl
  rw [matchAt?, matchAt?, hrun]

end VSyntax.Regex
