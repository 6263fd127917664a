import VSyntax.Proofs.Regex.Path

/-!
# Expressions under a bound

When the end of the text may be moved without a change to what the matcher finds. An expression
stops at a character (`Expr.stopsAt`) if it never takes the character in, neither ahead of the
offset, and asks for no end of a text or line. Before such a character the matcher finds the same
whether the text goes on there or ends (`Expr.run_cut`). An assertion on what stands behind only
reads what lies before the offset; it needs no more than that its expression reaches no further than
its width (`Expr.reach?`).

The two runs count their repetitions by the characters that are left, so they count differently;
`upTo_cut` says that any two sufficient counts give the same.
-/
namespace VSyntax.Regex

variable {t : Text} {c : Char} {q stop : Nat}

/-! ## Reach -/

/-- Whether an anchor asks for nothing that stands ahead, but for characters of a word. -/
def Anchor.endless : Anchor → Bool
  | .textStart | .lineStart | .wordEdge .word | .noWordEdge .word => true
  | .textEnd | .lastLineEnd | .lineEnd | .wordEdge _ | .noWordEdge _ => false

/-- How many characters at most an expression without repetitions, references and assertions
reads. -/
def Expr.reach? : Expr → Option Nat
  | .empty => some 0
  | .anyButLineEnd | .oneOf _ _ => some 1
  | .anchor a => if a.endless then some 0 else none
  | .seq a b => do return (← a.reach?) + (← b.reach?)
  | .alt a b => do return max (← a.reach?) (← b.reach?)
  | .group _ body => body.reach?
  | .backref _ _ | .many _ _ _ _ | .ahead _ _ | .behind _ _ _ | .atomic _ | .ifGroup _ _ _
  | .reopen _ => none

/-- Whether an expression is known to take nothing in where `c` stands, and nothing beyond. -/
def Expr.stopsAt (c : Char) : Expr → Bool
  | .empty => true
  | .anyButLineEnd => c == '\n'
  | .oneOf negated items => items.any (·.holds c) == negated
  | .anchor a => a.endless
  | .seq a b | .alt a b => a.stopsAt c && b.stopsAt c
  | .group _ body | .many _ _ _ body | .ahead _ body => body.stopsAt c
  | .backref _ _ | .atomic _ | .ifGroup _ _ _ | .reopen _ => false
  | .behind _ width body => body.reach?.any (· ≤ width)

/-! ## Cuts -/

/-- The text goes on after `q` up to `stop` only with a character `c` that is not of a word. -/
structure Cut (t : Text) (c : Char) (q stop : Nat) : Prop where
  pos : 0 < q
  le : q ≤ stop
  char : q < stop → t[q]? = some c
  not_word : isWordChar c = false

variable {s : State} {k k' : Rest}

/-- A condition that the character at the cut fails is seen or not on both sides alike. -/
theorem Cut.sees_eq (h : Cut t c q stop) {p : Char → Bool} (hp : p c = false) {pos : Nat}
    (hpos : pos ≤ q) : t.sees q p pos = t.sees stop p pos := by
  rcases Nat.eq_or_lt_of_le hpos with rfl | hlt
  · have hout : t.sees pos p pos = false := Bool.eq_false_iff.mpr fun hsees =>
      absurd (Text.lt_of_sees hsees) (Nat.lt_irrefl _)
    rw [hout]
    symm
    rw [Bool.eq_false_iff]
    intro hsees
    obtain ⟨hlt, c', hc', hp'⟩ := Text.sees_iff.mp hsees
    rw [h.char hlt] at hc'
    cases hc'
    rw [hp] at hp'
    cases hp'
  · exact Text.sees_cut h.le hlt

theorem Cut.holds_eq (h : Cut t c q stop) {a : Anchor} (ha : a.endless = true) {pos : Nat}
    (hpos : pos ≤ q) : a.holds t q pos = a.holds t stop pos := by
  have hword : kindAt .word t q pos = kindAt .word t stop pos := h.sees_eq h.not_word hpos
  have hq : (q != 0) = true := bne_iff_ne.mpr (Nat.ne_of_gt h.pos)
  have hstop : (stop != 0) = true := bne_iff_ne.mpr (Nat.ne_of_gt (Nat.lt_of_lt_of_le h.pos h.le))
  cases a with
  | textStart => rfl
  | lineStart => rfl
  | textEnd => cases ha
  | lastLineEnd => cases ha
  | lineEnd => cases ha
  | wordEdge words | noWordEdge words =>
    cases words with
    | word => simp only [Anchor.holds, hword, hq, hstop]
    | _ => cases ha

/-! ## Assertions behind -/

/-- An expression that ends its reach by the cut is run alike on both sides. -/
theorem Expr.run_reach {e : Expr} {n : Nat} (h : Cut t c q stop) (he : e.reach? = some n)
    (hs : s.pos + n ≤ q) (hk : ∀ s', s'.pos ≤ s.pos + n → k s' = k' s') :
    e.run t q s k = e.run t stop s k' := by
  induction e generalizing s n k k' with
  | empty => exact hk s (Nat.le_add_right _ _)
  | anyButLineEnd =>
    cases he
    simp only [run, consume_eq, Text.sees_cut h.le hs,
      hk { s with pos := s.pos + 1 } (Nat.le_refl _)]
  | oneOf negated items =>
    cases he
    simp only [run, consume_eq, Text.sees_cut h.le hs,
      hk { s with pos := s.pos + 1 } (Nat.le_refl _)]
  | anchor a =>
    simp only [reach?] at he
    split at he
    · next ha =>
      simp only [run, h.holds_eq ha (Nat.le_trans (Nat.le_add_right _ _) hs),
        hk s (Nat.le_add_right _ _)]
    · cases he
  | seq a b iha ihb =>
    simp only [reach?, Option.bind_eq_bind, Option.bind_eq_some_iff, pure, Option.some.injEq] at he
    obtain ⟨na, hna, nb, hnb, rfl⟩ := he
    apply iha hna (by omega)
    intro s' hs'
    exact ihb hnb (by omega) fun s'' hs'' => hk s'' (by omega)
  | alt a b iha ihb =>
    simp only [reach?, Option.bind_eq_bind, Option.bind_eq_some_iff, pure, Option.some.injEq] at he
    obtain ⟨na, hna, nb, hnb, rfl⟩ := he
    simp only [run]
    rw [iha hna (by omega) fun s' hs' => hk s' (by omega),
      ihb hnb (by omega) fun s' hs' => hk s' (by omega)]
  | group index body ih => exact ih he hs fun s' hs' => hk _ hs'
  | backref | many | ahead | behind | atomic | ifGroup | reopen => cases he

/-! ## Repetitions -/

section

-- `Apt` is what a step asks of the rest, such as to refuse all states behind the cut
variable {step step' : State → Rest → Option State} {Apt : Rest → Prop}
  (hstep : ∀ (s : State) (k k' : Rest), s.pos ≤ q →
    (∀ s', s.pos ≤ s'.pos → s'.pos ≤ q → k s' = k' s') → Apt k' → step s k = step' s k')

include hstep

theorem times_cut {n : Nat} (hs : s.pos ≤ q)
    (hk : ∀ s', s.pos ≤ s'.pos → s'.pos ≤ q → k s' = k' s')
    (hapt : ∀ n, Apt fun s' => times step' n s' k') : times step n s k = times step' n s k' := by
  induction n generalizing s with
  | zero => exact hk s (Nat.le_refl _) hs
  | succ n ih =>
    refine hstep s _ _ hs ?_ (hapt n)
    intro s' hle hs'
    exact ih hs' fun s'' hle' hs'' => hk s'' (Nat.le_trans hle hle') hs''

/-- Two counts of repetitions that are the same, or both as many as the characters before the cut
allow, give the same. -/
theorem upTo_cut {greedy : Bool} {n m : Nat} (hs : s.pos ≤ q)
    (hnm : n = m ∨ q < s.pos + n ∧ q < s.pos + m)
    (hk : ∀ s', s.pos ≤ s'.pos → s'.pos ≤ q → k s' = k' s')
    (hapt : ∀ m x, Apt fun s' => if s'.pos = x then k' s' else upTo step' greedy m s' k') :
    upTo step greedy n s k = upTo step' greedy m s k' := by
  induction n generalizing m s with
  | zero =>
    have hm : m = 0 := by omega
    subst hm
    exact hk s (Nat.le_refl _) hs
  | succ n ih =>
    obtain ⟨m, rfl⟩ : ∃ i, m = i + 1 := ⟨m - 1, by omega⟩
    have more : (step s fun s' => if s'.pos = s.pos then k s' else upTo step greedy n s' k) =
        step' s fun s' => if s'.pos = s.pos then k' s' else upTo step' greedy m s' k' := by
      refine hstep s _ _ hs ?_ (hapt m s.pos)
      intro s' hle hs'
      by_cases heq : s'.pos = s.pos
      · rw [if_pos heq, if_pos heq]
        exact hk s' hle hs'
      · rw [if_neg heq, if_neg heq]
        exact ih hs' (by omega) fun s'' hle' hs'' => hk s'' (Nat.le_trans hle hle') hs''
    simp only [upTo, more, hk s (Nat.le_refl _) hs]

end

/-! ## Expressions -/

/-- Before a character at which an expression stops, the matcher finds the same whether the text
ends there or goes on, if the rest of the work agrees up to there. -/
theorem Expr.run_cut {e : Expr} (h : Cut t c q stop) (he : e.stopsAt c = true) (hs : s.pos ≤ q)
    (hk : ∀ s', s.pos ≤ s'.pos → s'.pos ≤ q → k s' = k' s') :
    e.run t q s k = e.run t stop s k' := by
  induction e generalizing s k k' with
  | empty => exact hk s (Nat.le_refl _) hs
  | anyButLineEnd =>
    have hc : (c != '\n') = false := by
      rw [beq_iff_eq.mp he]
      rfl
    simp only [run, consume_eq, h.sees_eq (p := (· != '\n')) hc hs]
    split
    · next hsees =>
      rw [← h.sees_eq (p := (· != '\n')) hc hs] at hsees
      exact hk _ (Nat.le_succ _) (Text.lt_of_sees hsees)
    · rfl
  | oneOf negated items =>
    have hc : (items.any (·.holds c) != negated) = false := by
      rw [beq_iff_eq.mp he, bne_self_eq_false]
    simp only [run, consume_eq, h.sees_eq (p := fun c => items.any (·.holds c) != negated) hc hs]
    split
    · next hsees =>
      rw [← h.sees_eq (p := fun c => items.any (·.holds c) != negated) hc hs] at hsees
      exact hk _ (Nat.le_succ _) (Text.lt_of_sees hsees)
    · rfl
  | anchor a => simp only [run, h.holds_eq he hs, hk s (Nat.le_refl _) hs]
  | seq a b iha ihb =>
    obtain ⟨ha, hb⟩ := Bool.and_eq_true_iff.mp he
    apply iha ha hs
    intro s' hle hs'
    exact ihb hb hs' fun s'' hle' hs'' => hk s'' (Nat.le_trans hle hle') hs''
  | alt a b iha ihb =>
    obtain ⟨ha, hb⟩ := Bool.and_eq_true_iff.mp he
    simp only [run]
    rw [iha ha hs hk, ihb hb hs hk]
  | group index body ih => exact ih he hs fun s' hle hs' => hk _ hle hs'
  | backref | atomic | ifGroup | reopen => cases he
  | many least most greedy body ih =>
    have hstep : ∀ (s : State) (k k' : Rest), s.pos ≤ q →
        (∀ s', s.pos ≤ s'.pos → s'.pos ≤ q → k s' = k' s') → True →
        body.run t q s k = body.run t stop s k' := fun _ _ _ hs hk _ => ih he hs hk
    refine times_cut hstep hs ?_ fun _ => trivial
    intro s' hle hs'
    have hle' := h.le
    refine upTo_cut hstep hs' ?_
      (fun s'' hle' hs'' => hk s'' (Nat.le_trans hle hle') hs'') fun _ _ => trivial
    cases most with
    | some m => exact .inl rfl
    | none =>
      refine .inr ⟨?_, ?_⟩
      · simp only
        omega
      · simp only
        omega
  | ahead negated body ih =>
    have hbody : body.run t q s some = body.run t stop s some := ih he hs fun _ _ _ => rfl
    have hback : ∀ s' : State, k { s' with pos := s.pos } = k' { s' with pos := s.pos } :=
      fun _ => hk _ (Nat.le_refl _) hs
    simp only [run, hbody, hk s (Nat.le_refl _) hs, hback]
  | behind negated width body ih =>
    obtain ⟨n, hn, hle⟩ := (Option.any_eq_true _ _).mp he
    have hle : n ≤ width := of_decide_eq_true hle
    have hback : ∀ s' : State, k { s' with pos := s.pos } = k' { s' with pos := s.pos } :=
      fun _ => hk _ (Nat.le_refl _) hs
    simp only [run, hk s (Nat.le_refl _) hs, hback]
    by_cases hwidth : width ≤ s.pos
    · have hreach : s.pos - width + n ≤ q := by omega
      have hbody : body.run t q { s with pos := s.pos - width } some =
          body.run t stop { s with pos := s.pos - width } some :=
        run_reach h hn hreach fun _ _ => rfl
      rw [hbody]
    · rw [if_neg hwidth, if_neg hwidth]

/-- A match is found before a character at which the expression stops, wherever the text ends
from there on. -/
theorem matchAt?_cut {r : Regex} (h : Cut t c q stop) (hr : r.body.stopsAt c = true) {pos : Nat}
    (hpos : pos ≤ q) : matchAt? r t pos q = matchAt? r t pos stop := by
  have hrun : r.body.run t q ⟨pos, []⟩ some = r.body.run t stop ⟨pos, []⟩ some :=
    Expr.run_cut h hr hpos fun _ _ _ => rfl
  simp only [matchAt?, hrun]

end VSyntax.Regex
