import VSyntax.Proofs.Regex.Agree
import VSyntax.Proofs.Regex.Reading

/-!
# Expressions that keep to a line

An expression keeps to the line if none of its character sets names a line end, and its anchors ask
for nothing that depends on the lines around (`Expr.inLine`). What it takes in is of one line
(`Expr.Path.inLine`), and on a stretch of whole lines it finds the same wherever the stretch stands,
in front of whatever else the text holds (`matchAt?_lines`).

The matcher counts repetitions by the characters up to the end of the text, so two texts allow
different counts; both are enough for the stretch.
-/
namespace VSyntax

/-- The `n` characters from `a` on are whole lines of the text, but for the line end of the last. -/
structure Text.WholeLines (t : Text) (a n : Nat) : Prop where
  starts : a = 0 ∨ t[a - 1]? = some '\n'
  ends : a + n = t.size ∨ t[a + n]? = some '\n'

/-- The texts have the same `n` characters as whole lines, the one from `a` on and the other from
`b` on. -/
structure Text.SameLines (t t' : Text) (a b n : Nat) : Prop where
  agree : t.Agree t' a b n
  lines : t.WholeLines a n
  lines' : t'.WholeLines b n

namespace Regex

variable {t t' : Text} {a b n x stop : Nat} {s s' : State} {k k' : Rest} {p : Char → Bool}

/-! ## Keeping to the line -/

/-- Whether an anchor is known to ask for nothing but what stands on the line. -/
def Anchor.inLine : Anchor → Bool
  | .lineStart | .lineEnd | .wordEdge .word => true
  | .textStart | .textEnd | .lastLineEnd | .wordEdge _ | .noWordEdge _ => false

/-- Whether an expression is known to read nothing but what stands on the line. -/
def Expr.inLine : Expr → Bool
  | .empty | .anyButLineEnd => true
  | .oneOf negated items => items.any (·.holds '\n') == negated
  | .anchor a => a.inLine
  | .seq a b | .alt a b => a.inLine && b.inLine
  | .group _ body | .many _ _ _ body | .ahead _ body => body.inLine
  | .backref _ _ | .behind _ _ _ | .atomic _ | .ifGroup _ _ _ | .reopen _ => false

/-- A character of the set of an expression that keeps to the line is no line end. -/
theorem ne_lineEnd_of_oneOf {negated : Bool} {items : List CharItem} {c : Char}
    (he : (Expr.oneOf negated items).inLine = true)
    (hc : (items.any (·.holds c) != negated) = true) : (c != '\n') = true := by
  rw [bne_iff_ne]
  rintro rfl
  rw [beq_iff_eq.mp he, bne_self_eq_false] at hc
  cases hc

/-- An expression that keeps to the line takes in no line end. -/
theorem Expr.takesIn_of_inLine {e : Expr} (he : e.inLine = true) : e.TakesIn (· != '\n') := by
  induction e with
  | empty | anchor | ahead => trivial
  | anyButLineEnd => exact fun _ hc => hc
  | oneOf negated items => exact fun _ hc => ne_lineEnd_of_oneOf he hc
  | backref | behind | atomic | ifGroup | reopen => cases he
  | seq a b iha ihb | alt a b iha ihb =>
    obtain ⟨ha, hb⟩ := Bool.and_eq_true_iff.mp he
    exact ⟨iha ha, ihb hb⟩
  | group _ _ ih | many _ _ _ _ ih => exact ih he

/-- A path through an expression that keeps to the line leads on and takes in no line end. -/
theorem Expr.Path.inLine {e : Expr} (he : e.inLine = true) (h : e.Path t stop s s') :
    s.pos ≤ s'.pos ∧ t.Spelled (· != '\n') s.pos s'.pos :=
  h.spelled (takesIn_of_inLine he)

/-! ## The same lines -/

/-- After whole lines no character is seen but a line end. -/
theorem not_sees_of_wholeLines (h : t.WholeLines a n) (hp : p '\n' = false) :
    t.sees t.size p (a + n) = false := by
  rw [Bool.eq_false_iff]
  intro hsees
  obtain ⟨hlt, c, hc, hpc⟩ := Text.sees_iff.mp hsees
  rcases h.ends with hend | hend
  · omega
  · rw [hend] at hc
    cases hc
    rw [hp] at hpc
    cases hpc

/-- A condition that no line end satisfies is seen in both texts or in neither. -/
theorem sees_lines (h : t.SameLines t' a b n) (hp : p '\n' = false) (hx : x ≤ n) :
    t.sees t.size p (a + x) = t'.sees t'.size p (b + x) := by
  rcases Nat.eq_or_lt_of_le hx with rfl | hlt
  · rw [not_sees_of_wholeLines h.lines hp, not_sees_of_wholeLines h.lines' hp]
  · have hsize := h.agree.le_size
    have hsize' := h.agree.le_size'
    have hin : a + x < t.size := by omega
    have hin' : b + x < t'.size := by omega
    simp only [Text.sees, h.agree.same x hlt, hin, hin']

theorem lt_of_sees_lines (h : t.WholeLines a n) (hp : p '\n' = false) (hx : x ≤ n)
    (hsees : t.sees t.size p (a + x) = true) : x < n := by
  rcases Nat.eq_or_lt_of_le hx with rfl | hlt
  · rw [not_sees_of_wholeLines h hp] at hsees
    cases hsees
  · exact hlt

theorem consume_lines (h : t.SameLines t' a b n) (hp : p '\n' = false) (hs : s.pos ≤ n)
    (hk : s.pos + 1 ≤ n → Alike a b (k (State.up a { s with pos := s.pos + 1 }))
      (k' (State.up b { s with pos := s.pos + 1 }))) :
    Alike a b (consume t t.size p (s.up a) k) (consume t' t'.size p (s.up b) k') := by
  rw [consume_eq, consume_eq]
  show Alike a b (if t.sees t.size p (a + s.pos) then _ else _)
    (if t'.sees t'.size p (b + s.pos) then _ else _)
  rw [← sees_lines h hp hs]
  split
  · next hseen => exact hk (lt_of_sees_lines h.lines hp hs hseen)
  · exact .none

/-- In front of whole lines there is a line end, or nothing. -/
theorem kindBefore_wholeLines (h : t.WholeLines a n) : kindBefore .word t a = false := by
  cases a with
  | zero => rfl
  | succ a =>
    rcases h.starts with hzero | hbreak
    · exact absurd hzero (Nat.succ_ne_zero a)
    · have hbreak : t[a]? = some '\n' := hbreak
      simp only [kindBefore, hbreak, Option.any_some]
      decide

theorem lineStart_wholeLines (h : t.WholeLines a n) :
    Anchor.lineStart.holds t stop a = true := by
  rw [Anchor.holds, Bool.or_eq_true, beq_iff_eq, beq_iff_eq]
  exact h.starts

theorem lineEnd_wholeLines (h : t.WholeLines a n) :
    Anchor.lineEnd.holds t t.size (a + n) = true := by
  rw [Anchor.holds, Bool.or_eq_true, beq_iff_eq, beq_iff_eq]
  exact h.ends

/-- There is a word edge where the words around differ; the text need not be asked for its size. -/
theorem wordEdge_holds {words : CharKind} (h : x ≤ t.size) :
    (Anchor.wordEdge words).holds t t.size x =
      (kindBefore words t x != kindAt words t t.size x) := by
  rw [Anchor.holds]
  by_cases hsize : t.size = 0
  · obtain rfl : x = 0 := by omega
    have hat : kindAt words t t.size 0 = false := by
      rw [hsize]
      rfl
    rw [hat, hsize]
    rfl
  · rw [bne_iff_ne.mpr hsize, Bool.true_and]

/-- An anchor that asks for the line alone holds in both texts or in neither. -/
theorem Anchor.holds_lines (h : t.SameLines t' a b n) (hx : x ≤ n) {c : Anchor}
    (hc : c.inLine = true) : c.holds t t.size (a + x) = c.holds t' t'.size (b + x) := by
  have hsize := h.agree.le_size
  have hsize' := h.agree.le_size'
  cases c with
  | lineStart =>
    cases x with
    | zero => exact (lineStart_wholeLines h.lines).trans (lineStart_wholeLines h.lines').symm
    | succ y =>
      have hsame : t[a + (y + 1) - 1]? = t'[b + (y + 1) - 1]? := h.agree.same y (by omega)
      have hpos : (a + (y + 1) == 0) = (b + (y + 1) == 0) := rfl
      simp only [holds, hsame, hpos]
  | lineEnd =>
    rcases Nat.eq_or_lt_of_le hx with rfl | hlt
    · rw [lineEnd_wholeLines h.lines, lineEnd_wholeLines h.lines']
    · have hend : (a + x == t.size) = (b + x == t'.size) := by
        rw [Bool.eq_iff_iff, beq_iff_eq, beq_iff_eq]
        omega
      simp only [holds, hend, h.agree.same x hlt]
  | wordEdge words =>
    obtain rfl : words = .word := by
      cases words with
      | word => rfl
      | _ => cases hc
    rw [wordEdge_holds (by omega), wordEdge_holds (by omega)]
    have hat : kindAt .word t t.size (a + x) = kindAt .word t' t'.size (b + x) :=
      sees_lines h (by decide) hx
    have hbefore : kindBefore .word t (a + x) = kindBefore .word t' (b + x) := by
      cases x with
      | zero => exact (kindBefore_wholeLines h.lines).trans (kindBefore_wholeLines h.lines').symm
      | succ y => exact congrArg (Option.any isWordChar) (h.agree.same y (by omega))
    rw [hat, hbefore]
  | textStart | textEnd | lastLineEnd | noWordEdge => cases hc

/-- On the same lines, runs of an expression that keeps to the line are alike. -/
theorem Expr.run_lines {e : Expr} (h : t.SameLines t' a b n) (he : e.inLine = true)
    (hs : s.pos ≤ n)
    (hk : ∀ s' : State, s.pos ≤ s'.pos → s'.pos ≤ n → Alike a b (k (s'.up a)) (k' (s'.up b))) :
    Alike a b (e.run t t.size (s.up a) k) (e.run t' t'.size (s.up b) k') := by
  induction e generalizing s k k' with
  | empty => exact hk s (Nat.le_refl _) hs
  | anyButLineEnd => exact consume_lines h rfl hs fun hlt => hk _ (Nat.le_succ _) hlt
  | oneOf negated items =>
    have hbreak : (items.any (·.holds '\n') != negated) = false := by
      rw [beq_iff_eq.mp he, bne_self_eq_false]
    exact consume_lines h hbreak hs fun hlt => hk _ (Nat.le_succ _) hlt
  | anchor c => exact .ite (c.holds_lines h hs he) (hk s (Nat.le_refl _) hs) .none
  | seq a b iha ihb =>
    obtain ⟨ha, hb⟩ := Bool.and_eq_true_iff.mp he
    apply iha ha hs
    intro s' hle hs'
    exact ihb hb hs' fun s'' hle' hs'' => hk s'' (Nat.le_trans hle hle') hs''
  | alt a b iha ihb =>
    obtain ⟨ha, hb⟩ := Bool.and_eq_true_iff.mp he
    exact (iha ha hs hk).orElse (ihb hb hs hk)
  | group index body ih =>
    apply ih he hs
    intro s' hle hs'
    exact hk { s' with captures := (index, s.pos, s'.pos) :: s'.captures } hle hs'
  | backref | behind | atomic | ifGroup | reopen => cases he
  | many least most greedy body ih =>
    have hknown : ∀ x, Text.Known a b 0 x := fun x => .inl (Nat.zero_le x)
    have hstep : ∀ (s : State) (k k' : Rest), s.pos ≤ n → Text.Known a b 0 s.pos →
        (∀ s' : State, s.pos ≤ s'.pos → s'.pos ≤ n → Alike a b (k (s'.up a)) (k' (s'.up b))) →
        Alike a b (body.run t t.size (s.up a) k) (body.run t' t'.size (s.up b) k') :=
      fun _ _ _ hs _ hk => ih he hs hk
    apply times_agree hstep hs (hknown _)
    intro s' hle hs'
    refine upTo_agree hstep hs' (hknown _) ?_
      fun s'' hle' hs'' => hk s'' (Nat.le_trans hle hle') hs''
    cases most with
    | some m => exact .inl rfl
    | none =>
      have hsize := h.agree.le_size
      have hsize' := h.agree.le_size'
      simp only [State.up]
      exact .inr ⟨by omega, by omega⟩
  | ahead negated body ih =>
    have hbody : Alike a b (body.run t t.size (s.up a) some) (body.run t' t'.size (s.up b) some) :=
      ih he hs fun s' _ _ => Alike.some s'
    obtain ⟨r, hr, hr'⟩ := hbody
    simp only [run, hr, hr']
    cases r with
    | none => exact .ite rfl (hk s (Nat.le_refl _) hs) .none
    | some s' => exact .ite rfl .none (hk { s' with pos := s.pos } (Nat.le_refl _) hs)

/-- On the same lines, the matches of an expression that keeps to the line are one match, counted
from where the lines begin. -/
theorem matchAt?_lines {r : Regex} (h : t.SameLines t' a b n) (hr : r.body.inLine = true)
    (hx : x ≤ n) :
    ∃ found : Option Match, matchAt? r t (a + x) t.size = found.map (Match.up a) ∧
      matchAt? r t' (b + x) t'.size = found.map (Match.up b) :=
  exists_match_of_alike (Expr.run_lines h hr hx fun s' _ _ => Alike.some s')

end Regex

end VSyntax
