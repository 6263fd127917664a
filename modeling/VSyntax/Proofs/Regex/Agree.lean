import VSyntax.Proofs.Agree
import VSyntax.Proofs.Regex.Path

/-!
# Matches in texts that agree

Where two texts agree on a stretch, the matcher finds the same in both, counted from where the
stretch begins (`matchAt?_agree`). The expression may look behind the offset, but no further than
the characters that are known there (`Expr.within`). The two runs start from states that are one
state moved up by two offsets (`State.up`), and the induction on the expression keeps them so.
-/
namespace VSyntax.Regex

open Text (Agree Known)

variable {t t' : Text} {a b m n w x : Nat} {s : State} {k k' : Rest}

/-! ## Reach behind -/

/-- Whether an expression is known to read no more than `w` characters in front of the offset where
it begins. An anchor may ask for one. -/
def Expr.within (w : Nat) : Expr → Bool
  | .empty | .anyButLineEnd | .oneOf _ _ => true
  | .anchor _ => decide (1 ≤ w)
  | .seq a b | .alt a b => a.within w && b.within w
  | .group _ body | .many _ _ _ body | .ahead _ body => body.within w
  | .backref _ _ | .atomic _ | .ifGroup _ _ _ | .reopen _ => false
  | .behind _ width body => decide (width ≤ w) && body.within (w - width)

/-! ## States moved up -/

/-- A state counted from an offset, as a state of the text. -/
def State.up (a : Nat) (s : State) : State :=
  ⟨a + s.pos, s.captures.map fun c => (c.1, a + c.2.1, a + c.2.2)⟩

/-- Two results that are one result, moved up by `a` and by `b`. -/
def Alike (a b : Nat) (o o' : Option State) : Prop :=
  ∃ r : Option State, o = r.map (State.up a) ∧ o' = r.map (State.up b)

namespace Alike

variable {o o' : Option State}

theorem none : Alike a b none none := ⟨.none, rfl, rfl⟩

theorem some (s : State) : Alike a b (some (s.up a)) (some (s.up b)) := ⟨.some s, rfl, rfl⟩

/-- The second of two alike choices is taken on both sides or on neither. -/
theorem orElse {f f' : Unit → Option State} (h : Alike a b o o') (hf : Alike a b (f ()) (f' ())) :
    Alike a b (o.orElse f) (o'.orElse f') := by
  obtain ⟨r, rfl, rfl⟩ := h
  cases r with
  | none => exact hf
  | some s => exact .some s

theorem ite {c c' : Bool} {p p' : Option State} (hc : c = c') (h : Alike a b o o')
    (hp : Alike a b p p') : Alike a b (if c then o else p) (if c' then o' else p') := by
  subst hc
  cases c with
  | true => exact h
  | false => exact hp

end Alike

/-! ## Single steps -/

theorem consume_agree (h : t.Agree t' a b n) (hm : m ≤ n) {p : Char → Bool}
    (hk : s.pos + 1 ≤ m → Alike a b (k (State.up a { s with pos := s.pos + 1 }))
      (k' (State.up b { s with pos := s.pos + 1 }))) :
    Alike a b (consume t (a + m) p (s.up a) k) (consume t' (b + m) p (s.up b) k') := by
  have hsees : t.sees (a + m) p (a + s.pos) = t'.sees (b + m) p (b + s.pos) := h.sees_eq hm
  rw [consume_eq, consume_eq]
  show Alike a b (if t.sees (a + m) p (a + s.pos) then _ else _)
    (if t'.sees (b + m) p (b + s.pos) then _ else _)
  rw [← hsees]
  split
  · next hseen =>
    have hlt := Text.lt_of_sees hseen
    exact hk (by omega)
  · exact .none

/-- An anchor holds in both texts or in neither. -/
theorem Anchor.holds_agree (h : t.Agree t' a b n) (hm : m ≤ n) (hx : x ≤ m) (hk : Known a b 1 x)
    (c : Anchor) : c.holds t (a + m) (a + x) = c.holds t' (b + m) (b + x) := by
  have hstart : (a + x == 0) = (b + x == 0) := by
    rw [Bool.eq_iff_iff, beq_iff_eq, beq_iff_eq]
    rcases hk with hk | ⟨rfl, rfl⟩
    · omega
    · exact Iff.rfl
  have hempty : (a + m != 0) = (b + m != 0) := by
    rw [Bool.eq_iff_iff, bne_iff_ne, bne_iff_ne]
    rcases hk with hk | ⟨rfl, rfl⟩
    · omega
    · exact Iff.rfl
  have hend : ∀ y, (a + x + y == a + m) = (b + x + y == b + m) := by
    intro y
    rw [Bool.eq_iff_iff, beq_iff_eq, beq_iff_eq]
    omega
  have hword : ∀ kind, kindAt kind t (a + m) (a + x) = kindAt kind t' (b + m) (b + x) :=
    fun _ => h.sees_eq hm
  have hbefore : ∀ kind, kindBefore kind t (a + x) = kindBefore kind t' (b + x) := by
    intro kind
    cases x with
    | zero =>
      rcases hk with hk | ⟨rfl, rfl⟩
      · exact absurd hk (Nat.not_succ_le_zero 0)
      · rfl
    | succ y => exact congrArg (Option.any kind.holds) (h.same y (by omega))
  have hline : (a + x == 0 || t[a + x - 1]? == some '\n') =
      (b + x == 0 || t'[b + x - 1]? == some '\n') := by
    cases x with
    | zero =>
      rcases hk with hk | ⟨rfl, rfl⟩
      · exact absurd hk (Nat.not_succ_le_zero 0)
      · rfl
    | succ y =>
      have hsame : t[a + (y + 1) - 1]? = t'[b + (y + 1) - 1]? := h.same y (by omega)
      rw [hstart, hsame]
  have hhere : x < m → t[a + x]? = t'[b + x]? := fun hlt => h.same x (by omega)
  cases c with
  | textStart => exact hstart
  | lineStart => exact hline
  | textEnd => exact hend 0
  | lastLineEnd =>
    simp only [holds]
    rcases Nat.eq_or_lt_of_le hx with rfl | hlt
    · rw [beq_self_eq_true, beq_self_eq_true, Bool.true_or, Bool.true_or]
    · rw [hhere hlt, hend 1]
      exact congrArg (· || _) (hend 0)
  | lineEnd =>
    simp only [holds]
    rcases Nat.eq_or_lt_of_le hx with rfl | hlt
    · rw [beq_self_eq_true, beq_self_eq_true, Bool.true_or, Bool.true_or]
    · rw [hhere hlt]
      exact congrArg (· || _) (hend 0)
  | wordEdge => simp only [holds, hempty, hword, hbefore]
  | noWordEdge => simp only [holds, hempty, hword, hbefore]

/-! ## Repetitions -/

section

variable {step step' : State → Rest → Option State}
  (hstep : ∀ (s : State) (k k' : Rest), s.pos ≤ m → Known a b w s.pos →
    (∀ s' : State, s.pos ≤ s'.pos → s'.pos ≤ m → Alike a b (k (s'.up a)) (k' (s'.up b))) →
    Alike a b (step (s.up a) k) (step' (s.up b) k'))

include hstep

theorem times_agree {n : Nat} (hs : s.pos ≤ m) (hw : Known a b w s.pos)
    (hk : ∀ s' : State, s.pos ≤ s'.pos → s'.pos ≤ m → Alike a b (k (s'.up a)) (k' (s'.up b))) :
    Alike a b (times step n (s.up a) k) (times step' n (s.up b) k') := by
  induction n generalizing s with
  | zero => exact hk s (Nat.le_refl _) hs
  | succ n ih =>
    apply hstep s _ _ hs hw
    intro s' hle hs'
    exact ih hs' (hw.mono hle) fun s'' hle' hs'' => hk s'' (Nat.le_trans hle hle') hs''

/-- Two counts of repetitions that are the same, or both as many as the characters of the stretch
allow, give alike results. -/
theorem upTo_agree {greedy : Bool} {c c' : Nat} (hs : s.pos ≤ m) (hw : Known a b w s.pos)
    (hcount : c = c' ∨ m < s.pos + c ∧ m < s.pos + c')
    (hk : ∀ s' : State, s.pos ≤ s'.pos → s'.pos ≤ m → Alike a b (k (s'.up a)) (k' (s'.up b))) :
    Alike a b (upTo step greedy c (s.up a) k) (upTo step' greedy c' (s.up b) k') := by
  induction c generalizing c' s with
  | zero =>
    obtain rfl : c' = 0 := by omega
    exact hk s (Nat.le_refl _) hs
  | succ c ih =>
    obtain ⟨c', rfl⟩ : ∃ i, c' = i + 1 := ⟨c' - 1, by omega⟩
    have hstay := hk s (Nat.le_refl _) hs
    have hmore : Alike a b
        (step (s.up a) fun s' => if s'.pos = (s.up a).pos then k s' else upTo step greedy c s' k)
        (step' (s.up b) fun s' =>
          if s'.pos = (s.up b).pos then k' s' else upTo step' greedy c' s' k') := by
      apply hstep s _ _ hs hw
      intro s' hle hs'
      show Alike a b (if a + s'.pos = a + s.pos then _ else _)
        (if b + s'.pos = b + s.pos then _ else _)
      by_cases heq : s'.pos = s.pos
      · rw [if_pos (congrArg (a + ·) heq), if_pos (congrArg (b + ·) heq)]
        exact hk s' hle hs'
      · rw [if_neg (by omega), if_neg (by omega)]
        exact ih hs' (hw.mono hle) (by omega)
          fun s'' hle' hs'' => hk s'' (Nat.le_trans hle hle') hs''
    cases greedy with
    | true => exact hmore.orElse hstay
    | false => exact hstay.orElse hmore

end

/-! ## Expressions -/

/-- An assertion behind, from a state moved up, with what its expression finds there. -/
theorem run_behind_up {stop width : Nat} {negated : Bool} {body : Expr} {r : Option State}
    (hpos : width ≤ s.pos)
    (hr : body.run t stop (State.up a { s with pos := s.pos - width }) some = r.map (State.up a)) :
    (Expr.behind negated width body).run t stop (s.up a) k =
      r.elim (if negated then k (s.up a) else none)
        fun s' => if negated then none else k (State.up a { s' with pos := s.pos }) := by
  have hle : width ≤ (s.up a).pos := Nat.le_trans hpos (Nat.le_add_left _ _)
  have hback : { s.up a with pos := (s.up a).pos - width } =
      State.up a { s with pos := s.pos - width } := by
    simp only [State.up, Nat.add_sub_assoc hpos]
  rw [Expr.run, if_pos hle, hback, hr]
  cases r with
  | none => rfl
  | some s' => rfl

/-- Where the texts agree, and as far as an expression looks behind, its runs are alike. -/
theorem Expr.run_agree {e : Expr} (h : t.Agree t' a b n) (hm : m ≤ n) (he : e.within w = true)
    (hs : s.pos ≤ m) (hw : Known a b w s.pos)
    (hk : ∀ s' : State, s.pos ≤ s'.pos → s'.pos ≤ m → Alike a b (k (s'.up a)) (k' (s'.up b))) :
    Alike a b (e.run t (a + m) (s.up a) k) (e.run t' (b + m) (s.up b) k') := by
  -- `w` varies too: what is asked for behind has the less to look at, the further back it begins
  induction e generalizing s k k' w with
  | empty => exact hk s (Nat.le_refl _) hs
  | anyButLineEnd => exact consume_agree h hm fun hlt => hk _ (Nat.le_succ _) hlt
  | oneOf negated items => exact consume_agree h hm fun hlt => hk _ (Nat.le_succ _) hlt
  | anchor c =>
    have hknown : Known a b 1 s.pos := hw.imp_left (Nat.le_trans (of_decide_eq_true he))
    exact .ite (c.holds_agree h hm hs hknown) (hk s (Nat.le_refl _) hs) .none
  | seq a b iha ihb =>
    obtain ⟨ha, hb⟩ := Bool.and_eq_true_iff.mp he
    apply iha ha hs hw
    intro s' hle hs'
    exact ihb hb hs' (hw.mono hle) fun s'' hle' hs'' => hk s'' (Nat.le_trans hle hle') hs''
  | alt a b iha ihb =>
    obtain ⟨ha, hb⟩ := Bool.and_eq_true_iff.mp he
    exact (iha ha hs hw hk).orElse (ihb hb hs hw hk)
  | group index body ih =>
    apply ih he hs hw
    intro s' hle hs'
    exact hk { s' with captures := (index, s.pos, s'.pos) :: s'.captures } hle hs'
  | backref | atomic | ifGroup | reopen => cases he
  | many least most greedy body ih =>
    have hstep : ∀ (s : State) (k k' : Rest), s.pos ≤ m → Known a b w s.pos →
        (∀ s' : State, s.pos ≤ s'.pos → s'.pos ≤ m → Alike a b (k (s'.up a)) (k' (s'.up b))) →
        Alike a b (body.run t (a + m) (s.up a) k) (body.run t' (b + m) (s.up b) k') :=
      fun _ _ _ hs hw hk => ih he hs hw hk
    apply times_agree hstep hs hw
    intro s' hle hs'
    -- both runs may repeat as often as characters are left, and as many are left for both
    have hleft : a + m - (a + s'.pos) = b + m - (b + s'.pos) := by omega
    simp only [State.up, hleft]
    exact upTo_agree hstep hs' (hw.mono hle) (.inl rfl)
      fun s'' hle' hs'' => hk s'' (Nat.le_trans hle hle') hs''
  | ahead negated body ih =>
    have hbody : Alike a b (body.run t (a + m) (s.up a) some) (body.run t' (b + m) (s.up b) some) :=
      ih he hs hw fun s' _ _ => Alike.some s'
    obtain ⟨r, hr, hr'⟩ := hbody
    simp only [run, hr, hr']
    cases r with
    | none => exact .ite rfl (hk s (Nat.le_refl _) hs) .none
    | some s' => exact .ite rfl .none (hk { s' with pos := s.pos } (Nat.le_refl _) hs)
  | behind negated width body ih =>
    obtain ⟨hwidth, hbody⟩ := Bool.and_eq_true_iff.mp he
    have hwidth : width ≤ w := of_decide_eq_true hwidth
    by_cases hpos : width ≤ s.pos
    · have hknown : Known a b (w - width) (s.pos - width) := hw.imp_left fun hw => by omega
      have hback : s.pos - width ≤ m := by omega
      have hbehind : Alike a b
          (body.run t (a + m) (State.up a { s with pos := s.pos - width }) some)
          (body.run t' (b + m) (State.up b { s with pos := s.pos - width }) some) :=
        ih hbody hback hknown fun s' _ _ => Alike.some s'
      obtain ⟨r, hr, hr'⟩ := hbehind
      rw [run_behind_up hpos hr, run_behind_up hpos hr']
      cases r with
      | none => exact .ite rfl (hk s (Nat.le_refl _) hs) .none
      | some s' => exact .ite rfl .none (hk { s' with pos := s.pos } (Nat.le_refl _) hs)
    · -- in front of the stretch there is nothing in either text
      obtain hwidth' | ⟨rfl, rfl⟩ := hw
      · omega
      · have hout : ∀ s' : State, s'.pos = s.pos → ¬ width ≤ (s'.up 0).pos := by
          intro s' heq
          simp only [State.up]
          omega
        rw [run, run, if_neg (hout s rfl), if_neg (hout s rfl)]
        exact .ite rfl (hk s (Nat.le_refl _) hs) .none

/-! ## Matches -/

/-- A match counted from an offset, as a match in the text. -/
def Match.up (a : Nat) (r : Match) : Match :=
  ⟨a + r.start, a + r.stop, r.captures.map fun c => (c.1, a + c.2.1, a + c.2.2)⟩

theorem Match.extent?_up (r : Match) (index : Nat) :
    (r.up a).extent? index = (r.extent? index).map fun c => (a + c.1, a + c.2) := by
  cases index with
  | zero => rfl
  | succ index =>
    simp only [extent?, up]
    induction r.captures with
    | nil => rfl
    | cons c captures ih =>
      obtain ⟨i, first, last⟩ := c
      simp only [List.map_cons, List.lookup_cons]
      cases index + 1 == i with
      | true => rfl
      | false => exact ih

/-- Runs that are alike find one match, counted from two offsets. -/
theorem exists_match_of_alike {r : Regex} {stop stop' : Nat}
    (h : Alike a b (r.body.run t stop (State.up a ⟨x, []⟩) some)
      (r.body.run t' stop' (State.up b ⟨x, []⟩) some)) :
    ∃ found : Option Match, matchAt? r t (a + x) stop = found.map (Match.up a) ∧
      matchAt? r t' (b + x) stop' = found.map (Match.up b) := by
  obtain ⟨o, ho, ho'⟩ := h
  refine ⟨o.map fun s => ⟨x, s.pos, s.captures⟩, ?_, ?_⟩
  · unfold matchAt?
    rw [show (⟨a + x, []⟩ : State) = State.up a ⟨x, []⟩ from rfl, ho]
    cases o with
    | none => rfl
    | some s => rfl
  · unfold matchAt?
    rw [show (⟨b + x, []⟩ : State) = State.up b ⟨x, []⟩ from rfl, ho']
    cases o with
    | none => rfl
    | some s => rfl

/-- Where the texts agree, and as far as the expression looks behind, the matches are one match,
counted from where the stretch begins. -/
theorem matchAt?_agree {r : Regex} (h : t.Agree t' a b n) (hm : m ≤ n)
    (hr : r.body.within w = true) (hx : x ≤ m) (hw : Known a b w x) :
    ∃ found : Option Match, matchAt? r t (a + x) (a + m) = found.map (Match.up a) ∧
      matchAt? r t' (b + x) (b + m) = found.map (Match.up b) :=
  exists_match_of_alike (Expr.run_agree h hm hr hx hw fun s' _ _ => Alike.some s')

end VSyntax.Regex
