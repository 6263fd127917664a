import VSyntax.Proofs.Regex.Path

/-!
# Runs and single assertions

What the matcher does with the parts that names are written with: a greedy run of characters of a
class, a single character behind the offset, a single character ahead. A greedy run first takes the
whole run of characters that is there (`upTo_accepts`); if the rest of the work refuses every
shorter part of it too, there is no match (`upTo_rejects`).
-/
namespace VSyntax.Regex

variable {t : Text} {stop : Nat} {p : Char → Bool} {items : List CharItem} {s r : State} {k : Rest}

/-! ## One construct at a time -/

variable {a b body : Expr} {index : Nat}

theorem run_seq : (Expr.seq a b).run t stop s k = a.run t stop s fun s' => b.run t stop s' k := rfl

theorem run_alt : (Expr.alt a b).run t stop s k =
    (a.run t stop s k).orElse fun _ => b.run t stop s k := rfl

theorem run_group : (Expr.group index body).run t stop s k = body.run t stop s fun s' =>
    k { s' with captures := (index, s.pos, s'.pos) :: s'.captures } := rfl

theorem run_anchor {a : Anchor} : (Expr.anchor a).run t stop s k =
    if a.holds t stop s.pos then k s else none := rfl

/-- An assertion on what stands behind, where there are enough characters. -/
theorem run_behind {width : Nat} (hw : width ≤ s.pos) :
    (Expr.behind false width body).run t stop s k =
      (body.run t stop { s with pos := s.pos - width } some).bind
        fun s' => k { s' with pos := s.pos } := by
  rw [Expr.run, if_pos hw]
  cases body.run t stop { s with pos := s.pos - width } some with
  | none => rfl
  | some s' => rfl

theorem run_behind_of_lt {width : Nat} (hw : s.pos < width) :
    (Expr.behind false width body).run t stop s k = none := by
  rw [Expr.run, if_neg (by omega)]
  rfl

/-! ## Greedy runs -/

/-- If the rest accepts the end of the run, that is what a greedy repetition finds. -/
theorem upTo_accepts {n : Nat} (hn : stop < s.pos + n)
    (hk : k { s with pos := t.runEnd p stop s.pos } = some r) :
    upTo (consume t stop p) true n s k = some r := by
  induction n generalizing s with
  | zero =>
    have hsees : ¬ t.sees stop p s.pos = true := fun hsees => by
      have := Text.lt_of_sees hsees
      omega
    rw [Text.runEnd_of_not_sees hsees] at hk
    exact hk
  | succ n ih =>
    simp only [upTo, if_true, consume_eq]
    by_cases hsees : t.sees stop p s.pos = true
    · have hmore : upTo (consume t stop p) true n { s with pos := s.pos + 1 } k = some r := by
        apply ih
        · simp only
          omega
        · rwa [Text.runEnd_of_sees hsees] at hk
      rw [if_pos hsees, if_neg (Nat.succ_ne_self _), hmore]
      rfl
    · rw [Text.runEnd_of_not_sees hsees] at hk
      rw [if_neg hsees]
      exact hk

/-- If the rest refuses every part of the run, a greedy repetition finds nothing. -/
theorem upTo_rejects {n : Nat}
    (hk : ∀ x, s.pos ≤ x → x ≤ t.runEnd p stop s.pos → k { s with pos := x } = none) :
    upTo (consume t stop p) true n s k = none := by
  induction n generalizing s with
  | zero => exact hk s.pos (Nat.le_refl _) Text.le_runEnd
  | succ n ih =>
    simp only [upTo, if_true, consume_eq]
    have hstay : k s = none := hk s.pos (Nat.le_refl _) Text.le_runEnd
    by_cases hsees : t.sees stop p s.pos = true
    · have hmore : upTo (consume t stop p) true n { s with pos := s.pos + 1 } k = none := by
        apply ih
        intro x hx hle
        refine hk x (Nat.le_of_succ_le hx) ?_
        rwa [Text.runEnd_of_sees hsees]
      rw [if_pos hsees, if_neg (Nat.succ_ne_self _), hmore, hstay]
      rfl
    · rw [if_neg hsees, hstay]
      rfl

/-! ## Single characters -/

section

variable (hp : (fun c => items.any (·.holds c)) = p)

include hp

/-- A set of characters takes in one character. -/
theorem run_oneOf : (Expr.oneOf false items).run t stop s k =
    if t.sees stop p s.pos then k { s with pos := s.pos + 1 } else none := by
  subst hp
  simp only [Expr.run, consume_eq, Bool.bne_false]

/-- A greedy repetition of a set steps over one character of it at a time. -/
theorem run_many_eq_upTo : (Expr.many 0 none true (.oneOf false items)).run t stop s k =
    upTo (consume t stop p) true (stop - s.pos + 1) s k := by
  subst hp
  simp only [Expr.run, times, Bool.bne_false]

/-- A greedy repetition of a set takes in a run. -/
theorem run_many_of_accepts
    (hk : k { s with pos := t.runEnd p stop s.pos } = some r) :
    (Expr.many 0 none true (.oneOf false items)).run t stop s k = some r := by
  rw [run_many_eq_upTo hp]
  exact upTo_accepts (by omega) hk

theorem run_many_of_rejects
    (hk : ∀ x, s.pos ≤ x → x ≤ t.runEnd p stop s.pos → k { s with pos := x } = none) :
    (Expr.many 0 none true (.oneOf false items)).run t stop s k = none := by
  rw [run_many_eq_upTo hp]
  exact upTo_rejects hk

/-- A repetition of a set at least once takes in a character and then a run. -/
theorem run_many_one : (Expr.many 1 none true (.oneOf false items)).run t stop s k =
    if t.sees stop p s.pos then
      (Expr.many 0 none true (.oneOf false items)).run t stop { s with pos := s.pos + 1 } k
    else none := by
  subst hp
  simp only [Expr.run, times, consume_eq, Bool.bne_false]

/-- A single character behind is the character before the offset. -/
theorem run_behind_one {negated : Bool} (hs : s.pos ≤ stop) :
    (Expr.behind negated 1 (.oneOf false items)).run t stop s k =
      if t.follows p s.pos != negated then k s else none := by
  subst hp
  by_cases hpos : 1 ≤ s.pos
  · have hlt : s.pos - 1 < stop := by omega
    have hback : s.pos - 1 + 1 = s.pos := by omega
    have hfollows : t.follows (fun c => items.any (·.holds c)) s.pos =
        t.sees stop (fun c => items.any (·.holds c)) (s.pos - 1) := by
      simp only [Text.follows, Text.sees, show 0 < s.pos from hpos, hlt]
    simp only [Expr.run, if_pos hpos, consume_eq, Bool.bne_false, hback, hfollows]
    cases hsees : t.sees stop (fun c => items.any (·.holds c)) (s.pos - 1) with
    | true => cases negated <;> rfl
    | false => cases negated <;> rfl
  · have hfollows : t.follows (fun c => items.any (·.holds c)) s.pos = false := by
      simp only [Text.follows, show ¬ 0 < s.pos from hpos, decide_false, Bool.false_and]
    simp only [Expr.run, if_neg hpos, hfollows]
    cases negated <;> rfl

/-- A single character ahead is the character at the offset. -/
theorem run_ahead_one {negated : Bool} :
    (Expr.ahead negated (.oneOf false items)).run t stop s k =
      if t.sees stop p s.pos != negated then k s else none := by
  subst hp
  simp only [Expr.run, consume_eq, Bool.bne_false]
  cases hsees : t.sees stop (fun c => items.any (·.holds c)) s.pos with
  | true => cases negated <;> rfl
  | false => cases negated <;> rfl

end

end VSyntax.Regex
