import VSyntax.Proofs.Regex.Path

/-!
# Extents of matches

Every match and every group of it lies in the text and ends no earlier than it begins, whatever the
expression: a group that is captured in an assertion may lie before or behind the match, but it is
a stretch of the text all the same (`extent_of_mem_allMatches`).
-/
namespace VSyntax.Regex

variable {t : Text} {stop pos : Nat} {e : Expr} {s s' : State} {r : Regex} {m : Match}

/-- The state is in the text up to `hi`, and all that it has captured are stretches of it. -/
structure State.Inside (hi : Nat) (s : State) : Prop where
  le_stop : s.pos ≤ hi
  captures : ∀ x ∈ s.captures, x.2.1 ≤ x.2.2 ∧ x.2.2 ≤ hi

theorem State.Inside.captured {hi index first last : Nat} (hs : s.Inside hi)
    (h : s.captured? index = some (first, last)) : first ≤ last ∧ last ≤ hi :=
  hs.captures _ (State.mem_captures h)

/-- A path leads on. -/
theorem Expr.Path.le (h : e.Path t stop s s') : s.pos ≤ s'.pos := by
  induction e generalizing s s' with
  | empty => exact Nat.le_of_eq (congrArg State.pos h).symm
  | anyButLineEnd =>
    obtain ⟨-, rfl⟩ := h
    exact Nat.le_succ _
  | oneOf negated items =>
    obtain ⟨-, rfl⟩ := h
    exact Nat.le_succ _
  | anchor a => exact Nat.le_of_eq (congrArg State.pos h.2).symm
  | seq a b iha ihb =>
    obtain ⟨m, hfirst, hsecond⟩ := h
    exact Nat.le_trans (iha hfirst) (ihb hsecond)
  | alt a b iha ihb | ifGroup _ a b iha ihb => exact h.elim iha ihb
  | group index body ih =>
    obtain ⟨m, hbody, rfl⟩ := h
    have hle : s.pos ≤ m.pos := ih hbody
    exact hle
  | backref fold index =>
    obtain ⟨a, b, -, -, rfl⟩ := h
    exact Nat.le_add_right _ _
  | many least most greedy body ih =>
    obtain ⟨n, -, -, hn⟩ := h
    exact hn.keeps (P := fun m => s.pos ≤ m.pos) (fun a b hab ha => Nat.le_trans ha (ih hab))
      (Nat.le_refl _)
  | ahead negated body ih =>
    cases negated with
    | true => exact Nat.le_of_eq (congrArg State.pos h.2).symm
    | false =>
      obtain ⟨m, -, rfl⟩ := h
      exact Nat.le_refl _
  | behind negated width body ih =>
    cases negated with
    | true => exact Nat.le_of_eq (congrArg State.pos h.2).symm
    | false =>
      obtain ⟨-, m, -, rfl⟩ := h
      exact Nat.le_refl _
  | atomic body ih => exact ih h
  | reopen index =>
    cases h
    exact Nat.le_of_eq (s.reopen_pos index).symm

/-- A path stays in the text, also one that captures behind. -/
theorem Expr.Path.inside (hstop : stop ≤ t.size) (h : e.Path t stop s s') (hs : s.Inside stop) :
    s'.Inside stop := by
  induction e generalizing s s' with
  | empty =>
    cases h
    exact hs
  | anyButLineEnd =>
    obtain ⟨hsees, rfl⟩ := h
    exact ⟨Text.lt_of_sees hsees, hs.captures⟩
  | oneOf negated items =>
    obtain ⟨hsees, rfl⟩ := h
    exact ⟨Text.lt_of_sees hsees, hs.captures⟩
  | anchor a =>
    obtain ⟨-, rfl⟩ := h
    exact hs
  | seq a b iha ihb =>
    obtain ⟨m, hfirst, hsecond⟩ := h
    exact ihb hsecond (iha hfirst hs)
  | alt a b iha ihb | ifGroup _ a b iha ihb =>
    rcases h with h | h
    · exact iha h hs
    · exact ihb h hs
  | group index body ih =>
    obtain ⟨m, hbody, rfl⟩ := h
    have hm := ih hbody hs
    exact ⟨hm.le_stop, List.forall_mem_cons.mpr ⟨⟨hbody.le, hm.le_stop⟩, hm.captures⟩⟩
  | backref fold index =>
    obtain ⟨a, b, hcap, hat, rfl⟩ := h
    refine ⟨?_, hs.captures⟩
    obtain ⟨hab, hb⟩ := hs.captured hcap
    rcases Nat.eq_or_lt_of_le hab with rfl | hlt
    · simpa only [Nat.sub_self, Nat.add_zero] using hs.le_stop
    · -- the repeated text is as long as the captured one
      have hlen := fold.length_slice a (Nat.le_trans hb hstop)
      have hne : ((fold.text t).slice a b).toList ≠ [] :=
        List.ne_nil_of_length_pos (hlen ▸ Nat.sub_pos_of_lt hlt)
      have hend := Text.startsAt_end_le hne hat
      rwa [hlen] at hend
  | many least most greedy body ih =>
    obtain ⟨n, -, -, hn⟩ := h
    exact hn.keeps (P := fun m => m.Inside stop) (fun a b hab ha => ih hab ha) hs
  | ahead negated body ih =>
    cases negated with
    | true =>
      obtain ⟨-, rfl⟩ := h
      exact hs
    | false =>
      obtain ⟨m, hpath, rfl⟩ := h
      exact ⟨hs.le_stop, (ih hpath hs).captures⟩
  | behind negated width body ih =>
    cases negated with
    | true =>
      obtain ⟨-, rfl⟩ := h
      exact hs
    | false =>
      obtain ⟨-, m, hpath, rfl⟩ := h
      have hback : State.Inside stop { s with pos := s.pos - width } :=
        ⟨Nat.le_trans (Nat.sub_le _ _) hs.le_stop, hs.captures⟩
      exact ⟨hs.le_stop, (ih hpath hback).captures⟩
  | atomic body ih => exact ih h hs
  | reopen index =>
    cases h
    refine ⟨?_, fun x hx => ?_⟩
    · rw [s.reopen_pos index]
      exact hs.le_stop
    · rcases State.mem_reopen hx with hx | ⟨first, last, hcap, hle, rfl⟩
      · exact hs.captures x hx
      · exact ⟨hle, (hs.captured hcap).2⟩

/-- A match that was looked for in the text lies in the text with all of its groups. -/
theorem extent_of_matchFrom? {nonempty : Bool} {index first last : Nat} (hpos : pos ≤ t.size)
    (h : matchFrom? r t pos nonempty = some m) (hm : m.extent? index = some (first, last)) :
    first ≤ last ∧ last ≤ t.size := by
  obtain ⟨s, hrun, rfl⟩ := Option.map_eq_some_iff.mp h
  obtain ⟨s', hpath, hsome⟩ := Expr.exists_path hrun
  obtain rfl : s' = s := by
    split at hsome
    · cases hsome
    · exact Option.some.inj hsome
  have hstart : State.Inside t.size ⟨pos, []⟩ := ⟨hpos, fun x hx => absurd hx List.not_mem_nil⟩
  have hs := hpath.inside (Nat.le_refl _) hstart
  cases index with
  | zero =>
    cases hm
    exact ⟨hpath.le, hs.le_stop⟩
  | succ index => exact hs.captured hm

theorem extent_of_mem_matchesFrom {nonempty : Bool} {steps index first last : Nat}
    (h : m ∈ matchesFrom r t steps pos nonempty) (hm : m.extent? index = some (first, last)) :
    first ≤ last ∧ last ≤ t.size := by
  induction steps generalizing pos nonempty with
  | zero => exact absurd h List.not_mem_nil
  | succ steps ih =>
    unfold matchesFrom at h
    split at h
    · exact absurd h List.not_mem_nil
    · next hpos =>
      split at h
      · exact ih h
      · next m' hfound =>
        rcases List.mem_cons.mp h with rfl | h
        · exact extent_of_matchFrom? (Nat.le_of_not_lt hpos) hfound hm
        · exact ih h

/-- Every group of a match of a text is a stretch of the text. -/
theorem extent_of_mem_allMatches {index first last : Nat} (h : m ∈ allMatches r t)
    (hm : m.extent? index = some (first, last)) : first ≤ last ∧ last ≤ t.size :=
  extent_of_mem_matchesFrom h hm

end VSyntax.Regex
