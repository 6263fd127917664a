import VSyntax.Proofs.Regex.Lines

/-!
# The matches of a text, line by line

All matches of an expression that keeps to the line and always consumes something. They are listed
by a scan (`Scan`): an offset without a match is left for the next one, and after a match the scan
goes on where it ends. A text has one scan from each offset (`Scan.unique`), and `allMatches` makes
it (`scan_allMatches`).

A scan of lines and a scan of further lines make a scan of the lines together
(`Scan.append_line`). So the matches of two texts with a line end between are the matches of the
first and, moved up, those of the second (`allMatches_append_line`).
-/
namespace VSyntax

/-! ## Two texts in one -/

namespace Text

variable (a b : Text)

/-- Two texts with a line end between. -/
def joinLines : Text := a ++ #['\n'] ++ b

theorem size_joinLines : (a.joinLines b).size = a.size + 1 + b.size := by
  simp only [joinLines, Array.size_append, List.size_toArray, List.length_cons, List.length_nil]

theorem getElem?_joinLines_left {x : Nat} (h : x < a.size) : (a.joinLines b)[x]? = a[x]? := by
  rw [joinLines, Array.append_assoc, Array.getElem?_append_left h]

theorem getElem?_joinLines_mid : (a.joinLines b)[a.size]? = some '\n' := by
  rw [joinLines, Array.append_assoc, Array.getElem?_append_right (Nat.le_refl _), Nat.sub_self,
    Array.getElem?_append_left (Nat.zero_lt_succ 0)]
  rfl

theorem getElem?_joinLines_right (x : Nat) : (a.joinLines b)[a.size + 1 + x]? = b[x]? := by
  have hsize : (a ++ #['\n']).size = a.size + 1 := by
    simp only [Array.size_append, List.size_toArray, List.length_cons, List.length_nil]
  rw [joinLines, Array.getElem?_append_right (by omega), hsize, Nat.add_sub_cancel_left]

theorem sameLines_left : (a.joinLines b).SameLines a 0 0 a.size where
  agree := {
    same := fun x hx => by rw [Nat.zero_add, getElem?_joinLines_left a b hx]
    le_size := by
      rw [size_joinLines]
      omega
    le_size' := Nat.le_of_eq (Nat.zero_add _) }
  lines := ⟨.inl rfl, .inr (by rw [Nat.zero_add, getElem?_joinLines_mid])⟩
  lines' := ⟨.inl rfl, .inl (Nat.zero_add _)⟩

theorem sameLines_right : (a.joinLines b).SameLines b (a.size + 1) 0 b.size where
  agree := {
    same := fun x _ => by rw [Nat.zero_add, getElem?_joinLines_right]
    le_size := Nat.le_of_eq (size_joinLines a b).symm
    le_size' := Nat.le_of_eq (Nat.zero_add _) }
  lines := ⟨.inr (getElem?_joinLines_mid a b), .inl (size_joinLines a b).symm⟩
  lines' := ⟨.inl rfl, .inl (Nat.zero_add _)⟩

theorem slice_joinLines_left {x y : Nat} (hy : y ≤ a.size) :
    (a.joinLines b).slice x y = a.slice x y := by
  rw [joinLines, Array.append_assoc, slice_append_left hy]

theorem slice_joinLines_right {x y : Nat} (hy : y ≤ b.size) :
    (a.joinLines b).slice (a.size + 1 + x) (a.size + 1 + y) = b.slice x y := by
  have hslice := (a.sameLines_right b).agree.slice_eq (x := x) hy
  simpa only [Nat.zero_add] using hslice

end Text

namespace Regex

variable {r : Regex} {t a b : Text} {pos stop : Nat} {m : Match} {ms ms' : List Match}
  {s s' : State}

/-! ## Consuming expressions -/

/-- Whether an expression is known to take in a character at least. -/
def Expr.consumes : Expr → Bool
  | .anyButLineEnd | .oneOf _ _ => true
  | .seq a b => a.consumes || b.consumes
  | .alt a b => a.consumes && b.consumes
  | .group _ body => body.consumes
  | .many least _ _ body => decide (0 < least) && body.consumes
  | .empty | .anchor _ | .backref _ _ | .ahead _ _ | .behind _ _ _ | .atomic _ | .ifGroup _ _ _
  | .reopen _ => false

/-- A path through an expression that takes something in leads further. -/
theorem Expr.Path.lt_of_consumes {e : Expr} (he : e.inLine = true) (hc : e.consumes = true)
    (h : e.Path t stop s s') : s.pos < s'.pos := by
  induction e generalizing s s' with
  | anyButLineEnd =>
    obtain ⟨-, rfl⟩ := h
    exact Nat.lt_succ_self _
  | oneOf negated items =>
    obtain ⟨-, rfl⟩ := h
    exact Nat.lt_succ_self _
  | seq a b iha ihb =>
    obtain ⟨ha, hb⟩ := Bool.and_eq_true_iff.mp he
    obtain ⟨m, hfirst, hsecond⟩ := h
    rcases (Bool.or_eq_true _ _).mp hc with hc | hc
    · exact Nat.lt_of_lt_of_le (iha ha hc hfirst) (hsecond.inLine hb).1
    · exact Nat.lt_of_le_of_lt (hfirst.inLine ha).1 (ihb hb hc hsecond)
  | alt a b iha ihb =>
    obtain ⟨ha, hb⟩ := Bool.and_eq_true_iff.mp he
    obtain ⟨hca, hcb⟩ := Bool.and_eq_true_iff.mp hc
    rcases h with h | h
    · exact iha ha hca h
    · exact ihb hb hcb h
  | group index body ih =>
    obtain ⟨m, hbody, rfl⟩ := h
    have hlt := ih he hc hbody
    exact hlt
  | many least most greedy body ih =>
    obtain ⟨hleast, hc⟩ := Bool.and_eq_true_iff.mp hc
    obtain ⟨n, hn, -, hpath⟩ := h
    have hpos : 0 < least := of_decide_eq_true hleast
    obtain ⟨n, rfl⟩ : ∃ i, n = i + 1 := ⟨n - 1, by omega⟩
    obtain ⟨m, hfirst, hrest⟩ := hpath
    have hle : m.pos ≤ s'.pos := hrest.keeps (P := fun x => m.pos ≤ x.pos)
      (fun x y hxy hx => Nat.le_trans hx (Expr.Path.inLine (e := body) he hxy).1) (Nat.le_refl _)
    exact Nat.lt_of_lt_of_le (ih he hc hfirst) hle
  | empty | anchor | backref | ahead | behind | atomic | ifGroup | reopen => cases hc

/-- The expression keeps to the line and takes something in. -/
structure Lined (r : Regex) : Prop where
  inLine : r.body.inLine = true
  consumes : r.body.consumes = true

/-! ## One match -/

/-- A match is a path from the offset where it begins. -/
theorem path_of_matchAt? (h : matchAt? r t pos stop = some m) :
    m.start = pos ∧ r.body.Path t stop ⟨pos, []⟩ ⟨m.stop, m.captures⟩ := by
  obtain ⟨s, hrun, rfl⟩ := Option.map_eq_some_iff.mp h
  obtain ⟨s', hpath, hsome⟩ := Expr.exists_path hrun
  cases hsome
  exact ⟨rfl, hpath⟩

/-- A match on a line is not empty, holds no line end, and is in the text. -/
theorem Lined.spelled (hr : r.Lined) (h : matchAt? r t pos stop = some m) :
    pos < m.stop ∧ m.stop ≤ t.size ∧ t.Spelled (· != '\n') pos m.stop := by
  obtain ⟨-, hpath⟩ := path_of_matchAt? h
  have hlt : pos < m.stop := hpath.lt_of_consumes hr.inLine hr.consumes
  obtain ⟨-, hspelled⟩ := hpath.inLine hr.inLine
  obtain ⟨c, hc, -⟩ := hspelled (m.stop - 1) (Nat.le_sub_one_of_lt hlt) (Nat.sub_one_lt (by omega))
  have hsize := (Array.getElem?_eq_some_iff.mp hc).1
  exact ⟨hlt, by omega, hspelled⟩

theorem Match.up_zero (m : Match) : m.up 0 = m := by
  simp only [up, Nat.zero_add, List.map_id_fun', id_eq]

/-! ## Scans -/

/-- The matches of a scan that has come to `pos`. -/
inductive Scan (r : Regex) (t : Text) : Nat → List Match → Prop where
  /-- The scan is past the end of the text. -/
  | past {pos : Nat} (out : t.size < pos) : Scan r t pos []
  /-- There is no match here, and the scan goes on at the next offset. -/
  | step {pos : Nat} {ms : List Match} (inside : pos ≤ t.size)
      (none : matchAt? r t pos t.size = none) (rest : Scan r t (pos + 1) ms) : Scan r t pos ms
  /-- There is a match here, and the scan goes on at its end. -/
  | found {pos : Nat} {m : Match} {ms : List Match} (inside : pos ≤ t.size)
      (some : matchAt? r t pos t.size = some m) (rest : Scan r t m.stop ms) : Scan r t pos (m :: ms)

/-- There is one scan from each offset. -/
theorem Scan.unique (h : Scan r t pos ms) (h' : Scan r t pos ms') : ms = ms' := by
  induction h generalizing ms' with
  | past out =>
    cases h' with
    | past => rfl
    | step inside => omega
    | found inside => omega
  | step inside none rest ih =>
    cases h' with
    | past out => omega
    | step _ _ rest' => exact ih rest'
    | found _ some _ => cases none.symm.trans some
  | found inside some rest ih =>
    cases h' with
    | past out => omega
    | step _ none _ => cases none.symm.trans some
    | found _ some' rest' =>
      cases some.symm.trans some'
      rw [ih rest']

/-- Each match of a scan is the match at its offset, from where the scan is on. -/
theorem Scan.mem (hr : r.Lined) (h : Scan r t pos ms) :
    ∀ m ∈ ms, pos ≤ m.start ∧ matchAt? r t m.start t.size = some m := by
  induction h with
  | past out => exact List.forall_mem_nil _
  | step inside none rest ih =>
    intro m hm
    exact ⟨Nat.le_of_succ_le (ih m hm).1, (ih m hm).2⟩
  | found inside some rest ih =>
    have hlt := (hr.spelled some).1
    obtain ⟨rfl, -⟩ := path_of_matchAt? some
    intro m hm
    rcases List.mem_cons.mp hm with rfl | hm
    · exact ⟨Nat.le_refl _, some⟩
    · exact ⟨Nat.le_trans (Nat.le_of_lt hlt) (ih m hm).1, (ih m hm).2⟩

/-- A match of a scan ends before the later ones begin. -/
theorem Scan.pairwise (hr : r.Lined) (h : Scan r t pos ms) :
    ms.Pairwise fun m m' => m.stop ≤ m'.start := by
  induction h with
  | past out => exact .nil
  | step inside none rest ih => exact ih
  | found inside some rest ih =>
    exact List.pairwise_cons.mpr ⟨fun m' hm' => (rest.mem hr m' hm').1, ih⟩

/-- Two matches of a scan are one, or lie apart. -/
theorem Scan.apart {m' : Match} (hr : r.Lined) (h : Scan r t pos ms) (hm : m ∈ ms)
    (hm' : m' ∈ ms) : m = m' ∨ m.stop ≤ m'.start ∨ m'.stop ≤ m.start := by
  induction h with
  | past out => cases hm
  | step inside none rest ih => exact ih hm hm'
  | found inside some rest ih =>
    rcases List.mem_cons.mp hm with rfl | hlater
    · rcases List.mem_cons.mp hm' with rfl | hlater'
      · exact .inl rfl
      · exact .inr (.inl (rest.mem hr m' hlater').1)
    · rcases List.mem_cons.mp hm' with rfl | hlater'
      · exact .inr (.inr (rest.mem hr m hlater).1)
      · exact ih hlater hlater'

theorem matchFrom?_false (r : Regex) (t : Text) (pos : Nat) :
    matchFrom? r t pos false = matchAt? r t pos t.size := rfl

/-- With steps enough for the offsets that are left, the matches are those of the scan. -/
theorem scan_matchesFrom (hr : r.Lined) {steps : Nat} (h : t.size + 2 ≤ pos + steps) :
    Scan r t pos (matchesFrom r t steps pos false) := by
  induction steps generalizing pos with
  | zero => exact .past (by omega)
  | succ steps ih =>
    rw [matchesFrom, matchFrom?_false]
    split
    next out => exact .past out
    next inside =>
      have inside : pos ≤ t.size := Nat.le_of_not_lt inside
      cases hfound : matchAt? r t pos t.size with
      | none => exact .step inside hfound (ih (by omega))
      | some m =>
        obtain ⟨hlt, -⟩ := hr.spelled hfound
        have hne : (m.stop == pos) = false := beq_eq_false_iff_ne.mpr (Nat.ne_of_gt hlt)
        dsimp only
        rw [hne]
        exact .found inside hfound (ih (by omega))

/-- All matches are those of the scan from the start of the text. -/
theorem scan_allMatches (hr : r.Lined) (t : Text) : Scan r t 0 (allMatches r t) :=
  scan_matchesFrom hr (by omega)

/-! ## Scans of lines -/

/-- A scan of the lines in front goes on where the further lines begin. -/
theorem Scan.append_left (hr : r.Lined) (h : Scan r a pos ms) (hpos : pos ≤ a.size + 1)
    (h' : Scan r (a.joinLines b) (a.size + 1) ms') : Scan r (a.joinLines b) pos (ms ++ ms') := by
  have hsize := a.size_joinLines b
  have hsame {x : Nat} (hx : x ≤ a.size) :
      matchAt? r (a.joinLines b) x (a.joinLines b).size = matchAt? r a x a.size := by
    obtain ⟨found, hjoined, halone⟩ := matchAt?_lines (a.sameLines_left b) hr.inLine hx
    rw [Nat.zero_add] at hjoined halone
    rw [hjoined, halone]
  induction h with
  | past out =>
    obtain rfl : _ = a.size + 1 := Nat.le_antisymm hpos out
    exact h'
  | step inside none rest ih =>
    refine .step (by omega) ?_ (ih (by omega))
    rw [hsame inside, none]
  | found inside some rest ih =>
    have hstop := (hr.spelled some).2.1
    refine .found (by omega) ?_ (ih (by omega))
    rw [hsame inside, some]

/-- A scan of the further lines is a scan of them behind the lines in front. -/
theorem Scan.append_right (hr : r.Lined) (h : Scan r b pos ms) :
    Scan r (a.joinLines b) (a.size + 1 + pos) (ms.map (Match.up (a.size + 1))) := by
  have hsize := a.size_joinLines b
  have hsame {x : Nat} (hx : x ≤ b.size) :
      matchAt? r (a.joinLines b) (a.size + 1 + x) (a.joinLines b).size =
        (matchAt? r b x b.size).map (Match.up (a.size + 1)) := by
    obtain ⟨found, hjoined, halone⟩ := matchAt?_lines (a.sameLines_right b) hr.inLine hx
    rw [Nat.zero_add] at halone
    have hzero : Match.up 0 = id := funext Match.up_zero
    rw [hjoined, halone, hzero, Option.map_id, id_eq]
  induction h with
  | past out => exact .past (by omega)
  | step inside none rest ih =>
    refine .step (by omega) ?_ ih
    rw [hsame inside, none]
    rfl
  | found inside some rest ih =>
    refine .found (by omega) ?_ ih
    rw [hsame inside, some]
    rfl

/-- **The matches on lines.** The matches of two texts with a line end between are the matches of
the first and, moved up, those of the second. -/
theorem allMatches_append_line (hr : r.Lined) (a b : Text) :
    allMatches r (a.joinLines b) =
      allMatches r a ++ (allMatches r b).map (Match.up (a.size + 1)) := by
  have hright : Scan r (a.joinLines b) (a.size + 1)
      ((allMatches r b).map (Match.up (a.size + 1))) := (scan_allMatches hr b).append_right hr
  have hjoined := (scan_allMatches hr a).append_left hr (Nat.zero_le _) hright
  exact (scan_allMatches hr _).unique hjoined

end Regex

end VSyntax
