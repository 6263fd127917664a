import VSyntax.Proofs.Regex.Cut
import VSyntax.Proofs.Regex.Extent
import VSyntax.Proofs.Regex.Scan

/-!
# One more character

A text may go on with one more character where it would have ended. An expression that never takes
this character in finds the same (`Expr.run_cut`). An expression that may take it in does too if the
rest of the work refuses every state behind it (`Expr.run_bound`): the matcher only loses ways that
lead nowhere. So it is enough that the last parts of an expression stop at the character
(`Expr.keepsBefore`, `Expr.run_keeps`).

What the rest of the work gives may be changed before or after the run (`Expr.run_map`), so where
the rest gives different states under the two bounds the run does too (`Expr.run_cut_map`).
-/
namespace VSyntax.Regex

variable {t : Text} {c : Char} {q stop : Nat} {s r : State} {k k' : Rest} {e : Expr}

/-! ## Changed results -/

section

variable {step : State → Rest → Option State} {f : State → State}
  (hstep : ∀ (s : State) (k : Rest), (step s k).map f = step s fun s' => (k s').map f)

include hstep

theorem times_map {n : Nat} : (times step n s k).map f = times step n s fun s' => (k s').map f := by
  induction n generalizing s with
  | zero => rfl
  | succ n ih => simp only [times, hstep, ih]

theorem upTo_map {greedy : Bool} {n : Nat} :
    (upTo step greedy n s k).map f = upTo step greedy n s fun s' => (k s').map f := by
  induction n generalizing s with
  | zero => rfl
  | succ n ih =>
    have hmore : (step s fun s' => if s'.pos = s.pos then k s' else upTo step greedy n s' k).map f =
        step s fun s' => if s'.pos = s.pos then (k s').map f
          else upTo step greedy n s' fun s' => (k s').map f := by
      rw [hstep]
      congr 1
      funext s'
      split
      · rfl
      · exact ih
    cases greedy with
    | true => simp only [upTo, if_true, Option.orElse_eq_or, Option.map_or, hmore]
    | false => simp only [upTo, Bool.false_eq_true, if_false, Option.orElse_eq_or, Option.map_or,
        hmore]

end

theorem consume_map {p : Char → Bool} {f : State → State} :
    (consume t stop p s k).map f = consume t stop p s fun s' => (k s').map f := by
  rw [consume_eq, consume_eq]
  split
  · rfl
  · rfl

/-- What the rest of the work gives may be changed after the run. -/
theorem Expr.run_map {f : State → State} :
    (e.run t stop s k).map f = e.run t stop s fun s' => (k s').map f := by
  induction e generalizing s k with
  | empty => rfl
  | anyButLineEnd => exact consume_map
  | oneOf negated items => exact consume_map
  | anchor a =>
    simp only [run]
    split
    · rfl
    · rfl
  | seq a b iha ihb => simp only [run, iha, ihb]
  | alt a b iha ihb => simp only [run, Option.orElse_eq_or, Option.map_or, iha, ihb]
  | group index body ih => simp only [run, ih]
  | backref fold index =>
    simp only [run]
    split
    · rfl
    · split
      · rfl
      · rfl
  | many least most greedy body ih =>
    have hstep : ∀ (s : State) (k : Rest), (body.run t stop s k).map f =
        body.run t stop s fun s' => (k s').map f := fun _ _ => ih
    simp only [run, times_map hstep, upTo_map hstep]
  | ahead negated body ih =>
    simp only [run]
    split
    · split
      · rfl
      · rfl
    · split
      · rfl
      · rfl
  | behind negated width body ih =>
    simp only [run]
    split
    · split
      · split
        · rfl
        · rfl
      · split
        · rfl
        · rfl
    · split
      · rfl
      · rfl
  | atomic body ih =>
    simp only [run]
    cases body.run t stop s some with
    | none => rfl
    | some s' => rfl
  | ifGroup index yes no ihyes ihno =>
    simp only [run]
    split
    · exact ihyes
    · exact ihno
  | reopen index => rfl

/-- Where the rest gives changed states if the text goes on, so does an expression that stops
there. -/
theorem Expr.run_cut_map {f : State → State} (h : Cut t c q stop) (he : e.stopsAt c = true)
    (hs : s.pos ≤ q) (hk : ∀ s', s.pos ≤ s'.pos → s'.pos ≤ q → (k s').map f = k' s') :
    (e.run t q s k).map f = e.run t stop s k' := by
  rw [run_map]
  exact run_cut h he hs hk

/-! ## Ways that lead nowhere -/

/-- If the rest refuses all states from an offset on, so does the work from there on. -/
theorem Expr.run_eq_none (hk : ∀ s', s.pos ≤ s'.pos → k s' = none) : e.run t stop s k = none := by
  cases hrun : e.run t stop s k with
  | none => rfl
  | some r =>
    obtain ⟨s', hpath, hsome⟩ := exists_path hrun
    rw [hk s' hpath.le] at hsome
    cases hsome

/-- An expression that takes something in finds nothing at the end of the text. -/
theorem Expr.run_eq_none_of_consumes (he : e.inLine = true) (hc : e.consumes = true)
    (hs : t.size ≤ s.pos) : e.run t stop s k = none := by
  cases hrun : e.run t stop s k with
  | none => rfl
  | some r =>
    obtain ⟨s', hpath, -⟩ := exists_path hrun
    have hlt := hpath.lt_of_consumes he hc
    obtain ⟨a, ha, -⟩ := (hpath.inLine he).2 s.pos (Nat.le_refl _) hlt
    exact absurd (Array.getElem?_eq_some_iff.mp ha).1 (Nat.not_lt.mpr hs)

/-- Whether an expression is made of characters, anchors that ask for no end, sequence, choice,
repetition and groups. -/
def Expr.plain : Expr → Bool
  | .empty | .anyButLineEnd | .oneOf _ _ => true
  | .anchor a => a.endless
  | .seq a b | .alt a b => a.plain && b.plain
  | .group _ body | .many _ _ _ body => body.plain
  | .backref _ _ | .ahead _ _ | .behind _ _ _ | .atomic _ | .ifGroup _ _ _ | .reopen _ => false

/-- At or before the cut, a character is seen under the one bound as under the other, or it is the
last. -/
theorem consume_bound (h : Cut t c q stop) {p : Char → Bool} (hs : s.pos ≤ q)
    (hk : ∀ s', s.pos ≤ s'.pos → s'.pos ≤ q → k s' = k' s')
    (hout : ∀ s', q < s'.pos → k' s' = none) : consume t q p s k = consume t stop p s k' := by
  rw [consume_eq, consume_eq]
  rcases Nat.eq_or_lt_of_le hs with heq | hlt
  · have hunseen : ¬ t.sees q p s.pos = true := fun hsees => by
      have := Text.lt_of_sees hsees
      omega
    rw [if_neg hunseen, hout { s with pos := s.pos + 1 } (heq ▸ Nat.lt_succ_self _), ite_self]
  · rw [Text.sees_cut h.le hlt, hk { s with pos := s.pos + 1 } (Nat.le_succ _) hlt]

theorem times_eq_none {n : Nat} (hk : ∀ s', s.pos ≤ s'.pos → k s' = none) :
    times (e.run t stop) n s k = none := by
  have hmany : (Expr.many n (some n) true e).run t stop s k = none := Expr.run_eq_none hk
  simpa only [Expr.run, Nat.sub_self, upTo] using hmany

theorem upTo_eq_none {greedy : Bool} {n : Nat} (hk : ∀ s', s.pos ≤ s'.pos → k s' = none) :
    upTo (e.run t stop) greedy n s k = none :=
  Expr.run_eq_none (e := .many 0 (some n) greedy e) hk

/-- Where the rest refuses every state behind the cut, a plain expression finds the same whether the
text ends there or goes on with one more character. -/
theorem Expr.run_bound (h : Cut t c q stop) (he : e.plain = true) (hs : s.pos ≤ q)
    (hk : ∀ s', s.pos ≤ s'.pos → s'.pos ≤ q → k s' = k' s')
    (hout : ∀ s', q < s'.pos → k' s' = none) : e.run t q s k = e.run t stop s k' := by
  induction e generalizing s k k' with
  | empty => exact hk s (Nat.le_refl _) hs
  | anyButLineEnd => exact consume_bound h hs hk hout
  | oneOf negated items => exact consume_bound h hs hk hout
  | anchor a => simp only [run, h.holds_eq he hs, hk s (Nat.le_refl _) hs]
  | seq a b iha ihb =>
    obtain ⟨ha, hb⟩ := Bool.and_eq_true_iff.mp he
    apply iha ha hs
    · intro s' hle hs'
      exact ihb hb hs' (fun s'' hle' => hk s'' (Nat.le_trans hle hle')) hout
    · intro s' hlt
      exact run_eq_none fun s'' hle => hout s'' (Nat.lt_of_lt_of_le hlt hle)
  | alt a b iha ihb =>
    obtain ⟨ha, hb⟩ := Bool.and_eq_true_iff.mp he
    simp only [run]
    rw [iha ha hs hk hout, ihb hb hs hk hout]
  | group index body ih => exact ih he hs (fun s' hle hs' => hk _ hle hs') fun s' hlt => hout _ hlt
  | backref | ahead | behind | atomic | ifGroup | reopen => cases he
  | many least most greedy body ih =>
    have hstep : ∀ (s : State) (k k' : Rest), s.pos ≤ q →
        (∀ s', s.pos ≤ s'.pos → s'.pos ≤ q → k s' = k' s') → (∀ s', q < s'.pos → k' s' = none) →
        body.run t q s k = body.run t stop s k' := fun _ _ _ hs hk hout => ih he hs hk hout
    have hupTo {m : Nat} {s : State} (hlt : q < s.pos) :
        upTo (body.run t stop) greedy m s k' = none :=
      upTo_eq_none fun s' hle => hout s' (Nat.lt_of_lt_of_le hlt hle)
    refine times_cut hstep hs ?_ fun n s' hlt => ?_
    · intro s' hle hs'
      have hle' := h.le
      refine upTo_cut hstep hs' ?_ (fun s'' hle' => hk s'' (Nat.le_trans hle hle')) ?_
      · cases most with
        | some m => exact .inl rfl
        | none =>
          dsimp only
          omega
      · intro m x s'' hlt
        dsimp only
        rw [hout s'' hlt, hupTo hlt, ite_self]
    · exact times_eq_none fun s'' hle => hupTo (Nat.lt_of_lt_of_le hlt hle)

/-- Whether an expression takes `c` in nowhere but in front of a part that takes something in. -/
def Expr.keepsBefore (c : Char) : Expr → Bool
  | .seq a b => (a.stopsAt c || a.plain && b.inLine && b.consumes) && b.keepsBefore c
  | e => e.stopsAt c

/-- An expression that does not end in a last character finds the same without it. -/
theorem Expr.run_keeps (h : Cut t c q t.size) (hsize : t.size ≤ q + 1)
    (he : e.keepsBefore c = true) (hs : s.pos ≤ q) (hk : ∀ s', s'.pos ≤ q → k s' = k' s') :
    e.run t q s k = e.run t t.size s k' := by
  induction e generalizing s k k' with
  | seq a b iha ihb =>
    obtain ⟨ha, hb⟩ := Bool.and_eq_true_iff.mp he
    have hrest : ∀ s' : State, s'.pos ≤ q → b.run t q s' k = b.run t t.size s' k' :=
      fun s' hs' => ihb hb hs' hk
    rcases (Bool.or_eq_true _ _).mp ha with ha | ha
    · exact run_cut (e := a) h ha hs fun s' _ hs' => hrest s' hs'
    · obtain ⟨ha, hconsumes⟩ := Bool.and_eq_true_iff.mp ha
      obtain ⟨hplain, hline⟩ := Bool.and_eq_true_iff.mp ha
      exact run_bound (e := a) h hplain hs (fun s' _ hs' => hrest s' hs') fun s' hlt =>
        run_eq_none_of_consumes hline hconsumes (Nat.le_trans hsize hlt)
  | empty | anyButLineEnd | oneOf | anchor | alt | group | backref | many | ahead | behind | atomic
  | ifGroup | reopen =>
    exact run_cut h he hs fun s' _ hs' => hk s' hs'

/-- A match of such an expression is found with and without the last character. -/
theorem matchAt?_keeps {r : Regex} {pos : Nat} (h : Cut t c q t.size) (hsize : t.size ≤ q + 1)
    (hr : r.body.keepsBefore c = true) (hpos : pos ≤ q) :
    matchAt? r t pos q = matchAt? r t pos t.size := by
  have hrun : r.body.run t q ⟨pos, []⟩ some = r.body.run t t.size ⟨pos, []⟩ some :=
    Expr.run_keeps h hsize hr hpos fun _ _ => rfl
  rw [matchAt?, matchAt?, hrun]

/-! ## Repetitions of characters -/

/-- A repetition of characters finds something if the rest accepts an offset that it can reach. -/
theorem upTo_isSome {p : Char → Bool} {greedy : Bool} {n last : Nat} (hle : s.pos ≤ last)
    (hn : last ≤ s.pos + n) (hsees : ∀ x, s.pos ≤ x → x < last → t.sees stop p x = true)
    (hk : (k { s with pos := last }).isSome) :
    (upTo (consume t stop p) greedy n s k).isSome := by
  induction n generalizing s with
  | zero =>
    obtain rfl : last = s.pos := by omega
    exact hk
  | succ n ih =>
    have heither : (k s).isSome ∨ (consume t stop p s fun s' =>
        if s'.pos = s.pos then k s' else upTo (consume t stop p) greedy n s' k).isSome := by
      rcases Nat.eq_or_lt_of_le hle with rfl | hlt
      · exact .inl hk
      · rw [consume_eq, if_pos (hsees _ (Nat.le_refl _) hlt), if_neg (Nat.succ_ne_self _)]
        exact .inr (ih hlt (by simp only; omega) (fun x hx => hsees x (Nat.le_of_succ_le hx)) hk)
    cases greedy with
    | true =>
      simp only [upTo, if_true, Option.orElse_eq_or, Option.isSome_or, Bool.or_eq_true]
      exact heither.symm
    | false =>
      simp only [upTo, Bool.false_eq_true, if_false, Option.orElse_eq_or, Option.isSome_or,
        Bool.or_eq_true]
      exact heither

theorem Expr.run_many_isSome {p : Char → Bool} {greedy : Bool} {last : Nat}
    (he : ∀ (s : State) (k : Rest), e.run t stop s k = consume t stop p s k) (hle : s.pos ≤ last)
    (hstop : last ≤ stop) (hsees : ∀ x, s.pos ≤ x → x < last → t.sees stop p x = true)
    (hk : (k { s with pos := last }).isSome) :
    ((Expr.many 0 none greedy e).run t stop s k).isSome := by
  simp only [run, times, he]
  exact upTo_isSome hle (by omega) hsees hk

/-! ## Scans -/

variable {a : Text} {r : Regex} {pos : Nat} {ms : List Match} {g : Match → Match}

/-- At the end of a text there is no match. -/
theorem Lined.matchAt?_size (hr : r.Lined) (h : t.size ≤ pos) : matchAt? r t pos t.size = none := by
  cases hfound : matchAt? r t pos t.size with
  | none => rfl
  | some m =>
    obtain ⟨hlt, hle, -⟩ := hr.spelled hfound
    omega

theorem Lined.scan_size (hr : r.Lined) (h : t.size ≤ pos) : Scan r t pos [] := by
  rcases Nat.eq_or_lt_of_le h with heq | hlt
  · exact .step (Nat.le_of_eq heq.symm) (hr.matchAt?_size h) (.past (by omega))
  · exact .past hlt

/-- If one more character changes the matches by `g`, which leaves them as long as they are or, at
the end of the text, lets them take in the character, it changes the scan by `g`. -/
theorem Scan.push (hr : r.Lined)
    (hsame : ∀ x ≤ a.size, matchAt? r (a.push c) x (a.push c).size =
      (matchAt? r a x a.size).map g)
    (hstop : ∀ x m, matchAt? r a x a.size = some m →
      (g m).stop = m.stop ∨ m.stop = a.size ∧ (g m).stop = a.size + 1)
    (h : Scan r a pos ms) : Scan r (a.push c) pos (ms.map g) := by
  have hsize : (a.push c).size = a.size + 1 := Array.size_push _
  induction h with
  | past out => exact hr.scan_size (by omega)
  | step inside none rest ih =>
    refine .step (by omega) ?_ ih
    rw [hsame _ inside, none]
    rfl
  | found inside some rest ih =>
    refine .found (by omega) ?_ ?_
    · rw [hsame _ inside, some]
      rfl
    · rcases hstop _ _ some with heq | ⟨hend, heq⟩
      · rwa [heq]
      · -- the match was the last, and still is
        rw [hend] at rest
        obtain rfl := rest.unique (hr.scan_size (Nat.le_refl _))
        exact hr.scan_size (by omega)

end VSyntax.Regex
