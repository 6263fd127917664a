import VSyntax.Proofs.Regex.Path

/-!
# What an expression takes in

Which characters can stand in a match. If every character set of an expression keeps to a class
(`Expr.TakesIn`, and `Expr.takes` where it is computed), then so does every character between the
ends of a path through it (`Expr.Path.spelled`); what an assertion looks at is not taken in and does
not count. A group that
does not stand in an assertion is captured inside the match (`matchAt?_inside`), so the class holds
of every captured character too.
-/
namespace VSyntax

/-- A character of a class stands at an offset. -/
def Text.Has (t : Text) (p : Char → Bool) (x : Nat) : Prop := ∃ c, t[x]? = some c ∧ p c = true

/-- From `pos` up to `last` the text is of a class. -/
def Text.Spelled (t : Text) (p : Char → Bool) (pos last : Nat) : Prop :=
  ∀ x, pos ≤ x → x < last → t.Has p x

namespace Text

variable {t : Text} {p r : Char → Bool} {pos mid last stop x : Nat}

theorem Has.imp (h : t.Has p x) (hr : ∀ c, p c = true → r c = true) : t.Has r x := by
  obtain ⟨c, hc, hp⟩ := h
  exact ⟨c, hc, hr c hp⟩

theorem Has.lt_size (h : t.Has p x) : x < t.size := by
  obtain ⟨c, hc, -⟩ := h
  exact (Array.getElem?_eq_some_iff.mp hc).1

/-- A character is not of two classes that exclude each other. -/
theorem Has.not_both (h : t.Has p x) (h' : t.Has r x) (hpr : ∀ c, p c = true → r c = false) :
    False := by
  obtain ⟨c, hc, hp⟩ := h
  obtain ⟨c', hc', hr⟩ := h'
  rw [hc] at hc'
  cases hc'
  rw [hpr c hp] at hr
  cases hr

/-- A given character is of no class that excludes it. -/
theorem Has.not_char {c : Char} (h : t.Has p x) (hp : p c = false) : ¬ t.Has (· == c) x :=
  fun hc => hc.not_both h fun _ heq => beq_iff_eq.mp heq ▸ hp

theorem has_of_sees (h : t.sees stop p pos = true) : t.Has p pos := (sees_iff.mp h).2

theorem Spelled.nil : t.Spelled p pos pos := fun x hx hlt => absurd hlt (by omega)

theorem Spelled.one (h : t.Has p pos) : t.Spelled p pos (pos + 1) := by
  intro x hx hlt
  obtain rfl : x = pos := by omega
  exact h

theorem Spelled.append (h : t.Spelled p pos mid) (h' : t.Spelled p mid last) :
    t.Spelled p pos last := by
  intro x hx hlt
  rcases Nat.lt_or_ge x mid with hmid | hmid
  · exact h x hx hmid
  · exact h' x hmid hlt

theorem Spelled.imp (h : t.Spelled p pos last) (hr : ∀ c, p c = true → r c = true) :
    t.Spelled r pos last :=
  fun x hx hlt => (h x hx hlt).imp hr

end Text

namespace Regex

variable {t : Text} {stop : Nat} {kinds : List CharKind} {p : Char → Bool} {e : Expr} {s s' : State}

/-! ## Characters taken in -/

/-- Every character that the expression can take in is of a class. -/
def Expr.TakesIn (p : Char → Bool) : Expr → Prop
  | .empty | .anchor _ | .ahead _ _ | .behind _ _ _ | .reopen _ => True
  | .anyButLineEnd => ∀ c, (c != '\n') = true → p c = true
  | .oneOf negated items => ∀ c, (items.any (·.holds c) != negated) = true → p c = true
  | .backref _ _ => False
  | .seq a b | .alt a b | .ifGroup _ a b => a.TakesIn p ∧ b.TakesIn p
  | .group _ body | .many _ _ _ body | .atomic body => body.TakesIn p

/-- A path leads on, over characters of the class only. -/
theorem Expr.Path.spelled (he : e.TakesIn p) (h : e.Path t stop s s') :
    s.pos ≤ s'.pos ∧ t.Spelled p s.pos s'.pos := by
  induction e generalizing s s' with
  | empty =>
    cases h
    exact ⟨Nat.le_refl _, .nil⟩
  | anyButLineEnd | oneOf =>
    obtain ⟨hsees, rfl⟩ := h
    exact ⟨Nat.le_succ _, .one ((Text.has_of_sees hsees).imp he)⟩
  | anchor a =>
    obtain ⟨-, rfl⟩ := h
    exact ⟨Nat.le_refl _, .nil⟩
  | seq a b iha ihb =>
    obtain ⟨m, hfirst, hsecond⟩ := h
    obtain ⟨hle, hspelled⟩ := iha he.1 hfirst
    obtain ⟨hle', hspelled'⟩ := ihb he.2 hsecond
    exact ⟨Nat.le_trans hle hle', hspelled.append hspelled'⟩
  | alt a b iha ihb | ifGroup _ a b iha ihb =>
    rcases h with h | h
    · exact iha he.1 h
    · exact ihb he.2 h
  | group index body ih =>
    obtain ⟨m, hbody, rfl⟩ := h
    obtain ⟨hle, hspelled⟩ := ih he hbody
    exact ⟨hle, hspelled⟩
  | backref => cases he
  | many least most greedy body ih =>
    obtain ⟨n, -, -, hn⟩ := h
    refine hn.keeps (P := fun m => s.pos ≤ m.pos ∧ t.Spelled p s.pos m.pos) ?_
      ⟨Nat.le_refl _, .nil⟩
    rintro a b hab ⟨hle, hspelled⟩
    obtain ⟨hle', hspelled'⟩ := ih he hab
    exact ⟨Nat.le_trans hle hle', hspelled.append hspelled'⟩
  | ahead negated body ih =>
    cases negated with
    | true =>
      obtain ⟨-, rfl⟩ := h
      exact ⟨Nat.le_refl _, .nil⟩
    | false =>
      obtain ⟨m, -, rfl⟩ := h
      exact ⟨Nat.le_refl _, .nil⟩
  | behind negated width body ih =>
    cases negated with
    | true =>
      obtain ⟨-, rfl⟩ := h
      exact ⟨Nat.le_refl _, .nil⟩
    | false =>
      obtain ⟨-, m, -, rfl⟩ := h
      exact ⟨Nat.le_refl _, .nil⟩
  | atomic body ih => exact ih he h
  | reopen index =>
    cases h
    rw [s.reopen_pos index]
    exact ⟨Nat.le_refl _, .nil⟩

/-- Whether every character that the item names is known to be of a class; of the named kinds
`kinds` are taken to be. -/
def CharItem.within (kinds : List CharKind) (p : Char → Bool) : CharItem → Bool
  | .code n => p (Char.ofNat n)
  | .range first last => (List.range' first (last + 1 - first)).all fun n => p (Char.ofNat n)
  | .kind k negated => kinds.contains k && !negated
  | .lowered _ _ | .lowersOf _ _ _ | .rangeOrUpper _ _ => false

/-- Whether every character that the expression can take in is known to be of a class; of the named
kinds `kinds` are taken to be. -/
def Expr.takes (kinds : List CharKind) (p : Char → Bool) : Expr → Bool
  | .empty | .anchor _ | .ahead _ _ | .behind _ _ _ | .reopen _ => true
  | .anyButLineEnd | .backref _ _ => false
  | .oneOf negated items => !negated && items.all (·.within kinds p)
  | .seq a b | .alt a b | .ifGroup _ a b => a.takes kinds p && b.takes kinds p
  | .group _ body | .many _ _ _ body | .atomic body => body.takes kinds p

theorem CharItem.of_within {item : CharItem} {c : Char}
    (hkinds : ∀ k ∈ kinds, ∀ c, k.holds c = true → p c = true) (h : item.within kinds p = true)
    (hc : item.holds c = true) : p c = true := by
  cases item with
  | code n =>
    have hn : c.toNat = n := beq_iff_eq.mp hc
    rw [← Char.ofNat_toNat c, hn]
    exact h
  | range first last =>
    simp only [holds, Bool.and_eq_true, decide_eq_true_eq] at hc
    have hmem : c.toNat ∈ List.range' first (last + 1 - first) :=
      List.mem_range'_1.mpr ⟨hc.1, by omega⟩
    rw [← Char.ofNat_toNat c]
    exact List.all_eq_true.mp h c.toNat hmem
  | kind k negated =>
    obtain ⟨hk, hn⟩ := Bool.and_eq_true_iff.mp h
    cases negated with
    | true => cases hn
    | false =>
      have hholds : k.holds c = true := by simpa only [holds, Bool.bne_false] using hc
      exact hkinds k (List.contains_iff_mem.mp hk) c hholds
  | lowered | lowersOf | rangeOrUpper => cases h

/-- What the computed test says of an expression holds of it. -/
theorem Expr.takesIn_of_takes (hkinds : ∀ k ∈ kinds, ∀ c, k.holds c = true → p c = true)
    (he : e.takes kinds p = true) : e.TakesIn p := by
  induction e with
  | empty | anchor | ahead | behind | reopen => trivial
  | anyButLineEnd | backref => cases he
  | oneOf negated items =>
    obtain ⟨hnegated, hitems⟩ := Bool.and_eq_true_iff.mp he
    intro c hc
    cases negated with
    | true => cases hnegated
    | false =>
      rw [Bool.bne_false] at hc
      obtain ⟨item, hitem, hholds⟩ := List.any_eq_true.mp hc
      exact CharItem.of_within hkinds (List.all_eq_true.mp hitems item hitem) hholds
  | seq a b iha ihb | alt a b iha ihb | ifGroup _ a b iha ihb =>
    obtain ⟨ha, hb⟩ := Bool.and_eq_true_iff.mp he
    exact ⟨iha ha, ihb hb⟩
  | group _ _ ih | many _ _ _ _ ih | atomic _ ih => exact ih he

/-- A path takes in characters of the class only, if the computed test says so. -/
theorem Expr.Path.takes (hkinds : ∀ k ∈ kinds, ∀ c, k.holds c = true → p c = true)
    (he : e.takes kinds p = true) (h : e.Path t stop s s') :
    s.pos ≤ s'.pos ∧ t.Spelled p s.pos s'.pos :=
  h.spelled (takesIn_of_takes hkinds he)

/-- Whether each side of a choice keeps to one of two classes. -/
def Expr.takesEither (p r : Char → Bool) : Expr → Bool
  | .alt a b => a.takesEither p r && b.takesEither p r
  | .group _ body => body.takesEither p r
  | e => e.takes [] p || e.takes [] r

/-- A path takes in characters of one of the two classes only. -/
theorem Expr.Path.takes_either {r : Char → Bool} (he : e.takesEither p r = true)
    (h : e.Path t stop s s') :
    t.Spelled p s.pos s'.pos ∨ t.Spelled r s.pos s'.pos := by
  have hnone : ∀ {p : Char → Bool}, ∀ k ∈ ([] : List CharKind), ∀ c, k.holds c = true →
      p c = true := fun k hk => absurd hk List.not_mem_nil
  have hplain : ∀ {e : Expr} {s' : State}, (e.takes [] p || e.takes [] r) = true →
      e.Path t stop s s' → t.Spelled p s.pos s'.pos ∨ t.Spelled r s.pos s'.pos := by
    intro e s' he h
    rcases (Bool.or_eq_true _ _).mp he with he | he
    · exact .inl (h.takes hnone he).2
    · exact .inr (h.takes hnone he).2
  induction e generalizing s' with
  | alt a b iha ihb =>
    obtain ⟨ha, hb⟩ := Bool.and_eq_true_iff.mp he
    rcases h with h | h
    · exact iha ha h
    · exact ihb hb h
  | group index body ih =>
    obtain ⟨m, hbody, rfl⟩ := h
    have hspelled := ih he hbody
    exact hspelled
  | _ => exact hplain he h

/-! ## Groups -/

/-- Whether a capture group stands in an assertion. -/
def Expr.capturesAside : Expr → Bool
  | .seq a b | .alt a b | .ifGroup _ a b => a.capturesAside || b.capturesAside
  | .group _ b | .many _ _ _ b | .atomic b => b.capturesAside
  | .ahead _ b | .behind _ _ b => b.captures
  | .empty | .anyButLineEnd | .oneOf _ _ | .anchor _ | .backref _ _ | .reopen _ => false

/-- The state stands at `lo` or later, and all that it has captured lies between `lo` and where it
stands. -/
structure State.Past (lo : Nat) (s : State) : Prop where
  start_le : lo ≤ s.pos
  captures : ∀ x ∈ s.captures, lo ≤ x.2.1 ∧ x.2.2 ≤ s.pos

theorem State.Past.mono {lo : Nat} {s s' : State} (h : s.Past lo)
    (hcaptures : s'.captures = s.captures) (hle : s.pos ≤ s'.pos) : s'.Past lo := by
  refine ⟨Nat.le_trans h.start_le hle, fun x hx => ?_⟩
  rw [hcaptures] at hx
  exact ⟨(h.captures x hx).1, Nat.le_trans (h.captures x hx).2 hle⟩

/-- A path leads on, and what it captures lies between its ends, unless the expression captures in
an assertion. -/
theorem Expr.Path.past {lo : Nat} (he : e.capturesAside = false) (h : e.Path t stop s s')
    (hs : s.Past lo) : s.pos ≤ s'.pos ∧ s'.Past lo := by
  induction e generalizing s s' with
  | empty =>
    cases h
    exact ⟨Nat.le_refl _, hs⟩
  | anyButLineEnd =>
    obtain ⟨-, rfl⟩ := h
    exact ⟨Nat.le_succ _, hs.mono rfl (Nat.le_succ _)⟩
  | oneOf negated items =>
    obtain ⟨-, rfl⟩ := h
    exact ⟨Nat.le_succ _, hs.mono rfl (Nat.le_succ _)⟩
  | anchor a =>
    obtain ⟨-, rfl⟩ := h
    exact ⟨Nat.le_refl _, hs⟩
  | seq a b iha ihb =>
    obtain ⟨ha, hb⟩ := Bool.or_eq_false_iff.mp he
    obtain ⟨m, hfirst, hsecond⟩ := h
    obtain ⟨hle, hm⟩ := iha ha hfirst hs
    obtain ⟨hle', hs'⟩ := ihb hb hsecond hm
    exact ⟨Nat.le_trans hle hle', hs'⟩
  | alt a b iha ihb | ifGroup _ a b iha ihb =>
    obtain ⟨ha, hb⟩ := Bool.or_eq_false_iff.mp he
    rcases h with h | h
    · exact iha ha h hs
    · exact ihb hb h hs
  | group index body ih =>
    obtain ⟨m, hbody, rfl⟩ := h
    obtain ⟨hle, hm⟩ := ih he hbody hs
    refine ⟨hle, hm.start_le, fun x hx => ?_⟩
    rcases List.mem_cons.mp hx with rfl | hx
    · exact ⟨hs.start_le, Nat.le_refl _⟩
    · exact hm.captures x hx
  | backref fold index =>
    obtain ⟨a, b, -, -, rfl⟩ := h
    exact ⟨Nat.le_add_right _ _, hs.mono rfl (Nat.le_add_right _ _)⟩
  | many least most greedy body ih =>
    obtain ⟨n, -, -, hn⟩ := h
    refine hn.keeps (P := fun m => s.pos ≤ m.pos ∧ m.Past lo) ?_ ⟨Nat.le_refl _, hs⟩
    rintro a b hab ⟨hle, ha⟩
    obtain ⟨hle', hb⟩ := ih he hab ha
    exact ⟨Nat.le_trans hle hle', hb⟩
  | ahead negated body ih =>
    cases negated with
    | true =>
      obtain ⟨-, rfl⟩ := h
      exact ⟨Nat.le_refl _, hs⟩
    | false =>
      obtain ⟨m, hpath, rfl⟩ := h
      have hcaptures := hpath.captures_eq he
      exact ⟨Nat.le_refl _, hs.mono hcaptures (Nat.le_refl _)⟩
  | behind negated width body ih =>
    cases negated with
    | true =>
      obtain ⟨-, rfl⟩ := h
      exact ⟨Nat.le_refl _, hs⟩
    | false =>
      obtain ⟨-, m, hpath, rfl⟩ := h
      have hcaptures := hpath.captures_eq he
      exact ⟨Nat.le_refl _, hs.mono hcaptures (Nat.le_refl _)⟩
  | atomic body ih => exact ih he h hs
  | reopen index =>
    cases h
    refine ⟨Nat.le_of_eq (s.reopen_pos index).symm, ?_, fun x hx => ?_⟩
    · rw [s.reopen_pos index]
      exact hs.start_le
    · rw [s.reopen_pos index]
      rcases State.mem_reopen hx with hx | ⟨first, last, hcap, -, rfl⟩
      · exact hs.captures x hx
      · exact ⟨hs.start_le, (hs.captures _ (State.mem_captures hcap)).2⟩

/-- A match is a path, and every group of it lies between the ends of the path, unless the
expression captures in an assertion. -/
theorem matchAt?_inside {r : Regex} {pos index first last : Nat} {m : Match}
    (hr : r.body.capturesAside = false) (h : matchAt? r t pos stop = some m)
    (hm : m.extent? index = some (first, last)) :
    ∃ s, r.body.Path t stop ⟨pos, []⟩ s ∧ pos ≤ first ∧ last ≤ s.pos := by
  obtain ⟨s, hrun, rfl⟩ := Option.map_eq_some_iff.mp h
  obtain ⟨s', hpath, hsome⟩ := Expr.exists_path hrun
  cases hsome
  refine ⟨s, hpath, ?_⟩
  have hstart : State.Past pos ⟨pos, []⟩ :=
    ⟨Nat.le_refl _, fun x hx => absurd hx List.not_mem_nil⟩
  obtain ⟨-, hs⟩ := hpath.past hr hstart
  cases index with
  | zero =>
    cases hm
    exact ⟨Nat.le_refl _, Nat.le_refl _⟩
  | succ index =>
    have hcaptured : s.captured? (index + 1) = some (first, last) := hm
    exact hs.captures _ (State.mem_captures hcaptured)

end Regex

end VSyntax
