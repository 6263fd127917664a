import VSyntax.Proofs.Standard.Characters
import VSyntax.Proofs.Classify.Clip

/-!
# What the standard rules claim

Which neighbouring characters one claim can hold together (`Standard.Joins`): two word characters,
two marks, two dots, an attribute's sigil and its name, a point inside a numeral, a dot and the
underscore of a tuple member. Every claim of a standard rule in code stretches over such neighbours
only, from the offset where it is made, and begins with a character that is no blank
(`Standard.claimed_of_firstClaim?`). Where two neighbours are not of these kinds, no claim crosses.
-/
namespace VSyntax

namespace Standard

open Regex

variable {t : Text} {pos stop first last q : Nat}

/-! ## Neighbours in a claim -/

/-- The character at `q` and the one before it can stand in one claim. -/
inductive Joins (t : Text) (q : Nat) : Prop
  | words (before : t.Has isWordChar (q - 1)) (here : t.Has isWordChar q)
  | marks (before : t.Has isMark (q - 1)) (here : t.Has isMark q)
  | dots (before : t.Has isDot (q - 1)) (here : t.Has isDot q)
  | sigil (before : t.Has isSigil (q - 1)) (here : t.Has isNameHead q)
  | point (before : t.Has isWordChar (q - 1)) (here : t.Has isPoint q)
    (after : t.Has Unicode.isDecimal (q + 1))
  | digit (before : t.Has isPoint (q - 1)) (here : t.Has Unicode.isDecimal q)
  | member (before : t.Has isDot (q - 1)) (here : t.Has (· == '_') q)

/-- The later of two neighbours in a claim is of a word, a mark or a dot. -/
theorem Joins.here (h : Joins t q) :
    t.Has isWordChar q ∨ t.Has isMark q ∨ t.Has isDot q := by
  cases h with
  | words _ here => exact .inl here
  | marks _ here => exact .inr (.inl here)
  | dots _ here => exact .inr (.inr here)
  | sigil _ here => exact .inl (here.imp fun _ => isWordChar_of_isNameHead)
  | point _ here =>
    obtain ⟨c, hc, hpoint⟩ := here
    have hpoints : (isMark c || isDot c) = true :=
      of_contains (p := fun c => isMark c || isDot c) (by decide) hpoint
    rcases (Bool.or_eq_true _ _).mp hpoints with hmark | hdot
    · exact .inr (.inl ⟨c, hc, hmark⟩)
    · exact .inr (.inr ⟨c, hc, hdot⟩)
  | digit _ here => exact .inl (here.imp fun _ => isWordChar_of_isDecimal)
  | member _ here =>
    refine .inl (here.imp fun c hc => ?_)
    rw [beq_iff_eq.mp hc]
    decide

/-- The text from `pos` up to `last` begins with no blank and holds together. -/
structure Claimed (t : Text) (pos last : Nat) : Prop where
  head : t.Has isInk pos
  joins : ∀ q, pos < q → q < last → Joins t q

namespace Claimed

theorem mono {last' : Nat} (h : Claimed t pos last') (hle : last ≤ last') : Claimed t pos last :=
  ⟨h.head, fun q hq hlt => h.joins q hq (Nat.lt_of_lt_of_le hlt hle)⟩

theorem of_words (h : t.Spelled isWordChar pos last) (hlt : pos < last) : Claimed t pos last where
  head := (h pos (Nat.le_refl _) hlt).imp fun _ => isInk_of_isWordChar
  joins q hq hlast := .words (h (q - 1) (by omega) (by omega)) (h q (by omega) hlast)

theorem of_marks (h : t.Spelled isMark pos last) (hlt : pos < last) : Claimed t pos last where
  head := (h pos (Nat.le_refl _) hlt).imp fun _ => isInk_of_isMark
  joins q hq hlast := .marks (h (q - 1) (by omega) (by omega)) (h q (by omega) hlast)

theorem of_dots (h : t.Spelled isDot pos last) (hlt : pos < last) : Claimed t pos last where
  head := (h pos (Nat.le_refl _) hlt).imp fun _ => isInk_of_isDot
  joins q hq hlast := .dots (h (q - 1) (by omega) (by omega)) (h q (by omega) hlast)

end Claimed

/-- From `pos` up to `last` every character is of a word, or is a point with a digit after it. -/
def Numeral (t : Text) (pos last : Nat) : Prop :=
  ∀ x, pos ≤ x → x < last → t.Has isWordChar x ∨ t.Has isPoint x ∧ t.Has Unicode.isDecimal (x + 1)

namespace Numeral

theorem nil : Numeral t pos pos := fun x hx hlt => absurd hlt (by omega)

theorem of_words (h : t.Spelled isWordChar pos last) : Numeral t pos last :=
  fun x hx hlt => .inl (h x hx hlt)

theorem append {mid : Nat} (h : Numeral t pos mid) (h' : Numeral t mid last) :
    Numeral t pos last := by
  intro x hx hlt
  rcases Nat.lt_or_ge x mid with hmid | hmid
  · exact h x hx hmid
  · exact h' x hmid hlt

/-- A point with a digit after it goes before a numeral. -/
theorem point (hpoint : t.Has isPoint pos) (hdigit : t.Has Unicode.isDecimal (pos + 1)) :
    Numeral t pos (pos + 1) := by
  intro x hx hlt
  obtain rfl : x = pos := by omega
  exact .inr ⟨hpoint, hdigit⟩

theorem claimed (h : Numeral t pos last) (hlt : pos < last) : Claimed t pos last where
  head := by
    rcases h pos (Nat.le_refl _) hlt with hword | ⟨hpoint, -⟩
    · exact hword.imp fun _ => isInk_of_isWordChar
    · exact hpoint.imp fun _ => isInk_of_isPoint
  joins q hq hlast := by
    have hback : q - 1 + 1 = q := by omega
    rcases h (q - 1) (by omega) (by omega) with hword | ⟨hpoint, hdigit⟩
    · rcases h q (by omega) hlast with hhere | ⟨hpoint, hdigit⟩
      · exact .words hword hhere
      · exact .point hword hpoint hdigit
    · rw [hback] at hdigit
      exact .digit hpoint hdigit

end Numeral

/-! ## Paths of the shapes -/

variable {s s' : State}

theorem holds_word : ∀ k ∈ [CharKind.digit, CharKind.word], ∀ c, k.holds c = true →
    isWordChar c = true := by
  intro k hk c hc
  simp only [List.mem_cons, List.not_mem_nil, or_false] at hk
  rcases hk with rfl | rfl
  · exact isWordChar_of_isDecimal hc
  · exact hc

/-- A shape that takes in word characters only. -/
theorem path_words {e : Expr} (he : e.takes [.digit, .word] isWordChar = true)
    (h : e.Path t stop s s') : t.Spelled isWordChar s.pos s'.pos :=
  (h.takes holds_word he).2

theorem path_one {items : List CharItem} {p : Char → Bool}
    (hp : (fun c => items.any (·.holds c)) = p) (h : (one items).Path t stop s s') :
    t.Has p s.pos ∧ s'.pos = s.pos + 1 := by
  obtain ⟨hsees, rfl⟩ := h
  simp only [Bool.bne_false] at hsees
  exact ⟨hp ▸ Text.has_of_sees hsees, rfl⟩

/-- What may be left out is left out or passed once. -/
theorem path_maybe {e : Expr} (h : (maybe e).Path t stop s s') : s' = s ∨ e.Path t stop s s' := by
  obtain ⟨n, -, hmost, hn⟩ := h
  have hle : n ≤ 1 := by simpa only [Nat.zero_max] using hmost 1 rfl
  match n with
  | 0 => exact .inl hn
  | 1 =>
    obtain ⟨m, hstep, rfl⟩ := hn
    exact .inr hstep
  | n + 2 => omega

/-- A run of at least one character begins with one. -/
theorem path_run_one {items : List CharItem} {p : Char → Bool}
    (hp : (fun c => items.any (·.holds c)) = p) (h : (run 1 items).Path t stop s s') :
    t.Has p s.pos := by
  obtain ⟨n, hleast, -, hn⟩ := h
  match n with
  | 0 => omega
  | n + 1 =>
    obtain ⟨m, hstep, -⟩ := hn
    exact (path_one hp hstep).1

/-- An attribute is a sigil and a name. -/
theorem path_attributeName (h : attributeName.Path t stop s s') :
    t.Has isSigil s.pos ∧ t.Has isNameHead (s.pos + 1) ∧
      t.Spelled isWordChar (s.pos + 1) s'.pos := by
  obtain ⟨m, ⟨m₁, hsigil, hname⟩, rfl⟩ := h
  obtain ⟨hhere, hnext⟩ := path_one sigilItems_holds hsigil
  have hwords := path_words (by decide) hname
  rw [hnext] at hwords
  obtain ⟨m₂, hhead, -⟩ := hname
  have hheads := (path_one letterItems_holds hhead).1
  rw [hnext] at hheads
  exact ⟨hhere, hheads, hwords⟩

/-- The fraction of a numeral. -/
theorem path_fraction (h : fraction.Path t stop s s') : Numeral t s.pos s'.pos := by
  obtain ⟨m, hdot, hdigits⟩ := h
  have hwords := path_words (by decide) hdigits
  obtain ⟨m', hdigit, -⟩ := hdigits
  obtain ⟨hpoint, hnext⟩ := path_one (code_holds '.') hdot
  have hafter := (path_one digitItems_holds hdigit).1
  rw [hnext] at hwords hafter
  have hdots : t.Has isPoint s.pos := hpoint.imp fun c hc => by
    rw [beq_iff_eq.mp hc]
    rfl
  exact (Numeral.point hdots hafter).append (.of_words hwords)

/-- The exponent of a numeral, whose sign is followed by a digit. -/
theorem path_exponent (h : exponent.Path t stop s s') : Numeral t s.pos s'.pos := by
  obtain ⟨m, hletter, m', hsign, hdigits⟩ := h
  have hletters := path_words (by decide) hletter
  have hwords := path_words (by decide) hdigits
  have hfirst := path_run_one digitItems_holds hdigits
  refine (Numeral.of_words hletters).append ?_
  rcases path_maybe hsign with rfl | hsign
  · exact .of_words hwords
  · have hsigns : (fun c => [CharItem.code 0x2B, .code 0x2D].any (·.holds c)) =
        ['+', '-'].contains := codes_holds ['+', '-']
    obtain ⟨hhere, hnext⟩ := path_one hsigns hsign
    rw [hnext] at hwords hfirst
    have hpoint : t.Has isPoint m.pos := hhere.imp fun c hc => of_contains (by decide) hc
    exact (Numeral.point hpoint hfirst).append (.of_words hwords)

theorem path_decimal (h : decimal.Path t stop s s') :
    t.Has Unicode.isDecimal s.pos ∧ Numeral t s.pos s'.pos := by
  obtain ⟨m₁, hdigit, m₂, hrun, m₃, hfraction, hexponent⟩ := h
  have hhead := (path_one digitItems_holds hdigit).1
  have hfront : Numeral t s.pos m₂.pos :=
    (Numeral.of_words (path_words (by decide) hdigit)).append
      (.of_words (path_words (by decide) hrun))
  have hmiddle : Numeral t m₂.pos m₃.pos := by
    rcases path_maybe hfraction with rfl | hfraction
    · exact .nil
    · exact path_fraction hfraction
  have hback : Numeral t m₃.pos s'.pos := by
    rcases path_maybe hexponent with rfl | hexponent
    · exact .nil
    · exact path_exponent hexponent
  exact ⟨hhead, (hfront.append hmiddle).append hback⟩

/-- A numeral of a base is written with word characters after a zero. -/
theorem path_based {letters digits : List CharItem}
    (he : (based letters digits).takes [.digit, .word] isWordChar = true)
    (h : (based letters digits).Path t stop s s') :
    t.Has Unicode.isDecimal s.pos ∧ Numeral t s.pos s'.pos := by
  have hwords := path_words he h
  obtain ⟨m, hzero, -⟩ := h
  have hhead := (path_one (code_holds '0') hzero).1
  refine ⟨hhead.imp fun c hc => ?_, .of_words hwords⟩
  rw [beq_iff_eq.mp hc]
  rfl

/-- A numeral begins with a digit. -/
theorem path_numericLiteral (h : numericLiteral.Path t stop s s') :
    t.Has Unicode.isDecimal s.pos ∧ Numeral t s.pos s'.pos := by
  obtain ⟨m, hfront, m', hbody, rfl⟩ := h
  have hpos : m.pos = s.pos := by
    rcases hfront with ⟨-, rfl⟩ | ⟨-, m, -, rfl⟩
    · rfl
    · rfl
  have hnumeral : t.Has Unicode.isDecimal m.pos ∧ Numeral t m.pos m'.pos := by
    rcases hbody with h | h | h | h
    · exact path_based (by decide) h
    · exact path_based (by decide) h
    · exact path_based (by decide) h
    · exact path_decimal h
  rw [← hpos]
  exact hnumeral

theorem path_charLiteral (h : charLiteral.Path t stop s s') : t.Has (· == '\x60') s.pos := by
  obtain ⟨m, ⟨m', hquote, -⟩, -⟩ := h
  exact (path_one (code_holds '\x60') hquote).1

/-- A tuple member is a dot, an underscore and digits. -/
theorem path_tupleReference (h : tupleReference.Path t stop s s') :
    t.Has isDot s.pos ∧ t.Has (· == '_') (s.pos + 1) ∧
      t.Spelled isWordChar (s.pos + 1) s'.pos := by
  obtain ⟨m, hdot, hmember⟩ := h
  obtain ⟨hhere, hnext⟩ := path_one (code_holds '.') hdot
  have hwords := path_words (by decide) hmember
  obtain ⟨-, ⟨-, ⟨m', hscore, -⟩, -⟩, -⟩ := hmember
  have hscores := (path_one (code_holds '_') hscore).1
  rw [hnext] at hwords hscores
  exact ⟨hhere, hscores, hwords⟩

/-! ## Kinds of shapes -/

/-- The shapes of operators and separators that can begin with a dot. -/
def dottedShapes : List Expr := [multiCharOperator, separator]

/-- The other shapes of operators, separators and delimiters. -/
def markShapes : List Expr := [arithmeticOperator, logicalOperator, colon, delimiter]

/-- The shapes that take in word characters only. -/
def nameShapes : List Expr := [functionName, typeName, callReference, parameter, variableReference]

variable {body : Expr}

/-- The kinds of shapes, with the characters that most of them take in. -/
theorem kind_of_mem_shapes (h : body ∈ shapes) :
    body = attributeName ∨
    (body ∈ dottedShapes ∧ body.takesEither isMark isDot = true) ∨
    (body ∈ markShapes ∧ body.takes [] isMark = true) ∨
    body = numericLiteral ∨ body = charLiteral ∨ body = tupleReference ∨
    (body ∈ nameShapes ∧ body.takes [.digit, .word] isWordChar = true) := by
  have hkinds : shapes.all fun e => decide (e = attributeName ∨
      (e ∈ dottedShapes ∧ e.takesEither isMark isDot = true) ∨
      (e ∈ markShapes ∧ e.takes [] isMark = true) ∨
      e = numericLiteral ∨ e = charLiteral ∨ e = tupleReference ∨
      (e ∈ nameShapes ∧ e.takes [.digit, .word] isWordChar = true)) := by
    decide
  exact of_decide_eq_true (List.all_eq_true.mp hkinds body h)

theorem not_capturesAside (hbody : body ∈ shapes) : body.capturesAside = false := by
  have hshapes : ∀ e ∈ shapes, e.capturesAside = false := by decide
  exact hshapes body hbody

/-- The character that a match begins with tells the kind of its shape. -/
theorem head_of_path (hbody : body ∈ shapes) (h : body.Path t stop s s') (hlt : s.pos < s'.pos) :
    body = attributeName ∧ t.Has isSigil s.pos ∨
    body ∈ dottedShapes ∧ (t.Has isMark s.pos ∨ t.Has isDot s.pos) ∨
    body ∈ markShapes ∧ t.Has isMark s.pos ∨
    body = numericLiteral ∧ t.Has Unicode.isDecimal s.pos ∨
    body = charLiteral ∧ t.Has (· == '\x60') s.pos ∨
    body = tupleReference ∧ t.Has isDot s.pos ∨
    body ∈ nameShapes ∧ t.Has isWordChar s.pos := by
  rcases kind_of_mem_shapes hbody with rfl | ⟨hmem, htakes⟩ | ⟨hmem, htakes⟩ | rfl | rfl | rfl |
    ⟨hmem, htakes⟩
  · exact .inl ⟨rfl, (path_attributeName h).1⟩
  · refine .inr (.inl ⟨hmem, ?_⟩)
    rcases h.takes_either htakes with h | h
    · exact .inl (h s.pos (Nat.le_refl _) hlt)
    · exact .inr (h s.pos (Nat.le_refl _) hlt)
  · have hspelled := (h.takes (fun k hk => absurd hk List.not_mem_nil) htakes).2
    exact .inr (.inr (.inl ⟨hmem, hspelled s.pos (Nat.le_refl _) hlt⟩))
  · exact .inr (.inr (.inr (.inl ⟨rfl, (path_numericLiteral h).1⟩)))
  · exact .inr (.inr (.inr (.inr (.inl ⟨rfl, path_charLiteral h⟩))))
  · exact .inr (.inr (.inr (.inr (.inr (.inl ⟨rfl, (path_tupleReference h).1⟩)))))
  · have hwords := path_words htakes h
    exact .inr (.inr (.inr (.inr (.inr (.inr ⟨hmem, hwords s.pos (Nat.le_refl _) hlt⟩)))))

/-! ## Claims of the rules -/

variable {words : KeywordSet → List (List Char)} {rule : Rule}

/-- With the standard marks the word characters keep their role. -/
theorem standard_isWord : Delimiters.standard.isWord = isWordChar := by
  funext c
  rw [Bool.eq_iff_iff, Delimiters.isWord, decide_eq_true_eq]
  constructor
  · intro h
    unfold Delimiters.role at h
    grind
  · intro h
    have hstrings : c ∉ Delimiters.standard.strings := fun hc =>
      Delimiters.standard.strings_not_word c hc h
    have hescape : Delimiters.standard.escape ≠ [c] := by
      rintro heq
      cases heq
      exact absurd h (by decide)
    have hterminator : c ∉ Delimiters.standard.commentTerminator := by
      intro hc
      rw [List.mem_singleton.mp hc] at h
      exact absurd h (by decide)
    simp only [Delimiters.role, if_neg hstrings, if_neg hescape, if_neg hterminator, if_pos h]

/-- A word rule claims word characters. -/
theorem wordClaim?_spelled {ws : List (List Char)} (hpos : pos < stop) (hstop : stop ≤ t.size)
    (h : wordClaim? .standard ws t pos stop = .ok (some (first, last))) :
    t.Spelled isWordChar pos last := by
  rw [wordClaim?_eq hpos hstop, standard_isWord] at h
  split at h
  · cases h
    exact fun x hx hlt => Text.has_of_sees (Text.sees_of_lt_runEnd hx hlt)
  · cases h

/-- A shape claims a part of what a path takes in. -/
theorem shapeClaim?_path (haside : body.capturesAside = false)
    (h : shapeClaim? ⟨body, 1⟩ 1 t pos stop = some (first, last)) :
    ∃ s, body.Path t stop ⟨pos, []⟩ s ∧ pos ≤ first ∧ first < last ∧ last ≤ s.pos := by
  obtain ⟨hlt, m, hm, hext⟩ := shapeClaim?_eq_some h
  obtain ⟨s, hpath, hfirst, hlast⟩ := matchAt?_inside haside hm hext
  exact ⟨s, hpath, hfirst, hlt, hlast⟩

/-- What a standard shape takes in holds together, but for a quoted character. -/
theorem claimed_of_shape {s : State} (hbody : body ∈ shapes) (h : body.Path t stop ⟨pos, []⟩ s)
    (hlt : pos < s.pos) (hquote : ¬ t.Has (· == '\x60') pos) : Claimed t pos s.pos := by
  have of_name : ∀ {p : Char → Bool}, t.Has p pos → (∀ c, p c = true → isInk c = true) →
      Joins t (pos + 1) → t.Spelled isWordChar (pos + 1) s.pos → Claimed t pos s.pos := by
    intro p hhead hink hjoin hwords
    refine ⟨hhead.imp hink, fun q hq hlast => ?_⟩
    rcases Nat.eq_or_lt_of_le hq with rfl | hq
    · exact hjoin
    · exact .words (hwords (q - 1) (by omega) (by omega)) (hwords q (by omega) hlast)
  rcases kind_of_mem_shapes hbody with rfl | ⟨-, htakes⟩ | ⟨-, htakes⟩ | rfl | rfl | rfl |
    ⟨-, htakes⟩
  · obtain ⟨hsigil, hhead, hwords⟩ := path_attributeName h
    exact of_name hsigil (fun _ => isInk_of_isSigil) (.sigil hsigil hhead) hwords
  · rcases h.takes_either htakes with h | h
    · exact .of_marks h hlt
    · exact .of_dots h hlt
  · exact .of_marks (h.takes (fun k hk => absurd hk List.not_mem_nil) htakes).2 hlt
  · exact (path_numericLiteral h).2.claimed hlt
  · exact absurd (path_charLiteral h) hquote
  · obtain ⟨hdot, hscore, hwords⟩ := path_tupleReference h
    exact of_name hdot (fun _ => isInk_of_isDot) (.member hdot hscore) hwords
  · exact .of_words (path_words htakes h) hlt

/-- What the standard table claims in code holds together from the offset on. -/
theorem claimed_of_firstClaim? {s : Span} (hpos : pos < stop) (hstop : stop ≤ t.size)
    (hquiet : ¬ Delimiters.standard.Opens t pos)
    (h : firstClaim? .standard t pos stop (table words) = .ok (some s)) :
    Claimed t pos s.stop := by
  obtain ⟨hfirst, hlt, -, rule, hrule, -, hof⟩ :=
    firstClaim?_eq_some (fun _ => capturesBehind_of_mem_table) hpos hstop h
  rcases mem_table hrule with ⟨set, rfl⟩ | ⟨name, category, body, hbody, rfl⟩
  · have hwords := wordClaim?_spelled hpos hstop hof
    exact .of_words hwords (by omega)
  · obtain ⟨m, hpath, -, -, hle⟩ :=
      shapeClaim?_path (not_capturesAside hbody) (Except.ok.inj hof)
    refine (claimed_of_shape hbody hpath (by omega) fun hquote => hquiet (.inr ?_)).mono hle
    obtain ⟨q, hq, heq⟩ := hquote
    rw [beq_iff_eq.mp heq] at hq
    exact ⟨'\x60', by decide, hq⟩

/-- No claim crosses where two neighbours do not hold together. -/
theorem barrier_of_not_joins (h : 0 < q → ¬ Joins t q) :
    Barrier (table words) .standard t q := by
  intro p e s hp hpe code claimed
  have hclaimed := claimed_of_firstClaim? hpe code.le_stop
    (code.quiet p (Nat.le_refl _) hpe) claimed
  exact Nat.le_of_not_lt fun hcross => h (by omega) (hclaimed.joins q hp hcross)

end Standard

end VSyntax
