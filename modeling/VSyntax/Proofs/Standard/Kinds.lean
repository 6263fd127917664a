import VSyntax.Proofs.Standard.Numerals
import VSyntax.Proofs.Standard.WordSpans

/-!
# Kinds of claims

What the standard table can claim at an offset of code (`Kind`): a run of operator characters, one
separator, one bracket, a numeral, or a stretch of words with a sigil or a dot in front. The
category tells which. Each kind keeps to its own characters, so the character at an offset tells
which claims can pass over it; only the sign of an exponent can be of two kinds.

At the characters of operators and brackets and at a comma and a semicolon something is claimed
(`exists_firstClaim?_of_mark`).
-/
namespace VSyntax

namespace Standard

open Regex

/-! ## Characters -/

def arithmeticChars : List Char := ['+', '-', '*', '/', '%', '<', '>', '=']

def logicalChars : List Char := ['!', '&', '|', '^', '~', '?']

/-- The characters that operators are made of. -/
def isOperatorChar (c : Char) : Bool := (arithmeticChars ++ logicalChars).contains c

/-- The characters of operators, with the colon and the dot. -/
def isOperatorPart (c : Char) : Bool := (arithmeticChars ++ logicalChars ++ [':', '.']).contains c

def isSeparator (c : Char) : Bool := [',', ';', '.', ':'].contains c

def bracketChars : List Char := ['(', ')', '[', ']', '\x7b', '\x7d']

def isBracket (c : Char) : Bool := bracketChars.contains c

/-- The characters at which something is claimed wherever they stand in code. -/
def isPunctuation (c : Char) : Bool :=
  (arithmeticChars ++ logicalChars ++ bracketChars ++ [',', ';']).contains c

variable {t : Text} {pos stop x first last : Nat} {s : Span} {e body : Expr}
  {words : KeywordSet → List (List Char)}

/-! ## Kinds -/

/-- The categories whose claims are not made of words. -/
def markCategories : List Category := [.operator, .separator, .delimiter, .numericLiteral]

/-- What is claimed at `pos` in code up to `stop`. -/
inductive Kind (t : Text) (stop pos : Nat) (s : Span) : Prop
  | operator (category : s.category = .operator) (start : s.start = pos)
    (spelled : t.Spelled isOperatorPart pos s.stop)
  | separator (category : s.category = .separator) (start : s.start = pos)
    (ends : s.stop = pos + 1) (char : t.Has isSeparator pos)
  | bracket (category : s.category = .delimiter) (start : s.start = pos)
    (ends : s.stop = pos + 1) (char : t.Has isBracket pos)
  | numeral (category : s.category = .numericLiteral) (start : s.start = pos)
    (ends : s.stop = numeralEnd t stop pos) (front : mayBegin t pos = true)
    (digit : t.sees stop Unicode.isDecimal pos = true)
  | words (category : s.category ∉ markCategories) (spelled : t.Spelled isLead pos s.stop)

def operatorShapes : List Expr := [multiCharOperator, arithmeticOperator, logicalOperator]

def separatorShapes : List Expr := [separator, colon]

/-- The shapes of words. -/
def wordShapes : List Expr := attributeName :: tupleReference :: nameShapes

/-- The category of a shape tells what the shape is of. -/
theorem kind_of_mem_shown {p : Category × Expr} (h : p ∈ shown) :
    (p.1 = .operator ∧ p.2 ∈ operatorShapes) ∨ (p.1 = .separator ∧ p.2 ∈ separatorShapes) ∨
    p = (.delimiter, delimiter) ∨ p = (.numericLiteral, numericLiteral) ∨
    p = (.charLiteral, charLiteral) ∨ (p.1 ∉ markCategories ∧ p.2 ∈ wordShapes) := by
  have hkinds : shown.all fun p => decide (
      (p.1 = .operator ∧ p.2 ∈ operatorShapes) ∨ (p.1 = .separator ∧ p.2 ∈ separatorShapes) ∨
      p = (.delimiter, delimiter) ∨ p = (.numericLiteral, numericLiteral) ∨
      p = (.charLiteral, charLiteral) ∨ (p.1 ∉ markCategories ∧ p.2 ∈ wordShapes)) := by
    decide
  exact of_decide_eq_true (List.all_eq_true.mp hkinds p h)

/-! ## Paths -/

/-- A shape that is captured as a whole claims all that a path takes in. -/
theorem shapeClaim?_group (h : shapeClaim? ⟨.group 1 e, 1⟩ 1 t pos stop = some (first, last)) :
    first = pos ∧ ∃ m, e.Path t stop ⟨pos, []⟩ m ∧ m.pos = last := by
  obtain ⟨-, m, hm, hext⟩ := shapeClaim?_eq_some h
  obtain ⟨s, hrun, rfl⟩ := Option.map_eq_some_iff.mp hm
  obtain ⟨s', ⟨m, hpath, rfl⟩, hsome⟩ := Expr.exists_path hrun
  cases hsome
  cases hext
  exact ⟨rfl, m, hpath, rfl⟩

/-- An operator is claimed from the offset on, and made of the characters of operators. -/
theorem spelled_of_operator (hbody : body ∈ operatorShapes)
    (h : shapeClaim? ⟨body, 1⟩ 1 t pos stop = some (first, last)) :
    first = pos ∧ t.Spelled isOperatorPart pos last := by
  obtain ⟨e, rfl, htakes⟩ : ∃ e, body = .group 1 e ∧ e.takes [] isOperatorPart = true := by
    simp only [operatorShapes, List.mem_cons, List.not_mem_nil, or_false] at hbody
    rcases hbody with rfl | rfl | rfl
    · exact ⟨_, rfl, by decide⟩
    · exact ⟨_, rfl, by decide⟩
    · exact ⟨_, rfl, by decide⟩
  obtain ⟨rfl, m, hpath, rfl⟩ := shapeClaim?_group h
  exact ⟨rfl, (hpath.takes (fun _ hk => absurd hk List.not_mem_nil) htakes).2⟩

variable {m m' : State}

theorem path_separator (h : separator.Path t stop m m') :
    t.Has isSeparator m.pos ∧ m'.pos = m.pos + 1 := by
  obtain ⟨m₁, hone | ⟨m₂, hdot, hahead⟩, rfl⟩ := h
  · obtain ⟨hhas, hnext⟩ := path_one (codes_holds [',', ';']) hone
    exact ⟨hhas.imp fun _ => of_contains (by decide), hnext⟩
  · obtain ⟨hhas, hnext⟩ := path_one (code_holds '.') hdot
    obtain ⟨-, rfl⟩ := hahead
    refine ⟨hhas.imp fun c hc => ?_, hnext⟩
    rw [beq_iff_eq.mp hc]
    decide

theorem path_colon (h : colon.Path t stop m m') :
    t.Has isSeparator m.pos ∧ m'.pos = m.pos + 1 := by
  obtain ⟨m₁, ⟨-, rfl⟩, m₂, ⟨m₃, hcolon, rfl⟩, -, rfl⟩ := h
  obtain ⟨hhas, hnext⟩ := path_one (code_holds ':') hcolon
  refine ⟨hhas.imp fun c hc => ?_, hnext⟩
  rw [beq_iff_eq.mp hc]
  decide

theorem path_delimiter (h : delimiter.Path t stop m m') :
    t.Has isBracket m.pos ∧ m'.pos = m.pos + 1 := by
  obtain ⟨m₁, hone, rfl⟩ := h
  have hbracket : t.Has isBracket m.pos ∧ m₁.pos = m.pos + 1 :=
    path_one (codes_holds bracketChars) hone
  exact hbracket

/-- A shape of one character claims that character. -/
theorem one_of_claim {p : Char → Bool} (hbody : body ∈ shapes)
    (hone : ∀ m m', body.Path t stop m m' → t.Has p m.pos ∧ m'.pos = m.pos + 1)
    (h : shapeClaim? ⟨body, 1⟩ 1 t pos stop = some (first, last)) :
    first = pos ∧ last = pos + 1 ∧ t.Has p pos := by
  obtain ⟨m, hpath, hfirst, hlt, hlast⟩ := shapeClaim?_path (not_capturesAside hbody) h
  obtain ⟨hhas, hnext⟩ := hone _ m hpath
  simp only at hnext
  exact ⟨by omega, by omega, hhas⟩

theorem spelled_of_words (hbody : body ∈ wordShapes)
    (h : shapeClaim? ⟨body, 1⟩ 1 t pos stop = some (first, last)) :
    t.Spelled isLead pos last := by
  have htakes : ∀ e ∈ wordShapes, e.capturesAside = false ∧
      e.takes [.digit, .word] isLead = true := by
    decide
  obtain ⟨haside, hlead⟩ := htakes body hbody
  obtain ⟨m, hpath, -, -, hlast⟩ := shapeClaim?_path haside h
  have hspelled := (hpath.takes
    (fun k hk c hc => isLead_of_isWordChar (holds_word k hk c hc)) hlead).2
  exact fun y hy hlt => hspelled y hy (by omega)

/-- Every claim in code is of one of the kinds. -/
theorem kind_of_firstClaim? (hpos : pos < stop) (hstop : stop ≤ t.size)
    (hquiet : ¬ Delimiters.standard.Opens t pos)
    (h : firstClaim? .standard t pos stop (table words) = .ok (some s)) : Kind t stop pos s := by
  obtain ⟨-, -, -, rule, hrule, hcategory, hof⟩ :=
    firstClaim?_eq_some (fun _ => capturesBehind_of_mem_table) hpos hstop h
  rcases mem_table_shown hrule with ⟨set, rfl⟩ | ⟨name, ⟨category, body⟩, hshown, rfl⟩
  · have hset : set.category ∉ markCategories := by
      cases set
      all_goals decide
    exact .words (hcategory ▸ hset)
      ((wordClaim?_spelled hpos hstop hof).imp fun _ => isLead_of_isWordChar)
  have hclaim : shapeClaim? ⟨body, 1⟩ 1 t pos stop = some (s.start, s.stop) := Except.ok.inj hof
  have hshape : s.category = category := hcategory
  rcases kind_of_mem_shown hshown with ⟨rfl, hbody⟩ | ⟨rfl, hbody⟩ | heq | heq | heq |
    ⟨hother, hbody⟩
  · obtain ⟨hstart, hspelled⟩ := spelled_of_operator hbody hclaim
    exact .operator hshape hstart hspelled
  · have hone : ∀ m m', body.Path t stop m m' → t.Has isSeparator m.pos ∧ m'.pos = m.pos + 1 := by
      simp only [separatorShapes, List.mem_cons, List.not_mem_nil, or_false] at hbody
      rcases hbody with rfl | rfl
      · exact fun _ _ => path_separator
      · exact fun _ _ => path_colon
    have hmem : ∀ body ∈ separatorShapes, body ∈ shapes := by decide
    obtain ⟨hstart, hend, hchar⟩ := one_of_claim (hmem body hbody) hone hclaim
    exact .separator hshape hstart hend hchar
  · cases heq
    obtain ⟨hstart, hend, hchar⟩ := one_of_claim (by decide) (fun _ _ => path_delimiter) hclaim
    exact .bracket hshape hstart hend hchar
  · cases heq
    rw [shapeClaim?_numericLiteral (Nat.le_of_lt hpos)] at hclaim
    split at hclaim
    · next hform =>
      obtain ⟨hstart, hend⟩ := Prod.mk.inj (Option.some.inj hclaim)
      obtain ⟨hfront, hdigit⟩ := Bool.and_eq_true_iff.mp hform
      exact .numeral hshape hstart.symm hend.symm hfront hdigit
    · cases hclaim
  · cases heq
    -- where a quote stands a string opens
    obtain ⟨m, hpath, -⟩ := shapeClaim?_path (not_capturesAside (by decide)) hclaim
    obtain ⟨c, hc, hquote⟩ := path_charLiteral hpath
    rw [beq_iff_eq.mp hquote] at hc
    exact absurd (.inr ⟨'\x60', by decide, hc⟩) hquiet
  · exact .words (hshape ▸ hother) (spelled_of_words hbody hclaim)

namespace Kind

theorem of_operator (h : Kind t stop pos s) (hcategory : s.category = .operator) :
    s.start = pos ∧ t.Spelled isOperatorPart pos s.stop := by
  cases h with
  | operator _ start spelled => exact ⟨start, spelled⟩
  | separator category => cases category.symm.trans hcategory
  | bracket category => cases category.symm.trans hcategory
  | numeral category => cases category.symm.trans hcategory
  | words category => exact absurd (hcategory ▸ by decide) category

theorem of_delimiter (h : Kind t stop pos s) (hcategory : s.category = .delimiter) :
    s.start = pos ∧ s.stop = pos + 1 ∧ t.Has isBracket pos := by
  cases h with
  | operator category => cases category.symm.trans hcategory
  | separator category => cases category.symm.trans hcategory
  | bracket _ start ends char => exact ⟨start, ends, char⟩
  | numeral category => cases category.symm.trans hcategory
  | words category => exact absurd (hcategory ▸ by decide) category

theorem of_numeral (h : Kind t stop pos s) (hcategory : s.category = .numericLiteral) :
    s.start = pos ∧ s.stop = numeralEnd t stop pos ∧ mayBegin t pos = true ∧
      t.sees stop Unicode.isDecimal pos = true := by
  cases h with
  | operator category => cases category.symm.trans hcategory
  | separator category => cases category.symm.trans hcategory
  | bracket category => cases category.symm.trans hcategory
  | numeral _ start ends front digit => exact ⟨start, ends, front, digit⟩
  | words category => exact absurd (hcategory ▸ by decide) category

end Kind

theorem isLead_of_isNumeralChar {c : Char} (h : isNumeralChar c = true) : isLead c = true := by
  rcases (Bool.or_eq_true _ _).mp h with h | h
  · exact isLead_of_isWordChar h
  · exact isLead_of_isDot h

/-- What stands at an offset of a claim tells its kind. -/
theorem Kind.at (h : Kind t stop pos s) (hx : pos ≤ x) (hlt : x < s.stop) :
    (s.category = .operator ∧ s.start = pos ∧ t.Has isOperatorPart x) ∨
    (s = ⟨x, x + 1, .separator⟩ ∧ t.Has isSeparator x) ∨
    (s = ⟨x, x + 1, .delimiter⟩ ∧ t.Has isBracket x) ∨
    (s.category = .numericLiteral ∧ s.start = pos ∧ ExponentSign t stop pos x) ∨
    t.Has isLead x := by
  have hone : ∀ {y}, s.start = y → s.stop = y + 1 → s = ⟨y, y + 1, s.category⟩ := by
    intro y hstart hstop
    rw [← hstop, ← hstart]
  cases h with
  | operator hcategory hstart spelled => exact .inl ⟨hcategory, hstart, spelled x hx hlt⟩
  | separator hcategory hstart ends char =>
    obtain rfl : x = pos := by omega
    exact .inr (.inl ⟨hcategory ▸ hone hstart ends, char⟩)
  | bracket hcategory hstart ends char =>
    obtain rfl : x = pos := by omega
    exact .inr (.inr (.inl ⟨hcategory ▸ hone hstart ends, char⟩))
  | numeral hcategory hstart ends front digit =>
    rcases has_of_lt_numeralEnd digit hx (ends ▸ hlt) with hchar | hsign
    · exact .inr (.inr (.inr (.inr (hchar.imp fun _ => isLead_of_isNumeralChar))))
    · exact .inr (.inr (.inr (.inl ⟨hcategory, hstart, hsign⟩)))
  | words hcategory spelled => exact .inr (.inr (.inr (.inr (spelled x hx hlt))))

/-! ## Where something is claimed -/

/-- A shape that is captured as a whole claims what the matcher takes in, if the rest is never what
decides. -/
theorem shapeClaim?_of_run {y : Nat} (hlt : pos < y)
    (hrun : ∀ k, Accepts k → e.run t stop ⟨pos, []⟩ k = k ⟨y, []⟩) :
    shapeClaim? ⟨.group 1 e, 1⟩ 1 t pos stop = some (pos, y) := by
  have hk : Accepts fun s' => some { s' with captures := (1, pos, s'.pos) :: s'.captures } :=
    fun _ => ⟨_, rfl⟩
  unfold shapeClaim? matchAt?
  rw [run_group, hrun _ hk]
  exact if_pos hlt

theorem shapeClaim?_delimiter (h : t.sees stop isBracket pos = true) :
    shapeClaim? ⟨delimiter, 1⟩ 1 t pos stop = some (pos, pos + 1) := by
  have hitems : (fun c => ([0x28, 0x29, 0x5B, 0x5D, 0x7B, 0x7D].map CharItem.code).any
      (·.holds c)) = isBracket := codes_holds bracketChars
  refine shapeClaim?_of_run (Nat.lt_succ_self pos) fun k _ => ?_
  exact (run_oneOf hitems).trans (if_pos h)

theorem shapeClaim?_separator (h : t.sees stop [',', ';'].contains pos = true) :
    shapeClaim? ⟨separator, 1⟩ 1 t pos stop = some (pos, pos + 1) := by
  have hitems : (fun c => [CharItem.code 0x2C, .code 0x3B].any (·.holds c)) =
      [',', ';'].contains := codes_holds [',', ';']
  refine shapeClaim?_of_run (Nat.lt_succ_self pos) fun k hk => ?_
  rw [run_alt, one, run_oneOf hitems, if_pos h]
  exact hk.orElse

theorem shapeClaim?_logicalOperator (h : t.sees stop logicalChars.contains pos = true) :
    shapeClaim? ⟨logicalOperator, 1⟩ 1 t pos stop =
      some (pos, t.runEnd logicalChars.contains stop (pos + 1)) := by
  refine shapeClaim?_of_run Text.le_runEnd fun k hk => ?_
  exact (run_many_one_accepts (codes_holds logicalChars) hk).trans (if_pos h)

theorem shapeClaim?_arithmeticOperator (h : t.sees stop arithmeticChars.contains pos = true) :
    shapeClaim? ⟨arithmeticOperator, 1⟩ 1 t pos stop =
      some (pos, t.runEnd arithmeticChars.contains stop (pos + 1)) := by
  refine shapeClaim?_of_run Text.le_runEnd fun k hk => ?_
  have hbang : ¬ t.sees stop (· == '!') pos = true := fun hsees =>
    (Text.has_of_sees h).not_char (by decide) (Text.has_of_sees hsees)
  have hitem : (fun c => [CharItem.code 0x21].any (·.holds c)) = (· == '!') := code_holds '!'
  rw [run_alt, run_seq, Expr.char, run_oneOf hitem, if_neg hbang]
  exact (run_many_one_accepts (codes_holds arithmeticChars) hk).trans (if_pos h)

/-- At the characters of operators and brackets, a comma and a semicolon something is claimed. -/
theorem exists_firstClaim?_of_mark (words : KeywordSet → List (List Char)) (hpos : pos < stop)
    (hstop : stop ≤ t.size) (h : t.Has isPunctuation pos) :
    ∃ s, firstClaim? .standard t pos stop (table words) = .ok (some s) := by
  have hclaim : ∀ {name category body extent}, shapeRule name category body ∈ table words →
      shapeClaim? ⟨body, 1⟩ 1 t pos stop = some extent →
      ∃ s, firstClaim? .standard t pos stop (table words) = .ok (some s) := fun hrule hshape =>
    exists_firstClaim? (fun _ => capturesBehind_of_mem_table) hpos hstop hrule
      (shapeRule_claim? hshape)
  obtain ⟨c, hc, hchar⟩ := h
  have hsees : ∀ {l : List Char}, c ∈ l → t.sees stop l.contains pos = true := fun hmem =>
    Text.sees_of_has ⟨c, hc, List.contains_iff_mem.mpr hmem⟩ hpos
  simp only [isPunctuation, List.contains_iff_mem, List.mem_append] at hchar
  rcases hchar with ((harithmetic | hlogical) | hbracket) | hseparator
  · exact hclaim (List.mem_of_getElem? (i := 7) rfl)
      (shapeClaim?_arithmeticOperator (hsees harithmetic))
  · exact hclaim (List.mem_of_getElem? (i := 8) rfl)
      (shapeClaim?_logicalOperator (hsees hlogical))
  · exact hclaim (List.mem_of_getElem? (i := 10) rfl) (shapeClaim?_delimiter (hsees hbracket))
  · exact hclaim (List.mem_of_getElem? (i := 6) rfl) (shapeClaim?_separator (hsees hseparator))

end Standard

end VSyntax
