import VSyntax.Proofs.Standard.Names

/-!
# Claims at words

What the standard rules claim around a word of code. At the first character of a word, unless it is
a digit, only the keyword sets and the shapes of names claim anything, and each of them the whole
word or nothing; the first that applies decides the category (`firstClaim?_word`). At a later
character nothing is claimed (`firstClaim?_inside`). In front of a word a sigil claims it as an
attribute (`firstClaim?_sigil`), and a dot as the member of a tuple (`firstClaim?_member`), unless
the dot is claimed together with others (`firstClaim?_dots`).

Each of these is asked of the whole table. The first section says which rules can answer at all, by
the character that a claim begins with, and the others drop out of the table (`firstClaim?_among`).
-/
namespace VSyntax

namespace Standard

open Regex

/-! ## What a word is -/

/-- Whether a word names a member of a tuple: an underscore and digits. -/
def isMemberName : List Char → Bool
  | [] => false
  | c :: ds => c == '_' && !ds.isEmpty && ds.all Unicode.isDecimal

/-- The category of the word between two offsets, if it is neither an attribute nor a member of a
tuple: the first that applies. -/
def wordCategory? (v : Vocabulary) (t : Text) (i j : Nat) : Option Category :=
  let w := (t.slice i j).toList
  if v.gives .builtin w then some .builtinType
  else if v.gives .careful w then some .careful
  else if v.gives .declaration w then some .declaration
  else if v.gives .preprocessor w then some .preprocessor
  else if t.followsFn i && w.head?.any isNameHead then some .functionName
  else if w.head?.any Char.isUpper then some .typeName
  else if v.gives .keywords w || v.gives .constants w || v.gives .operatorFunctions w then
    some .keyword
  else if w.head?.any isNameHead && t[j]? == some '(' then some .callReference
  else if t.followsOpening i && w.head?.any isLowerHead then some .parameter
  else if w.head?.any isLowerHead then some .variableReference
  else none

variable {v : Vocabulary} {t : Text} {i j stop x first last : Nat} {body : Expr} {s s' : State}
  {words : KeywordSet → List (List Char)} {set : KeywordSet} {name : String} {category : Category}

/-! ## Rules that may claim -/

/-- Whether a rule is of one of the shapes, or of a keyword set if those count. -/
def isAmong (sets : Bool) (bodies : List Expr) : Rule → Bool
  | .words _ _ _ => sets
  | .shape _ _ regex _ => decide (regex.body ∈ bodies)

theorem shapeClaim?_eq_none (haside : body.capturesAside = false)
    (h : ∀ s, body.Path t stop ⟨x, []⟩ s → x < s.pos → False) :
    shapeClaim? ⟨body, 1⟩ 1 t x stop = none := by
  cases hclaim : shapeClaim? ⟨body, 1⟩ 1 t x stop with
  | none => rfl
  | some extent =>
    obtain ⟨s, hpath, hfirst, hlt, hlast⟩ := shapeClaim?_path haside hclaim
    exact (h s hpath (by omega)).elim

/-- The rule of a shape claims what the shape does. -/
theorem shapeRule_claim? {c : Option (Nat × Nat)} (h : shapeClaim? ⟨body, 1⟩ 1 t x stop = c) :
    (shapeRule name category body).claim? .standard t x stop = .ok c :=
  congrArg Except.ok h

theorem not_has_of_isSigil {p : Char → Bool} (hsigil : t.Has isSigil x)
    (hp : ['@', '$'].any p = false) : ¬ t.Has p x :=
  fun h => hsigil.not_both h fun _ => not_of_contains hp

/-- No numeral begins after a word character. -/
theorem not_follows_of_path_numericLiteral (h : numericLiteral.Path t stop s s') :
    ¬ t.follows isWordChar s.pos = true := by
  obtain ⟨m, hfront, -⟩ := h
  intro hfollows
  rcases hfront with ⟨hstart, -⟩ | ⟨hpos, m', hone, -⟩
  · have hzero : s.pos = 0 := beq_iff_eq.mp hstart
    rw [hzero] at hfollows
    cases hfollows
  · have hkinds : ∀ k ∈ [CharKind.blank], ∀ c, k.holds c = true → (!isWordChar c) = true := by
      intro k hk c hc
      obtain rfl := List.mem_singleton.mp hk
      rw [Bool.not_eq_true', Bool.eq_false_iff]
      intro hword
      have hblank : Unicode.isBlank c = true := hc
      rw [isBlank_of_isWordChar hword] at hblank
      cases hblank
    have hnext : m'.pos = s.pos - 1 + 1 := congrArg State.pos hone.2
    obtain ⟨-, hbefore⟩ := hone.takes (p := fun c => !isWordChar c) hkinds (by decide)
    have hword := (Text.follows_iff hpos).mp hfollows
    apply (hbefore (s.pos - 1) (Nat.le_refl _) (by omega)).not_both hword
    intro c hc
    exact (Bool.not_eq_true' _).mp hc

/-- A path through a shape that takes in a word character first is a name, or a numeral at a digit. -/
theorem numeral_of_path_word (hbody : body ∈ shapes) (hname : body ∉ nameShapes)
    (hword : t.Has isWordChar s.pos) (hpath : body.Path t stop s s') (hlt : s.pos < s'.pos) :
    body = numericLiteral ∧ t.Has Unicode.isDecimal s.pos := by
  rcases head_of_path hbody hpath hlt with ⟨-, h⟩ | ⟨-, h | h⟩ | ⟨-, h⟩ | h | ⟨-, h⟩ | ⟨-, h⟩ |
    ⟨h, -⟩
  · exact (h.not_both hword fun _ => isWordChar_of_isSigil).elim
  · exact (h.not_both hword fun _ => isWordChar_of_isMark).elim
  · exact (h.not_both hword fun _ => isWordChar_of_isDot).elim
  · exact (h.not_both hword fun _ => isWordChar_of_isMark).elim
  · exact h
  · exact (hword.not_char (by decide) h).elim
  · exact (h.not_both hword fun _ => isWordChar_of_isDot).elim
  · exact absurd h hname

/-- At a word character only the shapes of names claim anything, unless a numeral begins there. -/
theorem shapeClaim?_of_word (hbody : body ∈ shapes) (hname : body ∉ nameShapes)
    (hword : t.Has isWordChar x)
    (hnumeral : ¬ t.Has Unicode.isDecimal x ∨ t.follows isWordChar x = true) :
    shapeClaim? ⟨body, 1⟩ 1 t x stop = none := by
  apply shapeClaim?_eq_none (not_capturesAside hbody)
  intro s hpath hlt
  obtain ⟨rfl, hdigit⟩ := numeral_of_path_word hbody hname hword hpath hlt
  rcases hnumeral with hnot | hfollows
  · exact hnot hdigit
  · exact not_follows_of_path_numericLiteral hpath hfollows

/-- At a dot only operators, separators and members of tuples are claimed. -/
theorem shapeClaim?_of_dot (hbody : body ∈ shapes) (hdotted : body ∉ tupleReference :: dottedShapes)
    (hdot : t.Has isDot x) : shapeClaim? ⟨body, 1⟩ 1 t x stop = none := by
  apply shapeClaim?_eq_none (not_capturesAside hbody)
  intro s hpath hlt
  rcases head_of_path hbody hpath hlt with ⟨-, h⟩ | ⟨h, -⟩ | ⟨-, h⟩ | ⟨-, h⟩ | ⟨-, h⟩ |
    ⟨rfl, -⟩ | ⟨-, h⟩
  · exact h.not_char (by decide) hdot
  · exact hdotted (List.mem_cons_of_mem _ h)
  · exact h.not_char (by decide) hdot
  · exact h.not_char (by decide) hdot
  · exact h.not_char (by decide) hdot
  · exact hdotted List.mem_cons_self
  · exact h.not_char (by decide) hdot

/-- At a sigil only attributes are claimed. -/
theorem shapeClaim?_of_sigil (hbody : body ∈ shapes) (hattribute : body ≠ attributeName)
    (hsigil : t.Has isSigil x) : shapeClaim? ⟨body, 1⟩ 1 t x stop = none := by
  apply shapeClaim?_eq_none (not_capturesAside hbody)
  intro s hpath hlt
  rcases head_of_path hbody hpath hlt with ⟨h, -⟩ | ⟨-, h | h⟩ | ⟨-, h⟩ | ⟨-, h⟩ | ⟨-, h⟩ |
    ⟨-, h⟩ | ⟨-, h⟩
  · exact hattribute h
  all_goals exact not_has_of_isSigil hsigil (by decide) h

/-- The rule of a keyword set claims nothing but whole words. -/
theorem setRule_claim?_eq_none (hx : x < stop) (hstop : stop ≤ t.size)
    (h : ¬ t.Has isWordChar x ∨ t.follows isWordChar x = true) :
    (setRule words set).claim? .standard t x stop = .ok none := by
  rw [setRule, Rule.claim?, wordClaim?_eq hx hstop, standard_isWord, if_neg]
  rintro ⟨hsees, hfollows, -⟩
  rcases h with h | h
  · exact h (Text.has_of_sees hsees)
  · exact hfollows h

/-- The shapes that claim nothing drop out of the table, and where no word character stands the
keyword sets do. -/
theorem firstClaim?_among (words : KeywordSet → List (List Char)) (sets : Bool)
    (bodies : List Expr) (hx : x < stop) (hstop : stop ≤ t.size)
    (hsets : sets = false → ¬ t.Has isWordChar x)
    (h : ∀ body ∈ shapes, body ∉ bodies → shapeClaim? ⟨body, 1⟩ 1 t x stop = none) :
    firstClaim? .standard t x stop (table words) =
      firstClaim? .standard t x stop ((table words).filter (isAmong sets bodies)) := by
  apply firstClaim?_filter _
  intro rule hrule hdrop
  rcases mem_table hrule with ⟨set, rfl⟩ | ⟨name, category, body, hbody, rfl⟩
  · exact setRule_claim?_eq_none hx hstop (.inl (hsets hdrop))
  · exact shapeRule_claim? (h body hbody (of_decide_eq_false hdrop))

/-! ## Claims at the start of a word -/

section

variable (h : WordRun t i j) (hj : j ≤ stop)

include h hj

theorem runEnd_succ : t.runEnd isWordChar stop (i + 1) = j :=
  h.runEnd_eq hj (Nat.le_succ _) h.lt

/-- What the first character of a word is, can be seen at the start of its run. -/
theorem head?_any_slice {p : Char → Bool} :
    (t.slice i j).toList.head?.any p = t.sees stop p i := by
  have hlt := h.lt
  rw [Text.head?_slice hlt h.le_size, Text.sees, decide_eq_true (Nat.lt_of_lt_of_le hlt hj),
    Bool.true_and]

/-- The rule of a keyword set claims the run if its word is in the set. -/
theorem setRule_claim? (hstop : stop ≤ t.size)
    (hwords : ∀ s w, w ∈ words s ↔ v.gives s w = true) (set : KeywordSet) :
    (setRule words set).claim? .standard t i stop =
      .ok (if v.gives set (t.slice i j).toList then some (i, j) else none) := by
  have hlt := h.lt
  have hsees : t.sees stop isWordChar i = true :=
    Text.sees_of_has (h.word i (Nat.le_refl _) hlt) (by omega)
  rw [setRule, Rule.claim?, wordClaim?_eq (by omega) hstop, standard_isWord,
    h.runEnd_eq hj (Nat.le_refl _) (by omega)]
  refine congrArg Except.ok (if_congr ?_ rfl rfl)
  rw [hwords]
  exact ⟨fun hclaim => hclaim.2.2, fun hgives => ⟨hsees, h.starts, hgives⟩⟩

theorem shapeClaim?_functionName : shapeClaim? ⟨functionName, 1⟩ 1 t i stop =
    if t.followsFn i && (t.slice i j).toList.head?.any isNameHead then some (i, j) else none := by
  have hi := Nat.le_trans (Nat.le_of_lt h.lt) hj
  rw [head?_any_slice h hj, functionName,
    shapeClaim?_name letterItems_holds fun _ => run_afterFn hi, runEnd_succ h hj]

theorem shapeClaim?_parameter : shapeClaim? ⟨parameter, 1⟩ 1 t i stop =
    if t.followsOpening i && (t.slice i j).toList.head?.any isLowerHead then some (i, j)
      else none := by
  have hi := Nat.le_trans (Nat.le_of_lt h.lt) hj
  rw [head?_any_slice h hj, parameter,
    shapeClaim?_name lowerItems_holds fun _ => run_afterOpening hi, runEnd_succ h hj]

/-- A fresh name is claimed wherever its head is. -/
theorem shapeClaim?_fresh {items : List CharItem} {p : Char → Bool}
    (hp : (fun c => items.any (·.holds c)) = p) :
    shapeClaim? ⟨.seq fresh (Standard.name items), 1⟩ 1 t i stop =
      if (t.slice i j).toList.head?.any p then some (i, j) else none := by
  have hi := Nat.le_trans (Nat.le_of_lt h.lt) hj
  have hfresh : ∀ k : Rest, fresh.run t stop ⟨i, []⟩ k = if true then k ⟨i, []⟩ else none :=
    fun k => (run_fresh hi).trans (if_neg h.starts)
  rw [head?_any_slice h hj, shapeClaim?_name hp hfresh, runEnd_succ h hj, Bool.true_and]

theorem shapeClaim?_call (hparen : t[j]? = some '(' → j < stop) :
    shapeClaim? ⟨callReference, 1⟩ 1 t i stop =
      if (t.slice i j).toList.head?.any isNameHead && t[j]? == some '(' then some (i, j)
        else none := by
  have hi := Nat.le_trans (Nat.le_of_lt h.lt) hj
  have hseen : t.sees stop (· == '(') j = (t[j]? == some '(') := by
    cases hat : t[j]? == some '(' with
    | true => rw [Text.sees_eq_getElem? (hparen (beq_iff_eq.mp hat)), hat]
    | false =>
      rw [Bool.eq_false_iff]
      intro hsees
      rw [Text.sees_eq_getElem? (Text.lt_of_sees hsees), hat] at hsees
      cases hsees
  have hfollows : t.follows isWordChar i = false := Bool.eq_false_iff.mpr h.starts
  rw [head?_any_slice h hj, shapeClaim?_callReference hi, runEnd_succ h hj, hseen, hfollows,
    Bool.not_false, Bool.true_and]

/-- Where a word begins, other than with a digit, the first rule that applies claims it as a
whole. -/
theorem firstClaim?_word (hstop : stop ≤ t.size)
    (hparen : t[j]? = some '(' → j < stop) (hwords : ∀ s w, w ∈ words s ↔ v.gives s w = true)
    (hdigit : ¬ t.Has Unicode.isDecimal i) :
    firstClaim? .standard t i stop (table words) =
      .ok ((wordCategory? v t i j).map (Span.mk i j)) := by
  have hset := setRule_claim? h hj hstop hwords
  have hlt := h.lt
  have hword := h.word i (Nat.le_refl _) hlt
  have hamong := firstClaim?_among words true nameShapes (Nat.lt_of_lt_of_le hlt hj)
    hstop (fun hfalse => nomatch hfalse) fun _ hbody hne =>
      shapeClaim?_of_word hbody hne hword (.inl hdigit)
  have hkeyword : ∀ {a b c : Bool} {x y : Option Category},
      (if a || b || c then x else y) = if a then x else if b then x else if c then x else y := by
    intro a b c x y
    cases a <;> cases b <;> cases c <;> rfl
  simp only [hamong, wordCategory?, hkeyword]
  apply firstClaim?_cons_of_ite (hset .builtin)
  apply firstClaim?_cons_of_ite (hset .careful)
  apply firstClaim?_cons_of_ite (hset .declaration)
  apply firstClaim?_cons_of_ite (hset .preprocessor)
  apply firstClaim?_cons_of_ite (shapeRule_claim? (shapeClaim?_functionName h hj))
  apply firstClaim?_cons_of_ite (shapeRule_claim? (shapeClaim?_fresh h hj upperItems_holds))
  apply firstClaim?_cons_of_ite (hset .keywords)
  apply firstClaim?_cons_of_ite (hset .constants)
  apply firstClaim?_cons_of_ite (hset .operatorFunctions)
  apply firstClaim?_cons_of_ite (shapeRule_claim? (shapeClaim?_call h hj hparen))
  apply firstClaim?_cons_of_ite (shapeRule_claim? (shapeClaim?_parameter h hj))
  apply firstClaim?_cons_of_ite (shapeRule_claim? (shapeClaim?_fresh h hj lowerItems_holds))
  rfl

end

/-! ## Claims inside a word -/

/-- A class without word characters does not stand before an offset where a word character does. -/
theorem follows_eq_false {p : Char → Bool} (h : t.follows isWordChar x = true)
    (hp : ∀ c, isWordChar c = true → p c = false) : t.follows p x = false := by
  rw [Bool.eq_false_iff]
  intro hfollows
  have hx : 0 < x := Nat.pos_of_ne_zero fun hzero => by
    rw [hzero] at h
    cases h
  have hword := (Text.follows_iff hx).mp h
  exact hword.not_both ((Text.follows_iff hx).mp hfollows) hp

/-- The shape of a name claims the head and all word characters after it, or nothing; after a word
character it claims nothing. -/
theorem shapeClaim?_nameShape (hbody : body ∈ nameShapes) (hx : x ≤ stop) :
    ∃ b : Bool, shapeClaim? ⟨body, 1⟩ 1 t x stop =
        (if b then some (x, t.runEnd isWordChar stop (x + 1)) else none) ∧
      (t.follows isWordChar x = true → b = false) := by
  simp only [nameShapes, List.mem_cons, List.not_mem_nil, or_false] at hbody
  rcases hbody with rfl | rfl | rfl | rfl | rfl
  · refine ⟨_, shapeClaim?_name letterItems_holds fun _ => run_afterFn hx, fun hfollows => ?_⟩
    have hblank := follows_eq_false hfollows fun _ => isBlank_of_isWordChar
    simp only [Text.followsFn, hblank, Bool.and_false, Bool.false_and]
  · refine ⟨_, shapeClaim?_name upperItems_holds fun _ => run_fresh_of_not hx, fun hfollows => ?_⟩
    rw [hfollows, Bool.not_true, Bool.false_and]
  · refine ⟨_, shapeClaim?_callReference hx, fun hfollows => ?_⟩
    rw [hfollows, Bool.not_true, Bool.false_and, Bool.false_and]
  · refine ⟨_, shapeClaim?_name lowerItems_holds fun _ => run_afterOpening hx, fun hfollows => ?_⟩
    have hblank := follows_eq_false hfollows fun _ => isBlank_of_isWordChar
    have hopening : t.follows ['(', ','].contains x = false := by
      refine follows_eq_false hfollows fun c hc => Bool.eq_false_iff.mpr fun hmem => ?_
      exact absurd hc (Bool.eq_false_iff.mp (not_of_contains (by decide) hmem))
    simp only [Text.followsOpening, hopening, hblank, Bool.false_and, Bool.or_false]
  · refine ⟨_, shapeClaim?_name lowerItems_holds fun _ => run_fresh_of_not hx, fun hfollows => ?_⟩
    rw [hfollows, Bool.not_true, Bool.false_and]

/-- After a word character no rule claims anything at another. -/
theorem firstClaim?_inside (words : KeywordSet → List (List Char)) (hx : x < stop)
    (hstop : stop ≤ t.size) (hword : t.Has isWordChar x)
    (hfollows : t.follows isWordChar x = true) :
    firstClaim? .standard t x stop (table words) = .ok none := by
  apply firstClaim?_eq_none
  intro rule hrule
  rcases mem_table hrule with ⟨set, rfl⟩ | ⟨name, category, body, hbody, rfl⟩
  · exact setRule_claim?_eq_none hx hstop (.inr hfollows)
  refine shapeRule_claim? ?_
  by_cases hname : body ∈ nameShapes
  · obtain ⟨b, hclaim, hnone⟩ := shapeClaim?_nameShape (t := t) hname (Nat.le_of_lt hx)
    rw [hclaim, hnone hfollows]
    rfl
  · exact shapeClaim?_of_word hbody hname hword (.inr hfollows)

/-! ## Claims in front of a word -/

/-- A sigil and a name are claimed as an attribute. -/
theorem firstClaim?_sigil (words : KeywordSet → List (List Char)) (hx : x + 1 < stop)
    (hstop : stop ≤ t.size) (hsigil : t.Has isSigil x) (hhead : t.Has isNameHead (x + 1)) :
    firstClaim? .standard t x stop (table words) =
      .ok (some ⟨x, t.runEnd isWordChar stop (x + 2), .attribute⟩) := by
  have hclaim : shapeClaim? ⟨attributeName, 1⟩ 1 t x stop =
      some (x, t.runEnd isWordChar stop (x + 2)) := by
    rw [shapeClaim?_attributeName, Text.sees_of_has hsigil (by omega), Text.sees_of_has hhead hx]
    rfl
  rw [firstClaim?_among words false [attributeName] (by omega) hstop
    (fun _ => not_has_of_isSigil hsigil (by decide)) fun body hbody hne =>
      shapeClaim?_of_sigil hbody (List.ne_of_not_mem_cons hne) hsigil]
  exact firstClaim?_cons_of_some (shapeRule_claim? hclaim)

/-- At a dot a set without the dot takes in nothing. -/
theorem run_oneOf_of_dot {items : List CharItem} {k : Rest} (hdot : t.Has isDot s.pos)
    (hitems : items.any (·.holds '.') = false) :
    (Expr.oneOf false items).run t stop s k = none := by
  refine (run_oneOf rfl).trans (if_neg fun hsees => ?_)
  exact (Text.has_of_sees hsees).not_char hitems hdot

/-- Of dots the operator claims three or two. -/
theorem shapeClaim?_multiCharOperator (stop : Nat) (hdot : t.Has isDot x) :
    shapeClaim? ⟨multiCharOperator, 1⟩ 1 t x stop =
      if t.sees stop isDot x && t.sees stop isDot (x + 1) then
        some (x, if t.sees stop isDot (x + 2) then x + 3 else x + 2) else none := by
  have hother : ∀ {items : List CharItem} {k : Rest}, items.any (·.holds '.') = false →
      (Expr.oneOf false items).run t stop ⟨x, []⟩ k = none :=
    fun hitems => run_oneOf_of_dot hdot hitems
  have htwo : x < x + 2 := by omega
  have hthree : x < x + 3 := by omega
  unfold shapeClaim? matchAt? multiCharOperator
  rw [run_group]
  simp only [Expr.ofAlt, Expr.ofSeq, run_alt, run_seq, run_dot]
  simp only [Expr.char, one]
  rw [hother (by decide), hother (by decide), hother (by decide), hother (by decide),
    hother (by decide), hother (by decide), hother (by decide), hother (by decide),
    hother (by decide), hother (by decide)]
  cases t.sees stop isDot x with
  | false => rfl
  | true =>
    cases t.sees stop isDot (x + 1) with
    | false => rfl
    | true =>
      cases t.sees stop isDot (x + 2) with
      | false => exact if_pos htwo
      | true => exact if_pos hthree

/-- A dot before an underscore and a digit is no separator. -/
theorem shapeClaim?_separator_of_member (hdot : t.Has isDot x)
    (hscore : t.sees stop (· == '_') (x + 1) = true)
    (hdigit : t.sees stop Unicode.isDecimal (x + 2) = true) :
    shapeClaim? ⟨separator, 1⟩ 1 t x stop = none := by
  have hrun : ∀ {k : Rest}, (Expr.char 0x5F).run t stop ⟨x + 1, []⟩ k = k ⟨x + 2, []⟩ :=
    (run_oneOf (code_holds '_')).trans (if_pos hscore)
  have hone : ∀ {k : Rest}, (one digitItems).run t stop ⟨x + 2, []⟩ k = k ⟨x + 3, []⟩ :=
    (run_oneOf digitItems_holds).trans (if_pos hdigit)
  have hahead : ∀ {k : Rest}, (Expr.ahead true (.seq (.char 0x5F) (one digitItems))).run t stop
      ⟨x + 1, []⟩ k = none := by
    intro k
    rw [Expr.run, run_seq, hrun, hone]
    rfl
  unfold shapeClaim? matchAt? separator
  rw [run_group, run_alt, one, run_oneOf_of_dot hdot (by decide),
    run_seq, run_dot]
  simp only [hahead, ite_self]
  rfl

/-- At a dot three rules may claim something. -/
theorem firstClaim?_of_dot (words : KeywordSet → List (List Char)) (hx : x < stop)
    (hstop : stop ≤ t.size) (hdot : t.Has isDot x) :
    firstClaim? .standard t x stop (table words) = firstClaim? .standard t x stop [
      shapeRule "multi_char_operator" .operator multiCharOperator,
      shapeRule "separator" .separator separator,
      shapeRule "tuple_reference" .tupleReference tupleReference] :=
  firstClaim?_among words false (tupleReference :: dottedShapes) hx hstop
    (fun _ hword => hdot.not_both hword fun _ => isWordChar_of_isDot)
    fun _ hbody hne => shapeClaim?_of_dot hbody hne hdot

/-- Two or three dots are claimed together. -/
theorem firstClaim?_dots (words : KeywordSet → List (List Char)) (hx : x + 1 < stop)
    (hstop : stop ≤ t.size) (hdot : t.Has isDot x) (hnext : t.Has isDot (x + 1)) :
    firstClaim? .standard t x stop (table words) =
      .ok (some ⟨x, if t.sees stop isDot (x + 2) then x + 3 else x + 2, .operator⟩) := by
  have hclaim := shapeClaim?_multiCharOperator stop hdot
  rw [Text.sees_of_has hdot (by omega), Text.sees_of_has hnext hx] at hclaim
  rw [firstClaim?_of_dot words (by omega) hstop hdot]
  exact firstClaim?_cons_of_some (shapeRule_claim? hclaim)

/-! ## Members of tuples -/

section

variable (h : WordRun t (x + 1) j) (hj : j ≤ stop) (hdot : t.Has isDot x)

include h in
/-- The word after a dot names a member if it is written as one. -/
theorem isMemberName_iff : isMemberName (t.slice (x + 1) j).toList = true ↔
    t.Has (· == '_') (x + 1) ∧ x + 2 < j ∧ t.Spelled Unicode.isDecimal (x + 2) j := by
  have hlt := h.lt
  have hsize := h.le_size
  have hat : x + 1 < t.size := by omega
  have hhead : t.Has (· == '_') (x + 1) ↔ (t[x + 1] == '_') = true := by
    constructor
    · rintro ⟨c, hc, heq⟩
      rw [Array.getElem?_eq_getElem hat, Option.some.injEq] at hc
      exact hc ▸ heq
    · exact fun heq => ⟨_, Array.getElem?_eq_getElem hat, heq⟩
  have hmore : (!(t.slice (x + 2) j).toList.isEmpty) = true ↔ x + 2 < j := by
    rcases Nat.lt_or_ge (x + 2) j with hmore | hnone
    · rw [Text.slice_cons hmore hsize]
      exact ⟨fun _ => hmore, fun _ => rfl⟩
    · rw [Text.slice_eq_nil hnone]
      exact ⟨fun hfalse => absurd hfalse (by decide), fun hlt => by omega⟩
  rw [Text.slice_cons hlt hsize, isMemberName, Bool.and_eq_true, Bool.and_eq_true, hhead, hmore,
    Text.all_slice hsize, and_assoc]

include h hj hdot in
/-- After a dot the member of a tuple is claimed as a whole. -/
theorem shapeClaim?_member : shapeClaim? ⟨tupleReference, 1⟩ 1 t x stop =
    if isMemberName (t.slice (x + 1) j).toList then some (x + 1, j) else none := by
  have hlt := h.lt
  rw [shapeClaim?_tupleReference]
  cases hmember : isMemberName (t.slice (x + 1) j).toList with
  | true =>
    obtain ⟨hscore, hmore, hdigits⟩ := (isMemberName_iff h).mp hmember
    have hnoword : t.sees stop isWordChar j = false :=
      Bool.eq_false_iff.mpr fun hsees => h.ends (Text.has_of_sees hsees)
    have hend : t.runEnd Unicode.isDecimal stop (x + 3) = j := by
      refine Text.runEnd_eq (by omega) (fun y hy hyj => ?_) fun hsees => ?_
      · exact Text.sees_of_has (hdigits y (by omega) hyj) (by omega)
      · exact h.ends ((Text.has_of_sees hsees).imp fun _ => isWordChar_of_isDecimal)
    rw [Text.sees_of_has hdot (by omega), Text.sees_of_has hscore (by omega),
      Text.sees_of_has (hdigits _ (Nat.le_refl _) hmore) (by omega), hend, hnoword]
    rfl
  | false =>
    apply if_neg
    intro hclaim
    simp only [Bool.and_eq_true, Bool.not_eq_true'] at hclaim
    obtain ⟨⟨⟨-, hscore⟩, hdigit⟩, hend⟩ := hclaim
    have hle : x + 3 ≤ t.runEnd Unicode.isDecimal stop (x + 3) := Text.le_runEnd
    have hdigits : t.Spelled Unicode.isDecimal (x + 2)
        (t.runEnd Unicode.isDecimal stop (x + 3)) :=
      (Text.Spelled.one (Text.has_of_sees hdigit)).append fun y hy hlast =>
        Text.has_of_sees (Text.sees_of_lt_runEnd hy hlast)
    have hunderscore : t.Has isWordChar (x + 1) := h.word (x + 1) (Nat.le_refl _) hlt
    have hspelled := (Text.Spelled.one hunderscore).append
      (hdigits.imp fun _ => isWordChar_of_isDecimal)
    -- the digits end where the word does
    have hsame : t.runEnd Unicode.isDecimal stop (x + 3) = j := by
      rw [← h.runEnd_eq hj (Nat.le_refl _) (Nat.le_of_lt hlt)]
      refine (Text.runEnd_eq (by omega) (fun y hy hlast => ?_) ?_).symm
      · have hstop : t.runEnd Unicode.isDecimal stop (x + 3) ≤ stop :=
          Text.runEnd_le (Text.lt_of_sees hdigit)
        exact Text.sees_of_has (hspelled y hy hlast) (by omega)
      · rw [hend]
        exact Bool.false_ne_true
    rw [hsame] at hdigits hle
    have htrue := (isMemberName_iff h).mpr ⟨Text.has_of_sees hscore, hle, hdigits⟩
    rw [hmember] at htrue
    cases htrue

include h hj hdot in
/-- A single dot and the member of a tuple. -/
theorem firstClaim?_member (words : KeywordSet → List (List Char)) (hstop : stop ≤ t.size)
    (hmember : isMemberName (t.slice (x + 1) j).toList = true) :
    firstClaim? .standard t x stop (table words) = .ok (some ⟨x + 1, j, .tupleReference⟩) := by
  have hlt := h.lt
  obtain ⟨hscore, hmore, hdigits⟩ := (isMemberName_iff h).mp hmember
  have hnodot : t.sees stop isDot (x + 1) = false := by
    rw [Bool.eq_false_iff]
    intro hsees
    exact (Text.has_of_sees hsees).not_both (h.word (x + 1) (Nat.le_refl _) hlt) fun _ =>
      isWordChar_of_isDot
  have hoperator := shapeClaim?_multiCharOperator stop hdot
  rw [hnodot, Bool.and_false, if_neg Bool.false_ne_true] at hoperator
  have hseparator := shapeClaim?_separator_of_member hdot
    (Text.sees_of_has hscore (show x + 1 < stop by omega))
    (Text.sees_of_has (hdigits _ (Nat.le_refl _) hmore) (show x + 2 < stop by omega))
  have hclaim := shapeClaim?_member h hj hdot
  rw [if_pos hmember] at hclaim
  rw [firstClaim?_of_dot words (by omega) hstop hdot,
    firstClaim?_cons_of_none (shapeRule_claim? hoperator),
    firstClaim?_cons_of_none (shapeRule_claim? hseparator)]
  exact firstClaim?_cons_of_some (shapeRule_claim? hclaim)

include h hj hdot in
/-- A single dot in front of another word is claimed alone, if at all. -/
theorem stop_le_of_firstClaim?_dot {s : Span} (hstop : stop ≤ t.size)
    (hmember : isMemberName (t.slice (x + 1) j).toList = false)
    (hclaim : firstClaim? .standard t x stop (table words) = .ok (some s)) : s.stop ≤ x + 1 := by
  have hlt := h.lt
  have hx : x < stop := by omega
  rw [firstClaim?_of_dot words hx hstop hdot] at hclaim
  obtain ⟨-, hnonempty, -, rule, hrule, -, hof⟩ :=
    firstClaim?_eq_some (by decide) hx hstop hclaim
  have hdotted : ∀ {body}, body ∈ dottedShapes →
      shapeClaim? ⟨body, 1⟩ 1 t x stop = some (s.start, s.stop) → s.stop ≤ x + 1 := by
    intro body hbody hshape
    have htakes : ∀ e ∈ dottedShapes, e.capturesAside = false ∧
        e.takesEither isMark isDot = true := by decide
    obtain ⟨m, hpath, hfirst, -, hle⟩ := shapeClaim?_path (htakes body hbody).1 hshape
    rcases hpath.takes_either (htakes body hbody).2 with hspelled | hspelled
    · exact ((hspelled x (Nat.le_refl _) (by omega)).not_char (by decide) hdot).elim
    · apply Nat.le_of_not_lt
      intro hmore
      exact (hspelled (x + 1) (Nat.le_succ _) (by omega)).not_both
        (h.word (x + 1) (Nat.le_refl _) hlt) fun _ => isWordChar_of_isDot
  simp only [List.mem_cons, List.not_mem_nil, or_false] at hrule
  rcases hrule with rfl | rfl | rfl
  · exact hdotted (by decide) (Except.ok.inj hof)
  · exact hdotted (by decide) (Except.ok.inj hof)
  · have hshape := Except.ok.inj hof
    rw [shapeClaim?_member h hj hdot, hmember] at hshape
    cases hshape

end

end Standard

end VSyntax
