import VSyntax.Proofs.Standard.Punctuation

/-!
# The spans of numerals

With the standard rules a numeral of code begins where a digit stands at the start of the text or
behind a character that lets it begin, and goes as far as its first form that applies
(`classify_numerals`). At such a digit the rules before claim nothing, since no keyword begins with
one (`firstClaim?_digit`), so the numeral is claimed there unless a claim made earlier passes over
it. That claim would take in the character in front of the digit, which only an operator or the sign
of an exponent can be, and no operator takes in a digit.
-/
namespace VSyntax

namespace Standard

open Regex

variable {v : Vocabulary} {t : Text} {stop x : Nat} {l : List Span} {body : Expr}
  {words : KeywordSet → List (List Char)}

/-! ## Claims at a digit -/

theorem isDecimal_of_isNameHead {c : Char} (h : isNameHead c = true) :
    Unicode.isDecimal c = false := by
  have hwithin : letterItems.all (·.within [] fun c => !Unicode.isDecimal c) = true := by decide
  rw [← congrFun letterItems_holds c] at h
  obtain ⟨item, hitem, hholds⟩ := List.any_eq_true.mp h
  have hnot := CharItem.of_within (fun _ hk => absurd hk List.not_mem_nil)
    (List.all_eq_true.mp hwithin item hitem) hholds
  rwa [Bool.not_eq_true'] at hnot

/-- No name begins with a digit. -/
theorem shapeClaim?_nameShape_of_digit (hbody : body ∈ nameShapes) (hx : x ≤ stop)
    (hdigit : t.Has Unicode.isDecimal x) : shapeClaim? ⟨body, 1⟩ 1 t x stop = none := by
  have hhead : ∀ {p : Char → Bool}, (∀ c, p c = true → isNameHead c = true) →
      t.sees stop p x = false := by
    intro p hp
    rw [Bool.eq_false_iff]
    intro hsees
    exact (Text.has_of_sees hsees).not_both hdigit fun c hc => isDecimal_of_isNameHead (hp c hc)
  have hupper : t.sees stop Char.isUpper x = false :=
    hhead fun c hc => by rw [isNameHead, hc, Bool.true_or, Bool.true_or]
  have hlower : t.sees stop isLowerHead x = false :=
    hhead fun c hc => by rw [isNameHead, Bool.or_assoc, ← isLowerHead, hc, Bool.or_true]
  simp only [nameShapes, List.mem_cons, List.not_mem_nil, or_false] at hbody
  rcases hbody with rfl | rfl | rfl | rfl | rfl
  · rw [functionName, shapeClaim?_name letterItems_holds fun _ => run_afterFn hx,
      hhead fun _ => id, Bool.and_false]
    rfl
  · rw [typeName, shapeClaim?_name upperItems_holds fun _ => run_fresh_of_not hx, hupper,
      Bool.and_false]
    rfl
  · rw [shapeClaim?_callReference hx, hhead fun _ => id, Bool.and_false, Bool.false_and]
    rfl
  · rw [parameter, shapeClaim?_name lowerItems_holds fun _ => run_afterOpening hx, hlower,
      Bool.and_false]
    rfl
  · rw [variableReference, shapeClaim?_name lowerItems_holds fun _ => run_fresh_of_not hx, hlower,
      Bool.and_false]
    rfl

/-- At a digit only the shape of numerals claims anything. -/
theorem shapeClaim?_of_digit (hbody : body ∈ shapes) (hne : body ≠ numericLiteral) (hx : x ≤ stop)
    (hdigit : t.Has Unicode.isDecimal x) : shapeClaim? ⟨body, 1⟩ 1 t x stop = none := by
  by_cases hname : body ∈ nameShapes
  · exact shapeClaim?_nameShape_of_digit hname hx hdigit
  apply shapeClaim?_eq_none (not_capturesAside hbody)
  intro s hpath hlt
  have hword := hdigit.imp fun _ => isWordChar_of_isDecimal
  exact hne (numeral_of_path_word hbody hname hword hpath hlt).1

section

variable (hwords : ∀ s w, w ∈ words s ↔ v.gives s w = true)
  (hdigits : ∀ s w, v.gives s w = true → w.head?.any Unicode.isDecimal = false)

include hwords hdigits

/-- No keyword begins with a digit, so none is claimed at one. -/
theorem setRule_claim?_of_digit (set : KeywordSet) (hx : x < stop) (hstop : stop ≤ t.size)
    (hdigit : t.Has Unicode.isDecimal x) :
    (setRule words set).claim? .standard t x stop = .ok none := by
  rw [setRule, Rule.claim?, wordClaim?_eq hx hstop, standard_isWord, if_neg]
  rintro ⟨hsees, -, hmem⟩
  have hle : t.runEnd isWordChar stop x ≤ t.size :=
    Nat.le_trans (Text.runEnd_le (Nat.le_of_lt hx)) hstop
  have hhead := hdigits set _ ((hwords set _).mp hmem)
  obtain ⟨c, hc, hdecimal⟩ := hdigit
  rw [Text.head?_slice (Text.lt_runEnd hsees) hle, hc, Option.any_some, hdecimal] at hhead
  cases hhead

/-- At a digit the first rule to claim anything is that of numerals. -/
theorem firstClaim?_digit (hx : x < stop) (hstop : stop ≤ t.size)
    (hdigit : t.Has Unicode.isDecimal x) :
    firstClaim? .standard t x stop (table words) =
      .ok (if mayBegin t x then some ⟨x, numeralEnd t stop x, .numericLiteral⟩ else none) := by
  have hrest : firstClaim? .standard t x stop (table words) =
      firstClaim? .standard t x stop ((table words).filter (isAmong false [numericLiteral])) := by
    apply firstClaim?_filter
    intro rule hrule hdrop
    rcases mem_table hrule with ⟨set, rfl⟩ | ⟨name, category, body, hbody, rfl⟩
    · exact setRule_claim?_of_digit hwords hdigits set hx hstop hdigit
    · have hne : body ∉ [numericLiteral] := of_decide_eq_false hdrop
      exact shapeRule_claim? (shapeClaim?_of_digit hbody (List.ne_of_not_mem_cons hne)
        (Nat.le_of_lt hx) hdigit)
  have hclaim := shapeClaim?_numericLiteral (t := t) (Nat.le_of_lt hx)
  rw [Text.sees_of_has hdigit hx, Bool.and_true] at hclaim
  rw [hrest]
  cases hfront : mayBegin t x with
  | true =>
    rw [hfront] at hclaim
    exact firstClaim?_cons_of_some (shapeRule_claim? hclaim)
  | false =>
    rw [hfront] at hclaim
    exact firstClaim?_cons_of_none (shapeRule_claim? hclaim)

end

/-! ## Where numerals begin -/

/-- A numeral may begin at an offset: outside comments and strings, with a digit, at the start of
the text or behind a character of the front. -/
structure Eligible (t : Text) (l : List Span) (p : Nat) : Prop where
  outside : Outside l p
  digit : t.Has Unicode.isDecimal p
  front : p = 0 ∨ t.Has isNumeralFront (p - 1)

theorem mayBegin_iff : mayBegin t x = true ↔ x = 0 ∨ t.Has isNumeralFront (x - 1) := by
  rw [mayBegin, Bool.or_eq_true, beq_iff_eq]
  rcases Nat.eq_zero_or_pos x with hzero | hpos
  · exact ⟨fun _ => .inl hzero, fun _ => .inl hzero⟩
  · rw [Text.follows_iff hpos]

theorem isInk_of_isLead {c : Char} (h : isLead c = true) : isInk c = true := by
  simp only [isLead, Bool.or_eq_true] at h
  rcases h with (hword | hsigil) | hdot
  · exact isInk_of_isWordChar hword
  · exact isInk_of_isSigil hsigil
  · exact isInk_of_isDot hdot

/-- No character of the front is of a word, a sigil or a dot. -/
theorem isLead_of_isNumeralFront {c : Char} (h : isNumeralFront c = true) : isLead c = false := by
  rcases (Bool.or_eq_true _ _).mp h with hblank | hmark
  · rw [Bool.eq_false_iff]
    intro hlead
    have hink := isInk_of_isLead hlead
    rw [isInk, hblank] at hink
    cases hink
  · exact not_of_contains (by decide) hmark

/-- A claim that is made before a digit and passes over it, where a numeral may begin, is a numeral
whose exponent has its sign in front of the digit. -/
theorem Kind.exponentSign {pos : Nat} {s : Span} (h : Kind t stop pos s) (hx : pos < x)
    (hlt : x < s.stop) (hdigit : t.Has Unicode.isDecimal x)
    (hfront : t.Has isNumeralFront (x - 1)) :
    s.category = .numericLiteral ∧ s.start = pos ∧ ExponentSign t stop pos (x - 1) := by
  have hhere : ∀ {p : Char → Bool}, (∀ c, p c = true → isWordChar c = false) → ¬ t.Has p x :=
    fun hp hhas => hhas.not_both (hdigit.imp fun _ => isWordChar_of_isDecimal) hp
  cases h with
  | operator _ _ spelled =>
    exact (hhere (fun _ => not_of_contains (by decide)) (spelled x (Nat.le_of_lt hx) hlt)).elim
  | separator _ _ ends => omega
  | bracket _ _ ends => omega
  | numeral hcategory hstart ends front digit =>
    rcases has_of_lt_numeralEnd (y := x - 1) digit (by omega) (by omega) with hchar | hsign
    · exact (hfront.not_both (hchar.imp fun _ => isLead_of_isNumeralChar)
        fun _ => isLead_of_isNumeralFront).elim
    · exact ⟨hcategory, hstart, hsign⟩
  | words _ spelled =>
    exact (hfront.not_both (spelled (x - 1) (by omega) (by omega))
      fun _ => isLead_of_isNumeralFront).elim

end Standard

open Standard

/-- **Numerals are found exactly.** For every text and every vocabulary whose word classes can be
built and none of whose words begins with a digit, with the standard layout and marks: each numeral
begins where one may begin, with a digit outside comments and strings at the start of the text or
behind a character of the front, and ends where its first form that applies does, in the code around
it (`numeralEnd`); and wherever one may begin, one does, or the digit is the first of a numeral's
exponent and stands behind its sign. -/
theorem classify_numerals {v : Vocabulary} {classes : List WordClass}
    (hv : v.classes = .ok classes)
    (hdigits : ∀ s w, v.gives s w = true → w.head?.any Unicode.isDecimal = false) (t : Text) :
    ∃ rules spans, v.rules = .ok rules ∧ classify rules .standard t none = .ok spans ∧
      Segmentation .standard t 0 (spans.filter fun s => s.category.isDelimited) ∧
      (∀ s ∈ spans, s.category = .numericLiteral → Eligible t spans s.start ∧
        ∃ b, CodeAround spans t.size s.start b ∧ s.stop = numeralEnd t b s.start) ∧
      ∀ p, Eligible t spans p → ∃ s ∈ spans, s.category = .numericLiteral ∧ p < s.stop ∧
        (s.start = p ∨
          ∃ b, CodeAround spans t.size s.start b ∧ ExponentSign t b s.start (p - 1)) := by
  obtain ⟨spans, hrun, -, acc⟩ := exists_account_filter
    (fun _ => capturesBehind_of_mem_table) (fun _ => isDelimited_of_mem_table) .standard t
  refine ⟨table v.words, spans, v.rules_eq_table hv, hrun, acc.segmentation,
    fun s hs hnumeral => ?_, fun p heligible => ?_⟩
  · obtain ⟨p, b, hclaim, hcode⟩ := acc.exists_claim hs (hnumeral ▸ rfl)
    obtain ⟨rfl, hend, hfront, hdigit⟩ := (kind_of_claims hclaim).of_numeral hnumeral
    exact ⟨⟨hcode.outside, Text.has_of_sees hdigit, mayBegin_iff.mp hfront⟩, b, hcode, hend⟩
  · obtain ⟨hout, hdigit, hfront⟩ := heligible
    obtain ⟨b, hcode⟩ := acc.segmentation.exists_codeAround hdigit.lt_size hout
    have code := acc.segmentation.codeTo_around hcode
    have hclaim := firstClaim?_digit (Vocabulary.classes_eq hv).2 hdigits hcode.lt code.le_stop
      hdigit
    rw [if_pos (mayBegin_iff.mpr hfront)] at hclaim
    obtain ⟨q, s, hs, hpass, hcodeq, hqp, hin⟩ :=
      acc.exists_passing_around (fun _ => capturesBehind_of_mem_table) hcode ⟨_, hclaim⟩
    rcases Nat.eq_or_lt_of_le hqp with rfl | hearlier
    · have hsame := hpass.claimed
      rw [hclaim] at hsame
      cases hsame
      exact ⟨_, hs, rfl, hin, .inl rfl⟩
    · have hbehind := hfront.resolve_left (Nat.ne_of_gt (Nat.zero_lt_of_lt hearlier))
      obtain ⟨hcategory, rfl, hsign⟩ :=
        (kind_of_claims hpass).exponentSign hearlier hin hdigit hbehind
      exact ⟨s, hs, hcategory, hin, .inr ⟨b, hcodeq, hsign⟩⟩

/-- The theorem holds of the standard vocabulary: a numeral begins behind a blank, and the digit
behind the sign is the first of its exponent or of another numeral. -/
theorem classify_numerals_exponent :
    ∃ classes, Vocabulary.standard.classes = .ok classes ∧
      (∀ s w, Vocabulary.standard.gives s w = true → w.head?.any Unicode.isDecimal = false) ∧
      ∃ rules spans, Vocabulary.standard.rules = .ok rules ∧
        classify rules .standard (Text.ofString "x 1e+5") none = .ok spans ∧
        (∃ s ∈ spans, s.category = .numericLiteral ∧ s.start = 2) ∧
        ∃ s ∈ spans, s.category = .numericLiteral ∧ 5 < s.stop := by
  obtain ⟨classes, hv⟩ := Vocabulary.exists_classes_standard
  have hdigits : ∀ s w, Vocabulary.standard.gives s w = true →
      w.head?.any Unicode.isDecimal = false := by
    intro s w hgives
    have hnone : ∀ x ∈ s.standardWords, x.toList.head?.any Unicode.isDecimal = false := by
      cases s
      all_goals decide
    rw [Bool.eq_false_iff]
    intro hdigit
    rw [Vocabulary.gives_eq_false (p := fun w => w.head?.any Unicode.isDecimal) rfl hnone hdigit]
      at hgives
    cases hgives
  obtain ⟨rules, spans, hrules, hrun, hseg, -, hbegin⟩ :=
    classify_numerals hv hdigits (Text.ofString "x 1e+5")
  have hout := hseg.outside_of_unmarked (by decide)
  obtain ⟨s, hs, hnumeral, -, hstart | ⟨b, -, hsign⟩⟩ :=
    hbegin 2 ⟨hout 2, ⟨'1', rfl, by decide⟩, .inr ⟨' ', rfl, by decide⟩⟩
  · obtain ⟨s', hs', hnumeral', hin, -⟩ :=
      hbegin 5 ⟨hout 5, ⟨'5', rfl, by decide⟩, .inr ⟨'+', rfl, by decide⟩⟩
    exact ⟨classes, hv, hdigits, rules, spans, hrules, hrun, ⟨s, hs, hnumeral, hstart⟩,
      s', hs', hnumeral', hin⟩
  · have hblank : (Text.ofString "x 1e+5").Has (· == ' ') 1 := ⟨' ', rfl, rfl⟩
    exact ((Text.has_of_sees hsign.sign).not_char (by decide) hblank).elim

end VSyntax
