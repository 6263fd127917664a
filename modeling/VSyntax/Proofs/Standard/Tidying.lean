import VSyntax.Proofs.Classify.Course
import VSyntax.Proofs.Classify.Tidying
import VSyntax.Proofs.Standard.Table

/-!
# Keyword sets that may trade words

Tidying a rule table leaves every classification as it was (`classify_tidied`). The standard table
has a case of it: the keywords, the constants and the operator functions are neighbours and share
their category, so it does not matter which of the three sets a word is in
(`firstClaim?_neighbours`). The other four sets differ in category or have shapes around them, and
there it does.
-/
namespace VSyntax

/-- Two vocabularies that give four sets the same words, and the other three sets the same words
together. -/
structure Vocabulary.SameUpToTrade (v v' : Vocabulary) : Prop where
  alone : ∀ s ∈ [KeywordSet.builtin, .careful, .declaration, .preprocessor],
    ∀ w, v.gives s w = v'.gives s w
  together : ∀ w, (∃ s ∈ [KeywordSet.keywords, .constants, .operatorFunctions],
      v.gives s w = true) ↔
    ∃ s ∈ [KeywordSet.keywords, .constants, .operatorFunctions], v'.gives s w = true

namespace Standard

variable {d : Delimiters} {t : Text} {pos stop : Nat} {rules rules' : RuleTable}
  {words words' : KeywordSet → List (List Char)}

section

variable (hpos : pos < stop) (hstop : stop ≤ t.size)

include hpos hstop

/-- Two rules for the same words of a set, in front of rules with the same first claim. -/
theorem firstClaim?_setRule_congr {s : KeywordSet} (hwords : ∀ w, w ∈ words s ↔ w ∈ words' s)
    (hrest : firstClaim? d t pos stop rules = firstClaim? d t pos stop rules') :
    firstClaim? d t pos stop (setRule words s :: rules) =
      firstClaim? d t pos stop (setRule words' s :: rules') := by
  rw [setRule, setRule, firstClaim?_words hpos hstop, firstClaim?_words hpos hstop,
    knows_congr hwords, hrest]

/-- The three neighbouring sets of one category claim what a single set with the words of all three
would. -/
theorem firstClaim?_neighbours : firstClaim? d t pos stop (setRule words .keywords ::
      setRule words .constants :: setRule words .operatorFunctions :: rules) =
    if knows d t pos stop (words .keywords ++ (words .constants ++ words .operatorFunctions))
    then .ok (some ⟨pos, t.runEnd d.isWord stop pos, .keyword⟩)
    else firstClaim? d t pos stop rules := by
  have hkeywords : KeywordSet.category .keywords = .keyword := rfl
  have hconstants : KeywordSet.category .constants = .keyword := rfl
  have hoperators : KeywordSet.category .operatorFunctions = .keyword := rfl
  rw [setRule, setRule, setRule, firstClaim?_words hpos hstop, firstClaim?_words hpos hstop,
    firstClaim?_words hpos hstop, knows_append, knows_append, hkeywords, hconstants, hoperators]
  cases knows d t pos stop (words .keywords) with
  | true => rfl
  | false =>
    cases knows d t pos stop (words .constants) with
    | true => rfl
    | false => rfl

/-- Tables of the same words, up to a trade, have the same first claim. -/
theorem firstClaim?_table_traded
    (halone : ∀ s ∈ [KeywordSet.builtin, .careful, .declaration, .preprocessor],
      ∀ w, w ∈ words s ↔ w ∈ words' s)
    (htogether : ∀ w, w ∈ words .keywords ++ (words .constants ++ words .operatorFunctions) ↔
      w ∈ words' .keywords ++ (words' .constants ++ words' .operatorFunctions)) :
    firstClaim? d t pos stop (table words) = firstClaim? d t pos stop (table words') := by
  have hshape {name category body} {rules rules' : RuleTable}
      (hrest : firstClaim? d t pos stop rules = firstClaim? d t pos stop rules') :
      firstClaim? d t pos stop (shapeRule name category body :: rules) =
        firstClaim? d t pos stop (shapeRule name category body :: rules') := by
    rw [firstClaim?, firstClaim?, hrest]
  have hset {s} (hs : s ∈ [KeywordSet.builtin, .careful, .declaration, .preprocessor])
      {rules rules' : RuleTable}
      (hrest : firstClaim? d t pos stop rules = firstClaim? d t pos stop rules') :
      firstClaim? d t pos stop (setRule words s :: rules) =
        firstClaim? d t pos stop (setRule words' s :: rules') :=
    firstClaim?_setRule_congr hpos hstop (halone s hs) hrest
  refine hset (by decide) (hset (by decide) (hshape (hset (by decide) (hset (by decide) ?_))))
  -- nine shapes stand between the sets that stand alone and the neighbours
  iterate 9 refine hshape ?_
  rw [firstClaim?_neighbours hpos hstop, firstClaim?_neighbours hpos hstop, knows_congr htogether]

end

end Standard

/-- Vocabularies that are the same up to a trade classify alike. -/
theorem Vocabulary.SameUpToTrade.classify_eq {v v' : Vocabulary} {classes classes' : List WordClass}
    (h : v.SameUpToTrade v') (hv : v.classes = .ok classes) (hv' : v'.classes = .ok classes')
    (d : Delimiters) (t : Text) (region : Option Region) :
    classify (Standard.table v.words) d t region =
      classify (Standard.table v'.words) d t region := by
  have hgives := (Vocabulary.classes_eq hv).2
  have hgives' := (Vocabulary.classes_eq hv').2
  refine classify_congr fun pos stop hpos hstop =>
    Standard.firstClaim?_table_traded hpos hstop (fun s hs w => ?_) fun w => ?_
  · rw [hgives, hgives', h.alone s hs w]
  · have htogether := h.together w
    simpa only [List.exists_mem_cons_iff, List.not_mem_nil, false_and, exists_false, or_false,
      List.mem_append, hgives, hgives'] using htogether

/-- **Words that an earlier rule has are dead in a later one.** A table without the words that
earlier word rules have, without word rules that have none left, and with neighbouring word rules of
one category merged, says nothing twice, and it classifies every text and every region of it like
the table that it was made from. So do the tables of two vocabularies whose word classes can be
built, where these agree on the types, the careful keywords, the keywords of declarations and those
of the preprocessor, and on all other words together. -/
theorem classify_tidied (d : Delimiters) (t : Text) (region : Option Region) :
    (∀ rules : RuleTable, (∀ rule ∈ rules, rule.capturesBehind = false) →
      rules.tidied.IsTidy ∧ ∃ spans, classify rules d t region = .ok spans ∧
        classify rules.tidied d t region = .ok spans) ∧
    ∀ (v v' : Vocabulary) (classes classes' : List WordClass), v.classes = .ok classes →
      v'.classes = .ok classes' → v.SameUpToTrade v' →
      ∃ rules rules' spans, v.rules = .ok rules ∧ v'.rules = .ok rules' ∧
        classify rules d t region = .ok spans ∧ classify rules' d t region = .ok spans := by
  have hanswer : ∀ rules : RuleTable, (∀ rule ∈ rules, rule.capturesBehind = false) →
      ∃ spans, classify rules d t region = .ok spans := fun rules hr =>
    (classifyWithin_classified _ hr (Region.bounds_snd_le region t.size)).imp fun _ h => h.1
  constructor
  · intro rules hr
    obtain ⟨spans, hspans⟩ := hanswer rules hr
    have hsame : classify rules.tidied d t region = classify rules d t region :=
      classify_congr fun pos stop hpos hstop => firstClaim?_tidied hpos hstop
    exact ⟨RuleTable.isTidy_tidied rules, spans, hspans, hsame.trans hspans⟩
  · intro v v' classes classes' hv hv' htrade
    obtain ⟨spans, hspans⟩ := hanswer (Standard.table v.words) fun _ =>
      Standard.capturesBehind_of_mem_table
    exact ⟨_, _, spans, v.rules_eq_table hv, v'.rules_eq_table hv', hspans,
      (htrade.classify_eq hv hv' d t region).symm.trans hspans⟩

/-- The theorem holds of a real table, in which one word has three rules, and of the standard
vocabulary with `true` among the keywords. -/
theorem classify_tidied_word :
    ∃ (rules : RuleTable) (v' : Vocabulary) (classes classes' : List WordClass), rules = [
        .words "first" .keyword ["if".toList, "in".toList],
        .words "second" .declaration ["in".toList],
        .words "third" .keyword ["in".toList, "as".toList]] ∧
      rules.tidied = [.words "first" .keyword ["as".toList, "if".toList, "in".toList]] ∧
      v' = (Vocabulary.standard.set .keywords
        ((KeywordSet.standardWords .keywords ++ ["true"]).map Datum.text)).set .constants
        (["false", "none", "nil"].map Datum.text) ∧
      (∀ rule ∈ rules, rule.capturesBehind = false) ∧
      Vocabulary.standard.classes = .ok classes ∧ v'.classes = .ok classes' ∧
      Vocabulary.standard.SameUpToTrade v' ∧
      (∃ spans, classify rules .standard (Text.ofString "in as") none = .ok spans ∧
        classify rules.tidied .standard (Text.ofString "in as") none = .ok spans) ∧
      ∃ rules rules' spans, Vocabulary.standard.rules = .ok rules ∧ v'.rules = .ok rules' ∧
        classify rules .standard (Text.ofString "in as") none = .ok spans ∧
        classify rules' .standard (Text.ofString "in as") none = .ok spans := by
  obtain ⟨classes, hv⟩ := Vocabulary.exists_classes_standard
  obtain ⟨v', hv'⟩ : ∃ v', v' = (Vocabulary.standard.set .keywords
    ((KeywordSet.standardWords .keywords ++ ["true"]).map Datum.text)).set .constants
    (["false", "none", "nil"].map Datum.text) := ⟨_, rfl⟩
  obtain ⟨classes', hclasses'⟩ : ∃ classes', v'.classes = .ok classes' := by
    rw [hv']
    exact ⟨_, rfl⟩
  have htrade : Vocabulary.standard.SameUpToTrade v' := by
    constructor
    · intro s hs w
      have hkeywords : s ≠ .keywords := fun h => absurd (h ▸ hs) (by decide)
      have hconstants : s ≠ .constants := fun h => absurd (h ▸ hs) (by decide)
      simp only [hv', Vocabulary.gives, Vocabulary.set, if_neg hkeywords, if_neg hconstants]
    · -- the word has moved from one of the three sets to another
      intro w
      have hkeywords : v'.gives .keywords w =
          (Vocabulary.standard.gives .keywords w || "true".toList == w) := by
        simp only [hv', Vocabulary.gives, Vocabulary.set, Vocabulary.standard, List.map_append,
          List.any_append, reduceCtorEq, if_false, if_true, List.map_cons, List.map_nil,
          List.any_cons, List.any_nil, Bool.or_false]
      have hconstants : Vocabulary.standard.gives .constants w =
          ("true".toList == w || v'.gives .constants w) := by
        rw [hv']
        rfl
      have hoperators : v'.gives .operatorFunctions w =
          Vocabulary.standard.gives .operatorFunctions w := by
        rw [hv']
        rfl
      simp only [List.exists_mem_cons_iff, List.not_mem_nil, false_and, exists_false, or_false,
        hkeywords, hconstants, hoperators, Bool.or_eq_true, or_assoc]
  exact ⟨_, v', classes, classes', rfl, by decide, hv', by decide, hv, hclasses', htrade,
    ((classify_tidied .standard (Text.ofString "in as") none).1 _ (by decide)).2,
    (classify_tidied .standard (Text.ofString "in as") none).2 _ _ _ _ hv hclasses' htrade⟩

end VSyntax
