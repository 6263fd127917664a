import VSyntax.Proofs.Classify.InStep
import VSyntax.Proofs.Standard.Words

/-!
# Replacing a keyword set

Another set of words in the place of one keyword set changes nothing beside the words that are in
one of the two sets only (`classify_replaced`). Where such a word begins, the rule of the set claims
it under the one table and leaves it to the later rules under the other. These are the names of
functions, types, calls, parameters and variables, and each claims the same extent or nothing: all
word characters up to the end of the word, or of the code (`extent_of_word`). So both tables are in
step there (`inStep`). At every other offset the sets claim the same words, and so do the tables
(`firstClaim?_table_congr`).

A word that begins with a decimal digit is different, since the rule of numerals may claim a part of
it or more than it.
-/
namespace VSyntax

namespace Standard

open Regex

variable {t : Text} {x stop first last : Nat} {body : Expr}
  {words words' : KeywordSet → List (List Char)}

/-! ## Offsets where the sets claim the same -/

/-- Tables whose keyword sets claim the same have the same first claim. -/
theorem firstClaim?_table_congr
    (h : ∀ s, (setRule words s).claim? .standard t x stop =
      (setRule words' s).claim? .standard t x stop) :
    firstClaim? .standard t x stop (table words) =
      firstClaim? .standard t x stop (table words') := by
  simp only [table, firstClaim?, h]
  rfl

/-- The rule of a keyword set claims the same under both tables, unless the word at the offset is in
the set of one table only. -/
theorem setRule_claim?_congr {s : KeywordSet} (hx : x < stop) (hstop : stop ≤ t.size)
    (h : t.sees stop isWordChar x = true →
      ((t.slice x (t.runEnd isWordChar stop x)).toList ∈ words s ↔
        (t.slice x (t.runEnd isWordChar stop x)).toList ∈ words' s)) :
    (setRule words s).claim? .standard t x stop = (setRule words' s).claim? .standard t x stop := by
  simp only [setRule, Rule.claim?]
  rw [wordClaim?_eq hx hstop, wordClaim?_eq hx hstop, standard_isWord]
  refine congrArg Except.ok (if_congr ?_ rfl rfl)
  exact and_congr_right fun hsees => and_congr_right fun _ => h hsees

/-! ## Offsets where a word begins -/

/-- A keyword set claims all word characters of a word, or nothing. -/
theorem extent_of_setRule {s : KeywordSet} (hx : x < stop) (hstop : stop ≤ t.size)
    (h : (setRule words s).claim? .standard t x stop = .ok (some (first, last))) :
    first = x ∧ last = t.runEnd isWordChar stop x := by
  rw [setRule, Rule.claim?, wordClaim?_eq hx hstop, standard_isWord] at h
  split at h
  · cases h
    exact ⟨rfl, rfl⟩
  · cases h

section

variable (hstop : stop ≤ t.size) (hsees : t.sees stop isWordChar x = true)
  (hdigit : ¬ t.Has Unicode.isDecimal x)

include hstop hsees hdigit

/-- What is claimed at a word character, unless it is a digit, is the run of word characters from
there on. -/
theorem extent_of_word {s : Span}
    (h : firstClaim? .standard t x stop (table words) = .ok (some s)) :
    s.start = x ∧ s.stop = t.runEnd isWordChar stop x := by
  have hx := Text.lt_of_sees hsees
  obtain ⟨-, -, -, rule, hrule, -, hof⟩ :=
    firstClaim?_eq_some (fun _ => capturesBehind_of_mem_table) hx hstop h
  rcases mem_table hrule with ⟨set, rfl⟩ | ⟨name, category, body, hbody, rfl⟩
  · exact extent_of_setRule hx hstop hof
  · have hshape : shapeClaim? ⟨body, 1⟩ 1 t x stop = some (s.start, s.stop) := Except.ok.inj hof
    by_cases hname : body ∈ nameShapes
    · obtain ⟨b, hclaim, -⟩ := shapeClaim?_nameShape (t := t) hname (Nat.le_of_lt hx)
      rw [hclaim] at hshape
      cases b with
      | true =>
        obtain ⟨hfirst, hlast⟩ := Prod.mk.inj (Option.some.inj hshape)
        rw [Text.runEnd_of_sees hsees]
        exact ⟨hfirst.symm, hlast.symm⟩
      | false => cases hshape
    · rw [shapeClaim?_of_word hbody hname (Text.has_of_sees hsees) (.inl hdigit)] at hshape
      cases hshape

/-- The run of word characters is claimed as a whole, or nothing of it is. -/
theorem sole_of_word (words : KeywordSet → List (List Char)) :
    Sole (table words) .standard t x (t.runEnd isWordChar stop x) stop := by
  have hr : ∀ rule ∈ table words, rule.capturesBehind = false :=
    fun _ => capturesBehind_of_mem_table
  have hx := Text.lt_of_sees hsees
  refine ⟨Text.lt_runEnd hsees, Text.runEnd_le (Nat.le_of_lt hx), ?_, fun y hy hlt => ?_⟩
  · obtain ⟨c, hclaim, -⟩ := firstClaim?_spec (d := .standard) hr hx hstop
    cases c with
    | none => exact ⟨none, hclaim⟩
    | some s =>
      obtain ⟨hfirst, hlast⟩ := extent_of_word hstop hsees hdigit hclaim
      exact ⟨some s.category, by rw [hclaim, ← hlast, ← hfirst, Option.map_some]⟩
  · have hword := Text.sees_of_lt_runEnd (Nat.le_of_lt hy) hlt
    have hback : t.sees stop isWordChar (y - 1) = true :=
      Text.sees_of_lt_runEnd (Nat.le_sub_one_of_lt hy) (Nat.lt_of_le_of_lt (Nat.sub_le y 1) hlt)
    have hfollows : t.follows isWordChar y = true :=
      (Text.follows_iff (Nat.zero_lt_of_lt hy)).mpr (Text.has_of_sees hback)
    exact firstClaim?_inside words (Text.lt_of_sees hword) hstop (Text.has_of_sees hword) hfollows

end

/-! ## Both tables in step -/

/-- Tables whose sets hold the same of some words are in step, if the other words do not count and
do not begin with a decimal digit. -/
theorem inStep {same : List Char → Bool} (hx : x < stop) (hstop : stop ≤ t.size)
    (hwords : ∀ s w, same w = true → (w ∈ words s ↔ w ∈ words' s))
    (hdigit : ∀ w, same w = false → ¬ w.head?.any Unicode.isDecimal = true) :
    InStep (fun s => same (t.slice s.start s.stop).toList) (table words) (table words') .standard
      t x stop := by
  by_cases hsees : t.sees stop isWordChar x = true
  · cases hsame : same (t.slice x (t.runEnd isWordChar stop x)).toList with
    | true =>
      exact .inl (firstClaim?_table_congr fun s =>
        setRule_claim?_congr hx hstop fun _ => hwords s _ hsame)
    | false =>
      have hend : t.runEnd isWordChar stop x ≤ stop := Text.runEnd_le (Nat.le_of_lt hx)
      have hhead := hdigit _ hsame
      rw [Text.head?_slice (Text.lt_runEnd hsees) (Nat.le_trans hend hstop),
        Option.any_eq_true] at hhead
      exact .inr ⟨_, sole_of_word hstop hsees hhead words, sole_of_word hstop hsees hhead words',
        fun _ => hsame⟩
  · exact .inl (firstClaim?_table_congr fun s =>
      setRule_claim?_congr hx hstop fun hword => absurd hword hsees)

end Standard

/-! ## Another set of words -/

/-- Whether a word is in the set of both vocabularies or of neither. -/
def Vocabulary.agreeOn (v v' : Vocabulary) (s : KeywordSet) (w : List Char) : Bool :=
  v.gives s w == v'.gives s w

/-- **Replacing a keyword set changes nothing but its words.** For all two vocabularies whose word
classes can be built and that differ in one keyword set at most, where no word that is in the set of
one only begins with a decimal digit: every text and every region of it is answered under both, and
the spans are the same list but for the spans of such words. -/
theorem classify_replaced {v v' : Vocabulary} {classes classes' : List WordClass} {s₀ : KeywordSet}
    (hv : v.classes = .ok classes) (hv' : v'.classes = .ok classes')
    (hsame : ∀ s, s ≠ s₀ → ∀ w, v.gives s w = v'.gives s w)
    (hdigit : ∀ w, v.agreeOn v' s₀ w = false → ¬ w.head?.any Unicode.isDecimal = true)
    (t : Text) (region : Option Region) :
    ∃ rules rules' spans spans', v.rules = .ok rules ∧ v'.rules = .ok rules' ∧
      classify rules .standard t region = .ok spans ∧
      classify rules' .standard t region = .ok spans' ∧
      (spans.filter fun s => v.agreeOn v' s₀ (t.slice s.start s.stop).toList) =
        spans'.filter fun s => v.agreeOn v' s₀ (t.slice s.start s.stop).toList := by
  have hr : ∀ words, ∀ rule ∈ Standard.table words, rule.capturesBehind = false :=
    fun _ _ => Standard.capturesBehind_of_mem_table
  have hstop := Region.bounds_snd_le region t.size
  obtain ⟨spans, hrun, hspans⟩ := classifyWithin_classified (d := .standard)
    (Region.bounds region t.size).1 (hr v.words) hstop
  obtain ⟨spans', hrun', hspans'⟩ := classifyWithin_classified (d := .standard)
    (Region.bounds region t.size).1 (hr v'.words) hstop
  refine ⟨_, _, spans, spans', v.rules_eq_table hv, v'.rules_eq_table hv', hrun, hrun', ?_⟩
  have hwords : ∀ s w, v.agreeOn v' s₀ w = true → (w ∈ v.words s ↔ w ∈ v'.words s) := by
    intro s w hw
    rw [(Vocabulary.classes_eq hv).2, (Vocabulary.classes_eq hv').2]
    by_cases hs : s = s₀
    · rw [hs, beq_iff_eq.mp hw]
    · rw [hsame s hs w]
  exact hspans.filter_eq (hr v.words) hstop
    (fun x e hx code => Standard.inStep hx (Nat.le_trans code.le_stop hstop) hwords hdigit) hspans'

/-- The theorem holds of the standard constants and of a single other one, `ni`, which a part that
ends inside the word `nil` shows. -/
theorem classify_replaced_cut :
    ∃ v' classes classes', v' = Vocabulary.standard.set .constants [.text "ni"] ∧
      Vocabulary.standard.classes = .ok classes ∧ v'.classes = .ok classes' ∧
      (∀ s, s ≠ .constants → ∀ w, Vocabulary.standard.gives s w = v'.gives s w) ∧
      (∀ w, Vocabulary.standard.agreeOn v' .constants w = false →
        ¬ w.head?.any Unicode.isDecimal = true) ∧
      ∃ rules rules' spans spans', Vocabulary.standard.rules = .ok rules ∧
        v'.rules = .ok rules' ∧
        classify rules .standard (Text.ofString "if nil") (some ⟨(0 : Nat), (5 : Nat)⟩) =
          .ok spans ∧
        classify rules' .standard (Text.ofString "if nil") (some ⟨(0 : Nat), (5 : Nat)⟩) =
          .ok spans' ∧
        (spans.filter fun s => Vocabulary.standard.agreeOn v' .constants
            ((Text.ofString "if nil").slice s.start s.stop).toList) =
          spans'.filter fun s => Vocabulary.standard.agreeOn v' .constants
            ((Text.ofString "if nil").slice s.start s.stop).toList := by
  obtain ⟨classes, hv⟩ := Vocabulary.exists_classes_standard
  obtain ⟨classes', hv'⟩ : ∃ classes',
      (Vocabulary.standard.set .constants [.text "ni"]).classes = .ok classes' := ⟨_, rfl⟩
  have hsame : ∀ s, s ≠ .constants → ∀ w, Vocabulary.standard.gives s w =
      (Vocabulary.standard.set .constants [.text "ni"]).gives s w := by
    intro s hs w
    simp only [Vocabulary.gives, Vocabulary.set, if_neg hs]
  have hdigit : ∀ w, Vocabulary.standard.agreeOn
      (Vocabulary.standard.set .constants [.text "ni"]) .constants w = false →
        ¬ w.head?.any Unicode.isDecimal = true := by
    intro w hdiffer hw
    -- no word of either set begins with a digit, so `w` is in neither
    have hold := Vocabulary.gives_eq_false (v := .standard) (s := .constants)
      (p := fun w => w.head?.any Unicode.isDecimal) rfl (by decide) hw
    have hnew := Vocabulary.gives_eq_false (v := .set .standard .constants [.text "ni"])
      (s := .constants) (p := fun w => w.head?.any Unicode.isDecimal)
      (show _ = ["ni"].map Datum.text from rfl) (by decide) hw
    rw [Vocabulary.agreeOn, hold, hnew] at hdiffer
    cases hdiffer
  exact ⟨_, classes, classes', rfl, hv, hv', hsame, hdigit,
    classify_replaced hv hv' hsame hdigit (Text.ofString "if nil") (some ⟨(0 : Nat), (5 : Nat)⟩)⟩

end VSyntax
