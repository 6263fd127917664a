import Mathlib.Data.List.Chain
import VSyntax.Proofs.Vocabulary
import VSyntax.Proofs.Classify.Order

/-!
# Tidy rule tables

A rule table says some things twice. A word that an earlier word rule has is dead in a later one, a
word rule without words claims nothing, and two neighbouring word rules of one category are as good
as one. `RuleTable.tidied` clears all this away, and the first claim stays what it was at every
offset of code (`firstClaim?_tidied`).

The reason is that all word rules look at the same word, the one that begins at the offset, and
claim the whole of it (`codeWord?`, `firstClaim?_words`). So a table can be read with nothing but
the answer whether that word is in a list (`knows`). What shapes claim in between does not matter:
they are asked at the same points before and after.
-/
namespace VSyntax

variable {d : Delimiters} {t : Text} {pos stop : Nat} {rule : Rule} {rules : RuleTable}
  {ws ws' seen : List (List Char)} {name : String} {category : Category}

/-! ## Tidying -/

namespace Rule

/-- Whether a rule is a word rule without words. -/
def isVoid : Rule → Bool
  | .words _ _ ws => ws.isEmpty
  | .shape _ _ _ _ => false

/-- Two word rules of one category. -/
def mergeable : Rule → Rule → Bool
  | .words _ category _, .words _ category' _ => category == category'
  | _, _ => false

end Rule

namespace RuleTable

/-- The rules without the words that are among `seen` or in an earlier word rule. -/
def unshadowed (seen : List (List Char)) : RuleTable → RuleTable
  | [] => []
  | .words name category ws :: rules =>
    .words name category (ws.filter fun w => !seen.contains w) :: unshadowed (seen ++ ws) rules
  | .shape name category regex group :: rules =>
    .shape name category regex group :: unshadowed seen rules

/-- The rules without word rules that have no words. -/
def withoutVoid (rules : RuleTable) : RuleTable := rules.filter fun rule => !rule.isVoid

/-- A rule in front of others. It makes one rule with the first of them if both are word rules of
one category, with the words of both. -/
def consMerged : Rule → RuleTable → RuleTable
  | .words name category ws, .words name' category' ws' :: rules =>
    if category = category' then .words name category (WordClass.sortWords (ws ++ ws')) :: rules
    else .words name category ws :: .words name' category' ws' :: rules
  | rule, rules => rule :: rules

/-- The rules with neighbouring word rules of one category made into one. -/
def merged (rules : RuleTable) : RuleTable := rules.foldr consMerged []

/-- The rules with each word in its first word rule only, without word rules that have no words
left, and with neighbouring word rules of one category made into one. -/
def tidied (rules : RuleTable) : RuleTable := (rules.unshadowed []).withoutVoid.merged

/-- No word is in two rules, no word rule is without words, and no neighbours could be one rule. -/
structure IsTidy (rules : RuleTable) : Prop where
  apart : rules.Pairwise fun rule rule' => ∀ w ∈ rule.wordList, w ∉ rule'.wordList
  nonempty : ∀ rule ∈ rules, rule.isVoid = false
  parted : rules.IsChain fun rule rule' => rule.mergeable rule' = false

end RuleTable

/-! ## The word at an offset -/

/-- The word that begins at `pos` in code up to `stop`, if one does. -/
def codeWord? (d : Delimiters) (t : Text) (pos stop : Nat) : Option (List Char) :=
  if t.sees stop d.isWord pos = true ∧ ¬ t.follows d.isWord pos = true then
    some (t.slice pos (t.runEnd d.isWord stop pos)).toList
  else none

/-- Whether a word begins at `pos` and is in a list. -/
def knows (d : Delimiters) (t : Text) (pos stop : Nat) (ws : List (List Char)) : Bool :=
  (codeWord? d t pos stop).any ws.contains

theorem knows_iff : knows d t pos stop ws = true ↔ t.sees stop d.isWord pos = true ∧
    ¬ t.follows d.isWord pos = true ∧ (t.slice pos (t.runEnd d.isWord stop pos)).toList ∈ ws := by
  unfold knows codeWord?
  split
  · next hword => rw [Option.any_some, List.contains_iff_mem, ← and_assoc, and_iff_right hword]
  · next hword => exact ⟨fun h => (Bool.false_ne_true h).elim, fun h => absurd ⟨h.1, h.2.1⟩ hword⟩

theorem knows_nil : knows d t pos stop [] = false :=
  Bool.eq_false_iff.mpr fun h => absurd (knows_iff.mp h).2.2 List.not_mem_nil

theorem knows_congr (h : ∀ w, w ∈ ws ↔ w ∈ ws') :
    knows d t pos stop ws = knows d t pos stop ws' := by
  rw [Bool.eq_iff_iff, knows_iff, knows_iff, h]

/-- The word at an offset is in two lists together if it is in one of them. -/
theorem knows_append : knows d t pos stop (ws ++ ws') =
    (knows d t pos stop ws || knows d t pos stop ws') := by
  rw [Bool.eq_iff_iff, Bool.or_eq_true, knows_iff, knows_iff, knows_iff, List.mem_append,
    and_or_left, and_or_left]

/-- Where the word at an offset is not in `seen`, a list may do without the words of `seen`. -/
theorem knows_filter (h : knows d t pos stop seen = false) :
    knows d t pos stop (ws.filter fun w => !seen.contains w) = knows d t pos stop ws := by
  rw [Bool.eq_iff_iff, knows_iff, knows_iff]
  refine and_congr_right fun hsees => and_congr_right fun hfollows => ?_
  rw [List.mem_filter]
  refine ⟨And.left, fun hmem => ⟨hmem, ?_⟩⟩
  rw [Bool.not_eq_true', Bool.eq_false_iff]
  intro hseen
  rw [knows_iff.mpr ⟨hsees, hfollows, List.contains_iff_mem.mp hseen⟩] at h
  cases h

section

variable (hpos : pos < stop) (hstop : stop ≤ t.size)

include hpos hstop

/-- A word rule in front claims the word at the offset if it has it, and else leaves the offset to
the other rules. -/
theorem firstClaim?_words : firstClaim? d t pos stop (.words name category ws :: rules) =
    if knows d t pos stop ws then .ok (some ⟨pos, t.runEnd d.isWord stop pos, category⟩)
    else firstClaim? d t pos stop rules := by
  have hclaim : wordClaim? d ws t pos stop = _ := wordClaim?_eq hpos hstop
  cases hknows : knows d t pos stop ws with
  | true =>
    rw [if_pos (knows_iff.mp hknows)] at hclaim
    exact firstClaim?_cons_of_some hclaim
  | false =>
    rw [if_neg fun h => Bool.false_ne_true (hknows.symm.trans (knows_iff.mpr h))] at hclaim
    exact firstClaim?_cons_of_none hclaim

/-! ## The first claim -/

theorem firstClaim?_unshadowed (h : knows d t pos stop seen = false) :
    firstClaim? d t pos stop (rules.unshadowed seen) = firstClaim? d t pos stop rules := by
  -- no word in `seen` is the one at the offset, since a rule that had it would have claimed it
  induction rules generalizing seen with
  | nil => rfl
  | cons rule rules ih =>
    cases rule with
    | words name category ws =>
      rw [RuleTable.unshadowed, firstClaim?_words hpos hstop, firstClaim?_words hpos hstop,
        knows_filter h]
      cases hknows : knows d t pos stop ws with
      | true => rfl
      | false =>
        have hlater : knows d t pos stop (seen ++ ws) = false := by
          rw [knows_append, h, hknows, Bool.or_false]
        exact ih hlater
    | shape name category regex group =>
      simp only [RuleTable.unshadowed, firstClaim?, ih h]

theorem firstClaim?_withoutVoid :
    firstClaim? d t pos stop rules.withoutVoid = firstClaim? d t pos stop rules := by
  refine (firstClaim?_filter _ fun rule _ hvoid => ?_).symm
  cases rule with
  | words name category ws =>
    obtain rfl : ws = [] := List.isEmpty_iff.mp ((Bool.not_eq_false' _).mp hvoid)
    have hclaim : wordClaim? d [] t pos stop = _ := wordClaim?_eq hpos hstop
    rwa [if_neg fun h => absurd h.2.2 List.not_mem_nil] at hclaim
  | shape name category regex group => cases hvoid

theorem firstClaim?_consMerged : firstClaim? d t pos stop (RuleTable.consMerged rule rules) =
    firstClaim? d t pos stop (rule :: rules) := by
  unfold RuleTable.consMerged
  split
  · next name category ws name' category' ws' rules =>
    split
    · next hsame =>
      have hunion : knows d t pos stop (WordClass.sortWords (ws ++ ws')) =
          knows d t pos stop (ws ++ ws') := knows_congr fun w => WordClass.mem_sortWords
      rw [firstClaim?_words hpos hstop, firstClaim?_words hpos hstop,
        firstClaim?_words hpos hstop, hunion, knows_append, hsame]
      cases knows d t pos stop ws with
      | true => rfl
      | false => rfl
    · rfl
  · rfl

theorem firstClaim?_merged :
    firstClaim? d t pos stop rules.merged = firstClaim? d t pos stop rules := by
  induction rules with
  | nil => rfl
  | cons rule rules ih =>
    have hcons : RuleTable.merged (rule :: rules) = RuleTable.consMerged rule
      (RuleTable.merged rules) := rfl
    rw [hcons, firstClaim?_consMerged hpos hstop, firstClaim?, firstClaim?, ih]

/-- A tidied table has the same first claim. -/
theorem firstClaim?_tidied :
    firstClaim? d t pos stop rules.tidied = firstClaim? d t pos stop rules := by
  rw [RuleTable.tidied, firstClaim?_merged hpos hstop, firstClaim?_withoutVoid hpos hstop,
    firstClaim?_unshadowed hpos hstop knows_nil]

end

/-! ## The loops -/

/-- The scan of code asks a table for nothing but its first claims. -/
theorem codeSpans_congr {rules' : RuleTable} {steps : Nat}
    (h : ∀ pos, pos < stop → firstClaim? d t pos stop rules = firstClaim? d t pos stop rules') :
    codeSpans rules d t stop steps pos = codeSpans rules' d t stop steps pos := by
  induction steps generalizing pos with
  | zero => rfl
  | succ steps ih =>
    unfold codeSpans
    split
    · next hpos => simp only [h pos hpos, ih]
    · rfl

theorem spansFrom_congr {rules' : RuleTable} {steps : Nat} (hstop : stop ≤ t.size)
    (h : ∀ pos stop, pos < stop → stop ≤ t.size →
      firstClaim? d t pos stop rules = firstClaim? d t pos stop rules') :
    spansFrom rules d t stop steps pos = spansFrom rules' d t stop steps pos := by
  have hcode : ∀ opening pos steps, codeSpans rules d t (min opening stop) steps pos =
      codeSpans rules' d t (min opening stop) steps pos := fun opening _ _ =>
    codeSpans_congr fun pos hpos => h pos _ hpos (Nat.le_trans (Nat.min_le_right _ _) hstop)
  induction steps generalizing pos with
  | zero => rfl
  | succ steps ih =>
    unfold spansFrom
    simp only [hcode, ih]

/-- Tables with the same first claims at every offset of code classify a text alike. -/
theorem classify_congr {rules' : RuleTable} {region : Option Region}
    (h : ∀ pos stop, pos < stop → stop ≤ t.size →
      firstClaim? d t pos stop rules = firstClaim? d t pos stop rules') :
    classify rules d t region = classify rules' d t region := by
  unfold classify classifyWithin
  simp only [spansFrom_congr (Region.bounds_snd_le region t.size) h]

/-! ## Tidied tables are tidy -/

namespace RuleTable

/-- An unshadowed word is not among the words seen before. -/
theorem not_mem_seen_of_unshadowed :
    ∀ rule ∈ rules.unshadowed seen, ∀ w ∈ rule.wordList, w ∉ seen := by
  induction rules generalizing seen with
  | nil => exact fun rule hrule => absurd hrule List.not_mem_nil
  | cons front rules ih =>
    cases front with
    | words name category ws =>
      intro rule hrule w hw
      rcases List.mem_cons.mp hrule with rfl | hrule
      · have hkept := (List.mem_filter.mp hw).2
        simpa only [Bool.not_eq_true', List.contains_eq_mem, decide_eq_false_iff_not] using hkept
      · exact fun hseen => ih rule hrule w hw (List.mem_append_left ws hseen)
    | shape name category regex group =>
      intro rule hrule w hw
      rcases List.mem_cons.mp hrule with rfl | hrule
      · exact absurd hw List.not_mem_nil
      · exact ih rule hrule w hw

/-- No two rules have an unshadowed word in common. -/
theorem apart_unshadowed : (rules.unshadowed seen).Pairwise
    fun rule rule' => ∀ w ∈ rule.wordList, w ∉ rule'.wordList := by
  induction rules generalizing seen with
  | nil => exact .nil
  | cons front rules ih =>
    cases front with
    | words name category ws =>
      refine List.pairwise_cons.mpr ⟨fun rule hrule w hw hw' => ?_, ih⟩
      have hfirst : w ∈ ws := (List.mem_filter.mp hw).1
      exact not_mem_seen_of_unshadowed rule hrule w hw' (List.mem_append_right seen hfirst)
    | shape name category regex group =>
      exact List.pairwise_cons.mpr ⟨fun _ _ w hw => absurd hw List.not_mem_nil, ih⟩

/-- A word of a merged table is one of the table. -/
theorem exists_of_mem_merged :
    ∀ rule ∈ rules.merged, ∀ w ∈ rule.wordList, ∃ rule' ∈ rules, w ∈ rule'.wordList := by
  induction rules with
  | nil => exact fun rule hrule => absurd hrule List.not_mem_nil
  | cons front rules ih =>
    intro rule hrule w hw
    have hcons : rule ∈ consMerged front (merged rules) := hrule
    have hlater : ∀ rule ∈ merged rules, w ∈ rule.wordList →
        ∃ rule' ∈ front :: rules, w ∈ rule'.wordList := fun rule hrule hw =>
      (ih rule hrule w hw).imp fun _ h => ⟨List.mem_cons_of_mem _ h.1, h.2⟩
    unfold consMerged at hcons
    split at hcons
    · next name category ws name' category' ws' rest heq =>
      split at hcons
      · rcases List.mem_cons.mp hcons with rfl | hrest
        · rcases List.mem_append.mp (WordClass.mem_sortWords.mp hw) with hw | hw
          · exact ⟨_, List.mem_cons_self, hw⟩
          · have hmerged : Rule.words name' category' ws' ∈ merged rules :=
              heq ▸ List.mem_cons_self
            exact hlater _ hmerged hw
        · exact hlater rule (heq ▸ List.mem_cons_of_mem _ hrest) hw
      · rcases List.mem_cons.mp hcons with rfl | hrest
        · exact ⟨_, List.mem_cons_self, hw⟩
        · exact hlater rule (heq ▸ hrest) hw
    · rcases List.mem_cons.mp hcons with rfl | hrest
      · exact ⟨_, List.mem_cons_self, hw⟩
      · exact hlater rule hrest hw

/-- A rule with words of its own in front of a tidy table makes a tidy table. -/
theorem IsTidy.consMerged (h : IsTidy rules) (hrule : rule.isVoid = false)
    (hown : ∀ rule' ∈ rules, ∀ w ∈ rule.wordList, w ∉ rule'.wordList) :
    IsTidy (RuleTable.consMerged rule rules) := by
  have hcons (hparted : ∀ follower ∈ rules.head?, rule.mergeable follower = false) :
      IsTidy (rule :: rules) :=
    ⟨List.pairwise_cons.mpr ⟨hown, h.apart⟩, List.forall_mem_cons.mpr ⟨hrule, h.nonempty⟩,
      List.isChain_cons.mpr ⟨hparted, h.parted⟩⟩
  unfold RuleTable.consMerged
  split
  · next name category ws name' category' ws' rest =>
    obtain ⟨hapart, hrest⟩ := List.pairwise_cons.mp h.apart
    obtain ⟨hnonempty, hvoid⟩ := List.forall_mem_cons.mp h.nonempty
    obtain ⟨hparted, hchain⟩ := List.isChain_cons.mp h.parted
    split
    · next hsame =>
      refine ⟨List.pairwise_cons.mpr ⟨fun rule' hrule' w hw => ?_, hrest⟩,
        List.forall_mem_cons.mpr ⟨?_, hvoid⟩,
        List.isChain_cons.mpr ⟨fun follower hfollower => ?_, hchain⟩⟩
      · rcases List.mem_append.mp (WordClass.mem_sortWords.mp hw) with hw | hw
        · exact hown rule' (List.mem_cons_of_mem _ hrule') w hw
        · exact hapart rule' hrule' w hw
      · -- the words of the second rule are still there
        obtain ⟨w, hw⟩ := List.exists_mem_of_ne_nil ws' (List.isEmpty_eq_false_iff.mp hnonempty)
        have hmem := WordClass.mem_sortWords.mpr (List.mem_append_right ws hw)
        exact List.isEmpty_eq_false_iff.mpr (List.ne_nil_of_mem hmem)
      · have hdiffer := hparted follower hfollower
        cases follower with
        | words name category ws => rwa [Rule.mergeable, hsame]
        | shape name category regex group => rfl
    · next hdiffer =>
      refine hcons fun follower hfollower => ?_
      cases hfollower
      exact beq_eq_false_iff_ne.mpr hdiffer
  · next hnot =>
    refine hcons fun follower hfollower => ?_
    cases rule with
    | shape name category regex group => rfl
    | words name category ws =>
      cases rules with
      | nil => cases hfollower
      | cons front rest =>
        cases hfollower
        cases follower with
        | shape name' category' regex group => rfl
        | words name' category' ws' => exact (hnot _ _ _ _ _ _ _ rfl rfl).elim

/-- Rules that have words of their own, and not none, merge into a tidy table. -/
theorem isTidy_merged (hvoid : ∀ rule ∈ rules, rule.isVoid = false)
    (hapart : rules.Pairwise fun rule rule' => ∀ w ∈ rule.wordList, w ∉ rule'.wordList) :
    rules.merged.IsTidy := by
  induction rules with
  | nil => exact ⟨.nil, List.forall_mem_nil _, .nil⟩
  | cons rule rules ih =>
    obtain ⟨hrule, hvoid⟩ := List.forall_mem_cons.mp hvoid
    obtain ⟨hown, hapart⟩ := List.pairwise_cons.mp hapart
    refine (ih hvoid hapart).consMerged hrule fun rule' hrule' w hw hw' => ?_
    obtain ⟨source, hsource, hmem⟩ := exists_of_mem_merged rule' hrule' w hw'
    exact hown source hsource w hw hmem

theorem isTidy_tidied (rules : RuleTable) : rules.tidied.IsTidy :=
  isTidy_merged (fun _ hrule => (Bool.not_eq_true' _).mp (List.mem_filter.mp hrule).2)
    (apart_unshadowed.filter _)

end RuleTable

end VSyntax
