import Mathlib.Data.List.Sort
import VSyntax.Job
import VSyntax.Proofs.Fields
import VSyntax.Proofs.Refusal
import VSyntax.Proofs.Standard.Table

/-!
# Settled keyword sets

What becomes of the keyword sets of a run: a set has the words that the configuration file gives it,
or the standard words, and behind them the words that the keyword flags add, each once and in the
order in which the flags first name it (`Job.settle_vocabulary`).

Before the tables are built, the order of the flags can be seen in the vocabulary. The tables do not
show it. The words of a class are put in increasing order, so two lists with the same members make
the same class, or both are refused (`WordClass.define_congr`), and the same holds of vocabularies
and their rules (`Vocabulary.rules_congr`).
-/
namespace VSyntax

/-! ## Traversals -/

/-- A traversal succeeds, or it fails as it does at one of the items. -/
theorem mapM_cases {α β ε : Type} (f : α → Except ε β) (xs : List α) :
    (∃ ys, xs.mapM f = .ok ys) ∨ ∃ x ∈ xs, ∃ e, f x = .error e ∧ xs.mapM f = .error e := by
  rcases exists_first (fun x => ∃ y, f x = .ok y) xs with hall | ⟨front, x, back, rfl, hfront, hx⟩
  · exact .inl (exists_mapM_eq_ok hall)
  · cases hfx : f x with
    | ok y => exact absurd ⟨y, hfx⟩ hx
    | error e =>
      exact .inr ⟨x, List.mem_append_right _ List.mem_cons_self, e, hfx, mapM_eq_error hfront hfx⟩

/-- A traversal that succeeds gives the answers to its items and no others. -/
theorem mem_of_mapM_eq_ok {α β ε : Type} {f : α → Except ε β} {xs : List α} {ys : List β} {y : β}
    (h : xs.mapM f = .ok ys) : y ∈ ys ↔ ∃ x ∈ xs, f x = .ok y := by
  have hall := forall₂_of_mapM_eq_ok h
  constructor
  · exact exists_mem_of_forall₂ hall y
  · rintro ⟨x, hx, hfx⟩
    obtain ⟨y', hy', hfx'⟩ := exists_mem_of_forall₂ hall.flip x hx
    obtain rfl : y' = y := Except.ok.inj (hfx'.symm.trans hfx)
    exact hy'

/-- Two attempts come to the same, or the configuration is at fault in both. -/
def AgreeOrRefused {α : Type} (a b : Except Fault α) : Prop :=
  (∃ x, a = .ok x ∧ b = .ok x) ∨ ∃ f g, a = .error (.config f) ∧ b = .error (.config g)

/-- Traversals agree, or both are refused, if this is so at every item. -/
theorem AgreeOrRefused.mapM {α β : Type} {f g : α → Except Fault β}
    (h : ∀ x, AgreeOrRefused (f x) (g x)) (xs : List α) :
    AgreeOrRefused (xs.mapM f) (xs.mapM g) := by
  induction xs with
  | nil => exact .inl ⟨[], rfl, rfl⟩
  | cons x xs ih =>
    rw [List.mapM_cons, List.mapM_cons]
    rcases h x with ⟨y, hf, hg⟩ | ⟨c, c', hf, hg⟩
    · rw [hf, hg]
      rcases ih with ⟨ys, hfs, hgs⟩ | ⟨c, c', hfs, hgs⟩
      · exact .inl ⟨y :: ys, by rw [hfs]; rfl, by rw [hgs]; rfl⟩
      · exact .inr ⟨c, c', by rw [hfs]; rfl, by rw [hgs]; rfl⟩
    · exact .inr ⟨c, c', by rw [hf]; rfl, by rw [hg]; rfl⟩

/-! ## Words in increasing order -/

namespace WordClass

variable {w x : List Char} {ws ws' : List (List Char)} {es es' : List Datum} {name : String}
  {category : Category} {d : Datum}

theorem increasing_insertWord (h : ws.Pairwise (· < ·)) : (insertWord w ws).Pairwise (· < ·) := by
  induction ws with
  | nil => exact List.pairwise_singleton _ _
  | cons x xs ih =>
    obtain ⟨hx, hxs⟩ := List.pairwise_cons.mp h
    unfold insertWord
    split
    · next hlt =>
      refine List.pairwise_cons.mpr ⟨fun y hy => ?_, h⟩
      rcases List.mem_cons.mp hy with rfl | hy
      · exact hlt
      · exact List.lt_trans hlt (hx y hy)
    split
    · next hgt =>
      refine List.pairwise_cons.mpr ⟨fun y hy => ?_, ih hxs⟩
      rcases mem_insertWord.mp hy with rfl | hy
      · exact hgt
      · exact hx y hy
    · exact h

theorem increasing_sortWords (ws : List (List Char)) : (sortWords ws).Pairwise (· < ·) := by
  induction ws with
  | nil => exact List.Pairwise.nil
  | cons w ws ih => exact increasing_insertWord ih

/-- Lists with the same words are put in the same order. -/
theorem sortWords_congr (h : ∀ w, w ∈ ws ↔ w ∈ ws') : sortWords ws = sortWords ws' := by
  have : Std.Antisymm (α := List Char) (· < ·) :=
    ⟨fun _ _ hlt hgt => absurd hgt (List.lt_asymm hlt)⟩
  have : Std.Irrefl (α := List Char) (· < ·) := ⟨fun w => List.lt_irrefl w⟩
  apply (increasing_sortWords ws).eq_of_mem_iff (increasing_sortWords ws')
  intro w
  rw [mem_sortWords, mem_sortWords, h]

/-! ## Classes with the same entries -/

/-- What is wrong with a word is a fault of the configuration. -/
theorem config_of_checkWord {f : Fault} (h : checkWord name d = .error f) : ∃ c, f = .config c := by
  unfold checkWord at h
  split at h
  · split at h
    · exact ⟨_, (Except.error.inj h).symm⟩
    · split at h
      · cases h
      · exact ⟨_, (Except.error.inj h).symm⟩
  · exact ⟨_, (Except.error.inj h).symm⟩

/-- The class of a name and entries that are words. -/
theorem define_of_words (hname : name ≠ "") (h : es.mapM (checkWord name) = .ok ws) :
    define name es category =
      if ws = [] then .error (.config (.emptyClass name))
      else .ok ⟨name, sortWords ws, category⟩ := by
  rw [define, if_neg hname, h]
  rfl

/-- An entry that is no word refuses the class. -/
theorem define_of_unfit (category : Category) (hname : name ≠ "") (hd : d ∈ es) {f : Fault}
    (h : checkWord name d = .error f) : ∃ c, define name es category = .error (.config c) := by
  rcases mapM_cases (checkWord name) es with ⟨ws, hws⟩ | ⟨d', -, f', hcheck, hfail⟩
  · obtain ⟨w, -, hw⟩ := exists_mem_of_forall₂ (forall₂_of_mapM_eq_ok hws).flip d hd
    rw [h] at hw
    cases hw
  · obtain ⟨c, rfl⟩ := config_of_checkWord hcheck
    exact ⟨c, by rw [define, if_neg hname, hfail]; rfl⟩

/-- Entries with the same members make the same class, or are refused. -/
theorem define_congr (hname : name ≠ "") (category : Category) (h : ∀ d, d ∈ es ↔ d ∈ es') :
    AgreeOrRefused (define name es category) (define name es' category) := by
  have hunfit : ∀ d ∈ es, ∀ f, checkWord name d = .error f →
      AgreeOrRefused (define name es category) (define name es' category) := by
    intro d hd f hcheck
    obtain ⟨c, hc⟩ := define_of_unfit category hname hd hcheck
    obtain ⟨c', hc'⟩ := define_of_unfit category hname ((h d).mp hd) hcheck
    exact .inr ⟨c, c', hc, hc'⟩
  rcases mapM_cases (checkWord name) es with ⟨ws, hws⟩ | ⟨d, hd, f, hcheck, -⟩
  · rcases mapM_cases (checkWord name) es' with ⟨ws', hws'⟩ | ⟨d, hd, f, hcheck, -⟩
    · have hmem : ∀ w, w ∈ ws ↔ w ∈ ws' := by
        intro w
        simp only [mem_of_mapM_eq_ok hws, mem_of_mapM_eq_ok hws', h]
      have hnil : ws = [] ↔ ws' = [] := by
        simp only [List.eq_nil_iff_forall_not_mem, hmem]
      rw [define_of_words hname hws, define_of_words hname hws', sortWords_congr hmem]
      by_cases hempty : ws = []
      · rw [if_pos hempty, if_pos (hnil.mp hempty)]
        exact .inr ⟨_, _, rfl, rfl⟩
      · rw [if_neg hempty, if_neg (mt hnil.mpr hempty)]
        exact .inl ⟨_, rfl, rfl⟩
    · exact hunfit d ((h d).mpr hd) f hcheck
  · exact hunfit d hd f hcheck

end WordClass

/-! ## Vocabularies with the same words -/

theorem KeywordSet.name_ne_empty (s : KeywordSet) : s.name ≠ "" := by
  cases s <;> decide

namespace Vocabulary

variable {v v' : Vocabulary}

/-- Vocabularies whose sets have the same members make the same rules, or are refused. -/
theorem rules_congr (h : ∀ s d, d ∈ v.entries s ↔ d ∈ v'.entries s) :
    AgreeOrRefused v.rules v'.rules := by
  have hclasses : AgreeOrRefused v.classes v'.classes := by
    unfold classes
    exact .mapM (fun s => WordClass.define_congr s.name_ne_empty s.category (h s)) KeywordSet.all
  rcases hclasses with ⟨classes, hv, hv'⟩ | ⟨f, g, hv, hv'⟩
  · have hrules := v.rules_eq_table hv
    have hsame : v'.rules = v.rules := by
      rw [rules, rules, hv, hv']
    exact .inl ⟨_, hrules, hsame.trans hrules⟩
  · exact .inr ⟨f, g, by rw [rules, hv]; rfl, by rw [rules, hv']; rfl⟩

/-! ## Keyword tables -/

/-- The entry of a keyword table that gives a set its words. -/
def tableEntry (entry : KeywordSet × List String) : String × Datum :=
  (entry.1.name, .list (entry.2.map .text))

/-- The words that the entries of a keyword table give a set, the last entry if there are several;
without one, the standard words. -/
def tableWords (sets : List (KeywordSet × List String)) (s : KeywordSet) : List String :=
  (sets.reverse.lookup s).getD s.standardWords

theorem ofName?_name (s : KeywordSet) : KeywordSet.ofName? s.name = some s := by
  cases s <;> decide +kernel

theorem firstNonText?_texts (ws : List String) : firstNonText? (ws.map .text) = none := by
  rw [firstNonText?, List.find?_eq_none]
  intro d hd
  obtain ⟨w, -, rfl⟩ := List.mem_map.mp hd
  exact Bool.false_ne_true

theorem readEntry_tableEntry (entry : KeywordSet × List String) :
    readEntry (tableEntry entry) = .ok (entry.1, entry.2.map .text) := by
  simp only [readEntry, tableEntry, ofName?_name, firstNonText?_texts]

theorem entries_set_self (v : Vocabulary) (s : KeywordSet) (words : List Datum) :
    (v.set s words).entries s = words := if_pos rfl

theorem entries_set_of_ne {s s' : KeywordSet} (h : s ≠ s') (v : Vocabulary) (words : List Datum) :
    (v.set s' words).entries s = v.entries s := if_neg h

/-- Sets that are replaced one after the other have the words of the last replacement. -/
theorem entries_foldl_set (v : Vocabulary) (sets : List (KeywordSet × List String))
    (s : KeywordSet) :
    ((sets.map fun entry => (entry.1, entry.2.map Datum.text)).foldl
        (fun w change => w.set change.1 change.2) v).entries s =
      ((sets.reverse.lookup s).map fun ws => ws.map Datum.text).getD (v.entries s) := by
  induction sets generalizing v with
  | nil => rfl
  | cons entry sets ih =>
    obtain ⟨s', ws⟩ := entry
    rw [List.map_cons, List.foldl_cons, ih, List.reverse_cons, List.lookup_append]
    cases hlater : sets.reverse.lookup s with
    | some ws' => rfl
    | none =>
      by_cases hs : s = s'
      · subst hs
        rw [entries_set_self, List.lookup_cons, BEq.rfl]
        rfl
      · rw [entries_set_of_ne hs, List.lookup_cons, beq_false_of_ne hs]
        rfl

/-- A keyword table gives each set the words of its last entry, and leaves a set that it does not
name. -/
theorem exists_replace (v : Vocabulary) (sets : List (KeywordSet × List String)) :
    ∃ w, v.replace (sets.map tableEntry) = .ok w ∧ ∀ s, w.entries s =
      ((sets.reverse.lookup s).map fun ws => ws.map Datum.text).getD (v.entries s) := by
  have hread : (sets.map tableEntry).mapM readEntry =
      .ok (sets.map fun entry => (entry.1, entry.2.map Datum.text)) := by
    rw [List.mapM_map]
    exact mapM_eq_ok fun entry _ => readEntry_tableEntry entry
  exact ⟨_, by rw [replace, hread]; rfl, entries_foldl_set v sets⟩

/-! ## Keyword flags -/

/-- The value of a flag that adds a word to a set. -/
def flagValue (flag : KeywordSet × String) : List Char :=
  flag.1.name.toList ++ '=' :: flag.2.toList

/-- The words that flags add to a set, in the order of the flags. -/
def flagWords (flags : List (KeywordSet × String)) (s : KeywordSet) : List String :=
  flags.filterMap fun flag => if flag.1 = s then some flag.2 else none

/-- A list of words, and behind it those of other words that it lacks, each once and in the order of
first appearance. -/
def extended (base words : List String) : List String :=
  base ++ (words.filter (· ∉ base)).eraseDups

theorem mem_flagWords {flags : List (KeywordSet × String)} {s : KeywordSet} {w : String} :
    w ∈ flagWords flags s ↔ (s, w) ∈ flags := by
  rw [flagWords, List.mem_filterMap]
  constructor
  · rintro ⟨⟨s', w'⟩, hmem, hsome⟩
    split at hsome
    · next hs =>
      cases hs
      cases hsome
      exact hmem
    · cases hsome
  · intro hmem
    exact ⟨(s, w), hmem, if_pos rfl⟩

theorem flagWords_cons (flag : KeywordSet × String) (flags : List (KeywordSet × String))
    (s : KeywordSet) : flagWords (flag :: flags) s = flagWords [flag] s ++ flagWords flags s := by
  rw [flagWords, ← List.singleton_append, List.filterMap_append]
  rfl

theorem mem_extended {base words : List String} {w : String} :
    w ∈ extended base words ↔ w ∈ base ∨ w ∈ words := by
  rw [extended, List.mem_append, List.mem_eraseDups, List.mem_filter, decide_eq_true_eq]
  by_cases hw : w ∈ base
  · exact ⟨fun _ => .inl hw, fun _ => .inl hw⟩
  · exact or_congr_right ⟨And.left, fun hmem => ⟨hmem, hw⟩⟩

theorem extended_nil (base : List String) : extended base [] = base := List.append_nil base

/-- A list is extended by one word if it lacks it. -/
theorem extended_singleton (base : List String) (w : String) :
    extended base [w] = if w ∈ base then base else base ++ [w] := by
  by_cases hw : w ∈ base
  · rw [if_pos hw, extended, List.filter_cons_of_neg (by simpa using hw)]
    exact List.append_nil base
  · rw [if_neg hw, extended, List.filter_cons_of_pos (by simpa using hw)]
    rfl

theorem extended_cons (base : List String) (w : String) (words : List String) :
    extended base (w :: words) = extended (extended base [w]) words := by
  rw [extended_singleton]
  by_cases hw : w ∈ base
  · rw [if_pos hw, extended, extended, List.filter_cons_of_neg (by simpa using hw)]
  · have hmore : words.filter (· ∉ base ++ [w]) =
        (words.filter (· ∉ base)).filter fun x => !x == w := by
      rw [List.filter_filter]
      apply List.filter_congr
      intro x _
      by_cases hx : x = w <;> simp [hx]
    rw [if_neg hw, extended, extended, List.filter_cons_of_pos (by simpa using hw),
      List.eraseDups_cons, hmore, List.append_assoc, List.singleton_append]

/-- To extend by words and then by others is to extend by all of them. -/
theorem extended_append (base words more : List String) :
    extended base (words ++ more) = extended (extended base words) more := by
  induction words generalizing base with
  | nil => rw [List.nil_append, extended_nil]
  | cons w words ih => rw [List.cons_append, extended_cons, ih, ← extended_cons]

variable {v : Vocabulary} {s : KeywordSet} {base : KeywordSet → List String}

theorem any_same_texts (base : List String) (w : String) :
    (base.map Datum.text).any (Datum.same (.text w)) = decide (w ∈ base) := by
  rw [List.any_map, Bool.eq_iff_iff, List.any_eq_true, decide_eq_true_eq]
  constructor
  · rintro ⟨x, hx, hsame⟩
    simp only [Function.comp_apply, Datum.same, beq_iff_eq] at hsame
    exact hsame ▸ hx
  · intro hw
    exact ⟨w, hw, by simp only [Function.comp_apply, Datum.same, BEq.rfl]⟩

/-- A flag gives its set the word, unless the set has it, and leaves the other sets. -/
theorem entries_append (hv : ∀ s, v.entries s = (base s).map .text) (flag : KeywordSet × String)
    (s : KeywordSet) : (v.append flag.1 [.text flag.2]).entries s =
      (extended (base s) (flagWords [flag] s)).map .text := by
  obtain ⟨s', w⟩ := flag
  by_cases hs : s = s'
  · subst hs
    have hword : flagWords [(s, w)] s = [w] := by
      simp only [flagWords, List.filterMap_cons, List.filterMap_nil, if_true]
    rw [hword, extended_singleton, append, entries_set_self, hv, List.filter_singleton,
      any_same_texts]
    by_cases hw : w ∈ base s <;> simp [hw]
  · have hnone : flagWords [(s', w)] s = [] := by
      simp only [flagWords, List.filterMap_cons, List.filterMap_nil, if_neg (Ne.symm hs)]
    rw [hnone, extended_nil, append, entries_set_of_ne hs, hv]

end Vocabulary

/-! ## Settling -/

/-- A configuration holds these keyword sets, or none. -/
inductive HoldsSets (table : List (String × Datum)) : List (KeywordSet × List String) → Prop where
  | none (h : table.lookup "keywords" = .none) : HoldsSets table []
  | some {sets : List (KeywordSet × List String)}
      (h : table.lookup "keywords" = .some (.table (sets.map Vocabulary.tableEntry))) :
      HoldsSets table sets

namespace Job

variable {platform : Platform} {view : FileView} {args : CommandLine.Arguments}
  {table : List (String × Datum)} {sets : List (KeywordSet × List String)}
  {flags : List (KeywordSet × String)}

/-- A configuration gives each set its words, or leaves it the standard ones. -/
theorem exists_configVocabulary (h : HoldsSets table sets) : ∃ v, configVocabulary table = .ok v ∧
    ∀ s, v.entries s = (Vocabulary.tableWords sets s).map .text := by
  cases h with
  | none h => exact ⟨.standard, by rw [configVocabulary, h], fun s => rfl⟩
  | some h =>
    obtain ⟨v, hv, hentries⟩ := Vocabulary.exists_replace .standard sets
    refine ⟨v, by rw [configVocabulary, h]; exact hv, fun s => ?_⟩
    rw [hentries, Vocabulary.tableWords]
    cases sets.reverse.lookup s <;> rfl

theorem equals_not_mem_name (s : KeywordSet) : '=' ∉ s.name.toList := by
  cases s <;> decide +kernel

/-- A flag with the name of a set extends that set. -/
theorem addKeyword_flagValue (v : Vocabulary) (flag : KeywordSet × String) :
    addKeyword v (Vocabulary.flagValue flag) = .ok (v.append flag.1 [.text flag.2]) := by
  have hparts : CommandLine.readKeyword (Vocabulary.flagValue flag) =
      .ok (flag.1.name.toList, flag.2.toList) := by
    rw [CommandLine.readKeyword, Vocabulary.flagValue,
      CommandLine.splitAt?_append (equals_not_mem_name flag.1)]
  simp only [addKeyword, hparts, Vocabulary.extend, String.ofList_toList, Vocabulary.ofName?_name,
    Datum.items?]

/-- Flags extend each set by the words that they name for it. -/
theorem exists_addKeywords {v : Vocabulary} {base : KeywordSet → List String}
    (hv : ∀ s, v.entries s = (base s).map .text) (flags : List (KeywordSet × String)) :
    ∃ w, addKeywords v (flags.map Vocabulary.flagValue) = .ok w ∧ ∀ s, w.entries s =
      (Vocabulary.extended (base s) (Vocabulary.flagWords flags s)).map .text := by
  induction flags generalizing v base with
  | nil =>
    refine ⟨v, rfl, fun s => ?_⟩
    rw [hv, Vocabulary.flagWords, List.filterMap_nil, Vocabulary.extended_nil]
  | cons flag flags ih =>
    obtain ⟨w, hw, hentries⟩ := ih (Vocabulary.entries_append hv flag)
    refine ⟨w, ?_, fun s => ?_⟩
    · rw [List.map_cons, addKeywords, List.foldlM_cons, addKeyword_flagValue]
      exact hw
    · rw [hentries, Vocabulary.flagWords_cons flag flags, Vocabulary.extended_append]

/-- A configuration and flags settle each set to its words, extended by those of the flags. -/
theorem exists_vocabularyOf (h : HoldsSets table sets) (flags : List (KeywordSet × String)) :
    ∃ v, vocabularyOf platform table (flags.map Vocabulary.flagValue) = .ok v ∧ ∀ s, v.entries s =
      (Vocabulary.extended (Vocabulary.tableWords sets s) (Vocabulary.flagWords flags s)).map
        .text := by
  obtain ⟨standard, hstandard, hentries⟩ := exists_configVocabulary h
  obtain ⟨v, hv, hwords⟩ := exists_addKeywords hentries flags
  exact ⟨v, by rw [vocabularyOf, hstandard]; exact hv, hwords⟩

/-- A run settles on a job once its steps succeed. -/
theorem settle_eq_ok (args : CommandLine.Arguments) {v : Vocabulary} {region : Option Region}
    (hconfig : readConfig platform view (configPath args) = .ok table)
    (hv : vocabularyOf platform table args.keywords = .ok v)
    (hregion : regionOf args.region = .ok region) :
    settle platform view args = .ok {
      input := .ofChars args.input
      output := (given args.output).map .ofChars
      format := args.format
      region := region
      outline := args.outline
      vocabulary := v
      debug := args.debug
      verbose := args.verbose } := by
  simp only [settle, hconfig, hv, hregion]

/-- **A run settles its keyword sets set by set.** If the configuration file can be read and gives
keyword sets of known names or none, and the keyword flags name known sets, whatever their words,
then the run settles on a job, unless its region is malformed. Each set has the words of the
configuration, or the standard ones, and behind them the words that the flags add and that are not
among them, each once and in the order of first appearance. Flags in another order, or repeated,
settle on a job with the same rule table, or both vocabularies are refused. -/
theorem settle_vocabulary {region : Option Region}
    (hconfig : readConfig platform view (configPath args) = .ok table)
    (hsets : HoldsSets table sets) (hflags : args.keywords = flags.map Vocabulary.flagValue)
    (hregion : regionOf args.region = .ok region) :
    ∃ job, settle platform view args = .ok job ∧
      (∀ s, job.vocabulary.entries s =
        (Vocabulary.extended (Vocabulary.tableWords sets s) (Vocabulary.flagWords flags s)).map
          .text) ∧
      ∀ flags' : List (KeywordSet × String), (∀ flag, flag ∈ flags' ↔ flag ∈ flags) →
        ∃ job', settle platform view { args with keywords := flags'.map Vocabulary.flagValue } =
            .ok job' ∧
          AgreeOrRefused job.vocabulary.rules job'.vocabulary.rules := by
  have hsettle : ∀ flags' : List (KeywordSet × String), ∃ job,
      settle platform view { args with keywords := flags'.map Vocabulary.flagValue } = .ok job ∧
        ∀ s, job.vocabulary.entries s = (Vocabulary.extended (Vocabulary.tableWords sets s)
          (Vocabulary.flagWords flags' s)).map .text := by
    intro flags'
    obtain ⟨v, hv, hwords⟩ := exists_vocabularyOf hsets flags'
    exact ⟨_, settle_eq_ok { args with keywords := flags'.map Vocabulary.flagValue }
      hconfig hv hregion, hwords⟩
  obtain ⟨job, hjob, hwords⟩ := hsettle flags
  have hsame : { args with keywords := flags.map Vocabulary.flagValue } = args := by rw [← hflags]
  rw [hsame] at hjob
  refine ⟨job, hjob, hwords, fun flags' hmem => ?_⟩
  obtain ⟨job', hjob', hwords'⟩ := hsettle flags'
  refine ⟨job', hjob', Vocabulary.rules_congr fun s d => ?_⟩
  rw [hwords, hwords', List.mem_map, List.mem_map]
  simp only [Vocabulary.mem_extended, Vocabulary.mem_flagWords, hmem]

/-- Files of which each holds one keyword set. -/
def configuredView : FileView where
  find _ := .ok (.file ("[keywords]\nconstants = [\"yes\"]\n".toList.map
    fun c => c.toNat.toUInt8) 1)
  writeError? _ := none

/-- A command line with a repeated flag, one with a word that its set has, and one with an equals
sign in its word. -/
def extendingArguments : CommandLine.Arguments :=
  { CommandLine.Arguments.initial "main.v".toList with
    keywords := ["constants=no", "keywords=a=b", "constants=yes", "constants=no"].map
      String.toList }

/-- The names of a table with one set of one word, and the word. -/
def soleWord? : Except RunFault (List (String × Datum)) → Option (String × String × String)
  | .ok [(name, .table [(set, .list [.text word])])] => some (name, set, word)
  | _ => none

theorem eq_of_soleWord? {asked : Except RunFault (List (String × Datum))} {name set word : String}
    (h : soleWord? asked = some (name, set, word)) :
    asked = .ok [(name, .table [(set, .list [.text word])])] := by
  unfold soleWord? at h
  split at h
  · cases h
    rfl
  · cases h

/-- The theorem holds of a configuration with one set, for two sets and flags in another order. -/
theorem settle_vocabulary_constants :
    readConfig .standard configuredView (configPath extendingArguments) =
        .ok [("keywords", .table [("constants", .list [.text "yes"])])] ∧
      HoldsSets [("keywords", .table [("constants", .list [.text "yes"])])]
        [(.constants, ["yes"])] ∧
      extendingArguments.keywords = [(.constants, "no"), (.keywords, "a=b"), (.constants, "yes"),
        (.constants, "no")].map Vocabulary.flagValue ∧
      regionOf extendingArguments.region = .ok none ∧
      ∃ job, settle .standard configuredView extendingArguments = .ok job ∧
        job.vocabulary.entries .constants = [.text "yes", .text "no"] ∧
        job.vocabulary.entries .careful = KeywordSet.careful.standardWords.map .text ∧
        ∃ job', settle .standard configuredView { extendingArguments with
            keywords := [(.keywords, "a=b"), (.constants, "yes"), (.constants, "no")].map
              Vocabulary.flagValue } = .ok job' ∧
          AgreeOrRefused job.vocabulary.rules job'.vocabulary.rules := by
  have hmem : ∀ flag, flag ∈ [(KeywordSet.keywords, "a=b"), (.constants, "yes"),
      (.constants, "no")] ↔ flag ∈ [(.constants, "no"), (.keywords, "a=b"), (.constants, "yes"),
        (.constants, "no")] := by
    intro flag
    simp only [List.mem_cons, List.not_mem_nil]
    tauto
  have hconfig : readConfig .standard configuredView (configPath extendingArguments) =
      .ok [("keywords", .table [("constants", .list [.text "yes"])])] :=
    eq_of_soleWord? (by decide +kernel)
  have hsets : HoldsSets [("keywords", .table [("constants", .list [.text "yes"])])]
      [(.constants, ["yes"])] := by
    refine .some ?_
    rw [List.lookup_cons, BEq.rfl]
    rfl
  have hflags : extendingArguments.keywords = [(.constants, "no"), (.keywords, "a=b"),
      (.constants, "yes"), (.constants, "no")].map Vocabulary.flagValue := by
    decide +kernel
  have hregion : regionOf extendingArguments.region = .ok none := rfl
  obtain ⟨job, hjob, hwords, hrules⟩ := settle_vocabulary hconfig hsets hflags hregion
  obtain ⟨job', hjob', hagree⟩ := hrules [(.keywords, "a=b"), (.constants, "yes"),
    (.constants, "no")] hmem
  have hconstants : Vocabulary.extended
      (Vocabulary.tableWords [(.constants, ["yes"])] .constants) (Vocabulary.flagWords
        [(.constants, "no"), (.keywords, "a=b"), (.constants, "yes"), (.constants, "no")]
        .constants) = ["yes", "no"] := by
    decide +kernel
  have hcareful : Vocabulary.extended
      (Vocabulary.tableWords [(.constants, ["yes"])] .careful) (Vocabulary.flagWords
        [(.constants, "no"), (.keywords, "a=b"), (.constants, "yes"), (.constants, "no")]
        .careful) = KeywordSet.careful.standardWords := by
    decide +kernel
  refine ⟨hconfig, hsets, hflags, hregion, job, hjob, ?_, ?_, job', hjob', hagree⟩
  · rw [hwords, hconstants]
    rfl
  · rw [hwords, hcareful]

end Job

end VSyntax
