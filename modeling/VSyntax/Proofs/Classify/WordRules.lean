import VSyntax.Proofs.Regex.Reading
import VSyntax.Proofs.Classify.Account
import VSyntax.Proofs.Classify.Tidying

/-!
# Tables of words

What a rule table without shapes leaves of a text, whatever the marks of comments and strings: its
comments and strings, and in each stretch of code between them the whole words that the table has
(`classify_wordRules`). A word is cut off where the code ends, but not where it begins: what follows
a word character is no word.

At an offset such a table claims the word that begins there, if it has it, and nothing else
(`firstClaim?_wordRules_iff`). A scan that tries every offset of a word that it does not have finds
no word inside it, since a word character stands in front.
-/
namespace VSyntax

variable {rule : Rule} {rules : RuleTable} {d : Delimiters} {t : Text} {a b i j pos stop e : Nat}
  {s : Span} {l regions : List Span}

/-! ## Words of a table -/

/-- Whether a rule is a word rule. -/
def Rule.isWords : Rule → Bool
  | .words _ _ _ => true
  | .shape _ _ _ _ => false

/-- A word rule captures nothing. -/
theorem capturesBehind_of_isWords (hw : ∀ rule ∈ rules, rule.isWords = true) :
    ∀ rule ∈ rules, rule.capturesBehind = false := by
  intro rule hrule
  cases rule with
  | words name category ws => rfl
  | shape name category regex group => cases hw _ hrule

/-- The category of a word: that of the first rule that has it. -/
def RuleTable.categoryOf? (rules : RuleTable) (w : List Char) : Option Category :=
  (rules.find? fun rule => rule.wordList.contains w).map Rule.category

/-- In code from `a` up to `b` the text from `i` up to `j` is a whole run of word characters, and
none stands in front of it in the text. -/
structure Delimiters.WholeWord (d : Delimiters) (t : Text) (a b i j : Nat) : Prop where
  start_le : a ≤ i
  lt : i < j
  le_stop : j ≤ b
  word : t.Spelled d.isWord i j
  starts : ¬ t.follows d.isWord i = true
  ends : j = b ∨ ¬ t.Has d.isWord j

theorem RuleTable.categoryOf?_cons (w : List Char) : categoryOf? (rule :: rules) w =
    if rule.wordList.contains w then some rule.category else rules.categoryOf? w := by
  unfold categoryOf?
  rw [List.find?_cons]
  cases rule.wordList.contains w with
  | true => rfl
  | false => rfl

/-- The word at an offset is the whole word that begins there. -/
theorem codeWord?_eq_some_iff {w : List Char} (hpos : pos < stop) :
    codeWord? d t pos stop = some w ↔
      d.WholeWord t pos stop pos (t.runEnd d.isWord stop pos) ∧
        w = (t.slice pos (t.runEnd d.isWord stop pos)).toList := by
  have hend : t.runEnd d.isWord stop pos ≤ stop := Text.runEnd_le (Nat.le_of_lt hpos)
  unfold codeWord?
  constructor
  · intro h
    split at h
    · next hbegins =>
      cases h
      refine ⟨⟨Nat.le_refl _, Text.lt_runEnd hbegins.1, hend, fun x hx hlt => Text.has_of_sees
        (Text.sees_of_lt_runEnd hx hlt), hbegins.2, ?_⟩, rfl⟩
      rcases Nat.eq_or_lt_of_le hend with heq | hlt
      · exact .inl heq
      · exact .inr fun hhas => Text.not_sees_runEnd (Text.sees_iff.mpr ⟨hlt, hhas⟩)
    · cases h
  · rintro ⟨hword, rfl⟩
    exact if_pos ⟨Text.sees_iff.mpr ⟨hpos, hword.word pos (Nat.le_refl _) hword.lt⟩, hword.starts⟩

/-- A whole word ends where its run of word characters does. -/
theorem Delimiters.WholeWord.runEnd_eq (h : d.WholeWord t a b i j) :
    t.runEnd d.isWord b i = j := by
  refine Text.runEnd_eq (Nat.le_of_lt h.lt) (fun x hx hlt => ?_) fun hsees => ?_
  · exact Text.sees_iff.mpr ⟨Nat.lt_of_lt_of_le hlt h.le_stop, h.word x hx hlt⟩
  · rcases h.ends with rfl | hends
    · exact absurd (Text.lt_of_sees hsees) (Nat.lt_irrefl _)
    · exact hends (Text.has_of_sees hsees)

/-! ## Claims -/

/-- The first claim of a table of words is the word at the offset, in the category that it has. -/
theorem firstClaim?_wordRules (hw : ∀ rule ∈ rules, rule.isWords = true) (hpos : pos < stop)
    (hstop : stop ≤ t.size) :
    firstClaim? d t pos stop rules = .ok ((codeWord? d t pos stop).bind fun w =>
      (rules.categoryOf? w).map (Span.mk pos (t.runEnd d.isWord stop pos))) := by
  induction rules with
  | nil =>
    cases codeWord? d t pos stop with
    | none => rfl
    | some w => rfl
  | cons rule rules ih =>
    have hrest := ih fun r hr => hw r (List.mem_cons_of_mem _ hr)
    cases rule with
    | shape name category regex group => cases hw _ List.mem_cons_self
    | words name category ws =>
      rw [firstClaim?_words hpos hstop, hrest, knows]
      cases codeWord? d t pos stop with
      | none => rfl
      | some w =>
        rw [Option.any_some, Option.bind_some, Option.bind_some, RuleTable.categoryOf?_cons,
          Rule.wordList]
        cases ws.contains w with
        | true => rfl
        | false => rfl

/-- What a table of words claims is the whole word at the offset, in its category. -/
theorem firstClaim?_wordRules_iff (hw : ∀ rule ∈ rules, rule.isWords = true) (hpos : pos < stop)
    (hstop : stop ≤ t.size) :
    firstClaim? d t pos stop rules = .ok (some s) ↔
      s.start = pos ∧ d.WholeWord t pos stop pos s.stop ∧
        rules.categoryOf? (t.slice pos s.stop).toList = some s.category := by
  rw [firstClaim?_wordRules hw hpos hstop, Except.ok.injEq, Option.bind_eq_some_iff]
  constructor
  · rintro ⟨w, hword, hmap⟩
    obtain ⟨hwhole, rfl⟩ := (codeWord?_eq_some_iff hpos).mp hword
    obtain ⟨category, hcategory, rfl⟩ := Option.map_eq_some_iff.mp hmap
    exact ⟨rfl, hwhole, hcategory⟩
  · obtain ⟨start, last, category⟩ := s
    rintro ⟨rfl, hwhole, hcategory⟩
    refine ⟨_, (codeWord?_eq_some_iff hpos).mpr ⟨hwhole.runEnd_eq.symm ▸ hwhole, rfl⟩, ?_⟩
    rw [hwhole.runEnd_eq, hcategory]
    rfl

/-! ## Spans -/

/-- Inside a stretch of code a whole word is one wherever the stretch is cut in front of it. -/
theorem Delimiters.WholeWord.mono (h : d.WholeWord t pos b i j) (hle : a ≤ pos) :
    d.WholeWord t a b i j :=
  ⟨Nat.le_trans hle h.start_le, h.lt, h.le_stop, h.word, h.starts, h.ends⟩

/-- A claim of a table of words is a whole word of the stretch of code that it is made in. -/
theorem Account.exists_word (hw : ∀ rule ∈ rules, rule.isWords = true)
    (h : Account rules d t 0 l regions) (hclaim : ClaimsBeside rules d t 0 regions pos e s) :
    ∃ a b, IsGap regions t.size a b ∧ d.WholeWord t a b s.start s.stop ∧
      rules.categoryOf? (t.slice s.start s.stop).toList = some s.category := by
  obtain ⟨a, hle, hgap⟩ := h.exists_gap hclaim
  obtain ⟨rfl, hword, hcategory⟩ :=
    (firstClaim?_wordRules_iff hw hclaim.lt hclaim.code.le_stop).mp hclaim.claimed
  exact ⟨a, e, hgap, hword.mono hle, hcategory⟩

/-- A whole word of a stretch of code that the table has is a span. -/
theorem Account.mem_of_word (hw : ∀ rule ∈ rules, rule.isWords = true)
    (h : Account rules d t 0 l regions) (hgap : IsGap regions t.size a b)
    (hword : d.WholeWord t a b s.start s.stop)
    (hcategory : rules.categoryOf? (t.slice s.start s.stop).toList = some s.category) : s ∈ l := by
  have hlt := hword.lt
  have hstart := hword.start_le
  have hstop := hword.le_stop
  have code := (h.segmentation.codeTo hgap).mono hstart (by omega)
  have hsize := code.le_stop
  have hclaim : firstClaim? d t s.start b rules = .ok (some s) := by
    refine (firstClaim?_wordRules_iff hw (by omega) hsize).mpr ⟨rfl, ?_, hcategory⟩
    exact ⟨Nat.le_refl _, hword.lt, hword.le_stop, hword.word, hword.starts, hword.ends⟩
  obtain ⟨p, s', hs', hpass, -, hp, hin⟩ :=
    h.exists_passing (capturesBehind_of_isWords hw) hgap hstart (by omega) ⟨s, hclaim⟩
  obtain ⟨rfl, hword', -⟩ :=
    (firstClaim?_wordRules_iff hw hpass.lt hpass.code.le_stop).mp hpass.claimed
  rcases Nat.eq_or_lt_of_le hp with heq | hlater
  · have hsame := hpass.claimed
    rw [heq, hclaim] at hsame
    cases hsame
    exact hs'
  · -- a claim made earlier would put a word character in front
    have hbefore := hword'.word (s.start - 1) (by omega) (by omega)
    refine absurd ?_ hword.starts
    rw [Text.follows, decide_eq_true (show 0 < s.start by omega), Bool.true_and]
    exact (Option.any_eq_true _ _).mpr hbefore

/-- **A table of words finds the whole words of code.** For every text, all marks of comments and
strings and every rule table without shapes: the spans stand one after the other, and they are the
comments and strings of the text, and in each whole stretch of code between these the words that
some rule has, each in the category of the first rule that has it. A word is a whole run of the
stretch's characters that have the role of word characters, and no such character stands in front of
it in the text. -/
theorem classify_wordRules (hw : ∀ rule ∈ rules, rule.isWords = true) (d : Delimiters) (t : Text) :
    ∃ spans regions, classify rules d t none = .ok spans ∧ OrderedSpans 0 t.size spans ∧
      Segmentation d t 0 regions ∧ ∀ s, s ∈ spans ↔ s ∈ regions ∨
        ∃ a b, IsGap regions t.size a b ∧ d.WholeWord t a b s.start s.stop ∧
          rules.categoryOf? (t.slice s.start s.stop).toList = some s.category := by
  obtain ⟨spans, regions, hrun, hordered, acc⟩ :=
    exists_account (capturesBehind_of_isWords hw) d t
  refine ⟨spans, regions, hrun, hordered, acc.segmentation, fun s => ⟨fun hs => ?_, ?_⟩⟩
  · rcases acc.origin s hs with hregion | ⟨p, e, hclaim⟩
    · exact .inl hregion
    · exact .inr (acc.exists_word hw hclaim)
  · rintro (hregion | ⟨a, b, hgap, hword, hcategory⟩)
    · exact acc.kept s hregion
    · exact acc.mem_of_word hw hgap hword hcategory

/-- The theorem holds of a table with two rules for one word, where comments open with letters: the
first word is cut off by a comment in the middle of it, and the last is no whole word. -/
theorem classify_wordRules_cut :
    (∀ rule ∈ [Rule.words "a" .keyword [['f', 'o']], .words "b" .careful [['f', 'o'], ['x']]],
      rule.isWords = true) ∧
    ∃ d : Delimiters, d.commentOpener = ['r', 'e', 'm'] ∧
      ∃ spans regions, spans = [⟨0, 2, .keyword⟩, ⟨2, 5, .comment⟩, ⟨6, 7, .careful⟩] ∧
        classify [.words "a" .keyword [['f', 'o']], .words "b" .careful [['f', 'o'], ['x']]] d
          (Text.ofString "forem\nx xfo") none = .ok spans ∧
        Segmentation d (Text.ofString "forem\nx xfo") 0 regions ∧
        ∀ s, s ∈ spans ↔ s ∈ regions ∨ ∃ a b, IsGap regions 11 a b ∧
          d.WholeWord (Text.ofString "forem\nx xfo") a b s.start s.stop ∧
          RuleTable.categoryOf? [.words "a" .keyword [['f', 'o']],
            .words "b" .careful [['f', 'o'], ['x']]]
            ((Text.ofString "forem\nx xfo").slice s.start s.stop).toList = some s.category := by
  have hw : ∀ rule ∈ [Rule.words "a" .keyword [['f', 'o']],
      .words "b" .careful [['f', 'o'], ['x']]], rule.isWords = true := by decide
  obtain ⟨spans, regions, hrun, -, hseg, hspans⟩ := classify_wordRules hw
    { Delimiters.standard with commentOpener := ['r', 'e', 'm'], opener_ne := by decide }
    (Text.ofString "forem\nx xfo")
  refine ⟨hw, _, rfl, spans, regions, ?_, hrun, hseg, hspans⟩
  exact (Except.ok.inj hrun).symm

end VSyntax
