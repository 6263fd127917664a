import VSyntax.Proofs.Outline.Table
import VSyntax.Proofs.Regex.Scan
import VSyntax.Proofs.Standard.Joins

/-!
# What outline entries look like

What a match of the standard outline patterns says about the text. A declaration stands at the start
of a line, and the line says of which kind it is: its first word, or its second if the first is
`pub`, is the keyword (`keywordAt`). So a line start has one kind of declaration at most. A reminder
begins with two slashes and goes on to the end of the line.

The label of a declaration and that of a reminder never stand at one offset: before the gap in front
of it the one has a letter or a closing parenthesis, the other a slash (`AfterGap`).
-/
namespace VSyntax.Outline

open Regex Standard

variable {t : Text} {stop pos first last x y : Nat} {c c' : Char} {s s' : State} {rest : Expr}
  {word : List Char} {d : Declaration} {n : Nat}

/-! ## Words and gaps -/

/-- A character of a gap. -/
def isGap (c : Char) : Bool := [' ', '\t'].contains c

/-- A character that is not of a gap. -/
def isGlyph (c : Char) : Bool := !isGap c

/-- The offset after the gap at `x`, which may be empty. -/
def skip (t : Text) (x : Nat) : Nat := t.runEnd isGap t.size x

/-- The text from `x` up to the next gap. -/
def wordFrom (t : Text) (x : Nat) : Text := t.slice x (t.runEnd isGlyph t.size x)

/-- The word that says what a line from `pos` on declares: its first, or the one after `pub`. -/
def keywordAt (t : Text) (pos : Nat) : Text :=
  if wordFrom t (skip t pos) = "pub".toList.toArray then wordFrom t (skip t (skip t pos + 3))
  else wordFrom t (skip t pos)

/-- Before the gap in front of `x` stands the character `c`. -/
def AfterGap (t : Text) (c : Char) (x : Nat) : Prop :=
  ∃ y < x, t[y]? = some c ∧ t.Spelled isGap (y + 1) x

/-- Before the gap in front of `x` stands a character other than a slash. -/
def AfterOther (t : Text) (x : Nat) : Prop := ∃ c ≠ '/', isGap c = false ∧ AfterGap t c x

/-- There is one last character before a gap. -/
theorem AfterGap.unique (h : AfterGap t c x) (h' : AfterGap t c' x) (hc : isGap c = false)
    (hc' : isGap c' = false) : c = c' := by
  obtain ⟨y, hy, hat, hgap⟩ := h
  obtain ⟨y', hy', hat', hgap'⟩ := h'
  have hnot {z : Nat} {a : Char} (ha : t[z]? = some a) (hglyph : isGap a = false) :
      ¬ t.Has isGap z := by
    rintro ⟨b, hb, hgap⟩
    cases ha.symm.trans hb
    rw [hglyph] at hgap
    cases hgap
  rcases Nat.lt_trichotomy y y' with hlt | rfl | hlt
  · exact absurd (hgap y' hlt hy') (hnot hat' hc')
  · exact Option.some.inj (hat.symm.trans hat')
  · exact absurd (hgap' y hlt hy) (hnot hat hc)

theorem AfterOther.not_slash (h : AfterOther t x) : ¬ AfterGap t '/' x := by
  obtain ⟨c, hne, hglyph, hafter⟩ := h
  exact fun hslash => hne (hafter.unique hslash hglyph (by decide))

theorem skip_eq (hle : x ≤ y) (hgap : t.Spelled isGap x y) (hend : t.Has isGlyph y) :
    skip t x = y := by
  refine Text.runEnd_eq hle (fun i hi hlt => ?_) ?_
  · obtain ⟨c, hc, hp⟩ := hgap i hi hlt
    exact Text.sees_iff.mpr ⟨(Array.getElem?_eq_some_iff.mp hc).1, c, hc, hp⟩
  · intro hsees
    exact (Text.has_of_sees hsees).not_both hend fun c hc => by rw [isGlyph, hc]; rfl

theorem spelled_of_startsAt {p : Char → Bool} (h : t.startsAt word x stop = true)
    (hp : word.all p = true) : t.Spelled p x (x + word.length) := by
  intro i hi hlt
  have hin : i - x < word.length := by omega
  obtain ⟨-, hat⟩ := Text.startsAt_iff.mp h (i - x) hin
  rw [Nat.add_sub_of_le hi] at hat
  exact ⟨_, hat, List.all_eq_true.mp hp _ (List.getElem_mem hin)⟩

/-- A part that stands at an offset is the slice from there. -/
theorem slice_of_startsAt (h : t.startsAt word x stop = true) :
    t.slice x (x + word.length) = word.toArray := by
  apply Array.ext_getElem?
  intro i
  rw [Text.slice, Array.getElem?_extract]
  by_cases hi : i < word.length
  · obtain ⟨-, hat⟩ := Text.startsAt_iff.mp h i hi
    have hlt := (Array.getElem?_eq_some_iff.mp hat).1
    rw [if_pos (by omega), hat, List.getElem?_toArray, List.getElem?_eq_getElem hi]
  · rw [if_neg (by omega), List.getElem?_toArray, List.getElem?_eq_none (Nat.le_of_not_lt hi)]

/-- A word with a gap after it is the text up to the next gap. -/
theorem wordFrom_eq (h : t.startsAt word x t.size = true) (hword : word.all isGlyph = true)
    (hgap : t.Has isGap (x + word.length)) : wordFrom t x = word.toArray := by
  have hend : t.runEnd isGlyph t.size x = x + word.length := by
    refine Text.runEnd_eq (Nat.le_add_right _ _) (fun i hi hlt => ?_) ?_
    · obtain ⟨c, hc, hp⟩ := spelled_of_startsAt h hword i hi hlt
      exact Text.sees_iff.mpr ⟨(Array.getElem?_eq_some_iff.mp hc).1, c, hc, hp⟩
    · intro hsees
      exact hgap.not_both (Text.has_of_sees hsees) fun c hc => by rw [isGlyph, hc]; rfl
  rw [wordFrom, hend, slice_of_startsAt h]

/-! ## Paths of the parts -/

theorem gapItems_holds : (fun c => gapItems.any (·.holds c)) = isGap := codes_holds [' ', '\t']

/-- A gap leads on, over the characters of gaps. -/
theorem path_gap (h : (gap n).Path t stop s s') :
    s.pos ≤ s'.pos ∧ t.Spelled isGap s.pos s'.pos := by
  have hnone : ∀ k ∈ ([] : List CharKind), ∀ c, k.holds c = true → isGap c = true :=
    fun k hk => absurd hk List.not_mem_nil
  exact h.takes hnone (by rfl)

/-- A word is passed character by character. -/
theorem path_spell (h : (spell word rest).Path t stop s s') :
    t.startsAt word s.pos stop = true ∧
      ∃ m : State, m.pos = s.pos + word.length ∧ rest.Path t stop m s' := by
  induction word generalizing s with
  | nil => exact ⟨rfl, s, rfl, h⟩
  | cons c word ih =>
    obtain ⟨m, hfirst, hrest⟩ := h
    obtain ⟨hat, hnext⟩ := path_one (code_holds c) hfirst
    obtain ⟨a, ha, hac⟩ := hat
    rw [beq_iff_eq.mp hac] at ha
    obtain ⟨hword, m', hm', hpath⟩ := ih hrest
    rw [hnext] at hword hm'
    refine ⟨?_, m', ?_, hpath⟩
    · rw [Text.startsAt, hword, ha, decide_eq_true (Text.lt_of_sees hfirst.1)]
      simp only [beq_self_eq_true, Bool.and_true]
    · rw [hm', List.length_cons]
      omega

/-- What a group captures. -/
theorem path_group {body : Expr} (hline : body.inLine = true) (hconsumes : body.consumes = true)
    (h : (Expr.group 1 body).Path t stop s s') :
    s'.captures.lookup 1 = some (s.pos, s'.pos) ∧ s.pos < s'.pos := by
  obtain ⟨m, hbody, rfl⟩ := h
  have hlt : s.pos < m.pos := hbody.lt_of_consumes hline hconsumes
  exact ⟨rfl, hlt⟩

/-- After the gap that a line begins with, the way leads to a word, over `pub` or not. Unless that
word is `pub`, it is what the line says that it declares. -/
theorem path_beforeWord (h : (d.beforeWord rest).Path t t.size s s') (hle : pos ≤ s.pos)
    (hgap : t.Spelled isGap pos s.pos) :
    ∃ m, s.pos ≤ m.pos ∧ rest.Path t t.size m s' ∧
      (t.Has isGlyph m.pos → wordFrom t m.pos ≠ "pub".toList.toArray →
        keywordAt t pos = wordFrom t m.pos) := by
  have hplain : t.Has isGlyph s.pos → wordFrom t s.pos ≠ "pub".toList.toArray →
      keywordAt t pos = wordFrom t s.pos := by
    intro hglyph hpub
    rw [keywordAt, skip_eq hle hgap hglyph, if_neg hpub]
  unfold Declaration.beforeWord at h
  split at h
  · obtain ⟨m, hmark, hrest⟩ := h
    rcases path_maybe hmark with rfl | hmark
    · exact ⟨m, Nat.le_refl _, hrest, hplain⟩
    · obtain ⟨hat, m', hm', hgap'⟩ := path_spell hmark
      obtain ⟨hle', hspelled'⟩ := path_gap hgap'
      have hfirst := path_run_one gapItems_holds hgap'
      rw [hm'] at hle' hspelled' hfirst
      have hhere : t.Has isGlyph s.pos :=
        spelled_of_startsAt hat (by decide) s.pos (Nat.le_refl _)
          (Nat.lt_add_of_pos_right (by decide))
      refine ⟨m, Nat.le_trans (Nat.le_add_right _ _) hle', hrest, fun hglyph _ => ?_⟩
      rw [keywordAt, skip_eq hle hgap hhere, if_pos (wordFrom_eq hat (by decide) hfirst)]
      exact congrArg (wordFrom t) (skip_eq hle' hspelled' hglyph)
  · exact ⟨s, Nat.le_refl _, h, hplain⟩

/-- In front of the name of a declaration a receiver ends, unless it is left out. -/
theorem path_beforeLabel (h : (d.beforeLabel rest).Path t stop s s') (hafter : AfterOther t s.pos) :
    ∃ m, s.pos ≤ m.pos ∧ rest.Path t stop m s' ∧ AfterOther t m.pos := by
  unfold Declaration.beforeLabel at h
  split at h
  · obtain ⟨m, hreceiver, hrest⟩ := h
    rcases path_maybe hreceiver with rfl | hreceiver
    · exact ⟨m, Nat.le_refl _, hrest, hafter⟩
    · obtain ⟨-, m₁, hopen, m₂, hinside, hclose⟩ := path_spell hreceiver
      obtain ⟨hat, m₃, hclosed, hgap⟩ := path_spell hclose
      obtain ⟨hle, hspelled⟩ := path_gap hgap
      have hinside := (Expr.Path.inLine (by rfl) hinside).1
      rw [List.length_singleton] at hopen hclosed
      rw [hclosed] at hle hspelled
      have hparen : t[m₂.pos]? = some ')' := (Text.startsAt_char.mp hat).2
      exact ⟨m, by omega, hrest, ')', by decide, by decide, m₂.pos, by omega, hparen, hspelled⟩
  · exact ⟨s, Nat.le_refl _, h, hafter⟩

/-- A keyword is passed with a gap after it. -/
theorem path_word (hne : word ≠ []) (hword : word.all (fun c => isGlyph c && c != '/') = true)
    (h : (spell word (.seq (gap 1) rest)).Path t t.size s s') :
    t.Has isGlyph s.pos ∧ wordFrom t s.pos = word.toArray ∧
      ∃ m, s.pos ≤ m.pos ∧ rest.Path t t.size m s' ∧ AfterOther t m.pos := by
  obtain ⟨hat, m₁, hm₁, m, hgap, hrest⟩ := path_spell h
  obtain ⟨hle, hspelled⟩ := path_gap hgap
  have hfirst := path_run_one gapItems_holds hgap
  rw [hm₁] at hle hspelled hfirst
  have hlength := List.length_pos_iff.mpr hne
  have hletters := spelled_of_startsAt hat hword
  have hglyphs : word.all isGlyph = true :=
    List.all_eq_true.mpr fun c hc => (Bool.and_eq_true_iff.mp (List.all_eq_true.mp hword c hc)).1
  refine ⟨?_, wordFrom_eq hat hglyphs hfirst, m, by omega, hrest, ?_⟩
  · exact spelled_of_startsAt hat hglyphs s.pos (Nat.le_refl _) (by omega)
  · obtain ⟨c, hc, hletter⟩ := hletters (s.pos + word.length - 1) (by omega) (by omega)
    obtain ⟨hglyph, hslash⟩ := Bool.and_eq_true_iff.mp hletter
    refine ⟨c, bne_iff_ne.mp hslash, (Bool.not_eq_true' _).mp hglyph, _, ?_, hc, ?_⟩
    · omega
    · rwa [Nat.sub_add_cancel (by omega)]

/-! ## Matches -/

/-- The label of a match, between its ends. -/
structure Labelled (m : Match) (first last : Nat) : Prop where
  extent : m.extent? 1 = some (first, last)
  start_le : m.start ≤ first
  lt : first < last
  le_stop : last ≤ m.stop

/-- A declaration of the kind `d` begins at `pos`, with its label at `first`. -/
structure Declares (t : Text) (d : Declaration) (pos first : Nat) : Prop where
  starts : pos = 0 ∨ t[pos - 1]? = some '\n'
  keyword : keywordAt t pos = d.word.toArray
  after : AfterOther t first

/-- A reminder with its label at `first` goes on to the end of the line, at `stop`. -/
structure Reminds (t : Text) (first stop : Nat) : Prop where
  after : AfterGap t '/' first
  ends : stop = t.size ∨ t[stop]? = some '\n'

/-- The keywords hold no gaps and no slashes, and none of them is `pub`. -/
theorem word_of_mem_all (hd : d ∈ Declaration.all) :
    d.word ≠ [] ∧ d.word.toArray ≠ "pub".toList.toArray ∧
      d.word.all (fun c => isGlyph c && c != '/') = true := by
  have hall : ∀ d ∈ Declaration.all, d.word ≠ [] ∧ d.word.toArray ≠ "pub".toList.toArray ∧
      d.word.all (fun c => isGlyph c && c != '/') = true := by
    decide
  exact hall d hd

/-- A match of a declaration begins a line that declares something of its kind. -/
theorem declares_of_match {m : Match} (hd : d ∈ Declaration.all)
    (h : matchAt? ⟨d.expr, 1⟩ t pos t.size = some m) :
    ∃ first last, Labelled m first last ∧ Declares t d pos first := by
  obtain ⟨hne, hpub, hword⟩ := word_of_mem_all hd
  obtain ⟨hstart, m₀, ⟨hstarts, rfl⟩, m₁, hgap, hhead⟩ := path_of_matchAt? h
  obtain ⟨hle₁, hspelled₁⟩ := path_gap hgap
  have hstarts : pos = 0 ∨ t[pos - 1]? = some '\n' := by
    rw [Anchor.holds, Bool.or_eq_true, beq_iff_eq, beq_iff_eq] at hstarts
    exact hstarts
  obtain ⟨m₂, hle₂, hkeyword, hsays⟩ := path_beforeWord hhead hle₁ hspelled₁
  obtain ⟨hglyph, hwordFrom, m₃, hle₃, hbefore, hafter₃⟩ := path_word hne hword hkeyword
  obtain ⟨m₄, hle₄, hlabel, hafter₄⟩ := path_beforeLabel hbefore hafter₃
  rw [hwordFrom] at hsays
  obtain ⟨hextent, hlt⟩ := path_group (by decide) (by decide) hlabel
  have hfirst : m.start ≤ m₄.pos := by
    rw [hstart]
    dsimp only at hle₁
    omega
  exact ⟨m₄.pos, m.stop, ⟨hextent, hfirst, hlt, Nat.le_refl _⟩,
    ⟨hstarts, hsays hglyph hpub, hafter₄⟩⟩

/-- A match of a reminder goes on to the end of its line. -/
theorem reminds_of_match {m : Match} (h : matchAt? ⟨reminder, 1⟩ t pos t.size = some m) :
    ∃ first last, Labelled m first last ∧ Reminds t first m.stop := by
  obtain ⟨hstart, hpath⟩ := path_of_matchAt? h
  obtain ⟨hat, m₁, hm₁, m₂, hgap, m₃, hlabel, m₄, hgap', hends, hlast⟩ := path_spell hpath
  obtain ⟨hle, hspelled⟩ := path_gap hgap
  obtain ⟨hle', -⟩ := path_gap hgap'
  obtain ⟨hextent, hlt⟩ := path_group (by decide) (by decide) hlabel
  have hcaptures : m.captures = m₃.captures := by
    rw [← hgap'.captures_eq (by rfl)]
    exact congrArg State.captures hlast
  have hstop : m.stop = m₄.pos := congrArg State.pos hlast
  have hm₁ : m₁.pos = pos + 2 := hm₁
  have hslash : t[pos + 1]? = some '/' := (Text.startsAt_iff.mp hat 1 (by decide)).2
  rw [hm₁] at hle hspelled
  refine ⟨m₂.pos, m₃.pos, ⟨?_, ?_, hlt, ?_⟩, ⟨⟨pos + 1, by omega, hslash, hspelled⟩, ?_⟩⟩
  · rw [Match.extent?, hcaptures]
    exact hextent
  · omega
  · omega
  · rw [Anchor.holds, Bool.or_eq_true, beq_iff_eq, beq_iff_eq] at hends
    rw [hstop]
    exact hends

end VSyntax.Outline
