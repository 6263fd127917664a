import VSyntax.Proofs.Standard.Kinds
import VSyntax.Proofs.Classify.Account

/-!
# Punctuation

With the standard rules every bracket of code is a span of its own, and so is every comma and
semicolon; every operator character is in one span, which is an operator unless the character is the
sign of an exponent (`classify_punctuation`). Something is claimed at each of these characters, so a
claim made there or before passes it, and its kind is told by the character (`Kind.at`). How far the
rules before it have gone does not matter.
-/
namespace VSyntax

variable {t : Text} {l : List Span} {lo hi x b : Nat} {s : Span}

/-- A text without marks of comments and strings is all code. -/
theorem Segmentation.outside_of_unmarked
    (h : Segmentation .standard t 0 (l.filter fun s => s.category.isDelimited))
    (hplain : t.toList.any Standard.isMarker = false) (x : Nat) : Outside l x := by
  intro s hs hdelimited
  have hregion := h.regions s (List.mem_filter.mpr ⟨hs, hdelimited⟩)
  obtain ⟨c, hc, hmarker⟩ := Standard.has_isMarker_of_opens hregion.opens
  have hmem : c ∈ t.toList := Array.mem_toList_iff.mpr (Array.mem_of_getElem? hc)
  exact absurd hmarker (List.any_eq_false.mp hplain c hmem)

/-- Of ordered spans just one is at an offset that it covers. -/
theorem OrderedSpans.filter_meets (h : OrderedSpans lo hi l) (hs : s ∈ l) (hstart : s.start ≤ x)
    (hstop : x < s.stop) : l.filter (Span.meets x (x + 1)) = [s] := by
  have hmeets : ∀ r : Span, r.meets x (x + 1) = true ↔ r.start ≤ x ∧ x < r.stop := fun r => by
    rw [Span.meets, decide_eq_true_eq, Nat.lt_succ_iff]
  induction l generalizing lo with
  | nil => exact absurd hs List.not_mem_nil
  | cons r l ih =>
    have hafter := (List.pairwise_cons.mp h.apart).1
    rcases List.mem_cons.mp hs with rfl | hrest
    · have hnone : l.filter (Span.meets x (x + 1)) = [] := by
        refine List.filter_eq_nil_iff.mpr fun r hr hmeet => ?_
        have := hafter r hr
        have := (hmeets r).mp hmeet
        omega
      rw [List.filter_cons_of_pos ((hmeets s).mpr ⟨hstart, hstop⟩), hnone]
    · have hnot : ¬ r.meets x (x + 1) = true := fun hmeet => by
        have := hafter s hrest
        have := (hmeets r).mp hmeet
        omega
      rw [List.filter_cons_of_neg hnot]
      exact ih h.tail hrest

namespace Standard

variable {words : KeywordSet → List (List Char)}

/-- No rule gives the category of a comment or string. -/
theorem isDelimited_of_mem_table {rule : Rule} (h : rule ∈ table words) :
    rule.category.isDelimited = false := by
  rcases mem_table_shown h with ⟨set, rfl⟩ | ⟨name, p, hp, rfl⟩
  · cases set
    all_goals rfl
  · have hshown : ∀ p ∈ shown, p.1.isDelimited = false := by decide
    exact hshown p hp

/-- Every claim made in code is of one of the kinds. -/
theorem kind_of_claims {p : Nat} (h : Claims (table words) .standard t p b s) : Kind t b p s :=
  kind_of_firstClaim? h.lt h.code.le_stop (h.code.quiet p (Nat.le_refl _) h.lt) h.claimed

/-- At a character of punctuation in code there is just one span, of one of four kinds. -/
theorem exists_span_at
    (h : Account (table words) .standard t 0 l (l.filter fun s => s.category.isDelimited))
    (hordered : OrderedSpans 0 t.size l) (hout : Outside l x) (hmark : t.Has isPunctuation x) :
    ∃ s, l.filter (Span.meets x (x + 1)) = [s] ∧
      ((s.category = .operator ∧ t.Has isOperatorPart x) ∨
        (s = ⟨x, x + 1, .separator⟩ ∧ t.Has isSeparator x) ∨
        (s = ⟨x, x + 1, .delimiter⟩ ∧ t.Has isBracket x) ∨
        (s.category = .numericLiteral ∧
          ∃ b, CodeAround l t.size s.start b ∧ ExponentSign t b s.start x)) := by
  obtain ⟨b, hcode⟩ := h.segmentation.exists_codeAround hmark.lt_size hout
  have code := h.segmentation.codeTo_around hcode
  have hclaim := exists_firstClaim?_of_mark words hcode.lt code.le_stop hmark
  obtain ⟨p, s, hs, hpass, hcodep, hpx, hin⟩ :=
    h.exists_passing_around (fun _ => capturesBehind_of_mem_table) hcode hclaim
  have hkind := kind_of_claims hpass
  rcases hkind.at hpx hin with ⟨hcategory, rfl, hchar⟩ | ⟨rfl, hchar⟩ | ⟨rfl, hchar⟩ |
    ⟨hcategory, rfl, hsign⟩ | h
  · exact ⟨s, hordered.filter_meets hs hpx hin, .inl ⟨hcategory, hchar⟩⟩
  · exact ⟨_, hordered.filter_meets hs (Nat.le_refl _) hin, .inr (.inl ⟨rfl, hchar⟩)⟩
  · exact ⟨_, hordered.filter_meets hs (Nat.le_refl _) hin, .inr (.inr (.inl ⟨rfl, hchar⟩))⟩
  · exact ⟨s, hordered.filter_meets hs hpx hin,
      .inr (.inr (.inr ⟨hcategory, b, hcodep, hsign⟩))⟩
  · exact (hmark.not_both h fun _ => not_of_contains (by decide)).elim

end Standard

open Standard

/-- **Punctuation is found character by character.** For every text and every vocabulary whose word
classes can be built, with the standard layout and marks, outside comments and strings: each bracket
is a span of its own, and the delimiters are these spans only; each comma and semicolon is a
separator of its own; each operator character is in just one span, which is an operator, unless the
character is the sign of the exponent of a numeral; and an operator is made of these characters,
colons and dots. -/
theorem classify_punctuation {v : Vocabulary} {classes : List WordClass}
    (hv : v.classes = .ok classes) (t : Text) :
    ∃ rules spans, v.rules = .ok rules ∧ classify rules .standard t none = .ok spans ∧
      Segmentation .standard t 0 (spans.filter fun s => s.category.isDelimited) ∧
      (∀ s ∈ spans, s.category = .delimiter →
        Outside spans s.start ∧ t.Has isBracket s.start ∧ s.stop = s.start + 1) ∧
      (∀ s ∈ spans, s.category = .operator → t.Spelled isOperatorPart s.start s.stop) ∧
      ∀ x, Outside spans x →
        (t.Has isBracket x →
          spans.filter (Span.meets x (x + 1)) = [⟨x, x + 1, .delimiter⟩]) ∧
        (t.Has [',', ';'].contains x →
          spans.filter (Span.meets x (x + 1)) = [⟨x, x + 1, .separator⟩]) ∧
        (t.Has isOperatorChar x → ∃ s, spans.filter (Span.meets x (x + 1)) = [s] ∧
          (s.category = .operator ∨ s.category = .numericLiteral ∧
            ∃ b, CodeAround spans t.size s.start b ∧ ExponentSign t b s.start x)) := by
  obtain ⟨spans, hrun, hordered, acc⟩ := exists_account_filter
    (fun _ => capturesBehind_of_mem_table) (fun _ => isDelimited_of_mem_table) .standard t
  refine ⟨table v.words, spans, v.rules_eq_table hv, hrun, acc.segmentation,
    fun s hs hdelimiter => ?_, fun s hs hoperator => ?_,
    fun x hout => ⟨fun hchar => ?_, fun hchar => ?_, fun hchar => ?_⟩⟩
  · obtain ⟨p, b, hclaim, hcode⟩ := acc.exists_claim hs (hdelimiter ▸ rfl)
    obtain ⟨rfl, hend, hchar⟩ := (kind_of_claims hclaim).of_delimiter hdelimiter
    exact ⟨hcode.outside, hchar, hend⟩
  · obtain ⟨p, b, hclaim, -⟩ := acc.exists_claim hs (hoperator ▸ rfl)
    obtain ⟨rfl, hspelled⟩ := (kind_of_claims hclaim).of_operator hoperator
    exact hspelled
  · obtain ⟨s, hone, ⟨-, h⟩ | ⟨-, h⟩ | ⟨rfl, -⟩ | ⟨-, b, -, h⟩⟩ :=
      exists_span_at acc hordered hout (hchar.imp fun _ => of_contains (by decide))
    · exact (hchar.not_both h fun _ => not_of_contains (by decide)).elim
    · exact (hchar.not_both h fun _ => not_of_contains (by decide)).elim
    · exact hone
    · exact (hchar.not_both (Text.has_of_sees h.sign) fun _ => not_of_contains (by decide)).elim
  · obtain ⟨s, hone, ⟨-, h⟩ | ⟨rfl, -⟩ | ⟨-, h⟩ | ⟨-, b, -, h⟩⟩ :=
      exists_span_at acc hordered hout (hchar.imp fun _ => of_contains (by decide))
    · exact (hchar.not_both h fun _ => not_of_contains (by decide)).elim
    · exact hone
    · exact (hchar.not_both h fun _ => not_of_contains (by decide)).elim
    · exact (hchar.not_both (Text.has_of_sees h.sign) fun _ => not_of_contains (by decide)).elim
  · obtain ⟨s, hone, ⟨hcategory, -⟩ | ⟨-, h⟩ | ⟨-, h⟩ | hnumeral⟩ :=
      exists_span_at acc hordered hout (hchar.imp fun _ => of_contains (by decide))
    · exact ⟨s, hone, .inl hcategory⟩
    · exact (hchar.not_both h fun _ => not_of_contains (by decide)).elim
    · exact (hchar.not_both h fun _ => not_of_contains (by decide)).elim
    · exact ⟨s, hone, .inr hnumeral⟩

/-- The theorem holds of the standard vocabulary, for the brackets of a call and the sign of an
exponent in it. -/
theorem classify_punctuation_call :
    ∃ classes, Vocabulary.standard.classes = .ok classes ∧
      ∃ rules spans, Vocabulary.standard.rules = .ok rules ∧
        classify rules .standard (Text.ofString "f(1e+5)") none = .ok spans ∧
        (∀ x, Outside spans x) ∧
        spans.filter (Span.meets 1 2) = [⟨1, 2, .delimiter⟩] ∧
        spans.filter (Span.meets 6 7) = [⟨6, 7, .delimiter⟩] ∧
        ∃ s, spans.filter (Span.meets 4 5) = [s] ∧
          (s.category = .operator ∨ s.category = .numericLiteral) := by
  obtain ⟨classes, hv⟩ := Vocabulary.exists_classes_standard
  obtain ⟨rules, spans, hrules, hrun, hseg, -, -, hmarks⟩ :=
    classify_punctuation hv (Text.ofString "f(1e+5)")
  have hout := hseg.outside_of_unmarked (by decide)
  obtain ⟨s, hs, hcategory⟩ := (hmarks 4 (hout 4)).2.2 ⟨'+', rfl, by decide⟩
  exact ⟨classes, hv, rules, spans, hrules, hrun, hout,
    (hmarks 1 (hout 1)).1 ⟨'(', rfl, by decide⟩, (hmarks 6 (hout 6)).1 ⟨')', rfl, by decide⟩,
    s, hs, hcategory.imp id And.left⟩

end VSyntax
