import VSyntax.Proofs.Delimiters.Framed
import VSyntax.Proofs.Delimiters.Appended
import VSyntax.Proofs.Classify.Clip
import VSyntax.Proofs.Standard.Agree

/-!
# What a string says

Any text can stand in a string, once its quotes and escape characters are escaped: the scanner reads
the escaped text to its end and no further (`body_escaped`), so the string is one span and it ends
with the quote put after it (`isString_quoted`). What it says does not matter beside it
(`classify_quoted`). In front of it two such texts agree, and from the closing quote on they agree
again. The quote is all that a rule sees of the string: it is no blank, no opening and no letter, so
no rule looks past it.
-/
namespace VSyntax

variable {p b b₁ b₂ r : Text} {q : Char} {l : List Span}

/-! ## Quoted texts -/

/-- The characters with a backslash before each quote and each backslash. -/
def escapeChars (q : Char) (cs : List Char) : List Char :=
  cs.flatMap fun c => if c = q ∨ c = '\\' then ['\\', c] else [c]

/-- A text with a backslash before each quote and each backslash. -/
def escaped (q : Char) (b : Text) : Text := (escapeChars q b.toList).toArray

/-- The text `p`, then a string that says `b`, then `r`. -/
def quoted (p : Text) (q : Char) (b r : Text) : Text := framed p #[q] (escaped q b) #[q] r

/-- Where the closing quote of a quoted text stands. -/
def closingQuote (p : Text) (q : Char) (b : Text) : Nat := p.size + 1 + (escaped q b).size

theorem quoted_opening : (quoted p q b r)[p.size]? = some q :=
  Framed.getElem?_opener (x := 0) Nat.one_pos

theorem quoted_closing : (quoted p q b r)[closingQuote p q b]? = some q :=
  Framed.getElem?_closer (x := 0) Nat.one_pos

theorem size_quoted : (quoted p q b r).size = closingQuote p q b + (1 + r.size) := Framed.size_eq

theorem slice_quoted :
    (quoted p q b r).slice (p.size + 1) (closingQuote p q b) = escaped q b := Framed.slice_body

/-! ## The string -/

/-- An escaped text can stand in a string. -/
theorem body_escaped (q : Char) (cs : List Char) :
    Delimiters.standard.Body q (escapeChars q cs) := by
  induction cs with
  | nil => exact .nil
  | cons c cs ih =>
    have hcons : escapeChars q (c :: cs) =
        (if c = q ∨ c = '\\' then ['\\', c] else [c]) ++ escapeChars q cs := List.flatMap_cons
    rw [hcons]
    by_cases hc : c = q ∨ c = '\\'
    · rw [if_pos hc]
      exact .pair rfl ih
    · rw [if_neg hc]
      have hescape : Delimiters.standard.escape ≠ [c] := fun h => hc (.inr (List.cons.inj h).1.symm)
      exact .plain hescape (fun h => hc (.inl h)) ih

namespace Standard

variable {words : KeywordSet → List (List Char)}

/-- The marks of strings are no letters, blanks, openings, slashes or backslashes. -/
theorem quote_spec (hq : q ∈ Delimiters.standard.strings) :
    q ≠ '/' ∧ q ≠ '\\' ∧ q ≠ 'f' ∧ q ≠ 'n' ∧ Unicode.isBlank q = false ∧
      ['(', ','].contains q = false := by
  simp only [Delimiters.standard, List.mem_cons, List.not_mem_nil, or_false] at hq
  rcases hq with rfl | rfl | rfl
  · decide
  · decide
  · decide

/-- From its opening quote up to and with its closing quote the escaped text is a string. -/
theorem isString_quoted (hq : q ∈ Delimiters.standard.strings) :
    Delimiters.standard.IsString (quoted p q b r) p.size (closingQuote p q b + 1) where
  not_comment hat := by
    have hslash := (Text.startsAt_iff.mp hat 0 (by decide)).2
    rw [Nat.add_zero, quoted_opening] at hslash
    exact (quote_spec hq).1 (Option.some.inj hslash)
  quoted := by
    have hlt : p.size < closingQuote p q b := by
      rw [closingQuote]
      omega
    have hescape : Delimiters.standard.escape ≠ [q] := fun h =>
      (quote_spec hq).2.1 (List.cons.inj h).1.symm
    refine ⟨q, hq, quoted_opening, .inl ⟨_, rfl, hlt, quoted_closing, hescape, ?_⟩⟩
    rw [slice_quoted]
    exact body_escaped q b.toList

/-- The opening quote is no part of an opener of comments, so nothing is open where it stands. -/
theorem clear_quoted (hq : q ∈ Delimiters.standard.strings)
    (hopen : ¬ Delimiters.standard.EndsOpen p) :
    Delimiters.standard.Clear (quoted p q b r) p.size := by
  refine clear_append hopen fun _ hslash => ?_
  have hquote : (#[q] ++ (escaped q b ++ (#[q] ++ r)))[0]? = some q :=
    Array.getElem?_append_left Nat.one_pos
  rw [hquote] at hslash
  exact (quote_spec hq).1 (Option.some.inj hslash)

/-- The classification of a quoted text is that of the code in front, the string, and the course of
the code behind its closing quote. -/
theorem classify_quoted_parts (words : KeywordSet → List (List Char))
    (hq : q ∈ Delimiters.standard.strings) (hopen : ¬ Delimiters.standard.EndsOpen p) :
    ∃ l₁ l₂, classify (table words) .standard (quoted p q b r) none =
        .ok (l₁ ++ ⟨p.size, closingQuote p q b + 1, .string⟩ :: l₂) ∧
      Course (table words) .standard (quoted p q b r) p.size 0 l₁ ∧
      Course (table words) .standard (quoted p q b r) (quoted p q b r).size
        (closingQuote p q b + 1) l₂ := by
  have hr : ∀ rule ∈ table words, rule.capturesBehind = false :=
    fun _ => capturesBehind_of_mem_table
  have hstring := isString_quoted (p := p) (b := b) (r := r) hq
  exact classify_around hr (by decide) (clear_quoted hq hopen) hstring.opens hstring.regionAt_eq

/-- In front of the string quoted texts have one course. -/
theorem course_front_quoted (h : Course (table words) .standard (quoted p q b₁ r) p.size 0 l) :
    Course (table words) .standard (quoted p q b₂ r) p.size 0 l :=
  course_of_agree_front (Framed.agreeUpTo_front (Nat.le_refl 2)) h

/-- Behind the string quoted texts have one course, counted from the closing quote. -/
theorem course_rest_quoted (b₂ : Text) (hq : q ∈ Delimiters.standard.strings)
    (h : Course (table words) .standard (quoted p q b₁ r) (quoted p q b₁ r).size
      (closingQuote p q b₁ + 1) l) :
    ∃ l' : List Span, l = l'.map (Span.up (closingQuote p q b₁)) ∧
      Course (table words) .standard (quoted p q b₂ r) (quoted p q b₂ r).size
        (closingQuote p q b₂ + 1) (l'.map (Span.up (closingQuote p q b₂))) := by
  obtain ⟨-, -, hf, hn, hblank, hopening⟩ := quote_spec hq
  have hagree : Delimiters.standard.AgreeUpTo (quoted p q b₁ r) (quoted p q b₂ r)
      (closingQuote p q b₁) (closingQuote p q b₂) (1 + r.size) (1 + r.size) :=
    Framed.agreeUpTo_rest
  rw [size_quoted] at h ⊢
  refine course_of_agree_mark hagree quoted_closing hf hn (fun _ => ?_) (fun _ => ?_) h
  · rw [Text.followsFn_mark quoted_closing hblank, Text.followsFn_mark quoted_closing hblank]
  · rw [Text.followsOpening_mark quoted_closing hblank,
      Text.followsOpening_mark quoted_closing hblank]

end Standard

/-- **What a string says does not matter beside it.** For every text and every vocabulary whose word
classes can be built, with the standard layout and marks: if nothing is open at the end of `p`, any
text `b`, escaped and between two of the same quotes, is one string behind `p`, and `p` and `r` have
the same spans around it whatever it says. In front of the string these are the same, and behind it
they are the same counted from the closing quote. -/
theorem classify_quoted {v : Vocabulary} {classes : List WordClass} (hv : v.classes = .ok classes)
    (hq : q ∈ Delimiters.standard.strings) (hopen : ¬ Delimiters.standard.EndsOpen p) (r : Text) :
    ∃ rules, ∃ before after : List Span, v.rules = .ok rules ∧
      ∀ b, classify rules .standard (quoted p q b r) none =
        .ok (before ++ ⟨p.size, p.size + (escaped q b).size + 2, .string⟩ ::
          after.map (Span.up (closingQuote p q b))) := by
  -- the courses around the empty string are those around any other
  obtain ⟨before, l, -, hfront, hrest⟩ :=
    Standard.classify_quoted_parts (b := #[]) (r := r) v.words hq hopen
  obtain ⟨after, rfl, -⟩ := Standard.course_rest_quoted #[] hq hrest
  refine ⟨_, before, after, v.rules_eq_table hv, fun b => ?_⟩
  obtain ⟨before', l', hrun, hfront', hrest'⟩ :=
    Standard.classify_quoted_parts (b := b) (r := r) v.words hq hopen
  obtain rfl := (Standard.course_front_quoted hfront).unique hfront'
  obtain ⟨after', hsame, hother⟩ := Standard.course_rest_quoted b hq hrest
  obtain rfl := List.map_injective_iff.mpr (Span.up_injective _) hsame
  obtain rfl := hother.unique hrest'
  have hstop : closingQuote p q b + 1 = p.size + (escaped q b).size + 2 := by
    rw [closingQuote]
    omega
  rw [← hstop]
  exact hrun

/-- The theorem holds of a string after an opening parenthesis and in front of a name, whatever the
string says. -/
theorem classify_quoted_argument :
    ∃ classes, Vocabulary.standard.classes = .ok classes ∧ '"' ∈ Delimiters.standard.strings ∧
      ¬ Delimiters.standard.EndsOpen (Text.ofString "f(") ∧
      ∃ rules, ∃ before after : List Span, Vocabulary.standard.rules = .ok rules ∧
        ∀ b, classify rules .standard
          (quoted (Text.ofString "f(") '"' b (Text.ofString "y)")) none =
            .ok (before ++ ⟨2, 2 + (escaped '"' b).size + 2, .string⟩ ::
              after.map (Span.up (closingQuote (Text.ofString "f(") '"' b))) := by
  obtain ⟨classes, hv⟩ := Vocabulary.exists_classes_standard
  have hquiet : ∀ i, ¬ Delimiters.standard.Opens (Text.ofString "f(") i := by
    intro i hopens
    have hlt : i < 2 := hopens.lt_size
    obtain rfl | rfl : i = 0 ∨ i = 1 := by omega
    · exact Standard.not_opens_of_char (y := 'f') rfl (by decide) hopens
    · exact Standard.not_opens_of_char (y := '(') rfl (by decide) hopens
  have hopen := Delimiters.not_endsOpen hquiet
  have hq : '"' ∈ Delimiters.standard.strings := by decide
  exact ⟨classes, hv, hq, hopen, classify_quoted hv hq hopen (Text.ofString "y)")⟩

end VSyntax
