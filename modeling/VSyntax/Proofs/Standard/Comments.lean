import VSyntax.Proofs.Delimiters.Appended
import VSyntax.Proofs.Delimiters.Framed
import VSyntax.Proofs.Classify.Clip
import VSyntax.Proofs.Standard.Agree
import VSyntax.Proofs.Standard.Aligned

/-!
# What a comment says

Two texts that differ in what one comment says are classified alike beside the comment
(`classify_commented`). In front of it they agree, and so do their courses up to where it opens. The
line end after it is passed, and from there on they agree again, with the line end in front. One
character in front is all that most rules ask for.

Two rules ask for more, and they read the text as it stands, comments included. The first name of the
line after the comment is that of a function if the comment ends in the word `fn`, and a parameter if
it ends in an opening parenthesis or a comma. So the two comments have to end alike in this, where
the line begins with such a name; without that the classifications differ
(`classify_commented_opening`).
-/
namespace VSyntax

variable {p c c₁ c₂ r : Text} {q : Char → Bool} {x : Nat} {l : List Span}

/-! ## Commented texts -/

/-- The text `p`, then a comment with the body `c` and its line end, then `r`. -/
def commented (p c r : Text) : Text := p ++ (#['/', '/'] ++ (c ++ (#['\n'] ++ r)))

/-- Where the comment of a commented text ends. -/
def commentStop (p c : Text) : Nat := p.size + 2 + c.size

/-- The comment is a part of the text that its marks frame. -/
theorem commented_eq_framed : commented p c r = framed p #['/', '/'] c #['\n'] r := rfl

theorem size_commented : (commented p c r).size = commentStop p c + (1 + r.size) := Framed.size_eq

/-- The opener of the comment stands after `p`. -/
theorem commented_opener (hx : x < 2) : (commented p c r)[p.size + x]? = some '/' := by
  rw [commented_eq_framed, Framed.getElem?_opener hx]
  obtain rfl | rfl : x = 0 ∨ x = 1 := by omega
  · rfl
  · rfl

theorem commented_body {body : Text} (hx : x < body.size) :
    (commented p body r)[p.size + 2 + x]? = body[x]? := Framed.getElem?_body hx

theorem commented_rest : (commented p c r)[commentStop p c + (1 + x)]? = r[x]? :=
  Framed.getElem?_after.trans (getElem?_append_add #['\n'] r x)

theorem commented_lineEnd : (commented p c r)[commentStop p c]? = some '\n' :=
  Framed.getElem?_closer (x := 0) Nat.one_pos

/-- Inside a comment the character before an offset is the one that its body has there. At the start
of the body it is the opener. -/
theorem follows_commented {body : Text} (hq : q '/' = false) (hx : x ≤ body.size) :
    (commented p body r).follows q (p.size + 2 + x) = body.follows q x := by
  cases x with
  | zero =>
    have hslash : (commented p body r)[p.size + 1]? = some '/' := commented_opener Nat.one_lt_two
    simp [Text.follows, hslash, hq]
  | succ y =>
    have hbody : (commented p body r)[p.size + 2 + (y + 1) - 1]? = body[y]? := commented_body hx
    have hpos : 0 < p.size + 2 + (y + 1) := Nat.succ_pos _
    simp only [Text.follows, hbody, hpos, Nat.succ_pos, Nat.add_sub_cancel]

/-! ## What stands in front of the rest -/

/-- The comment ends in the word `fn`. -/
def endsInFn (c : Text) : Bool :=
  c.follows (· == 'n') c.size && c.follows (· == 'f') (c.size - 1) &&
    !c.follows isWordChar (c.size - 2)

/-- The comment ends in an opening parenthesis or a comma. -/
def endsInOpening (c : Text) : Bool := c.follows ['(', ','].contains c.size

theorem follows_lineEnd : (commented p c r).follows q (commentStop p c + 1) = q '\n' :=
  Text.follows_mark commented_lineEnd

/-- At the start of the line after the comment, the words and marks in front are those that the
comment ends in. -/
theorem followsOpening_commented :
    (commented p c r).followsOpening (commentStop p c + 1) = endsInOpening c := by
  have hbody : (commented p c r).follows ['(', ','].contains (commentStop p c + 1 - 1) =
      endsInOpening c := follows_commented (by decide) (Nat.le_refl _)
  have hblank : Unicode.isBlank '\n' = true := by decide
  have hmark : ['(', ','].contains '\n' = false := by decide
  rw [Text.followsOpening, follows_lineEnd, follows_lineEnd, hbody, hblank, hmark, Bool.true_and,
    Bool.false_or]

theorem followsFn_commented :
    (commented p c r).followsFn (commentStop p c + 1) = endsInFn c := by
  have hblank : Unicode.isBlank '\n' = true := by decide
  have hn : (commented p c r).follows (· == 'n') (commentStop p c + 1 - 1) =
      c.follows (· == 'n') c.size := follows_commented (by decide) (Nat.le_refl _)
  rw [Text.followsFn_eq (by simp only [commentStop]; omega), follows_lineEnd, hn, hblank, endsInFn]
  cases hlast : c.follows (· == 'n') c.size with
  | false => simp only [Bool.and_false, Bool.false_and]
  | true =>
    have hsize : 0 < c.size := Text.pos_of_follows hlast
    have hf : (commented p c r).follows (· == 'f') (commentStop p c + 1 - 2) =
        c.follows (· == 'f') (c.size - 1) := by
      have hat : commentStop p c + 1 - 2 = p.size + 2 + (c.size - 1) := by
        simp only [commentStop]
        omega
      rw [hat]
      exact follows_commented (by decide) (Nat.sub_le _ _)
    rw [hf]
    cases hsecond : c.follows (· == 'f') (c.size - 1) with
    | false => simp only [Bool.and_false, Bool.false_and]
    | true =>
      have hsize' : 0 < c.size - 1 := Text.pos_of_follows hsecond
      have hword : (commented p c r).follows isWordChar (commentStop p c + 1 - 3) =
          c.follows isWordChar (c.size - 2) := by
        have hat : commentStop p c + 1 - 3 = p.size + 2 + (c.size - 2) := by
          simp only [commentStop]
          omega
        rw [hat]
        exact follows_commented (by decide) (Nat.sub_le _ _)
      rw [hword]
      simp only [Bool.and_true]

/-! ## The classification of a commented text -/

namespace Standard

variable {words : KeywordSet → List (List Char)}

theorem isComment_commented (hc : '\n' ∉ c.toList) :
    Delimiters.standard.IsComment (commented p c r) p.size (commentStop p c) where
  opens := by
    rw [Text.startsAt_iff]
    intro i hi
    have hi : i < 2 := hi
    refine ⟨?_, ?_⟩
    · rw [size_commented, commentStop]
      omega
    · rw [commented_opener hi]
      obtain rfl | rfl : i = 0 ∨ i = 1 := by omega
      · rfl
      · rfl
  start_le := Nat.le_add_right _ _
  le_size := by
    rw [size_commented]
    exact Nat.le_add_right _ _
  unended i hi hlt hat := by
    have hlen : Delimiters.standard.commentOpener.length = 2 := rfl
    rw [hlen] at hi
    obtain ⟨y, rfl⟩ : ∃ y, i = p.size + 2 + y := ⟨i - (p.size + 2), by omega⟩
    have hy : y < c.size := by
      rw [commentStop] at hlt
      omega
    have hend := (Text.startsAt_char.mp hat).2
    rw [commented_body hy] at hend
    exact hc (Array.mem_toList_iff.mpr (Array.mem_of_getElem? hend))
  ends := by
    have hlt : commentStop p c < (commented p c r).size := by
      rw [size_commented]
      omega
    exact .inl (Text.startsAt_char.mpr ⟨hlt, commented_lineEnd⟩)

theorem clear_commented (hopen : ¬ Delimiters.standard.EndsOpen p) (hslash : p.back? ≠ some '/') :
    Delimiters.standard.Clear (commented p c r) p.size :=
  clear_append hopen fun hback => absurd hback hslash

theorem not_opens_lineEnd :
    ¬ Delimiters.standard.Opens (commented p c r) (commentStop p c) :=
  not_opens_of_char commented_lineEnd (by decide)

/-- The classification of a commented text is that of the code in front, the comment, and the course
of the code after its line end. -/
theorem classify_commented_parts (words : KeywordSet → List (List Char))
    (hopen : ¬ Delimiters.standard.EndsOpen p) (hslash : p.back? ≠ some '/') (hc : '\n' ∉ c.toList) :
    ∃ l₁ l₂, classify (table words) .standard (commented p c r) none =
        .ok (l₁ ++ ⟨p.size, commentStop p c, .comment⟩ :: l₂) ∧
      Course (table words) .standard (commented p c r) p.size 0 l₁ ∧
      Course (table words) .standard (commented p c r) (commented p c r).size
        (commentStop p c + 1) l₂ := by
  have hr : ∀ rule ∈ table words, rule.capturesBehind = false :=
    fun _ => capturesBehind_of_mem_table
  have hcomment := isComment_commented (p := p) (r := r) hc
  obtain ⟨l₁, l₂, hrun, hfront, hafter⟩ := classify_around hr (by decide)
    (clear_commented hopen hslash) (.inl hcomment.opens) hcomment.regionAt_eq
  have hlt : commentStop p c < (commented p c r).size := by
    rw [size_commented]
    omega
  refine ⟨l₁, l₂, hrun, hfront, hafter.skipped hlt not_opens_lineEnd fun e code he => ?_⟩
  exact firstClaim?_of_spacing he code.le_stop not_opens_lineEnd ⟨'\n', commented_lineEnd, rfl⟩

end Standard

/-! ## Comments that say different things -/

/-- The classifications of `p` and `r` with the one comment between them and with the other are the
same, beside the comment: in front of it as they are, and after it counted from its end. -/
def SameBeside (rules : RuleTable) (p c₁ c₂ r : Text) : Prop :=
  ∃ before after : List Span, ∀ c, c = c₁ ∨ c = c₂ →
    classify rules .standard (commented p c r) none =
      .ok (before ++ ⟨p.size, commentStop p c, .comment⟩ :: after.map (Span.up (commentStop p c)))

theorem has_rest : (commented p c r).Has q (commentStop p c + 1) ↔ r.Has q 0 := by
  have hhead : (commented p c r)[commentStop p c + 1]? = r[0]? := commented_rest (x := 0)
  rw [Text.Has, Text.Has, hhead]

namespace Standard

variable {words : KeywordSet → List (List Char)}

/-- In front of the comment both texts have one course. -/
theorem course_front (h : Course (table words) .standard (commented p c₁ r) p.size 0 l) :
    Course (table words) .standard (commented p c₂ r) p.size 0 l :=
  course_of_agree_front (Framed.agreeUpTo_front (by decide)) h

/-- After the line end of the comment both texts have one course, counted from the comment. -/
theorem course_rest (hfn : r.Has isNameHead 0 → endsInFn c₁ = endsInFn c₂)
    (hopening : r.Has isLowerHead 0 → endsInOpening c₁ = endsInOpening c₂)
    (h : Course (table words) .standard (commented p c₁ r) (commented p c₁ r).size
      (commentStop p c₁ + 1) l) :
    ∃ l' : List Span, l = l'.map (Span.up (commentStop p c₁)) ∧
      Course (table words) .standard (commented p c₂ r) (commented p c₂ r).size
        (commentStop p c₂ + 1) (l'.map (Span.up (commentStop p c₂))) := by
  have hagree : Delimiters.standard.AgreeUpTo (commented p c₁ r) (commented p c₂ r)
      (commentStop p c₁) (commentStop p c₂) (1 + r.size) (1 + r.size) := Framed.agreeUpTo_rest
  rw [size_commented] at h ⊢
  refine course_of_agree_mark hagree commented_lineEnd (by decide) (by decide)
    (fun hhead => ?_) (fun hhead => ?_) h
  · rw [followsFn_commented, followsFn_commented, hfn (has_rest.mp hhead)]
  · rw [followsOpening_commented, followsOpening_commented, hopening (has_rest.mp hhead)]

end Standard

/-- **What a comment says does not matter beside it**, except for what it ends in. For every text and
every vocabulary whose word classes can be built, with the standard layout and marks: if nothing is
open at the end of `p` and `p` does not end in a slash, `p` and `r` are classified alike around any
two comments of one line. If `r` begins with a letter or an underscore, the comments both have to end
in the word `fn` or not, and if the letter is lowercase or an underscore, both in an opening or not. -/
theorem classify_commented {v : Vocabulary} {classes : List WordClass}
    (hv : v.classes = .ok classes) (hopen : ¬ Delimiters.standard.EndsOpen p)
    (hslash : p.back? ≠ some '/') (hc₁ : '\n' ∉ c₁.toList) (hc₂ : '\n' ∉ c₂.toList)
    (hfn : r.Has Standard.isNameHead 0 → endsInFn c₁ = endsInFn c₂)
    (hopening : r.Has Standard.isLowerHead 0 → endsInOpening c₁ = endsInOpening c₂) :
    ∃ rules, v.rules = .ok rules ∧ SameBeside rules p c₁ c₂ r := by
  refine ⟨_, v.rules_eq_table hv, ?_⟩
  -- each classification has its own two courses, and both are courses of the other text
  obtain ⟨before, l, hrun, hfront, hrest⟩ :=
    Standard.classify_commented_parts v.words hopen hslash hc₁
  obtain ⟨before', l', hrun', hfront', hrest'⟩ :=
    Standard.classify_commented_parts v.words hopen hslash hc₂
  obtain rfl := (Standard.course_front hfront).unique hfront'
  obtain ⟨after, rfl, hafter⟩ := Standard.course_rest hfn hopening hrest
  obtain rfl := hafter.unique hrest'
  refine ⟨before, after, ?_⟩
  rintro c (rfl | rfl)
  · exact hrun
  · exact hrun'

/-- The theorem holds of two comments that both end in a parenthesis, in front of a parameter. -/
theorem classify_commented_parameter :
    ∃ classes, Vocabulary.standard.classes = .ok classes ∧
      ¬ Delimiters.standard.EndsOpen (Text.ofString "x ") ∧ (Text.ofString "x ").back? ≠ some '/' ∧
      '\n' ∉ (Text.ofString "it's (").toList ∧ '\n' ∉ (Text.ofString "(").toList ∧
      endsInFn (Text.ofString "it's (") = endsInFn (Text.ofString "(") ∧
      endsInOpening (Text.ofString "it's (") = endsInOpening (Text.ofString "(") ∧
      ∃ rules, Vocabulary.standard.rules = .ok rules ∧
        SameBeside rules (Text.ofString "x ") (Text.ofString "it's (") (Text.ofString "(")
          (Text.ofString "y") := by
  obtain ⟨classes, hv⟩ := Vocabulary.exists_classes_standard
  have hquiet : ∀ i, ¬ Delimiters.standard.Opens (Text.ofString "x ") i := by
    intro i hopens
    have hlt : i < 2 := hopens.lt_size
    obtain rfl | rfl : i = 0 ∨ i = 1 := by omega
    · exact Standard.not_opens_of_char (y := 'x') rfl (by decide) hopens
    · exact Standard.not_opens_of_char (y := ' ') rfl (by decide) hopens
  have hopen := Delimiters.not_endsOpen hquiet
  have hslash : (Text.ofString "x ").back? ≠ some '/' := by decide
  have hc₁ : '\n' ∉ (Text.ofString "it's (").toList := by decide
  have hc₂ : '\n' ∉ (Text.ofString "(").toList := by decide
  have hfn : endsInFn (Text.ofString "it's (") = endsInFn (Text.ofString "(") := by decide
  have hopening : endsInOpening (Text.ofString "it's (") = endsInOpening (Text.ofString "(") := by
    decide
  exact ⟨classes, hv, hopen, hslash, hc₁, hc₂, hfn, hopening,
    classify_commented hv hopen hslash hc₁ hc₂ (fun _ => hfn) fun _ => hopening⟩

/-- Without a condition on what the comments end in, the classifications differ: after a comment that
ends in a parenthesis a name is a parameter, after an empty one it is a variable. -/
theorem classify_commented_opening :
    ¬ Delimiters.standard.EndsOpen #[] ∧ (#[] : Text).back? ≠ some '/' ∧
      '\n' ∉ (Text.ofString "(").toList ∧ '\n' ∉ (#[] : Text).toList ∧
      ∃ classes rules, Vocabulary.standard.classes = .ok classes ∧
        Vocabulary.standard.rules = .ok rules ∧
        ¬ SameBeside rules #[] (Text.ofString "(") #[] (Text.ofString "foo") := by
  have hopen : ¬ Delimiters.standard.EndsOpen #[] :=
    Delimiters.not_endsOpen fun i hopens => absurd hopens.lt_size (Nat.not_lt_zero i)
  obtain ⟨classes, hv⟩ := Vocabulary.exists_classes_standard
  refine ⟨hopen, by decide, by decide, by decide, classes, _, hv,
    Vocabulary.standard.rules_eq_table hv, ?_⟩
  rintro ⟨before, after, h⟩
  have hmarked : classify (Standard.table Vocabulary.standard.words) .standard
      (commented #[] (Text.ofString "(") (Text.ofString "foo")) none =
        .ok [⟨0, 3, .comment⟩, ⟨4, 7, .parameter⟩] := by
    rfl
  have hplain : classify (Standard.table Vocabulary.standard.words) .standard
      (commented #[] #[] (Text.ofString "foo")) none =
        .ok [⟨0, 2, .comment⟩, ⟨3, 6, .variableReference⟩] := by
    rfl
  have hmarked' := hmarked.symm.trans (h _ (.inl rfl))
  have hplain' := hplain.symm.trans (h _ (.inr rfl))
  -- the categories of the one and of the other would be the same
  have hcategories : ∀ a s, s.category = Category.comment →
      (before ++ s :: after.map (Span.up a)).map Span.category =
        before.map Span.category ++ .comment :: after.map Span.category := by
    intro a s hs
    simp [hs, Function.comp_def]
  have hsame := congrArg (List.map Span.category) (Except.ok.inj hmarked')
  have hsame' := congrArg (List.map Span.category) (Except.ok.inj hplain')
  rw [hcategories _ _ rfl] at hsame hsame'
  have heq := hsame.trans hsame'.symm
  revert heq
  decide

end VSyntax
