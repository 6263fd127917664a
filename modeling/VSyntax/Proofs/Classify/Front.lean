import VSyntax.Proofs.Delimiters.Front
import VSyntax.Proofs.Classify.Agree
import VSyntax.Proofs.Classify.Clip
import VSyntax.Proofs.Regex.Front

/-!
# What a classification reads of its text

The classification of a region depends on the text up to the end of the region, and on as many
characters beyond it as an opener of comments may reach over that end (`classify_front`). The search
for the comment or string around the start of the region reads on to the end of that, and the
scanner looks for openers beyond the end of the region; what they answer is cut back to the region
each time, and so it is the same in every text with the same front.
-/
namespace VSyntax

open Text (Agree)

variable {rules : RuleTable} {d : Delimiters} {t t' : Text} {a b L pos : Nat} {l : List Span}

/-- A rule claims the same in texts with the same front. -/
theorem Rule.claimsAlike_front {rule : Rule} {x e : Nat} (h : t.Agree t' 0 0 b)
    (hr : rule.capturesBehind = false) (hx : x < e) (he : e ≤ b) :
    rule.ClaimsAlike d t t' 0 0 x e := by
  cases rule with
  | words name category ws => exact claimsAlike_words h hx he (.inr ⟨rfl, rfl⟩)
  | shape name category regex group =>
    have hmatch : Regex.matchAt? regex t x e = Regex.matchAt? regex t' x e :=
      Regex.matchAt?_front (h.take he) hr (Nat.le_of_lt hx)
    have hclaim : shapeClaim? regex group t x e = shapeClaim? regex group t' x e := by
      rw [shapeClaim?, shapeClaim?, hmatch]
    refine ⟨shapeClaim? regex group t x e, ?_, ?_⟩
    · simp only [claim?, Nat.zero_add, Option.map_id']
    · simp only [claim?, Nat.zero_add, Option.map_id', hclaim]

/-- A course in a text is one in every text with the same front. -/
theorem Course.front (hr : ∀ rule ∈ rules, rule.capturesBehind = false)
    (h : d.AgreeUpTo t t' 0 0 b L) (hcourse : Course rules d t b pos l) :
    Course rules d t' b pos l := by
  have hclaims : ∀ x e, 0 ≤ x → x < e → e ≤ b → ∀ rule ∈ rules,
      rule.ClaimsAlike d t t' 0 0 x e := fun x e _ hx he rule hrule =>
    rule.claimsAlike_front (h.agree.take h.le) (hr rule hrule) hx he
  have hmoved : Course rules d t (0 + b) (0 + pos) l := by
    rwa [Nat.zero_add, Nat.zero_add]
  have hup : Span.up 0 = id := by
    funext s
    simp only [Span.up, Nat.zero_add, id_eq]
  obtain ⟨l', rfl, hcourse'⟩ := Course.agree hr h hclaims (Nat.zero_le pos) hmoved
  rw [hup] at hcourse' ⊢
  rwa [Nat.zero_add, Nat.zero_add] at hcourse'

/-- The classification of a region is one in every text with the same front. -/
theorem Classified.front (hr : ∀ rule ∈ rules, rule.capturesBehind = false)
    (hterm : d.commentTerminator.length ≤ d.commentOpener.length)
    (h : d.AgreeUpTo t t' 0 0 b L) (hclassified : Classified rules d t a b l) :
    Classified rules d t' a b l := by
  cases hclassified with
  | empty hle => exact .empty hle
  | outside hlt clear course => exact .outside hlt (clear.front h hterm hlt) (course.front hr h)
  | @inside close category l hlt inside course =>
    obtain ⟨close', inside', hmin⟩ := inside.front h hterm hlt
    rw [← hmin]
    refine .inside hlt inside' ?_
    rcases Nat.lt_or_ge close b with hin | hout
    · obtain rfl : close' = close := by omega
      exact course.front hr h
    · -- the region ends in the comment or string, wherever that ends in each text
      obtain rfl : l = [] := course.unique (.done hout)
      exact .done (by omega)

/-- **Text after a region cannot influence it.** For all marks with a terminator of comments no
longer than the opener, every compiled table that captures nothing behind, and two texts that reach
up to the end of a region and have the same characters that far and over the length of an opener
less one: the region is classified in both, into the same spans. -/
theorem classify_front {host : Regex.Host} {layout : Layout} {classes : List WordClass}
    (hl : layout.capturesBehind host = false) (hc : layout.compile host classes = .ok rules)
    (hterm : d.commentTerminator.length ≤ d.commentOpener.length) (hab : a ≤ b) (hb : b ≤ t.size)
    (h : t.slice 0 (b + d.commentOpener.length - 1) = t'.slice 0 (b + d.commentOpener.length - 1)) :
    ∃ spans, classify rules d t (some ⟨a, b⟩) = .ok spans ∧
      classify rules d t' (some ⟨a, b⟩) = .ok spans := by
  have hr := Layout.not_capturesBehind_of_compile hl hc
  have hagree := Delimiters.AgreeUpTo.of_slice hb h
  have hb' : b ≤ t'.size := hagree.le_size_front.2
  obtain ⟨spans, hrun, hpart⟩ := classifyWithin_classified (d := d) a hr hb
  obtain ⟨spans', hrun', hpart'⟩ := classifyWithin_classified (d := d) a hr hb'
  have hsame := (hpart.front hr hterm hagree).unique hpart'
  refine ⟨spans, ?_, ?_⟩
  · rw [classify, Region.bounds_of_le hab hb]
    exact hrun
  · rw [classify, Region.bounds_of_le hab hb', hsame]
    exact hrun'

/-- The theorem holds of a real table, whose rule repeats what it captured, and of a region that
begins inside a string and ends inside an opener, in a text that ends with the comment and in one
that goes on with another string. -/
theorem classify_front_opener :
    Layout.capturesBehind [.shape ⟨"twice", "(a)\\1", 0, .keyword⟩] .standard = false ∧
      ∃ rules, Layout.compile [.shape ⟨"twice", "(a)\\1", 0, .keyword⟩] .standard [] = .ok rules ∧
        Delimiters.standard.commentTerminator.length ≤ Delimiters.standard.commentOpener.length ∧
        (Text.ofString "x'a'aa//y").slice 0 8 = (Text.ofString "x'a'aa//\n'aa").slice 0 8 ∧
        classify rules .standard (Text.ofString "x'a'aa//y") (some ⟨(2 : Nat), (7 : Nat)⟩) =
          .ok [⟨2, 4, .string⟩, ⟨4, 6, .keyword⟩, ⟨6, 7, .comment⟩] ∧
        classify rules .standard (Text.ofString "x'a'aa//\n'aa") (some ⟨(2 : Nat), (7 : Nat)⟩) =
          .ok [⟨2, 4, .string⟩, ⟨4, 6, .keyword⟩, ⟨6, 7, .comment⟩] := by
  have hl : Layout.capturesBehind [.shape ⟨"twice", "(a)\\1", 0, .keyword⟩] .standard = false := by
    decide +kernel
  have hc : Layout.compile [.shape ⟨"twice", "(a)\\1", 0, .keyword⟩] .standard [] =
      .ok [.shape "twice" .keyword ⟨.seq (.group 1 (.char 97)) (.backref .exact 1), 1⟩ 0] := by
    rfl
  have hterm : Delimiters.standard.commentTerminator.length ≤
      Delimiters.standard.commentOpener.length := by
    decide
  have hfront : (Text.ofString "x'a'aa//y").slice 0 8 =
      (Text.ofString "x'a'aa//\n'aa").slice 0 8 := by
    decide
  have hfirst : classify
      [.shape "twice" .keyword ⟨.seq (.group 1 (.char 97)) (.backref .exact 1), 1⟩ 0] .standard
      (Text.ofString "x'a'aa//y") (some ⟨(2 : Nat), (7 : Nat)⟩) =
        .ok [⟨2, 4, .string⟩, ⟨4, 6, .keyword⟩, ⟨6, 7, .comment⟩] := by
    rfl
  obtain ⟨spans, hrun, hrun'⟩ :=
    classify_front (d := .standard) hl hc hterm (show 2 ≤ 7 by decide) (by decide) hfront
  rw [hrun] at hfirst
  cases hfirst
  exact ⟨hl, _, hc, hterm, hfront, hrun, hrun'⟩

end VSyntax
