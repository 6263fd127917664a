import VSyntax.Proofs.Standard.Words

/-!
# The spans of words

With the standard rules a word of code is one span or none, and which one is told by the word and by
what stands beside it (`classify_words`). Whether a rule gets to claim a word depends on where the
scan tries it, so the proof follows the walk to the word. No claim crosses the offset where the word
begins, or what stands in front of it: a sigil, or a run of dots. From there on the walk has one way
to go. It leaves an attribute with its sigil; it passes the dots by threes and then by two, and a
single dot that is left over begins the member of a tuple; where the word begins it leaves the claim
of the first rule that applies, and inside the word nothing.
-/
namespace VSyntax

namespace Standard

/-- The spans at the word between two offsets of code. -/
def wordSpans (v : Vocabulary) (t : Text) (i j : Nat) : List Span :=
  let w := (t.slice i j).toList
  if t.follows isSigil i && w.head?.any isNameHead then [⟨i - 1, j, .attribute⟩]
  else if isMemberName w && t.runBefore isDot i % 3 == 1 then [⟨i, j, .tupleReference⟩]
  else ((wordCategory? v t i j).map (Span.mk i j)).toList

/-- Spans that end by `i`, then `mid`, and then the spans of a course from `j` on. -/
def Passes (words : KeywordSet → List (List Char)) (t : Text) (i : Nat) (mid : List Span) (j : Nat)
    (l : List Span) : Prop :=
  ∃ l₁ l₂, l = l₁ ++ (mid ++ l₂) ∧ (∀ s ∈ l₁, s.stop ≤ i) ∧
    Course (table words) .standard t t.size j l₂

variable {v : Vocabulary} {t : Text} {i j x q : Nat} {l mid : List Span}
  {words : KeywordSet → List (List Char)}

theorem Passes.of_course (h : Course (table words) .standard t t.size j l) :
    Passes words t i mid j (mid ++ l) :=
  ⟨[], l, rfl, fun _ hs => absurd hs List.not_mem_nil, h⟩

/-- What the rest of a course passes, the course passes. -/
theorem Passes.trans (h : Passes words t i [] q l)
    (hrest : ∀ l', Course (table words) .standard t t.size q l' → Passes words t i mid j l') :
    Passes words t i mid j l := by
  obtain ⟨l₁, l₂, rfl, hl, hcourse⟩ := h
  obtain ⟨l₃, l₄, rfl, hl', hend⟩ := hrest l₂ hcourse
  refine ⟨l₁ ++ l₃, l₄, by rw [List.nil_append, List.append_assoc], fun s hs => ?_, hend⟩
  rcases List.mem_append.mp hs with hs | hs
  · exact hl s hs
  · exact hl' s hs

/-! ## Code around words -/

/-- The characters of words and of what may stand in front of them. -/
def isLead (c : Char) : Bool := isWordChar c || isSigil c || isDot c

/-- The characters with which comments and strings begin and end. -/
def isMarker (c : Char) : Bool := ['/', '"', '\x27', '\x60', '\n'].contains c

theorem isLead_of_isWordChar {c : Char} (h : isWordChar c = true) : isLead c = true := by
  simp [isLead, h]

theorem isLead_of_isSigil {c : Char} (h : isSigil c = true) : isLead c = true := by
  simp [isLead, h]

theorem isLead_of_isDot {c : Char} (h : isDot c = true) : isLead c = true := by
  simp [isLead, h]

theorem isMarker_of_isLead {c : Char} (h : isLead c = true) : isMarker c = false := by
  rw [Bool.eq_false_iff]
  intro hmarker
  have hother : isLead c = false := not_of_contains (by decide) hmarker
  simp [h] at hother

theorem has_isMarker_of_opens (h : Delimiters.standard.Opens t x) : t.Has isMarker x := by
  rcases h with h | ⟨c, hc, hat⟩
  · exact ⟨'/', ((Text.startsAt_iff.mp h) 0 (by decide)).2, by decide⟩
  · have hstrings : Delimiters.standard.strings.all isMarker = true := by decide
    exact ⟨c, hat, List.all_eq_true.mp hstrings c hc⟩

theorem not_opens_of_isLead (h : t.Has isLead x) : ¬ Delimiters.standard.Opens t x :=
  fun hopens => h.not_both (has_isMarker_of_opens hopens) fun _ => isMarker_of_isLead

/-- A comment or string that does not end the text ends beside a mark. -/
theorem has_isMarker_of_region {o close : Nat} {category : Category}
    (hopens : Delimiters.standard.Opens t o)
    (hfound : Delimiters.standard.regionAt t o t.size = .ok (some (close, category)))
    (hclose : close < t.size) : t.Has isMarker (close - 1) ∨ t.Has isMarker close := by
  rcases Delimiters.isRegion_of_regionAt hopens hfound with ⟨-, hcomment⟩ | ⟨-, hstring⟩
  · rcases hcomment.ends with hat | rfl
    · exact .inr ⟨'\n', ((Text.startsAt_iff.mp hat) 0 (by decide)).2, by decide⟩
    · omega
  · obtain ⟨quote, hquote, -, ⟨last, rfl, -, hat, -⟩ | ⟨rfl, -⟩⟩ := hstring.quoted
    · have hstrings : Delimiters.standard.strings.all isMarker = true := by decide
      exact .inl ⟨quote, hat, List.all_eq_true.mp hstrings quote hquote⟩
    · omega

/-! ## The walk along a word -/

section

variable (h : WordRun t i j)

include h

theorem not_opens_of_word (hx : i ≤ x) (hxj : x < j) : ¬ Delimiters.standard.Opens t x :=
  not_opens_of_isLead ((h.word x hx hxj).imp fun _ => isLead_of_isWordChar)

/-- From inside a word the walk goes on to its end. -/
theorem course_of_inside (hix : i < x) (hxj : x ≤ j)
    (hcourse : Course (table words) .standard t t.size x l) :
    Course (table words) .standard t t.size j l := by
  refine hcourse.skippedTo hxj h.le_size (fun y hy => not_opens_of_word h (by omega)) ?_
  intro y e hy hyj code hlate
  have hfollows : t.follows isWordChar y = true :=
    (Text.follows_iff (by omega)).mpr (h.word (y - 1) (by omega) (by omega))
  exact firstClaim?_inside words hlate code.le_stop (h.word y (by omega) hyj) hfollows

/-- Where a word begins the walk leaves its span, if any, and goes on at its end. -/
theorem course_of_word (hwords : ∀ s w, w ∈ words s ↔ v.gives s w = true)
    (hdigit : ¬ t.Has Unicode.isDecimal i)
    (hcourse : Course (table words) .standard t t.size i l) :
    Passes words t i ((wordCategory? v t i j).map (Span.mk i j)).toList j l := by
  have hlt := h.lt
  have hle := h.le_size
  have hquiet := not_opens_of_word h (Nat.le_refl _) hlt
  have hclaim : ∀ e, Delimiters.standard.CodeTo t t.size i e → i < e →
      firstClaim? .standard t i e (table words) =
        .ok ((wordCategory? v t i j).map (Span.mk i j)) := by
    intro e code hlate
    have hj : j ≤ e := code.le_of_quiet hle fun x hx hxj => not_opens_of_word h hx hxj
    refine firstClaim?_word h hj code.le_stop (fun hat => ?_) hwords hdigit
    -- where the code ended something would open, and no parenthesis does
    apply Nat.lt_of_le_of_ne hj
    intro heq
    have hsize := (Array.getElem?_eq_some_iff.mp hat).1
    have hmarker := has_isMarker_of_opens (code.opens (by omega))
    rw [← heq] at hmarker
    have hparen : t.Has (· == '(') j := ⟨'(', hat, rfl⟩
    exact hmarker.not_char (by decide) hparen
  cases hcategory : wordCategory? v t i j with
  | none =>
    rw [hcategory] at hclaim
    have hrest := hcourse.skipped (by omega) hquiet hclaim
    exact .of_course (course_of_inside h (Nat.lt_succ_self _) hlt hrest)
  | some category =>
    rw [hcategory] at hclaim
    obtain ⟨l', rfl, hrest⟩ := hcourse.claimed (by omega) hquiet hclaim
    exact .of_course hrest

/-- From a sigil the walk leaves the attribute. -/
theorem course_of_sigil (hi : 0 < i) (hsigil : t.Has isSigil (i - 1)) (hhead : t.Has isNameHead i)
    (hcourse : Course (table words) .standard t t.size (i - 1) l) :
    Passes words t i [⟨i - 1, j, .attribute⟩] j l := by
  obtain ⟨x, rfl⟩ : ∃ x, i = x + 1 := ⟨i - 1, by omega⟩
  rw [Nat.add_sub_cancel] at hsigil hcourse ⊢
  have hlt := h.lt
  have hle := h.le_size
  have hquiet : ∀ y, x ≤ y → y < j → ¬ Delimiters.standard.Opens t y := by
    intro y hy hyj
    rcases Nat.eq_or_lt_of_le hy with rfl | hy
    · exact not_opens_of_isLead (hsigil.imp fun _ => isLead_of_isSigil)
    · exact not_opens_of_word h hy hyj
  have hclaim : ∀ e, Delimiters.standard.CodeTo t t.size x e → x < e →
      firstClaim? .standard t x e (table words) = .ok (some ⟨x, j, .attribute⟩) := by
    intro e code hlate
    have hj : j ≤ e := code.le_of_quiet hle hquiet
    rw [firstClaim?_sigil words (by omega) code.le_stop hsigil hhead,
      h.runEnd_eq hj (Nat.le_succ _) hlt]
  obtain ⟨l', rfl, hrest⟩ :=
    hcourse.claimed (by omega) (hquiet x (Nat.le_refl _) (by omega)) hclaim
  exact .of_course hrest

end

/-! ## The walk along dots -/

theorem not_opens_of_dot (h : t.Has isDot x) : ¬ Delimiters.standard.Opens t x :=
  not_opens_of_isLead (h.imp fun _ => isLead_of_isDot)

section

variable (hi : i < t.size) (hend : ¬ t.Has isDot i) (hafter : ¬ Delimiters.standard.Opens t i)

include hi hend hafter

/-- Of two or more dots the walk passes three, or two if there are no more. -/
theorem course_of_two_dots (hdots : t.Spelled isDot x i) (hx : x + 2 ≤ i)
    (hcourse : Course (table words) .standard t t.size x l) :
    Passes words t i [] (if x + 2 = i then i else x + 3) l := by
  have hdot := hdots x (Nat.le_refl _) (by omega)
  have hnext := hdots (x + 1) (by omega) (by omega)
  have hquiet : ∀ y, x ≤ y → y < i + 1 → ¬ Delimiters.standard.Opens t y := by
    intro y hy hlt
    rcases Nat.eq_or_lt_of_le (Nat.le_of_lt_succ hlt) with rfl | hlt
    · exact hafter
    · exact not_opens_of_dot (hdots y hy hlt)
  have hclaim : ∀ e, Delimiters.standard.CodeTo t t.size x e → x < e →
      firstClaim? .standard t x e (table words) =
        .ok (some ⟨x, if x + 2 = i then i else x + 3, .operator⟩) := by
    intro e code hlate
    have he : i + 1 ≤ e := code.le_of_quiet hi hquiet
    rw [firstClaim?_dots words (by omega) code.le_stop hdot hnext]
    by_cases htwo : x + 2 = i
    · have hlast : ¬ t.sees e isDot (x + 2) = true := by
        rw [htwo]
        exact fun hsees => hend (Text.has_of_sees hsees)
      rw [if_neg hlast, if_pos htwo, htwo]
    · have hthird : t.sees e isDot (x + 2) = true :=
        Text.sees_of_has (hdots (x + 2) (by omega) (by omega)) (by omega)
      rw [if_pos hthird, if_neg htwo]
  obtain ⟨l', rfl, hrest⟩ := hcourse.claimed (by omega) (not_opens_of_dot hdot) hclaim
  refine ⟨[_], l', rfl, fun s hs => ?_, hrest⟩
  rw [List.mem_singleton.mp hs]
  split
  · exact Nat.le_refl _
  · show x + 3 ≤ i
    omega

/-- Dots are passed by threes, and then by two; a single one that is left over is not passed. -/
theorem course_of_dots (hdots : t.Spelled isDot x i) (hx : x ≤ i)
    (hcourse : Course (table words) .standard t t.size x l) :
    Passes words t i [] (if (i - x) % 3 = 1 then i - 1 else i) l := by
  induction hn : i - x using Nat.strongRecOn generalizing x l with
  | ind n ih =>
    match n with
    | 0 =>
      obtain rfl : x = i := by omega
      exact .of_course hcourse
    | 1 =>
      obtain rfl : x = i - 1 := by omega
      exact .of_course hcourse
    | n + 2 =>
      have hstep := course_of_two_dots hi hend hafter hdots (by omega) hcourse
      by_cases htwo : x + 2 = i
      · obtain rfl : n = 0 := by omega
        rwa [if_pos htwo] at hstep
      · obtain ⟨m, rfl⟩ : ∃ m, n = m + 1 := ⟨n - 1, by omega⟩
        have hmod : (m + 1 + 2) % 3 = m % 3 := Nat.add_mod_right m 3
        rw [if_neg htwo] at hstep
        rw [hmod]
        exact hstep.trans fun l' hl' => ih m (by omega)
          (fun y hy hlt => hdots y (by omega) hlt) (by omega) hl' (by omega)

end

section

variable (h : WordRun t (x + 1) j) (hdot : t.Has isDot x)

include h hdot

theorem not_opens_of_dotted {y : Nat} (hy : x ≤ y) (hyj : y < j) :
    ¬ Delimiters.standard.Opens t y := by
  rcases Nat.eq_or_lt_of_le hy with rfl | hy
  · exact not_opens_of_dot hdot
  · exact not_opens_of_word h hy hyj

/-- From a single dot the walk leaves the member of a tuple. -/
theorem course_of_member (hmember : isMemberName (t.slice (x + 1) j).toList = true)
    (hcourse : Course (table words) .standard t t.size x l) :
    Passes words t (x + 1) [⟨x + 1, j, .tupleReference⟩] j l := by
  have hlt := h.lt
  have hle := h.le_size
  have hclaim : ∀ e, Delimiters.standard.CodeTo t t.size x e → x < e →
      firstClaim? .standard t x e (table words) = .ok (some ⟨x + 1, j, .tupleReference⟩) := by
    intro e code hlate
    have hj : j ≤ e := code.le_of_quiet hle fun y => not_opens_of_dotted h hdot
    exact firstClaim?_member h hj hdot words code.le_stop hmember
  obtain ⟨l', rfl, hrest⟩ := hcourse.claimed (by omega) (not_opens_of_dot hdot) hclaim
  exact .of_course hrest

/-- From a single dot in front of another word the walk goes on where the word begins. -/
theorem course_of_dot (hmember : isMemberName (t.slice (x + 1) j).toList = false)
    (hcourse : Course (table words) .standard t t.size x l) :
    Passes words t (x + 1) [] (x + 1) l := by
  have hlt := h.lt
  have hle := h.le_size
  obtain ⟨e, code, hlate, hstep⟩ := hcourse.next (by omega) (not_opens_of_dot hdot)
  have hj : j ≤ e := code.le_of_quiet hle fun y => not_opens_of_dotted h hdot
  rcases hstep with ⟨-, hrest⟩ | ⟨s, l', rfl, hclaim, hrest⟩
  · exact .of_course hrest
  · have hstop := stop_le_of_firstClaim?_dot h hj hdot code.le_stop hmember hclaim
    obtain ⟨hfirst, hnonempty, -⟩ :=
      firstClaim?_eq_some (fun _ => capturesBehind_of_mem_table) hlate code.le_stop hclaim
    have hhere : s.stop = x + 1 := by omega
    refine ⟨[s], l', rfl, fun s' hs' => ?_, hhere ▸ hrest⟩
    rw [List.mem_singleton.mp hs']
    exact hstop

end

/-! ## Where the walk meets a word -/

/-- No claim crosses where a sigil stands. -/
theorem barrier_of_sigil (hsigil : t.Has isSigil q) : Barrier (table words) .standard t q := by
  apply barrier_of_not_joins
  intro _ hjoins
  rcases hjoins.here with h | h | h
  · exact hsigil.not_both h fun _ => isWordChar_of_isSigil
  · exact not_has_of_isSigil hsigil (by decide) h
  · exact not_has_of_isSigil hsigil (by decide) h

/-- No claim crosses where a run of dots begins, unless the dot is the point of a numeral. -/
theorem barrier_of_dot (hdot : t.Has isDot q) (hfront : ¬ t.follows isDot q = true)
    (hafter : ¬ t.Has Unicode.isDecimal (q + 1)) : Barrier (table words) .standard t q := by
  apply barrier_of_not_joins
  intro hq hjoins
  cases hjoins with
  | words _ here => exact here.not_char (by decide) hdot
  | marks _ here => exact here.not_char (by decide) hdot
  | dots before => exact hfront ((Text.follows_iff hq).mpr before)
  | sigil _ here => exact here.not_char (by decide) hdot
  | point _ _ after => exact hafter after
  | digit _ here => exact here.not_char (by decide) hdot
  | member _ here => exact here.not_char (by decide) hdot

/-- No claim crosses where a word begins, unless a sigil or a dot stands in front. -/
theorem barrier_of_word (h : WordRun t i j) (hdigit : ¬ t.Has Unicode.isDecimal i)
    (hsigil : ¬ (t.follows isSigil i = true ∧ t.Has isNameHead i))
    (hdot : ¬ t.follows isDot i = true) : Barrier (table words) .standard t i := by
  apply barrier_of_not_joins
  intro hi hjoins
  have hword := h.word i (Nat.le_refl _) h.lt
  cases hjoins with
  | words before => exact h.starts ((Text.follows_iff hi).mpr before)
  | marks _ here => exact here.not_both hword fun _ => isWordChar_of_isMark
  | dots before => exact hdot ((Text.follows_iff hi).mpr before)
  | sigil before here => exact hsigil ⟨(Text.follows_iff hi).mpr before, here⟩
  | point _ here => exact here.not_both hword fun _ => isWordChar_of_isPoint
  | digit _ here => exact hdigit here
  | member before => exact hdot ((Text.follows_iff hi).mpr before)

section

variable (h : WordRun t i j)
  (hout : ∀ close category, ¬ Delimiters.standard.Inside t i close category)
  (hcourse : Course (table words) .standard t t.size 0 l)

include h hout hcourse

/-- The walk to a word outside comments and strings meets what stands in front of the word. -/
theorem passes_to_front (hbar : Barrier (table words) .standard t q) (hq : q ≤ i)
    (hlead : t.Spelled isLead q i) : Passes words t i [] q l := by
  have hlt := h.lt
  have hle := h.le_size
  have hmarker : ∀ y, q ≤ y → y ≤ i → ¬ t.Has isMarker y := by
    intro y hy hyi hhas
    have hhere : t.Has isLead y := by
      rcases Nat.eq_or_lt_of_le hyi with rfl | hyi
      · exact (h.word y (Nat.le_refl _) hlt).imp fun _ => isLead_of_isWordChar
      · exact hlead y hy hyi
    exact hhere.not_both hhas fun _ => isMarker_of_isLead
  rcases hcourse.visit (fun _ => capturesBehind_of_mem_table) hbar Delimiters.Clear.start
      (Nat.zero_le _) (by omega) with
    ⟨-, l₁, l₂, rfl, hl, hrest⟩ |
    ⟨o, close, category, -, -, -, -, ho, hclose, hclear, hopens, hfound, -⟩
  · exact ⟨l₁, l₂, rfl, fun s hs => Nat.le_trans (hl s hs) hq, hrest⟩
  · have hend : close ≤ i := Nat.le_of_not_lt fun hin =>
      hout close category ⟨o, hclear, hopens, hfound, by omega, hin⟩
    -- a comment or string that ended between the offset and the word would end beside a mark
    rcases has_isMarker_of_region hopens hfound (by omega) with hhas | hhas
    · exact (hmarker (close - 1) (by omega) (by omega) hhas).elim
    · exact (hmarker close (by omega) hend hhas).elim

/-- The walk leaves an attribute with its sigil. -/
theorem passes_attribute (hfollows : t.follows isSigil i = true) (hhead : t.Has isNameHead i) :
    Passes words t i [⟨i - 1, j, .attribute⟩] j l := by
  have hi : 0 < i := Nat.pos_of_ne_zero fun hzero => by
    rw [hzero] at hfollows
    cases hfollows
  have hsigil := (Text.follows_iff hi).mp hfollows
  have hlead : t.Spelled isLead (i - 1) i := by
    intro y hy hyi
    obtain rfl : y = i - 1 := by omega
    exact hsigil.imp fun _ => isLead_of_isSigil
  exact (passes_to_front h hout hcourse (barrier_of_sigil hsigil) (Nat.sub_le _ _) hlead).trans
    fun _ => course_of_sigil h hi hsigil hhead

/-- The walk to a word that is no attribute passes the dots in front, but for a single one that is
left over. -/
theorem passes_dots (hdigit : ¬ t.Has Unicode.isDecimal i)
    (hsigil : ¬ (t.follows isSigil i = true ∧ t.Has isNameHead i)) :
    Passes words t i [] (if t.runBefore isDot i % 3 = 1 then i - 1 else i) l := by
  have hlt := h.lt
  have hle := h.le_size
  have hdots : t.Spelled isDot (i - t.runBefore isDot i) i := Text.spelled_runBefore
  have hfront := Text.not_follows_runBefore (t := t) (p := isDot) (x := i)
  have hcount : t.runBefore isDot i ≤ i := Text.runBefore_le
  have hnodot : ¬ t.Has isDot i := fun hhas =>
    hhas.not_both (h.word i (Nat.le_refl _) hlt) fun _ => isWordChar_of_isDot
  have hbar : Barrier (table words) .standard t (i - t.runBefore isDot i) := by
    rcases Nat.eq_zero_or_pos (t.runBefore isDot i) with hnone | hsome
    · rw [hnone] at hfront ⊢
      exact barrier_of_word h hdigit hsigil hfront
    · apply barrier_of_dot (hdots _ (Nat.le_refl _) (by omega)) hfront
      intro hhas
      rcases Nat.eq_or_lt_of_le (show i - t.runBefore isDot i + 1 ≤ i by omega) with heq | hmore
      · exact hdigit (heq ▸ hhas)
      · have hnext := hdots _ (Nat.le_succ _) hmore
        exact hhas.not_char (by decide) hnext
  have hlead := hdots.imp fun _ => isLead_of_isDot
  have hpass := (passes_to_front h hout hcourse hbar (Nat.sub_le _ _) hlead).trans fun _ =>
    course_of_dots (Nat.lt_of_lt_of_le hlt hle) hnodot (not_opens_of_word h (Nat.le_refl _) hlt)
      hdots (Nat.sub_le _ _)
  rwa [Nat.sub_sub_self hcount] at hpass

/-- The walk through the whole text leaves at a word just its spans. -/
theorem passes_word (hwords : ∀ s w, w ∈ words s ↔ v.gives s w = true)
    (hdigit : ¬ t.Has Unicode.isDecimal i) : Passes words t i (wordSpans v t i j) j l := by
  have hle := h.le_size
  have hhead : (t.slice i j).toList.head?.any isNameHead = true ↔ t.Has isNameHead i := by
    rw [head?_any_slice h hle]
    exact ⟨Text.has_of_sees, fun hhas => Text.sees_of_has hhas (Nat.lt_of_lt_of_le h.lt hle)⟩
  unfold wordSpans
  by_cases hsigil : t.follows isSigil i = true ∧ t.Has isNameHead i
  · rw [if_pos (by rw [hsigil.1, hhead.mpr hsigil.2]; rfl)]
    exact passes_attribute h hout hcourse hsigil.1 hsigil.2
  rw [if_neg (by rw [Bool.and_eq_true, hhead]; exact hsigil)]
  have hdots := passes_dots h hout hcourse hdigit hsigil
  by_cases hsingle : t.runBefore isDot i % 3 = 1
  · have hcount : t.runBefore isDot i ≤ i := Text.runBefore_le
    have hrun : t.Spelled isDot (i - t.runBefore isDot i) i := Text.spelled_runBefore
    rw [if_pos hsingle] at hdots
    obtain ⟨x, rfl⟩ : ∃ x, i = x + 1 := ⟨i - 1, by omega⟩
    rw [Nat.add_sub_cancel] at hdots
    have hdot : t.Has isDot x := hrun x (by omega) (Nat.lt_succ_self _)
    apply hdots.trans
    intro l' hl'
    cases hmember : isMemberName (t.slice (x + 1) j).toList with
    | true =>
      rw [beq_iff_eq.mpr hsingle]
      exact course_of_member h hdot hmember hl'
    | false =>
      exact (course_of_dot h hdot hmember hl').trans fun _ => course_of_word h hwords hdigit
  · rw [if_neg hsingle] at hdots
    rw [beq_eq_false_iff_ne.mpr hsingle, Bool.and_false]
    exact hdots.trans fun _ => course_of_word h hwords hdigit

end

end Standard

/-! ## Words of a text -/

namespace Span

/-- Whether a span has a part in `lo, …, hi - 1`. -/
def meets (lo hi : Nat) (s : Span) : Bool := decide (s.start < hi ∧ lo < s.stop)

end Span

variable {t : Text} {i j : Nat}

theorem Standard.meets_of_mem_wordSpans {v : Vocabulary} {s : Span} (hi : i < j)
    (hs : s ∈ wordSpans v t i j) : s.meets i j = true := by
  rw [Span.meets, decide_eq_true_eq]
  simp only [wordSpans] at hs
  split at hs
  · obtain rfl := List.mem_singleton.mp hs
    simp only
    omega
  · split at hs
    · obtain rfl := List.mem_singleton.mp hs
      simp only
      omega
    · obtain ⟨category, -, rfl⟩ := Option.map_eq_some_iff.mp (Option.mem_toList.mp hs)
      simp only
      omega

/-- **A word of code is one span or none.** For every text and every vocabulary whose word classes
can be built, with the standard layout and marks: the spans that meet a whole run of word characters
outside comments and strings, not beginning with a digit, are those that `Standard.wordSpans` reads
off the word and its neighbours. After a sigil a word with an ASCII head is an attribute, sigil
included; after a run of dots whose length leaves one when divided by three, an underscore with
digits is the member of a tuple; every other word is of the first category of
`Standard.wordCategory?` that applies, and is left alone if none does. No mark of a comment or string
is a word character, so a word lies inside one if its first character does. -/
theorem classify_words {v : Vocabulary} {classes : List WordClass} (hv : v.classes = .ok classes)
    (t : Text) :
    ∃ rules spans, v.rules = .ok rules ∧ classify rules .standard t none = .ok spans ∧
      ∀ i j, WordRun t i j → ¬ t.Has Unicode.isDecimal i →
        (∀ close category, ¬ Delimiters.standard.Inside t i close category) →
        spans.filter (Span.meets i j) = Standard.wordSpans v t i j := by
  have hr : ∀ rule ∈ Standard.table v.words, rule.capturesBehind = false :=
    fun _ => Standard.capturesBehind_of_mem_table
  obtain ⟨spans, hrun, hwhole⟩ :=
    classifyWithin_classified (d := .standard) 0 hr (Nat.le_refl t.size)
  refine ⟨_, spans, v.rules_eq_table hv, hrun, fun i j h hdigit hout => ?_⟩
  have hcourse : Course (Standard.table v.words) .standard t t.size 0 spans := by
    cases hwhole with
    | empty hempty => exact .done hempty
    | outside hlt clear course => exact course
    | inside hlt inside => exact absurd inside Delimiters.Clear.start.not_inside
  obtain ⟨l₁, l₂, rfl, hl, hrest⟩ :=
    Standard.passes_word h hout hcourse (Vocabulary.classes_eq hv).2 hdigit
  have hbefore : l₁.filter (Span.meets i j) = [] := by
    rw [List.filter_eq_nil_iff]
    intro s hs
    have := hl s hs
    simp only [Span.meets, decide_eq_true_eq]
    omega
  have hafter : l₂.filter (Span.meets i j) = [] := by
    rw [List.filter_eq_nil_iff]
    intro s hs
    have := ((hrest.ordered hr (Nat.le_refl _)).between s hs).1
    simp only [Span.meets, decide_eq_true_eq]
    omega
  have hhere := List.filter_eq_self.mpr fun s hs =>
    Standard.meets_of_mem_wordSpans (v := v) (t := t) (s := s) h.lt hs
  simp only [List.filter_append, hbefore, hafter, hhere, List.nil_append, List.append_nil]

/-- The theorem holds of the standard vocabulary, for the member of a tuple. -/
theorem classify_words_member :
    ∃ classes, Vocabulary.standard.classes = .ok classes ∧
      WordRun (Text.ofString "x._1") 2 4 ∧
      ∃ rules spans, Vocabulary.standard.rules = .ok rules ∧
        classify rules .standard (Text.ofString "x._1") none = .ok spans ∧
        spans.filter (Span.meets 2 4) = [⟨2, 4, .tupleReference⟩] := by
  obtain ⟨classes, hv⟩ := Vocabulary.exists_classes_standard
  obtain ⟨rules, spans, hrules, hrun, hword⟩ := classify_words hv (Text.ofString "x._1")
  have hrange : WordRun (Text.ofString "x._1") 2 4 := by
    refine ⟨by decide, fun x hx hlt => ?_, by decide, ?_⟩
    · rcases (by omega : x = 2 ∨ x = 3) with rfl | rfl
      · exact ⟨'_', rfl, by decide⟩
      · exact ⟨'1', rfl, by decide⟩
    · rintro ⟨c, hc, -⟩
      cases hc
  have hdigit : ¬ (Text.ofString "x._1").Has Unicode.isDecimal 2 := by
    rintro ⟨c, hc, hdecimal⟩
    cases hc
    revert hdecimal
    decide
  have hout : ∀ close category,
      ¬ Delimiters.standard.Inside (Text.ofString "x._1") 2 close category := by
    rintro close category ⟨o, -, hopens, -⟩
    obtain ⟨c, hc, hmarker⟩ := Standard.has_isMarker_of_opens hopens
    have hnone : (Text.ofString "x._1").toList.any Standard.isMarker = false := by decide
    obtain ⟨ho, heq⟩ := Array.getElem?_eq_some_iff.mp hc
    have hmem : c ∈ (Text.ofString "x._1").toList :=
      Array.mem_toList_iff.mpr (heq ▸ Array.getElem_mem ho)
    exact List.any_eq_false.mp hnone c hmem hmarker
  exact ⟨classes, hv, hrange, rules, spans, hrules, hrun, hword 2 4 hrange hdigit hout⟩

end VSyntax
