import VSyntax.Proofs.Regex.Agree
import VSyntax.Proofs.Delimiters.Agree
import VSyntax.Proofs.Classify.Course

/-!
# Courses in texts that agree

Where two texts agree on a stretch and the rules claim the same in both, the stretch has the same
course in both texts, and its spans are the same counted from where the stretch begins
(`Course.agree`). A word rule looks at one character in front of the offset, a shape rule as far
behind as its expression does; `Rule.claimsAlike_words` and `Rule.claimsAlike_shape` say that they
claim the same if that much is known.
-/
namespace VSyntax

open Text (Agree Known)

variable {rules : RuleTable} {d : Delimiters} {t t' : Text} {a b m n L w x e : Nat}
  {l : List Span}

/-- A span counted from an offset, as a span of the text. -/
def Span.up (a : Nat) (s : Span) : Span := ⟨a + s.start, a + s.stop, s.category⟩

@[simp]
theorem Span.up_category (a : Nat) (s : Span) : (s.up a).category = s.category := rfl

theorem Span.up_injective (a : Nat) : Function.Injective (Span.up a) := by
  rintro ⟨first, last, category⟩ ⟨first', last', category'⟩ h
  simp only [Span.up, Span.mk.injEq, Nat.add_left_cancel_iff] at h
  obtain ⟨rfl, rfl, rfl⟩ := h
  rfl

/-! ## Claims -/

/-- The rule claims the same in both texts, counted from where the stretch begins. -/
def Rule.ClaimsAlike (d : Delimiters) (t t' : Text) (a b x e : Nat) (rule : Rule) : Prop :=
  ∃ c : Option (Nat × Nat),
    rule.claim? d t (a + x) (a + e) = .ok (c.map fun s => (a + s.1, a + s.2)) ∧
      rule.claim? d t' (b + x) (b + e) = .ok (c.map fun s => (b + s.1, b + s.2))

/-- Whole words are the same in texts that agree. -/
theorem Rule.claimsAlike_words {name : String} {category : Category} {words : List (List Char)}
    (h : t.Agree t' a b n) (hx : x < e) (he : e ≤ n) (hk : Known a b 1 x) :
    (Rule.words name category words).ClaimsAlike d t t' a b x e := by
  have hsees : t.sees (a + e) d.isWord (a + x) = t'.sees (b + e) d.isWord (b + x) := h.sees_eq he
  have hfollows : t.follows d.isWord (a + x) = t'.follows d.isWord (b + x) :=
    h.follows_eq (by omega) hk
  have hrun : ∃ r, x ≤ r ∧ t.runEnd d.isWord (a + e) (a + x) = a + r ∧
      t'.runEnd d.isWord (b + e) (b + x) = b + r := h.runEnd_eq he
  obtain ⟨r, -, hr, hr'⟩ := hrun
  have hend : a + r ≤ a + e := hr ▸ Text.runEnd_le (Nat.add_le_add_left (Nat.le_of_lt hx) a)
  have hslice : t.slice (a + x) (a + r) = t'.slice (b + x) (b + r) := h.slice_eq (by omega)
  have hsize := h.le_size
  have hsize' := h.le_size'
  refine ⟨if t.sees (a + e) d.isWord (a + x) = true ∧ ¬ t.follows d.isWord (a + x) = true ∧
    (t.slice (a + x) (a + r)).toList ∈ words then some (x, r) else none, ?_, ?_⟩
  · simp only [claim?]
    rw [wordClaim?_eq (by omega) (by omega), hr]
    split
    · rfl
    · rfl
  · simp only [claim?]
    rw [wordClaim?_eq (by omega) (by omega), hr', ← hsees, ← hfollows, ← hslice]
    split
    · rfl
    · rfl

/-- What a shape claims, if its match is one counted from an offset. -/
theorem shapeClaim?_up {regex : Regex} {group : Nat} {found : Option Regex.Match}
    (h : Regex.matchAt? regex t (a + x) (a + e) = found.map (Regex.Match.up a)) :
    shapeClaim? regex group t (a + x) (a + e) =
      ((found.bind (Regex.Match.extent? · group)).filter fun s => decide (s.1 < s.2)).map
        fun s => (a + s.1, a + s.2) := by
  unfold shapeClaim?
  rw [h]
  cases found with
  | none => rfl
  | some r =>
    simp only [Option.map_some, Option.bind_some, Regex.Match.extent?_up]
    cases r.extent? group with
    | none => rfl
    | some c =>
      obtain ⟨first, last⟩ := c
      by_cases hlt : first < last
      · simp [hlt, Option.filter]
      · simp [hlt, Option.filter]

/-- A shape that looks behind no further than is known claims the same in texts that agree. -/
theorem Rule.claimsAlike_shape {name : String} {category : Category} {regex : Regex} {group : Nat}
    (h : t.Agree t' a b n) (hx : x ≤ e) (he : e ≤ n) (hr : regex.body.within w = true)
    (hk : Known a b w x) :
    (Rule.shape name category regex group).ClaimsAlike d t t' a b x e := by
  obtain ⟨found, hfound, hfound'⟩ := Regex.matchAt?_agree h he hr hx hk
  exact ⟨_, congrArg Except.ok (shapeClaim?_up hfound), congrArg Except.ok (shapeClaim?_up hfound')⟩

/-- Rules that claim the same have the same first claim. -/
theorem firstClaim?_agree (h : ∀ rule ∈ rules, rule.ClaimsAlike d t t' a b x e) :
    ∃ c : Option Span, firstClaim? d t (a + x) (a + e) rules = .ok (c.map (Span.up a)) ∧
      firstClaim? d t' (b + x) (b + e) rules = .ok (c.map (Span.up b)) := by
  induction rules with
  | nil => exact ⟨none, rfl, rfl⟩
  | cons rule rules ih =>
    obtain ⟨c, hc, hc'⟩ := h rule List.mem_cons_self
    cases c with
    | none =>
      rw [firstClaim?_cons_of_none hc, firstClaim?_cons_of_none hc']
      exact ih fun r hr => h r (List.mem_cons_of_mem _ hr)
    | some s =>
      rw [firstClaim?_cons_of_some hc, firstClaim?_cons_of_some hc']
      exact ⟨some ⟨s.1, s.2, rule.category⟩, rfl, rfl⟩

/-! ## Courses -/

/-- **One course in both texts.** Where the texts agree and the rules claim the same from an offset
of the stretch on, the course from there to the end of the stretch is the same. -/
theorem Course.agree {x₀ : Nat} (hr : ∀ rule ∈ rules, rule.capturesBehind = false)
    (h : d.AgreeUpTo t t' a b m L)
    (hclaims : ∀ x e, x₀ ≤ x → x < e → e ≤ m → ∀ rule ∈ rules, rule.ClaimsAlike d t t' a b x e)
    (hx : x₀ ≤ x) (hcourse : Course rules d t (a + m) (a + x) l) :
    ∃ l' : List Span, l = l'.map (Span.up a) ∧
      Course rules d t' (b + m) (b + x) (l'.map (Span.up b)) := by
  -- by induction on the course of the one text; each of its steps is a step of the other
  generalize hstop : a + m = stop at hcourse
  generalize hpos : a + x = pos at hcourse
  induction hcourse generalizing x with
  | done hle => exact ⟨[], rfl, .done (by omega)⟩
  | @skip pos e l code hlt unclaimed rest ih =>
    subst hstop hpos
    obtain ⟨y, rfl, code'⟩ := h.codeTo code
    have hy := code.le_stop
    obtain ⟨c, hc, hc'⟩ := firstClaim?_agree (hclaims x y hx (by omega) (by omega))
    rw [unclaimed] at hc
    cases c with
    | some s => cases hc
    | none =>
      obtain ⟨l', rfl, hrest⟩ := ih (x := x + 1) (by omega) rfl
      exact ⟨l', rfl, .skip code' (by omega) hc' hrest⟩
  | @claim pos e s l code hlt claimed rest ih =>
    subst hstop hpos
    obtain ⟨y, rfl, code'⟩ := h.codeTo code
    have hy := code.le_stop
    have hsize := h.agree.le_size
    have hle := h.le
    obtain ⟨hfirst, hnonempty, -, -⟩ := firstClaim?_eq_some hr hlt (by omega) claimed
    obtain ⟨c, hc, hc'⟩ := firstClaim?_agree (hclaims x y hx (by omega) (by omega))
    rw [claimed] at hc
    cases c with
    | none => cases hc
    | some s' =>
      obtain rfl : s = s'.up a := by
        cases hc
        rfl
      have hlater : x₀ ≤ s'.stop := by
        simp only [Span.up] at hfirst hnonempty
        omega
      obtain ⟨l', rfl, hrest⟩ := ih hlater rfl
      exact ⟨s' :: l', rfl, .claim code' (by omega) hc' hrest⟩
  | @region pos close category l hlt opens found rest ih =>
    subst hstop hpos
    have hxm : x < m := by omega
    have hsize := h.agree.le_size
    have hle := h.le
    obtain ⟨close', category', found', hlater, -⟩ :=
      Delimiters.regionAt_openerLimit opens hlt (by omega)
    rw [found] at found'
    cases found'
    rw [h.limit] at found
    obtain ⟨y, rfl, found'⟩ := h.regionAt hxm opens found
    rw [← h.limit'] at found'
    have hmin : min (a + y) (a + m) = a + min y m := Nat.add_min_add_left a y m
    have hmin' : min (b + y) (b + m) = b + min y m := Nat.add_min_add_left b y m
    obtain ⟨l', rfl, hrest⟩ := ih (x := min y m) (by omega) hmin.symm
    refine ⟨⟨x, min y m, category⟩ :: l', ?_, ?_⟩
    · rw [hmin]
      rfl
    · rw [← hmin'] at hrest
      have hregion := Course.region (by omega) ((h.opens_iff hxm).mp opens) found' hrest
      rw [hmin'] at hregion
      exact hregion

end VSyntax
