import VSyntax.Proofs.Standard.Joins
import VSyntax.Proofs.Regex.Cut

/-!
# Parts cut at spaces

With the standard rules a part of a text that begins and ends beside a space, a tab or a line end is
classified as the whole text is, each span intersected with the part (`classify_aligned`). No claim
crosses such an offset, because no claim takes a blank in. No claim before it depends on the text
after it either: each shape stops at a blank (`Regex.Expr.stopsAt`), so it is of no account whether
the text ends at the blank or goes on.
-/
namespace VSyntax

open Regex

variable {t : Text} {pos stop q a b e : Nat}

/-- The characters beside which a part may be cut. -/
def isSpacing (c : Char) : Bool := [' ', '\t', '\r', '\n'].contains c

/-- The offset is the start or the end of the text, or a space, tab, carriage return or line end
stands before it or at it. -/
def Aligned (t : Text) (p : Nat) : Prop :=
  p = 0 ∨ p = t.size ∨ t.Has isSpacing (p - 1) ∨ t.Has isSpacing p

namespace Standard

variable {words : KeywordSet → List (List Char)}

theorem not_isInk_of_isSpacing {c : Char} (h : isSpacing c = true) : isInk c = false :=
  not_of_contains (by decide) h

/-- Both neighbours that a claim holds together have ink. -/
theorem Joins.inked (h : Joins t q) : t.Has isInk (q - 1) ∧ t.Has isInk q := by
  constructor
  · cases h with
    | words before => exact before.imp fun _ => isInk_of_isWordChar
    | marks before => exact before.imp fun _ => isInk_of_isMark
    | dots before => exact before.imp fun _ => isInk_of_isDot
    | sigil before => exact before.imp fun _ => isInk_of_isSigil
    | point before => exact before.imp fun _ => isInk_of_isWordChar
    | digit before => exact before.imp fun _ => isInk_of_isPoint
    | member before => exact before.imp fun _ => isInk_of_isDot
  · rcases h.here with hword | hmark | hdot
    · exact hword.imp fun _ => isInk_of_isWordChar
    · exact hmark.imp fun _ => isInk_of_isMark
    · exact hdot.imp fun _ => isInk_of_isDot

/-! ## No claim crosses -/

theorem barrier_of_aligned (h : Aligned t q) : Barrier (table words) .standard t q := by
  apply barrier_of_not_joins
  intro hq hjoins
  obtain ⟨hbefore, hhere⟩ := hjoins.inked
  rcases h with rfl | rfl | hspace | hspace
  · omega
  · obtain ⟨c, hc, -⟩ := hhere
    exact absurd (Array.getElem?_eq_some_iff.mp hc).1 (Nat.lt_irrefl _)
  · exact hspace.not_both hbefore fun _ => not_isInk_of_isSpacing
  · exact hspace.not_both hhere fun _ => not_isInk_of_isSpacing

/-- Nothing is claimed at a spacing character. -/
theorem firstClaim?_of_spacing (hpos : pos < stop) (hstop : stop ≤ t.size)
    (hquiet : ¬ Delimiters.standard.Opens t pos) (h : t.Has isSpacing pos) :
    firstClaim? .standard t pos stop (table words) = .ok none := by
  have hr : ∀ rule ∈ table words, rule.capturesBehind = false :=
    fun _ => capturesBehind_of_mem_table
  obtain ⟨c, hclaim, -⟩ := firstClaim?_spec (d := .standard) hr hpos hstop
  cases c with
  | none => exact hclaim
  | some s =>
    have hhead := (claimed_of_firstClaim? hpos hstop hquiet hclaim).head
    exact (h.not_both hhead fun _ => not_isInk_of_isSpacing).elim

/-! ## No claim depends on what follows -/

/-- A rule claims the same before a spacing character, whether the code ends there or goes on. -/
theorem claim?_cut {rule : Rule} {c : Char} (hrule : rule ∈ table words) (hcut : Cut t c q stop)
    (hc : isSpacing c = true) (hpos : pos < q) (hstop : stop ≤ t.size)
    (hquiet : ¬ Delimiters.standard.Opens t pos) :
    rule.claim? .standard t pos q = rule.claim? .standard t pos stop := by
  rcases mem_table hrule with ⟨set, rfl⟩ | ⟨name, category, body, hbody, rfl⟩
  · have hsees := hcut.sees_eq hcut.not_word (Nat.le_of_lt hpos)
    have hend : ¬ t.sees stop isWordChar q = true := by
      rw [← hcut.sees_eq hcut.not_word (Nat.le_refl q)]
      exact fun h => absurd (Text.lt_of_sees h) (Nat.lt_irrefl _)
    have hrun : t.runEnd isWordChar q pos = t.runEnd isWordChar stop pos :=
      Text.runEnd_cut (Nat.le_of_lt hpos) hcut.le hend
    simp only [setRule, Rule.claim?, standard_isWord, hsees, hrun,
      wordClaim?_eq hpos (Nat.le_trans hcut.le hstop),
      wordClaim?_eq (Nat.lt_of_lt_of_le hpos hcut.le) hstop]
  · have hstops : shapes.all (fun e => decide (e = charLiteral) || e.stopsAt c) = true :=
      of_contains (p := fun c => shapes.all fun e => decide (e = charLiteral) || e.stopsAt c)
        (by decide) hc
    rcases (Bool.or_eq_true _ _).mp (List.all_eq_true.mp hstops body hbody) with heq | hbody
    · -- a quoted character would begin with a string delimiter, which is no code
      obtain rfl : body = charLiteral := of_decide_eq_true heq
      have hnone : ∀ stop, shapeClaim? ⟨charLiteral, 1⟩ 1 t pos stop = none := by
        intro stop
        cases hclaim : shapeClaim? ⟨charLiteral, 1⟩ 1 t pos stop with
        | none => rfl
        | some extent =>
          obtain ⟨s, hpath, -⟩ := shapeClaim?_path (by decide) hclaim
          obtain ⟨c', hc', hquote⟩ := path_charLiteral hpath
          rw [beq_iff_eq.mp hquote] at hc'
          exact absurd (.inr ⟨'\x60', by decide, hc'⟩) hquiet
      simp only [shapeRule, Rule.claim?, hnone]
    · simp only [shapeRule, Rule.claim?, shapeClaim?,
        matchAt?_cut (r := ⟨body, 1⟩) hcut hbody (Nat.le_of_lt hpos)]

theorem firstClaim?_cut {c : Char} (hcut : Cut t c q stop) (hc : isSpacing c = true)
    (hpos : pos < q) (hstop : stop ≤ t.size) (hquiet : ¬ Delimiters.standard.Opens t pos) :
    firstClaim? .standard t pos q (table words) = firstClaim? .standard t pos stop (table words) :=
  firstClaim?_congr fun _ hrule => claim?_cut hrule hcut hc hpos hstop hquiet

theorem severs_of_aligned (h : Aligned t b) : Severs (table words) .standard t b := by
  intro p e hp hpe code
  have hquiet := code.quiet p (Nat.le_refl _) hpe
  have hword : ∀ {c : Char}, isSpacing c = true → isWordChar c = false := fun hc =>
    not_of_contains (by decide) hc
  have hsize := code.le_stop
  rcases Nat.le_total e b with hle | hle
  · rw [Nat.min_eq_left hle]
  rw [Nat.min_eq_right hle]
  rcases h with rfl | rfl | hspace | hspace
  · omega
  · rw [Nat.le_antisymm hsize hle]
  · -- the code is cut once more in front of the spacing character
    obtain ⟨c, hat, hc⟩ := id hspace
    rcases Nat.lt_or_ge p (b - 1) with hlt | hge
    · have hcut : ∀ {stop}, b ≤ stop → Cut t c (b - 1) stop := fun hstop =>
        ⟨by omega, by omega, fun _ => hat, hword hc⟩
      rw [← firstClaim?_cut (hcut hle) hc hlt hsize hquiet,
        ← firstClaim?_cut (hcut (Nat.le_refl b)) hc hlt (Nat.le_trans hle hsize) hquiet]
    · obtain rfl : p = b - 1 := by omega
      rw [firstClaim?_of_spacing hp (Nat.le_trans hle hsize) hquiet hspace,
        firstClaim?_of_spacing hpe hsize hquiet hspace]
  · obtain ⟨c, hat, hc⟩ := hspace
    exact firstClaim?_cut ⟨by omega, hle, fun _ => hat, hword hc⟩ hc hp hsize hquiet

end Standard

/-! ## Aligned parts -/

theorem Aligned.le_size (h : Aligned t pos) : pos ≤ t.size := by
  rcases h with rfl | rfl | ⟨c, hc, -⟩ | ⟨c, hc, -⟩
  · exact Nat.zero_le _
  · exact Nat.le_refl _
  · have := (Array.getElem?_eq_some_iff.mp hc).1
    omega
  · exact Nat.le_of_lt (Array.getElem?_eq_some_iff.mp hc).1

/-- **Aligned parts are the clipped whole.** For every text and every vocabulary whose word classes
can be built, with the standard layout and marks: between two aligned offsets the classification is
that of the whole text, each span intersected with the part and the empty ones dropped. -/
theorem classify_aligned {v : Vocabulary} {classes : List WordClass}
    (hv : v.classes = .ok classes) (ha : Aligned t a) (hb : Aligned t b) (hab : a ≤ b) :
    ∃ rules spans, v.rules = .ok rules ∧ classify rules .standard t none = .ok spans ∧
      classify rules .standard t (some ⟨a, b⟩) = .ok (spans.filterMap (Span.clip a b)) := by
  have hr : ∀ rule ∈ Standard.table v.words, rule.capturesBehind = false :=
    fun _ => Standard.capturesBehind_of_mem_table
  have hbounds : Region.bounds (some ⟨a, b⟩) t.size = (a, b) := by
    have := hb.le_size
    simp only [Region.bounds, Region.lower, Region.upper, Prod.mk.injEq]
    omega
  obtain ⟨spans, hrun, hwhole⟩ :=
    classifyWithin_classified (d := .standard) 0 hr (Nat.le_refl t.size)
  obtain ⟨part, hrun', hpart⟩ := classifyWithin_classified (d := .standard) a hr hb.le_size
  have hclip := hwhole.clip hr (by decide) (Standard.barrier_of_aligned ha)
    (Standard.severs_of_aligned hb) hab hb.le_size
  refine ⟨_, spans, v.rules_eq_table hv, hrun, ?_⟩
  rw [classify, hbounds, ← hpart.unique hclip]
  exact hrun'

/-- The theorem holds of the standard vocabulary, for a part that begins inside a string. -/
theorem classify_aligned_string :
    ∃ classes, Vocabulary.standard.classes = .ok classes ∧
      Aligned (Text.ofString "x 'b c' f") 5 ∧ Aligned (Text.ofString "x 'b c' f") 8 ∧
      ∃ rules spans, Vocabulary.standard.rules = .ok rules ∧
        classify rules .standard (Text.ofString "x 'b c' f") none = .ok spans ∧
        classify rules .standard (Text.ofString "x 'b c' f") (some ⟨(5 : Nat), (8 : Nat)⟩) =
          .ok (spans.filterMap (Span.clip 5 8)) := by
  obtain ⟨classes, hv⟩ := Vocabulary.exists_classes_standard
  have ha : Aligned (Text.ofString "x 'b c' f") 5 := .inr (.inr (.inl ⟨' ', rfl, rfl⟩))
  have hb : Aligned (Text.ofString "x 'b c' f") 8 := .inr (.inr (.inl ⟨' ', rfl, rfl⟩))
  exact ⟨classes, hv, ha, hb, classify_aligned hv ha hb (by decide)⟩

end VSyntax
