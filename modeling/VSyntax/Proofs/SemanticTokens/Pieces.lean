import VSyntax.SemanticTokens
import VSyntax.Proofs.Lines
import VSyntax.Proofs.Classify.Order

/-!
# Pieces of spans

A piece of a span is a stretch of it on one line that cannot be made longer (`IsPiece`): not empty,
without a line end, from the start of the span or of a line up to the end of the span or of the
line. The encoder finds just these (`SemanticToken.mem_pieces`), in order, and a list of spans has
one list of pieces (`Pieces.unique`).
-/
namespace VSyntax

variable {t : Text} {s p : Span} {spans ps : List Span} {lo hi stop steps pos : Nat}
  {category : Category}

/-! ## Pieces -/

/-- The stretch `p` is what the span `s` has on one line. -/
structure IsPiece (t : Text) (s p : Span) : Prop where
  category_eq : p.category = s.category
  nonempty : p.start < p.stop
  start_le : s.start ≤ p.start
  stop_le : p.stop ≤ s.stop
  plain : ∀ i, p.start ≤ i → i < p.stop → t[i]? ≠ some '\n'
  starts : p.start = s.start ∨ t[p.start - 1]? = some '\n'
  ends : p.stop = s.stop ∨ t[p.stop]? = some '\n'

/-- No piece begins where its span has ended. -/
theorem IsPiece.not_after (h : IsPiece t s p) (hpos : s.stop ≤ pos) : ¬ pos ≤ p.start := by
  have := h.nonempty
  have := h.stop_le
  omega

/-- The list holds the pieces of the spans, all of them and nothing else, one after the other. -/
structure Pieces (t : Text) (spans ps : List Span) : Prop where
  mem_iff : ∀ p, p ∈ ps ↔ ∃ s ∈ spans, IsPiece t s p
  apart : ps.Pairwise fun a b => a.stop ≤ b.start

namespace Pieces

theorem nonempty (h : Pieces t spans ps) (hp : p ∈ ps) : p.start < p.stop := by
  obtain ⟨s, -, hpiece⟩ := (h.mem_iff p).mp hp
  exact hpiece.nonempty

/-- No piece stands twice in the list. -/
theorem nodup (h : Pieces t spans ps) : ps.Nodup := by
  refine (h.apart.imp_of_mem fun {a b} ha _ hab => ?_)
  rintro rfl
  have := h.nonempty ha
  omega

/-- A list of spans has one list of pieces. -/
theorem unique {ps' : List Span} (h : Pieces t spans ps) (h' : Pieces t spans ps') : ps = ps' := by
  have hperm : ps.Perm ps' := by
    rw [List.perm_ext_iff_of_nodup h.nodup h'.nodup]
    intro p
    rw [h.mem_iff, h'.mem_iff]
  refine hperm.eq_of_pairwise (fun a b ha hb hab hba => ?_) h.apart h'.apart
  have := h.nonempty ha
  have := h'.nonempty hb
  omega

end Pieces

namespace SemanticToken

/-! ## The search for pieces -/

theorem piecesFrom_of_le (h : stop ≤ pos) : piecesFrom t category stop steps pos = [] := by
  cases steps with
  | zero => rfl
  | succ steps => simp [piecesFrom, Nat.not_lt.mpr h]

section

variable {close : Nat} (hle : pos ≤ close) (hend : close ≤ s.stop)
  (hplain : ∀ i, pos ≤ i → i < close → t[i]? ≠ some '\n')
  (hends : close < s.stop → t[close]? = some '\n')

include hend hplain hends

/-- Up to the next line end there is one piece, if it is not empty. -/
theorem isPiece_upTo (hne : pos < close) (hpos : s.start ≤ pos)
    (hfront : pos = s.start ∨ t[pos - 1]? = some '\n') :
    IsPiece t s ⟨pos, close, s.category⟩ :=
  ⟨rfl, hne, hpos, hend, hplain, hfront, (Nat.eq_or_lt_of_le hend).imp id hends⟩

/-- A piece that begins by the next line end is the one up to there. -/
theorem eq_of_isPiece (hpos : s.start ≤ pos) (hpiece : IsPiece t s p) (hge : pos ≤ p.start)
    (hstart : p.start ≤ close) : pos < close ∧ p = ⟨pos, close, s.category⟩ := by
  have hnonempty := hpiece.nonempty
  have hstop := hpiece.stop_le
  have hbefore : p.stop ≤ close := Nat.le_of_not_lt fun hlt =>
    hpiece.plain close hstart hlt (hends (by omega))
  have hfirst : p.start = pos := by
    rcases hpiece.starts with heq | hat
    · omega
    · rcases Nat.eq_or_lt_of_le hge with heq | hgt
      · exact heq.symm
      · exact absurd hat (hplain (p.start - 1) (by omega) (by omega))
  have hlast : p.stop = close := by
    rcases hpiece.ends with heq | hat
    · omega
    · rcases Nat.eq_or_lt_of_le hbefore with heq | hlt
      · exact heq
      · exact absurd hat (hplain p.stop (by omega) hlt)
  refine ⟨by omega, ?_⟩
  rw [← hfirst, ← hlast, ← hpiece.category_eq]

end

/-- From an offset where a piece may begin, the search finds the pieces that begin there or
later. -/
theorem mem_piecesFrom (hpos : s.start ≤ pos) (hsteps : s.stop ≤ pos + steps)
    (hfront : pos < s.stop → pos = s.start ∨ t[pos - 1]? = some '\n') :
    p ∈ piecesFrom t s.category s.stop steps pos ↔ IsPiece t s p ∧ pos ≤ p.start := by
  induction steps generalizing pos with
  | zero => exact iff_of_false List.not_mem_nil fun h => h.1.not_after hsteps h.2
  | succ steps ih =>
    by_cases hlt : pos < s.stop
    · obtain ⟨hle, hend, hplain, hends⟩ := Text.find?_char_spec (t := t) (c := '\n')
        (Nat.le_of_lt hlt)
      simp only [piecesFrom, if_pos hlt]
      generalize (t.find? ['\n'] pos s.stop).getD s.stop = close at hle hend hplain hends ⊢
      have hrest : p ∈ piecesFrom t s.category s.stop steps (close + 1) ↔
          IsPiece t s p ∧ close + 1 ≤ p.start :=
        ih (by omega) (by omega) fun hmore => .inr (hends (by omega))
      -- a piece begins in this stretch, and then it is the stretch, or after it
      have hsplit : IsPiece t s p ∧ pos ≤ p.start ↔
          (pos < close ∧ p = ⟨pos, close, s.category⟩) ∨ IsPiece t s p ∧ close + 1 ≤ p.start := by
        constructor
        · rintro ⟨hpiece, hge⟩
          rcases Nat.lt_or_ge close p.start with hgt | hstart
          · exact .inr ⟨hpiece, hgt⟩
          · exact .inl (eq_of_isPiece hend hplain hends hpos hpiece hge hstart)
        · rintro (⟨hne, rfl⟩ | ⟨hpiece, hgt⟩)
          · exact ⟨isPiece_upTo hend hplain hends hne hpos (hfront hlt), Nat.le_refl _⟩
          · exact ⟨hpiece, by omega⟩
      rw [hsplit, ← hrest]
      by_cases hne : pos < close
      · rw [if_pos hne, List.mem_cons]
        simp only [hne, true_and]
      · rw [if_neg hne]
        simp only [hne, false_and, false_or]
    · have hge : s.stop ≤ pos := Nat.le_of_not_lt hlt
      rw [piecesFrom_of_le hge]
      exact iff_of_false List.not_mem_nil fun h => h.1.not_after hge h.2

/-- The pieces of a span are its longest stretches on one line. -/
theorem mem_pieces : p ∈ pieces t s ↔ IsPiece t s p := by
  rw [pieces, mem_piecesFrom (Nat.le_refl _) (by omega) fun _ => .inl rfl]
  exact ⟨And.left, fun h => ⟨h, h.start_le⟩⟩

theorem piecesFrom_apart :
    (piecesFrom t category stop steps pos).Pairwise (fun a b => a.stop ≤ b.start) ∧
      ∀ p ∈ piecesFrom t category stop steps pos, pos ≤ p.start := by
  induction steps generalizing pos with
  | zero => exact ⟨.nil, fun p hp => absurd hp List.not_mem_nil⟩
  | succ steps ih =>
    unfold piecesFrom
    by_cases hlt : pos < stop
    · have hle := (Text.find?_char_spec (t := t) (c := '\n') (Nat.le_of_lt hlt)).1
      rw [if_pos hlt]
      simp only
      generalize (t.find? ['\n'] pos stop).getD stop = close at hle ⊢
      obtain ⟨hapart, hafter⟩ := @ih (close + 1)
      have hrest : ∀ p ∈ piecesFrom t category stop steps (close + 1), pos ≤ p.start := by
        intro p hp
        have := hafter p hp
        omega
      split
      · refine ⟨List.pairwise_cons.mpr ⟨fun p hp => ?_, hapart⟩, fun p hp => ?_⟩
        · exact Nat.le_of_succ_le (hafter p hp)
        · rcases List.mem_cons.mp hp with rfl | hp
          · exact Nat.le_refl _
          · exact hrest p hp
      · exact ⟨hapart, hrest⟩
    · rw [if_neg hlt]
      exact ⟨.nil, fun p hp => absurd hp List.not_mem_nil⟩

/-- The pieces of ordered spans, span by span, are their pieces in order. -/
theorem pieces_of_ordered (h : OrderedSpans lo hi spans) :
    Pieces t spans (spans.flatMap (pieces t)) where
  mem_iff p := by simp only [List.mem_flatMap, mem_pieces]
  apart := by
    rw [List.pairwise_flatMap]
    refine ⟨fun s _ => piecesFrom_apart.1, h.apart.imp fun {a b} hab p hp q hq => ?_⟩
    have := (mem_pieces.mp hp).stop_le
    have := (mem_pieces.mp hq).start_le
    omega

end SemanticToken

end VSyntax
