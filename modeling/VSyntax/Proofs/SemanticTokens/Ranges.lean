import VSyntax.Workspace
import VSyntax.Proofs.Session
import VSyntax.Proofs.Standard.Aligned
import VSyntax.Proofs.SemanticTokens.Placed

/-!
# Tokens of ranges of lines

The tokens of a range of whole lines are those tokens of the document that stand on the lines
(`Workspace.tokensBetween_lines`). Between the starts of two lines the spans are those of the whole
text, clipped, since a line start is beside a line end. No piece crosses a line start, so clipping
keeps a piece as it is or drops it, and it keeps the ones that begin on the lines (`Pieces.clip`).
The numbers of the two answers differ, but each is read as the tokens of its pieces.
-/
namespace VSyntax

variable {t : Text} {units : Option CodeUnits} {s p : Span} {spans ps : List Span}
  {a b k l₁ l₂ x : Nat}

/-! ## Offsets between lines -/

/-- A line begins at the offset, or the text ends. -/
def Text.BetweenLines (t : Text) (a : Nat) : Prop := a ∈ t.lineStarts ∨ a = t.size

namespace Text.BetweenLines

theorem le_size (h : t.BetweenLines a) : a ≤ t.size := by
  rcases h with h | rfl
  · exact lineStart_le_size h
  · exact Nat.le_refl _

/-- Inside the text a line end stands before the offset. -/
theorem before (h : t.BetweenLines a) (hpos : 0 < a) (hlt : a < t.size) :
    t[a - 1]? = some '\n' := by
  rcases h with h | rfl
  · rcases mem_lineStarts.mp h with rfl | ⟨-, hat⟩
    · exact absurd hpos (Nat.lt_irrefl 0)
    · exact hat
  · exact absurd hlt (Nat.lt_irrefl _)

theorem aligned (h : t.BetweenLines a) : Aligned t a := by
  rcases Nat.eq_zero_or_pos a with rfl | hpos
  · exact .inl rfl
  · rcases Nat.eq_or_lt_of_le h.le_size with heq | hlt
    · exact .inr (.inl heq)
    · exact .inr (.inr (.inl ⟨'\n', h.before hpos hlt, rfl⟩))

end Text.BetweenLines

namespace Place

theorem betweenLines_offset : t.BetweenLines (offset t units ⟨k, 0⟩) := by
  rw [offset_lineStart]
  cases hk : t.lineStarts[k]? with
  | none => exact .inr rfl
  | some first => exact .inl (List.mem_of_getElem? hk)

/-- The start of a line is at an offset of the text or before it exactly if the line is that of the
offset or an earlier one. -/
theorem offset_le_iff (hx : x < t.size) :
    offset t units ⟨k, 0⟩ ≤ x ↔ k ≤ lineOf t.lineStarts x := by
  rw [offset_lineStart]
  cases hk : t.lineStarts[k]? with
  | none =>
    have hlen := List.getElem?_eq_none_iff.mp hk
    have hline := Text.lineOf_lt_length (t := t) (x := x)
    simp only [Option.getD_none]
    omega
  | some first => exact Text.lineStart_le_iff hk

/-- The starts of lines stand in the order of the lines. -/
theorem offset_mono (h : l₁ ≤ l₂) : offset t units ⟨l₁, 0⟩ ≤ offset t units ⟨l₂, 0⟩ := by
  have hlast : t.BetweenLines (offset t units ⟨l₂, 0⟩) := betweenLines_offset
  rcases Nat.eq_or_lt_of_le hlast.le_size with heq | hlt
  · rw [heq]
    exact betweenLines_offset.le_size
  · exact (offset_le_iff hlt).mpr (Nat.le_trans h ((offset_le_iff hlt).mp (Nat.le_refl _)))

end Place

/-! ## Pieces of clipped spans -/

/-- No piece crosses the start of a line. -/
theorem IsPiece.stop_le_of_lt (h : IsPiece t s p) (hs : s.stop ≤ t.size) (hb : t.BetweenLines b)
    (hlt : p.start < b) : p.stop ≤ b := by
  have hstop := h.stop_le
  apply Nat.le_of_not_lt
  intro hcross
  exact h.plain (b - 1) (by omega) (by omega) (hb.before (by omega) (by omega))

/-- A piece of a clipped span is a piece of the span, between the two offsets. -/
theorem IsPiece.of_clip {s' : Span} (h : IsPiece t s' p) (hclip : s.clip a b = some s')
    (hs : s.stop ≤ t.size) (ha : t.BetweenLines a) (hb : t.BetweenLines b) :
    IsPiece t s p ∧ a ≤ p.start ∧ p.start < b := by
  unfold Span.clip at hclip
  split at hclip
  · obtain rfl := Option.some.inj hclip
    obtain ⟨hcategory, hne, hge, hle, hplain, hstarts, hends⟩ := h
    simp only at hge hle hstarts hends
    refine ⟨⟨hcategory, hne, by omega, by omega, hplain, ?_, ?_⟩, by omega, by omega⟩
    · rcases hstarts with heq | hat
      · rcases Nat.le_total a s.start with hfirst | hfirst
        · exact .inl (by omega)
        · rcases Nat.eq_zero_or_pos a with hzero | hpos
          · exact .inl (by omega)
          · obtain rfl : p.start = a := by omega
            exact .inr (ha.before hpos (by omega))
      · exact .inr hat
    · rcases hends with heq | hat
      · left
        apply Nat.le_antisymm (by omega)
        apply Nat.le_of_not_lt
        intro hcut
        -- the piece would end at a line start, with the line end in it
        exact hplain (b - 1) (by omega) (by omega) (hb.before (by omega) (by omega))
      · exact .inr hat
  · cases hclip

/-- A piece between the two offsets is a piece of the clipped span. -/
theorem IsPiece.clip (h : IsPiece t s p) (hs : s.stop ≤ t.size) (hb : t.BetweenLines b)
    (hge : a ≤ p.start) (hlt : p.start < b) : ∃ s', s.clip a b = some s' ∧ IsPiece t s' p := by
  have hend := h.stop_le_of_lt hs hb hlt
  obtain ⟨hcategory, hne, hfirst, hlast, hplain, hstarts, hends⟩ := h
  refine ⟨_, if_pos (by omega), hcategory, hne, ?_, ?_, hplain, ?_, ?_⟩
  · show max s.start a ≤ p.start
    omega
  · show p.stop ≤ min s.stop b
    omega
  · show p.start = max s.start a ∨ _
    exact hstarts.imp_left fun heq => by omega
  · show p.stop = min s.stop b ∨ _
    exact hends.imp_left fun heq => by omega

/-- The pieces of clipped spans are the pieces that begin between the two offsets. -/
theorem Pieces.clip (h : Pieces t spans ps) (hs : ∀ s ∈ spans, s.stop ≤ t.size)
    (ha : t.BetweenLines a) (hb : t.BetweenLines b) :
    Pieces t (spans.filterMap (Span.clip a b))
      (ps.filter fun p => decide (a ≤ p.start ∧ p.start < b)) where
  mem_iff p := by
    rw [List.mem_filter, h.mem_iff, decide_eq_true_eq]
    constructor
    · rintro ⟨⟨s, hmem, hpiece⟩, hbounds⟩
      obtain ⟨s', hclip, hpiece'⟩ := hpiece.clip (hs s hmem) hb hbounds.1 hbounds.2
      exact ⟨s', List.mem_filterMap.mpr ⟨s, hmem, hclip⟩, hpiece'⟩
    · rintro ⟨s', hmem', hpiece'⟩
      obtain ⟨s, hmem, hclip⟩ := List.mem_filterMap.mp hmem'
      obtain ⟨hpiece, hbounds⟩ := hpiece'.of_clip hclip (hs s hmem) ha hb
      exact ⟨⟨s, hmem, hpiece⟩, hbounds⟩
  apart := h.apart.sublist List.filter_sublist

namespace SemanticToken

/-- The tokens of spans clipped to whole lines are read as the tokens on these lines. -/
theorem decode_encode_clip (h : OrderedSpans 0 t.size spans)
    (hpart : OrderedSpans 0 t.size (spans.filterMap (Span.clip
      (Place.offset t units ⟨l₁, 0⟩) (Place.offset t units ⟨l₂, 0⟩)))) :
    PlacedToken.decode (encode (ofSpans t units (spans.filterMap (Span.clip
        (Place.offset t units ⟨l₁, 0⟩) (Place.offset t units ⟨l₂, 0⟩))))) =
      (PlacedToken.decode (encode (ofSpans t units spans))).filter fun k =>
        decide (l₁ ≤ k.place.line ∧ k.place.line < l₂) := by
  have hpieces := pieces_of_ordered (t := t) h
  have ha : t.BetweenLines (Place.offset t units ⟨l₁, 0⟩) := Place.betweenLines_offset
  have hb : t.BetweenLines (Place.offset t units ⟨l₂, 0⟩) := Place.betweenLines_offset
  have hclip := hpieces.clip (fun s hs => (h.between s hs).2) ha hb
  rw [(decode_encode units h).1, (decode_encode units hpart).1,
    (pieces_of_ordered hpart).unique hclip, List.filter_map]
  congr 1
  apply List.filter_congr
  intro p hp
  obtain ⟨s, hs, hpiece⟩ := (hpieces.mem_iff p).mp hp
  have hlt : p.start < t.size :=
    Nat.lt_of_lt_of_le hpiece.nonempty (Nat.le_trans hpiece.stop_le (h.between s hs).2)
  have hline : (PlacedToken.ofPiece t units p).place.line = Place.lineOf t.lineStarts p.start := rfl
  have hfirst : Place.offset t units ⟨l₁, 0⟩ ≤ p.start ↔ l₁ ≤ Place.lineOf t.lineStarts p.start :=
    Place.offset_le_iff hlt
  have hlast : Place.offset t units ⟨l₂, 0⟩ ≤ p.start ↔ l₂ ≤ Place.lineOf t.lineStarts p.start :=
    Place.offset_le_iff hlt
  rw [Function.comp_apply, decide_eq_decide, hline]
  omega

end SemanticToken

/-! ## Ranges of a document -/

/-- Between two offsets where lines begin or the text ends, the standard table leaves the spans of
the whole text, clipped, and in order. -/
theorem Standard.classify_between_lines (words : KeywordSet → List (List Char))
    (ha : t.BetweenLines a) (hb : t.BetweenLines b) (hab : a ≤ b) :
    ∃ spans, classify (table words) .standard t none = .ok spans ∧
      classify (table words) .standard t (some ⟨a, b⟩) = .ok (spans.filterMap (Span.clip a b)) ∧
      OrderedSpans 0 t.size spans ∧ OrderedSpans 0 t.size (spans.filterMap (Span.clip a b)) := by
  have hr : ∀ rule ∈ table words, rule.capturesBehind = false :=
    fun _ => capturesBehind_of_mem_table
  have hbounds : Region.bounds (some ⟨a, b⟩) t.size = (a, b) := by
    have := hb.le_size
    simp only [Region.bounds, Region.lower, Region.upper, Prod.mk.injEq]
    omega
  obtain ⟨spans, hrun, hwhole⟩ :=
    classifyWithin_classified (d := .standard) 0 hr (Nat.le_refl t.size)
  obtain ⟨part, hrun', hpart⟩ := classifyWithin_classified (d := .standard) a hr hb.le_size
  obtain rfl := hpart.unique (hwhole.clip hr (by decide) (barrier_of_aligned ha.aligned)
    (severs_of_aligned hb.aligned) hab hb.le_size)
  have hordered := hpart.ordered hr hb.le_size
  refine ⟨spans, hrun, ?_, hwhole.ordered hr (Nat.le_refl _), hordered.nonempty, hordered.apart, ?_⟩
  · rw [classify, hbounds]
    exact hrun'
  · intro s hs
    have := (hordered.between s hs).2
    have := hb.le_size
    omega

/-- **The tokens of a range of lines are those of the document on these lines.** For every open
document, every count of code units and any two lines in order, past the last one or not: both
requests are answered, and what is read off the tokens of the range from the start of the one line to
the start of the other is what is read off the tokens of the document, restricted to the lines from
the one on and before the other. -/
theorem Workspace.tokensBetween_lines {w : Workspace} {uri : String}
    (hw : Session.start .standard .standard = .ok w.session) (ht : w.text uri = .ok t)
    (hl : l₁ ≤ l₂) :
    ∃ full part, w.tokens uri = .ok full ∧ w.tokensBetween uri ⟨l₁, 0⟩ ⟨l₂, 0⟩ = .ok part ∧
      PlacedToken.decode (SemanticToken.encode part) =
        (PlacedToken.decode (SemanticToken.encode full)).filter fun k =>
          decide (l₁ ≤ k.place.line ∧ k.place.line < l₂) := by
  obtain ⟨classes, hv⟩ := Vocabulary.exists_classes_standard
  have hsession := Except.ok.inj ((Session.start_eq_ok hv .standard).symm.trans hw)
  have hrules : w.session.rules = Standard.table Vocabulary.standard.words := by rw [← hsession]
  have hmarks : w.session.delimiters = .standard := by rw [← hsession]
  have ha : t.BetweenLines (Place.offset t (some w.units) ⟨l₁, 0⟩) := Place.betweenLines_offset
  have hb : t.BetweenLines (Place.offset t (some w.units) ⟨l₂, 0⟩) := Place.betweenLines_offset
  have hab : Place.offset t (some w.units) ⟨l₁, 0⟩ ≤ Place.offset t (some w.units) ⟨l₂, 0⟩ :=
    Place.offset_mono hl
  obtain ⟨spans, hfull, hpart, hordered, hordered'⟩ :=
    Standard.classify_between_lines Vocabulary.standard.words ha hb hab
  refine ⟨SemanticToken.ofSpans t (some w.units) spans, _, ?_, ?_,
    SemanticToken.decode_encode_clip hordered hordered'⟩
  · simp only [tokens, ht, tokensOf, Session.classify, hrules, hmarks, hfull, bind, Except.bind]
  · simp only [tokensBetween, ht, tokensOf, Session.classify, hrules, hmarks, hpart, bind,
      Except.bind]

/-- The theorem holds of a workspace of the standard vocabulary, for a range that begins inside a
string and ends past the last line. -/
theorem Workspace.tokensBetween_lines_string :
    ∃ w : Workspace, Session.start .standard .standard = .ok w.session ∧
      w.text "main.v" = .ok (Text.ofString "x '😀\n\nb' y\nz") ∧ 1 ≤ 9 ∧
      ∃ full part, w.tokens "main.v" = .ok full ∧ w.tokensBetween "main.v" ⟨1, 0⟩ ⟨9, 0⟩ = .ok part ∧
        PlacedToken.decode (SemanticToken.encode part) =
          (PlacedToken.decode (SemanticToken.encode full)).filter fun k =>
            decide (1 ≤ k.place.line ∧ k.place.line < 9) := by
  obtain ⟨classes, hv⟩ := Vocabulary.exists_classes_standard
  have hw := Session.start_eq_ok hv .standard
  have ht : Workspace.text ⟨⟨.standard, Standard.table Vocabulary.standard.words, .standard⟩, .utf16,
      [("main.v", Text.ofString "x '😀\n\nb' y\nz")]⟩ "main.v" =
      .ok (Text.ofString "x '😀\n\nb' y\nz") := by
    rfl
  exact ⟨_, hw, ht, by decide, tokensBetween_lines hw ht (by decide)⟩

end VSyntax
