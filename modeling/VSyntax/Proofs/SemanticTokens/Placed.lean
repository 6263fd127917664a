import VSyntax.Proofs.Places
import VSyntax.Proofs.SemanticTokens.Pieces

/-!
# Tokens at their places

What an editor reads off the numbers of semantic tokens (`PlacedToken.decode`): it takes five numbers
at a time and sums the first two up, starting the count on a line over where the line changes. For
ordered spans it reads the pieces of the spans, in order, each at its place
(`SemanticToken.encode_pieces`).

The encoder counts a token on from the last one as long as the line is the same. What carries the
proof is that its cursor is always the place of the offset where the last token began; then both
ways of counting give the place of the next piece (`SemanticToken.decodeFrom_ofPieces`).
-/
namespace VSyntax

/-! ## Reading tokens -/

/-- A token where an editor shows it: its place, the code units that it is long, the number of its
category, and its modifiers. -/
structure PlacedToken where
  place : Place
  length : Nat
  kind : Nat
  modifiers : Nat
  deriving DecidableEq, Repr

namespace PlacedToken

/-- The tokens that numbers stand for, five for each, counted on from the place of the last. -/
def decodeFrom (last : Place) : List Int → List PlacedToken
  | line :: unit :: length :: kind :: modifiers :: rest =>
    let place : Place :=
      if line = 0 then ⟨last.line, last.unit + unit.toNat⟩
      else ⟨(last.line + line).toNat, unit.toNat⟩
    ⟨place, length.toNat, kind.toNat, modifiers.toNat⟩ :: decodeFrom place rest
  | _ => []

/-- The tokens that numbers stand for, counted on from the start of the text. -/
def decode (data : List Int) : List PlacedToken := decodeFrom ⟨0, 0⟩ data

/-- The token of a piece. -/
def ofPiece (t : Text) (units : Option CodeUnits) (p : Span) : PlacedToken where
  place := Place.ofOffset t units t.lineStarts p.start
  length := unitCount units (p.text t)
  kind := p.category.index
  modifiers := 0

/-- The token shows the piece: its place and the place at its end stand for the ends of the piece,
the piece lies on the line of the token, and the number is that of the category. -/
structure Shows (t : Text) (units : Option CodeUnits) (p : Span) (k : PlacedToken) : Prop where
  start : k.place.offset t units = p.start
  stop : Place.offset t units ⟨k.place.line, k.place.unit + k.length⟩ = p.stop
  on_line : ∃ first last, t.IsLine k.place.line first last ∧ first ≤ p.start ∧ p.stop ≤ last
  length_eq : k.length = unitCount units (p.text t)
  kind_eq : k.kind = p.category.index
  modifiers_eq : k.modifiers = 0

end PlacedToken

variable {t : Text} {units : Option CodeUnits} {s p : Span} {spans ps : List Span} {last x : Nat}

/-! ## Pieces on their lines -/

/-- A piece that begins on a line ends on it. -/
theorem IsPiece.stop_le_line {k first last : Nat} (h : IsPiece t s p) (hs : s.stop ≤ t.size)
    (hline : t.IsLine k first last) (hxl : p.start ≤ last) :
    p.stop ≤ last := by
  have hstop := h.stop_le
  apply Nat.le_of_not_lt
  intro hlt
  exact h.plain last hxl hlt (hline.ends (by omega))

/-- The token of a piece shows it. -/
theorem PlacedToken.shows_ofPiece (h : IsPiece t s p) (hs : s.stop ≤ t.size) :
    Shows t units p (ofPiece t units p) := by
  have hnonempty := h.nonempty
  have hstop := h.stop_le
  obtain ⟨first, last, hline, hx, hxl⟩ := Text.exists_isLine (t := t) (x := p.start) (by omega)
  have hend := h.stop_le_line hs hline hxl
  have hplace : (ofPiece t units p).place =
      ⟨Place.lineOf t.lineStarts p.start, unitCount units (t.slice first p.start)⟩ :=
    Place.ofOffset_eq hline hx hxl
  have hlength : (ofPiece t units p).length = unitCount units (t.slice p.start p.stop) := rfl
  refine ⟨?_, ?_, ⟨first, last, ?_, hx, hend⟩, rfl, rfl, rfl⟩
  · exact Place.offset_ofOffset (by omega)
  · rw [hplace, hlength, ← unitCount_append hx (Nat.le_of_lt hnonempty)]
    exact Place.offset_eq hline (by omega) hend
  · rw [hplace]
    exact hline

namespace SemanticToken

/-! ## Decoding what is encoded -/

/-- Pieces that begin one after the other, from an offset on and inside the text. -/
def StartsFrom (t : Text) : Nat → List Span → Prop
  | _, [] => True
  | x, p :: ps => x ≤ p.start ∧ p.start ≤ t.size ∧ StartsFrom t p.start ps

/-- A step of the encoder. From the place of an offset it leaves one token and stands at the place
of the next piece, and the token is read there as that piece. -/
theorem ofPieces_cons {c : Cursor} (ps : List Span)
    (hc : Place.ofOffset t units t.lineStarts c.offset = ⟨c.line, c.unit⟩)
    (hle : c.offset ≤ p.start) (hp : p.start ≤ t.size) :
    ∃ k line unit, Place.ofOffset t units t.lineStarts p.start = ⟨line, unit⟩ ∧
      ofPieces t units t.lineStarts c (p :: ps) =
        k :: ofPieces t units t.lineStarts ⟨line, unit, p.start⟩ ps ∧
      0 ≤ k.deltaLine ∧
      ∀ ks, PlacedToken.decodeFrom ⟨c.line, c.unit⟩ (encode (k :: ks)) =
        .ofPiece t units p :: PlacedToken.decodeFrom ⟨line, unit⟩ (encode ks) := by
  have hcline : Place.lineOf t.lineStarts c.offset = c.line := congrArg Place.line hc
  by_cases hsame : Place.lineOf t.lineStarts p.start = c.line
  · have hplace : Place.ofOffset t units t.lineStarts p.start =
        ⟨c.line, c.unit + unitCount units (t.slice c.offset p.start)⟩ := by
      rw [Place.ofOffset_of_lineOf_eq hle hp (hsame.trans hcline.symm), hc]
    refine ⟨⟨0, unitCount units (t.slice c.offset p.start), unitCount units (p.text t),
      p.category.index⟩, c.line, _, hplace, ?_, Int.le_refl 0, ?_⟩
    · simp only [ofPieces, hsame, if_true, Span.text]
    · intro ks
      simp [encode, data, PlacedToken.decodeFrom, PlacedToken.ofPiece, hplace, Span.text]
  · -- the line is a later one, so the first number is not zero
    have hlater : c.line < Place.lineOf t.lineStarts p.start := by
      have : Place.lineOf t.lineStarts c.offset ≤ Place.lineOf t.lineStarts p.start :=
        Place.lineOf_le_of_le hle
      omega
    refine ⟨⟨(Place.lineOf t.lineStarts p.start : Int) - c.line,
      (Place.ofOffset t units t.lineStarts p.start).unit, unitCount units (p.text t),
      p.category.index⟩, _, _, rfl, ?_, ?_, ?_⟩
    · simp only [ofPieces, if_neg hsame, Span.text, Place.ofOffset]
    · simp only
      omega
    · intro ks
      have hnonzero : (Place.lineOf t.lineStarts p.start : Int) - c.line ≠ 0 := by omega
      have hsum : (c.line + ((Place.lineOf t.lineStarts p.start : Int) - c.line)).toNat =
          Place.lineOf t.lineStarts p.start := by omega
      simp only [encode, data, List.flatMap_cons, List.cons_append, PlacedToken.decodeFrom,
        if_neg hnonzero, hsum]
      rfl

/-- Counted on from the place of an offset, the tokens of later pieces are read as those pieces. -/
theorem decodeFrom_ofPieces {c : Cursor}
    (hc : Place.ofOffset t units t.lineStarts c.offset = ⟨c.line, c.unit⟩)
    (hps : StartsFrom t c.offset ps) :
    PlacedToken.decodeFrom ⟨c.line, c.unit⟩ (encode (ofPieces t units t.lineStarts c ps)) =
        ps.map (PlacedToken.ofPiece t units) ∧
      ∀ n ∈ encode (ofPieces t units t.lineStarts c ps), 0 ≤ n := by
  -- the cursor varies, and stays the place of the offset where it stands
  induction ps generalizing c with
  | nil => exact ⟨rfl, fun n hn => absurd hn List.not_mem_nil⟩
  | cons p ps ih =>
    obtain ⟨hle, hp, hrest⟩ := hps
    obtain ⟨k, line, unit, hplace, hstep, hline, hread⟩ := ofPieces_cons ps hc hle hp
    obtain ⟨hdecode, hnonneg⟩ := ih (c := ⟨line, unit, p.start⟩) hplace hrest
    rw [hstep]
    refine ⟨?_, ?_⟩
    · rw [hread, hdecode, List.map_cons]
    · intro n hn
      simp only [encode, List.flatMap_cons, List.mem_append] at hn
      rcases hn with hn | hn
      · simp only [data, List.mem_cons, List.not_mem_nil, or_false] at hn
        omega
      · exact hnonneg n hn

theorem startsFrom_of_apart (hsize : ∀ p ∈ ps, p.start < p.stop ∧ p.stop ≤ t.size)
    (hapart : ps.Pairwise fun a b => a.stop ≤ b.start) (hx : ∀ p ∈ ps, x ≤ p.start) :
    StartsFrom t x ps := by
  induction ps generalizing x with
  | nil => exact trivial
  | cons p ps ih =>
    obtain ⟨hfirst, hrest⟩ := List.pairwise_cons.mp hapart
    obtain ⟨hlt, hle⟩ := hsize p List.mem_cons_self
    refine ⟨hx p List.mem_cons_self, by omega, ?_⟩
    apply ih (fun q hq => hsize q (List.mem_cons_of_mem p hq)) hrest
    intro q hq
    have := hfirst q hq
    omega

/-- What is read off the tokens of ordered spans are the tokens of their pieces, and no number is
negative. -/
theorem decode_encode (units : Option CodeUnits) (h : OrderedSpans 0 t.size spans) :
    PlacedToken.decode (encode (ofSpans t units spans)) =
        (spans.flatMap (pieces t)).map (PlacedToken.ofPiece t units) ∧
      ∀ n ∈ encode (ofSpans t units spans), 0 ≤ n := by
  have hpieces := pieces_of_ordered (t := t) h
  have hsize : ∀ p ∈ spans.flatMap (pieces t), p.start < p.stop ∧ p.stop ≤ t.size := by
    intro p hp
    obtain ⟨s, hs, hpiece⟩ := (hpieces.mem_iff p).mp hp
    exact ⟨hpiece.nonempty, Nat.le_trans hpiece.stop_le (h.between s hs).2⟩
  exact decodeFrom_ofPieces (c := ⟨0, 0, 0⟩) Place.ofOffset_zero
    (startsFrom_of_apart hsize hpieces.apart fun p _ => Nat.zero_le _)

/-- Each piece has one token. -/
theorem length_ofPieces {starts : List Nat} {c : Cursor} :
    (ofPieces t units starts c ps).length = ps.length := by
  induction ps generalizing c with
  | nil => rfl
  | cons p ps ih =>
    simp only [ofPieces]
    split <;> simp [ih]

/-- Each token has five numbers. -/
theorem length_encode (ks : List SemanticToken) : (encode ks).length = 5 * ks.length := by
  induction ks with
  | nil => rfl
  | cons k ks ih =>
    have hcons : encode (k :: ks) = k.data ++ encode ks := rfl
    have hdata : k.data.length = 5 := rfl
    rw [hcons, List.length_append, List.length_cons, ih, hdata]
    omega

/-- The numbers of ordered spans are those of their pieces: for every text, every count of code units
and all non-empty spans that stand one after the other in the text, there are five numbers for each
of the longest stretches that the spans have on one line, what is read off them shows these
stretches, all and in order, and no number is negative. -/
theorem encode_pieces (t : Text) (units : Option CodeUnits) (h : OrderedSpans 0 t.size spans) :
    ∃ ps, Pieces t spans ps ∧ (encode (ofSpans t units spans)).length = 5 * ps.length ∧
      List.Forall₂ (PlacedToken.Shows t units) ps
        (PlacedToken.decode (encode (ofSpans t units spans))) ∧
      ∀ n ∈ encode (ofSpans t units spans), 0 ≤ n := by
  obtain ⟨hread, hnonneg⟩ := decode_encode units h
  have hpieces := pieces_of_ordered (t := t) h
  refine ⟨spans.flatMap (pieces t), hpieces, ?_, ?_, hnonneg⟩
  · rw [length_encode, ofSpans, length_ofPieces]
  · rw [hread, List.forall₂_map_right_iff, List.forall₂_same]
    intro p hp
    obtain ⟨s, hs, hpiece⟩ := (hpieces.mem_iff p).mp hp
    exact PlacedToken.shows_ofPiece hpiece (h.between s hs).2

/-- The theorem holds of a string over three lines, the second of them empty, whose first character
after the quote is two code units. -/
theorem encode_pieces_string :
    OrderedSpans 0 (Text.ofString "x '😀\n\nb'").size [⟨2, 8, .string⟩] ∧
      ∃ ps, Pieces (Text.ofString "x '😀\n\nb'") [⟨2, 8, .string⟩] ps ∧
        (encode (ofSpans (Text.ofString "x '😀\n\nb'") (some .utf16) [⟨2, 8, .string⟩])).length =
          5 * ps.length ∧
        List.Forall₂ (PlacedToken.Shows (Text.ofString "x '😀\n\nb'") (some .utf16)) ps
          (PlacedToken.decode
            (encode (ofSpans (Text.ofString "x '😀\n\nb'") (some .utf16) [⟨2, 8, .string⟩]))) ∧
        ∀ n ∈ encode (ofSpans (Text.ofString "x '😀\n\nb'") (some .utf16) [⟨2, 8, .string⟩]),
          0 ≤ n := by
  have h : OrderedSpans 0 (Text.ofString "x '😀\n\nb'").size [⟨2, 8, .string⟩] :=
    ⟨by decide, by decide, by decide⟩
  exact ⟨h, encode_pieces (Text.ofString "x '😀\n\nb'") (some .utf16) h⟩

example :
    PlacedToken.decode
        (encode (ofSpans (Text.ofString "x '😀\n\nb'") (some .utf16) [⟨2, 8, .string⟩])) =
      [⟨⟨0, 2⟩, 3, 18, 0⟩, ⟨⟨2, 0⟩, 2, 18, 0⟩] := by
  decide +kernel

end SemanticToken

end VSyntax
