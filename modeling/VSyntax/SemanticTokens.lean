import VSyntax.Span
import VSyntax.CodeUnits

/-!
# Semantic tokens

Spans in the form in which an editor takes them: one token for each piece of a span on a line,
placed relative to the token before it. Tokens of one line are counted on from one another, so each
character of a line is counted once.
-/
namespace VSyntax

/-- A token relative to the one before: the lines between them, the code units between their starts,
or from the start of the line where the line is another, the length and the number of its category.
-/
structure SemanticToken where
  deltaLine : Int
  deltaUnit : Nat
  length : Nat
  kind : Nat
  deriving DecidableEq, Repr

namespace SemanticToken

/-- The five numbers of a token; it has no modifiers. -/
def data (k : SemanticToken) : List Int := [k.deltaLine, k.deltaUnit, k.length, k.kind, 0]

/-- The non-empty stretches without a line end from `pos` up to `stop`, in at most `steps` steps. -/
def piecesFrom (t : Text) (category : Category) (stop : Nat) : Nat → Nat → List Span
  | 0, _ => []
  | steps + 1, pos =>
    if pos < stop then
      let close := (t.find? ['\n'] pos stop).getD stop
      let rest := piecesFrom t category stop steps (close + 1)
      if pos < close then ⟨pos, close, category⟩ :: rest else rest
    else []

/-- The pieces of a span on the lines that it meets. -/
def pieces (t : Text) (s : Span) : List Span :=
  piecesFrom t s.category s.stop (s.stop - s.start) s.start

/-- Where the last token began: its line, the code units before it, and its offset. -/
structure Cursor where
  line : Nat
  unit : Nat
  offset : Nat

/-- The tokens of pieces, counted on from a cursor. -/
def ofPieces (t : Text) (units : Option CodeUnits) (starts : List Nat) :
    Cursor → List Span → List SemanticToken
  | _, [] => []
  | c, p :: rest =>
    let line := Place.lineOf starts p.start
    let length := unitCount units (t.slice p.start p.stop)
    if line = c.line then
      let delta := unitCount units (t.slice c.offset p.start)
      ⟨0, delta, length, p.category.index⟩ ::
        ofPieces t units starts ⟨line, c.unit + delta, p.start⟩ rest
    else
      let unit := unitCount units (t.slice (starts[line]?.getD 0) p.start)
      ⟨(line : Int) - c.line, unit, length, p.category.index⟩ ::
        ofPieces t units starts ⟨line, unit, p.start⟩ rest

/-- The tokens of the spans of a text. -/
def ofSpans (t : Text) (units : Option CodeUnits) (spans : List Span) : List SemanticToken :=
  ofPieces t units t.lineStarts ⟨0, 0, 0⟩ (spans.flatMap (pieces t))

/-- The numbers of all tokens, one after the other. -/
def encode (ks : List SemanticToken) : List Int := ks.flatMap data

end SemanticToken

end VSyntax
