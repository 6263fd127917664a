import VSyntax.Span
import VSyntax.Position
import VSyntax.Quoted

/-!
# Span dumps

One line per span for the eye: position, offsets, category and quoted text, with the categories in a
column.
-/
namespace VSyntax.Dump

/-- Padded with spaces on the left to a least width. -/
def padLeft (width : Nat) (cs : List Char) : List Char :=
  List.replicate (width - cs.length) ' ' ++ cs

/-- Padded with spaces on the right to a least width. -/
def padRight (width : Nat) (cs : List Char) : List Char :=
  cs ++ List.replicate (width - cs.length) ' '

/-- The width of the category column. -/
def categoryWidth (spans : List Span) : Nat :=
  spans.foldl (fun w s => max w s.category.name.length) 0

/-- The line of a span. -/
def line (source : Text) (width : Nat) (s : Span) : List Char :=
  let p := Position.nearest source s.start
  padLeft 4 (Numeral.ofNat p.line) ++ ':' :: padRight 4 (Numeral.ofNat p.column) ++
    [' ', '['] ++ Numeral.ofNat s.start ++ [',', ' '] ++ Numeral.ofNat s.stop ++ [')', ' '] ++
    padRight width s.category.name.toList ++ ' ' :: Quoted.encode (s.text source).toList ++ ['\n']

/-- The dump of the spans of a text. -/
def render (source : Text) (spans : List Span) : List Char :=
  spans.flatMap (line source (categoryWidth spans))

end VSyntax.Dump
