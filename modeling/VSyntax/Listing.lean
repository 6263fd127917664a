import VSyntax.Span
import VSyntax.Outline
import VSyntax.Json

/-!
# Listings

Spans and outlines as lists for other programs: lines of fields parted by tabs, or spans as an array
of JSON records.
-/
namespace VSyntax.Listing

/-- The line of a span: start, stop and category. -/
def spanLine (s : Span) : List Char :=
  Numeral.ofNat s.start ++ '\t' :: Numeral.ofNat s.stop ++ '\t' :: s.category.name.toList ++ ['\n']

/-- Spans, one a line. -/
def spans (ss : List Span) : List Char := ss.flatMap spanLine

/-- The line of an outline entry: offset, kind and label. -/
def outlineLine (e : OutlineEntry) : List Char :=
  Numeral.ofNat e.offset ++ '\t' :: e.kind.toList ++ '\t' :: e.label.toList ++ ['\n']

/-- Outline entries, one a line. -/
def outline (es : List OutlineEntry) : List Char := es.flatMap outlineLine

/-- A field of a record, on a line of its own. -/
def field (name : String) (value : List Char) : List Char :=
  "    ".toList ++ Json.quote name.toList ++ ": ".toList ++ value

/-- The record of a span, with its text. -/
def record (source : Text) (s : Span) : List Char :=
  "  \x7b\n".toList ++
    field "start" (Numeral.ofNat s.start) ++ ",\n".toList ++
    field "end" (Numeral.ofNat s.stop) ++ ",\n".toList ++
    field "category" (Json.quote s.category.name.toList) ++ ",\n".toList ++
    field "text" (Json.quote (s.text source).toList) ++ "\n  \x7d".toList

/-- The records of spans, parted by commas. -/
def records (source : Text) : List Span → List Char
  | [] => []
  | [s] => record source s
  | s :: ss => record source s ++ ",\n".toList ++ records source ss

/-- Spans as an array of records. -/
def json (source : Text) (ss : List Span) : List Char :=
  match ss with
  | [] => "[]\n".toList
  | _ => "[\n".toList ++ records source ss ++ "\n]\n".toList

end VSyntax.Listing
