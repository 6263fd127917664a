import VSyntax.Span
import VSyntax.Numeral

/-!
# HTML

A classified text as a preformatted HTML block: each span is an element whose class names its
category, and all other text stands between the elements. Markup characters are written as entities
and characters beyond ASCII by their code point, so the block is plain ASCII.
-/
namespace VSyntax.Html

/-- One character of text. -/
def escapeChar (c : Char) : List Char :=
  if c = '&' then ['&', 'a', 'm', 'p', ';']
  else if c = '<' then ['&', 'l', 't', ';']
  else if c = '>' then ['&', 'g', 't', ';']
  else if c.toNat < 0x80 then [c]
  else ['&', '#', 'x'] ++ (Nat.toDigits 16 c.toNat).map Char.toUpper ++ [';']

/-- A text. -/
def escape (t : Text) : List Char := t.toList.flatMap escapeChar

/-- What opens a block. -/
def blockOpen : List Char := "<pre class=\"v-source\"><code>".toList

/-- What closes a block. -/
def blockClose : List Char := "</code></pre>\n".toList

/-- What opens the element of a category. -/
def elementOpen (c : Category) : List Char :=
  "<span class=\"v-".toList ++ c.name.toList ++ "\">".toList

/-- What closes an element. -/
def elementClose : List Char := "</span>".toList

/-- The element of a span. -/
def element (source : Text) (s : Span) : List Char :=
  elementOpen s.category ++ escape (s.text source) ++ elementClose

/-- The text from `pos` on with an element for each span. -/
def content (source : Text) : List Span → Nat → List Char
  | [], pos => escape (source.slice pos source.size)
  | s :: spans, pos =>
    escape (source.slice pos s.start) ++ element source s ++ content source spans s.stop

/-- The block of a text and its spans. -/
def block (source : Text) (spans : List Span) : List Char :=
  blockOpen ++ content source spans 0 ++ blockClose

/-- What stands before the block in a document of its own. -/
def documentOpen : List Char :=
  "<!DOCTYPE html>\n<html>\n<head>\n<meta charset=\"utf-8\">\n</head>\n<body>\n".toList

/-- What stands after the block in a document of its own. -/
def documentClose : List Char := "</body>\n</html>\n".toList

/-- A text and its spans as a block, or with `standalone` as a whole document. -/
def render (source : Text) (spans : List Span) (standalone : Bool) : List Char :=
  if standalone then documentOpen ++ block source spans ++ documentClose else block source spans

end VSyntax.Html
