import VSyntax.Path
import VSyntax.Text
import VSyntax.Utf8

/-!
# Source files

Which files hold the source language, by their extension, and how the bytes of a file become a text:
they are read as UTF-8 and every line end becomes a line feed. A byte order mark stays in the text.
-/
namespace VSyntax.SourceFile

/-- The extensions of source, template and script files. -/
def extensions : List String := [".v", ".vv", ".vsh"]

/-- The name of the source language among editors. -/
def languageId : String := "v"

/-- Whether a path has an extension of the source language, in capitals or not. -/
def isSource (p : Path) : Bool := extensions.any fun e => e.toList == p.suffix.map Char.toLower

/-- Each carriage return, with the line feed after it if there is one, becomes a line feed. -/
def unifyLineEnds : List Char → List Char
  | [] => []
  | '\r' :: '\n' :: cs => '\n' :: unifyLineEnds cs
  | '\r' :: cs => '\n' :: unifyLineEnds cs
  | c :: cs => c :: unifyLineEnds cs

/-- The text of a file. -/
def read (bytes : List UInt8) : Except Utf8.Malformed Text := do
  return (unifyLineEnds (← Utf8.decode bytes)).toArray

end VSyntax.SourceFile
