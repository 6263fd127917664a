import VSyntax.Unicode.Property

/-!
# Word characters

The characters that a word of the source language can hold.
-/
namespace VSyntax

/-- A character of a word: alphanumeric in any script, or an underscore. -/
def isWordChar (c : Char) : Bool := Unicode.isAlphanumeric c || c == '_'

/-- A text that may stand inside a word: alphanumeric characters, at least one, or a lone
underscore. -/
def isWordText (s : List Char) : Bool := (!s.isEmpty && s.all Unicode.isAlphanumeric) || s == ['_']

end VSyntax
