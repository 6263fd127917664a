import VSyntax.Text
import VSyntax.WordChar
import VSyntax.Category
import VSyntax.Fault

/-!
# Delimiters

How comments and strings are marked off from code. A string delimiter opens a string that the same
character closes, an escape character takes the character after it into the string; a comment runs
from its opener up to, and without, its terminator. A region that is not closed ends with the text.

The scanners look characters up by offset and answer an offset outside the text with a fault.
-/
namespace VSyntax

/-! ## Roles of characters -/

/-- The lexical role of a character. -/
inductive CharRole where
  | whitespace
  | word
  | punctuation
  | stringDelimiter
  | commentDelimiter
  | escape
  deriving DecidableEq, Repr

namespace CharRole

/-- Every role. -/
def all : List CharRole :=
  [.whitespace, .word, .punctuation, .stringDelimiter, .commentDelimiter, .escape]

/-- The written name of a role. -/
def name : CharRole → String
  | .whitespace => "WHITESPACE"
  | .word => "WORD"
  | .punctuation => "PUNCTUATION"
  | .stringDelimiter => "STRING_DELIMITER"
  | .commentDelimiter => "COMMENT_DELIMITER"
  | .escape => "ESCAPE"

end CharRole

/-! ## Faults of a scan -/

/-- Why a scan over a text stops short. -/
inductive ScanFault where
  /-- A character is asked for at an offset outside the text. -/
  | outsideText
  /-- Nothing opens at an offset that was found as an opening. -/
  | nothingOpens (pos : Nat)
  deriving DecidableEq, Repr

/-- The words for a scan fault. -/
def ScanFault.message : ScanFault → String
  | .outsideText => "string index out of range"
  | .nothingOpens _ => ""

/-- The character at an offset. -/
def Text.charAt (t : Text) (pos : Nat) : Except ScanFault Char :=
  match t[pos]? with
  | some c => .ok c
  | none => .error .outsideText

/-! ## Delimiter tables -/

/-- The marks of comments and strings. Comment marks are not empty, and no word character delimits a
string. -/
structure Delimiters where
  strings : List Char
  commentOpener : List Char
  commentTerminator : List Char
  escape : List Char
  opener_ne : commentOpener ≠ []
  terminator_ne : commentTerminator ≠ []
  strings_not_word : ∀ c ∈ strings, ¬ isWordChar c = true
  deriving DecidableEq

namespace Delimiters

/-- The table of the given marks, unless one is unfit. -/
def make (strings commentOpener commentTerminator escape : List Char) : Except Fault Delimiters :=
  if ho : commentOpener = [] then .error (.config .emptyCommentOpener)
  else if ht : commentTerminator = [] then .error (.config .emptyCommentTerminator)
  else
    match hs : strings.find? isWordChar with
    | some c => .error (.config (.wordDelimiter c))
    | none => .ok {
        strings, commentOpener, commentTerminator, escape
        opener_ne := ho
        terminator_ne := ht
        strings_not_word := List.find?_eq_none.mp hs }

/-- The marks of the source language: three string delimiters, line comments after two slashes, and
the backslash. -/
def standard : Delimiters where
  strings := ['"', '\x27', '\x60']
  commentOpener := ['/', '/']
  commentTerminator := ['\n']
  escape := ['\\']
  opener_ne := by decide
  terminator_ne := by decide
  strings_not_word := List.find?_eq_none.mp (by decide)

/-- The role of a character, where the marks come before words and blanks. -/
def role (d : Delimiters) (c : Char) : CharRole :=
  if c ∈ d.strings then .stringDelimiter
  else if d.escape = [c] then .escape
  else if c ∈ d.commentTerminator then .commentDelimiter
  else if isWordChar c then .word
  else if Unicode.isBlank c then .whitespace
  else .punctuation

/-! ## Regions -/

/-- The first offset among `pos, …, pos + steps - 1` where a comment or string opens, or the offset
after them. -/
def openingFrom (d : Delimiters) (t : Text) (stop : Nat) : Nat → Nat → Except ScanFault Nat
  | 0, pos => .ok pos
  | steps + 1, pos =>
    if t.startsAt d.commentOpener pos stop then .ok pos
    else
      match t.charAt pos with
      | .error e => .error e
      | .ok c => if c ∈ d.strings then .ok pos else openingFrom d t stop steps (pos + 1)

/-- The first offset from `pos` on and before `stop` where a comment or string opens, or `stop`. -/
def nextOpening (d : Delimiters) (t : Text) (pos stop : Nat) : Except ScanFault Nat :=
  if pos < stop then d.openingFrom t stop (stop - pos) pos else .ok stop

/-- The offset after the string that `quote` closes, reading on from `pos` for at most `steps`
steps. An escape pair may lead past `stop`. -/
def closingFrom (d : Delimiters) (t : Text) (quote : Char) (stop : Nat) :
    Nat → Nat → Except ScanFault Nat
  | 0, pos => .ok pos
  | steps + 1, pos =>
    if pos < stop then
      match t.charAt pos with
      | .error e => .error e
      | .ok c =>
        if d.escape = [c] then closingFrom d t quote stop steps (pos + 2)
        else if c = quote then .ok (pos + 1)
        else closingFrom d t quote stop steps (pos + 1)
    else .ok pos

/-- The end and the category of the comment or string that opens at `pos`, if one does, in the text
that ends at `stop`. -/
def regionAt (d : Delimiters) (t : Text) (pos stop : Nat) :
    Except ScanFault (Option (Nat × Category)) :=
  if t.startsAt d.commentOpener pos stop then
    let close := t.find? d.commentTerminator (pos + d.commentOpener.length) stop
    .ok (some (close.getD stop, .comment))
  else
    match t.charAt pos with
    | .error e => .error e
    | .ok c =>
      if d.role c = .stringDelimiter then
        match d.closingFrom t c stop (stop - pos) (pos + 1) with
        | .error e => .error e
        | .ok close => .ok (some (min close stop, .string))
      else .ok none

end Delimiters

end VSyntax
