import VSyntax.WordChar
import VSyntax.Unicode.Case

/-!
# Regular expressions

The expressions that rules and outlines are written in, as trees: characters and character sets,
anchors, sequence and ordered choice, capture groups with references to them and conditions on them,
greedy and lazy repetition, assertions ahead of and behind an offset, and parts that are not gone
back on. What an expression matches is in `VSyntax.Regex.Matching`, how it is written in
`VSyntax.Regex.Parser`.

Where letters of either case are meant, a character set is folded: its items are changed so that
they can be asked about the lowercase of a character (`CharItem.foldAll`).
-/
namespace VSyntax.Regex

/-! ## Letter case -/

/-- Which letters count as the same as their other case. -/
inductive Fold where
  /-- None. -/
  | exact
  /-- Those of ASCII. -/
  | ascii
  /-- All. -/
  | unicode
  deriving DecidableEq, Repr

namespace Fold

/-- The lowercase of a character. -/
def lower : Fold → Nat → Nat
  | .exact, n => n
  | .ascii, n => if 0x41 ≤ n ∧ n ≤ 0x5A then n + 0x20 else n
  | .unicode, n => Unicode.lower n

/-- Whether a character has another case. -/
def isCased : Fold → Nat → Bool
  | .exact, _ => false
  | .ascii, n => (0x41 ≤ n && n ≤ 0x5A) || (0x61 ≤ n && n ≤ 0x7A)
  | .unicode, n => Unicode.isCased n

/-- The lowercase characters that count as the same as a lowercase character, without itself. -/
def others : Fold → Nat → List Nat
  | .unicode, n => Unicode.sameUpper n
  | .exact, _ | .ascii, _ => []

/-- The characters whose lowercase is a given character. -/
def sources (f : Fold) (n : Nat) : List Nat :=
  (if f.lower n = n then [n] else []) ++
    match f with
    | .exact => []
    | .ascii => if 0x61 ≤ n ∧ n ≤ 0x7A then [n - 0x20] else []
    | .unicode => Unicode.uppersOf n

/-- The lowercase of a character, as a character. -/
def lowerChar (f : Fold) (c : Char) : Char := Char.ofNat (f.lower c.toNat)

end Fold

/-! ## Characters -/

/-- A named class of characters. -/
inductive CharKind where
  | digit
  | blank
  | word
  | asciiDigit
  | asciiBlank
  | asciiWord
  deriving DecidableEq, Repr

/-- A digit of ASCII. -/
def isAsciiDigit (c : Char) : Bool := '0' ≤ c && c ≤ '9'

/-- A letter of ASCII. -/
def isAsciiLetter (c : Char) : Bool := ('a' ≤ c && c ≤ 'z') || ('A' ≤ c && c ≤ 'Z')

/-- Whether a character is of a named class. -/
def CharKind.holds : CharKind → Char → Bool
  | .digit => Unicode.isDecimal
  | .blank => Unicode.isBlank
  | .word => isWordChar
  | .asciiDigit => isAsciiDigit
  | .asciiBlank => fun c => c == ' ' || (0x09 ≤ c.toNat && c.toNat ≤ 0x0D)
  | .asciiWord => fun c => isAsciiLetter c || isAsciiDigit c || c == '_'

/-- An item of a character set. Bounds are code points, so that a bound need not be a character. -/
inductive CharItem where
  | code (n : Nat)
  | range (first last : Nat)
  | kind (k : CharKind) (negated : Bool)
  /-- The lowercase of the character is among those the item names. -/
  | lowered (fold : Fold) (item : CharItem)
  /-- The lowercase characters of a range, and those that count as the same. -/
  | lowersOf (fold : Fold) (first last : Nat)
  /-- A range, and the characters whose uppercase is in it. -/
  | rangeOrUpper (first last : Nat)
  deriving DecidableEq, Repr

namespace CharItem

/-- Whether a character is among those an item names. -/
def holds : CharItem → Char → Bool
  | .code n, c => c.toNat == n
  | .range first last, c => first ≤ c.toNat && c.toNat ≤ last
  | .kind k negated, c => k.holds c != negated
  | .lowered fold item, c => item.holds (fold.lowerChar c)
  | .lowersOf fold first last, c =>
    (c.toNat :: fold.others c.toNat).any fun n =>
      (fold.sources n).any fun m => first ≤ m && m ≤ last
  | .rangeOrUpper first last, c =>
    (first ≤ c.toNat && c.toNat ≤ last) ||
      (first ≤ Unicode.upper c.toNat && Unicode.upper c.toNat ≤ last)

/-! ### Folded sets -/

/-- The last character of the basic plane. Beyond it a set keeps its characters as they are. -/
def lastBasic : Nat := 0xFFFF

/-- Whether an item is reason to fold its set. -/
def isCased (f : Fold) : CharItem → Bool
  | .code n => lastBasic < f.lower n || f.isCased n
  | .range first last =>
    lastBasic < last || (List.range' first (last + 1 - first)).any fun n => f.isCased n
  | _ => false

/-- The items that stand for an item when the lowercase of a character is asked about. -/
def folded (f : Fold) : CharItem → List CharItem
  | .code n =>
    if lastBasic < f.lower n then [.code n] else (f.lower n :: f.others (f.lower n)).map .code
  | .range first last =>
    if lastBasic < last then [.lowersOf f first lastBasic, .rangeOrUpper first last]
    else [.lowersOf f first last]
  | item => [item]

/-- The items of a set that is meant in either case. -/
def foldAll (f : Fold) (items : List CharItem) : List CharItem :=
  match f with
  | .exact => items
  | f =>
    if items.any (isCased f) then (items.flatMap (folded f)).map (.lowered f) else items

/-- The items for a single character that is meant in either case. -/
def foldCode (f : Fold) (n : Nat) : List CharItem :=
  if f.isCased n then (f.lower n :: f.others (f.lower n)).map fun m => .lowered f (.code m)
  else [.code n]

end CharItem

/-! ## Expressions -/

/-- A condition on an offset that consumes nothing. -/
inductive Anchor where
  /-- The start of the text. -/
  | textStart
  /-- The start of a line. -/
  | lineStart
  /-- The end of the text. -/
  | textEnd
  /-- The end of the text, or before a line end that is the last character. -/
  | lastLineEnd
  /-- The end of a line. -/
  | lineEnd
  /-- Between a word character and another, or at the edge of the text beside one; `words` is the
  kind of the word characters. -/
  | wordEdge (words : CharKind)
  /-- Where there is no word edge. -/
  | noWordEdge (words : CharKind)
  deriving DecidableEq, Repr

/-- A regular expression. -/
inductive Expr where
  /-- The empty text. -/
  | empty
  /-- Any character but a line end. -/
  | anyButLineEnd
  /-- A character that one of the items names, or with `negated` one that none names. -/
  | oneOf (negated : Bool) (items : List CharItem)
  /-- A condition on the offset. -/
  | anchor (a : Anchor)
  /-- One expression, then another. -/
  | seq (first second : Expr)
  /-- One expression, and only where that leads to no match the other. -/
  | alt (first second : Expr)
  /-- An expression whose extent is captured under an index. -/
  | group (index : Nat) (body : Expr)
  /-- The text that a group has captured, compared by the fold. -/
  | backref (fold : Fold) (index : Nat)
  /-- An expression `least` times, then on up to `most` times in all, trying more repetitions first
  when `greedy` and fewer first otherwise. -/
  | many (least : Nat) (most : Option Nat) (greedy : Bool) (body : Expr)
  /-- The expression matches from here, or with `negated` does not; nothing is consumed. -/
  | ahead (negated : Bool) (body : Expr)
  /-- The expression, whose matches are `width` characters long, matches up to here, or with
  `negated` does not; nothing is consumed. -/
  | behind (negated : Bool) (width : Nat) (body : Expr)
  /-- The first way through an expression, without another where it leads to no match. -/
  | atomic (body : Expr)
  /-- The first expression if the group has captured something, otherwise the second. -/
  | ifGroup (index : Nat) (yes no : Expr)
  /-- What a group has captured before, as it is seen from inside the group: from here on, and
  nothing if it ended before. -/
  | reopen (index : Nat)
  deriving DecidableEq, Repr

namespace Expr

/-- One given character. -/
def char (n : Nat) : Expr := .oneOf false [.code n]

/-- Expressions one after the other. -/
def ofSeq : List Expr → Expr
  | [] => .empty
  | [e] => e
  | e :: es => .seq e (ofSeq es)

/-- Expressions in order of preference. -/
def ofAlt : List Expr → Expr
  | [] => .empty
  | [e] => e
  | e :: es => .alt e (ofAlt es)

/-- Whether a capture group stands in an expression. -/
def captures : Expr → Bool
  | .group _ _ => true
  | .seq a b | .alt a b => a.captures || b.captures
  | .many _ _ _ b | .ahead _ b | .behind _ _ b | .atomic b => b.captures
  | .ifGroup _ yes no => yes.captures || no.captures
  | .reopen _ => true
  | .empty | .anyButLineEnd | .oneOf _ _ | .anchor _ | .backref _ _ => false

/-- Whether a capture group stands behind, in an assertion on what precedes an offset. -/
def capturesBehind : Expr → Bool
  | .seq a b | .alt a b => a.capturesBehind || b.capturesBehind
  | .group _ b | .many _ _ _ b | .ahead _ b | .atomic b => b.capturesBehind
  | .ifGroup _ yes no => yes.capturesBehind || no.capturesBehind
  | .behind _ _ b => b.captures
  | .empty | .anyButLineEnd | .oneOf _ _ | .anchor _ | .backref _ _ | .reopen _ => false

end Expr

end VSyntax.Regex

namespace VSyntax

/-- A regular expression with the number of its capture groups. -/
structure Regex where
  body : Regex.Expr
  groups : Nat
  deriving DecidableEq, Repr

end VSyntax
