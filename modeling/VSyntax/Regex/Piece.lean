import VSyntax.Regex.Basic
import VSyntax.Regex.Error

/-!
# Pieces of a pattern

What the parts of a pattern are put together from while it is read: the flags that hold at a place,
the widths of expressions, and the pieces of a sequence, each with what is known of it besides its
expression.

Where letters of either case are meant, a choice is first brought into another form: what all its
branches begin with is put in front, and single characters to choose from become one set
(`Piece.choice`). This matters because a set is folded as a whole.
-/
namespace VSyntax.Regex.Parser

/-! ## Flags -/

/-- The flags that hold at a place of a pattern. -/
structure Flags where
  ignoreCase : Bool
  multiline : Bool
  dotAll : Bool
  verbose : Bool
  template : Bool
  ascii : Bool
  unicode : Bool
  deriving DecidableEq, Repr

namespace Flags

/-- The flags that a pattern begins with. -/
def start (multiline : Bool) : Flags := ⟨false, multiline, false, false, false, false, false⟩

/-- The letters of flags. -/
def letters : List Char := ['i', 'L', 'm', 's', 'x', 'a', 't', 'u']

/-- Whether a letter is of a flag that says what counts as a letter, a digit or a blank. -/
def isAlphabet (c : Char) : Bool := c == 'a' || c == 'u' || c == 'L'

/-- The flags with that of a letter set or cleared. -/
def put (f : Flags) (on : Bool) : Char → Flags
  | 'i' => { f with ignoreCase := on }
  | 'm' => { f with multiline := on }
  | 's' => { f with dotAll := on }
  | 'x' => { f with verbose := on }
  | 't' => { f with template := on }
  | 'a' => { f with ascii := on }
  | 'u' => { f with unicode := on }
  | _ => f

/-- The flags of the whole pattern with more of them set. -/
def more (f : Flags) (on : List Char) : Flags := on.foldl (fun f c => f.put true c) f

/-- The flags for a part of the pattern, with some set and some cleared. -/
def within (f : Flags) (on off : List Char) : Flags :=
  let f := if on.any isAlphabet then { f with ascii := false, unicode := false } else f
  off.foldl (fun f c => f.put false c) (f.more on)

/-- Which letters count as the same as their other case. -/
def fold (f : Flags) : Fold :=
  if f.ignoreCase then if f.ascii then .ascii else .unicode else .exact

/-- The kind of character that counts as of a kind. -/
def kind (f : Flags) : CharKind → CharKind
  | .digit => if f.ascii then .asciiDigit else .digit
  | .blank => if f.ascii then .asciiBlank else .blank
  | .word => if f.ascii then .asciiWord else .word
  | k => k

end Flags

/-! ## Widths -/

/-- The least and the greatest length of a match, without a greatest where there is no bound.
`group` gives the widths of the groups that the expression refers to. -/
def width (group : Nat → Nat × Option Nat) : Expr → Nat × Option Nat
  | .empty | .anchor _ | .ahead _ _ | .behind _ _ _ | .reopen _ => (0, some 0)
  | .anyButLineEnd | .oneOf _ _ => (1, some 1)
  | .seq a b =>
    let (lo, hi) := width group a
    let (lo', hi') := width group b
    (lo + lo', match hi, hi' with
      | some m, some n => some (m + n)
      | _, _ => none)
  | .alt a b | .ifGroup _ a b =>
    let (lo, hi) := width group a
    let (lo', hi') := width group b
    (min lo lo', match hi, hi' with
      | some m, some n => some (max m n)
      | _, _ => none)
  | .group _ body | .atomic body => width group body
  | .backref _ index => group index
  | .many least most _ body =>
    let (lo, hi) := width group body
    (lo * least, match hi, most with
      | some 0, _ => some 0
      | _, some 0 => some 0
      | some m, some n => some (m * n)
      | _, _ => none)

/-- No assertion looks further behind. -/
def behindLimit : Nat := 4294967295

/-- What is wrong with an assertion behind through an expression of some width. -/
def behindFlaw? (w : Nat × Option Nat) : Option Flaw :=
  if behindLimit < w.1 then some .tooFarBehind
  else if w.2 ≠ some w.1 then some .varyingWidthBehind
  else none

/-! ## Pieces -/

/-- A piece of a sequence. -/
structure Piece where
  expr : Expr
  /-- The expression as it is written, with letters of either case apart, if it has no parts of its
  own. -/
  written : Option Expr
  /-- How many calls inside each other it takes beside those for the sequence. -/
  calls : Nat
  /-- What is wrong with it that shows only when the whole pattern has been read. -/
  flaw : Option Flaw

namespace Piece

/-- The expression of pieces one after the other. -/
def sequence (ps : List Piece) : Expr := .ofSeq (ps.map (·.expr))

/-- How many calls inside each other pieces take. -/
def callsOf (ps : List Piece) : Nat := ps.foldl (fun n p => max n p.calls) 0

/-- What is wrong with the first piece that has such a flaw. -/
def flawOf (ps : List Piece) : Option Flaw := ps.findSome? (·.flaw)

/-- A piece without parts of its own, which is written as another expression perhaps. -/
def leaf (e written : Expr) : Piece := ⟨e, some written, 0, none⟩

/-- A piece made of others, with a flaw of its own perhaps. -/
def around (e : Expr) (ps : List Piece) (own : Option Flaw) : Piece :=
  ⟨e, none, callsOf ps + 1, own <|> flawOf ps⟩

/-- A single character. -/
def char (f : Flags) (n : Nat) : Piece :=
  leaf (.oneOf false (CharItem.foldCode f.fold n)) (.char n)

/-- A character set. -/
def set (f : Flags) (negated : Bool) (items : List CharItem) : Piece :=
  let distinct := items.eraseDups
  let shown :=
    match distinct with
    | [.code n] => CharItem.foldCode f.fold n
    | _ => CharItem.foldAll f.fold distinct
  leaf (.oneOf negated shown) (.oneOf negated distinct)

/-! ### Choice -/

/-- How many pieces all branches have in common at their beginning. -/
def sharedCount : List Piece → List (List Piece) → Nat
  | p :: ps, others =>
    if p.written.isSome && others.all fun b => (b.head?.bind (·.written)) == p.written then
      sharedCount ps (others.map List.tail) + 1
    else 0
  | [], _ => 0

/-- The items of a branch that is one character to choose. -/
def single? : List Piece → Option (List CharItem)
  | [⟨_, some (.oneOf false items), _, _⟩] => some items
  | _ => none

/-- Branches to choose from in their order. -/
def branching (bs : List (List Piece)) : Piece :=
  around (.ofAlt (bs.map sequence)) bs.flatten none

/-- The pieces of a choice, under a fold. -/
def choice (fold : Fold) : List (List Piece) → List Piece
  | [] => []
  | [b] => b
  | b :: bs =>
    match fold with
    | .exact => [branching (b :: bs)]
    | fold =>
      let count := sharedCount b bs
      let rests := (b :: bs).map (List.drop count)
      match rests.mapM single? with
      | some itemss =>
        let items := itemss.flatten.eraseDups
        b.take count ++ [leaf (.oneOf false (CharItem.foldAll fold items)) (.oneOf false items)]
      | none => b.take count ++ [branching rests]

end Piece

end VSyntax.Regex.Parser
