import VSyntax.Text
import VSyntax.Regex.Basic

/-!
# Matching

The match of an expression at an offset, found by backtracking: choices are tried in the order of
the expression, and the first way to the end of the expression is the match. The matcher takes the
rest of the work as a function, so it is defined by recursion on the expression alone; a repetition
is bounded by the characters that are left, because a repetition that consumed nothing is not
repeated.

`stop` acts as the end of the text, while anchors and assertions see the text before the offset.
-/
namespace VSyntax.Regex

/-- Where a match stands, and what its groups have captured, latest first. -/
structure State where
  pos : Nat
  captures : List (Nat × Nat × Nat)
  deriving DecidableEq, Repr

namespace State

/-- The extent that a group captured last. -/
def captured? (s : State) (index : Nat) : Option (Nat × Nat) := s.captures.lookup index

/-- The state inside a group that begins once more. The extent that it captured last begins here
now; if it ended before, there is none. -/
def reopen (s : State) (index : Nat) : State :=
  match s.captured? index with
  | none => s
  | some (_, stop) =>
    if s.pos ≤ stop then { s with captures := (index, s.pos, stop) :: s.captures }
    else { s with captures := s.captures.filter fun c => c.1 != index }

end State

/-- What remains to be matched after an expression. -/
abbrev Rest := State → Option State

/-! ## Steps -/

/-- Consumes one character before `stop` for which `p` holds. -/
def consume (t : Text) (stop : Nat) (p : Char → Bool) (s : State) (k : Rest) : Option State :=
  if s.pos < stop then
    match t[s.pos]? with
    | none => none
    | some c => if p c then k { s with pos := s.pos + 1 } else none
  else none

/-- Whether the character at an offset before `stop` is of a kind. -/
def kindAt (kind : CharKind) (t : Text) (stop pos : Nat) : Bool :=
  decide (pos < stop) && (t[pos]?).any kind.holds

/-- Whether the character before an offset is of a kind. -/
def kindBefore (kind : CharKind) (t : Text) : Nat → Bool
  | 0 => false
  | pos + 1 => (t[pos]?).any kind.holds

/-- Whether an anchor's condition holds at an offset of the text that ends at `stop`. No edge, and
no place without one, is in an empty text. -/
def Anchor.holds (t : Text) (stop pos : Nat) : Anchor → Bool
  | .textStart => pos == 0
  | .lineStart => pos == 0 || t[pos - 1]? == some '\n'
  | .textEnd => pos == stop
  | .lastLineEnd => pos == stop || (pos + 1 == stop && t[pos]? == some '\n')
  | .lineEnd => pos == stop || t[pos]? == some '\n'
  | .wordEdge words => stop != 0 && kindBefore words t pos != kindAt words t stop pos
  | .noWordEdge words => stop != 0 && kindBefore words t pos == kindAt words t stop pos

/-- A text as it is compared under a fold. -/
def Fold.text : Fold → Text → Text
  | .exact, t => t
  | .ascii, t => t.map (lowerChar .ascii)
  | .unicode, t => t.map (lowerChar .unicode)

/-! ## Repetition -/

/-- A step taken a number of times. -/
def times (step : State → Rest → Option State) : Nat → State → Rest → Option State
  | 0, s, k => k s
  | n + 1, s, k => step s fun s' => times step n s' k

/-- A step taken up to a number of times, more first when `greedy`. A step that consumed nothing is
the last. -/
def upTo (step : State → Rest → Option State) (greedy : Bool) : Nat → State → Rest → Option State
  | 0, s, k => k s
  | n + 1, s, k =>
    let more := fun (_ : Unit) =>
      step s fun s' => if s'.pos = s.pos then k s' else upTo step greedy n s' k
    if greedy then (more ()).orElse fun _ => k s else (k s).orElse more

/-! ## Expressions -/

/-- The first way through an expression from a state that the rest accepts. -/
def Expr.run (t : Text) (stop : Nat) : Expr → State → Rest → Option State
  | .empty, s, k => k s
  | .anyButLineEnd, s, k => consume t stop (· != '\n') s k
  | .oneOf negated items, s, k => consume t stop (fun c => items.any (·.holds c) != negated) s k
  | .anchor a, s, k => if a.holds t stop s.pos then k s else none
  | .seq a b, s, k => a.run t stop s fun s' => b.run t stop s' k
  | .alt a b, s, k => (a.run t stop s k).orElse fun _ => b.run t stop s k
  | .group index body, s, k =>
    body.run t stop s fun s' => k { s' with captures := (index, s.pos, s'.pos) :: s'.captures }
  | .backref fold index, s, k =>
    match s.captured? index with
    | none => none
    | some (a, b) =>
      if (fold.text t).startsAt ((fold.text t).slice a b).toList s.pos stop then
        k { s with pos := s.pos + (b - a) }
      else none
  | .many least most greedy body, s, k =>
    times (fun s' k' => body.run t stop s' k') least s fun s' =>
      upTo (fun s'' k' => body.run t stop s'' k') greedy
        (match most with
          | some m => m - least
          | none => stop - s'.pos + 1)
        s' k
  | .ahead negated body, s, k =>
    match body.run t stop s some with
    | some s' => if negated then none else k { s' with pos := s.pos }
    | none => if negated then k s else none
  | .behind negated width body, s, k =>
    if width ≤ s.pos then
      match body.run t stop { s with pos := s.pos - width } some with
      | some s' => if negated then none else k { s' with pos := s.pos }
      | none => if negated then k s else none
    else if negated then k s else none
  | .atomic body, s, k => (body.run t stop s some).bind k
  | .ifGroup index yes no, s, k =>
    if (s.captured? index).isSome then yes.run t stop s k else no.run t stop s k
  | .reopen index, s, k => k (s.reopen index)

/-! ## Matches -/

/-- A match: its extent and the captures of its groups, latest first. -/
structure Match where
  start : Nat
  stop : Nat
  captures : List (Nat × Nat × Nat)
  deriving DecidableEq, Repr

/-- The extent of a group of a match, where group zero is the whole match. A group that took no part
has none. -/
def Match.extent? (m : Match) : Nat → Option (Nat × Nat)
  | 0 => some (m.start, m.stop)
  | index + 1 => m.captures.lookup (index + 1)

/-- The match of a regular expression that starts at `pos`, in the text that ends at `stop`. -/
def matchAt? (r : Regex) (t : Text) (pos stop : Nat) : Option Match :=
  (r.body.run t stop ⟨pos, []⟩ some).map fun s => ⟨pos, s.pos, s.captures⟩

/-- The match that starts at `pos` and, when `nonempty`, does not end there. -/
def matchFrom? (r : Regex) (t : Text) (pos : Nat) (nonempty : Bool) : Option Match :=
  (r.body.run t t.size ⟨pos, []⟩ fun s => if nonempty && s.pos == pos then none else some s).map
    fun s => ⟨pos, s.pos, s.captures⟩

/-- The matches from `pos` on, left to right, in at most `steps` steps. -/
def matchesFrom (r : Regex) (t : Text) : Nat → Nat → Bool → List Match
  | 0, _, _ => []
  | steps + 1, pos, nonempty =>
    if t.size < pos then []
    else
      match matchFrom? r t pos nonempty with
      | none => matchesFrom r t steps (pos + 1) false
      | some m => m :: matchesFrom r t steps m.stop (m.stop == pos)

/-- All matches of a regular expression in a text, left to right and apart from each other. After an
empty match the next one at its offset is not empty; each offset is therefore tried at most twice.
-/
def allMatches (r : Regex) (t : Text) : List Match := matchesFrom r t (2 * t.size + 3) 0 false

end VSyntax.Regex
