import VSyntax.Rule
import VSyntax.Delimiters

/-!
# Classification

The spans of a text: each comment and each string is one span, and the code between them is scanned
with a rule table. At an offset of code the first rule with a claim wins, and the scan goes on after
the claimed stretch; where no rule claims anything nothing is emitted. A claim never reaches into
the comment or string that ends the code.

A region of a text is classified as part of the whole: comments and strings that began before it are
known, and those that reach beyond it are cut at its end.
-/
namespace VSyntax

/-! ## Claims -/

/-- The end of the run of word characters from `pos` on, in at most `steps` characters. -/
def wordEndFrom (d : Delimiters) (t : Text) : Nat → Nat → Except ScanFault Nat
  | 0, pos => .ok pos
  | steps + 1, pos =>
    match t.charAt pos with
    | .error e => .error e
    | .ok c => if d.role c = .word then wordEndFrom d t steps (pos + 1) else .ok pos

/-- Whether the character before an offset has the role of a word character. -/
def afterWord (d : Delimiters) (t : Text) (pos : Nat) : Except ScanFault Bool :=
  if 0 < pos then
    match t.charAt (pos - 1) with
    | .error e => .error e
    | .ok c => .ok (decide (d.role c = .word))
  else .ok false

/-- The extent of the word that begins at `pos` in code up to `stop`, if it is among `words`. -/
def wordClaim? (d : Delimiters) (words : List (List Char)) (t : Text) (pos stop : Nat) :
    Except ScanFault (Option (Nat × Nat)) := do
  let c ← t.charAt pos
  if d.role c ≠ .word then return none
  if ← afterWord d t pos then return none
  let close ← wordEndFrom d t (stop - (pos + 1)) (pos + 1)
  if (t.slice pos close).toList ∈ words then return some (pos, close) else return none

/-- The extent that a shape claims at `pos` in code up to `stop`: that of its capture group, unless
the group took no part or is empty. -/
def shapeClaim? (regex : Regex) (group : Nat) (t : Text) (pos stop : Nat) : Option (Nat × Nat) :=
  match Regex.matchAt? regex t pos stop with
  | none => none
  | some m =>
    match m.extent? group with
    | none => none
    | some (first, last) => if first < last then some (first, last) else none

/-- The extent that a rule claims at `pos` in code up to `stop`. -/
def Rule.claim? (d : Delimiters) (t : Text) (pos stop : Nat) :
    Rule → Except ScanFault (Option (Nat × Nat))
  | .words _ _ ws => wordClaim? d ws t pos stop
  | .shape _ _ regex group => .ok (shapeClaim? regex group t pos stop)

/-- The span of the first rule with a claim at `pos`. -/
def firstClaim? (d : Delimiters) (t : Text) (pos stop : Nat) :
    RuleTable → Except ScanFault (Option Span)
  | [] => .ok none
  | rule :: rules => do
    match ← rule.claim? d t pos stop with
    | some (first, last) => return some ⟨first, last, rule.category⟩
    | none => firstClaim? d t pos stop rules

/-! ## Code -/

/-- The spans of the code from `pos` up to `stop`, in at most `steps` steps. -/
def codeSpans (rules : RuleTable) (d : Delimiters) (t : Text) (stop : Nat) :
    Nat → Nat → Except ScanFault (List Span)
  | 0, _ => .ok []
  | steps + 1, pos =>
    if pos < stop then do
      match ← firstClaim? d t pos stop rules with
      | some span => return span :: (← codeSpans rules d t stop steps span.stop)
      | none => codeSpans rules d t stop steps (pos + 1)
    else .ok []

/-! ## Regions of the text -/

/-- The end and the category of the comment or string around `offset`, going from region to region
from `pos` on in at most `steps` steps. Openings are looked for before `limit`. -/
def enclosingFrom (d : Delimiters) (t : Text) (offset limit : Nat) :
    Nat → Nat → Except ScanFault (Option (Nat × Category))
  | 0, _ => .ok none
  | steps + 1, pos =>
    if pos < offset then do
      let opening ← d.nextOpening t pos limit
      if offset ≤ opening then return none
      match ← d.regionAt t opening t.size with
      | none => throw (.nothingOpens opening)
      | some (stop, category) =>
        if offset < stop then return some (stop, category)
        else enclosingFrom d t offset limit steps stop
    else .ok none

/-- How far an opener may reach that begins before `offset`. -/
def openerLimit (d : Delimiters) (t : Text) (offset : Nat) : Nat :=
  min (offset + d.commentOpener.length - 1) t.size

/-- The end and the category of the comment or string that `offset` lies inside, if it lies inside
one. -/
def enclosing? (d : Delimiters) (t : Text) (offset : Nat) :
    Except ScanFault (Option (Nat × Category)) :=
  enclosingFrom d t offset (openerLimit d t offset) offset 0

/-- The spans from `pos`, where no comment or string is open, up to `stop`, in at most `steps`
steps. -/
def spansFrom (rules : RuleTable) (d : Delimiters) (t : Text) (stop : Nat) :
    Nat → Nat → Except ScanFault (List Span)
  | 0, _ => .ok []
  | steps + 1, pos =>
    if pos < stop then do
      let opening := min (← d.nextOpening t pos (openerLimit d t stop)) stop
      let code ← codeSpans rules d t opening (opening - pos) pos
      if opening = stop then return code
      match ← d.regionAt t opening (openerLimit d t stop) with
      | none => throw (.nothingOpens opening)
      | some (close, category) =>
        let rest ← spansFrom rules d t stop steps (min close stop)
        return code ++ ⟨opening, min close stop, category⟩ :: rest
    else .ok []

/-- The spans of a text within two of its offsets. -/
def classifyWithin (rules : RuleTable) (d : Delimiters) (t : Text) (start stop : Nat) :
    Except ScanFault (List Span) :=
  if start < stop then do
    match ← enclosing? d t start with
    | some (close, category) =>
      let rest ← spansFrom rules d t stop (stop - close) close
      return ⟨start, min close stop, category⟩ :: rest
    | none => spansFrom rules d t stop (stop - start) start
  else .ok []

/-- The spans of a text, or of a region of it, in order. -/
def classify (rules : RuleTable) (d : Delimiters) (t : Text) (region : Option Region) :
    Except ScanFault (List Span) :=
  classifyWithin rules d t (Region.bounds region t.size).1 (Region.bounds region t.size).2

end VSyntax
