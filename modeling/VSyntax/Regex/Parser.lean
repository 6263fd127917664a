import VSyntax.Regex.Reader
import VSyntax.Regex.Piece

/-!
# Reading regular expressions

The written form of regular expressions: literal characters, `.`, character sets in brackets, the
classes `\d \s \w` and their complements, the anchors `^ $ \A \Z \b \B`, escapes by letter, by
code point and by name, groups `( )`, `(?: )`, `(?P<n> )`, `(?> )`, references `\1` and `(?P=n)`,
conditions `(?(1)yes|no)`, the assertions `(?= ) (?! ) (?<= ) (?<! )`, flags `(?i)` and `(?i-s: )`,
comments `(?# )`, choice by `|`, and the quantifiers `* + ? {m} {m,} {,n} {m,n}`, each also lazy
with a `?` behind it or without going back with a `+`. A brace or a closing bracket that begins
nothing is itself.

The reader keeps a stack of open groups and handles one token after the other, so it is a recursion
on the length of the pattern. A pattern that is not well formed is answered by its first flaw in
reading order; only a flaw that depends on the whole of the pattern is found after all others, when
the pattern has been read.
-/
namespace VSyntax.Regex.Parser

/-! ## The stack of open groups -/

/-- A capture group of the pattern so far; it has a width once it is closed. `reopens` if a
condition inside of it asks for it. -/
structure GroupInfo where
  name : Option (List Char)
  width : Option (Nat × Option Nat)
  reopens : Bool

/-- The width of a closed group. -/
def groupWidth (groups : List GroupInfo) (index : Nat) : Nat × Option Nat :=
  match groups[index - 1]? with
  | some { width := some w, .. } => w
  | _ => (0, none)

/-- What an open parenthesis begins. -/
inductive Opener where
  | whole
  | plain
  /-- A part of the pattern with flags of its own. -/
  | flagged
  | capture (index : Nat)
  | atomic
  /-- A condition on a group. -/
  | condition (index : Nat)
  | ahead (negated : Bool)
  /-- `outermost` when no other assertion behind encloses it. -/
  | behind (negated outermost : Bool)
  deriving DecidableEq, Repr

/-- How the last part of a sequence takes a quantifier. -/
inductive Role where
  | repeatable
  | fixed
  | repeated
  deriving DecidableEq, Repr

/-- A part of a sequence: the pieces that it consists of, and what a quantifier makes of it. -/
structure Part where
  pieces : List Piece
  role : Role

/-- An open group: the offset of its parenthesis, the flags that hold in it, the calls around it,
its finished branches and the parts of the current one, each list latest first. -/
structure Frame where
  opener : Opener
  start : Nat
  flags : Flags
  calls : Nat
  branches : List (List Piece)
  parts : List Part

/-- The state of reading: the innermost open group, those around it, the capture groups so far, how
many of these stood before the outermost open assertion behind, the flags of the whole pattern, and
the groups that conditions ask for by number, each with the offset where. -/
structure Progress where
  frame : Frame
  outer : List Frame
  groups : List GroupInfo
  groupsBefore : Option Nat
  flags : Flags
  asked : List (Nat × Nat)

/-- How many calls inside each other a group takes. -/
def groupCalls : Nat := 2

namespace Progress

/-- Nothing read yet. -/
def start (flags : Flags) : Progress :=
  ⟨⟨.whole, 0, flags, groupCalls, [], []⟩, [], [], none, flags, []⟩

/-- One more part of the current sequence. -/
def push (p : Progress) (piece : Piece) (role : Role) : Progress :=
  { p with frame := { p.frame with parts := ⟨[piece], role⟩ :: p.frame.parts } }

/-- The pieces of the current sequence. -/
def sequence (p : Progress) : List Piece := p.frame.parts.reverse.flatMap (·.pieces)

/-- One more branch. -/
def branch (p : Progress) : Progress :=
  { p with frame := { p.frame with branches := p.sequence :: p.frame.branches, parts := [] } }

/-- The branches of the innermost group. -/
def branches (p : Progress) : List (List Piece) := (p.sequence :: p.frame.branches).reverse

/-- The finished choice of the innermost group. -/
def choice (p : Progress) : List Piece := Piece.choice p.frame.flags.fold p.branches

/-- The index of a named group. -/
def groupNamed? (p : Progress) (name : List Char) : Option Nat :=
  (p.groups.findIdx? fun g => g.name == some name).map (· + 1)

/-- Whether a group is closed. -/
def isClosed (p : Progress) (index : Nat) : Bool :=
  (p.groups[index - 1]?).any fun g => g.width.isSome

end Progress

/-- One more open group, which takes some calls, if there is room for them. -/
def enter (host : Host) (p : Progress) (opener : Opener) (start calls : Nat) (flags : Flags) :
    Reader Progress := do
  let calls := p.frame.calls + calls
  if host.room < calls then throw ⟨.tooDeep, none⟩
  else return { p with frame := ⟨opener, start, flags, calls, [], []⟩, outer := p.frame :: p.outer }

/-- One more open group with the flags around it. -/
def enterGroup (host : Host) (p : Progress) (opener : Opener) (start : Nat) : Reader Progress :=
  enter host p opener start groupCalls p.frame.flags

/-! ## Escapes -/

/-- The control characters with a letter of their own. -/
def controlEscape? : Char → Option Nat
  | 'a' => some 7
  | 'f' => some 12
  | 'n' => some 10
  | 'r' => some 13
  | 't' => some 9
  | 'v' => some 11
  | '\\' => some 92
  | _ => none

/-- The character classes with a letter. -/
def kindEscape? (f : Flags) : Char → Option CharItem
  | 'd' => some (.kind (f.kind .digit) false)
  | 'D' => some (.kind (f.kind .digit) true)
  | 's' => some (.kind (f.kind .blank) false)
  | 'S' => some (.kind (f.kind .blank) true)
  | 'w' => some (.kind (f.kind .word) false)
  | 'W' => some (.kind (f.kind .word) true)
  | _ => none

/-- An escape as a string, with what was read beyond its letter. -/
def escapeText (c : Char) (digits : List Char) : String := String.ofList ('\\' :: c :: digits)

/-- The code point of an escape by hexadecimal digits, exactly `count` of them. -/
def readHexEscape (start : Nat) (c : Char) (count : Nat) : Reader Nat := do
  let digits ← takeUpTo isHex count
  if digits.length ≠ count then flawAt (.shortEscape (escapeText c digits)) start
  else if 0x10FFFF < numeralValue 16 digits then flawAt (.badEscape (escapeText c digits)) start
  else return numeralValue 16 digits

/-- How many hexadecimal digits an escape letter asks for. -/
def hexDigitCount? : Char → Option Nat
  | 'x' => some 2
  | 'u' => some 4
  | 'U' => some 8
  | _ => none

/-- The code point of an escape by name. -/
def readNamedEscape (host : Host) (start : Nat) : Reader Nat := do
  if !(← accept '\x7b') then flawAt .noNameBrace (← here)
  let name ← readName "character name" '\x7d'
  match host.named? name with
  | some n => return n
  | none => flawAt (.unknownCharacterName name) start

/-- An escape inside a character set, whose backslash stands at `start`. -/
def readSetEscape (host : Host) (f : Flags) (start : Nat) (c : Char) : Reader CharItem := do
  if c = 'b' then return .code 8
  if c = 'N' then return .code (← readNamedEscape host start)
  match controlEscape? c, kindEscape? f c, hexDigitCount? c with
  | some n, _, _ => return .code n
  | _, some item, _ => return item
  | _, _, some count => return .code (← readHexEscape start c count)
  | none, none, none =>
    if isOctal c then
      let digits := c :: (← takeUpTo isOctal 2)
      if 0o377 < numeralValue 8 digits then
        flawAt (.octalTooLarge (String.ofList ('\\' :: digits))) start
      else return .code (numeralValue 8 digits)
    else if isAsciiDigit c || isAsciiLetter c then flawAt (.badEscape (escapeText c [])) start
    else return .code c.toNat

/-- A reference that what stands behind an offset may make to a group. -/
def checkBehind (p : Progress) (index : Nat) : Reader Unit := do
  match p.groupsBefore with
  | none => return
  | some count =>
    if !p.isClosed index then flawAt .groupStillOpen (← here)
    else if count < index then flawAt .groupBehind (← here)

/-- A reference to a group. -/
def pushReference (p : Progress) (index : Nat) : Progress :=
  p.push (.leaf (.backref p.frame.flags.fold index) (.backref .exact index)) .repeatable

/-- A reference by number, whose digits stand just after the backslash at `start`. -/
def readReference (p : Progress) (start : Nat) (digits : List Char) : Reader Progress := do
  let index := numeralValue 10 digits
  if p.groups.length < index then flawAt (.noSuchGroup index) (start + 1)
  else if !p.isClosed index then flawAt .groupStillOpen start
  else
    checkBehind p index
    return pushReference p index

/-- One more character. -/
def pushChar (p : Progress) (n : Nat) : Progress := p.push (.char p.frame.flags n) .repeatable

/-- An escape by digits: a character by its octal code, or a reference to a group. -/
def readDigitEscape (p : Progress) (start : Nat) (c : Char) : Reader Progress := do
  if c = '0' then
    let digits := c :: (← takeUpTo isOctal 2)
    return pushChar p (numeralValue 8 digits)
  match ← takeUpTo isAsciiDigit 1 with
  | [d] =>
    if isOctal c && isOctal d then
      match ← takeUpTo isOctal 1 with
      | [e] =>
        if 0o377 < numeralValue 8 [c, d, e] then
          flawAt (.octalTooLarge (String.ofList ['\\', c, d, e])) start
        else return pushChar p (numeralValue 8 [c, d, e])
      | _ => readReference p start [c, d]
    else readReference p start [c, d]
  | _ => readReference p start [c]

/-- The anchors with a letter. -/
def anchorEscape? (f : Flags) : Char → Option Anchor
  | 'A' => some .textStart
  | 'Z' => some .textEnd
  | 'b' => some (.wordEdge (f.kind .word))
  | 'B' => some (.noWordEdge (f.kind .word))
  | _ => none

/-- One more anchor, which is written as another perhaps. -/
def pushAnchor (p : Progress) (a written : Anchor) : Progress :=
  p.push (.leaf (.anchor a) (.anchor written)) .fixed

/-- An escape outside a character set, whose backslash stands at `start`. -/
def readEscape (host : Host) (p : Progress) (start : Nat) (c : Char) : Reader Progress := do
  let f := p.frame.flags
  match anchorEscape? f c, kindEscape? f c, controlEscape? c, hexDigitCount? c with
  | some a, _, _, _ => return pushAnchor p a a
  | _, some item, _, _ => return p.push (.set f false [item]) .repeatable
  | _, _, some n, _ => return pushChar p n
  | _, _, _, some count => return pushChar p (← readHexEscape start c count)
  | none, none, none, none =>
    if c = 'N' then return pushChar p (← readNamedEscape host start)
    else if isAsciiDigit c then readDigitEscape p start c
    else if isAsciiLetter c then flawAt (.badEscape (escapeText c [])) start
    else return pushChar p c.toNat

/-! ## Character sets -/

/-- A token of a character set, whose token stood at `start`. -/
def readSetToken (host : Host) (f : Flags) (start : Nat) : Token → Reader CharItem
  | .plain c => return .code c.toNat
  | .escaped c => readSetEscape host f start c

/-- The range between two tokens, which end just before the cursor. -/
def readRange (first last : Token) (lo hi : CharItem) : Reader CharItem := do
  let text := first.text ++ '-' :: last.text
  match lo, hi with
  | .code m, .code n =>
    if n < m then flawAt (.badRange (String.ofList text)) ((← here) - text.length)
    else return .range m n
  | _, _ => flawAt (.badRange (String.ofList text)) ((← here) - text.length)

/-- The items of a character set up to its closing bracket; `items` are those before, latest first,
and the opening bracket stands at `start`. A closing bracket that comes first is an item. -/
def readSet (host : Host) (f : Flags) (start : Nat) :
    Nat → List CharItem → Reader (List CharItem)
  | 0, _ => flawAt .openSet start
  | steps + 1, items => do
    let firstPos ← here
    match ← next with
    | none => flawAt .openSet start
    | some first =>
      if first = .plain ']' ∧ items ≠ [] then return items.reverse
      let lo ← readSetToken host f firstPos first
      if ← accept '-' then
        let lastPos ← here
        match ← next with
        | none => flawAt .openSet start
        | some (.plain ']') => return (.code 0x2D :: lo :: items).reverse
        | some last =>
          let hi ← readSetToken host f lastPos last
          readSet host f start steps ((← readRange first last lo hi) :: items)
      else readSet host f start steps (lo :: items)

/-! ## Quantifiers -/

/-- How a quantifier goes about repeating. -/
inductive Manner where
  | greedy
  | lazily
  /-- As often as it can, without going back. -/
  | possessive
  deriving DecidableEq, Repr

namespace Manner

/-- The name of a manner, in messages. -/
def operator : Manner → String
  | .greedy => "MAX_REPEAT"
  | .lazily => "MIN_REPEAT"
  | .possessive => "POSSESSIVE_REPEAT"

/-- The repetition of an expression. -/
def repeated (manner : Manner) (least : Nat) (most : Option Nat) (e : Expr) : Expr :=
  match manner with
  | .greedy => .many least most true e
  | .lazily => .many least most false e
  | .possessive => .atomic (.many least most true (.atomic e))

end Manner

/-- The manner that is written behind a quantifier. -/
def readManner : Reader Manner := do
  if ← accept '?' then return .lazily
  else if ← accept '+' then return .possessive
  else return .greedy

/-- Applies a quantifier at `start` to the part before it. -/
def quantify (p : Progress) (start least : Nat) (most : Option Nat) : Reader Progress := do
  match p.frame.parts with
  | [] => flawAt .nothingToRepeat start
  | ⟨_, .fixed⟩ :: _ => flawAt .nothingToRepeat start
  | ⟨_, .repeated⟩ :: _ => flawAt .multipleRepeat start
  | ⟨pieces, .repeatable⟩ :: parts =>
    let manner ← readManner
    let flaw := if p.flags.template then some (.templateRepeat manner.operator) else none
    let piece := Piece.around (manner.repeated least most (Piece.sequence pieces)) pieces flaw
    return { p with frame := { p.frame with parts := ⟨[piece], .repeated⟩ :: parts } }

/-- What keeps a bound of a quantifier from being counted. -/
def boundFlaw? (digits : List Char) : Option Flaw :=
  if Integer.digitLimit < digits.length then some (.tooManyDigits digits.length)
  else if repeatLimit ≤ numeralValue 10 digits then some .boundTooLarge
  else none

/-- A quantifier in braces, after its opening brace at `start`, or the brace as a character. -/
def readBraces (p : Progress) (start : Nat) : Reader Progress := do
  let mark ← get
  if mark.token? = some (.plain '\x7d') then return pushChar p 0x7B
  let lo ← takeAll isAsciiDigit
  let comma ← accept ','
  let hi ← if comma then takeAll isAsciiDigit else pure lo
  if ← accept '\x7d' then
    let least := numeralValue 10 lo
    let most := if hi = [] then none else some (numeralValue 10 hi)
    match boundFlaw? lo <|> boundFlaw? hi with
    | some flaw => throw ⟨flaw, none⟩
    | none =>
      if most.any (· < least) then flawAt .boundsReversed mark.pos
      else quantify p start least most
  else
    set mark
    return pushChar p 0x7B

/-! ## Flags -/

/-- What is wrong where a letter of a flag should stand, with the token that stands there. -/
def flawOfLetter (what : String) (token : Token) : Reader α := do
  let isLetter :=
    match token with
    | .plain c => Unicode.isLetter c
    | .escaped _ => false
  flawAt (if isLetter then .unknownFlag else .missing what) ((← here) - token.text.length)

/-- The letters of the flags to set, from `c` on, and the character that ends them. -/
def readOn : Nat → Char → List Char → Reader (List Char × Char)
  | 0, _, _ => do flawAt (.missing "-, : or )") (← here)
  | steps + 1, c, on => do
    if c = 'L' then flawAt .localeFlag (← here)
    if Flags.isAlphabet c && on.any fun d => Flags.isAlphabet d && d != c then
      flawAt .exclusiveFlags (← here)
    match ← next with
    | none => flawAt (.missing "-, : or )") (← here)
    | some token =>
      match token with
      | .plain d =>
        if d = ')' ∨ d = '-' ∨ d = ':' then return (c :: on, d)
        else if Flags.letters.contains d then readOn steps d (c :: on)
        else flawOfLetter "-, : or )" token
      | .escaped _ => flawOfLetter "-, : or )" token

/-- The letters of the flags to clear, up to the colon behind them; `what` may be left out here. -/
def readOff : Nat → String → List Char → Reader (List Char)
  | 0, what, _ => do flawAt (.missing what) (← here)
  | steps + 1, what, off => do
    match ← next with
    | none => flawAt (.missing what) (← here)
    | some token =>
      if token = .plain ':' ∧ off ≠ [] then return off
      match token with
      | .plain d =>
        if Flags.letters.contains d then
          if Flags.isAlphabet d then flawAt .fixedFlagOff (← here)
          else readOff steps ":" (d :: off)
        else flawOfLetter what token
      | .escaped _ => flawOfLetter what token

/-- Sets flags for the whole pattern, whose parenthesis stands at `start`. -/
def setFlags (p : Progress) (start : Nat) (on : List Char) : Reader Progress := do
  match p.outer, p.frame.branches, p.frame.parts with
  | [], [], [] =>
    let flags := p.flags.more on
    return { p with flags := flags, frame := { p.frame with flags := flags } }
  | _, _, _ => flawAt .lateFlags start

/-- The head of a group with flags, from `c` on, whose parenthesis stands at `start`. -/
def readFlags (host : Host) (p : Progress) (start : Nat) (c : Char) : Reader Progress := do
  let steps := (← get).rest.length + 1
  let (on, ending) ← if c = '-' then pure ([], '-') else readOn steps c []
  if ending = ')' then setFlags p start on
  else
    if on.contains 't' then flawAt .wholeFlagOn ((← here) - 1)
    let off ← if ending = '-' then readOff steps "flag" [] else pure []
    if off.contains 't' then flawAt .wholeFlagOff ((← here) - 1)
    if off.any on.contains then flawAt .flagOnAndOff ((← here) - 1)
    enter host p .flagged start groupCalls (p.frame.flags.within on off)

/-! ## Groups -/

/-- The name of a group with its terminator; it has to be an identifier. -/
def readIdentifier (terminator : Char) : Reader (List Char) := do
  let name ← readGroupName terminator
  if Unicode.isIdentifier name then return name else flawOfName (.badGroupName name) name

/-- Opens a capture group. -/
def openCapture (host : Host) (p : Progress) (start : Nat) (name : Option (List Char)) :
    Reader Progress :=
  enterGroup host { p with groups := p.groups ++ [⟨name, none, false⟩] }
    (.capture (p.groups.length + 1)) start

/-- The head of a group after `(?P`. -/
def readNamed (host : Host) (p : Progress) (start : Nat) : Reader Progress := do
  if ← accept '<' then
    let name ← readIdentifier '>'
    match p.groupNamed? name with
    | some earlier => flawOfName (.groupRedefined name (p.groups.length + 1) earlier) name
    | none => openCapture host p start (some name)
  else if ← accept '=' then
    let name ← readIdentifier ')'
    match p.groupNamed? name with
    | none => flawOfName (.unknownGroupName name) name
    | some index =>
      if !p.isClosed index then flawOfName .groupStillOpen name
      else
        checkBehind p index
        return pushReference p index
  else
    match ← next with
    | none => flawAt .endOfPattern (← here)
    | some token =>
      flawAt (.unknownExtension (String.ofList ('?' :: 'P' :: token.text)))
        ((← here) - (token.text.length + 2))

/-- Opens an assertion on what stands behind. -/
def openBehind (host : Host) (p : Progress) (start : Nat) (negated : Bool) : Reader Progress :=
  enterGroup host { p with groupsBefore := p.groupsBefore.or (some p.groups.length) }
    (.behind negated p.groupsBefore.isNone) start

/-- No group has an index from here on. -/
def groupLimit : Nat := 1073741823

/-- The index of the group that a condition asks for by a name or a number. A number is kept, since
the group may come later. -/
def readAsked (p : Progress) (name : List Char) : Reader (Progress × Nat) := do
  if Unicode.isIdentifier name then
    match p.groupNamed? name with
    | some index => return (p, index)
    | none => flawOfName (.unknownGroupName name) name
  else
    match Integer.read name with
    | some (.ofNat index) =>
      if index = 0 then flawOfName .groupZero name
      else if groupLimit ≤ index then flawOfName (.noSuchGroup index) name
      else
        let pos := (← here) - (name.length + 1)
        return ({ p with asked := p.asked ++ [(index, pos)] }, index)
    | _ => flawOfName (.badGroupName name) name

/-- Notes that a condition asks for a group that is still open. -/
def noteAsked (p : Progress) (index : Nat) : Progress :=
  { p with groups := p.groups.modify (index - 1) fun g =>
      { g with reopens := g.reopens || g.width.isNone } }

/-- The head of a condition, whose parenthesis stands at `start`. -/
def readCondition (host : Host) (p : Progress) (start : Nat) : Reader Progress := do
  let (p, index) ← readAsked p (← readGroupName ')')
  checkBehind p index
  enter host (noteAsked p index) (.condition index) start 1 p.frame.flags

/-- Passes over a comment whose parenthesis stands at `start`. -/
def skipComment (start : Nat) : Nat → Reader Unit
  | 0 => flawAt .openComment start
  | steps + 1 => do
    match ← peek with
    | none => flawAt .openComment start
    | some token =>
      let _ ← next
      if token = .plain ')' then return else skipComment start steps

/-- The head of a group after its parenthesis at `start`. -/
def readOpening (host : Host) (p : Progress) (start : Nat) : Reader Progress := do
  if !(← accept '?') then openCapture host p start none
  else
    match ← next with
    | none => flawAt .endOfPattern (← here)
    | some (.plain 'P') => readNamed host p start
    | some (.plain ':') => enterGroup host p .plain start
    | some (.plain '>') => enterGroup host p .atomic start
    | some (.plain '=') => enterGroup host p (.ahead false) start
    | some (.plain '!') => enterGroup host p (.ahead true) start
    | some (.plain '(') => readCondition host p start
    | some (.plain '#') => do
      skipComment start ((← get).rest.length + 1)
      return p
    | some (.plain '<') =>
      match ← next with
      | none => flawAt .endOfPattern (← here)
      | some (.plain '=') => openBehind host p start false
      | some (.plain '!') => openBehind host p start true
      | some token =>
        flawAt (.unknownExtension (String.ofList ('?' :: '<' :: token.text)))
          ((← here) - (token.text.length + 2))
    | some token =>
      let flag? := Flags.letters.find? fun c => token = .plain c
      match flag?, token with
      | some c, _ => readFlags host p start c
      | none, .plain '-' => readFlags host p start '-'
      | none, token =>
        flawAt (.unknownExtension (String.ofList ('?' :: token.text)))
          ((← here) - (token.text.length + 1))

/-- The condition on a group with one branch or two. -/
def conditional (index : Nat) (branches : List (List Piece)) : Piece :=
  let yes := Piece.sequence (branches.headD [])
  let no := Piece.sequence branches.tail.flatten
  .around (.ifGroup index yes no) branches.flatten none

/-- Closes the innermost group `p.frame` into the group around it, whose rest of the stack is
`outer`. -/
def closeGroup (p : Progress) (around : Frame) (outer : List Frame) : Progress :=
  let pieces := p.choice
  let body := Piece.sequence pieces
  let w := width (groupWidth p.groups) body
  let q : Progress := { p with frame := around, outer := outer }
  match p.frame.opener with
  | .whole | .plain =>
    { q with frame := { around with parts := ⟨pieces, .repeatable⟩ :: around.parts } }
  | .flagged => q.push (.around body pieces none) .repeatable
  | .atomic => q.push (.around (.atomic body) pieces none) .repeatable
  | .condition index => q.push (conditional index p.branches) .repeatable
  | .capture index =>
    let reopens := (p.groups[index - 1]?).any (·.reopens)
    let inner := if reopens then .seq (.reopen index) body else body
    let groups := q.groups.modify (index - 1) fun g => { g with width := some w }
    let r : Progress := { q with groups := groups }
    r.push (.around (.group index inner) pieces none) .repeatable
  | .ahead negated => q.push (.around (.ahead negated body) pieces none) .repeatable
  | .behind negated outermost =>
    let r : Progress := { q with groupsBefore := if outermost then none else q.groupsBefore }
    r.push (.around (.behind negated w.1 body) pieces (behindFlaw? w)) .repeatable

/-! ## Patterns -/

/-- The expression of a pattern that has been read to its end, or to the parenthesis without a
partner at `unbalanced`. What is wrong with the pattern as a whole is found now. -/
def finish (host : Host) (p : Progress) (unbalanced : Option Nat) : Reader Regex := do
  if p.flags.ascii && p.flags.unicode then throw ⟨.incompatibleFlags, none⟩
  match unbalanced with
  | some pos => flawAt .unbalancedParenthesis pos
  | none =>
    match p.asked.find? fun r => p.groups.length < r.1 with
    | some (index, pos) => flawAt (.noSuchGroup index) pos
    | none =>
      let pieces := p.choice
      if host.room < Piece.callsOf pieces + 1 then throw ⟨.tooDeep, none⟩
      match Piece.flawOf pieces with
      | some flaw => throw ⟨flaw, none⟩
      | none => return ⟨Piece.sequence pieces, p.groups.length⟩

/-- One more branch, after a bar at `start` that has not been taken. -/
def readBar (p : Progress) (start : Nat) : Reader Progress := do
  match p.frame.opener, p.frame.branches with
  | .condition _, _ :: _ => flawAt .thirdBranch start
  | _, _ =>
    let _ ← next
    return p.branch

/-- Whether a character is passed over where a pattern is written with blanks and comments. -/
def isLayout (c : Char) : Bool :=
  c == ' ' || c == '\t' || c == '\n' || c == '\r' || c == '\x0b' || c == '\x0c'

/-- Passes over a comment up to the end of its line. -/
def skipLine : Nat → Reader Unit
  | 0 => return
  | steps + 1 => do
    match ← next with
    | none => return
    | some token => if token = .plain '\n' then return else skipLine steps

/-- Handles a character at `start` that has been taken. -/
def readChar (host : Host) (p : Progress) (start : Nat) (c : Char) : Reader Progress := do
  let f := p.frame.flags
  if f.verbose && isLayout c then return p
  if f.verbose && c = '#' then
    skipLine ((← get).rest.length + 1)
    return p
  match c with
  | '[' => do
    let negated ← accept '^'
    let items ← readSet host f start ((← get).rest.length + 1) []
    return p.push (.set f negated items) .repeatable
  | '*' => quantify p start 0 none
  | '+' => quantify p start 1 none
  | '?' => quantify p start 0 (some 1)
  | '\x7b' => readBraces p start
  | '.' =>
    return p.push (.leaf (if f.dotAll then .oneOf true [] else .anyButLineEnd) .anyButLineEnd)
      .repeatable
  | '(' => readOpening host p start
  | '^' => return pushAnchor p (if f.multiline then .lineStart else .textStart) .lineStart
  | '$' => return pushAnchor p (if f.multiline then .lineEnd else .lastLineEnd) .lineEnd
  | c => return pushChar p c.toNat

/-- Reads on, in at most `steps` steps. -/
def readFrom (host : Host) : Nat → Progress → Reader Regex
  | 0, p => finish host p none
  | steps + 1, p => do
    let start ← here
    match ← peek with
    | none =>
      match p.outer with
      | [] => finish host p none
      | _ :: _ => flawAt .openGroup p.frame.start
    | some (.plain ')') =>
      match p.outer with
      | [] => finish host p (some start)
      | around :: outer => do
        let _ ← next
        readFrom host steps (closeGroup p around outer)
    | some (.plain '|') => do readFrom host steps (← readBar p start)
    | some (.plain c) => do
      let _ ← next
      readFrom host steps (← readChar host p start c)
    | some (.escaped c) => do
      let _ ← next
      readFrom host steps (← readEscape host p start c)

/-- Reads a whole pattern; every step takes at least one of its characters. -/
def parse (host : Host) (flags : Flags) (pattern : List Char) : Except Malformed Regex := do
  if host.room < groupCalls then throw ⟨.tooDeep, none⟩
  let start ← settle ⟨pattern, 0⟩
  let (regex, _) ← (readFrom host (pattern.length + 1) (.start flags)).run start
  return regex

end VSyntax.Regex.Parser

namespace VSyntax.Regex

/-- The regular expression that a pattern text writes, or the first flaw of the text. With
`multiline` the anchors `^` and `$` stand for the ends of lines. -/
def parse (host : Host) (pattern : String) (multiline : Bool) : Except Malformed Regex :=
  Parser.parse host (.start multiline) pattern.toList

end VSyntax.Regex
