import VSyntax.Regex.Basic
import VSyntax.Regex.Error

/-!
# Reading patterns token by token

How the text of a pattern is gone through: a token is a character or a backslash with the character
after it, and reading ends at the first flaw. The module also reads what is written the same way
all over a pattern: digits and names.
-/
namespace VSyntax.Regex

/-! ## Surroundings -/

/-- What the reading of patterns takes from outside. -/
structure Host where
  /-- The character that a name stands for. -/
  named? : List Char → Option Nat
  /-- How many calls inside each other there is room for. Those that a group or a branch takes are
  counted; a call that makes no others is taken to fit. -/
  room : Nat

/-- Room as there mostly is, and no names of characters. -/
def Host.standard : Host := ⟨fun _ => none, 1000⟩

namespace Parser

/-! ## Tokens -/

/-- A token: a character, or a backslash with the character after it. -/
inductive Token where
  | plain (c : Char)
  | escaped (c : Char)
  deriving DecidableEq, Repr

/-- The pattern text of a token. -/
def Token.text : Token → List Char
  | .plain c => [c]
  | .escaped c => ['\\', c]

/-- The rest of a pattern and its offset. -/
structure Cursor where
  rest : List Char
  pos : Nat
  deriving DecidableEq, Repr

/-- The token at a cursor. -/
def Cursor.token? : Cursor → Option Token
  | ⟨'\\' :: c :: _, _⟩ => some (.escaped c)
  | ⟨c :: _, _⟩ => some (.plain c)
  | ⟨[], _⟩ => none

/-- The cursor after its token. -/
def Cursor.skip : Cursor → Cursor
  | ⟨'\\' :: _ :: rest, pos⟩ => ⟨rest, pos + 2⟩
  | ⟨_ :: rest, pos⟩ => ⟨rest, pos + 1⟩
  | ⟨[], pos⟩ => ⟨[], pos⟩

/-- Reading from a cursor, which ends at the first flaw. -/
abbrev Reader := StateT Cursor (Except Malformed)

/-- A flaw at an offset. -/
def flawAt (flaw : Flaw) (pos : Nat) : Reader α := throw ⟨flaw, some pos⟩

/-- The cursor, unless a lone backslash is all that is left. -/
def settle (c : Cursor) : Except Malformed Cursor :=
  if c.rest = ['\\'] then .error ⟨.lastBackslash, some c.pos⟩ else .ok c

/-- The token ahead. -/
def peek : Reader (Option Token) := return (← get).token?

/-- The offset of the token ahead. -/
def here : Reader Nat := return (← get).pos

/-- Takes the token ahead. A lone backslash behind it is a flaw already now. -/
def next : Reader (Option Token) := do
  let c ← get
  set (← settle c.skip)
  return c.token?

/-- Takes the character ahead if it is `c`. -/
def accept (c : Char) : Reader Bool := do
  if (← peek) = some (.plain c) then
    let _ ← next
    return true
  else return false

/-- Takes up to `most` characters of a class. -/
def takeUpTo (p : Char → Bool) : Nat → Reader (List Char)
  | 0 => return []
  | most + 1 => do
    match ← peek with
    | some (.plain c) =>
      if p c then
        let _ ← next
        return c :: (← takeUpTo p most)
      else return []
    | _ => return []

/-- Takes all characters of a class that are ahead. -/
def takeAll (p : Char → Bool) : Reader (List Char) := do
  takeUpTo p (← get).rest.length

/-! ## Numbers -/

def isOctal (c : Char) : Bool := '0' ≤ c && c ≤ '7'
def isHex (c : Char) : Bool := isAsciiDigit c || ('a' ≤ c && c ≤ 'f') || ('A' ≤ c && c ≤ 'F')

/-- The value of a digit of any base up to sixteen. -/
def digitValue (c : Char) : Nat :=
  if isAsciiDigit c then c.toNat - 0x30
  else if 'a' ≤ c then c.toNat - 0x61 + 10
  else c.toNat - 0x41 + 10

/-- The value of a numeral in a base. -/
def numeralValue (base : Nat) (digits : List Char) : Nat :=
  digits.foldl (fun n c => n * base + digitValue c) 0

/-- No repetition counts this far. -/
def repeatLimit : Nat := 4294967295

/-! ## Names -/

/-- The characters of a name up to its terminator; `name` are those before, latest first. -/
def readNameFrom (kind : String) (terminator : Char) : Nat → List Char → Reader (List Char)
  | 0, _ => do flawAt (.openName terminator) (← here)
  | steps + 1, name => do
    match ← next with
    | none =>
      if name = [] then flawAt (.noName kind) (← here)
      else flawAt (.openName terminator) ((← here) - name.length)
    | some token =>
      if token = .plain terminator then
        if name = [] then flawAt (.noName kind) ((← here) - 1) else return name.reverse
      else readNameFrom kind terminator steps (token.text.reverse ++ name)

/-- A name of some kind with its terminator. -/
def readName (kind : String) (terminator : Char) : Reader (List Char) := do
  readNameFrom kind terminator ((← get).rest.length + 1) []

/-- The name of a group with its terminator. -/
def readGroupName (terminator : Char) : Reader (List Char) := readName "group name" terminator

/-- A flaw of the name that ends, with its terminator, before the cursor. -/
def flawOfName (flaw : Flaw) (name : List Char) : Reader α := do
  flawAt flaw ((← here) - (name.length + 1))

end Parser

end VSyntax.Regex
