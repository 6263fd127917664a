import VSyntax.Toml.Scalar
import VSyntax.Toml.Table

/-!
# Keys and values of configuration files

Dotted keys, and the values that hold others: arrays, which may run over several lines with
comments, and tables written on one line. Only so many of them may stand inside each other as there
is room for.
-/
namespace VSyntax.Toml

/-! ## Keys -/

/-- A character of a key without quotes. -/
def isBareKeyChar (c : Char) : Bool := c.isAlphanum || c == '-' || c == '_'

/-- One name of a key. -/
def readName : Reader String := do
  match ← get with
  | '"' :: rest =>
    set rest
    return String.ofList (← readLineString '"')
  | '\x27' :: rest =>
    set rest
    return String.ofList (← readLineString '\x27')
  | s =>
    match s.takeWhile isBareKeyChar with
    | [] => fail .noKey
    | name =>
      set (s.drop name.length)
      return String.ofList name

/-- A key of at most `names` names after the first, with the blanks behind it. -/
def readKeyUpTo : Nat → Reader Key
  | 0 => fail .noKey
  | names + 1 => do
    let name ← readName
    skipBlanks
    match ← get with
    | '.' :: rest =>
      set rest
      skipBlanks
      let key ← readKeyUpTo names
      return { key with path := name :: key.path }
    | _ => return ⟨[], name⟩

/-- A key. -/
def readKey : Reader Key := do readKeyUpTo ((← get).length + 1)

/-- A key with the equals sign and the blanks after it. -/
def readKeyOfPair : Reader Key := do
  let key ← readKey
  take ['='] .noEquals
  skipBlanks
  return key

/-! ## Values -/

/-- A table with one more entry given on the same line; `frozen` holds the values that are given as
a whole. -/
def insertInline (entries : Entries) (frozen : Marks) (key : Key) (d : Datum) : Reader Entries :=
  if frozen.isFrozen key.names then fail (.immutable key.names)
  else
    match entries.within false (Entries.insert key.stem d (.repeatedKey key.stem)) key.path with
    | .error flaw => fail flaw
    | .ok entries => return entries

mutual
/-- A value, inside `calls` calls; `fuel` bounds the depth and the number of items. -/
def readValueWith (room : Nat) : Nat → Nat → Reader Datum
  | 0, _ => fail .noValue
  | fuel + 1, calls => do
    enter room calls
    match ← get with
    | '[' :: rest =>
      set rest
      enter room (calls + 1)
      skipSpace
      if ← accept "]" then return .list [] else readItems room fuel calls []
    | '\x7b' :: rest =>
      set rest
      enter room (calls + 1)
      skipBlanks
      if ← accept "\x7d" then return .table [] else readInline room fuel calls [] .empty
    | _ => readScalar
/-- The items of an array from one on; `done` are those before it, last first. -/
def readItems (room : Nat) : Nat → Nat → List Datum → Reader Datum
  | 0, _, _ => fail .openArray
  | fuel + 1, calls, done => do
    let d ← readValueWith room fuel (calls + 2)
    skipSpace
    if ← accept "]" then return .list (d :: done).reverse
    else
      take [','] .openArray
      skipSpace
      if ← accept "]" then return .list (d :: done).reverse
      else readItems room fuel calls (d :: done)
/-- The entries of a table on one line from one on, after those of `entries`. -/
def readInline (room : Nat) : Nat → Nat → Entries → Marks → Reader Datum
  | 0, _, _, _ => fail .openTable
  | fuel + 1, calls, entries, frozen => do
    enter room (calls + 2)
    let key ← readKeyOfPair
    let d ← readValueWith room fuel (calls + 3)
    let entries ← insertInline entries frozen key d
    skipBlanks
    if ← accept "\x7d" then return .table entries
    else
      take [','] .openTable
      skipBlanks
      readInline room fuel calls entries (if isWhole d then frozen.freeze key.names else frozen)
end

/-- A value, inside `calls` calls. -/
def readValue (room calls : Nat) : Reader Datum := do
  readValueWith room (2 * (← get).length + 2) calls

end VSyntax.Toml
