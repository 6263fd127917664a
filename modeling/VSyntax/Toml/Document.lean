import VSyntax.Toml.Value

/-!
# Configuration files

A configuration file is read line by line into one table. A line holds a key with its value, a
header that opens a table or the next table of an array, a comment, or nothing. What no line may
hold, or what would give a key a second value, makes the file malformed.
-/
namespace VSyntax.Toml

/-- A file so far: its tables, what is no longer allowed, and the names of the table whose section
is being read. -/
structure Document where
  entries : Entries
  marks : Marks
  header : List String

namespace Document

/-- A file of which nothing has been read. -/
def empty : Document := ⟨[], .empty, []⟩

/-! ## Lines -/

/-- Changes the tables of a file, unless the change is a flaw. -/
def change (doc : Document) (f : Entries → Except Flaw Entries) (path : List String) :
    Reader Document :=
  match doc.entries.within true f path with
  | .error flaw => fail flaw
  | .ok entries => return { doc with entries := entries }

/-- The tables that the dotted key of a section passes on the way to its own. -/
def passedBy (doc : Document) (key : Key) : List (List String) :=
  (List.range key.path.length).map fun i => doc.header ++ key.path.take (i + 1)

/-- A key with its value. -/
def readPair (room : Nat) (doc : Document) : Reader Document := do
  enter room 2
  let key ← readKeyOfPair
  let d ← readValue room 3
  let passed := doc.passedBy key
  match passed.find? doc.marks.isOpened with
  | some table => fail (.redefined table)
  | none =>
    let table := doc.header ++ key.path
    if doc.marks.isFrozen table then fail (.immutable table)
    else
      let marks := doc.marks.pass passed
      let marks := if isWhole d then marks.freeze (doc.header ++ key.names) else marks
      { doc with marks := marks }.change (Entries.insert key.stem d .overwritten) table

/-- A header that opens a table, after its bracket. -/
def readHeader (doc : Document) : Reader Document := do
  skipBlanks
  let names := (← readKey).names
  if doc.marks.isOpened names || doc.marks.isFrozen names then fail (.declaredTwice names)
  else
    let doc ← { doc with marks := doc.marks.declare names, header := names }.change .ok names
    take [']'] .openHeader
    return doc

/-- A header that opens the next table of an array, after its brackets. -/
def readArrayHeader (doc : Document) : Reader Document := do
  skipBlanks
  let key ← readKey
  let names := key.names
  if doc.marks.isFrozen names then fail (.immutable names)
  else
    let marks := (doc.marks.release names).declare names
    let doc ← { doc with marks := marks, header := names }.change (Entries.addTable key.stem)
      key.path
    take [']', ']'] .openArrayHeader
    return doc

/-- What stands on a line that is not blank. -/
def readStatement (room : Nat) (doc : Document) : Reader Document := do
  match ← get with
  | '#' :: _ => return doc
  | '[' :: '[' :: rest =>
    set rest
    { doc with marks := doc.marks.settle }.readArrayHeader
  | '[' :: rest =>
    set rest
    { doc with marks := doc.marks.settle }.readHeader
  | c :: _ =>
    if isBareKeyChar c || c == '"' || c == '\x27' then doc.readPair room else fail .noStatement
  | [] => return doc

/-- All lines, of which there are fewer than `lines`. -/
def readLines (room : Nat) : Nat → Document → Reader Document
  | 0, _ => fail .noStatement
  | lines + 1, doc => do
    skipBlanks
    match ← get with
    | [] => return doc
    | '\n' :: rest =>
      set rest
      readLines room lines doc
    | _ =>
      let doc ← doc.readStatement room
      skipBlanks
      skipComment
      match ← get with
      | [] => return doc
      | '\n' :: rest =>
        set rest
        readLines room lines doc
      | _ => fail .noLineEnd

end Document

/-- Each carriage return that a line feed follows is dropped. -/
def unifyLineEnds : List Char → List Char
  | [] => []
  | '\r' :: '\n' :: cs => '\n' :: unifyLineEnds cs
  | c :: cs => c :: unifyLineEnds cs

/-- The table of a configuration file. There is room for `room` calls inside each other; those that
tables and arrays take are counted, the few that others take besides are taken to fit. -/
def read (room : Nat) (s : List Char) : Except Fault Entries :=
  let text := unifyLineEnds s
  match (Document.readLines room (text.length + 1) .empty).run text with
  | .ok (doc, _) => .ok doc.entries
  | .error stop => .error (stop.fault text)

end VSyntax.Toml
