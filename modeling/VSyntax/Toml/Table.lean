import VSyntax.Datum
import VSyntax.Toml.Fault

/-!
# Configuration tables

The tables of a configuration file while it is being read, and what may no longer be done to them. A
table is changed by the names that lead to it; those that are missing on the way are made. A header
opens a table once, dotted keys extend a table only within the section that opened it, and a value
given as a whole is never extended.
-/
namespace VSyntax.Toml

/-- A key: the names on the way to its table, and its name there. -/
structure Key where
  path : List String
  stem : String
  deriving DecidableEq, Repr

/-- All names of a key. -/
def Key.names (key : Key) : List String := key.path ++ [key.stem]

/-- The entries of a table. -/
abbrev Entries := List (String × Datum)

namespace Entries

/-! ## Changes -/

/-- The entries with the value of a name that is there exchanged. -/
def exchange (es : Entries) (name : String) (d : Datum) : Entries :=
  es.map fun e => if e.1 = name then (name, d) else e

/-- The entries with the table that names lead to changed by `f`. Tables that are missing are made;
where lists may be entered, a list leads to its last table. -/
def within (lists : Bool) (f : Entries → Except Flaw Entries) :
    List String → Entries → Except Flaw Entries
  | [], es => f es
  | name :: path, es =>
    match es.lookup name with
    | none => (within lists f path []).map fun sub => es ++ [(name, .table sub)]
    | some (.table sub) => (within lists f path sub).map fun sub => es.exchange name (.table sub)
    | some (.list items) =>
      match lists, items.getLast? with
      | true, some (.table sub) =>
        (within lists f path sub).map fun sub =>
          es.exchange name (.list (items.dropLast ++ [.table sub]))
      | _, _ => .error .overwritten
    | some _ => .error .overwritten

/-- The entries with a value for a name that has none; for one that has, the flaw. -/
def insert (name : String) (d : Datum) (flaw : Flaw) (es : Entries) : Except Flaw Entries :=
  if (es.lookup name).isSome then .error flaw else .ok (es ++ [(name, d)])

/-- The entries with one more table in a list of tables. -/
def addTable (name : String) (es : Entries) : Except Flaw Entries :=
  match es.lookup name with
  | none => .ok (es ++ [(name, .list [.table []])])
  | some (.list items) => .ok (es.exchange name (.list (items ++ [.table []])))
  | some _ => .error .overwritten

end Entries

/-- Whether a value gives a table or an array as a whole. -/
def isWhole : Datum → Bool
  | .list _ | .table _ => true
  | _ => false

/-! ## Marks -/

/-- What is no longer allowed: headers for the tables of `opened`, and any change of those of
`frozen` and inside them. The tables of `passed` count as opened from the next header on. -/
structure Marks where
  opened : List (List String)
  frozen : List (List String)
  passed : List (List String)

namespace Marks

/-- Nothing is forbidden yet. -/
def empty : Marks := ⟨[], [], []⟩

/-- Whether a table has been opened. -/
def isOpened (m : Marks) (names : List String) : Bool := m.opened.contains names

/-- Whether a table is given as a whole, or is inside of one that is. -/
def isFrozen (m : Marks) (names : List String) : Bool := m.frozen.any fun whole =>
  whole.isPrefixOf names

/-- One more table is opened. -/
def declare (m : Marks) (names : List String) : Marks := { m with opened := names :: m.opened }

/-- One more value is given as a whole. -/
def freeze (m : Marks) (names : List String) : Marks := { m with frozen := names :: m.frozen }

/-- Tables are passed on the way of a dotted key. -/
def pass (m : Marks) (tables : List (List String)) : Marks :=
  { m with passed := tables ++ m.passed }

/-- A header comes: what was passed counts as opened. -/
def settle (m : Marks) : Marks := { m with opened := m.passed ++ m.opened, passed := [] }

/-- Nothing is forbidden any more about a table and what is inside of it. -/
def release (m : Marks) (names : List String) : Marks :=
  { m with
    opened := m.opened.filter fun table => !names.isPrefixOf table
    frozen := m.frozen.filter fun table => !names.isPrefixOf table }

end Marks

end VSyntax.Toml
