/-!
# Paths

File paths by their names. Reading a path drops empty names and single dots, so two spellings of one
path are equal; a double dot stays, since only the file system knows what lies above a directory.
-/
namespace VSyntax

/-- A path: how many slashes lead it (none, one, or exactly two), and its names. -/
structure Path where
  leading : Nat
  names : List (List Char)
  deriving DecidableEq, Repr

namespace Path

/-! ## Reading -/

/-- The stretches between the slashes of a text. -/
def splitSlashes : List Char → List (List Char)
  | [] => [[]]
  | c :: cs =>
    if c = '/' then [] :: splitSlashes cs
    else
      match splitSlashes cs with
      | [] => [[c]]
      | name :: names => (c :: name) :: names

/-- How many leading slashes count: two stay two, any other number above none is one. -/
def leadingOf (s : List Char) : Nat :=
  match (s.takeWhile (· = '/')).length with
  | 0 => 0
  | 2 => 2
  | _ => 1

/-- Whether a stretch between slashes names anything. -/
def isName (s : List Char) : Bool := s != [] && s != ['.']

/-- The path that a text spells. -/
def ofChars (s : List Char) : Path := ⟨leadingOf s, (splitSlashes s).filter isName⟩

/-- The path that a string spells. -/
def ofString (s : String) : Path := ofChars s.toList

/-! ## Writing -/

/-- Names parted by slashes. -/
def joinNames : List (List Char) → List Char
  | [] => []
  | [name] => name
  | name :: names => name ++ '/' :: joinNames names

/-- The text of a path; the path without names is a dot. -/
def text (p : Path) : List Char :=
  if p.leading = 0 ∧ p.names = [] then ['.'] else List.replicate p.leading '/' ++ joinNames p.names

/-! ## Parts -/

/-- The last name of a path, empty if it has none. -/
def name (p : Path) : List Char := p.names.getLast?.getD []

/-- The path without its last name. -/
def parent (p : Path) : Path := { p with names := p.names.dropLast }

/-- The path of an entry in the directory `p`. -/
def child (p : Path) (entry : List Char) : Path := { p with names := p.names ++ [entry] }

/-- The part of the last name from its last dot on, unless that dot begins or ends the name. -/
def suffix (p : Path) : List Char :=
  let ending := (p.name.reverse.takeWhile (· != '.')).reverse
  if 0 < ending.length ∧ ending.length + 1 < p.name.length then '.' :: ending else []

end Path

end VSyntax
