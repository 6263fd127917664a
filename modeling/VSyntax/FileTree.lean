import VSyntax.Watch

/-!
# File trees

A file system in memory: the files and directories below a working directory, which paths lead to
name by name. A tree remembers what was planted in it, so that what a run has changed can be told.
-/
namespace VSyntax

/-- A file: its bytes, the bytes it was planted with, and the time of its last change. -/
structure TreeFile where
  bytes : List UInt8
  planted : Option (List UInt8)
  time : Int
  deriving DecidableEq, Repr

/-- What stands at a place of a tree. -/
inductive TreeNode where
  | file (f : TreeFile)
  | directory
  deriving DecidableEq, Repr

/-- Where a path leads: to names below the working directory, or outside of it. -/
structure TreePlace where
  inside : Bool
  names : List (List Char)
  deriving DecidableEq, Repr

/-- The nodes of a tree by their names below the working directory, and the next write's time. -/
structure FileTree where
  nodes : List (List (List Char) × TreeNode)
  clock : Int

namespace FileTree

/-! ## Changes -/

/-- A tree without nodes. The time that its first write gets is later than any planted one. -/
def empty : FileTree := ⟨[], 1000000000000000000000000000000⟩

/-- The tree with one node put at its names. -/
def setNode (t : FileTree) (names : List (List Char)) (node : TreeNode) : FileTree :=
  { t with nodes := (names, node) :: t.nodes.filter fun n => n.1 != names }

/-- The tree with a directory at the first `count` of the names, unless a node is there. -/
def makeDirectory (names : List (List Char)) (t : FileTree) (count : Nat) : FileTree :=
  if (t.nodes.lookup (names.take count)).isSome then t else t.setNode (names.take count) .directory

/-- The tree with directories at the first names, and the next, up to `count` of them. -/
def makeDirectories (t : FileTree) (names : List (List Char)) (count : Nat) : FileTree :=
  ((List.range count).map (· + 1)).foldl (makeDirectory names) t

/-- The tree with a file planted, and the directories above it. -/
def plant (t : FileTree) (p : Path) (bytes : List UInt8) (time : Int) : FileTree :=
  (t.makeDirectories p.names (p.names.length - 1)).setNode p.names (.file ⟨bytes, some bytes, time⟩)

/-- The tree with a directory planted, and the directories above it. -/
def plantDirectory (t : FileTree) (p : Path) : FileTree := t.makeDirectories p.names p.names.length

/-- The tree without the node at a path. -/
def remove (t : FileTree) (p : Path) : FileTree :=
  { t with nodes := t.nodes.filter fun n => n.1 != p.names }

/-! ## Looking -/

/-- The time of every directory. -/
def directoryTime : Int := 1

/-- The longest name in bytes. -/
def nameLimit : Nat := 255

/-- The longest path in bytes. -/
def pathLimit : Nat := 4095

/-- What stands at a place, if anything is known to. Outside, only the directories above are. -/
def entry? (t : FileTree) (place : TreePlace) : Option FileEntry :=
  if place.names = [] then some (.directory directoryTime)
  else if place.inside then
    match t.nodes.lookup place.names with
    | some (.file f) => some (.file f.bytes f.time)
    | some .directory => some (.directory directoryTime)
    | none => none
  else none

/-- The place that a name leads to from a directory. -/
def enter (place : TreePlace) (name : List Char) : TreePlace :=
  if name = ['.', '.'] then
    if place.names = [] then ⟨false, []⟩ else { place with names := place.names.dropLast }
  else { place with names := place.names ++ [name] }

/-- One name further along a path. -/
def step (t : FileTree) (place : TreePlace) (name : List Char) : Except FileError TreePlace :=
  match t.entry? place with
  | none => .error .notFound
  | some (.file _ _) | some (.unreadable _ _) => .error .notDirectory
  | some (.directory _) =>
    if nameLimit < (Utf8.encode name).length then .error .nameTooLong else .ok (enter place name)

/-- The place that a path leads to, where all but its last name must stand. -/
def locate (t : FileTree) (p : Path) : Except FileError TreePlace :=
  if pathLimit < (Utf8.encode p.text).length then .error .nameTooLong
  else p.names.foldlM t.step ⟨p.leading == 0, []⟩

/-- What a path leads to. -/
def find (t : FileTree) (p : Path) : Except FileError FileEntry :=
  match t.locate p with
  | .error e => .error e
  | .ok place =>
    match t.entry? place with
    | some entry => .ok entry
    | none => .error .notFound

/-- What keeps a file from being written. -/
def writeError? (t : FileTree) (p : Path) : Option FileError :=
  match t.locate p with
  | .error e => some e
  | .ok place =>
    match t.entry? place with
    | some (.directory _) => some .isDirectory
    | _ => none

/-- The tree as a run sees it. -/
def view (t : FileTree) : FileView := ⟨t.find, t.writeError?⟩

/-! ## Writing -/

/-- The bytes that the file at a place was planted with. -/
def planted? (t : FileTree) (names : List (List Char)) : Option (List UInt8) :=
  match t.nodes.lookup names with
  | some (.file f) => f.planted
  | _ => none

/-- The tree with a file written by a run; each write has a time of its own. What is written outside
is not kept. -/
def write (t : FileTree) (p : Path) (text : List Char) : FileTree :=
  match t.locate p with
  | .error _ => t
  | .ok place =>
    if place.inside then
      { t.setNode place.names (.file ⟨Utf8.encode text, t.planted? place.names, t.clock⟩) with
        clock := t.clock + 1 }
    else t

/-- The tree after an effect. -/
def perform (e : Effect) (t : FileTree) : FileTree :=
  match e with
  | .save p text => t.write p text
  | _ => t

/-- Trees as a world. -/
def world (platform : Platform) : World FileTree := ⟨platform, view, perform⟩

/-- The files whose bytes differ from those they were planted with. -/
def written (t : FileTree) : List (Path × List UInt8) :=
  t.nodes.filterMap fun n =>
    match n.2 with
    | .file f => if f.planted = some f.bytes then none else some (⟨0, n.1⟩, f.bytes)
    | .directory => none

end FileTree

end VSyntax
