import VSyntax.Session
import VSyntax.SemanticTokens

/-!
# Workspaces

The documents that an editor has open, with the code units in which it counts, and what the editor
asks of them: semantic tokens of a document or of a range, and the symbols of its outline.
-/
namespace VSyntax

/-- Two places of a document and all that is between them. -/
structure PlaceRange where
  first : Place
  last : Place
  deriving DecidableEq, Repr

/-- A symbol of a document: its name, the number of its kind, the kind of its outline entry, the
places that it takes up, and the places that an editor selects for it. -/
structure DocumentSymbol extends PlaceRange where
  name : Text
  kind : Nat
  detail : String
  selection : PlaceRange
  deriving DecidableEq, Repr

namespace DocumentSymbol

/-- The number of the symbol kind of an outline kind. -/
def kindNumber (kind : String) : Nat :=
  match kind with
  | "module" => 2
  | "type" => 5
  | "enum" => 10
  | "interface" => 11
  | "function" => 12
  | "todo" => 15
  | "struct" => 23
  | _ => 13

/-- The places between which the label of an outline entry stands. -/
def labelRange (t : Text) (units : Option CodeUnits) (e : OutlineEntry) : PlaceRange where
  first := Place.ofOffset t units t.lineStarts e.offset
  last := Place.ofOffset t units t.lineStarts (e.offset + e.label.size)

/-- The symbol of an outline entry. An editor selects all of it. -/
def ofEntry (t : Text) (units : Option CodeUnits) (e : OutlineEntry) : DocumentSymbol where
  toPlaceRange := labelRange t units e
  name := e.label
  kind := kindNumber e.kind
  detail := e.kind
  selection := labelRange t units e

end DocumentSymbol

/-- The open documents by their identifiers, with the session that classifies them. -/
structure Workspace where
  session : Session
  units : CodeUnits
  documents : List (String × Text)

/-- Why a request cannot be answered. -/
inductive RequestFault where
  /-- No document of that identifier is open. -/
  | notOpen (uri : String)
  | scan (f : ScanFault)
  | outline (f : Fault)

namespace Workspace

/-- The names of the token types, in the order of their numbers. -/
def tokenTypes : List String := Category.all.map Category.name

/-- A workspace without documents, for the standard vocabulary. -/
def empty (units : CodeUnits) : Except Fault Workspace := do
  return ⟨← Session.start .standard .standard, units, []⟩

/-- Opens a document, or replaces its text. -/
def put (w : Workspace) (uri : String) (t : Text) : Workspace :=
  { w with documents := (uri, t) :: w.documents.filter fun d => d.1 != uri }

/-- The text of an open document. -/
def text (w : Workspace) (uri : String) : Except RequestFault Text :=
  match w.documents.lookup uri with
  | some t => .ok t
  | none => .error (.notOpen uri)

/-- The spans of a document, or of a region of it, as tokens. -/
def tokensOf (w : Workspace) (t : Text) (region : Option Region) :
    Except RequestFault (List SemanticToken) :=
  match w.session.classify t region with
  | .ok spans => .ok (SemanticToken.ofSpans t (some w.units) spans)
  | .error f => .error (.scan f)

/-- The semantic tokens of a document. -/
def tokens (w : Workspace) (uri : String) : Except RequestFault (List SemanticToken) := do
  let t ← w.text uri
  w.tokensOf t none

/-- The semantic tokens of a document between two places. -/
def tokensBetween (w : Workspace) (uri : String) (first last : Place) :
    Except RequestFault (List SemanticToken) := do
  let t ← w.text uri
  w.tokensOf t (some ⟨first.offset t (some w.units), last.offset t (some w.units)⟩)

/-- The symbols of a document. -/
def symbols (w : Workspace) (uri : String) : Except RequestFault (List DocumentSymbol) := do
  let t ← w.text uri
  match w.session.outline t with
  | .ok entries => return entries.map (DocumentSymbol.ofEntry t (some w.units))
  | .error f => throw (.outline f)

end Workspace

end VSyntax
