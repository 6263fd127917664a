import VSyntax.WordClass
import VSyntax.Span
import VSyntax.Regex.Matching
import VSyntax.Regex.Parser

/-!
# Rules

A rule gives a category to a stretch of code: a word rule to a whole word of a class, a shape rule
to one capture group of a regular expression. A rule table is an ordered list of rules, and it is
built from word classes by a layout, which says where among the shapes the words of each class are
tried. Building a table is all or nothing.
-/
namespace VSyntax

/-! ## Rule tables -/

/-- A rule, under the name of its word class or shape. -/
inductive Rule where
  /-- The words of a class. -/
  | words (name : String) (category : Category) (words : List (List Char))
  /-- One capture group of a regular expression. -/
  | shape (name : String) (category : Category) (regex : Regex) (group : Nat)
  deriving DecidableEq, Repr

namespace Rule

/-- The name of a rule. -/
def name : Rule → String
  | .words name _ _ | .shape name _ _ _ => name

/-- The category that a rule gives. -/
def category : Rule → Category
  | .words _ category _ | .shape _ category _ _ => category

/-- The written name of a rule's kind. -/
def kindName : Rule → String
  | .words _ _ _ => "WORD_SET"
  | .shape _ _ _ _ => "REGEX"

/-- The words of a word rule. -/
def wordList : Rule → List (List Char)
  | .words _ _ ws => ws
  | .shape _ _ _ _ => []

/-- The rule for the words of a class. -/
def ofClass (c : WordClass) : Rule := .words c.name c.category c.words

end Rule

/-- Rules in the order in which they are tried. -/
abbrev RuleTable := List Rule

/-! ## Layouts -/

/-- A lexical shape of the source language, as a pattern text with the capture group that counts. -/
structure Shape where
  name : String
  pattern : String
  group : Int
  category : Category
  deriving DecidableEq, Repr

/-- An entry of a layout: a shape, or a place for word classes. -/
inductive LayoutEntry where
  | shape (s : Shape)
  /-- The classes of the given names, and with `rest` every class that no place names. -/
  | slot (names : List String) (rest : Bool)
  deriving DecidableEq, Repr

/-- The order of shapes and word classes in a rule table. -/
abbrev Layout := List LayoutEntry

namespace Shape

/-- The rule of a shape, unless its pattern is malformed or has no such group. -/
def rule (s : Shape) (host : Regex.Host) : Except Fault Rule :=
  match Regex.parse host s.pattern false with
  | .error m => .error (.pattern ⟨s.name, s.pattern, .malformed m⟩)
  | .ok regex =>
    if 0 ≤ s.group ∧ s.group ≤ regex.groups then .ok (.shape s.name s.category regex s.group.toNat)
    else .error (.pattern ⟨s.name, s.pattern, .noGroup s.group regex.groups⟩)

end Shape

namespace Layout

/-- Whether an entry names a class. -/
def names (layout : Layout) (name : String) : Bool :=
  layout.any fun
    | .slot ns _ => ns.contains name
    | .shape _ => false

/-- Whether a layout has a place for unnamed classes. -/
def hasRest (layout : Layout) : Bool :=
  layout.any fun
    | .slot _ rest => rest
    | .shape _ => false

/-- The classes that no entry names. -/
def unnamed (layout : Layout) (classes : List WordClass) : List WordClass :=
  classes.filter fun c => !layout.names c.name

/-- The rules that an entry of the layout stands for. -/
def entryRules (layout : Layout) (host : Regex.Host) (classes : List WordClass) :
    LayoutEntry → Except Fault (List Rule)
  | .shape s => do return [← s.rule host]
  | .slot ns rest =>
    .ok ((ns.flatMap fun n => (classes.filter fun c => c.name == n).map Rule.ofClass) ++
      if rest then (layout.unnamed classes).map Rule.ofClass else [])

/-- The rule table that a layout makes of word classes. -/
def compile (layout : Layout) (host : Regex.Host) (classes : List WordClass) :
    Except Fault RuleTable :=
  match layout.hasRest, layout.unnamed classes with
  | false, c :: _ => .error (.config (.noSlot c.name))
  | _, _ => do
    let rules ← layout.mapM (layout.entryRules host classes)
    return rules.flatten

end Layout

end VSyntax
