import VSyntax.Classify
import VSyntax.Outline
import VSyntax.StandardLayout

/-!
# Sessions

An editing session: the vocabulary in use, the rule table built from it, and the delimiters. A new
vocabulary is compiled before it takes the place of the old one, so a vocabulary that is refused
leaves the session as it was.
-/
namespace VSyntax

/-- The tables that classify the buffers of an editor. -/
structure Session where
  vocabulary : Vocabulary
  rules : RuleTable
  delimiters : Delimiters

namespace Session

/-- A session with a vocabulary and delimiters. -/
def start (v : Vocabulary) (d : Delimiters) : Except Fault Session := do
  let rules ← v.rules
  return ⟨v, rules, d⟩

/-- The session with another vocabulary. -/
def reconfigure (s : Session) (v : Vocabulary) : Except Fault Session := do
  let rules ← v.rules
  return { s with vocabulary := v, rules := rules }

/-- The spans of a text, or of a region of it. -/
def classify (s : Session) (t : Text) (region : Option Region) : Except ScanFault (List Span) :=
  VSyntax.classify s.rules s.delimiters t region

/-- The outline of a text. -/
def outline (_ : Session) (t : Text) : Except Fault (List OutlineEntry) := VSyntax.outline t

end Session

end VSyntax
