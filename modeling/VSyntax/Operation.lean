import VSyntax.Session

/-!
# Operations on a session

What an editor asks of a session, one operation after the other. A session is changed in place, so
where an operation stops with a fault, what it has written by then stays written. A new vocabulary
takes two writes, that of the vocabulary and that of its rules; whatever can be refused is asked for
before the first of them.
-/
namespace VSyntax

/-- Why an operation on a session fails. -/
inductive OperationFault where
  /-- A vocabulary or a pattern is refused. -/
  | refused (f : Fault)
  /-- A scan stops short. -/
  | scan (f : ScanFault)
  deriving Repr

/-- What is done with a session in place. -/
abbrev SessionM := EStateM OperationFault Session

namespace SessionM

/-- What a computation gives, unless it is refused. -/
def orRefuse {α : Type} : Except Fault α → SessionM α
  | .ok a => pure a
  | .error f => throw (.refused f)

/-- Puts a vocabulary in use that is asked for with the one in use at hand. -/
def change (request : Vocabulary → Except Fault Vocabulary) : SessionM Unit := do
  let s ← get
  let v ← orRefuse (request s.vocabulary)
  let rules ← orRefuse v.rules
  modify fun s => { s with vocabulary := v }
  modify fun s => { s with rules := rules }

/-- The spans of a text, or of a region of it. -/
def classify (t : Text) (region : Option Region) : SessionM (List Span) := do
  let s ← get
  match s.classify t region with
  | .ok spans => return spans
  | .error f => throw (.scan f)

/-- The outline of a text. -/
def outline (t : Text) : SessionM (List OutlineEntry) := do
  let s ← get
  orRefuse (s.outline t)

end SessionM

/-- What an editor asks of a session. -/
inductive Operation where
  /-- Another vocabulary. -/
  | reconfigure (v : Vocabulary)
  /-- The set of the given name extended in the vocabulary in use. -/
  | extend (name : String) (words : Datum)
  /-- The sets of a keyword table replaced in the given vocabulary, or else in the one in use. -/
  | replace (base : Option Vocabulary) (table : List (String × Datum))
  /-- The spans of a text, or of a region of it. -/
  | classify (t : Text) (region : Option Region)
  /-- The outline of a text. -/
  | outline (t : Text)

/-- The answer to an operation. -/
inductive Answer where
  | done
  | spans (spans : List Span)
  | entries (entries : List OutlineEntry)
  deriving Repr

namespace Operation

/-- The vocabulary that an operation asks for, given the one in use. -/
def request? : Operation → Option (Vocabulary → Except Fault Vocabulary)
  | .reconfigure v => some fun _ => .ok v
  | .extend name words => some fun v => v.extend name words
  | .replace base table => some fun v => (base.getD v).replace table
  | .classify _ _ | .outline _ => none

/-- An operation, done in place. -/
def perform : Operation → SessionM Answer
  | .reconfigure v => do
    SessionM.change fun _ => .ok v
    return .done
  | .extend name words => do
    SessionM.change fun v => v.extend name words
    return .done
  | .replace base table => do
    SessionM.change fun v => (base.getD v).replace table
    return .done
  | .classify t region => return .spans (← SessionM.classify t region)
  | .outline t => return .entries (← SessionM.outline t)

end Operation

namespace Session

/-- The session that an operation leaves, whether it succeeds or not. -/
def after (s : Session) (op : Operation) : Session :=
  match op.perform s with
  | .ok _ s' => s'
  | .error _ s' => s'

/-- The session that operations leave, done one after the other. -/
def run (s : Session) (ops : List Operation) : Session := ops.foldl after s

end Session

end VSyntax
