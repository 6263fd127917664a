import VSyntax.Operation
import VSyntax.Proofs.Outline.Table
import VSyntax.Proofs.Standard.Table
import VSyntax.Proofs.Classify.Order

/-!
# Sessions over time

Whatever has been asked of a session, it is at every moment the session that one would start with
its vocabulary (`Session.run_as_started`). A step lemma says what an operation does: it stops with a
fault and leaves the session alone, or it answers and at most puts a vocabulary in use whose rules
can be built (`Operation.perform_cases`). That the rules belong to the vocabulary and that the
delimiters stay is kept by each step, and so by a whole run.
-/
namespace VSyntax

variable {s s' s₀ : Session} {v v' : Vocabulary} {d : Delimiters} {op : Operation} {answer : Answer}
  {f : OperationFault} {request : Vocabulary → Except Fault Vocabulary}

/-! ## Starting -/

/-- A session starts exactly when the rules of its vocabulary can be built. -/
theorem Session.start_eq_ok_iff :
    Session.start v d = .ok s ↔ s.vocabulary = v ∧ v.rules = .ok s.rules ∧ s.delimiters = d := by
  rw [Session.start]
  cases hrules : v.rules with
  | error e =>
    constructor
    · intro h
      cases h
    · rintro ⟨-, h, -⟩
      cases h
  | ok rules =>
    constructor
    · intro h
      cases h
      exact ⟨rfl, rfl, rfl⟩
    · rintro ⟨rfl, h, rfl⟩
      cases h
      rfl

/-- A session starts with the standard table of its words. -/
theorem Session.start_eq_ok {classes : List WordClass} (hv : v.classes = .ok classes)
    (d : Delimiters) : Session.start v d = .ok ⟨v, Standard.table v.words, d⟩ :=
  start_eq_ok_iff.mpr ⟨rfl, v.rules_eq_table hv, rfl⟩

/-- To reconfigure a session is to start one with its delimiters. -/
theorem Session.ok_bind_reconfigure :
    (Except.ok v >>= s.reconfigure) = Session.start v s.delimiters := rfl

/-- Every text, and every region of it, has its spans in a session that starts. -/
theorem Session.exists_classify (h : Session.start v d = .ok s) (t : Text)
    (region : Option Region) : ∃ spans, s.classify t region = .ok spans := by
  obtain ⟨-, hrules, -⟩ := Session.start_eq_ok_iff.mp h
  obtain ⟨classes, hclasses⟩ : ∃ classes, v.classes = .ok classes := by
    cases hv : v.classes with
    | ok classes => exact ⟨classes, rfl⟩
    | error e =>
      rw [Vocabulary.rules, hv] at hrules
      cases hrules
  have htable := Except.ok.inj (hrules.symm.trans (v.rules_eq_table hclasses))
  have hr : ∀ rule ∈ s.rules, rule.capturesBehind = false := by
    rw [htable]
    exact fun _ => Standard.capturesBehind_of_mem_table
  obtain ⟨spans, hrun, -⟩ := classifyWithin_classified (d := s.delimiters)
    (Region.bounds region t.size).1 hr (Region.bounds_snd_le region t.size)
  exact ⟨spans, hrun⟩

/-- Every text has its outline. -/
theorem Session.exists_outline (s : Session) (t : Text) :
    ∃ entries, s.outline t = .ok entries :=
  ⟨_, Outline.outline_eq t⟩

/-! ## Changes of the vocabulary -/

namespace SessionM

theorem get_bind {α : Type} (next : Session → SessionM α) : (get >>= next) s = next s s := rfl

/-- What is refused stops the computation and leaves the session as it is. -/
theorem orRefuse_bind {α β : Type} (asked : Except Fault α) (next : α → SessionM β) :
    (orRefuse asked >>= next) s =
      match asked with
      | .ok a => next a s
      | .error e => .error (.refused e) s := by
  cases asked with
  | ok a => rfl
  | error e => rfl

/-- A change in place reconfigures the session, or leaves it as it is if that is refused. -/
theorem change_eq :
    change request s =
      match request s.vocabulary >>= s.reconfigure with
      | .ok s' => .ok () s'
      | .error e => .error (.refused e) s := by
  simp only [change, get_bind, orRefuse_bind]
  cases hasked : request s.vocabulary with
  | error e => rfl
  | ok v =>
    rw [Session.ok_bind_reconfigure, Session.start]
    dsimp only
    cases hrules : v.rules with
    | error e => rfl
    | ok rules => rfl

end SessionM

/-! ## One operation -/

namespace Operation

/-- An operation that asks for a vocabulary reconfigures the session with it. -/
theorem perform_of_request (h : op.request? = some request) :
    op.perform s =
      match request s.vocabulary >>= s.reconfigure with
      | .ok s' => .ok .done s'
      | .error e => .error (.refused e) s := by
  have hchange : op.perform s = (SessionM.change request >>= fun _ => pure .done) s := by
    cases op with
    | reconfigure v => cases h; rfl
    | extend name words => cases h; rfl
    | replace base table => cases h; rfl
    | classify t region => cases h
    | outline t => cases h
  rw [hchange]
  simp only [bind, EStateM.bind]
  rw [SessionM.change_eq]
  simp only [bind]
  cases (request s.vocabulary).bind s.reconfigure with
  | ok s' => rfl
  | error e => rfl

/-- To classify in place reads the session only. -/
theorem perform_classify (t : Text) (region : Option Region) :
    (Operation.classify t region).perform s =
      match s.classify t region with
      | .ok spans => .ok (.spans spans) s
      | .error e => .error (.scan e) s := by
  have hrun : SessionM.classify t region s =
      match s.classify t region with
      | .ok spans => .ok spans s
      | .error e => .error (.scan e) s := by
    rw [SessionM.classify, SessionM.get_bind]
    cases s.classify t region with
    | ok spans => rfl
    | error e => rfl
  simp only [perform, bind, EStateM.bind, hrun]
  cases s.classify t region with
  | ok spans => rfl
  | error e => rfl

/-- To outline in place reads the session only. -/
theorem perform_outline (t : Text) :
    (Operation.outline t).perform s =
      match s.outline t with
      | .ok entries => .ok (.entries entries) s
      | .error e => .error (.refused e) s := by
  have hrun : SessionM.outline t s =
      match s.outline t with
      | .ok entries => .ok entries s
      | .error e => .error (.refused e) s := by
    rw [SessionM.outline, SessionM.get_bind]
    cases s.outline t with
    | ok entries => rfl
    | error e => rfl
  simp only [perform, bind, EStateM.bind, hrun]
  cases s.outline t with
  | ok entries => rfl
  | error e => rfl

/-- What an operation does: it stops and leaves the session as it is, or it answers and only reads
the session, or it puts in place the session that starts with the vocabulary asked for. -/
theorem perform_cases (op : Operation) (s : Session) :
    (∃ f, op.perform s = .error f s) ∨
      (op.request? = none ∧ ∃ answer, op.perform s = .ok answer s) ∨
      ∃ request v s', op.request? = some request ∧ request s.vocabulary = .ok v ∧
        Session.start v s.delimiters = .ok s' ∧ op.perform s = .ok .done s' := by
  cases hrequest : op.request? with
  | some request =>
    have hperform := perform_of_request (s := s) hrequest
    cases hasked : request s.vocabulary with
    | error e =>
      rw [hasked] at hperform
      exact .inl ⟨_, hperform⟩
    | ok v =>
      rw [hasked, Session.ok_bind_reconfigure] at hperform
      cases hstart : Session.start v s.delimiters with
      | error e =>
        rw [hstart] at hperform
        exact .inl ⟨_, hperform⟩
      | ok s' =>
        rw [hstart] at hperform
        exact .inr (.inr ⟨request, v, s', rfl, hasked, hstart, hperform⟩)
  | none =>
    cases op with
    | reconfigure v => cases hrequest
    | extend name words => cases hrequest
    | replace base table => cases hrequest
    | classify t region =>
      have hperform := perform_classify (s := s) t region
      cases hrun : s.classify t region with
      | error e =>
        rw [hrun] at hperform
        exact .inl ⟨_, hperform⟩
      | ok spans =>
        rw [hrun] at hperform
        exact .inr (.inl ⟨rfl, _, hperform⟩)
    | outline t =>
      obtain ⟨entries, hrun⟩ := s.exists_outline t
      have hperform := perform_outline (s := s) t
      rw [hrun] at hperform
      exact .inr (.inl ⟨rfl, _, hperform⟩)

/-- The vocabulary that an operation puts in use, unless it asks for none or stops. -/
def accepted? (op : Operation) (s : Session) : Option Vocabulary :=
  match op.perform s with
  | .ok _ _ => op.request?.bind fun request => (request s.vocabulary).toOption
  | .error _ _ => none

/-- After an operation a session is the one that starts with the vocabulary last put in use. -/
theorem start_after (op : Operation) (h : Session.start v d = .ok s) :
    Session.start ((op.accepted? s).getD v) d = .ok (s.after op) := by
  rcases perform_cases op s with ⟨f, hstop⟩ | ⟨hnone, answer, hread⟩ |
    ⟨request, v', s', hrequest, hasked, hstart, hput⟩
  · simp only [accepted?, Session.after, hstop, Option.getD_none]
    exact h
  · simp only [accepted?, Session.after, hread, hnone, Option.bind_none, Option.getD_none]
    exact h
  · obtain ⟨-, -, hd⟩ := Session.start_eq_ok_iff.mp h
    simp only [accepted?, Session.after, hput, hrequest, hasked, Option.bind_some,
      Except.toOption, Option.getD_some]
    rw [← hd]
    exact hstart

end Operation

/-! ## A sequence of operations -/

namespace Session

/-- The vocabularies that operations put in use, one after the other. -/
def accepted (s : Session) : List Operation → List Vocabulary
  | [] => []
  | op :: ops => (op.accepted? s).toList ++ (s.after op).accepted ops

/-- After operations a session is the one that starts with the vocabulary last put in use. -/
theorem start_run (ops : List Operation) (h : Session.start v d = .ok s) :
    Session.start ((s.accepted ops).getLastD v) d = .ok (s.run ops) := by
  induction ops generalizing s v with
  | nil => exact h
  | cons op ops ih =>
    have hrest := ih (Operation.start_after op h)
    have hlast : (s.accepted (op :: ops)).getLastD v =
        ((s.after op).accepted ops).getLastD ((op.accepted? s).getD v) := by
      cases hop : op.accepted? s with
      | none => simp only [accepted, hop, Option.toList, List.nil_append, Option.getD_none]
      | some v' =>
        simp only [accepted, hop, Option.toList, List.cons_append, List.nil_append,
          List.getLastD_cons, Option.getD_some]
    rw [hlast]
    exact hrest

/-- **A session is at every moment the one that starts with its vocabulary.** For every vocabulary
and all delimiters that a session starts with, and after any operations, successful or not: the
rules are those of the vocabulary, the vocabulary is the one last put in use, or else the first, and
the delimiters are the first. An operation that stops leaves the session as it is, and one that asks
for a vocabulary that can be built, and its rules too, does not stop. Every text and every region of
it has the spans that a session started anew gives it. -/
theorem run_as_started (h : Session.start v d = .ok s₀) (ops : List Operation) :
    (s₀.run ops).vocabulary.rules = .ok (s₀.run ops).rules ∧
      (s₀.run ops).vocabulary = (s₀.accepted ops).getLastD v ∧
      (s₀.run ops).delimiters = d ∧
      (∀ (op : Operation) f s, op.perform (s₀.run ops) = .error f s → s = s₀.run ops) ∧
      (∀ (op : Operation) request v' rules, op.request? = some request →
        request (s₀.run ops).vocabulary = .ok v' → v'.rules = .ok rules →
        op.perform (s₀.run ops) = .ok .done ⟨v', rules, d⟩) ∧
      ∀ t region, ∃ fresh spans, Session.start (s₀.run ops).vocabulary d = .ok fresh ∧
        fresh.classify t region = .ok spans ∧
        (Operation.classify t region).perform (s₀.run ops) = .ok (.spans spans) (s₀.run ops) := by
  have hstart := start_run ops h
  obtain ⟨hvocabulary, hrules, hd⟩ := start_eq_ok_iff.mp hstart
  rw [← hvocabulary] at hrules hstart
  refine ⟨hrules, hvocabulary, hd, ?_, ?_, ?_⟩
  · intro op f s hstop
    rcases op.perform_cases (s₀.run ops) with ⟨f', hkept⟩ | ⟨-, answer, hread⟩ |
      ⟨request, v', s', -, -, -, hput⟩
    · rw [hkept] at hstop
      cases hstop
      rfl
    · rw [hread] at hstop
      cases hstop
    · rw [hput] at hstop
      cases hstop
  · intro op request v' rules hrequest hasked hrules'
    have hnew : Session.start v' d = .ok ⟨v', rules, d⟩ := start_eq_ok_iff.mpr ⟨rfl, hrules', rfl⟩
    rw [Operation.perform_of_request hrequest, hasked, ok_bind_reconfigure, hd, hnew]
  · intro t region
    obtain ⟨spans, hspans⟩ := exists_classify hstart t region
    exact ⟨_, spans, hstart, hspans, by rw [Operation.perform_classify, hspans]⟩

/-- The theorem holds of a session in which one set is extended that does not exist, a set is given
a word that is none, and then it is given another word. -/
theorem run_as_started_replaced :
    ∃ s₀, Session.start .standard .standard = .ok s₀ ∧
      (s₀.run [
        .extend "colours" (.list [.text "red"]),
        .replace none [("constants", .list [.text "a b"])],
        .replace none [("constants", .list [.text "yes"])],
        .extend "constants" (.int 5)]).vocabulary.gives .constants "yes".toList = true := by
  obtain ⟨classes, hv⟩ := Vocabulary.exists_classes_standard
  have h := start_eq_ok hv .standard
  refine ⟨_, h, ?_⟩
  rw [(run_as_started h _).2.1]
  decide +kernel

end Session

end VSyntax
