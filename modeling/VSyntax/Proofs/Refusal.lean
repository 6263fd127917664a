import VSyntax.Outline
import VSyntax.Rule

/-!
# Refused patterns

A pattern text is refused for one of two reasons: it is no regular expression, or it has no group of
the index that is asked for (`exists_applies`). Shapes and outline patterns are alike in this, and
the fault names the one that is refused and the reason (`Shape.rule_eq_error`,
`OutlinePattern.compile_eq_error`). Of a list, the first that is refused counts (`exists_first`,
`mapM_eq_error`).
-/
namespace VSyntax

/-! ## Reasons -/

/-- The pattern text is a regular expression and has a group of that index. -/
def Fits (host : Regex.Host) (pattern : String) (lines : Bool) (group : Int) : Prop :=
  ∃ regex, Regex.parse host pattern lines = .ok regex ∧ 0 ≤ group ∧ group ≤ regex.groups

/-- The reason is one to refuse the pattern text, or the index of the group. -/
def PatternReason.Applies (host : Regex.Host) (pattern : String) (lines : Bool) (group : Int) :
    PatternReason → Prop
  | .malformed m => Regex.parse host pattern lines = .error m
  | .noGroup index groups => index = group ∧ ∃ regex, Regex.parse host pattern lines = .ok regex ∧
      groups = regex.groups ∧ ¬ (0 ≤ group ∧ group ≤ regex.groups)

/-- A pattern text that does not fit is refused for one of the reasons. -/
theorem exists_applies {host : Regex.Host} {pattern : String} {lines : Bool} {group : Int}
    (h : ¬ Fits host pattern lines group) :
    ∃ reason : PatternReason, reason.Applies host pattern lines group := by
  cases hparse : Regex.parse host pattern lines with
  | error m => exact ⟨.malformed m, hparse⟩
  | ok regex =>
    have hout : ¬ (0 ≤ group ∧ group ≤ regex.groups) := fun hgroup => h ⟨regex, hparse, hgroup⟩
    exact ⟨.noGroup group regex.groups, rfl, regex, hparse, rfl, hout⟩

/-- A refused pattern is reported, unless it is refused because of a limit. -/
theorem PatternFault.isReported_iff {f : PatternFault} : f.isReported = true ↔
    ∀ m, f.reason = .malformed m → m.flaw.isLimit = false := by
  obtain ⟨name, pattern, reason⟩ := f
  cases reason with
  | malformed m =>
    exact (Bool.not_eq_true' _).to_iff.trans
      ⟨fun h m' hm => PatternReason.malformed.inj hm ▸ h, fun h => h m rfl⟩
  | noGroup group groups => exact ⟨fun _ m hm => (nomatch hm), fun _ => rfl⟩

namespace Shape

variable {host : Regex.Host} {s : Shape} {reason : PatternReason}

/-- The shape can be made a rule. -/
def Fit (s : Shape) (host : Regex.Host) : Prop := Fits host s.pattern false s.group

/-- The shape is refused for the reason. -/
def Refused (s : Shape) (host : Regex.Host) (reason : PatternReason) : Prop :=
  reason.Applies host s.pattern false s.group

theorem exists_rule (h : s.Fit host) : ∃ rule, s.rule host = .ok rule := by
  obtain ⟨regex, hparse, hgroup⟩ := h
  exact ⟨.shape s.name s.category regex s.group.toNat,
    by simp only [rule, hparse, if_pos hgroup]⟩

theorem rule_eq_error (h : s.Refused host reason) :
    s.rule host = .error (.pattern ⟨s.name, s.pattern, reason⟩) := by
  cases reason with
  | malformed m =>
    have hparse : Regex.parse host s.pattern false = .error m := h
    simp only [rule, hparse]
  | noGroup index groups =>
    obtain ⟨rfl, regex, hparse, rfl, hout⟩ := h
    simp only [rule, hparse, if_neg hout]

end Shape

namespace OutlinePattern

variable {host : Regex.Host} {p : OutlinePattern} {reason : PatternReason}

/-- The pattern can be compiled. -/
def Fit (p : OutlinePattern) (host : Regex.Host) : Prop := Fits host p.pattern true p.group

/-- The pattern is refused for the reason. -/
def Refused (p : OutlinePattern) (host : Regex.Host) (reason : PatternReason) : Prop :=
  reason.Applies host p.pattern true p.group

theorem exists_compiled (h : p.Fit host) : ∃ compiled, p.compile host = .ok compiled := by
  obtain ⟨regex, hparse, hgroup⟩ := h
  exact ⟨(regex, p.group.toNat), by simp only [compile, hparse, if_pos hgroup]⟩

theorem compile_eq_error (h : p.Refused host reason) :
    p.compile host = .error (.pattern ⟨p.kind, p.pattern, reason⟩) := by
  cases reason with
  | malformed m =>
    have hparse : Regex.parse host p.pattern true = .error m := h
    simp only [compile, hparse]
  | noGroup index groups =>
    obtain ⟨rfl, regex, hparse, rfl, hout⟩ := h
    simp only [compile, hparse, if_neg hout]

end OutlinePattern

/-! ## The first refusal -/

variable {α β ε : Type} {f : α → Except ε β} {xs front back : List α} {x : α}

/-- All items of a list have a property, or there is a first one without. -/
theorem exists_first (P : α → Prop) (xs : List α) : (∀ x ∈ xs, P x) ∨
    ∃ front x back, xs = front ++ x :: back ∧ (∀ y ∈ front, P y) ∧ ¬ P x := by
  induction xs with
  | nil => exact .inl (List.forall_mem_nil P)
  | cons x xs ih =>
    by_cases hx : P x
    · rcases ih with hall | ⟨front, y, back, rfl, hfront, hy⟩
      · exact .inl (List.forall_mem_cons.mpr ⟨hx, hall⟩)
      · exact .inr ⟨x :: front, y, back, rfl, List.forall_mem_cons.mpr ⟨hx, hfront⟩, hy⟩
    · exact .inr ⟨[], x, xs, rfl, List.forall_mem_nil P, hx⟩

/-- A traversal succeeds if it does so at every item. -/
theorem exists_mapM_eq_ok (h : ∀ x ∈ xs, ∃ y, f x = .ok y) : ∃ ys, xs.mapM f = .ok ys := by
  induction xs with
  | nil => exact ⟨[], rfl⟩
  | cons x xs ih =>
    obtain ⟨⟨y, hy⟩, hxs⟩ := List.forall_mem_cons.mp h
    obtain ⟨ys, hys⟩ := ih hxs
    exact ⟨y :: ys, by rw [List.mapM_cons, hy, hys]; rfl⟩

/-- A traversal that succeeds as a function says gives its values. -/
theorem mapM_eq_ok {g : α → β} (h : ∀ x ∈ xs, f x = .ok (g x)) : xs.mapM f = .ok (xs.map g) := by
  induction xs with
  | nil => rfl
  | cons x xs ih =>
    obtain ⟨hx, hxs⟩ := List.forall_mem_cons.mp h
    rw [List.mapM_cons, hx, ih hxs]
    rfl

/-- A traversal fails as it does at the first item where it does. -/
theorem mapM_eq_error {fault : ε} (hfront : ∀ y ∈ front, ∃ z, f y = .ok z)
    (hx : f x = .error fault) : (front ++ x :: back).mapM f = .error fault := by
  induction front with
  | nil =>
    rw [List.nil_append, List.mapM_cons, hx]
    rfl
  | cons y front ih =>
    obtain ⟨⟨z, hz⟩, hfront⟩ := List.forall_mem_cons.mp hfront
    rw [List.cons_append, List.mapM_cons, hz, ih hfront]
    rfl

end VSyntax
