import VSyntax.Proofs.Classify.Claims
import Mathlib.Data.List.Forall2

/-!
# Compiled rule tables

Where the rules of a compiled table come from: each is the rule of a shape of the layout, or the
words of one of the classes (`Layout.mem_of_compile`). So a layout whose patterns capture nothing
behind gives a table whose rules capture nothing behind.
-/
namespace VSyntax

/-- A traversal that succeeds gives the answers to its items in order. -/
theorem forall₂_of_mapM_eq_ok {α β ε : Type} {f : α → Except ε β} {xs : List α} {ys : List β}
    (h : xs.mapM f = .ok ys) : List.Forall₂ (fun x y => f x = .ok y) xs ys := by
  induction xs generalizing ys with
  | nil =>
    cases h
    exact .nil
  | cons x xs ih =>
    rw [List.mapM_cons] at h
    cases hx : f x with
    | error e => rw [hx] at h; cases h
    | ok y =>
      cases hxs : xs.mapM f with
      | error e => rw [hx, hxs] at h; cases h
      | ok zs =>
        rw [hx, hxs] at h
        cases h
        exact .cons hx (ih hxs)

/-- Every answer of a traversal is the answer to one of its items. -/
theorem exists_mem_of_forall₂ {α β : Type} {R : α → β → Prop} {xs : List α} {ys : List β}
    (h : List.Forall₂ R xs ys) : ∀ y ∈ ys, ∃ x ∈ xs, R x y := by
  induction h with
  | nil => exact fun y hy => absurd hy List.not_mem_nil
  | cons hxy _ ih =>
    intro z hz
    rcases List.mem_cons.mp hz with rfl | hz
    · exact ⟨_, List.mem_cons_self, hxy⟩
    · obtain ⟨x, hx, hxz⟩ := ih z hz
      exact ⟨x, List.mem_cons_of_mem _ hx, hxz⟩

/-- The rule of a shape holds what its pattern parses to. -/
theorem Shape.rule_eq_ok {host : Regex.Host} {s : Shape} {rule : Rule}
    (h : s.rule host = .ok rule) : ∃ regex, Regex.parse host s.pattern false = .ok regex ∧
    rule = .shape s.name s.category regex s.group.toNat := by
  unfold Shape.rule at h
  split at h
  · cases h
  · next regex hparse =>
    split at h
    · cases h
      exact ⟨regex, hparse, rfl⟩
    · cases h

namespace Layout

variable {host : Regex.Host} {layout : Layout} {classes : List WordClass} {rules : RuleTable}

/-- Whether a pattern of the layout captures a group in an assertion on what stands behind. -/
def capturesBehind (layout : Layout) (host : Regex.Host) : Bool :=
  layout.any fun
    | .shape s =>
      match Regex.parse host s.pattern false with
      | .ok regex => regex.body.capturesBehind
      | .error _ => false
    | .slot _ _ => false

/-- Each rule of a compiled table is the rule of a shape or of a class. -/
theorem mem_of_compile (h : layout.compile host classes = .ok rules) :
    ∀ rule ∈ rules, (∃ s, .shape s ∈ layout ∧ s.rule host = .ok rule) ∨
      ∃ c ∈ classes, rule = Rule.ofClass c := by
  have hrules : ∃ parts, layout.mapM (layout.entryRules host classes) = .ok parts ∧
      rules = parts.flatten := by
    unfold compile at h
    split at h
    · cases h
    · cases hparts : layout.mapM (layout.entryRules host classes) with
      | error e => rw [hparts] at h; cases h
      | ok parts =>
        rw [hparts] at h
        cases h
        exact ⟨parts, rfl, rfl⟩
  obtain ⟨parts, hparts, rfl⟩ := hrules
  intro rule hrule
  obtain ⟨part, hpart, hmem⟩ := List.mem_flatten.mp hrule
  obtain ⟨entry, hentry, hof⟩ := exists_mem_of_forall₂ (forall₂_of_mapM_eq_ok hparts) part hpart
  cases entry with
  | shape s =>
    simp only [entryRules] at hof
    cases hs : s.rule host with
    | error e => rw [hs] at hof; cases hof
    | ok r =>
      rw [hs] at hof
      cases hof
      rw [List.mem_singleton] at hmem
      exact .inl ⟨s, hentry, hmem ▸ hs⟩
  | slot ns rest =>
    cases hof
    rcases List.mem_append.mp hmem with hmem | hmem
    · obtain ⟨n, -, hn⟩ := List.mem_flatMap.mp hmem
      obtain ⟨c, hc, rfl⟩ := List.mem_map.mp hn
      exact .inr ⟨c, (List.mem_filter.mp hc).1, rfl⟩
    · split at hmem
      · obtain ⟨c, hc, rfl⟩ := List.mem_map.mp hmem
        exact .inr ⟨c, (List.mem_filter.mp hc).1, rfl⟩
      · exact absurd hmem List.not_mem_nil

/-- A layout that captures nothing behind compiles to rules that capture nothing behind. -/
theorem not_capturesBehind_of_compile (hl : layout.capturesBehind host = false)
    (h : layout.compile host classes = .ok rules) :
    ∀ rule ∈ rules, rule.capturesBehind = false := by
  intro rule hrule
  rcases mem_of_compile h rule hrule with ⟨s, hs, hof⟩ | ⟨c, -, rfl⟩
  · obtain ⟨regex, hparse, rfl⟩ := Shape.rule_eq_ok hof
    have := List.any_eq_false.mp hl (.shape s) hs
    simp only [hparse, Bool.not_eq_true] at this
    exact this
  · rfl

end Layout

end VSyntax
