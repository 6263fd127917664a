import Mathlib.Data.List.Count
import VSyntax.Proofs.Layout
import VSyntax.Proofs.Refusal

/-!
# Where the rules of a table stand

A compiled table has a rule for each shape of its layout, and for each class a rule wherever a slot
mentions its name, or if none does, at every slot for the rest. Each of these has a place: the entry
of the layout, then the mention in it, with the rest behind all mentions, then the class
(`Layout.Places`). The table has the rules of all places, in the order of the places
(`Layout.Laid`).

There are two ways not to get a table, and the classes are asked first: a class without a place
refuses the layout whatever its patterns are (`Layout.compile_laid`).
-/
namespace VSyntax

/-! ## Places -/

/-- A place in a compiled table: the index of an entry of the layout, that of a mention in the
entry, and that of a class. A shape has the first mention and the first class. -/
structure Placement where
  entry : Nat
  mention : Nat
  source : Nat

/-- The order of places: by entry, then by mention, then by class. -/
def Placement.Before (p q : Placement) : Prop :=
  p.entry < q.entry ∨ p.entry = q.entry ∧
    (p.mention < q.mention ∨ p.mention = q.mention ∧ p.source < q.source)

/-- The rule of a shape, none if it is refused. -/
def Shape.rules (s : Shape) (host : Regex.Host) : List Rule :=
  match s.rule host with
  | .ok rule => [rule]
  | .error _ => []

theorem Shape.mem_rules {host : Regex.Host} {s : Shape} {rule : Rule} :
    rule ∈ s.rules host ↔ s.rule host = .ok rule := by
  unfold rules
  cases s.rule host with
  | ok rule' =>
    exact List.mem_singleton.trans ⟨fun h => h ▸ rfl, fun h => (Except.ok.inj h).symm⟩
  | error fault => exact ⟨fun h => absurd h List.not_mem_nil, fun h => by cases h⟩

namespace LayoutEntry

/-- The names that an entry mentions. -/
def mentioned : LayoutEntry → List String
  | .slot ns _ => ns
  | .shape _ => []

/-- Whether an entry is a slot for the rest. -/
def takesRest : LayoutEntry → Bool
  | .slot _ rest => rest
  | .shape _ => false

end LayoutEntry

namespace Layout

/-- The shapes of a layout, in order. -/
def shapes (layout : Layout) : List Shape :=
  layout.filterMap fun
    | .shape s => some s
    | .slot _ _ => none

/-- How often the slots of a layout mention a name. -/
def mentions (layout : Layout) (name : String) : Nat :=
  (layout.flatMap LayoutEntry.mentioned).count name

/-- How many slots of a layout are for the rest. -/
def rests (layout : Layout) : Nat := layout.countP LayoutEntry.takesRest

/-- The rule that belongs at a place. -/
inductive Places (layout : Layout) (host : Regex.Host) (classes : List WordClass) :
    Placement → Rule → Prop where
  | shape {i : Nat} {s : Shape} {rule : Rule} (hentry : layout[i]? = some (.shape s))
      (hrule : s.rule host = .ok rule) : Places layout host classes ⟨i, 0, 0⟩ rule
  | named {i k j : Nat} {ns : List String} {rest : Bool} {c : WordClass}
      (hentry : layout[i]? = some (.slot ns rest)) (hclass : classes[j]? = some c)
      (hmention : ns[k]? = some c.name) : Places layout host classes ⟨i, k, j⟩ (.ofClass c)
  | unnamed {i j : Nat} {ns : List String} {c : WordClass}
      (hentry : layout[i]? = some (.slot ns true)) (hclass : classes[j]? = some c)
      (hunnamed : layout.names c.name = false) :
      Places layout host classes ⟨i, ns.length, j⟩ (.ofClass c)

/-- The table has the rules of the shapes in order, and every class: a named one once for each
mention, another once for each slot for the rest. Its rules are those of all places, in the order of
the places. -/
structure Laid (layout : Layout) (host : Regex.Host) (classes : List WordClass)
    (table : RuleTable) : Prop where
  shapes : List.Forall₂ (fun s rule => s.rule host = .ok rule) layout.shapes
    (table.filter fun rule => rule.kindName == "REGEX")
  counts : ∀ c ∈ classes, table.count (.ofClass c) =
    classes.count c * if layout.names c.name then layout.mentions c.name else layout.rests
  complete : ∀ c ∈ classes, Rule.ofClass c ∈ table
  placed : ∃ placed : List (Placement × Rule), table = placed.map Prod.snd ∧
    placed.Pairwise (fun x y => x.1.Before y.1) ∧
    ∀ p rule, (p, rule) ∈ placed ↔ layout.Places host classes p rule

variable {host : Regex.Host} {layout entries : Layout} {classes : List WordClass}
  {entry : LayoutEntry} {keep : WordClass → Bool} {c : WordClass} {i k : Nat}

/-! ## The rules of an entry -/

/-- The rules that an entry of a layout stands for, without a shape that is refused. -/
def part (layout : Layout) (host : Regex.Host) (classes : List WordClass) : LayoutEntry → List Rule
  | .shape s => s.rules host
  | .slot ns rest =>
    (ns.flatMap fun n => (classes.filter fun c => c.name == n).map Rule.ofClass) ++
      if rest then (layout.unnamed classes).map Rule.ofClass else []

theorem entryRules_eq_ok (h : ∀ s, entry = .shape s → s.Fit host) :
    layout.entryRules host classes entry = .ok (layout.part host classes entry) := by
  cases entry with
  | shape s =>
    obtain ⟨rule, hrule⟩ := Shape.exists_rule (h s rfl)
    rw [entryRules, part, Shape.rules, hrule]
    rfl
  | slot ns rest => rfl

/-! ## Classes in a table -/

theorem ofClass_injective : Function.Injective Rule.ofClass := by
  rintro ⟨name, words, category⟩ ⟨name', words', category'⟩ h
  cases h
  rfl

theorem count_ofClass (keep : WordClass → Bool) :
    ((classes.filter keep).map Rule.ofClass).count (.ofClass c) =
      classes.count c * if keep c then 1 else 0 := by
  rw [List.count_map_of_injective _ _ ofClass_injective]
  cases hkeep : keep c with
  | true => rw [List.count_filter hkeep, if_pos rfl, Nat.mul_one]
  | false =>
    have hnot : c ∉ classes.filter keep := fun hc =>
      Bool.false_ne_true (hkeep.symm.trans (List.mem_filter.mp hc).2)
    rw [List.count_eq_zero_of_not_mem hnot, if_neg Bool.false_ne_true, Nat.mul_zero]

/-- Names bring a class in as often as they mention it. -/
theorem count_flatMap_named {ns : List String} :
    (ns.flatMap fun n => (classes.filter fun c => c.name == n).map Rule.ofClass).count
      (.ofClass c) = classes.count c * ns.count c.name := by
  induction ns with
  | nil => rfl
  | cons n ns ih =>
    rw [List.flatMap_cons, List.count_append, ih, count_ofClass, List.count_cons, ← Nat.mul_add,
      Nat.add_comm, BEq.comm]

theorem count_part : (layout.part host classes entry).count (.ofClass c) =
    classes.count c * (entry.mentioned.count c.name +
      if layout.names c.name then 0 else if entry.takesRest then 1 else 0) := by
  cases entry with
  | shape s =>
    have hzero : (layout.part host classes (.shape s)).count (.ofClass c) = 0 := by
      refine List.count_eq_zero_of_not_mem fun hmem => ?_
      obtain ⟨regex, -, hshape⟩ := Shape.rule_eq_ok (Shape.mem_rules.mp hmem)
      cases hshape
    rw [hzero, LayoutEntry.mentioned, LayoutEntry.takesRest, List.count_nil,
      if_neg Bool.false_ne_true, ite_self, Nat.mul_zero]
  | slot ns rest =>
    rw [part, List.count_append, count_flatMap_named, LayoutEntry.mentioned, LayoutEntry.takesRest,
      Nat.mul_add]
    congr 1
    cases rest with
    | true =>
      rw [if_pos rfl, if_pos rfl, unnamed, count_ofClass fun c => !layout.names c.name]
      cases layout.names c.name with
      | true => rfl
      | false => rfl
    | false =>
      rw [if_neg Bool.false_ne_true, if_neg Bool.false_ne_true, ite_self, Nat.mul_zero,
        List.count_nil]

/-- Entries of a layout bring a class in for each mention, and if it is unnamed, for each slot for
the rest. -/
theorem count_flatMap_part : (entries.flatMap (layout.part host classes)).count (.ofClass c) =
    classes.count c * (entries.mentions c.name +
      if layout.names c.name then 0 else entries.rests) := by
  induction entries with
  | nil => rw [List.flatMap_nil, List.count_nil, mentions, rests, List.flatMap_nil, List.count_nil,
      List.countP_nil, ite_self, Nat.mul_zero]
  | cons entry entries ih =>
    rw [List.flatMap_cons, List.count_append, ih, count_part, ← Nat.mul_add, mentions, mentions,
      List.flatMap_cons, List.count_append, rests, rests, List.countP_cons]
    congr 1
    cases layout.names c.name with
    | true => simp only [if_true, Nat.add_zero]
    | false =>
      simp only [Bool.false_eq_true, if_false]
      omega

/-! ## Shapes in a table -/

/-- Of the rules of fit entries, those of shapes are the rules of their shapes. -/
theorem forall₂_shapes (hfit : ∀ s, .shape s ∈ entries → s.Fit host) :
    List.Forall₂ (fun s rule => s.rule host = .ok rule) (Layout.shapes entries)
      ((entries.flatMap (layout.part host classes)).filter
        fun rule => rule.kindName == "REGEX") := by
  induction entries with
  | nil => exact .nil
  | cons entry entries ih =>
    have hrest := ih fun s hs => hfit s (List.mem_cons_of_mem _ hs)
    rw [List.flatMap_cons, List.filter_append]
    cases entry with
    | shape s =>
      obtain ⟨rule, hrule⟩ := Shape.exists_rule (hfit s List.mem_cons_self)
      have hpart : (layout.part host classes (.shape s)).filter
          (fun rule => rule.kindName == "REGEX") = [rule] := by
        obtain ⟨regex, -, rfl⟩ := Shape.rule_eq_ok hrule
        rw [part, Shape.rules, hrule]
        rfl
      rw [hpart]
      exact .cons hrule hrest
    | slot ns rest =>
      have hpart : (layout.part host classes (.slot ns rest)).filter
          (fun rule => rule.kindName == "REGEX") = [] := by
        refine List.filter_eq_nil_iff.mpr fun rule hrule => ?_
        have hclass : ∃ c, rule = Rule.ofClass c := by
          rcases List.mem_append.mp hrule with hrule | hrule
          · obtain ⟨n, -, hrule⟩ := List.mem_flatMap.mp hrule
            obtain ⟨c, -, rfl⟩ := List.mem_map.mp hrule
            exact ⟨c, rfl⟩
          · split at hrule
            · obtain ⟨c, -, rfl⟩ := List.mem_map.mp hrule
              exact ⟨c, rfl⟩
            · exact absurd hrule List.not_mem_nil
        obtain ⟨c, rfl⟩ := hclass
        exact (by decide : ¬ ("WORD_SET" == "REGEX") = true)
      rw [hpart]
      exact hrest

/-! ## Places in a table -/

/-- Classes with a property at one mention, each at its place. -/
def placedClasses (classes : List WordClass) (keep : WordClass → Bool) (i k : Nat) :
    List (Placement × Rule) :=
  (classes.zipIdx.filter fun c => keep c.1).map fun c => (⟨i, k, c.2⟩, .ofClass c.1)

/-- The rules of an entry and its index, each at its place. -/
def placedPart (layout : Layout) (host : Regex.Host) (classes : List WordClass) :
    LayoutEntry × Nat → List (Placement × Rule)
  | (.shape s, i) => (s.rules host).map fun rule => (⟨i, 0, 0⟩, rule)
  | (.slot ns rest, i) =>
    (ns.zipIdx.flatMap fun n => placedClasses classes (·.name == n.1) i n.2) ++
      if rest then placedClasses classes (fun c => !layout.names c.name) i ns.length else []

theorem map_snd_placedClasses :
    (placedClasses classes keep i k).map Prod.snd = (classes.filter keep).map Rule.ofClass := by
  conv_rhs => rw [← List.zipIdx_map_fst 0 classes, List.filter_map]
  rw [placedClasses, List.map_map, List.map_map]
  rfl

theorem map_snd_placedPart :
    (layout.placedPart host classes (entry, i)).map Prod.snd = layout.part host classes entry := by
  cases entry with
  | shape s =>
    rw [placedPart, part, List.map_map]
    exact List.map_id _
  | slot ns rest =>
    rw [placedPart, part, List.map_append, List.map_flatMap]
    congr 1
    · conv_rhs => rw [← List.zipIdx_map_fst 0 ns, List.flatMap_map]
      exact List.flatMap_congr fun n _ => map_snd_placedClasses
    · cases rest with
      | true =>
        rw [if_pos rfl, if_pos rfl]
        exact map_snd_placedClasses
      | false => rfl

theorem mem_placedClasses {x : Placement × Rule} : x ∈ placedClasses classes keep i k ↔
    ∃ j c, classes[j]? = some c ∧ keep c = true ∧ x = (⟨i, k, j⟩, .ofClass c) := by
  rw [placedClasses, List.mem_map]
  constructor
  · rintro ⟨⟨c, j⟩, hmem, rfl⟩
    obtain ⟨hmem, hkeep⟩ := List.mem_filter.mp hmem
    exact ⟨j, c, List.mk_mem_zipIdx_iff_getElem?.mp hmem, hkeep, rfl⟩
  · rintro ⟨j, c, hclass, hkeep, rfl⟩
    exact ⟨(c, j), List.mem_filter.mpr ⟨List.mk_mem_zipIdx_iff_getElem?.mpr hclass, hkeep⟩, rfl⟩

theorem mem_placed {p : Placement} {rule : Rule} :
    (p, rule) ∈ layout.zipIdx.flatMap (layout.placedPart host classes) ↔
      layout.Places host classes p rule := by
  rw [List.mem_flatMap]
  constructor
  · rintro ⟨⟨entry, i⟩, hentry, hmem⟩
    have hentry := List.mk_mem_zipIdx_iff_getElem?.mp hentry
    cases entry with
    | shape s =>
      obtain ⟨rule', hrule, heq⟩ := List.mem_map.mp hmem
      cases heq
      exact .shape hentry (Shape.mem_rules.mp hrule)
    | slot ns rest =>
      rcases List.mem_append.mp hmem with hmem | hmem
      · obtain ⟨⟨n, k⟩, hmention, hmem⟩ := List.mem_flatMap.mp hmem
        obtain ⟨j, c, hclass, hname, heq⟩ := mem_placedClasses.mp hmem
        cases heq
        obtain rfl := beq_iff_eq.mp hname
        exact .named hentry hclass (List.mk_mem_zipIdx_iff_getElem?.mp hmention)
      · split at hmem
        · next hrest =>
          obtain ⟨j, c, hclass, hunnamed, heq⟩ := mem_placedClasses.mp hmem
          cases heq
          subst hrest
          exact .unnamed hentry hclass ((Bool.not_eq_true' _).mp hunnamed)
        · exact absurd hmem List.not_mem_nil
  · intro h
    cases h with
    | shape hentry hrule =>
      exact ⟨_, List.mk_mem_zipIdx_iff_getElem?.mpr hentry,
        List.mem_map.mpr ⟨_, Shape.mem_rules.mpr hrule, rfl⟩⟩
    | named hentry hclass hmention =>
      refine ⟨_, List.mk_mem_zipIdx_iff_getElem?.mpr hentry, List.mem_append_left _ ?_⟩
      exact List.mem_flatMap.mpr ⟨_, List.mk_mem_zipIdx_iff_getElem?.mpr hmention,
        mem_placedClasses.mpr ⟨_, _, hclass, beq_self_eq_true _, rfl⟩⟩
    | unnamed hentry hclass hunnamed =>
      refine ⟨_, List.mk_mem_zipIdx_iff_getElem?.mpr hentry, List.mem_append_right _ ?_⟩
      rw [if_pos rfl]
      exact mem_placedClasses.mpr ⟨_, _, hclass, (Bool.not_eq_true' _).mpr hunnamed, rfl⟩

theorem pairwise_zipIdx {α : Type} (l : List α) : l.zipIdx.Pairwise fun x y => x.2 < y.2 := by
  rw [← List.pairwise_map, List.zipIdx_map_snd]
  exact List.pairwise_lt_range'

theorem pairwise_placedClasses :
    (placedClasses classes keep i k).Pairwise fun x y => x.1.Before y.1 :=
  List.pairwise_map.mpr (((pairwise_zipIdx classes).filter _).imp
    fun hlt => .inr ⟨rfl, .inr ⟨rfl, hlt⟩⟩)

theorem entry_of_mem_placedPart {x : Placement × Rule}
    (h : x ∈ layout.placedPart host classes (entry, i)) : x.1.entry = i := by
  cases entry with
  | shape s =>
    obtain ⟨rule, -, rfl⟩ := List.mem_map.mp h
    rfl
  | slot ns rest =>
    rcases List.mem_append.mp h with h | h
    · obtain ⟨n, -, h⟩ := List.mem_flatMap.mp h
      obtain ⟨j, c, -, -, rfl⟩ := mem_placedClasses.mp h
      rfl
    · split at h
      · obtain ⟨j, c, -, -, rfl⟩ := mem_placedClasses.mp h
        rfl
      · exact absurd h List.not_mem_nil

theorem pairwise_placedPart :
    (layout.placedPart host classes (entry, i)).Pairwise fun x y => x.1.Before y.1 := by
  cases entry with
  | shape s =>
    rw [placedPart, Shape.rules]
    split
    · exact List.pairwise_singleton _ _
    · exact .nil
  | slot ns rest =>
    refine List.pairwise_append.mpr ⟨?_, ?_, fun x hx y hy => ?_⟩
    · refine List.pairwise_flatMap.mpr ⟨fun _ _ => pairwise_placedClasses,
        (pairwise_zipIdx ns).imp fun hlt x hx y hy => ?_⟩
      obtain ⟨j, c, -, -, rfl⟩ := mem_placedClasses.mp hx
      obtain ⟨j', c', -, -, rfl⟩ := mem_placedClasses.mp hy
      exact .inr ⟨rfl, .inl hlt⟩
    · split
      · exact pairwise_placedClasses
      · exact .nil
    · obtain ⟨⟨n, k⟩, hmention, hx⟩ := List.mem_flatMap.mp hx
      have hk := (List.getElem?_eq_some_iff.mp (List.mk_mem_zipIdx_iff_getElem?.mp hmention)).1
      split at hy
      · obtain ⟨j, c, -, -, rfl⟩ := mem_placedClasses.mp hx
        obtain ⟨j', c', -, -, rfl⟩ := mem_placedClasses.mp hy
        exact .inr ⟨rfl, .inl hk⟩
      · exact absurd hy List.not_mem_nil

/-- The rules of a layout stand in the order of their places. -/
theorem pairwise_placed : (layout.zipIdx.flatMap (layout.placedPart host classes)).Pairwise
    fun x y => x.1.Before y.1 := by
  refine List.pairwise_flatMap.mpr ⟨fun _ _ => pairwise_placedPart,
    (pairwise_zipIdx layout).imp fun hlt x hx y hy => .inl ?_⟩
  rwa [entry_of_mem_placedPart hx, entry_of_mem_placedPart hy]

/-! ## The table -/

/-- Where every class has a place, only the shapes can refuse the layout. -/
theorem compile_of_place (hplace : layout.hasRest = true ∨ layout.unnamed classes = []) :
    layout.compile host classes =
      (layout.mapM (layout.entryRules host classes)).map List.flatten := by
  unfold compile
  split
  · next hnone hsome =>
    rcases hplace with hrest | hnamed
    · cases hnone.symm.trans hrest
    · cases hsome.symm.trans hnamed
  · cases layout.mapM (layout.entryRules host classes) with
    | error fault => rfl
    | ok parts => rfl

/-- A layout of fit shapes with places for all classes compiles. -/
theorem compile_eq_ok (hplace : layout.hasRest = true ∨ layout.unnamed classes = [])
    (hfit : ∀ s, .shape s ∈ layout → s.Fit host) :
    layout.compile host classes = .ok (layout.flatMap (layout.part host classes)) := by
  rw [compile_of_place hplace, List.flatMap_def,
    mapM_eq_ok fun entry hentry => entryRules_eq_ok fun s hs => hfit s (hs ▸ hentry)]
  rfl

theorem names_iff {name : String} : layout.names name = true ↔ 0 < layout.mentions name := by
  rw [names, List.any_eq_true, mentions, List.count_pos_iff, List.mem_flatMap]
  refine exists_congr fun entry => and_congr_right fun _ => ?_
  cases entry with
  | shape s => exact ⟨fun h => (Bool.false_ne_true h).elim, fun h => absurd h List.not_mem_nil⟩
  | slot ns rest => exact List.contains_iff_mem

theorem hasRest_iff : layout.hasRest = true ↔ 0 < layout.rests := by
  rw [hasRest, List.any_eq_true, rests, List.countP_pos_iff]
  refine exists_congr fun entry => and_congr_right fun _ => ?_
  cases entry with
  | shape s => exact Iff.rfl
  | slot ns rest => exact Iff.rfl

/-- The rules of the entries of a layout make a table that is laid out as it says. -/
theorem laid_flatMap_part (hplace : layout.hasRest = true ∨ layout.unnamed classes = [])
    (hfit : ∀ s, .shape s ∈ layout → s.Fit host) :
    layout.Laid host classes (layout.flatMap (layout.part host classes)) := by
  have hcounts : ∀ c, (layout.flatMap (layout.part host classes)).count (.ofClass c) =
      classes.count c * if layout.names c.name then layout.mentions c.name else layout.rests := by
    intro c
    rw [count_flatMap_part]
    cases hnames : layout.names c.name with
    | true => rw [if_pos rfl, if_pos rfl, Nat.add_zero]
    | false =>
      have hzero : layout.mentions c.name = 0 :=
        Nat.eq_zero_of_not_pos fun h => Bool.false_ne_true (hnames.symm.trans (names_iff.mpr h))
      rw [hzero, if_neg Bool.false_ne_true, Nat.zero_add]
  refine ⟨forall₂_shapes hfit, fun c _ => hcounts c, fun c hc => ?_, _, ?_, pairwise_placed,
    fun p rule => mem_placed⟩
  · rw [← List.count_pos_iff, hcounts]
    refine Nat.mul_pos (List.count_pos_iff.mpr hc) ?_
    cases hnames : layout.names c.name with
    | true => exact names_iff.mp hnames
    | false =>
      -- the class is unnamed, so there is a slot for the rest
      have hc : c ∈ layout.unnamed classes :=
        List.mem_filter.mpr ⟨hc, (Bool.not_eq_true' _).mpr hnames⟩
      rcases hplace with hrest | hnone
      · exact hasRest_iff.mp hrest
      · exact absurd (hnone ▸ hc) List.not_mem_nil
  · calc layout.flatMap (layout.part host classes)
        = (layout.zipIdx.map Prod.fst).flatMap (layout.part host classes) := by
          rw [List.zipIdx_map_fst]
      _ = layout.zipIdx.flatMap fun entry => layout.part host classes entry.1 :=
        List.flatMap_map _ _ _
      _ = layout.zipIdx.flatMap fun entry => (layout.placedPart host classes entry).map Prod.snd :=
        List.flatMap_congr fun entry _ => map_snd_placedPart.symm
      _ = (layout.zipIdx.flatMap (layout.placedPart host classes)).map Prod.snd :=
        List.map_flatMap.symm

/-- A class without a place refuses the layout. -/
theorem compile_eq_noSlot {front back : List WordClass} (hrest : layout.hasRest = false)
    (hfront : ∀ c' ∈ front, layout.names c'.name = true) (hc : layout.names c.name = false) :
    layout.compile host (front ++ c :: back) = .error (.config (.noSlot c.name)) := by
  have hnone : front.filter (fun c => !layout.names c.name) = [] :=
    List.filter_eq_nil_iff.mpr fun c' hc' hunnamed =>
      Bool.false_ne_true (((Bool.not_eq_true' _).mp hunnamed).symm.trans (hfront c' hc'))
  have hunnamed : layout.unnamed (front ++ c :: back) = c :: layout.unnamed back := by
    simp only [unnamed, List.filter_append, hnone, List.nil_append, List.filter_cons, hc,
      Bool.not_false, if_true]
  simp only [compile, hrest, hunnamed]

/-- The first shape that is refused refuses a layout with places for all classes. -/
theorem compile_eq_pattern {front back : Layout} {s : Shape} {reason : PatternReason}
    (hlayout : layout = front ++ .shape s :: back)
    (hplace : layout.hasRest = true ∨ layout.unnamed classes = [])
    (hfront : ∀ s', .shape s' ∈ front → s'.Fit host) (hs : s.Refused host reason) :
    layout.compile host classes = .error (.pattern ⟨s.name, s.pattern, reason⟩) := by
  have hentry : layout.entryRules host classes (.shape s) =
      .error (.pattern ⟨s.name, s.pattern, reason⟩) := by
    rw [entryRules, Shape.rule_eq_error hs]
    rfl
  have hrules : (front ++ .shape s :: back).mapM (layout.entryRules host classes) = _ :=
    mapM_eq_error (fun entry hentry =>
      ⟨_, entryRules_eq_ok fun s hs => hfront s (hs ▸ hentry)⟩) hentry
  rw [← hlayout] at hrules
  rw [compile_of_place hplace, hrules]
  rfl

/-- Where every class has a place, the layout is refused for its first unfit shape, or it makes a
table. -/
theorem refused_or_laid (hplace : layout.hasRest = true ∨ layout.unnamed classes = []) :
    (∃ front s back f, layout = front ++ .shape s :: back ∧
      (∀ s', .shape s' ∈ front → s'.Fit host) ∧ ¬ s.Fit host ∧
      s.Refused host f.reason ∧ f.name = s.name ∧ f.pattern = s.pattern ∧
      (f.isReported = true ↔ ∀ m, f.reason = .malformed m → m.flaw.isLimit = false) ∧
      layout.compile host classes = .error (.pattern f)) ∨
    (∀ s, .shape s ∈ layout → s.Fit host) ∧
      ∃ table, layout.compile host classes = .ok table ∧ layout.Laid host classes table := by
  rcases exists_first (fun entry => ∀ s, entry = .shape s → s.Fit host) layout with
    hfit | ⟨front, entry, back, hlayout, hfront, hentry⟩
  · have hfit' : ∀ s, .shape s ∈ layout → s.Fit host := fun s hs => hfit _ hs s rfl
    exact .inr ⟨hfit', _, compile_eq_ok hplace hfit', laid_flatMap_part hplace hfit'⟩
  · have hfront' : ∀ s', .shape s' ∈ front → s'.Fit host := fun s' hs' => hfront _ hs' s' rfl
    cases entry with
    | slot ns rest => exact absurd (fun s hs => nomatch hs) hentry
    | shape s =>
      have hs : ¬ s.Fit host := fun hfit => hentry fun s' heq => LayoutEntry.shape.inj heq ▸ hfit
      obtain ⟨reason, hrefused⟩ := exists_applies hs
      exact .inl ⟨front, s, back, ⟨s.name, s.pattern, reason⟩, hlayout, hfront', hs, hrefused,
        rfl, rfl, PatternFault.isReported_iff,
        compile_eq_pattern hlayout hplace hfront' hrefused⟩

/-- **What a layout makes of word classes.** If no slot names some class and none is for the rest,
the layout is refused for the first such class, whatever its patterns are. Otherwise, if some shape
is malformed or has no group of the index that it asks for, it is refused for the first such shape,
with a fault that names it and the reason, and the fault is reported unless reading the pattern came
to a limit. In all other cases there is a table, and it has the shapes in order and every class
wherever a slot wants it, each at its place. -/
theorem compile_laid (host : Regex.Host) (layout : Layout) (classes : List WordClass) :
    (layout.hasRest = false ∧ ∃ front c back, classes = front ++ c :: back ∧
      (∀ c' ∈ front, layout.names c'.name = true) ∧ layout.names c.name = false ∧
      layout.compile host classes = .error (.config (.noSlot c.name))) ∨
    (layout.hasRest = true ∨ ∀ c ∈ classes, layout.names c.name = true) ∧
      ((∃ front s back f, layout = front ++ .shape s :: back ∧
        (∀ s', .shape s' ∈ front → s'.Fit host) ∧ ¬ s.Fit host ∧
        s.Refused host f.reason ∧ f.name = s.name ∧ f.pattern = s.pattern ∧
        (f.isReported = true ↔ ∀ m, f.reason = .malformed m → m.flaw.isLimit = false) ∧
        layout.compile host classes = .error (.pattern f)) ∨
      (∀ s, .shape s ∈ layout → s.Fit host) ∧
        ∃ table, layout.compile host classes = .ok table ∧ layout.Laid host classes table) := by
  rcases exists_first (fun c => layout.names c.name = true) classes with
    hnamed | ⟨front, c, back, hclasses, hfront, hc⟩
  · have hnone : layout.unnamed classes = [] := List.filter_eq_nil_iff.mpr fun c hc hunnamed =>
      Bool.false_ne_true (((Bool.not_eq_true' _).mp hunnamed).symm.trans (hnamed c hc))
    exact .inr ⟨.inr hnamed, refused_or_laid (.inr hnone)⟩
  · have hc : layout.names c.name = false := Bool.eq_false_iff.mpr hc
    cases hrest : layout.hasRest with
    | true => exact .inr ⟨.inl rfl, refused_or_laid (.inl hrest)⟩
    | false =>
      exact .inl ⟨rfl, front, c, back, hclasses, hfront, hc,
        hclasses ▸ compile_eq_noSlot hrest hfront hc⟩

/-- A shape with a bound that is too large to count is refused, and not reported. -/
theorem compile_boundTooLarge : ∃ f,
    Shape.Refused ⟨"many", "a\x7b4294967295\x7d", 0, .operator⟩ .standard f.reason ∧
    Layout.compile [.shape ⟨"many", "a\x7b4294967295\x7d", 0, .operator⟩] .standard [] =
      .error (.pattern f) ∧
    f.isReported = false ∧ f.message = "the repetition number is too large" :=
  ⟨⟨"many", "a\x7b4294967295\x7d", .malformed ⟨.boundTooLarge, none⟩⟩, rfl, rfl, rfl, rfl⟩

end Layout

end VSyntax
