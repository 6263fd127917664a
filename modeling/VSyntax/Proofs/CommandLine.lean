import VSyntax.CommandLine.Arguments

/-!
# The dialects of the command line

The dialects differ in what may be attached to a flag, and in nothing else. They read a command line
alike if whatever is attached to a flag is the value of that flag, and is not two dashes
(`Arguments.read_dialect`).

The condition cannot be dropped: an example shows letters that the two read differently.
-/
namespace VSyntax.CommandLine

/-- What is attached to a flag, if anything, is a value of it that no dialect leaves out. -/
def Argument.IsPlain : Argument → Prop
  | .flag f _ (some a) => f.takesValue = true ∧ a.text ≠ ['-', '-']
  | _ => True

namespace Arguments

variable {f : Flag} {long : Bool} {attached : Option Attached} {as : List Argument}

/-! ## Flags -/

/-- Every dialect reads a value that is not two dashes as it is. -/
theorem Cluster.ofAttached_of_takesValue {text : List Char} (hf : f.takesValue = true)
    (h : text ≠ ['-', '-']) (d : Dialect) (long marked : Bool) :
    ofAttached d f long marked text = .ok (setting f (some text)) := by
  cases text with
  | nil => simp only [ofAttached, hf, if_true]
  | cons c rest =>
    have hvalue : d.valueOf (c :: rest) = some (c :: rest) := by
      cases d with
      | early => exact if_neg h
      | late => rfl
    unfold ofAttached
    rw [if_pos hf, hvalue]

/-- The dialects read a flag alike if it is plain. -/
theorem Cluster.ofFlag_dialect (h : (Argument.flag f long attached).IsPlain) (d d' : Dialect) :
    ofFlag d f long attached = ofFlag d' f long attached := by
  cases attached with
  | none => rfl
  | some a =>
    obtain ⟨hvalue, hdashes⟩ := h
    simp only [ofFlag, ofAttached_of_takesValue hvalue hdashes]

/-- Letters written together, of which the last takes a value: one dialect leaves the equals sign in
the value, the other drops it. -/
example : Cluster.ofFlag .early .verbose false (some ⟨false, "o=x".toList⟩) =
      .ok ⟨[(.verbose, none), (.output, some "=x".toList)], none, none⟩ ∧
    Cluster.ofFlag .late .verbose false (some ⟨false, "o=x".toList⟩) =
      .ok ⟨[(.verbose, none), (.output, some "x".toList)], none, none⟩ :=
  ⟨rfl, rfl⟩

/-! ## Command lines -/

/-- The dialects gather plain arguments alike. -/
theorem gather_dialect (d d' : Dialect) (h : ∀ a ∈ as, a.IsPlain) (g : Gathered) :
    gather d g as = gather d' g as := by
  fun_induction gather d g as with
  | case1 => rw [gather]
  | case2 g w rest hinput ih | case3 g w rest hinput ih | case6 g w rest hinput ih =>
    have hrest := (List.forall_mem_cons.mp (List.forall_mem_cons.mp h).2).2
    rw [gather, ih hrest]
    simp only [hinput, if_true, if_false, Bool.false_eq_true]
  | case4 g rest hword ih =>
    rw [gather.eq_3 _ _ _ hword, ih (List.forall_mem_cons.mp h).2]
  | case5 g w rest hinput ih =>
    rw [gather.eq_4, ih (List.forall_mem_cons.mp h).2, if_pos hinput]
  | case7 g w rest hseparator hinput ih | case8 g w rest hseparator hinput ih =>
    rw [gather.eq_5 _ _ _ _ hseparator, ih (List.forall_mem_cons.mp h).2]
    simp only [hinput, if_true, if_false, Bool.false_eq_true]
  | case9 g text rest ih => rw [gather, ih (List.forall_mem_cons.mp h).2]
  | case10 g f long attached rest halt hc =>
    rw [gather, Cluster.ofFlag_dialect (h _ List.mem_cons_self) d' d, hc]
  | case11 g f long attached rest c hc hwaiting halt hset =>
    rw [gather, Cluster.ofFlag_dialect (h _ List.mem_cons_self) d' d, hc]
    simp only [hwaiting, hset]
  | case12 g f long attached rest c hc hwaiting g' hset ih =>
    rw [gather, Cluster.ofFlag_dialect (h _ List.mem_cons_self) d' d, hc]
    simp only [hwaiting, hset]
    exact ih (List.forall_mem_cons.mp h).2
  | case13 g f long attached c hc last hwaiting w rest halt hset =>
    rw [gather, Cluster.ofFlag_dialect (h _ List.mem_cons_self) d' d, hc]
    simp only [hwaiting, hset]
  | case14 g f long attached c hc last hwaiting w rest g' hset ih =>
    rw [gather, Cluster.ofFlag_dialect (h _ List.mem_cons_self) d' d, hc]
    simp only [hwaiting, hset]
    exact ih (List.forall_mem_cons.mp (List.forall_mem_cons.mp h).2).2
  | case15 g f long attached rest c hc last hwaiting hword =>
    rw [gather, Cluster.ofFlag_dialect (h _ List.mem_cons_self) d' d, hc]
    simp only [hwaiting]

/-- The dialects read a command line alike if its arguments are plain. -/
theorem read_dialect (d d' : Dialect) {texts : List (List Char)}
    (h : ∀ as, Argument.readAll texts = .ok as → ∀ a ∈ as, a.IsPlain) :
    read d texts = read d' texts := by
  unfold read
  cases hread : Argument.readAll texts with
  | error f => rfl
  | ok as => simp only [gather_dialect d d' (h as hread)]

end Arguments

end VSyntax.CommandLine
