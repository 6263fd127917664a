import VSyntax.Proofs.Outline.Entries
import VSyntax.Proofs.Regex.Bound
import VSyntax.Proofs.Regex.Front
import VSyntax.Proofs.Regex.Runs

/-!
# Outlines under other line endings

What becomes of an outline if each line end of the text gets a carriage return in front
(`Text.crlf`). On a single line the declarations are found as before, since none of them ends in a
carriage return. A reminder goes on to the end of its line, past the carriage return, which is no
gap: so the label, which leaves out a gap at the end of the line, takes all of it in
(`entriesOf_push_return`). Line by line this gives the outline of the whole text
(`outline_crlf`).
-/
namespace VSyntax

/-! ## Texts -/

namespace Text

variable {t a b : Text} {x y : Nat}

/-- The text with a carriage return in front of each line end. -/
def crlf (t : Text) : Text := t.flatMap fun c => if c = '\n' then #['\r', '\n'] else #[c]

/-- A text is a single line, or a line and a line end in front of a text. -/
theorem linesInduction {P : Text → Prop} (line : ∀ a : Text, '\n' ∉ a → P a)
    (lines : ∀ a b : Text, '\n' ∉ a → P b → P (a.joinLines b)) (t : Text) : P t := by
  induction hsize : t.size using Nat.strongRecOn generalizing t with
  | ind n ih =>
    by_cases ht : '\n' ∈ t
    · obtain ⟨a, b, rfl, ha⟩ := Array.eq_push_append_of_mem ht
      have hlt : b.size < n := by
        rw [Array.size_append, Array.size_push] at hsize
        omega
      have hjoined := lines a b ha (ih b.size hlt b rfl)
      rwa [joinLines, ← Array.push_eq_append] at hjoined
    · exact line t ht

theorem crlf_append : (a ++ b).crlf = a.crlf ++ b.crlf := Array.flatMap_append

theorem crlf_of_not_mem (ha : '\n' ∉ a) : a.crlf = a := by
  have hchars : a.toList.flatMap (fun c => (if c = '\n' then #['\r', '\n'] else #[c]).toList) =
      a.toList.flatMap fun c => [c] := by
    refine List.flatMap_congr fun c hc => ?_
    have hne : c ≠ '\n' := fun heq => ha (heq ▸ Array.mem_toList_iff.mp hc)
    rw [if_neg hne]
  apply Array.toList_inj.mp
  rw [crlf, Array.toList_flatMap, hchars, List.flatMap_singleton']

theorem crlf_joinLines (ha : '\n' ∉ a) :
    (a.joinLines b).crlf = joinLines (a.push '\r') b.crlf := by
  have hbreak : crlf #['\n'] = #['\r'] ++ #['\n'] := rfl
  rw [joinLines, joinLines, crlf_append, crlf_append, crlf_of_not_mem ha, hbreak,
    Array.push_eq_append, ← Array.append_assoc]

/-- A text does not get shorter. -/
theorem size_le_crlf (t : Text) : t.size ≤ t.crlf.size := by
  induction t using linesInduction with
  | line a ha => exact Nat.le_of_eq (congrArg Array.size (crlf_of_not_mem ha).symm)
  | lines a b ha ih =>
    rw [crlf_joinLines ha, size_joinLines, size_joinLines, Array.size_push]
    omega

/-- What stands in front of a later offset is longer. -/
theorem size_crlf_lt (hxy : x < y) (hy : y ≤ t.size) :
    (t.slice 0 x).crlf.size < (t.slice 0 y).crlf.size := by
  have hbetween := size_le_crlf (t.slice x y)
  have hsize : (t.slice x y).size = y - x := by
    rw [slice, Array.size_extract, Nat.min_eq_left hy]
  have happend : t.slice 0 y = t.slice 0 x ++ t.slice x y := by
    rw [slice, slice, slice, Array.extract_append_extract, Nat.min_eq_left (Nat.zero_le x),
      Nat.max_eq_right (Nat.le_of_lt hxy)]
  rw [happend, crlf_append, Array.size_append]
  omega

/-- Without line ends in front, an offset stays. -/
theorem size_crlf_of_not_mem (ha : '\n' ∉ a) (hx : x ≤ a.size) : (a.slice 0 x).crlf.size = x := by
  have hfront : '\n' ∉ a.slice 0 x := fun hmem => by
    obtain ⟨i, hi, hat⟩ := Array.mem_extract_iff_getElem.mp hmem
    exact ha (hat ▸ Array.getElem_mem _)
  rw [crlf_of_not_mem hfront, slice, Array.size_extract, Nat.min_eq_left hx, Nat.sub_zero]

/-! ### The ends of lines -/

theorem getElem?_ne_of_not_mem (ha : '\n' ∉ a) (x : Nat) : a[x]? ≠ some '\n' :=
  fun hat => ha (Array.mem_of_getElem? hat)

theorem lineEnd_spec (hx : x ≤ t.size) : x ≤ t.lineEnd x ∧ t.lineEnd x ≤ t.size ∧
    (∀ i, x ≤ i → i < t.lineEnd x → t[i]? ≠ some '\n') ∧
      (t.lineEnd x < t.size → t[t.lineEnd x]? = some '\n') :=
  find?_char_spec hx

theorem lineEnd_of_not_mem (ha : '\n' ∉ a) (hx : x ≤ a.size) : a.lineEnd x = a.size := by
  obtain ⟨-, hle, -, hends⟩ := lineEnd_spec hx
  rcases Nat.eq_or_lt_of_le hle with heq | hlt
  · exact heq
  · exact absurd (hends hlt) (getElem?_ne_of_not_mem ha _)

/-- The first of two texts ends at the line end between, if it is a line. -/
theorem lineEnd_joinLines_left (ha : '\n' ∉ a) (hx : x ≤ a.size) :
    (a.joinLines b).lineEnd x = a.size := by
  have hsize := a.size_joinLines b
  obtain ⟨-, hle, hplain, hends⟩ := lineEnd_spec (t := a.joinLines b) (x := x) (by omega)
  rcases Nat.lt_trichotomy ((a.joinLines b).lineEnd x) a.size with hlt | heq | hlt
  · have hbreak := hends (by omega)
    rw [getElem?_joinLines_left a b hlt] at hbreak
    exact absurd hbreak (getElem?_ne_of_not_mem ha _)
  · exact heq
  · exact absurd (getElem?_joinLines_mid a b) (hplain a.size hx hlt)

theorem lineEnd_joinLines_right :
    (a.joinLines b).lineEnd (a.size + 1 + x) = a.size + 1 + b.lineEnd x := by
  obtain ⟨found, hjoined, halone⟩ : ∃ found : Option Nat,
      (a.joinLines b).find? ['\n'] (a.size + 1 + x) (a.size + 1 + b.size) =
        found.map (a.size + 1 + ·) ∧
      b.find? ['\n'] (0 + x) (0 + b.size) = found.map (0 + ·) :=
    (a.sameLines_right b).agree.find?_eq (Nat.le_refl _)
  rw [Nat.zero_add, Nat.zero_add] at halone
  rw [lineEnd, lineEnd, size_joinLines, hjoined, halone]
  cases found with
  | none => rfl
  | some i => simp only [Option.map_some, Option.getD_some, Nat.zero_add]

end Text

/-! ## Entries -/

namespace OutlineEntry

/-- The entry of a line that a carriage return follows: a reminder takes it in, with what else
stands in front of it. -/
def withReturn (a : Text) (e : OutlineEntry) : OutlineEntry :=
  if e.isReminder then { e with label := (a.slice e.offset a.size).push '\r' } else e

/-- The entry of a text in which a carriage return stands in front of each line end. It is moved up
by the carriage returns in front of it. The label of a reminder goes on to the end of its line and
takes in the carriage return there, if the line has a line end. -/
def crlf (t : Text) (e : OutlineEntry) : OutlineEntry where
  kind := e.kind
  label := if e.isReminder && decide (t.lineEnd e.offset < t.size) then
    (t.slice e.offset (t.lineEnd e.offset)).push '\r' else e.label
  offset := (t.slice 0 e.offset).crlf.size

/-- What is listed of an entry but for its offset. -/
def shown (e : OutlineEntry) : String × Text := (e.kind, e.label)

variable {t a b : Text} {e : OutlineEntry}

theorem crlf_of_not_mem (ha : '\n' ∉ a) (he : e.offset ≤ a.size) : crlf a e = e := by
  rw [crlf, Text.size_crlf_of_not_mem ha he, Text.lineEnd_of_not_mem ha he,
    decide_eq_false (Nat.lt_irrefl _), Bool.and_false]
  rfl

theorem crlf_joinLines_left (ha : '\n' ∉ a) (he : e.offset ≤ a.size) :
    crlf (a.joinLines b) e = withReturn a e := by
  have hlt : a.size < (a.joinLines b).size := by
    rw [Text.size_joinLines]
    omega
  rw [crlf, Text.lineEnd_joinLines_left ha he, a.slice_joinLines_left b he,
    a.slice_joinLines_left b (Nat.le_refl _), Text.size_crlf_of_not_mem ha he, decide_eq_true hlt,
    Bool.and_true, withReturn]
  split
  · rfl
  · rfl

theorem crlf_joinLines_right (ha : '\n' ∉ a) (he : e.offset ≤ b.size) :
    crlf (a.joinLines b) (later (a.size + 1) e) = later ((a.push '\r').size + 1) (crlf b e) := by
  have hslice := a.slice_joinLines_right b (x := e.offset) (Text.lineEnd_spec he).2.1
  have hfront : (a.joinLines b).slice 0 (a.size + 1 + e.offset) =
      a.joinLines (b.slice 0 e.offset) := by
    have hsize : (a ++ #['\n']).size = a.size + 1 := Array.size_append
    rw [Text.slice, Text.joinLines, Array.extract_append, hsize, Nat.zero_sub,
      Nat.add_sub_cancel_left, Array.extract_eq_self_of_le (by omega)]
    rfl
  have hlast : decide (a.size + 1 + b.lineEnd e.offset < (a.joinLines b).size) =
      decide (b.lineEnd e.offset < b.size) := by
    rw [Text.size_joinLines, decide_eq_decide, Nat.add_lt_add_iff_left]
  have hoffset : ((a.joinLines b).slice 0 (a.size + 1 + e.offset)).crlf.size =
      (a.push '\r').size + 1 + (b.slice 0 e.offset).crlf.size := by
    rw [hfront, Text.crlf_joinLines ha, Text.size_joinLines]
  simp only [crlf, later, isReminder, Text.lineEnd_joinLines_right, hslice, hlast, hoffset]
  rfl

/-- A label does not go on past the end of its line. -/
theorem Reads.le_lineEnd (h : e.Reads t) : e.offset + e.label.size ≤ t.lineEnd e.offset := by
  have hsize := h.le_size
  have hoffset : e.offset ≤ t.size := by omega
  obtain ⟨hle, -, -, hends⟩ := Text.lineEnd_spec hoffset
  apply Nat.le_of_not_lt
  intro hlt
  have hat : e.label[t.lineEnd e.offset - e.offset]? = some '\n' := by
    rw [h.slice, Text.slice, Array.getElem?_extract, if_pos (by omega), Nat.add_sub_of_le hle]
    exact hends (by omega)
  exact h.inLine (Array.mem_of_getElem? hat)

/-- An entry is shown as before exactly if it is no reminder on a line with a line end. -/
theorem shown_crlf_iff (h : e.Reads t) : (crlf t e).shown = e.shown ↔
    (e.isReminder = true → t.lineEnd e.offset = t.size) := by
  have hle := h.le_lineEnd
  have hsize := h.le_size
  have hoffset : e.offset ≤ t.size := by omega
  have hin := (Text.lineEnd_spec hoffset).2.1
  rw [shown, shown, Prod.mk.injEq]
  constructor
  · rintro ⟨-, hlabel⟩ hreminder
    rcases Nat.eq_or_lt_of_le hin with heq | hlt
    · exact heq
    · have hlabel : (t.slice e.offset (t.lineEnd e.offset)).push '\r' = e.label := by
        rwa [crlf, hreminder, decide_eq_true hlt] at hlabel
      have hlength := congrArg Array.size hlabel
      rw [Array.size_push, Text.slice, Array.size_extract, Nat.min_eq_left hin] at hlength
      omega
  · intro hlast
    refine ⟨rfl, ?_⟩
    by_cases hreminder : e.isReminder = true
    · rw [crlf, hlast hreminder, decide_eq_false (Nat.lt_irrefl _), Bool.and_false]
      rfl
    · rw [crlf, Bool.eq_false_iff.mpr hreminder]
      rfl

end OutlineEntry

/-! ## Outlines -/

namespace Outline

open Regex Standard

variable {t u a : Text} {c : String × Expr} {stop first x : Nat} {s : State}

/-! ### Reminders -/

/-- The rest of a reminder after its word: what the label takes in of the line, and the gap at the
end that it leaves out. -/
def afterWord (t : Text) (stop first : Nat) : Rest := fun s =>
  (Expr.many 0 none false .anyButLineEnd).run t stop s fun s' =>
    (Expr.seq (gap 0) (.anchor .lineEnd)).run t stop
      { s' with captures := (1, first, s'.pos) :: s'.captures } some

/-- On a single line, the rest of a reminder goes on to the end, and there is but a gap behind the
label. -/
theorem afterWord_eq (first : Nat) (ht : '\n' ∉ t) (hstop : stop ≤ t.size) (hs : s.pos ≤ stop) :
    ∃ last, last ≤ stop ∧ t.Spelled isGap last stop ∧
      afterWord t stop first s = some ⟨stop, (1, first, last) :: s.captures⟩ := by
  have hends : ∀ s' : State, Anchor.lineEnd.holds t stop s'.pos = true → s'.pos = stop := by
    intro s' hholds
    rw [Anchor.holds, Bool.or_eq_true, beq_iff_eq, beq_iff_eq] at hholds
    exact hholds.resolve_right (Text.getElem?_ne_of_not_mem ht _)
  have hsome : (afterWord t stop first s).isSome := by
    refine Expr.run_many_isSome (p := (· != '\n')) (fun _ _ => rfl) hs (Nat.le_refl _) ?_ ?_
    · intro x _ hlt
      refine Text.sees_iff.mpr ⟨hlt, t[x], Array.getElem?_eq_getElem (by omega), ?_⟩
      exact bne_iff_ne.mpr fun heq => ht (heq ▸ Array.getElem_mem _)
    · refine Expr.run_many_isSome (fun _ _ => rfl) (Nat.le_refl _) (Nat.le_refl _) ?_ ?_
      · exact fun x hle hlt => absurd hle (Nat.not_le.mpr hlt)
      · simp only [Expr.run, Anchor.holds, beq_self_eq_true, Bool.true_or, if_true,
          Option.isSome_some]
  obtain ⟨r, hr⟩ := Option.isSome_iff_exists.mp hsome
  obtain ⟨s₁, hline, hrest⟩ := Expr.exists_path hr
  obtain ⟨s₂, ⟨s₃, hgap, hend, rfl⟩, hfinal⟩ := Expr.exists_path hrest
  obtain rfl := Option.some.inj hfinal
  have hcaptures : s₁.captures = s.captures := hline.captures_eq (by rfl)
  have hcaptures' : s₂.captures = (1, first, s₁.pos) :: s₁.captures := hgap.captures_eq (by rfl)
  obtain ⟨hle, hspelled⟩ := path_gap hgap
  have hpos := hends _ hend
  rw [hpos] at hle hspelled
  refine ⟨s₁.pos, hle, hspelled, ?_⟩
  rw [hr, ← hpos, ← hcaptures, ← hcaptures']

/-- The state with the capture of the label, and all of it, ending at `last`. -/
def toLast (last : Nat) (s : State) : State :=
  match s.captures.lookup 1 with
  | none => s
  | some extent => ⟨last, (1, extent.1, last) :: s.captures.tail⟩

/-- One more carriage return is taken in by the rest of a reminder, and by its label. -/
theorem afterWord_return (ha : '\n' ∉ a) (hs : s.pos ≤ a.size) :
    (afterWord (a.push '\r') a.size first s).map (toLast (a.size + 1)) =
      afterWord (a.push '\r') (a.size + 1) first s := by
  have hsize : (a.push '\r').size = a.size + 1 := Array.size_push _
  have hu : '\n' ∉ a.push '\r' := fun hmem =>
    (Array.mem_push.mp hmem).elim ha fun heq => absurd heq (by decide)
  obtain ⟨last, -, -, hbefore⟩ := afterWord_eq first hu (by omega) hs
  obtain ⟨last', hle, hgap, hafter⟩ := afterWord_eq first (s := s) hu
    (Nat.le_of_eq hsize.symm) (by omega)
  -- the carriage return is no gap, so it is of the label
  have hlast : last' = a.size + 1 := by
    apply Nat.le_antisymm hle
    apply Nat.lt_of_not_le
    intro hbehind
    obtain ⟨d, hd, hspace⟩ := hgap a.size hbehind (Nat.lt_succ_self _)
    rw [Array.getElem?_push_size] at hd
    cases hd
    exact absurd hspace (by decide)
  rw [hbefore, hafter, hlast]
  rfl

/-- One more carriage return is taken in by a reminder. -/
theorem reminder_return (ha : '\n' ∉ a) (hpos : 0 < a.size) (hs : s.pos ≤ a.size) :
    (reminder.run (a.push '\r') a.size s some).map (toLast (a.size + 1)) =
      reminder.run (a.push '\r') (a.size + 1) s some := by
  have hcut : Cut (a.push '\r') '\r' a.size (a.size + 1) :=
    ⟨hpos, Nat.le_succ _, fun _ => Array.getElem?_push_size, by decide⟩
  simp only [reminder, reminderLabel, spell, List.foldr_cons, List.foldr_nil, run_seq, run_group]
  -- the two slashes, the gap, the word and its edge stop at a carriage return
  refine Expr.run_cut_map hcut (by decide) hs fun s₁ _ hs₁ => ?_
  refine Expr.run_cut_map hcut (by decide) hs₁ fun s₂ _ hs₂ => ?_
  refine Expr.run_cut_map hcut (by decide) hs₂ fun s₃ _ hs₃ => ?_
  refine Expr.run_cut_map hcut (by decide) hs₃ fun s₄ _ hs₄ => ?_
  refine Expr.run_cut_map hcut (by decide) hs₄ fun s₅ _ hs₅ => ?_
  exact afterWord_return ha hs₅

/-- The match with the capture of its label, and all of it, ending at `last`. -/
def matchToLast (last : Nat) (m : Match) : Match :=
  ⟨m.start, (toLast last ⟨m.stop, m.captures⟩).pos, (toLast last ⟨m.stop, m.captures⟩).captures⟩

theorem matchToLast_eq {m : Match} {last last' : Nat} (h : Labelled m first last) :
    matchToLast last' m = ⟨m.start, last', (1, first, last') :: m.captures.tail⟩ := by
  have hextent : m.captures.lookup 1 = some (first, last) := h.extent
  simp only [matchToLast, toLast, hextent]

/-! ### Lines -/

theorem matchAt?_push_front (hc : c ∈ table) (hx : x ≤ a.size) :
    matchAt? ⟨c.2, 1⟩ a x a.size = matchAt? ⟨c.2, 1⟩ (a.push '\r') x a.size := by
  have hall : ∀ c ∈ table, c.2.capturesBehind = false := by decide
  rw [Array.push_eq_append]
  exact matchAt?_front Text.agree_append (hall c hc) hx

/-- A declaration is found with and without a carriage return at the end of the line. -/
theorem allMatches_return_declaration {d : Declaration} (hd : d ∈ Declaration.all)
    (hpos : 0 < a.size) :
    allMatches ⟨d.expr, 1⟩ (a.push '\r') = (allMatches ⟨d.expr, 1⟩ a).map id := by
  have hc := mem_table_of_declaration hd
  have hr := lined_of_mem_table hc
  have hsize : (a.push '\r').size = a.size + 1 := Array.size_push _
  have hcut : Cut (a.push '\r') '\r' a.size (a.push '\r').size :=
    ⟨hpos, by omega, fun _ => Array.getElem?_push_size, by decide⟩
  have hall : ∀ d ∈ Declaration.all, d.expr.keepsBefore '\r' = true := by decide
  have hscan := (scan_allMatches hr a).push (c := '\r') (g := id) hr (fun x hx => by
      rw [matchAt?_push_front hc hx, Option.map_id, id_eq]
      exact (matchAt?_keeps hcut (Nat.le_of_eq hsize) (hall d hd) hx).symm)
    fun x m _ => .inl rfl
  exact (scan_allMatches hr _).unique hscan

/-- A reminder takes a carriage return in. -/
theorem allMatches_return_reminder (ha : '\n' ∉ a) (hpos : 0 < a.size) :
    allMatches ⟨reminder, 1⟩ (a.push '\r') =
      (allMatches ⟨reminder, 1⟩ a).map (matchToLast (a.size + 1)) := by
  have hr := lined_of_mem_table mem_table_of_reminder
  have hsize : (a.push '\r').size = a.size + 1 := Array.size_push _
  have hscan := (scan_allMatches hr a).push (c := '\r') (g := matchToLast (a.size + 1)) hr
    (fun x hx => by
      rw [matchAt?_push_front mem_table_of_reminder hx, hsize, matchAt?, matchAt?,
        ← reminder_return ha hpos hx, Option.map_map, Option.map_map]
      rfl)
    fun x m hm => by
      obtain ⟨first, last, hlabelled, hreminds⟩ := reminds_of_match hm
      rw [matchToLast_eq hlabelled]
      exact .inr ⟨hreminds.ends.resolve_right (Text.getElem?_ne_of_not_mem ha _), rfl⟩
  exact (scan_allMatches hr _).unique hscan

/-- What a change of the matches makes of the entries. -/
theorem entriesOf_push {g : Match → Match} {f : OutlineEntry → OutlineEntry}
    (hmatches : allMatches ⟨c.2, 1⟩ u = (allMatches ⟨c.2, 1⟩ a).map g)
    (hentry : ∀ m ∈ allMatches ⟨c.2, 1⟩ a, OutlinePattern.entryOf? c.1 u 1 (g m) =
      (OutlinePattern.entryOf? c.1 a 1 m).map f) :
    entriesOf u c = (entriesOf a c).map f := by
  rw [entriesOf, entriesOf, OutlinePattern.entries, OutlinePattern.entries, hmatches,
    List.filterMap_map, List.map_filterMap]
  exact List.filterMap_congr hentry

/-- What is found on a line that a carriage return ends. -/
theorem entriesOf_push_return (ha : '\n' ∉ a) (hc : c ∈ table) :
    entriesOf (a.push '\r') c = (entriesOf a c).map (OutlineEntry.withReturn a) := by
  rcases Nat.eq_zero_or_pos a.size with hzero | hpos
  · obtain rfl := Array.size_eq_zero_iff.mp hzero
    have hall : ∀ c ∈ table, entriesOf #['\r'] c =
        (entriesOf #[] c).map (OutlineEntry.withReturn #[]) := by
      decide
    exact hall c hc
  · rcases mem_table hc with ⟨d, hd, rfl⟩ | rfl
    · refine entriesOf_push (allMatches_return_declaration hd hpos) fun m hm => ?_
      obtain ⟨last, e, hentry, hfound⟩ := exists_entry hc hm
      obtain ⟨-, -, hle, hsize, -⟩ := hfound.spelled hc
      have hkind : ∀ d ∈ Declaration.all, (d.kind == "todo") = false := by decide
      rw [id_eq, entryOf?_eq hfound.labelled, entryOf?_eq hfound.labelled, Array.push_eq_append,
        Text.slice_append_left (Nat.le_trans hle hsize), Option.map_some, OutlineEntry.withReturn,
        OutlineEntry.isReminder, hkind d hd]
      rfl
    · refine entriesOf_push (allMatches_return_reminder ha hpos) fun m hm => ?_
      obtain ⟨last, e, hentry, hfound⟩ := exists_entry hc hm
      obtain ⟨-, hlt, hle, hsize, -⟩ := hfound.spelled hc
      have hslice : Text.slice (a.push '\r') e.offset (a.size + 1) =
          (a.slice e.offset a.size).push '\r' := by
        rw [Text.slice, Array.extract_push, if_neg (by omega), if_pos (by omega)]
        rfl
      rw [matchToLast_eq hfound.labelled, entryOf?_eq hfound.labelled]
      exact congrArg (fun label => some (⟨"todo", label, e.offset⟩ : OutlineEntry)) hslice

/-! ### Whole texts -/

/-- What an expression finds in a text with carriage returns at its line ends. -/
theorem entriesOf_crlf (hc : c ∈ table) (t : Text) :
    entriesOf t.crlf c = (entriesOf t c).map (OutlineEntry.crlf t) := by
  have hoffset {t : Text} {e : OutlineEntry} (he : e ∈ entriesOf t c) : e.offset ≤ t.size := by
    obtain ⟨m, -, last, hfound⟩ := exists_found hc he
    have hle := (hfound.reads hc).le_size
    omega
  induction t using Text.linesInduction with
  | line a ha =>
    have hsame : ∀ e ∈ entriesOf a c, OutlineEntry.crlf a e = e := fun e he =>
      OutlineEntry.crlf_of_not_mem ha (hoffset he)
    rw [Text.crlf_of_not_mem ha, List.map_congr_left hsame, List.map_id']
  | lines a b ha ih =>
    rw [Text.crlf_joinLines ha, entriesOf_joinLines hc, entriesOf_joinLines hc, List.map_append,
      entriesOf_push_return ha hc, ih, List.map_map, List.map_map]
    congr 1
    · exact List.map_congr_left fun e he =>
        (OutlineEntry.crlf_joinLines_left ha (hoffset he)).symm
    · exact List.map_congr_left fun e he =>
        (OutlineEntry.crlf_joinLines_right ha (hoffset he)).symm

/-- **Outlines under other line endings.** If each line end of a text gets a carriage return in
front, its outline has the same entries, moved up, but a reminder on a line with a line end takes in
the rest of its line and the carriage return. So kinds and labels are listed as before exactly if no
reminder stands on such a line. -/
theorem outline_crlf (t : Text) : ∃ entries, outline t = .ok entries ∧
    outline t.crlf = .ok (entries.map (OutlineEntry.crlf t)) ∧
    ((entries.map (OutlineEntry.crlf t)).map OutlineEntry.shown = entries.map OutlineEntry.shown ↔
      ∀ e ∈ entries, e.isReminder = true → t.lineEnd e.offset = t.size) := by
  obtain ⟨entries, houtline, hperm, hlines⟩ := exists_lineWise t
  obtain ⟨entries', houtline', hperm', hlines'⟩ := exists_lineWise t.crlf
  refine ⟨entries, houtline, ?_, ?_⟩
  · have hfound : entriesIn t.crlf = (entriesIn t).map (OutlineEntry.crlf t) := by
      rw [entriesIn, entriesIn, List.map_flatMap]
      exact List.flatMap_congr fun c hc => entriesOf_crlf hc t
    have hincreasing : (entries.map (OutlineEntry.crlf t)).Pairwise
        fun e e' => e.offset < e'.offset := by
      refine List.pairwise_map.mpr (hlines.increasing.imp_of_mem fun {e e'} _ he' hlt => ?_)
      have hsize := (hlines.reads e' he').le_size
      exact Text.size_crlf_lt hlt (by omega)
    rw [hfound] at hperm'
    rw [houtline', eq_of_increasing (hperm'.trans (hperm.map _).symm) hlines'.increasing
      hincreasing]
  · rw [List.map_map, List.map_inj_left]
    exact forall₂_congr fun e he => OutlineEntry.shown_crlf_iff (hlines.reads e he)

/-- A line with a reminder, and its line end. -/
def reminderLine : Text := Text.ofString "// TODO x\n"

/-- The entry of that line, with the label that it is given. -/
def reminderEntry (label : String) : OutlineEntry := ⟨"todo", Text.ofString label, 3⟩

/-- The reminder of a text without carriage returns is listed with another label if the line end
gets one. -/
theorem outline_crlf_reminderLine : '\r' ∉ reminderLine ∧
    outline reminderLine = .ok [reminderEntry "TODO x"] ∧
    outline reminderLine.crlf = .ok [reminderEntry "TODO x\r"] ∧
    (reminderEntry "TODO x\r").shown ≠ (reminderEntry "TODO x").shown := by
  have hbefore : table.flatMap (entriesOf reminderLine) = [reminderEntry "TODO x"] := by
    decide +kernel
  have hafter : table.flatMap (entriesOf reminderLine.crlf) = [reminderEntry "TODO x\r"] := by
    decide +kernel
  rw [outline_eq, outline_eq, hbefore, hafter, List.mergeSort_singleton, List.mergeSort_singleton]
  exact ⟨by decide +kernel, rfl, rfl, by decide +kernel⟩

end Outline

end VSyntax
