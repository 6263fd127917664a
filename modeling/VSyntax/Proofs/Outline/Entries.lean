import VSyntax.Proofs.Lines
import VSyntax.Proofs.Outline.Order
import VSyntax.Proofs.Outline.Shapes

/-!
# Outlines, line by line

Each entry of an outline belongs to one line. A line has one declaration and one reminder at most
(`Found.eq_of_line`, `Found.eq_of_line_reminder`), and no two entries of a text stand at one offset,
so the offsets of an outline increase (`increasing_outline`). As sorted lists of entries at
different offsets are known by their entries, the outline of two texts with a line end between is
the outline of the first, followed by that of the second, moved up (`outline_line_local`).
-/
namespace VSyntax

/-! ## Entries in a text -/

namespace OutlineEntry

/-- The entry of a text that stands behind `n` more characters. -/
def later (n : Nat) (e : OutlineEntry) : OutlineEntry := { e with offset := n + e.offset }

/-- Whether an entry is a declaration. -/
def isDeclaration (e : OutlineEntry) : Bool :=
  ["function", "struct", "interface", "type", "enum", "module"].contains e.kind

/-- Whether an entry is a reminder. -/
def isReminder (e : OutlineEntry) : Bool := e.kind == "todo"

/-- The number of the line that an entry is on. -/
def line (t : Text) (e : OutlineEntry) : Nat := Place.lineOf t.lineStarts e.offset

/-- The label of an entry is a part of one line of the text, at its offset, and not empty. -/
structure Reads (t : Text) (e : OutlineEntry) : Prop where
  nonempty : 0 < e.label.size
  inLine : '\n' ∉ e.label
  slice : e.label = t.slice e.offset (e.offset + e.label.size)

theorem Reads.le_size {t : Text} {e : OutlineEntry} (h : e.Reads t) :
    e.offset + e.label.size ≤ t.size := by
  have hsize := congrArg Array.size h.slice
  rw [Text.slice, Array.size_extract] at hsize
  have := h.nonempty
  omega

end OutlineEntry

/-- The entries are those of an outline that reads a text line by line: in the order of their
offsets, with a declaration and a reminder at most for each line, and with labels that stand in the
text. -/
structure Outline.LineWise (t : Text) (entries : List OutlineEntry) : Prop where
  increasing : entries.Pairwise fun e e' => e.offset < e'.offset
  declarations : ∀ k, (entries.filter fun e => e.isDeclaration && e.line t == k).length ≤ 1
  reminders : ∀ k, (entries.filter fun e => e.isReminder && e.line t == k).length ≤ 1
  reads : ∀ e ∈ entries, e.Reads t

namespace Outline

open Regex Standard

variable {t a b : Text} {c : String × Expr} {d d' : Declaration} {m m' : Match}
  {e e' : OutlineEntry} {first last pos k x : Nat}

/-! ## Where an entry comes from -/

theorem ne_lineEnd_of_has (h : t.Has (· != '\n') x) : t[x]? ≠ some '\n' := by
  obtain ⟨a, ha, hne⟩ := h
  rw [ha]
  exact fun heq => bne_iff_ne.mp hne (Option.some.inj heq)

/-- The expressions of the table are those of the declarations and of the reminder. -/
theorem mem_table (hc : c ∈ table) :
    (∃ d ∈ Declaration.all, c = (d.kind, d.expr)) ∨ c = ("todo", reminder) := by
  rcases List.mem_append.mp hc with hc | hc
  · obtain ⟨d, hd, rfl⟩ := List.mem_map.mp hc
    exact .inl ⟨d, hd, rfl⟩
  · exact .inr (List.mem_singleton.mp hc)

theorem mem_table_of_declaration (hd : d ∈ Declaration.all) : (d.kind, d.expr) ∈ table :=
  List.mem_append_left _ (List.mem_map_of_mem hd)

theorem mem_table_of_reminder : ("todo", reminder) ∈ table :=
  List.mem_append_right _ List.mem_cons_self

/-- Every expression of the table keeps to the line and takes something in. -/
theorem lined_of_mem_table (hc : c ∈ table) : (⟨c.2, 1⟩ : Regex).Lined := by
  have hall : ∀ c ∈ table, c.2.inLine = true ∧ c.2.consumes = true := by decide
  exact ⟨(hall c hc).1, (hall c hc).2⟩

/-- The match `m` of an expression of the table gives the entry `e`, whose label ends at `last`. -/
structure Found (t : Text) (c : String × Expr) (m : Match) (last : Nat) (e : OutlineEntry) :
    Prop where
  match_eq : matchAt? ⟨c.2, 1⟩ t m.start t.size = some m
  labelled : Labelled m e.offset last
  kind : e.kind = c.1
  label : e.label = t.slice e.offset last

theorem exists_labelled (hc : c ∈ table) (h : matchAt? ⟨c.2, 1⟩ t pos t.size = some m) :
    ∃ first last, Labelled m first last := by
  rcases mem_table hc with ⟨d, hd, rfl⟩ | rfl
  · obtain ⟨first, last, hlabelled, -⟩ := declares_of_match hd h
    exact ⟨first, last, hlabelled⟩
  · obtain ⟨first, last, hlabelled, -⟩ := reminds_of_match h
    exact ⟨first, last, hlabelled⟩

theorem entryOf?_eq {kind : String} (h : Labelled m first last) :
    OutlinePattern.entryOf? kind t 1 m = some ⟨kind, t.slice first last, first⟩ := by
  rw [OutlinePattern.entryOf?, h.extent]
  rfl

/-- Each match gives an entry. -/
theorem exists_entry (hc : c ∈ table) (hm : m ∈ allMatches ⟨c.2, 1⟩ t) :
    ∃ last e, OutlinePattern.entryOf? c.1 t 1 m = some e ∧ Found t c m last e := by
  obtain ⟨-, hmatch⟩ := (scan_allMatches (lined_of_mem_table hc) t).mem (lined_of_mem_table hc) m hm
  obtain ⟨first, last, hlabelled⟩ := exists_labelled hc hmatch
  exact ⟨last, _, entryOf?_eq hlabelled, hmatch, hlabelled, rfl, rfl⟩

/-- Each entry is found by a match. -/
theorem exists_found (hc : c ∈ table) (he : e ∈ entriesOf t c) :
    ∃ m ∈ allMatches ⟨c.2, 1⟩ t, ∃ last, Found t c m last e := by
  obtain ⟨m, hm, hentry⟩ := List.mem_filterMap.mp he
  obtain ⟨last, e', hentry', hfound⟩ := exists_entry hc hm
  cases hentry.symm.trans hentry'
  exact ⟨m, hm, last, hfound⟩

namespace Found

/-- A match and its label are in the text and on one line. -/
theorem spelled (hc : c ∈ table) (h : Found t c m last e) :
    m.start ≤ e.offset ∧ e.offset < last ∧ last ≤ m.stop ∧ m.stop ≤ t.size ∧
      t.Spelled (· != '\n') m.start m.stop := by
  obtain ⟨-, hsize, hspelled⟩ := (lined_of_mem_table hc).spelled h.match_eq
  exact ⟨h.labelled.start_le, h.labelled.lt, h.labelled.le_stop, hsize, hspelled⟩

theorem size_label (hc : c ∈ table) (h : Found t c m last e) : e.label.size = last - e.offset := by
  obtain ⟨-, -, hle, hsize, -⟩ := h.spelled hc
  rw [h.label, Text.slice, Array.size_extract, Nat.min_eq_left (Nat.le_trans hle hsize)]

theorem reads (hc : c ∈ table) (h : Found t c m last e) : e.Reads t := by
  obtain ⟨hstart, hlt, hle, hsize, hspelled⟩ := h.spelled hc
  have hlabel := h.size_label hc
  refine ⟨by omega, ?_, ?_⟩
  · intro hbreak
    obtain ⟨i, hi, hat⟩ := Array.mem_iff_getElem.mp hbreak
    have hchar : t[e.offset + i]? = some '\n' := by
      rw [← hat, ← Array.getElem?_eq_getElem hi, h.label, Text.slice, Array.getElem?_extract,
        if_pos (by omega)]
    exact ne_lineEnd_of_has (hspelled (e.offset + i) (by omega) (by omega)) hchar
  · rw [hlabel, Nat.add_sub_of_le (Nat.le_of_lt hlt)]
    exact h.label

/-- A match gives one entry. -/
theorem entry_eq {last' : Nat} (h : Found t c m last e) (h' : Found t c m last' e') : e = e' := by
  have hextent := h.labelled.extent.symm.trans h'.labelled.extent
  simp only [Option.some.injEq, Prod.mk.injEq] at hextent
  obtain ⟨hoffset, rfl⟩ := hextent
  have hkind := h.kind.trans h'.kind.symm
  have hlabel := h.label
  rw [hoffset, ← h'.label] at hlabel
  cases e
  cases e'
  cases hkind
  cases hlabel
  cases hoffset
  rfl

end Found

/-! ## One entry of a sort on a line -/

/-- Where a line begins that goes on to an offset of line `k`, line `k` begins. -/
theorem start_eq (hline : t.IsLine k first last) (hx : first ≤ x) (hxl : x ≤ last)
    (hstarts : pos = 0 ∨ t[pos - 1]? = some '\n') (hle : pos ≤ x)
    (hspelled : t.Spelled (· != '\n') pos x) : pos = first := by
  rcases Nat.lt_trichotomy pos first with hlt | heq | hlt
  · rcases Text.mem_lineStarts.mp (List.mem_of_getElem? hline.starts) with rfl | ⟨hpos, hat⟩
    · omega
    · exact absurd hat (ne_lineEnd_of_has (hspelled (first - 1) (by omega) (by omega)))
  · exact heq
  · rcases hstarts with rfl | hat
    · omega
    · exact absurd hat (hline.plain (pos - 1) (by omega) (by omega))

/-- Where the line ends that goes on from an offset of line `k`, line `k` ends. -/
theorem stop_eq (hline : t.IsLine k first last) (hx : first ≤ x) (hxl : x ≤ last)
    (hends : pos = t.size ∨ t[pos]? = some '\n') (hle : x ≤ pos)
    (hspelled : t.Spelled (· != '\n') x pos) : pos = last := by
  have hsize := hline.le_size
  rcases Nat.lt_trichotomy pos last with hlt | heq | hlt
  · rcases hends with rfl | hat
    · omega
    · exact absurd hat (hline.plain pos (by omega) hlt)
  · exact heq
  · obtain ⟨c, hc, -⟩ := hspelled last hxl hlt
    have hin := (Array.getElem?_eq_some_iff.mp hc).1
    exact absurd (hline.ends hin) (ne_lineEnd_of_has (hspelled last hxl hlt))

/-- A declaration is found where its line starts, and the line says of which kind it is. -/
theorem Found.declares (hd : d ∈ Declaration.all) (h : Found t (d.kind, d.expr) m last e) :
    t.lineStarts[e.line t]? = some m.start ∧ Declares t d m.start e.offset := by
  obtain ⟨hstart, hlt, hle, hsize, hspelled⟩ := h.spelled (mem_table_of_declaration hd)
  obtain ⟨first, last', hlabelled, hdeclares⟩ := declares_of_match hd h.match_eq
  cases hlabelled.extent.symm.trans h.labelled.extent
  have hoffset : e.offset ≤ t.size := by omega
  obtain ⟨begins, ends, hline, hbegins, hends⟩ := Text.exists_isLine hoffset
  have hplain : t.Spelled (· != '\n') m.start e.offset :=
    fun y hy hlt' => hspelled y hy (by omega)
  obtain rfl := start_eq hline hbegins hends hdeclares.starts hstart hplain
  exact ⟨hline.starts, hdeclares⟩

/-- A line has one declaration at most. -/
theorem Found.eq_of_line {last' : Nat} (hd : d ∈ Declaration.all) (hd' : d' ∈ Declaration.all)
    (h : Found t (d.kind, d.expr) m last e) (h' : Found t (d'.kind, d'.expr) m' last' e')
    (hline : e.line t = e'.line t) : d = d' ∧ e = e' := by
  obtain ⟨hstart, hdeclares⟩ := h.declares hd
  obtain ⟨hstart', hdeclares'⟩ := h'.declares hd'
  rw [hline, hstart'] at hstart
  have hstart := Option.some.inj hstart
  have hkinds : ∀ d ∈ Declaration.all, ∀ d' ∈ Declaration.all, d.word.toArray = d'.word.toArray →
      d = d' := by
    decide
  have hword := hdeclares'.keyword
  rw [hstart] at hword
  obtain rfl := hkinds d hd d' hd' (hdeclares.keyword.symm.trans hword)
  have hmatch := h.match_eq
  rw [← hstart, h'.match_eq] at hmatch
  obtain rfl := Option.some.inj hmatch
  exact ⟨rfl, h.entry_eq h'⟩

/-- A reminder is found up to the end of its line. -/
theorem Found.reminds (h : Found t ("todo", reminder) m last e) :
    AfterGap t '/' e.offset ∧ ∃ first, t.IsLine (e.line t) first m.stop := by
  obtain ⟨hstart, hlt, hle, hsize, hspelled⟩ := h.spelled mem_table_of_reminder
  obtain ⟨first, last', hlabelled, hreminds⟩ := reminds_of_match h.match_eq
  cases hlabelled.extent.symm.trans h.labelled.extent
  have hoffset : e.offset ≤ t.size := by omega
  obtain ⟨begins, ends, hline, hbegins, hends⟩ := Text.exists_isLine hoffset
  have hplain : t.Spelled (· != '\n') e.offset m.stop :=
    fun y hy hlt' => hspelled y (by omega) hlt'
  obtain rfl := stop_eq hline hbegins hends hreminds.ends (by omega) hplain
  exact ⟨hreminds.after, begins, hline⟩

/-- A line has one reminder at most. -/
theorem Found.eq_of_line_reminder {last' : Nat} (hm : m ∈ allMatches ⟨reminder, 1⟩ t)
    (hm' : m' ∈ allMatches ⟨reminder, 1⟩ t) (h : Found t ("todo", reminder) m last e)
    (h' : Found t ("todo", reminder) m' last' e') (hline : e.line t = e'.line t) : e = e' := by
  have hr := lined_of_mem_table mem_table_of_reminder
  obtain ⟨-, first, hends⟩ := h.reminds
  obtain ⟨-, first', hends'⟩ := h'.reminds
  rw [← hline] at hends'
  obtain rfl : first = first' := Option.some.inj (hends.starts.symm.trans hends'.starts)
  have hstop : m.stop = m'.stop := hends.lineEnd_eq.symm.trans hends'.lineEnd_eq
  have hlt := (hr.spelled h.match_eq).1
  have hlt' := (hr.spelled h'.match_eq).1
  -- two matches that end at one offset do not lie apart
  rcases (scan_allMatches hr t).apart hr hm hm' with rfl | hle | hle
  · exact h.entry_eq h'
  · omega
  · omega

/-! ## The order of entries -/

/-- The entries that one expression finds stand one after the other. -/
theorem increasing_entriesOf (hc : c ∈ table) :
    (entriesOf t c).Pairwise fun e e' => e.offset < e'.offset := by
  have hr := lined_of_mem_table hc
  rw [entriesOf, OutlinePattern.entries, List.pairwise_filterMap]
  refine ((scan_allMatches hr t).pairwise hr).imp_of_mem fun {m m'} hm hm' hapart => ?_
  intro e hentry e' hentry'
  obtain ⟨last, e₁, he₁, hfound⟩ := exists_entry hc hm
  obtain ⟨last', e₂, he₂, hfound'⟩ := exists_entry hc hm'
  cases hentry.symm.trans he₁
  cases hentry'.symm.trans he₂
  have := hfound.spelled hc
  have := hfound'.spelled hc
  omega

/-- Entries that different expressions find stand at different offsets. -/
theorem offset_ne_of_table : table.Pairwise fun c c' =>
    ∀ e ∈ entriesOf t c, ∀ e' ∈ entriesOf t c', e.offset ≠ e'.offset := by
  refine List.pairwise_append.mpr ⟨?_, List.pairwise_singleton _ _, ?_⟩
  · have hdifferent : Declaration.all.Pairwise (· ≠ ·) := by decide
    refine List.pairwise_map.mpr (hdifferent.imp_of_mem fun {d d'} hd hd' hne => ?_)
    intro e he e' he' hoffset
    obtain ⟨m, -, last, hfound⟩ := exists_found (mem_table_of_declaration hd) he
    obtain ⟨m', -, last', hfound'⟩ := exists_found (mem_table_of_declaration hd') he'
    have hline : e.line t = e'.line t := congrArg (Place.lineOf t.lineStarts) hoffset
    exact hne (hfound.eq_of_line hd hd' hfound' hline).1
  · intro c hc c' hc' e he e' he' hoffset
    obtain ⟨d, hd, rfl⟩ := List.mem_map.mp hc
    rw [List.mem_singleton.mp hc'] at he'
    obtain ⟨m, -, last, hfound⟩ := exists_found (mem_table_of_declaration hd) he
    obtain ⟨m', -, last', hfound'⟩ := exists_found mem_table_of_reminder he'
    obtain ⟨-, hdeclares⟩ := hfound.declares hd
    rw [hoffset] at hdeclares
    exact hdeclares.after.not_slash hfound'.reminds.1

/-- The entries that the table finds, expression by expression. -/
def entriesIn (t : Text) : List OutlineEntry := table.flatMap (entriesOf t)

theorem mem_entriesIn : e ∈ entriesIn t ↔ ∃ c ∈ table, e ∈ entriesOf t c := List.mem_flatMap

theorem offset_ne_of_entriesIn : (entriesIn t).Pairwise fun e e' => e.offset ≠ e'.offset :=
  List.pairwise_flatMap.mpr
    ⟨fun _ hc => (increasing_entriesOf hc).imp Nat.ne_of_lt, offset_ne_of_table⟩

/-- An order of different offsets is an order by offset. -/
theorem increasing_mergeSort {l : List OutlineEntry}
    (h : l.Pairwise fun e e' => e.offset ≠ e'.offset) :
    (l.mergeSort OutlineEntry.before).Pairwise fun e e' => e.offset < e'.offset := by
  have hdifferent := ((List.mergeSort_perm l OutlineEntry.before).pairwise_iff
    (R := fun e e' => e.offset ≠ e'.offset) Ne.symm).mpr h
  refine ((OutlineEntry.ordered_mergeSort l).and hdifferent).imp fun {e e'} hboth => ?_
  rcases OutlineEntry.before_iff.mp hboth.1 with hlt | ⟨heq, -⟩
  · exact hlt
  · exact absurd heq hboth.2

/-- Sorted lists of the same entries are the same. -/
theorem eq_of_increasing {l l' : List OutlineEntry} (hperm : l.Perm l')
    (h : l.Pairwise fun e e' => e.offset < e'.offset)
    (h' : l'.Pairwise fun e e' => e.offset < e'.offset) : l = l' :=
  hperm.eq_of_pairwise (fun _ _ _ _ hlt hlt' => absurd hlt (Nat.lt_asymm hlt')) h h'

/-- Of entries one after the other, a condition that holds of one entry alone picks one at most. -/
theorem length_filter_le_one {l : List OutlineEntry} {p : OutlineEntry → Bool}
    (h : l.Pairwise fun e e' => e.offset < e'.offset)
    (hp : ∀ e ∈ l, ∀ e' ∈ l, p e = true → p e' = true → e = e') : (l.filter p).length ≤ 1 := by
  have hfilter := h.filter p
  cases hl : l.filter p with
  | nil => exact Nat.zero_le 1
  | cons e rest =>
    cases rest with
    | nil => exact Nat.le_refl 1
    | cons e' rest =>
      rw [hl] at hfilter
      have hlt := (List.pairwise_cons.mp hfilter).1 e' List.mem_cons_self
      have he : e ∈ l.filter p := hl ▸ List.mem_cons_self
      have he' : e' ∈ l.filter p := hl ▸ List.mem_cons_of_mem _ List.mem_cons_self
      obtain ⟨he, hpe⟩ := List.mem_filter.mp he
      obtain ⟨he', hpe'⟩ := List.mem_filter.mp he'
      rw [hp e he e' he' hpe hpe'] at hlt
      exact absurd hlt (Nat.lt_irrefl _)

/-! ## The outline of a text -/

theorem exists_declaration (he : e ∈ entriesIn t) (hkind : e.isDeclaration = true) :
    ∃ d ∈ Declaration.all, ∃ m last, Found t (d.kind, d.expr) m last e := by
  obtain ⟨c, hc, he⟩ := mem_entriesIn.mp he
  obtain ⟨m, -, last, hfound⟩ := exists_found hc he
  rcases mem_table hc with ⟨d, hd, rfl⟩ | rfl
  · exact ⟨d, hd, m, last, hfound⟩
  · rw [OutlineEntry.isDeclaration, hfound.kind] at hkind
    exact absurd hkind (by decide)

theorem exists_reminder (he : e ∈ entriesIn t) (hkind : e.isReminder = true) :
    ∃ m ∈ allMatches ⟨reminder, 1⟩ t, ∃ last, Found t ("todo", reminder) m last e := by
  obtain ⟨c, hc, he⟩ := mem_entriesIn.mp he
  obtain ⟨m, hm, last, hfound⟩ := exists_found hc he
  rcases mem_table hc with ⟨d, hd, rfl⟩ | rfl
  · have hall : ∀ d ∈ Declaration.all, (d.kind == "todo") = false := by decide
    rw [OutlineEntry.isReminder, hfound.kind, hall d hd] at hkind
    cases hkind
  · exact ⟨m, hm, last, hfound⟩

/-- Every text has an outline, and it reads the text line by line. -/
theorem exists_lineWise (t : Text) : ∃ entries, outline t = .ok entries ∧
    entries.Perm (entriesIn t) ∧ LineWise t entries := by
  have hperm := List.mergeSort_perm (entriesIn t) OutlineEntry.before
  have hincreasing := increasing_mergeSort (offset_ne_of_entriesIn (t := t))
  have hline {p : OutlineEntry → Bool} {k : Nat} {e e' : OutlineEntry}
      (hp : (p e && e.line t == k) = true) (hp' : (p e' && e'.line t == k) = true) :
      p e = true ∧ p e' = true ∧ e.line t = e'.line t := by
    obtain ⟨hkind, hline⟩ := Bool.and_eq_true_iff.mp hp
    obtain ⟨hkind', hline'⟩ := Bool.and_eq_true_iff.mp hp'
    exact ⟨hkind, hkind', (beq_iff_eq.mp hline).trans (beq_iff_eq.mp hline').symm⟩
  refine ⟨_, outline_eq t, hperm, hincreasing, fun k => ?_, fun k => ?_, fun e he => ?_⟩
  · refine length_filter_le_one hincreasing fun e he e' he' hp hp' => ?_
    obtain ⟨hkind, hkind', hlines⟩ := hline hp hp'
    obtain ⟨d, hd, m, last, hfound⟩ := exists_declaration (hperm.mem_iff.mp he) hkind
    obtain ⟨d', hd', m', last', hfound'⟩ := exists_declaration (hperm.mem_iff.mp he') hkind'
    exact (hfound.eq_of_line hd hd' hfound' hlines).2
  · refine length_filter_le_one hincreasing fun e he e' he' hp hp' => ?_
    obtain ⟨hkind, hkind', hlines⟩ := hline hp hp'
    obtain ⟨m, hm, last, hfound⟩ := exists_reminder (hperm.mem_iff.mp he) hkind
    obtain ⟨m', hm', last', hfound'⟩ := exists_reminder (hperm.mem_iff.mp he') hkind'
    exact hfound.eq_of_line_reminder hm hm' hfound' hlines
  · obtain ⟨c, hc, he⟩ := mem_entriesIn.mp (hperm.mem_iff.mp he)
    obtain ⟨m, -, last, hfound⟩ := exists_found hc he
    exact hfound.reads hc

/-! ## Two texts in one -/

/-- What an expression finds in two texts with a line end between. -/
theorem entriesOf_joinLines (hc : c ∈ table) :
    entriesOf (a.joinLines b) c =
      entriesOf a c ++ (entriesOf b c).map (OutlineEntry.later (a.size + 1)) := by
  have hr := lined_of_mem_table hc
  rw [entriesOf, OutlinePattern.entries, allMatches_append_line hr, List.filterMap_append]
  congr 1
  · refine List.filterMap_congr fun m hm => ?_
    obtain ⟨last, e, hentry, hfound⟩ := exists_entry hc hm
    obtain ⟨-, -, hle, hsize, -⟩ := hfound.spelled hc
    rw [entryOf?_eq hfound.labelled, entryOf?_eq hfound.labelled,
      a.slice_joinLines_left b (Nat.le_trans hle hsize)]
  · rw [List.filterMap_map, entriesOf, OutlinePattern.entries, List.map_filterMap]
    refine List.filterMap_congr fun m hm => ?_
    obtain ⟨last, e, hentry, hfound⟩ := exists_entry hc hm
    obtain ⟨-, -, hle, hsize, -⟩ := hfound.spelled hc
    rw [entryOf?_eq hfound.labelled, Function.comp_apply, OutlinePattern.entryOf?, Match.extent?_up,
      hfound.labelled.extent]
    simp only [Option.map_some, OutlineEntry.later,
      a.slice_joinLines_right b (Nat.le_trans hle hsize)]

/-- The entries in two texts with a line end between. -/
theorem entriesIn_joinLines : (entriesIn (a.joinLines b)).Perm
    (entriesIn a ++ (entriesIn b).map (OutlineEntry.later (a.size + 1))) := by
  have hparts : entriesIn (a.joinLines b) = table.flatMap fun c =>
      entriesOf a c ++ (entriesOf b c).map (OutlineEntry.later (a.size + 1)) :=
    List.flatMap_congr fun c hc => entriesOf_joinLines hc
  rw [hparts, entriesIn, entriesIn, List.map_flatMap]
  exact (List.flatMap_append_perm table _ _).symm

/-- **The outline is made line by line.** For all texts `a` and `b`, the outline of the two with a
line end between is the outline of `a`, followed by that of `b` with its offsets moved up. Each
lists its entries in the order of their offsets, with a declaration and a reminder at most for each
line, and the label of an entry is a part of one line that stands in the text at its offset. -/
theorem outline_line_local (a b : Text) :
    ∃ front rest, outline a = .ok front ∧ outline b = .ok rest ∧
      outline (a.joinLines b) = .ok (front ++ rest.map (OutlineEntry.later (a.size + 1))) ∧
      LineWise a front ∧ LineWise b rest := by
  obtain ⟨front, hfront, hpermFront, hlinesFront⟩ := exists_lineWise a
  obtain ⟨rest, hrest, hpermRest, hlinesRest⟩ := exists_lineWise b
  obtain ⟨joined, hjoined, hpermJoined, hlinesJoined⟩ := exists_lineWise (a.joinLines b)
  refine ⟨front, rest, hfront, hrest, ?_, hlinesFront, hlinesRest⟩
  rw [hjoined]
  have hperm : joined.Perm (front ++ rest.map (OutlineEntry.later (a.size + 1))) :=
    (hpermJoined.trans entriesIn_joinLines).trans
      (hpermFront.symm.append (hpermRest.symm.map _))
  have hincreasing : (front ++ rest.map (OutlineEntry.later (a.size + 1))).Pairwise
      fun e e' => e.offset < e'.offset := by
    refine List.pairwise_append.mpr ⟨hlinesFront.increasing, ?_, fun e he e' he' => ?_⟩
    · exact List.pairwise_map.mpr (hlinesRest.increasing.imp (Nat.add_lt_add_left · (a.size + 1)))
    · obtain ⟨e', -, rfl⟩ := List.mem_map.mp he'
      have := (hlinesFront.reads e he).le_size
      simp only [OutlineEntry.later]
      omega
  exact congrArg Except.ok (eq_of_increasing hperm hlinesJoined.increasing hincreasing)

end Outline

end VSyntax
