import VSyntax.Pass
import VSyntax.Proofs.Json
import VSyntax.Proofs.Outline.Entries
import VSyntax.Proofs.Session

/-!
# Listings are read back

Readers of what a pass writes: the lines of spans (`Listing.readSpans`), the records of spans
(`Listing.readRecords`) and the lines of an outline (`Listing.readOutline`). They part the lines at
line feeds and the fields at tabs, and know nothing of the text that was classified.

Numbers and names of categories hold no tab and no line feed. A label may hold tabs, but the fields
in front of it hold none, and no label goes beyond its line. So each reader finds what was written,
whatever the text (`Job.pass_lossless`).
-/
namespace VSyntax

namespace Listing

/-! ## Lines -/

/-- The lines of a text, each of which is ended. -/
def lines? (cs : List Char) : Option (List (List Char)) :=
  let lines := cs.splitOn '\n'
  if lines.getLast? = some [] then some lines.dropLast else none

/-- What the lines of a text stand for. -/
def readLines {α : Type} (readLine : List Char → Option α) (cs : List Char) : Option (List α) :=
  (lines? cs).bind fun lines => lines.mapM readLine

variable {α : Type} {xs : List α} {line : α → List Char} {readLine : List Char → Option α}

theorem splitOn_flatMap (h : ∀ x ∈ xs, '\n' ∉ line x) :
    (xs.flatMap fun x => line x ++ ['\n']).splitOn '\n' = xs.map line ++ [[]] := by
  induction xs with
  | nil => rw [List.flatMap_nil, List.splitOn_nil, List.map_nil, List.nil_append]
  | cons x xs ih =>
    obtain ⟨hx, hxs⟩ := List.forall_mem_cons.mp h
    rw [List.flatMap_cons, List.append_assoc, List.singleton_append,
      List.splitOn_append_cons_self_of_not_mem hx, ih hxs, List.map_cons, List.cons_append]

theorem mapM_eq_some {β : Type} {read : α → Option β} {value : α → β}
    (h : ∀ x ∈ xs, read x = some (value x)) : xs.mapM read = some (xs.map value) := by
  induction xs with
  | nil => rfl
  | cons x xs ih =>
    obtain ⟨hx, hxs⟩ := List.forall_mem_cons.mp h
    rw [List.mapM_cons, hx, ih hxs]
    rfl

/-- Lines are read back if none of them holds a line feed and each is read back. -/
theorem readLines_flatMap (line : α → List Char) (h : ∀ x ∈ xs, '\n' ∉ line x)
    (hread : ∀ x ∈ xs, readLine (line x) = some x) :
    readLines readLine (xs.flatMap fun x => line x ++ ['\n']) = some xs := by
  have hmap : (xs.map line).mapM readLine = some xs := by
    rw [List.mapM_map]
    exact (mapM_eq_some hread).trans (congrArg some (List.map_id' xs))
  rw [readLines, lines?, splitOn_flatMap h]
  simp only [List.getLast?_concat, if_true, List.dropLast_concat, Option.bind_some, hmap]

/-! ## Lines of spans -/

/-- The span of a line. -/
def readSpan (line : List Char) : Option Span :=
  match line.splitOn '\t' with
  | [start, stop, name] => do
    return ⟨← Numeral.natOf? start, ← Numeral.natOf? stop,
      ← Category.ofName? (String.ofList name)⟩
  | _ => none

/-- The spans of a listing. -/
def readSpans (cs : List Char) : Option (List Span) := readLines readSpan cs

/-- The fields of the line of a span. -/
def spanFields (s : Span) : List Char :=
  Numeral.ofNat s.start ++ '\t' :: Numeral.ofNat s.stop ++ '\t' :: s.category.name.toList

theorem readSpan_spanFields (s : Span) : readSpan (spanFields s) = some s := by
  have hsplit : (spanFields s).splitOn '\t' =
      [Numeral.ofNat s.start, Numeral.ofNat s.stop, s.category.name.toList] := by
    rw [spanFields, List.append_assoc, List.cons_append,
      List.splitOn_append_cons_self_of_not_mem (Numeral.not_mem_ofNat rfl),
      List.splitOn_append_cons_self_of_not_mem (Numeral.not_mem_ofNat rfl),
      List.splitOn_eq_singleton (Html.not_mem_name rfl)]
  rw [readSpan, hsplit]
  simp only [Numeral.natOf?_ofNat, String.ofList_toList, Html.ofName?_name]
  rfl

theorem readSpans_spans (ss : List Span) : readSpans (spans ss) = some ss := by
  refine readLines_flatMap spanFields (fun s _ => ?_) fun s _ => readSpan_spanFields s
  simp only [spanFields, List.mem_append, List.mem_cons, not_or]
  exact ⟨⟨Numeral.not_mem_ofNat rfl, by decide, Numeral.not_mem_ofNat rfl⟩, by decide,
    Html.not_mem_name rfl⟩

/-! ## Lines of an outline -/

/-- The outline entry of a line, which is parted at its first two tabs. -/
def readEntry (line : List Char) : Option OutlineEntry := do
  let (offset, rest) ← CommandLine.splitAt? '\t' line
  let (kind, label) ← CommandLine.splitAt? '\t' rest
  return ⟨String.ofList kind, label.toArray, ← Numeral.natOf? offset⟩

/-- The outline entries of a listing. -/
def readOutline (cs : List Char) : Option (List OutlineEntry) := readLines readEntry cs

/-- The fields of the line of an outline entry. -/
def entryFields (e : OutlineEntry) : List Char :=
  Numeral.ofNat e.offset ++ '\t' :: e.kind.toList ++ '\t' :: e.label.toList

variable {e : OutlineEntry} {es : List OutlineEntry}

theorem readEntry_entryFields (h : '\t' ∉ e.kind.toList) :
    readEntry (entryFields e) = some e := by
  rw [readEntry, entryFields, List.append_assoc, List.cons_append,
    CommandLine.splitAt?_append (Numeral.not_mem_ofNat rfl)]
  simp only [Option.bind_eq_bind, Option.bind_some, CommandLine.splitAt?_append h,
    Numeral.natOf?_ofNat, String.ofList_toList, Array.toArray_toList]
  rfl

/-- An outline is read back if no kind holds a tab or a line feed, and no label a line feed. -/
theorem readOutline_outline (hkind : ∀ e ∈ es, '\t' ∉ e.kind.toList ∧ '\n' ∉ e.kind.toList)
    (hlabel : ∀ e ∈ es, '\n' ∉ e.label) : readOutline (outline es) = some es := by
  refine readLines_flatMap entryFields (fun e he => ?_) fun e he =>
    readEntry_entryFields (hkind e he).1
  simp only [entryFields, List.mem_append, List.mem_cons, not_or, Array.mem_toList_iff]
  exact ⟨⟨Numeral.not_mem_ofNat rfl, by decide, (hkind e he).2⟩, by decide, hlabel e he⟩

/-! ## Records -/

/-- The record of a span of a text. -/
def recordValue (t : Text) (s : Span) : Json.Value :=
  .record [
    ("start".toList, .number s.start),
    ("end".toList, .number s.stop),
    ("category".toList, .text s.category.name.toList),
    ("text".toList, .text (s.text t).toList)]

/-- The span of a record, and the text that the record holds. -/
def readRecord : Json.Value → Option (Span × Text)
  | .record fields =>
    match fields.lookup "start".toList, fields.lookup "end".toList,
        fields.lookup "category".toList, fields.lookup "text".toList with
    | some (.number start), some (.number stop), some (.text name), some (.text cs) =>
      (Category.ofName? (String.ofList name)).map fun category =>
        (⟨start, stop, category⟩, cs.toArray)
    | _, _, _, _ => none
  | _ => none

/-- The spans of an array of records, each with its text. -/
def readRecords (cs : List Char) : Option (List (Span × Text)) :=
  match Json.read cs with
  | some (.array vs) => vs.mapM readRecord
  | _ => none

variable {t : Text} {s : Span}

theorem readRecord_recordValue (t : Text) (s : Span) :
    readRecord (recordValue t s) = some (s, s.text t) := by
  have hnames : ("end".toList == "start".toList) = false ∧
      ("category".toList == "start".toList) = false ∧
      ("category".toList == "end".toList) = false ∧
      ("text".toList == "start".toList) = false ∧ ("text".toList == "end".toList) = false ∧
      ("text".toList == "category".toList) = false := by
    decide
  obtain ⟨h₁, h₂, h₃, h₄, h₅, h₆⟩ := hnames
  simp only [readRecord, recordValue, List.lookup_cons, BEq.rfl, h₁, h₂, h₃, h₄, h₅, h₆,
    String.ofList_toList, Html.ofName?_name, Option.map_some, Array.toArray_toList]

/-! ### Records as they are written -/

variable {depth : Nat} {v : Json.Value} {w : List Char}

/-- A field as it is written, behind a line feed. -/
def fieldForm (name : String) (value : List Char) : List Char := '\n' :: field name value

theorem fieldForm_eq (name : String) (value : List Char) :
    fieldForm name value = Json.indent 4 ++ (Json.quote name.toList ++ ':' :: ' ' :: value) := by
  have hindent : '\n' :: "    ".toList = Json.indent 4 := rfl
  have hcolon : ": ".toList = [':', ' '] := rfl
  unfold fieldForm field
  simp only [← hindent, hcolon, List.append_assoc, List.cons_append, List.nil_append]

theorem reads_fieldForm (h : Json.Reads (Json.readValue depth) v w) (name : String) :
    Json.Reads (Json.readField (Json.readValue depth)) (name.toList, v) (fieldForm name w) := by
  have hspace : ∀ c ∈ [' '], Json.isBlank c = true := List.forall_mem_singleton.mpr rfl
  rw [fieldForm_eq]
  exact Json.reads_field name.toList (h.behind hspace) (Json.isBlank_of_mem_indent 4)

theorem skipBlanks_fieldForm (name : String) (value : List Char) :
    ∃ c cs, Json.skipBlanks (fieldForm name value) = c :: cs ∧ c ≠ '\x7d' := by
  rw [fieldForm_eq, Json.skipBlanks_append (Json.isBlank_of_mem_indent 4)]
  exact ⟨'"', _, rfl, by decide⟩

/-- The fields of the record of a span, with what is written of each. -/
def writtenFields (t : Text) (s : Span) : List ((List Char × Json.Value) × List Char) := [
  (("start".toList, .number s.start), fieldForm "start" (Numeral.ofNat s.start)),
  (("end".toList, .number s.stop), fieldForm "end" (Numeral.ofNat s.stop)),
  (("category".toList, .text s.category.name.toList),
    fieldForm "category" (Json.quote s.category.name.toList)),
  (("text".toList, .text (s.text t).toList), fieldForm "text" (Json.quote (s.text t).toList))]

theorem reads_writtenFields (depth : Nat) : ∀ p ∈ writtenFields t s,
    Json.Reads (Json.readField (Json.readValue (depth + 1))) p.1 p.2 := by
  simp only [writtenFields, List.forall_mem_cons]
  exact ⟨reads_fieldForm (Json.reads_number depth _) _,
    reads_fieldForm (Json.reads_number depth _) _, reads_fieldForm (Json.reads_text depth _) _,
    reads_fieldForm (Json.reads_text depth _) _, List.forall_mem_nil _⟩

/-- A record as it is written, behind a line feed. -/
def recordForm (t : Text) (s : Span) : List Char := '\n' :: record t s

theorem recordForm_eq (t : Text) (s : Span) :
    recordForm t s = Json.indent 2 ++
      '\x7b' :: Json.closing ((writtenFields t s).map Prod.snd) (Json.indent 2) '\x7d' := by
  have hopen : '\n' :: "  \x7b\n".toList = Json.indent 2 ++ ['\x7b', '\n'] := rfl
  have hclose : "\n  \x7d".toList = Json.indent 2 ++ ['\x7d'] := rfl
  have hnext : ",\n".toList = [',', '\n'] := rfl
  unfold recordForm record
  simp only [hclose, hnext, Json.closing, writtenFields, fieldForm, List.map_cons, List.map_nil,
    List.intercalate_cons_cons, List.intercalate_singleton, List.append_assoc, List.cons_append,
    List.nil_append]
  rw [← List.cons_append, hopen]
  simp only [List.append_assoc, List.cons_append, List.nil_append]

theorem reads_recordForm (depth : Nat) (t : Text) (s : Span) :
    Json.Reads (Json.readValue (depth + 2)) (recordValue t s) (recordForm t s) := by
  have hopen : ∀ p ∈ writtenFields t s, ∃ c cs, Json.skipBlanks p.2 = c :: cs ∧ c ≠ '\x7d' := by
    simp only [writtenFields, List.forall_mem_cons]
    exact ⟨skipBlanks_fieldForm _ _, skipBlanks_fieldForm _ _, skipBlanks_fieldForm _ _,
      skipBlanks_fieldForm _ _, List.forall_mem_nil _⟩
  have hindent := Json.isBlank_of_mem_indent 2
  rw [recordForm_eq]
  exact (Json.reads_record (List.cons_ne_nil _ _) (reads_writtenFields depth) hopen hindent).behind
    hindent

theorem skipBlanks_recordForm (t : Text) (s : Span) :
    ∃ c cs, Json.skipBlanks (recordForm t s) = c :: cs ∧ c ≠ ']' := by
  rw [recordForm_eq, Json.skipBlanks_append (Json.isBlank_of_mem_indent 2)]
  exact ⟨'\x7b', _, rfl, by decide⟩

/-! ### Arrays of records -/

/-- The spans of a text with what is written of each. -/
def writtenRecords (t : Text) (ss : List Span) : List (Json.Value × List Char) :=
  ss.map fun s => (recordValue t s, recordForm t s)

theorem cons_records (t : Text) {ss : List Span} (hne : ss ≠ []) :
    '\n' :: records t ss = [','].intercalate ((writtenRecords t ss).map Prod.snd) := by
  have hnext : ",\n".toList = [',', '\n'] := rfl
  induction ss with
  | nil => exact absurd rfl hne
  | cons s ss ih =>
    cases ss with
    | nil =>
      simp only [records, writtenRecords, recordForm, List.map_cons, List.map_nil,
        List.intercalate_singleton]
    | cons s' ss =>
      have hrest := ih (List.cons_ne_nil s' ss)
      simp only [writtenRecords, List.map_cons] at hrest ⊢
      simp only [records, hnext, recordForm, List.intercalate_cons_cons, List.append_assoc,
        List.cons_append, List.nil_append] at hrest ⊢
      rw [← hrest]

theorem json_eq (t : Text) {ss : List Span} (hne : ss ≠ []) :
    json t ss =
      '[' :: Json.closing ((writtenRecords t ss).map Prod.snd) ['\n'] ']' ++ ['\n'] := by
  have hopen : "[\n".toList = ['[', '\n'] := rfl
  have hclose : "\n]\n".toList = ['\n', ']', '\n'] := rfl
  rw [Json.closing, ← cons_records t hne]
  cases ss with
  | nil => exact absurd rfl hne
  | cons s ss =>
    simp only [json, hopen, hclose, List.append_assoc, List.cons_append, List.nil_append]

/-- An array of records is read as the values of the records, in their order. -/
theorem read_json (t : Text) (ss : List Span) :
    Json.read (json t ss) = some (.array (ss.map (recordValue t))) := by
  by_cases hne : ss = []
  · subst hne
    rfl
  · have hfeed : ∀ c ∈ ['\n'], Json.isBlank c = true := List.forall_mem_singleton.mpr rfl
    have hread (depth : Nat) : ∀ p ∈ writtenRecords t ss,
        Json.Reads (Json.readValue (depth + 2)) p.1 p.2 :=
      List.forall_mem_map.mpr fun s _ => reads_recordForm depth t s
    have hopen : ∀ p ∈ writtenRecords t ss, ∃ c cs, Json.skipBlanks p.2 = c :: cs ∧ c ≠ ']' :=
      List.forall_mem_map.mpr fun s _ => skipBlanks_recordForm t s
    have hsome : writtenRecords t ss ≠ [] := mt List.map_eq_nil_iff.mp hne
    have hvalues : (writtenRecords t ss).map Prod.fst = ss.map (recordValue t) := by
      rw [writtenRecords, List.map_map]
      rfl
    rw [json_eq t hne, ← hvalues]
    refine Json.read_eq_some ?_ hfeed
    -- the text is longer than its values are deep
    obtain ⟨depth, hdepth⟩ : ∃ depth,
        ('[' :: Json.closing ((writtenRecords t ss).map Prod.snd) ['\n'] ']' ++ ['\n']).length =
          depth + 3 := by
      refine ⟨_, Nat.eq_add_of_sub_eq ?_ rfl⟩
      simp only [Json.closing, List.length_append, List.length_cons]
      omega
    rw [hdepth]
    exact Json.reads_array hsome (hread depth) hopen hfeed

/-- The spans of an array of records are read back, each with its text. -/
theorem readRecords_json (t : Text) (ss : List Span) :
    readRecords (json t ss) = some (ss.map fun s => (s, s.text t)) := by
  have hmap : (ss.map (recordValue t)).mapM readRecord = some (ss.map fun s => (s, s.text t)) := by
    rw [List.mapM_map]
    exact mapM_eq_some fun s _ => readRecord_recordValue t s
  rw [readRecords, read_json]
  exact hmap

end Listing

/-! ## Outlines -/

namespace Outline

variable {t : Text} {e : OutlineEntry}

/-- No kind of an outline entry holds a tab or a line feed. -/
theorem kind_plain (he : e ∈ entriesIn t) : '\t' ∉ e.kind.toList ∧ '\n' ∉ e.kind.toList := by
  have hall : ∀ c ∈ table, '\t' ∉ c.1.toList ∧ '\n' ∉ c.1.toList := by decide
  obtain ⟨c, hc, he⟩ := mem_entriesIn.mp he
  obtain ⟨m, -, last, hfound⟩ := exists_found hc he
  rw [hfound.kind]
  exact hall c hc

/-- The outline of a text is read back from its lines. -/
theorem exists_readOutline (t : Text) : ∃ entries, outline t = .ok entries ∧
    Listing.readOutline (Listing.outline entries) = some entries := by
  obtain ⟨entries, hrun, hperm, hlines⟩ := exists_lineWise t
  exact ⟨entries, hrun, Listing.readOutline_outline
    (fun e he => kind_plain (hperm.mem_iff.mp he)) fun e he => (hlines.reads e he).inLine⟩

end Outline

/-! ## Passes -/

namespace Job

variable {job : Job} {view : FileView} {t : Text} {s : Session}

theorem passText_spans {spans : List Span} (houtline : job.outline = false)
    (hrun : s.classify t job.region = .ok spans) :
    (job.passText s t).result = .ok (job.write t spans) := by
  simp only [passText, houtline, Bool.false_eq_true, if_false, passSpans, hrun]

theorem passText_outline {entries : List OutlineEntry} (houtline : job.outline = true)
    (hrun : s.outline t = .ok entries) :
    (job.passText s t).result = .ok (Listing.outline entries) := by
  have hpass : passOutline s t = ⟨[], .ok (Listing.outline entries)⟩ := by
    unfold passOutline
    rw [hrun]
  rw [passText, if_pos houtline, hpass]

/-- **What a pass writes loses nothing.** For every input that can be read and every vocabulary that
a session starts with, a pass over spans writes lines from which the spans of the region are read
back, or records from which they are read back with the text under each; and a pass over the outline
writes lines from which its entries are read back. -/
theorem pass_lossless (hsource : job.source view = .ok t)
    (hstart : Session.start job.vocabulary .standard = .ok s) :
    (job.outline = false → ∃ spans, s.classify t job.region = .ok spans ∧
      (job.format = .spans → ∃ output, (job.pass view).result = .ok output ∧
        Listing.readSpans output = some spans) ∧
      (job.format = .json → ∃ output, (job.pass view).result = .ok output ∧
        Listing.readRecords output = some (spans.map fun s => (s, s.text t)))) ∧
    (job.outline = true → ∃ entries output, s.outline t = .ok entries ∧
      (job.pass view).result = .ok output ∧ Listing.readOutline output = some entries) := by
  have hpass : (job.pass view).result = (job.passText s t).result := by
    rw [pass, hsource]
    simp only [hstart]
  rw [hpass]
  refine ⟨fun houtline => ?_, fun houtline => ?_⟩
  · obtain ⟨spans, hrun⟩ := Session.exists_classify hstart t job.region
    have hwrite := passText_spans houtline hrun
    refine ⟨spans, hrun, fun hformat => ?_, fun hformat => ?_⟩
    · rw [write, hformat] at hwrite
      exact ⟨_, hwrite, Listing.readSpans_spans spans⟩
    · rw [write, hformat] at hwrite
      exact ⟨_, hwrite, Listing.readRecords_json t spans⟩
  · obtain ⟨entries, hrun, hread⟩ := Outline.exists_readOutline t
    have hsession : s.outline t = .ok entries := by rw [Session.outline, hrun]
    exact ⟨entries, _, hsession, passText_outline houtline hsession, hread⟩

/-- The theorem holds of a file whose only line is a reminder with a tab in its label, be it asked
for the outline or for records of spans. -/
theorem pass_lossless_tabbed :
    let view : FileView :=
      ⟨fun _ => .ok (.file [47, 47, 84, 79, 68, 79, 9, 92] 1), fun _ => none⟩
    let job (outline : Bool) : Job := {
      input := .ofChars "main.v".toList, output := none, format := .json, region := none,
      outline, vocabulary := .standard, debug := false, verbose := false }
    let t : Text := "//TODO\t\\".toList.toArray
    (∃ (spans : List Span) (output : List Char), ((job false).pass view).result = .ok output ∧
      Listing.readRecords output = some (spans.map fun s => (s, s.text t))) ∧
    ∃ entries output, VSyntax.outline t = .ok entries ∧
      ((job true).pass view).result = .ok output ∧ Listing.readOutline output = some entries := by
  intro view job t
  obtain ⟨classes, hv⟩ := Vocabulary.exists_classes_standard
  have hstart := Session.start_eq_ok hv .standard
  have hsource (outline : Bool) : (job outline).source view = .ok t := rfl
  obtain ⟨spans, -, -, hrecords⟩ := (pass_lossless (hsource false) hstart).1 rfl
  obtain ⟨output, hpass, hread⟩ := hrecords rfl
  obtain ⟨entries, output', hrun, hpass', hread'⟩ := (pass_lossless (hsource true) hstart).2 rfl
  exact ⟨⟨spans, output, hpass, hread⟩, entries, output', hrun, hpass', hread'⟩

end Job

end VSyntax
