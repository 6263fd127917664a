import VSyntax.Proofs.Classify.Order
import VSyntax.Proofs.Html.Reading

/-!
# Nothing is lost in HTML

A rendered text can be read back (`read_render`): the reader finds the text, whatever characters and
whatever markup it holds, and the spans with their offsets and categories, be it in a block or in a
document of its own. So no two texts and no two lists of spans are rendered alike, and all of it is
plain ASCII (`render_lossless`).

The content of a block is the written form of a list of marks (`content_eq`), and the marks stand
for the text and its spans (`assemble_marks`): one walk over the spans says each.
-/
namespace VSyntax.Html

variable {source : Text} {spans : List Span} {pos : Nat} {c : Char}

/-! ## The marks of a text -/

/-- The marks of the text from `pos` on, with an element for each span. -/
def marks (source : Text) : List Span → Nat → List Mark
  | [], pos => (source.slice pos source.size).toList.map .char
  | s :: spans, pos =>
    (source.slice pos s.start).toList.map .char ++ .opens s.category ::
      ((s.text source).toList.map .char ++ .closes :: marks source spans s.stop)

/-- A text is written character by character. -/
theorem write_chars (t : Text) : (t.toList.map Mark.char).flatMap Mark.write = escape t :=
  List.flatMap_map Mark.char Mark.write t.toList

/-- The content of a block is its marks, written one after the other. -/
theorem content_eq : content source spans pos = (marks source spans pos).flatMap Mark.write := by
  induction spans generalizing pos with
  | nil => exact (write_chars _).symm
  | cons s spans ih =>
    simp only [content, marks, element, ih, List.flatMap_append, List.flatMap_cons, write_chars,
      Mark.write, List.append_assoc]

/-! ## What the marks stand for -/

theorem assemble_char {opened : Option (Nat × Category)} {ms : List Mark} :
    assemble opened pos (.char c :: ms) =
      (assemble opened (pos + 1) ms).map fun read => (c :: read.1, read.2) := by
  cases opened with
  | none => rfl
  | some element => rfl

/-- Characters belong to the text, and what follows them begins that much later. -/
theorem assemble_chars {opened : Option (Nat × Category)} {ms : List Mark} (cs : List Char) :
    assemble opened pos (cs.map .char ++ ms) =
      (assemble opened (pos + cs.length) ms).map fun read => (cs ++ read.1, read.2) := by
  induction cs generalizing pos with
  | nil => exact Option.map_id'.symm
  | cons c cs ih =>
    have hpos : pos + 1 + cs.length = pos + (c :: cs).length := by
      rw [List.length_cons]
      omega
    rw [List.map_cons, List.cons_append, assemble_char, ih, Option.map_map, hpos]
    rfl

/-- The marks of a stretch of the text, and the marks after it. -/
theorem assemble_slice (opened : Option (Nat × Category)) (ms : List Mark) {stop : Nat}
    (hpos : pos ≤ stop) (hstop : stop ≤ source.size) :
    assemble opened pos ((source.slice pos stop).toList.map .char ++ ms) =
      (assemble opened stop ms).map fun read =>
        ((source.slice pos stop).toList ++ read.1, read.2) := by
  have hlength : pos + (source.slice pos stop).toList.length = stop := by
    simp only [Text.slice, Array.length_toList, Array.size_extract]
    omega
  rw [assemble_chars, hlength]

/-- The marks of a text with ordered spans stand for the text and the spans. -/
theorem assemble_marks (hpos : pos ≤ source.size) (h : OrderedSpans pos source.size spans) :
    assemble none pos (marks source spans pos) =
      some ((source.slice pos source.size).toList, spans) := by
  induction spans generalizing pos with
  | nil =>
    have hchars := assemble_slice none [] hpos (Nat.le_refl _)
    rw [List.append_nil] at hchars
    rw [marks, hchars, assemble, Option.map_some, List.append_nil]
  | cons s spans ih =>
    have hnonempty := h.nonempty s List.mem_cons_self
    obtain ⟨hstart, hstop⟩ := h.between s List.mem_cons_self
    have hle : s.start ≤ s.stop := Nat.le_of_lt hnonempty
    have hgap : (source.slice pos source.size).toList = (source.slice pos s.start).toList ++
        ((source.slice s.start s.stop).toList ++ (source.slice s.stop source.size).toList) := by
      rw [← Text.slice_append hle hstop, ← Text.slice_append hstart (Nat.le_trans hle hstop)]
    rw [marks, assemble_slice _ _ hstart (Nat.le_trans hle hstop), assemble, Span.text,
      assemble_slice _ _ hle hstop, assemble, ih hstop h.tail, hgap]
    rfl

/-! ## Rendered texts are read back -/

theorem read_block (h : OrderedSpans 0 source.size spans) :
    readBlock (block source spans) = some (source, spans) := by
  have hmarks := assemble_marks (Nat.zero_le _) h
  have hwhole : (source.slice 0 source.size).toList.toArray = source := by
    rw [Array.toArray_toList, Text.slice, Array.extract_size]
  rw [block, content_eq, readBlock_write, hmarks, Option.map_some, hwhole]

/-- **A rendered text is read back**, as a block and as a document. -/
theorem read_render (h : OrderedSpans 0 source.size spans) (standalone : Bool) :
    read (render source spans standalone) = some (source, spans) := by
  cases standalone with
  | true =>
    rw [render, if_pos rfl, read, between?_append]
    exact read_block h
  | false =>
    -- a block by itself does not begin as a document does
    have hblock : between? documentOpen documentClose (block source spans) = none := by
      rw [block, List.append_assoc]
      rfl
    rw [render, if_neg Bool.false_ne_true, read, hblock]
    exact read_block h

/-! ## Plain ASCII -/

theorem toNat_lt_of_mem_toDigits (n : Nat) :
    ∀ c ∈ (Nat.toDigits 16 n).map Char.toUpper, c.toNat < 0x80 := by
  have hdigit : ∀ n < 16, n.digitChar.toUpper.toNat < 0x80 := by
    decide
  induction n using Nat.strongRecOn with
  | ind n ih =>
    intro c hc
    rcases Nat.lt_or_ge n 16 with hlt | hge
    · rw [Nat.toDigits_of_lt_base hlt, List.map_singleton, List.mem_singleton] at hc
      exact hc ▸ hdigit n hlt
    · rw [Nat.toDigits_of_base_le (by decide) hge, List.map_append, List.mem_append,
        List.map_singleton, List.mem_singleton] at hc
      rcases hc with hc | rfl
      · exact ih (n / 16) (by omega) c hc
      · exact hdigit (n % 16) (by omega)

/-- Whether characters are plain ASCII. -/
def isAscii (cs : List Char) : Bool := cs.all fun c => decide (c.toNat < 0x80)

theorem toNat_lt_of_isAscii {cs : List Char} (h : isAscii cs = true) (hc : c ∈ cs) :
    c.toNat < 0x80 :=
  of_decide_eq_true (List.all_eq_true.mp h c hc)

theorem toNat_lt_of_mem_escapeChar {x : Char} (h : x ∈ escapeChar c) : x.toNat < 0x80 := by
  unfold escapeChar at h
  split at h
  · exact toNat_lt_of_isAscii rfl h
  split at h
  · exact toNat_lt_of_isAscii rfl h
  split at h
  · exact toNat_lt_of_isAscii rfl h
  split at h
  · next hlt => exact List.mem_singleton.mp h ▸ hlt
  · rcases List.mem_append.mp h with h | h
    · rcases List.mem_append.mp h with h | h
      · exact toNat_lt_of_isAscii rfl h
      · exact toNat_lt_of_mem_toDigits c.toNat x h
    · exact toNat_lt_of_isAscii rfl h

/-- A written mark is plain ASCII. -/
theorem toNat_lt_of_mem_write {mark : Mark} (h : c ∈ mark.write) : c.toNat < 0x80 := by
  cases mark with
  | char x => exact toNat_lt_of_mem_escapeChar h
  | opens category =>
    have hall : (Category.all.all fun category => isAscii (elementOpen category)) = true := by
      decide +kernel
    have hopen := List.all_eq_true.mp hall category (mem_categories category)
    exact toNat_lt_of_isAscii hopen h
  | closes =>
    have hclose : isAscii elementClose = true := by
      decide +kernel
    exact toNat_lt_of_isAscii hclose h

/-- A rendered text is plain ASCII. -/
theorem toNat_lt_of_mem_render {standalone : Bool} (h : c ∈ render source spans standalone) :
    c.toNat < 0x80 := by
  have hwrapper : ∀ part ∈ [documentOpen, documentClose, blockOpen, blockClose],
      isAscii part = true := by
    decide +kernel
  have hblock : ∀ c ∈ block source spans, c.toNat < 0x80 := by
    intro c hc
    simp only [block, content_eq, List.mem_append, List.mem_flatMap] at hc
    rcases hc with (hc | ⟨mark, -, hc⟩) | hc
    · exact toNat_lt_of_isAscii (hwrapper blockOpen (by simp)) hc
    · exact toNat_lt_of_mem_write hc
    · exact toNat_lt_of_isAscii (hwrapper blockClose (by simp)) hc
  cases standalone with
  | false => exact hblock c h
  | true =>
    rw [render, if_pos rfl, List.mem_append, List.mem_append] at h
    rcases h with (h | h) | h
    · exact toNat_lt_of_isAscii (hwrapper documentOpen (by simp)) h
    · exact hblock c h
    · exact toNat_lt_of_isAscii (hwrapper documentClose (by simp)) h

/-! ## Nothing is lost -/

/-- **Rendering loses nothing.** For every text and all non-empty spans that stand one after the
other in it, in a block and in a document of its own: what is written is plain ASCII, the reader
finds the text and the spans in it, and nothing else is rendered like this. -/
theorem render_lossless (source : Text) (h : OrderedSpans 0 source.size spans)
    (standalone : Bool) :
    (∀ c ∈ render source spans standalone, c.toNat < 0x80) ∧
      read (render source spans standalone) = some (source, spans) ∧
      ∀ source' spans' standalone', OrderedSpans 0 source'.size spans' →
        render source' spans' standalone' = render source spans standalone →
          source' = source ∧ spans' = spans := by
  refine ⟨fun c hc => toNat_lt_of_mem_render hc, read_render h standalone, ?_⟩
  intro source' spans' standalone' h' hsame
  have hread := read_render h' standalone'
  rw [hsame, read_render h standalone] at hread
  cases hread
  exact ⟨rfl, rfl⟩

/-- The theorem holds of a text that looks like markup, with an entity of its own and a character
that is two code units. -/
theorem render_lossless_markup :
    OrderedSpans 0 (Text.ofString "</code>&lt;😀").size [⟨2, 6, .keyword⟩, ⟨6, 12, .string⟩] ∧
      read (render (Text.ofString "</code>&lt;😀") [⟨2, 6, .keyword⟩, ⟨6, 12, .string⟩] true) =
        some (Text.ofString "</code>&lt;😀", [⟨2, 6, .keyword⟩, ⟨6, 12, .string⟩]) := by
  have h : OrderedSpans 0 (Text.ofString "</code>&lt;😀").size
      [⟨2, 6, .keyword⟩, ⟨6, 12, .string⟩] := ⟨by decide, by decide, by decide⟩
  exact ⟨h, (render_lossless (Text.ofString "</code>&lt;😀") h true).2.1⟩

example :
    content (Text.ofString "</code>&lt;😀") [⟨2, 6, .keyword⟩, ⟨6, 12, .string⟩] 0 =
      ("&lt;/<span class=\"v-keyword\">code</span><span class=\"v-string\">&gt;&amp;lt;" ++
        "&#x1F600;</span>").toList := by
  decide +kernel

end VSyntax.Html
