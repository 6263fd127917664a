import VSyntax.Dump
import VSyntax.Proofs.Quoted

/-!
# Span dumps are read back

A reader of the lines of a dump (`Dump.readLine`): numbers, a category and a quoted text, with as
many blanks between them as the columns take. The lines are parted at every character that may part
lines (`Dump.splitLines`), not at line feeds alone.

Whatever the text under a span holds, its line is one line, and all that it says of the span is read
back (`Dump.map_readLine_render`).
-/
namespace VSyntax.Dump

open Quoted (lineBoundaries lineBoundaries_plain ne_of_isVisible)

/-! ## Lines -/

/-- The lines of a text, parted at every line boundary; a carriage return with a line feed after it
is one boundary, and what is ended by a boundary is a line, even at the end. -/
def splitLines : List Char → List (List Char)
  | [] => []
  | '\r' :: '\n' :: cs => [] :: splitLines cs
  | c :: cs =>
    if c ∈ lineBoundaries then [] :: splitLines cs
    else
      match splitLines cs with
      | [] => [[c]]
      | line :: lines => (c :: line) :: lines

variable {c : Char} {line : List Char}

theorem splitLines_cons (hc : c ∉ lineBoundaries) (cs : List Char) :
    splitLines (c :: cs) =
      match splitLines cs with
      | [] => [[c]]
      | line :: lines => (c :: line) :: lines := by
  rw [splitLines, if_neg hc]
  rintro cs rfl
  exact absurd (by decide) hc

/-- A line without a line boundary is the first of a text in which it is ended. -/
theorem splitLines_append (h : ∀ c ∈ lineBoundaries, c ∉ line) (rest : List Char) :
    splitLines (line ++ '\n' :: rest) = line :: splitLines rest := by
  induction line with
  | nil => rfl
  | cons c line ih =>
    have hc : c ∉ lineBoundaries := fun hc => h c hc List.mem_cons_self
    have hline := ih fun b hb hmem => h b hb (List.mem_cons_of_mem _ hmem)
    rw [List.cons_append, splitLines_cons hc, hline]

theorem splitLines_flatMap {α : Type} {xs : List α} {form : α → List Char}
    (h : ∀ x ∈ xs, ∀ c ∈ lineBoundaries, c ∉ form x) :
    splitLines (xs.flatMap fun x => form x ++ ['\n']) = xs.map form := by
  induction xs with
  | nil => rfl
  | cons x xs ih =>
    obtain ⟨hx, hxs⟩ := List.forall_mem_cons.mp h
    rw [List.flatMap_cons, List.append_assoc, List.singleton_append, splitLines_append hx, ih hxs,
      List.map_cons]

/-! ## Reading a line -/

/-- What a line of a dump says of a span. -/
structure Entry where
  line : Nat
  column : Nat
  start : Nat
  stop : Nat
  category : Category
  text : List Char
  deriving DecidableEq, Repr

/-- A text without the blanks at its start. -/
def skipBlanks (cs : List Char) : List Char := cs.dropWhile (· == ' ')

/-- What a line of a dump says. -/
def readLine (cs : List Char) : Option Entry := do
  let (line, cs) ← Numeral.readNat (skipBlanks cs)
  let cs ← cs.dropPrefix? [':']
  let (column, cs) ← Numeral.readNat cs
  let cs ← (skipBlanks cs).dropPrefix? ['[']
  let (start, cs) ← Numeral.readNat cs
  let cs ← cs.dropPrefix? [',', ' ']
  let (stop, cs) ← Numeral.readNat cs
  let cs ← cs.dropPrefix? [')', ' ']
  let category ← Category.ofName? (String.ofList (cs.takeWhile (· != ' ')))
  let text ← Quoted.read? (skipBlanks (cs.dropWhile (· != ' ')))
  return ⟨line, column, start, stop, category, text⟩

/-- What is to be said of a span of a text: where it begins, its bounds, its category and the text
under it. -/
def Entry.of (source : Text) (s : Span) : Entry :=
  let p := Position.nearest source s.start
  ⟨p.line, p.column, s.start, s.stop, s.category, (s.text source).toList⟩

/-! ## Lines are read back -/

variable {k : Nat}

theorem skipBlanks_replicate (k : Nat) (cs : List Char) :
    skipBlanks (List.replicate k ' ' ++ cs) = skipBlanks cs :=
  List.dropWhile_append_of_pos fun _ hc => beq_iff_eq.mpr (List.eq_of_mem_replicate hc)

theorem skipBlanks_cons (hc : c ≠ ' ') (cs : List Char) : skipBlanks (c :: cs) = c :: cs :=
  List.dropWhile_cons_of_neg (by simpa using hc)

/-- Behind what is padded on the right stands a blank, whatever the width. -/
theorem padRight_append (k : Nat) (cs rest : List Char) :
    ∃ back, padRight k cs ++ ' ' :: rest = cs ++ ' ' :: back ∧
      skipBlanks back = skipBlanks rest := by
  refine ⟨List.replicate (k - cs.length) ' ' ++ rest, ?_, skipBlanks_replicate _ rest⟩
  rw [padRight, List.append_assoc, List.append_cons (List.replicate _ ' '), ← List.replicate_succ',
    List.replicate_succ, List.cons_append]

theorem readNat_ofNat_cons (hc : c.isDigit = false) (n : Nat) (rest : List Char) :
    Numeral.readNat (Numeral.ofNat n ++ c :: rest) = some (n, c :: rest) :=
  Numeral.readNat_ofNat (by rintro x ⟨⟩; exact hc)

/-- A number is read behind its padding. -/
theorem readNat_padLeft (hc : c.isDigit = false) (k n : Nat) (rest : List Char) :
    Numeral.readNat (skipBlanks (padLeft k (Numeral.ofNat n) ++ c :: rest)) =
      some (n, c :: rest) := by
  have hdigits : skipBlanks (Numeral.ofNat n ++ c :: rest) = Numeral.ofNat n ++ c :: rest := by
    obtain ⟨x, xs, hn, hx⟩ := Numeral.exists_ofNat_eq_cons n
    have hblank : x ≠ ' ' := by
      rintro rfl
      cases hx
    rw [hn, List.cons_append, skipBlanks_cons hblank]
  rw [padLeft, List.append_assoc, skipBlanks_replicate, hdigits, readNat_ofNat_cons hc]

/-- The line of a span, without its line end. -/
def lineForm (source : Text) (width : Nat) (s : Span) : List Char :=
  let p := Position.nearest source s.start
  padLeft 4 (Numeral.ofNat p.line) ++ ':' :: padRight 4 (Numeral.ofNat p.column) ++
    [' ', '['] ++ Numeral.ofNat s.start ++ [',', ' '] ++ Numeral.ofNat s.stop ++ [')', ' '] ++
    padRight width s.category.name.toList ++ ' ' :: Quoted.encode (s.text source).toList

/-- The category is read up to the blank behind it. -/
theorem takeWhile_name (category : Category) (rest : List Char) :
    (category.name.toList ++ ' ' :: rest).takeWhile (· != ' ') = category.name.toList ∧
      (category.name.toList ++ ' ' :: rest).dropWhile (· != ' ') = ' ' :: rest := by
  have hplain : ∀ c ∈ category.name.toList, (c != ' ') = true := fun c hc =>
    bne_iff_ne.mpr fun hblank => Html.not_mem_name rfl (hblank ▸ hc)
  constructor
  · rw [List.takeWhile_append_of_pos hplain, List.takeWhile_cons_of_neg (by decide),
      List.append_nil]
  · rw [List.dropWhile_append_of_pos hplain, List.dropWhile_cons_of_neg (by decide)]

/-- A quoted text is read behind blanks. -/
theorem skipBlanks_encode (cs : List Char) : skipBlanks (Quoted.encode cs) = Quoted.encode cs := by
  have hmark : Quoted.mark cs ≠ ' ' := by
    rcases Quoted.mark_eq cs with h | h <;> rw [h] <;> decide
  rw [Quoted.encode, List.cons_append, skipBlanks_cons hmark]

/-- All that a line says of a span is read back. -/
theorem readLine_lineForm (source : Text) (width : Nat) (s : Span) :
    readLine (lineForm source width s) = some (Entry.of source s) := by
  obtain ⟨text, htext, hskip⟩ := padRight_append width s.category.name.toList
    (Quoted.encode (s.text source).toList)
  obtain ⟨bounds, hbounds, hopen⟩ := padRight_append 4
    (Numeral.ofNat (Position.nearest source s.start).column)
    ('[' :: (Numeral.ofNat s.start ++ ',' :: ' ' :: (Numeral.ofNat s.stop ++ ')' :: ' ' ::
      (s.category.name.toList ++ ' ' :: text))))
  obtain ⟨hname, hafter⟩ := takeWhile_name s.category text
  have hblank : ∀ cs, skipBlanks (' ' :: cs) = skipBlanks cs := fun _ => rfl
  have hmark : ∀ (mark : Char) (cs : List Char), (mark :: cs).dropPrefix? [mark] = some cs :=
    fun mark cs => List.dropPrefix?_append_of_beq cs (beq_self_eq_true [mark])
  have hmarks : ∀ (mark : Char) (cs : List Char),
      (mark :: ' ' :: cs).dropPrefix? [mark, ' '] = some cs :=
    fun mark cs => List.dropPrefix?_append_of_beq cs (beq_self_eq_true [mark, ' '])
  simp only [lineForm, List.append_assoc, List.cons_append, List.nil_append, htext, hbounds]
  simp only [readLine, Option.bind_eq_bind, Option.bind_some,
    readNat_padLeft (show ':'.isDigit = false by rfl), hmark,
    readNat_ofNat_cons (show ' '.isDigit = false by rfl), hblank, hopen,
    skipBlanks_cons (show '[' ≠ ' ' by decide),
    readNat_ofNat_cons (show ','.isDigit = false by rfl), hmarks,
    readNat_ofNat_cons (show ')'.isDigit = false by rfl), hname, hafter, String.ofList_toList,
    Html.ofName?_name, hskip, skipBlanks_encode, Quoted.read?_encode]
  rfl

/-! ## Dumps are read back -/

variable {cs : List Char}

theorem not_mem_padLeft (hblank : c ≠ ' ') (h : c ∉ cs) : c ∉ padLeft k cs :=
  List.not_mem_append (fun hc => hblank (List.eq_of_mem_replicate hc)) h

theorem not_mem_padRight (hblank : c ≠ ' ') (h : c ∉ cs) : c ∉ padRight k cs :=
  List.not_mem_append h fun hc => hblank (List.eq_of_mem_replicate hc)

/-- The line of a span is one line, whatever the text under the span holds. -/
theorem not_mem_lineForm (hc : c ∈ lineBoundaries) (source : Text) (width : Nat) (s : Span) :
    c ∉ lineForm source width s := by
  obtain ⟨hdigit, hname, -, -⟩ := lineBoundaries_plain c hc
  have hblank : c ≠ ' ' := ne_of_isVisible hc rfl
  have hnumber {n : Nat} : c ∉ Numeral.ofNat n := Numeral.not_mem_ofNat hdigit
  have hmark {mark : Char} (h : Unicode.isVisible mark = true) : c ≠ mark := ne_of_isVisible hc h
  simp only [lineForm, List.mem_append, List.mem_cons, List.not_mem_nil, not_or, or_false,
    and_assoc]
  exact ⟨not_mem_padLeft hblank hnumber, hmark rfl, not_mem_padRight hblank hnumber, hblank,
    hmark rfl, hnumber, hmark rfl, hblank, hnumber, hmark rfl, hblank,
    not_mem_padRight hblank (Html.not_mem_name hname), hblank, Quoted.not_mem_encode hc _⟩

/-- **A dump loses nothing.** For every text and all spans, the dump has one line for each span, in
their order, wherever lines may be parted; and from each line are read back the line and the column
at which the span begins, its bounds, its category and the text under it, whatever that holds. -/
theorem map_readLine_render (source : Text) (spans : List Span) :
    (splitLines (render source spans)).map readLine =
      spans.map fun s => some (Entry.of source s) := by
  have hlines : splitLines (render source spans) =
      spans.map (lineForm source (categoryWidth spans)) :=
    splitLines_flatMap fun s _ _ hc => not_mem_lineForm hc source _ s
  rw [hlines, List.map_map]
  exact List.map_congr_left fun s _ => readLine_lineForm source _ s

/-- A quoted text may hold both a line end and a mark. -/
example : readLine "   1:5    [4, 7) string \x27\\n\\\x27\"\x27".toList =
    some ⟨1, 5, 4, 7, .string, ['\n', '\x27', '"']⟩ := by
  decide +kernel

end VSyntax.Dump
