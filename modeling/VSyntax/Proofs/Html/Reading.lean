import VSyntax.Html
import Mathlib.Data.List.Basic

/-!
# Reading HTML back

A reader of classified blocks (`read`). It takes off what stands around the content of a block, and
around the block in a document of its own. The content it reads as marks, one after the other
(`readMark`): a character, written as itself, as an entity or by its hexadecimal code point; the
tag that opens the element of a category; the tag that closes an element. The marks are then put
together (`assemble`): the characters are the text, and an element is a span from the offset where
it opens to the offset where it closes.

No two marks begin alike as they are written, whatever follows (`readMark_write`), so a written list
of marks is read in one way (`readMarks_write`).
-/
namespace VSyntax.Html

/-- What the content of a block is made of. -/
inductive Mark where
  | char (c : Char)
  | opens (category : Category)
  | closes
  deriving DecidableEq, Repr

/-- A mark as it is written. -/
def Mark.write : Mark → List Char
  | .char c => escapeChar c
  | .opens category => elementOpen category
  | .closes => elementClose

/-! ## Characters -/

/-- The value of a hexadecimal digit, in capitals or not. -/
def hexDigit? (c : Char) : Option Nat :=
  if '0' ≤ c ∧ c ≤ '9' then some (c.toNat - '0'.toNat)
  else if 'A' ≤ c ∧ c ≤ 'F' then some (c.toNat - 'A'.toNat + 10)
  else if 'a' ≤ c ∧ c ≤ 'f' then some (c.toNat - 'a'.toNat + 10)
  else none

/-- The number whose hexadecimal digits go on after those of `n` up to a semicolon, and what follows
that. -/
def readHex (n : Nat) : List Char → Option (Nat × List Char)
  | [] => none
  | c :: cs =>
    if c = ';' then some (n, cs)
    else
      match hexDigit? c with
      | some digit => readHex (16 * n + digit) cs
      | none => none

/-- The character of a reference whose ampersand is read, and what follows it. -/
def readReference : List Char → Option (Char × List Char)
  | 'a' :: 'm' :: 'p' :: ';' :: cs => some ('&', cs)
  | 'l' :: 't' :: ';' :: cs => some ('<', cs)
  | 'g' :: 't' :: ';' :: cs => some ('>', cs)
  | '#' :: 'x' :: cs =>
    match readHex 0 cs with
    | some (n, rest) => if n.isValidChar then some (Char.ofNat n, rest) else none
    | none => none
  | _ => none

/-! ## Tags -/

/-- The category of an opening tag that is read up to the name of its class, and what follows it. -/
def readClass (cs : List Char) : Option (Category × List Char) :=
  match Category.ofName? (String.ofList (cs.takeWhile (· != '"'))),
      (cs.dropWhile (· != '"')).dropPrefix? ['"', '>'] with
  | some category, some rest => some (category, rest)
  | _, _ => none

/-- The mark of a tag whose first bracket is read, and what follows it. -/
def readTag (cs : List Char) : Option (Mark × List Char) :=
  match cs.dropPrefix? "/span>".toList with
  | some rest => some (.closes, rest)
  | none =>
    match cs.dropPrefix? "span class=\"v-".toList with
    | some cs => (readClass cs).map fun found => (.opens found.1, found.2)
    | none => none

/-! ## Marks -/

/-- The first mark of a content, and what follows it. -/
def readMark : List Char → Option (Mark × List Char)
  | [] => none
  | c :: cs =>
    if c = '<' then readTag cs
    else if c = '&' then (readReference cs).map fun found => (.char found.1, found.2)
    else some (.char c, cs)

/-- The marks of a content, at most `steps` of them. -/
def readMarks : Nat → List Char → Option (List Mark)
  | _, [] => some []
  | 0, _ :: _ => none
  | steps + 1, c :: cs =>
    match readMark (c :: cs) with
    | some (mark, rest) => (readMarks steps rest).map (mark :: ·)
    | none => none

/-! ## Blocks -/

/-- The characters and the spans that marks stand for, from offset `pos` on. An element that is open
there is given with the offset where it opened; elements do not stand in one another. -/
def assemble : Option (Nat × Category) → Nat → List Mark → Option (List Char × List Span)
  | none, _, [] => some ([], [])
  | some _, _, [] => none
  | opened, pos, .char c :: marks =>
    (assemble opened (pos + 1) marks).map fun read => (c :: read.1, read.2)
  | none, pos, .opens category :: marks => assemble (some (pos, category)) pos marks
  | some _, _, .opens _ :: _ => none
  | some (start, category), pos, .closes :: marks =>
    (assemble none pos marks).map fun read => (read.1, ⟨start, pos, category⟩ :: read.2)
  | none, _, .closes :: _ => none

/-- What stands between two fixed parts. -/
def between? (before after cs : List Char) : Option (List Char) :=
  match cs.dropPrefix? before with
  | some cs => cs.dropSuffix? after
  | none => none

/-- The text and the spans of a block. -/
def readBlock (cs : List Char) : Option (Text × List Span) :=
  match between? blockOpen blockClose cs with
  | some content =>
    match readMarks content.length content with
    | some marks => (assemble none 0 marks).map fun read => (read.1.toArray, read.2)
    | none => none
  | none => none

/-- The text and the spans of a block, by itself or in a document of its own. -/
def read (cs : List Char) : Option (Text × List Span) :=
  match between? documentOpen documentClose cs with
  | some block => readBlock block
  | none => readBlock cs

/-! ## Characters are read back -/

variable {c : Char} {n steps : Nat} {rest : List Char} {category : Category}

/-- The written digit of a number below sixteen is a digit of that value. -/
theorem readHex_digitChar (h : n < 16) (m : Nat) :
    readHex m (n.digitChar.toUpper :: rest) = readHex (16 * m + n) rest := by
  have hdigit : ∀ n < 16, n.digitChar.toUpper ≠ ';' ∧ hexDigit? n.digitChar.toUpper = some n := by
    decide
  obtain ⟨hne, hvalue⟩ := hdigit n h
  rw [readHex, if_neg hne, hvalue]

/-- A reader that takes written digits one by one reads those of a number as that number. -/
theorem read_toDigits {β : Type} {read : Nat → List Char → Option β} (form : Char → Char)
    (h : ∀ n < 16, ∀ m rest, read m (form n.digitChar :: rest) = read (16 * m + n) rest) (n : Nat)
    (rest : List Char) : read 0 ((Nat.toDigits 16 n).map form ++ rest) = read n rest := by
  -- the last digit is split off, and the number in front of it is smaller
  induction n using Nat.strongRecOn generalizing rest with
  | ind n ih =>
    rcases Nat.lt_or_ge n 16 with hlt | hge
    · rw [Nat.toDigits_of_lt_base hlt, List.map_singleton, List.singleton_append, h n hlt,
        Nat.mul_zero, Nat.zero_add]
    · have hfront : n / 16 < n := by omega
      have hlast : n % 16 < 16 := by omega
      rw [Nat.toDigits_of_base_le (by decide) hge, List.map_append, List.append_assoc, ih _ hfront,
        List.map_singleton, List.singleton_append, h _ hlast, Nat.div_add_mod]

theorem readHex_toDigits (n : Nat) :
    readHex 0 ((Nat.toDigits 16 n).map Char.toUpper ++ rest) = readHex n rest :=
  read_toDigits Char.toUpper (fun _ hn m _ => readHex_digitChar hn m) n rest

theorem readReference_code (c : Char) (rest : List Char) :
    readReference ('#' :: 'x' :: ((Nat.toDigits 16 c.toNat).map Char.toUpper ++ ';' :: rest)) =
      some (c, rest) := by
  have hcode : readHex 0 ((Nat.toDigits 16 c.toNat).map Char.toUpper ++ ';' :: rest) =
      some (c.toNat, rest) := by
    rw [readHex_toDigits, readHex, if_pos rfl]
  have hvalid : c.toNat.isValidChar := c.valid
  simp only [readReference, hcode]
  rw [if_pos hvalid, Char.ofNat_toNat]

/-- A written character is read back. -/
theorem readMark_escapeChar (c : Char) (rest : List Char) :
    readMark (escapeChar c ++ rest) = some (.char c, rest) := by
  unfold escapeChar
  split
  · next h => subst h; rfl
  next hamp =>
  split
  · next h => subst h; rfl
  next hless =>
  split
  · next h => subst h; rfl
  split
  · rw [List.singleton_append, readMark, if_neg hless, if_neg hamp]
  · simp only [List.append_assoc, List.cons_append, List.nil_append]
    rw [readMark, if_neg (by decide), if_pos rfl, readReference_code, Option.map_some]

/-! ## Tags are read back -/

theorem ofName?_name (category : Category) : Category.ofName? category.name = some category := by
  cases category <;> decide +kernel

theorem mem_categories (category : Category) : category ∈ Category.all := by
  cases category <;> decide

/-- The name of a category holds lowercase letters and underscores alone. -/
theorem not_mem_name (hc : (c.isLower || c == '_') = false) : c ∉ category.name.toList := by
  have hall : ∀ category ∈ Category.all,
      category.name.toList.all (fun c => c.isLower || c == '_') = true := by
    decide +kernel
  intro h
  have hplain := List.all_eq_true.mp (hall category (mem_categories category)) c h
  rw [hc] at hplain
  cases hplain

/-- No name of a category holds a quotation mark. -/
theorem bne_quote_of_mem_name (hc : c ∈ category.name.toList) : (c != '"') = true :=
  bne_iff_ne.mpr fun hquote => not_mem_name rfl (hquote ▸ hc)

theorem readClass_name :
    readClass (category.name.toList ++ '"' :: '>' :: rest) = some (category, rest) := by
  have hplain : ∀ c ∈ category.name.toList, (c != '"') = true := fun c hc =>
    bne_quote_of_mem_name hc
  have hname : (category.name.toList ++ '"' :: '>' :: rest).takeWhile (· != '"') =
      category.name.toList := by
    rw [List.takeWhile_append_of_pos hplain, List.takeWhile_cons_of_neg (by decide),
      List.append_nil]
  have hafter : (category.name.toList ++ '"' :: '>' :: rest).dropWhile (· != '"') =
      '"' :: '>' :: rest := by
    rw [List.dropWhile_append_of_pos hplain, List.dropWhile_cons_of_neg (by decide)]
  have htag : ('"' :: '>' :: rest).dropPrefix? ['"', '>'] = some rest :=
    List.dropPrefix?_append_of_beq rest (beq_self_eq_true ['"', '>'])
  rw [readClass, hname, hafter, htag, String.ofList_toList, ofName?_name]

theorem readTag_close : readTag ("/span>".toList ++ rest) = some (.closes, rest) := by
  rw [readTag, List.dropPrefix?_append_of_beq rest (beq_self_eq_true _)]

theorem readTag_open :
    readTag ("span class=\"v-".toList ++ (category.name.toList ++ '"' :: '>' :: rest)) =
      some (.opens category, rest) := by
  have hnot : ∀ cs, ("span class=\"v-".toList ++ cs).dropPrefix? "/span>".toList = none :=
    fun _ => rfl
  rw [readTag, hnot, List.dropPrefix?_append_of_beq _ (beq_self_eq_true _)]
  simp only [readClass_name, Option.map_some]

/-- A written mark is read back, whatever follows it. -/
theorem readMark_write (mark : Mark) (rest : List Char) :
    readMark (mark.write ++ rest) = some (mark, rest) := by
  cases mark with
  | char c => exact readMark_escapeChar c rest
  | opens category =>
    have hback : "\">".toList ++ rest = '"' :: '>' :: rest := rfl
    have hwritten : elementOpen category ++ rest =
        "<span class=\"v-".toList ++ (category.name.toList ++ '"' :: '>' :: rest) := by
      unfold elementOpen
      rw [List.append_assoc, List.append_assoc, hback]
    have hfront : ∀ cs, "<span class=\"v-".toList ++ cs = '<' :: ("span class=\"v-".toList ++ cs) :=
      fun _ => rfl
    rw [Mark.write, hwritten, hfront, readMark, if_pos rfl, readTag_open]
  | closes =>
    have hwritten : elementClose ++ rest = '<' :: ("/span>".toList ++ rest) := rfl
    rw [Mark.write, hwritten, readMark, if_pos rfl, readTag_close]

/-! ## Lists of marks are read back -/

theorem write_ne_nil (mark : Mark) : mark.write ≠ [] := by
  intro h
  have hread := readMark_write mark []
  rw [h] at hread
  cases hread

/-- Written marks are as many characters at least. -/
theorem length_le_write (marks : List Mark) : marks.length ≤ (marks.flatMap Mark.write).length := by
  induction marks with
  | nil => exact Nat.le_refl 0
  | cons mark marks ih =>
    have hpos := List.length_pos_iff.mpr (write_ne_nil mark)
    rw [List.flatMap_cons, List.length_append, List.length_cons]
    omega

/-- A written list of marks is read back. -/
theorem readMarks_write {marks : List Mark} (h : marks.length ≤ steps) :
    readMarks steps (marks.flatMap Mark.write) = some marks := by
  induction marks generalizing steps with
  | nil =>
    cases steps with
    | zero => rfl
    | succ steps => rfl
  | cons mark marks ih =>
    obtain ⟨steps, rfl⟩ : ∃ k, steps = k + 1 := ⟨steps - 1, by simp only [List.length_cons] at h; omega⟩
    have hread := readMark_write mark (marks.flatMap Mark.write)
    rw [List.flatMap_cons]
    cases hwritten : mark.write ++ marks.flatMap Mark.write with
    | nil => exact absurd (List.append_eq_nil_iff.mp hwritten).1 (write_ne_nil mark)
    | cons c cs =>
      rw [hwritten] at hread
      rw [readMarks, hread]
      simp only [ih (Nat.le_of_succ_le_succ h), Option.map_some]

/-! ## Blocks are read back -/

theorem between?_append (before content after : List Char) :
    between? before after (before ++ content ++ after) = some content := by
  have hbefore : (before ++ (content ++ after)).dropPrefix? before = some (content ++ after) :=
    List.dropPrefix?_append_of_beq _ (beq_self_eq_true _)
  have hafter : (content ++ after).dropSuffix? after = some content :=
    List.dropSuffix?_eq_some_iff.mpr ⟨after, rfl, beq_self_eq_true _⟩
  rw [between?, List.append_assoc, hbefore]
  exact hafter

/-- A block of written marks is read as what the marks stand for. -/
theorem readBlock_write (marks : List Mark) :
    readBlock (blockOpen ++ marks.flatMap Mark.write ++ blockClose) =
      (assemble none 0 marks).map fun read => (read.1.toArray, read.2) := by
  rw [readBlock, between?_append]
  simp only [readMarks_write (length_le_write marks)]

end VSyntax.Html
