import Mathlib.Data.List.TakeWhile
import VSyntax.Json
import VSyntax.Proofs.Fields

/-!
# Reading JSON

A reader of JSON values (`Json.read`): whole numbers, texts, arrays and records, with blanks
wherever they may stand. A text is read character by character: as it stands, by a letter after a
backslash, or by its code units, two of them beyond the basic plane.

A written text is read back whatever it holds (`readText_quote`). Arrays and records are read back
if their items are (`reads_array`, `reads_record`), whatever blanks stand around those: how a value
is laid out over lines is nothing to the reader.
-/
namespace VSyntax.Json

/-- A JSON value. -/
inductive Value where
  | number (n : Nat)
  | text (cs : List Char)
  | array (items : List Value)
  | record (fields : List (List Char × Value))

/-! ## Texts -/

/-- The character of the pair that begins with a code unit, and what follows it. -/
def readSecond (first : Nat) : List Char → Option (Char × List Char)
  | '\\' :: 'u' :: cs =>
    match Numeral.readHex 4 cs with
    | some (second, cs) =>
      if 0xDC00 ≤ second ∧ second < 0xE000 then
        charFrom (0x10000 + (first - 0xD800) * 0x400 + (second - 0xDC00)) cs
      else none
    | none => none
  | _ => none

/-- The character of which one code unit is read, and what follows it. The first code unit of a pair
takes the second with it. -/
def readUnit (unit : Nat) (cs : List Char) : Option (Char × List Char) :=
  if 0xD800 ≤ unit ∧ unit < 0xDC00 then readSecond unit cs else charFrom unit cs

/-- The character that a letter after a backslash stands for. -/
def letterEscape? (c : Char) : Option Char :=
  if c = '"' ∨ c = '\\' ∨ c = '/' then some c
  else if c = 'b' then some '\x08'
  else if c = 'f' then some '\x0c'
  else if c = 'n' then some '\n'
  else if c = 'r' then some '\r'
  else if c = 't' then some '\t'
  else none

/-- The first character of a text, and what follows it. -/
def readChar : List Char → Option (Char × List Char)
  | [] => none
  | '\\' :: 'u' :: cs =>
    match Numeral.readHex 4 cs with
    | some (unit, cs) => readUnit unit cs
    | none => none
  | '\\' :: c :: cs => (letterEscape? c).map fun x => (x, cs)
  | c :: cs => if 0x20 ≤ c.toNat then some (c, cs) else none

/-- The text whose opening quote is read, and what follows it. -/
def readText (cs : List Char) : Option (List Char × List Char) :=
  readQuoted readChar '"' cs

variable {c : Char} {cs rest : List Char} {n : Nat}

theorem readChar_plain (hescape : c ≠ '\\') (hc : 0x20 ≤ c.toNat) (rest : List Char) :
    readChar (c :: rest) = some (c, rest) := by
  unfold readChar
  split
  · next h => cases h
  · next h => cases h; exact absurd rfl hescape
  · next h => cases h; exact absurd rfl hescape
  · next h => cases h; rw [if_pos hc]

theorem length_toDigits (hn : n < 0x10000) : (Nat.toDigits 16 n).length ≤ 4 :=
  (Nat.length_toDigits_le_iff (by decide) (by decide)).mpr hn

theorem readChar_unitEscape (hn : n < 0x10000) (rest : List Char) :
    readChar (unitEscape n ++ rest) = readUnit n rest := by
  have hread := Numeral.readHex_hex (length_toDigits hn) rest
  rw [unitEscape, List.cons_append, List.cons_append]
  simp only [readChar, hread]

theorem readSecond_unitEscape (first : Nat) (hlow : 0xDC00 ≤ n) (hhigh : n < 0xE000)
    (rest : List Char) : readSecond first (unitEscape n ++ rest) =
      charFrom (0x10000 + (first - 0xD800) * 0x400 + (n - 0xDC00)) rest := by
  have hread := Numeral.readHex_hex (n := n) (length_toDigits (by omega)) rest
  rw [unitEscape, List.cons_append, List.cons_append]
  simp only [readSecond, hread, if_pos (And.intro hlow hhigh)]

/-- A written character is read back. -/
theorem readChar_escapeChar (c : Char) (rest : List Char) :
    readChar (escapeChar c ++ rest) = some (c, rest) := by
  have hvalid : c.toNat < 0xD800 ∨ 0xDFFF < c.toNat ∧ c.toNat < 0x110000 := c.valid
  unfold escapeChar
  split
  · next h => subst h; rfl
  split
  · next h => subst h; rfl
  next hescape =>
  split
  · next h => subst h; rfl
  split
  · next h => subst h; rfl
  split
  · next h => subst h; rfl
  split
  · next h =>
    obtain rfl : c = '\x0c' := Char.ext (UInt32.toNat_inj.mp h)
    rfl
  split
  · next h =>
    obtain rfl : c = '\x08' := Char.ext (UInt32.toNat_inj.mp h)
    rfl
  split
  · next h => exact readChar_plain hescape h.1 rest
  split
  · next h =>
    rw [readChar_unitEscape h, readUnit, if_neg (by omega), charFrom_toNat]
  · next h =>
    -- the pair is put together as it was taken apart
    have hpair : 0x10000 + (0xD800 + (c.toNat - 0x10000) / 0x400 - 0xD800) * 0x400 +
        (0xDC00 + (c.toNat - 0x10000) % 0x400 - 0xDC00) = c.toNat := by
      omega
    rw [List.append_assoc, readChar_unitEscape (by omega), readUnit, if_pos (by omega),
      readSecond_unitEscape _ (by omega) (by omega), hpair, charFrom_toNat]

/-- No written character begins as the closing quote. -/
theorem escapeChar_eq_cons (c : Char) : ∃ x xs, escapeChar c = x :: xs ∧ x ≠ '"' := by
  unfold escapeChar
  split
  · exact ⟨_, _, rfl, by decide⟩
  next hquote =>
  iterate 6
    split
    · exact ⟨_, _, rfl, by decide⟩
  split
  · exact ⟨_, _, rfl, hquote⟩
  split
  · exact ⟨_, _, rfl, by decide⟩
  · exact ⟨_, _, rfl, by decide⟩

/-- A written text is read back. -/
theorem readText_quote (cs rest : List Char) :
    readText (cs.flatMap escapeChar ++ '"' :: rest) = some (cs, rest) :=
  readQuoted_flatMap readChar_escapeChar escapeChar_eq_cons cs rest

/-! ## Values -/

/-- A character that may stand between the parts of a value. -/
def isBlank (c : Char) : Bool := c == ' ' || c == '\n' || c == '\r' || c == '\t'

/-- A text without the blanks at its start. -/
def skipBlanks (cs : List Char) : List Char := cs.dropWhile isBlank

/-- Items parted by commas up to a closing mark, at most `steps` of them, and what follows the
mark. -/
def readSeparated {α : Type} (item : List Char → Option (α × List Char)) (close : Char) :
    Nat → List Char → Option (List α × List Char)
  | 0, _ => none
  | steps + 1, cs =>
    match item cs with
    | none => none
    | some (x, rest) =>
      match skipBlanks rest with
      | [] => none
      | c :: rest =>
        if c = ',' then (readSeparated item close steps rest).map fun found =>
          (x :: found.1, found.2)
        else if c = close then some ([x], rest)
        else none

/-- The items up to a closing mark, none or more, and what follows the mark. -/
def readItems {α : Type} (item : List Char → Option (α × List Char)) (close : Char)
    (cs : List Char) : Option (List α × List Char) :=
  match skipBlanks cs with
  | [] => none
  | c :: rest => if c = close then some ([], rest) else readSeparated item close cs.length cs

/-- A name with its value, and what follows them. -/
def readField (value : List Char → Option (Value × List Char)) (cs : List Char) :
    Option ((List Char × Value) × List Char) :=
  match skipBlanks cs with
  | '"' :: cs =>
    match readText cs with
    | some (name, rest) =>
      match skipBlanks rest with
      | ':' :: rest => (value rest).map fun found => ((name, found.1), found.2)
      | _ => none
    | none => none
  | _ => none

/-- The value at the start of a text, and what follows it. Arrays and records stand in one another
less than `depth` deep. -/
def readValue : Nat → List Char → Option (Value × List Char)
  | 0, _ => none
  | depth + 1, cs =>
    match skipBlanks cs with
    | [] => none
    | c :: rest =>
      if c = '"' then (readText rest).map fun found => (.text found.1, found.2)
      else if c = '[' then
        (readItems (readValue depth) ']' rest).map fun found => (.array found.1, found.2)
      else if c = '\x7b' then
        (readItems (readField (readValue depth)) '\x7d' rest).map fun found =>
          (.record found.1, found.2)
      else (Numeral.readNat (c :: rest)).map fun found => (.number found.1, found.2)

/-- The value that a text spells. -/
def read (cs : List Char) : Option Value :=
  match readValue cs.length cs with
  | some (v, rest) => if skipBlanks rest = [] then some v else none
  | none => none

/-! ## Values are read back -/

variable {α : Type} {item : List Char → Option (α × List Char)}
  {value : List Char → Option (Value × List Char)} {x : α} {v : Value} {w blanks : List Char}
  {close : Char} {depth steps : Nat} {ps : List (α × List Char)}

/-- The reader takes a written form for what it stands for, unless a digit follows. -/
def Reads (item : List Char → Option (α × List Char)) (x : α) (w : List Char) : Prop :=
  ∀ rest, (∀ c ∈ rest.head?, c.isDigit = false) → item (w ++ rest) = some (x, rest)

theorem skipBlanks_cons (h : isBlank c = false) (cs : List Char) : skipBlanks (c :: cs) = c :: cs :=
  List.dropWhile_cons_of_neg (by rw [h]; exact Bool.false_ne_true)

theorem skipBlanks_eq_cons (h : skipBlanks w = c :: cs) (rest : List Char) :
    skipBlanks (w ++ rest) = c :: (cs ++ rest) := by
  rw [skipBlanks] at h
  rw [skipBlanks, List.dropWhile_append, h]
  rfl

theorem skipBlanks_append (h : ∀ c ∈ blanks, isBlank c = true) (cs : List Char) :
    skipBlanks (blanks ++ cs) = skipBlanks cs :=
  List.dropWhile_append_of_pos h

theorem isDigit_of_isBlank (h : isBlank c = true) : c.isDigit = false := by
  simp only [isBlank, Bool.or_eq_true, beq_iff_eq] at h
  rcases h with ((rfl | rfl) | rfl) | rfl <;> rfl

/-- Blanks may stand in front of a value. -/
theorem Reads.behind (h : Reads (readValue depth) v w) (hblanks : ∀ c ∈ blanks, isBlank c = true) :
    Reads (readValue depth) v (blanks ++ w) := by
  intro rest hrest
  have hskip : readValue depth (blanks ++ (w ++ rest)) = readValue depth (w ++ rest) := by
    cases depth with
    | zero => rfl
    | succ depth => rw [readValue, readValue, skipBlanks_append hblanks]
  rw [List.append_assoc, hskip, h rest hrest]

theorem reads_text (depth : Nat) (cs : List Char) :
    Reads (readValue (depth + 1)) (.text cs) (quote cs) := by
  intro rest _
  have hskip : skipBlanks (quote cs ++ rest) = '"' :: (cs.flatMap escapeChar ++ '"' :: rest) := by
    simp only [quote, List.append_assoc, List.cons_append, List.nil_append]
    rfl
  rw [readValue, hskip]
  simp only [if_true, readText_quote, Option.map_some]

theorem reads_number (depth n : Nat) :
    Reads (readValue (depth + 1)) (.number n) (Numeral.ofNat n) := by
  intro rest hrest
  have hread := Numeral.readNat_ofNat (n := n) hrest
  obtain ⟨c, cs, hdigits, hdigit⟩ := Numeral.exists_ofNat_eq_cons n
  have hne : ∀ x, x.isDigit = false → c ≠ x := by
    rintro x hx rfl
    rw [hx] at hdigit
    cases hdigit
  have hblank : isBlank c = false := by
    simp only [isBlank, Bool.or_eq_false_iff, beq_eq_false_iff_ne]
    exact ⟨⟨⟨hne _ rfl, hne _ rfl⟩, hne _ rfl⟩, hne _ rfl⟩
  rw [hdigits, List.cons_append] at hread
  rw [hdigits, readValue, List.cons_append, skipBlanks_cons hblank]
  simp only [if_neg (hne '"' rfl), if_neg (hne '[' rfl), if_neg (hne '\x7b' rfl), hread,
    Option.map_some]

/-- A field is read back if its value is. -/
theorem reads_field (name : List Char) (h : Reads value v w)
    (hblanks : ∀ c ∈ blanks, isBlank c = true) :
    Reads (readField value) (name, v) (blanks ++ (quote name ++ ':' :: w)) := by
  intro rest hrest
  have hskip : skipBlanks (quote name ++ ':' :: w ++ rest) =
      '"' :: (name.flatMap escapeChar ++ '"' :: ':' :: (w ++ rest)) := by
    simp only [quote, List.append_assoc, List.cons_append, List.nil_append]
    rfl
  have hcolon : ∀ cs, skipBlanks (':' :: cs) = ':' :: cs := fun _ => rfl
  rw [readField, List.append_assoc, skipBlanks_append hblanks, hskip]
  simp only [readText_quote, hcolon, h rest hrest, Option.map_some]

/-! ### Items parted by commas -/

/-- Behind the last item stands no digit. -/
theorem isDigit_of_mem_head? (hblanks : ∀ c ∈ blanks, isBlank c = true)
    (hclose : close.isDigit = false) (rest : List Char) :
    ∀ c ∈ (blanks ++ close :: rest).head?, c.isDigit = false := by
  cases blanks with
  | nil =>
    rintro c ⟨⟩
    exact hclose
  | cons b blanks =>
    rintro c ⟨⟩
    exact isDigit_of_isBlank (hblanks b List.mem_cons_self)

theorem readSeparated_intercalate (h : ∀ p ∈ ps, Reads item p.1 p.2) (hne : ps ≠ [])
    (hsteps : ps.length ≤ steps) (hblanks : ∀ c ∈ blanks, isBlank c = true)
    (hblank : isBlank close = false) (hdigit : close.isDigit = false) (hcomma : close ≠ ',')
    (rest : List Char) :
    readSeparated item close steps
        ([','].intercalate (ps.map Prod.snd) ++ (blanks ++ close :: rest)) =
      some (ps.map Prod.fst, rest) := by
  induction ps generalizing steps with
  | nil => exact absurd rfl hne
  | cons p ps ih =>
    obtain ⟨steps, rfl⟩ : ∃ k, steps = k + 1 := by
      rw [List.length_cons] at hsteps
      exact ⟨steps - 1, by omega⟩
    have hfirst := h p List.mem_cons_self
    cases ps with
    | nil =>
      have hread := hfirst _ (isDigit_of_mem_head? hblanks hdigit rest)
      simp only [List.map_cons, List.map_nil, List.intercalate_singleton, readSeparated, hread,
        skipBlanks_append hblanks, skipBlanks_cons hblank, if_neg hcomma, if_true]
    | cons q qs =>
      have hrest := ih (fun p hp => h p (List.mem_cons_of_mem _ hp)) (List.cons_ne_nil q qs)
        (Nat.le_of_succ_le_succ hsteps)
      have hread := hfirst (',' :: ([','].intercalate ((q :: qs).map Prod.snd) ++
        (blanks ++ close :: rest))) (by rintro c ⟨⟩; rfl)
      have hskip : ∀ cs, skipBlanks (',' :: cs) = ',' :: cs := fun _ => rfl
      simp only [List.map_cons] at hread hrest ⊢
      simp only [List.intercalate_cons_cons, List.append_assoc, List.cons_append, List.nil_append,
        readSeparated, hread, hskip, if_true, hrest, Option.map_some]

/-- There are at most as many texts as there are characters when commas stand between them, and one
more. -/
theorem length_le_intercalate (ws : List (List Char)) :
    ws.length ≤ ([','].intercalate ws).length + 1 := by
  induction ws with
  | nil => exact Nat.zero_le _
  | cons w ws ih =>
    cases ws with
    | nil => simp only [List.length_cons, List.length_nil, Nat.le_add_left]
    | cons w' ws =>
      simp only [List.intercalate_cons_cons, List.length_append, List.length_cons,
        List.length_nil] at ih ⊢
      omega

theorem exists_intercalate_cons (w : List Char) (ws : List (List Char)) :
    ∃ back, [','].intercalate (w :: ws) = w ++ back := by
  cases ws with
  | nil => exact ⟨[], by rw [List.intercalate_singleton, List.append_nil]⟩
  | cons w' ws => exact ⟨_, by rw [List.intercalate_cons_cons, List.append_assoc]⟩

/-- Items are read back if each is, on lines of their own between the opening and the closing
mark. -/
theorem readItems_intercalate (h : ∀ p ∈ ps, Reads item p.1 p.2) (hne : ps ≠ [])
    (hopen : ∀ p ∈ ps, ∃ c cs, skipBlanks p.2 = c :: cs ∧ c ≠ close)
    (hblanks : ∀ c ∈ blanks, isBlank c = true) (hblank : isBlank close = false)
    (hdigit : close.isDigit = false) (hcomma : close ≠ ',') (rest : List Char) :
    readItems item close ([','].intercalate (ps.map Prod.snd) ++ (blanks ++ close :: rest)) =
      some (ps.map Prod.fst, rest) := by
  have hlength := length_le_intercalate (ps.map Prod.snd)
  have hsteps : ps.length ≤
      ([','].intercalate (ps.map Prod.snd) ++ (blanks ++ close :: rest)).length := by
    rw [List.length_map] at hlength
    simp only [List.length_append, List.length_cons]
    omega
  have hread := readSeparated_intercalate h hne hsteps hblanks hblank hdigit hcomma rest
  cases ps with
  | nil => exact absurd rfl hne
  | cons p ps =>
    obtain ⟨c, cs, hskip, hc⟩ := hopen p List.mem_cons_self
    obtain ⟨back, hback⟩ := exists_intercalate_cons p.2 (ps.map Prod.snd)
    have hfirst := skipBlanks_eq_cons hskip (back ++ (blanks ++ close :: rest))
    rw [← List.append_assoc, ← hback, ← List.map_cons] at hfirst
    rw [readItems, hfirst]
    simp only [if_neg hc, hread]

/-! ### Arrays and records -/

/-- What is written of an array or a record behind its opening mark: the items parted by commas, and
blanks in front of the closing mark. -/
def closing (ws : List (List Char)) (blanks : List Char) (close : Char) : List Char :=
  [','].intercalate ws ++ (blanks ++ [close])

theorem reads_array {ps : List (Value × List Char)} (hne : ps ≠ [])
    (h : ∀ p ∈ ps, Reads (readValue depth) p.1 p.2)
    (hopen : ∀ p ∈ ps, ∃ c cs, skipBlanks p.2 = c :: cs ∧ c ≠ ']')
    (hblanks : ∀ c ∈ blanks, isBlank c = true) :
    Reads (readValue (depth + 1)) (.array (ps.map Prod.fst))
      ('[' :: closing (ps.map Prod.snd) blanks ']') := by
  intro rest _
  have hitems := readItems_intercalate h hne hopen hblanks rfl rfl (by decide) rest
  have hskip : ∀ cs, skipBlanks ('[' :: cs) = '[' :: cs := fun _ => rfl
  rw [readValue, closing, List.cons_append, hskip]
  simp only [List.append_assoc, List.singleton_append, if_neg (show '[' ≠ '"' by decide), if_true,
    hitems, Option.map_some]

theorem reads_record {ps : List ((List Char × Value) × List Char)} (hne : ps ≠ [])
    (h : ∀ p ∈ ps, Reads (readField (readValue depth)) p.1 p.2)
    (hopen : ∀ p ∈ ps, ∃ c cs, skipBlanks p.2 = c :: cs ∧ c ≠ '\x7d')
    (hblanks : ∀ c ∈ blanks, isBlank c = true) :
    Reads (readValue (depth + 1)) (.record (ps.map Prod.fst))
      ('\x7b' :: closing (ps.map Prod.snd) blanks '\x7d') := by
  intro rest _
  have hitems := readItems_intercalate h hne hopen hblanks rfl rfl (by decide) rest
  have hskip : ∀ cs, skipBlanks ('\x7b' :: cs) = '\x7b' :: cs := fun _ => rfl
  rw [readValue, closing, List.cons_append, hskip]
  simp only [List.append_assoc, List.singleton_append, if_neg (show '\x7b' ≠ '"' by decide),
    if_neg (show '\x7b' ≠ '[' by decide), if_true, hitems, Option.map_some]

/-- A line end and `k` blanks, as in front of what stands on a line of its own. -/
def indent (k : Nat) : List Char := '\n' :: List.replicate k ' '

theorem isBlank_of_mem_indent (k : Nat) : ∀ c ∈ indent k, isBlank c = true := by
  intro c hc
  rcases List.mem_cons.mp hc with rfl | hc
  · rfl
  · rw [List.eq_of_mem_replicate hc]
    rfl

/-- A value that is read on its own is what the text spells, if only blanks follow. -/
theorem read_eq_some (h : Reads (readValue (w ++ blanks).length) v w)
    (hblanks : ∀ c ∈ blanks, isBlank c = true) : read (w ++ blanks) = some v := by
  have hskip : skipBlanks blanks = [] := List.dropWhile_eq_nil_iff.mpr hblanks
  have hdigit : ∀ c ∈ blanks.head?, c.isDigit = false := fun c hc =>
    isDigit_of_isBlank (hblanks c (List.mem_of_mem_head? hc))
  rw [read, h blanks hdigit]
  simp only [hskip, if_true]

end VSyntax.Json
