import VSyntax.Quoted
import VSyntax.Proofs.Fields

/-!
# Reading quoted texts

A reader of the quoted form of a text (`Quoted.read?`): it takes off the marks and undoes the
escapes. Whatever a text holds, its quoted form is read back (`Quoted.read?_encode`), and it stays
on one line, however lines are parted (`Quoted.not_mem_encode`).
-/
namespace VSyntax.Quoted

variable {m c : Char} {cs rest : List Char}

/-! ## Reading -/

/-- The character that is written by its code point in `w` hexadecimal digits, and what follows
them. -/
def readCode (w : Nat) (cs : List Char) : Option (Char × List Char) :=
  match Numeral.readHex w cs with
  | some (n, rest) => charFrom n rest
  | none => none

/-- The character of an escape behind its backslash, and what follows it. -/
def readEscape : List Char → Option (Char × List Char)
  | [] => none
  | c :: cs =>
    if c = '\x27' ∨ c = '"' ∨ c = '\\' then some (c, cs)
    else if c = 'n' then some ('\n', cs)
    else if c = 'r' then some ('\r', cs)
    else if c = 't' then some ('\t', cs)
    else if c = 'x' then readCode 2 cs
    else if c = 'u' then readCode 4 cs
    else if c = 'U' then readCode 8 cs
    else none

/-- The first character inside the marks, and what follows it. -/
def readChar : List Char → Option (Char × List Char)
  | [] => none
  | c :: cs => if c = '\\' then readEscape cs else some (c, cs)

/-- The text of a quoted form, which ends with its closing mark. -/
def read? : List Char → Option (List Char)
  | [] => none
  | m :: cs =>
    if m = '\x27' ∨ m = '"' then
      match readQuoted readChar m cs with
      | some (s, []) => some s
      | _ => none
    else none

/-! ## Quoted texts are read back -/

theorem mark_eq (s : List Char) : mark s = '\x27' ∨ mark s = '"' := by
  rw [mark]
  split
  · exact .inr rfl
  · exact .inl rfl

theorem readEscape_letter (h : c = '\x27' ∨ c = '"' ∨ c = '\\') (rest : List Char) :
    readEscape (c :: rest) = some (c, rest) := by
  rw [readEscape, if_pos h]

theorem readChar_code (cs : List Char) :
    readChar ('\\' :: 'x' :: cs) = readCode 2 cs ∧ readChar ('\\' :: 'u' :: cs) = readCode 4 cs ∧
      readChar ('\\' :: 'U' :: cs) = readCode 8 cs :=
  ⟨rfl, rfl, rfl⟩

/-- What is written by its code point is read back. -/
theorem readChar_escapeCode (c : Char) (rest : List Char) :
    readChar (escapeCode c ++ rest) = some (c, rest) := by
  have hvalid : c.toNat < 0xD800 ∨ 0xDFFF < c.toNat ∧ c.toNat < 0x110000 := c.valid
  have hcode {w : Nat} (hw : 0 < w) (hc : c.toNat < 16 ^ w) :
      readCode w (Numeral.hex w c.toNat ++ rest) = some (c, rest) := by
    have hlength := (Nat.length_toDigits_le_iff (by decide) hw).mpr hc
    rw [readCode, Numeral.readHex_hex hlength]
    exact charFrom_toNat c rest
  unfold escapeCode
  split
  · next h =>
    rw [List.cons_append, List.cons_append, (readChar_code _).1]
    exact hcode (by decide) h
  split
  · next h =>
    rw [List.cons_append, List.cons_append, (readChar_code _).2.1]
    exact hcode (by decide) h
  · rw [List.cons_append, List.cons_append, (readChar_code _).2.2]
    exact hcode (by decide) (by omega)

/-- A written character is read back. -/
theorem readChar_escape (hm : m = '\x27' ∨ m = '"') (c : Char) (rest : List Char) :
    readChar (escape m c ++ rest) = some (c, rest) := by
  unfold escape
  split
  · next h =>
    have hletter : c = '\x27' ∨ c = '"' ∨ c = '\\' := by
      rcases h with rfl | rfl
      · exact hm.imp_right .inl
      · exact .inr (.inr rfl)
    exact readEscape_letter hletter rest
  next hplain =>
  split
  · next h => subst h; rfl
  split
  · next h => subst h; rfl
  split
  · next h => subst h; rfl
  split
  · rw [List.singleton_append, readChar, if_neg (not_or.mp hplain).2]
  · exact readChar_escapeCode c rest

/-- No written character begins as the closing mark. -/
theorem escape_eq_cons (hm : m = '\x27' ∨ m = '"') (c : Char) :
    ∃ x xs, escape m c = x :: xs ∧ x ≠ m := by
  have hbackslash : '\\' ≠ m := by
    rcases hm with rfl | rfl <;> decide
  unfold escape
  split
  · exact ⟨_, _, rfl, hbackslash⟩
  next hplain =>
  iterate 3
    split
    · exact ⟨_, _, rfl, hbackslash⟩
  split
  · exact ⟨_, _, rfl, (not_or.mp hplain).1⟩
  unfold escapeCode
  iterate 2
    split
    · exact ⟨_, _, rfl, hbackslash⟩
  exact ⟨_, _, rfl, hbackslash⟩

/-- The quoted form of a text is read back. -/
theorem read?_encode (s : List Char) : read? (encode s) = some s := by
  have hm := mark_eq s
  have hread := readQuoted_flatMap (readChar_escape hm) (escape_eq_cons hm) s []
  rw [encode, List.cons_append, read?, if_pos hm, hread]

/-! ## Lines -/

/-- The characters at which a text may be parted into lines. -/
def lineBoundaries : List Char :=
  ['\n', '\r', '\x0b', '\x0c', '\x1c', '\x1d', '\x1e', '\x85', '\u2028', '\u2029']

/-- No character that parts lines is a digit, a lowercase letter or visible at all. -/
theorem lineBoundaries_plain : ∀ c ∈ lineBoundaries,
    c.isDigit = false ∧ (c.isLower || c == '_') = false ∧ Unicode.isVisible c = false ∧
      Html.hexDigit? c = none := by
  have hall : (lineBoundaries.all fun c =>
      decide (c.isDigit = false ∧ (c.isLower || c == '_') = false ∧
        Unicode.isVisible c = false ∧ Html.hexDigit? c = none)) = true := by
    decide +kernel
  exact fun c hc => of_decide_eq_true (List.all_eq_true.mp hall c hc)

theorem ne_of_isVisible (hc : c ∈ lineBoundaries) {x : Char} (hx : Unicode.isVisible x = true) :
    c ≠ x := by
  rintro rfl
  rw [(lineBoundaries_plain c hc).2.2.1] at hx
  cases hx

theorem not_mem_escapeCode (hc : c ∈ lineBoundaries) (x : Char) : c ∉ escapeCode x := by
  obtain ⟨-, -, -, hdigit⟩ := lineBoundaries_plain c hc
  have hcode {kind : Char} {w : Nat} (hkind : Unicode.isVisible kind = true) :
      c ∉ '\\' :: kind :: Numeral.hex w x.toNat :=
    List.not_mem_cons_of_ne_of_not_mem (ne_of_isVisible hc rfl)
      (List.not_mem_cons_of_ne_of_not_mem (ne_of_isVisible hc hkind) (Numeral.not_mem_hex hdigit))
  unfold escapeCode
  split
  · exact hcode rfl
  split
  · exact hcode rfl
  · exact hcode rfl

theorem not_mem_escape (hm : m = '\x27' ∨ m = '"') (hc : c ∈ lineBoundaries) (x : Char) :
    c ∉ escape m x := by
  have hletter {letter : Char} (h : Unicode.isVisible letter = true) : c ∉ ['\\', letter] :=
    List.not_mem_cons_of_ne_of_not_mem (ne_of_isVisible hc rfl)
      (mt List.mem_singleton.mp (ne_of_isVisible hc h))
  unfold escape
  split
  · next h =>
    refine hletter ?_
    rcases h with rfl | rfl
    · rcases hm with rfl | rfl <;> rfl
    · rfl
  iterate 3
    split
    · exact hletter rfl
  split
  · next h => exact mt List.mem_singleton.mp (ne_of_isVisible hc h)
  · exact not_mem_escapeCode hc x

/-- A quoted form stays on one line. -/
theorem not_mem_encode (hc : c ∈ lineBoundaries) (s : List Char) : c ∉ encode s := by
  have hm := mark_eq s
  have hmark : c ≠ mark s := by
    refine ne_of_isVisible hc ?_
    rcases hm with hm | hm <;> rw [hm] <;> rfl
  rw [encode, List.cons_append]
  refine List.not_mem_cons_of_ne_of_not_mem hmark (List.not_mem_append ?_ ?_)
  · intro h
    obtain ⟨x, -, hx⟩ := List.mem_flatMap.mp h
    exact not_mem_escape hm hc x hx
  · exact mt List.mem_singleton.mp hmark

end VSyntax.Quoted
