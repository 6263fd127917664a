import Mathlib.Data.List.Basic
import VSyntax.CommandLine.Value
import VSyntax.Proofs.Html.Reading

/-!
# Reading fields

What readers of written output have in common: they part a text at a mark, read the number that
digits spell, and read quoted text character by character up to its closing mark. Each is shown to
give back what was written. That a number holds digits alone (`Numeral.not_mem_ofNat`,
`Numeral.not_mem_hex`) keeps it apart from the marks around it.

A decimal number is read up to the first character that is no digit (`Numeral.readNat_ofNat`), a
hexadecimal one by its width (`Numeral.readHex_hex`). Quoted text is read by whatever reads one
character of it (`readQuoted_flatMap`), so that one induction serves every way of escaping.
-/
namespace VSyntax

variable {mark c : Char} {cs front back rest : List Char} {n w steps : Nat}

/-! ## Characters -/

/-- The character of a code point, and what follows it. -/
def charFrom (n : Nat) (rest : List Char) : Option (Char × List Char) :=
  if n.isValidChar then some (Char.ofNat n, rest) else none

theorem charFrom_toNat (c : Char) (rest : List Char) : charFrom c.toNat rest = some (c, rest) := by
  have hvalid : c.toNat.isValidChar := c.valid
  rw [charFrom, if_pos hvalid, Char.ofNat_toNat]

/-! ## Parting at a mark -/

/-- A text is parted at the first mark. -/
theorem CommandLine.splitAt?_append (h : mark ∉ front) :
    splitAt? mark (front ++ mark :: back) = some (front, back) := by
  induction front with
  | nil => rw [List.nil_append, splitAt?, if_pos rfl]
  | cons c front ih =>
    obtain ⟨hc, hfront⟩ := not_or.mp (mt List.mem_cons.mpr h)
    rw [List.cons_append, splitAt?, if_neg (Ne.symm hc), ih hfront, Option.map_some]

/-! ## Numbers -/

namespace Numeral

/-- The number that the digits at the start of a text spell, and what follows them. -/
def readNat (cs : List Char) : Option (Nat × List Char) :=
  match cs.takeWhile Char.isDigit with
  | [] => none
  | digits => some (Nat.ofDigitChars 10 digits 0, cs.dropWhile Char.isDigit)

theorem isDigit_of_mem_ofNat (h : c ∈ ofNat n) : c.isDigit = true :=
  Nat.isDigit_of_mem_toDigits (by decide) (by decide) h

/-- A written number begins with a digit. -/
theorem exists_ofNat_eq_cons (n : Nat) : ∃ c cs, ofNat n = c :: cs ∧ c.isDigit = true := by
  cases hn : ofNat n with
  | nil => exact absurd hn Nat.toDigits_ne_nil
  | cons c cs => exact ⟨c, cs, rfl, isDigit_of_mem_ofNat (hn ▸ List.mem_cons_self)⟩

theorem not_mem_ofNat (hc : c.isDigit = false) : c ∉ ofNat n := by
  intro h
  rw [isDigit_of_mem_ofNat h] at hc
  cases hc

/-- A written number is read back, up to a character that is no digit. -/
theorem readNat_ofNat (hrest : ∀ c ∈ rest.head?, c.isDigit = false) :
    readNat (ofNat n ++ rest) = some (n, rest) := by
  have hdigits : ∀ c ∈ ofNat n, c.isDigit = true := fun c => isDigit_of_mem_ofNat
  have htake : rest.takeWhile Char.isDigit = [] := by
    cases rest with
    | nil => rfl
    | cons c rest => rw [List.takeWhile_cons_of_neg (by simpa using hrest c rfl)]
  have hdrop : rest.dropWhile Char.isDigit = rest := by
    cases rest with
    | nil => rfl
    | cons c rest => rw [List.dropWhile_cons_of_neg (by simpa using hrest c rfl)]
  rw [readNat, List.takeWhile_append_of_pos hdigits, List.dropWhile_append_of_pos hdigits, htake,
    hdrop, List.append_nil]
  obtain ⟨c, cs, hn, -⟩ := exists_ofNat_eq_cons n
  rw [hn]
  simp only
  rw [← hn, ofNat, Nat.ofDigitChars_toDigits (by decide) (by decide)]

/-- The number that a whole text spells in digits. -/
def natOf? (cs : List Char) : Option Nat :=
  match readNat cs with
  | some (n, []) => some n
  | _ => none

theorem natOf?_ofNat (n : Nat) : natOf? (ofNat n) = some n := by
  have hread : readNat (ofNat n ++ []) = some (n, []) :=
    readNat_ofNat fun c hc => absurd hc (Option.not_mem_none c)
  rw [List.append_nil] at hread
  rw [natOf?, hread]

/-- The number that hexadecimal digits spell behind those of `n`. -/
def hexFrom? (n : Nat) : List Char → Option Nat
  | [] => some n
  | c :: cs =>
    match Html.hexDigit? c with
    | some digit => hexFrom? (16 * n + digit) cs
    | none => none

/-- The number that the next `w` characters spell in hexadecimal digits, and what follows them. -/
def readHex (w : Nat) (cs : List Char) : Option (Nat × List Char) :=
  if w ≤ cs.length then (hexFrom? 0 (cs.take w)).map fun n => (n, cs.drop w) else none

theorem hexDigit?_digitChar (h : n < 16) : Html.hexDigit? n.digitChar = some n := by
  have hdigit : ∀ n < 16, Html.hexDigit? n.digitChar = some n := by
    decide
  exact hdigit n h

theorem hexFrom?_zeros (k : Nat) (cs : List Char) :
    hexFrom? 0 (List.replicate k '0' ++ cs) = hexFrom? 0 cs := by
  induction k with
  | zero => rfl
  | succ k ih => exact ih

/-- The digits of a number are read as that number. -/
theorem hexFrom?_toDigits (n : Nat) (cs : List Char) :
    hexFrom? 0 (Nat.toDigits 16 n ++ cs) = hexFrom? n cs := by
  have hdigit : ∀ n < 16, ∀ m cs, hexFrom? m (n.digitChar :: cs) = hexFrom? (16 * m + n) cs := by
    intro n hn m cs
    rw [hexFrom?, hexDigit?_digitChar hn]
  have hread := Html.read_toDigits id hdigit n cs
  rwa [List.map_id] at hread

/-- A number whose digits have room in a width is written in that width. -/
theorem length_hex (h : (Nat.toDigits 16 n).length ≤ w) : (hex w n).length = w := by
  simp only [hex, zeroPadded, List.length_append, List.length_replicate]
  omega

theorem hexFrom?_hex (w n : Nat) : hexFrom? 0 (hex w n) = some n := by
  have hread := hexFrom?_toDigits n []
  rw [List.append_nil] at hread
  rw [hex, zeroPadded, hexFrom?_zeros, hread, hexFrom?]

/-- A number that is written in a fixed width is read back. -/
theorem readHex_hex (h : (Nat.toDigits 16 n).length ≤ w) (rest : List Char) :
    readHex w (hex w n ++ rest) = some (n, rest) := by
  have hlength := length_hex h
  rw [readHex, if_pos (by simp [hlength]), List.take_left' hlength, List.drop_left' hlength,
    hexFrom?_hex, Option.map_some]

theorem hexDigit?_ne_none {k : Nat} (h : hexFrom? k cs = some n) (hc : c ∈ cs) :
    Html.hexDigit? c ≠ none := by
  induction cs generalizing k with
  | nil => exact absurd hc List.not_mem_nil
  | cons x xs ih =>
    rw [hexFrom?] at h
    cases hx : Html.hexDigit? x with
    | none =>
      rw [hx] at h
      cases h
    | some digit =>
      rw [hx] at h
      rcases List.mem_cons.mp hc with rfl | hxs
      · rw [hx]
        exact Option.some_ne_none digit
      · exact ih h hxs

theorem not_mem_hex (hc : Html.hexDigit? c = none) : c ∉ hex w n := fun h =>
  hexDigit?_ne_none (hexFrom?_hex w n) h hc

end Numeral

/-! ## Quoted text -/

variable {read : List Char → Option (Char × List Char)} {escape : Char → List Char}

/-- The characters up to a closing mark, each as `read` finds it, and what follows the mark; at most
`steps` characters. -/
def readWithin (read : List Char → Option (Char × List Char)) (mark : Char) :
    Nat → List Char → Option (List Char × List Char)
  | _, [] => none
  | steps, c :: cs =>
    if c = mark then some ([], cs)
    else
      match steps with
      | 0 => none
      | steps + 1 =>
        match read (c :: cs) with
        | some (x, rest) => (readWithin read mark steps rest).map fun found =>
            (x :: found.1, found.2)
        | none => none

/-- The text up to a closing mark, and what follows the mark. -/
def readQuoted (read : List Char → Option (Char × List Char)) (mark : Char) (cs : List Char) :
    Option (List Char × List Char) :=
  readWithin read mark cs.length cs

/-- Escaped text is read back if each escaped character is, and none of them looks like the closing
mark. -/
theorem readWithin_flatMap (hread : ∀ c rest, read (escape c ++ rest) = some (c, rest))
    (hopen : ∀ c, ∃ x xs, escape c = x :: xs ∧ x ≠ mark) (hsteps : cs.length ≤ steps) :
    readWithin read mark steps (cs.flatMap escape ++ mark :: rest) = some (cs, rest) := by
  induction cs generalizing steps with
  | nil =>
    rw [List.flatMap_nil, List.nil_append]
    cases steps <;> rw [readWithin, if_pos rfl]
  | cons c cs ih =>
    rw [List.length_cons] at hsteps
    obtain ⟨steps, rfl⟩ : ∃ k, steps = k + 1 := ⟨steps - 1, by omega⟩
    obtain ⟨x, xs, hx, hne⟩ := hopen c
    have hfirst := hread c (cs.flatMap escape ++ mark :: rest)
    rw [List.flatMap_cons, List.append_assoc]
    rw [hx, List.cons_append] at hfirst ⊢
    rw [readWithin, if_neg hne]
    simp only [hfirst, ih (Nat.le_of_succ_le_succ hsteps), Option.map_some]

/-- Escaped text is not shorter than the text. -/
theorem length_le_flatMap (hopen : ∀ c, ∃ x xs, escape c = x :: xs ∧ x ≠ mark) (cs : List Char) :
    cs.length ≤ (cs.flatMap escape).length := by
  induction cs with
  | nil => exact Nat.le_refl 0
  | cons c cs ih =>
    obtain ⟨x, xs, hx, -⟩ := hopen c
    rw [List.flatMap_cons, hx, List.length_append, List.length_cons, List.length_cons]
    omega

theorem readQuoted_flatMap (hread : ∀ c rest, read (escape c ++ rest) = some (c, rest))
    (hopen : ∀ c, ∃ x xs, escape c = x :: xs ∧ x ≠ mark) (cs rest : List Char) :
    readQuoted read mark (cs.flatMap escape ++ mark :: rest) = some (cs, rest) := by
  apply readWithin_flatMap hread hopen
  have hlength := length_le_flatMap hopen cs
  rw [List.length_append]
  omega

end VSyntax
