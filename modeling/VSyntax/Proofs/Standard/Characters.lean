import VSyntax.Proofs.Standard.Table
import VSyntax.Proofs.Regex.Reading

/-!
# The characters of the standard shapes

The classes of characters that the standard shapes are written with, and which of them exclude each
other. The classes of marks are short lists, so what holds of them is decided character by
character; words and blanks are decided by the tables of character properties, and no blank is in a
word (`isBlank_of_isWordChar`).
-/
namespace VSyntax

namespace Standard

open Regex

variable {c : Char}

/-! ## Classes -/

/-- The characters of operators, separators and delimiters, but the dot. -/
def markChars : List Char := [
  '+', '-', '*', '/', '%', '<', '>', '=', '!', '&', '|', '^', '~', '?', ',', ';', ':', '(', ')',
  '[', ']', '\x7b', '\x7d']

def isMark (c : Char) : Bool := markChars.contains c

def isDot (c : Char) : Bool := c == '.'

/-- The characters in front of the name of an attribute. -/
def isSigil (c : Char) : Bool := ['@', '$'].contains c

/-- The characters that can part a numeral. -/
def isPoint (c : Char) : Bool := ['.', '+', '-'].contains c

/-- An ASCII letter or an underscore. -/
def isNameHead (c : Char) : Bool := c.isUpper || c.isLower || c == '_'

/-- A lowercase ASCII letter or an underscore. -/
def isLowerHead (c : Char) : Bool := c.isLower || c == '_'

/-- A character that is no blank. -/
def isInk (c : Char) : Bool := !Unicode.isBlank c

/-! ## Words -/

theorem isWordChar_of_isDecimal (h : Unicode.isDecimal c = true) : isWordChar c = true := by
  simp only [isWordChar, Unicode.isAlphanumeric, h, Bool.or_true, Bool.true_or]

theorem isUpper_iff : c.isUpper = true ↔ 0x41 ≤ c.toNat ∧ c.toNat ≤ 0x5A := by
  have hdef : c.isUpper = decide (c.val ≥ 'A'.val ∧ c.val ≤ 'Z'.val) := rfl
  rw [hdef, decide_eq_true_eq, ge_iff_le, UInt32.le_iff_toNat_le, UInt32.le_iff_toNat_le]
  exact Iff.rfl

theorem isLower_iff : c.isLower = true ↔ 0x61 ≤ c.toNat ∧ c.toNat ≤ 0x7A := by
  have hdef : c.isLower = (decide (c.val ≥ 'a'.val) && decide (c.val ≤ 'z'.val)) := rfl
  rw [hdef, Bool.and_eq_true, decide_eq_true_eq, decide_eq_true_eq, ge_iff_le,
    UInt32.le_iff_toNat_le, UInt32.le_iff_toNat_le]
  exact Iff.rfl

theorem isWordChar_of_isNameHead (h : isNameHead c = true) : isWordChar c = true := by
  simp only [isNameHead, Bool.or_eq_true, isUpper_iff, isLower_iff] at h
  rcases h with h | h
  · have hlt : c.toNat < 0x80 := by omega
    have hletter : Unicode.isLetter c = true := by
      rw [Unicode.isLetter, if_pos hlt]
      simp only [Bool.or_eq_true, Bool.and_eq_true, decide_eq_true_eq]
      exact h
    simp only [isWordChar, Unicode.isAlphanumeric, hletter, Bool.true_or]
  · simp only [isWordChar, h, Bool.or_true]

/-- The code points of the blanks. -/
def blankCodes : List Nat :=
  List.range' 0x09 5 ++ List.range' 0x1C 5 ++ [0x85, 0xA0, 0x1680] ++ List.range' 0x2000 11 ++
    [0x2028, 0x2029, 0x202F, 0x205F, 0x3000]

theorem mem_blankCodes_of_isBlank (h : Unicode.isBlank c = true) : c.toNat ∈ blankCodes := by
  simp only [blankCodes, List.mem_append, List.mem_range'_1, List.mem_cons, List.not_mem_nil,
    or_false]
  simp only [Unicode.isBlank] at h
  split at h
  · simp only [Bool.or_eq_true, Bool.and_eq_true, decide_eq_true_eq] at h
    omega
  · simp only [Bool.or_eq_true, Bool.and_eq_true, decide_eq_true_eq, beq_iff_eq] at h
    omega

/-- No blank is in a word. -/
theorem isBlank_of_isWordChar (h : isWordChar c = true) : Unicode.isBlank c = false := by
  have hblanks : ∀ n ∈ blankCodes, isWordChar (Char.ofNat n) = false := by decide +kernel
  rw [Bool.eq_false_iff]
  intro hblank
  have := hblanks c.toNat (mem_blankCodes_of_isBlank hblank)
  rw [Char.ofNat_toNat, h] at this
  cases this

/-! ## Marks -/

/-- What holds of every character of a list, holds of a character that it contains. -/
theorem of_contains {l : List Char} {p : Char → Bool} (hall : l.all p = true)
    (h : l.contains c = true) : p c = true :=
  List.all_eq_true.mp hall c (List.contains_iff_mem.mp h)

/-- What holds of no character of a list, holds of none that it contains. -/
theorem not_of_contains {l : List Char} {p : Char → Bool} (hany : l.any p = false)
    (h : l.contains c = true) : p c = false :=
  Bool.eq_false_iff.mpr (List.any_eq_false.mp hany c (List.contains_iff_mem.mp h))

theorem isWordChar_of_isMark (h : isMark c = true) : isWordChar c = false :=
  not_of_contains (by decide) h

theorem isWordChar_of_isSigil (h : isSigil c = true) : isWordChar c = false :=
  not_of_contains (by decide) h

theorem isWordChar_of_isPoint (h : isPoint c = true) : isWordChar c = false :=
  not_of_contains (by decide) h

theorem isWordChar_of_isDot (h : isDot c = true) : isWordChar c = false := by
  rw [beq_iff_eq.mp h]
  decide

theorem isInk_of_isWordChar (h : isWordChar c = true) : isInk c = true := by
  rw [isInk, isBlank_of_isWordChar h]
  rfl

theorem isInk_of_isMark (h : isMark c = true) : isInk c = true :=
  of_contains (by decide) h

theorem isInk_of_isSigil (h : isSigil c = true) : isInk c = true :=
  of_contains (by decide) h

theorem isInk_of_isPoint (h : isPoint c = true) : isInk c = true :=
  of_contains (by decide) h

theorem isInk_of_isDot (h : isDot c = true) : isInk c = true := by
  rw [beq_iff_eq.mp h]
  decide

/-! ## Items -/

theorem wordItems_holds : (fun c => wordItems.any (·.holds c)) = isWordChar := by
  funext c
  simp only [wordItems, List.any_cons, List.any_nil, CharItem.holds, CharKind.holds, Bool.bne_false,
    Bool.or_false]

theorem digitItems_holds : (fun c => digitItems.any (·.holds c)) = Unicode.isDecimal := by
  funext c
  simp only [digitItems, List.any_cons, List.any_nil, CharItem.holds, CharKind.holds,
    Bool.bne_false, Bool.or_false]

theorem blankItems_holds :
    (fun c => [CharItem.kind .blank false].any (·.holds c)) = Unicode.isBlank := by
  funext c
  simp only [List.any_cons, List.any_nil, CharItem.holds, CharKind.holds, Bool.bne_false,
    Bool.or_false]

theorem code_holds (a : Char) : (fun c => [CharItem.code a.toNat].any (·.holds c)) = (· == a) := by
  funext c
  simp only [List.any_cons, List.any_nil, CharItem.holds, Bool.or_false]
  rw [Bool.eq_iff_iff, beq_iff_eq, beq_iff_eq, Char.toNat_inj]

/-- The items of the codes of some characters name these. -/
theorem codes_holds (l : List Char) :
    (fun c => (l.map fun a => CharItem.code a.toNat).any (·.holds c)) = l.contains := by
  funext c
  rw [Bool.eq_iff_iff, List.any_map, List.any_eq_true, List.contains_iff_mem]
  constructor
  · rintro ⟨a, ha, hcode⟩
    rwa [← Char.toNat_inj.mp (beq_iff_eq.mp hcode)] at ha
  · exact fun hc => ⟨c, hc, beq_iff_eq.mpr rfl⟩

theorem sigilItems_holds :
    (fun c => [CharItem.code 0x40, .code 0x24].any (·.holds c)) = isSigil :=
  codes_holds ['@', '$']

theorem openingItems_holds :
    (fun c => [CharItem.code 0x28, .code 0x2C].any (·.holds c)) = ['(', ','].contains :=
  codes_holds ['(', ',']

theorem upperItems_holds : (fun c => upperItems.any (·.holds c)) = Char.isUpper := by
  funext c
  rw [Bool.eq_iff_iff, isUpper_iff]
  simp only [upperItems, List.any_cons, List.any_nil, CharItem.holds, Bool.or_false,
    Bool.and_eq_true, decide_eq_true_eq]

theorem lowerItems_holds : (fun c => lowerItems.any (·.holds c)) = isLowerHead := by
  funext c
  have hcode : (c.toNat == 0x5F) = (c == '_') := by
    rw [Bool.eq_iff_iff, beq_iff_eq, beq_iff_eq, ← Char.toNat_inj]
    exact Iff.rfl
  rw [Bool.eq_iff_iff, isLowerHead, Bool.or_eq_true, isLower_iff]
  simp only [lowerItems, List.any_cons, List.any_nil, CharItem.holds, Bool.or_false, hcode,
    Bool.or_eq_true, Bool.and_eq_true, decide_eq_true_eq]

theorem letterItems_holds : (fun c => letterItems.any (·.holds c)) = isNameHead := by
  funext c
  have hupper := congrFun upperItems_holds c
  have hlower := congrFun lowerItems_holds c
  simp only [isLowerHead] at hlower
  simp only [isNameHead, Bool.or_assoc, ← hupper, ← hlower]
  simp only [letterItems, upperItems, lowerItems, List.any_cons, List.any_nil, Bool.or_false]

end Standard

end VSyntax
