import VSyntax.Numeral

/-!
# UTF-8

The encoding of characters in files. Reading goes byte by byte and remembers the character that is
being read; the first byte that cannot continue it ends the reading, and the fault names the longest
part that could still have become a character.
-/
namespace VSyntax.Utf8

/-! ## Faults -/

/-- Why bytes are no character. -/
inductive Reason where
  | invalidStart
  | invalidContinuation
  | unexpectedEnd
  deriving DecidableEq, Repr

/-- The words for a reason. -/
def Reason.message : Reason → String
  | .invalidStart => "invalid start byte"
  | .invalidContinuation => "invalid continuation byte"
  | .unexpectedEnd => "unexpected end of data"

/-- The first bytes of a file that are no character: where they stand, how many they are, and the
first of them. -/
structure Malformed where
  start : Nat
  length : Nat
  first : UInt8
  reason : Reason
  deriving DecidableEq, Repr

/-- The words for malformed bytes. -/
def Malformed.message (m : Malformed) : String :=
  let place :=
    if m.length = 1 then
      "byte 0x" ++ String.ofList (Numeral.hex 2 m.first.toNat) ++ " in position " ++
        Numeral.nat m.start
    else
      "bytes in position " ++ Numeral.nat m.start ++ "-" ++ Numeral.nat (m.start + m.length - 1)
  "'utf-8' codec can't decode " ++ place ++ ": " ++ m.reason.message

/-! ## Reading -/

/-- A character being read: the bits so far, how many bytes are still to come, and the least and the
greatest value that the next of them may have. -/
structure Unfinished where
  bits : Nat
  owed : Nat
  least : Nat
  greatest : Nat
  deriving DecidableEq, Repr

/-- What a first byte begins. The bounds on the byte after it leave out longer forms of a character
than needed, the surrogates, and what lies beyond the last code point. -/
def begin? (b : UInt8) : Option Unfinished :=
  let n := b.toNat
  if n < 0x80 then some ⟨n, 0, 0x80, 0xBF⟩
  else if n < 0xC2 then none
  else if n < 0xE0 then some ⟨n - 0xC0, 1, 0x80, 0xBF⟩
  else if n < 0xF0 then
    some ⟨n - 0xE0, 2, if n = 0xE0 then 0xA0 else 0x80, if n = 0xED then 0x9F else 0xBF⟩
  else if n < 0xF5 then
    some ⟨n - 0xF0, 3, if n = 0xF0 then 0x90 else 0x80, if n = 0xF4 then 0x8F else 0xBF⟩
  else none

/-- What a character being read becomes with one more byte, if the byte can continue it. -/
def Unfinished.continue? (p : Unfinished) (b : UInt8) : Option Unfinished :=
  if p.least ≤ b.toNat ∧ b.toNat ≤ p.greatest then
    some ⟨p.bits * 64 + (b.toNat - 0x80), p.owed - 1, 0x80, 0xBF⟩
  else none

/-- A character begun but not yet whole: what it is so far, its first byte, and its bytes so far. -/
structure Begun where
  sofar : Unfinished
  first : UInt8
  taken : Nat
  deriving DecidableEq, Repr

/-- The characters of the bytes from position `pos` on, after what has been begun. -/
def decodeFrom : Option Begun → Nat → List UInt8 → Except Malformed (List Char)
  | none, _, [] => .ok []
  | some g, pos, [] => .error ⟨pos - g.taken, g.taken, g.first, .unexpectedEnd⟩
  | none, pos, b :: bs =>
    match begin? b with
    | none => .error ⟨pos, 1, b, .invalidStart⟩
    | some p =>
      if p.owed = 0 then
        match decodeFrom none (pos + 1) bs with
        | .error e => .error e
        | .ok cs => .ok (Char.ofNat p.bits :: cs)
      else decodeFrom (some ⟨p, b, 1⟩) (pos + 1) bs
  | some g, pos, b :: bs =>
    match g.sofar.continue? b with
    | none => .error ⟨pos - g.taken, g.taken, g.first, .invalidContinuation⟩
    | some p =>
      if p.owed = 0 then
        match decodeFrom none (pos + 1) bs with
        | .error e => .error e
        | .ok cs => .ok (Char.ofNat p.bits :: cs)
      else decodeFrom (some ⟨p, g.first, g.taken + 1⟩) (pos + 1) bs

/-- The characters of a file's bytes. -/
def decode (bytes : List UInt8) : Except Malformed (List Char) := decodeFrom none 0 bytes

/-! ## Writing -/

/-- The bytes of a text. -/
def encode (cs : List Char) : List UInt8 := cs.flatMap String.utf8EncodeChar

end VSyntax.Utf8
