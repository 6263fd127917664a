import VSyntax.Integer
import VSyntax.Span

/-!
# Values of flags

The values with a form of their own: a word for a keyword set, and a region as two offsets.
-/
namespace VSyntax.CommandLine

/-! ## Faults -/

/-- Why a value does not have its form. -/
inductive ValueFault where
  /-- A keyword has no equals sign. -/
  | keywordForm (value : List Char)
  /-- A region has no colon. -/
  | regionForm (value : List Char)
  /-- The offsets of a region are no numbers, negative, or inverted. -/
  | regionOffsets (value : List Char)
  deriving DecidableEq, Repr

/-- The words for a value that does not have its form. -/
def ValueFault.message : ValueFault → String
  | .keywordForm value =>
    "invalid keyword format (expected SET=WORD): " ++ String.ofList value
  | .regionForm value =>
    "invalid region format (expected START:END): " ++ String.ofList value
  | .regionOffsets value => "invalid region offsets: " ++ String.ofList value

/-! ## Keywords -/

/-- The text before the first `mark` and the text after it, if it holds one. -/
def splitAt? (mark : Char) : List Char → Option (List Char × List Char)
  | [] => none
  | c :: cs =>
    if c = mark then some ([], cs)
    else (splitAt? mark cs).map fun halves => (c :: halves.1, halves.2)

/-- The keyword set's name and the word of a keyword value. -/
def readKeyword (value : List Char) : Except ValueFault (List Char × List Char) :=
  match splitAt? '=' value with
  | some halves => .ok halves
  | none => .error (.keywordForm value)

/-! ## Regions -/

/-- The region of a region value. -/
def readRegion (value : List Char) : Except ValueFault Region :=
  match splitAt? ':' value with
  | none => .error (.regionForm value)
  | some (start, stop) =>
    match Integer.read start, Integer.read stop with
    | some a, some b => if a < 0 ∨ b < a then .error (.regionOffsets value) else .ok ⟨a, b⟩
    | _, _ => .error (.regionOffsets value)

end VSyntax.CommandLine
