import VSyntax.Numeral

/-!
# Error reports

The printed form of an error: a line that says what is wrong, then where. A keyword class is only
named; a pattern is shown as one source line with the flaw underlined.
-/
namespace VSyntax.Report

/-- A report on a keyword class, or with no class named on the configuration as a whole. -/
def config (summary : String) (subject : Option String) : String :=
  match subject with
  | none => "error: " ++ summary
  | some name => "error: " ++ summary ++ "\n  --> keyword class '" ++ name ++ "'"

/-- A character over and over; a negative count gives none. -/
def repeated (c : Char) (count : Int) : String := String.ofList (List.replicate count.toNat c)

/-- A pattern on one line: each line end becomes a space. -/
def oneLine (pattern : String) : String :=
  String.ofList (pattern.toList.map fun c => if c = '\n' then ' ' else c)

/-- The label of a pattern; an empty name counts as none. -/
def patternLabel (name : Option String) : String :=
  match name with
  | none => "pattern"
  | some n => if n = "" then "pattern" else "pattern '" ++ n ++ "'"

/-- A report on a pattern. The flaw is underlined by one caret at its index, or without an index the
whole pattern is. -/
def pattern (summary pattern : String) (name : Option String) (index : Option Int) : String :=
  let line := oneLine pattern
  let column : Int := (index.getD 0) + 1
  let carets : Int := if index.isSome then 1 else max 1 line.length
  "error: " ++ summary ++ "\n" ++
    "  --> " ++ patternLabel name ++ ":1:" ++ Numeral.int column ++ "\n" ++
    "  |\n" ++
    "1 | " ++ line ++ "\n" ++
    "  | " ++ repeated ' ' (column - 1) ++ repeated '^' carets

end VSyntax.Report
