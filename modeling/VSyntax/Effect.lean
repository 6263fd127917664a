import VSyntax.Pass

/-!
# Effects

What a run does to the world outside: it prints output, reports on the side, and saves files. Output
goes to one destination, the file that the job names or else the standard output.
-/
namespace VSyntax

/-- One thing that a run does. -/
inductive Effect where
  /-- Print to the standard output. -/
  | print (text : List Char)
  /-- Print to the standard error. -/
  | report (text : List Char)
  /-- Write a whole file. -/
  | save (path : Path) (text : List Char)
  deriving DecidableEq, Repr

namespace Effect

/-- A report of one line. -/
def reportLine (line : String) : Effect := .report (line ++ "\n").toList

/-- What effects print, in order. -/
def printed (effects : List Effect) : List Char :=
  effects.flatMap fun
    | .print text => text
    | _ => []

/-- What effects report, in order. -/
def reported (effects : List Effect) : List Char :=
  effects.flatMap fun
    | .report text => text
    | _ => []

end Effect

/-- The effect that brings an output to the destination of a job. -/
def Job.deliver (job : Job) (view : FileView) (output : List Char) : Except RunFault Effect :=
  match job.output with
  | none => .ok (.print output)
  | some p =>
    if p.isNameable then
      match view.writeError? p with
      | some e => .error (.file ⟨e, p⟩)
      | none => .ok (.save p output)
    else .error .unnameable

end VSyntax
