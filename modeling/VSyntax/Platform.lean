import VSyntax.CommandLine.Arguments

/-!
# Platforms

What a run takes from the platform that carries it out, and what is seen neither on the command line
nor in the files: two platforms may treat the same run differently.
-/
namespace VSyntax

/-- A platform. -/
structure Platform where
  /-- How attached characters on the command line are read. -/
  dialect : CommandLine.Dialect
  /-- How many calls inside each other there is room for when the configuration file is read. -/
  readingRoom : Nat
  /-- How many values inside each other there is room for when a message writes one. -/
  writingRoom : Nat
  deriving DecidableEq, Repr

/-- The platform as it mostly is. -/
def Platform.standard : Platform := ⟨.late, 1000, 1000⟩

end VSyntax
