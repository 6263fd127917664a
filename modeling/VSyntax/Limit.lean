import VSyntax.Integer

/-!
# Limits

What stops the reading or the writing of a value although nothing is wrong with it: numerals of too
many digits, and parts that stand inside each other too deep. A limit has words of its own and is
never reported as a flaw of the value.
-/
namespace VSyntax

/-- A limit that is hit. -/
inductive Limit where
  /-- A numeral that is read has too many digits. -/
  | digitsRead (count : Nat)
  /-- A number has too many digits to be written. -/
  | digitsWritten
  /-- A value cannot be read for lack of room. -/
  | depthRead
  /-- A value cannot be written for lack of room. -/
  | depthWritten
  deriving DecidableEq, Repr

/-- The words for a limit. -/
def Limit.message : Limit → String
  | .digitsRead count => Integer.limitMessage count
  | .digitsWritten =>
    "Exceeds the limit (" ++ Numeral.nat Integer.digitLimit ++ " digits) for integer string " ++
      "conversion; use sys.set_int_max_str_digits() to increase the limit"
  | .depthRead => "maximum recursion depth exceeded"
  | .depthWritten => "maximum recursion depth exceeded while getting the repr of an object"

end VSyntax
