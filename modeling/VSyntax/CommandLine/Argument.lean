import VSyntax.CommandLine.Usage

/-!
# Arguments one by one

What each argument of a command line is before its place is looked at: a word, a flag with or
without attached characters, the separator after which all arguments are words, or a flag that does
not exist. A long flag may be shortened as far as it stands for one flag only.
-/
namespace VSyntax.CommandLine

/-- What is attached to a flag, and whether an equals sign parts the two. -/
structure Attached where
  marked : Bool
  text : List Char
  deriving DecidableEq, Repr

/-- What an argument is. -/
inductive Argument where
  | separator
  | word (text : List Char)
  | flag (flag : Flag) (long : Bool) (attached : Option Attached)
  | unknown (text : List Char)
  deriving DecidableEq, Repr

namespace Argument

/-! ## Words that begin with a dash -/

/-- Digits, or digits around a point with at least one after it. -/
def isUnsignedNumber (s : List Char) : Bool :=
  match s.dropWhile Unicode.isDecimal with
  | [] => s != []
  | '.' :: fraction => fraction != [] && fraction.all Unicode.isDecimal
  | _ => false

/-- A text without the line end that it may end with. -/
def withoutLineEnd (s : List Char) : List Char :=
  if s.getLast? = some '\n' then s.dropLast else s

/-- What an argument is that begins with a dash and names no flag: a word if a negative number or
with a space in it, otherwise unknown. -/
def unnamed (text : List Char) : Argument :=
  if isUnsignedNumber (withoutLineEnd (text.drop 1)) || text.contains ' ' then .word text
  else .unknown text

/-! ## Flags -/

/-- The name before the first equals sign, and what stands after it if there is one. -/
def splitName (s : List Char) : List Char × Option Attached :=
  match s.dropWhile (· != '=') with
  | [] => (s, none)
  | _ :: text => (s.takeWhile (· != '='), some ⟨true, text⟩)

/-- What the argument is that consists of two dashes and `body`. -/
def ofLong (body : List Char) : Except UsageFault Argument :=
  let (name, attached) := splitName body
  match Flag.ofLong? name with
  | some f => .ok (.flag f true attached)
  | none =>
    match Flag.beginning name with
    | [] => .ok (unnamed ('-' :: '-' :: body))
    | [f] => .ok (.flag f true attached)
    | fs => .error (.ambiguous ('-' :: '-' :: body) fs)

/-- What is attached to a letter that `rest` follows. -/
def attachedOf (rest : List Char) : Option Attached :=
  match rest with
  | [] => none
  | '=' :: text => some ⟨true, text⟩
  | _ => some ⟨false, rest⟩

/-- What the argument is that consists of one dash, `letter` and `rest`. -/
def ofLetter (letter : Char) (rest : List Char) : Argument :=
  match Flag.ofLetter? letter with
  | some f => .flag f false (attachedOf rest)
  | none => unnamed ('-' :: letter :: rest)

/-- What an argument is. -/
def read (text : List Char) : Except UsageFault Argument :=
  match text with
  | ['-', '-'] => .ok .separator
  | '-' :: '-' :: body => ofLong body
  | '-' :: letter :: rest => .ok (ofLetter letter rest)
  | _ => .ok (.word text)

/-- What the arguments of a command line are. -/
def readAll : List (List Char) → Except UsageFault (List Argument)
  | [] => .ok []
  | text :: texts =>
    match read text with
    | .error f => .error f
    | .ok .separator => .ok (.separator :: texts.map .word)
    | .ok a =>
      match readAll texts with
      | .error f => .error f
      | .ok as => .ok (a :: as)

end Argument

end VSyntax.CommandLine
