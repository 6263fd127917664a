import VSyntax.Datum
import VSyntax.Toml.Reader

/-!
# Scalars of configuration files

The written forms of strings, days and times, numbers and truth values. Where a form is decided by
its characters alone, the text is parted first: `List Char → Option (α × List Char)` gives what
stands at the front and the text after it, or nothing.
-/
namespace VSyntax.Toml

/-! ## Digits -/

/-- The value of a hexadecimal digit. -/
def hexValue? (c : Char) : Option Nat :=
  if '0' ≤ c ∧ c ≤ '9' then some (c.toNat - 0x30)
  else if 'a' ≤ c ∧ c ≤ 'f' then some (c.toNat - 0x61 + 10)
  else if 'A' ≤ c ∧ c ≤ 'F' then some (c.toNat - 0x41 + 10)
  else none

/-- A digit of a base up to sixteen. -/
def isDigitOf (base : Nat) (c : Char) : Bool := (hexValue? c).any (· < base)

/-- The number of a run of digits. -/
def digitsValue (base : Nat) (digits : List Char) : Nat :=
  digits.foldl (fun n c => n * base + (hexValue? c).getD 0) 0

/-- The number of exactly `count` decimal digits. -/
def fixedDigits (count : Nat) (s : List Char) : Option (Nat × List Char) :=
  let digits := s.take count
  if digits.length = count ∧ digits.all (isDigitOf 10) then
    some (digitsValue 10 digits, s.drop count)
  else none

/-- The text after a character that must come next. -/
def after (c : Char) (s : List Char) : Option (List Char) :=
  if s.head? = some c then some s.tail else none

/-! ## Strings -/

/-- The character of the code point that the next `count` digits give. -/
def readCodePoint (count : Nat) : Reader (List Char) := do
  let digits := (← get).take count
  if digits.length = count ∧ digits.all (isDigitOf 16) then
    modify (·.drop count)
    let n := digitsValue 16 digits
    if n.isValidChar then return [Char.ofNat n] else fail .notScalar
  else fail .badHex

/-- Passes over the blanks behind a backslash up to the line end, if they are not the last of the
text. -/
def skipToLineEnd : Reader Unit := do
  skipBlanks
  match ← get with
  | [] => return ()
  | '\n' :: rest => set rest
  | _ => fail .badEscape

/-- The characters that an escape stands for, after its backslash. In a string of several lines, an
escape of a line end stands for none, whatever blanks and line ends follow. -/
def readEscape (lines : Bool) : Reader (List Char) := do
  match ← get with
  | [] => fail .badEscape
  | c :: rest =>
    set rest
    match c with
    | 'b' => return [Char.ofNat 0x08]
    | 't' => return ['\t']
    | 'n' => return ['\n']
    | 'f' => return [Char.ofNat 0x0C]
    | 'r' => return ['\r']
    | '"' => return ['"']
    | '\\' => return ['\\']
    | 'u' => readCodePoint 4
    | 'U' => readCodePoint 8
    | _ =>
      if lines && isSpace c then
        if c != '\n' then skipToLineEnd
        modify (·.dropWhile isSpace)
        return []
      else fail .badEscape

/-- A string with escapes, after its opening marks; `done` is what has been read, last first. -/
def readEscaped (lines : Bool) : Nat → List Char → Reader (List Char)
  | 0, _ => fail .openString
  | fuel + 1, done => do
    match ← get with
    | [] => fail .openString
    | '"' :: rest =>
      if lines then
        match rest with
        | '"' :: '"' :: rest =>
          set rest
          return done.reverse
        | _ =>
          set rest
          readEscaped lines fuel ('"' :: done)
      else
        set rest
        return done.reverse
    | '\\' :: rest =>
      set rest
      let cs ← readEscape lines
      readEscaped lines fuel (cs.reverse ++ done)
    | c :: rest =>
      if isPlain lines c then
        set rest
        readEscaped lines fuel (c :: done)
      else fail (.illegalCharacter c)

/-- The text before the first `mark`, if there is one. -/
def beforeMark (mark : List Char) : List Char → Option (List Char)
  | [] => none
  | c :: rest =>
    if mark.isPrefixOf (c :: rest) then some [] else (beforeMark mark rest).map (c :: ·)

/-- A string without escapes, after its opening marks. -/
def readLiteral (lines : Bool) (mark : String) : Reader (List Char) := do
  match beforeMark mark.toList (← get) with
  | none =>
    set ([] : List Char)
    fail (.expected mark)
  | some content =>
    takePlain lines content
    modify (·.drop mark.length)
    return content

/-- The next characters, if they are this text. -/
def accept (text : String) : Reader Bool := do
  if text.toList.isPrefixOf (← get) then
    modify (·.drop text.length)
    return true
  else return false

/-- Up to two more marks that belong to a string of several lines. -/
def readMarks (mark : Char) (content : List Char) : Reader (List Char) := do
  let more := ((← get).takeWhile (· == mark)).take 2
  modify (·.drop more.length)
  return content ++ more

/-- A string on one line, after its first mark. -/
def readLineString (mark : Char) : Reader (List Char) := do
  if mark = '"' then readEscaped false ((← get).length + 1) [] else readLiteral false "\x27"

/-- A string, after its first mark. -/
def readString (mark : Char) : Reader (List Char) := do
  if ← accept (String.ofList [mark, mark]) then
    let _ ← accept "\n"
    if mark = '"' then readMarks mark (← readEscaped true ((← get).length + 1) [])
    else readMarks mark (← readLiteral true "\x27\x27\x27")
  else readLineString mark

/-! ## Days and times -/

/-- The millionths of a second after a point, if digits follow it. Digits past the sixth are not
looked at. -/
def takeMicros (s : List Char) : Nat × List Char :=
  match s with
  | '.' :: rest =>
    match rest.takeWhile (isDigitOf 10) with
    | [] => (0, s)
    | digits => (digitsValue 10 ((digits ++ List.replicate 6 '0').take 6), rest.drop digits.length)
  | _ => (0, s)

/-- A time of the day. -/
def takeTime (s : List Char) : Option (ClockTime × List Char) := do
  let (hour, s) ← fixedDigits 2 s
  let (minute, s) ← fixedDigits 2 (← after ':' s)
  let (second, s) ← fixedDigits 2 (← after ':' s)
  let (micro, s) := takeMicros s
  return (← ClockTime.of? hour minute second micro, s)

/-- A zone by its sign, hours and minutes. -/
def takeShift (s : List Char) : Option (Zone × List Char) := do
  let sign ← s.head?
  guard (sign = '+' ∨ sign = '-')
  let (hours, s) ← fixedDigits 2 s.tail
  let (minutes, s) ← fixedDigits 2 (← after ':' s)
  guard (hours < 24 ∧ minutes < 60)
  let n : Int := hours * 60 + minutes
  return (← Zone.of? (if sign = '-' then -n else n), s)

/-- A zone, if one is told. -/
def takeZone (s : List Char) : Option Zone × List Char :=
  match s with
  | 'Z' :: rest | 'z' :: rest => (Zone.of? 0, rest)
  | _ =>
    match takeShift s with
    | some (zone, rest) => (some zone, rest)
    | none => (none, s)

/-- A time of a day, after the day. -/
def takeTimeOfDay (s : List Char) : Option ((ClockTime × Option Zone) × List Char) := do
  guard (s.head?.any fun c => c == 'T' || c == 't' || c == ' ')
  let (time, s) ← takeTime s.tail
  let (zone, s) := takeZone s
  return ((time, zone), s)

/-- The numbers of a day. No month is beyond the twelfth and no day beyond the last of the longest
months; there need not be such a day yet. -/
def takeDay (s : List Char) : Option ((Nat × Nat × Nat) × List Char) := do
  let (year, s) ← fixedDigits 4 s
  let (month, s) ← fixedDigits 2 (← after '-' s)
  let (day, s) ← fixedDigits 2 (← after '-' s)
  guard (1 ≤ month ∧ month ≤ 12 ∧ 1 ≤ day ∧ day ≤ 31)
  return ((year, month, day), s)

/-- A day, a time or both, if one stands here. -/
def readCalendar : Reader (Option Datum) := do
  let s ← get
  match takeDay s with
  | some ((year, month, day), rest) =>
    match Date.of? year month day with
    | none => fail .noSuchDay
    | some date =>
      match takeTimeOfDay rest with
      | some ((time, zone), rest) =>
        set rest
        return some (.dateTime ⟨date, time, zone⟩)
      | none =>
        set rest
        return some (.date date)
  | none =>
    match takeTime s with
    | some (time, rest) =>
      set rest
      return some (.time time)
    | none => return none

/-! ## Numbers -/

/-- Digits from the second on, with single underscores before them. -/
def moreDigits (base : Nat) : List Char → List Char × List Char
  | [] => ([], [])
  | '_' :: c :: rest =>
    if isDigitOf base c then
      let r := moreDigits base rest
      (c :: r.1, r.2)
    else ([], '_' :: c :: rest)
  | c :: rest =>
    if isDigitOf base c then
      let r := moreDigits base rest
      (c :: r.1, r.2)
    else ([], c :: rest)

/-- One digit or more, with single underscores between them. -/
def takeDigits (base : Nat) (s : List Char) : Option (List Char × List Char) :=
  match s with
  | [] => none
  | c :: rest =>
    if isDigitOf base c then
      let r := moreDigits base rest
      some (c :: r.1, r.2)
    else none

/-- A sign, and whether it is a minus. -/
def takeSign (s : List Char) : Bool × List Char :=
  match s with
  | '-' :: rest => (true, rest)
  | '+' :: rest => (false, rest)
  | _ => (false, s)

/-- The whole part of a decimal number, without needless zeros. -/
def takeWhole (s : List Char) : Option (List Char × List Char) :=
  match s with
  | '0' :: rest => some (['0'], rest)
  | _ => takeDigits 10 s

/-- The digits after a point, if digits follow it. -/
def takeFraction (s : List Char) : Option (List Char × List Char) :=
  match s with
  | '.' :: rest => takeDigits 10 rest
  | _ => none

/-- The power of ten after its letter, if digits follow it. -/
def takePower (s : List Char) : Option (Int × List Char) :=
  match s with
  | [] => none
  | c :: rest =>
    if c = 'e' ∨ c = 'E' then
      let (negative, rest) := takeSign rest
      (takeDigits 10 rest).map fun r =>
        let n : Int := digitsValue 10 r.1
        (if negative then -n else n, r.2)
    else none

/-- A number in another base than ten. -/
def takeBased (s : List Char) : Option (Nat × List Char) :=
  let number := fun (base : Nat) (rest : List Char) =>
    (takeDigits base rest).map fun r => (digitsValue base r.1, r.2)
  match s with
  | '0' :: 'x' :: rest => number 16 rest
  | '0' :: 'o' :: rest => number 8 rest
  | '0' :: 'b' :: rest => number 2 rest
  | _ => none

/-- A whole number by its digits, of which there may be too many. -/
def wholeNumber (negative : Bool) (digits : List Char) : Reader Datum :=
  if Integer.digitLimit < digits.length then throw (.limit (.digitsRead digits.length))
  else
    let n : Int := digitsValue 10 digits
    return .int (if negative then -n else n)

/-- A decimal number, if one stands here: whole, unless a fraction or a power follows. -/
def readDecimal : Reader (Option Datum) := do
  let (negative, unsigned) := takeSign (← get)
  match takeWhole unsigned with
  | none => return none
  | some (whole, afterWhole) =>
    let (fraction, afterFraction) := (takeFraction afterWhole).getD ([], afterWhole)
    match fraction, takePower afterFraction with
    | [], none =>
      set afterWhole
      return some (← wholeNumber negative whole)
    | _, power =>
      let (exponent, rest) := power.getD (0, afterFraction)
      set rest
      return some (.real (.ofDecimal negative (digitsValue 10 (whole ++ fraction))
        (exponent - fraction.length)))

/-- A number, if one stands here that is neither infinite nor none at all. -/
def readNumber : Reader (Option Datum) := do
  match takeBased (← get) with
  | some (n, rest) =>
    set rest
    return some (.int n)
  | none => readDecimal

/-- A number that is infinite or none at all. Nothing else is left that a value could be. -/
def readSpecial : Reader Datum := do
  let (negative, unsigned) := takeSign (← get)
  match unsigned with
  | 'i' :: 'n' :: 'f' :: rest =>
    set rest
    return .real (.infinite negative)
  | 'n' :: 'a' :: 'n' :: rest =>
    set rest
    return .real .nan
  | _ => fail .noValue

/-! ## All scalars -/

/-- A value that is neither an array nor a table. -/
def readScalar : Reader Datum := do
  match ← get with
  | '"' :: rest =>
    set rest
    return .text (String.ofList (← readString '"'))
  | '\x27' :: rest =>
    set rest
    return .text (String.ofList (← readString '\x27'))
  | 't' :: 'r' :: 'u' :: 'e' :: rest =>
    set rest
    return .bool true
  | 'f' :: 'a' :: 'l' :: 's' :: 'e' :: rest =>
    set rest
    return .bool false
  | _ =>
    match ← readCalendar with
    | some d => return d
    | none =>
      match ← readNumber with
      | some d => return d
      | none => readSpecial

end VSyntax.Toml
