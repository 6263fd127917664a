import VSyntax.Toml.Fault

/-!
# Reading configuration files

How the text of a configuration file is gone through: a reader takes the text from where it stands,
gives what it has read and leaves the text behind it. Reading stops at the first flaw, which is
charged to what is left at that moment. The module also passes over what stands between values.
-/
namespace VSyntax.Toml

/-- Why reading stops: at a flaw, with so many characters left, or at a limit. -/
inductive Stop where
  | malformed (flaw : Flaw) (left : Nat)
  | limit (l : Limit)

/-- The fault of a text whose reading has stopped. -/
def Stop.fault (text : List Char) : Stop → Fault
  | .malformed flaw left =>
    .malformed ⟨flaw, if left = 0 then none
      else some (.ofOffset text.toArray (text.length - left))⟩
  | .limit l => .limit l

/-- Reading from the text that is left. -/
abbrev Reader := StateT (List Char) (Except Stop)

/-- Stops at a flaw here. -/
def fail (flaw : Flaw) : Reader α := do throw (.malformed flaw (← get).length)

/-- Goes on only if there is room for so many calls inside each other. -/
def enter (room calls : Nat) : Reader Unit :=
  if room < calls then throw (.limit .depthRead) else return ()

/-- Takes a mark, which must come next. -/
def take (mark : List Char) (flaw : Flaw) : Reader Unit := do
  if mark.isPrefixOf (← get) then modify (·.drop mark.length) else fail flaw

/-! ## Between values -/

/-- A blank within a line. -/
def isBlank (c : Char) : Bool := c == ' ' || c == '\t'

/-- A blank or a line end. -/
def isSpace (c : Char) : Bool := isBlank c || c == '\n'

/-- A control character other than the tab, which neither comments nor strings may hold. -/
def isControl (c : Char) : Bool := (c.toNat < 0x20 && c != '\t') || c.toNat == 0x7F

/-- Whether a string may hold a character as it is; only strings of several lines hold line ends. -/
def isPlain (lines : Bool) (c : Char) : Bool := !isControl c || (lines && c == '\n')

/-- Passes over blanks. -/
def skipBlanks : Reader Unit := modify (·.dropWhile isBlank)

/-- Takes a text that comes next, in which each character must be plain. -/
def takePlain (lines : Bool) (content : List Char) : Reader Unit := do
  match content.find? fun c => !isPlain lines c with
  | none => modify (·.drop content.length)
  | some c =>
    modify (·.dropWhile (isPlain lines))
    fail (.controlCharacter c)

/-- Passes over a comment, which ends before the line end. -/
def skipComment : Reader Unit := do
  match ← get with
  | '#' :: rest =>
    set rest
    takePlain false (rest.takeWhile (· != '\n'))
  | _ => return ()

/-- Passes over blanks, line ends and up to `comments` comments. -/
def skipSpaceUpTo : Nat → Reader Unit
  | 0 => modify (·.dropWhile isSpace)
  | comments + 1 => do
    modify (·.dropWhile isSpace)
    match ← get with
    | '#' :: _ =>
      skipComment
      skipSpaceUpTo comments
    | _ => return ()

/-- Passes over blanks, line ends and comments. -/
def skipSpace : Reader Unit := do skipSpaceUpTo (← get).length

end VSyntax.Toml
