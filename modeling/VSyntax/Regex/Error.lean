import VSyntax.Integer
import VSyntax.Quoted

/-!
# Malformed patterns

Why a pattern text is not read as a regular expression, and the words for it. Most flaws are of the
pattern; some say that reading came to a limit (`Flaw.isLimit`).
-/
namespace VSyntax.Regex

/-- What is wrong with a pattern. -/
inductive Flaw where
  /-- A parenthesis is not closed. -/
  | openGroup
  /-- A closing parenthesis has no partner. -/
  | unbalancedParenthesis
  /-- A character set is not closed. -/
  | openSet
  /-- A range runs backwards or has a class as a bound. -/
  | badRange (text : String)
  /-- A quantifier has nothing before it to repeat. -/
  | nothingToRepeat
  /-- A quantifier follows a quantifier. -/
  | multipleRepeat
  /-- The bounds of a quantifier are in the wrong order. -/
  | boundsReversed
  /-- A bound of a quantifier is beyond what a repetition can count. -/
  | boundTooLarge
  /-- A bound of a quantifier has more digits than a number may have. -/
  | tooManyDigits (digits : Nat)
  /-- A backslash is followed by a letter or digit that means nothing there. -/
  | badEscape (text : String)
  /-- The pattern ends with a lone backslash. -/
  | lastBackslash
  /-- An escape by code point has too few digits. -/
  | shortEscape (text : String)
  /-- An octal escape is beyond 0377. -/
  | octalTooLarge (text : String)
  /-- A reference to a group that the pattern does not have so far. -/
  | noSuchGroup (index : Nat)
  /-- A reference to a group from inside it. -/
  | groupStillOpen
  /-- A reference behind an offset to a group of the same assertion. -/
  | groupBehind
  /-- A group name is no identifier. -/
  | badGroupName (name : List Char)
  /-- A group name is used twice. -/
  | groupRedefined (name : List Char) (index earlier : Nat)
  /-- A reference by a name that no group has. -/
  | unknownGroupName (name : List Char)
  /-- A name is left out. -/
  | noName (kind : String)
  /-- A name does not end. -/
  | openName (terminator : Char)
  /-- The name of a character does not begin with a brace. -/
  | noNameBrace
  /-- No character has the name. -/
  | unknownCharacterName (name : List Char)
  /-- A condition asks for the group of index zero. -/
  | groupZero
  /-- A condition has more than two branches. -/
  | thirdBranch
  /-- A comment is not closed. -/
  | openComment
  /-- Flags for the whole pattern do not stand at its start. -/
  | lateFlags
  /-- A flag asks for what patterns of characters do not have. -/
  | localeFlag
  /-- Flags exclude each other. -/
  | exclusiveFlags
  /-- A flag for the whole pattern is set for a part of it. -/
  | wholeFlagOn
  /-- A flag for the whole pattern is cleared for a part of it. -/
  | wholeFlagOff
  /-- A flag that cannot be cleared is. -/
  | fixedFlagOff
  /-- A flag is set and cleared. -/
  | flagOnAndOff
  /-- There is no flag of that letter. -/
  | unknownFlag
  /-- Something is left out behind flags. -/
  | missing (what : String)
  /-- The flags of the pattern's start exclude each other. -/
  | incompatibleFlags
  /-- A group form that does not exist. -/
  | unknownExtension (text : String)
  /-- The pattern ends inside the head of a group. -/
  | endOfPattern
  /-- An assertion looks behind through an expression whose matches differ in length. -/
  | varyingWidthBehind
  /-- An assertion looks further behind than can be counted. -/
  | tooFarBehind
  /-- A repetition is asked for where templates are. -/
  | templateRepeat (operator : String)
  /-- Groups stand inside each other so deep that there is no room left. -/
  | tooDeep
  deriving DecidableEq, Repr

namespace Flaw

/-- Whether reading came to a limit, or to flags that it cannot bring together; then the pattern is
not called malformed. -/
def isLimit : Flaw → Bool
  | .boundTooLarge | .tooManyDigits _ | .incompatibleFlags | .tooDeep => true
  | _ => false

/-- The words for what is wrong with a pattern. -/
def message : Flaw → String
  | .openGroup => "missing ), unterminated subpattern"
  | .unbalancedParenthesis => "unbalanced parenthesis"
  | .openSet => "unterminated character set"
  | .badRange text => "bad character range " ++ text
  | .nothingToRepeat => "nothing to repeat"
  | .multipleRepeat => "multiple repeat"
  | .boundsReversed => "min repeat greater than max repeat"
  | .boundTooLarge => "the repetition number is too large"
  | .tooManyDigits digits => Integer.limitMessage digits
  | .badEscape text => "bad escape " ++ text
  | .lastBackslash => "bad escape (end of pattern)"
  | .shortEscape text => "incomplete escape " ++ text
  | .octalTooLarge text => "octal escape value " ++ text ++ " outside of range 0-0o377"
  | .noSuchGroup index => "invalid group reference " ++ Numeral.nat index
  | .groupStillOpen => "cannot refer to an open group"
  | .groupBehind => "cannot refer to group defined in the same lookbehind subpattern"
  | .badGroupName name => "bad character in group name " ++ String.ofList (Quoted.encode name)
  | .groupRedefined name index earlier =>
    "redefinition of group name " ++ String.ofList (Quoted.encode name) ++ " as group " ++
      Numeral.nat index ++ "; was group " ++ Numeral.nat earlier
  | .unknownGroupName name => "unknown group name " ++ String.ofList (Quoted.encode name)
  | .noName kind => "missing " ++ kind
  | .openName terminator => "missing " ++ String.singleton terminator ++ ", unterminated name"
  | .noNameBrace => "missing \x7b"
  | .unknownCharacterName name =>
    "undefined character name " ++ String.ofList (Quoted.encode name)
  | .groupZero => "bad group number"
  | .thirdBranch => "conditional backref with more than two branches"
  | .openComment => "missing ), unterminated comment"
  | .lateFlags => "global flags not at the start of the expression"
  | .localeFlag => "bad inline flags: cannot use 'L' flag with a str pattern"
  | .exclusiveFlags => "bad inline flags: flags 'a', 'u' and 'L' are incompatible"
  | .wholeFlagOn => "bad inline flags: cannot turn on global flag"
  | .wholeFlagOff => "bad inline flags: cannot turn off global flag"
  | .fixedFlagOff => "bad inline flags: cannot turn off flags 'a', 'u' and 'L'"
  | .flagOnAndOff => "bad inline flags: flag turned on and off"
  | .unknownFlag => "unknown flag"
  | .missing what => "missing " ++ what
  | .incompatibleFlags => "ASCII and UNICODE flags are incompatible"
  | .unknownExtension text => "unknown extension " ++ text
  | .endOfPattern => "unexpected end of pattern"
  | .varyingWidthBehind => "look-behind requires fixed-width pattern"
  | .tooFarBehind => "looks too much behind"
  | .templateRepeat operator => "internal: unsupported template operator " ++ operator
  | .tooDeep => "maximum recursion depth exceeded"

end Flaw

/-- A flaw and the offset in the pattern that it is charged to, if any. -/
structure Malformed where
  flaw : Flaw
  index : Option Nat
  deriving DecidableEq, Repr

end VSyntax.Regex
