/-!
# Flags

The flags of the command line: their one-letter and long names, and whether a value goes with them.
The module also names the formats in which spans are written.
-/
namespace VSyntax.CommandLine

/-! ## Formats -/

/-- How the spans of a file are written. -/
inductive Format where
  | spans
  | json
  | html
  deriving DecidableEq, Repr

namespace Format

/-- Every format. -/
def all : List Format := [.spans, .json, .html]

/-- The written name of a format. -/
def name : Format → String
  | .spans => "spans"
  | .json => "json"
  | .html => "html"

/-- The format with a written name. -/
def ofName? (s : List Char) : Option Format := all.find? fun f => f.name.toList == s

end Format

/-! ## Flags -/

/-- A flag of the command line. -/
inductive Flag where
  | help
  | output
  | format
  | region
  | outline
  | config
  | keyword
  | watch
  | debug
  | verbose
  deriving DecidableEq, Repr

namespace Flag

/-- Every flag, in the order in which they are listed. -/
def all : List Flag := [
  .help, .output, .format, .region, .outline, .config, .keyword, .watch, .debug, .verbose]

/-- The letter of a flag, if it has one. -/
def letter? : Flag → Option Char
  | .help => some 'h'
  | .output => some 'o'
  | .format => some 'f'
  | .keyword => some 'k'
  | .verbose => some 'v'
  | .region | .outline | .config | .watch | .debug => none

/-- The long name of a flag, after its two dashes. -/
def long : Flag → String
  | .help => "help"
  | .output => "output"
  | .format => "format"
  | .region => "region"
  | .outline => "outline"
  | .config => "config"
  | .keyword => "keyword"
  | .watch => "watch"
  | .debug => "debug"
  | .verbose => "verbose"

/-- Whether a value goes with a flag. -/
def takesValue : Flag → Bool
  | .output | .format | .region | .config | .keyword => true
  | .help | .outline | .watch | .debug | .verbose => false

/-- A flag by its names, in messages. -/
def label (f : Flag) : String :=
  match f.letter? with
  | some c => "-" ++ String.singleton c ++ "/--" ++ f.long
  | none => "--" ++ f.long

/-- The flag with a letter. -/
def ofLetter? (c : Char) : Option Flag := all.find? fun f => f.letter? == some c

/-- The flag with a long name. -/
def ofLong? (s : List Char) : Option Flag := all.find? fun f => f.long.toList == s

/-- The flags whose long names begin with the given characters. -/
def beginning (s : List Char) : List Flag := all.filter fun f => s.isPrefixOf f.long.toList

end Flag

end VSyntax.CommandLine
