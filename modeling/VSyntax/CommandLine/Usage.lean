import VSyntax.CommandLine.Flag
import VSyntax.Quoted

/-!
# Usage

What the program says about its own use: the help text, and the words for command lines that it
cannot make sense of.
-/
namespace VSyntax.CommandLine

/-! ## Help -/

/-- The name of the program. -/
def programName : String := "vhighlight"

/-- The version of the program. -/
def version : String := "0.1.0"

/-- The paragraph on how the program is called. -/
def usage : String :=
  "usage: vhighlight [-h] [-o OUTPUT] [-f \x7bspans,json,html\x7d] [--region START:END]\n" ++
  "                  [--outline] [--config FILE] [-k SET=WORD] [--watch]\n" ++
  "                  [--debug] [-v]\n" ++
  "                  input\n"

/-- The lines on each argument. -/
def argumentHelp : String :=
  "positional arguments:\n" ++
  "  input                 Input V source file\n" ++
  "\n" ++
  "options:\n" ++
  "  -h, --help            show this help message and exit\n" ++
  "  -o OUTPUT, --output OUTPUT\n" ++
  "                        Output file (default: stdout)\n" ++
  "  -f \x7bspans,json,html\x7d, --format \x7bspans,json,html\x7d\n" ++
  "                        Output format (default: spans)\n" ++
  "  --region START:END    Classify only the offsets START..END (default: whole\n" ++
  "                        file)\n" ++
  "  --outline             Print declaration sites and TODO markers instead of\n" ++
  "                        spans\n" ++
  "  --config FILE         Config file (default: auto-discover vhighlight.toml)\n" ++
  "  -k SET=WORD, --keyword SET=WORD\n" ++
  "                        Add a word to a keyword set (repeatable)\n" ++
  "  --watch               Watch for changes and reclassify\n" ++
  "  --debug               Dump spans to stderr\n" ++
  "  -v, --verbose         Enable debug logging\n"

/-- The whole help text. -/
def help : String :=
  usage ++ "\nClassify V source code for syntax highlighting\n\n" ++ argumentHelp

/-! ## Faults -/

/-- Why a command line makes no sense. -/
inductive UsageFault where
  /-- A shortened flag stands for several. -/
  | ambiguous (argument : List Char) (flags : List Flag)
  /-- A flag lacks its value. -/
  | valueMissing (flag : Flag)
  /-- A flag without values has one attached. -/
  | valueUnwanted (flag : Flag) (value : List Char)
  /-- There is no such format. -/
  | unknownFormat (value : List Char)
  /-- No input is named. -/
  | inputMissing
  /-- Some arguments mean nothing. -/
  | unrecognized (arguments : List (List Char))
  deriving DecidableEq, Repr

namespace UsageFault

/-- What is wrong with the value of a flag. -/
def ofFlag (flag : Flag) (problem : String) : String := "argument " ++ flag.label ++ ": " ++ problem

/-- What is wrong. -/
def message : UsageFault → String
  | .ambiguous argument flags =>
    "ambiguous option: " ++ String.ofList argument ++ " could match " ++
      ", ".intercalate (flags.map fun f => "--" ++ f.long)
  | .valueMissing flag => ofFlag flag "expected one argument"
  | .valueUnwanted flag value =>
    ofFlag flag ("ignored explicit argument " ++ String.ofList (Quoted.encode value))
  | .unknownFormat value =>
    ofFlag .format ("invalid choice: " ++ String.ofList (Quoted.encode value) ++ " (choose from " ++
      ", ".intercalate (Format.all.map fun f => Quoted.ofString f.name) ++ ")")
  | .inputMissing => "the following arguments are required: input"
  | .unrecognized arguments =>
    "unrecognized arguments: " ++ " ".intercalate (arguments.map String.ofList)

/-- The report on a command line that makes no sense, after the paragraph on how to call. -/
def report (f : UsageFault) : String :=
  usage ++ programName ++ ": error: " ++ f.message ++ "\n"

end UsageFault

end VSyntax.CommandLine
