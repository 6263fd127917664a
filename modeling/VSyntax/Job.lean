import VSyntax.Platform
import VSyntax.RunFault
import VSyntax.Toml.Document
import VSyntax.Vocabulary

/-!
# Jobs

What a run has to do, settled before the input is read: the command line and the configuration file
are put together. The file replaces whole keyword sets, the command line then extends them word by
word. Steps are taken in a fixed order, and the first that fails decides the fault.
-/
namespace VSyntax

/-- A settled run. -/
structure Job where
  input : Path
  output : Option Path
  format : CommandLine.Format
  region : Option Region
  outline : Bool
  vocabulary : Vocabulary
  debug : Bool
  verbose : Bool

namespace Job

/-! ## Configuration file -/

/-- The name of the configuration file beside an input. -/
def configName : String := "vhighlight.toml"

/-- A value of the command line; an empty one counts as none. -/
def given (value : Option (List Char)) : Option (List Char) := value.filter (· != [])

/-- The configuration file of a run: the one named, or the one beside the input. -/
def configPath (args : CommandLine.Arguments) : Path :=
  match given args.config with
  | some name => .ofChars name
  | none => (Path.ofChars args.input).parent.child configName.toList

/-- The table of a configuration file that is there. -/
def parseConfig (platform : Platform) (bytes : List UInt8) :
    Except RunFault (List (String × Datum)) :=
  match Utf8.decode bytes with
  | .error f => .error (.undecodable f)
  | .ok cs =>
    match Toml.read platform.readingRoom cs with
    | .error f => .error (.ofToml f)
    | .ok table => .ok table

/-- The table of a configuration file; without the file, an empty table. -/
def readConfig (platform : Platform) (view : FileView) (p : Path) :
    Except RunFault (List (String × Datum)) :=
  if p.isNameable then
    match view.isFile p with
    | .error f => .error (.file f)
    | .ok false => .ok []
    | .ok true =>
      match view.read p with
      | .error f => .error (.file f)
      | .ok bytes => parseConfig platform bytes
  else .ok []

/-! ## Vocabulary -/

/-- The vocabulary of a configuration table. -/
def configVocabulary (table : List (String × Datum)) : Except Fault Vocabulary :=
  match table.lookup "keywords" with
  | none => .ok .standard
  | some (.table sets) => Vocabulary.standard.replace sets
  | some _ => .error (.config .keywordsNotTable)

/-- A vocabulary extended by the value of one keyword flag. -/
def addKeyword (v : Vocabulary) (value : List Char) : Except RunFault Vocabulary :=
  match CommandLine.readKeyword value with
  | .error f => .error (.value f)
  | .ok (set, word) =>
    match v.extend (String.ofList set) (.list [.text (String.ofList word)]) with
    | .error f => .error (.refused f)
    | .ok w => .ok w

/-- A vocabulary extended by the values of all keyword flags. -/
def addKeywords (v : Vocabulary) (values : List (List Char)) : Except RunFault Vocabulary :=
  values.foldlM addKeyword v

/-- The vocabulary of a configuration table and keyword flags. -/
def vocabularyOf (platform : Platform) (table : List (String × Datum))
    (keywords : List (List Char)) : Except RunFault Vocabulary :=
  match configVocabulary table with
  | .error f => .error (.ofKeywords platform.writingRoom f)
  | .ok v => addKeywords v keywords

/-! ## Settling -/

/-- The region of a region flag. -/
def regionOf (value : Option (List Char)) : Except RunFault (Option Region) :=
  match given value with
  | none => .ok none
  | some value =>
    match CommandLine.readRegion value with
    | .error f => .error (.value f)
    | .ok r => .ok (some r)

/-- The job of a command line, given the file system. -/
def settle (platform : Platform) (view : FileView) (args : CommandLine.Arguments) :
    Except RunFault Job :=
  match readConfig platform view (configPath args) with
  | .error f => .error f
  | .ok table =>
    match vocabularyOf platform table args.keywords with
    | .error f => .error f
    | .ok vocabulary =>
      match regionOf args.region with
      | .error f => .error f
      | .ok region => .ok {
          input := .ofChars args.input
          output := (given args.output).map .ofChars
          format := args.format
          region := region
          outline := args.outline
          vocabulary := vocabulary
          debug := args.debug
          verbose := args.verbose }

end Job

end VSyntax
