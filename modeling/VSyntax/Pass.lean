import VSyntax.Dump
import VSyntax.Html
import VSyntax.Job
import VSyntax.Listing
import VSyntax.Session
import VSyntax.SourceFile

/-!
# Passes

One pass over an input: the file is read, the tables are built, and the spans or the outline are
written out in full before anything is delivered. On the way a pass leaves notices, which stay even
when it fails.
-/
namespace VSyntax

/-- What a pass leaves behind: its notices, and its output or the fault that kept it from one. -/
structure Pass where
  notices : List Char
  result : Except RunFault (List Char)

namespace Job

/-! ## Notices -/

/-- A notice of the part `origin` of the program; the origin is named in verbose runs only. -/
def notice (job : Job) (origin text : String) : List Char :=
  ((if job.verbose then origin ++ ": " else "") ++ text ++ "\n").toList

/-- A notice that is given in verbose runs only. -/
def detail (job : Job) (origin text : String) : List Char :=
  if job.verbose then job.notice origin text else []

/-- The notice on an input without an extension of the source language. -/
def extensionNotice (job : Job) : List Char :=
  if SourceFile.isSource job.input then []
  else
    job.notice "vhighlight.cli"
      (String.ofList job.input.text ++ " does not have a V extension (" ++
        ", ".intercalate SourceFile.extensions ++ ")")

/-- The notice on a rule table. -/
def tableNotice (job : Job) (rules : RuleTable) : List Char :=
  job.detail "vhighlight.patterns"
    ("compiled rule table with " ++ Numeral.nat rules.length ++ " patterns")

/-- The notice on a classification. -/
def spansNotice (job : Job) (t : Text) (spans : List Span) : List Char :=
  let bounds := Region.bounds job.region t.size
  job.detail "vhighlight.engine"
    ("classified [" ++ Numeral.nat bounds.1 ++ ", " ++ Numeral.nat bounds.2 ++ ") into " ++
      Numeral.nat spans.length ++ " spans")

/-! ## Output -/

/-- The spans of a text in the format of a job. -/
def write (job : Job) (t : Text) (spans : List Span) : List Char :=
  match job.format with
  | .spans => Listing.spans spans
  | .json => Listing.json t spans
  | .html => Html.render t spans true

/-- The pass over the spans of a text. -/
def passSpans (job : Job) (s : Session) (t : Text) : Pass :=
  match s.classify t job.region with
  | .error f => ⟨[], .error (.scan f)⟩
  | .ok spans =>
    ⟨job.spansNotice t spans ++ (if job.debug then Dump.render t spans else []),
      .ok (job.write t spans)⟩

/-- The pass over the outline of a text. -/
def passOutline (s : Session) (t : Text) : Pass :=
  match s.outline t with
  | .error f => ⟨[], .error (.refused f)⟩
  | .ok entries => ⟨[], .ok (Listing.outline entries)⟩

/-- The pass over a text with the tables built. -/
def passText (job : Job) (s : Session) (t : Text) : Pass :=
  if job.outline then passOutline s t else job.passSpans s t

/-! ## Passes -/

/-- The text of the input. -/
def source (job : Job) (view : FileView) : Except RunFault Text :=
  match view.load job.input with
  | .error f => .error f
  | .ok bytes =>
    match SourceFile.read bytes with
    | .error f => .error (.undecodable f)
    | .ok t => .ok t

/-- One pass over the input. -/
def pass (job : Job) (view : FileView) : Pass :=
  match job.source view with
  | .error f => ⟨job.extensionNotice, .error f⟩
  | .ok t =>
    match Session.start job.vocabulary .standard with
    | .error f => ⟨job.extensionNotice, .error (.refused f)⟩
    | .ok s =>
      let p := job.passText s t
      ⟨job.extensionNotice ++ job.tableNotice s.rules ++ p.notices, p.result⟩

end Job

end VSyntax
