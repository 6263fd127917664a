import VSyntax.Watch

/-!
# The program

From a command line to everything that a run does: usage, settling the job, one pass or watching,
and the exit code.
-/
namespace VSyntax

/-- How a run ends. -/
inductive Ending where
  /-- In order, with an exit code. -/
  | exit (code : Nat)
  /-- Before the job is settled, with an exit code: help was asked for, or the command line makes no
  sense. -/
  | usage (code : Nat)
  /-- By a fault that the run does not report. -/
  | escaped (f : RunFault)
  deriving Repr

/-- All that a run does: the effects of each round, how it ends, and the state that it leaves. The
rounds after the first are the polls that follow a pause. -/
structure Run (σ : Type) where
  rounds : List (List Effect)
  ending : Ending
  final : σ

namespace Program

/-! ## One pass -/

/-- The effects and the ending of a run that ends in a fault of its settings. -/
def settingsFault (f : RunFault) : List Effect × Ending :=
  match f.ofSettings? with
  | some (code, line) => ([.reportLine line], .exit code)
  | none => ([], .escaped f)

/-- The effects and the ending of a run that ends in a fault of its pass. -/
def passFault (notices : List Char) (f : RunFault) : List Effect × Ending :=
  match f.ofPass? with
  | some line => ([.report notices, .reportLine line], .exit 1)
  | none => ([.report notices], .escaped f)

/-- The effects and the ending of a run of one pass. -/
def once (job : Job) (view : FileView) : List Effect × Ending :=
  let p := job.pass view
  match p.result with
  | .error f => passFault p.notices f
  | .ok output =>
    match job.deliver view output with
    | .error f => ([.report p.notices], .escaped f)
    | .ok e => ([.report p.notices, e], .exit 0)

/-! ## Runs -/

/-- What a command line amounts to: effects and an ending, or a job to watch. -/
inductive Course where
  | ended (effects : List Effect) (ending : Ending)
  | watching (job : Job)

/-- The course of a run with settings from the command line. -/
def courseOf (platform : Platform) (view : FileView) (args : CommandLine.Arguments) : Course :=
  match Job.settle platform view args with
  | .error f => .ended (settingsFault f).1 (settingsFault f).2
  | .ok job =>
    if args.watch then .watching job
    else .ended (once job view).1 (once job view).2

/-- The course of a run. -/
def course (platform : Platform) (view : FileView) (arguments : List (List Char)) : Course :=
  match CommandLine.Arguments.read platform.dialect arguments with
  | .error .help => .ended [.print CommandLine.help.toList] (.usage 0)
  | .error (.misuse f) => .ended [.report f.report.toList] (.usage 2)
  | .ok args => courseOf platform view args

/-- The polls of a watching run with its first report. -/
def announce (job : Job) : List (List Effect) → List (List Effect)
  | [] => [[job.watchNotice]]
  | first :: rest => (job.watchNotice :: first) :: rest

/-- A run in a world that starts in the state `s` and goes through `changes` while the run pauses. A
watching run ends after the last of them. -/
def run (w : World σ) (arguments : List (List Char)) (s : σ) (changes : List (σ → σ)) : Run σ :=
  match course w.platform (w.view s) arguments with
  | .ended effects ending => ⟨[effects], ending, w.performAll effects s⟩
  | .watching job =>
    let watched := job.watch w Job.unseen s changes
    ⟨announce job watched.rounds,
      match watched.escape with
      | some f => .escaped f
      | none => .exit 0,
      watched.final⟩

end Program

end VSyntax
