import VSyntax.FileTree
import VSyntax.Program
import VSyntax.Proofs.Program.Stages

/-!
# What a run of one pass comes to

Either some step of a run that does not watch is the first that fails, or all succeed and the text
of the input has its output (`fails_or_completes`).

* A step that fails leaves nothing written. If its fault is reported, the run ends with the exit
  code of the step (`outcome_of_failsFirst`).
* A run in which all steps succeed writes its output whole, with one effect
  (`outcome_of_completes`).

`run_all_or_nothing` puts the two together for the runs that end with an exit code. Not all do: a
configuration file that cannot be read, is no text or hits a limit, an input whose path cannot name
a file, and a destination that cannot be written are not reported. `run_reports_failures` says that
these are the only such runs, and `run_escapes_unreported` shows three of them.
-/
namespace VSyntax

variable {σ : Type} {platform : Platform} {view : FileView} {args : CommandLine.Arguments}
  {job : Job} {f : RunFault} {table : List (String × Datum)} {v : Vocabulary} {output : List Char}
  {e : Effect}

/-! ## Worlds -/

/-- A world in which only writes leave a trace. -/
def World.Quiet (w : World σ) : Prop := ∀ e s, e.isWrite = false → w.perform e s = s

/-- In a quiet world, effects come to their writes. -/
theorem World.Quiet.performAll_filter {w : World σ} (h : w.Quiet) (effects : List Effect) (s : σ) :
    w.performAll (effects.filter Effect.isWrite) s = w.performAll effects s := by
  unfold performAll
  induction effects generalizing s with
  | nil => rfl
  | cons e effects ih =>
    cases he : e.isWrite with
    | true => rw [List.filter_cons_of_pos he, List.foldl_cons, List.foldl_cons, ih]
    | false =>
      rw [List.filter_cons_of_neg (by rw [he]; decide), List.foldl_cons, h e s he, ih]

theorem FileTree.world_quiet (platform : Platform) : (FileTree.world platform).Quiet := by
  intro e s he
  cases e with
  | print text => cases he
  | report text => rfl
  | save p text => cases he

/-! ## Endings and reports -/

/-- The exit code of a run that ends in order. -/
def Ending.code? : Ending → Option Nat
  | .exit code => some code
  | .usage _ | .escaped _ => none

/-- Whether a run ends by a fault that it does not report. -/
def Ending.isEscape : Ending → Bool
  | .escaped _ => true
  | .exit _ | .usage _ => false

theorem Ending.code?_eq_some_iff {ending : Ending} {code : Nat} :
    ending.code? = some code ↔ ending = .exit code := by
  cases ending with
  | exit c => simp only [code?, Option.some.injEq, exit.injEq]
  | usage c => simp only [code?, reduceCtorEq]
  | escaped f => simp only [code?, reduceCtorEq]

/-- Keyword sets are refused as such, or the words for it hit a limit. -/
theorem RunFault.ofKeywords_cases (room : Nat) (f : Fault) :
    ofKeywords room f = .refused f ∨ ∃ l, ofKeywords room f = .limit l := by
  unfold ofKeywords
  split
  · next d name =>
    cases d.writeLimit? room with
    | none => exact .inl rfl
    | some l => exact .inr ⟨l, rfl⟩
  · exact .inl rfl

/-- The line with which a fault is reported, where it is. -/
def RunFault.line : RunFault → String
  | .refused f => f.message
  | f => "error: " ++ f.message

namespace Program

open Job

/-! ## What a run does -/

/-- The effects and the ending of a run that does not watch. -/
def outcome (platform : Platform) (view : FileView) (args : CommandLine.Arguments) :
    List Effect × Ending :=
  match settle platform view args with
  | .error f => settingsFault f
  | .ok job => once job view

/-- A run of settings that do not ask to watch is its outcome. -/
theorem run_eq_outcome {w : World σ} {arguments : List (List Char)}
    (hread : CommandLine.Arguments.read w.platform.dialect arguments = .ok args)
    (hwatch : args.watch = false) (s : σ) (changes : List (σ → σ)) :
    run w arguments s changes = ⟨[(outcome w.platform (w.view s) args).1],
      (outcome w.platform (w.view s) args).2,
      w.performAll (outcome w.platform (w.view s) args).1 s⟩ := by
  simp only [run, course, hread, courseOf, outcome]
  cases settle w.platform (w.view s) args with
  | error f => rfl
  | ok job =>
    simp only [hwatch]
    rfl

/-- A configuration that is not settled is the fault of the settings. -/
theorem settle_of_readConfig (h : readConfig platform view (configPath args) = .error f) :
    settle platform view args = .error f := by
  simp only [settle, h]

theorem settle_of_vocabularyOf (hconfig : readConfig platform view (configPath args) = .ok table)
    (h : vocabularyOf platform table args.keywords = .error f) :
    settle platform view args = .error f := by
  simp only [settle, hconfig, h]

/-- A keyword flag that fails after those before it is the fault of the settings. -/
theorem settle_of_addKeyword {before after : List (List Char)} {value : List Char}
    (hflags : args.keywords = before ++ value :: after)
    (hwords : HasWords platform view args before v) (h : addKeyword v value = .error f) :
    settle platform view args = .error f := by
  obtain ⟨table, standard, hconfig, hsets, hbefore⟩ := hwords
  refine settle_of_vocabularyOf hconfig ?_
  simp only [vocabularyOf, hsets, hflags]
  exact addKeywords_append_of_error hbefore h

theorem settle_of_regionOf (hwords : HasWords platform view args args.keywords v)
    (h : regionOf args.region = .error f) : settle platform view args = .error f := by
  obtain ⟨table, hconfig, hvocabulary⟩ := hasWords_iff.mp hwords
  simp only [settle, hconfig, hvocabulary, h]

/-- A step of the settings that fails leaves them unresolved. -/
theorem settle_of_failsFirst {stage : Stage} (h : FailsFirst platform view args stage f)
    (hstage : stage.isOfInput = false) : settle platform view args = .error f := by
  cases h with
  | configLost named lost =>
    refine settle_of_readConfig ?_
    simp only [readConfig, named, lost, if_true]
  | configUnread named found unread =>
    refine settle_of_readConfig ?_
    simp only [readConfig, named, found, unread, if_true]
  | configText config undecodable =>
    refine settle_of_readConfig ?_
    simp only [readConfig_of_hasConfig config, parseConfig, undecodable]
  | configForm config decoded malformed =>
    refine settle_of_readConfig ?_
    simp only [readConfig_of_hasConfig config, parseConfig, decoded, malformed]
  | keywordSets config refused =>
    refine settle_of_vocabularyOf config ?_
    simp only [vocabularyOf, refused]
  | keywordForm flags words malformed =>
    refine settle_of_addKeyword flags words ?_
    simp only [addKeyword, malformed]
  | keywordWord flags words parted refused =>
    refine settle_of_addKeyword flags words ?_
    simp only [addKeyword, parted, refused]
  | regionForm words flag malformed =>
    refine settle_of_regionOf words ?_
    simp only [regionOf, flag, malformed]
  | inputUnnamed | inputUnread | inputText | words => cases hstage

/-- A step after the settings that fails leaves the pass without an output. -/
theorem pass_of_failsFirst {stage : Stage} (h : FailsFirst platform view args stage f)
    (hstage : stage.isOfInput = true) :
    ∃ job, settle platform view args = .ok job ∧
      job.pass view = ⟨job.extensionNotice, .error f⟩ := by
  cases h with
  | inputUnnamed settled unnamed =>
    refine ⟨_, settled, ?_⟩
    simp only [Job.pass, source, FileView.load, unnamed, Bool.false_eq_true, if_false]
  | inputUnread settled named unread =>
    refine ⟨_, settled, ?_⟩
    simp only [Job.pass, source, FileView.load, named, unread, if_true]
  | inputText settled read undecodable =>
    refine ⟨_, settled, ?_⟩
    simp only [Job.pass, source, read, undecodable]
  | words settled source refused =>
    refine ⟨_, settled, ?_⟩
    simp only [Job.pass, source, refused]
  | configLost | configUnread | configText | configForm | keywordSets | keywordForm | keywordWord
  | regionForm => cases hstage

/-- What a step that fails comes to: nothing is written, and the fault is reported with the exit
code of the step, or ends the run unreported. -/
theorem outcome_of_failsFirst {stage : Stage} (h : FailsFirst platform view args stage f) :
    ∃ reports : List Effect, (∀ e ∈ reports, e.isWrite = false) ∧
      outcome platform view args =
        if stage.escapes f then (reports, .escaped f)
        else (reports ++ [.reportLine f.line], .exit stage.code) := by
  cases hstage : stage.isOfInput with
  | false =>
    refine ⟨[], List.forall_mem_nil _, ?_⟩
    simp only [outcome, settle_of_failsFirst h hstage]
    cases h with
    | @configForm _ _ f _ _ _ => cases f <;> rfl
    | @keywordSets _ f _ _ =>
      rcases RunFault.ofKeywords_cases platform.writingRoom f with hf | ⟨l, hf⟩ <;>
        rw [hf] <;> rfl
    | configLost | configUnread | configText | keywordForm | keywordWord | regionForm => rfl
    | inputUnnamed | inputUnread | inputText | words => cases hstage
  | true =>
    obtain ⟨job, hjob, hpass⟩ := pass_of_failsFirst h hstage
    refine ⟨[.report job.extensionNotice], List.forall_mem_singleton.mpr rfl, ?_⟩
    simp only [outcome, hjob, once, hpass]
    cases h <;> first | rfl | cases hstage

/-- What is delivered is the whole output. -/
theorem eq_put_of_deliver (h : job.deliver view output = .ok e) : e = job.put output := by
  unfold deliver at h
  unfold put
  cases hdest : job.output with
  | none =>
    rw [hdest] at h
    exact (Except.ok.inj h).symm
  | some p =>
    simp only [hdest] at h
    split at h
    · split at h
      · cases h
      · exact (Except.ok.inj h).symm
    · cases h

/-- What a run comes to whose steps all succeed: its output is written whole, unless the destination
cannot be written. -/
theorem outcome_of_completes (h : Completes platform view args job output) :
    ∃ notices, outcome platform view args =
      match job.deliver view output with
      | .ok _ => ([.report notices, job.put output], .exit 0)
      | .error f => ([.report notices], .escaped f) := by
  obtain ⟨hjob, t, session, hsource, hstart, houtput⟩ := h
  have hpass : (job.pass view).result = .ok output := by
    simp only [Job.pass, hsource, hstart, houtput]
  refine ⟨(job.pass view).notices, ?_⟩
  simp only [outcome, hjob, once, hpass]
  cases hdeliver : job.deliver view output with
  | error f => rfl
  | ok e => rw [eq_put_of_deliver hdeliver]

/-! ## All or nothing -/

theorem Stage.code_ne_zero (stage : Stage) : stage.code ≠ 0 := by
  unfold code
  split <;> decide

/-- A run that ends with an exit code after a step failed has the code of this step, has written
nothing, and has reported the fault. -/
theorem exit_of_failsFirst {stage : Stage} {code : Nat} (h : FailsFirst platform view args stage f)
    (hcode : (outcome platform view args).2 = .exit code) :
    code = stage.code ∧ (outcome platform view args).1.filter Effect.isWrite = [] ∧
      .reportLine f.line ∈ (outcome platform view args).1 := by
  obtain ⟨reports, hreports, houtcome⟩ := outcome_of_failsFirst h
  have hnone : reports.filter Effect.isWrite = [] := by
    rw [List.filter_eq_nil_iff]
    intro e he
    rw [hreports e he]
    decide
  rw [houtcome] at hcode ⊢
  split at hcode
  next => cases hcode
  next hreported =>
    rw [if_neg hreported]
    refine ⟨(Ending.exit.inj hcode).symm, ?_, List.mem_append_right _ List.mem_cons_self⟩
    rw [List.filter_append, hnone]
    rfl

/-- A run that ends with an exit code after all steps succeeded has the code 0 and has written its
output whole. -/
theorem exit_of_completes {code : Nat} (h : Completes platform view args job output)
    (hcode : (outcome platform view args).2 = .exit code) :
    code = 0 ∧ (outcome platform view args).1.filter Effect.isWrite = [job.put output] := by
  obtain ⟨notices, houtcome⟩ := outcome_of_completes h
  rw [houtcome] at hcode ⊢
  cases hdeliver : job.deliver view output with
  | error f =>
    rw [hdeliver] at hcode
    cases hcode
  | ok e =>
    rw [hdeliver] at hcode
    refine ⟨(Ending.exit.inj hcode).symm, ?_⟩
    dsimp only
    rw [List.filter_cons_of_neg Bool.false_ne_true, List.filter_cons_of_pos (isWrite_put output),
      List.filter_nil]

/-- **A run writes its output whole or not at all.** Let the command line give settings that do not
ask to watch, and let the run end with an exit code. The code is 0 exactly when all steps succeed.
Then the one thing written is the whole output, to the destination of the job, and a quiet world is
changed by that alone. With any other code nothing is written, and a quiet world stays as it is.
The code is 2 exactly when the first step that fails asks for the form of a keyword or of the
region, and 1 exactly when it is any other. -/
theorem run_all_or_nothing {w : World σ} {arguments : List (List Char)} {code : Nat}
    (hread : CommandLine.Arguments.read w.platform.dialect arguments = .ok args)
    (hwatch : args.watch = false) (s : σ) (changes : List (σ → σ))
    (hcode : (run w arguments s changes).ending = .exit code) :
    (code = 0 ↔ ∃ job output, Completes w.platform (w.view s) args job output) ∧
      (∀ job output, Completes w.platform (w.view s) args job output →
        (run w arguments s changes).rounds.flatten.filter Effect.isWrite = [job.put output] ∧
          (w.Quiet → (run w arguments s changes).final = w.perform (job.put output) s)) ∧
      (code ≠ 0 →
        (run w arguments s changes).rounds.flatten.filter Effect.isWrite = [] ∧
          (w.Quiet → (run w arguments s changes).final = s)) ∧
      (code = 2 ↔ ∃ stage f, FailsFirst w.platform (w.view s) args stage f ∧
        stage.isFlagForm = true) ∧
      (code = 1 ↔ ∃ stage f, FailsFirst w.platform (w.view s) args stage f ∧
        stage.isFlagForm = false) := by
  have hrun := run_eq_outcome hread hwatch s changes
  simp only [hrun, List.flatten_singleton] at hcode ⊢
  have hstage (stage f) (h : FailsFirst w.platform (w.view s) args stage f) : code = stage.code :=
    (exit_of_failsFirst h hcode).1
  have hzero (job output) (h : Completes w.platform (w.view s) args job output) : code = 0 :=
    (exit_of_completes h hcode).1
  have hform (form : Bool) : (code = if form then 2 else 1) ↔
      ∃ stage f, FailsFirst w.platform (w.view s) args stage f ∧ stage.isFlagForm = form := by
    constructor
    · intro h
      rcases fails_or_completes w.platform (w.view s) args with ⟨stage, f, hfails⟩ |
        ⟨job, output, hcompletes⟩
      · refine ⟨stage, f, hfails, ?_⟩
        rw [hstage stage f hfails, Stage.code] at h
        revert h
        cases stage.isFlagForm <;> cases form <;> decide
      · rw [hzero job output hcompletes] at h
        cases form <;> cases h
    · rintro ⟨stage, f, hfails, rfl⟩
      exact hstage stage f hfails
  refine ⟨⟨?_, ?_⟩, ?_, ?_, hform true, hform false⟩
  · intro h
    rcases fails_or_completes w.platform (w.view s) args with ⟨stage, f, hfails⟩ | hcompletes
    · exact absurd ((hstage stage f hfails).symm.trans h) stage.code_ne_zero
    · exact hcompletes
  · rintro ⟨job, output, h⟩
    exact hzero job output h
  · intro job output h
    obtain ⟨-, hwrites⟩ := exit_of_completes h hcode
    refine ⟨hwrites, fun hquiet => ?_⟩
    rw [← hquiet.performAll_filter, hwrites]
    rfl
  · intro h
    rcases fails_or_completes w.platform (w.view s) args with ⟨stage, f, hfails⟩ |
      ⟨job, output, hcompletes⟩
    · obtain ⟨-, hwrites, -⟩ := exit_of_failsFirst hfails hcode
      refine ⟨hwrites, fun hquiet => ?_⟩
      rw [← hquiet.performAll_filter, hwrites]
      rfl
    · exact absurd (hzero job output hcompletes) h

/-- A comment in `main.v`, with no configuration file. -/
def commentTree : FileTree := FileTree.empty.plant (.ofChars "main.v".toList) [47, 47] 1

/-- Trees on the platform as it mostly is. -/
def treeWorld : World FileTree := FileTree.world .standard

/-- The theorem holds of two runs over a comment: one saves its spans, the other is given a keyword
of no form and a region of none either. -/
theorem run_all_or_nothing_comment :
    let saved := run treeWorld ["main.v".toList, "-o".toList, "out".toList] commentTree []
    let failed := run treeWorld
      ["main.v".toList, "-k".toList, "red".toList, "--region".toList, "x".toList] commentTree []
    saved.final =
        FileTree.perform (.save (.ofChars "out".toList) "0\t2\tcomment\n".toList) commentTree ∧
      failed.rounds.flatten.filter Effect.isWrite = [] ∧ failed.final = commentTree := by
  intro saved failed
  have hcomputed : saved.ending.code? = some 0 ∧ saved.rounds.flatten.filter Effect.isWrite =
      [.save (.ofChars "out".toList) "0\t2\tcomment\n".toList] := by
    decide +kernel
  have hsaved : saved.ending = .exit 0 := Ending.code?_eq_some_iff.mp hcomputed.1
  have hfailed : failed.ending = .exit 2 := Ending.code?_eq_some_iff.mp (by decide +kernel)
  obtain ⟨hzero, hput, -⟩ := run_all_or_nothing rfl rfl commentTree [] hsaved
  obtain ⟨job, output, hcompletes⟩ := hzero.mp rfl
  obtain ⟨hwrites, hfinal⟩ := hput job output hcompletes
  obtain ⟨-, -, hnothing, -⟩ := run_all_or_nothing rfl rfl commentTree [] hfailed
  obtain ⟨hnone, hkept⟩ := hnothing (by decide)
  refine ⟨?_, hnone, hkept (FileTree.world_quiet _)⟩
  rw [← List.singleton_inj.mp (hwrites.symm.trans hcomputed.2)]
  exact hfinal (FileTree.world_quiet _)

/-! ## What is not reported -/

/-- What ends a run unreported: a step whose fault escapes, or a destination that cannot be
written. -/
inductive Escapes (platform : Platform) (view : FileView) (args : CommandLine.Arguments) :
    RunFault → Prop where
  | step {stage : Stage} {f : RunFault} (fails : FailsFirst platform view args stage f)
      (unreported : stage.escapes f = true) : Escapes platform view args f
  | delivery {job : Job} {output : List Char} {f : RunFault}
      (completes : Completes platform view args job output)
      (lost : job.deliver view output = .error f) : Escapes platform view args f

theorem outcome_of_escapes (h : Escapes platform view args f) :
    (outcome platform view args).2 = .escaped f := by
  cases h with
  | step fails unreported =>
    obtain ⟨reports, -, houtcome⟩ := outcome_of_failsFirst fails
    rw [houtcome, if_pos unreported]
  | delivery completes lost =>
    obtain ⟨notices, houtcome⟩ := outcome_of_completes completes
    rw [houtcome, lost]

/-- A run ends with an exit code, or a fault escapes. -/
theorem escapes_or_exit (platform : Platform) (view : FileView) (args : CommandLine.Arguments) :
    (∃ f, Escapes platform view args f) ∨
      ∃ code ≤ 2, (outcome platform view args).2 = .exit code := by
  rcases fails_or_completes platform view args with ⟨stage, f, hfails⟩ | ⟨job, output, hcompletes⟩
  · cases hescapes : stage.escapes f with
    | true => exact .inl ⟨f, .step hfails hescapes⟩
    | false =>
      obtain ⟨reports, -, houtcome⟩ := outcome_of_failsFirst hfails
      refine .inr ⟨stage.code, ?_, ?_⟩
      · unfold Stage.code
        split <;> decide
      · rw [houtcome, hescapes]
        rfl
  · obtain ⟨notices, houtcome⟩ := outcome_of_completes hcompletes
    cases hdeliver : job.deliver view output with
    | error f => exact .inl ⟨f, .delivery hcompletes hdeliver⟩
    | ok e => exact .inr ⟨0, by decide, by rw [houtcome, hdeliver]⟩

/-- **Which failures a run reports.** Let the command line give settings that do not ask to watch. A
fault escapes exactly when the configuration file cannot be looked for, read or decoded, when its
form or the words for what is wrong with its keyword sets hit a limit, when the input's path cannot
name a file, or when all steps succeed and the destination cannot be written. In every other case
the run ends with the exit code 0, 1 or 2, and if a step fails, with a code other than 0 after the
fault is reported. -/
theorem run_reports_failures {w : World σ} {arguments : List (List Char)}
    (hread : CommandLine.Arguments.read w.platform.dialect arguments = .ok args)
    (hwatch : args.watch = false) (s : σ) (changes : List (σ → σ)) :
    (∀ f, (run w arguments s changes).ending = .escaped f ↔ Escapes w.platform (w.view s) args f) ∧
      ((∀ f, ¬ Escapes w.platform (w.view s) args f) →
        ∃ code ≤ 2, (run w arguments s changes).ending = .exit code ∧
          ∀ stage f, FailsFirst w.platform (w.view s) args stage f →
            code ≠ 0 ∧ .reportLine f.line ∈ (run w arguments s changes).rounds.flatten) := by
  have hrun := run_eq_outcome hread hwatch s changes
  simp only [hrun, List.flatten_singleton]
  refine ⟨fun f => ⟨?_, outcome_of_escapes⟩, ?_⟩
  · intro hending
    rcases escapes_or_exit w.platform (w.view s) args with ⟨f', hescapes⟩ | ⟨code, -, hcode⟩
    · obtain rfl := Ending.escaped.inj (hending.symm.trans (outcome_of_escapes hescapes))
      exact hescapes
    · cases hending.symm.trans hcode
  · intro hnone
    rcases escapes_or_exit w.platform (w.view s) args with ⟨f, hescapes⟩ | ⟨code, hle, hcode⟩
    · exact absurd hescapes (hnone f)
    · refine ⟨code, hle, hcode, ?_⟩
      intro stage f hfails
      obtain ⟨rfl, -, hreported⟩ := exit_of_failsFirst hfails hcode
      exact ⟨stage.code_ne_zero, hreported⟩

/-- The theorem holds of a run over an input that is not there: it has a line for the fault of the
step that fails. -/
theorem run_reports_missing_input :
    let r := run treeWorld ["gone.v".toList] commentTree []
    ∃ stage f, FailsFirst treeWorld.platform (treeWorld.view commentTree)
        (.initial "gone.v".toList) stage f ∧
      .reportLine f.line ∈ r.rounds.flatten := by
  intro r
  have hread : CommandLine.Arguments.read treeWorld.platform.dialect ["gone.v".toList] =
      .ok (.initial "gone.v".toList) := by
    decide +kernel
  have hending : r.ending = .exit 1 := Ending.code?_eq_some_iff.mp (by decide +kernel)
  obtain ⟨hescapes, hreported⟩ := run_reports_failures hread rfl commentTree []
  obtain ⟨code, -, -, hline⟩ := hreported fun f h => by
    cases hending.symm.trans ((hescapes f).mpr h)
  rcases fails_or_completes treeWorld.platform (treeWorld.view commentTree)
    (.initial "gone.v".toList) with
    ⟨stage, f, hfails⟩ | ⟨job, output, hcompletes⟩
  · exact ⟨stage, f, hfails, (hline stage f hfails).2⟩
  · have hrun := run_eq_outcome hread rfl commentTree []
    have hcode := (congrArg Run.ending hrun).symm.trans hending
    cases (exit_of_completes hcompletes hcode).1

/-- A configuration file that is no text ends a run unreported, and so do one whose brackets stand
inside each other too deep and a destination that is a directory. -/
theorem run_escapes_unreported :
    let configured (bytes : List UInt8) := run treeWorld ["main.v".toList]
      (commentTree.plant (.ofChars "vhighlight.toml".toList) bytes 1) []
    let undecodable := configured [255]
    let deep := configured (97 :: 61 :: List.replicate 600 91)
    let blocked := run treeWorld ["main.v".toList, "-o".toList, "out".toList]
      (commentTree.plantDirectory (.ofChars "out".toList)) []
    (undecodable.ending.isEscape = true ∧ Effect.reported undecodable.rounds.flatten = []) ∧
      (deep.ending.isEscape = true ∧ Effect.reported deep.rounds.flatten = []) ∧
      blocked.ending.isEscape = true ∧ Effect.reported blocked.rounds.flatten = [] := by
  decide +kernel

end Program
end VSyntax
