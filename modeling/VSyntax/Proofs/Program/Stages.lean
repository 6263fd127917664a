import VSyntax.Proofs.Watch

/-!
# The steps of a run that can fail

A run that does not watch takes its steps in a fixed order: it looks for the configuration file and
reads it, settles the keyword sets, the keyword flags from left to right and the region, then reads
the input and builds its tables. `Stage` names the steps, `FailsFirst` says what it is for one of
them to be the first that fails, and `Completes` that none does.

`fails_or_completes` says that there is no third case: it follows the settling of the job from its
last function back to its first, each of which fails where one of its steps does.
-/
namespace VSyntax

variable {platform : Platform} {view : FileView} {args : CommandLine.Arguments} {job : Job}
  {f : RunFault} {table : List (String × Datum)} {v v' : Vocabulary}

namespace Program

/-- A step of a run that can fail. -/
inductive Stage where
  /-- The configuration file is looked for and read. -/
  | configFile
  /-- Its bytes are decoded. -/
  | configText
  /-- Its table is read. -/
  | configForm
  /-- The keyword sets of the table replace the standard ones. -/
  | keywordSets
  /-- The value of a keyword flag is parted. -/
  | keywordForm
  /-- The word of a keyword flag is added to its set. -/
  | keywordWord
  /-- The value of the region flag is read. -/
  | regionForm
  /-- The input is read. -/
  | inputFile
  /-- Its bytes are decoded. -/
  | inputText
  /-- The tables for the words are built. -/
  | words
  deriving DecidableEq, Repr

namespace Stage

/-- Whether a step asks for the form of a flag's value. -/
def isFlagForm : Stage → Bool
  | .keywordForm | .regionForm => true
  | _ => false

/-- Whether a step comes after the settings are resolved. -/
def isOfInput : Stage → Bool
  | .inputFile | .inputText | .words => true
  | _ => false

/-- The exit code of a run that reports the fault of a step. -/
def code (stage : Stage) : Nat := if stage.isFlagForm then 2 else 1

/-- Whether the fault of a step is left unreported. -/
def escapes : Stage → RunFault → Bool
  | .configFile, _ => true
  | .configText, _ => true
  | .configForm, .limit _ => true
  | .keywordSets, .limit _ => true
  | .inputFile, .unnameable => true
  | _, _ => false

end Stage

/-- There is a configuration file, and it holds these bytes. -/
structure HasConfig (view : FileView) (args : CommandLine.Arguments) (bytes : List UInt8) :
    Prop where
  named : (Job.configPath args).isNameable = true
  found : view.isFile (Job.configPath args) = .ok true
  read : view.read (Job.configPath args) = .ok bytes

/-- The steps before the keyword flags succeed, and so do the flags `before`. -/
def HasWords (platform : Platform) (view : FileView) (args : CommandLine.Arguments)
    (before : List (List Char)) (v : Vocabulary) : Prop :=
  ∃ table standard, Job.readConfig platform view (Job.configPath args) = .ok table ∧
    Job.configVocabulary table = .ok standard ∧ Job.addKeywords standard before = .ok v

/-- The step is the first that fails, with this fault. -/
inductive FailsFirst (platform : Platform) (view : FileView) (args : CommandLine.Arguments) :
    Stage → RunFault → Prop where
  | configLost {f : FileFault} (named : (Job.configPath args).isNameable = true)
      (lost : view.isFile (Job.configPath args) = .error f) :
      FailsFirst platform view args .configFile (.file f)
  | configUnread {f : FileFault} (named : (Job.configPath args).isNameable = true)
      (found : view.isFile (Job.configPath args) = .ok true)
      (unread : view.read (Job.configPath args) = .error f) :
      FailsFirst platform view args .configFile (.file f)
  | configText {bytes : List UInt8} {f : Utf8.Malformed} (config : HasConfig view args bytes)
      (undecodable : Utf8.decode bytes = .error f) :
      FailsFirst platform view args .configText (.undecodable f)
  | configForm {bytes : List UInt8} {cs : List Char} {f : Toml.Fault}
      (config : HasConfig view args bytes) (decoded : Utf8.decode bytes = .ok cs)
      (unread : Toml.read platform.readingRoom cs = .error f) :
      FailsFirst platform view args .configForm (.ofToml f)
  | keywordSets {table : List (String × Datum)} {f : Fault}
      (config : Job.readConfig platform view (Job.configPath args) = .ok table)
      (refused : Job.configVocabulary table = .error f) :
      FailsFirst platform view args .keywordSets (.ofKeywords platform.writingRoom f)
  | keywordForm {before after : List (List Char)} {value : List Char} {v : Vocabulary}
      {f : CommandLine.ValueFault} (flags : args.keywords = before ++ value :: after)
      (words : HasWords platform view args before v)
      (malformed : CommandLine.readKeyword value = .error f) :
      FailsFirst platform view args .keywordForm (.value f)
  | keywordWord {before after : List (List Char)} {value set word : List Char} {v : Vocabulary}
      {f : Fault} (flags : args.keywords = before ++ value :: after)
      (words : HasWords platform view args before v)
      (parted : CommandLine.readKeyword value = .ok (set, word))
      (refused : v.extend (String.ofList set) (.list [.text (String.ofList word)]) = .error f) :
      FailsFirst platform view args .keywordWord (.refused f)
  | regionForm {v : Vocabulary} {value : List Char} {f : CommandLine.ValueFault}
      (words : HasWords platform view args args.keywords v)
      (flag : Job.given args.region = some value)
      (malformed : CommandLine.readRegion value = .error f) :
      FailsFirst platform view args .regionForm (.value f)
  | inputUnnamed {job : Job} (settled : Job.settle platform view args = .ok job)
      (unnamed : job.input.isNameable = false) :
      FailsFirst platform view args .inputFile .unnameable
  | inputUnread {job : Job} {f : FileFault} (settled : Job.settle platform view args = .ok job)
      (named : job.input.isNameable = true) (unread : view.read job.input = .error f) :
      FailsFirst platform view args .inputFile (.file f)
  | inputText {job : Job} {bytes : List UInt8} {f : Utf8.Malformed}
      (settled : Job.settle platform view args = .ok job) (read : view.load job.input = .ok bytes)
      (undecodable : SourceFile.read bytes = .error f) :
      FailsFirst platform view args .inputText (.undecodable f)
  | words {job : Job} {t : Text} {f : Fault} (settled : Job.settle platform view args = .ok job)
      (source : job.source view = .ok t)
      (refused : Session.start job.vocabulary .standard = .error f) :
      FailsFirst platform view args .words (.refused f)

/-- All steps succeed: the settings resolve to a job, its input is read and decoded, its tables are
built, and the text has this output. -/
structure Completes (platform : Platform) (view : FileView) (args : CommandLine.Arguments)
    (job : Job) (output : List Char) : Prop where
  settled : Job.settle platform view args = .ok job
  passed : ∃ t session, job.source view = .ok t ∧
    Session.start job.vocabulary .standard = .ok session ∧
    (job.passText session t).result = .ok output

end Program

namespace Job

/-! ## Settling -/

theorem addKeyword_cases (v : Vocabulary) (value : List Char) :
    (∃ f, CommandLine.readKeyword value = .error f ∧ addKeyword v value = .error (.value f)) ∨
      ∃ set word, CommandLine.readKeyword value = .ok (set, word) ∧
        ((∃ f, v.extend (String.ofList set) (.list [.text (String.ofList word)]) = .error f ∧
          addKeyword v value = .error (.refused f)) ∨
        ∃ w, addKeyword v value = .ok w) := by
  unfold addKeyword
  cases hform : CommandLine.readKeyword value with
  | error f => exact .inl ⟨f, rfl, rfl⟩
  | ok parts =>
    obtain ⟨set, word⟩ := parts
    refine .inr ⟨set, word, rfl, ?_⟩
    dsimp only
    cases hword : v.extend (String.ofList set) (.list [.text (String.ofList word)]) with
    | error f => exact .inl ⟨f, rfl, rfl⟩
    | ok w => exact .inr ⟨w, rfl⟩

theorem addKeywords_cons {w : Vocabulary} {value : List Char} (h : addKeyword v value = .ok w)
    (values : List (List Char)) : addKeywords v (value :: values) = addKeywords w values := by
  simp only [addKeywords, List.foldlM_cons, h]
  rfl

theorem addKeywords_cons_of_error {value : List Char} (h : addKeyword v value = .error f)
    (values : List (List Char)) : addKeywords v (value :: values) = .error f := by
  simp only [addKeywords, List.foldlM_cons, h]
  rfl

/-- The first flag that fails decides the fault. -/
theorem addKeywords_append_of_error {before after : List (List Char)} {value : List Char}
    (hbefore : addKeywords v before = .ok v') (h : addKeyword v' value = .error f) :
    addKeywords v (before ++ value :: after) = .error f := by
  unfold addKeywords at hbefore
  rw [addKeywords, List.foldlM_append, hbefore]
  exact addKeywords_cons_of_error h after

/-- A fault of the keyword flags is that of the first that fails. -/
theorem exists_first_of_addKeywords {values : List (List Char)}
    (h : addKeywords v values = .error f) :
    ∃ before value after v', values = before ++ value :: after ∧
      addKeywords v before = .ok v' ∧ addKeyword v' value = .error f := by
  induction values generalizing v with
  | nil => cases h
  | cons value values ih =>
    cases hvalue : addKeyword v value with
    | error f' =>
      rw [addKeywords_cons_of_error hvalue] at h
      cases h
      exact ⟨[], value, values, v, rfl, rfl, hvalue⟩
    | ok w =>
      rw [addKeywords_cons hvalue] at h
      obtain ⟨before, first, after, v', rfl, hbefore, hfirst⟩ := ih h
      exact ⟨value :: before, first, after, v', rfl,
        (addKeywords_cons hvalue before).trans hbefore, hfirst⟩

end Job

namespace Program

open Job

theorem readConfig_of_hasConfig {bytes : List UInt8} (h : HasConfig view args bytes) :
    readConfig platform view (configPath args) = parseConfig platform bytes := by
  simp only [readConfig, h.named, h.found, h.read, if_true]

/-- A configuration that cannot be settled fails at one of its three steps. -/
theorem failsFirst_of_readConfig (h : readConfig platform view (configPath args) = .error f) :
    ∃ stage, FailsFirst platform view args stage f := by
  cases hname : (configPath args).isNameable with
  | false =>
    rw [readConfig, hname] at h
    cases h
  | true =>
    cases hfound : view.isFile (configPath args) with
    | error e =>
      simp only [readConfig, hname, hfound, if_true] at h
      cases h
      exact ⟨_, .configLost hname hfound⟩
    | ok found =>
      cases found with
      | false =>
        simp only [readConfig, hname, hfound, if_true] at h
        cases h
      | true =>
        cases hread : view.read (configPath args) with
        | error e =>
          simp only [readConfig, hname, hfound, hread, if_true] at h
          cases h
          exact ⟨_, .configUnread hname hfound hread⟩
        | ok bytes =>
          have hconfig : HasConfig view args bytes := ⟨hname, hfound, hread⟩
          rw [readConfig_of_hasConfig hconfig, parseConfig] at h
          cases htext : Utf8.decode bytes with
          | error e =>
            rw [htext] at h
            cases h
            exact ⟨_, .configText hconfig htext⟩
          | ok cs =>
            simp only [htext] at h
            cases htable : Toml.read platform.readingRoom cs with
            | error e =>
              rw [htable] at h
              cases h
              exact ⟨_, .configForm hconfig htext htable⟩
            | ok table =>
              rw [htable] at h
              cases h

/-- Keyword sets and flags that cannot be settled fail at one of their three steps. -/
theorem failsFirst_of_vocabularyOf
    (hconfig : readConfig platform view (configPath args) = .ok table)
    (h : vocabularyOf platform table args.keywords = .error f) :
    ∃ stage, FailsFirst platform view args stage f := by
  rw [vocabularyOf] at h
  cases hsets : configVocabulary table with
  | error e =>
    rw [hsets] at h
    cases h
    exact ⟨_, .keywordSets hconfig hsets⟩
  | ok standard =>
    simp only [hsets] at h
    obtain ⟨before, value, after, v, hflags, hbefore, hvalue⟩ := exists_first_of_addKeywords h
    have hwords : HasWords platform view args before v := ⟨table, standard, hconfig, hsets, hbefore⟩
    rcases addKeyword_cases v value with ⟨e, hform, herror⟩ |
      ⟨set, word, hform, ⟨e, hword, herror⟩ | ⟨w, hok⟩⟩
    · cases hvalue.symm.trans herror
      exact ⟨_, .keywordForm hflags hwords hform⟩
    · cases hvalue.symm.trans herror
      exact ⟨_, .keywordWord hflags hwords hform hword⟩
    · cases hvalue.symm.trans hok

theorem failsFirst_of_regionOf (hwords : HasWords platform view args args.keywords v)
    (h : regionOf args.region = .error f) : ∃ stage, FailsFirst platform view args stage f := by
  rw [regionOf] at h
  cases hgiven : given args.region with
  | none =>
    rw [hgiven] at h
    cases h
  | some value =>
    simp only [hgiven] at h
    cases hform : CommandLine.readRegion value with
    | error e =>
      rw [hform] at h
      cases h
      exact ⟨_, .regionForm hwords hgiven hform⟩
    | ok r =>
      rw [hform] at h
      cases h

theorem hasWords_iff : HasWords platform view args args.keywords v ↔
    ∃ table, readConfig platform view (configPath args) = .ok table ∧
      vocabularyOf platform table args.keywords = .ok v := by
  constructor
  · rintro ⟨table, standard, hconfig, hsets, hwords⟩
    exact ⟨table, hconfig, by simp only [vocabularyOf, hsets, hwords]⟩
  · rintro ⟨table, hconfig, hwords⟩
    rw [vocabularyOf] at hwords
    cases hsets : configVocabulary table with
    | error e =>
      rw [hsets] at hwords
      cases hwords
    | ok standard =>
      rw [hsets] at hwords
      exact ⟨table, standard, hconfig, hsets, hwords⟩

/-- Settings that cannot be resolved fail at some step. -/
theorem failsFirst_of_settle (h : settle platform view args = .error f) :
    ∃ stage, FailsFirst platform view args stage f := by
  rw [settle] at h
  cases hconfig : readConfig platform view (configPath args) with
  | error e =>
    rw [hconfig] at h
    cases h
    exact failsFirst_of_readConfig hconfig
  | ok table =>
    simp only [hconfig] at h
    cases hvocabulary : vocabularyOf platform table args.keywords with
    | error e =>
      rw [hvocabulary] at h
      cases h
      exact failsFirst_of_vocabularyOf hconfig hvocabulary
    | ok v =>
      simp only [hvocabulary] at h
      cases hregion : regionOf args.region with
      | error e =>
        rw [hregion] at h
        cases h
        exact failsFirst_of_regionOf (hasWords_iff.mpr ⟨table, hconfig, hvocabulary⟩) hregion
      | ok region =>
        rw [hregion] at h
        cases h

/-- A settled run whose input has no text fails at one of two steps. -/
theorem failsFirst_of_source (hjob : settle platform view args = .ok job)
    (h : job.source view = .error f) : ∃ stage, FailsFirst platform view args stage f := by
  rw [source] at h
  cases hload : view.load job.input with
  | error e =>
    rw [hload] at h
    cases h
    unfold FileView.load at hload
    cases hname : job.input.isNameable with
    | false =>
      rw [hname] at hload
      cases hload
      exact ⟨_, .inputUnnamed hjob hname⟩
    | true =>
      rw [hname, if_pos rfl] at hload
      cases hread : view.read job.input with
      | error e =>
        rw [hread] at hload
        cases hload
        exact ⟨_, .inputUnread hjob hname hread⟩
      | ok bytes =>
        rw [hread] at hload
        cases hload
  | ok bytes =>
    simp only [hload] at h
    cases htext : SourceFile.read bytes with
    | error e =>
      rw [htext] at h
      cases h
      exact ⟨_, .inputText hjob hload htext⟩
    | ok t =>
      rw [htext] at h
      cases h

/-- Some step is the first that fails, or all succeed. -/
theorem fails_or_completes (platform : Platform) (view : FileView)
    (args : CommandLine.Arguments) : (∃ stage f, FailsFirst platform view args stage f) ∨
      ∃ job output, Completes platform view args job output := by
  cases hjob : settle platform view args with
  | error f =>
    obtain ⟨stage, hfails⟩ := failsFirst_of_settle hjob
    exact .inl ⟨stage, f, hfails⟩
  | ok job =>
    cases hsource : job.source view with
    | error f =>
      obtain ⟨stage, hfails⟩ := failsFirst_of_source hjob hsource
      exact .inl ⟨stage, f, hfails⟩
    | ok t =>
      cases hstart : Session.start job.vocabulary .standard with
      | error e => exact .inl ⟨_, _, .words hjob hsource hstart⟩
      | ok session =>
        obtain ⟨output, houtput⟩ := exists_output_of_start hstart t
        exact .inr ⟨job, output, hjob, t, session, hsource, hstart, houtput⟩

end Program
end VSyntax
