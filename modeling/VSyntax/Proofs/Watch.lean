import VSyntax.Watch
import VSyntax.Proofs.Session

/-!
# What a watching run writes

A poll writes the output of its pass whole, or nothing: nothing if the input is not there, if it has
the time seen last, or if the pass fails; a fault is reported and the watching goes on
(`poll_spec`). By induction on the polls, a run writes at each poll what the polls before it leave
due there (`watch_trace`).

The time seen is remembered before the pass is made. So a version of the input gets one pass at
most, at the first poll that finds its time: none if that is the time that a run starts with, and no
second one if the first fails. `watch_keeps_last` says which last versions are written.
-/
namespace VSyntax

variable {σ : Type} {job : Job} {view : FileView} {seen time : Int}

/-- Whether an effect brings an output to its destination. -/
def Effect.isWrite : Effect → Bool
  | .report _ => false
  | .print _ | .save _ _ => true

/-- A world that goes through views of its own, whatever is done to it. -/
def World.scripted : World FileView := ⟨.standard, id, fun _ view => view⟩

/-- A view in which every path leads to the same, and can be written. -/
def FileView.everywhere (entry : Except FileError FileEntry) : FileView :=
  ⟨fun _ => entry, fun _ => none⟩

namespace Job

/-- The paths of a job can name files. -/
structure Nameable (job : Job) : Prop where
  input : job.input.isNameable = true
  output : ∀ p ∈ job.output, p.isNameable = true

/-! ## What is due -/

/-- The effect that puts an output at the destination of a job. -/
def put (job : Job) (output : List Char) : Effect :=
  match job.output with
  | none => .print output
  | some p => .save p output

/-- Whether the destination of a job can be written. -/
def accepts (job : Job) (view : FileView) : Bool :=
  job.output.all fun p => (view.writeError? p).isNone

/-- The output of a poll after the time `seen` was seen: that of the pass over the input, if its
time is another one and the pass succeeds. -/
def due? (job : Job) (seen : Int) (view : FileView) : Option (List Char) :=
  match view.time? job.input with
  | none => none
  | some time => if time = seen then none else (job.pass view).result.toOption

/-- What a poll writes after the time `seen` was seen. -/
def writes (job : Job) (seen : Int) (view : FileView) : List Effect :=
  if job.accepts view then (job.due? seen view).toList.map job.put else []

/-- The time last seen after polls that found `views`. -/
def seenAfter (job : Job) (seen : Int) (views : List FileView) : Int :=
  (views.filterMap fun view => view.time? job.input).getLastD seen

/-- What each of the polls that find `views` writes. -/
def trace (job : Job) : Int → List FileView → List (List Effect)
  | _, [] => []
  | seen, view :: views =>
    job.writes seen view :: job.trace ((view.time? job.input).getD seen) views

/-- The views that the polls of a watching run find. -/
def views (job : Job) (w : World σ) : Int → σ → List (σ → σ) → List FileView
  | _, s, [] => [w.view s]
  | seen, s, change :: changes =>
    let p := job.poll (w.view s) seen
    w.view s :: job.views w p.seen (change (w.performAll p.effects s)) changes

/-! ## One pass -/

/-- With the tables built, every text has its output. -/
theorem exists_output_of_start {v : Vocabulary} {d : Delimiters} {s : Session}
    (h : Session.start v d = .ok s) (t : Text) :
    ∃ output, (job.passText s t).result = .ok output := by
  unfold passText
  split
  next =>
    obtain ⟨entries, hentries⟩ := s.exists_outline t
    unfold passOutline
    rw [hentries]
    exact ⟨_, rfl⟩
  next =>
    obtain ⟨spans, hspans⟩ := Session.exists_classify h t job.region
    unfold passSpans
    rw [hspans]
    exact ⟨_, rfl⟩

/-- That an input that can be named has no text is reported. -/
theorem exists_line_of_source {f : RunFault} (hjob : job.Nameable)
    (h : job.source view = .error f) : ∃ line, f.ofPass? = some line := by
  rw [source, FileView.load, if_pos hjob.input] at h
  cases hread : view.read job.input with
  | error e =>
    rw [hread] at h
    cases h
    exact ⟨_, rfl⟩
  | ok bytes =>
    simp only [hread] at h
    cases htext : SourceFile.read bytes with
    | error e =>
      rw [htext] at h
      cases h
      exact ⟨_, rfl⟩
    | ok t =>
      rw [htext] at h
      cases h

/-- A fault of a pass over an input that can be named is reported. -/
theorem exists_line_of_pass {f : RunFault} (hjob : job.Nameable)
    (h : (job.pass view).result = .error f) : ∃ line, f.ofPass? = some line := by
  rw [pass] at h
  cases hsource : job.source view with
  | error e =>
    rw [hsource] at h
    cases h
    exact exists_line_of_source hjob hsource
  | ok t =>
    simp only [hsource] at h
    cases hstart : Session.start job.vocabulary .standard with
    | error e =>
      rw [hstart] at h
      cases h
      exact ⟨_, rfl⟩
    | ok s =>
      obtain ⟨output, houtput⟩ := exists_output_of_start hstart t
      simp only [hstart] at h
      cases houtput.symm.trans h

/-- An output is put at the destination of a job, if that can be written. -/
theorem deliver_of_accepts (hjob : job.Nameable) (h : job.accepts view = true)
    (output : List Char) :
    job.deliver view output = .ok (job.put output) := by
  unfold accepts at h
  unfold deliver put
  cases hdest : job.output with
  | none => rfl
  | some p =>
    rw [hdest, Option.all_some, Option.isNone_iff_eq_none] at h
    simp only [hjob.output p hdest, h, if_true]

/-- That the destination cannot be written is reported. -/
theorem deliver_of_not_accepts (hjob : job.Nameable) (h : job.accepts view = false)
    (output : List Char) :
    ∃ f line, job.deliver view output = .error f ∧ f.ofPass? = some line := by
  unfold accepts at h
  unfold deliver
  cases hdest : job.output with
  | none =>
    rw [hdest] at h
    cases h
  | some p =>
    cases hwrite : view.writeError? p with
    | none =>
      rw [hdest, Option.all_some, hwrite] at h
      cases h
    | some e =>
      simp only [hjob.output p hdest, hwrite, if_true]
      exact ⟨_, _, rfl, rfl⟩

/-- The output of a pass is that of the bytes of the input. -/
theorem pass_congr {view' : FileView} (h : view.load job.input = view'.load job.input) :
    job.pass view = job.pass view' := by
  simp only [pass, source, h]

/-! ## One poll -/

theorem pollFault_eq {notices : List Char} {f : RunFault} {line : String}
    (h : f.ofPass? = some line) :
    pollFault time notices f = ⟨time, [.report notices, .reportLine line], none⟩ := by
  simp only [pollFault, h]

/-- What becomes of a pass: its output is written, or there is none or nowhere to write it, and that
is reported. In either case the watching goes on from the time found. -/
theorem pollPass_cases (hjob : job.Nameable) (view : FileView) (time : Int) :
    (∃ output, (job.pass view).result = .ok output ∧ job.accepts view = true ∧
      job.pollPass view time =
        ⟨time, [.report (job.pass view).notices, job.put output, job.deliveredNotice], none⟩) ∨
    (((job.pass view).result.toOption = none ∨ job.accepts view = false) ∧ ∃ line,
      job.pollPass view time =
        ⟨time, [.report (job.pass view).notices, .reportLine line], none⟩) := by
  unfold pollPass
  cases hresult : (job.pass view).result with
  | error f =>
    obtain ⟨line, hline⟩ := exists_line_of_pass hjob hresult
    simp only [hresult, pollFault_eq hline]
    exact .inr ⟨.inl rfl, line, rfl⟩
  | ok output =>
    cases haccepts : job.accepts view with
    | true =>
      simp only [hresult, deliver_of_accepts hjob haccepts]
      exact .inl ⟨output, rfl, trivial, rfl⟩
    | false =>
      obtain ⟨f, line, hdeliver, hline⟩ := deliver_of_not_accepts hjob haccepts output
      simp only [hresult, hdeliver, pollFault_eq hline]
      exact .inr ⟨.inr trivial, line, rfl⟩

theorem isWrite_put (output : List Char) : (job.put output).isWrite = true := by
  unfold put
  cases job.output with
  | none => rfl
  | some p => rfl

/-- What a poll does: the watching goes on, the time found is remembered, and the output that is due
is written. -/
theorem poll_spec (hjob : job.Nameable) (view : FileView) (seen : Int) :
    (job.poll view seen).escape = none ∧
      (job.poll view seen).seen = (view.time? job.input).getD seen ∧
      (job.poll view seen).effects.filter Effect.isWrite = job.writes seen view := by
  simp only [poll, writes, due?, hjob.input, if_true]
  cases htime : view.time? job.input with
  | none => simp
  | some time =>
    by_cases hseen : time = seen
    · simp [hseen]
    · simp only [hseen, if_false, Option.getD_some]
      rcases pollPass_cases hjob view time with
        ⟨output, hresult, haccepts, hpoll⟩ | ⟨hnone, line, hpoll⟩
      · rw [hpoll, haccepts, hresult]
        refine ⟨rfl, rfl, ?_⟩
        simp only [List.filter_cons, isWrite_put]
        rfl
      · rw [hpoll]
        refine ⟨rfl, rfl, ?_⟩
        rcases hnone with hnone | hrefused
        · rw [hnone, Option.toList_none, List.map_nil, ite_self]
          rfl
        · rw [hrefused]
          rfl

theorem writes_eq_nil (h : ∀ t ≠ seen, view.time? job.input ≠ some t) :
    job.writes seen view = [] := by
  have hdue : job.due? seen view = none := by
    unfold due?
    cases htime : view.time? job.input with
    | none => rfl
    | some t =>
      have hseen : t = seen := by_contra fun hne => h t hne htime
      simp only [hseen, if_true]
  rw [writes, hdue, Option.toList_none, List.map_nil, ite_self]

theorem writes_eq_put {output : List Char} (haccepts : job.accepts view = true)
    (htime : view.time? job.input = some time) (hseen : seen ≠ time)
    (hpass : (job.pass view).result.toOption = some output) :
    job.writes seen view = [job.put output] := by
  have hdue : job.due? seen view = some output := by
    simp only [due?, htime, hseen.symm, if_false, hpass]
  rw [writes, hdue, haccepts]
  rfl

/-! ## The polls of a run -/

/-- A run goes on to its last poll, and each poll writes what is due. -/
theorem watch_eq_trace (hjob : job.Nameable) (w : World σ) (seen : Int) (s : σ)
    (changes : List (σ → σ)) :
    (job.watch w seen s changes).escape = none ∧
      (job.watch w seen s changes).rounds.map (List.filter Effect.isWrite) =
        job.trace seen (job.views w seen s changes) := by
  induction changes generalizing seen s with
  | nil =>
    obtain ⟨hescape, -, hwrites⟩ := poll_spec hjob (w.view s) seen
    exact ⟨hescape, congrArg (· :: []) hwrites⟩
  | cons change changes ih =>
    obtain ⟨hescape, hseen, hwrites⟩ := poll_spec hjob (w.view s) seen
    obtain ⟨hescape', hrest⟩ := ih (job.poll (w.view s) seen).seen
      (change (w.performAll (job.poll (w.view s) seen).effects s))
    simp only [watch, views, hescape, List.map_cons, trace]
    refine ⟨hescape', ?_⟩
    rw [hwrites, hrest, hseen]

/-- There is a poll before the first change, and one after each. -/
theorem length_views (w : World σ) (seen : Int) (s : σ) (changes : List (σ → σ)) :
    (job.views w seen s changes).length = changes.length + 1 := by
  induction changes generalizing seen s with
  | nil => rfl
  | cons change changes ih => rw [views, List.length_cons, ih, List.length_cons]

/-- Every script of views is found in some world. -/
theorem views_scripted (seen : Int) (view : FileView) (rest : List FileView) :
    job.views .scripted seen view (rest.map fun next _ => next) = view :: rest := by
  induction rest generalizing seen view with
  | nil => rfl
  | cons next rest ih => exact congrArg (view :: ·) (ih _ next)

/-- The time last seen, from the first of the polls on. -/
theorem seenAfter_cons (seen : Int) (view : FileView) (views : List FileView) :
    job.seenAfter seen (view :: views) =
      job.seenAfter ((view.time? job.input).getD seen) views := by
  unfold seenAfter
  cases htime : view.time? job.input with
  | none => simp only [List.filterMap_cons, htime, Option.getD_none]
  | some time => simp only [List.filterMap_cons, htime, List.getLastD_cons, Option.getD_some]

theorem length_trace (seen : Int) (views : List FileView) :
    (job.trace seen views).length = views.length := by
  induction views generalizing seen with
  | nil => rfl
  | cons view views ih => rw [trace, List.length_cons, ih, List.length_cons]

/-- What a poll writes depends on the polls before it by the time last seen alone. -/
theorem getElem?_trace (seen : Int) (views : List FileView) (i : Nat) :
    (job.trace seen views)[i]? =
      views[i]?.map (job.writes (job.seenAfter seen (views.take i))) := by
  induction views generalizing seen i with
  | nil => rfl
  | cons view views ih =>
    cases i with
    | zero => rfl
    | succ i =>
      rw [trace, List.getElem?_cons_succ, ih, List.getElem?_cons_succ, List.take_succ_cons,
        seenAfter_cons]

/-- **What a watching run writes.** Whatever a world goes through between the polls, a run of a job
whose paths can name files goes on to its last poll. A poll writes the whole output of its pass, if
the input is there, its time is not the one that the polls before found last (at first, the time
that a run starts with), the pass succeeds, and the destination can be written. Any other poll
writes nothing. -/
theorem watch_trace (hjob : job.Nameable) (w : World σ) (s : σ) (changes : List (σ → σ)) :
    (job.watch w unseen s changes).escape = none ∧
      (job.watch w unseen s changes).rounds.length = changes.length + 1 ∧
      ∀ i view, (job.views w unseen s changes)[i]? = some view →
        (job.watch w unseen s changes).rounds[i]?.map (List.filter Effect.isWrite) = some
          (job.writes (job.seenAfter unseen ((job.views w unseen s changes).take i)) view) := by
  obtain ⟨hescape, hrounds⟩ := watch_eq_trace hjob w unseen s changes
  refine ⟨hescape, ?_, ?_⟩
  · rw [← List.length_map (List.filter Effect.isWrite), hrounds, length_trace, length_views]
  · intro i view hview
    rw [← List.getElem?_map, hrounds, getElem?_trace, hview]
    rfl

/-- The spans of `main.v`, to the standard output. -/
def plain : Job where
  input := .ofChars "main.v".toList
  output := none
  format := .spans
  region := none
  outline := false
  vocabulary := .standard
  debug := false
  verbose := false

theorem nameable_plain : plain.Nameable := ⟨by decide, fun _ h => nomatch h⟩

/-- The spans of an empty comment. -/
theorem pass_plain (time : Int) :
    (plain.pass (.everywhere (.ok (.file [47, 47] time)))).result.toOption =
      some "0\t2\tcomment\n".toList := by
  have hload : (FileView.everywhere (.ok (.file [47, 47] time))).load plain.input =
      (FileView.everywhere (.ok (.file [47, 47] 0))).load plain.input := rfl
  rw [pass_congr hload]
  decide +kernel

/-- The theorem holds of a run that finds no input, then one that cannot be read, one that can at
the same time, one that is no text, and a comment: only the last is written. -/
theorem watch_trace_comment :
    let comment (time : Int) := FileView.everywhere (.ok (.file [47, 47] time))
    let rest := [.everywhere (.ok (.unreadable .denied 5)), comment 5,
      .everywhere (.ok (.file [255] 6)), comment 7]
    let rounds := (plain.watch .scripted unseen (.everywhere (.error .notFound))
      (rest.map fun next _ => next)).rounds
    rounds[2]?.map (List.filter Effect.isWrite) = some [] ∧
      rounds[3]?.map (List.filter Effect.isWrite) = some [] ∧
      rounds[4]?.map (List.filter Effect.isWrite) =
        some [.print "0\t2\tcomment\n".toList] := by
  intro comment rest rounds
  obtain ⟨-, -, hwrites⟩ := watch_trace nameable_plain .scripted (.everywhere (.error .notFound))
    (rest.map fun next _ => next)
  rw [views_scripted] at hwrites
  refine ⟨?_, ?_, ?_⟩
  · exact (hwrites 2 _ rfl).trans (by decide +kernel)
  · exact (hwrites 3 _ rfl).trans (by decide +kernel)
  · exact (hwrites 4 _ rfl).trans
      (congrArg some (writes_eq_put rfl rfl (by decide +kernel) (pass_plain 7)))

/-! ## The last version -/

/-- While the input keeps the time last seen, or is not there, nothing is written. -/
theorem flatten_trace_eq_nil {views : List FileView}
    (h : ∀ view ∈ views, ∀ t ≠ seen, view.time? job.input ≠ some t) :
    (job.trace seen views).flatten = [] := by
  induction views with
  | nil => rfl
  | cons view views ih =>
    have hview := h view List.mem_cons_self
    have hkept : (view.time? job.input).getD seen = seen := by
      cases htime : view.time? job.input with
      | none => rfl
      | some t => exact by_contra fun hne => hview t hne htime
    rw [trace, writes_eq_nil hview, hkept, List.flatten_cons, List.nil_append]
    exact ih fun view hmem => h view (List.mem_cons_of_mem _ hmem)

/-- The last output is that of the time found last, provided that another time was seen or found
before and that every poll that comes upon this time writes the same. -/
theorem getLast?_trace {views : List FileView} {e : Effect}
    (hwrites : ∀ view ∈ views, view.time? job.input = some time →
      ∀ seen ≠ time, job.writes seen view = [e])
    (hlast : ∃ view, views.getLast? = some view ∧ view.time? job.input = some time)
    (hother : seen ≠ time ∨ ∃ view ∈ views, ∃ t ≠ time, view.time? job.input = some t) :
    (job.trace seen views).flatten.getLast? = some e := by
  induction views generalizing seen with
  | nil =>
    obtain ⟨view, hnone, -⟩ := hlast
    cases hnone
  | cons view views ih =>
    rw [trace, List.flatten_cons, List.getLast?_append]
    by_cases hrest : (view.time? job.input).getD seen ≠ time ∨
        ∃ view ∈ views, ∃ t ≠ time, view.time? job.input = some t
    · -- The version is still to be found after this poll.
      have hlast' : ∃ view, views.getLast? = some view ∧ view.time? job.input = some time := by
        obtain ⟨found, hfound, htime⟩ := hlast
        cases views with
        | nil =>
          rw [List.getLast?_singleton] at hfound
          obtain rfl := Option.some.inj hfound
          rcases hrest with hseen | ⟨_, hmem, -⟩
          · exact absurd (by rw [htime, Option.getD_some]) hseen
          · cases hmem
        | cons next views => exact ⟨found, by rwa [List.getLast?_cons_cons] at hfound, htime⟩
      rw [ih (fun view hmem => hwrites view (List.mem_cons_of_mem _ hmem)) hlast' hrest,
        Option.some_or]
    · -- This poll finds it, and the rest leaves it alone.
      push Not at hrest
      obtain ⟨hfound, hkept⟩ := hrest
      have hquiet : (job.trace ((view.time? job.input).getD seen) views).flatten = [] := by
        rw [hfound]
        exact flatten_trace_eq_nil hkept
      have hseen : seen ≠ time := by
        rcases hother with hseen | ⟨found, hmem, t, hne, ht⟩
        · exact hseen
        · rcases List.mem_cons.mp hmem with rfl | hmem
          · rw [ht] at hfound
            exact absurd hfound hne
          · exact absurd ht (hkept found hmem t hne)
      have htime : view.time? job.input = some time := by
        cases ht : view.time? job.input with
        | none =>
          rw [ht] at hfound
          exact absurd hfound hseen
        | some t =>
          rw [ht] at hfound
          exact congrArg some hfound
      rw [hquiet, hwrites view List.mem_cons_self htime seen hseen]
      rfl

/-- **Which last version a watching run writes.** Suppose that the last poll finds a version of the
input whose pass succeeds, and that every poll that finds its time finds the same bytes and a
destination that can be written. Then the last output written is that of this version exactly when
its time is not the one that a run starts with, or some poll finds another time than that. -/
theorem watch_keeps_last (hjob : job.Nameable) (w : World σ) (s : σ)
    (changes : List (σ → σ)) {last : FileView} {output : List Char}
    (hlast : (job.views w unseen s changes).getLast? = some last)
    (htime : last.time? job.input = some time)
    (hpass : (job.pass last).result.toOption = some output)
    (hsame : ∀ view ∈ job.views w unseen s changes, view.time? job.input = some time →
      view.load job.input = last.load job.input ∧ job.accepts view = true) :
    ((job.watch w unseen s changes).rounds.flatten.filter Effect.isWrite).getLast? =
        some (job.put output) ↔
      time ≠ unseen ∨
        ∃ view ∈ job.views w unseen s changes, ∃ t ≠ unseen, view.time? job.input = some t := by
  obtain ⟨-, hrounds⟩ := watch_eq_trace hjob w unseen s changes
  rw [List.filter_flatten, hrounds]
  constructor
  · intro hwritten
    by_contra hnone
    push Not at hnone
    obtain ⟨-, hkept⟩ := hnone
    rw [flatten_trace_eq_nil hkept] at hwritten
    cases hwritten
  · intro hother
    refine getLast?_trace ?_ ⟨last, hlast, htime⟩ ?_
    · intro view hmem hview seen hseen
      obtain ⟨hload, haccepts⟩ := hsame view hmem hview
      rw [← pass_congr hload] at hpass
      exact writes_eq_put haccepts hview hseen hpass
    · rcases hother with hne | ⟨view, hmem, t, hne, ht⟩
      · exact .inl hne.symm
      · by_cases hzero : time = unseen
        · rw [hzero]
          exact .inr ⟨view, hmem, t, hne, ht⟩
        · exact .inl (Ne.symm hzero)

/-- The theorem holds of a run that finds a comment at some time and then, but for a poll that finds
no input, at the time that a run starts with. -/
theorem watch_keeps_last_comment :
    let comment (time : Int) := FileView.everywhere (.ok (.file [47, 47] time))
    let rest := [comment 0, .everywhere (.error .notFound), comment 0]
    ((plain.watch .scripted unseen (comment 3) (rest.map fun next _ => next)).rounds.flatten.filter
      Effect.isWrite).getLast? = some (.print "0\t2\tcomment\n".toList) := by
  intro comment rest
  have hviews : plain.views .scripted unseen (comment 3) (rest.map fun next _ => next) =
      comment 3 :: rest := views_scripted unseen (comment 3) rest
  have hlast : (plain.views .scripted unseen (comment 3) (rest.map fun next _ => next)).getLast? =
      some (comment 0) := by
    rw [hviews]
    rfl
  have htime : (comment 0).time? plain.input = some 0 := rfl
  have hsame : ∀ view ∈ plain.views .scripted unseen (comment 3) (rest.map fun next _ => next),
      view.time? plain.input = some 0 →
        view.load plain.input = (comment 0).load plain.input ∧ plain.accepts view = true := by
    intro view hmem hview
    rw [hviews] at hmem
    rcases List.mem_cons.mp hmem with rfl | hmem
    · exact absurd hview (by decide)
    · simp only [rest, List.mem_cons, List.not_mem_nil, or_false] at hmem
      rcases hmem with rfl | rfl | rfl
      · exact ⟨rfl, rfl⟩
      · exact absurd hview (by decide)
      · exact ⟨rfl, rfl⟩
  refine (watch_keeps_last nameable_plain .scripted _ _ hlast htime (pass_plain 0) hsame).mpr ?_
  rw [hviews]
  exact .inr ⟨comment 3, List.mem_cons_self, 3, by decide, rfl⟩

/-- A run that finds nothing but a version of the time that it starts with never writes it, nor does
one that cannot read a version when it first finds it. -/
theorem watch_loses_version :
    let comment (time : Int) := FileView.everywhere (.ok (.file [47, 47] time))
    let locked := FileView.everywhere (.ok (.unreadable .denied 5))
    (plain.pass (comment 0)).result.toOption = some "0\t2\tcomment\n".toList ∧
      (plain.watch .scripted unseen (comment 0) []).rounds.flatten.filter Effect.isWrite = [] ∧
      (plain.pass (comment 5)).result.toOption = some "0\t2\tcomment\n".toList ∧
      (plain.watch .scripted unseen locked [fun _ => comment 5]).rounds.flatten.filter
        Effect.isWrite = [] :=
  ⟨pass_plain 0, by decide +kernel, pass_plain 5, by decide +kernel⟩

end Job

end VSyntax
