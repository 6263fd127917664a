import VSyntax.Effect

/-!
# Watching

A watching run polls its input. It passes over the input whenever the time of the last change
differs from the one it saw last, and remembers that time whether or not the pass succeeds. A fault
of a pass is reported and the watching goes on; only a fault that no pass reports ends it.
-/
namespace VSyntax

/-- What one poll leaves behind: the time last seen, what it does, and the fault that ends the
watching, if one does. -/
structure Poll where
  seen : Int
  effects : List Effect
  escape : Option RunFault

/-- A world that a run sees and acts on, with the platform of the run. -/
structure World (σ : Type) where
  platform : Platform
  view : σ → FileView
  perform : Effect → σ → σ

/-- The state after effects. -/
def World.performAll (w : World σ) (effects : List Effect) (s : σ) : σ :=
  effects.foldl (fun s e => w.perform e s) s

/-- What a watching run has done: the effects of each poll, the fault that ended it, if one did, and
the state that it leaves. -/
structure Watched (σ : Type) where
  rounds : List (List Effect)
  escape : Option RunFault
  final : σ

namespace Job

/-- The report that the watching begins. -/
def watchNotice (job : Job) : Effect :=
  .reportLine ("Watching " ++ String.ofList job.input.text ++ " for changes...")

/-- The report that an output is delivered. -/
def deliveredNotice (job : Job) : Effect :=
  .reportLine ("Classified " ++ String.ofList job.input.text)

/-- The poll that ends a pass in a fault. -/
def pollFault (seen : Int) (notices : List Char) (f : RunFault) : Poll :=
  match f.ofPass? with
  | some line => ⟨seen, [.report notices, .reportLine line], none⟩
  | none => ⟨seen, [.report notices], some f⟩

/-- The poll that makes a pass. -/
def pollPass (job : Job) (view : FileView) (seen : Int) : Poll :=
  let p := job.pass view
  match p.result with
  | .error f => pollFault seen p.notices f
  | .ok output =>
    match job.deliver view output with
    | .error f => pollFault seen p.notices f
    | .ok e => ⟨seen, [.report p.notices, e, job.deliveredNotice], none⟩

/-- One poll, after the time `seen` was seen. -/
def poll (job : Job) (view : FileView) (seen : Int) : Poll :=
  if job.input.isNameable then
    match view.time? job.input with
    | none => ⟨seen, [], none⟩
    | some time => if time = seen then ⟨seen, [], none⟩ else job.pollPass view time
  else ⟨seen, [], some .unnameable⟩

/-- The polls of a watching run: one in the state `s`, then one after each of the changes that the
world goes through in between. -/
def watch (job : Job) (w : World σ) : Int → σ → List (σ → σ) → Watched σ
  | seen, s, [] =>
    let p := job.poll (w.view s) seen
    ⟨[p.effects], p.escape, w.performAll p.effects s⟩
  | seen, s, change :: changes =>
    let p := job.poll (w.view s) seen
    let s' := w.performAll p.effects s
    match p.escape with
    | some f => ⟨[p.effects], some f, s'⟩
    | none =>
      let rest := watch job w p.seen (change s') changes
      ⟨p.effects :: rest.rounds, rest.escape, rest.final⟩

/-- The time that a watching run has seen before its first poll. -/
def unseen : Int := 0

end Job

end VSyntax
