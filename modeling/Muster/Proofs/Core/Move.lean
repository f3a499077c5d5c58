import Muster.Proofs.Core.Basic

/-!
# Moves

* `Core.LaunchMove`, `Core.ClosingMove`, `Core.RunMove`, `Core.ReaperMove`, `Core.DissolutionMove`: what one
  step of a strand does to the core of a world, one constructor for each way in which it can go on.
* `Core.OutsideMove`: what callers do to it.
* `Core.Moves`: any of these, or nothing, where callers close certain members only; `Core.Move`: they close any.
-/

namespace Muster

/-- An observer that always responds, and never takes down whoever told it. -/
def Observer.Responds (o : Observer) : Prop :=
  ∀ occasion seat message, (o.reaction occasion seat).response ≠ .dies message

/-- A round of which nobody was told yet. -/
def Round.start (occasion : Occasion) (member : Nat) (observers : List Observer)
    (failures : List ObserverFailure) : Round :=
  { occasion, member, left := observers, failures }

/-- How a launch in its present phase may end. -/
inductive Launch.Ends (l : Launch) : Launch.Outcome → Prop where
  /-- The platform refuses. -/
  | refused {due : Nat} (hp : l.phase = .realizing due) (reason : String) :
    Ends l (.failed ⟨l.spec.name, l.spec.ordinal, reason⟩)
  /-- The platform takes the launch down. -/
  | struck {due : Nat} (hp : l.phase = .realizing due) (message : String) : Ends l (.died message)
  /-- All observers have responded. -/
  | told {round : Round} (hp : l.phase = .telling round) (done : round.left = []) :
    Ends l (.realized round.member round.failures)
  /-- An observer takes the launch down. -/
  | felled {round : Round} {o : Observer} (hp : l.phase = .telling round) (ho : o ∈ round.left)
    (dies : ¬ o.Responds) (message : String) : Ends l (.died message)

theorem Launch.Ends.not_waiting {l : Launch} {o : Launch.Outcome} (ends : l.Ends o) :
    l.phase ≠ .waiting := by
  cases ends with
  | refused hp | struck hp | told hp | felled hp => rw [hp]; exact fun h => Launch.Phase.noConfusion h

namespace Run

/-- The run after the outcome of a launch was taken note of. -/
def take (run : Run) (ls : Array Launch) (i : Nat) : Run :=
  { run with
    pending := run.pending.erase i
    settled := run.settled.erase i
    outstanding := run.outstanding.filter (·.1 ≠ Launches.ordinal ls i)
    members := run.members ++ (Launches.memberOf? ls i).toList
    failures := run.failures ++ (Launches.failureOf? ls i).toList
    observerFailures := run.observerFailures ++ Launches.reportsOf ls i }

/-- The run after its reaper was handed the outcome of a launch. -/
def hand (run : Run) (i : Nat) : Run :=
  { run with pending := run.pending.erase i, settled := run.settled.erase i }

/-- The assembly in which a run succeeds. -/
def assembly (run : Run) : Assembly where
  id := run.id
  members := run.members
  predicate := run.predicate
  timeout := run.timeout
  pollInterval := run.pollInterval
  evaluations := run.evaluations
  observerFailures := run.observerFailures
  channel? := run.channel?

end Run

namespace Plan

/-- The observers of a run of the plan that are not the schemas' own. -/
def observersOf (plan : Plan) (channel? : Option Nat) (id : Uuid) : List Observer :=
  plan.observers ++ (channel?.map fun c => World.bridge c id).toList

/-- The launches of a run of the plan. -/
def launches (plan : Plan) (platform run : Nat) (observers : List Observer) : List Launch :=
  plan.members.map fun spec =>
    { spec, platform, observers := spec.schema.observers ++ observers, run? := some run }

theorem mem_launches (plan : Plan) {platform run : Nat} {observers : List Observer} {l : Launch}
    (h : l ∈ (plan.launches platform run observers).toArray) : ∃ spec ∈ plan.members,
      l = { spec, platform, observers := spec.schema.observers ++ observers, run? := some run } := by
  simp only [launches, List.mem_toArray, List.mem_map] at h
  obtain ⟨spec, hspec, rfl⟩ := h
  exact ⟨spec, hspec, rfl⟩

/-- A run of the plan when it begins. -/
def run (plan : Plan) (id : Uuid) (channel? : Option Nat) (now : Nat) (cancelled : Bool)
    (pending : List Nat) : Run where
  id
  channel?
  started := now
  timeout := plan.options.timeoutOf
  pollInterval := plan.options.pollIntervalOf
  predicate := plan.options.predicateOf
  deadline := now + plan.options.timeoutOf.millis
  permits := plan.options.parallelismOf?.getD (max plan.members.length 1)
  outstanding := plan.members.foldl (fun l s => World.enter s.ordinal s.name l) []
  pending
  cancelled

end Plan

namespace Core

variable (c : Core)

/-- The outcomes of calls that close members, once all of them have ended. -/
def outcomes? (l : List Nat) : Option (List (Except CloseFailure (List ObserverFailure))) :=
  l.mapM fun j => c.closings[j]?.bind Closing.outcome?

/-- The members of a run get closed. -/
def rollBack (r : Nat) (run : Run) (cause : Run.Cause) : Core :=
  (c.call run.members).setRun r
    { run with phase := .rollingBack cause (c.callPlaces run.members) }

/-- A run ends in an assembly. -/
def succeed (r : Nat) (run : Run) : Core :=
  (c.addAssembly run.assembly).setRun r { run with phase := .finished (.ok c.assemblies.size) }

/-- A run of a plan begins. -/
def begin (plan : Plan) (platform : Nat) (channel? : Option Nat) (id : Uuid) (now : Nat)
    (cancelled : Bool) : Core :=
  { c with
    runs := c.runs.push
      (plan.run id channel? now cancelled (List.range' c.launches.size plan.members.length))
    launches := c.launches ++
      (plan.launches platform c.runs.size (plan.observersOf channel? id)).toArray }

/-! ### Launches -/

/-- Every launch's run is there, and those in line for a permit are different launches that wait. -/
structure Lined (ls : Array Launch) (rs : Array Run) : Prop where
  manned : ∀ {i : Nat} {l : Launch} {r : Nat}, ls[i]? = some l → l.run? = some r →
    ∃ run, rs[r]? = some run
  waits : ∀ {r : Nat} {run : Run} {i : Nat}, rs[r]? = some run → i ∈ run.line →
    ∃ l, ls[i]? = some l ∧ l.phase = .waiting ∧ l.run? = some r
  once : ∀ {r : Nat} {run : Run}, rs[r]? = some run → run.line.Nodup

/-- What a step of a launch does. -/
inductive LaunchMove (i : Nat) : Core → Prop where
  /-- It waits in line. -/
  | wait {l : Launch} {r : Nat} {run : Run} (hl : c.launches[i]? = some l) (hp : l.phase = .queued)
    (hr : l.run? = some r) (hrun : c.runs[r]? = some run) :
    LaunchMove i ((c.setRun r { run with line := run.line ++ [i] }).setLaunch i
      { l with phase := .waiting })
  /-- It takes a permit and asks the platform. -/
  | pass {l : Launch} {r : Nat} {run : Run} {permits : Nat} (hl : c.launches[i]? = some l)
    (hp : l.phase = .queued) (hr : l.run? = some r) (hrun : c.runs[r]? = some run)
    (free : run.permits = permits + 1) (due : Nat) :
    LaunchMove i ((c.setRun r { run with permits }).setLaunch i { l with phase := .realizing due })
  /-- It asks the platform. -/
  | ask {l : Launch} (hl : c.launches[i]? = some l)
    (hp : l.phase = .granted ∨ l.phase = .queued ∧ l.run? = none) (due : Nat) :
    LaunchMove i (c.setLaunch i { l with phase := .realizing due })
  /-- The platform hands out a process. -/
  | handOut {l : Launch} {due : Nat} (hl : c.launches[i]? = some l) (hp : l.phase = .realizing due)
    (id : Uuid) (process : Process) (since : Nat) :
    LaunchMove i ((c.addMember
      { id, launch := i, spec := l.spec, process, observers := l.observers, since }).setLaunch i
        { l with phase := .telling (.start .realized c.members.size l.observers []) })
  /-- The observers are told. -/
  | tell {l : Launch} {round round' : Round} (hl : c.launches[i]? = some l)
    (hp : l.phase = .telling round) (same : round'.member = round.member)
    (fewer : round'.left <:+ round.left) :
    LaunchMove i (c.setLaunch i { l with phase := .telling round' })
  /-- It ends, and belongs to no run. -/
  | settle {l : Launch} {o : Launch.Outcome} (hl : c.launches[i]? = some l) (ends : l.Ends o)
    (hr : l.run? = none) :
    LaunchMove i (c.setLaunch i { l with phase := .settled o })
  /-- It ends, and nobody waits for its permit. -/
  | settleLast {l : Launch} {o : Launch.Outcome} {r : Nat} {run : Run} (hl : c.launches[i]? = some l)
    (ends : l.Ends o) (hr : l.run? = some r) (hrun : c.runs[r]? = some run) (empty : run.line = []) :
    LaunchMove i ((c.setLaunch i { l with phase := .settled o }).setRun r
      { run with permits := run.permits + 1, settled := run.settled ++ [i] })
  /-- It ends, and its permit goes to the first in line. -/
  | settleNext {l next : Launch} {o : Launch.Outcome} {r n : Nat} {run : Run} {line : List Nat}
    (hl : c.launches[i]? = some l) (ends : l.Ends o) (hr : l.run? = some r)
    (hrun : c.runs[r]? = some run) (first : run.line = n :: line) (other : n ≠ i)
    (hn : c.launches[n]? = some next) (waits : next.phase = .waiting) :
    LaunchMove i (((c.setLaunch i { l with phase := .settled o }).setLaunch n
      { next with phase := .granted }).setRun r { run with line, settled := run.settled ++ [i] })

/-! ### Calls that close members -/

/-- What a step of a call that closes a member does. -/
inductive ClosingMove (j : Nat) : Core → Prop where
  /-- Somebody has begun before. -/
  | skip {k : Closing} {x : Member} (hk : c.closings[j]? = some k) (hx : c.members[k.member]? = some x)
    (hp : k.phase = .called) (begun : x.closeStarted = true) :
    ClosingMove j (c.setClosing j { k with phase := .finished (.ok []) })
  /-- The call begins to close the member. -/
  | begin {k : Closing} {x : Member} (hk : c.closings[j]? = some k)
    (hx : c.members[k.member]? = some x) (hp : k.phase = .called) (fresh : x.closeStarted = false) :
    ClosingMove j ((c.setMember k.member { x with closeStarted := true, state := .closing }).setClosing j
      { k with phase := .telling (.start .closing k.member x.observers []) })
  /-- The observers are told that the process will be stopped. -/
  | tell {k : Closing} {round round' : Round} (hk : c.closings[j]? = some k)
    (hp : k.phase = .telling round) (fewer : round'.left <:+ round.left) :
    ClosingMove j (c.setClosing j { k with phase := .telling round' })
  /-- The platform is asked to stop the process. -/
  | stop {k : Closing} {x : Member} {round : Round} (hk : c.closings[j]? = some k)
    (hx : c.members[k.member]? = some x) (hp : k.phase = .telling round) (done : round.left = [])
    (due : Nat) :
    ClosingMove j ((c.stop k.member).setClosing j { k with phase := .stopping due round.failures })
  /-- The process was stopped, or stopping it failed. -/
  | mark {k : Closing} {x : Member} {due : Nat} {failures : List ObserverFailure}
    (hk : c.closings[j]? = some k) (hx : c.members[k.member]? = some x)
    (hp : k.phase = .stopping due failures) :
    ClosingMove j ((c.setMember k.member { x with state := .closed }).setClosing j
      { k with phase := .tellingClosed (.start .closed k.member x.observers failures) })
  /-- The observers are told that the process was stopped, or that stopping it failed. -/
  | tellClosed {k : Closing} {round round' : Round} (hk : c.closings[j]? = some k)
    (hp : k.phase = .tellingClosed round) (fewer : round'.left <:+ round.left) :
    ClosingMove j (c.setClosing j { k with phase := .tellingClosed round' })
  /-- The call ends. -/
  | finish {k : Closing} {x : Member} {round : Round}
    {o : Except CloseFailure (List ObserverFailure)} (hk : c.closings[j]? = some k)
    (hx : c.members[k.member]? = some x) (hp : k.phase = .tellingClosed round)
    (done : round.left = [])
    (ho : o = match x.process.stopError? with
      | none => .ok round.failures
      | some cause => .error ⟨x.spec.name, cause, round.failures⟩) :
    ClosingMove j (c.setClosing j { k with phase := .finished o })
  /-- An observer takes the call down. -/
  | fall {k : Closing} {round : Round} {o : Observer} (hk : c.closings[j]? = some k)
    (hp : k.phase = .telling round ∨ k.phase = .tellingClosed round) (ho : o ∈ round.left)
    (dies : ¬ o.Responds) :
    ClosingMove j (c.setClosing j { k with phase := .dead })

/-! ### Runs -/

/-- What a step of a run does. -/
inductive RunMove (r : Nat) : Core → Prop where
  /-- The outcome of a launch is taken note of. -/
  | take {run : Run} {i : Nat} {rest : List Nat} (hr : c.runs[r]? = some run)
    (hp : run.phase = .launching) (waits : run.pending ≠ []) (goes : run.cancelled = false)
    (hs : run.settled = i :: rest) (hi : c.launches[i]?.isSome) :
    RunMove r (c.setRun r (run.take c.launches i))
  /-- The run gives up while members are launched. -/
  | giveUp {run : Run} {cause : Run.Cause} (hr : c.runs[r]? = some run) (hp : run.phase = .launching)
    (waits : run.pending ≠ [])
    (why : run.cancelled = true ∧ cause = .cancelled ∨
      run.cancelled = false ∧ cause = .launchTimeout (run.outstanding.map (·.2))) :
    RunMove r (c.rollBack r { run with reaper? := some {} } cause)
  /-- All launches have settled, and some have failed. -/
  | refuse {run : Run} (hr : c.runs[r]? = some run) (hp : run.phase = .launching)
    (all : run.pending = []) (failed : run.failures ≠ []) :
    RunMove r (c.rollBack r run (.launch run.failures))
  /-- All launches have settled, and there is a member for each. -/
  | gather {run : Run} (hr : c.runs[r]? = some run) (hp : run.phase = .launching)
    (all : run.pending = []) (fine : run.failures = []) (some : run.members ≠ []) (deadline : Nat) :
    RunMove r (c.setRun r { run with
      members := run.members.mergeSort fun a b => Members.ordinal c.members a ≤ Members.ordinal c.members b
      deadline
      phase := .asking })
  /-- There was nothing to launch. -/
  | succeedEmpty {run : Run} (hr : c.runs[r]? = some run) (hp : run.phase = .launching)
    (all : run.pending = []) (fine : run.failures = []) (none : run.members = []) (deadline : Nat) :
    RunMove r (c.succeed r { run with deadline })
  /-- The run gives up before the predicate is asked. -/
  | dismiss {run : Run} (hr : c.runs[r]? = some run) (hp : run.phase = .asking)
    (gone : run.cancelled = true) :
    RunMove r (c.rollBack r run .cancelled)
  /-- The predicate holds. -/
  | succeed {run : Run} (hr : c.runs[r]? = some run) (hp : run.phase = .asking)
    (goes : run.cancelled = false) :
    RunMove r (c.succeed r { run with evaluations := run.evaluations + 1 })
  /-- The predicate does not hold, and the time is up. -/
  | degrade {run : Run} (hr : c.runs[r]? = some run) (hp : run.phase = .asking)
    (goes : run.cancelled = false) (seen : List Sighting) :
    RunMove r (c.rollBack r { run with evaluations := run.evaluations + 1 } (.unstable seen))
  /-- The predicate does not hold yet. -/
  | rest {run : Run} (hr : c.runs[r]? = some run) (hp : run.phase = .asking)
    (goes : run.cancelled = false) (due : Nat) :
    RunMove r (c.setRun r { run with evaluations := run.evaluations + 1, phase := .resting due })
  /-- The predicate is due again. -/
  | wake {run : Run} {due : Nat} (hr : c.runs[r]? = some run) (hp : run.phase = .resting due) :
    RunMove r (c.setRun r { run with phase := .asking })
  /-- All members are closed. -/
  | fail {run : Run} {cause : Run.Cause} {places : List Nat}
    {outcomes : List (Except CloseFailure (List ObserverFailure))} (hr : c.runs[r]? = some run)
    (hp : run.phase = .rollingBack cause places) (ho : c.outcomes? places = some outcomes) :
    RunMove r (c.setRun r { run with phase := .finished (.error
      (World.errorOf run ((Teardown.ofOutcomes outcomes).after run.observerFailures) cause)) })

/-- What a step of the reaper of a run does. -/
inductive ReaperMove (r : Nat) : Core → Prop where
  /-- The member that it was closing is closed. -/
  | done {run : Run} {j : Nat} {k : Closing} {o : Except CloseFailure (List ObserverFailure)}
    (hr : c.runs[r]? = some run) (hp : run.reaper? = some ⟨some j⟩) (hk : c.closings[j]? = some k)
    (ho : k.phase = .finished o) :
    ReaperMove r (c.setRun r { run with reaper? := some {} })
  /-- No member came of a launch. -/
  | drop {run : Run} {i : Nat} {rest : List Nat} (hr : c.runs[r]? = some run)
    (hp : run.reaper? = some {}) (hs : run.settled = i :: rest)
    (hm : Launches.memberOf? c.launches i = none) :
    ReaperMove r (c.setRun r (run.hand i))
  /-- The member that came of a launch gets closed. -/
  | close {run : Run} {i m : Nat} {rest : List Nat} (hr : c.runs[r]? = some run)
    (hp : run.reaper? = some {}) (hs : run.settled = i :: rest)
    (hm : Launches.memberOf? c.launches i = some m) :
    ReaperMove r ((c.call [m]).setRun r
      { run.hand i with reaper? := some ⟨some c.closings.size⟩ })

/-! ### Calls that close assemblies -/

/-- What a step of a call that closes an assembly does. -/
inductive DissolutionMove (d : Nat) : Core → Prop where
  /-- Somebody has begun before. -/
  | skip {x : Dissolution} {a : Assembly} (hd : c.dissolutions[d]? = some x)
    (ha : c.assemblies[x.assembly]? = some a) (hp : x.phase = .called)
    (begun : a.closeStarted = true) :
    DissolutionMove d (c.setDissolution d { x with phase := .finished (.ok {}) })
  /-- The call begins to close the members. -/
  | begin {x : Dissolution} {a : Assembly} (hd : c.dissolutions[d]? = some x)
    (ha : c.assemblies[x.assembly]? = some a) (hp : x.phase = .called)
    (fresh : a.closeStarted = false) :
    DissolutionMove d (((c.setAssembly x.assembly { a with closeStarted := true }).call
      a.members).setDissolution d { x with phase := .closing (c.callPlaces a.members) })
  /-- The calls that close the members have ended. -/
  | finish {x : Dissolution} {a : Assembly} {places : List Nat}
    {outcomes : List (Except CloseFailure (List ObserverFailure))}
    (hd : c.dissolutions[d]? = some x) (ha : c.assemblies[x.assembly]? = some a)
    (hp : x.phase = .closing places) (ho : c.outcomes? places = some outcomes)
    {o : Except Teardown Teardown}
    (he : o = if (Teardown.ofOutcomes outcomes).closeFailures.isEmpty
      then .ok (Teardown.ofOutcomes outcomes) else .error (Teardown.ofOutcomes outcomes)) :
    DissolutionMove d ((c.setAssembly x.assembly { a with state := .closed }).setDissolution d
      { x with phase := .finished o })

/-! ### Callers -/

variable (closes : Nat → Prop)

/-- What callers do, who close certain members only. -/
inductive OutsideMove : Core → Prop where
  /-- The caller of a run gives up. -/
  | cancel {r : Nat} {run : Run} (hr : c.runs[r]? = some run) :
    OutsideMove (c.setRun r { run with cancelled := true })
  /-- A run begins. -/
  | begin (plan : Plan) (platform : Nat) (channel? : Option Nat) (id : Uuid) (now : Nat)
    (cancelled : Bool) : OutsideMove (c.begin plan platform channel? id now cancelled)
  /-- A launch of its own begins. -/
  | launch (spec : MemberSpec) (platform : Nat) (observers : List Observer) :
    OutsideMove { c with launches := c.launches.push { spec, platform, observers } }
  /-- Somebody closes a member. -/
  | close {m : Nat} (there : m < c.members.size) (may : closes m) : OutsideMove (c.call [m])
  /-- Somebody closes an assembly. -/
  | dissolve {a : Nat} (known : a < c.assemblies.size) :
    OutsideMove { c with dissolutions := c.dissolutions.push { assembly := a } }

/-- What a step of the world does to its core, where callers close certain members only. -/
inductive Moves : Core → Prop where
  /-- Nothing. -/
  | stay : Moves c
  | launch {c' : Core} (i : Nat) (h : c.LaunchMove i c') : Moves c'
  | closing {c' : Core} (j : Nat) (h : c.ClosingMove j c') : Moves c'
  | run {c' : Core} (r : Nat) (h : c.RunMove r c') : Moves c'
  | reaper {c' : Core} (r : Nat) (h : c.ReaperMove r c') : Moves c'
  | dissolution {c' : Core} (d : Nat) (h : c.DissolutionMove d c') : Moves c'
  | outside {c' : Core} (h : c.OutsideMove closes c') : Moves c'

/-- What a step of the world does to its core, whatever members callers close. -/
abbrev Move (c' : Core) : Prop := c.Moves (fun _ => True) c'

variable {c closes} {c' : Core}

/-- Callers who close certain members only close no others. -/
theorem Moves.mono {closes' : Nat → Prop} (h : c.Moves closes c') (fewer : ∀ m, closes m → closes' m) :
    c.Moves closes' c' := by
  cases h with
  | stay => exact .stay
  | launch i h => exact .launch i h
  | closing j h => exact .closing j h
  | run r h => exact .run r h
  | reaper r h => exact .reaper r h
  | dissolution d h => exact .dissolution d h
  | outside h =>
    cases h with
    | cancel hr => exact .outside (.cancel hr)
    | begin plan platform channel? id now cancelled =>
      exact .outside (.begin plan platform channel? id now cancelled)
    | launch spec platform observers => exact .outside (.launch spec platform observers)
    | close there may => exact .outside (.close there (fewer _ may))
    | dissolve known => exact .outside (.dissolve known)

theorem Moves.move (h : c.Moves closes c') : c.Move c' := h.mono fun _ _ => trivial

end Core

end Muster
