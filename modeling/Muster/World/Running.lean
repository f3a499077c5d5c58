import Muster.World.Launching

/-!
# Building assemblies

* `World.begin`: begins a run: all members of a plan are queued for launching. Times are whole milliseconds and
  not bounded, nor is the number of permits: spans that no clock and permits that no counter holds are left out.
* `World.stepRun`: goes on with a run. While members are launched, giving up goes before the deadline, and
  the deadline before outcomes; once all have settled, one failure is enough to close the members there
  are. Otherwise the predicate is asked until it holds or the time is up.
* `World.stepReaper`: closes what launches produce after their run gave up.
-/

namespace Muster

namespace World

/-! ### Beginning -/

/-- Enters a name under a place, lowest place first; the last name entered under a place stays. -/
def enter (ordinal : Nat) (name : String) : List (Nat × String) → List (Nat × String)
  | [] => [(ordinal, name)]
  | e :: es =>
    if ordinal < e.1 then (ordinal, name) :: e :: es
    else if e.1 = ordinal then (ordinal, name) :: es
    else e :: enter ordinal name es

/-- The name of the observer that announces the members of a run. -/
def bridgeName : String := "event-bus"

/-- The observer that announces the members of an assembly on a channel. -/
def bridge (channel : Nat) (assembly : Uuid) : Observer :=
  { id := 0, name := bridgeName, trail := .announces channel assembly }

/-- Announces an event in the life of the assembly that a run builds. -/
def announceRun (w : World) (run : Run) (e : AssemblyEvent) : World :=
  match run.channel? with
  | some c => w.announce c (.assembly e)
  | none => w

/-- Queues the members of a plan. -/
def queueLaunches (w : World) (platform run : Nat) (observers : List Observer) :
    List MemberSpec → List Nat × World
  | [] => ([], w)
  | spec :: specs =>
    let launch : Launch :=
      { spec, platform, observers := spec.schema.observers ++ observers, run? := some run }
    let i := w.launches.size
    let (is, w) := queueLaunches { w with launches := w.launches.push launch } platform run observers specs
    (i :: is, w)

/-- Begins a run by some settings; `cancelled` tells that the caller has given up before. -/
def beginWith (w : World) (s : Settings) (members : List MemberSpec) (observers : List Observer) (platform : Nat)
    (channel? : Option Nat) (cancelled : Bool) : Nat × World :=
  let (id, w) := w.freshId
  let r := w.runs.size
  let count := members.length
  let run : Run :=
    { id, channel?, started := w.now, timeout := s.timeout
      pollInterval := s.pollInterval
      predicate := s.predicate
      deadline := w.now + s.timeout.millis
      permits := s.parallelism?.getD (max count 1)
      outstanding := members.foldl (fun l m => enter m.ordinal m.name l) []
      cancelled }
  let w := w.announceRun run (.building id count w.time)
  let (launches, w) := { w with runs := w.runs.push run }.queueLaunches platform r
    (observers ++ (channel?.map fun c => bridge c id).toList) members
  (r, w.modifyRun r fun run => { run with pending := launches })

/-- Begins a run of a plan, which goes by what the options of the plan say. -/
def begin (w : World) (plan : Plan) (platform : Nat) (channel? : Option Nat) (cancelled : Bool) :
    Nat × World :=
  w.beginWith plan.options.settings plan.members plan.observers platform channel? cancelled

/-! ### Ending -/

/-- What is logged about a teardown that was not clean. -/
def logRollback (w : World) (t : Teardown) : World :=
  let w := t.closeFailures.foldl (fun (w : World) f =>
    w.log .warn ("Rollback close failed: " ++ f.cause.message)) w
  t.observerFailures.foldl (fun (w : World) f =>
    w.log .warn ("Rollback interceptor failure: " ++ f.message)) w

/-- Ends a run in an error. -/
def fail (w : World) (r : Nat) (run : Run) (e : AssemblyError) : World :=
  let w := w.measure ("troupe_assemblies_failed_total\x7breason=" ++ e.label ++ "\x7d")
  let w := match e.rollback? with
    | some t => w.logRollback t
    | none => w
  let w := w.log .error ("Assembly failed: " ++ e.message)
  let w := w.announceRun run (.failed run.id e.message w.time)
  w.modifyRun r fun run => { run with phase := .finished (.error e) }

/-- Ends a run in a stable assembly. -/
def succeed (w : World) (r : Nat) (run : Run) : World :=
  let elapsed := w.now - run.started
  let w := (w.measure "troupe_assemblies_stable_total").measure "troupe_assembly_convergence_seconds"
  let w := w.announceRun run (.stable run.id run.members.length run.evaluations elapsed w.time)
  let assembly : Assembly :=
    { id := run.id, members := run.members, predicate := run.predicate, timeout := run.timeout
      pollInterval := run.pollInterval, evaluations := run.evaluations
      observerFailures := run.observerFailures, channel? := run.channel? }
  { w with assemblies := w.assemblies.push assembly }.modifyRun r fun run =>
    { run with phase := .finished (.ok w.assemblies.size) }

/-- The error in which a cause ends once the members are closed. -/
def errorOf (run : Run) (t : Teardown) : Run.Cause → AssemblyError
  | .launch failures => .launch failures t
  | .launchTimeout outstanding => .launchTimeout run.timeout outstanding t
  | .unstable seen => .unstable run.timeout run.evaluations seen t
  | .cancelled => .cancelled t

/-- Closes the members that there are. -/
def rollBack (w : World) (r : Nat) (run : Run) (cause : Run.Cause) : World :=
  let (closings, w) := w.callCloseAll run.members
  w.modifyRun r fun run => { run with phase := .rollingBack cause closings }

/-- Leaves the launches that are still pending to a reaper, and closes the members that there are. -/
def abandon (w : World) (r : Nat) (run : Run) (cause : Run.Cause) : World :=
  let w := if run.pending.isEmpty then w
    else w.modifyRun r fun run => { run with reaper? := some {} }
  w.rollBack r run cause

/-! ### Launching -/

/-- Takes note of a failed launch. -/
def takeFailure (w : World) (r : Nat) (f : LaunchFailure) : World :=
  (w.measure "troupe_member_realization_failures_total").modifyRun r fun run =>
    { run with failures := run.failures ++ [f] }

/-- The wording of the end of the launch at a place that was taken down. -/
def deathOf (i : Nat) (message : String) : String :=
  "task " ++ toString i ++ " panicked with message " ++ Text.quoted message

/-- Takes note of the outcome of a launch. -/
def takeOutcome (w : World) (r i : Nat) (l : Launch) : World :=
  let w := w.modifyRun r fun run =>
    { run with
      pending := run.pending.erase i
      settled := run.settled.erase i
      outstanding := run.outstanding.filter (·.1 ≠ l.spec.ordinal) }
  match l.phase with
  | .settled (.realized m failures) =>
    (w.measure "troupe_members_realized_total").modifyRun r fun run =>
      { run with
        members := run.members ++ [m]
        observerFailures := run.observerFailures ++ failures }
  | .settled (.failed f) => (w.log .warn f.message).takeFailure r f
  | .settled (.died message) =>
    let death := deathOf i message
    (w.log .error ("Realization task died: " ++ death)).takeFailure r
      ⟨l.spec.name, l.spec.ordinal, "realization task failed: " ++ death⟩
  | _ => w

/-- The place of a member in its assembly. -/
def ordinalOf (w : World) (m : Nat) : Nat := (w.members[m]?.map (·.spec.ordinal)).getD 0

/-- All launches have settled: goes on to the predicate, or closes the members that there are. -/
def finishLaunching (w : World) (r : Nat) (run : Run) : World :=
  if !run.failures.isEmpty then
    (w.log .warn "Member realization failed; rolling back").rollBack r run (.launch run.failures)
  else
    let members := run.members.mergeSort fun a b => w.ordinalOf a ≤ w.ordinalOf b
    let deadline := w.now + run.timeout.millis
    let w := w.modifyRun r fun run => { run with members, deadline, phase := .asking }
    if members.isEmpty then w.succeed r run else w

/-- Goes on while members are launched. -/
def stepLaunching (w : World) (r : Nat) (run : Run) : World :=
  if run.pending.isEmpty then w.finishLaunching r run
  else if run.cancelled then
    (w.log .warn "Realization cancelled").abandon r run .cancelled
  else if run.deadline ≤ w.now then
    (w.log .warn "Realization timed out").abandon r run (.launchTimeout (run.outstanding.map (·.2)))
  else match run.settled with
    | i :: _ =>
      match w.launches[i]? with
      | some l => w.takeOutcome r i l
      | none => w
    | [] => w

/-! ### Asking the predicate -/

/-- Asks the predicate once, unless the caller has given up. As the answer takes no time, the time is up when it was
up at the question. -/
def stepAsking (w : World) (r : Nat) (run : Run) : World :=
  if run.cancelled then
    (w.log .warn "Stability polling cancelled; rolling back").rollBack r run .cancelled
  else
    let run := { run with evaluations := run.evaluations + 1 }
    let (stable, w) := w.ask run.predicate run.members
    let w := w.modifyRun r fun _ => run
    if stable then w.succeed r run
    else if run.deadline ≤ w.now then
      let reason := "not stable within " ++ run.timeout.shown
      let w := w.log .warn ("Assembly " ++ reason ++ "; rolling back")
      let w := w.announceRun run (.degraded run.id reason w.time)
      w.rollBack r run (.unstable (w.sightings run.members))
    else
      let due := min (w.now + run.pollInterval.millis) run.deadline
      w.modifyRun r fun run => { run with phase := .resting due }

/-- Goes on with a run. -/
def stepRun (w : World) (r : Nat) : World :=
  match w.runs[r]? with
  | none => w
  | some run =>
    match run.phase with
    | .launching => w.stepLaunching r run
    | .rollingBack cause closings =>
      match w.outcomes? closings with
      | some outcomes =>
        w.fail r run (errorOf run ((Teardown.ofOutcomes outcomes).after run.observerFailures) cause)
      | none => w
    | .asking => w.stepAsking r run
    | .resting _ => w.modifyRun r fun run => { run with phase := .asking }
    | .finished _ => w

/-- The caller gives up. -/
def cancel (w : World) (r : Nat) : World := w.modifyRun r fun run => { run with cancelled := true }

/-! ### The reaper -/

/-- Takes the outcome of a launch that came too late. -/
def reap (w : World) (r i : Nat) (l : Launch) : World :=
  let w := w.modifyRun r fun run =>
    { run with pending := run.pending.erase i, settled := run.settled.erase i }
  match l.phase with
  | .settled (.realized m _) =>
    let (c, w) := w.callClose m
    w.modifyRun r fun run => { run with reaper? := some { closing? := some c } }
  | _ => w

/-- Goes on with the reaper of a run. -/
def stepReaper (w : World) (r : Nat) : World :=
  match w.runs[r]? with
  | none => w
  | some run =>
    match run.reaper? with
    | none => w
    | some { closing? := some c } =>
      match w.closings[c]?.bind Closing.outcome? with
      | none => w
      | some outcome =>
        let w := match outcome with
          | .error f => w.log .warn ("Reaper failed to close member: " ++ f.message)
          | .ok _ => w
        w.modifyRun r fun run => { run with reaper? := some {} }
    | some { closing? := none } =>
      match run.settled with
      | i :: _ =>
        match w.launches[i]? with
        | some l => w.reap r i l
        | none => w
      | [] => w

end World

end Muster
