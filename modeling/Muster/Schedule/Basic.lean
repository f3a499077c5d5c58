import Muster.World.Step

/-!
# One order of steps

* `Task`: strands that are taken as far as they go whenever their turn comes.
* `Schedule`: a world in which one goal is pursued while tasks go on behind it.
* `Schedule.pursue`: takes turns until the goal is reached: the goal first, then the tasks in the order
  in which they became ready. Time passes only when nothing else can happen, up to the next moment at
  which something can; what was put to sleep first wakes first.
-/

namespace Muster

/-- Something that goes on behind a goal. -/
inductive Task where
  /-- A launch. -/
  | launch (i : Nat)
  /-- The reaper of a run. -/
  | reaper (r : Nat)
  /-- A call that closes a member. -/
  | closing (i : Nat)
  /-- A call that closes an assembly. -/
  | dissolution (i : Nat)
  /-- The caller of a run gives up at a time. -/
  | cancel (r due : Nat)
deriving DecidableEq, Repr

/-- What a caller waits for. -/
inductive Goal where
  /-- The end of a run. -/
  | run (r : Nat)
  /-- The end of a launch. -/
  | launch (i : Nat)
  /-- The end of calls that close members, made at the same time. -/
  | closings (l : List Nat)
  /-- The end of calls that close assemblies, made at the same time. -/
  | dissolutions (l : List Nat)
  /-- The end of a task. -/
  | task (t : Task)
  /-- A time. -/
  | time (due : Nat)

namespace World

/-- The calls that close members on behalf of a call that closes an assembly. -/
def closingsOf (w : World) (i : Nat) : List Strand :=
  match w.dissolutions[i]? with
  | some { phase := .closing l, .. } => l.map .closing
  | _ => []

/-- A call that closes an assembly, behind the calls that it makes. -/
def dissolutionStrands (w : World) (i : Nat) : List Strand := w.closingsOf i ++ [.dissolution i]

/-- A run, behind the calls by which it closes members. -/
def runStrands (w : World) (r : Nat) : List Strand :=
  match w.runs[r]? with
  | some { phase := .rollingBack _ l, .. } => l.map .closing ++ [.run r]
  | _ => [.run r]

/-- A reaper, behind the call by which it closes a member. -/
def reaperStrands (w : World) (r : Nat) : List Strand :=
  match w.runs[r]?.bind (·.reaper?) with
  | some { closing? := some c } => [.closing c, .reaper r]
  | _ => [.reaper r]

/-- Whether a strand can go on now. -/
def isReady (w : World) (s : Strand) : Bool := w.readiness s = .ready

/-- Whether a strand has ended. -/
def hasEnded (w : World) (s : Strand) : Bool := w.readiness s = .ended

/-- When a strand can go on, if it waits for a time. -/
def due? (w : World) (s : Strand) : Option Nat :=
  match w.readiness s with
  | .waits due => some due
  | _ => none

end World

namespace Task

/-- The strands of a task, in the order in which they are looked at. -/
def strands (w : World) : Task → List Strand
  | launch i => [.launch i]
  | reaper r => w.reaperStrands r
  | closing i => [.closing i]
  | dissolution i => w.dissolutionStrands i
  | cancel _ _ => []

/-- Whether a task has ended. -/
def ended (w : World) : Task → Bool
  | launch i => w.hasEnded (.launch i)
  | reaper r => w.hasEnded (.reaper r)
  | closing i => w.hasEnded (.closing i)
  | dissolution i => w.hasEnded (.dissolution i)
  | cancel r _ => (w.runs[r]?.map (·.cancelled)).getD true

end Task

namespace Goal

/-- The strands that a goal itself takes as far as they go. -/
def strands (w : World) : Goal → List Strand
  | run r => w.runStrands r
  | launch i => [.launch i]
  | closings l => l.map .closing
  | dissolutions l => l.flatMap w.dissolutionStrands
  | task _ | time _ => []

/-- Whether a goal is reached. -/
def reached (w : World) : Goal → Bool
  | run r => w.hasEnded (.run r)
  | launch i => w.hasEnded (.launch i)
  | closings l => l.all fun c => w.hasEnded (.closing c)
  | dissolutions l => l.all fun d => w.hasEnded (.dissolution d)
  | task t => t.ended w
  | time due => due ≤ w.now

/-- Whether a goal is reached, or something of its own can go on. -/
def ready (w : World) (g : Goal) : Bool := g.reached w || (g.strands w).any w.isReady

/-- The times for which a goal waits. -/
def dues (w : World) : Goal → List Nat
  | time due => [due]
  | g => (g.strands w).filterMap w.due?

end Goal

/-- A task that sleeps until a time. -/
structure Alarm where
  /-- When the task wakes. -/
  due : Nat
  /-- The strand of the task that waits for the time, unless it is the task itself. -/
  strand? : Option Strand
  /-- The task. -/
  task : Task
deriving DecidableEq

/-- A world in which tasks go on one after another. -/
structure Schedule where
  /-- The world. -/
  world : World := {}
  /-- The tasks that are ready, in the order of their turns. -/
  queue : List Task := []
  /-- The tasks that sleep, in the order in which they fell asleep. -/
  alarms : List Alarm := []
deriving Inhabited

namespace Schedule

/-- Takes the first strand that can go on one step further, again and again, until none can. -/
def takeStrands (strands : World → List Strand) : Nat → World → World
  | 0, w => w
  | fuel + 1, w =>
    match (strands w).find? w.isReady with
    | some s => takeStrands strands fuel (w.advance s)
    | none => w

/-- How many steps are taken in one turn at most. -/
def longestTurn : Nat := twoTo 40

/-- Adds tasks behind those that are queued, each once. -/
def enqueue (s : Schedule) (tasks : List Task) : Schedule :=
  { s with queue := tasks.foldl (fun q t => if t ∈ q then q else q ++ [t]) s.queue }

/-- The launches that began with their run, or got a permit, between two moments. -/
def wokenLaunches (before after : World) : List Task :=
  (List.range after.launches.size).filterMap fun i =>
    match after.launches[i]? with
    | none => none
    | some l =>
      let woken := match before.launches[i]?, l.phase with
        | none, .queued => l.run?.isSome
        | some { phase := .waiting, .. }, .granted => true
        | _, _ => false
      if woken then some (.launch i) else none

/-- The reapers that began, or became ready, between two moments. -/
def wokenReapers (before after : World) : List Task :=
  (List.range after.runs.size).filterMap fun r =>
    let began := (before.runs[r]?.bind (·.reaper?)).isNone && (after.runs[r]?.bind (·.reaper?)).isSome
    if began || (after.isReady (.reaper r) && !before.isReady (.reaper r)) then some (.reaper r) else none

/-- Queues the tasks that were woken since a moment. -/
def wake (s : Schedule) (before : World) : Schedule :=
  s.enqueue (wokenLaunches before s.world ++ wokenReapers before s.world)

/-- Notes what a task waits for. -/
def fallAsleep (s : Schedule) (t : Task) : Schedule :=
  let alarms : List Alarm := match t with
    | .cancel _ due => [⟨due, none, t⟩]
    | t => (t.strands s.world).filterMap fun strand =>
        (s.world.due? strand).map fun due => ⟨due, some strand, t⟩
  { s with alarms := s.alarms ++ alarms.filter (· ∉ s.alarms) }

/-- Gives a task its turn. -/
def runTask (s : Schedule) (t : Task) : Schedule :=
  match t with
  | .cancel r due =>
    if due ≤ s.world.now then { s with world := s.world.cancel r } else s.fallAsleep t
  | t =>
    let before := s.world
    ({ s with world := takeStrands t.strands longestTurn before }.wake before).fallAsleep t

/-- Gives at most `n` tasks their turns. -/
def runTasks : Nat → Schedule → Schedule
  | 0, s => s
  | n + 1, s =>
    match s.queue with
    | [] => s
    | t :: queue => runTasks n ({ s with queue }.runTask t)

/-- How many tasks get their turns before the goal is looked at again. -/
def batch : Nat := 61

/-- Gives the goal its turn. -/
def runGoal (s : Schedule) (g : Goal) : Schedule :=
  let before := s.world
  { s with world := takeStrands g.strands longestTurn before }.wake before

/-- Lets time pass up to the next moment at which something can happen, and wakes who slept until then. -/
def passTime? (s : Schedule) (g : Goal) : Option Schedule :=
  match (s.alarms.map (·.due) ++ g.dues s.world).min? with
  | none => none
  | some due =>
    let now := max due s.world.now
    let woken := s.alarms.filter fun a => a.due ≤ now
    let alarms := s.alarms.filter fun a => now < a.due
    some ({ s with world := { s.world with now }, alarms }.enqueue (woken.map Alarm.task))

/-- Takes turns until the goal is reached or nothing can ever happen again. -/
def takeTurns (g : Goal) : Nat → Schedule → Schedule
  | 0, s => s
  | fuel + 1, s =>
    if g.ready s.world then
      let s := s.runGoal g
      if g.reached s.world then s else takeTurns g fuel (runTasks batch s)
    else if s.queue.isEmpty then
      match s.passTime? g with
      | some s => takeTurns g fuel s
      | none => s
    else takeTurns g fuel (runTasks batch s)

/-- How many turns are taken at most. -/
def patience : Nat := twoTo 40

/-- Takes turns until the goal is reached. -/
def pursue (s : Schedule) (g : Goal) : Schedule := takeTurns g patience s

end Schedule

end Muster
