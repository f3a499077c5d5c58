import Muster.World.Dissolving
import Muster.World.Running

/-!
# What may happen next

* `Strand`: one of the things that are going on; `World.readiness` tells whether it can go on now, and
  `World.advance` lets it go on by one step.
* `World.Step`: what may happen next in the world: a strand that is ready goes on, time passes, a caller
  gives up, or somebody begins something new. Every order of steps is possible.
* `World.OpenStep`: what may happen next when those close members, too, who only were shown them.
-/

namespace Muster

/-- One of the things that are going on. -/
inductive Strand where
  | launch (i : Nat)
  | closing (i : Nat)
  | run (i : Nat)
  | reaper (i : Nat)
  | dissolution (i : Nat)
deriving DecidableEq, Repr

/-- Whether a strand can go on. -/
inductive Readiness where
  /-- It can go on now. -/
  | ready
  /-- It can go on from a time on. -/
  | waits (due : Nat)
  /-- It waits for another strand. -/
  | blocked
  /-- It has ended. -/
  | ended
deriving DecidableEq, Repr

namespace World

/-- Ready from a time on. -/
def readyFrom (w : World) (due : Nat) : Readiness := if due ≤ w.now then .ready else .waits due

/-- Whether telling observers can go on. -/
def roundReadiness (w : World) (r : Round) : Readiness :=
  match r.due? with
  | none => .ready
  | some due => w.readyFrom due

/-- Whether a launch can go on. -/
def launchReadiness (w : World) (l : Launch) : Readiness :=
  match l.phase with
  | .queued | .granted => .ready
  | .waiting => .blocked
  | .realizing due => w.readyFrom due
  | .telling round => w.roundReadiness round
  | .settled _ => .ended

/-- Whether a call that closes a member can go on. -/
def closingReadiness (w : World) (c : Closing) : Readiness :=
  match c.phase with
  | .called => .ready
  | .telling round | .tellingClosed round => w.roundReadiness round
  | .stopping due _ => w.readyFrom due
  | .finished _ => .ended
  | .dead => .blocked

/-- Whether a run can go on. -/
def runReadiness (w : World) (run : Run) : Readiness :=
  match run.phase with
  | .launching =>
    if run.pending.isEmpty || run.cancelled || !run.settled.isEmpty then .ready
    else w.readyFrom run.deadline
  | .rollingBack _ closings => if (w.outcomes? closings).isSome then .ready else .blocked
  | .asking => .ready
  | .resting due => if run.cancelled then .ready else w.readyFrom due
  | .finished _ => .ended

/-- Whether the reaper of a run can go on. -/
def reaperReadiness (w : World) (run : Run) : Readiness :=
  match run.reaper? with
  | none => .ended
  | some { closing? := some c } =>
    if (w.closings[c]?.bind Closing.outcome?).isSome then .ready else .blocked
  | some { closing? := none } =>
    if !run.settled.isEmpty then .ready else if run.pending.isEmpty then .ended else .blocked

/-- Whether a call that closes an assembly can go on. -/
def dissolutionReadiness (w : World) (d : Dissolution) : Readiness :=
  match d.phase with
  | .called => .ready
  | .closing closings => if (w.outcomes? closings).isSome then .ready else .blocked
  | .finished _ => .ended

/-- Whether a strand can go on. -/
def readiness (w : World) : Strand → Readiness
  | .launch i => (w.launches[i]?.map w.launchReadiness).getD .ended
  | .closing i => (w.closings[i]?.map w.closingReadiness).getD .ended
  | .run i => (w.runs[i]?.map w.runReadiness).getD .ended
  | .reaper i => (w.runs[i]?.map w.reaperReadiness).getD .ended
  | .dissolution i => (w.dissolutions[i]?.map w.dissolutionReadiness).getD .ended

/-- Lets a strand go on by one step. -/
def advance (w : World) : Strand → World
  | .launch i => w.stepLaunch i
  | .closing i => w.stepClosing i
  | .run i => w.stepRun i
  | .reaper i => w.stepReaper i
  | .dissolution i => w.stepDissolution i

/-- Adds a launch that belongs to no run. -/
def callLaunch (w : World) (spec : MemberSpec) (platform : Nat) (observers : List Observer) :
    Nat × World :=
  (w.launches.size, { w with launches := w.launches.push { spec, platform, observers } })

/-- Callers have a member in their hands: it belongs to an assembly, or was launched by itself. -/
def Held (w : World) (m : Nat) : Prop :=
  (∃ a ∈ w.assemblies, m ∈ a.members) ∨
    ∃ l ∈ w.launches, l.run? = none ∧ ∃ failures, l.phase = .settled (.realized m failures)

/-- What may happen next. Callers close only what they have in their hands. -/
inductive Step : World → World → Prop where
  /-- A strand goes on. -/
  | advance {w : World} (s : Strand) (ready : w.readiness s = .ready) : Step w (w.advance s)
  /-- Time passes. -/
  | pass {w : World} (ms : Nat) : Step w { w with now := w.now + ms }
  /-- The caller of a run gives up. -/
  | cancel {w : World} (r : Nat) : Step w (w.cancel r)
  /-- A run begins. -/
  | begin {w : World} (plan : Plan) (platform : Nat) (channel? : Option Nat) (cancelled : Bool) :
    Step w (w.begin plan platform channel? cancelled).2
  /-- A launch of its own begins. -/
  | launch {w : World} (spec : MemberSpec) (platform : Nat) (observers : List Observer) :
    Step w (w.callLaunch spec platform observers).2
  /-- Somebody closes a member. -/
  | close {w : World} (member : Nat) (held : w.Held member) : Step w (w.callClose member).2
  /-- Somebody closes an assembly. -/
  | dissolve {w : World} (assembly : Nat) (known : assembly < w.assemblies.size) :
    Step w (w.callDissolve assembly).2
  /-- Somebody asks whether an assembly is stable. -/
  | ask {w : World} (a : Assembly) (held : a ∈ w.assemblies) : Step w (w.isStable a).2
  /-- Somebody announces an event. -/
  | announce {w : World} (channel : Nat) (e : Event) : Step w (w.announce channel e)
  /-- A platform comes along. -/
  | platform {w : World} (p : Platform) : Step w { w with platforms := w.platforms.push p }
  /-- A channel comes along. -/
  | channel {w : World} (c : Channel) : Step w { w with channels := w.channels.push c }

/-- What may happen next when members are closed by anybody to whom they were shown, whenever it likes: a predicate is
shown the members about which it is asked, and an observer the member of whose life it hears. -/
inductive OpenStep (w : World) : World → Prop where
  /-- Nobody does but callers, with what they have in their hands. -/
  | step {w' : World} (h : Step w w') : OpenStep w w'
  /-- Somebody closes a member. -/
  | close (member : Nat) (there : member < w.members.size) : OpenStep w (w.callClose member).2

end World

end Muster
