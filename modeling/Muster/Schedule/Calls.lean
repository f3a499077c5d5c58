import Muster.Schedule.Basic

/-!
# What a caller can do

* `Schedule.build`, `Schedule.launch`, `Schedule.close`, `Schedule.dissolve`: do something and wait for
  its end.
* `Schedule.closeBehind`, `Schedule.dissolveBehind`: begin something that goes on behind;
  `Schedule.join` waits for its end.
* `Schedule.sleep`: lets time pass.
-/

namespace Muster

/-- When the caller of a run gives up. -/
inductive GivingUp where
  | never
  /-- Before the run begins. -/
  | before
  /-- So many milliseconds after it began, unless it has ended. -/
  | after (ms : Nat)
deriving DecidableEq, Repr

namespace Schedule

/-- Builds an assembly from a plan; gives its place, or the error. -/
def build (s : Schedule) (plan : Plan) (platform : Nat) (channel? : Option Nat) (g : GivingUp) :
    Except AssemblyError Nat × Schedule :=
  let before := s.world
  let (r, w) := before.begin plan platform channel? (g = .before)
  let s := match g with
    | .after ms => s.enqueue [.cancel r (before.now + ms)]
    | _ => s
  let s := ({ s with world := w }.wake before).pursue (.run r)
  ((s.world.runs[r]?.bind Run.outcome?).getD (.error (.cancelled {})), s)

/-- Launches a member; gives the outcome, if the launch ever ends. -/
def launch (s : Schedule) (spec : MemberSpec) (platform : Nat) (observers : List Observer) :
    Option Launch.Outcome × Schedule :=
  let (i, w) := s.world.callLaunch spec platform observers
  let s := { s with world := w }.pursue (.launch i)
  (s.world.launches[i]?.bind Launch.outcome?, s)

/-- Begins a number of calls. -/
def callTimes (call : World → Nat × World) : Nat → World → List Nat × World
  | 0, w => ([], w)
  | n + 1, w =>
    let (i, w) := call w
    let (is, w) := callTimes call n w
    (i :: is, w)

/-- The outcome of a call that closed an assembly. -/
def dissolved? (s : Schedule) (i : Nat) : Option (Except Teardown Teardown) :=
  s.world.dissolutions[i]?.bind Dissolution.outcome?

/-- The outcome of a call that closed a member. -/
def closed? (s : Schedule) (i : Nat) : Option (Except CloseFailure (List ObserverFailure)) :=
  s.world.closings[i]?.bind Closing.outcome?

/-- Closes a member by a number of calls at the same time. -/
def close (s : Schedule) (member times : Nat) :
    List (Except CloseFailure (List ObserverFailure)) × Schedule :=
  let (is, w) := callTimes (·.callClose member) times s.world
  let s := { s with world := w }.pursue (.closings is)
  (is.filterMap s.closed?, s)

/-- Closes an assembly by a number of calls at the same time. -/
def dissolve (s : Schedule) (assembly times : Nat) : List (Except Teardown Teardown) × Schedule :=
  let (is, w) := callTimes (·.callDissolve assembly) times s.world
  let s := { s with world := w }.pursue (.dissolutions is)
  (is.filterMap s.dissolved?, s)

/-- Begins to close a member, and goes on behind. -/
def closeBehind (s : Schedule) (member : Nat) : Task × Schedule :=
  let (i, w) := s.world.callClose member
  (.closing i, { s with world := w }.enqueue [.closing i])

/-- Begins to close an assembly, and goes on behind. -/
def dissolveBehind (s : Schedule) (assembly : Nat) : Task × Schedule :=
  let (i, w) := s.world.callDissolve assembly
  (.dissolution i, { s with world := w }.enqueue [.dissolution i])

/-- Waits for the end of a task. -/
def join (s : Schedule) (t : Task) : Schedule := s.pursue (.task t)

/-- Lets time pass. -/
def sleep (s : Schedule) (ms : Nat) : Schedule := s.pursue (.time (s.world.now + ms))

end Schedule

end Muster
