import Muster.World.Closing

/-!
# Closing assemblies

* `World.stepDissolution`: goes on with a call that closes an assembly: all its members get closed at the
  same time, and the assembly is closed once all these calls have ended.
* Only the first call for an assembly does anything; every other one ends at once, with nothing to report.
-/

namespace Muster

namespace World

/-- Begins to close an assembly, unless somebody has begun before. -/
def beginDissolution (w : World) (i assembly : Nat) (a : Assembly) : World :=
  if a.closeStarted then w.setDissolutionPhase i (.finished (.ok {}))
  else
    let w := w.modifyAssembly assembly fun a => { a with closeStarted := true }
    let (closings, w) := w.callCloseAll a.members
    w.setDissolutionPhase i (.closing closings)

/-- Ends a call that closed an assembly. -/
def finishDissolution (w : World) (i assembly : Nat) (a : Assembly) (t : Teardown) : World :=
  let w := w.modifyAssembly assembly fun a => { a with state := .closed }
  let w := match a.channel? with
    | some c => w.announce c (.assembly (.closed a.id w.time))
    | none => w
  if t.closeFailures.isEmpty then w.setDissolutionPhase i (.finished (.ok t))
  else
    (w.log .warn ("Assembly closed with errors: " ++ t.summary)).setDissolutionPhase i
      (.finished (.error t))

/-- Goes on with a call that closes an assembly. -/
def stepDissolution (w : World) (i : Nat) : World :=
  match w.dissolutions[i]? with
  | none => w
  | some d =>
    match w.assemblies[d.assembly]?, d.phase with
    | some a, .called => w.beginDissolution i d.assembly a
    | some a, .closing closings =>
      match w.outcomes? closings with
      | some outcomes => w.finishDissolution i d.assembly a (Teardown.ofOutcomes outcomes)
      | none => w
    | _, _ => w

/-! ### Questions to an assembly -/

/-- Whether an assembly is stable now: never once it is closed, and always without members. -/
def isStable (w : World) (a : Assembly) : Bool × World :=
  if a.state = .closed then (false, w)
  else if a.members.isEmpty then (true, w)
  else w.ask a.predicate a.members

/-- The first member of an assembly with a name. -/
def memberOf? (w : World) (a : Assembly) (name : String) : Option Nat :=
  a.members.find? fun m => w.memberName m = name

/-- What is logged when an assembly is given away: a warning, unless somebody has begun to close it or it
has no members. -/
def forget (w : World) (a : Assembly) : World :=
  if !a.closeStarted && !a.members.isEmpty then
    w.log .warn "Assembly dropped without being closed; members may still be running"
  else w

end World

end Muster
