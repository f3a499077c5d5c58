import Muster.World.Basic

/-!
# What the trace tells

* `World.loggedSince`, `World.journalSince`: messages and lines of the journal from a place in the
  trace on.
* `World.measurements`: how often each measurement was taken.
* `World.toldTo`: the occasions of which an observer heard, with the names of the members.
* `World.stops`: how often platforms were asked to stop the process of a member.
-/

namespace Muster

namespace Occurrence

/-- The message, if one was logged. -/
def logged? : Occurrence → Option (Level × String)
  | logged level message => some (level, message)
  | _ => none

/-- The line, if one was left in the journal. -/
def noted? : Occurrence → Option String
  | noted line => some line
  | _ => none

/-- The measurement, if one was taken. -/
def measured? : Occurrence → Option String
  | measured name => some name
  | _ => none

/-- The member, if a platform was asked to stop its process. -/
def stopped? : Occurrence → Option Nat
  | stopped member => some member
  | _ => none

end Occurrence

namespace World

/-- What has happened from a place in the trace on. -/
def since (w : World) (start : Nat) : List Occurrence := w.trace.toList.drop start

/-- The messages that were logged from a place in the trace on. -/
def loggedSince (w : World) (start : Nat) : List (Level × String) :=
  (w.since start).filterMap Occurrence.logged?

/-- The lines that were left in the journal from a place in the trace on. -/
def journalSince (w : World) (start : Nat) : List String :=
  (w.since start).filterMap Occurrence.noted?

/-- How often each measurement was taken. -/
def measurements (w : World) : List (String × Nat) :=
  let names := (w.since 0).filterMap Occurrence.measured?
  names.eraseDups.map fun n => (n, names.count n)

/-- The occasions of which an observer heard, with the names of the members. -/
def toldTo (w : World) (observer : Nat) : List (Occasion × String) :=
  (w.since 0).filterMap fun
    | .told o occasion m _ => if o = observer then some (occasion, w.memberName m) else none
    | _ => none

/-- The members whose processes platforms were asked to stop, in the order in which they were asked. -/
def stopped (w : World) : List Nat := (w.since 0).filterMap Occurrence.stopped?

/-- How often platforms were asked to stop the process of a member. -/
def stops (w : World) (m : Nat) : Nat := w.stopped.count m

end World

end Muster
