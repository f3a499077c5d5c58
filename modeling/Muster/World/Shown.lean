import Muster.World.Basic

/-!
# Showing assemblies

* `World.shownAssembly`: an assembly with its members and their processes.
-/

namespace Muster

/-- Shows a member's state. -/
def MemberState.shown : MemberState → String
  | starting => "Starting"
  | realized => "Realized"
  | closing => "Closing"
  | closed => "Closed"
  | failed => "Failed"

/-- Shows an assembly's state. -/
def AssemblyState.shown : AssemblyState → String
  | building => "Building"
  | stable => "Stable"
  | degraded => "Degraded"
  | closed => "Closed"

namespace World

/-- Shows the process of a member; a platform that numbers its processes also shows its counts. -/
def shownProcess (w : World) (m : Member) : String :=
  let pid := Text.shownOption (m.process.pid.map toString)
  match w.platforms[m.process.platform]? with
  | some p =>
    if p.numbers then
      Text.shownRecord "SimulatedProcess"
        [("name", Text.quoted m.spec.name), ("pid", toString (m.process.pid.getD 0)),
         ("stuck", if m.process.stopError?.isSome then "true" else "false"),
         ("counters", p.accounts.shown)]
    else Text.shownRecord "CustomProcess" [("pid", pid)]
  | none => Text.shownRecord "CustomProcess" [("pid", pid)]

/-- Shows a member. -/
def shownMember (w : World) (m : Member) : String :=
  Text.shownRecord "Member"
    [("id", Text.shownTuple "MemberId" [m.id.text]), ("name", Text.quoted m.spec.name),
     ("state", m.state.shown), ("process", w.shownProcess m)]

/-- Shows an assembly. -/
def shownAssembly (w : World) (a : Assembly) : String :=
  Text.shownRecord "Assembly"
    [("id", Text.shownTuple "AssemblyId" [a.id.text]), ("state", a.state.shown),
     ("members", Text.bracketed (a.members.filterMap fun i => w.members[i]?.map w.shownMember)),
     ("predicate", a.predicate.shown)]

end World

end Muster
