import Muster.Report.Settings
import Muster.Text.Hidden
import Muster.World.Dissolving
import Muster.World.Trace

/-!
# Reports on members and assemblies

* `report` tells everything there is to know about a member or an assembly, as a value tree.
* In messages the numbers of tasks that died are hidden.
-/

namespace Muster

namespace Tree

/-- A message. -/
def message (s : String) : Tree := .text (Text.hideTaskNumbers s)

/-- Messages in order. -/
def messages (l : List String) : Tree := .list (l.map message)

/-- Messages that were logged. -/
def logged (l : List (Level × String)) : Tree :=
  .list (l.map fun e => .list [.text e.1.word, message e.2])

end Tree

/-- Reports the messages of failures that observers reported. -/
def ObserverFailure.reportAll (l : List ObserverFailure) : Tree := .messages (l.map (·.message))

namespace Sighting

/-- Reports a sighting, but not the identifier. -/
def report (s : Sighting) : Tree :=
  .record [("name", .text s.name), ("ordinal", .nat s.ordinal), ("state", .text s.state.word),
    ("pid", .nat? s.pid)]

end Sighting

namespace Accounts

/-- Reports what a platform counts. -/
def report (a : Accounts) : Tree :=
  .record [("realize_calls", .nat a.requests), ("peak", .nat a.peak), ("live", .nat a.live),
    ("terminations", .nat a.stops), ("realized", .texts a.realized)]

end Accounts

namespace World

/-- Reports on a member; a platform that numbers its processes knows them by the member's name. -/
def reportMember (w : World) (i : Nat) : Tree :=
  match w.members[i]? with
  | none => .null
  | some m =>
    let numbers := (w.platforms[m.process.platform]?.map (·.numbers)).getD false
    .record
      [("name", .text m.spec.name), ("ordinal", .nat m.spec.ordinal), ("state", .text m.state.word),
       ("pid", .nat? m.process.pid), ("closed", .bool (m.state = .closed)),
       ("env", m.spec.environment.toTree), ("executable", .text m.spec.schema.executable),
       ("process", if numbers then .text m.spec.name else .null)]

/-- Reports on an assembly. -/
def reportAssembly (w : World) (a : Assembly) : Tree :=
  .record
    [("state", .text a.state.word), ("len", .nat a.members.length),
     ("empty", .bool a.members.isEmpty), ("evaluations", .nat a.evaluations),
     ("timeout", a.timeout.report), ("poll_interval", a.pollInterval.report),
     ("predicate", .text a.predicate.name),
     ("interceptor_failures", ObserverFailure.reportAll a.observerFailures),
     ("members", .list (a.members.map w.reportMember))]

end World

end Muster
