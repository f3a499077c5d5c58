import Muster.Channel.Basic
import Muster.Plan.Basic
import Muster.Platform.Basic
import Std.Data.HashMap

/-!
# The world in which assemblies are built

* `World`: platforms, channels, members, and everything that is going on with them at one moment.
* `Launch`, `Closing`, `Run`, `Dissolution`: what may be going on: a member is launched or closed, an
  assembly is built or closed. Each is a phase together with what was found out so far.
* `Occurrence`: what has happened, in order, as far as anyone can tell afterwards.

Parts of the world are referred to by their places in its arrays, and never removed.
-/

namespace Muster

/-! ### Members -/

/-- A running application. -/
structure Process where
  /-- The place of the platform. -/
  platform : Nat
  /-- The process number, if the platform tells one. -/
  pid : Option Nat
  /-- The milliseconds that stopping takes. -/
  stopDelay : Nat
  /-- Why stopping fails, if it does. -/
  stopError? : Option PlatformError

/-- A member of an assembly. -/
structure Member where
  /-- The identifier of the member. -/
  id : Uuid
  /-- The place of the launch for which the process was handed out. -/
  launch : Nat
  /-- What the member was launched from. -/
  spec : MemberSpec
  /-- The process of the member. -/
  process : Process
  /-- Who hears of the member's life, in order. -/
  observers : List Observer
  /-- When the process was handed out, in milliseconds. -/
  since : Nat
  /-- The station in the member's life. -/
  state : MemberState := .realized
  /-- Somebody has begun to close the member. -/
  closeStarted : Bool := false

/-- Telling the observers of a member of one occasion, one after another. -/
structure Round where
  /-- What they are told. -/
  occasion : Occasion
  /-- The place of the member. -/
  member : Nat
  /-- The observers who have not responded yet. -/
  left : List Observer
  /-- When the first of them responds, once it was told. -/
  due? : Option Nat := none
  /-- What those before reported. -/
  failures : List ObserverFailure := []

/-! ### What may be going on -/

/-- How a launch ended. -/
inductive Launch.Outcome where
  /-- There is a member; observers reported these failures. -/
  | realized (member : Nat) (failures : List ObserverFailure)
  /-- The platform refused. -/
  | failed (failure : LaunchFailure)
  /-- The launch was taken down. -/
  | died (message : String)

/-- The phases of a launch. -/
inductive Launch.Phase where
  /-- Nothing has happened yet. -/
  | queued
  /-- As many members as allowed are being launched; this one waits in line. -/
  | waiting
  /-- The launch is first in line and may go on. -/
  | granted
  /-- The platform was asked and answers at a time. -/
  | realizing (due : Nat)
  /-- The observers are told. -/
  | telling (round : Round)
  /-- The launch has ended. -/
  | settled (outcome : Launch.Outcome)

/-- A member being launched. -/
structure Launch where
  /-- What is launched. -/
  spec : MemberSpec
  /-- The place of the platform. -/
  platform : Nat
  /-- Who hears of the member's life, in order. -/
  observers : List Observer
  /-- The place of the run to which the launch belongs, if it belongs to one. -/
  run? : Option Nat := none
  /-- The phase of the launch. -/
  phase : Launch.Phase := .queued

/-- The outcome of a launch that has ended. -/
def Launch.outcome? (l : Launch) : Option Launch.Outcome :=
  match l.phase with
  | .settled outcome => some outcome
  | _ => none

/-- The phases of a call that closes a member. -/
inductive Closing.Phase where
  /-- Nothing has happened yet. -/
  | called
  /-- The observers are told that the process will be stopped. -/
  | telling (round : Round)
  /-- The process is being stopped until a time; observers reported these failures. -/
  | stopping (due : Nat) (failures : List ObserverFailure)
  /-- The observers are told that the process was stopped, or that stopping it failed. -/
  | tellingClosed (round : Round)
  /-- The call has ended. -/
  | finished (outcome : Except CloseFailure (List ObserverFailure))
  /-- An observer took the call down; it never ends. -/
  | dead

/-- A call that closes a member. -/
structure Closing where
  /-- The place of the member. -/
  member : Nat
  /-- The phase of the call. -/
  phase : Closing.Phase := .called

/-- The outcome of a call that has ended. -/
def Closing.outcome? (c : Closing) : Option (Except CloseFailure (List ObserverFailure)) :=
  match c.phase with
  | .finished outcome => some outcome
  | _ => none

/-- Why a run gives up. -/
inductive Run.Cause where
  /-- Members failed to launch. -/
  | launch (failures : List LaunchFailure)
  /-- Members were still outstanding when the time was up. -/
  | launchTimeout (outstanding : List String)
  /-- The members never were stable. -/
  | unstable (seen : List Sighting)
  /-- The caller gave up. -/
  | cancelled

/-- The phases of a run. -/
inductive Run.Phase where
  /-- The members are being launched. -/
  | launching
  /-- The members that there are get closed, by the calls at these places. -/
  | rollingBack (cause : Run.Cause) (closings : List Nat)
  /-- The predicate is due to be asked. -/
  | asking
  /-- The predicate is asked again at a time. -/
  | resting (due : Nat)
  /-- The run has ended, in an error or with the assembly at a place. -/
  | finished (outcome : Except AssemblyError Nat)

/-- Closing what launches produce after their run gave up, one member at a time. -/
structure Reaper where
  /-- The place of the call that closes a member just now. -/
  closing? : Option Nat := none

/-- An assembly being built. -/
structure Run where
  /-- The identifier of the assembly. -/
  id : Uuid
  /-- The channel on which the assembly's life is announced, if there is one. -/
  channel? : Option Nat
  /-- When the run began, in milliseconds. -/
  started : Nat
  /-- The bound on each phase. -/
  timeout : Duration
  /-- The time between two questions to the predicate. -/
  pollInterval : Duration
  /-- Decides when the assembly is stable. -/
  predicate : Predicate
  /-- When the present phase is over, in milliseconds. -/
  deadline : Nat
  /-- How many more launches may begin. -/
  permits : Nat
  /-- The launches that wait in line. -/
  line : List Nat := []
  /-- The launches whose outcomes were not taken note of yet. -/
  pending : List Nat := []
  /-- Those of the pending launches that have ended, in the order in which they did. -/
  settled : List Nat := []
  /-- The names of outstanding members by their places in the assembly, lowest first. -/
  outstanding : List (Nat × String) := []
  /-- The members that there are. -/
  members : List Nat := []
  /-- The launches that failed. -/
  failures : List LaunchFailure := []
  /-- What observers reported while the members were launched. -/
  observerFailures : List ObserverFailure := []
  /-- How often the predicate was asked. -/
  evaluations : Nat := 0
  /-- The caller has given up. -/
  cancelled : Bool := false
  /-- What closes the members that come too late, once the run has given up. -/
  reaper? : Option Reaper := none
  /-- The phase of the run. -/
  phase : Run.Phase := .launching

/-- The outcome of a run that has ended. -/
def Run.outcome? (run : Run) : Option (Except AssemblyError Nat) :=
  match run.phase with
  | .finished outcome => some outcome
  | _ => none

/-- A stable set of members. -/
structure Assembly where
  /-- The identifier of the assembly. -/
  id : Uuid
  /-- The members in the order of their places. -/
  members : List Nat
  /-- Decides whether the assembly is stable. -/
  predicate : Predicate
  /-- The bound on each phase of the run. -/
  timeout : Duration
  /-- The time between two questions to the predicate. -/
  pollInterval : Duration
  /-- How often the predicate was asked until it held. -/
  evaluations : Nat
  /-- What observers reported while the members were launched. -/
  observerFailures : List ObserverFailure
  /-- The channel on which the assembly's life is announced, if there is one. -/
  channel? : Option Nat
  /-- The station in the assembly's life. -/
  state : AssemblyState := .stable
  /-- Somebody has begun to close the assembly. -/
  closeStarted : Bool := false

/-- The phases of a call that closes an assembly. -/
inductive Dissolution.Phase where
  /-- Nothing has happened yet. -/
  | called
  /-- The members get closed, by the calls at these places. -/
  | closing (closings : List Nat)
  /-- The call has ended; it is an error when a process could not be stopped. -/
  | finished (outcome : Except Teardown Teardown)

/-- A call that closes an assembly. -/
structure Dissolution where
  /-- The place of the assembly. -/
  assembly : Nat
  /-- The phase of the call. -/
  phase : Dissolution.Phase := .called

/-- The outcome of a call that has ended. -/
def Dissolution.outcome? (d : Dissolution) : Option (Except Teardown Teardown) :=
  match d.phase with
  | .finished outcome => some outcome
  | _ => none

/-! ### What has happened -/

/-- How important a message is. -/
inductive Level where
  | warn
  | error
deriving DecidableEq, Repr

namespace Level

/-- The word for a level. -/
def word : Level → String
  | warn => "warn"
  | error => "error"

end Level

/-- Something that has happened. -/
inductive Occurrence where
  /-- A platform was asked for the process of a launch. -/
  | requested (launch : Nat)
  /-- An observer was told of an occasion in the life of a member, which was in the given state. -/
  | told (observer : Nat) (occasion : Occasion) (member : Nat) (state : MemberState)
  /-- An observer left a line in the journal. -/
  | noted (line : String)
  /-- A platform was asked to stop the process of a member. -/
  | stopped (member : Nat)
  /-- A predicate was asked about members. -/
  | asked (predicate : Nat) (members : List Nat)
  /-- An event was announced on a channel. -/
  | announced (channel : Nat) (event : Event)
  /-- A message was logged. -/
  | logged (level : Level) (message : String)
  /-- A measurement was taken. -/
  | measured (name : String)

/-- Everything there is at one moment. -/
structure World where
  /-- The time in milliseconds. -/
  now : Nat := 0
  /-- The platforms. -/
  platforms : Array Platform := #[]
  /-- The channels. -/
  channels : Array Channel := #[]
  /-- The members. -/
  members : Array Member := #[]
  /-- The launches. -/
  launches : Array Launch := #[]
  /-- The calls that close members. -/
  closings : Array Closing := #[]
  /-- The runs. -/
  runs : Array Run := #[]
  /-- The assemblies. -/
  assemblies : Array Assembly := #[]
  /-- The calls that close assemblies. -/
  dissolutions : Array Dissolution := #[]
  /-- How often each predicate was asked. -/
  questions : Std.HashMap Nat Nat := ∅
  /-- How many identifiers were given out. -/
  identities : Nat := 0
  /-- What has happened so far. -/
  trace : Array Occurrence := #[]
deriving Inhabited

namespace World

/-! ### Changing parts -/

/-- Notes that something has happened. -/
def note (w : World) (o : Occurrence) : World := { w with trace := w.trace.push o }

/-- Logs a message. -/
def log (w : World) (level : Level) (message : String) : World := w.note (.logged level message)

/-- Takes a measurement. -/
def measure (w : World) (name : String) : World := w.note (.measured name)

/-- Changes the platform at a place. -/
def modifyPlatform (w : World) (i : Nat) (f : Platform → Platform) : World :=
  { w with platforms := w.platforms.modify i f }

/-- Changes the accounts of the platform at a place. -/
def modifyAccounts (w : World) (i : Nat) (f : Accounts → Accounts) : World :=
  w.modifyPlatform i fun p => { p with accounts := f p.accounts }

/-- Changes the member at a place. -/
def modifyMember (w : World) (i : Nat) (f : Member → Member) : World :=
  { w with members := w.members.modify i f }

/-- Changes the launch at a place. -/
def modifyLaunch (w : World) (i : Nat) (f : Launch → Launch) : World :=
  { w with launches := w.launches.modify i f }

/-- Puts a launch into a phase. -/
def setLaunchPhase (w : World) (i : Nat) (p : Launch.Phase) : World :=
  w.modifyLaunch i fun l => { l with phase := p }

/-- Puts a call that closes a member into a phase. -/
def setClosingPhase (w : World) (i : Nat) (p : Closing.Phase) : World :=
  { w with closings := w.closings.modify i fun c => { c with phase := p } }

/-- Changes the run at a place. -/
def modifyRun (w : World) (i : Nat) (f : Run → Run) : World :=
  { w with runs := w.runs.modify i f }

/-- Changes the assembly at a place. -/
def modifyAssembly (w : World) (i : Nat) (f : Assembly → Assembly) : World :=
  { w with assemblies := w.assemblies.modify i f }

/-- Puts a call that closes an assembly into a phase. -/
def setDissolutionPhase (w : World) (i : Nat) (p : Dissolution.Phase) : World :=
  { w with dissolutions := w.dissolutions.modify i fun d => { d with phase := p } }

/-- An identifier that was not given out before. -/
def freshId (w : World) : Uuid × World :=
  (.random w.identities, { w with identities := w.identities + 1 })

/-- Adds a call that closes a member. -/
def callClose (w : World) (member : Nat) : Nat × World :=
  (w.closings.size, { w with closings := w.closings.push { member } })

/-- Adds calls that close members, in order. -/
def callCloseAll (w : World) : List Nat → List Nat × World
  | [] => ([], w)
  | m :: ms =>
    let (c, w) := w.callClose m
    let (cs, w) := w.callCloseAll ms
    (c :: cs, w)

/-- Adds a call that closes an assembly. -/
def callDissolve (w : World) (assembly : Nat) : Nat × World :=
  (w.dissolutions.size, { w with dissolutions := w.dissolutions.push { assembly } })

/-! ### Views -/

/-- The time as a point in time. -/
def time (w : World) : Timestamp := ⟨w.now / 1000, w.now % 1000 * 1000000⟩

/-- Announces an event. -/
def announce (w : World) (channel : Nat) (e : Event) : World :=
  { w with channels := w.channels.modify channel (·.publish e) }.note (.announced channel e)

/-- The name of a member. -/
def memberName (w : World) (i : Nat) : String := (w.members[i]?.map (·.spec.name)).getD ""

/-- What is seen of a member. -/
def view? (w : World) (i : Nat) : Option MemberView :=
  w.members[i]?.map fun m =>
    ⟨⟨m.id, m.spec.name, m.spec.ordinal, m.state, m.process.pid⟩, m.spec.environment⟩

/-- What is seen of members. -/
def views (w : World) (l : List Nat) : List MemberView := l.filterMap w.view?

/-- What is seen of members, without their environments. -/
def sightings (w : World) (l : List Nat) : List Sighting := (w.views l).map (·.sighting)

/-- The outcomes of calls that close members, once all of them have ended. -/
def outcomes? (w : World) (l : List Nat) :
    Option (List (Except CloseFailure (List ObserverFailure))) :=
  l.mapM fun c => w.closings[c]?.bind Closing.outcome?

/-- Asks a predicate about members. The answer takes no time. -/
def ask (w : World) (p : Predicate) (members : List Nat) : Bool × World :=
  let calls := w.questions.getD p.id 0
  let verdict := p.check calls w.now (w.views members)
  let w := { w with questions := w.questions.insert p.id (calls + 1) }.note (.asked p.id members)
  (verdict.holds, match verdict.warning? with
    | some s => w.log .warn s
    | none => w)

end World

end Muster
