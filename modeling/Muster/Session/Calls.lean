import Muster.Session.Basic
import Muster.World.Dissolving

/-!
# Members and assemblies in a session

* `Session.launch`, `Session.close`, `Session.closeBehind`: members.
* `Session.build`, `Session.dissolve`, `Session.dissolveBehind`, `Session.forget`: assemblies.
* `Session.join`: waits for what goes on behind.
* A launch or a run that fails leaves the name that its result would get as it was.
-/

namespace Muster

namespace Session

/-- Adds a platform. -/
def addPlatform (name : String) (p : Platform) : Act Platform := do
  let i ← doing fun w => (w.platforms.size, { w with platforms := w.platforms.push p })
  let _ ← Place.platforms.put name i
  return p

/-- The platform under a name. -/
def platform (name : String) : Act Platform := do
  there (← world).platforms[← Place.platforms.find name]?

/-- The assembly under a name. -/
def assembly (name : String) : Act Assembly := do
  there (← world).assemblies[← Place.assemblies.find name]?

/-- Asks a predicate about the members under names. -/
def ask (predicate : String) (members : List String) : Act Bool := do
  let p ← Place.predicates.find predicate
  let ms ← members.mapM Place.members.find
  doing fun w => w.ask p ms

/-- Launches a member by itself. -/
def launch (name platform : String) (spec : MemberSpec) (observers : List Observer) :
    Act (Option Launch.Outcome) := do
  let p ← Place.platforms.find platform
  let outcome ← scheduling fun s => s.launch spec p observers
  match outcome with
  | some (.realized m _) => let _ ← Place.members.put name m
  | _ => pure ()
  return outcome

/-- Gives a name to the first member of an assembly that has the given name there. -/
def takeMember (name assembly member : String) : Act (Option Nat) := do
  match (← world).memberOf? (← Session.assembly assembly) member with
  | none => return none
  | some m => return some (← Place.members.put name m)

/-- Closes a member by a number of calls at the same time. -/
def close (member : String) (times : Nat) : Act (List (Except CloseFailure (List ObserverFailure))) := do
  let m ← Place.members.find member
  scheduling fun s => s.close m times

/-- Begins to close a member. -/
def closeBehind (member task : String) : Act Task := do
  let m ← Place.members.find member
  Place.tasks.put task (← scheduling fun s => s.closeBehind m)

/-- How something that goes on behind has ended. -/
inductive Ending where
  /-- A call that closes a member. -/
  | closed (outcome : Except CloseFailure (List ObserverFailure))
  /-- A call that closes an assembly. -/
  | dissolved (outcome : Except Teardown Teardown)

/-- Waits until something that goes on behind has ended. -/
def join (task : String) : Act Ending := do
  let t ← Place.tasks.find task
  let s ← scheduling fun s => let s := s.join t; (s, s)
  there (match t with
    | .closing i => (s.closed? i).map .closed
    | .dissolution i => (s.dissolved? i).map .dissolved
    | _ => none)

/-- The plan of a draft. -/
def planOf (draft : String) : Act (Except SetupError Plan) := do
  let d ← Place.drafts.find draft
  drawing d.plan

/-- Builds an assembly, and gives its place or the error, and the milliseconds that it took. -/
def build (name platform : String) (channel? : Option String) (plan : Except SetupError Plan)
    (g : GivingUp) : Act (Except AssemblyError Nat × Nat) := do
  let p ← Place.platforms.find platform
  let c ← channel?.mapM Place.channels.find
  let start := (← world).now
  let outcome ← match plan with
    | .error e => pure (.error (.setup e))
    | .ok plan => scheduling fun s => s.build plan p c g
  match outcome with
  | .ok a => let _ ← Place.assemblies.put name a
  | .error _ => pure ()
  return (outcome, (← world).now - start)

/-- Whether an assembly is stable now. -/
def isStable (name : String) : Act Bool := do
  let a ← assembly name
  doing fun w => w.isStable a

/-- Closes an assembly by a number of calls at the same time. -/
def dissolve (name : String) (times : Nat) : Act (List (Except Teardown Teardown)) := do
  let a ← Place.assemblies.find name
  scheduling fun s => s.dissolve a times

/-- Begins to close an assembly. -/
def dissolveBehind (name task : String) : Act Task := do
  let a ← Place.assemblies.find name
  Place.tasks.put task (← scheduling fun s => s.dissolveBehind a)

/-- Gives an assembly away. -/
def forget (name : String) : Act Unit := do
  let a ← assembly name
  doing fun w => ((), w.forget a)
  Place.assemblies.erase name

/-- Lets time pass. -/
def sleep (ms : Nat) : Act Unit := scheduling fun s => ((), s.sleep ms)

/-- A number of identifiers that were not given out before. -/
def freshIds : Nat → Act (List Uuid)
  | 0 => pure []
  | n + 1 => do
    let id ← doing World.freshId
    return id :: (← freshIds n)

end Session

end Muster
