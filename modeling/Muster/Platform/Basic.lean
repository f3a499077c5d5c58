import Muster.Plan.Basic

/-!
# Platforms

* `Behaviour`: what a platform does when it is asked for one member's process, and when it has to stop
  that process.
* `Accounts`: what a platform counts: requests, processes handed out, and processes stopped.
* `Platform`: a behaviour for each member that is to be launched, together with the accounts.
-/

namespace Muster

/-- What comes of asking a platform for a process. -/
inductive Behaviour.Answer where
  /-- A process, with its number if the platform tells one. -/
  | process (pid : Option Nat)
  /-- An error. -/
  | refusal (e : PlatformError)
  /-- The platform takes down whoever asked. -/
  | death (message : String)
deriving DecidableEq, Repr

/-- What a platform does for one member. -/
structure Behaviour where
  /-- The milliseconds until the answer. -/
  delay : Nat := 0
  /-- The answer. -/
  answer : Behaviour.Answer := .process none
  /-- The milliseconds that stopping takes. -/
  stopDelay : Nat := 0
  /-- Why stopping fails, if it does. -/
  stopError? : Option PlatformError := none
deriving DecidableEq, Repr, Inhabited

/-- What a platform counts. -/
structure Accounts where
  /-- How often a process was asked for. -/
  requests : Nat := 0
  /-- How many requests are being worked on. -/
  inFlight : Nat := 0
  /-- How many requests were being worked on at most. -/
  peak : Nat := 0
  /-- How many processes run. -/
  live : Nat := 0
  /-- How often stopping a process was asked for. -/
  stops : Nat := 0
  /-- The members whose processes were handed out, in order. -/
  realized : List String := []
deriving DecidableEq, Repr, Inhabited

namespace Accounts

/-- A process is asked for. -/
def request (a : Accounts) : Accounts :=
  { a with
    requests := a.requests + 1
    inFlight := a.inFlight + 1
    peak := max a.peak (a.inFlight + 1) }

/-- A request is answered. -/
def answer (a : Accounts) : Accounts := { a with inFlight := a.inFlight - 1 }

/-- A process is handed out. -/
def handOut (a : Accounts) (member : String) : Accounts :=
  { a with live := a.live + 1, realized := a.realized ++ [member] }

/-- Stopping a process is asked for, and fails or does not. -/
def stop (a : Accounts) (fails : Bool) : Accounts :=
  { a with stops := a.stops + 1, live := if fails then a.live else a.live - 1 }

/-- Shows the counts. -/
def shown (a : Accounts) : String :=
  Text.shownRecord "Counters"
    [("realize_calls", toString a.requests), ("in_flight", toString a.inFlight),
     ("peak_in_flight", toString a.peak), ("live", toString a.live),
     ("terminations", toString a.stops)]

end Accounts

/-- A platform. -/
structure Platform where
  /-- The name of the platform. -/
  name : String
  /-- What the platform does for a member. -/
  behaviour : MemberSpec → Behaviour
  /-- Whether the platform itself numbers its processes, in the order in which it hands them out, and
  knows them by the names of their members. -/
  numbers : Bool := false
  /-- What the platform counts. -/
  accounts : Accounts := {}

namespace Platform

/-- The number of the first process of a platform that numbers them. -/
def firstPid : Nat := 1000

/-- The number of the next process, where the behaviour gives `given`. -/
def nextPid (p : Platform) (given : Option Nat) : Option Nat :=
  if p.numbers then some (firstPid + p.accounts.realized.length) else given

/-- A platform on which the members of some names fail, take down whoever asked, or cannot be stopped. -/
def scripted (failing dying stuck : List String) (delays : List (String × Nat)) (usualDelay : Nat) :
    Platform where
  name := "scripted"
  numbers := true
  behaviour spec :=
    { delay := ((delays.find? (·.1 = spec.name)).map (·.2)).getD usualDelay
      answer :=
        if spec.name ∈ dying then .death ("scripted panic while realizing '" ++ spec.name ++ "'")
        else if spec.name ∈ failing then
          .refusal (.spawnFailed ("scripted failure for '" ++ spec.name ++ "'"))
        else .process none
      stopError? :=
        if spec.name ∈ stuck then
          some (.terminationFailed ("'" ++ spec.name ++ "' ignored the termination request"))
        else none }

/-- A platform with a behaviour of its own for some names. -/
def custom (usual : Behaviour) (others : List (String × Behaviour)) : Platform where
  name := "custom"
  behaviour spec := ((others.find? (·.1 = spec.name)).map (·.2)).getD usual

end Platform

end Muster
