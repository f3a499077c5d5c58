import Muster.Duration.Basic
import Muster.Uuid
import Muster.Member.Failure
import Muster.Schema.Error

/-!
# How assemblies end

* `Teardown`: what happened while a set of members was closed.
* `AssemblyError`: why there is no assembly; every error after the first launch carries the teardown
  that closed the members there were.
-/

namespace Muster

/-- The stations of an assembly's life. -/
inductive AssemblyState where
  | building
  | stable
  | degraded
  | closed
deriving DecidableEq, Repr

namespace AssemblyState

/-- The word for a state. -/
def word : AssemblyState → String
  | building => "building"
  | stable => "stable"
  | degraded => "degraded"
  | closed => "closed"

/-- All states. -/
def all : List AssemblyState := [building, stable, degraded, closed]

/-- The state that a word names. -/
def ofWord? (w : String) : Option AssemblyState := all.find? fun s => s.word = w

theorem ofWord?_word (s : AssemblyState) : ofWord? s.word = some s := by
  cases s <;> decide

end AssemblyState

/-- What happened while a set of members was closed. -/
structure Teardown where
  /-- The number of members that were closed, whether or not their processes could be stopped. -/
  closed : Nat := 0
  /-- The members whose processes could not be stopped. -/
  closeFailures : List CloseFailure := []
  /-- What observers reported; for a rollback, also while the members were realized. -/
  observerFailures : List ObserverFailure := []
deriving DecidableEq, Repr, Inhabited

namespace Teardown

/-- Every process was stopped and no observer reported anything. -/
def clean (t : Teardown) : Bool := t.closeFailures.isEmpty && t.observerFailures.isEmpty

/-- The counts of a teardown in words. -/
def summary (t : Teardown) : String :=
  toString t.closed ++ " member(s) closed, " ++ toString t.closeFailures.length ++
    " close error(s), " ++ toString t.observerFailures.length ++ " interceptor failure(s)"

/-- The wording of the error that an assembly's teardown ends in when a process could not be stopped. -/
def errorMessage (t : Teardown) : String := "assembly teardown was not clean: " ++ t.summary

/-- Adds the outcome of closing one member. -/
def addOutcome (t : Teardown) : Except CloseFailure (List ObserverFailure) → Teardown
  | .ok fs => { t with closed := t.closed + 1, observerFailures := t.observerFailures ++ fs }
  | .error f =>
    { closed := t.closed + 1
      closeFailures := t.closeFailures ++ [f]
      observerFailures := t.observerFailures ++ f.observerFailures }

/-- The teardown that the outcomes make, in their order. -/
def ofOutcomes (l : List (Except CloseFailure (List ObserverFailure))) : Teardown :=
  l.foldl addOutcome {}

/-- Puts failures reported earlier in front of the teardown's own. -/
def after (t : Teardown) (earlier : List ObserverFailure) : Teardown :=
  { t with observerFailures := earlier ++ t.observerFailures }

end Teardown

/-- A member as it was seen at one moment. -/
structure Sighting where
  /-- The identifier of the member. -/
  id : Uuid
  /-- The name of the member. -/
  name : String
  /-- The place of the member in its assembly. -/
  ordinal : Nat
  /-- The state of the member. -/
  state : MemberState
  /-- The process number, if the platform tells one. -/
  pid : Option Nat
deriving DecidableEq, Repr

/-- Why there is no assembly. -/
inductive AssemblyError where
  /-- The configuration is wrong; nothing was launched. -/
  | setup (cause : SetupError)
  /-- Members failed to launch. -/
  | launch (failures : List LaunchFailure) (rollback : Teardown)
  /-- Members were still outstanding when the time was up. -/
  | launchTimeout (timeout : Duration) (outstanding : List String) (rollback : Teardown)
  /-- All members ran, but they never were stable. -/
  | unstable (timeout : Duration) (evaluations : Nat) (seen : List Sighting) (rollback : Teardown)
  /-- The caller gave up. -/
  | cancelled (rollback : Teardown)
deriving DecidableEq, Repr

namespace AssemblyError

/-- The wording of an error. -/
def message : AssemblyError → String
  | setup cause => "invalid assembly configuration: " ++ cause.message
  | launch failures _ =>
    toString failures.length ++ " member(s) failed to realize: " ++
      "; ".intercalate (failures.map (·.message))
  | launchTimeout timeout outstanding _ =>
    "members not realized within " ++ timeout.shown ++ ": " ++ ", ".intercalate outstanding
  | unstable timeout evaluations _ _ =>
    "assembly not stable within " ++ timeout.shown ++ " after " ++ toString evaluations ++
      " evaluation(s)"
  | cancelled _ => "assembly realization cancelled"

/-- The wordings of the error and of the errors behind it. -/
def causes : AssemblyError → List String
  | setup cause => message (setup cause) :: cause.causes
  | e => [e.message]

/-- The teardown of the members there were. -/
def rollback? : AssemblyError → Option Teardown
  | setup _ => none
  | launch _ t | launchTimeout _ _ t | unstable _ _ _ t | cancelled t => some t

/-- The short label of an error in counts and logs. -/
def label : AssemblyError → String
  | setup _ => "configuration"
  | launch _ _ => "realization"
  | launchTimeout _ _ _ => "realization_timeout"
  | unstable _ _ _ _ => "stability_timeout"
  | cancelled _ => "cancelled"

end AssemblyError

end Muster
