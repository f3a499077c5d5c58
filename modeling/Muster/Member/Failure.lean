/-!
# States of a member, and what can go wrong with it

* `MemberState`: the stations of a member's life.
* `Occasion`: the three points in a member's life that observers hear of.
* `PlatformError`, `ObserverFailure`, `LaunchFailure`, `CloseFailure`: the errors, each with its
  wording, and with the errors behind it in `causes`.
-/

namespace Muster

/-- The stations of a member's life. -/
inductive MemberState where
  /-- The platform is asked for a process. -/
  | starting
  /-- The process runs. -/
  | realized
  /-- The observers hear that the process will be stopped. -/
  | closing
  /-- The process was stopped, or stopping it failed. -/
  | closed
  /-- There never was a process. -/
  | failed
deriving DecidableEq, Repr

namespace MemberState

/-- The word for a state. -/
def word : MemberState → String
  | starting => "starting"
  | realized => "realized"
  | closing => "closing"
  | closed => "closed"
  | failed => "failed"

/-- All states. -/
def all : List MemberState := [starting, realized, closing, closed, failed]

/-- The state that a word names. -/
def ofWord? (w : String) : Option MemberState := all.find? fun s => s.word = w

theorem ofWord?_word (s : MemberState) : ofWord? s.word = some s := by
  cases s <;> decide

end MemberState

/-- The points in a member's life that observers hear of. -/
inductive Occasion where
  /-- The platform handed out a process. -/
  | realized
  /-- The process is about to be stopped. -/
  | closing
  /-- The process was stopped, or stopping it failed. -/
  | closed
deriving DecidableEq, Repr

namespace Occasion

/-- The word for an occasion. -/
def word : Occasion → String
  | realized => "realized"
  | closing => "closing"
  | closed => "closed"

/-- All occasions. -/
def all : List Occasion := [realized, closing, closed]

/-- The occasion that a word names. -/
def ofWord? (w : String) : Option Occasion := all.find? fun o => o.word = w

theorem ofWord?_word (o : Occasion) : ofWord? o.word = some o := by
  cases o <;> decide

end Occasion

/-- Why a platform did not do what it was asked for. -/
inductive PlatformError where
  /-- The application could not be started. -/
  | spawnFailed (detail : String)
  /-- The application could not be stopped. -/
  | terminationFailed (detail : String)
  /-- The platform cannot be reached. -/
  | unavailable (detail : String)
deriving DecidableEq, Repr

namespace PlatformError

/-- The wording of an error. -/
def message : PlatformError → String
  | spawnFailed d => "Failed to spawn application: " ++ d
  | terminationFailed d => "Failed to terminate application: " ++ d
  | unavailable d => "Platform unavailable: " ++ d

end PlatformError

/-- An error that an observer reported; it never stops anything. -/
structure ObserverFailure where
  /-- The name of the observer. -/
  observer : String
  /-- The name of the member. -/
  member : String
  /-- What the observer was told. -/
  occasion : Occasion
  /-- The observer's own wording. -/
  detail : String
deriving DecidableEq, Repr

namespace ObserverFailure

/-- The wording of a failure. -/
def message (f : ObserverFailure) : String :=
  "interceptor '" ++ f.observer ++ "' failed on " ++ f.occasion.word ++ " of '" ++ f.member ++ "': " ++
    f.detail

end ObserverFailure

/-- A member for which there is no process. -/
structure LaunchFailure where
  /-- The name of the member. -/
  member : String
  /-- The place of the member in its assembly. -/
  ordinal : Nat
  /-- Why there is no process. -/
  reason : String
deriving DecidableEq, Repr

namespace LaunchFailure

/-- The wording of a failure. -/
def message (f : LaunchFailure) : String :=
  "member '" ++ f.member ++ "' (#" ++ toString f.ordinal ++ ") failed to realize: " ++ f.reason

end LaunchFailure

/-- A member whose process could not be stopped; it counts as closed all the same. -/
structure CloseFailure where
  /-- The name of the member. -/
  member : String
  /-- The platform's answer. -/
  cause : PlatformError
  /-- What observers reported while the member was closed. -/
  observerFailures : List ObserverFailure
deriving DecidableEq, Repr

namespace CloseFailure

/-- The wording of a failure. -/
def message (f : CloseFailure) : String :=
  "member '" ++ f.member ++ "' failed to close: " ++ f.cause.message

/-- The wordings of the failure and of the error behind it. -/
def causes (f : CloseFailure) : List String := [f.message, f.cause.message]

end CloseFailure

end Muster
