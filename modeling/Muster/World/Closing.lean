import Muster.World.Telling

/-!
# Closing members

* `World.stepClosing`: goes on with a call that closes a member: observers are told, the process is
  stopped, and observers are told again.
* Only the first call for a member does anything; every other one ends at once, with nothing to report.
* A member whose process could not be stopped is closed all the same.
-/

namespace Muster

namespace World

/-- Begins to close a member, unless somebody has begun before. -/
def beginClosing (w : World) (i member : Nat) (m : Member) : World :=
  if m.closeStarted then w.setClosingPhase i (.finished (.ok []))
  else
    let w := w.modifyMember member fun m => { m with closeStarted := true, state := .closing }
    w.setClosingPhase i (.telling (w.round .closing member []))

/-- Asks the platform to stop the process of a member. -/
def stopProcess (w : World) (i member : Nat) (m : Member) (failures : List ObserverFailure) : World :=
  let w := (w.note (.stopped member)).modifyAccounts m.process.platform
    (·.stop m.process.stopError?.isSome)
  w.setClosingPhase i (.stopping (w.now + m.process.stopDelay) failures)

/-- The process of a member was stopped, or stopping it failed. -/
def markClosed (w : World) (i member : Nat) (failures : List ObserverFailure) : World :=
  let w := w.modifyMember member fun m => { m with state := .closed }
  w.setClosingPhase i (.tellingClosed (w.round .closed member failures))

/-- Ends a call that closed a member. -/
def finishClosing (w : World) (i : Nat) (m : Member) (failures : List ObserverFailure) : World :=
  match m.process.stopError? with
  | none => w.setClosingPhase i (.finished (.ok failures))
  | some cause =>
    (w.log .warn ("Member failed to close cleanly: " ++ cause.message)).setClosingPhase i
      (.finished (.error ⟨m.spec.name, cause, failures⟩))

/-- Goes on with a round of a call that closes a member. -/
def stepClosingRound (w : World) (i : Nat) (round : Round) (phase : Round → Closing.Phase) : World :=
  match w.tell round with
  | (w, .on round) => w.setClosingPhase i (phase round)
  | (w, .dead _) => w.setClosingPhase i .dead

/-- Goes on with a call that closes a member. -/
def stepClosing (w : World) (i : Nat) : World :=
  match w.closings[i]? with
  | none => w
  | some c =>
    match w.members[c.member]? with
    | none => w
    | some m =>
      match c.phase with
      | .called => w.beginClosing i c.member m
      | .telling round =>
        if round.done then w.stopProcess i c.member m round.failures
        else w.stepClosingRound i round .telling
      | .stopping _ failures => w.markClosed i c.member failures
      | .tellingClosed round =>
        if round.done then w.finishClosing i m round.failures
        else w.stepClosingRound i round .tellingClosed
      | .finished _ | .dead => w

end World

end Muster
