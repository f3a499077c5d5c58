import Muster.World.Telling

/-!
# Launching members

* `World.stepLaunch`: goes on with a launch: it gets a permit or waits in line, asks the platform, and
  tells the observers of the new member.
* A launch that belongs to a run holds one of its permits from before the platform is asked until the
  launch has settled; the permit then goes to the first in line.
-/

namespace Muster

namespace World

/-- Asks the platform for a process. -/
def askPlatform (w : World) (i : Nat) (l : Launch) : World :=
  let delay := (w.platforms[l.platform]?.map fun p => (p.behaviour l.spec).delay).getD 0
  ((w.note (.requested i)).modifyAccounts l.platform Accounts.request).setLaunchPhase i
    (.realizing (w.now + delay))

/-- Gives a permit back: the first in line gets it. -/
def releasePermit (w : World) (r : Nat) : World :=
  match w.runs[r]?.map (·.line) with
  | some (next :: line) => (w.modifyRun r fun run => { run with line }).setLaunchPhase next .granted
  | _ => w.modifyRun r fun run => { run with permits := run.permits + 1 }

/-- Ends a launch. -/
def settle (w : World) (i : Nat) (l : Launch) (outcome : Launch.Outcome) : World :=
  let w := w.setLaunchPhase i (.settled outcome)
  match l.run? with
  | none => w
  | some r => (w.releasePermit r).modifyRun r fun run => { run with settled := run.settled ++ [i] }

/-- Adds the member for whose launch the platform handed out a process. -/
def addMember (w : World) (i : Nat) (l : Launch) (p : Platform) (b : Behaviour) (given : Option Nat) :
    Nat × World :=
  let (id, w) := w.freshId
  let process : Process := ⟨l.platform, p.nextPid given, b.stopDelay, b.stopError?⟩
  let member : Member :=
    { id, launch := i, spec := l.spec, process, observers := l.observers, since := w.now }
  (w.members.size, { w with members := w.members.push member })

/-- Takes the platform's answer. -/
def takeAnswer (w : World) (i : Nat) (l : Launch) : World :=
  match w.platforms[l.platform]? with
  | none => w.settle i l (.died "")
  | some p =>
    let b := p.behaviour l.spec
    let w := w.modifyAccounts l.platform Accounts.answer
    match b.answer with
    | .refusal e => w.settle i l (.failed ⟨l.spec.name, l.spec.ordinal, e.message⟩)
    | .death message => w.settle i l (.died message)
    | .process given =>
      let (m, w) := w.addMember i l p b given
      let w := w.modifyAccounts l.platform (·.handOut l.spec.name)
      w.setLaunchPhase i (.telling (w.round .realized m []))

/-- Goes on with a launch. -/
def stepLaunch (w : World) (i : Nat) : World :=
  match w.launches[i]? with
  | none => w
  | some l =>
    match l.phase with
    | .queued =>
      match l.run? with
      | none => w.askPlatform i l
      | some r =>
        match w.runs[r]?.map (·.permits) with
        | some (permits + 1) => (w.modifyRun r fun run => { run with permits }).askPlatform i l
        | _ => (w.modifyRun r fun run => { run with line := run.line ++ [i] }).setLaunchPhase i .waiting
    | .granted => w.askPlatform i l
    | .realizing _ => w.takeAnswer i l
    | .telling round =>
      if round.done then w.settle i l (.realized round.member round.failures)
      else match w.tell round with
        | (w, .on round) => w.setLaunchPhase i (.telling round)
        | (w, .dead message) => w.settle i l (.died message)
    | .waiting | .settled _ => w

end World

end Muster
