import Muster.Proofs.Core.Simulation

/-!
# What is left alone

* `World.Aloof`: something that holds of worlds, and goes on to hold whatever becomes of messages, channels,
  questions, runs, assemblies and calls.
* `World.Aloof.tell`, `World.Aloof.ask`, …: what leaves it alone, operation by operation.
* **`World.Aloof.stepRun`**, **`World.Aloof.stepReaper`**, **`World.Aloof.stepDissolution`**: nothing that builds
  or closes assemblies does any harm to it.
* `World.Steady`, **`World.Steady.advance`**: what goes on to hold whatever becomes of launches, members and
  platforms, too, is kept by all strands.
-/

namespace Muster

namespace Occurrence

/-- The launch, if a platform was asked for its process. -/
def requested? : Occurrence → Option Nat
  | requested launch => some launch
  | _ => none

/-- The channel and the event, if one was announced. -/
def announced? : Occurrence → Option (Nat × Event)
  | announced channel e => some (channel, e)
  | _ => none

end Occurrence

namespace World

/-- Something that holds of worlds, and goes on to hold whatever becomes of messages, channels, questions, runs,
assemblies and calls. -/
structure Aloof (P : World → Prop) : Prop where
  note : ∀ {w : World} {o : Occurrence}, o.requested? = none → o.stopped? = none → o.announced? = none →
    P w → P (w.note o)
  announce : ∀ {w : World} (channel : Nat) (e : Event), P w → P (w.announce channel e)
  questions : ∀ {w : World} (questions : Std.HashMap Nat Nat), P w → P { w with questions }
  runs : ∀ {w : World} (runs : Array Run), P w → P { w with runs }
  closings : ∀ {w : World} (closings : Array Closing), P w → P { w with closings }
  assemblies : ∀ {w : World} (assemblies : Array Assembly), P w → P { w with assemblies }
  dissolutions : ∀ {w : World} (dissolutions : Array Dissolution), P w → P { w with dissolutions }

namespace Aloof

variable {P : World → Prop} {w : World}

/-- What is kept once is kept again and again. -/
theorem foldl {β : Type} {f : World → β → World} (each : ∀ {w : World} (x : β), P w → P (f w x)) (l : List β)
    (here : P w) : P (l.foldl f w) := by
  induction l generalizing w with
  | nil => exact here
  | cons x l ih => exact ih (each x here)

variable (h : Aloof P)
include h

/-! ### Messages and questions -/

theorem log (level : Level) (message : String) (here : P w) : P (w.log level message) := h.note rfl rfl rfl here

theorem measure (name : String) (here : P w) : P (w.measure name) := h.note rfl rfl rfl here

theorem modifyRun (r : Nat) (f : Run → Run) (here : P w) : P (w.modifyRun r f) := h.runs _ here

theorem callCloseAll (ms : List Nat) (here : P w) : P (w.callCloseAll ms).2 := by
  rw [callCloseAll_eq]
  exact h.closings _ here

theorem ask (p : Predicate) (ms : List Nat) (here : P w) : P (w.ask p ms).2 := by
  have asked : P ({ w with questions := w.questions.insert p.id (w.questions.getD p.id 0 + 1) }.note
      (.asked p.id ms)) := h.note rfl rfl rfl (h.questions _ here)
  unfold World.ask
  dsimp only
  split
  · exact h.log _ _ asked
  · exact asked

/-! ### Observers -/

theorem leaveTrail (o : Observer) (occasion : Occasion) (m : Member) (here : P w) :
    P (w.leaveTrail o occasion m) := by
  unfold World.leaveTrail
  split
  · exact here
  · exact here
  · exact h.note rfl rfl rfl here
  · exact h.announce _ _ here

theorem respond (round : Round) (o : Observer) (rest : List Observer) (seat : Seat) (here : P w) :
    P (w.respond round o rest seat).1 := by
  unfold World.respond
  split
  · exact here
  · exact h.log _ _ here
  · exact here

theorem tell (round : Round) (here : P w) : P (w.tell round).1 := by
  unfold World.tell
  split
  · dsimp only
    split
    · exact h.respond _ _ _ _ here
    · split
      · exact h.respond _ _ _ _ (h.leaveTrail _ _ _ (h.note rfl rfl rfl here))
      · exact h.leaveTrail _ _ _ (h.note rfl rfl rfl here)
  · exact here

/-! ### Runs -/

theorem announceRun (run : Run) (e : AssemblyEvent) (here : P w) : P (w.announceRun run e) := by
  unfold World.announceRun
  split
  · exact h.announce _ _ here
  · exact here

theorem logRollback (t : Teardown) (here : P w) : P (w.logRollback t) :=
  foldl (fun _ here => h.log _ _ here) _ (foldl (fun _ here => h.log _ _ here) _ here)

theorem rollBack (r : Nat) (run : Run) (cause : Run.Cause) (here : P w) : P (w.rollBack r run cause) :=
  h.modifyRun _ _ (h.callCloseAll run.members here)

theorem abandon (r : Nat) (run : Run) (cause : Run.Cause) (here : P w) : P (w.abandon r run cause) := by
  unfold World.abandon
  refine h.rollBack _ _ _ ?_
  split
  · exact here
  · exact h.modifyRun _ _ here

theorem succeed (r : Nat) (run : Run) (here : P w) : P (w.succeed r run) := by
  unfold World.succeed
  exact h.modifyRun _ _ (h.assemblies _ (h.announceRun _ _ (h.measure _ (h.measure _ here))))

theorem fail (r : Nat) (run : Run) (e : AssemblyError) (here : P w) : P (w.fail r run e) := by
  unfold World.fail
  refine h.modifyRun _ _ (h.announceRun _ _ (h.log _ _ ?_))
  split
  · exact h.logRollback _ (h.measure _ here)
  · exact h.measure _ here

theorem takeFailure (r : Nat) (f : LaunchFailure) (here : P w) : P (w.takeFailure r f) :=
  h.modifyRun _ _ (h.measure _ here)

theorem takeOutcome (r i : Nat) (l : Launch) (here : P w) : P (w.takeOutcome r i l) := by
  unfold World.takeOutcome
  dsimp only
  split
  · exact h.modifyRun _ _ (h.measure _ (h.modifyRun _ _ here))
  · exact h.takeFailure _ _ (h.log _ _ (h.modifyRun _ _ here))
  · exact h.takeFailure _ _ (h.log _ _ (h.modifyRun _ _ here))
  · exact h.modifyRun _ _ here

theorem finishLaunching (r : Nat) (run : Run) (here : P w) : P (w.finishLaunching r run) := by
  unfold World.finishLaunching
  dsimp only
  split
  · exact h.rollBack _ _ _ (h.log _ _ here)
  · split
    · exact h.succeed _ _ (h.modifyRun _ _ here)
    · exact h.modifyRun _ _ here

theorem stepLaunching (r : Nat) (run : Run) (here : P w) : P (w.stepLaunching r run) := by
  unfold World.stepLaunching
  split
  · exact h.finishLaunching r run here
  split
  · exact h.abandon _ _ _ (h.log _ _ here)
  split
  · exact h.abandon _ _ _ (h.log _ _ here)
  split
  · split
    · exact h.takeOutcome r _ _ here
    · exact here
  · exact here

theorem stepAsking (r : Nat) (run : Run) (here : P w) : P (w.stepAsking r run) := by
  unfold World.stepAsking
  split
  · exact h.rollBack _ _ _ (h.log _ _ here)
  have asked := h.modifyRun r (fun _ => { run with evaluations := run.evaluations + 1 })
    (h.ask run.predicate run.members here)
  dsimp only
  split
  · exact h.succeed _ _ asked
  · split
    · exact h.rollBack _ _ _ (h.announceRun _ _ (h.log _ _ asked))
    · exact h.modifyRun _ _ asked

/-- A run that goes on does no harm. -/
theorem stepRun (r : Nat) (here : P w) : P (w.stepRun r) := by
  unfold World.stepRun
  split
  · exact here
  split
  · exact h.stepLaunching r _ here
  · split
    · exact h.fail r _ _ here
    · exact here
  · exact h.stepAsking r _ here
  · exact h.modifyRun _ _ here
  · exact here

theorem reap (r i : Nat) (l : Launch) (here : P w) : P (w.reap r i l) := by
  unfold World.reap
  dsimp only
  split
  · exact h.modifyRun _ _ (h.closings _ (h.modifyRun _ _ here))
  · exact h.modifyRun _ _ here

/-- A reaper that goes on does no harm. -/
theorem stepReaper (r : Nat) (here : P w) : P (w.stepReaper r) := by
  unfold World.stepReaper
  split
  · exact here
  split
  · exact here
  · split
    · exact here
    · refine h.modifyRun _ _ ?_
      split
      · exact h.log _ _ here
      · exact here
  · split
    · split
      · exact h.reap r _ _ here
      · exact here
    · exact here

/-! ### Calls -/

/-- A call that closes a member does no harm if members, accounts and requests to stop do none. -/
theorem stepClosing (members : ∀ {w : World} (members : Array Member), P w → P { w with members })
    (platforms : ∀ {w : World} (platforms : Array Platform), P w → P { w with platforms })
    (stopped : ∀ {w : World} (m : Nat), P w → P (w.note (.stopped m))) (j : Nat) (here : P w) :
    P (w.stepClosing j) := by
  have goes (round : Round) (phase : Round → Closing.Phase) : P (w.stepClosingRound j round phase) := by
    have told := h.tell round here
    unfold stepClosingRound
    split <;> rename_i same <;> rw [same] at told <;> exact h.closings _ told
  unfold World.stepClosing
  split
  · exact here
  split
  · exact here
  split
  · unfold beginClosing
    split
    · exact h.closings _ here
    · exact h.closings _ (members _ here)
  · split
    · exact h.closings _ (platforms _ (stopped _ here))
    · exact goes _ _
  · exact h.closings _ (members _ here)
  · split
    · unfold finishClosing
      split
      · exact h.closings _ here
      · exact h.closings _ (h.log _ _ here)
    · exact goes _ _
  · exact here
  · exact here

/-- A call that closes an assembly does no harm. -/
theorem stepDissolution (d : Nat) (here : P w) : P (w.stepDissolution d) := by
  unfold World.stepDissolution
  split
  · exact here
  split
  · unfold beginDissolution
    split
    · exact h.dissolutions _ here
    · exact h.dissolutions _ (h.callCloseAll _ (h.assemblies _ here))
  · split
    · unfold finishDissolution
      dsimp only
      split <;> split
      · exact h.dissolutions _ (h.announce _ _ (h.assemblies _ here))
      · exact h.dissolutions _ (h.assemblies _ here)
      · exact h.dissolutions _ (h.log _ _ (h.announce _ _ (h.assemblies _ here)))
      · exact h.dissolutions _ (h.log _ _ (h.assemblies _ here))
    · exact here
  · exact here

/-- A question whether an assembly is stable does no harm. -/
theorem isStable (a : Assembly) (here : P w) : P (w.isStable a).2 := by
  unfold World.isStable
  split
  · exact here
  · split
    · exact here
    · exact h.ask _ _ here

end Aloof

/-! ### Launches -/

/-- Something that goes on to hold whatever becomes of launches, members and platforms, too. -/
structure Steady (P : World → Prop) : Prop extends Aloof P where
  requested : ∀ {w : World} (i : Nat), P w → P (w.note (.requested i))
  stopped : ∀ {w : World} (m : Nat), P w → P (w.note (.stopped m))
  launches : ∀ {w : World} (launches : Array Launch), P w → P { w with launches }
  members : ∀ {w : World} (members : Array Member), P w → P { w with members }
  platforms : ∀ {w : World} (platforms : Array Platform), P w → P { w with platforms }
  identities : ∀ {w : World} (identities : Nat), P w → P { w with identities }

namespace Steady

variable {P : World → Prop} {w : World} (h : Steady P)
include h

theorem askPlatform (i : Nat) (l : Launch) (here : P w) : P (w.askPlatform i l) :=
  h.launches _ (h.platforms _ (h.requested _ here))

theorem settle (i : Nat) (l : Launch) (o : Launch.Outcome) (here : P w) : P (w.settle i l o) := by
  unfold World.settle releasePermit
  dsimp only
  split
  · exact h.launches _ here
  · refine h.modifyRun _ _ ?_
    split
    · exact h.launches _ (h.modifyRun _ _ (h.launches _ here))
    · exact h.modifyRun _ _ (h.launches _ here)

theorem takeAnswer (i : Nat) (l : Launch) (here : P w) : P (w.takeAnswer i l) := by
  unfold World.takeAnswer
  split
  · exact h.settle i l _ here
  · dsimp only
    split
    · exact h.settle i l _ (h.platforms _ here)
    · exact h.settle i l _ (h.platforms _ here)
    · exact h.launches _ (h.platforms _ (h.members _ (h.identities _ (h.platforms _ here))))

theorem stepLaunch (i : Nat) (here : P w) : P (w.stepLaunch i) := by
  unfold World.stepLaunch
  split
  · exact here
  rename_i l _
  split
  · split
    · exact h.askPlatform i l here
    · split
      · exact h.askPlatform i l (h.modifyRun _ _ here)
      · exact h.launches _ (h.modifyRun _ _ here)
  · exact h.askPlatform i l here
  · exact h.takeAnswer i l here
  · rename_i round _
    have told := h.tell round here
    split
    · exact h.settle i l _ here
    · split <;> rename_i same <;> rw [same] at told
      · exact h.launches _ told
      · exact h.settle i l _ told
  · exact here
  · exact here

/-- **Strands.** Whatever goes on does no harm. -/
theorem advance (s : Strand) (here : P w) : P (w.advance s) := by
  cases s with
  | launch i => exact h.stepLaunch i here
  | closing j => exact h.stepClosing h.members h.platforms h.stopped j here
  | run r => exact h.stepRun r here
  | reaper r => exact h.stepReaper r here
  | dissolution d => exact h.stepDissolution d here

/-- A run that begins does no harm. -/
theorem begin (plan : Plan) (platform : Nat) (channel? : Option Nat) (cancelled : Bool) (here : P w) :
    P (w.begin plan platform channel? cancelled).2 := by
  unfold World.begin beginWith
  dsimp only [freshId, World.modifyRun]
  rw [queueLaunches_eq]
  exact h.runs _ (h.launches _ (h.runs _ (h.announceRun _ _ (h.identities _ here))))

end Steady

end World

end Muster
