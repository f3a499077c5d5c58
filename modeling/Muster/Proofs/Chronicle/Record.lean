import Muster.Proofs.Core.Basic

/-!
# The record of a world

* `World.record`: who was told of what, which processes were to be stopped, which questions were asked and
  what was announced, in order.
* `Beat`: one entry of the record together with who made it; `Beat.entries` is what it leaves there.
* `World.record_log`, `World.record_announceRun`, …: what the operations on worlds enter in the record.
-/

namespace Muster

/-- Whether something that has happened is entered in the record. -/
def Occurrence.recorded : Occurrence → Bool
  | told .. | stopped _ | asked .. | announced .. => true
  | requested _ | noted _ | logged .. | measured _ => false

/-- Something that is entered in the record. -/
inductive Beat where
  /-- An observer is told of an occasion in the life of a member, and announces events of it. -/
  | tell (m : Nat) (o : Observer) (occasion : Occasion) (state : MemberState)
      (events : List (Nat × Event))
  /-- A platform is asked to stop the process of a member. -/
  | stop (m : Nat)
  /-- A predicate is asked about members. -/
  | ask (predicate : Nat) (members : List Nat)
  /-- An event is announced, but not by an observer. -/
  | announce (channel : Nat) (e : Event)

namespace Beat

/-- What a beat leaves in the record. -/
def entries : Beat → List Occurrence
  | tell m o occasion state events =>
    .told o.id occasion m state :: events.map fun e => .announced e.1 e.2
  | stop m => [.stopped m]
  | ask p ms => [.asked p ms]
  | announce c e => [.announced c e]

end Beat

/-- What a run announces about its assembly. -/
def Run.announces (run : Run) (e : AssemblyEvent) : List Beat :=
  run.channel?.toList.map fun c => .announce c (.assembly e)

/-- What an assembly announces about itself. -/
def Assembly.announces (a : Assembly) (e : AssemblyEvent) : List Beat :=
  a.channel?.toList.map fun c => .announce c (.assembly e)

namespace World

/-- What is entered in the record of a world, in order. -/
def record (w : World) : List Occurrence := (w.since 0).filter Occurrence.recorded

theorem record_note (w : World) (o : Occurrence) :
    (w.note o).record = w.record ++ if o.recorded then [o] else [] := by
  unfold record since note
  rw [Array.toList_push, List.drop_zero, List.drop_zero, List.filter_append]
  cases h : o.recorded <;> simp [h]

theorem record_note_of {o : Occurrence} (h : o.recorded = false) (w : World) :
    (w.note o).record = w.record := by
  rw [record_note, h]
  exact List.append_nil _

@[simp] theorem record_log (w : World) (level : Level) (message : String) :
    (w.log level message).record = w.record := record_note_of rfl w

@[simp] theorem record_measure (w : World) (name : String) : (w.measure name).record = w.record :=
  record_note_of rfl w

@[simp] theorem record_announce (w : World) (channel : Nat) (e : Event) :
    (w.announce channel e).record = w.record ++ [.announced channel e] := record_note _ _

@[simp] theorem record_modifyRun (w : World) (r : Nat) (f : Run → Run) :
    (w.modifyRun r f).record = w.record := rfl

@[simp] theorem record_callCloseAll (w : World) (ms : List Nat) :
    (w.callCloseAll ms).2.record = w.record := by
  rw [callCloseAll_eq]
  rfl

theorem record_ask (w : World) (p : Predicate) (members : List Nat) :
    (w.ask p members).2.record = w.record ++ [.asked p.id members] := by
  unfold ask
  dsimp only
  split
  · rw [record_log]; exact record_note _ _
  · exact record_note _ _

theorem record_announceRun (w : World) (run : Run) (e : AssemblyEvent) :
    (w.announceRun run e).record = w.record ++ (run.announces e).flatMap Beat.entries := by
  unfold announceRun Run.announces
  cases run.channel? with
  | some c => exact record_announce w c _
  | none => exact (List.append_nil _).symm

theorem record_foldl {α : Type} (f : World → α → World) (hf : ∀ w x, (f w x).record = w.record)
    (l : List α) (w : World) : (l.foldl f w).record = w.record := by
  induction l generalizing w with
  | nil => rfl
  | cons x l ih => rw [List.foldl_cons, ih, hf]

@[simp] theorem record_logRollback (w : World) (t : Teardown) :
    (w.logRollback t).record = w.record := by
  unfold logRollback
  rw [record_foldl _ fun w f => record_log w _ _, record_foldl _ fun w f => record_log w _ _]

/-! ### Launching -/

@[simp] theorem record_askPlatform (w : World) (i : Nat) (l : Launch) :
    (w.askPlatform i l).record = w.record := record_note_of rfl w

@[simp] theorem record_settle (w : World) (i : Nat) (l : Launch) (o : Launch.Outcome) :
    (w.settle i l o).record = w.record := by
  unfold settle releasePermit
  dsimp only
  split
  · rfl
  · rw [record_modifyRun]
    split <;> rfl

@[simp] theorem record_takeAnswer (w : World) (i : Nat) (l : Launch) :
    (w.takeAnswer i l).record = w.record := by
  unfold takeAnswer
  split
  · exact record_settle w i l _
  · dsimp only
    split
    · exact record_settle _ i l _
    · exact record_settle _ i l _
    · rfl

/-! ### Running -/

@[simp] theorem record_rollBack (w : World) (r : Nat) (run : Run) (cause : Run.Cause) :
    (w.rollBack r run cause).record = w.record := record_callCloseAll w run.members

@[simp] theorem record_abandon (w : World) (r : Nat) (run : Run) (cause : Run.Cause) :
    (w.abandon r run cause).record = w.record := by
  unfold abandon
  rw [record_rollBack]
  split <;> rfl

@[simp] theorem record_takeOutcome (w : World) (r i : Nat) (l : Launch) :
    (w.takeOutcome r i l).record = w.record := by
  unfold takeOutcome takeFailure
  dsimp only
  split <;> simp

@[simp] theorem record_reap (w : World) (r i : Nat) (l : Launch) : (w.reap r i l).record = w.record := by
  unfold reap
  dsimp only
  split <;> rfl

theorem record_fail (w : World) (r : Nat) (run : Run) (e : AssemblyError) :
    ∃ time, (w.fail r run e).record =
      w.record ++ (run.announces (.failed run.id e.message time)).flatMap Beat.entries := by
  unfold fail
  refine ⟨_, (record_announceRun _ run _).trans (congrArg (· ++ _) ?_)⟩
  rw [record_log]
  split
  · rw [record_logRollback, record_measure]
  · rw [record_measure]

theorem record_succeed (w : World) (r : Nat) (run : Run) :
    ∃ elapsed time, (w.succeed r run).record = w.record ++
      (run.announces (.stable run.id run.members.length run.evaluations elapsed time)).flatMap
        Beat.entries := by
  unfold succeed
  refine ⟨_, _, (record_announceRun _ run _).trans (congrArg (· ++ _) ?_)⟩
  rw [record_measure, record_measure]

theorem record_queueLaunches (w : World) (platform run : Nat) (observers : List Observer)
    (specs : List MemberSpec) :
    (w.queueLaunches platform run observers specs).2.record = w.record := by
  induction specs generalizing w with
  | nil => rfl
  | cons spec specs ih => exact ih _

theorem record_begin (w : World) (plan : Plan) (platform : Nat) (channel? : Option Nat)
    (cancelled : Bool) : ∃ time, (w.begin plan platform channel? cancelled).2.record = w.record ++
      (channel?.toList.map fun ch => Beat.announce ch
        (.assembly (.building w.freshId.1 plan.members.length time))).flatMap Beat.entries := by
  refine ⟨w.time, ?_⟩
  unfold begin beginWith
  dsimp only
  generalize hw' : World.announceRun _ _ _ = w'
  have announced := congrArg record hw'
  rw [record_announceRun] at announced
  exact (record_queueLaunches _ _ _ _ _).trans announced.symm

/-! ### Dissolving -/

theorem record_finishDissolution (w : World) (d assembly : Nat) (a : Assembly) (t : Teardown) :
    ∃ time, (w.finishDissolution d assembly a t).record =
      w.record ++ (a.announces (.closed a.id time)).flatMap Beat.entries := by
  have ending (w' : World) : (if t.closeFailures.isEmpty then w'.setDissolutionPhase d (.finished (.ok t))
      else (w'.log .warn ("Assembly closed with errors: " ++ t.summary)).setDissolutionPhase d
        (.finished (.error t))).record = w'.record := by
    split
    · rfl
    · exact record_log w' _ _
  refine ⟨w.time, (ending _).trans ?_⟩
  unfold Assembly.announces
  cases a.channel? with
  | none => exact (List.append_nil _).symm
  | some c => exact record_announce _ c _

end World

end Muster
