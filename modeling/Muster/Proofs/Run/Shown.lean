import Muster.Proofs.Core.Simulation

/-!
# What only a run itself changes

* `Run.Blind`: a view of runs that does not show what launches, reapers and callers change of them.
* `World.shown_stepLaunch`, `World.shown_stepReaper`, `World.runs_stepClosing`, `World.runs_stepDissolution`:
  such a view shows the same when others go on.
-/

namespace Muster

/-- A view of runs does not show what launches, reapers and callers change of them. -/
structure Run.Blind {α : Type} (view : Run → α) : Prop where
  /-- Launches take permits and give them back, -/
  permits (run : Run) (permits : Nat) : view { run with permits } = view run
  /-- wait in line for them, -/
  line (run : Run) (line : List Nat) : view { run with line } = view run
  /-- and wait to be taken note of when they have ended. -/
  settled (run : Run) (settled : List Nat) : view { run with settled } = view run
  /-- A reaper is handed what is pending, -/
  handed (run : Run) (pending settled : List Nat) : view { run with pending, settled } = view run
  /-- and closes it. -/
  reaper (run : Run) (reaper? : Option Reaper) : view { run with reaper? } = view run
  /-- The caller gives up. -/
  cancelled (run : Run) : view { run with cancelled := true } = view run

namespace World

variable {α : Type} {view : Run → α} {w w' : World} {r s : Nat}

/-! ### Operations that leave a run alone -/

theorem shown_modifyRun (w : World) (s r : Nat) {f : Run → Run} (same : ∀ x, view (f x) = view x) :
    (w.modifyRun s f).runs[r]?.map view = w.runs[r]?.map view := by
  unfold modifyRun
  rw [Array.getElem?_modify]
  split
  · rw [Option.map_map]
    exact congrArg (Option.map · _) (funext same)
  · rfl

theorem runs_callCloseAll (w : World) (ms : List Nat) : (w.callCloseAll ms).2.runs = w.runs := by
  rw [callCloseAll_eq]

theorem runs_tell (w : World) (round : Round) : (w.tell round).1.runs = w.runs :=
  congrArg Core.runs (core_tell w round)

theorem runs_stepClosing (w : World) (j : Nat) : (w.stepClosing j).runs = w.runs := by
  have goes (round : Round) (phase : Round → Closing.Phase) :
      (w.stepClosingRound j round phase).runs = w.runs := by
    have told := runs_tell w round
    unfold stepClosingRound
    split <;> rename_i same <;> rw [same] at told
    · exact told
    · exact told
  unfold stepClosing
  split
  · rfl
  split
  · rfl
  split
  · unfold beginClosing
    split <;> rfl
  · split
    · rfl
    · exact goes _ _
  · rfl
  · split
    · unfold finishClosing
      split <;> rfl
    · exact goes _ _
  · rfl
  · rfl

theorem runs_stepDissolution (w : World) (d : Nat) : (w.stepDissolution d).runs = w.runs := by
  unfold stepDissolution
  split
  · rfl
  split
  · unfold beginDissolution
    split
    · rfl
    · exact runs_callCloseAll (w.modifyAssembly _ _) _
  · split
    · unfold finishDissolution
      dsimp only
      split <;> split <;> rfl
    · rfl
  · rfl

section Blind

variable (blind : Run.Blind view)

include blind

theorem shown_releasePermit (w : World) (s r : Nat) :
    (w.releasePermit s).runs[r]?.map view = w.runs[r]?.map view := by
  unfold releasePermit
  split
  · rename_i line _
    exact shown_modifyRun w s r fun run => blind.line run line
  · exact shown_modifyRun w s r fun run => blind.permits run _

theorem shown_settle (w : World) (i : Nat) (l : Launch) (o : Launch.Outcome) (r : Nat) :
    (w.settle i l o).runs[r]?.map view = w.runs[r]?.map view := by
  unfold settle
  dsimp only
  split
  · rfl
  · refine Eq.trans (shown_modifyRun _ _ r fun run => ?_) (shown_releasePermit blind _ _ r)
    exact blind.settled run _

theorem shown_takeAnswer (w : World) (i : Nat) (l : Launch) (r : Nat) :
    (w.takeAnswer i l).runs[r]?.map view = w.runs[r]?.map view := by
  unfold takeAnswer
  split
  · exact shown_settle blind w i l _ r
  · dsimp only
    split
    · exact shown_settle blind _ i l _ r
    · exact shown_settle blind _ i l _ r
    · rfl

theorem shown_stepLaunch (w : World) (i r : Nat) :
    (w.stepLaunch i).runs[r]?.map view = w.runs[r]?.map view := by
  unfold stepLaunch
  split
  · rfl
  rename_i l hl
  split
  · split
    · rfl
    · split
      · rename_i permits _
        exact shown_modifyRun w _ r fun run => blind.permits run permits
      · exact shown_modifyRun w _ r fun run => blind.line run _
  · rfl
  · exact shown_takeAnswer blind w i l r
  · rename_i round hp
    split
    · exact shown_settle blind w i l _ r
    · have told : (w.tell round).1.runs[r]?.map view = w.runs[r]?.map view := by rw [runs_tell]
      split <;> rename_i same <;> rw [same] at told
      · exact told
      · exact (shown_settle blind _ i l _ r).trans told
  · rfl
  · rfl

theorem shown_stepReaper (w : World) (s r : Nat) :
    (w.stepReaper s).runs[r]?.map view = w.runs[r]?.map view := by
  have handed (i : Nat) (l : Launch) : (w.reap s i l).runs[r]?.map view = w.runs[r]?.map view := by
    have taken : (w.modifyRun s (·.hand i)).runs[r]?.map view = w.runs[r]?.map view :=
      shown_modifyRun w s r fun run => blind.handed run _ _
    unfold reap
    dsimp only
    split
    · exact Eq.trans (shown_modifyRun _ _ r fun run => blind.reaper run _) taken
    · exact taken
  unfold stepReaper
  split
  · rfl
  split
  · rfl
  · split
    · rfl
    · refine Eq.trans (shown_modifyRun _ _ r fun run => blind.reaper run _) ?_
      split <;> rfl
  · split
    · split
      · exact handed _ _
      · rfl
    · rfl

end Blind

end World

end Muster
