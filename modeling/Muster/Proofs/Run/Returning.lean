import Muster.Proofs.Member.Ending
import Muster.Proofs.Run.Clock
import Muster.Proofs.Run.Rollback

/-!
# Runs that close their members return

* `World.exists_outcomes?`: calls that have ended have outcomes.
* **`World.Reachable.returns`**: a run that closes its members ends in its error, when it waits long enough and
  the observers of its members respond.
-/

namespace Muster

namespace World

variable {w : World} {r : Nat} {run : Run}

/-- The observers of members respond. -/
def Answered (w : World) (members : List Nat) : Prop :=
  ∀ m ∈ members, ∀ x, w.members[m]? = some x → ∀ o ∈ x.observers, o.Responds

/-- Calls that have ended have outcomes. -/
theorem exists_outcomes? {places : List Nat}
    (ended : ∀ j ∈ places, ∃ k o, w.closings[j]? = some k ∧ k.phase = .finished o) :
    ∃ outcomes, w.outcomes? places = some outcomes := by
  induction places with
  | nil => exact ⟨[], rfl⟩
  | cons j places ih =>
    obtain ⟨outcomes, rest⟩ := ih fun i hi => ended i (List.mem_cons_of_mem j hi)
    obtain ⟨k, o, hk, hp⟩ := ended j List.mem_cons_self
    have first : w.closings[j]?.bind Closing.outcome? = some o := by
      rw [hk, Option.bind_some]
      exact Closing.outcome?_eq_some.mpr hp
    refine ⟨o :: outcomes, ?_⟩
    unfold outcomes? at rest ⊢
    rw [List.mapM_cons, first, rest]
    rfl

/-- **Returning.** A run that closes its members ends in its error, when it waits long enough and the
observers of its members respond. -/
theorem Reachable.returns (h : Reachable w) (hr : w.runs[r]? = some run) {cause : Run.Cause}
    {places : List Nat} (hp : run.phase = .rollingBack cause places) (answered : w.Answered run.members) :
    ∃ v t, Waiting w v ∧ v.readiness (.run r) = .ready ∧ (v.stepRun r).runs[r]? =
      some { run with phase := .finished (.error (errorOf run t cause)) } := by
  have calls := h.rolling hr hp
  have answering : ∀ j ∈ places, ∃ k x, w.closings[j]? = some k ∧ w.members[k.member]? = some x ∧
      ∀ o ∈ x.observers, o.Responds := by
    intro j hj
    obtain ⟨m, hm, k, hk, rfl⟩ := Core.forall₂_right calls.flip hj
    obtain ⟨x, hx⟩ := exists_getElem? (h.sound.lives.calls hk)
    exact ⟨k, x, hk, hx, answered _ hm x hx⟩
  obtain ⟨v, waits, ended⟩ := h.all_end answering
  have hr' : v.runs[r]? = some run := by rw [waits.runs, hr]
  obtain ⟨outcomes, ho⟩ := exists_outcomes? ended
  refine ⟨v, (Teardown.ofOutcomes outcomes).after run.observerFailures, waits, ?_, ?_⟩
  · unfold readiness
    dsimp only
    rw [hr', Option.map_some, Option.getD_some]
    unfold runReadiness
    rw [hp]
    dsimp only
    rw [ho]
    rfl
  · unfold stepRun
    rw [hr']
    dsimp only
    rw [hp]
    dsimp only
    rw [ho]
    exact (congrArg (fun c : Core => c.runs[r]?) (core_fail hr' run _)).trans (getElem?_replace_self hr' _)

end World

end Muster
