import Muster.Proofs.Core.Move

/-!
# The outcomes of closing members

* `Core.outcomes?_eq_some`: all calls have outcomes just when each of them has ended.
* `Teardown.closed_ofOutcomes`: a teardown counts the calls.
-/

namespace Muster

theorem Closing.outcome?_eq_some {k : Closing} {o : Except CloseFailure (List ObserverFailure)} :
    k.outcome? = some o ↔ k.phase = .finished o := by
  unfold Closing.outcome?
  split
  · rename_i o' hp
    rw [hp, Option.some.injEq, Closing.Phase.finished.injEq]
  · rename_i unfinished
    refine ⟨fun h => ?_, fun hp => absurd hp (unfinished o)⟩
    cases h

namespace Core

variable {c : Core}

/-- Calls have outcomes only when each of them has ended. -/
theorem outcomes?_eq_some {places : List Nat} {outcomes : List (Except CloseFailure (List ObserverFailure))}
    (h : c.outcomes? places = some outcomes) : outcomes.length = places.length ∧
      ∀ j ∈ places, ∃ k o, c.closings[j]? = some k ∧ k.phase = .finished o := by
  induction places generalizing outcomes with
  | nil =>
    cases h
    exact ⟨rfl, fun j hj => absurd hj List.not_mem_nil⟩
  | cons j places ih =>
    simp only [outcomes?, List.mapM_cons, bind, pure, Option.bind_eq_some_iff, Option.some.injEq] at h
    obtain ⟨o, ⟨k, hk, hko⟩, rest, hrest, rfl⟩ := h
    obtain ⟨length, finished⟩ := ih hrest
    refine ⟨congrArg (· + 1) length, fun i hi => ?_⟩
    rcases List.mem_cons.mp hi with rfl | hi
    · exact ⟨k, o, hk, Closing.outcome?_eq_some.mp hko⟩
    · exact finished i hi

end Core

namespace Teardown

theorem closed_addOutcome (t : Teardown) (o : Except CloseFailure (List ObserverFailure)) :
    (t.addOutcome o).closed = t.closed + 1 := by
  cases o <;> rfl

/-- A teardown counts the calls that closed members. -/
theorem closed_ofOutcomes (l : List (Except CloseFailure (List ObserverFailure))) :
    (ofOutcomes l).closed = l.length := by
  have count : ∀ t : Teardown, (l.foldl addOutcome t).closed = t.closed + l.length := by
    induction l with
    | nil => exact fun t => rfl
    | cons o l ih =>
      intro t
      rw [List.foldl_cons, ih, closed_addOutcome, List.length_cons]
      omega
  rw [ofOutcomes, count]
  exact Nat.zero_add _

end Teardown

end Muster
