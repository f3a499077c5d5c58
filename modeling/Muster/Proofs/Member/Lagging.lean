import Muster.Proofs.Run.Custody

/-!
# Calls that lag

* `Core.Lags`: a call has begun to close a member, but has not come to stop its process.
* `Core.Sound.closed_iff`: a member for which a call has ended is closed unless some call lags.
* **`Core.Sound.gone_iff`**: then its process was stopped, once.

A call that finds that another one has begun to close its member ends at once. So the end of a call tells that
somebody closes the member, and not that the member is closed.
-/

namespace Muster

/-- Whether a member is closed. -/
def World.isClosed (w : World) (m : Nat) : Bool := w.members[m]?.map (·.state) = some .closed

/-- The process of a closed member was stopped once. -/
theorem Closing.Phase.At.once_of_closed {p : Closing.Phase} {count : Nat} (h : p.At .closed count) : count = 1 := by
  cases h <;> rfl

namespace Core

variable {c : Core}

/-- A call has begun to close a member, but its process has not been stopped: the observers are told, the
process is being stopped, or an observer took the call down before. -/
def Lags (ks : Array Closing) (stopped : List Nat) (m : Nat) : Prop :=
  ∃ (j : Nat) (k : Closing), ks[j]? = some k ∧ k.member = m ∧
    ((∃ round, k.phase = .telling round) ∨ (∃ due failures, k.phase = .stopping due failures) ∨
      k.phase = .dead ∧ stopped.count m = 0)

/-- A call that has begun and does not lag has had the process of its member stopped. -/
theorem closed_of_at {p : Closing.Phase} {state : MemberState} {count : Nat} (h : p.At state count)
    (telling : ∀ round, p ≠ .telling round) (stopping : ∀ due failures, p ≠ .stopping due failures)
    (dead : p = .dead → count ≠ 0) : state = .closed := by
  cases h with
  | telling round => exact absurd rfl (telling round)
  | stopping due failures => exact absurd rfl (stopping due failures)
  | deadBefore => exact absurd rfl (dead rfl)
  | tellingClosed | finished | deadAfter => rfl

/-- A call that lags has a member that is not closed. -/
theorem not_closed_of_at {p : Closing.Phase} {state : MemberState} {count : Nat} (h : p.At state count)
    (lags : (∃ round, p = .telling round) ∨ (∃ due failures, p = .stopping due failures) ∨
      p = .dead ∧ count = 0) : state ≠ .closed := by
  cases h with
  | telling | stopping | deadBefore => exact MemberState.noConfusion
  | tellingClosed round | finished o => simp at lags
  | deadAfter => simp at lags

/-- A member for which a call has ended is closed unless some call lags. -/
theorem Sound.closed_iff (h : c.Sound) {m : Nat} {x : Member} (hx : c.members[m]? = some x)
    (ended : Ended c.closings m) : x.state = .closed ↔ ¬ Lags c.closings c.stopped m := by
  obtain ⟨i, k, o, hk, hkm, ho⟩ := ended
  rcases h.lives.life hx with fresh | ⟨j, way⟩
  · cases ho.symm.trans (fresh.calls hk hkm)
  · obtain ⟨k', hk', hkm', phase⟩ := way.works
    constructor
    · rintro closed ⟨j', k'', hk'', hkm'', lags⟩
      by_cases own : j' = j
      · subst own
        cases hk'.symm.trans hk''
        exact not_closed_of_at phase lags closed
      -- all other calls are idle
      · rcases way.others hk'' hkm'' own with called | skipped
        · simp [called] at lags
        · simp [skipped] at lags
    · intro lags
      refine closed_of_at phase (fun round hp => lags ?_) (fun due failures hp => lags ?_)
        fun hp none => lags ?_
      · exact ⟨j, k', hk', hkm', .inl ⟨round, hp⟩⟩
      · exact ⟨j, k', hk', hkm', .inr (.inl ⟨due, failures, hp⟩)⟩
      · exact ⟨j, k', hk', hkm', .inr (.inr ⟨hp, none⟩)⟩

/-- A member for which a call has ended is closed, and its process was stopped once, unless some call lags. -/
theorem Sound.gone_iff (h : c.Sound) {m : Nat} {x : Member} (hx : c.members[m]? = some x)
    (ended : Ended c.closings m) :
    x.state = .closed ∧ c.stopped.count m = 1 ↔ ¬ Lags c.closings c.stopped m := by
  refine (and_iff_left_of_imp fun closed => ?_).trans (h.closed_iff hx ended)
  rcases h.lives.life hx with fresh | ⟨j, way⟩
  · cases fresh.state.symm.trans closed
  · obtain ⟨k, -, -, phase⟩ := way.works
    exact Closing.Phase.At.once_of_closed (closed ▸ phase)

end Core

namespace World

variable {w : World} {m : Nat} {x : Member}

theorem isClosed_iff (hx : w.members[m]? = some x) : w.isClosed m ↔ x.state = .closed := by
  unfold isClosed
  rw [decide_eq_true_eq, hx, Option.map_some, Option.some.injEq]

end World

end Muster
