import Muster.Proofs.Member.Protocol
import Muster.Proofs.Run.Shown

/-!
# Calls that close members come to their end

* `Round.weight`, `Closing.Phase.weight`: how much of a call that closes a member is still to be done;
  **`World.weight_stepClosing`**: when the call goes on it is less.
* `World.Waits`: a caller waits: calls that close members go on, and time passes.
* `World.Reachable.not_dead`: a call is not taken down by observers that respond.
* **`World.Reachable.ends`**: who waits long enough sees a call end that closes a member whose observers
  respond; `World.Reachable.all_end`: and so for any number of calls.
-/

namespace Muster

/-- How much of telling observers is still to be done. -/
def Round.weight (round : Round) : Nat := 2 * round.left.length + if round.due?.isNone then 1 else 0

/-- How much of a call that closes a member with so many observers is still to be done. -/
def Closing.Phase.weight (observers : Nat) : Closing.Phase → Nat
  | .called => 4 * observers + 6
  | .telling round => round.weight + (2 * observers + 4)
  | .stopping _ _ => 2 * observers + 3
  | .tellingClosed round => round.weight + 1
  | .finished _ | .dead => 0

namespace World

variable {w w' : World} {j : Nat} {k : Closing} {x : Member}

/-! ### A call that goes on -/

theorem weight_round (w : World) (occasion : Occasion) {m : Nat} (hx : w.members[m]? = some x)
    (failures : List ObserverFailure) : (w.round occasion m failures).weight = 2 * x.observers.length + 1 := by
  unfold round Round.weight
  rw [hx]
  rfl

theorem respond_on {round round' : Round} {o : Observer} {rest : List Observer} {seat : Seat}
    (on : (w.respond round o rest seat).2 = .on round') : round'.left = rest ∧ round'.due? = none := by
  unfold respond at on
  split at on
  · cases on
    exact ⟨rfl, rfl⟩
  · cases on
    exact ⟨rfl, rfl⟩
  · cases on

/-- Telling goes on until no observer is left. -/
theorem weight_tell {round round' : Round} (left : round.left ≠ []) (on : (w.tell round).2 = .on round') :
    round'.weight < round.weight := by
  -- an observer has responded
  have less {o : Observer} {rest : List Observer} (hleft : round.left = o :: rest)
      (gone : round'.left = rest ∧ round'.due? = none) : round'.weight < round.weight := by
    unfold Round.weight
    rw [gone.1, gone.2, hleft, List.length_cons, Option.isNone_none, if_pos rfl]
    omega
  unfold tell at on
  split at on
  · rename_i o rest m hleft hm
    dsimp only at on
    split at on
    · exact less hleft (respond_on on)
    · rename_i waits
      split at on
      · exact less hleft (respond_on on)
      · cases on
        unfold Round.weight
        rw [waits]
        exact Nat.lt_succ_self _
  · cases on
    have some := List.length_pos_iff.mpr left
    unfold Round.weight
    dsimp only
    split
    · rw [List.length_nil]
      omega
    · rw [List.length_nil]
      omega

theorem closing_setClosingPhase (hk : w.closings[j]? = some k) (p : Closing.Phase) :
    (w.setClosingPhase j p).closings[j]? = some { k with phase := p } := by
  unfold setClosingPhase
  rw [Array.getElem?_modify, if_pos rfl, hk, Option.map_some]

theorem closings_tell (w : World) (round : Round) : (w.tell round).1.closings = w.closings :=
  congrArg Core.closings (core_tell w round)

/-- A call that tells observers goes on with it, or is taken down. -/
theorem weight_stepClosingRound (hk : w.closings[j]? = some k) {round : Round} (left : round.left ≠ [])
    {phase : Round → Closing.Phase} {n rest : Nat} (weight : ∀ round, (phase round).weight n = round.weight + rest) :
    ∃ p, (w.stepClosingRound j round phase).closings[j]? = some { k with phase := p } ∧
      p.weight n < (phase round).weight n := by
  have kept := closings_tell w round
  have less {round' : Round} (on : (w.tell round).2 = .on round') := weight_tell left on
  have some := List.length_pos_iff.mpr left
  unfold stepClosingRound
  split <;> rename_i same <;> rw [same] at kept less
  · rename_i round'
    refine ⟨phase round', closing_setClosingPhase (kept ▸ hk) _, ?_⟩
    rw [weight, weight]
    exact Nat.add_lt_add_right (less rfl) rest
  · refine ⟨.dead, closing_setClosingPhase (kept ▸ hk) _, ?_⟩
    rw [weight]
    show 0 < Round.weight round + rest
    unfold Round.weight
    omega

theorem ne_nil_of_not_done {round : Round} (more : ¬ round.done = true) : round.left ≠ [] := by
  intro none
  rw [Round.done, none] at more
  exact more rfl

/-- **Less to do.** When a call that closes a member goes on there is less of it to be done. -/
theorem weight_stepClosing (hk : w.closings[j]? = some k) (hx : w.members[k.member]? = some x)
    (unfinished : ∀ o, k.phase ≠ .finished o) (alive : k.phase ≠ .dead) :
    ∃ p, (w.stepClosing j).closings[j]? = some { k with phase := p } ∧
      p.weight x.observers.length < k.phase.weight x.observers.length := by
  -- a change of the member's state leaves its observers
  have told (f : Member → Member) (same : (f x).observers = x.observers) (occasion : Occasion)
      (failures : List ObserverFailure) :
      ((w.modifyMember k.member f).round occasion k.member failures).weight = 2 * x.observers.length + 1 := by
    have hx' : (w.modifyMember k.member f).members[k.member]? = some (f x) := by
      unfold modifyMember
      rw [Array.getElem?_modify, if_pos rfl, hx, Option.map_some]
    rw [weight_round _ occasion hx', same]
  unfold stepClosing
  rw [hk]
  dsimp only
  rw [hx]
  dsimp only
  cases hp : k.phase with
  | called =>
    dsimp only
    unfold beginClosing
    split
    · refine ⟨_, closing_setClosingPhase hk _, ?_⟩
      show 0 < 4 * x.observers.length + 6
      exact Nat.succ_pos _
    · refine ⟨_, closing_setClosingPhase hk _, ?_⟩
      have start := told (fun m => { m with closeStarted := true, state := .closing }) rfl .closing []
      show Round.weight _ + (2 * x.observers.length + 4) < 4 * x.observers.length + 6
      omega
  | telling round =>
    dsimp only
    split
    · refine ⟨_, closing_setClosingPhase hk _, ?_⟩
      rw [Closing.Phase.weight, Closing.Phase.weight]
      omega
    · rename_i more
      exact weight_stepClosingRound hk (ne_nil_of_not_done more) fun _ => rfl
  | stopping due failures =>
    refine ⟨_, closing_setClosingPhase hk _, ?_⟩
    have start := told (fun m => { m with state := .closed }) rfl .closed failures
    show Round.weight _ + 1 < 2 * x.observers.length + 3
    omega
  | tellingClosed round =>
    dsimp only
    split
    · unfold finishClosing
      split
      · exact ⟨_, closing_setClosingPhase hk _, Nat.succ_pos _⟩
      · exact ⟨_, closing_setClosingPhase hk _, Nat.succ_pos _⟩
    · rename_i more
      exact weight_stepClosingRound hk (ne_nil_of_not_done more) fun _ => rfl
  | finished o => exact absurd hp (unfinished o)
  | dead => exact absurd hp alive

/-! ### Waiting -/

/-- A caller waits: a call that closes a member goes on, or time passes. -/
inductive Waits (w : World) : World → Prop where
  /-- A call goes on. -/
  | closing (j : Nat) (ready : w.readiness (.closing j) = .ready) : Waits w (w.stepClosing j)
  /-- Time passes. -/
  | pass (ms : Nat) : Waits w { w with now := w.now + ms }

theorem Waits.step (waits : Waits w w') : Step w w' := by
  cases waits with
  | closing j ready => exact .advance (.closing j) ready
  | pass ms => exact .pass ms

theorem Waits.runs (waits : Waits w w') : w'.runs = w.runs := by
  cases waits with
  | closing j => exact runs_stepClosing w j
  | pass => rfl

/-- Waiting for any number of steps. -/
def Waiting : World → World → Prop := Relation.ReflTransGen Waits

theorem Waiting.steps (h : Waiting w w') : Steps w w' := by
  induction h with
  | refl => exact .refl
  | tail _ waits ih => exact ih.tail waits.step

theorem Waiting.runs (h : Waiting w w') : w'.runs = w.runs := by
  induction h with
  | refl => rfl
  | tail _ waits ih => exact waits.runs.trans ih

/-- No call is taken down by observers that respond. -/
theorem Reachable.not_dead (h : Reachable w) (hk : w.closings[j]? = some k)
    (hx : w.members[k.member]? = some x) (responds : ∀ o ∈ x.observers, o.Responds) : k.phase ≠ .dead := by
  obtain ⟨beats, -, chronicled⟩ := h.chronicled
  exact (chronicled.course hx).not_dead h.sound hx responds hk rfl

/-- A member keeps its observers. -/
theorem Steps.observers_eq (h : Steps w w') (sound : w.core.Sound) {m : Nat} (hx : w.members[m]? = some x) :
    ∃ x', w'.members[m]? = some x' ∧ x'.observers = x.observers := by
  refine (h.invariant (P := fun c => ∃ x', c.members[m]? = some x' ∧ x'.observers = x.observers) sound
    ⟨x, hx, rfl⟩ fun _ move ⟨y, hy, same⟩ => ?_).2
  obtain ⟨y', hy', kept⟩ := move.keeps.members hy
  exact ⟨y', hy', kept.observers.trans same⟩

/-- A call that has ended stays so. -/
theorem Steps.finished (h : Steps w w') (sound : w.core.Sound) {o : Except CloseFailure (List ObserverFailure)}
    (hk : w.closings[j]? = some k) (hp : k.phase = .finished o) :
    ∃ k', w'.closings[j]? = some k' ∧ k'.phase = .finished o := by
  refine (h.invariant (P := fun c => ∃ k', c.closings[j]? = some k' ∧ k'.phase = .finished o) sound
    ⟨k, hk, hp⟩ fun _ move ⟨k₁, hk₁, hp₁⟩ => ?_).2
  obtain ⟨k₂, hk₂, kept⟩ := move.keeps.closings hk₁
  exact ⟨k₂, hk₂, kept.finished hp₁⟩

/-- A call that has not ended, and was not taken down, goes on when enough time has passed. -/
theorem Waiting.readies (hk : w.closings[j]? = some k) (unfinished : ∀ o, k.phase ≠ .finished o)
    (alive : k.phase ≠ .dead) : ∃ ms, ({ w with now := w.now + ms } : World).readiness (.closing j) = .ready := by
  have timely (due : Nat) : ∃ ms, ({ w with now := w.now + ms } : World).readyFrom due = .ready :=
    ⟨due, if_pos (Nat.le_add_left due w.now)⟩
  have heard (round : Round) : ∃ ms, ({ w with now := w.now + ms } : World).roundReadiness round = .ready := by
    unfold roundReadiness
    cases round.due? with
    | none => exact ⟨0, rfl⟩
    | some due => exact timely due
  have readiness (v : World) (same : v.closings = w.closings) :
      v.readiness (.closing j) = v.closingReadiness k := by
    unfold World.readiness
    dsimp only
    rw [same, hk]
    rfl
  have going : ∃ ms, ({ w with now := w.now + ms } : World).closingReadiness k = .ready := by
    unfold closingReadiness
    cases hp : k.phase with
    | called => exact ⟨0, rfl⟩
    | telling round => exact heard round
    | stopping due failures => exact timely due
    | tellingClosed round => exact heard round
    | finished o => exact absurd hp (unfinished o)
    | dead => exact absurd hp alive
  obtain ⟨ms, ready⟩ := going
  exact ⟨ms, (readiness { w with now := w.now + ms } rfl).trans ready⟩

/-- **Calls end.** Who waits long enough sees a call end that closes a member whose observers respond. -/
theorem Reachable.ends (h : Reachable w) (hk : w.closings[j]? = some k) (hx : w.members[k.member]? = some x)
    (responds : ∀ o ∈ x.observers, o.Responds) :
    ∃ w' k' o, Waiting w w' ∧ w'.closings[j]? = some k' ∧ k'.phase = .finished o := by
  generalize weight : k.phase.weight x.observers.length = n
  induction n using Nat.strong_induction_on generalizing w k x with
  | h n ih =>
    by_cases ended : ∃ o, k.phase = .finished o
    · obtain ⟨o, hp⟩ := ended
      exact ⟨w, k, o, .refl, hk, hp⟩
    have unfinished (o : Except CloseFailure (List ObserverFailure)) : k.phase ≠ .finished o :=
      fun hp => ended ⟨o, hp⟩
    have alive := h.not_dead hk hx responds
    obtain ⟨ms, ready⟩ := Waiting.readies hk unfinished alive
    have goes : Waiting w (({ w with now := w.now + ms } : World).stepClosing j) :=
      (Relation.ReflTransGen.single (.pass ms)).tail (.closing j ready)
    -- the call has gone on, and there is less to be done
    obtain ⟨p, hk', less⟩ := weight_stepClosing (w := { w with now := w.now + ms }) hk hx unfinished alive
    obtain ⟨x', hx', same⟩ := goes.steps.observers_eq h.sound hx
    obtain ⟨w', k', o, later, there, hp⟩ := ih (p.weight x'.observers.length) (by rw [same]; omega)
      (h.trans goes.steps) hk' hx' (by rw [same]; exact responds) rfl
    exact ⟨w', k', o, goes.trans later, there, hp⟩

/-- **All calls end.** Who waits long enough sees any number of calls end that close members whose observers
respond. -/
theorem Reachable.all_end (h : Reachable w) {places : List Nat}
    (calls : ∀ j ∈ places, ∃ k x, w.closings[j]? = some k ∧ w.members[k.member]? = some x ∧
      ∀ o ∈ x.observers, o.Responds) :
    ∃ w', Waiting w w' ∧ ∀ j ∈ places, ∃ k' o, w'.closings[j]? = some k' ∧ k'.phase = .finished o := by
  induction places with
  | nil => exact ⟨w, .refl, fun j hj => absurd hj List.not_mem_nil⟩
  | cons j places ih =>
    obtain ⟨v, waits, ended⟩ := ih fun i hi => calls i (List.mem_cons_of_mem j hi)
    have reachable : Reachable v := h.trans waits.steps
    obtain ⟨k, x, hk, hx, responds⟩ := calls j List.mem_cons_self
    obtain ⟨-, k₁, hk₁, member⟩ := waits.steps.invariant (P := fun c => ∃ k₁, c.closings[j]? = some k₁ ∧
      k₁.member = k.member) h.sound ⟨k, hk, rfl⟩ fun _ move ⟨k₁, hk₁, same⟩ => by
        obtain ⟨k₂, hk₂, kept⟩ := move.keeps.closings hk₁
        exact ⟨k₂, hk₂, kept.member.trans same⟩
    obtain ⟨x₁, hx₁, same⟩ := waits.steps.observers_eq h.sound hx
    obtain ⟨w', k', o, later, hk', hp⟩ := reachable.ends hk₁ (member ▸ hx₁) (same ▸ responds)
    refine ⟨w', waits.trans later, fun i hi => ?_⟩
    rcases List.mem_cons.mp hi with rfl | hi
    · exact ⟨k', o, hk', hp⟩
    · obtain ⟨k₂, o₂, hk₂, hp₂⟩ := ended i hi
      obtain ⟨k₃, hk₃, hp₃⟩ := later.steps.finished reachable.sound hk₂ hp₂
      exact ⟨k₃, o₂, hk₃, hp₃⟩

end World

end Muster
