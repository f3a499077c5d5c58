import Muster.Proofs.Chronicle.Events
import Muster.Proofs.World.Aloof
import Muster.Proofs.World.Reach

/-!
# What channels carry

* `World.carried`: the events that the trace says were announced on a channel.
* `World.Logged`: from some time on the log of a channel has grown by these events, and by no others.
* `World.steady_logged`: whatever goes on keeps to this; only announcing touches a channel.
* **`World.OpenSteps.logged`**: so it is on every path, for every channel that is there.
* `World.events_eq_carried`: what a channel carried under an identifier is all that was announced under it, when all of
  this was announced there; `World.OpenSteps.published`: the log of the channel then holds just this.
-/

namespace Muster

/-- The event, if one was announced on a channel. -/
def Occurrence.on? (channel : Nat) (o : Occurrence) : Option Event :=
  o.announced?.bind fun a => if a.1 = channel then some a.2 else none

namespace World

/-- The events that were announced on a channel, in order, as the trace has it. -/
def carried (w : World) (channel : Nat) : List Event := (w.since 0).filterMap (Occurrence.on? channel)

/-- Since a time when a channel was as it was, and some events had been announced on it, its log has grown by what was
announced on it, and by nothing else. -/
def Logged (channel : Nat) (before : Channel) (old : List Event) (w : World) : Prop :=
  ∃ c new, w.channels[channel]? = some c ∧ c.capacity = before.capacity ∧
    c.log.toList = before.log.toList ++ new ∧ w.carried channel = old ++ new

variable {w w' w₀ : World} {channel : Nat} {before : Channel} {old : List Event}

theorem carried_note (w : World) (o : Occurrence) (channel : Nat) :
    (w.note o).carried channel = w.carried channel ++ (o.on? channel).toList := by
  unfold carried since note
  rw [Array.toList_push, List.drop_zero, List.drop_zero, List.filterMap_append]
  cases h : o.on? channel <;> simp [h]

theorem carried_note_of {o : Occurrence} (h : o.announced? = none) (w : World) (channel : Nat) :
    (w.note o).carried channel = w.carried channel := by
  rw [carried_note, Occurrence.on?, h]
  exact List.append_nil _

/-- A note of anything but an announcement leaves channels alone. -/
theorem Logged.note {o : Occurrence} (h : o.announced? = none) (here : w.Logged channel before old) :
    (w.note o).Logged channel before old := by
  obtain ⟨c, new, hc, capacity, log, carried⟩ := here
  exact ⟨c, new, hc, capacity, log, (carried_note_of h w channel).trans carried⟩

/-- What is announced on a channel goes to its log. -/
theorem Logged.announce (number : Nat) (e : Event) (here : w.Logged channel before old) :
    (w.announce number e).Logged channel before old := by
  obtain ⟨c, new, hc, capacity, log, carried⟩ := here
  have noted := carried_note { w with channels := w.channels.modify number (·.publish e) } (.announced number e) channel
  have there : (w.announce number e).channels[channel]? =
      if number = channel then some (c.publish e) else some c := by
    show (w.channels.modify number _)[channel]? = _
    rw [Array.getElem?_modify, hc]
    rfl
  by_cases own : number = channel
  · rw [if_pos own] at there
    refine ⟨_, new ++ [e], there, capacity, ?_, ?_⟩
    · rw [Channel.publish, Array.toList_push, log, List.append_assoc]
    · have on : (Occurrence.announced number e).on? channel = some e := if_pos own
      rw [World.announce, noted, on, ← List.append_assoc, ← carried]
      rfl
  · rw [if_neg own] at there
    have on : (Occurrence.announced number e).on? channel = none := if_neg own
    refine ⟨c, new, there, capacity, log, ?_⟩
    rw [World.announce, noted, on, ← carried]
    exact List.append_nil _

/-- Nothing but announcing touches a channel, and the trace tells of all of it. -/
theorem steady_logged (channel : Nat) (before : Channel) (old : List Event) : Steady (Logged channel before old) where
  note _ _ unsaid here := here.note unsaid
  announce number e here := here.announce number e
  questions _ here := here
  runs _ here := here
  closings _ here := here
  assemblies _ here := here
  dissolutions _ here := here
  requested _ here := here.note rfl
  stopped _ here := here.note rfl
  launches _ here := here
  members _ here := here
  platforms _ here := here
  identities _ here := here

theorem OpenStep.logged (step : OpenStep w w') (here : w.Logged channel before old) :
    w'.Logged channel before old := by
  have steady := steady_logged channel before old
  cases step with
  | close => exact here
  | step step =>
    cases step with
    | advance s => exact steady.advance s here
    | begin plan platform channel? cancelled => exact steady.begin plan platform channel? cancelled here
    | cancel r => exact steady.modifyRun r _ here
    | ask a => exact steady.isStable a here
    | announce number e => exact here.announce number e
    | pass | launch | close | dissolve | platform => exact here
    | channel c =>
      obtain ⟨c, new, hc, rest⟩ := here
      exact ⟨c, new, (Array.getElem?_push_lt (lt_of_getElem?_eq_some hc)).trans
        ((Array.getElem?_eq_getElem _).symm.trans hc), rest⟩

/-- **Channels.** Whatever happens, the log of a channel grows by what is announced on it, and by nothing else. -/
theorem OpenSteps.logged (h : OpenSteps w₀ w) (there : w₀.channels[channel]? = some before) :
    w.Logged channel before (w₀.carried channel) := by
  induction h with
  | refl => exact ⟨before, [], there, rfl, (List.append_nil _).symm, (List.append_nil _).symm⟩
  | tail _ step ih => exact step.logged ih

/-! ### Identifiers -/

variable {id : Uuid}

/-- What was announced on a channel under an identifier was announced under it. -/
theorem carried_subset (w : World) (channel : Nat) (id : Uuid) :
    (w.carried channel).filter (·.assemblyId = id) ⊆ w.events id := by
  intro e he
  obtain ⟨carried, about⟩ := List.mem_filter.mp he
  obtain ⟨o, ho, on⟩ := List.mem_filterMap.mp carried
  refine List.mem_filterMap.mpr ⟨o, ho, ?_⟩
  cases o with
  | announced number e' =>
    obtain ⟨-, same⟩ := Option.ite_none_right_eq_some.mp on
    cases same
    exact if_pos (of_decide_eq_true about)
  | _ => cases on

/-- When all that was announced under an identifier was announced on one channel, the channel carried it. -/
theorem events_eq_carried
    (one : ∀ number e, .announced number e ∈ w.since 0 → e.assemblyId = id → number = channel) :
    w.events id = (w.carried channel).filter (·.assemblyId = id) := by
  unfold events carried
  rw [List.filter_filterMap]
  refine List.filterMap_congr fun o ho => ?_
  cases o with
  | announced number e =>
    by_cases about : e.assemblyId = id
    · have on : (Occurrence.announced number e).on? channel = some e := if_pos (one number e ho about)
      rw [on, Option.filter_some, if_pos (decide_eq_true about)]
      exact if_pos about
    · by_cases on : number = channel <;>
        simp [Occurrence.on?, Occurrence.announced?, Occurrence.under?, Option.filter_some, about, on]
  | _ => rfl

/-- When nothing was known under an identifier, and all that has been announced under it since was announced on one
channel, the log of the channel holds it. -/
theorem OpenSteps.published (h : OpenSteps w₀ w) (there : w₀.channels[channel]? = some before)
    (silent : w₀.events id = []) (quiet : ∀ e ∈ before.log.toList, e.assemblyId ≠ id)
    (one : ∀ number e, .announced number e ∈ w.since 0 → e.assemblyId = id → number = channel) :
    ∃ c, w.channels[channel]? = some c ∧ c.capacity = before.capacity ∧
      c.log.toList.filter (·.assemblyId = id) = w.events id := by
  obtain ⟨c, new, hc, capacity, log, carried⟩ := h.logged there
  have early : (w₀.carried channel).filter (·.assemblyId = id) = [] :=
    List.eq_nil_of_subset_nil (silent ▸ carried_subset w₀ channel id)
  have old : before.log.toList.filter (·.assemblyId = id) = [] :=
    List.filter_eq_nil_iff.mpr fun e he => decide_eq_true_iff.not.mpr (quiet e he)
  refine ⟨c, hc, capacity, ?_⟩
  calc c.log.toList.filter (·.assemblyId = id)
      = new.filter (·.assemblyId = id) := by rw [log, List.filter_append, old, List.nil_append]
    _ = (w.carried channel).filter (·.assemblyId = id) := by
      rw [carried, List.filter_append, early, List.nil_append]
    _ = w.events id := (events_eq_carried one).symm

end World

end Muster
