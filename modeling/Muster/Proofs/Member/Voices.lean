import Muster.Proofs.Chronicle.Events
import Muster.Proofs.Member.Course
import Muster.Proofs.Run.Asking

/-!
# What is announced of a member

* `Core.Attributed`: observers that were told of a member announce what they were told.
* `Beat.Civil`: nobody but an observer announces anything of a member under an identifier.
* `Core.Reserved`: nobody but a run announces anything under an identifier, and identifiers tell members apart.
* **`Core.Attributed.voices`**: what was announced of a member is what those of its observers were told who
  announce it.
* **`Core.Chronicled.spoken`**: under a reserved identifier only members are announced that came of launches of
  the run.
-/

namespace Muster

/-- Nobody but an observer announces anything of a member under an identifier. -/
def Beat.Civil (id : Uuid) : Beat → Prop
  | announce _ e => e.assemblyId = id → ∃ a, e = .assembly a
  | tell .. | stop _ | ask .. => True

theorem Beat.civil_announces (id : Uuid) (channel? : Option Nat) (e : AssemblyEvent) :
    ∀ b ∈ channel?.toList.map fun c => announce c (.assembly e), b.Civil id := by
  intro b hb
  obtain ⟨c, -, rfl⟩ := List.mem_map.mp hb
  exact fun _ => ⟨e, rfl⟩

theorem Beat.civil_of_silent {id : Uuid} {b : Beat} (silent : b.events id = []) : b.Civil id := by
  cases b with
  | announce channel e =>
    intro own
    simp [events, entries, Occurrence.under?, own] at silent
  | tell | stop | ask => trivial

theorem Note.mem_of_script {o : Observer} {occasion : Occasion} {state : MemberState} {os : List Observer}
    (h : told o occasion state ∈ script os) : o ∈ os := by
  have told {occasion' : Occasion} (h : told o occasion state ∈ tells occasion' os) : o ∈ os := by
    obtain ⟨o', ho', same⟩ := List.mem_map.mp h
    cases same
    exact ho'
  simp only [script, parting, List.mem_append, List.mem_cons, reduceCtorEq, false_or] at h
  rcases h with h | h | h <;> exact told h

theorem Round.Goes.tells {round : Round} {x : Member} {o o' : Observer} {rest : List Observer}
    {beats : List Beat} {after : Told} (goes : round.Goes x o rest beats after) {m : Nat} {occasion : Occasion}
    {state : MemberState} {events : List (Nat × Event)}
    (h : Beat.tell m o' occasion state events ∈ beats) : m = round.member ∧ o'.Announces x occasion events := by
  cases goes with
  | lingers untold announces | atOnce untold announces =>
    cases List.mem_singleton.mp h
    exact ⟨rfl, announces⟩
  | responds told => exact absurd h List.not_mem_nil

namespace Core

variable {c c' : Core} {s : Setting} {beats new : List Beat} {id : Uuid} {r m : Nat} {x : Member}

/-! ### Who announces what -/

theorem Deed.tells (deed : c.Deed s new c') {o : Observer} {occasion : Occasion} {state : MemberState}
    {events : List (Nat × Event)} (h : Beat.tell m o occasion state events ∈ new) :
    ∃ x, c.members[m]? = some x ∧ o.Announces x occasion events := by
  have untold {channel? : Option Nat} {e : AssemblyEvent} {P : Prop} (h : Beat.tell m o occasion state events ∈
      channel?.toList.map fun c => Beat.announce c (.assembly e)) : P := by
    obtain ⟨_, -, h⟩ := List.mem_map.mp h
    cases h
  cases deed with
  | launchTells _ _ _ _ hx goes | closingTells _ _ _ _ hx goes =>
    obtain ⟨rfl, announces⟩ := goes.tells h
    exact ⟨_, hx, announces⟩
  | stay | launch | closing | run | reaper | dissolution | outside | close => exact absurd h List.not_mem_nil
  | stop | rest | ask | announce => cases List.mem_singleton.mp h
  | succeedEmpty | fail | dissolved | begin => exact untold h
  | succeed | degrade =>
    rcases List.mem_cons.mp h with h | h
    · cases h
    · exact untold h

/-- Observers that were told of a member announce what they were told. -/
def Attributed (c : Core) (beats : List Beat) : Prop :=
  ∀ {m : Nat} {o : Observer} {occasion : Occasion} {state : MemberState} {events : List (Nat × Event)},
    Beat.tell m o occasion state events ∈ beats →
      ∃ x, c.members[m]? = some x ∧ o.Voices x.id occasion events

theorem Attributed.empty (c : Core) : c.Attributed [] := fun h => absurd h List.not_mem_nil

theorem Attributed.deed (h : c.Attributed beats) (deed : c.Deed s new c') : c'.Attributed (beats ++ new) := by
  intro m o occasion state events told
  obtain ⟨x, hx, voices⟩ : ∃ x, c.members[m]? = some x ∧ o.Voices x.id occasion events := by
    rcases List.mem_append.mp told with told | told
    · exact h told
    · obtain ⟨x, hx, announces⟩ := deed.tells told
      exact ⟨x, hx, announces.voices⟩
  obtain ⟨x', hx', kept⟩ := deed.move.keeps.members hx
  exact ⟨x', hx', kept.id ▸ voices⟩

/-- When nobody announces anything of a member under an identifier, a deed does not either. -/
theorem Deed.civil (deed : c.Deed s new c') (nobody : ∀ e, s.announces e → e.assemblyId ≠ id) :
    ∀ b ∈ new, b.Civil id := by
  have goes {round : Round} {x : Member} {o : Observer} {rest : List Observer} {beats : List Beat}
      {told : Told} (goes : round.Goes x o rest beats told) : ∀ b ∈ beats, b.Civil id := by
    intro b hb
    cases goes with
    | lingers | atOnce =>
      cases List.mem_singleton.mp hb
      trivial
    | responds => exact absurd hb List.not_mem_nil
  intro b hb
  cases deed with
  | launchTells _ _ _ _ _ tells | closingTells _ _ _ _ _ tells => exact goes tells b hb
  | stay | launch | closing | run | reaper | dissolution | outside | close => exact absurd hb List.not_mem_nil
  | stop | rest | ask =>
    cases List.mem_singleton.mp hb
    trivial
  | announce channel e may =>
    cases List.mem_singleton.mp hb
    exact fun own => absurd own (nobody e may)
  | succeedEmpty | fail | dissolved | begin => exact Beat.civil_announces id _ _ b hb
  | succeed | degrade =>
    rcases List.mem_cons.mp hb with rfl | hb
    · trivial
    · exact Beat.civil_announces id _ _ b hb

/-! ### Reserved identifiers -/

/-- Nobody but a run announces anything under an identifier, and identifiers tell members apart. -/
structure Reserved (c : Core) (r : Nat) (id : Uuid) : Prop where
  /-- No other run has the identifier, -/
  runs : ∀ {s : Nat} {run : Run}, c.runs[s]? = some run → run.id = id → s = r
  /-- no observer of another launch announces anything under it, -/
  observers : ∀ {i : Nat} {l : Launch} {o : Observer}, c.launches[i]? = some l → o ∈ l.observers →
    o.speaksFor id = true → l.run? = some r
  /-- and no two members have the same identifier. -/
  members : ∀ {m n : Nat} {x y : Member}, c.members[m]? = some x → c.members[n]? = some y → x.id = y.id → m = n

/-- What is reserved after a move was so before. -/
theorem Reserved.before (h : c'.Reserved r id) (move : c.Move c') : c.Reserved r id := by
  have keeps := move.keeps
  refine ⟨fun {s run} hs own => ?_, fun {i l o} hl ho speaks => ?_, fun {m n x y} hx hy same => ?_⟩
  · obtain ⟨run', hs', -⟩ := keeps.runs hs
    exact h.runs hs' ((move.run_lasts hs hs').id.trans own)
  · obtain ⟨l', hl', kept⟩ := keeps.launches hl
    exact kept.run ▸ h.observers hl' (kept.observers ▸ ho) speaks
  · obtain ⟨x', hx', xkept⟩ := keeps.members hx
    obtain ⟨y', hy', ykept⟩ := keeps.members hy
    exact h.members hx' hy' (xkept.id.trans (same.trans ykept.id.symm))

/-- A member with an observer that speaks for the identifier came of a launch of the run. -/
theorem Reserved.runOf? (h : c.Reserved r id) (born : Born c.members c.launches)
    (hx : c.members[m]? = some x) {o : Observer} (ho : o ∈ x.observers) (speaks : o.speaksFor id = true) :
    c.runOf? m = some r := by
  obtain ⟨l, hl, -, observers, -⟩ := born.member hx
  unfold Core.runOf?
  rw [hx, Option.bind_some, hl, Option.bind_some]
  exact h.observers hl (observers ▸ ho) speaks

/-! ### Voices -/

/-- **Voices.** What was announced of a member is what those of its observers were told who announce it. -/
theorem Attributed.voices (h : c.Attributed beats) (civil : ∀ b ∈ beats, b.Civil id)
    (apart : ∀ {n : Nat} {y : Member}, c.members[n]? = some y → y.id = x.id → n = m)
    (hx : c.members[m]? = some x) : (beats.flatMap (Beat.events id)).filterMap (Event.of? x.id) =
      (beats.filterMap (Beat.note? m)).filterMap (Note.voice? id) := by
  rw [List.filterMap_flatMap, List.filterMap_filterMap, List.filterMap_eq_flatMap_toList]
  refine List.flatMap_congr fun b hb => ?_
  cases b with
  | tell n o occasion state events =>
    obtain ⟨y, hy, voices⟩ := h hb
    by_cases own : n = m
    · subst own
      cases hx.symm.trans hy
      rw [Beat.note?_tell, Option.bind_some]
      rcases voices.events_tell id n state with ⟨speaks, e, events, member, told⟩ | ⟨silent, events⟩
      · simp [events, Event.of?, Note.voice?, speaks, member, told]
      · simp [events, Note.voice?, silent]
    · have other : y.id ≠ x.id := fun same => own (apart hy same)
      have unsaid : (Beat.tell n o occasion state events).note? m = none := if_neg own
      rw [unsaid]
      rcases voices.events_tell id n state with ⟨-, e, events, member, -⟩ | ⟨-, events⟩
      · simp [events, Event.of?, member, other]
      · simp [events]
  | stop n =>
    by_cases own : n = m <;> simp [Beat.events, Beat.entries, Occurrence.under?, Beat.note?, Note.voice?, own]
  | ask => rfl
  | announce channel e =>
    by_cases own : e.assemblyId = id
    · obtain ⟨a, rfl⟩ := civil _ hb own
      simp [Beat.events, Beat.entries, Occurrence.under?, own, Event.of?, Beat.note?]
    · rw [Beat.events_announce_of_ne own]
      rfl

/-- Only observers of a member are told of it. -/
theorem Chronicled.observer (h : c.Chronicled beats) {o : Observer} {occasion : Occasion} {state : MemberState}
    {events : List (Nat × Event)} (told : Beat.tell m o occasion state events ∈ beats)
    (hx : c.members[m]? = some x) : o ∈ x.observers := by
  have note : Note.told o occasion state ∈ beats.filterMap (Beat.note? m) :=
    List.mem_filterMap.mpr ⟨_, told, Beat.note?_tell m o occasion state events⟩
  exact Note.mem_of_script ((h.course hx).isPrefix.subset note)

/-- **Members.** Whatever is announced of a member under a reserved identifier, a member was told of that came
of a launch of the run. -/
theorem Chronicled.spoken (h : c.Chronicled beats) (attributed : c.Attributed beats)
    (civil : ∀ b ∈ beats, b.Civil id) (sound : c.Sound) (reserved : c.Reserved r id) {e : MemberEvent}
    (he : Event.member e ∈ beats.flatMap (Beat.events id)) :
    ∃ m x o state, c.members[m]? = some x ∧ c.runOf? m = some r ∧ e.member = x.id ∧
      Note.told o e.occasion state ∈ beats.filterMap (Beat.note? m) := by
  obtain ⟨b, hb, he⟩ := List.mem_flatMap.mp he
  cases b with
  | tell m o occasion state events =>
    obtain ⟨x, hx, voices⟩ := attributed hb
    have note : Note.told o occasion state ∈ beats.filterMap (Beat.note? m) :=
      List.mem_filterMap.mpr ⟨_, hb, Beat.note?_tell m o occasion state events⟩
    rcases voices.events_tell id m state with ⟨speaks, e', events, member, told⟩ | ⟨-, events⟩
    · rw [events, List.mem_singleton] at he
      cases he
      exact ⟨m, x, o, state, hx, reserved.runOf? sound.born hx (h.observer hb hx) speaks, member, told ▸ note⟩
    · rw [events] at he
      exact absurd he List.not_mem_nil
  | stop | ask => exact absurd he List.not_mem_nil
  | announce channel e' =>
    by_cases own : e'.assemblyId = id
    · obtain ⟨a, rfl⟩ := civil _ hb own
      simp [Beat.events, Beat.entries, Occurrence.under?, own] at he
    · rw [Beat.events_announce_of_ne own] at he
      exact absurd he List.not_mem_nil

end Core

end Muster
