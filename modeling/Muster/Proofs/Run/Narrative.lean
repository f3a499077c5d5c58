import Muster.Proofs.Member.Protocol
import Muster.Proofs.Run.Reports
import Muster.Proofs.Run.Story

/-!
# The story of an assembly

* `Members.Tells`: an occasion in the life of a member was announced.
* `Run.Ready`: an event in the life of an assembly comes after those of its members that go before it.
* `Core.Solo`: each member of a run has one observer that speaks for the identifier; `Core.Bridged`: it is the
  bridge to the channel of the run.
* `Core.Narrated`: the record tells the story of the assembly that a run builds.
* `Core.Narrated.ready_of_due`: when an event is due, those before it were announced.
* `Core.Narrated.on_channel`: all that is announced under the identifier goes to the channel of the run.
* **`Core.Narrated.deed`**: every deed goes on with the story, unless somebody else closes a member of the run
  or announces an event under the identifier.
-/

namespace Muster

/-- An occasion in the life of the member at a place is among some events. -/
def Members.Tells (ms : Array Member) (events : List Event) (m : Nat) (occasion : Occasion) : Prop :=
  ∃ x, ms[m]? = some x ∧ occasion ∈ events.filterMap (Event.of? x.id)

/-- An event in the life of the assembly of a run comes after those of its members that go before it. -/
structure Run.Ready (run : Run) (ms : Array Member) (pre : List Event) (e : Event) : Prop where
  stable : e.kind? = some .stable → ∀ m ∈ run.members, Members.Tells ms pre m .realized
  degraded : e.kind? = some .degraded → ∀ e', Event.member e' ∈ pre → e'.occasion = .realized
  ended : e.kind? = some .failed ∨ e.kind? = some .closed → ∀ m ∈ run.members, Members.Tells ms pre m .closed

theorem Run.Ready.of_member {e : Event} (h : e.kind? = none) (run : Run) (ms : Array Member)
    (pre : List Event) : run.Ready ms pre e := by
  refine ⟨fun hk => ?_, fun hk => ?_, fun hk => ?_⟩
  · cases h.symm.trans hk
  · cases h.symm.trans hk
  · rcases hk with hk | hk <;> cases h.symm.trans hk

namespace Core

variable {c c' : Core} {s : Setting} {beats new : List Beat} {id : Uuid} {r m channel : Nat} {run run' : Run}
  {x : Member}

theorem Keeps.tells (keeps : c.Keeps c') {events : List Event} {occasion : Occasion}
    (h : Members.Tells c.members events m occasion) : Members.Tells c'.members events m occasion := by
  obtain ⟨x, hx, told⟩ := h
  obtain ⟨x', hx', kept⟩ := keeps.members hx
  exact ⟨x', hx', kept.id ▸ told⟩

theorem Keeps.ready (keeps : c.Keeps c') (members : run'.members = run.members) {pre : List Event} {e : Event}
    (h : run.Ready c.members pre e) : run'.Ready c'.members pre e where
  stable hk m hm := keeps.tells (h.stable hk m (members ▸ hm))
  degraded := h.degraded
  ended hk m hm := keeps.tells (h.ended hk m (members ▸ hm))

/-- A member that came of a launch of a run that has gathered its members is one of these. -/
theorem Sound.mem_of_gathered (h : c.Sound) (hr : c.runs[r]? = some run) (gathered : run.Gathered)
    (own : c.runOf? m = some r) : m ∈ run.members := by
  unfold runOf? at own
  obtain ⟨x, hx, own⟩ := Option.bind_eq_some_iff.mp own
  obtain ⟨l, hl, hlr⟩ := Option.bind_eq_some_iff.mp own
  obtain ⟨n, hn, failures, hp⟩ := h.collected hr gathered hl hlr
  obtain ⟨l', hl', -, -, bore⟩ := h.born.member hx
  cases hl.symm.trans hl'
  cases bore with
  | bears bears => exact bears.unique (.realized hp) ▸ hn
  | felled hp' => cases hp.symm.trans hp'

/-- Of a member that nobody has begun to close nothing was said but that there is a process. -/
theorem Course.untouched {said : List Note} (course : c.Course m x said) (fresh : x.closeStarted = false) :
    said <+: Note.tells .realized x.observers := by
  cases course with
  | launching _ _ stands => exact Note.tells_isPrefix stands.told_isPrefix .realized
  | felled _ _ all => exact Note.tells_isPrefix ⟨_, by rw [List.append_assoc]; exact all⟩ .realized
  | returned => exact List.prefix_refl _
  | parting _ _ _ _ begun => cases begun.symm.trans fresh

/-- Each member of a run has one observer that speaks for the identifier. -/
def Solo (c : Core) (r : Nat) (id : Uuid) : Prop :=
  ∀ {i : Nat} {l : Launch}, c.launches[i]? = some l → l.run? = some r →
    l.observers.countP (·.speaksFor id) = 1

/-- Whoever speaks for the identifier among the observers of a run is the bridge to a channel. -/
def Bridged (c : Core) (r : Nat) (id : Uuid) (channel : Nat) : Prop :=
  ∀ {i : Nat} {l : Launch} {o : Observer}, c.launches[i]? = some l → l.run? = some r → o ∈ l.observers →
    o.speaksFor id = true → o = World.bridge channel id

theorem Builds.mem_members {plan : Plan} {os : List Observer} (h : c.Builds r plan os) {i : Nat} {l : Launch}
    (hl : c.launches[i]? = some l) (hlr : l.run? = some r) : l.spec ∈ plan.members :=
  (Launches.mem_specs h.specs).mpr ⟨i, Launches.mem_ofRun.mpr ⟨l, hl, hlr⟩, Launches.spec?_of_getElem? hl⟩

section Bridge

variable {plan : Plan} (h : c.Builds r plan (plan.observersOf (some channel) id))
  (observers : ∀ o ∈ plan.observers, o.speaksFor id = false)
  (schemas : ∀ s ∈ plan.members, ∀ o ∈ s.schema.observers, o.speaksFor id = false)

include h observers schemas

/-- The bridge of a run is the only one to speak for the identifier when the plan names nobody else. -/
theorem Builds.solo : c.Solo r id := by
  intro i l hl hlr
  have none {os : List Observer} (silent : ∀ o ∈ os, o.speaksFor id = false) :
      os.countP (·.speaksFor id) = 0 :=
    List.countP_eq_zero.mpr fun o ho => by simp [silent o ho]
  have bridge : (World.bridge channel id).speaksFor id = true := decide_eq_true rfl
  rw [h.observers hl hlr, Plan.observersOf, List.countP_append, List.countP_append,
    none (schemas _ (h.mem_members hl hlr)), none observers, Option.map_some, Option.toList_some,
    List.countP_singleton, if_pos bridge]

theorem Builds.bridged : c.Bridged r id channel := by
  intro i l o hl hlr ho speaks
  rw [h.observers hl hlr, Plan.observersOf, Option.map_some, Option.toList_some, List.mem_append,
    List.mem_append] at ho
  rcases ho with ho | ho | ho
  · exact absurd (schemas _ (h.mem_members hl hlr) o ho) (Bool.eq_false_iff.not_left.mpr speaks)
  · exact absurd (observers o ho) (Bool.eq_false_iff.not_left.mpr speaks)
  · exact List.mem_singleton.mp ho

end Bridge

/-- An event tells of a member that came of a launch of a run. -/
def Concerns (c : Core) (r : Nat) (e : Event) (m : Nat) : Prop :=
  ∃ (e' : MemberEvent) (x : Member), e = .member e' ∧ c.members[m]? = some x ∧ c.runOf? m = some r ∧
    e'.member = x.id

/-- The record tells the story of the assembly that a run builds under an identifier. -/
structure Narrated (c : Core) (r : Nat) (id : Uuid) (run : Run) (beats : List Beat) : Prop where
  chronicled : c.Chronicled beats
  attributed : c.Attributed beats
  civil : ∀ b ∈ beats, b.Civil id
  channel : ∀ {number : Nat} {e : Event}, .announce number e ∈ beats → e.assemblyId = id →
    run.channel? = some number
  kinds : (beats.flatMap (Beat.events id)).filterMap Event.kind? = run.kinds c.assemblies
  ready : Before (run.Ready c.members) (beats.flatMap (Beat.events id))
  guarded : c.Guarded r

namespace Narrated

/-! ### Members -/

theorem voices (h : c.Narrated r id run beats) (reserved : c.Reserved r id) (hx : c.members[m]? = some x) :
    (beats.flatMap (Beat.events id)).filterMap (Event.of? x.id) =
      (beats.filterMap (Beat.note? m)).filterMap (Note.voice? id) :=
  Attributed.voices h.attributed h.civil (fun hy same => reserved.members hy hx same) hx

/-- One observer of each member speaks for the identifier. -/
theorem solo_of_member (solo : c.Solo r id) (sound : c.Sound) (hx : c.members[m]? = some x)
    (own : c.runOf? m = some r) : x.observers.countP (·.speaksFor id) = 1 := by
  obtain ⟨l, hl, -, observers, -⟩ := sound.born.member hx
  unfold runOf? at own
  rw [hx, Option.bind_some, hl, Option.bind_some] at own
  exact observers ▸ solo hl own

theorem member_isPrefix (h : c.Narrated r id run beats) (sound : c.Sound) (solo : c.Solo r id)
    (reserved : c.Reserved r id) (hx : c.members[m]? = some x) (own : c.runOf? m = some r) :
    (beats.flatMap (Beat.events id)).filterMap (Event.of? x.id) <+: [.realized, .closing, .closed] := by
  rw [h.voices reserved hx, ← Note.voices_script (solo_of_member solo sound hx own)]
  exact (h.chronicled.course hx).isPrefix.filterMap _

/-- When all was said of a member, it was announced that the member is closed. -/
theorem tells_closed (h : c.Narrated r id run beats) (sound : c.Sound) (solo : c.Solo r id)
    (reserved : c.Reserved r id) (hr : c.runs[r]? = some run) (hm : m ∈ run.members)
    (ended : ∀ {j : Nat} {k : Closing}, c.closings[j]? = some k → k.member = m → ∃ o, k.phase = .finished o)
    (called : ∃ j, Closes c.closings j m) :
    Members.Tells c.members (beats.flatMap (Beat.events id)) m .closed := by
  obtain ⟨x, hx⟩ := exists_getElem? (sound.lt_of_run hr hm)
  obtain ⟨j, k, hk, own⟩ := called
  refine ⟨x, hx, ?_⟩
  rw [h.voices reserved hx, h.chronicled.all_said sound hx hk own ended,
    Note.voices_script (solo_of_member solo sound hx (sound.runOf?_eq hr hm))]
  simp

/-- That a member runs was announced once it was returned. -/
theorem tells_realized (h : c.Narrated r id run beats) (sound : c.Sound) (solo : c.Solo r id)
    (reserved : c.Reserved r id) (hr : c.runs[r]? = some run) (hm : m ∈ run.members) :
    Members.Tells c.members (beats.flatMap (Beat.events id)) m .realized := by
  obtain ⟨i, l, x, failures, hl, -, hp, hx, -⟩ := sound.launch_of_member hr hm
  refine ⟨x, hx, ?_⟩
  have told := (h.chronicled.course hx).returned_isPrefix sound hx hl hp
  rw [h.voices reserved hx]
  refine (told.filterMap (Note.voice? id)).subset ?_
  rw [Note.voices_tells, solo_of_member solo sound hx (sound.runOf?_eq hr hm)]
  exact List.mem_singleton_self _

/-- All that is announced under the identifier goes to the channel of the run. -/
theorem on_channel (h : c.Narrated r id run beats) (sound : c.Sound) (reserved : c.Reserved r id)
    (bridged : c.Bridged r id channel) (there : run.channel? = some channel) {number : Nat} {e : Event}
    (he : .announced number e ∈ beats.flatMap Beat.entries) (about : e.assemblyId = id) : number = channel := by
  obtain ⟨b, hb, he⟩ := List.mem_flatMap.mp he
  cases b with
  | tell m o occasion state events =>
    obtain ⟨x, hx, voices⟩ := h.attributed hb
    obtain ⟨l, hl, -, observers, -⟩ := sound.born.member hx
    have ho : o ∈ l.observers := observers ▸ h.chronicled.observer hb hx
    have he : (number, e) ∈ events := by simpa [Beat.entries] using he
    have trail := voices.trail he
    have speaks : o.speaksFor id = true := by
      unfold Observer.speaksFor
      rw [trail]
      exact decide_eq_true about
    rw [bridged hl (reserved.observers hl ho speaks) ho speaks] at trail
    cases trail
    rfl
  | stop | ask => cases List.mem_singleton.mp he
  | announce number' e' =>
    cases List.mem_singleton.mp he
    exact Option.some.inj ((h.channel hb about).symm.trans there)

/-! ### Events that are due -/

/-- While a run asks its predicate nothing was announced of its members but that they run. -/
theorem realized_of_asking (h : c.Narrated r id run beats) (sound : c.Sound) (warranted : c.Warranted)
    (reserved : c.Reserved r id)
    (hr : c.runs[r]? = some run) (hp : run.phase = .asking) :
    ∀ e, Event.member e ∈ beats.flatMap (Beat.events id) → e.occasion = .realized := by
  intro e he
  obtain ⟨m, x, o, state, hx, own, -, note⟩ :=
    h.chronicled.spoken h.attributed h.civil sound reserved he
  -- nobody has begun to close the member
  obtain ⟨x', hx', fresh⟩ :=
    warranted.fresh sound hr (.inr (.inl hp)) (sound.mem_of_gathered hr (.asking hp) own)
  cases hx.symm.trans hx'
  have told := ((h.chronicled.course hx).untouched fresh.begun).subset note
  obtain ⟨o', -, same⟩ := List.mem_map.mp told
  exact (Note.told.inj same).2.1.symm

theorem closed_of_rollingBack (h : c.Narrated r id run beats) (sound : c.Sound) (warranted : c.Warranted)
    (solo : c.Solo r id) (reserved : c.Reserved r id) (hr : c.runs[r]? = some run) {cause : Run.Cause}
    {places : List Nat} {outcomes : List (Except CloseFailure (List ObserverFailure))}
    (hp : run.phase = .rollingBack cause places) (ho : c.outcomes? places = some outcomes) :
    ∀ m ∈ run.members, Members.Tells c.members (beats.flatMap (Beat.events id)) m .closed := by
  intro m hm
  refine h.tells_closed sound solo reserved hr hm (fun {j k} hk own => ?_) ?_
  · obtain ⟨k', o, hk', ended⟩ := (outcomes?_eq_some ho).2 j (warranted.own_call sound hr hp hk (own ▸ hm))
    cases hk.symm.trans hk'
    exact ⟨o, ended⟩
  · obtain ⟨j, -, called⟩ := sound.called.rolling hr hp hm
    exact ⟨j, called⟩

/-- When the members of an assembly are closed, this was announced. -/
theorem closed_of_closing (h : c.Narrated r id run beats) (sound : c.Sound) (delivered : c.Delivered)
    (alone : Alone c.assemblies c.dissolutions) (solo : c.Solo r id) (reserved : c.Reserved r id)
    (hr : c.runs[r]? = some run) {d : Nat} {y : Dissolution} {places : List Nat}
    {outcomes : List (Except CloseFailure (List ObserverFailure))} (hd : c.dissolutions[d]? = some y)
    (hp : run.phase = .finished (.ok y.assembly)) (hq : y.phase = .closing places)
    (ho : c.outcomes? places = some outcomes) :
    ∀ m ∈ run.members, Members.Tells c.members (beats.flatMap (Beat.events id)) m .closed := by
  intro m hm
  obtain ⟨a, ha, kept⟩ := delivered hr hp
  have here : m ∈ a.members := by rw [kept.members]; exact hm
  refine h.tells_closed sound solo reserved hr hm (fun {j k} hk own => ?_) ?_
  · -- all calls for the member are those of the one that closes the assembly
    have hjp : j ∈ places := by
      rcases h.guarded hr hp ha hk (own ▸ hm) with closed | ⟨d', y', places', hd', same, hq', hjp⟩
      · exact absurd closed (alone.begun hd hq ha).2
      · obtain rfl := alone.one hd hd' hq hq' same.symm
        cases hd.symm.trans hd'
        cases hq.symm.trans hq'
        exact hjp
    obtain ⟨k', o, hk', ended⟩ := (outcomes?_eq_some ho).2 j hjp
    cases hk.symm.trans hk'
    exact ⟨o, ended⟩
  · obtain ⟨j, -, called⟩ := forall₂_right (sound.dissolved.calls hd hq ha) here
    exact ⟨j, called⟩

/-- When an event is due, those before it were announced. -/
theorem ready_of_due (h : c.Narrated r id run beats) (sound : c.Sound) (warranted : c.Warranted)
    (delivered : c.Delivered) (alone : Alone c.assemblies c.dissolutions) (solo : c.Solo r id)
    (reserved : c.Reserved r id) (hr : c.runs[r]? = some run) {e : AssemblyEvent} (due : c.Due run e.kind) :
    run.Ready c.members (beats.flatMap (Beat.events id)) (.assembly e) := by
  have kind {kind : AssemblyEvent.Kind} (hk : Event.kind? (.assembly e) = some kind) : e.kind = kind :=
    Option.some.inj hk
  generalize e.kind = own at due kind
  cases due with
  | empty | stable =>
    refine ⟨fun _ m hm => h.tells_realized sound solo reserved hr hm, fun hk => ?_, fun hk => ?_⟩
    · cases kind hk
    · rcases hk with hk | hk <;> cases kind hk
  | degraded hp =>
    refine ⟨fun hk => ?_, fun _ => h.realized_of_asking sound warranted reserved hr hp, fun hk => ?_⟩
    · cases kind hk
    · rcases hk with hk | hk <;> cases kind hk
  | failed hp ho =>
    refine ⟨fun hk => ?_, fun hk => ?_, fun _ => h.closed_of_rollingBack sound warranted solo reserved hr hp ho⟩
    · cases kind hk
    · cases kind hk
  | closed hd hp hq ho =>
    refine ⟨fun hk => ?_, fun hk => ?_,
      fun _ => h.closed_of_closing sound delivered alone solo reserved hr hd hp hq ho⟩
    · cases kind hk
    · cases kind hk

/-- After it was announced that the assembly failed, only members are announced that the run never had. -/
theorem late (h : c.Narrated r id run beats) (sound : c.Sound) (solo : c.Solo r id) (reserved : c.Reserved r id)
    {pre post : List Event} {e : AssemblyEvent}
    (split : beats.flatMap (Beat.events id) = pre ++ .assembly e :: post) (failed : e.kind = .failed) :
    ∀ e' ∈ post, ∃ m, c.Concerns r e' m ∧ m ∉ run.members := by
  have kinds := h.kinds
  have kind : Event.kind? (.assembly e) = some .failed := congrArg some failed
  rw [split, List.filterMap_append, List.filterMap_cons_some kind] at kinds
  obtain ⟨o, hp⟩ := Run.mem_kinds.mp (kinds ▸ List.mem_append_right _ List.mem_cons_self)
  rw [Run.kinds_of_failed hp, List.append_cons] at kinds
  have nothing : post.filterMap Event.kind? = [] := by
    refine eq_nil_of_last (.building :: o.kinds) ⟨[], (List.append_nil _).trans kinds⟩ ?_ ?_
    · rcases o.kinds_cases with none | one <;> simp [*]
    · exact List.mem_append_right _ (List.mem_singleton_self _)
  intro e' he'
  cases e' with
  | assembly e'' =>
    have more : e''.kind ∈ post.filterMap Event.kind? := List.mem_filterMap.mpr ⟨_, he', rfl⟩
    exact absurd (nothing ▸ more) List.not_mem_nil
  | member e'' =>
    have told : Event.member e'' ∈ beats.flatMap (Beat.events id) := by
      rw [split]
      exact List.mem_append_right pre (List.mem_cons_of_mem _ he')
    obtain ⟨m, x, o, state, hx, own, same, -⟩ := h.chronicled.spoken h.attributed h.civil sound reserved told
    refine ⟨m, ⟨e'', x, rfl, hx, own, same⟩, fun hm => ?_⟩
    -- all was announced of a member that the run had
    obtain ⟨x', hx', closed⟩ := (h.ready split).ended (.inl kind) m hm
    cases hx.symm.trans hx'
    have order := h.member_isPrefix sound solo reserved hx own
    rw [split, List.filterMap_append, List.filterMap_cons_none rfl] at order
    have nothing := eq_nil_of_last [.realized, .closing] order (by decide) closed
    have more : e''.occasion ∈ post.filterMap (Event.of? x.id) := List.mem_filterMap.mpr ⟨_, he', if_pos same⟩
    exact absurd (nothing ▸ more) List.not_mem_nil

/-! ### Deeds -/

/-- The story of an assembly begins with its run, unless something was announced under the identifier. -/
theorem begin (sound : c.Sound) (chronicled : c.Chronicled beats) (attributed : c.Attributed beats)
    (silent : beats.flatMap (Beat.events id) = []) (plan : Plan) (platform channel now : Nat) (cancelled : Bool)
    (time : Timestamp) : (c.begin plan platform (some channel) id now cancelled).Narrated c.runs.size id
      (plan.run id (some channel) now cancelled (List.range' c.launches.size plan.members.length))
      (beats ++ [.announce channel (.assembly (.building id plan.members.length time))]) := by
  have deed : c.Deed ⟨fun _ => false, fun _ => False, fun _ => False⟩ _ _ :=
    .begin plan platform (some channel) id now cancelled time
  have first : [Beat.announce channel (.assembly (.building id plan.members.length time))].flatMap
      (Beat.events id) = [.assembly (.building id plan.members.length time)] :=
    Beat.events_announces (e := .building id plan.members.length time) rfl rfl
  have silent' := List.flatMap_eq_nil_iff.mp silent
  refine ⟨chronicled.deed sound (fun _ => False.elim) deed, Attributed.deed attributed deed, fun b hb => ?_,
    fun {number e} he about => ?_, ?_, ?_, ?_⟩
  · rcases List.mem_append.mp hb with hb | hb
    · exact Beat.civil_of_silent (silent' b hb)
    · exact Beat.civil_announces id (some channel) _ b hb
  · rcases List.mem_append.mp he with he | he
    · have unsaid := silent' _ he
      simp [Beat.events, Beat.entries, Occurrence.under?, about] at unsaid
    · cases List.mem_singleton.mp he
      rfl
  · rw [List.flatMap_append, silent, first]
    rfl
  · rw [List.flatMap_append, silent, first]
    refine Before.nil.snoc ⟨fun hk => ?_, fun hk => ?_, fun hk => ?_⟩
    · cases hk
    · cases hk
    · rcases hk with hk | hk <;> cases hk
  · intro a j run x k hr hp
    cases Array.getElem?_push_size.symm.trans hr
    cases hp

theorem ready_kept (h : c.Narrated r id run beats) (keeps : c.Keeps c') (hr : c.runs[r]? = some run)
    (hr' : c'.runs[r]? = some run') :
    Before (run'.Ready c'.members) (beats.flatMap (Beat.events id)) := by
  by_cases finished : ∃ o, run.phase = .finished o
  · obtain ⟨o, hp⟩ := finished
    obtain ⟨run₁, hr₁, kept⟩ := keeps.runs hr
    cases hr'.symm.trans hr₁
    exact h.ready.imp fun pre e _ ready => keeps.ready (kept.members hp) ready
  · -- a run that has not ended has announced nothing for which its members matter
    have unfinished : ∀ o, run.phase ≠ .finished o := fun o hp => finished ⟨o, hp⟩
    refine h.ready.imp fun pre e he ready => ?_
    have early {kind : AssemblyEvent.Kind} (hk : e.kind? = some kind) : kind = .building ∨ kind = .degraded :=
      Run.kinds_of_unfinished unfinished (h.kinds ▸ List.mem_filterMap.mpr ⟨e, he, hk⟩)
    refine ⟨fun hk => ?_, ready.degraded, fun hk => ?_⟩
    · rcases early hk with h | h <;> cases h
    · rcases hk with hk | hk <;> rcases early hk with h | h <;> cases h

/-- **Stories.** Every deed goes on with the story, unless somebody else closes a member of the run or
announces an event under the identifier. -/
theorem deed (h : c.Narrated r id run beats) (sound : c.Sound) (warranted : c.Warranted) (delivered : c.Delivered)
    (alone : Alone c.assemblies c.dissolutions) (solo : c.Solo r id) (deed : c.Deed s new c')
    (reserved : c'.Reserved r id) (hr : c.runs[r]? = some run) (hr' : c'.runs[r]? = some run')
    (own : run.id = id) (there : run.channel? = some channel)
    (held : ∀ m, s.closes m → c.Held m) (closes : ∀ m, s.closes m → c.runOf? m ≠ some r)
    (announces : ∀ e, s.announces e → e.assemblyId ≠ id) :
    c'.Narrated r id run' (beats ++ new) := by
  have keeps := deed.move.keeps
  have publishes := deed.publishes sound delivered alone reserved hr hr' own there announces
  have old := h.ready_kept keeps hr hr'
  have lasts := deed.move.run_lasts hr hr'
  refine ⟨h.chronicled.deed sound held deed, Attributed.deed h.attributed deed, fun b hb => ?_,
    fun {number e} he about => ?_, ?_, ?_, Guarded.deed h.guarded sound warranted delivered deed closes⟩
  · rcases List.mem_append.mp hb with hb | hb
    · exact h.civil b hb
    · exact deed.civil announces b hb
  · rw [lasts.channel]
    rcases List.mem_append.mp he with he | he
    · exact h.channel he about
    · rw [there, deed.announce_channel sound delivered reserved hr there announces he about]
  · rw [List.flatMap_append, List.filterMap_append, h.kinds]
    generalize new.flatMap (Beat.events id) = events at publishes
    cases publishes with
    | aside members same => rw [List.filterMap_eq_nil_iff.mpr members, List.append_nil, same]
    | assembly _ _ more => exact more.symm
  · rw [List.flatMap_append]
    generalize new.flatMap (Beat.events id) = events at publishes
    cases publishes with
    | aside members => exact old.append fun e he pre => .of_member (members e he) run' c'.members pre
    | assembly due members =>
      refine old.snoc (keeps.ready members ?_)
      exact h.ready_of_due sound warranted delivered alone solo (reserved.before deed.move) hr due

end Narrated

end Core

end Muster
