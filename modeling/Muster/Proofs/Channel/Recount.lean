import Mathlib.Data.List.Basic
import Mathlib.Data.List.Flatten
import Muster.Channel.Basic

/-!
# What a receiver is told

* `Receiver.turn`: one turn of a receiver, which passes over an event of another assembly.
* `Receiver.Listening`: events are announced and a receiver makes turns, in any order.
* `Receiver.receive_cases`: a whole call is a turn, or a turn and a call; so it is some turns
  (`Receiver.Listening.receive`).
* `Receiver.Stretch`: what became of some events that were announced one after another: one was handed out, or one was
  passed over, or some were lost.
* `Receiver.Recounts`: stretches that account for what was announced, from the first event on, and for what was told.
* **`Receiver.Listening.filters`**: there always are such stretches; what was handed out are events of the assembly in
  their order, and all of them up to where the receiver stands if none were lost.
-/

namespace Muster

namespace Receiver

/-- One turn of a receiver: the next event, unless it is passed over, or why there is none. -/
def turn (r : Receiver) (c : Channel) (isOpen : Bool) : List (Except ChannelError Event) × Receiver :=
  match r.step c isOpen with
  | (.ok e, r) => (if r.accepts e then [.ok e] else [], r)
  | (.error x, r) => ([.error x], r)

/-- Events are announced on a channel, and a receiver that stood at `r₀` makes turns, in any order. A receiver that
waits is told that the channel is empty, and may go on later. -/
inductive Listening (c₀ : Channel) (r₀ : Receiver) :
    List Event → List (Except ChannelError Event) → Channel → Receiver → Prop where
  /-- Nothing happened yet. -/
  | start : Listening c₀ r₀ [] [] c₀ r₀
  /-- An event is announced, of whichever assembly. -/
  | publish {announced : List Event} {told : List (Except ChannelError Event)} {c : Channel} {r : Receiver}
    (before : Listening c₀ r₀ announced told c r) (e : Event) :
    Listening c₀ r₀ (announced ++ [e]) told (c.publish e) r
  /-- The receiver makes a turn. -/
  | turn {announced : List Event} {told : List (Except ChannelError Event)} {c : Channel} {r : Receiver}
    (before : Listening c₀ r₀ announced told c r) (isOpen : Bool) :
    Listening c₀ r₀ announced (told ++ (r.turn c isOpen).1) c (r.turn c isOpen).2

/-! ## Whole calls -/

variable {c₀ c : Channel} {r₀ r : Receiver} {announced : List Event} {told : List (Except ChannelError Event)}

/-- What a step can come to: the receiver fell behind, or there is an event, or it stands at the end. -/
theorem step_cases (r : Receiver) (c : Channel) (isOpen : Bool) :
    (r.next < c.head ∧ r.step c isOpen = (.error (.lagged (c.head - r.next)), { r with next := c.head })) ∨
    (∃ e, c.log[r.next]? = some e ∧ r.step c isOpen = (.ok e, { r with next := r.next + 1 })) ∨
    (c.tail ≤ r.next ∧ r.step c isOpen = (.error (if isOpen then .empty else .closed), r)) := by
  unfold step
  by_cases behind : r.next < c.head
  · exact .inl ⟨behind, if_pos behind⟩
  · rw [if_neg behind]
    cases found : c.log[r.next]? with
    | some e => exact .inr (.inl ⟨e, rfl, rfl⟩)
    | none => exact .inr (.inr ⟨Array.getElem?_eq_none_iff.mp found, rfl⟩)

/-- An event that is received stands before the end of the channel. -/
theorem step_of_ok {isOpen : Bool} {e : Event} {r' : Receiver} (taken : r.step c isOpen = (.ok e, r')) :
    r.next < c.tail ∧ r' = { r with next := r.next + 1 } := by
  obtain ⟨-, step⟩ | ⟨_, found, step⟩ | ⟨-, step⟩ := step_cases r c isOpen
  · cases step.symm.trans taken
  · cases step.symm.trans taken
    exact ⟨(Array.getElem?_eq_some_iff.mp found).1, rfl⟩
  · cases step.symm.trans taken

/-- A receiver that learns that there is nothing stands at the end of the channel. -/
theorem tail_le_of_error {isOpen : Bool} {x : ChannelError} (told : (r.step c isOpen).1 = .error x)
    (noLag : ∀ n, x ≠ .lagged n) : c.tail ≤ r.next := by
  obtain ⟨-, step⟩ | ⟨_, -, step⟩ | ⟨atEnd, -⟩ := step_cases r c isOpen
  · rw [step] at told
    cases told
    exact absurd rfl (noLag _)
  · rw [step] at told
    cases told
  · exact atEnd

theorem turn_of_error {isOpen : Bool} {x : ChannelError} {r' : Receiver} (taken : r.step c isOpen = (.error x, r')) :
    r.turn c isOpen = ([.error x], r') := by
  rw [turn, taken]

theorem turn_of_ok {isOpen : Bool} {e : Event} {r' : Receiver} (taken : r.step c isOpen = (.ok e, r')) :
    r.turn c isOpen = (if r'.accepts e then [.ok e] else [], r') := by
  rw [turn, taken]

/-- A call is a turn that gives its answer, or a turn that passes over an event, and then a call from there on. -/
theorem receive_cases (r : Receiver) (c : Channel) (isOpen : Bool) :
    r.turn c isOpen = ([(r.receive c isOpen).1], (r.receive c isOpen).2) ∨
    ∃ r', r.turn c isOpen = ([], r') ∧ c.tail - r'.next < c.tail - r.next ∧
      r.receive c isOpen = r'.receive c isOpen := by
  unfold Receiver.receive
  rcases taken : r.step c isOpen with ⟨x | e, r'⟩
  · rw [turn_of_error taken]
    cases c.tail - r.next <;> rw [receive.go, taken] <;> exact .inl rfl
  · obtain ⟨ahead, rfl⟩ := step_of_ok taken
    obtain ⟨n, left⟩ : ∃ n, c.tail - r.next = n + 1 := Nat.exists_eq_succ_of_ne_zero (by omega)
    rw [turn_of_ok taken, left, receive.go, taken]
    dsimp only
    split
    · exact .inl rfl
    · refine .inr ⟨_, rfl, by dsimp only; omega, ?_⟩
      rw [show c.tail - (r.next + 1) = n by omega]

/-- A call is some turns of the receiver. -/
theorem Listening.receive (h : Listening c₀ r₀ announced told c r) (isOpen : Bool) :
    Listening c₀ r₀ announced (told ++ [(r.receive c isOpen).1]) c (r.receive c isOpen).2 := by
  -- the induction is on how many events are ahead
  induction left : c.tail - r.next using Nat.strongRecOn generalizing r told with
  | _ n ih =>
    have next := h.turn isOpen
    obtain turned | ⟨r', turned, less, rest⟩ := r.receive_cases c isOpen
    · rw [turned] at next
      exact next
    · rw [turned, List.append_nil] at next
      rw [rest]
      exact ih _ (left ▸ less) next rfl

/-! ## What becomes of events -/

/-- What became of some events that were announced one after another. -/
inductive Stretch where
  /-- The event was handed out. -/
  | heard (e : Event)
  /-- The event was passed over. -/
  | passed (e : Event)
  /-- The events were lost. -/
  | lost (es : List Event)
  /-- There was none. -/
  | quiet (x : ChannelError)

namespace Stretch

/-- The events, in order. -/
def events : Stretch → List Event
  | heard e | passed e => [e]
  | lost es => es
  | quiet _ => []

/-- What the receiver was told of them. -/
def news : Stretch → List (Except ChannelError Event)
  | heard e => [.ok e]
  | passed _ => []
  | lost es => [.error (.lagged es.length)]
  | quiet x => [.error x]

/-- What a receiver of an assembly makes of events: it hands out those of the assembly, passes over the others, and
tells of a lag only when something was lost. -/
def Fits (a : Uuid) : Stretch → Prop
  | heard e => e.assemblyId = a
  | passed e => e.assemblyId ≠ a
  | lost es => es ≠ []
  | quiet x => ∀ n, x ≠ .lagged n

/-- What is handed out are events of the assembly. -/
theorem sublist_of_fits {a : Uuid} {s : Stretch} (fits : s.Fits a) :
    (s.news.filterMap Except.toOption).Sublist (s.events.filter (·.assemblyId = a)) := by
  cases s with
  | heard e => simp [news, events, Except.toOption, show e.assemblyId = a from fits]
  | passed e => exact List.nil_sublist _
  | lost es => exact List.nil_sublist _
  | quiet x => exact List.nil_sublist _

/-- Unless there is a lag, all events of the assembly are handed out. -/
theorem filter_of_fits {a : Uuid} {s : Stretch} (fits : s.Fits a) (noLag : ∀ n, .error (.lagged n) ∉ s.news) :
    s.news.filterMap Except.toOption = s.events.filter (·.assemblyId = a) := by
  cases s with
  | heard e => simp [news, events, Except.toOption, show e.assemblyId = a from fits]
  | passed e => simp [news, events, show e.assemblyId ≠ a from fits]
  | lost es => exact absurd (List.mem_singleton_self _) (noLag es.length)
  | quiet x => simp [news, events, Except.toOption]

end Stretch

/-- What a receiver that fell behind has lost are as many events as it stands behind the oldest that is kept. -/
theorem length_take_drop (behind : r.next < c.head) :
    ((c.log.toList.drop r.next).take (c.head - r.next)).length = c.head - r.next := by
  have size : c.log.toList.length = c.tail := Array.length_toList
  have bound : c.head ≤ c.tail := Nat.sub_le _ _
  rw [List.length_take, List.length_drop, size]
  omega

/-- One turn tells of one stretch of what comes next. Only what is no longer kept is lost. -/
theorem turn_stretch {a : Uuid} (r : Receiver) (c : Channel) (isOpen : Bool) (listens : r.assembly? = some a) :
    ∃ s : Stretch, s.Fits a ∧ s.events <+: c.log.toList.drop r.next ∧
      r.turn c isOpen = (s.news, { r with next := r.next + s.events.length }) ∧
      ∀ es, s = .lost es → r.next + es.length + c.capacity = c.tail := by
  obtain ⟨behind, taken⟩ | ⟨e, found, taken⟩ | ⟨-, taken⟩ := step_cases r c isOpen
  · have count := length_take_drop behind
    refine ⟨.lost ((c.log.toList.drop r.next).take (c.head - r.next)), ?_, List.take_prefix _ _, ?_, ?_⟩
    · refine List.ne_nil_of_length_pos ?_
      omega
    · rw [turn_of_error taken, Stretch.news, Stretch.events, count, Nat.add_sub_cancel' (Nat.le_of_lt behind)]
    · rintro es ⟨⟩
      rw [count]
      unfold Channel.head at behind ⊢
      omega
  · have ahead : [e] <+: c.log.toList.drop r.next := by
      obtain ⟨bound, rfl⟩ := Array.getElem?_eq_some_iff.mp found
      rw [← Array.getElem_toList, List.drop_eq_getElem_cons bound]
      exact ⟨_, rfl⟩
    have turned := turn_of_ok taken
    by_cases own : e.assemblyId = a
    · refine ⟨.heard e, own, ahead, ?_, nofun⟩
      rw [turned, if_pos (by simp [accepts, listens, own])]
      rfl
    · refine ⟨.passed e, own, ahead, ?_, nofun⟩
      rw [turned, if_neg (by simp [accepts, listens, own])]
      rfl
  · refine ⟨.quiet (if isOpen then .empty else .closed), ?_, List.nil_prefix, turn_of_error taken, nofun⟩
    intro n
    split <;> nofun

/-! ## The whole account -/

/-- Stretches that account for what was announced, from the first event on, and for all a receiver of an assembly was
told. -/
structure Recounts (a : Uuid) (capacity : Nat) (announced : List Event) (told : List (Except ChannelError Event))
    (ledger : List Stretch) : Prop where
  /-- They are the events as they were announced, each once and none left out. -/
  inOrder : ledger.flatMap Stretch.events <+: announced
  /-- They tell all the receiver was told. -/
  tells : told = ledger.flatMap Stretch.news
  /-- Events of the assembly were handed out or lost, all others were passed over or lost. -/
  fits : ∀ s ∈ ledger, s.Fits a
  /-- After events that were lost, at least as many were announced as the channel keeps. -/
  gone : ∀ front es back, ledger = front ++ .lost es :: back →
    (front.flatMap Stretch.events).length + es.length + capacity ≤ announced.length

namespace Recounts

variable {a : Uuid} {capacity : Nat} {ledger : List Stretch}

/-- Something else is announced. -/
theorem publish (h : Recounts a capacity announced told ledger) (e : Event) :
    Recounts a capacity (announced ++ [e]) told ledger where
  inOrder := h.inOrder.trans (List.prefix_append _ _)
  tells := h.tells
  fits := h.fits
  gone front es back split := by
    have bound := h.gone front es back split
    rw [List.length_append]
    omega

/-- The receiver is told of one more stretch. -/
theorem snoc (h : Recounts a capacity announced told ledger) {s : Stretch} (fits : s.Fits a)
    (ahead : s.events <+: announced.drop (ledger.flatMap Stretch.events).length)
    (gone : ∀ es, s = .lost es → (ledger.flatMap Stretch.events).length + es.length + capacity ≤ announced.length) :
    Recounts a capacity announced (told ++ s.news) (ledger ++ [s]) where
  inOrder := by
    obtain ⟨rest, whole⟩ := h.inOrder
    rw [← whole, List.drop_left] at ahead
    rw [← whole, List.flatMap_append, List.flatMap_singleton, List.prefix_append_right_inj]
    exact ahead
  tells := by rw [List.flatMap_append, List.flatMap_singleton, ← h.tells]
  fits t member := by
    rcases List.mem_append.mp member with old | new
    · exact h.fits t old
    · rw [List.mem_singleton.mp new]
      exact fits
  gone front es back split := by
    rcases List.eq_nil_or_concat back with rfl | ⟨back, t, rfl⟩
    · obtain ⟨rfl, same⟩ := List.append_inj' split rfl
      exact gone es (List.singleton_inj.mp same)
    · rw [List.concat_eq_append, ← List.cons_append, ← List.append_assoc] at split
      exact h.gone front es back (List.append_inj' split rfl).1

/-- What was handed out are events of the assembly, in order. -/
theorem sublist (h : Recounts a capacity announced told ledger) :
    (told.filterMap Except.toOption).Sublist (announced.filter (·.assemblyId = a)) := by
  have parts : (told.filterMap Except.toOption).Sublist
      ((ledger.flatMap Stretch.events).filter (·.assemblyId = a)) := by
    rw [h.tells, List.filterMap_flatMap, List.filter_flatMap]
    exact List.Sublist.flatMap_right _ fun s member => Stretch.sublist_of_fits (h.fits s member)
  exact parts.trans (h.inOrder.sublist.filter _)

/-- When there was no lag, they are all events of the assembly that were recounted. -/
theorem filter_eq (h : Recounts a capacity announced told ledger) (noLag : ∀ n, .error (.lagged n) ∉ told) :
    told.filterMap Except.toOption = (ledger.flatMap Stretch.events).filter (·.assemblyId = a) := by
  have tells := h.tells
  subst tells
  rw [List.filterMap_flatMap, List.filter_flatMap]
  refine List.flatMap_congr fun s member => Stretch.filter_of_fits (h.fits s member) fun n lag => ?_
  exact noLag n (List.mem_flatMap.mpr ⟨s, member, lag⟩)

end Recounts

/-- Where a channel and a receiver stand that listens since the channel was `c₀`. -/
structure Stands (c₀ : Channel) (a : Uuid) (announced : List Event) (ledger : List Stretch) (c : Channel)
    (r : Receiver) : Prop where
  /-- The channel knows what was announced. -/
  log : c.log.toList = c₀.log.toList ++ announced
  /-- It keeps as many events as before. -/
  capacity : c.capacity = c₀.capacity
  /-- The receiver listens to the assembly. -/
  listens : r.assembly? = some a
  /-- It stands behind all that was recounted. -/
  next : r.next = c₀.log.toList.length + (ledger.flatMap Stretch.events).length

namespace Stands

variable {a : Uuid} {ledger : List Stretch}

/-- Something else is announced. -/
theorem publish (h : Stands c₀ a announced ledger c r) (e : Event) :
    Stands c₀ a (announced ++ [e]) ledger (c.publish e) r where
  log := by rw [Channel.publish, Array.toList_push, h.log, List.append_assoc]
  capacity := h.capacity
  listens := h.listens
  next := h.next

/-- What comes next was announced since, and was not recounted. -/
theorem drop_next (h : Stands c₀ a announced ledger c r) :
    c.log.toList.drop r.next = announced.drop (ledger.flatMap Stretch.events).length := by
  rw [h.log, h.next, List.drop_length_add_append]

/-- The end of the channel comes after all that was announced. -/
theorem tail (h : Stands c₀ a announced ledger c r) : c.tail = c₀.log.toList.length + announced.length := by
  rw [Channel.tail, ← Array.length_toList, h.log, List.length_append]

/-- The receiver makes a turn. -/
theorem turn (h : Stands c₀ a announced ledger c r) (recounts : Recounts a c₀.capacity announced told ledger)
    (isOpen : Bool) : ∃ s : Stretch, (r.turn c isOpen).1 = s.news ∧
      Recounts a c₀.capacity announced (told ++ s.news) (ledger ++ [s]) ∧
      Stands c₀ a announced (ledger ++ [s]) c (r.turn c isOpen).2 := by
  obtain ⟨s, fits, ahead, turned, gone⟩ := turn_stretch r c isOpen h.listens
  rw [turned]
  refine ⟨s, rfl, recounts.snoc fits (h.drop_next ▸ ahead) fun es lost => ?_,
    ⟨h.log, h.capacity, h.listens, ?_⟩⟩
  · have place := gone es lost
    rw [h.tail, h.next, h.capacity] at place
    omega
  · rw [List.flatMap_append, List.flatMap_singleton, List.length_append, ← Nat.add_assoc, ← h.next]

/-- The receiver makes a call. It passes over some events and then answers. -/
theorem receive (h : Stands c₀ a announced ledger c r) (recounts : Recounts a c₀.capacity announced told ledger)
    (isOpen : Bool) : ∃ (skipped : List Event) (s : Stretch), s.news = [(r.receive c isOpen).1] ∧
      Recounts a c₀.capacity announced (told ++ s.news) (ledger ++ skipped.map .passed ++ [s]) := by
  induction left : c.tail - r.next using Nat.strongRecOn generalizing r ledger with
  | _ n ih =>
    obtain ⟨s, news, recounts', stands⟩ := h.turn recounts isOpen
    obtain turned | ⟨r', turned, less, rest⟩ := r.receive_cases c isOpen
    · rw [turned] at news
      exact ⟨[], s, news.symm, by rwa [List.map_nil, List.append_nil]⟩
    · rw [turned] at news stands
      cases s with
      | passed e =>
        rw [Stretch.news, List.append_nil] at recounts'
        obtain ⟨skipped, s, answer, whole⟩ := ih _ (left ▸ less) stands recounts' rfl
        exact ⟨e :: skipped, s, rest ▸ answer, by rwa [List.map_cons, List.append_cons ledger]⟩
      | heard | lost | quiet => cases news

end Stands

/-- Whatever happened, there is a ledger of it. -/
theorem Listening.stands {k : Nat} {a : Uuid} (h : Listening c₀ (c₀.subscribe k (some a)) announced told c r) :
    ∃ ledger, Recounts a c₀.capacity announced told ledger ∧ Stands c₀ a announced ledger c r := by
  induction h with
  | start =>
    refine ⟨[], ⟨List.nil_prefix, rfl, nofun, ?_⟩, ⟨(List.append_nil _).symm, rfl, rfl, rfl⟩⟩
    intro front es back split
    cases front <;> cases split
  | publish before e ih =>
    obtain ⟨ledger, recounts, stands⟩ := ih
    exact ⟨ledger, recounts.publish e, stands.publish e⟩
  | turn before isOpen ih =>
    obtain ⟨ledger, recounts, stands⟩ := ih
    obtain ⟨s, news, recounts, stands⟩ := stands.turn recounts isOpen
    exact ⟨_, news ▸ recounts, stands⟩

/-- **A receiver of an assembly is a filter.** Whatever is announced and however turns of the receiver come in between,
there is a ledger that goes through the events as they were announced since it listens, each once, and through all the
receiver was told: of each event of the assembly that it was handed out, or that it was lost in the stretch that a lag
of just that length tells of; of each other event that it was passed over, or lost. What was lost the channel had no
longer to keep. So what was handed out are events of the assembly in the order in which they were announced, without a
lag none is missing before the last of them, and a receiver that is told that there is nothing has accounted for all.
A whole call goes on with the ledger: it passes over some events, and then gives its answer. -/
theorem Listening.filters {k : Nat} {a : Uuid} (h : Listening c₀ (c₀.subscribe k (some a)) announced told c r) :
    ∃ ledger, Recounts a c₀.capacity announced told ledger ∧
      (told.filterMap Except.toOption).Sublist (announced.filter (·.assemblyId = a)) ∧
      ((∀ n, .error (.lagged n) ∉ told) →
        told.filterMap Except.toOption <+: announced.filter (·.assemblyId = a)) ∧
      (∀ isOpen x, (r.step c isOpen).1 = .error x → (∀ n, x ≠ .lagged n) →
        ledger.flatMap Stretch.events = announced) ∧
      ∀ isOpen, ∃ (skipped : List Event) (s : Stretch), s.news = [(r.receive c isOpen).1] ∧
        Recounts a c₀.capacity announced (told ++ [(r.receive c isOpen).1])
          (ledger ++ skipped.map .passed ++ [s]) := by
  obtain ⟨ledger, recounts, stands⟩ := h.stands
  refine ⟨ledger, recounts, recounts.sublist, fun noLag => ?_, fun isOpen x told noLag => ?_, fun isOpen => ?_⟩
  · rw [recounts.filter_eq noLag]
    exact recounts.inOrder.filter _
  · have atEnd := tail_le_of_error told noLag
    rw [stands.tail, stands.next] at atEnd
    exact recounts.inOrder.eq_of_length_le (by omega)
  · obtain ⟨skipped, s, news, whole⟩ := stands.receive recounts isOpen
    exact ⟨skipped, s, news, news ▸ whole⟩

theorem Listening.next (before : Listening c₀ r₀ announced told c r) (isOpen : Bool)
    (answer : Except ChannelError Event) (r' : Receiver) (given : r.receive c isOpen = (answer, r')) :
    Listening c₀ r₀ announced (told ++ [answer]) c r' := by
  have after := before.receive isOpen
  rwa [given] at after

/-- Of five events an own one is handed out, the next is lost, a foreign one is passed over while another is announced,
and the last two are handed out. -/
theorem filters_overtaken :
    let own : Nat → Event := fun n => .assembly (.closed (.ofNat 1) ⟨n, 0⟩)
    let foreign : Event := .member (.closed (.ofNat 2) (.ofNat 3) "web-1" ⟨3, 0⟩)
    let c₀ : Channel := ⟨2, #[own 0]⟩
    let announced := [own 1, own 2, foreign, own 4, own 5]
    let told := [.ok (own 1), .error (.lagged 1), .ok (own 4), .ok (own 5), .error .empty]
    ([own 1] <+: [own 1].filter (·.assemblyId = .ofNat 1)) ∧
    ∃ c r, Listening c₀ (c₀.subscribe 0 (some (.ofNat 1))) announced told c r ∧
      ∃ ledger, Recounts (.ofNat 1) 2 announced told ledger ∧ ledger.flatMap Stretch.events = announced := by
  intro own foreign c₀ announced told
  have subscribed : Listening c₀ (c₀.subscribe 0 (some (.ofNat 1))) [] [] c₀ _ := .start
  have first := (subscribed.publish (own 1)).next true (.ok (own 1)) ⟨0, 2, some (.ofNat 1)⟩ rfl
  obtain ⟨_, -, -, whole, -⟩ := first.filters
  have overtaken := ((first.publish (own 2)).publish foreign).publish (own 4)
  have lag := overtaken.next true (.error (.lagged 1)) ⟨0, 3, some (.ofNat 1)⟩ rfl
  have midway := (lag.turn true).publish (own 5)
  have fourth := midway.next true (.ok (own 4)) ⟨0, 5, some (.ofNat 1)⟩ rfl
  have fifth := fourth.next true (.ok (own 5)) ⟨0, 6, some (.ofNat 1)⟩ rfl
  have last := fifth.next true (.error .empty) ⟨0, 6, some (.ofNat 1)⟩ rfl
  obtain ⟨ledger, recounts, -, -, all, -⟩ := last.filters
  exact ⟨whole (by simp), _, _, last, ledger, recounts, all true .empty rfl nofun⟩

end Receiver

end Muster
