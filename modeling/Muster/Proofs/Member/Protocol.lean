import Muster.Proofs.Member.Course
import Muster.Proofs.World.Paths

/-!
# The protocol of a member's life

* `Member.script`: who is told of what in the life of a member, and when its process is stopped.
* `World.chronicle`: what has happened of this up to now.
* `Core.Works`: the one call that closes a member; it remains the one (`Core.Works.move`).
* `World.Protocol`: what holds of the chronicle of a member at every time.
* **`World.Reachable.protocol`**: the life of every member keeps to the protocol, however many calls close
  it, whatever observers report, and whether or not its process can be stopped.
-/

namespace Muster

/-! ### Chronicles -/

/-- Whether something that has happened is about a member: an observer was told of its life, or its process
was to be stopped. -/
def Occurrence.concerns (m : Nat) : Occurrence → Bool
  | told _ _ m' _ => m' == m
  | stopped m' => m' == m
  | _ => false

namespace Member

/-- Each observer of a member is told of an occasion, in order. -/
def round (x : Member) (m : Nat) (occasion : Occasion) : List Occurrence :=
  x.observers.map fun o => .told o.id occasion m occasion.state

/-- The life of a member: each observer is told that there is a process, then each that it will be stopped;
it is stopped; and each is told so. -/
def script (x : Member) (m : Nat) : List Occurrence :=
  x.round m .realized ++ (x.round m .closing ++ .stopped m :: x.round m .closed)

theorem map_entry_tells (x : Member) (m : Nat) (occasion : Occasion) :
    (Note.tells occasion x.observers).map (Note.entry m) = x.round m occasion := by
  unfold Note.tells round
  rw [List.map_map]
  rfl

theorem map_entry_script (x : Member) (m : Nat) :
    (Note.script x.observers).map (Note.entry m) = x.script m := by
  unfold Note.script Note.parting script
  rw [List.map_append, List.map_append, List.map_cons, map_entry_tells, map_entry_tells, map_entry_tells]
  rfl

end Member

theorem Beat.filter_entries (b : Beat) (m : Nat) :
    b.entries.filter (Occurrence.concerns m) = (b.note? m).toList.map (Note.entry m) := by
  have others (events : List (Nat × Event)) : (events.map fun e => Occurrence.announced e.1 e.2).filter
      (Occurrence.concerns m) = [] := by
    rw [List.filter_eq_nil_iff]
    intro e he
    obtain ⟨a, -, rfl⟩ := List.mem_map.mp he
    exact Bool.false_ne_true
  cases b with
  | tell m' o occasion state events =>
    unfold entries note?
    rw [List.filter_cons, others]
    by_cases own : m' = m <;> simp [Occurrence.concerns, Note.entry, own]
  | stop m' =>
    unfold entries note?
    by_cases own : m' = m <;> simp [Occurrence.concerns, Note.entry, own]
  | ask | announce => rfl

namespace World

/-- What has happened of the life of a member: who was told of what in which state of the member, and when a
platform was asked to stop its process. -/
def chronicle (w : World) (m : Nat) : List Occurrence := (w.since 0).filter (Occurrence.concerns m)

variable {w : World}

theorem chronicle_eq (w : World) (m : Nat) : w.chronicle m = w.record.filter (Occurrence.concerns m) := by
  unfold chronicle record
  rw [List.filter_filter]
  refine List.filter_congr fun o _ => ?_
  cases o <;> simp [Occurrence.concerns, Occurrence.recorded]

/-- The chronicle of a member is what the beats say of it. -/
theorem chronicle_of_beats {beats : List Beat} (h : w.record = beats.flatMap Beat.entries) (m : Nat) :
    w.chronicle m = (beats.filterMap (Beat.note? m)).map (Note.entry m) := by
  rw [chronicle_eq, h]
  clear h
  induction beats with
  | nil => rfl
  | cons b beats ih =>
    rw [List.flatMap_cons, List.filter_append, ih, Beat.filter_entries, ← List.map_append]
    refine congrArg _ ?_
    rw [List.filterMap_cons]
    cases b.note? m <;> rfl

end World

/-- The place of a state in the life of a member. -/
def MemberState.station : MemberState → Nat
  | starting => 0
  | realized => 1
  | closing => 2
  | closed | failed => 3

/-! ### The call that closes a member -/

namespace Core

variable {c c' : Core} {j m : Nat}

/-- A call has begun to close a member, or found that somebody had; all others are idle. -/
structure Works (c : Core) (j m : Nat) : Prop where
  call : ∃ k, c.closings[j]? = some k ∧ k.member = m ∧ k.phase ≠ .called
  alone : ∀ {i : Nat} {k : Closing}, c.closings[i]? = some k → k.member = m → i ≠ j → k.Idle

/-- A call that is busy with a member is the one that closes it. -/
theorem Sound.works (h : c.Sound) {k : Closing} (hk : c.closings[j]? = some k) (busy : ¬ k.Idle) :
    c.Works j k.member := by
  obtain ⟨x, hx⟩ := exists_getElem? (h.lives.calls hk)
  exact ⟨⟨k, hk, rfl, fun called => busy (.inl called)⟩, (h.lives.underway hk hx busy).others⟩

theorem Works.begun (works : c.Works j m) (h : c.Sound) :
    ∃ x, c.members[m]? = some x ∧ x.closeStarted = true := by
  obtain ⟨k, hk, rfl, uncalled⟩ := works.call
  obtain ⟨x, hx⟩ := exists_getElem? (h.lives.calls hk)
  refine ⟨x, hx, ?_⟩
  rcases h.lives.life hx with fresh | ⟨i, way⟩
  · exact absurd (fresh.calls hk rfl) uncalled
  · exact way.begun

theorem ClosingMove.ne_called (move : c.ClosingMove j c') {k' : Closing}
    (hk' : c'.closings[j]? = some k') : k'.phase ≠ .called := by
  cases move with
  | skip hk | begin hk | tell hk | stop hk | mark hk | tellClosed hk | finish hk | fall hk =>
    cases (getElem?_replace_self hk _).symm.trans hk'
    exact fun called => Closing.Phase.noConfusion called

/-- An idle call finds that somebody had begun. -/
theorem ClosingMove.idle (move : c.ClosingMove j c') {k k' : Closing} {x : Member}
    (hk : c.closings[j]? = some k) (idle : k.Idle) (hx : c.members[k.member]? = some x)
    (begun : x.closeStarted = true) (hk' : c'.closings[j]? = some k') : k'.Idle := by
  cases move with
  | skip hj =>
    cases (getElem?_replace_self hj _).symm.trans hk'
    exact .inr rfl
  | begin hj hy _ fresh =>
    cases hk.symm.trans hj
    cases hx.symm.trans hy
    rw [begun] at fresh
    cases fresh
  | tell hj hp | stop hj _ hp | mark hj _ hp | tellClosed hj hp | finish hj _ hp =>
    cases hk.symm.trans hj
    rcases idle with idle | idle <;> cases hp.symm.trans idle
  | fall hj hp =>
    cases hk.symm.trans hj
    rcases hp with hp | hp <;> rcases idle with idle | idle <;> cases hp.symm.trans idle

/-- **One call.** The call that closes a member remains the one that does. -/
theorem Works.move (works : c.Works j m) (h : c.Sound) (move : c.Move c') : c'.Works j m where
  call := by
    obtain ⟨k, hk, rfl, uncalled⟩ := works.call
    obtain ⟨k', hk', kept⟩ := move.keeps.closings hk
    refine ⟨k', hk', kept.member, ?_⟩
    rcases move.closing_cases hk hk' with rfl | move
    · exact uncalled
    · exact move.ne_called hk'
  alone {i k'} hk' hm other := by
    by_cases hi : i < c.closings.size
    · obtain ⟨k, hk, kept⟩ := move.keeps.closings.of_lt hi hk'
      have own := kept.member.symm.trans hm
      have idle := works.alone hk own other
      rcases move.closing_cases hk hk' with rfl | move
      · exact idle
      · obtain ⟨x, hx, begun⟩ := works.begun h
        exact move.idle hk idle (own ▸ hx) begun hk'
    · exact .inl (move.new_call (Nat.le_of_not_lt hi) hk').1

/-! ### Stations -/

/-- A member changes only when a call begins to close it, or its process was stopped. -/
theorem Move.member_cases (move : c.Move c') {x x' : Member} (hx : c.members[m]? = some x)
    (hx' : c'.members[m]? = some x') : x' = x ∨
      x.closeStarted = false ∧ x' = { x with closeStarted := true, state := .closing } ∨
      x' = { x with state := .closed } := by
  have still (h : c'.members[m]? = c.members[m]?) : x' = x :=
    Option.some.inj (hx'.symm.trans (h.trans hx))
  cases move with
  | stay => exact .inl (still rfl)
  | launch i move => exact .inl (still (move.member (lt_of_getElem?_eq_some hx)))
  | closing j move =>
    cases move with
    | skip | tell | stop | tellClosed | finish | fall => exact .inl (still rfl)
    | begin hk hy hp fresh =>
      have hx' : (c.members.setIfInBounds _ _)[m]? = some x' := hx'
      rw [getElem?_replace hy] at hx'
      split at hx'
      · rename_i own
        rw [own, hy] at hx
        cases hx
        cases hx'
        exact .inr (.inl ⟨fresh, rfl⟩)
      · exact .inl (Option.some.inj (hx'.symm.trans hx))
    | mark hk hy =>
      have hx' : (c.members.setIfInBounds _ _)[m]? = some x' := hx'
      rw [getElem?_replace hy] at hx'
      split at hx'
      · rename_i own
        rw [own, hy] at hx
        cases hx
        cases hx'
        exact .inr (.inr rfl)
      · exact .inl (Option.some.inj (hx'.symm.trans hx))
  | run r move => exact .inl (still (by cases move <;> rfl))
  | reaper r move => exact .inl (still (by cases move <;> rfl))
  | dissolution d move => exact .inl (still (by cases move <;> rfl))
  | outside move => exact .inl (still (by cases move <;> rfl))

/-- The state of a member never moves backwards. -/
theorem Sound.station_move (h : c.Sound) (move : c.Move c') {x x' : Member} (hx : c.members[m]? = some x)
    (hx' : c'.members[m]? = some x') : x.state.station ≤ x'.state.station := by
  rcases move.member_cases hx hx' with rfl | ⟨fresh, rfl⟩ | rfl
  · exact Nat.le_refl _
  · rcases h.lives.life hx with new | ⟨i, way⟩
    · rw [new.state]
      exact Nat.le_succ 1
    · rw [way.begun] at fresh
      cases fresh
  · show x.state.station ≤ 3
    cases x.state <;> decide

end Core

/-! ### The protocol -/

/-- An observer was told of an occasion in the life of a member, and has not responded. -/
def Round.Awaits (round : Round) (m : Nat) (o : Observer) (occasion : Occasion) : Prop :=
  round.member = m ∧ round.occasion = occasion ∧ round.due?.isSome ∧ round.left.head? = some o

theorem Round.Awaits.hearing {round : Round} {m : Nat} {o : Observer} {occasion : Occasion}
    (h : round.Awaits m o occasion) : round.hearing = [o] := by
  obtain ⟨-, -, told, first⟩ := h
  obtain ⟨rest, left⟩ := List.head?_eq_some_iff.mp first
  unfold Round.hearing
  rw [if_pos told, left]
  rfl

namespace World

/-- Somebody waits for an observer that was told of an occasion in the life of a member. -/
inductive Awaits (w : World) (m : Nat) (o : Observer) (occasion : Occasion) : Prop where
  | launch {i : Nat} {l : Launch} {round : Round} (hl : w.launches[i]? = some l)
    (hp : l.phase = .telling round) (awaits : round.Awaits m o occasion)
  | closing {j : Nat} {k : Closing} {round : Round} (hk : w.closings[j]? = some k)
    (hp : k.phase = .telling round ∨ k.phase = .tellingClosed round) (awaits : round.Awaits m o occasion)

/-- The process of a member is being stopped. -/
def Stopping (w : World) (m : Nat) : Prop :=
  ∃ (j : Nat) (k : Closing) (due : Nat) (failures : List ObserverFailure),
    w.closings[j]? = some k ∧ k.member = m ∧ k.phase = .stopping due failures

/-- The protocol of a member's life. -/
structure Protocol (w : World) (m : Nat) (x : Member) : Prop where
  /-- The observers are those given to the launch, -/
  registered : ∃ l, w.launches[x.launch]? = some l ∧ x.observers = l.observers
  /-- and in a run of a plan those of the schema, then those of the plan, then the bridge to the channel. -/
  ofRun : ∀ (w₀ : World) (plan : Plan) (platform : Nat) (channel? : Option Nat) (cancelled : Bool) (l : Launch),
    Reachable w₀ → Steps (w₀.begin plan platform channel? cancelled).2 w → w.launches[x.launch]? = some l →
    l.run? = some (w₀.begin plan platform channel? cancelled).1 → x.observers =
      x.spec.schema.observers ++ (plan.observers ++ (channel?.map fun c => bridge c w₀.freshId.1).toList)
  /-- What has happened is a beginning of the script. -/
  script : w.chronicle m <+: x.script m
  /-- Nothing happens until the observer that was told has responded, -/
  awaited : ∀ (o : Observer) (occasion : Occasion), w.Awaits m o occasion →
    (w.chronicle m).getLast? = some (.told o.id occasion m occasion.state)
  /-- nor until stopping the process is over. -/
  stopping : w.Stopping m → (w.chronicle m).getLast? = some (.stopped m)
  /-- Once the member was returned, each observer was told that there is a process. -/
  returned : ∀ (i : Nat) (l : Launch) (failures : List ObserverFailure), w.launches[i]? = some l →
    l.phase = .settled (.realized m failures) → x.round m .realized <+: w.chronicle m
  /-- Once the call that closes the member has ended, all has happened that will ever happen. -/
  closed : ∀ (w₁ : World) (j : Nat) (k₁ k : Closing) (o : Except CloseFailure (List ObserverFailure)),
    Reachable w₁ → Steps w₁ w → w₁.closings[j]? = some k₁ → k₁.member = m → ¬ k₁.Idle →
    w.closings[j]? = some k → k.phase = .finished o → w.chronicle m = x.script m ∧ x.state = .closed
  /-- Nothing but an observer that takes down who told it cuts a round short. -/
  uncut : (∀ o ∈ x.observers, o.Responds) →
    (∀ (l : Launch) (message : String), w.launches[x.launch]? = some l → l.phase ≠ .settled (.died message)) ∧
    ∀ (j : Nat) (k : Closing), w.closings[j]? = some k → k.member = m → w.closingReadiness k ≠ .blocked
  /-- The state never moves backwards. -/
  forward : ∀ (w₁ : World) (x₁ : Member), Reachable w₁ → Steps w₁ w → w₁.members[m]? = some x₁ →
    x₁.state.station ≤ x.state.station

end World

namespace Core

namespace Course

variable {c : Core} {m : Nat} {x : Member} {said : List Note}

/-- The observer that a launch waits for was told last. -/
theorem awaited_launch (course : c.Course m x said) (h : c.Sound) (hx : c.members[m]? = some x) {i : Nat}
    {l : Launch} {round : Round} {o : Observer} {occasion : Occasion} (hl : c.launches[i]? = some l)
    (hp : l.phase = .telling round) (awaits : round.Awaits m o occasion) :
    (said.map (Note.entry m)).getLast? = some (.told o.id occasion m occasion.state) := by
  obtain ⟨-, -, -, answered, stands, rfl⟩ := course.of_telling h.born hx hl hp awaits.1
  obtain rfl : .realized = occasion := stands.what.symm.trans awaits.2.1
  rw [awaits.hearing]
  exact Note.getLast?_tells [] .realized answered o m

theorem awaited_closing (course : c.Course m x said) (h : c.Sound) (hx : c.members[m]? = some x) {j : Nat}
    {k : Closing} {round : Round} {o : Observer} {occasion : Occasion} (hk : c.closings[j]? = some k)
    (own : k.member = m) (hp : k.phase = .telling round ∨ k.phase = .tellingClosed round)
    (awaits : round.Awaits m o occasion) :
    (said.map (Note.entry m)).getLast? = some (.told o.id occasion m occasion.state) := by
  have busy : ¬ k.Idle := by
    rcases hp with hp | hp <;> simp [Closing.Idle, hp]
  obtain ⟨-, -, -, parted, spoken, rfl⟩ := course.of_busy h.lives hx hk own busy
  rcases hp with hp | hp
  · rw [hp] at spoken
    cases spoken with
    | @telling _ answered stands =>
      obtain rfl : .closing = occasion := stands.what.symm.trans awaits.2.1
      rw [awaits.hearing]
      exact Note.getLast?_tells _ .closing answered o m
  · rw [hp] at spoken
    cases spoken with
    | @tellingClosed _ answered stands =>
      obtain rfl : .closed = occasion := stands.what.symm.trans awaits.2.1
      rw [awaits.hearing, ← List.singleton_append, ← List.append_assoc, ← List.append_assoc]
      exact Note.getLast?_tells _ .closed answered o m

/-- While the process is being stopped nothing else happens. -/
theorem stopping (course : c.Course m x said) (h : c.Sound) (hx : c.members[m]? = some x) {j due : Nat}
    {k : Closing} {failures : List ObserverFailure} (hk : c.closings[j]? = some k) (own : k.member = m)
    (hp : k.phase = .stopping due failures) : (said.map (Note.entry m)).getLast? = some (.stopped m) := by
  have busy : ¬ k.Idle := by simp [Closing.Idle, hp]
  obtain ⟨-, -, -, parted, spoken, rfl⟩ := course.of_busy h.lives hx hk own busy
  rw [hp] at spoken
  cases spoken with
  | stopping => simp [Note.entry]

/-- Once a member was returned everybody was told that there is a process. -/
theorem returned_isPrefix (course : c.Course m x said) (h : c.Sound) (hx : c.members[m]? = some x) {i : Nat}
    {l : Launch} {failures : List ObserverFailure} (hl : c.launches[i]? = some l)
    (hp : l.phase = .settled (.realized m failures)) : Note.tells .realized x.observers <+: said := by
  obtain ⟨y, hy, rfl⟩ := h.born.launch hl (.realized hp)
  cases hx.symm.trans hy
  cases course with
  | launching hl' hp' | felled hl' hp' =>
    cases hl.symm.trans hl'
    cases hp.symm.trans hp'
  | returned => exact List.prefix_refl _
  | parting => exact List.prefix_append _ _

/-- Once the call that closes a member has ended everything was said. -/
theorem closed (course : c.Course m x said) (h : c.Sound) (hx : c.members[m]? = some x) {j : Nat}
    {k : Closing} {o : Except CloseFailure (List ObserverFailure)} (works : c.Works j m)
    (hk : c.closings[j]? = some k) (hp : k.phase = .finished o) :
    said = Note.script x.observers ∧ x.state = .closed := by
  obtain ⟨y, hy, begun⟩ := works.begun h
  cases hx.symm.trans hy
  cases course with
  | launching _ _ _ fresh | felled _ _ _ _ fresh | returned _ _ fresh =>
    rw [begun] at fresh
    cases fresh
  | @parting _ i k' parted _ _ hk' member _ _ spoken =>
    -- the call that says it all is this one, or an idle one that has ended
    have ended : ∃ o, k'.phase = .finished o := by
      by_cases same : i = j
      · subst same
        cases hk.symm.trans hk'
        exact ⟨o, hp⟩
      · rcases works.alone hk' member same with called | finished
        · exact absurd called spoken.ne_called
        · exact ⟨_, finished⟩
    obtain ⟨o', hp'⟩ := ended
    rw [hp'] at spoken
    cases spoken with
    | finished state => exact ⟨rfl, state⟩

/-- Only an observer that does not respond takes down a launch that tells it. -/
theorem not_died (course : c.Course m x said) (responds : ∀ o ∈ x.observers, o.Responds) {l : Launch}
    (hl : c.launches[x.launch]? = some l) (message : String) : l.phase ≠ .settled (.died message) := by
  intro died
  cases course with
  | launching hl' hp | returned hl' hp | parting hl' hp =>
    cases hl.symm.trans hl'
    cases hp.symm.trans died
  | felled _ _ all dies => exact dies (responds _ (all ▸ List.mem_append_right _ List.mem_cons_self))

theorem not_dead (course : c.Course m x said) (h : c.Sound) (hx : c.members[m]? = some x)
    (responds : ∀ o ∈ x.observers, o.Responds) {j : Nat} {k : Closing} (hk : c.closings[j]? = some k)
    (own : k.member = m) : k.phase ≠ .dead := by
  intro dead
  have busy : ¬ k.Idle := by simp [Closing.Idle, dead]
  obtain ⟨-, -, -, parted, spoken, -⟩ := course.of_busy h.lives hx hk own busy
  rw [dead] at spoken
  cases spoken with
  | fallen all dies | fallenLate all dies =>
    exact dies (responds _ (all ▸ List.mem_append_right _ List.mem_cons_self))

end Course

end Core

namespace World

variable {w : World}

/-- Only a call that was taken down can never go on. -/
theorem dead_of_blocked {k : Closing} (blocked : w.closingReadiness k = .blocked) : k.phase = .dead := by
  have awake (due : Nat) : w.readyFrom due ≠ .blocked := by
    unfold readyFrom
    split <;> exact fun h => Readiness.noConfusion h
  have round (round : Round) : w.roundReadiness round ≠ .blocked := by
    unfold roundReadiness
    split
    · exact fun h => Readiness.noConfusion h
    · exact awake _
  unfold closingReadiness at blocked
  split at blocked
  · cases blocked
  · exact absurd blocked (round _)
  · exact absurd blocked (round _)
  · exact absurd blocked (awake _)
  · cases blocked
  · rename_i dead
    exact dead

/-- **Protocol.** The life of every member keeps to the protocol: each observer is told once that there is a
process, and then at most once that it will be stopped and at most once that it was; in each round they are
told one after another, in the order in which they were registered, whatever they report; the process is
stopped between the last two rounds, at most once; and once the call that closes the member has ended, all of
this has happened, whether or not the process could be stopped. -/
theorem Reachable.protocol (h : Reachable w) {m : Nat} {x : Member} (hx : w.members[m]? = some x) :
    w.Protocol m x := by
  have sound := h.sound
  obtain ⟨beats, record, chronicled⟩ := h.chronicled
  have course := chronicled.course hx
  have chronicle := chronicle_of_beats record m
  obtain ⟨l, hl, spec, observers, -⟩ := sound.born.member hx
  refine ⟨⟨l, hl, observers.symm⟩, ?_, ?_, ?_, ?_, ?_, ?_, ?_, ?_⟩
  · intro w₀ plan platform channel? cancelled l' h₀ steps hl' hlr
    obtain ⟨-, builds⟩ := steps.builds h₀
    cases hl.symm.trans hl'
    rw [← observers, builds.observers hl hlr, spec]
    rfl
  · rw [chronicle, ← x.map_entry_script]
    exact course.isPrefix.map _
  · intro o occasion awaits
    rw [chronicle]
    cases awaits with
    | launch hl hp awaits => exact course.awaited_launch sound hx hl hp awaits
    | closing hk hp awaits =>
      exact course.awaited_closing sound hx hk ((chronicled.round_member sound hk hp).symm.trans awaits.1) hp
        awaits
  · rintro ⟨j, k, due, failures, hk, own, hp⟩
    rw [chronicle]
    exact course.stopping sound hx hk own hp
  · intro i l failures hl hp
    rw [chronicle, ← x.map_entry_tells]
    exact (course.returned_isPrefix sound hx hl hp).map _
  · intro w₁ j k₁ k o h₁ steps hk₁ own busy hk hp
    obtain ⟨-, works⟩ := steps.invariant (P := fun c => c.Works j m) h₁.sound (own ▸ h₁.sound.works hk₁ busy)
      fun sound move works => works.move sound move
    obtain ⟨all, state⟩ := course.closed sound hx works hk hp
    rw [chronicle, all]
    exact ⟨x.map_entry_script m, state⟩
  · intro responds
    refine ⟨fun l message hl => course.not_died responds hl message, fun j k hk own => ?_⟩
    exact fun blocked => course.not_dead sound hx responds hk own (dead_of_blocked blocked)
  · intro w₁ x₁ h₁ steps hx₁
    obtain ⟨-, y, hy, le⟩ := steps.invariant (P := fun c => ∃ y, c.members[m]? = some y ∧
      x₁.state.station ≤ y.state.station) h₁.sound ⟨x₁, hx₁, Nat.le_refl _⟩ fun sound move ⟨y, hy, le⟩ => by
        obtain ⟨y', hy', -⟩ := move.keeps.members hy
        exact ⟨y', hy', Nat.le_trans le (sound.station_move move hy hy')⟩
    cases hx.symm.trans hy
    exact le

/-- Two observers: the first reports an error when it hears of the end, the second takes its time. -/
def witnesses : List Observer := [.recording 1 "first" (some .closed), .journalling 2 "second" 5 []]

/-- They are told of a member that was launched by itself; its process will resist. -/
def introduced : World :=
  let w := ((stage (.custom { stopError? := some (.terminationFailed "stuck") } [])).callLaunch
    ⟨0, "worker-1", { executable := "worker" }, {}⟩ 0 witnesses).2.goes
      [.launch 0, .launch 0, .launch 0, .launch 0]
  { w with now := w.now + 5 }.goes [.launch 0, .launch 0]

theorem reachable_introduced : Reachable introduced :=
  ((((reachable_stage _).tail (.launch _ 0 witnesses)).trans (Steps.goes (by decide +kernel))).tail
    (.pass 5)).trans (Steps.goes (by decide +kernel))

/-- Two calls close the member; the second finds that the first has begun. -/
def pressed : World := (introduced.callClose 0).2.callClose 0 |>.2.goes [.closing 0, .closing 1]

theorem reachable_pressed : Reachable pressed := by
  have there : introduced.launches[0]?.map (fun l => (l.run?, l.phase)) =
      some (none, .settled (.realized 0 [])) := rfl
  obtain ⟨l, hl, same⟩ := Option.map_eq_some_iff.mp there
  obtain ⟨none, hp⟩ := Prod.mk.injEq .. ▸ same
  have held : introduced.Held 0 := .inr ⟨l, Array.mem_of_getElem? hl, none, _, hp⟩
  exact ((reachable_introduced.tail (.close 0 held)).tail (.close 0 held)).trans
    (Steps.goes (by decide +kernel))

/-- The first call has ended. -/
def parted : World :=
  let w := pressed.goes [.closing 0, .closing 0]
  let w := { w with now := w.now + 5 }.goes
    [.closing 0, .closing 0, .closing 0, .closing 0, .closing 0]
  { w with now := w.now + 5 }.goes [.closing 0, .closing 0]

theorem steps_parted : Steps pressed parted :=
  ((((Steps.goes (by decide +kernel)).tail (.pass 5)).trans (Steps.goes (by decide +kernel))).tail
    (.pass 5)).trans (Steps.goes (by decide +kernel))

set_option maxRecDepth 4000 in
/-- All of the script has happened, although an observer reported an error and stopping failed. -/
theorem protocol_parted : ∃ x, parted.members[0]? = some x ∧ parted.chronicle 0 = x.script 0 ∧
    x.state = .closed ∧ parted.closings[0]?.map (·.phase) = some (.finished (.error ⟨"worker-1",
      .terminationFailed "stuck", [⟨"first", "worker-1", .closed, "first rejected closed of 'worker-1'"⟩]⟩)) := by
  have before : pressed.closings[0]?.map (fun k => (k.member, k.phase)) =
      some (0, .telling (.start .closing 0 witnesses [])) := rfl
  have after : parted.closings[0]?.map (·.phase) = some (.finished (.error ⟨"worker-1",
      .terminationFailed "stuck", [⟨"first", "worker-1", .closed, "first rejected closed of 'worker-1'"⟩]⟩)) := rfl
  obtain ⟨k₁, hk₁, same⟩ := Option.map_eq_some_iff.mp before
  obtain ⟨own, hp₁⟩ := Prod.mk.injEq .. ▸ same
  obtain ⟨k, hk, hp⟩ := Option.map_eq_some_iff.mp after
  have there : 0 < parted.members.size := by decide +kernel
  obtain ⟨x, hx⟩ := exists_getElem? there
  obtain ⟨all, state⟩ := (Reachable.protocol (reachable_pressed.trans steps_parted) hx).closed pressed 0 k₁ k _
    reachable_pressed steps_parted hk₁ own (by simp [Closing.Idle, hp₁]) hk hp
  exact ⟨x, hx, all, state, after⟩

end World

end Muster
