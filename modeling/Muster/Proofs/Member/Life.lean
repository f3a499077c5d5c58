import Muster.Proofs.Launch.Birth
import Muster.Proofs.Launch.OfRun

/-!
# The life of a member

* `Closing.Idle`: a call that closes a member has done nothing, or found that somebody had begun.
* `Closing.Phase.At`: how far the one call has come that closes the member, told from the state of the
  member and from how often a platform was asked to stop its process.
* `Core.Fresh`, `Core.Underway`: nobody has begun to close a member, or one call does it.
* `Core.Lives.elsewhere`: what goes on with other members goes on when a call changes.
* **`Core.Lives.move`**: at every time each member is fresh, or one call closes it and all others are
  idle.
-/

namespace Muster

/-- A call has done nothing yet, or has found that somebody had begun before. -/
def Closing.Idle (k : Closing) : Prop := k.phase = .called ∨ k.phase = .finished (.ok [])

/-- How far the call has come that closes a member: the state that the member is in, and how often a
platform was asked to stop its process. -/
inductive Closing.Phase.At : Closing.Phase → MemberState → Nat → Prop where
  | telling (round : Round) : At (.telling round) .closing 0
  | stopping (due : Nat) (failures : List ObserverFailure) : At (.stopping due failures) .closing 1
  | tellingClosed (round : Round) : At (.tellingClosed round) .closed 1
  | finished (o : Except CloseFailure (List ObserverFailure)) : At (.finished o) .closed 1
  | deadBefore : At .dead .closing 0
  | deadAfter : At .dead .closed 1

theorem Closing.Phase.At.stopped_once {due : Nat} {failures : List ObserverFailure}
    {state : MemberState} {count : Nat} (h : Closing.Phase.At (.stopping due failures) state count) :
    count = 1 := by
  cases h
  rfl

namespace Core

/-- Nobody has begun to close a member. -/
structure Fresh (ks : Array Closing) (stopped : List Nat) (m : Nat) (x : Member) : Prop where
  begun : x.closeStarted = false
  state : x.state = .realized
  stops : stopped.count m = 0
  calls : ∀ {j : Nat} {k : Closing}, ks[j]? = some k → k.member = m → k.phase = .called

/-- One call closes a member. -/
structure Underway (ks : Array Closing) (stopped : List Nat) (m : Nat) (x : Member) (j : Nat) : Prop where
  begun : x.closeStarted = true
  works : ∃ k, ks[j]? = some k ∧ k.member = m ∧ k.phase.At x.state (stopped.count m)
  others : ∀ {i : Nat} {k : Closing}, ks[i]? = some k → k.member = m → i ≠ j → k.Idle

/-- Every member is fresh, or one call closes it. -/
structure Lives (ms : Array Member) (ks : Array Closing) (stopped : List Nat) : Prop where
  life : ∀ {m : Nat} {x : Member}, ms[m]? = some x →
    Fresh ks stopped m x ∨ ∃ j, Underway ks stopped m x j
  calls : ∀ {j : Nat} {k : Closing}, ks[j]? = some k → k.member < ms.size
  stopped : ∀ {m : Nat}, m ∈ stopped → m < ms.size

namespace Lives

variable {ms : Array Member} {ks : Array Closing} {stopped stopped' : List Nat}

theorem empty : Lives #[] #[] [] where
  life hx := by simp at hx
  calls hk := by simp at hk
  stopped hm := absurd hm List.not_mem_nil

/-- Only the call that closes a member is busy with it. -/
theorem underway (h : Lives ms ks stopped) {j : Nat} {k : Closing} {x : Member} (hk : ks[j]? = some k)
    (hx : ms[k.member]? = some x) (busy : ¬ k.Idle) : Underway ks stopped k.member x j := by
  rcases h.life hx with fresh | ⟨i, way⟩
  · exact absurd (.inl (fresh.calls hk rfl)) busy
  · by_cases hji : j = i
    · exact hji ▸ way
    · exact absurd (way.others hk rfl hji) busy

/-- What goes on with other members goes on when a call changes. -/
theorem elsewhere (h : Lives ms ks stopped) {j : Nat} {k : Closing} (k' : Closing)
    (hk : ks[j]? = some k) (member : k'.member = k.member) {m : Nat} {y : Member} (hy : ms[m]? = some y)
    (other : m ≠ k.member) (count : stopped'.count m = stopped.count m) :
    Fresh (ks.setIfInBounds j k') stopped' m y ∨
      ∃ i, Underway (ks.setIfInBounds j k') stopped' m y i := by
  have away : ∀ {i : Nat} {ki : Closing}, (ks.setIfInBounds j k')[i]? = some ki → ki.member = m →
      ks[i]? = some ki := by
    intro i ki hi him
    rw [getElem?_replace hk] at hi
    split at hi
    · cases hi
      exact absurd (him.symm.trans member) other
    · exact hi
  rcases h.life hy with fresh | ⟨i, way⟩
  · exact .inl ⟨fresh.begun, fresh.state, count.trans fresh.stops,
      fun hi him => fresh.calls (away hi him) him⟩
  · obtain ⟨ki, hi, him, phase⟩ := way.works
    have hij : i ≠ j := by
      rintro rfl
      rw [hk] at hi
      cases hi
      exact other him.symm
    refine .inr ⟨i, way.begun, ?_, fun hi him => way.others (away hi him) him⟩
    exact ⟨ki, (getElem?_replace_of_ne hk hij k').trans hi, him, count ▸ phase⟩

/-- Calls are for members that are there when a call changes. -/
theorem calls_replaced (h : Lives ms ks stopped) {j : Nat} {k : Closing} (k' : Closing)
    (hk : ks[j]? = some k) (member : k'.member = k.member) {i : Nat} {ki : Closing}
    (hi : (ks.setIfInBounds j k')[i]? = some ki) : ki.member < ms.size := by
  rw [getElem?_replace hk] at hi
  split at hi
  · cases hi
    rw [member]
    exact h.calls hk
  · exact h.calls hi

/-- The call that closes a member goes on, and with it the member. -/
theorem work (h : Lives ms ks stopped) {j : Nat} {k : Closing} (k' : Closing) {x x' : Member}
    (hk : ks[j]? = some k) (hx : ms[k.member]? = some x) (member : k'.member = k.member)
    (others : ∀ {i : Nat} {k' : Closing}, ks[i]? = some k' → k'.member = k.member → i ≠ j → k'.Idle)
    (begun : x'.closeStarted = true) {more : List Nat} (only : ∀ m ∈ more, m = k.member)
    (same : stopped' = stopped ++ more) (here : k'.phase.At x'.state (stopped'.count k.member)) :
    Lives (ms.setIfInBounds k.member x') (ks.setIfInBounds j k') stopped' where
  life {m y} hy := by
    rw [getElem?_replace hx] at hy
    split at hy
    · rename_i own
      cases hy
      rw [own]
      refine .inr ⟨j, begun, ?_, fun {i ki} hi him hij => ?_⟩
      · exact ⟨k', getElem?_replace_self hk k', member, here⟩
      · rw [getElem?_replace_of_ne hk hij] at hi
        exact others hi him hij
    · rename_i other
      refine h.elsewhere k' hk member hy other ?_
      rw [same, List.count_append, List.count_eq_zero.mpr fun hm => other (only m hm), Nat.add_zero]
  calls hi := by
    rw [Array.size_setIfInBounds]
    exact h.calls_replaced k' hk member hi
  stopped {m} hm := by
    rw [Array.size_setIfInBounds]
    rcases List.mem_append.mp (same ▸ hm) with hm | hm
    · exact h.stopped hm
    · rw [only m hm]
      exact h.calls hk

theorem count_append_own {m : Nat} {more : List Nat} (only : ∀ n ∈ more, n = m) (stopped : List Nat) :
    (stopped ++ more).count m = stopped.count m + more.length := by
  rw [List.count_append, List.count_eq_length.mpr fun n hn => (only n hn).symm]

/-- The call goes on, and the member stays as it is. -/
theorem go (h : Lives ms ks stopped) {j : Nat} {k : Closing} (hk : ks[j]? = some k) (busy : ¬ k.Idle)
    {p : Closing.Phase} (more : List Nat) (only : ∀ m ∈ more, m = k.member)
    (same : stopped' = stopped ++ more)
    (here : ∀ state count, k.phase.At state count → p.At state (count + more.length)) :
    Lives ms (ks.setIfInBounds j { k with phase := p }) stopped' := by
  obtain ⟨x, hx⟩ := exists_getElem? (h.calls hk)
  have way := h.underway hk hx busy
  obtain ⟨k', hk', -, phase⟩ := way.works
  rw [hk] at hk'
  cases hk'
  have count : stopped'.count k.member = stopped.count k.member + more.length := by
    rw [same, count_append_own only]
  have := h.work { k with phase := p } hk hx rfl way.others way.begun only same
    (count ▸ here _ _ phase)
  rw [setIfInBounds_eq_self hx] at this
  exact this

/-- A call finds that somebody had begun before. -/
theorem skip (h : Lives ms ks stopped) {j : Nat} {k : Closing} {x : Member} (hk : ks[j]? = some k)
    (hx : ms[k.member]? = some x) (called : k.phase = .called) (begun : x.closeStarted = true) :
    Lives ms (ks.setIfInBounds j { k with phase := .finished (.ok []) }) stopped where
  life {m y} hy := by
    by_cases own : m = k.member
    · subst own
      cases hx.symm.trans hy
      rcases h.life hx with fresh | ⟨i, way⟩
      · rw [fresh.begun] at begun
        cases begun
      · obtain ⟨ki, hi, him, phase⟩ := way.works
        have hij : i ≠ j := by
          rintro rfl
          rw [hk] at hi
          cases hi
          rw [called] at phase
          cases phase
        refine .inr ⟨i, way.begun, ?_, fun {i' ki'} hi' him' hne => ?_⟩
        · exact ⟨ki, (getElem?_replace_of_ne hk hij _).trans hi, him, phase⟩
        · rw [getElem?_replace hk] at hi'
          split at hi'
          · cases hi'
            exact .inr rfl
          · exact way.others hi' him' hne
    · exact h.elsewhere { k with phase := .finished (.ok []) } hk rfl hy own rfl
  calls hi := h.calls_replaced { k with phase := .finished (.ok []) } hk rfl hi
  stopped hm := h.stopped hm

/-- A member comes to life. -/
theorem addMember (h : Lives ms ks stopped) {x : Member} (begun : x.closeStarted = false)
    (state : x.state = .realized) : Lives (ms.push x) ks stopped where
  life {m y} hy := by
    rw [Array.getElem?_push] at hy
    split at hy
    · rename_i last
      cases hy
      rw [last]
      refine .inl ⟨begun, state, ?_, fun {j k} hk hm => ?_⟩
      · exact List.count_eq_zero.mpr fun hm => Nat.lt_irrefl _ (h.stopped hm)
      · have := h.calls hk
        omega
    · exact h.life hy
  calls hk := by
    rw [Array.size_push]
    exact Nat.lt_succ_of_lt (h.calls hk)
  stopped hm := by
    rw [Array.size_push]
    exact Nat.lt_succ_of_lt (h.stopped hm)

/-- Calls are added that have done nothing yet. -/
theorem addCalls (h : Lives ms ks stopped) {members : List Nat} (there : ∀ m ∈ members, m < ms.size) :
    Lives ms (ks ++ (members.map fun m => ({ member := m } : Closing)).toArray) stopped := by
  have new : ∀ {j : Nat} {k : Closing},
      (ks ++ (members.map fun m => ({ member := m } : Closing)).toArray)[j]? = some k →
      ks[j]? = some k ∨ k.phase = .called ∧ k.member ∈ members := by
    intro j k hk
    rw [Array.getElem?_append] at hk
    split at hk
    · exact .inl hk
    · have hk := Array.mem_of_getElem? hk
      rw [List.mem_toArray, List.mem_map] at hk
      obtain ⟨m, hm, rfl⟩ := hk
      exact .inr ⟨rfl, hm⟩
  refine ⟨fun {m x} hx => ?_, fun {j k} hk => ?_, fun hm => h.stopped hm⟩
  · rcases h.life hx with fresh | ⟨j, way⟩
    · refine .inl ⟨fresh.begun, fresh.state, fresh.stops, fun hk hm => ?_⟩
      rcases new hk with hk | ⟨called, -⟩
      · exact fresh.calls hk hm
      · exact called
    · obtain ⟨k, hk, hm, phase⟩ := way.works
      have hj := lt_of_getElem?_eq_some hk
      refine .inr ⟨j, way.begun, ⟨k, (Array.getElem?_append_left hj).trans hk, hm, phase⟩,
        fun hk hm hne => ?_⟩
      rcases new hk with hk | ⟨called, -⟩
      · exact way.others hk hm hne
      · exact .inl called
  · rcases new hk with hk | ⟨-, hm⟩
    · exact h.calls hk
    · exact there _ hm

end Lives

variable {c c' : Core}

theorem ClosingMove.lives {j : Nat} (move : c.ClosingMove j c')
    (h : Lives c.members c.closings c.stopped) : Lives c'.members c'.closings c'.stopped := by
  have none : ∀ {m : Nat}, ∀ n ∈ ([] : List Nat), n = m := fun n hn => absurd hn List.not_mem_nil
  cases move with
  | skip hk hx hp begun => exact h.skip hk hx hp begun
  | begin hk hx hp fresh =>
    rcases h.life hx with new | ⟨i, way⟩
    · refine h.work _ hk hx rfl (fun hi him _ => .inl (new.calls hi him)) rfl none (List.append_nil _).symm ?_
      show Closing.Phase.At (.telling _) .closing (c.stopped.count _)
      rw [new.stops]
      exact .telling _
    · rw [way.begun] at fresh
      cases fresh
  | tell hk hp fewer =>
    refine h.go hk (by simp [Closing.Idle, hp]) [] none (List.append_nil _).symm fun state count here => ?_
    rw [hp] at here
    cases here
    exact .telling _
  | stop hk hx hp done due =>
    refine h.go hk (by simp [Closing.Idle, hp]) [_] (by simp) rfl fun state count here => ?_
    rw [hp] at here
    cases here
    exact .stopping _ _
  | mark hk hx hp =>
    have way := h.underway hk hx (by simp [Closing.Idle, hp])
    obtain ⟨k', hk', -, phase⟩ := way.works
    rw [hk] at hk'
    cases hk'
    rw [hp] at phase
    refine h.work _ hk hx rfl way.others way.begun none (List.append_nil _).symm ?_
    show Closing.Phase.At (.tellingClosed _) .closed (c.stopped.count _)
    rw [phase.stopped_once]
    exact .tellingClosed _
  | tellClosed hk hp fewer =>
    refine h.go hk (by simp [Closing.Idle, hp]) [] none (List.append_nil _).symm fun state count here => ?_
    rw [hp] at here
    cases here
    exact .tellingClosed _
  | finish hk hx hp done ho =>
    refine h.go hk (by simp [Closing.Idle, hp]) [] none (List.append_nil _).symm fun state count here => ?_
    rw [hp] at here
    cases here
    exact .finished _
  | fall hk hp ho dies =>
    refine h.go hk ?_ [] none (List.append_nil _).symm fun state count here => ?_
    · rcases hp with hp | hp <;> simp [Closing.Idle, hp]
    · rcases hp with hp | hp
      · rw [hp] at here
        cases here
        exact .deadBefore
      · rw [hp] at here
        cases here
        exact .deadAfter

/-- Callers have only members in their hands that are there. -/
theorem Held.lt (born : Born c.members c.launches)
    (assemblies : ∀ {a : Nat} {x : Assembly} {m : Nat}, c.assemblies[a]? = some x → m ∈ x.members →
      m < c.members.size) {m : Nat} (h : c.Held m) : m < c.members.size := by
  rcases h with ⟨x, hx, hm⟩ | ⟨l, hl, -, failures, hp⟩
  · obtain ⟨a, ha⟩ := Array.mem_iff_getElem?.mp hx
    exact assemblies ha hm
  · obtain ⟨i, hi⟩ := Array.mem_iff_getElem?.mp hl
    obtain ⟨x, hx, -⟩ := born.launch hi (.realized hp)
    exact lt_of_getElem?_eq_some hx

/-- **Lives.** At every time each member is fresh, or one call closes it. -/
theorem Lives.move (h : Lives c.members c.closings c.stopped) (move : c.Move c')
    (born : Born c.members c.launches)
    (runs : ∀ {r : Nat} {run : Run} {m : Nat}, c.runs[r]? = some run → m ∈ run.members →
      m < c.members.size)
    (assemblies : ∀ {a : Nat} {x : Assembly} {m : Nat}, c.assemblies[a]? = some x → m ∈ x.members →
      m < c.members.size) :
    Lives c'.members c'.closings c'.stopped := by
  cases move with
  | stay => exact h
  | launch i move =>
    cases move with
    | handOut hl hp id process since => exact h.addMember rfl rfl
    | wait | pass | ask | tell | settle | settleLast | settleNext => exact h
  | closing j move => exact move.lives h
  | run r move =>
    cases move with
    | giveUp hr | refuse hr | dismiss hr | degrade hr => exact h.addCalls fun m hm => runs hr hm
    | take | gather | succeedEmpty | succeed | rest | wake | fail => exact h
  | reaper r move =>
    cases move with
    | close hr hp hs hm =>
      refine h.addCalls fun n hn => ?_
      obtain ⟨l, x, failures, -, -, hx, -⟩ := born.of_memberOf? hm
      rw [List.mem_singleton.mp hn]
      exact lt_of_getElem?_eq_some hx
    | done | drop => exact h
  | dissolution d move =>
    cases move with
    | begin hd ha => exact h.addCalls fun m hm => assemblies ha hm
    | skip | finish => exact h
  | outside move =>
    cases move with
    | close there =>
      refine h.addCalls fun n hn => ?_
      rw [List.mem_singleton.mp hn]
      exact there
    | cancel | begin | launch | dissolve => exact h

end Core

end Muster
