import Muster.Proofs.Launch.OfRun

/-!
# Where members come from

* `Launch.Bears`: a launch tells the observers of a member, or has ended in it.
* `Launch.Bore`: or it was taken down by an observer while it told them.
* **`Core.Born.move`**: every member there is came of one launch, with the specification and the
  observers of that launch, and a launch bears no other member; a failed launch says whose it was.
-/

namespace Muster

/-- A launch tells the observers of a member, or has ended in it. -/
inductive Launch.Bears (l : Launch) (m : Nat) : Prop where
  | telling {round : Round} (hp : l.phase = .telling round) (member : round.member = m)
  | realized {failures : List ObserverFailure} (hp : l.phase = .settled (.realized m failures))

/-- A launch bears a member, or an observer took it down while it told of the member. -/
inductive Launch.Bore (l : Launch) (m : Nat) : Prop where
  | bears (h : l.Bears m)
  | felled {message : String} {o : Observer} (hp : l.phase = .settled (.died message))
    (ho : o ∈ l.observers) (dies : ¬ o.Responds)

/-- A launch bears one member at most. -/
theorem Launch.Bears.unique {l : Launch} {m m' : Nat} (hm : l.Bears m) (hm' : l.Bears m') : m = m' := by
  cases hm with
  | telling hp member =>
    cases hm' with
    | telling hp' member' =>
      rw [hp] at hp'
      cases hp'
      exact member.symm.trans member'
    | realized hp' => simp [hp] at hp'
  | realized hp =>
    cases hm' with
    | telling hp' member' => simp [hp] at hp'
    | realized hp' =>
      rw [hp] at hp'
      cases hp'
      rfl

/-- Only a launch that tells observers or has ended bore a member. -/
theorem Launch.Bore.late {l : Launch} {m : Nat} (h : l.Bore m) :
    (∃ round, l.phase = .telling round) ∨ ∃ o, l.phase = .settled o := by
  cases h with
  | bears h =>
    cases h with
    | telling hp => exact .inl ⟨_, hp⟩
    | realized hp => exact .inr ⟨_, hp⟩
  | felled hp => exact .inr ⟨_, hp⟩

namespace Core

/-- Every member came of a launch, and every launch bears at most the member that came of it. -/
structure Born (ms : Array Member) (ls : Array Launch) : Prop where
  member : ∀ {m : Nat} {x : Member}, ms[m]? = some x →
    ∃ l, ls[x.launch]? = some l ∧ l.spec = x.spec ∧ l.observers = x.observers ∧ l.Bore m
  launch : ∀ {i m : Nat} {l : Launch}, ls[i]? = some l → l.Bears m →
    ∃ x, ms[m]? = some x ∧ x.launch = i
  round : ∀ {i : Nat} {l : Launch} {round : Round}, ls[i]? = some l → l.phase = .telling round →
    round.left <:+ l.observers
  failure : ∀ {i : Nat} {l : Launch} {f : LaunchFailure}, ls[i]? = some l →
    l.phase = .settled (.failed f) → f.member = l.spec.name ∧ f.ordinal = l.spec.ordinal

namespace Born

variable {ms : Array Member} {ls : Array Launch}

theorem empty : Born #[] #[] where
  member hx := by simp at hx
  launch hl := by simp at hl
  round hl := by simp at hl
  failure hl := by simp at hl

/-- A launch goes on with the member that it bears. -/
theorem setLaunch (h : Born ms ls) {i : Nat} {l l' : Launch} (hl : ls[i]? = some l)
    (spec : l'.spec = l.spec) (observers : l'.observers = l.observers)
    (bore : ∀ m, l.Bore m → l'.Bore m) (bears : ∀ m, l'.Bears m → l.Bears m)
    (round : ∀ round, l'.phase = .telling round → round.left <:+ l.observers)
    (failure : ∀ f, l'.phase = .settled (.failed f) → f.member = l.spec.name ∧ f.ordinal = l.spec.ordinal) :
    Born ms (ls.setIfInBounds i l') where
  member {m x} hx := by
    obtain ⟨y, hy, yspec, yobservers, ybore⟩ := h.member hx
    rw [getElem?_replace hl]
    split
    · rename_i same
      rw [same, hl] at hy
      cases hy
      exact ⟨l', rfl, spec.trans yspec, observers.trans yobservers, bore m ybore⟩
    · exact ⟨y, hy, yspec, yobservers, ybore⟩
  launch {j m x} hx hm := by
    rw [getElem?_replace hl] at hx
    split at hx
    · rename_i same
      cases hx
      rw [same]
      exact h.launch hl (bears m hm)
    · exact h.launch hx hm
  round {j x r} hx hr := by
    rw [getElem?_replace hl] at hx
    split at hx
    · cases hx
      rw [observers]
      exact round r hr
    · exact h.round hx hr
  failure {j x f} hx hf := by
    rw [getElem?_replace hl] at hx
    split at hx
    · cases hx
      rw [spec]
      exact failure f hf
    · exact h.failure hx hf

/-- A launch goes on that has told nobody yet. -/
theorem setPhase_early (h : Born ms ls) {i : Nat} {l : Launch} (hl : ls[i]? = some l)
    (none : ∀ m, ¬ l.Bore m) {p : Launch.Phase} (telling : ∀ round, p ≠ .telling round)
    (settled : ∀ o, p ≠ .settled o) : Born ms (ls.setIfInBounds i { l with phase := p }) := by
  refine h.setLaunch hl rfl rfl (fun m hm => absurd hm (none m)) (fun m hm => ?_)
    (fun round hr => absurd hr (telling round)) (fun f hf => absurd hf (settled _))
  cases hm with
  | telling hp => exact absurd hp (telling _)
  | realized hp => exact absurd hp (settled _)

/-- A launch ends. -/
theorem settle (h : Born ms ls) {i : Nat} {l : Launch} {o : Launch.Outcome} (hl : ls[i]? = some l)
    (ends : l.Ends o) : Born ms (ls.setIfInBounds i { l with phase := .settled o }) := by
  have none : ∀ {due : Nat}, l.phase = .realizing due → ∀ m, ¬ l.Bore m := by
    intro due hp m hm
    rcases hm.late with ⟨_, late⟩ | ⟨_, late⟩ <;> simp [hp] at late
  cases ends with
  | refused hp reason =>
    refine h.setLaunch hl rfl rfl (fun m hm => absurd hm (none hp m)) (fun m hm => ?_)
      (fun round hr => by cases hr) (fun f hf => by cases hf; exact ⟨rfl, rfl⟩)
    cases hm with
    | telling hp => cases hp
    | realized hp => cases hp
  | struck hp message =>
    refine h.setLaunch hl rfl rfl (fun m hm => absurd hm (none hp m)) (fun m hm => ?_)
      (fun round hr => by cases hr) (fun f hf => by cases hf)
    cases hm with
    | telling hp => cases hp
    | realized hp => cases hp
  | told hp done =>
    refine h.setLaunch hl rfl rfl (fun m hm => ?_) (fun m hm => ?_) (fun round hr => by cases hr)
      (fun f hf => by cases hf)
    · cases hm with
      | bears hm =>
        rw [hm.unique (.telling hp rfl)]
        exact .bears (.realized rfl)
      | felled hp' => simp [hp] at hp'
    · cases hm with
      | telling hp => cases hp
      | realized hp' =>
        cases hp'
        exact .telling hp rfl
  | felled hp ho dies message =>
    refine h.setLaunch hl rfl rfl (fun m hm => ?_) (fun m hm => ?_) (fun round hr => by cases hr)
      (fun f hf => by cases hf)
    · exact .felled rfl ((h.round hl hp).subset ho) dies
    · cases hm with
      | telling hp => cases hp
      | realized hp => cases hp

/-- A member lives on. -/
theorem setMember (h : Born ms ls) {m : Nat} {x x' : Member} (hx : ms[m]? = some x)
    (kept : x.Kept x') : Born (ms.setIfInBounds m x') ls where
  member {n y} hy := by
    rw [getElem?_replace hx] at hy
    split at hy
    · rename_i same
      cases hy
      rw [kept.launch, kept.spec, kept.observers, same]
      exact h.member hx
    · exact h.member hy
  launch {i n l} hl hn := by
    obtain ⟨y, hy, hlaunch⟩ := h.launch hl hn
    rw [getElem?_replace hx]
    split
    · rename_i same
      rw [same, hx] at hy
      cases hy
      exact ⟨x', rfl, kept.launch.trans hlaunch⟩
    · exact ⟨y, hy, hlaunch⟩
  round hl := h.round hl
  failure hl := h.failure hl

/-- A member is born of a launch that bore none. -/
theorem bear (h : Born ms ls) {i : Nat} {l : Launch} {x : Member} (hl : ls[i]? = some l)
    (none : ∀ m, ¬ l.Bore m) (launch : x.launch = i) (spec : x.spec = l.spec)
    (observers : x.observers = l.observers) :
    Born (ms.push x) (ls.setIfInBounds i
      { l with phase := .telling (.start .realized ms.size l.observers []) }) where
  member {m y} hy := by
    rw [Array.getElem?_push] at hy
    split at hy
    · rename_i last
      cases hy
      rw [launch, spec, observers]
      exact ⟨_, getElem?_replace_self hl _, rfl, rfl, .bears (.telling rfl last.symm)⟩
    · obtain ⟨z, hz, zspec, zobservers, zbore⟩ := h.member hy
      rw [getElem?_replace hl]
      split
      · rename_i same
        rw [same, hl] at hz
        cases hz
        exact absurd zbore (none m)
      · exact ⟨z, hz, zspec, zobservers, zbore⟩
  launch {j m y} hy hm := by
    rw [getElem?_replace hl] at hy
    split at hy
    · rename_i same
      cases hy
      cases hm with
      | telling hp member =>
        cases hp
        rw [← member, same]
        exact ⟨x, Array.getElem?_push_size, launch⟩
      | realized hp => cases hp
    · obtain ⟨z, hz, hlaunch⟩ := h.launch hy hm
      exact ⟨z, by rw [Array.getElem?_push_lt (lt_of_getElem?_eq_some hz), ← hz]; simp, hlaunch⟩
  round {j y r} hy hr := by
    rw [getElem?_replace hl] at hy
    split at hy
    · cases hy
      cases hr
      exact List.suffix_refl _
    · exact h.round hy hr
  failure {j y f} hy hf := by
    rw [getElem?_replace hl] at hy
    split at hy
    · cases hy
      cases hf
    · exact h.failure hy hf

/-- Launches are added of which nothing has happened yet. -/
theorem appendLaunches (h : Born ms ls) (new : Array Launch) (queued : ∀ l ∈ new, l.phase = .queued) :
    Born ms (ls ++ new) where
  member {m x} hx := by
    obtain ⟨l, hl, rest⟩ := h.member hx
    exact ⟨l, by rw [Array.getElem?_append_left (lt_of_getElem?_eq_some hl), hl], rest⟩
  launch {i m l} hl hm := by
    rw [Array.getElem?_append] at hl
    split at hl
    · exact h.launch hl hm
    · have phase := queued l (Array.mem_of_getElem? hl)
      cases hm with
      | telling hp => simp [phase] at hp
      | realized hp => simp [phase] at hp
  round {i l r} hl hr := by
    rw [Array.getElem?_append] at hl
    split at hl
    · exact h.round hl hr
    · simp [queued l (Array.mem_of_getElem? hl)] at hr
  failure {i l f} hl hf := by
    rw [Array.getElem?_append] at hl
    split at hl
    · exact h.failure hl hf
    · simp [queued l (Array.mem_of_getElem? hl)] at hf

/-- The member that came of a launch was built from what the launch launches. -/
theorem of_memberOf? (h : Born ms ls) {i m : Nat} (hm : Launches.memberOf? ls i = some m) :
    ∃ l x failures, ls[i]? = some l ∧ l.phase = .settled (.realized m failures) ∧ ms[m]? = some x ∧
      x.launch = i ∧ x.spec = l.spec := by
  obtain ⟨l, failures, hl, hp⟩ := Launches.memberOf?_eq_some.mp hm
  obtain ⟨x, hx, rfl⟩ := h.launch hl (.realized hp)
  obtain ⟨l', hl', spec, -⟩ := h.member hx
  cases hl.symm.trans hl'
  exact ⟨l, x, failures, hl, hp, hx, rfl, spec.symm⟩

end Born

variable {c c' : Core}

theorem LaunchMove.born {i : Nat} (move : c.LaunchMove i c') (h : Born c.members c.launches) :
    Born c'.members c'.launches := by
  have none : ∀ {i : Nat} {l : Launch}, c.launches[i]? = some l → (∀ round, l.phase ≠ .telling round) →
      (∀ o, l.phase ≠ .settled o) → ∀ m, ¬ l.Bore m := by
    intro i l hl telling settled m hm
    rcases hm.late with ⟨_, late⟩ | ⟨_, late⟩
    · exact telling _ late
    · exact settled _ late
  cases move with
  | wait hl hp hr hrun =>
    exact h.setPhase_early hl (none hl (by simp [hp]) (by simp [hp])) (by simp) (by simp)
  | pass hl hp hr hrun free due =>
    exact h.setPhase_early hl (none hl (by simp [hp]) (by simp [hp])) (by simp) (by simp)
  | ask hl hp due =>
    refine h.setPhase_early hl (none hl ?_ ?_) (by simp) (by simp)
    all_goals obtain hp | ⟨hp, -⟩ := hp <;> simp [hp]
  | handOut hl hp id process since =>
    exact h.bear hl (none hl (by simp [hp]) (by simp [hp])) rfl rfl rfl
  | tell hl hp same fewer =>
    refine h.setLaunch hl rfl rfl (fun m hm => ?_) (fun m hm => ?_) (fun round hr => ?_)
      (fun f hf => by cases hf)
    · cases hm with
      | bears hm => exact .bears (.telling rfl (same.trans (hm.unique (.telling hp rfl)).symm))
      | felled hp' => simp [hp] at hp'
    · cases hm with
      | telling hp' member =>
        cases hp'
        exact .telling hp (same.symm.trans member)
      | realized hp' => cases hp'
    · cases hr
      exact fewer.trans (h.round hl hp)
  | settle hl ends hr => exact h.settle hl ends
  | settleLast hl ends hr hrun empty => exact h.settle hl ends
  | settleNext hl ends hr hrun first other hn waits =>
    have hn' := fun l => (getElem?_replace_of_ne hl other l).trans hn
    exact (h.settle hl ends).setPhase_early (hn' _) (none hn (by simp [waits]) (by simp [waits]))
      (by simp) (by simp)

/-- **Births.** Every move keeps members and launches together. -/
theorem Born.move (h : Born c.members c.launches) (move : c.Move c') : Born c'.members c'.launches := by
  cases move with
  | stay => exact h
  | launch i move => exact move.born h
  | closing j move =>
    cases move with
    | skip | tell | stop | tellClosed | finish | fall => exact h
    | begin hk hx | mark hk hx => exact h.setMember hx ⟨rfl, rfl, rfl, rfl⟩
  | run r move => cases move <;> exact h
  | reaper r move => cases move <;> exact h
  | dissolution d move => cases move <;> exact h
  | outside move =>
    cases move with
    | cancel | close | dissolve => exact h
    | begin plan platform channel? id now cancelled =>
      refine h.appendLaunches _ fun l hl => ?_
      obtain ⟨spec, -, rfl⟩ := plan.mem_launches hl
      rfl
    | launch spec platform observers =>
      refine h.appendLaunches #[_] fun l hl => ?_
      rw [Array.mem_singleton.mp hl]

end Core

end Muster
