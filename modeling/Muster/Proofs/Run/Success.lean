import Muster.Proofs.Run.Order
import Muster.Proofs.Run.Tally

/-!
# All or nothing

* `Core.Warranted.fresh`: while a run is at work nobody has begun to close its members.
* `Core.Born.built`, `Ledger.fulfilled`: when nothing is left and nothing has failed, there is a member for
  each launch.
* **`World.Steps.all_or_nothing`**: a run ends in an assembly only with one member for each of its plan, in
  the order of their places, each of them as it was realized, and with no launch outstanding.
-/

namespace Muster

namespace World

variable (w : World)

/-- There is a member that was built from a specification. -/
def BuiltFrom (m : Nat) (spec : MemberSpec) : Prop := ∃ x, w.members[m]? = some x ∧ x.spec = spec

/-- Nobody has begun to close a member. -/
def Untouched (m : Nat) : Prop := ∃ x, w.members[m]? = some x ∧ x.state = .realized ∧ w.stops m = 0

/-- Members are those of a plan, each once, in the order of their places. -/
def Fulfils (members : List Nat) (plan : Plan) : Prop :=
  ∃ specs : List MemberSpec, specs.Perm plan.members ∧ specs.Pairwise (·.ordinal < ·.ordinal) ∧
    List.Forall₂ w.BuiltFrom members specs

end World

namespace Core

variable {c c' : Core} {r : Nat} {run run' : Run}

/-- While a run is at work nobody has begun to close its members. -/
theorem Warranted.fresh (warranted : c.Warranted) (h : c.Sound) (hr : c.runs[r]? = some run)
    (hp : run.phase = .launching ∨ run.phase = .asking ∨ ∃ due, run.phase = .resting due) {m : Nat}
    (hm : m ∈ run.members) : ∃ x, c.members[m]? = some x ∧ Fresh c.closings c.stopped m x := by
  obtain ⟨i, l, x, failures, hl, hlr, -, hx, rfl, -⟩ := h.launch_of_member hr hm
  refine ⟨x, hx, ?_⟩
  rcases h.lives.life hx with fresh | ⟨j, way⟩
  · exact fresh
  · obtain ⟨k, hk, rfl, -⟩ := way.works
    obtain ⟨taken, left, ledger⟩ := h.booked r run hr
    exact absurd (warranted.allows hk hx hl hlr hr) (Run.Allows.not_of_working ledger.stands hp)

/-- A run ends in an assembly only when it is at work, and then it holds the run's members. -/
theorem Move.succeed_cases (move : c.Move c') (hr : c.runs[r]? = some run)
    (hr' : c'.runs[r]? = some run') (unfinished : ∀ o, run.phase ≠ .finished o) {a : Nat}
    (hp' : run'.phase = .finished (.ok a)) :
    (run.phase = .launching ∨ run.phase = .asking) ∧ run'.members = run.members ∧
      c'.members = c.members ∧ c'.stopped = c.stopped ∧
      ∃ x, c'.assemblies[a]? = some x ∧ x.members = run'.members := by
  rcases move.run_cases hr hr' with same | move | move
  · exact absurd (same.phase.symm.trans hp') (unfinished _)
  · cases move with
    | succeedEmpty hs hp | succeed hs hp =>
      obtain ⟨rfl, rfl⟩ := eq_of_replaced hr hs hr'
      cases hp'
      exact ⟨by simp [hp], rfl, rfl, rfl, _, Array.getElem?_push_size, rfl⟩
    | take hs hp =>
      obtain ⟨rfl, rfl⟩ := eq_of_replaced hr hs hr'
      exact absurd hp' (unfinished _)
    | giveUp hs | refuse hs | gather hs | dismiss hs | degrade hs | rest hs | wake hs | fail hs =>
      cases (getElem?_replace_self hs _).symm.trans hr'
      cases hp'
  · obtain ⟨phase, -⟩ := move.stays hr hr'
    exact absurd (phase.symm.trans hp') (unfinished _)

end Core

/-- A run that has gathered its members has left no launch out, and none has failed. -/
theorem Run.Stands.gathered {run : Run} {left : List Nat} (h : run.Stands left) (gathered : run.Gathered) :
    left = [] ∧ run.failures = [] ∧ run.reaper? = none := by
  cases gathered with
  | asking hp => exact h.asking (.inl hp)
  | resting hp => exact h.asking (.inr ⟨_, hp⟩)
  | succeeded hp => exact h.succeeded hp

/-- Of launches that each produced a member came members built from what they launch. -/
theorem Core.Born.built {ms : Array Member} {ls : Array Launch} (born : Born ms ls) {is : List Nat}
    {specs : List MemberSpec} (launched : is.map (Launches.spec? ls) = specs.map some)
    (known : ∀ i ∈ is, ∃ m, Launches.memberOf? ls i = some m) :
    List.Forall₂ (fun m s => ∃ x, ms[m]? = some x ∧ x.spec = s) (is.filterMap (Launches.memberOf? ls))
      specs := by
  induction is generalizing specs with
  | nil =>
    cases specs with
    | nil => exact .nil
    | cons s specs => cases launched
  | cons i is ih =>
    cases specs with
    | nil => cases launched
    | cons s specs =>
      rw [List.map_cons, List.map_cons, List.cons.injEq] at launched
      obtain ⟨own, launched⟩ := launched
      obtain ⟨m, hm⟩ := known i List.mem_cons_self
      obtain ⟨l, x, failures, hl, -, hx, -, spec⟩ := born.of_memberOf? hm
      rw [Launches.spec?_of_getElem? hl, Option.some.injEq] at own
      rw [List.filterMap_cons_some hm]
      exact .cons ⟨x, hx, spec.trans own⟩ (ih launched fun j hj => known j (List.mem_cons_of_mem i hj))

namespace Ledger

variable {ms : Array Member} {ls : Array Launch} {r : Nat} {run : Run} {taken left : List Nat}

/-- When nothing has failed, a member came of each launch of which a run took note. -/
theorem exists_memberOf? (h : Ledger ls r run taken left) (fine : run.failures = []) {i : Nat}
    (hi : i ∈ taken) : ∃ m ∈ run.members, Launches.memberOf? ls i = some m := by
  rcases Launches.ended_cases (h.ended i hi) with ⟨m, hm, -⟩ | ⟨f, -, hf⟩
  · exact ⟨m, h.members.mem_iff.mpr (List.mem_filterMap.mpr ⟨i, hi, hm⟩), hm⟩
  · have := List.mem_filterMap.mpr ⟨i, hi, hf⟩
    rw [← h.failures, fine] at this
    exact absurd this List.not_mem_nil

/-- When nothing is left and nothing has failed, the members are those that the launches launch. -/
theorem fulfilled (h : Ledger ls r run taken []) (born : Core.Born ms ls) (fine : run.failures = [])
    {specs : List MemberSpec} (hof : (Launches.ofRun ls r).map (Launches.spec? ls) = specs.map some) :
    ∃ own : List MemberSpec, own.Perm specs ∧
      List.Forall₂ (fun m s => ∃ x, ms[m]? = some x ∧ x.spec = s) run.members own := by
  obtain ⟨noted, hnoted⟩ : ∃ noted : List MemberSpec, taken.map (Launches.spec? ls) = noted.map some :=
    Launches.exists_specs fun i hi => Launches.lt_of_mem_ofRun (h.mem_ofRun (.inl hi))
  have all : noted.Perm specs := by
    refine (List.map_perm_map_iff (fun _ _ => Option.some.inj)).mp ?_
    rw [← hnoted, ← hof]
    exact h.taken_perm_ofRun.map _
  have built := born.built hnoted fun i hi => by
    obtain ⟨m, -, hm⟩ := h.exists_memberOf? fine hi
    exact ⟨m, hm⟩
  -- the members stand in another order than the launches
  obtain ⟨own, built, same⟩ := List.perm_comp_forall₂ h.members built
  exact ⟨own, same.trans all, built⟩

end Ledger

namespace Core

variable {c : Core} {r : Nat} {run : Run} {plan : Plan} {observers : List Observer}

/-- The members that a run has gathered are those of its plan. -/
theorem Sound.complete (h : c.Sound) (ordered : c.Ordered) (builds : c.Builds r plan observers)
    (distinct : (plan.members.map (·.ordinal)).Nodup) (hr : c.runs[r]? = some run)
    (gathered : run.Gathered) :
    ∃ specs : List MemberSpec, specs.Perm plan.members ∧ specs.Pairwise (·.ordinal < ·.ordinal) ∧
      List.Forall₂ (fun m s => ∃ x, c.members[m]? = some x ∧ x.spec = s) run.members specs := by
  obtain ⟨taken, left, ledger⟩ := h.booked r run hr
  obtain ⟨rfl, fine, -⟩ := ledger.stands.gathered gathered
  obtain ⟨specs, all, built⟩ := ledger.fulfilled h.born fine builds.specs
  refine ⟨specs, all, ?_, built⟩
  have places : run.members.map (Members.ordinal c.members) = specs.map (·.ordinal) := by
    rw [← List.forall₂_eq_eq_eq, List.forall₂_map_left_iff, List.forall₂_map_right_iff]
    refine built.imp fun m s ⟨x, hx, spec⟩ => ?_
    unfold Members.ordinal
    rw [hx, Option.map_some, Option.getD_some, spec]
  have sorted : (specs.map (·.ordinal)).Pairwise (· ≤ ·) := by
    rw [← places, List.pairwise_map]
    exact ordered hr gathered
  have apart : (specs.map (·.ordinal)).Pairwise (· ≠ ·) := (all.map _).nodup_iff.mpr distinct
  exact List.pairwise_map.mp (sorted.imp₂ (fun _ _ le ne => Nat.lt_of_le_of_ne le ne) apart)

/-- A launch of a run that has gathered its members ended in one of them. -/
theorem Sound.collected (h : c.Sound) (hr : c.runs[r]? = some run) (gathered : run.Gathered) {i : Nat}
    {l : Launch} (hl : c.launches[i]? = some l) (own : l.run? = some r) :
    ∃ m ∈ run.members, ∃ failures, l.phase = .settled (.realized m failures) := by
  obtain ⟨taken, left, ledger⟩ := h.booked r run hr
  obtain ⟨rfl, fine, -⟩ := ledger.stands.gathered gathered
  have hi := ledger.taken_perm_ofRun.mem_iff.mpr (Launches.mem_ofRun.mpr ⟨l, hl, own⟩)
  obtain ⟨m, hm, him⟩ := ledger.exists_memberOf? fine hi
  obtain ⟨l', failures, hl', hp⟩ := Launches.memberOf?_eq_some.mp him
  cases hl.symm.trans hl'
  exact ⟨m, hm, failures, hp⟩

/-- The members of a run that has succeeded are those of its plan. -/
theorem Sound.fulfilled (h : c.Sound) (ordered : c.Ordered) (builds : c.Builds r plan observers)
    (distinct : (plan.members.map (·.ordinal)).Nodup) (hr : c.runs[r]? = some run) {a : Nat}
    (hp : run.phase = .finished (.ok a)) :
    ∃ specs : List MemberSpec, specs.Perm plan.members ∧ specs.Pairwise (·.ordinal < ·.ordinal) ∧
      List.Forall₂ (fun m s => ∃ x, c.members[m]? = some x ∧ x.spec = s) run.members specs :=
  h.complete ordered builds distinct hr (.succeeded hp)

end Core

namespace World

variable {w₀ w w' : World} {plan : Plan} {platform : Nat} {channel? : Option Nat} {cancelled : Bool}

/-- **All or nothing.** When a run ends in an assembly, the assembly holds one member for each of the plan
and no other, in the order of their places, and nobody has begun to close any of them; no launch is
outstanding, and all of them have ended in members of the assembly. -/
theorem Steps.all_or_nothing (h₀ : Reachable w₀) (h : Steps (w₀.begin plan platform channel? cancelled).2 w)
    (distinct : (plan.members.map (·.ordinal)).Nodup) (step : Step w w') {run run' : Run}
    (hr : w.runs[(w₀.begin plan platform channel? cancelled).1]? = some run)
    (hr' : w'.runs[(w₀.begin plan platform channel? cancelled).1]? = some run')
    (unfinished : ∀ o, run.phase ≠ .finished o) {a : Nat} (ok : run'.phase = .finished (.ok a)) :
    ∃ x, w'.assemblies[a]? = some x ∧ w'.Fulfils x.members plan ∧ (∀ m ∈ x.members, w'.Untouched m) ∧
      run'.pending = [] ∧ ∀ (i : Nat) (l : Launch), w'.launches[i]? = some l →
        l.run? = some (w₀.begin plan platform channel? cancelled).1 →
          ∃ m ∈ x.members, ∃ failures, l.phase = .settled (.realized m failures) := by
  obtain ⟨sound, builds⟩ := h.builds h₀
  have move := step.move sound
  have sound' := sound.move move
  have reachable : Reachable w' := (h.reachable h₀).tail step
  obtain ⟨hp, members, hmembers, hstopped, x, hx, hxm⟩ := move.succeed_cases hr hr' unfinished ok
  obtain ⟨taken, left, ledger⟩ := sound'.booked _ run' hr'
  obtain ⟨rfl, fine, -⟩ := ledger.stands.succeeded ok
  refine ⟨x, hx, ?_, fun m hm => ?_, List.sublist_nil.mp ledger.pending, fun i l hl hlr => ?_⟩
  · rw [hxm]
    exact sound'.fulfilled reachable.ordered (builds.move move) distinct hr' ok
  · rw [hxm, members] at hm
    obtain ⟨y, hy, fresh⟩ := (h.reachable h₀).warranted.fresh sound hr (hp.imp_right .inl) hm
    refine ⟨y, ?_, fresh.state, ?_⟩
    · rw [← hy]
      exact congrArg (·[m]?) hmembers
    · rw [← fresh.stops]
      exact congrArg (·.count m) hstopped
  · have hi := ledger.taken_perm_ofRun.mem_iff.mpr (Launches.mem_ofRun.mpr ⟨l, hl, hlr⟩)
    obtain ⟨m, hm, him⟩ := ledger.exists_memberOf? fine hi
    obtain ⟨l', failures, hl', hp'⟩ := Launches.memberOf?_eq_some.mp him
    cases hl.symm.trans hl'
    exact ⟨m, hxm ▸ hm, failures, hp'⟩

/-- Two members were launched, the second before the first. -/
def crossed : World :=
  (opened (.custom {} [])).goes
    [.launch 1, .launch 1, .launch 1, .launch 0, .launch 0, .launch 0, .run 0, .run 0]

/-- The members were gathered, and the predicate is about to be asked. -/
def gathered : World :=
  crossed.modifyRun 0 fun run =>
    { run with members := [1, 0], deadline := crossed.now + run.timeout.millis, phase := .asking }

theorem steps_gathered : Steps ((stage (.custom {} [])).begin .pair 0 none false).2 gathered := by
  have launched : Steps (opened (.custom {} [])) crossed := Steps.goes (by decide +kernel)
  rw [begin_pair]
  exact launched.tail (.gather rfl (List.cons_ne_nil 1 [0]) (.swap 0 1 []) (by decide +kernel)
    (by decide +kernel))

/-- The predicate was asked, and the members are an assembly. -/
def stable : World := gathered.advance (.run 0)

theorem step_stable : Step gathered stable := .advance (.run 0) (by decide +kernel)

theorem reachable_stable : Reachable stable := (steps_gathered.reachable (reachable_stage _)).tail step_stable

set_option maxRecDepth 4000 in
/-- The members stand in the order of the plan, not in that of their launches. -/
theorem all_or_nothing_stable : ∃ x, stable.assemblies[0]? = some x ∧ x.members = [1, 0] ∧
    stable.Fulfils x.members .pair ∧ ∀ m ∈ x.members, stable.Untouched m := by
  have before : gathered.runs[0]?.map (·.phase) = some .asking := rfl
  have after : stable.runs[0]?.map (·.phase) = some (.finished (.ok 0)) := rfl
  have members : stable.assemblies[0]?.map (·.members) = some [1, 0] := by decide +kernel
  obtain ⟨run, hr, hp⟩ := Option.map_eq_some_iff.mp before
  obtain ⟨run', hr', hp'⟩ := Option.map_eq_some_iff.mp after
  obtain ⟨x, hx, fulfils, untouched, -⟩ := Steps.all_or_nothing (reachable_stage _) steps_gathered
    Plan.pair_distinct step_stable hr hr' (fun o ho => by cases hp.symm.trans ho) hp'
  rw [hx, Option.map_some, Option.some.injEq] at members
  exact ⟨x, hx, members, fulfils, untouched⟩

end World

end Muster
