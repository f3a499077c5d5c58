import Muster.Proofs.Core.Simulation.Runs

/-!
# Steps are deeds

* `World.setting`: the setting of a step.
* `World.StepWithin`: steps in which nobody closes any but certain members, or announces any but certain
  events.
* `World.Step.within`, `World.OpenStep.within`: which members callers close in steps, and in open steps.
* **`World.StepWithin.deed`**: every step is a deed within what is allowed to it.
-/

namespace Muster

namespace World

/-- The setting of a step in which callers close certain members only. -/
def setting (w : World) (closes : Nat → Prop) : Core.Setting where
  holds := w.holds
  closes
  announces _ := True

variable {w w' : World} {s : Core.Setting}

/-! ### Calls that close assemblies -/

section Dissolution

variable {d : Nat} {x : Dissolution} {a : Assembly}

theorem core_setDissolutionPhase_of {c : Core} (hc : w.core = c) (hd : c.dissolutions[d]? = some x)
    (p : Dissolution.Phase) :
    (w.setDissolutionPhase d p).core = c.setDissolution d { x with phase := p } := by
  subst hc
  exact core_setDissolutionPhase hd p

theorem dissolutionMove_begin (hd : w.dissolutions[d]? = some x)
    (ha : w.assemblies[x.assembly]? = some a) (hp : x.phase = .called) :
    w.core.DissolutionMove d (w.beginDissolution d x.assembly a).core := by
  unfold beginDissolution
  split
  · rename_i begun
    rw [core_setDissolutionPhase hd]
    exact .skip hd ha hp begun
  · rename_i fresh
    dsimp only
    rw [callCloseAll_eq]
    rw [core_setDissolutionPhase_of (c := (w.core.setAssembly x.assembly
      { a with closeStarted := true }).call a.members) _ hd]
    · exact .begin hd ha hp (Bool.eq_false_iff.mpr fresh)
    · rw [← core_modifyAssembly ha fun a => { a with closeStarted := true }]
      rfl

theorem core_finishDissolution (hd : w.dissolutions[d]? = some x)
    (ha : w.assemblies[x.assembly]? = some a) (t : Teardown) :
    ∃ o : Except Teardown Teardown, (o = if t.closeFailures.isEmpty then .ok t else .error t) ∧
      (w.finishDissolution d x.assembly a t).core =
        (w.core.setAssembly x.assembly { a with state := .closed }).setDissolution d
          { x with phase := .finished o } := by
  refine ⟨_, rfl, ?_⟩
  have ending : ∀ w' : World, w'.core = w.core.setAssembly x.assembly { a with state := .closed } →
      (if t.closeFailures.isEmpty then w'.setDissolutionPhase d (.finished (.ok t))
        else (w'.log .warn ("Assembly closed with errors: " ++ t.summary)).setDissolutionPhase d
          (.finished (.error t))).core = (w.core.setAssembly x.assembly
            { a with state := .closed }).setDissolution d { x with
              phase := .finished (if t.closeFailures.isEmpty then .ok t else .error t) } := by
    intro w' hcore
    split
    · exact core_setDissolutionPhase_of hcore hd _
    · exact core_setDissolutionPhase_of ((core_log _ _ _).trans hcore) hd _
  have closed := core_modifyAssembly ha fun a => { a with state := .closed }
  unfold finishDissolution
  refine ending _ ?_
  split
  · exact (core_announce _ _ _).trans closed
  · exact closed

theorem enters_stepDissolution (w : World) (d : Nat) : w.Enters s (w.stepDissolution d) := by
  unfold stepDissolution
  split
  · exact .stay w
  rename_i x hd
  split
  · rename_i a ha hp
    refine .silent ?_ (.dissolution (dissolutionMove_begin hd ha hp) ?_)
    · unfold beginDissolution
      split
      · rfl
      · exact record_callCloseAll (w.modifyAssembly x.assembly _) a.members
    · rw [show w.core.dissolutions[d]? = some x from hd, Option.map_some, hp]
  · rename_i a places ha hp
    split
    · rename_i outcomes ho
      obtain ⟨time, record⟩ := record_finishDissolution w d x.assembly a (Teardown.ofOutcomes outcomes)
      obtain ⟨o, he, finished⟩ := core_finishDissolution hd ha (Teardown.ofOutcomes outcomes)
      exact ⟨_, record, finished ▸ .dissolved (c := w.core) hd ha hp ho he time⟩
    · exact .stay w
  · exact .stay w

end Dissolution

/-! ### Callers -/

/-- The members of a plan are queued in order, behind the launches that are there. -/
theorem queueLaunches_eq (w : World) (platform run : Nat) (observers : List Observer)
    (specs : List MemberSpec) :
    w.queueLaunches platform run observers specs =
      (List.range' w.launches.size specs.length,
        { w with launches := w.launches ++ (specs.map fun spec => ({
            spec, platform, observers := spec.schema.observers ++ observers, run? := some run } :
              Launch)).toArray }) := by
  induction specs generalizing w with
  | nil => simp [queueLaunches]
  | cons spec specs ih =>
    simp only [queueLaunches, ih]
    simp [List.range'_succ]

theorem core_begin (w : World) (plan : Plan) (platform : Nat) (channel? : Option Nat)
    (cancelled : Bool) :
    (w.begin plan platform channel? cancelled).2.core =
      w.core.begin plan platform channel? w.freshId.1 w.now cancelled := by
  unfold World.begin beginWith
  dsimp only
  generalize hw' : World.announceRun _ _ _ = w'
  have hcore : w'.core = w.core := by rw [← hw', core_announceRun]; rfl
  have hlaunches : w'.launches = w.launches := congrArg Core.launches hcore
  have hruns : w'.runs = w.runs := congrArg Core.runs hcore
  rw [queueLaunches_eq]
  dsimp only
  rw [hlaunches, hruns]
  let run := plan.run w.freshId.1 channel? w.now cancelled []
  have hr : (w.runs.push run)[w.runs.size]? = some run := Array.getElem?_push_size
  refine (core_modifyRun_of (c := { w.core with
    runs := w.runs.push (plan.run w.freshId.1 channel? w.now cancelled [])
    launches := w.launches ++ (plan.launches platform w.runs.size
      (plan.observersOf channel? w.freshId.1)).toArray }) ?_ hr _).trans ?_
  · rw [← hcore]
    rfl
  · unfold Core.setRun Core.begin
    dsimp only
    rw [show w.core.runs = w.runs from rfl, setIfInBounds_push_size]
    rfl

/-- The run that begins stands behind all others. -/
theorem run_begin (w : World) (plan : Plan) (platform : Nat) (channel? : Option Nat) (cancelled : Bool) :
    (w.begin plan platform channel? cancelled).2.runs[(w.begin plan platform channel? cancelled).1]? =
      some (plan.run w.freshId.1 channel? w.now cancelled
        (List.range' w.launches.size plan.members.length)) := by
  show (w.begin plan platform channel? cancelled).2.core.runs[w.core.runs.size]? = _
  rw [core_begin]
  exact Array.getElem?_push_size

theorem core_cancel_of_none {r : Nat} (hr : w.runs[r]? = none) : (w.cancel r).core = w.core := by
  unfold World.cancel modifyRun
  rw [modify_eq_self hr]

/-- What a strand that goes on enters in the record, and what it does to the core of a world, is a deed. -/
theorem enters_advance (lined : Core.Lined w.launches w.runs) (holding : s.holds = w.holds) (t : Strand) :
    w.Enters s (w.advance t) := by
  cases t with
  | launch i => exact enters_stepLaunch lined i
  | closing j => exact enters_stepClosing w j
  | run r => exact enters_stepRun holding r
  | reaper r => exact enters_stepReaper w r
  | dissolution d => exact enters_stepDissolution w d

/-- A step in which nobody closes any but certain members, nor announces any but certain events. -/
inductive StepWithin (closes : Nat → Prop) (announces : Event → Prop) (w : World) : World → Prop where
  /-- A strand goes on. -/
  | advance (t : Strand) (ready : w.readiness t = .ready) : StepWithin closes announces w (w.advance t)
  /-- Time passes. -/
  | pass (ms : Nat) : StepWithin closes announces w { w with now := w.now + ms }
  /-- The caller of a run gives up. -/
  | cancel (r : Nat) : StepWithin closes announces w (w.cancel r)
  /-- A run begins. -/
  | begin (plan : Plan) (platform : Nat) (channel? : Option Nat) (cancelled : Bool) :
    StepWithin closes announces w (w.begin plan platform channel? cancelled).2
  /-- A launch of its own begins. -/
  | launch (spec : MemberSpec) (platform : Nat) (observers : List Observer) :
    StepWithin closes announces w (w.callLaunch spec platform observers).2
  /-- Somebody closes a member. -/
  | close (m : Nat) (there : m < w.members.size) (may : closes m) :
    StepWithin closes announces w (w.callClose m).2
  /-- Somebody closes an assembly. -/
  | dissolve (a : Nat) (known : a < w.assemblies.size) : StepWithin closes announces w (w.callDissolve a).2
  /-- Somebody asks whether an assembly is stable. -/
  | ask (a : Assembly) (held : a ∈ w.assemblies) : StepWithin closes announces w (w.isStable a).2
  /-- Somebody announces an event. -/
  | announce (channel : Nat) (e : Event) (may : announces e) :
    StepWithin closes announces w (w.announce channel e)
  /-- A platform comes along. -/
  | platform (p : Platform) : StepWithin closes announces w { w with platforms := w.platforms.push p }
  /-- A channel comes along. -/
  | channel (c : Channel) : StepWithin closes announces w { w with channels := w.channels.push c }

theorem StepWithin.mono {closes closes' : Nat → Prop} {announces announces' : Event → Prop}
    (h : StepWithin closes announces w w') (hc : ∀ m, closes m → closes' m)
    (ha : ∀ e, announces e → announces' e) : StepWithin closes' announces' w w' := by
  cases h with
  | advance t ready => exact .advance t ready
  | pass ms => exact .pass ms
  | cancel r => exact .cancel r
  | begin plan platform channel? cancelled => exact .begin plan platform channel? cancelled
  | launch spec platform observers => exact .launch spec platform observers
  | close m there may => exact .close m there (hc m may)
  | dissolve a known => exact .dissolve a known
  | ask a held => exact .ask a held
  | announce channel e may => exact .announce channel e (ha e may)
  | platform p => exact .platform p
  | channel c => exact .channel c

/-- A step in which callers close what they have in their hands. -/
theorem StepWithin.step {announces : Event → Prop} (h : StepWithin w.Held announces w w') : Step w w' := by
  cases h with
  | advance t ready => exact .advance t ready
  | pass ms => exact .pass ms
  | cancel r => exact .cancel r
  | begin plan platform channel? cancelled => exact .begin plan platform channel? cancelled
  | launch spec platform observers => exact .launch spec platform observers
  | close m _ held => exact .close m held
  | dissolve a known => exact .dissolve a known
  | ask a held => exact .ask a held
  | announce channel e => exact .announce channel e
  | platform p => exact .platform p
  | channel c => exact .channel c

/-- In every step callers close only what they have in their hands. -/
theorem Step.within (h : Step w w') (there : ∀ {m : Nat}, w.Held m → m < w.members.size) :
    StepWithin w.Held (fun _ => True) w w' := by
  cases h with
  | advance t ready => exact .advance t ready
  | pass ms => exact .pass ms
  | cancel r => exact .cancel r
  | begin plan platform channel? cancelled => exact .begin plan platform channel? cancelled
  | launch spec platform observers => exact .launch spec platform observers
  | close m held => exact .close m (there held) held
  | dissolve a known => exact .dissolve a known
  | ask a held => exact .ask a held
  | announce channel e => exact .announce channel e trivial
  | platform p => exact .platform p
  | channel c => exact .channel c

/-- **Steps are deeds.** What a step enters in the record, and what it does to the core of a world, is a
deed. -/
theorem StepWithin.deed (h : StepWithin s.closes s.announces w w') (lined : Core.Lined w.launches w.runs)
    (holding : s.holds = w.holds) : w.Enters s w' := by
  cases h with
  | advance t => exact enters_advance lined holding t
  | pass ms => exact .silent rfl .stay
  | cancel r =>
    cases hr : w.runs[r]? with
    | none => exact .silent rfl (core_cancel_of_none hr ▸ .stay)
    | some run =>
      refine .silent rfl ?_
      unfold World.cancel
      rw [core_modifyRun hr]
      exact .outside (.cancel hr) Array.size_setIfInBounds rfl
  | begin plan platform channel? cancelled =>
    obtain ⟨time, record⟩ := record_begin w plan platform channel? cancelled
    refine ⟨_, record, ?_⟩
    rw [core_begin]
    exact .begin plan platform channel? _ _ cancelled time
  | launch spec platform observers => exact .silent rfl (.outside (.launch spec platform observers) rfl rfl)
  | close m there may => exact .silent rfl (.close there may)
  | dissolve a known => exact .silent rfl (.outside (.dissolve known) rfl rfl)
  | ask a held =>
    unfold isStable
    split
    · exact .stay w
    · split
      · exact .stay w
      · rename_i some
        refine ⟨[.ask a.predicate.id a.members], record_ask w a.predicate a.members, ?_⟩
        rw [core_ask]
        exact .ask held fun none => some (List.isEmpty_iff.mpr none)
  | announce channel e may =>
    refine ⟨[.announce channel e], record_announce w channel e, ?_⟩
    rw [core_announce]
    exact .announce channel e may
  | platform p => exact .silent rfl .stay
  | channel c => exact .silent rfl .stay

/-- In an open step anybody closes members. -/
theorem OpenStep.within (h : OpenStep w w') (there : ∀ {m : Nat}, w.Held m → m < w.members.size) :
    StepWithin (fun _ => True) (fun _ => True) w w' := by
  cases h with
  | step h => exact (h.within there).mono (fun _ _ => trivial) fun _ => id
  | close m known => exact .close m known trivial

end World

end Muster
