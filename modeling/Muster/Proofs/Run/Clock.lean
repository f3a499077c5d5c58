import Muster.Proofs.Run.Polling
import Muster.Proofs.Run.Shown
import Muster.Proofs.World.Instants

/-!
# When a run asks

* `Run.Dial`: what a run goes by when it waits.
* **`World.Step.shows`**: what a view shows of a run changes only when the run itself goes on, unless it shows
  what others change; `World.Step.dial`: so only the run itself sets its dial.
* `Run.Ticks`, **`World.Step.ticks`**: how a run sets its dial when it goes on.
-/

namespace Muster

/-- What a run goes by when it waits. -/
structure Run.Dial where
  /-- The phase of the run. -/
  phase : Run.Phase
  /-- When the present phase is over. -/
  deadline : Nat
  /-- How often the predicate was asked. -/
  evaluations : Nat
  /-- The bound on each phase. -/
  timeout : Duration
  /-- The time between two questions. -/
  pollInterval : Duration

/-- What a run goes by when it waits. -/
def Run.dial (run : Run) : Run.Dial :=
  ⟨run.phase, run.deadline, run.evaluations, run.timeout, run.pollInterval⟩

theorem Run.blind_dial : Run.Blind Run.dial :=
  ⟨fun _ _ => rfl, fun _ _ => rfl, fun _ _ => rfl, fun _ _ _ => rfl, fun _ _ => rfl, fun _ => rfl⟩

namespace World

/-- What the run at a place goes by when it waits. -/
def dial? (w : World) (r : Nat) : Option Run.Dial := w.runs[r]?.map Run.dial

end World

/-! ### How a run sets its dial -/

/-- How a run sets its dial when it goes on. -/
inductive Run.Ticks (w w' : World) (run run' : Run) : Prop where
  /-- It has gathered its members, and is about to ask: from now on the time counts. -/
  | gathers (hp : run.phase = .launching) (now : w'.now = w.now)
    (dial : run'.dial = { run.dial with phase := .asking, deadline := w.now + run.timeout.millis })
  /-- There was nothing to launch. -/
  | succeedsEmpty {a deadline : Nat} (hp : run.phase = .launching)
    (dial : run'.dial = { run.dial with phase := .finished (.ok a), deadline })
  /-- It gives up before the time is up: launches did, or its caller has given up. -/
  | leaves {cause : Run.Cause} {places : List Nat} (why : ∀ seen, cause ≠ .unstable seen)
    (hp : run.phase = .launching ∨ run.phase = .asking ∧ run.cancelled = true)
    (dial : run'.dial = { run.dial with phase := .rollingBack cause places })
  /-- It asks, and the predicate holds. -/
  | holds {a : Nat} (hp : run.phase = .asking)
    (dial : run'.dial = { run.dial with phase := .finished (.ok a), evaluations := run.evaluations + 1 })
  /-- It asks, the predicate does not hold, and the time is up. -/
  | degrades {places : List Nat} (hp : run.phase = .asking) (goes : run.cancelled = false)
    (late : run.deadline ≤ w.now) (dial : run'.dial = { run.dial with
      phase := .rollingBack (.unstable (w.sightings run.members)) places
      evaluations := run.evaluations + 1 })
  /-- It asks, the predicate does not hold yet, and there is time left. -/
  | rests (hp : run.phase = .asking) (goes : run.cancelled = false) (early : w.now < run.deadline)
    (dial : run'.dial = { run.dial with
      phase := .resting (min (w.now + run.pollInterval.millis) run.deadline)
      evaluations := run.evaluations + 1 })
  /-- It is about to ask again. -/
  | wakes {due : Nat} (hp : run.phase = .resting due) (now : w'.now = w.now)
    (dial : run'.dial = { run.dial with phase := .asking })
  /-- All its members are closed. -/
  | fails {cause : Run.Cause} {places : List Nat} {t : Teardown} (hp : run.phase = .rollingBack cause places)
    (dial : run'.dial = { run.dial with phase := .finished (.error (World.errorOf run t cause)) })

/-- A run goes by the same bounds whenever it sets its dial. -/
theorem Run.Ticks.lasts {w w' : World} {run run' : Run} (ticks : run.Ticks w w' run') :
    run'.timeout = run.timeout ∧ run'.pollInterval = run.pollInterval := by
  cases ticks with
  | gathers _ _ dial | succeedsEmpty _ dial | leaves _ _ dial | holds _ dial | degrades _ _ _ dial
  | rests _ _ _ dial | wakes _ _ dial | fails _ dial =>
    exact ⟨congrArg Dial.timeout dial, congrArg Dial.pollInterval dial⟩

/-- A run that sets its dial has launched its members, or has given up on that. -/
theorem Run.Ticks.launched {w w' : World} {run run' : Run} (ticks : run.Ticks w w' run') :
    run'.phase ≠ .launching := by
  intro hp
  cases ticks with
  | gathers _ _ dial | succeedsEmpty _ dial | leaves _ _ dial | holds _ dial | degrades _ _ _ dial
  | rests _ _ _ dial | wakes _ _ dial | fails _ dial =>
    cases hp.symm.trans (congrArg Dial.phase dial)

namespace World

variable {w w' : World} {r : Nat} {run : Run}

/-- A run goes on, and its caller does not give up meanwhile; no other run changes. -/
def Sets (w : World) (r : Nat) (run : Run) (w' : World) (how : Run → Prop) : Prop :=
  ∃ run', w'.runs = w.runs.setIfInBounds r run' ∧ run'.cancelled = run.cancelled ∧ how run'

theorem Sets.of_core {run' : Run} {c : Core} {how : Run → Prop} (hw : w'.core = c)
    (set : c.runs = w.runs.setIfInBounds r run') (goes : run'.cancelled = run.cancelled) (here : how run') :
    w.Sets r run w' how :=
  ⟨run', (congrArg Core.runs hw).trans set, goes, here⟩

theorem Sets.imp {how how' : Run → Prop} (h : w.Sets r run w' how) (weaker : ∀ run', how run' → how' run') :
    w.Sets r run w' how' := by
  obtain ⟨run', set, goes, here⟩ := h
  exact ⟨run', set, goes, weaker run' here⟩

/-- A run goes on, and its dial may change. -/
def MaySet (w : World) (r : Nat) (run : Run) (w' : World) : Prop :=
  w.Sets r run w' fun run' => run'.dial = run.dial ∨ run.Ticks w w' run'

theorem MaySet.stay (hr : w.runs[r]? = some run) : w.MaySet r run w :=
  ⟨run, (setIfInBounds_eq_self hr).symm, rfl, .inl rfl⟩

theorem sightings_of_members {u : World} (same : u.members = w.members) (ms : List Nat) :
    u.sightings ms = w.sightings ms := by
  unfold sightings views view?
  rw [same]

theorem sets_finishLaunching (hr : w.runs[r]? = some run) (hp : run.phase = .launching) :
    w.Sets r run (w.finishLaunching r run) (run.Ticks w (w.finishLaunching r run)) := by
  unfold finishLaunching
  split
  · have rolled := core_rollBack (core_log w .warn "Member realization failed; rolling back") hr rfl
      (.launch run.failures)
    exact .of_core rolled rfl rfl (.leaves (fun _ => Run.Cause.noConfusion) (.inl hp) rfl)
  · have gathered := core_modifyRun hr fun x => { x with
      members := run.members.mergeSort fun a b => decide (w.ordinalOf a ≤ w.ordinalOf b)
      deadline := w.now + run.timeout.millis
      phase := .asking }
    dsimp only
    split
    · rename_i none
      have none : run.members = [] := by
        have perm := List.mergeSort_perm run.members fun a b => decide (w.ordinalOf a ≤ w.ordinalOf b)
        rw [List.isEmpty_iff.mp none] at perm
        exact List.nil_perm.mp perm
      have same : run.assembly = { run with
          members := run.members.mergeSort fun a b => decide (w.ordinalOf a ≤ w.ordinalOf b)
          deadline := w.now + run.timeout.millis
          phase := .asking }.assembly := by
        unfold Run.assembly
        rw [none, List.mergeSort_nil]
      have succeeded := core_succeed gathered (getElem?_replace_self hr _) same
      rw [succeed_setRun] at succeeded
      exact .of_core succeeded rfl rfl (.succeedsEmpty hp rfl)
    · exact .of_core gathered rfl rfl (.gathers hp rfl rfl)

theorem sets_stepAsking (hr : w.runs[r]? = some run) (hp : run.phase = .asking) :
    w.Sets r run (w.stepAsking r run) (run.Ticks w (w.stepAsking r run)) := by
  unfold stepAsking
  split
  · rename_i gone
    have rolled := core_rollBack (core_log w .warn "Stability polling cancelled; rolling back") hr rfl
      .cancelled
    exact .of_core rolled rfl rfl (.leaves (fun _ => Run.Cause.noConfusion) (.inr ⟨hp, gone⟩) rfl)
  rename_i goes
  have goes : run.cancelled = false := Bool.eq_false_iff.mpr goes
  have hcore := core_ask w run.predicate run.members
  have now := now_ask w run.predicate run.members
  dsimp only
  generalize w.ask run.predicate run.members = answer at hcore now ⊢
  obtain ⟨stable, w'⟩ := answer
  dsimp only at hcore now ⊢
  have asked := core_modifyRun_of hcore hr fun _ => { run with evaluations := run.evaluations + 1 }
  have hr' := getElem?_replace_self hr { run with evaluations := run.evaluations + 1 }
  split
  · have succeeded := core_succeed asked hr' rfl
    rw [succeed_setRun] at succeeded
    exact .of_core succeeded rfl rfl (.holds hp rfl)
  split
  · rename_i late
    generalize degraded : announceRun _ _ _ = u
    have hu : u.core = w.core.setRun r { run with evaluations := run.evaluations + 1 } := by
      rw [← degraded, core_announceRun, core_log, asked]
    have seen : u.sightings run.members = w.sightings run.members :=
      sightings_of_members (congrArg Core.members hu) _
    have rolled := core_rollBack hu hr' rfl (.unstable (u.sightings run.members))
    rw [rollBack_setRun, seen] at rolled
    rw [seen]
    refine .of_core rolled rfl rfl (.degrades hp goes ?_ rfl)
    rw [← now]
    exact late
  · rename_i early
    have rested := core_modifyRun_of asked hr' fun x => { x with
      phase := .resting (min (w'.now + run.pollInterval.millis) run.deadline) }
    rw [setRun_setRun] at rested
    refine .of_core rested rfl rfl (.rests hp goes (Nat.lt_of_not_le ?_) ?_)
    · rw [← now]
      exact early
    · rw [← now]
      rfl

theorem sets_stepLaunching (hr : w.runs[r]? = some run) (hp : run.phase = .launching) :
    w.MaySet r run (w.stepLaunching r run) := by
  unfold stepLaunching
  split
  · exact (sets_finishLaunching hr hp).imp fun _ => .inr
  rename_i waits
  have waits : run.pending ≠ [] := fun h => waits (by rw [h]; rfl)
  have abandoned (message : String) {cause : Run.Cause} (why : ∀ seen, cause ≠ .unstable seen) :
      w.MaySet r run ((w.log .warn message).abandon r run cause) :=
    .of_core (core_abandon hr waits message cause) rfl rfl (.inr (.leaves why (.inl hp) rfl))
  split
  · exact abandoned _ fun _ => Run.Cause.noConfusion
  split
  · exact abandoned _ fun _ => Run.Cause.noConfusion
  split
  · split
    · rename_i l hl
      exact .of_core (core_takeOutcome hr hl) rfl rfl (.inl rfl)
    · exact .stay hr
  · exact .stay hr

/-- **Going on.** A run that goes on may set its dial, and no other run changes. -/
theorem sets_stepRun (hr : w.runs[r]? = some run) : w.MaySet r run (w.stepRun r) := by
  unfold stepRun
  rw [hr]
  dsimp only
  split
  · rename_i hp
    exact sets_stepLaunching hr hp
  · rename_i hp
    split
    · exact .of_core (core_fail hr run _) rfl rfl (.inr (.fails hp rfl))
    · exact .stay hr
  · rename_i hp
    exact (sets_stepAsking hr hp).imp fun _ => .inr
  · rename_i due hp
    exact .of_core (core_modifyRun hr _) rfl rfl (.inr (.wakes hp rfl rfl))
  · exact .stay hr

theorem runs_stepRun_of_ne (w : World) {s : Nat} (other : r ≠ s) : (w.stepRun s).runs[r]? = w.runs[r]? := by
  cases hs : w.runs[s]? with
  | none =>
    unfold stepRun
    rw [hs]
  | some run =>
    obtain ⟨run', set, -, -⟩ := sets_stepRun hs
    rw [set, getElem?_replace_of_ne hs other]

/-- **Views.** What a view shows of a run changes only when the run itself is ready and goes on, unless it
shows what others change. -/
theorem Step.shows {α : Type} {view : Run → α} (blind : Run.Blind view) (step : Step w w')
    (there : r < w.runs.size) : w'.runs[r]?.map view = w.runs[r]?.map view ∨
      w.readiness (.run r) = .ready ∧ w' = w.stepRun r := by
  cases step with
  | advance t ready =>
    cases t with
    | launch i => exact .inl (shown_stepLaunch blind w i r)
    | closing j => exact .inl (by rw [show (w.advance (.closing j)).runs = w.runs from runs_stepClosing w j])
    | run s =>
      by_cases other : r = s
      · subst other
        exact .inr ⟨ready, rfl⟩
      · exact .inl (congrArg (Option.map view) (runs_stepRun_of_ne w other))
    | reaper s => exact .inl (shown_stepReaper blind w s r)
    | dissolution d =>
      exact .inl (by rw [show (w.advance (.dissolution d)).runs = w.runs from runs_stepDissolution w d])
  | cancel s => exact .inl (shown_modifyRun w s r blind.cancelled)
  | begin plan platform channel? cancelled =>
    have begun : (w.begin plan platform channel? cancelled).2.runs = w.runs.push _ :=
      congrArg Core.runs (core_begin w plan platform channel? cancelled)
    rw [begun, Array.getElem?_push_lt there, Array.getElem?_eq_getElem there]
    exact .inl rfl
  | ask a =>
    refine .inl ?_
    unfold isStable
    split
    · rfl
    · split
      · rfl
      · exact congrArg (fun c : Core => c.runs[r]?.map view) (core_ask w a.predicate a.members)
  | pass | launch | close | dissolve | announce | platform | channel => exact .inl rfl

/-- **Dials.** Only a run itself sets its dial, when it is ready to go on. -/
theorem Step.dial (step : Step w w') (there : r < w.runs.size) :
    w'.dial? r = w.dial? r ∨ w.readiness (.run r) = .ready ∧ w' = w.stepRun r :=
  step.shows Run.blind_dial there

/-- How a step sets the dial of a run. -/
theorem Step.ticks (step : Step w w') (hr : w.runs[r]? = some run) {run' : Run}
    (hr' : w'.runs[r]? = some run') : run'.dial = run.dial ∨
      run.Ticks w w' run' ∧ w.readiness (.run r) = .ready := by
  rcases step.dial (lt_of_getElem?_eq_some hr) with same | ⟨ready, rfl⟩
  · unfold dial? at same
    rw [hr, hr'] at same
    exact .inl (Option.some.inj same)
  · obtain ⟨x, set, -, sets⟩ := sets_stepRun hr
    rw [set, getElem?_replace_self hr] at hr'
    cases hr'
    exact sets.imp id fun ticks => ⟨ticks, ready⟩

end World

end Muster
