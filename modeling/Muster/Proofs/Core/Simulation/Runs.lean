import Muster.Proofs.Core.Simulation.Members

/-!
# Runs and reapers are deeds

* `World.holds`: whether the predicate of a run holds.
* **`World.enters_stepRun`**, **`World.enters_stepReaper`**: what runs and their reapers do is a deed.
-/

namespace Muster

namespace World

/-- Whether the predicate of a run holds when it is asked now. -/
def holds (w : World) (run : Run) : Bool :=
  (run.predicate.check (w.questions.getD run.predicate.id 0) w.now (w.views run.members)).holds

variable {w w' : World} {s : Core.Setting}

section Run

variable {r : Nat} {run : Run}

theorem setRun_setRun (c : Core) (r : Nat) (x y : Run) : (c.setRun r x).setRun r y = c.setRun r y := by
  unfold Core.setRun
  rw [Array.setIfInBounds_setIfInBounds]

theorem rollBack_setRun (c : Core) (r : Nat) (x y : Run) (cause : Run.Cause) :
    (c.setRun r x).rollBack r y cause = c.rollBack r y cause :=
  setRun_setRun (c.call y.members) r x _

theorem succeed_setRun (c : Core) (r : Nat) (x y : Run) :
    (c.setRun r x).succeed r y = c.succeed r y :=
  setRun_setRun (c.addAssembly y.assembly) r x _

theorem core_modifyRun_of {c : Core} (hc : w.core = c) (hr : c.runs[r]? = some run) (f : Run → Run) :
    (w.modifyRun r f).core = c.setRun r (f run) := by
  subst hc
  exact core_modifyRun hr f

theorem core_rollBack {c : Core} (hw : w.core = c) (hr : c.runs[r]? = some run) {x : Run}
    (same : x.members = run.members) (cause : Run.Cause) :
    (w.rollBack r x cause).core = c.rollBack r run cause := by
  subst hw
  unfold rollBack
  rw [callCloseAll_eq, same]
  exact core_modifyRun_of (c := w.core.call run.members) rfl hr _

theorem core_fail (hr : w.runs[r]? = some run) (x : Run) (e : AssemblyError) :
    (w.fail r x e).core = w.core.setRun r { run with phase := .finished (.error e) } := by
  unfold fail
  refine core_modifyRun_of ?_ hr _
  rw [core_announceRun, core_log]
  split
  · rw [core_logRollback, core_measure]
  · rw [core_measure]

theorem core_modifyRun_twice (hr : w.runs[r]? = some run) {f : Run → Run} {v : World}
    (hw : v.core = (w.modifyRun r f).core) (g : Run → Run) :
    (v.modifyRun r g).core = w.core.setRun r (g (f run)) := by
  rw [core_modifyRun hr] at hw
  rw [core_modifyRun_of hw (getElem?_replace_self hr _), setRun_setRun]

theorem core_succeed {c : Core} (hw : w.core = c) (hr : c.runs[r]? = some run) {x : Run}
    (same : x.assembly = run.assembly) : (w.succeed r x).core = c.succeed r run := by
  subst hw
  unfold succeed
  have announced : ∀ e : AssemblyEvent, (((w.measure "troupe_assemblies_stable_total").measure
      "troupe_assembly_convergence_seconds").announceRun x e).core = w.core := by
    intro e
    rw [core_announceRun, core_measure, core_measure]
  dsimp only
  generalize hw' : World.announceRun _ x _ = w'
  have hcore : w'.core = w.core := hw' ▸ announced _
  rw [show w'.assemblies.size = w.core.assemblies.size from congrArg (·.assemblies.size) hcore]
  refine core_modifyRun_of (c := w.core.addAssembly run.assembly) ?_ hr _
  rw [← same, ← hcore]
  rfl

theorem core_takeOutcome {i : Nat} {l : Launch} (hr : w.runs[r]? = some run)
    (hl : w.launches[i]? = some l) :
    (w.takeOutcome r i l).core = w.core.setRun r (run.take w.launches i) := by
  have spec : Launches.spec? w.launches i = some l.spec := by simp [Launches.spec?, hl]
  have ordinal : Launches.ordinal w.launches i = l.spec.ordinal := by simp [Launches.ordinal, spec]
  have name : Launches.name w.launches i = l.spec.name := by simp [Launches.name, spec]
  have outcome : Launches.outcome? w.launches i = l.outcome? := by simp [Launches.outcome?, hl]
  unfold takeOutcome Run.take Launches.memberOf? Launches.failureOf? Launches.reportsOf
  rw [outcome, ordinal, name]
  unfold Launch.outcome?
  dsimp only
  cases hp : l.phase with
  | settled o =>
    cases o with
    | realized m failures =>
      rw [core_modifyRun_twice hr (core_measure _ _)]
      simp
    | failed f =>
      unfold takeFailure
      rw [core_modifyRun_twice hr ((core_measure _ _).trans (core_log _ _ _))]
      simp
    | died message =>
      unfold takeFailure
      rw [core_modifyRun_twice hr ((core_measure _ _).trans (core_log _ _ _))]
      simp
  | _ =>
    rw [core_modifyRun hr]
    simp

theorem reaperMove_reap {i : Nat} {rest : List Nat} {l : Launch} (hr : w.runs[r]? = some run)
    (hp : run.reaper? = some {}) (hs : run.settled = i :: rest) (hl : w.launches[i]? = some l) :
    w.core.ReaperMove r (w.reap r i l).core := by
  have outcome : Launches.outcome? w.launches i = l.outcome? := by simp [Launches.outcome?, hl]
  unfold reap
  cases hphase : l.phase with
  | settled o =>
    cases o with
    | realized m failures =>
      have member : Launches.memberOf? w.launches i = some m := by
        simp [Launches.memberOf?, outcome, Launch.outcome?, hphase]
      have close := Core.ReaperMove.close (c := w.core) hr hp hs member
      exact (core_modifyRun_twice (f := fun run => run.hand i) (w := (w.callClose m).2)
        (v := ((w.modifyRun r fun run => run.hand i).callClose m).2) hr rfl _).symm ▸ close
    | _ =>
      rw [core_modifyRun hr]
      exact .drop hr hp hs (by simp [Launches.memberOf?, core, outcome, Launch.outcome?, hphase])
  | _ =>
    rw [core_modifyRun hr]
    exact .drop hr hp hs (by simp [Launches.memberOf?, core, outcome, Launch.outcome?, hphase])

theorem enters_stepReaper (w : World) (r : Nat) : w.Enters s (w.stepReaper r) := by
  unfold stepReaper
  split
  · exact .stay w
  rename_i run hr
  split
  · exact .stay w
  · rename_i j hp
    split
    · exact .stay w
    · rename_i o ho
      obtain ⟨k, hk, hko⟩ := Option.bind_eq_some_iff.mp ho
      have phase : k.phase = .finished o := by
        unfold Closing.outcome? at hko
        split at hko
        · rename_i hphase
          rw [hphase, Option.some.inj hko]
        · cases hko
      refine .silent ?_ (.reaper (r := r) ?_)
      · dsimp only
        rw [record_modifyRun]
        split
        · exact record_log w _ _
        · rfl
      · dsimp only
        rw [core_modifyRun_of (c := w.core) ?_ hr]
        · exact .done hr hp hk phase
        · split
          · exact core_log w _ _
          · rfl
  · rename_i hp
    split
    · rename_i i rest hs
      split
      · rename_i l hl
        exact .silent (record_reap w r i l) (.reaper (reaperMove_reap hr hp hs hl))
      · exact .stay w
    · exact .stay w

/-- A run goes on in silence. -/
theorem Enters.ofRun {c' : Core} (hr : w.runs[r]? = some run) (same : w'.record = w.record)
    (hc : w'.core = c') (move : w.core.RunMove r c') {run' : Run}
    (after : c'.runs = w.runs.setIfInBounds r run') (evaluations : run'.evaluations = run.evaluations)
    (goes : ∀ o, run'.phase ≠ .finished o) : w.Enters s w' := by
  subst hc
  refine .silent same (.run move fun x x' hx hx' => ?_)
  rw [after] at hx'
  obtain ⟨rfl, rfl⟩ := eq_of_replaced hx hr hx'
  exact ⟨evaluations, goes⟩

theorem enters_finishLaunching (hr : w.runs[r]? = some run) (hp : run.phase = .launching)
    (all : run.pending = []) : w.Enters s (w.finishLaunching r run) := by
  unfold finishLaunching
  split
  · rename_i failed
    have rolled := core_rollBack (core_log w .warn "Member realization failed; rolling back") hr rfl
      (.launch run.failures)
    have refuse : w.core.RunMove r _ := .refuse hr hp all fun h => by simp [h] at failed
    refine .ofRun hr ?_ rolled refuse rfl rfl fun o h => by cases h
    rw [record_rollBack, record_log]
  · rename_i fine
    have fine : run.failures = [] := by simpa using fine
    dsimp only
    split
    · rename_i none
      have none : run.members = [] := by
        have perm := List.mergeSort_perm run.members fun a b => decide (w.ordinalOf a ≤ w.ordinalOf b)
        rw [List.isEmpty_iff.mp none] at perm
        exact List.nil_perm.mp perm
      have asked : (w.modifyRun r fun x => { x with
          members := run.members.mergeSort fun a b => decide (w.ordinalOf a ≤ w.ordinalOf b)
          deadline := w.now + run.timeout.millis
          phase := .asking }).core =
          w.core.setRun r { run with deadline := w.now + run.timeout.millis, phase := .asking } := by
        rw [core_modifyRun hr, none, List.mergeSort_nil]
      obtain ⟨elapsed, time, record⟩ := record_succeed (w.modifyRun r fun x => { x with
          members := run.members.mergeSort fun a b => decide (w.ordinalOf a ≤ w.ordinalOf b)
          deadline := w.now + run.timeout.millis
          phase := .asking }) r run
      refine ⟨_, record, ?_⟩
      rw [core_succeed (x := run) asked (getElem?_replace_self hr _) rfl, succeed_setRun]
      exact .succeedEmpty (c := w.core) hr hp all fine none (w.now + run.timeout.millis) elapsed time
    · rename_i some
      have gathered := core_modifyRun hr fun x => { x with
        members := run.members.mergeSort fun a b => decide (w.ordinalOf a ≤ w.ordinalOf b)
        deadline := w.now + run.timeout.millis
        phase := .asking }
      have gather : w.core.RunMove r _ :=
        .gather hr hp all fine (fun h => some (by rw [h, List.mergeSort_nil]; rfl)) (w.now + run.timeout.millis)
      exact .ofRun hr rfl gathered gather rfl rfl fun o h => by cases h

theorem core_abandon (hr : w.runs[r]? = some run) (waits : run.pending ≠ []) (message : String)
    (cause : Run.Cause) : ((w.log .warn message).abandon r run cause).core =
      w.core.rollBack r { run with reaper? := some {} } cause := by
  unfold World.abandon
  rw [if_neg fun h => waits (List.isEmpty_iff.mp h)]
  refine (core_rollBack (core_modifyRun_of (core_log _ _ _) hr _) (getElem?_replace_self hr _) ?_
    cause).trans (rollBack_setRun _ _ _ _ _)
  rfl

theorem enters_abandon (hr : w.runs[r]? = some run) (hp : run.phase = .launching)
    (waits : run.pending ≠ []) (message : String) {cause : Run.Cause}
    (why : run.cancelled = true ∧ cause = .cancelled ∨
      run.cancelled = false ∧ cause = .launchTimeout (run.outstanding.map (·.2))) :
    w.Enters s ((w.log .warn message).abandon r run cause) := by
  have giveUp : w.core.RunMove r _ := .giveUp hr hp waits why
  refine .ofRun hr ?_ (core_abandon hr waits message cause) giveUp rfl rfl fun o h => by cases h
  rw [record_abandon, record_log]

theorem enters_stepLaunching (hr : w.runs[r]? = some run) (hp : run.phase = .launching) :
    w.Enters s (w.stepLaunching r run) := by
  unfold stepLaunching
  split
  · rename_i all
    exact enters_finishLaunching hr hp (List.isEmpty_iff.mp all)
  rename_i waits
  have waits : run.pending ≠ [] := fun h => waits (by rw [h]; rfl)
  split
  · rename_i gone
    exact enters_abandon hr hp waits _ (.inl ⟨gone, rfl⟩)
  rename_i goes
  have goes : run.cancelled = false := Bool.eq_false_iff.mpr goes
  split
  · exact enters_abandon hr hp waits _ (.inr ⟨goes, rfl⟩)
  split
  · rename_i i rest hs
    split
    · rename_i l hl
      have take : w.core.RunMove r _ := .take hr hp waits goes hs (Option.isSome_of_eq_some hl)
      refine .ofRun hr (record_takeOutcome w r i l) (core_takeOutcome hr hl) take rfl rfl fun o => ?_
      show run.phase ≠ _
      simp [hp]
    · exact .stay w
  · exact .stay w

theorem enters_stepAsking (holding : s.holds = w.holds) (hr : w.runs[r]? = some run)
    (hp : run.phase = .asking) : w.Enters s (w.stepAsking r run) := by
  unfold stepAsking
  split
  · rename_i gone
    have rolled := core_rollBack (core_log w .warn "Stability polling cancelled; rolling back") hr rfl
      .cancelled
    have dismiss : w.core.RunMove r _ := .dismiss hr hp gone
    refine .ofRun hr ?_ rolled dismiss rfl rfl fun o h => by cases h
    rw [record_rollBack, record_log]
  rename_i goes
  have goes : run.cancelled = false := Bool.eq_false_iff.mpr goes
  have hcore := core_ask w run.predicate run.members
  have record := record_ask w run.predicate run.members
  have verdict : (w.ask run.predicate run.members).1 = s.holds run := (congrFun holding run).symm
  dsimp only
  generalize w.ask run.predicate run.members = answer at hcore record verdict ⊢
  obtain ⟨stable, w'⟩ := answer
  dsimp only at hcore record verdict ⊢
  have asked := core_modifyRun_of hcore hr fun _ => { run with evaluations := run.evaluations + 1 }
  have hr' := getElem?_replace_self hr { run with evaluations := run.evaluations + 1 }
  let v := w'.modifyRun r fun _ => { run with evaluations := run.evaluations + 1 }
  have recorded : v.record = w.record ++ [.asked run.predicate.id run.members] := record
  split
  · rename_i holds
    obtain ⟨elapsed, time, succeeded⟩ := record_succeed v r { run with evaluations := run.evaluations + 1 }
    refine ⟨.ask run.predicate.id run.members ::
      run.announces (.stable run.id run.members.length (run.evaluations + 1) elapsed time), ?_, ?_⟩
    · rw [succeeded, recorded, List.append_assoc]
      rfl
    · rw [core_succeed asked hr' rfl, succeed_setRun]
      exact .succeed hr hp goes (verdict.symm.trans holds) elapsed time
  rename_i fails
  have fails : s.holds run = false := verdict ▸ Bool.eq_false_iff.mpr fails
  split
  · let u := v.log .warn ("Assembly " ++ ("not stable within " ++ run.timeout.shown) ++ "; rolling back")
    have degraded := record_announceRun u { run with evaluations := run.evaluations + 1 }
      (.degraded run.id ("not stable within " ++ run.timeout.shown) u.time)
    refine ⟨.ask run.predicate.id run.members ::
      run.announces (.degraded run.id ("not stable within " ++ run.timeout.shown) u.time), ?_, ?_⟩
    · rw [record_rollBack, degraded, record_log, recorded, List.append_assoc]
      rfl
    · rw [core_rollBack ((core_announceRun _ _ _).trans ((core_log _ _ _).trans asked)) hr' rfl,
        rollBack_setRun]
      exact .degrade hr hp goes fails _ _ _
  · refine ⟨[.ask run.predicate.id run.members], ?_, ?_⟩
    · rw [record_modifyRun]
      exact recorded
    · rw [core_modifyRun_of asked hr', setRun_setRun]
      exact .rest hr hp goes fails _

theorem enters_stepRun (holding : s.holds = w.holds) (r : Nat) : w.Enters s (w.stepRun r) := by
  unfold stepRun
  split
  · exact .stay w
  rename_i run hr
  split
  · rename_i hp
    exact enters_stepLaunching hr hp
  · rename_i cause places hp
    split
    · rename_i outcomes ho
      obtain ⟨time, record⟩ := record_fail w r run
        (errorOf run ((Teardown.ofOutcomes outcomes).after run.observerFailures) cause)
      refine ⟨_, record, ?_⟩
      rw [core_fail hr]
      exact .fail (c := w.core) hr hp ho rfl time
    · exact .stay w
  · rename_i hp
    exact enters_stepAsking holding hr hp
  · rename_i due hp
    have woken := core_modifyRun hr fun run => { run with phase := .asking }
    have wake : w.core.RunMove r _ := .wake hr hp
    exact .ofRun hr rfl woken wake rfl rfl fun o h => by cases h
  · exact .stay w

end Run

end World

end Muster
