import Muster.Proofs.Member.Lagging
import Muster.Proofs.Run.Order
import Muster.Proofs.World.Paths

/-!
# No process is left behind

* `Core.Sound.ended_of_failed`: once a run has given up and its reaper has nothing left to do, a call has ended for
  each member that came of its launches.
* `Core.Warranted.not_lags`: no such call lags where callers close only what they have in their hands.
* **`World.OpenSteps.no_process_left`**: when a run ends in an error its members are closed, and once its launches
  and its reaper have ended every process that was handed out for it was stopped, once, unless somebody else's call
  for the member lags.
-/

namespace Muster

theorem World.bridge_responds (channel : Nat) (assembly : Uuid) : (bridge channel assembly).Responds := by
  intro occasion member message dies
  cases dies

/-- The observers of a run of the plan respond when those that the plan names do. -/
theorem Plan.responds {plan : Plan} {channel? : Option Nat} {id : Uuid} {o : Observer}
    (observers : ∀ o ∈ plan.observers, o.Responds) (ho : o ∈ plan.observersOf channel? id) : o.Responds := by
  rcases List.mem_append.mp ho with ho | ho
  · exact observers o ho
  · rw [Option.mem_toList, Option.map_eq_some_iff] at ho
    obtain ⟨channel, -, rfl⟩ := ho
    exact World.bridge_responds channel id

/-- A reaper that has nothing left to do is at no member. -/
theorem Run.not_busy {run : Run} (idle : run.reaper? = none ∨ run.reaper? = some {} ∧ run.pending = []) (j : Nat) :
    run.reaper? ≠ some ⟨some j⟩ := by
  intro busy
  rcases idle with none | ⟨idle, -⟩
  · cases none.symm.trans busy
  · cases idle.symm.trans busy

/-- A call that a failed run lets close one of its members has ended, and so has one that it lets close another
member that came of its launches while its reaper is at none. -/
theorem Run.Allows.ended_of_failed {run : Run} {e : AssemblyError} {i j : Nat} {k : Closing} (allows : run.Allows i j k)
    (hp : run.phase = .finished (.error e))
    (released : k.member ∈ run.members ∨ ∀ j, run.reaper? ≠ some ⟨some j⟩) : ∃ o, k.phase = .finished o := by
  cases allows with
  | handed hp' | rolling hp' => cases hp.symm.trans hp'
  | rolled _ _ ended | reaped _ _ _ ended => exact ⟨_, ended⟩
  | reaping busy away => exact absurd busy (released.resolve_left away _)

namespace Core

variable {c : Core} {r m : Nat} {run : Run} {e : AssemblyError}

/-- A call has ended for what came of the launches of a run that has given up, once its reaper has nothing left to
do. -/
theorem Sound.ended_of_failed (h : c.Sound) (hr : c.runs[r]? = some run)
    (hp : run.phase = .finished (.error e))
    (idle : run.reaper? = none ∨ run.reaper? = some {} ∧ run.pending = []) {i : Nat}
    (hi : i ∈ Launches.ofRun c.launches r) (him : Launches.memberOf? c.launches i = some m) :
    Ended c.closings m := by
  by_cases hm : m ∈ run.members
  · exact h.called.rolled hr hp hm
  · have late : i ∉ run.pending := by
      rcases idle with none | ⟨-, empty⟩
      · obtain ⟨taken, left, ledger⟩ := h.booked r run hr
        have left := (ledger.stands.failed hp).1 none
        intro pending
        exact absurd (left ▸ ledger.pending.subset pending) List.not_mem_nil
      · rw [empty]
        exact List.not_mem_nil
    rcases h.called.reaped hi hr him late hm with ended | ⟨j, busy, -⟩
    · exact ended
    · exact absurd busy (Run.not_busy idle j)

/-- No call lags for what came of the launches of a failed run where callers close only what they have in their
hands. -/
theorem Warranted.not_lags (warranted : c.Warranted) {x : Member} {l : Launch} (hx : c.members[m]? = some x)
    (hl : c.launches[x.launch]? = some l) (hlr : l.run? = some r) (hr : c.runs[r]? = some run)
    (hp : run.phase = .finished (.error e)) (released : m ∈ run.members ∨ ∀ j, run.reaper? ≠ some ⟨some j⟩) :
    ¬ Lags c.closings c.stopped m := by
  rintro ⟨j, k, hk, rfl, lags⟩
  obtain ⟨o, ho⟩ := (warranted.allows hk hx hl hlr hr).ended_of_failed hp released
  simp [ho] at lags

/-- A launch that has ended produced the member for which it was handed a process, when none of its
observers took it down. -/
theorem Sound.memberOf?_of_ended (h : c.Sound) {x : Member} {l : Launch} {o : Launch.Outcome}
    (hx : c.members[m]? = some x) (hl : c.launches[x.launch]? = some l) (hp : l.phase = .settled o)
    (responds : ∀ o ∈ l.observers, o.Responds) : Launches.memberOf? c.launches x.launch = some m := by
  obtain ⟨l', hl', -, -, bore⟩ := h.born.member hx
  cases hl.symm.trans hl'
  cases bore with
  | bears bears =>
    cases bears with
    | telling hp' => cases hp.symm.trans hp'
    | realized hp' => exact Launches.memberOf?_eq_some.mpr ⟨l, _, hl, hp'⟩
  | felled _ ho dies => exact absurd (responds _ ho) dies

end Core

namespace World

variable {w₀ w : World} {plan : Plan} {platform : Nat} {channel? : Option Nat} {cancelled : Bool}

theorem readyFrom_ne_ended (w : World) (due : Nat) : w.readyFrom due ≠ .ended := by
  unfold readyFrom
  split <;> exact Readiness.noConfusion

/-- A launch that cannot go on any more has an outcome. -/
theorem settled_of_ended {i : Nat} {l : Launch} (hl : w.launches[i]? = some l)
    (ended : w.readiness (.launch i) = .ended) : ∃ o, l.phase = .settled o := by
  dsimp only [readiness] at ended
  rw [hl, Option.map_some, Option.getD_some] at ended
  unfold launchReadiness at ended
  cases hp : l.phase with
  | settled o => exact ⟨o, rfl⟩
  | queued | granted | waiting => simp [hp] at ended
  | realizing due =>
    rw [hp] at ended
    exact absurd ended (w.readyFrom_ne_ended due)
  | telling round =>
    rw [hp] at ended
    dsimp only [roundReadiness] at ended
    split at ended
    · cases ended
    · exact absurd ended (w.readyFrom_ne_ended _)

/-- A reaper that cannot go on any more closes nothing, and waits for nothing. -/
theorem idle_of_ended {r : Nat} {run : Run} (hr : w.runs[r]? = some run)
    (ended : w.readiness (.reaper r) = .ended) :
    run.reaper? = none ∨ run.reaper? = some {} ∧ run.pending = [] := by
  dsimp only [readiness] at ended
  rw [hr, Option.map_some, Option.getD_some] at ended
  unfold reaperReadiness at ended
  split at ended
  · rename_i none
    exact .inl none
  · split at ended <;> cases ended
  · rename_i idle
    split at ended
    · cases ended
    · split at ended
      · rename_i empty
        exact .inr ⟨idle, List.isEmpty_iff.mp empty⟩
      · cases ended

/-- Nothing of a run goes on any more: its launches have ended, and so has its reaper. -/
structure Over (w : World) (r : Nat) : Prop where
  launches : ∀ {i : Nat} {l : Launch}, w.launches[i]? = some l → l.run? = some r →
    w.readiness (.launch i) = .ended
  reaper : w.readiness (.reaper r) = .ended

/-- **No process is left behind.** When a run has ended in an error each member that it had is closed, unless some
call lags that somebody else has made for it; and once its launches and its reaper have ended, every member for which
a platform handed out a process is closed, and the platform was asked once to stop its process, unless some call for
it lags. No call lags where members are closed only by those who have them in their hands. -/
theorem OpenSteps.no_process_left (h₀ : OpenReachable w₀)
    (h : OpenSteps (w₀.begin plan platform channel? cancelled).2 w)
    (observers : ∀ o ∈ plan.observers, o.Responds)
    (schemas : ∀ s ∈ plan.members, ∀ o ∈ s.schema.observers, o.Responds) {run : Run}
    (hr : w.runs[(w₀.begin plan platform channel? cancelled).1]? = some run) {e : AssemblyError}
    (failed : run.phase = .finished (.error e)) :
    ((∀ m ∈ run.members, w.isClosed m ↔ ¬ Core.Lags w.closings w.stopped m) ∧
      (w.Over (w₀.begin plan platform channel? cancelled).1 →
        ∀ (m : Nat) (x : Member) (l : Launch), w.members[m]? = some x → w.launches[x.launch]? = some l →
          l.run? = some (w₀.begin plan platform channel? cancelled).1 →
            (x.state = .closed ∧ w.stops m = 1 ↔ ¬ Core.Lags w.closings w.stopped m))) ∧
    (Reachable w₀ → Steps (w₀.begin plan platform channel? cancelled).2 w →
      (∀ m ∈ run.members, w.isClosed m) ∧
      (w.Over (w₀.begin plan platform channel? cancelled).1 →
        ∀ (m : Nat) (x : Member) (l : Launch), w.members[m]? = some x → w.launches[x.launch]? = some l →
          l.run? = some (w₀.begin plan platform channel? cancelled).1 → x.state = .closed ∧ w.stops m = 1)) := by
  obtain ⟨sound, builds⟩ := h.builds h₀
  have rolled {m : Nat} (hm : m ∈ run.members) : w.isClosed m ↔ ¬ Core.Lags w.closings w.stopped m := by
    obtain ⟨x, hx⟩ := exists_getElem? (sound.lt_of_run hr hm)
    exact (isClosed_iff hx).trans (sound.closed_iff hx (sound.called.rolled hr failed hm))
  have gone (still : w.Over (w₀.begin plan platform channel? cancelled).1) {m : Nat} {x : Member} {l : Launch}
      (hx : w.members[m]? = some x) (hl : w.launches[x.launch]? = some l)
      (hlr : l.run? = some (w₀.begin plan platform channel? cancelled).1) :
      x.state = .closed ∧ w.stops m = 1 ↔ ¬ Core.Lags w.closings w.stopped m := by
    have hi : x.launch ∈ Launches.ofRun w.core.launches _ := Launches.mem_ofRun.mpr ⟨l, hl, hlr⟩
    obtain ⟨o, hp⟩ := settled_of_ended hl (still.launches hl hlr)
    have responds : ∀ o ∈ l.observers, o.Responds := by
      intro o ho
      rw [builds.observers hl hlr] at ho
      rcases List.mem_append.mp ho with ho | ho
      · refine schemas l.spec ?_ o ho
        exact (Launches.mem_specs builds.specs).mpr ⟨x.launch, hi, Launches.spec?_of_getElem? hl⟩
      · exact Plan.responds observers ho
    have him := sound.memberOf?_of_ended hx hl hp responds
    exact sound.gone_iff hx (sound.ended_of_failed hr failed (idle_of_ended hr still.reaper) hi him)
  refine ⟨⟨fun m => rolled, fun still m x l => gone still⟩, fun h₀ h => ?_⟩
  have warranted := (h.reachable h₀).warranted
  refine ⟨fun m hm => (rolled hm).mpr ?_, fun still m x l hx hl hlr => (gone still hx hl hlr).mpr ?_⟩
  · obtain ⟨i, l, x, -, hl, hlr, -, hx, rfl, -⟩ := sound.launch_of_member hr hm
    exact warranted.not_lags hx hl hlr hr failed (.inl hm)
  · exact warranted.not_lags hx hl hlr hr failed (.inr (Run.not_busy (idle_of_ended hr still.reaper)))

/-- The caller gives up when the first of two members is there; the second comes later, and all is over. -/
def late : World :=
  (((opened (.custom {} [])).goes [.launch 0, .launch 0, .launch 0, .run 0]).cancel 0).goes
    [.run 0, .closing 0, .closing 0, .closing 0, .closing 0, .run 0, .launch 1, .launch 1, .launch 1,
      .reaper 0, .closing 1, .closing 1, .closing 1, .closing 1, .reaper 0]

theorem steps_late : Steps ((stage (.custom {} [])).begin .pair 0 none false).2 late := by
  rw [begin_pair]
  exact ((Steps.goes (by decide +kernel)).tail (.cancel 0)).trans (Steps.goes (by decide +kernel))

theorem late_over : late.Over 0 where
  launches {i l} hl _ := by
    have size : late.launches.size = 2 := by decide +kernel
    have ended : ∀ i < 2, late.readiness (.launch i) = .ended := by decide +kernel
    exact ended i (size ▸ lt_of_getElem?_eq_some hl)
  reaper := by decide +kernel

set_option maxRecDepth 4000 in
/-- The member that was there is closed, and so is the one that came too late. -/
theorem no_process_left_late : late.isClosed 0 ∧
    ∀ (m : Nat) (x : Member), late.members[m]? = some x → x.state = .closed ∧ late.stops m = 1 := by
  have there : late.runs[0]?.map (fun run => (run.phase, run.members)) =
      some (.finished (.error (.cancelled { closed := 1 })), [0]) := rfl
  obtain ⟨run, hr, same⟩ := Option.map_eq_some_iff.mp there
  obtain ⟨failed, members⟩ := Prod.mk.injEq .. ▸ same
  have own : ∀ l ∈ late.launches.toList, l.run? = some 0 := by decide +kernel
  obtain ⟨-, held⟩ := OpenSteps.no_process_left (reachable_stage _).opened steps_late.opened
    (fun o ho => absurd ho List.not_mem_nil) Plan.pair_observers hr failed
  obtain ⟨rolled, reaped⟩ := held (reachable_stage _) steps_late
  refine ⟨rolled 0 (members ▸ List.mem_singleton_self 0), fun m x hx => ?_⟩
  obtain ⟨l, hl⟩ := (steps_late.reachable (reachable_stage _)).launch_of_member hx
  exact reaped late_over m x l hx hl (own l (Array.mem_toList_iff.mpr (Array.mem_of_getElem? hl)))

/-! ### A predicate that gives a member away -/

/-- A platform that takes some time to stop the first of two members. -/
def reluctant : Platform := .custom {} [("worker-1", { stopDelay := 300 })]

/-- Two members that are never stable, and must be within a tenth of a second. -/
def unsettled : Plan :=
  { Plan.pair with options := (Options.withPredicate ∅ (.never 1)).timed (.ofMillis 100) (.ofMillis 100) }

theorem begin_unsettled : ((stage reluctant).begin unsettled 0 none false).2 =
    openedFor reluctant (.ofMillis 100) (.ofMillis 100) (.never 1) := by
  have all : (Options.withPredicate ∅ (.never 1)).parallelismOf? = none := by
    rw [Options.parallelismOf?_withPredicate, Options.parallelismOf?_empty]
  refine (begin_pair_timed _ (.ofMillis 100) (.ofMillis 100) all).trans ?_
  rw [Options.predicateOf_withPredicate]

/-- Both members were launched. -/
def unsettledLaunched : World :=
  (openedFor reluctant (.ofMillis 100) (.ofMillis 100) (.never 1)).goes
    [.launch 0, .launch 0, .launch 0, .launch 1, .launch 1, .launch 1, .run 0, .run 0]

/-- The predicate is about to be asked. -/
def unsettledGathered : World :=
  unsettledLaunched.modifyRun 0 fun run =>
    { run with members := [0, 1], deadline := unsettledLaunched.now + run.timeout.millis, phase := .asking }

/-- The predicate was asked, has answered, and has somebody close the first member that it was shown. -/
def betrayed : World := ((unsettledGathered.advance (.run 0)).callClose 0).2.goes [.closing 0, .closing 0]

/-- The time is up, and the run has ended in an error; the process of the first member is still being stopped. -/
def forsaken : World :=
  betrayed.later 100 [.run 0, .run 0, .closing 1, .closing 2, .closing 2, .closing 2, .closing 2, .run 0]

theorem steps_forsaken : OpenSteps ((stage reluctant).begin unsettled 0 none false).2 forsaken := by
  rw [begin_unsettled]
  have gathered : Steps (openedFor reluctant (.ofMillis 100) (.ofMillis 100) (.never 1)) unsettledGathered :=
    (Steps.goes (by decide +kernel)).tail
      (.gather rfl (List.cons_ne_nil 0 [1]) (.refl [0, 1]) (by decide +kernel) (by decide +kernel))
  have asked : Steps _ (unsettledGathered.advance (.run 0)) :=
    gathered.tail (.advance (.run 0) (by decide +kernel))
  have given : OpenSteps _ betrayed :=
    (asked.opened.tail (.close 0 (by decide +kernel))).trans (Steps.goes (by decide +kernel)).opened
  have waited : Steps betrayed forsaken := .head (.pass 100) (Steps.goes (by decide +kernel))
  exact given.trans waited.opened

set_option maxRecDepth 4000 in
/-- A run may end in an error while one of its members is not closed: the predicate had somebody close it, and the run
has not waited for that call. -/
theorem not_closed_forsaken :
    ¬ ∀ (w₀ w : World) (plan : Plan) (run : Run) (e : AssemblyError) (m : Nat), OpenReachable w₀ →
      OpenSteps (w₀.begin plan 0 none false).2 w → (plan.members.map (·.ordinal)).Nodup →
      (∀ o ∈ plan.observers, o.Responds) → (∀ s ∈ plan.members, ∀ o ∈ s.schema.observers, o.Responds) →
      w.runs[(w₀.begin plan 0 none false).1]? = some run → run.phase = .finished (.error e) →
      m ∈ run.members → w.isClosed m := by
  intro all
  have there : forsaken.runs[0]?.map (fun run => run.members) = some [0, 1] := rfl
  have failed : forsaken.runs[0]?.bind (·.outcome?.map fun
      | .error _ => true
      | .ok _ => false) = some true := by decide +kernel
  obtain ⟨run, hr, members⟩ := Option.map_eq_some_iff.mp there
  rw [hr, Option.bind_some] at failed
  obtain ⟨o, ho, error⟩ := Option.map_eq_some_iff.mp failed
  cases o with
  | ok a => cases error
  | error e =>
    have closed := all _ forsaken unsettled run e 0 (reachable_stage _).opened steps_forsaken Plan.pair_distinct
      (fun o ho => absurd ho List.not_mem_nil) Plan.pair_observers hr (Run.outcome?_eq_some.mp ho)
      (members ▸ List.mem_cons_self)
    have closing : forsaken.isClosed 0 = false := by decide +kernel
    rw [closing] at closed
    cases closed

end World

end Muster
