import Muster.Proofs.Run.Reports

/-!
# What becomes of launches, whatever their order

* `Fate`: how a launch has ended, whoever took note of it; `World.fates`: what a run launched, and the fates.
* `Plan.told`, `Plan.unstopped?`, `Fate.failure?`: what observers report, which process cannot be stopped and
  what is noted as a failure, told from what was launched and its fate.
* `World.failureOf?_fated`: what is noted as a failure is told from the fates of launches.
* **`World.Reachable.rollback_fates`**: in some order, a rollback tells what is told from them.
-/

namespace Muster

/-- How a launch has ended. -/
inductive Fate where
  /-- In a member; the platform's answer when it is asked to stop its process. -/
  | runs (stopError? : Option PlatformError)
  /-- No member came of it, for a reason. -/
  | fails (reason : String)
  /-- It was taken down, with a message. -/
  | falls (message : String)
deriving DecidableEq, Repr

/-- What a launch was to launch, and how it has ended. -/
abbrev Fated := Option MemberSpec × Option Fate

namespace World

/-- How the launch at a place has ended, if it has. -/
def fate? (w : World) (i : Nat) : Option Fate :=
  match Launches.outcome? w.launches i with
  | some (.realized m _) => w.members[m]?.map fun x => .runs x.process.stopError?
  | some (.failed f) => some (.fails f.reason)
  | some (.died message) => some (.falls message)
  | none => none

/-- What the launch at a place was to launch, and how it has ended. -/
def fated (w : World) (i : Nat) : Fated := (Launches.spec? w.launches i, w.fate? i)

/-- What a run launched, in the order of its plan, and how this has ended. -/
def fates (w : World) (r : Nat) : List Fated := (Launches.ofRun w.launches r).map w.fated

end World

/-! ### What there is to tell of a fate -/

namespace Plan

variable (plan : Plan)

/-- What observers report on an occasion in the life of a member of a plan. -/
def reports (occasion : Occasion) (spec : MemberSpec) : List ObserverFailure :=
  Observer.reports (spec.schema.observers ++ plan.observers) occasion spec.seat

/-- What observers report on an occasion, if there is a member. -/
def told (occasion : Occasion) : Fated → List ObserverFailure
  | (some spec, some (.runs _)) => plan.reports occasion spec
  | _ => []

/-- Why the process of a member cannot be stopped, if there is one. -/
def unstopped? : Fated → Option CloseFailure
  | (some spec, some (.runs (some cause))) =>
    some ⟨spec.name, cause, plan.reports .closing spec ++ plan.reports .closed spec⟩
  | _ => none

end Plan

/-- What is noted as a failure of the launch at a place, if no member came of it. -/
def Fate.failure? (i : Nat) : Fated → Option LaunchFailure
  | (some spec, some (.fails reason)) => some ⟨spec.name, spec.ordinal, reason⟩
  | (some spec, some (.falls message)) =>
    some ⟨spec.name, spec.ordinal, "realization task failed: " ++ World.deathOf i message⟩
  | _ => none

/-- The observer that announces the members of a run reports nothing. -/
theorem Observer.reports_observersOf (plan : Plan) (channel? : Option Nat) (id : Uuid) (spec : MemberSpec)
    (occasion : Occasion) : Observer.reports (spec.schema.observers ++ plan.observersOf channel? id) occasion
      spec.seat = plan.reports occasion spec := by
  have silent : (channel?.map fun c => World.bridge c id).toList.filterMap (·.report? occasion spec.seat) = [] := by
    cases channel? <;> rfl
  unfold Observer.reports Plan.observersOf Plan.reports Observer.reports
  rw [← List.append_assoc, List.filterMap_append, silent, List.append_nil]

namespace World

variable {w : World} {r : Nat} {run : Run} {plan : Plan} {channel? : Option Nat} {id : Uuid}

section Launches

variable {i : Nat}

/-- A member that came of a launch of a run was built from what the run launched, and its observers are those
that the plan wants. -/
theorem fated_of_memberOf? (born : Core.Born w.members w.launches)
    (builds : w.core.Builds r plan (plan.observersOf channel? id)) (hi : i ∈ Launches.ofRun w.launches r)
    {m : Nat} (hm : Launches.memberOf? w.launches i = some m) : ∃ x, w.members[m]? = some x ∧
      w.fated i = (some x.spec, some (.runs x.process.stopError?)) ∧
      ∀ occasion, x.reports occasion = plan.reports occasion x.spec := by
  obtain ⟨l, x, failures, hl, hp, hx, rfl, spec⟩ := born.of_memberOf? hm
  obtain ⟨l', hl', own⟩ := Launches.mem_ofRun.mp hi
  cases hl.symm.trans hl'
  obtain ⟨l', hl', -, observers, -⟩ := born.member hx
  cases hl.symm.trans hl'
  have outcome : Launches.outcome? w.launches x.launch = some (.realized m failures) :=
    (Launches.outcome?_of_getElem? hl).trans (Launch.outcome?_eq_some.mpr hp)
  refine ⟨x, hx, ?_, fun occasion => ?_⟩
  · unfold fated fate?
    rw [outcome, Launches.spec?_of_getElem? hl, spec]
    dsimp only
    rw [hx, Option.map_some]
  · unfold Member.reports
    rw [← observers, builds.observers hl own, ← spec]
    exact Observer.reports_observersOf plan channel? id x.spec occasion

/-- When no member came of a launch there is nothing to tell of one. -/
theorem fated_of_memberOf?_eq_none (hm : Launches.memberOf? w.launches i = none) :
    (∀ occasion, plan.told occasion (w.fated i) = []) ∧ plan.unstopped? (w.fated i) = none := by
  unfold Launches.memberOf? at hm
  unfold fated fate? Plan.told Plan.unstopped?
  cases ho : Launches.outcome? w.launches i with
  | none => simp
  | some o =>
    cases o with
    | realized m failures => simp [ho] at hm
    | failed f => simp
    | died message => simp

end Launches

/-- What observers report on an occasion of the members that came of launches of a run is told from the
fates. -/
theorem flatMap_reports_fated (born : Core.Born w.members w.launches)
    (builds : w.core.Builds r plan (plan.observersOf channel? id)) (occasion : Occasion) {is : List Nat}
    (own : ∀ i ∈ is, i ∈ Launches.ofRun w.launches r) :
    (is.filterMap (Launches.memberOf? w.launches)).flatMap (Members.reports w.members occasion) =
      (is.map w.fated).flatMap (plan.told occasion) := by
  rw [List.filterMap_eq_flatMap_toList, List.flatMap_assoc, List.flatMap_map]
  refine List.flatMap_congr fun i hi => ?_
  cases hm : Launches.memberOf? w.launches i with
  | none =>
    rw [(fated_of_memberOf?_eq_none hm).1]
    rfl
  | some m =>
    obtain ⟨x, hx, fated, reports⟩ := fated_of_memberOf? born builds (own i hi) hm
    rw [Option.toList_some, List.flatMap_singleton, Members.reports_of_getElem? hx, reports, fated, Plan.told]

/-- Whose process cannot be stopped is told from the fates. -/
theorem filterMap_closeFailure?_fated (born : Core.Born w.members w.launches)
    (builds : w.core.Builds r plan (plan.observersOf channel? id)) {is : List Nat}
    (own : ∀ i ∈ is, i ∈ Launches.ofRun w.launches r) :
    (is.filterMap (Launches.memberOf? w.launches)).filterMap (Members.closeFailure? w.members) =
      (is.map w.fated).filterMap plan.unstopped? := by
  rw [List.filterMap_filterMap, List.filterMap_map]
  refine List.filterMap_congr fun i hi => ?_
  rw [Function.comp_apply]
  cases hm : Launches.memberOf? w.launches i with
  | none =>
    rw [(fated_of_memberOf?_eq_none hm).2]
    rfl
  | some m =>
    obtain ⟨x, hx, fated, reports⟩ := fated_of_memberOf? born builds (own i hi) hm
    rw [Option.bind_some, Members.closeFailure?, hx, Option.bind_some, fated, Member.closeFailure?, reports,
      reports]
    cases x.process.stopError? <;> rfl

/-- While its members were launched a run heard what their observers report. -/
theorem Reachable.launch_reports (h : Reachable w) {order : List Nat} (heard : w.core.Heard r run order) :
    run.observerFailures.Perm (run.members.flatMap (Members.reports w.members .realized)) := by
  obtain ⟨log, -, faithful⟩ := h.opened.faithful
  obtain ⟨taken, rest, -, account⟩ := heard.heard
  rw [account.reports, faithful.flatMap_reportsOf taken]
  exact account.members.symm.flatMap_right _

/-- **Rollbacks and fates.** When a run ends in an error and none of its launches was left out, the rollback
tells, in some order, what is told from the fates of its launches. -/
theorem Reachable.rollback_fates (h : Reachable w)
    (builds : w.core.Builds r plan (plan.observersOf channel? id)) {order : List Nat}
    (heard : w.core.Heard r run order) (hr : w.runs[r]? = some run)
    (all : run.members.Perm ((Launches.ofRun w.launches r).filterMap (Launches.memberOf? w.launches)))
    {e : AssemblyError} (hp : run.phase = .finished (.error e)) {t : Teardown} (ht : e.rollback? = some t) :
    t.closed = run.members.length ∧ t.closeFailures.Perm ((w.fates r).filterMap plan.unstopped?) ∧
      t.observerFailures.Perm ((w.fates r).flatMap (plan.told .realized) ++
        ((w.fates r).flatMap (plan.told .closing) ++ (w.fates r).flatMap (plan.told .closed))) := by
  have born : Core.Born w.members w.launches := h.sound.born
  cases ht.symm.trans (h.rollback hr hp)
  have reports (occasion : Occasion) : (run.members.flatMap (Members.reports w.members occasion)).Perm
      ((w.fates r).flatMap (plan.told occasion)) :=
    flatMap_reports_fated born builds occasion (fun _ hi => hi) ▸ all.flatMap_right _
  refine ⟨rfl, ?_, ((h.launch_reports heard).trans (reports .realized)).append ?_⟩
  · exact filterMap_closeFailure?_fated born builds (fun _ hi => hi) ▸ all.filterMap _
  · exact (List.flatMap_append_perm run.members _ _).symm.trans ((reports .closing).append (reports .closed))

end World

end Muster
