import Muster.Proofs.Run.Clock

/-!
# Asking on time

* `World.OnTime`: nothing delays a run in a step; `World.Punctual`: steps in which nothing delays it, and the
  questions that it puts.
* `Plan.asksAt`: when a run of a plan puts its questions, counted from the first of them.
* `Plan.Times`: where a run of a plan stands that nothing has delayed.
* **`World.Punctual.times`**: a run that nothing delays puts its questions when the plan wants them, and gives
  up when the time is up and not before.
-/

namespace Muster

namespace World

/-- Nothing delays a run in a step: no time passes while it is about to ask, and it does not oversleep. -/
structure OnTime (r : Nat) (w w' : World) : Prop where
  asking : ∀ run, w.runs[r]? = some run → run.phase = .asking → w'.now = w.now
  resting : ∀ run due, w.runs[r]? = some run → run.phase = .resting due → w'.now ≤ due

/-- Whether nothing delays a run in a step. -/
def isOnTime (r : Nat) (w w' : World) : Bool :=
  match w.runs[r]?.map Run.phase with
  | some .asking => w'.now == w.now
  | some (.resting due) => w'.now ≤ due
  | _ => true

theorem OnTime.of_isOnTime {r : Nat} {w w' : World} (h : isOnTime r w w' = true) : OnTime r w w' := by
  constructor
  · intro run hr hp
    simpa [isOnTime, hr, hp] using h
  · intro run due hr hp
    simpa [isOnTime, hr, hp] using h

/-- Steps in which nothing delays a run, and the questions that it puts. -/
inductive Punctual (r : Nat) (w₀ : World) : World → List Poll → Prop where
  /-- Nothing has happened yet. -/
  | start : Punctual r w₀ w₀ []
  /-- Something happens next. -/
  | go {w w' : World} {polls : List Poll} (before : Punctual r w₀ w polls) (step : Step w w')
    (onTime : OnTime r w w') : Punctual r w₀ w' (polls ++ w.polls r w')

theorem Punctual.logs {r : Nat} {w₀ w : World} {polls : List Poll} (h : Punctual r w₀ w polls) :
    Logs (World.polls r) w₀ w polls := by
  induction h with
  | start => exact .start
  | go _ step _ ih => exact .go ih step

/-- Whether each of some strands is ready when its turn comes, and none delays a run. -/
def canGoOnTime (r : Nat) (w : World) : List Strand → Bool
  | [] => true
  | s :: ss => w.isReady s && isOnTime r w (w.advance s) && canGoOnTime r (w.advance s) ss

/-- Strands that are ready when their turn comes and do not delay a run go on. -/
theorem Punctual.goes {r : Nat} {w₀ w : World} {polls : List Poll} (h : Punctual r w₀ w polls) {ss : List Strand}
    (ready : canGoOnTime r w ss = true) : ∃ polls, Punctual r w₀ (w.goes ss) polls := by
  induction ss generalizing w polls with
  | nil => exact ⟨polls, h⟩
  | cons s ss ih =>
    rw [canGoOnTime, Bool.and_eq_true, Bool.and_eq_true] at ready
    obtain ⟨⟨first, onTime⟩, rest⟩ := ready
    exact ih (h.go (.advance s (of_decide_eq_true first)) (.of_isOnTime onTime)) rest

end World

/-! ### The times of a plan -/

namespace Plan

/-- When a run of a plan puts the question with a number, in milliseconds from the first one. -/
def asksAt (plan : Plan) (i : Nat) : Nat :=
  min (i * plan.options.pollIntervalOf.millis) plan.options.timeoutOf.millis

/-- After each of so many questions there is time left. -/
def InTime (plan : Plan) (n : Nat) : Prop := ∀ i < n, plan.asksAt i < plan.options.timeoutOf.millis

/-- Names are those of the members of a plan, in the order of their places. -/
def Lists (plan : Plan) (names : List String) : Prop :=
  ∃ specs : List MemberSpec, specs.Perm plan.members ∧ specs.Pairwise (·.ordinal < ·.ordinal) ∧
    names = specs.map (·.name)

/-- A run of a plan has seen all its members, and the time is up after the last of so many questions, but was
not before. -/
structure Expires (plan : Plan) (n : Nat) (seen : List Sighting) : Prop where
  some : 0 < n
  inTime : plan.InTime (n - 1)
  late : plan.options.timeoutOf.millis ≤ plan.asksAt (n - 1)
  seen : plan.Lists (seen.map (·.name))

/-- Where a run of a plan stands that nothing has delayed, when it has put so many questions. -/
inductive Stage (plan : Plan) (now : Nat) (gone : Bool) (deadline n : Nat) : Run.Phase → Prop where
  /-- It has not asked yet. -/
  | launching (none : n = 0) : Stage plan now gone deadline n .launching
  /-- It asks when it is due, unless its caller has given up. -/
  | asking (inTime : plan.InTime n)
    (on : gone = false → now + plan.options.timeoutOf.millis = deadline + plan.asksAt n) :
    Stage plan now gone deadline n .asking
  /-- It sleeps until it is due. -/
  | resting {due : Nat} (inTime : plan.InTime n) (early : now ≤ due)
    (on : due + plan.options.timeoutOf.millis = deadline + plan.asksAt n) :
    Stage plan now gone deadline n (.resting due)
  /-- It has not asked again when the time was up. -/
  | stable {a : Nat} (inTime : plan.InTime (n - 1)) : Stage plan now gone deadline n (.finished (.ok a))
  /-- The time is up. -/
  | expires {seen : List Sighting} {places : List Nat} (expires : plan.Expires n seen) :
    Stage plan now gone deadline n (.rollingBack (.unstable seen) places)
  /-- The time was up. -/
  | expired {seen : List Sighting} {t : Teardown} (expires : plan.Expires n seen) :
    Stage plan now gone deadline n (.finished (.error (.unstable plan.options.timeoutOf n seen t)))
  /-- It has given up for another reason. -/
  | leaves {cause : Run.Cause} {places : List Nat} (why : ∀ seen, cause ≠ .unstable seen) :
    Stage plan now gone deadline n (.rollingBack cause places)
  /-- It has ended for another reason. -/
  | failed {e : AssemblyError} (why : ∀ timeout n seen t, e ≠ .unstable timeout n seen t) :
    Stage plan now gone deadline n (.finished (.error e))

/-- Nothing has delayed a run of a plan, which goes by a dial. -/
structure Times (plan : Plan) (now : Nat) (gone : Bool) (d : Run.Dial) : Prop where
  timeout : d.timeout = plan.options.timeoutOf
  interval : d.pollInterval = plan.options.pollIntervalOf
  stage : plan.Stage now gone d.deadline d.evaluations d.phase

variable {plan : Plan} {n : Nat}

/-- When a run has ended because its members never were stable, the time was up. -/
theorem Stage.expires_of_unstable {now deadline k : Nat} {gone : Bool} {timeout : Duration}
    {seen : List Sighting} {t : Teardown}
    (h : plan.Stage now gone deadline n (.finished (.error (.unstable timeout k seen t)))) :
    plan.Expires n seen := by
  generalize ended : Run.Phase.finished (.error (.unstable timeout k seen t)) = p at h
  cases h with
  | expired expires =>
    cases ended
    exact expires
  | failed why =>
    cases ended
    exact absurd rfl (why _ _ _ _)
  | launching | asking | resting | stable | expires | leaves => cases ended

theorem inTime_of_eq_zero (none : n = 0) : plan.InTime n :=
  fun i hi => absurd (none ▸ hi) (Nat.not_lt_zero i)

theorem inTime_succ : plan.InTime (n + 1) ↔ plan.InTime n ∧ plan.asksAt n < plan.options.timeoutOf.millis := by
  unfold InTime
  constructor
  · exact fun h => ⟨fun i hi => h i (Nat.lt_succ_of_lt hi), h n (Nat.lt_succ_self n)⟩
  · rintro ⟨h, last⟩ i hi
    rcases Nat.lt_succ_iff_lt_or_eq.mp hi with hi | rfl
    · exact h i hi
    · exact last

/-- A run that asks in time is due again at the next time of the plan. -/
theorem asksAt_succ {now deadline : Nat}
    (on : now + plan.options.timeoutOf.millis = deadline + plan.asksAt n) (early : now < deadline) :
    min (now + plan.options.pollIntervalOf.millis) deadline + plan.options.timeoutOf.millis =
      deadline + plan.asksAt (n + 1) := by
  unfold asksAt at *
  rw [Nat.succ_mul]
  omega

namespace Stage

variable {now now' deadline : Nat} {gone gone' : Bool}

/-- Time passes, or the caller gives up. -/
theorem still {p : Run.Phase} (h : plan.Stage now gone deadline n p) (asking : p = .asking → now' = now)
    (resting : ∀ due, p = .resting due → now' ≤ due) (goes : gone = true → gone' = true) :
    plan.Stage now' gone' deadline n p := by
  cases h with
  | launching none => exact .launching none
  | asking inTime on =>
    refine .asking inTime fun still => ?_
    rw [asking rfl]
    exact on (Bool.eq_false_iff.mpr fun h => Bool.eq_false_iff.mp still (goes h))
  | resting inTime early on => exact .resting inTime (resting _ rfl) on
  | stable inTime => exact .stable inTime
  | expires expires => exact .expires expires
  | expired expires => exact .expired expires
  | leaves why => exact .leaves why
  | failed why => exact .failed why

/-- The members are gathered, and from now on the time counts. -/
theorem gather (h : plan.Stage now gone deadline n .launching) :
    plan.Stage now gone' (now + plan.options.timeoutOf.millis) n .asking := by
  cases h with
  | launching none =>
    refine .asking (inTime_of_eq_zero none) fun _ => ?_
    rw [none, asksAt, Nat.zero_mul, Nat.zero_min, Nat.add_zero]

/-- The predicate holds. -/
theorem hold {a : Nat} (h : plan.Stage now gone deadline n .asking) :
    plan.Stage now' gone' deadline (n + 1) (.finished (.ok a)) := by
  cases h with
  | asking inTime => exact .stable inTime

/-- The predicate does not hold, and the time is up. -/
theorem degrade {seen : List Sighting} {places : List Nat} (h : plan.Stage now gone deadline n .asking)
    (goes : gone = false) (late : deadline ≤ now) (lists : plan.Lists (seen.map (·.name))) :
    plan.Stage now' gone' deadline (n + 1) (.rollingBack (.unstable seen) places) := by
  cases h with
  | asking inTime on =>
    have on := on goes
    refine .expires ⟨Nat.succ_pos n, inTime, ?_, lists⟩
    show _ ≤ plan.asksAt n
    omega

/-- The predicate does not hold yet, and there is time left. -/
theorem rest (h : plan.Stage now gone deadline n .asking) (goes : gone = false) (early : now < deadline) :
    plan.Stage now gone' deadline (n + 1)
      (.resting (min (now + plan.options.pollIntervalOf.millis) deadline)) := by
  cases h with
  | asking inTime on =>
    have on := on goes
    exact .resting (inTime_succ.mpr ⟨inTime, by omega⟩) (by omega) (asksAt_succ on early)

/-- The run awakes, unless its caller has given up, when it is due. -/
theorem wake {due : Nat} (h : plan.Stage now gone deadline n (.resting due))
    (late : gone' = false → due ≤ now) : plan.Stage now gone' deadline n .asking := by
  cases h with
  | resting inTime early on =>
    refine .asking inTime fun goes => ?_
    have late := late goes
    have same : now = due := by omega
    rw [same]
    exact on

/-- All members are closed. -/
theorem fail {run : Run} {cause : Run.Cause} {places : List Nat} {t : Teardown}
    (h : plan.Stage now gone deadline run.evaluations (.rollingBack cause places))
    (timeout : run.timeout = plan.options.timeoutOf) :
    plan.Stage now' gone' deadline run.evaluations (.finished (.error (World.errorOf run t cause))) := by
  cases h with
  | expires expires =>
    rw [World.errorOf, timeout]
    exact .expired expires
  | leaves why =>
    refine .failed fun timeout n seen t same => ?_
    cases cause with
    | unstable seen => exact why seen rfl
    | launch | launchTimeout | cancelled => cases same

end Stage

end Plan

namespace World

variable {w w' : World} {r : Nat} {run run' : Run} {plan : Plan}

/-- The members that are seen when all of a plan are there are those of the plan. -/
theorem Fulfils.lists {ms : List Nat} (complete : w.Fulfils ms plan) :
    plan.Lists ((w.sightings ms).map (·.name)) := by
  obtain ⟨specs, all, sorted, built⟩ := complete
  refine ⟨specs, all, sorted, ?_⟩
  clear all sorted
  unfold sightings views
  induction built with
  | nil => rfl
  | @cons m s ms specs first _ ih =>
    obtain ⟨x, hx, rfl⟩ := first
    have view : w.view? m = some ⟨⟨x.id, x.spec.name, x.spec.ordinal, x.state, x.process.pid⟩,
        x.spec.environment⟩ := by
      unfold view?
      rw [hx]
      rfl
    rw [List.filterMap_cons_some view, List.map_cons, List.map_cons, List.map_cons, ih]

/-- A run whose caller has not given up sleeps until it is due. -/
theorem due_of_ready {due : Nat} (hr : w.runs[r]? = some run) (hp : run.phase = .resting due)
    (goes : run.cancelled = false) (ready : w.readiness (.run r) = .ready) : due ≤ w.now := by
  simp only [readiness, hr, Option.map_some, Option.getD_some, runReadiness, hp, goes, Bool.false_eq_true,
    if_false, readyFrom] at ready
  by_contra early
  rw [if_neg early] at ready
  cases ready

/-- **On time.** A step that does not delay a run keeps it on time. -/
theorem Step.times (step : Step w w') (onTime : OnTime r w w') (hr : w.runs[r]? = some run)
    (hr' : w'.runs[r]? = some run') (gone : run.cancelled = true → run'.cancelled = true)
    (complete : run.phase = .asking → w.Fulfils run.members plan)
    (h : plan.Times w.now run.cancelled run.dial) : plan.Times w'.now run'.cancelled run'.dial := by
  obtain ⟨timeout, interval, stage⟩ := h
  have timeout : run.timeout = plan.options.timeoutOf := timeout
  have interval : run.pollInterval = plan.options.pollIntervalOf := interval
  have stage : plan.Stage w.now run.cancelled run.deadline run.evaluations run.phase := stage
  have still (dial : run'.dial = run.dial) : plan.Times w'.now run'.cancelled run'.dial :=
    dial ▸ ⟨timeout, interval, stage.still (onTime.asking run hr) (onTime.resting run · hr) gone⟩
  rcases step.ticks hr hr' with dial | ⟨ticks, ready⟩
  · exact still dial
  cases ticks with
  | gathers hp now dial =>
    rw [dial, now, timeout]
    exact ⟨timeout, interval, (hp ▸ stage).gather⟩
  | succeedsEmpty hp dial =>
    rw [hp] at stage
    cases stage with
    | launching none => exact dial ▸ ⟨timeout, interval, .stable (Plan.inTime_of_eq_zero (congrArg (· - 1) none))⟩
  | leaves why _ dial => exact dial ▸ ⟨timeout, interval, .leaves why⟩
  | holds hp dial => exact dial ▸ ⟨timeout, interval, (hp ▸ stage).hold⟩
  | degrades hp goes late dial =>
    exact dial ▸ ⟨timeout, interval, (hp ▸ stage).degrade goes late (complete hp).lists⟩
  | rests hp goes early dial =>
    rw [dial, onTime.asking run hr hp, interval]
    exact ⟨timeout, interval, (hp ▸ stage).rest goes early⟩
  | wakes hp now dial =>
    rw [dial, now]
    refine ⟨timeout, interval, (hp ▸ stage).wake fun goes => due_of_ready hr hp ?_ ready⟩
    exact Bool.eq_false_iff.mpr fun h => Bool.eq_false_iff.mp goes (gone h)
  | fails hp dial => exact dial ▸ ⟨timeout, interval, (hp ▸ stage).fail timeout⟩

variable {w₀ : World} {platform : Nat} {channel? : Option Nat} {cancelled : Bool} {polls : List Poll}

/-- **The times of a run.** A run of a plan that nothing delays asks when the plan wants it to, and gives up when
the time is up and not before. -/
theorem Punctual.times (h₀ : Reachable w₀) (distinct : (plan.members.map (·.ordinal)).Nodup)
    (h : Punctual (w₀.begin plan platform channel? cancelled).1 (w₀.begin plan platform channel? cancelled).2 w
      polls) :
    ∃ run, w.runs[(w₀.begin plan platform channel? cancelled).1]? = some run ∧
      plan.Times w.now run.cancelled run.dial := by
  induction h with
  | start => exact ⟨_, run_begin w₀ plan platform channel? cancelled, rfl, rfl, .launching rfl⟩
  | go before step onTime ih =>
    obtain ⟨run, hr, times⟩ := ih
    have steps := before.logs.steps
    have reachable := steps.reachable h₀
    have move := step.move reachable.sound
    obtain ⟨run', hr', -⟩ := move.keeps.runs hr
    refine ⟨run', hr', step.times onTime hr hr' (move.run_lasts hr hr').cancelled (fun hp => ?_) times⟩
    exact reachable.sound.complete reachable.ordered (steps.builds h₀).2 distinct hr (.asking hp)

end World

end Muster
