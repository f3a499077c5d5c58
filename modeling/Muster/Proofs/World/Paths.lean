import Muster.Proofs.Config.Reading
import Muster.Proofs.World.Reach
import Muster.Schedule.Basic

/-!
# Paths

* `World.goes`: lets strands go on one after another; **`World.Steps.goes`**: these are steps as long as each
  strand is ready when its turn comes.
* `Options.timeoutOf_empty`, …: what a run goes by when its plan has no options.
* `Options.withPredicate`, `Options.timed`: options that set a predicate, or the bounds, and nothing else.
* **`World.begin_without_options`**: the world after a run without options has begun;
  `World.begin_unannounced`, `World.begin_plain`: when nothing is announced.
* `Plan.pair`, `World.opened`: two members, and the world once they were asked for on a platform.
-/

namespace Muster

/-! ### Options that nobody has set -/

namespace Options

theorem timeoutOf_empty : (∅ : Options).timeoutOf = defaultTimeout := by
  have made : (Registry.get (∅ : Options) Engine.timeout 0).value =
      some (.timeout defaultTimeout : OptionValue) :=
    Registry.get_empty standardOptions OptionTy.timeout 0
  unfold Registry.timeoutOf
  rw [made]
  rfl

theorem pollIntervalOf_empty : (∅ : Options).pollIntervalOf = defaultPollInterval := by
  have made : (Registry.get (∅ : Options) Engine.pollInterval 0).value =
      some (.pollInterval defaultPollInterval : OptionValue) :=
    Registry.get_empty standardOptions OptionTy.pollInterval 0
  unfold Registry.pollIntervalOf
  rw [made]
  rfl

theorem parallelismOf?_empty : (∅ : Options).parallelismOf? = none := by
  have unset : (Registry.get (∅ : Options) Engine.parallelism 0).value = none :=
    Registry.get_empty standardOptions OptionTy.parallelism 0
  unfold Registry.parallelismOf?
  rw [unset]
  rfl

theorem displayName?_empty : (∅ : Options).displayName? = none := by
  have unset : (Registry.get (∅ : Options) Engine.displayName 0).value = none :=
    Registry.get_empty standardOptions OptionTy.displayName 0
  unfold Registry.displayName?
  rw [unset]
  rfl

theorem predicateOf_empty : (∅ : Options).predicateOf = .always defaultPredicateId := by
  have made : (Registry.get (∅ : Options) Engine.stability 0).value =
      some (.stability (.always defaultPredicateId) : OptionValue) :=
    Registry.get_empty standardOptions OptionTy.stability 0
  unfold Registry.predicateOf
  rw [made]
  rfl

/-- What a run goes by whose plan has no options. -/
theorem settings_empty : (∅ : Options).settings =
    ⟨defaultTimeout, defaultPollInterval, .always defaultPredicateId, none⟩ := by
  unfold Registry.settings
  rw [timeoutOf_empty, pollIntervalOf_empty, predicateOf_empty, parallelismOf?_empty]

end Options

/-! ### A predicate that somebody has set -/

namespace Options

section Stability

variable (o : Options) (p : Predicate)

/-- The options and a predicate that decides when an assembly is stable. -/
def withPredicate : Options := Registry.add o (OptionValue.stability p)

theorem predicateOf_withPredicate : (o.withPredicate p).predicateOf = p := by
  have set : (Registry.get (o.withPredicate p) Engine.stability 0).value = some (OptionValue.stability p) :=
    Registry.get_add_self o (OptionValue.stability p : standardOptions.Value) 0
  unfold Registry.predicateOf
  rw [set]
  rfl

theorem get_withPredicate {t : standardOptions.Ty} (other : OptionTy.stability.kind ≠ OptionTy.kind t) :
    (Registry.get (o.withPredicate p) t 0).value = (Registry.get o t 0).value :=
  @Registry.get_add_of_ne standardOptions o (.stability p : OptionValue) t other 0

theorem parallelismOf?_withPredicate : (o.withPredicate p).parallelismOf? = o.parallelismOf? := by
  unfold Registry.parallelismOf?
  rw [get_withPredicate o p (by decide)]

end Stability

section Timing

variable (o : Options) (bound interval : Duration)

/-- The options with a bound on each phase, and a time between two questions. -/
def timed : Options := Registry.add (Registry.add o (OptionValue.timeout bound)) (OptionValue.pollInterval interval)

theorem get_timed {t : standardOptions.Ty} (timeout : OptionTy.timeout.kind ≠ OptionTy.kind t)
    (pollInterval : OptionTy.pollInterval.kind ≠ OptionTy.kind t) :
    (Registry.get (o.timed bound interval) t 0).value = (Registry.get o t 0).value :=
  (@Registry.get_add_of_ne standardOptions _ (.pollInterval interval : OptionValue) t pollInterval 0).trans
    (@Registry.get_add_of_ne standardOptions o (.timeout bound : OptionValue) t timeout 0)

theorem timeoutOf_timed : (o.timed bound interval).timeoutOf = bound := by
  have other : OptionTy.pollInterval.kind ≠ OptionTy.timeout.kind := by decide
  have set : (Registry.get (o.timed bound interval) Engine.timeout 0).value = some (OptionValue.timeout bound) :=
    (@Registry.get_add_of_ne standardOptions _ (.pollInterval interval : OptionValue) OptionTy.timeout
      other 0).trans (Registry.get_add_self o (OptionValue.timeout bound : standardOptions.Value) 0)
  unfold Registry.timeoutOf
  rw [set]
  rfl

theorem pollIntervalOf_timed : (o.timed bound interval).pollIntervalOf = interval := by
  have set : (Registry.get (o.timed bound interval) Engine.pollInterval 0).value =
      some (OptionValue.pollInterval interval) :=
    Registry.get_add_self (Registry.add o (OptionValue.timeout bound) : Options)
      (OptionValue.pollInterval interval : standardOptions.Value) 0
  unfold Registry.pollIntervalOf
  rw [set]
  rfl

theorem predicateOf_timed : (o.timed bound interval).predicateOf = o.predicateOf := by
  unfold Registry.predicateOf
  rw [get_timed o bound interval (by decide) (by decide)]

theorem parallelismOf?_timed : (o.timed bound interval).parallelismOf? = o.parallelismOf? := by
  unfold Registry.parallelismOf?
  rw [get_timed o bound interval (by decide) (by decide)]

end Timing

end Options

/-- A run of a plan without options when it begins: all members are launched at once, within a minute, and
are stable as soon as they run. -/
def Plan.plainRun (plan : Plan) (id : Uuid) (now : Nat) (cancelled : Bool) (pending : List Nat) : Run where
  id
  channel? := none
  started := now
  timeout := defaultTimeout
  pollInterval := defaultPollInterval
  predicate := .always defaultPredicateId
  deadline := now + defaultTimeout.millis
  permits := max plan.members.length 1
  outstanding := plan.members.foldl (fun l s => World.enter s.ordinal s.name l) []
  pending
  cancelled

namespace World

variable {w : World}

/-- The world after a run of a plan without options has begun. -/
theorem begin_without_options (w : World) {plan : Plan} (plain : plan.options = ∅) (platform : Nat)
    (channel? : Option Nat) (cancelled : Bool) :
    (w.begin plan platform channel? cancelled).2 =
      { ({ w with identities := w.identities + 1 } : World).announceRun
          { plan.plainRun (.random w.identities) w.now cancelled [] with channel? }
          (.building (.random w.identities) plan.members.length w.time) with
        runs := w.runs.push { plan.plainRun (.random w.identities) w.now cancelled
          (List.range' w.launches.size plan.members.length) with channel? }
        launches := w.launches ++ (plan.launches platform w.runs.size
          (plan.observersOf channel? (.random w.identities))).toArray } := by
  have hr (run : Run) : (w.runs.push run)[w.runs.size]? = some run := Array.getElem?_push_size
  unfold World.begin beginWith
  cases channel? with
  | none | some channel =>
    dsimp only [freshId, announceRun, announce, note]
    rw [queueLaunches_eq]
    dsimp only [modifyRun]
    rw [modify_eq_setIfInBounds (hr _), setIfInBounds_push_size, plain, Options.settings_empty]
    rfl

/-- The world after a run has begun of which nothing is announced. -/
theorem begin_unannounced (w : World) (plan : Plan) (platform : Nat) (cancelled : Bool) :
    (w.begin plan platform none cancelled).2 = { w with
      identities := w.identities + 1
      runs := w.runs.push (plan.run (.random w.identities) none w.now cancelled
        (List.range' w.launches.size plan.members.length))
      launches := w.launches ++ (plan.launches platform w.runs.size plan.observers).toArray } := by
  have hr (run : Run) : (w.runs.push run)[w.runs.size]? = some run := Array.getElem?_push_size
  have observers : plan.observersOf none (.random w.identities) = plan.observers := List.append_nil _
  unfold World.begin beginWith
  dsimp only [freshId, announceRun, announce, note]
  rw [queueLaunches_eq]
  dsimp only [modifyRun]
  rw [modify_eq_setIfInBounds (hr _), setIfInBounds_push_size,
    ← congrArg (plan.launches platform w.runs.size) observers]
  rfl

/-- **A plain run.** The world after a run of a plan without options has begun of which nothing is
announced. -/
theorem begin_plain (w : World) {plan : Plan} (plain : plan.options = ∅) (platform : Nat)
    (cancelled : Bool) :
    (w.begin plan platform none cancelled).2 = { w with
      identities := w.identities + 1
      runs := w.runs.push (plan.plainRun (.random w.identities) w.now cancelled
        (List.range' w.launches.size plan.members.length))
      launches := w.launches ++ (plan.launches platform w.runs.size plan.observers).toArray } := by
  have observers : plan.observersOf none (.random w.identities) = plan.observers := List.append_nil _
  rw [begin_without_options w plain, observers]
  rfl

/-! ### Strands one after another -/

/-- Lets strands go on, one after another. -/
def goes (w : World) : List Strand → World
  | [] => w
  | s :: ss => (w.advance s).goes ss

/-- Some time later strands have gone on. -/
def later (w : World) (ms : Nat) (ss : List Strand) : World := { w with now := w.now + ms }.goes ss

/-- Whether each of some strands is ready when its turn comes. -/
def canGo (w : World) : List Strand → Bool
  | [] => true
  | s :: ss => w.isReady s && (w.advance s).canGo ss

/-- Strands that are ready when their turn comes go on by whatever steps strands may take. -/
theorem goes_of {R : World → World → Prop}
    (advance : ∀ (w : World) (s : Strand), w.readiness s = .ready → R w (w.advance s)) {ss : List Strand}
    (ready : w.canGo ss = true) : Relation.ReflTransGen R w (w.goes ss) := by
  induction ss generalizing w with
  | nil => exact .refl
  | cons s ss ih =>
    unfold canGo at ready
    rw [Bool.and_eq_true] at ready
    exact .head (advance w s (of_decide_eq_true ready.1)) (ih ready.2)

/-- **Paths.** Strands that are ready when their turn comes go on by steps. -/
theorem Steps.goes {ss : List Strand} (ready : w.canGo ss = true) : Steps w (w.goes ss) :=
  goes_of (fun _ s ready => .advance s ready) ready

end World

/-! ### Two members -/

/-- A plan for two members. -/
def Plan.pair : Plan where
  members := [⟨0, "worker-1", { executable := "worker" }, {}⟩,
    ⟨1, "worker-2", { executable := "worker" }, {}⟩]

theorem Plan.pair_distinct : (pair.members.map (·.ordinal)).Nodup := by decide

theorem Plan.pair_observers : ∀ s ∈ pair.members, ∀ o ∈ s.schema.observers, o.Responds := by
  have none : ∀ s ∈ pair.members, s.schema.observers.isEmpty := by decide
  intro s hs o ho
  rw [List.isEmpty_iff.mp (none s hs)] at ho
  exact absurd ho List.not_mem_nil

namespace World

/-- A platform that nobody has asked for anything. -/
def stage (p : Platform) : World := { platforms := #[p] }

theorem reachable_stage (p : Platform) : Reachable (stage p) := .single (.platform p)

/-- The world once two members were asked for on a platform. -/
def opened (p : Platform) : World :=
  { stage p with
    identities := 1
    runs := #[Plan.pair.plainRun (.random 0) 0 false [0, 1]]
    launches := (Plan.pair.launches 0 0 []).toArray }

theorem begin_pair (p : Platform) : ((stage p).begin .pair 0 none false).2 = opened p := by
  rw [begin_plain _ rfl]
  rfl

/-- The world once two members were asked for that must be there, and stable, in some time. -/
def openedFor (p : Platform) (bound interval : Duration) (predicate : Predicate) : World :=
  { opened p with
    runs := #[{ Plan.pair.plainRun (.random 0) 0 false [0, 1] with
      timeout := bound
      pollInterval := interval
      predicate
      deadline := 0 + bound.millis }] }

/-- What a run of the two members goes by that must be there, and stable, in some time, whoever watches. -/
theorem run_pair_timed {o : Options} (bound interval : Duration) (all : o.parallelismOf? = none)
    (observers : List Observer) :
    ({ Plan.pair with options := o.timed bound interval, observers } : Plan).run (.random 0) none 0 false [0, 1] =
      { Plan.pair.plainRun (.random 0) 0 false [0, 1] with
        timeout := bound
        pollInterval := interval
        predicate := o.predicateOf
        deadline := 0 + bound.millis } := by
  unfold Plan.run
  rw [Options.timeoutOf_timed, Options.pollIntervalOf_timed, Options.predicateOf_timed,
    Options.parallelismOf?_timed, all]
  rfl

theorem begin_pair_timed (p : Platform) {o : Options} (bound interval : Duration) (all : o.parallelismOf? = none) :
    ((stage p).begin { Plan.pair with options := o.timed bound interval } 0 none false).2 =
      openedFor p bound interval o.predicateOf := by
  rw [begin_unannounced]
  exact congrArg (fun run => { opened p with runs := #[run] }) (run_pair_timed bound interval all [])

end World

end Muster
