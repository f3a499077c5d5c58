import Muster.Proofs.Member.Course
import Muster.Proofs.Run.Failure
import Muster.Proofs.Run.Tally

/-!
# What observers leave behind that take launches down

* `Launch.Died`: somebody took a launch down.
* `World.LeftRunning`: the process of a member runs, and nobody has asked to stop it.
* `World.Reachable.left_running`, `World.Reachable.runs_on`: an observer that takes down the launch which tells it
  of a member leaves the process of the member running, and nobody ever stops it.
* **`World.OpenSteps.stopped_unless_felled`**: once a failed run, its launches and its reaper have ended, the process
  of each member was stopped once, unless an observer took the launch of the member down or somebody else's call for
  the member lags; where nobody else closes members, nobody ever stops the process of a member whose launch was taken
  down.
-/

namespace Muster

/-- Somebody took a launch down. -/
def Launch.Died (l : Launch) : Prop := ∃ message, l.phase = .settled (.died message)

/-- A run has not got a member of its plan: it counts it among its failures, or has taken no note of it. -/
def Run.Misses (run : Run) (s : MemberSpec) : Prop :=
  (∃ f ∈ run.failures, f.member = s.name ∧ f.ordinal = s.ordinal) ∨ (s.ordinal, s.name) ∈ run.outstanding

namespace Ledger

variable {ls : Array Launch} {ms : Array Member} {r : Nat} {run : Run} {taken left : List Nat}

/-- A launch that was taken down and of which a run took note is one of its failures. -/
theorem failure_of_died (h : Ledger ls r run taken left) (born : Core.Born ms ls) {i : Nat} {l : Launch}
    (hi : i ∈ taken) (hl : ls[i]? = some l) (died : l.Died) :
    ∃ f ∈ run.failures, f.member = l.spec.name ∧ f.ordinal = l.spec.ordinal := by
  obtain ⟨f, hf⟩ := Option.isSome_iff_exists.mp ((Launches.failureOf?_isSome hl).mpr (.inr died))
  obtain ⟨ordinal, name⟩ := born.of_failureOf? hf
  rw [Launches.ordinal_of_getElem? hl] at ordinal
  rw [Launches.name_of_getElem? hl] at name
  exact ⟨f, h.failures ▸ List.mem_filterMap.mpr ⟨i, hi, hf⟩, name, ordinal⟩

/-- A run misses the members whose launches were taken down. -/
theorem misses_of_died (h : Ledger ls r run taken left) (born : Core.Born ms ls)
    (distinct : ((Launches.ofRun ls r).map (Launches.ordinal ls)).Nodup) {i : Nat} {l : Launch}
    (hi : i ∈ Launches.ofRun ls r) (hl : ls[i]? = some l) (died : l.Died) : run.Misses l.spec := by
  rcases List.mem_append.mp (h.all.mem_iff.mpr hi) with ht | hleft
  · exact .inl (h.failure_of_died born ht hl died)
  · refine .inr ((h.outstanding distinct).mem_iff.mpr (List.mem_map.mpr ⟨i, hleft, ?_⟩))
    rw [Launches.ordinal_of_getElem? hl, Launches.name_of_getElem? hl]

end Ledger

/-- A launch that has ended returned the member that came of it, unless an observer took it down. -/
theorem Core.Sound.memberOf?_or_died {c : Core} (h : c.Sound) {m : Nat} {x : Member} {l : Launch}
    {o : Launch.Outcome} (hx : c.members[m]? = some x) (hl : c.launches[x.launch]? = some l)
    (hp : l.phase = .settled o) : Launches.memberOf? c.launches x.launch = some m ∨ l.Died := by
  obtain ⟨l', hl', -, -, bore⟩ := h.born.member hx
  cases hl.symm.trans hl'
  cases bore with
  | felled died => exact .inr ⟨_, died⟩
  | bears bears =>
    cases bears with
    | telling telling => cases hp.symm.trans telling
    | realized realized => exact .inl (Launches.memberOf?_eq_some.mpr ⟨l, _, hl, realized⟩)

/-- An observer of a member whose launch was taken down does not respond. -/
theorem Core.Sound.dies_of_died {c : Core} (h : c.Sound) {m : Nat} {x : Member} {l : Launch}
    (hx : c.members[m]? = some x) (hl : c.launches[x.launch]? = some l) (died : l.Died) :
    ∃ o ∈ x.observers, ¬ o.Responds := by
  obtain ⟨message, hp⟩ := died
  obtain ⟨l', hl', -, observers, bore⟩ := h.born.member hx
  cases hl.symm.trans hl'
  cases bore with
  | felled _ ho dies => exact ⟨_, observers ▸ ho, dies⟩
  | bears bears =>
    cases bears with
    | telling telling => cases hp.symm.trans telling
    | realized realized => cases hp.symm.trans realized

namespace World

/-- The process of a member runs, and nobody has asked to stop it. -/
def LeftRunning (w : World) (m : Nat) : Prop :=
  ∃ x, w.members[m]? = some x ∧ x.state = .realized ∧ x.closeStarted = false ∧ w.stops m = 0

variable {w₀ w : World} {plan : Plan} {platform : Nat} {channel? : Option Nat} {cancelled : Bool}

/-- An observer that takes down the launch which tells it of a member leaves the process of the member running. -/
theorem Reachable.left_running (h : Reachable w) {m : Nat} {x : Member} {l : Launch} (hx : w.members[m]? = some x)
    (hl : w.launches[x.launch]? = some l) (died : l.Died) : w.LeftRunning m := by
  obtain ⟨message, hp⟩ := died
  obtain ⟨beats, -, chronicled⟩ := h.chronicled
  have course := chronicled.course hx
  generalize beats.filterMap (Beat.note? m) = said at course
  cases course with
  | felled _ _ _ _ begun state =>
    refine ⟨x, hx, state, begun, ?_⟩
    rcases h.sound.lives.life hx with fresh | ⟨j, way⟩
    · exact fresh.stops
    · cases begun.symm.trans way.begun
  | launching hl' hp' | returned hl' hp' | parting hl' hp' =>
    cases hl.symm.trans hl'
    cases hp.symm.trans hp'

/-- Nobody ever stops it. -/
theorem Reachable.runs_on (h : Reachable w) {m : Nat} {x : Member} {l : Launch} (hx : w.members[m]? = some x)
    (hl : w.launches[x.launch]? = some l) (died : l.Died) {w' : World} (steps : Steps w w') : w'.LeftRunning m := by
  obtain ⟨-, x', l', hx', same, hl', died'⟩ := steps.invariant
    (P := fun c => ∃ x' l', c.members[m]? = some x' ∧ x'.launch = x.launch ∧ c.launches[x.launch]? = some l' ∧
      l'.Died) h.sound ⟨x, l, hx, rfl, hl, died⟩ fun _ move ⟨y, k, hy, same, hk, message, hp⟩ => by
        obtain ⟨y', hy', kept⟩ := move.keeps.members hy
        obtain ⟨k', hk', settled⟩ := move.keeps.launches hk
        exact ⟨y', k', hy', kept.launch.trans same, hk', message, settled.settled hp⟩
  exact (Reachable.left_running (Relation.ReflTransGen.trans h steps) hx' (same.symm ▸ hl') died')

/-- How a run that has ended in an error tells of a member whose launch an observer took down. -/
structure Orphan (plan : Plan) (run : Run) (e : AssemblyError) (x : Member) : Prop where
  /-- One of its observers does not respond. -/
  dies : ∃ o ∈ x.observers, ¬ o.Responds
  /-- The run has not got it, -/
  missed : (plan.members.map (·.ordinal)).Nodup → run.Misses x.spec
  /-- and says so when launches failed. -/
  told : ∀ failures t, e = .launch failures t →
    ∃ f ∈ failures, f.member = x.spec.name ∧ f.ordinal = x.spec.ordinal

/-- **What is left running.** When a run has ended in an error, and its launches and its reaper have ended, a member
of which its observers were told without one of them taking the launch down is closed, and the platform was asked once
to stop the process, unless some call lags that somebody else has made for it. Where members are closed only by those
who have them in their hands the process of each member was stopped once unless an observer took its launch down: then
nobody has the member in hand, and its process is left running, whatever happens. -/
theorem OpenSteps.stopped_unless_felled (h₀ : OpenReachable w₀)
    (h : OpenSteps (w₀.begin plan platform channel? cancelled).2 w) {run : Run}
    (hr : w.runs[(w₀.begin plan platform channel? cancelled).1]? = some run) {e : AssemblyError}
    (failed : run.phase = .finished (.error e)) (still : w.Over (w₀.begin plan platform channel? cancelled).1)
    {m : Nat} {x : Member} {l : Launch} (hx : w.members[m]? = some x) (hl : w.launches[x.launch]? = some l)
    (hlr : l.run? = some (w₀.begin plan platform channel? cancelled).1) :
    (¬ l.Died → (x.state = .closed ∧ w.stops m = 1 ↔ ¬ Core.Lags w.closings w.stopped m)) ∧
    (l.Died → Orphan plan run e x) ∧
    (Reachable w₀ → Steps (w₀.begin plan platform channel? cancelled).2 w →
      (x.state = .closed ∧ w.stops m = 1 ↔ ¬ l.Died) ∧ (l.Died → ∀ w', Steps w w' → w'.LeftRunning m)) := by
  obtain ⟨sound, builds⟩ := h.builds h₀
  have own : x.launch ∈ Launches.ofRun w.core.launches _ := Launches.mem_ofRun.mpr ⟨l, hl, hlr⟩
  have idle := idle_of_ended hr still.reaper
  have gone (lives : ¬ l.Died) : x.state = .closed ∧ w.stops m = 1 ↔ ¬ Core.Lags w.closings w.stopped m := by
    obtain ⟨o, hp⟩ := settled_of_ended hl (still.launches hl hlr)
    have him := (sound.memberOf?_or_died hx hl hp).resolve_right lives
    exact sound.gone_iff hx (sound.ended_of_failed hr failed idle own him)
  refine ⟨gone, fun died => ?_, fun h₀ h => ⟨⟨fun ⟨closed, _⟩ died => ?_, fun lives => (gone lives).mpr ?_⟩,
    fun died w' steps => (h.reachable h₀).runs_on hx hl died steps⟩⟩
  · obtain ⟨taken, left, ledger⟩ := sound.booked _ run hr
    obtain ⟨l', hl', spec, -⟩ := sound.born.member hx
    cases hl.symm.trans hl'
    refine ⟨sound.dies_of_died hx hl died, fun distinct => ?_, fun failures t he => ?_⟩
    · exact spec ▸ ledger.misses_of_died sound.born (builds.distinct distinct) own hl died
    · obtain ⟨-, cause, t', he', tells, -⟩ := ledger.stands.failed failed
      cases cause with
      | launch fs =>
        cases he.symm.trans he'
        obtain ⟨rfl, rfl⟩ := tells
        exact spec ▸ ledger.failure_of_died sound.born (ledger.taken_perm_ofRun.mem_iff.mpr own) hl died
      | launchTimeout | unstable | cancelled => cases he.symm.trans he'
  · obtain ⟨y, hy, state, -⟩ := (h.reachable h₀).left_running hx hl died
    cases hx.symm.trans hy
    cases closed.symm.trans state
  · exact (h.reachable h₀).warranted.not_lags hx hl hlr hr failed (.inr (Run.not_busy idle))

/-- Two members that are overseen by an observer which the second one startles. -/
def startled : Plan :=
  { Plan.pair with observers := [{
      id := 1
      name := "startled"
      reaction := fun occasion seat =>
        if occasion = .realized ∧ seat.name = "worker-2" then { response := .dies "boo" } else {} }] }

/-- The world once the two members were asked for. -/
def overseen : World :=
  { stage (.custom {} []) with
    identities := 1
    runs := #[startled.plainRun (.random 0) 0 false [0, 1]]
    launches := (startled.launches 0 0 startled.observers).toArray }

theorem begin_startled : ((stage (.custom {} [])).begin startled 0 none false).2 = overseen := by
  rw [begin_plain _ rfl]
  rfl

/-- The observer took down the launch of the second member, and the first is closed again. -/
def bereft : World :=
  overseen.goes [.launch 0, .launch 0, .launch 0, .launch 0, .launch 1, .launch 1, .launch 1, .run 0, .run 0, .run 0,
    .closing 0, .closing 0, .closing 0, .closing 0, .closing 0, .closing 0, .run 0]

theorem steps_bereft : Steps ((stage (.custom {} [])).begin startled 0 none false).2 bereft := by
  rw [begin_startled]
  exact Steps.goes (by decide +kernel)

theorem bereft_failed : ∃ run e, bereft.runs[0]? = some run ∧ run.phase = .finished (.error e) := by
  have failed : bereft.runs[0]?.bind (·.outcome?.map fun
      | .error _ => true
      | .ok _ => false) = some true := by decide +kernel
  obtain ⟨run, hr, same⟩ := Option.bind_eq_some_iff.mp failed
  obtain ⟨o, ho, error⟩ := Option.map_eq_some_iff.mp same
  cases o with
  | ok a => cases error
  | error e => exact ⟨run, e, hr, Run.outcome?_eq_some.mp ho⟩

theorem bereft_over : bereft.Over 0 where
  launches {i l} hl _ := by
    have size : bereft.launches.size = 2 := by decide +kernel
    have ended : ∀ i < 2, bereft.readiness (.launch i) = .ended := by decide +kernel
    exact ended i (size ▸ lt_of_getElem?_eq_some hl)
  reaper := by decide +kernel

/-- Whose launch launched a member, and what became of the launch. -/
def launchOf? (w : World) (m : Nat) : Option (Option Nat × Launch.Phase) :=
  w.members[m]?.bind fun x => w.launches[x.launch]?.map fun l => (l.run?, l.phase)

theorem exists_of_launchOf? {m : Nat} {r? : Option Nat} {p : Launch.Phase} (h : w.launchOf? m = some (r?, p)) :
    ∃ x l, w.members[m]? = some x ∧ w.launches[x.launch]? = some l ∧ l.run? = r? ∧ l.phase = p := by
  obtain ⟨x, hx, launched⟩ := Option.bind_eq_some_iff.mp h
  obtain ⟨l, hl, same⟩ := Option.map_eq_some_iff.mp launched
  cases same
  exact ⟨x, l, hx, hl, rfl, rfl⟩

set_option maxRecDepth 4000 in
/-- The first member is closed, and the process of the second is left running. -/
theorem stopped_unless_felled_bereft : (∃ x, bereft.members[0]? = some x ∧ x.state = .closed ∧ bereft.stops 0 = 1) ∧
    ∃ run e x, bereft.runs[0]? = some run ∧ run.phase = .finished (.error e) ∧ bereft.members[1]? = some x ∧
      Orphan startled run e x ∧ ∀ w', Steps bereft w' → w'.LeftRunning 1 := by
  obtain ⟨run, e, hr, failed⟩ := bereft_failed
  obtain ⟨x, l, hx, hl, hlr, hp⟩ := exists_of_launchOf?
    (rfl : bereft.launchOf? 0 = some (some 0, .settled (.realized 0 [])))
  obtain ⟨y, k, hy, hk, hkr, hq⟩ := exists_of_launchOf?
    (rfl : bereft.launchOf? 1 = some (some 0, .settled (.died "boo")))
  obtain ⟨-, -, held⟩ := OpenSteps.stopped_unless_felled (reachable_stage _).opened steps_bereft.opened hr failed
    bereft_over hx hl hlr
  obtain ⟨-, orphan, held'⟩ := OpenSteps.stopped_unless_felled (reachable_stage _).opened steps_bereft.opened hr
    failed bereft_over hy hk hkr
  refine ⟨⟨x, hx, ?_⟩, run, e, y, hr, failed, hy, orphan ⟨_, hq⟩, ?_⟩
  · refine (held (reachable_stage _) steps_bereft).1.mpr fun ⟨message, died⟩ => ?_
    cases hp.symm.trans died
  · exact (held' (reachable_stage _) steps_bereft).2 ⟨_, hq⟩

set_option maxRecDepth 4000 in
/-- A failed run whose launches and reaper have ended may leave a process running that nobody has asked to stop. -/
theorem process_left_running :
    ¬ ∀ (w₀ w : World) (plan : Plan) (run : Run) (e : AssemblyError) (m : Nat) (x : Member) (l : Launch),
      Reachable w₀ → Steps (w₀.begin plan 0 none false).2 w → (plan.members.map (·.ordinal)).Nodup →
      w.runs[(w₀.begin plan 0 none false).1]? = some run → run.phase = .finished (.error e) →
      w.Over (w₀.begin plan 0 none false).1 → w.members[m]? = some x → w.launches[x.launch]? = some l →
      l.run? = some (w₀.begin plan 0 none false).1 → w.stops m = 1 := by
  intro once
  obtain ⟨run, e, hr, failed⟩ := bereft_failed
  obtain ⟨y, k, hy, hk, hkr, -⟩ := exists_of_launchOf?
    (rfl : bereft.launchOf? 1 = some (some 0, .settled (.died "boo")))
  have stopped := once (stage (.custom {} [])) bereft startled run e 1 y k (reachable_stage _) steps_bereft
    Plan.pair_distinct hr failed bereft_over hy hk hkr
  have never : bereft.stops 1 = 0 := by decide +kernel
  rw [never] at stopped
  cases stopped

end World

end Muster
