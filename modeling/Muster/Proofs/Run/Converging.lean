import Muster.Proofs.Run.Returning
import Muster.Proofs.Run.Watch

/-!
# How long a run asks

* `Watch.Kept`: nothing has delayed a run since it began to ask, and its caller has not given up;
  **`Watch.Begins.keeps`**: then it stands where its watch wants it to.
* `Watch.Kept.finishes`, `Watch.Kept.returns`: it can go on until it is done with asking, and until it has ended.
* `Watch.Succeeded`, `Watch.Failed`: how it may end.
* **`Watch.Begins.converges`**: when a run asks that nothing delays, when it ends in an assembly, and when it
  gives up.
-/

namespace Muster

namespace Watch

variable {s : Watch} {w w' w₁ : World} {run run' : Run} {polls : List Poll}

/-! ### Paths -/

/-- The run of a watch has been kept on time from the beginning on, and its caller has not given up. -/
structure Kept (s : Watch) (w₀ w : World) (polls : List Poll) (run : Run) : Prop where
  punctual : World.Punctual s.run w₀ w polls
  there : w.runs[s.run]? = some run
  goes : run.cancelled = false

variable {w₀ : World}

theorem Begins.reaches (begins : s.Begins w₁ w₀) (h : World.Punctual s.run w₀ w polls) : World.Reachable w :=
  (begins.reachable.tail begins.step).trans h.logs.steps

/-- A run that begins to ask has asked nothing yet, and is due now. -/
theorem Begins.stands (begins : s.Begins w₁ w₀) : ∃ run, w₀.runs[s.run]? = some run ∧ s.Stands w₀ [] run := by
  obtain ⟨run₁, hr₁, launching⟩ := begins.launching
  obtain ⟨run, hr, asking, own⟩ := begins.asking
  refine ⟨run, hr, ?_⟩
  have none : run₁.evaluations = 0 := begins.reachable.unasked hr₁ launching
  rcases begins.step.ticks hr₁ hr with dial | ⟨ticks, -⟩
  · have same : run.phase = run₁.phase := congrArg Run.Dial.phase dial
    cases asking.symm.trans (same.trans launching)
  have lasts := ticks.lasts
  cases ticks with
  | gathers _ now dial =>
    have deadline : run.deadline = s.start + s.timeout := by
      rw [show run.deadline = _ from congrArg Run.Dial.deadline dial, ← lasts.1, own.timeout,
        Duration.millis_ofMillis, ← now, begins.start]
    have count : run.evaluations = 0 := (congrArg Run.Dial.evaluations dial).trans none
    refine ⟨own, deadline, count, Nat.zero_le _, fun i q hi => absurd hi (by simp), ?_⟩
    rw [asking]
    refine .asking (fun q hq => absurd hq List.not_mem_nil) (Nat.succ_pos _) ?_
    rw [begins.start, List.length_nil, asksAt, Nat.zero_mul, Nat.zero_min, Nat.add_zero]
  | succeedsEmpty _ dial | leaves _ _ dial => cases asking.symm.trans (congrArg Run.Dial.phase dial)
  | holds hp | degrades hp | rests hp | wakes hp | fails hp => cases launching.symm.trans hp

/-- **Where it stands.** A run that nothing delays stands where its watch wants it to, unless its caller gives
up. -/
theorem Begins.keeps (begins : s.Begins w₁ w₀) (h : World.Punctual s.run w₀ w polls) :
    ∃ run, w.runs[s.run]? = some run ∧ (run.cancelled = false → s.Stands w polls run) := by
  induction h with
  | start =>
    obtain ⟨run, hr, stands⟩ := begins.stands
    exact ⟨run, hr, fun _ => stands⟩
  | go before step onTime ih =>
    obtain ⟨run, hr, stands⟩ := ih
    have reachable := begins.reaches before
    have move := step.move reachable.sound
    obtain ⟨run', hr', -⟩ := move.keeps.runs hr
    refine ⟨run', hr', fun goes' => ?_⟩
    have goes : run.cancelled = false := by
      refine Bool.eq_false_iff.mpr fun gone => ?_
      exact Bool.eq_false_iff.mp goes' ((move.run_lasts hr hr').cancelled gone)
    exact (stands goes).step reachable step onTime hr hr' goes

theorem Kept.stands (h : s.Kept w₀ w polls run) (begins : s.Begins w₁ w₀) : s.Stands w polls run := by
  obtain ⟨x, hx, stands⟩ := begins.keeps h.punctual
  cases h.there.symm.trans hx
  exact stands h.goes

end Watch

/-! ### Going on -/

/-- A run asks, or sleeps until it asks again. -/
def Run.Watching (run : Run) : Prop := run.phase = .asking ∨ ∃ due, run.phase = .resting due

namespace World

variable {r : Nat} {w₀ w w' : World} {run : Run}

theorem Punctual.trans {polls more : List Poll} (h : Punctual r w₀ w polls) (later : Punctual r w w' more) :
    Punctual r w₀ w' (polls ++ more) := by
  induction later with
  | start =>
    rw [List.append_nil]
    exact h
  | go _ step onTime ih =>
    rw [← List.append_assoc]
    exact ih.go step onTime

/-- Nothing delays a run that is done with asking. -/
theorem OnTime.of_idle (hr : w.runs[r]? = some run) (idle : ¬ run.Watching) : OnTime r w w' where
  asking x hx hp := by
    cases hr.symm.trans hx
    exact absurd (.inl hp) idle
  resting x due hx hp := by
    cases hr.symm.trans hx
    exact absurd (.inr ⟨due, hp⟩) idle

/-- Nothing delays a run that is about to ask while no time passes. -/
theorem OnTime.of_asking (hr : w.runs[r]? = some run) (hp : run.phase = .asking) (now : w'.now = w.now) :
    OnTime r w w' where
  asking _ _ _ := now
  resting x due hx hp' := by
    cases hr.symm.trans hx
    cases hp.symm.trans hp'

/-- Nothing delays a run that sleeps while it is not late. -/
theorem OnTime.of_resting {due : Nat} (hr : w.runs[r]? = some run) (hp : run.phase = .resting due)
    (early : w'.now ≤ due) : OnTime r w w' where
  asking x hx hp' := by
    cases hr.symm.trans hx
    cases hp.symm.trans hp'
  resting x due' hx hp' := by
    cases hr.symm.trans hx
    cases hp.symm.trans hp'
    exact early

/-- Members keep their observers, which respond as before. -/
theorem Answered.steps {members : List Nat} (answered : w.Answered members) (sound : w.core.Sound)
    (there : ∀ m ∈ members, ∃ x, w.members[m]? = some x) (steps : Steps w w') : w'.Answered members := by
  intro m hm x' hx'
  obtain ⟨x, hx⟩ := there m hm
  obtain ⟨y, hy, same⟩ := steps.observers_eq sound hx
  cases hx'.symm.trans hy
  rw [same]
  exact answered m hm x hx

end World

namespace Watch

variable {s : Watch} {w₀ w w' w₁ : World} {run run' : Run} {polls more : List Poll}

theorem Kept.trans (h : s.Kept w₀ w polls run) (later : s.Kept w w' more run') :
    s.Kept w₀ w' (polls ++ more) run' :=
  ⟨h.punctual.trans later.punctual, later.there, later.goes⟩

theorem Kept.refl (hr : w.runs[s.run]? = some run) (goes : run.cancelled = false) : s.Kept w w [] run :=
  ⟨.start, hr, goes⟩

/-- A run that is due asks. -/
theorem Kept.ask (h : s.Kept w₀ w polls run) (begins : s.Begins w₁ w₀) (hp : run.phase = .asking) :
    ∃ w' q run', s.Kept w w' [q] run' := by
  obtain ⟨punctual, hr, goes⟩ := h
  have ready : w.readiness (.run s.run) = .ready := by
    simp only [World.readiness, hr, Option.map_some, Option.getD_some, World.runReadiness, hp]
  have asks : w.advance (.run s.run) = w.stepAsking s.run run := by
    simp only [World.advance, World.stepRun, hr, hp]
  have step : World.Step w (w.stepAsking s.run run) := asks ▸ .advance (.run s.run) ready
  have now : (w.stepAsking s.run run).now = w.now := asks ▸ World.now_stepRun w s.run
  obtain ⟨run', set, same, ticks⟩ := World.sets_stepAsking hr hp
  have hr' : (w.stepAsking s.run run).runs[s.run]? = some run' := set ▸ getElem?_replace_self hr run'
  have more : run'.evaluations = run.evaluations + 1 := by
    cases ticks with
    | holds _ dial | degrades _ _ _ dial | rests _ _ _ dial => exact congrArg Run.Dial.evaluations dial
    | leaves _ why =>
      rcases why with launching | ⟨-, gone⟩
      · cases hp.symm.trans launching
      · cases goes.symm.trans gone
    | gathers hp' | succeedsEmpty hp' | wakes hp' | fails hp' => cases hp.symm.trans hp'
  obtain ⟨one, -⟩ := step.polls_of_more (begins.reaches punctual) hr hr' more
  have path := World.Punctual.start.go step (.of_asking hr hp now)
  rw [one] at path
  exact ⟨_, _, run', path, hr', same.trans goes⟩

/-- A run that sleeps awakes when it is due. -/
theorem Kept.wake (h : s.Kept w₀ w polls run) (begins : s.Begins w₁ w₀) {due : Nat}
    (hp : run.phase = .resting due) : ∃ w' run', s.Kept w w' [] run' ∧ run'.phase = .asking := by
  have reachable := begins.reaches h.punctual
  have stage := hp ▸ (h.stands begins).stage
  obtain ⟨punctual, hr, goes⟩ := h
  cases stage with
  | resting _ _ early _ =>
    -- time passes until the run is due
    let u : World := { w with now := w.now + (due - w.now) }
    have on : u.now = due := Nat.add_sub_of_le early
    have pass : World.Step w u := .pass (due - w.now)
    have hu : u.runs[s.run]? = some run := hr
    have slept := World.Punctual.start.go pass (.of_resting hr hp (Nat.le_of_eq on))
    rw [pass.polls_of_same reachable hr hu rfl, List.append_nil] at slept
    have ready : u.readiness (.run s.run) = .ready := by
      simp only [World.readiness, hu, Option.map_some, Option.getD_some, World.runReadiness, hp, goes,
        World.readyFrom, on, Bool.false_eq_true, if_false, Nat.le_refl, if_true]
    have step : World.Step u (u.stepRun s.run) := .advance (.run s.run) ready
    have now : (u.stepRun s.run).now ≤ due := Nat.le_of_eq ((World.now_stepRun u s.run).trans on)
    have hr' : (u.stepRun s.run).runs[s.run]? = some { run with phase := .asking } := by
      simp only [World.stepRun, hu, hp, World.modifyRun]
      rw [Array.getElem?_modify, if_pos rfl, hu, Option.map_some]
    have path := slept.go step (.of_resting hu hp now)
    rw [step.polls_of_same (reachable.tail pass) hu hr' rfl, List.append_nil] at path
    exact ⟨_, _, ⟨path, hr', goes⟩, rfl⟩

/-- **Over.** A run that nothing delays can go on until it is done with asking. -/
theorem Kept.finishes (h : s.Kept w₀ w polls run) (begins : s.Begins w₁ w₀) :
    ∃ w' more run', s.Kept w w' more run' ∧ ¬ run'.Watching := by
  generalize left : s.rounds - polls.length = n
  induction n using Nat.strong_induction_on generalizing w polls run with
  | h n ih =>
    by_cases watching : run.Watching
    · obtain ⟨v, x, waits, asking⟩ : ∃ v x, s.Kept w v [] x ∧ x.phase = .asking := by
        rcases watching with hp | ⟨due, hp⟩
        · exact ⟨w, run, .refl h.there h.goes, hp⟩
        · exact h.wake begins hp
      have here : s.Kept w₀ v polls x := List.append_nil polls ▸ h.trans waits
      have stage := asking ▸ (here.stands begins).stage
      cases stage with
      | asking _ some =>
        obtain ⟨v', q, y, asks⟩ := here.ask begins asking
        have less : s.rounds - (polls ++ [q]).length < n := by
          rw [List.length_append, List.length_singleton]
          omega
        obtain ⟨w', more, run', later, done⟩ := ih _ less (here.trans asks) rfl
        exact ⟨w', [q] ++ more, run', waits.trans (asks.trans later), done⟩
    · exact ⟨w, [], run, .refl h.there h.goes, watching⟩

/-- A run that is done with asking waits for calls. -/
theorem Kept.waits (h : s.Kept w₀ w polls run) (begins : s.Begins w₁ w₀) (idle : ¬ run.Watching)
    (waiting : World.Waiting w w') : s.Kept w w' [] run := by
  induction waiting with
  | refl => exact .refl h.there h.goes
  | @tail u v _ waits ih =>
    have hv : v.runs[s.run]? = some run := waits.runs ▸ ih.there
    have reachable : World.Reachable u := begins.reaches (h.trans ih).punctual
    have path := ih.punctual.go waits.step (.of_idle ih.there idle)
    rw [waits.step.polls_of_same reachable ih.there hv rfl, List.append_nil] at path
    exact ⟨path, hv, h.goes⟩

/-- **Returning.** A run that nothing delays can go on until it has ended, when the observers of its members
respond. -/
theorem Kept.returns (h : s.Kept w₀ w polls run) (begins : s.Begins w₁ w₀) (answered : w.Answered s.members) :
    ∃ w' more run' o, s.Kept w w' more run' ∧ run'.phase = .finished o := by
  have members := (h.stands begins).own.members
  have sound := (begins.reaches h.punctual).sound
  obtain ⟨v, asked, x, later, done⟩ := h.finishes begins
  have here : s.Kept w₀ v (polls ++ asked) x := h.trans later
  have stands := here.stands begins
  generalize hp : x.phase = p
  have stage := hp ▸ stands.stage
  cases stage with
  | asking => exact absurd (.inl hp) done
  | resting => exact absurd (.inr ⟨_, hp⟩) done
  | stable | expired => exact ⟨v, asked, x, _, later, hp⟩
  | expires =>
    have there (m : Nat) (hm : m ∈ s.members) : ∃ y, w.members[m]? = some y := by
      obtain ⟨_, _, y, _, _, _, _, hy, _⟩ := sound.launch_of_member h.there (members ▸ hm)
      exact ⟨y, hy⟩
    have answered := answered.steps sound there later.punctual.logs.steps
    rw [← stands.own.members] at answered
    obtain ⟨u, t, waiting, ready, ended⟩ := (begins.reaches here.punctual).returns here.there hp answered
    have waits := here.waits begins done waiting
    have step : World.Step u (u.stepRun s.run) := .advance (.run s.run) ready
    have path := (later.trans waits).punctual.go step (.of_idle waits.there done)
    exact ⟨_, _, _, _, ⟨path, ended, here.goes⟩, rfl⟩

end Watch

/-! ### Converging -/

namespace World

/-- What is seen of members that run. -/
def Sees (w : World) (members : List Nat) (seen : List Sighting) : Prop :=
  List.Forall₂ (fun m sight => ∃ x, w.members[m]? = some x ∧
    sight = ⟨x.id, x.spec.name, x.spec.ordinal, .realized, x.process.pid⟩) members seen

theorem sees_sightings {w : World} {members : List Nat} (untouched : ∀ m ∈ members, w.Untouched m) :
    w.Sees members (w.sightings members) := by
  unfold Sees sightings views
  induction members with
  | nil => exact .nil
  | cons m members ih =>
    obtain ⟨x, hx, state, -⟩ := untouched m List.mem_cons_self
    have view : w.view? m = some ⟨⟨x.id, x.spec.name, x.spec.ordinal, x.state, x.process.pid⟩,
        x.spec.environment⟩ := by
      unfold view?
      rw [hx]
      rfl
    rw [List.filterMap_cons_some view, List.map_cons]
    exact .cons ⟨x, hx, by rw [state]⟩ (ih fun n hn => untouched n (List.mem_cons_of_mem m hn))

end World

namespace Watch

variable {s : Watch} {w₀ w w₁ : World} {run : Run} {polls : List Poll} {answers : Nat → Verdict}

/-- A run got its first positive answer to the question with a number, counted from zero on, and ended in that
very step in an assembly, which tells how often it was asked. -/
structure Succeeded (s : Watch) (w : World) (polls : List Poll) (run : Run) (k : Nat) : Prop where
  count : polls.length = k + 1
  ended : ∃ q v a, polls.getLast? = some q ∧ World.Step q.before v ∧
    v.now = s.start + min (k * s.interval) s.timeout ∧ World.Steps v w ∧
    (∃ x, v.runs[s.run]? = some x ∧ x.phase = .finished (.ok a)) ∧ run.phase = .finished (.ok a) ∧
    ∃ x, w.assemblies[a]? = some x ∧ x.evaluations = k + 1

/-- A run has put all questions that it may, the last one when the time was up, and ends in an error that shows
the members as they were then; it has ended once they are closed. -/
structure Failed (s : Watch) (polls : List Poll) (run : Run) : Prop where
  count : polls.length = s.rounds
  ended : ∃ q seen, polls.getLast? = some q ∧ q.before.now = s.start + s.timeout ∧
    q.before.Sees s.members seen ∧ ((∃ places, run.phase = .rollingBack (.unstable seen) places) ∨
      ∃ t, run.phase = .finished (.error (.unstable (.ofMillis s.timeout) s.rounds seen t)))

/-- What comes of a run that nothing delays, and whose questions get answers. -/
structure Converges (s : Watch) (w : World) (answers : Nat → Verdict) (polls : List Poll) (run : Run) :
    Prop where
  /-- It asks on time, -/
  asks : ∀ i q, polls[i]? = some q → s.Asks i q
  /-- so often at most, -/
  few : polls.length ≤ s.rounds
  /-- and not when the time is up any more. -/
  timely : (∀ q ∈ polls, q.before.now ≤ s.start + s.timeout) ∧ (run.Watching → w.now ≤ s.start + s.timeout)
  /-- It succeeds with the first positive answer that it gets. -/
  succeeds : ∀ k < s.rounds, (answers k).holds = true → (∀ i < k, (answers i).holds = false) →
    run.Watching ∧ polls.length ≤ k ∨ s.Succeeded w polls run k
  /-- It fails when it gets none. -/
  fails : (∀ k < s.rounds, (answers k).holds = false) →
    run.Watching ∧ polls.length < s.rounds ∨ s.Failed polls run
  /-- It can always go on until it is done with asking, -/
  finishes : ∃ w' more run', s.Kept w w' more run' ∧ ¬ run'.Watching
  /-- and until it has ended, when the observers of its members respond. -/
  returns : w.Answered s.members → ∃ w' more run' o, s.Kept w w' more run' ∧ run'.phase = .finished o

/-- Questions in vain stop before the first positive answer. -/
theorem Vain.length_le (vain : s.Vain polls) (given : ∀ i q, polls[i]? = some q → q.verdict s.predicate = answers i)
    {k : Nat} (holds : (answers k).holds = true) : polls.length ≤ k := by
  by_contra more
  obtain ⟨q, hk⟩ : ∃ q, polls[k]? = some q := ⟨_, List.getElem?_eq_getElem (Nat.lt_of_not_le more)⟩
  have fails := vain _ (List.mem_of_getElem? hk)
  rw [given k _ hk, holds] at fails
  cases fails

/-- The last question was put on time, and got an answer. -/
theorem Stands.last (h : s.Stands w polls run) (given : ∀ i q, polls[i]? = some q → q.verdict s.predicate = answers i)
    {q : Poll} (hq : polls.getLast? = some q) :
    ∃ n, polls.length = n + 1 ∧ s.Asks n q ∧ q.verdict s.predicate = answers n := by
  have some : polls ≠ [] := fun none => by
    rw [none] at hq
    cases hq
  obtain ⟨n, count⟩ := Nat.exists_eq_succ_of_ne_zero fun none => some (List.length_eq_zero_iff.mp none)
  rw [List.getLast?_eq_getElem?, count] at hq
  exact ⟨n, count, h.asks n q hq, given n q hq⟩

/-- The questions were put at the times of the watch. -/
theorem Stands.times (h : s.Stands w polls run) :
    polls.map (·.before.now) = (List.range polls.length).map s.asksAt := by
  refine List.ext_getElem (by simp) fun i hi _ => ?_
  rw [List.length_map] at hi
  rw [List.getElem_map, List.getElem_map, List.getElem_range]
  exact (h.asks i _ (List.getElem?_eq_getElem hi)).now

/-- The first positive answer ends a run in an assembly. -/
theorem Kept.succeeds (h : s.Kept w₀ w polls run) (begins : s.Begins w₁ w₀)
    (given : ∀ i q, polls[i]? = some q → q.verdict s.predicate = answers i) {k : Nat} (hk : k < s.rounds)
    (holds : (answers k).holds = true) (fails : ∀ i < k, (answers i).holds = false) :
    run.Watching ∧ polls.length ≤ k ∨ s.Succeeded w polls run k := by
  have stands := h.stands begins
  generalize hp : run.phase = p
  have stage := hp ▸ stands.stage
  cases stage with
  | asking vain => exact .inl ⟨.inl hp, vain.length_le given holds⟩
  | resting vain => exact .inl ⟨.inr ⟨_, hp⟩, vain.length_le given holds⟩
  | expires expires | expired expires =>
    exact absurd (expires.vain.length_le given holds) (Nat.not_le_of_lt (expires.last ▸ hk))
  | @stable a q vain hq positive ends =>
    obtain ⟨n, count, asked, answer⟩ := stands.last given hq
    -- those before the last answer were not positive, and none is before the answer with number `k`
    have early : n ≤ k := by
      have short := vain.length_le (fun i q hi => given i q ?_) holds
      · rwa [List.length_dropLast, count] at short
      · rw [List.getElem?_dropLast] at hi
        split at hi
        · exact hi
        · cases hi
    have late : k ≤ n := by
      by_contra before
      rw [answer, fails n (Nat.lt_of_not_le before)] at positive
      cases positive
    obtain rfl : n = k := Nat.le_antisymm early late
    obtain ⟨v, step, now, steps, ended⟩ := ends
    obtain ⟨x, hx, kept⟩ := (begins.reaches h.punctual).delivered h.there hp
    refine .inr ⟨count, q, v, a, hq, step, now.trans asked.now, steps, ended, hp, x, hx, ?_⟩
    exact kept.evaluations.trans (stands.count.trans count)

/-- A run that gets no positive answer fails when the time is up. -/
theorem Kept.fails (h : s.Kept w₀ w polls run) (begins : s.Begins w₁ w₀)
    (given : ∀ i q, polls[i]? = some q → q.verdict s.predicate = answers i)
    (fails : ∀ k < s.rounds, (answers k).holds = false) :
    run.Watching ∧ polls.length < s.rounds ∨ s.Failed polls run := by
  have stands := h.stands begins
  have expired {seen : List Sighting} (expires : s.Expires polls seen) :
      ∃ q, polls.getLast? = some q ∧ q.before.now = s.start + s.timeout ∧ q.before.Sees s.members seen := by
    obtain ⟨q, hq, rfl⟩ := expires.seen
    obtain ⟨n, count, asked, -⟩ := stands.last given hq
    refine ⟨q, hq, ?_, World.sees_sightings asked.untouched⟩
    rw [asked.now, asksAt_last (count.symm.trans expires.last)]
  generalize hp : run.phase = p
  have stage := hp ▸ stands.stage
  cases stage with
  | asking _ more => exact .inl ⟨.inl hp, more⟩
  | resting _ more => exact .inl ⟨.inr ⟨_, hp⟩, more⟩
  | stable _ hq positive =>
    obtain ⟨n, count, -, answer⟩ := stands.last given hq
    have few : n + 1 ≤ s.rounds := count ▸ stands.few
    rw [answer, fails n few] at positive
    cases positive
  | expires expires =>
    obtain ⟨q, hq, now, sees⟩ := expired expires
    exact .inr ⟨expires.last, q, _, hq, now, sees, .inl ⟨_, hp⟩⟩
  | expired expires =>
    obtain ⟨q, hq, now, sees⟩ := expired expires
    exact .inr ⟨expires.last, q, _, hq, now, sees, .inr ⟨_, hp⟩⟩

/-- A run asks no more when the time is up. -/
theorem Stands.timely (h : s.Stands w polls run) (watching : run.Watching) : w.now ≤ s.start + s.timeout := by
  generalize hp : run.phase = p
  have stage := hp ▸ h.stage
  cases stage with
  | asking _ _ now => exact now ▸ s.asksAt_le _
  | resting _ _ early on => exact Nat.le_trans early (on ▸ s.asksAt_le _)
  | stable | expires | expired => rcases watching with hp' | ⟨due, hp'⟩ <;> cases hp.symm.trans hp'

/-- **Converging.** A run that nothing delays puts its questions at the multiples of its interval, and a last one
when the time is up. With the first positive answer that it gets it ends at once in an assembly; when it gets
none it fails, and shows all members as they were before it closed them. It never gets stuck. -/
theorem Begins.converges (begins : s.Begins w₁ w₀) (h : s.Kept w₀ w polls run)
    (given : ∀ i q, polls[i]? = some q → q.verdict s.predicate = answers i) :
    s.Converges w answers polls run where
  asks := (h.stands begins).asks
  few := (h.stands begins).few
  timely := by
    refine ⟨fun q hq => ?_, (h.stands begins).timely⟩
    obtain ⟨i, hi⟩ := List.mem_iff_getElem?.mp hq
    rw [((h.stands begins).asks i q hi).now]
    exact s.asksAt_le i
  succeeds := fun _ hk holds fails => h.succeeds begins given hk holds fails
  fails := h.fails begins given
  finishes := h.finishes begins
  returns := h.returns begins

end Watch

/-! ### A run that hesitates -/

/-- Two members that are stable half a second later, which is all the time that there is. -/
def Plan.hesitant : Plan :=
  { Plan.pair with
    options := (Options.withPredicate ∅ (.fromTime 1 "later" 500)).timed (.ofMillis 500) (.ofMillis 200) }

/-- The world once the two members were asked for. -/
def World.hesitant : World :=
  openedFor (.custom {} []) (.ofMillis 500) (.ofMillis 200) (.fromTime 1 "later" 500)

namespace World

theorem begin_hesitant : ((stage (.custom {} [])).begin .hesitant 0 none false).2 = hesitant := by
  have all : (Options.withPredicate ∅ (.fromTime 1 "later" 500)).parallelismOf? = none := by
    rw [Options.parallelismOf?_withPredicate, Options.parallelismOf?_empty]
  refine (begin_pair_timed _ (.ofMillis 500) (.ofMillis 200) all).trans ?_
  rw [Options.predicateOf_withPredicate]
  rfl

/-- Its members were launched. -/
def hesitantCrossed : World :=
  hesitant.goes [.launch 1, .launch 1, .launch 1, .launch 0, .launch 0, .launch 0, .run 0, .run 0]

/-- The members were gathered, and the predicate is about to be asked. -/
def hesitantGathered : World :=
  hesitantCrossed.modifyRun 0 fun run =>
    { run with members := [1, 0], deadline := hesitantCrossed.now + run.timeout.millis, phase := .asking }

/-- The predicate was asked as often as it may be. -/
def hesitantStable : World :=
  (((hesitantGathered.later 0 [.run 0]).later 200 [.run 0, .run 0]).later 200 [.run 0, .run 0]).later 100
    [.run 0, .run 0]

/-- Strands that are ready some time later when their turn comes, and do not delay a run, go on. -/
theorem Punctual.later {r : Nat} {w₀ w : World} {polls : List Poll} (h : Punctual r w₀ w polls) (ms : Nat)
    (ss : List Strand) (early : isOnTime r w { w with now := w.now + ms } = true)
    (ready : canGoOnTime r { w with now := w.now + ms } ss = true) :
    ∃ polls, Punctual r w₀ (w.later ms ss) polls :=
  (h.go (.pass ms) (.of_isOnTime early)).goes ready

theorem reachable_hesitant : Reachable hesitantCrossed := by
  have begun : Reachable hesitant := by
    rw [← begin_hesitant]
    exact (reachable_stage _).tail (.begin .hesitant 0 none false)
  exact begun.trans (Steps.goes (by decide +kernel))

end World

/-- What the run goes by that launched the two members. -/
def Watch.hesitant : Watch where
  run := 0
  members := [1, 0]
  predicate := .fromTime 1 "later" 500
  start := 0
  timeout := 500
  interval := 200
  positive := by decide

namespace Watch

theorem begins_hesitant : hesitant.Begins World.hesitantCrossed World.hesitantGathered where
  reachable := World.reachable_hesitant
  step := .gather rfl (List.cons_ne_nil 1 [0]) (.swap 0 1 []) (by decide +kernel) (by decide +kernel)
  launching := Option.map_eq_some_iff.mp (rfl : World.hesitantCrossed.runs[0]?.map (·.phase) = some .launching)
  asking := ⟨_, rfl, rfl, rfl, rfl, rfl, rfl⟩
  start := by decide +kernel

theorem punctual_hesitant : ∃ polls, World.Punctual 0 World.hesitantGathered World.hesitantStable polls := by
  obtain ⟨_, once⟩ : ∃ polls, World.Punctual 0 World.hesitantGathered _ polls :=
    World.Punctual.start.later 0 [.run 0] (by decide +kernel) (by decide +kernel)
  obtain ⟨_, twice⟩ := once.later 200 [.run 0, .run 0] (by decide +kernel) (by decide +kernel)
  obtain ⟨_, thrice⟩ := twice.later 200 [.run 0, .run 0] (by decide +kernel) (by decide +kernel)
  exact thrice.later 100 [.run 0, .run 0] (by decide +kernel) (by decide +kernel)

set_option maxRecDepth 4000 in
/-- The members are asked about four times, at last when the time is up; then they are stable. -/
theorem converges_hesitant : ∃ polls run, hesitant.Kept World.hesitantGathered World.hesitantStable polls run ∧
    polls.map (·.before.now) = [0, 200, 400, 500] ∧ hesitant.Succeeded World.hesitantStable polls run 3 := by
  obtain ⟨polls, punctual⟩ := punctual_hesitant
  have after : World.hesitantStable.runs[0]?.map (fun run => (run.cancelled, run.phase)) =
      some (false, .finished (.ok 0)) := rfl
  obtain ⟨run, hr, same⟩ := Option.map_eq_some_iff.mp after
  obtain ⟨goes, hp⟩ := Prod.mk.injEq .. ▸ same
  have kept : hesitant.Kept World.hesitantGathered World.hesitantStable polls run := ⟨punctual, hr, goes⟩
  have stands := kept.stands begins_hesitant
  have given (i : Nat) (q : Poll) (hi : polls[i]? = some q) :
      q.verdict hesitant.predicate = .answer (500 ≤ hesitant.asksAt i) := by
    rw [← (stands.asks i q hi).now]
    rfl
  have converges := begins_hesitant.converges kept given
  have succeeded := (converges.succeeds 3 (by decide) rfl (by decide)).resolve_left fun ⟨watching, _⟩ => by
    rcases watching with hp' | ⟨due, hp'⟩ <;> cases hp.symm.trans hp'
  refine ⟨polls, run, kept, ?_, succeeded⟩
  rw [stands.times, succeeded.count]
  rfl

end Watch

end Muster
