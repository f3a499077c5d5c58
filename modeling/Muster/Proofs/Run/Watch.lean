import Muster.Proofs.Run.Punctual

/-!
# Asking on time, question by question

* `Watch`: what a run goes by that asks until its members are stable; `Watch.asksAt`, `Watch.rounds`: when it
  asks, and how often at most.
* `Watch.Begins`: a run has just launched its members, and is about to ask for the first time.
* `Watch.Stands`: where a run stands that nothing has delayed since then.
* **`Watch.Stands.step`**: every step that does not delay a run keeps it.
-/

namespace Muster

/-- What a run goes by that asks until its members are stable. -/
structure Watch where
  /-- The place of the run. -/
  run : Nat
  /-- Its members. -/
  members : List Nat
  /-- Who decides when they are stable. -/
  predicate : Predicate
  /-- When it begins. -/
  start : Nat
  /-- The time until it gives up, in milliseconds. -/
  timeout : Nat
  /-- The time between two questions, in milliseconds. -/
  interval : Nat
  /-- There is some time between two questions. -/
  positive : 1 ≤ interval

namespace Watch

variable (s : Watch)

/-- When a question is put, counted from zero on. -/
def asksAt (i : Nat) : Nat := s.start + min (i * s.interval) s.timeout

/-- How many questions are put at most: one for each interval that has begun, and one at the end. -/
def rounds : Nat := (s.timeout + s.interval - 1) / s.interval + 1

/-- There is another question just when there is time left at the last one. -/
theorem succ_lt_rounds {n : Nat} : n + 1 < s.rounds ↔ n * s.interval < s.timeout := by
  have positive := s.positive
  unfold rounds
  rw [Nat.add_lt_add_iff_right, Nat.lt_iff_add_one_le, Nat.le_div_iff_mul_le positive, Nat.succ_mul]
  omega

theorem asksAt_le (i : Nat) : s.asksAt i ≤ s.start + s.timeout :=
  Nat.add_le_add_left (Nat.min_le_right _ _) _

variable {s}

/-- A run that asks in time is due again at the next time. -/
theorem asksAt_succ {n : Nat} (early : n * s.interval < s.timeout) :
    min (s.asksAt n + s.interval) (s.start + s.timeout) = s.asksAt (n + 1) := by
  unfold asksAt
  rw [Nat.succ_mul]
  omega

/-- The last question is put when the time is up. -/
theorem asksAt_last {n : Nat} (last : n + 1 = s.rounds) : s.asksAt n = s.start + s.timeout := by
  have late : ¬ n * s.interval < s.timeout := by
    rw [← s.succ_lt_rounds]
    exact Nat.not_lt_of_le (Nat.le_of_eq last.symm)
  unfold asksAt
  omega

/-- A run asks about the members, as long as the watch allows. -/
structure Of (s : Watch) (run : Run) : Prop where
  members : run.members = s.members
  predicate : run.predicate = s.predicate
  timeout : run.timeout = .ofMillis s.timeout
  interval : run.pollInterval = .ofMillis s.interval

/-- A run has just launched its members, and is about to ask for the first time. -/
structure Begins (s : Watch) (w₁ w : World) : Prop where
  reachable : World.Reachable w₁
  step : World.Step w₁ w
  launching : ∃ run, w₁.runs[s.run]? = some run ∧ run.phase = .launching
  asking : ∃ run, w.runs[s.run]? = some run ∧ run.phase = .asking ∧ s.Of run
  start : w.now = s.start

/-- A question is put on time, about all members, and nobody has begun to close any of them. -/
structure Asks (s : Watch) (i : Nat) (q : Poll) : Prop where
  asking : ∃ run, q.before.runs[s.run]? = some run ∧ run.phase = .asking
  now : q.before.now = s.asksAt i
  members : q.members = s.members
  untouched : ∀ m ∈ s.members, q.before.Untouched m

/-- No question got a positive answer. -/
def Vain (s : Watch) (polls : List Poll) : Prop := ∀ q ∈ polls, (q.verdict s.predicate).holds = false

/-- A run has asked as often as it may, and all in vain; the members were seen when it asked last. -/
structure Expires (s : Watch) (polls : List Poll) (seen : List Sighting) : Prop where
  vain : s.Vain polls
  last : polls.length = s.rounds
  seen : ∃ q, polls.getLast? = some q ∧ seen = q.before.sightings s.members

/-- A question got a positive answer, and a run ended in an assembly in that very step. -/
def Ends (s : Watch) (q : Poll) (a : Nat) (w : World) : Prop :=
  ∃ v, World.Step q.before v ∧ v.now = q.before.now ∧ World.Steps v w ∧
    ∃ run, v.runs[s.run]? = some run ∧ run.phase = .finished (.ok a)

/-- Where a run stands that nothing has delayed, when it has put some questions. -/
inductive Stage (s : Watch) (w : World) (polls : List Poll) : Run.Phase → Prop where
  /-- It asks when it is due. -/
  | asking (vain : s.Vain polls) (more : polls.length < s.rounds) (now : w.now = s.asksAt polls.length) :
    Stage s w polls .asking
  /-- It sleeps until it is due. -/
  | resting {due : Nat} (vain : s.Vain polls) (more : polls.length < s.rounds) (early : w.now ≤ due)
    (on : due = s.asksAt polls.length) : Stage s w polls (.resting due)
  /-- The last answer was positive. -/
  | stable {a : Nat} {q : Poll} (vain : s.Vain polls.dropLast) (last : polls.getLast? = some q)
    (holds : (q.verdict s.predicate).holds = true) (ends : s.Ends q a w) : Stage s w polls (.finished (.ok a))
  /-- The time is up. -/
  | expires {seen : List Sighting} {places : List Nat} (expires : s.Expires polls seen) :
    Stage s w polls (.rollingBack (.unstable seen) places)
  /-- The time was up. -/
  | expired {seen : List Sighting} {t : Teardown} (expires : s.Expires polls seen) :
    Stage s w polls (.finished (.error (.unstable (.ofMillis s.timeout) s.rounds seen t)))

/-- Nothing has delayed a run since it began to ask. -/
structure Stands (s : Watch) (w : World) (polls : List Poll) (run : Run) : Prop where
  own : s.Of run
  deadline : run.deadline = s.start + s.timeout
  count : run.evaluations = polls.length
  few : polls.length ≤ s.rounds
  asks : ∀ i q, polls[i]? = some q → s.Asks i q
  stage : s.Stage w polls run.phase

end Watch

namespace Watch

variable {s : Watch} {w w' w₁ : World} {run run' : Run} {polls : List Poll}

/-! ### Steps -/

theorem Vain.concat {q : Poll} (vain : s.Vain polls) (fails : (q.verdict s.predicate).holds = false) :
    s.Vain (polls ++ [q]) := by
  intro x hx
  rcases List.mem_append.mp hx with hx | hx
  · exact vain x hx
  · rw [List.mem_singleton.mp hx]
    exact fails

theorem Stage.launched {p : Run.Phase} (h : s.Stage w polls p) : p ≠ .launching := by
  cases h <;> exact Run.Phase.noConfusion

/-- Others go on, or time passes. -/
theorem Stage.still {p : Run.Phase} (h : s.Stage w polls p) (step : World.Step w w')
    (asking : p = .asking → w'.now = w.now) (resting : ∀ due, p = .resting due → w'.now ≤ due) :
    s.Stage w' polls p := by
  cases h with
  | asking vain more now => exact .asking vain more ((asking rfl).trans now)
  | resting vain more early on => exact .resting vain more (resting _ rfl) on
  | stable vain last holds ends =>
    obtain ⟨v, asked, same, steps, ended⟩ := ends
    exact .stable vain last holds ⟨v, asked, same, steps.tail step, ended⟩
  | expires expires => exact .expires expires
  | expired expires => exact .expired expires

/-- The question that a run puts is put on time. -/
theorem Stands.poll (h : s.Stands w polls run) (reachable : World.Reachable w)
    (hr : w.runs[s.run]? = some run) (hp : run.phase = .asking) :
    ∀ i q, (polls ++ [⟨w, run.predicate.id, run.members⟩])[i]? = some q → s.Asks i q := by
  intro i q hi
  rw [List.getElem?_append] at hi
  split at hi
  · exact h.asks i q hi
  rename_i past
  obtain ⟨first, rfl⟩ := List.getElem?_eq_some_iff.mp hi
  have stage := hp ▸ h.stage
  obtain rfl : i = polls.length := by
    rw [List.length_singleton] at first
    omega
  cases stage with
  | asking vain more now =>
    rw [List.getElem_singleton]
    refine ⟨⟨run, hr, hp⟩, now, h.own.members, fun m hm => ?_⟩
    obtain ⟨x, hx, fresh⟩ := reachable.warranted.fresh reachable.sound hr (.inr (.inl hp)) (h.own.members ▸ hm)
    exact ⟨x, hx, fresh.state, fresh.stops⟩

/-- The answer to the question of a run is positive just when its predicate holds. -/
theorem verdict_holds (own : s.Of run) :
    (Poll.verdict ⟨w, run.predicate.id, run.members⟩ s.predicate).holds = w.holds run := by
  rw [← own.predicate]
  rfl

/-- A run has asked in vain, and there is time left. -/
theorem Stage.rest {q : Poll} (h : s.Stage w polls .asking) (fails : (q.verdict s.predicate).holds = false)
    (early : w.now < s.start + s.timeout) (now : w'.now = w.now) :
    s.Stage w' (polls ++ [q]) (.resting (min (w.now + s.interval) (s.start + s.timeout))) := by
  cases h with
  | asking vain more on =>
    have left : polls.length * s.interval < s.timeout := by
      rw [on] at early
      unfold asksAt at early
      omega
    have count : (polls ++ [q]).length = polls.length + 1 := List.length_append
    refine .resting (vain.concat fails) ?_ ?_ ?_
    · rw [count, s.succ_lt_rounds]
      exact left
    · rw [now]
      omega
    · rw [count, on, asksAt_succ left]

/-- A run has asked in vain, and the time is up. -/
theorem Stage.degrade {seen : List Sighting} {places : List Nat} {q : Poll} (h : s.Stage w polls .asking)
    (fails : (q.verdict s.predicate).holds = false) (late : s.start + s.timeout ≤ w.now)
    (same : seen = q.before.sightings s.members) :
    s.Stage w' (polls ++ [q]) (.rollingBack (.unstable seen) places) := by
  cases h with
  | asking vain more on =>
    have none : ¬ polls.length + 1 < s.rounds := by
      rw [s.succ_lt_rounds]
      rw [on] at late
      unfold asksAt at late
      omega
    refine .expires ⟨vain.concat fails, ?_, q, List.getLast?_concat, same⟩
    rw [List.length_append, List.length_singleton]
    omega

/-- A run has asked, and the answer is positive. -/
theorem Stage.hold {a : Nat} {q : Poll} (h : s.Stage w polls .asking)
    (holds : (q.verdict s.predicate).holds = true) (ends : s.Ends q a w') :
    s.Stage w' (polls ++ [q]) (.finished (.ok a)) := by
  cases h with
  | asking vain =>
    refine .stable ?_ List.getLast?_concat holds ends
    rw [List.dropLast_concat]
    exact vain

/-- A run awakes when it is due. -/
theorem Stage.wake {due : Nat} (h : s.Stage w polls (.resting due)) (late : due ≤ w.now) (now : w'.now = w.now) :
    s.Stage w' polls .asking := by
  cases h with
  | resting vain more early on =>
    refine .asking vain more ?_
    rw [now, ← on]
    exact Nat.le_antisymm early late

/-- All members are closed. -/
theorem Stage.fail {cause : Run.Cause} {places : List Nat} {t : Teardown}
    (h : s.Stage w polls (.rollingBack cause places)) (own : s.Of run) (count : run.evaluations = polls.length) :
    s.Stage w' polls (.finished (.error (World.errorOf run t cause))) := by
  cases h with
  | expires expires =>
    rw [World.errorOf, own.timeout, count, expires.last]
    exact .expired expires

/-- **On time.** A step that does not delay a run keeps it on time. -/
theorem Stands.step (h : s.Stands w polls run) (reachable : World.Reachable w) (step : World.Step w w')
    (onTime : World.OnTime s.run w w') (hr : w.runs[s.run]? = some run) (hr' : w'.runs[s.run]? = some run')
    (goes : run.cancelled = false) : s.Stands w' (polls ++ w.polls s.run w') run' := by
  have launched := h.stage.launched
  have move := step.move reachable.sound
  have own (lasts : run'.timeout = run.timeout ∧ run'.pollInterval = run.pollInterval) : s.Of run' :=
    ⟨(move.members_eq hr hr' launched).trans h.own.members,
      (move.run_lasts hr hr').predicate.trans h.own.predicate, lasts.1.trans h.own.timeout,
      lasts.2.trans h.own.interval⟩
  -- the run puts no question, or it puts one
  have silent (lasts : run'.timeout = run.timeout ∧ run'.pollInterval = run.pollInterval)
      (same : run'.deadline = run.deadline) (quiet : run'.evaluations = run.evaluations)
      (next : s.Stage w' polls run'.phase) : s.Stands w' (polls ++ w.polls s.run w') run' := by
    rw [step.polls_of_same reachable hr hr' quiet, List.append_nil]
    exact ⟨own lasts, same.trans h.deadline, quiet.trans h.count, h.few, h.asks, next⟩
  have asked (lasts : run'.timeout = run.timeout ∧ run'.pollInterval = run.pollInterval)
      (same : run'.deadline = run.deadline) (more : run'.evaluations = run.evaluations + 1)
      (hp : run.phase = .asking) (next : run.Asks run' (w.holds run) →
        s.Stage w' (polls ++ [⟨w, run.predicate.id, run.members⟩]) run'.phase) :
      s.Stands w' (polls ++ w.polls s.run w') run' := by
    obtain ⟨one, asks⟩ := step.polls_of_more reachable hr hr' more
    have few : polls.length + 1 ≤ s.rounds := by
      have stage := hp ▸ h.stage
      cases stage with
      | asking vain more => exact more
    rw [one]
    refine ⟨own lasts, same.trans h.deadline, ?_, ?_, h.poll reachable hr hp, next asks⟩
    · rw [more, h.count, List.length_append, List.length_singleton]
    · rw [List.length_append, List.length_singleton]
      exact few
  rcases step.ticks hr hr' with dial | ⟨ticks, ready⟩
  · refine silent ⟨congrArg Run.Dial.timeout dial, congrArg Run.Dial.pollInterval dial⟩
      (congrArg Run.Dial.deadline dial) (congrArg Run.Dial.evaluations dial) ?_
    have phase : run'.phase = run.phase := congrArg Run.Dial.phase dial
    rw [phase]
    exact h.stage.still step (onTime.asking run hr) (onTime.resting run · hr)
  have lasts := ticks.lasts
  cases ticks with
  | gathers hp | succeedsEmpty hp => exact absurd hp launched
  | leaves _ why =>
    rcases why with hp | ⟨-, gone⟩
    · exact absurd hp launched
    · cases goes.symm.trans gone
  | @holds a hp dial =>
    have phase : run'.phase = .finished (.ok a) := congrArg Run.Dial.phase dial
    refine asked lasts (congrArg Run.Dial.deadline dial) (congrArg Run.Dial.evaluations dial) hp fun asks => ?_
    rw [phase]
    exact (hp ▸ h.stage).hold ((verdict_holds h.own).trans (asks.holds_of_ok phase))
      ⟨w', step, onTime.asking run hr hp, .refl, run', hr', phase⟩
  | @degrades places hp _ late dial =>
    have phase : run'.phase = .rollingBack (.unstable (w.sightings run.members)) places :=
      congrArg Run.Dial.phase dial
    refine asked lasts (congrArg Run.Dial.deadline dial) (congrArg Run.Dial.evaluations dial) hp fun asks => ?_
    have fails := asks.fails_of_not_ok fun a other => by cases phase.symm.trans other
    rw [phase]
    exact (hp ▸ h.stage).degrade ((verdict_holds h.own).trans fails) (h.deadline ▸ late)
      (congrArg w.sightings h.own.members)
  | rests hp _ early dial =>
    have phase : run'.phase = .resting (min (w.now + s.interval) (s.start + s.timeout)) := by
      rw [show run'.phase = _ from congrArg Run.Dial.phase dial, h.deadline, h.own.interval,
        Duration.millis_ofMillis]
    refine asked lasts (congrArg Run.Dial.deadline dial) (congrArg Run.Dial.evaluations dial) hp fun asks => ?_
    have fails := asks.fails_of_not_ok fun a other => by cases phase.symm.trans other
    rw [phase]
    exact (hp ▸ h.stage).rest ((verdict_holds h.own).trans fails) (h.deadline ▸ early)
      (onTime.asking run hr hp)
  | @wakes due hp now dial =>
    have phase : run'.phase = .asking := congrArg Run.Dial.phase dial
    refine silent lasts (congrArg Run.Dial.deadline dial) (congrArg Run.Dial.evaluations dial) ?_
    rw [phase]
    exact (hp ▸ h.stage).wake (World.due_of_ready hr hp goes ready) now
  | @fails cause places t hp dial =>
    have phase : run'.phase = .finished (.error (World.errorOf run t cause)) := congrArg Run.Dial.phase dial
    refine silent lasts (congrArg Run.Dial.deadline dial) (congrArg Run.Dial.evaluations dial) ?_
    rw [phase]
    exact (hp ▸ h.stage).fail h.own h.count

end Watch

end Muster
