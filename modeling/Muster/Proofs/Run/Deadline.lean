import Muster.Proofs.Run.Reports
import Muster.Proofs.Run.Returning

/-!
# Launching in time

* `World.Prompt`: nothing delays a run that launches its members; `World.Prompts`: steps in which nothing does,
  and when the launches of the run ended.
* `World.Step.turns`: what a run that launches its members does next.
* `World.Timed`: where a run stands that nothing has delayed while it launched its members; **`World.Timed.step`**,
  **`World.Prompts.timed`**: it stands there from the beginning on.
* `World.Attempt`: what else is known of such a run.
-/

namespace Muster

/-- A run has given up because launches took too long: it closes the members that it has, or has ended. -/
def Run.TimedOut (run : Run) : Prop :=
  (∃ names places, run.phase = .rollingBack (.launchTimeout names) places) ∨
    ∃ timeout names t, run.phase = .finished (.error (.launchTimeout timeout names t))

theorem Run.TimedOut.launched {run : Run} (h : run.TimedOut) : run.phase ≠ .launching := by
  rcases h with ⟨_, _, hp⟩ | ⟨_, _, _, hp⟩ <;> rw [hp] <;> exact Run.Phase.noConfusion

namespace World

/-- Nothing delays a run that launches its members: no time passes while it can go on, and none beyond the
time at which it awakes. -/
structure Prompt (r : Nat) (w w' : World) : Prop where
  ready : ∀ run, w.runs[r]? = some run → run.phase = .launching → w.readiness (.run r) = .ready →
    w'.now = w.now
  waits : ∀ run due, w.runs[r]? = some run → run.phase = .launching → w.readiness (.run r) = .waits due →
    w'.now ≤ due

/-- The launches of a run that end in a step, and when they do. -/
def settlings (r : Nat) (w w' : World) : List (Nat × Nat) := (settles r w w').map fun i => (i, w'.now)

/-- Steps in which nothing delays a run that launches its members, and when its launches ended. -/
inductive Prompts (r : Nat) (w₀ : World) : World → List (Nat × Nat) → Prop where
  /-- Nothing has happened yet. -/
  | start : Prompts r w₀ w₀ []
  /-- Something happens next. -/
  | go {w w' : World} {log : List (Nat × Nat)} (before : Prompts r w₀ w log) (step : Step w w')
    (prompt : Prompt r w w') : Prompts r w₀ w' (log ++ settlings r w w')

variable {r : Nat} {w₀ w w' : World} {run run' : Run} {log more : List (Nat × Nat)}

theorem settlings_fst (r : Nat) (w w' : World) : (settlings r w w').map (·.1) = settles r w w' := by
  unfold settlings
  rw [List.map_map]
  exact List.map_id _

theorem Prompts.logs (h : Prompts r w₀ w log) : Logs (settles r) w₀ w (log.map (·.1)) := by
  induction h with
  | start => exact .start
  | go _ step _ ih =>
    rw [List.map_append, settlings_fst]
    exact ih.go step

theorem Prompts.trans (h : Prompts r w₀ w log) (later : Prompts r w w' more) : Prompts r w₀ w' (log ++ more) := by
  induction later with
  | start =>
    rw [List.append_nil]
    exact h
  | go _ step prompt ih =>
    rw [← List.append_assoc]
    exact ih.go step prompt

/-- A run that launches its members is ready, or it awakes at its deadline. -/
theorem launching_readiness (hr : w.runs[r]? = some run) (hp : run.phase = .launching) :
    w.readiness (.run r) = .ready ∨ w.readiness (.run r) = .waits run.deadline := by
  simp only [readiness, hr, Option.map_some, Option.getD_some, runReadiness, hp, readyFrom]
  split
  · exact .inl rfl
  · split
    · exact .inl rfl
    · exact .inr rfl

/-- A run that launches its members is ready once a launch has ended of which it has taken no note. -/
theorem ready_of_settled (hr : w.runs[r]? = some run) (hp : run.phase = .launching) (some : run.settled ≠ []) :
    w.readiness (.run r) = .ready := by
  simp [readiness, hr, runReadiness, hp, some]

/-! ### What a run does next -/

/-- What a run does that launches its members, and whose caller has not given up. -/
inductive Turns (w : World) (run run' : Run) : Prop where
  /-- It takes note of a launch that has ended. -/
  | takes {i : Nat} {rest : List Nat} (early : w.now < run.deadline) (hs : run.settled = i :: rest)
    (phase : run'.phase = .launching) (deadline : run'.deadline = run.deadline)
    (outstanding : run'.outstanding = run.outstanding.filter (·.1 ≠ Launches.ordinal w.launches i))
  /-- Launches are pending, and the time is up. -/
  | expires (waits : run.pending ≠ []) (late : run.deadline ≤ w.now) (timedOut : run'.TimedOut)
    (outstanding : run'.outstanding = run.outstanding)
  /-- All launches have ended. -/
  | done (all : run.pending = []) (phase : run'.phase ≠ .launching) (inTime : ¬ run'.TimedOut)

/-- A run whose time is up gives up, as long as launches are pending. -/
theorem stepRun_late (hr : w.runs[r]? = some run) (hp : run.phase = .launching) (waits : run.pending ≠ [])
    (goes : run.cancelled = false) (late : run.deadline ≤ w.now) :
    ∃ places, (w.stepRun r).runs[r]? = some { run with
      reaper? := some {}
      phase := .rollingBack (.launchTimeout (run.outstanding.map (·.2))) places } := by
  have gives : w.stepRun r =
      (w.log .warn "Realization timed out").abandon r run (.launchTimeout (run.outstanding.map (·.2))) := by
    simp only [stepRun, hr, hp, stepLaunching, List.isEmpty_iff, waits, goes, late, if_false, if_true,
      Bool.false_eq_true]
  have core := core_abandon hr waits "Realization timed out" (.launchTimeout (run.outstanding.map (·.2)))
  refine ⟨w.core.callPlaces run.members, ?_⟩
  rw [gives]
  exact (congrArg (fun c : Core => c.runs[r]?) core).trans (getElem?_replace_self hr _)

/-- A run that has time left and finds that a launch has ended takes note of it. -/
theorem stepRun_early (hr : w.runs[r]? = some run) (hp : run.phase = .launching) (waits : run.pending ≠ [])
    (goes : run.cancelled = false) (early : w.now < run.deadline) {i : Nat} {rest : List Nat}
    (hs : run.settled = i :: rest) {l : Launch} (hl : w.launches[i]? = some l) :
    (w.stepRun r).runs[r]? = some (run.take w.launches i) := by
  have takes : w.stepRun r = w.takeOutcome r i l := by
    simp only [stepRun, hr, hp, stepLaunching, List.isEmpty_iff, waits, goes, Nat.not_le_of_lt early, if_false,
      Bool.false_eq_true, hs, hl]
  rw [takes]
  exact (congrArg (fun c : Core => c.runs[r]?) (core_takeOutcome hr hl)).trans (getElem?_replace_self hr _)

/-- What waits in line for a run are launches. -/
theorem exists_launch_of_settled (sound : w.core.Sound) (hr : w.runs[r]? = some run) {i : Nat} {rest : List Nat}
    (hs : run.settled = i :: rest) : i ∈ run.pending ∧ ∃ l, w.launches[i]? = some l := by
  obtain ⟨taken, left, ledger⟩ := sound.booked r run hr
  obtain ⟨pending, -⟩ := (ledger.settled i).mp (hs ▸ List.mem_cons_self)
  obtain ⟨l, hl, -⟩ := Launches.mem_ofRun.mp (ledger.mem_ofRun (.inr (ledger.pending.subset pending)))
  exact ⟨pending, l, hl⟩

/-- A run that launches its members and has time left sleeps until its deadline, unless a launch has ended. -/
theorem readiness_early (hr : w.runs[r]? = some run) (hp : run.phase = .launching) (waits : run.pending ≠ [])
    (goes : run.cancelled = false) (early : w.now < run.deadline) (none : run.settled = []) :
    w.readiness (.run r) = .waits run.deadline := by
  simp [readiness, hr, runReadiness, hp, waits, goes, none, readyFrom, early]

/-- **Turns.** A run that launches its members waits, or it takes its turn and no time passes. -/
theorem Step.turns (step : Step w w') (h : Reachable w) (prompt : Prompt r w w') (hr : w.runs[r]? = some run)
    (hr' : w'.runs[r]? = some run') (hp : run.phase = .launching) (goes : run.cancelled = false) :
    run'.phase = .launching ∧ run'.outstanding = run.outstanding ∧ run'.deadline = run.deadline ∨
      w'.now = w.now ∧ w.Turns run run' := by
  have blind : Run.Blind fun run => (run.phase, run.outstanding, run.deadline) :=
    ⟨fun _ _ => rfl, fun _ _ => rfl, fun _ _ => rfl, fun _ _ _ => rfl, fun _ _ => rfl, fun _ => rfl⟩
  rcases step.shows blind (lt_of_getElem?_eq_some hr) with same | ⟨ready, turn⟩
  · rw [hr, hr', Option.map_some, Option.map_some, Option.some.injEq, Prod.mk.injEq, Prod.mk.injEq] at same
    exact .inl ⟨same.1.trans hp, same.2⟩
  have now := prompt.ready run hr hp ready
  have deadline (on : run'.phase = .launching) : run'.deadline = run.deadline := by
    rcases step.ticks hr hr' with dial | ⟨ticks, -⟩
    · exact congrArg Run.Dial.deadline dial
    · exact absurd on ticks.launched
  rcases (step.move h.sound).run_cases hr hr' with same | move | move
  · have on := same.phase.trans hp
    exact .inl ⟨on, same.outstanding, deadline on⟩
  · refine .inr ⟨now, ?_⟩
    have own : (w.stepRun r).runs[r]? = some run' := turn ▸ hr'
    have hr' : w'.core.runs[r]? = some run' := hr'
    generalize w'.core = c' at move hr'
    cases move with
    | take hs _ waits _ settled =>
      obtain ⟨rfl, rfl⟩ := eq_of_replaced hr hs hr'
      refine .takes (Nat.lt_of_not_le fun late => ?_) settled hp rfl rfl
      obtain ⟨places, gives⟩ := stepRun_late hr hp waits goes late
      have phase := congrArg Run.phase (Option.some.inj (own.symm.trans gives))
      cases hp.symm.trans phase
    | giveUp hs _ waits why =>
      obtain ⟨rfl, rfl⟩ := eq_of_replaced hr hs hr'
      rcases why with ⟨gone, -⟩ | ⟨-, rfl⟩
      · cases goes.symm.trans gone
      refine .expires waits (Nat.le_of_not_lt fun early => ?_) (.inl ⟨_, _, rfl⟩) rfl
      obtain ⟨i, rest, settled⟩ := List.exists_cons_of_ne_nil fun none =>
        Readiness.noConfusion (ready.symm.trans (readiness_early hr hp waits goes early none))
      obtain ⟨-, l, hl⟩ := exists_launch_of_settled h.sound hr settled
      have takes := stepRun_early hr hp waits goes early settled hl
      have phase := congrArg Run.phase (Option.some.inj (own.symm.trans takes))
      cases phase.trans hp
    | refuse hs _ all | gather hs _ all | succeedEmpty hs _ all =>
      obtain ⟨rfl, rfl⟩ := eq_of_replaced hr hs hr'
      refine .done all Run.Phase.noConfusion ?_
      rintro (⟨names, places, hp'⟩ | ⟨timeout, names, t, hp'⟩) <;> cases hp'
    | dismiss hs hp' | succeed hs hp' | degrade hs hp' | rest hs hp' | wake hs hp' | fail hs hp' =>
      cases hr.symm.trans hs
      cases hp.symm.trans hp'
  · exact absurd ((move.stays hr hr').1.trans hp) (move.not_launching h.sound hr hr')

end World

namespace Core

variable {c c' : Core} {r : Nat} {run run' : Run}

/-- A run that launches its members no more neither begins to, nor does it give up now because launches took
too long; and it keeps those who were outstanding. -/
theorem Move.launched (move : c.Move c') (hr : c.runs[r]? = some run) (hr' : c'.runs[r]? = some run')
    (launched : run.phase ≠ .launching) : run'.phase ≠ .launching ∧ (run'.TimedOut ↔ run.TimedOut) ∧
      run'.outstanding = run.outstanding := by
  have same (phase : run'.phase = run.phase) (outstanding : run'.outstanding = run.outstanding) :
      run'.phase ≠ .launching ∧ (run'.TimedOut ↔ run.TimedOut) ∧ run'.outstanding = run.outstanding := by
    unfold Run.TimedOut
    rw [phase]
    exact ⟨launched, Iff.rfl, outstanding⟩
  rcases move.run_cases hr hr' with alike | move | move
  · exact same alike.phase alike.outstanding
  · cases move with
    | take hs hp | giveUp hs hp | refuse hs hp | gather hs hp | succeedEmpty hs hp =>
      cases hr.symm.trans hs
      exact absurd hp launched
    | dismiss hs hp | succeed hs hp | degrade hs hp | rest hs hp | wake hs hp =>
      obtain ⟨rfl, rfl⟩ := eq_of_replaced hr hs hr'
      refine ⟨Run.Phase.noConfusion, ?_, rfl⟩
      simp [Run.TimedOut, hp]
    | @fail _ cause places outcomes hs hp =>
      obtain ⟨rfl, rfl⟩ := eq_of_replaced hr hs hr'
      refine ⟨Run.Phase.noConfusion, ?_, rfl⟩
      cases cause <;> simp [Run.TimedOut, hp, World.errorOf]
  · cases move with
    | done hs | drop hs | close hs =>
      obtain ⟨rfl, rfl⟩ := eq_of_replaced hr hs hr'
      exact same rfl rfl

end Core

namespace World

/-! ### Where a run stands -/

/-- A launch ended before a time. -/
def EndedBefore (log : List (Nat × Nat)) (limit i : Nat) : Prop := ∃ t, (i, t) ∈ log ∧ t < limit

/-- A run expects the member that a launch launches: it has taken no note of the launch. -/
def Expects (w : World) (run : Run) (i : Nat) : Prop :=
  Launches.ordinal w.launches i ∈ run.outstanding.map (·.1)

/-- The launches of which a run has taken note ended before a time. -/
def Noted (w : World) (r limit : Nat) (log : List (Nat × Nat)) (run : Run) : Prop :=
  ∀ i ∈ Launches.ofRun w.launches r, ¬ w.Expects run i → EndedBefore log limit i

/-- The launches that ended, and of which a run has taken no note, did so at such times. -/
def Unnoted (w : World) (log : List (Nat × Nat)) (run : Run) (times : Nat → Prop) : Prop :=
  ∀ i t, (i, t) ∈ log → w.Expects run i → times t

/-- Where a run stands that nothing delays while it launches its members: it took note of those launches that
ended before the limit, and of no other. -/
inductive Timed (w : World) (r limit : Nat) (log : List (Nat × Nat)) (run : Run) : Prop where
  /-- It launches its members, and takes note of what has ended before any time passes. -/
  | launching (hp : run.phase = .launching) (deadline : run.deadline = limit) (early : w.now ≤ limit)
    (noted : w.Noted r limit log run) (fresh : w.Unnoted log run (· = w.now))
  /-- The time was up. -/
  | expired (timedOut : run.TimedOut) (late : limit ≤ w.now) (noted : w.Noted r limit log run)
    (missed : w.Unnoted log run (limit ≤ ·)) (some : ∃ i ∈ Launches.ofRun w.launches r, w.Expects run i)
  /-- All launches ended in time. -/
  | inTime (launched : run.phase ≠ .launching) (never : ¬ run.TimedOut)
    (all : ∀ i ∈ Launches.ofRun w.launches r, EndedBefore log limit i)

variable {r limit : Nat} {w₀ w w' : World} {run run' : Run} {log more : List (Nat × Nat)} {plan : Plan}

theorem EndedBefore.append {i : Nat} (h : EndedBefore log limit i) : EndedBefore (log ++ more) limit i := by
  obtain ⟨t, there, early⟩ := h
  exact ⟨t, List.mem_append_left more there, early⟩

theorem mem_settlings {i t : Nat} (h : (i, t) ∈ settlings r w w') :
    i ∈ Launches.ofRun w.launches r ∧ t = w'.now := by
  obtain ⟨j, hj, same⟩ := List.mem_map.mp h
  cases same
  exact ⟨(Core.mem_settles.mp hj).1, rfl⟩

/-- Launches keep their places. -/
theorem Step.ordinal_eq (step : Step w w') (h : Reachable w) {i : Nat} (hi : i ∈ Launches.ofRun w.launches r) :
    Launches.ordinal w'.launches i = Launches.ordinal w.launches i := by
  obtain ⟨l, hl, -⟩ := Launches.mem_ofRun.mp hi
  obtain ⟨l', hl', kept⟩ := (step.move h.sound).keeps.launches hl
  have hl' : w'.launches[i]? = some l' := hl'
  rw [Launches.ordinal_of_getElem? hl, Launches.ordinal_of_getElem? hl', kept.spec]

/-- A step leaves open which launches a run expects, unless the run takes note of one. -/
theorem Step.expects_iff (step : Step w w') (h : Reachable w) (same : run'.outstanding = run.outstanding) {i : Nat}
    (hi : i ∈ Launches.ofRun w.launches r) : w'.Expects run' i ↔ w.Expects run i := by
  unfold Expects
  rw [step.ordinal_eq h hi, same]

/-- A run that takes note of a launch expects just that one no longer. -/
theorem Step.expects_of_taken (step : Step w w') (h : Reachable w) {i j : Nat}
    (taken : run'.outstanding = run.outstanding.filter (·.1 ≠ Launches.ordinal w.launches i))
    (hj : j ∈ Launches.ofRun w.launches r) : w'.Expects run' j ↔
      w.Expects run j ∧ Launches.ordinal w.launches j ≠ Launches.ordinal w.launches i := by
  have rest : run'.outstanding.map (·.1) =
      (run.outstanding.map (·.1)).filter (· ≠ Launches.ordinal w.launches i) := by
    rw [taken, List.filter_map]
    rfl
  unfold Expects
  rw [step.ordinal_eq h hj, rest, List.mem_filter, decide_eq_true_eq]

theorem Noted.step (h : w.Noted r limit log run) (of : Launches.ofRun w'.launches r = Launches.ofRun w.launches r)
    (taken : ∀ i ∈ Launches.ofRun w.launches r, w.Expects run i → w'.Expects run' i ∨ EndedBefore log limit i) :
    w'.Noted r limit (log ++ more) run' := by
  intro i hi away
  rw [of] at hi
  by_cases waits : w.Expects run i
  · exact ((taken i hi waits).resolve_left away).append
  · exact (h i hi waits).append

theorem Unnoted.step {times times' : Nat → Prop} (h : w.Unnoted log run times)
    (fewer : ∀ i t, (i, t) ∈ log → w'.Expects run' i → w.Expects run i) (later : ∀ t, times t → times' t)
    (now : times' w'.now) : w'.Unnoted (log ++ settlings r w w') run' times' := by
  intro i t there waits
  rcases List.mem_append.mp there with old | new
  · exact later t (h i t old (fewer i t old waits))
  · rw [(mem_settlings new).2]
    exact now

/-- A launch that ended too late, or has not ended, did not end in time. -/
theorem Unnoted.late (h : w.Unnoted log run (limit ≤ ·)) {i : Nat} (waits : w.Expects run i) :
    ¬ EndedBefore log limit i :=
  fun ⟨t, there, early⟩ => absurd (h i t there waits) (Nat.not_le_of_lt early)

/-! ### Attempts -/

/-- A run that launches the members of a plan, or has done so, and whose caller has not given up; and when which of
its launches ended. -/
structure Attempt (w : World) (plan : Plan) (r : Nat) (log : List (Nat × Nat)) (run : Run) : Prop where
  reachable : Reachable w
  there : w.runs[r]? = some run
  goes : run.cancelled = false
  builds : ∃ observers, w.core.Builds r plan observers
  distinct : (plan.members.map (·.ordinal)).Nodup
  heard : w.core.Heard r run (log.map (·.1))
  timeout : run.timeout = plan.options.timeoutOf

namespace Attempt

/-- What stands in the log are launches of the run that have ended. -/
theorem logged (h : w.Attempt plan r log run) {i t : Nat} (there : (i, t) ∈ log) :
    i ∈ Launches.ofRun w.launches r ∧ (Launches.outcome? w.core.launches i).isSome :=
  (h.heard.ended i).mp (List.mem_map_of_mem there)

/-- The launches of the run launch into different places. -/
theorem apart (h : w.Attempt plan r log run) :
    ((Launches.ofRun w.core.launches r).map (Launches.ordinal w.core.launches)).Nodup := by
  obtain ⟨observers, builds⟩ := h.builds
  exact builds.distinct h.distinct

/-- The run expects the launches that are left. -/
theorem expects_iff (h : w.Attempt plan r log run) {taken left : List Nat}
    (ledger : Ledger w.core.launches r run taken left) {i : Nat} (hi : i ∈ Launches.ofRun w.launches r) :
    w.Expects run i ↔ i ∈ left :=
  ledger.mem_outstanding h.apart hi

theorem ofRun_eq (h : w.Attempt plan r log run) (step : Step w w') :
    Launches.ofRun w'.launches r = Launches.ofRun w.launches r :=
  (step.move h.reachable.sound).ofRun_eq (lt_of_getElem?_eq_some h.there)

/-- A run goes on with its attempt whatever happens, unless its caller gives up. -/
theorem step (h : w.Attempt plan r log run) (step : Step w w') (hr' : w'.runs[r]? = some run')
    (goes' : run'.cancelled = false) : w'.Attempt plan r (log ++ settlings r w w') run' := by
  have move := step.move h.reachable.sound
  obtain ⟨observers, builds⟩ := h.builds
  refine ⟨h.reachable.tail step, hr', goes', ⟨observers, builds.move move⟩, h.distinct, ?_, ?_⟩
  · rw [List.map_append, settlings_fst]
    exact h.heard.move h.reachable.sound move h.there hr'
  · rcases step.ticks h.there hr' with dial | ⟨ticks, -⟩
    · exact (congrArg Run.Dial.timeout dial).trans h.timeout
    · exact ticks.lasts.1.trans h.timeout

end Attempt

/-- A run that goes on with the same outstanding members has taken note of the same launches. -/
theorem Noted.still (h : w.Noted r limit log run) (attempt : w.Attempt plan r log run) (step : Step w w')
    (same : run'.outstanding = run.outstanding) : w'.Noted r limit (log ++ settlings r w w') run' :=
  h.step (attempt.ofRun_eq step) fun _ hi waits => .inl ((step.expects_iff attempt.reachable same hi).mpr waits)

theorem Unnoted.still {times times' : Nat → Prop} (h : w.Unnoted log run times) (attempt : w.Attempt plan r log run)
    (step : Step w w') (same : run'.outstanding = run.outstanding) (later : ∀ t, times t → times' t)
    (now : times' w'.now) : w'.Unnoted (log ++ settlings r w w') run' times' :=
  h.step (fun _ _ there => (step.expects_iff attempt.reachable same (attempt.logged there).1).mp) later now

/-- While no launch waits to be taken note of, a run that launches its members may let time pass. -/
theorem Timed.sleep (attempt : w.Attempt plan r log run) (step : Step w w') (prompt : Prompt r w w')
    (hp : run.phase = .launching) (hp' : run'.phase = .launching) (same : run'.outstanding = run.outstanding)
    (deadline : run.deadline = limit) (deadline' : run'.deadline = limit) (early : w.now ≤ limit)
    (noted : w.Noted r limit log run) (fresh : w.Unnoted log run (· = w.now)) :
    w'.Timed r limit (log ++ settlings r w w') run' := by
  refine .launching hp' deadline' ?_ (noted.still attempt step same) ?_
  · rcases launching_readiness attempt.there hp with ready | waits
    · exact prompt.ready run attempt.there hp ready ▸ early
    · exact deadline ▸ prompt.waits run _ attempt.there hp waits
  -- a launch that has ended and that the run expects waits in line, and makes the run ready
  have idle : w.Unnoted log run (· = w'.now) := by
    intro i t there waits
    obtain ⟨taken, left, ledger⟩ := attempt.reachable.sound.booked r run attempt.there
    obtain ⟨own, ended⟩ := attempt.logged there
    have pending := (ledger.stands.launching hp).1 ▸ (attempt.expects_iff ledger own).mp waits
    have settled := (ledger.settled i).mpr ⟨pending, ended⟩
    have ready := ready_of_settled attempt.there hp (List.ne_nil_of_mem settled)
    exact (fresh i t there waits).trans (prompt.ready run attempt.there hp ready).symm
  exact idle.still attempt step same (fun _ => id) rfl

/-- A run that takes its turn in time takes note of a launch that ended in time, finds that the time is up, or is
done with launching. -/
theorem Timed.turn (attempt : w.Attempt plan r log run) (step : Step w w') (turns : w.Turns run run')
    (now : w'.now = w.now) (hp : run.phase = .launching) (deadline : run.deadline = limit) (early : w.now ≤ limit)
    (noted : w.Noted r limit log run) (fresh : w.Unnoted log run (· = w.now)) :
    w'.Timed r limit (log ++ settlings r w w') run' := by
  have of := attempt.ofRun_eq step
  obtain ⟨taken, left, ledger⟩ := attempt.reachable.sound.booked r run attempt.there
  have pending : run.pending = left := (ledger.stands.launching hp).1
  cases turns with
  | @takes i rest before line hp' deadline' same =>
    obtain ⟨waits, ended⟩ := (ledger.settled i).mp (line ▸ List.mem_cons_self)
    have own := ledger.mem_ofRun (.inr (pending ▸ waits))
    refine .launching hp' (deadline'.trans deadline) (now ▸ early) (noted.step of fun j hj waits' => ?_) ?_
    · rw [step.expects_of_taken attempt.reachable same hj]
      refine (em _).imp (fun other => ⟨waits', other⟩) fun alike => ?_
      obtain rfl : j = i := List.inj_on_of_nodup_map attempt.apart hj own (not_not.mp alike)
      obtain ⟨⟨_, t⟩, there, rfl⟩ := List.mem_map.mp ((attempt.heard.ended j).mpr ⟨own, ended⟩)
      refine ⟨t, there, ?_⟩
      rw [fresh _ t there waits', ← deadline]
      exact before
    · refine fresh.step (fun j t there waits' => ?_) (fun t ht => ht.trans now.symm) rfl
      exact ((step.expects_of_taken attempt.reachable same (attempt.logged there).1).mp waits').1
  | expires waits late timedOut same =>
    have late : limit ≤ w.now := deadline ▸ late
    obtain ⟨i, hi⟩ := List.exists_mem_of_ne_nil _ (pending ▸ waits)
    have own := ledger.mem_ofRun (.inr hi)
    have expected := (attempt.expects_iff ledger own).mpr hi
    exact .expired timedOut (now ▸ late) (noted.still attempt step same)
      (fresh.still attempt step same (fun t ht => ht ▸ late) (now ▸ late))
      ⟨i, of ▸ own, (step.expects_iff attempt.reachable same own).mpr expected⟩
  | done all hp' inTime =>
    refine .inTime hp' inTime fun i hi => (noted i (of ▸ hi) fun waits => ?_).append
    have none := (attempt.expects_iff ledger (of ▸ hi)).mp waits
    rw [← pending, all] at none
    cases none

/-- **On time.** A step that does not delay a run keeps it on time. -/
theorem Timed.step (h : w.Timed r limit log run) (attempt : w.Attempt plan r log run) (step : Step w w')
    (prompt : Prompt r w w') (hr' : w'.runs[r]? = some run') : w'.Timed r limit (log ++ settlings r w w') run' := by
  have move := step.move attempt.reachable.sound
  have of := attempt.ofRun_eq step
  cases h with
  | launching hp deadline early noted fresh =>
    rcases step.turns attempt.reachable prompt attempt.there hr' hp attempt.goes with
      ⟨hp', same, deadline'⟩ | ⟨now, turns⟩
    · exact .sleep attempt step prompt hp hp' same deadline (deadline'.trans deadline) early noted fresh
    · exact .turn attempt step turns now hp deadline early noted fresh
  | expired timedOut late noted missed some =>
    obtain ⟨-, timedOut', same⟩ := move.launched attempt.there hr' timedOut.launched
    have late' := Nat.le_trans late step.now_le
    obtain ⟨i, hi, waits⟩ := some
    exact .expired (timedOut'.mpr timedOut) late' (noted.still attempt step same)
      (missed.still attempt step same (fun _ => id) late')
      ⟨i, of ▸ hi, (step.expects_iff attempt.reachable same hi).mpr waits⟩
  | inTime launched never all =>
    obtain ⟨launched', timedOut', -⟩ := move.launched attempt.there hr' launched
    exact .inTime launched' (timedOut'.not.mpr never) fun i hi => (all i (of ▸ hi)).append

/-! ### From the beginning on -/

variable {platform : Nat} {channel? : Option Nat} {cancelled : Bool}

/-- A run that has begun launches its members, and goes by the bound of its plan. -/
theorem begun (w₀ : World) (plan : Plan) (platform : Nat) (channel? : Option Nat) (cancelled : Bool) :
    ∃ run, (w₀.begin plan platform channel? cancelled).2.runs[(w₀.begin plan platform channel? cancelled).1]? =
      some run ∧ run.phase = .launching ∧ run.timeout = plan.options.timeoutOf ∧
        run.deadline = w₀.now + plan.options.timeoutOf.millis :=
  ⟨_, run_begin w₀ plan platform channel? cancelled, rfl, rfl, rfl⟩

/-- A run that begins expects all its members. -/
theorem attempt_begin (h₀ : Reachable w₀) (distinct : (plan.members.map (·.ordinal)).Nodup) :
    ∃ run, (w₀.begin plan platform channel? cancelled).2.runs[(w₀.begin plan platform channel? cancelled).1]? =
        some run ∧ (run.cancelled = false → (w₀.begin plan platform channel? cancelled).2.Attempt plan
          (w₀.begin plan platform channel? cancelled).1 [] run ∧
        (w₀.begin plan platform channel? cancelled).2.Timed (w₀.begin plan platform channel? cancelled).1
          (w₀.now + plan.options.timeoutOf.millis) [] run) := by
  obtain ⟨run, hr, hp, timeout, deadline⟩ := begun w₀ plan platform channel? cancelled
  have still : Logs (settles (w₀.begin plan platform channel? cancelled).1)
      (w₀.begin plan platform channel? cancelled).2 (w₀.begin plan platform channel? cancelled).2 [] := .start
  obtain ⟨_, hr', heard⟩ := still.heard h₀
  cases hr.symm.trans hr'
  refine ⟨run, hr, fun goes => ?_⟩
  have attempt : (w₀.begin plan platform channel? cancelled).2.Attempt plan
      (w₀.begin plan platform channel? cancelled).1 [] run :=
    ⟨still.steps.reachable h₀, hr, goes, ⟨_, (still.steps.builds h₀).2⟩, distinct, heard, timeout⟩
  refine ⟨attempt, .launching hp deadline ?_ (fun i hi away => ?_) fun _ _ there => absurd there List.not_mem_nil⟩
  · rw [now_begin]
    exact Nat.le_add_right _ _
  obtain ⟨taken, left, ledger⟩ := attempt.reachable.sound.booked _ run hr
  refine absurd ((attempt.expects_iff ledger hi).mpr ?_) away
  rcases List.mem_append.mp (ledger.all.mem_iff.mpr hi) with ht | hl
  · exact absurd ((heard.ended i).mpr ⟨hi, ledger.ended i ht⟩) List.not_mem_nil
  · exact hl

/-- **Where it stands.** A run that nothing delays while it launches its members is on time, unless its caller
gives up. -/
theorem Prompts.timed (h₀ : Reachable w₀) (distinct : (plan.members.map (·.ordinal)).Nodup)
    (h : Prompts (w₀.begin plan platform channel? cancelled).1 (w₀.begin plan platform channel? cancelled).2 w
      log) : ∃ run, w.runs[(w₀.begin plan platform channel? cancelled).1]? = some run ∧
        (run.cancelled = false → w.Attempt plan (w₀.begin plan platform channel? cancelled).1 log run ∧
          w.Timed (w₀.begin plan platform channel? cancelled).1 (w₀.now + plan.options.timeoutOf.millis) log
            run) := by
  induction h with
  | start => exact attempt_begin h₀ distinct
  | go before step prompt ih =>
    obtain ⟨run, hr, timed⟩ := ih
    have move := step.move (before.logs.steps.reachable h₀).sound
    obtain ⟨run', hr', -⟩ := move.keeps.runs hr
    refine ⟨run', hr', fun goes' => ?_⟩
    have goes : run.cancelled = false := by
      refine Bool.eq_false_iff.mpr fun gone => ?_
      exact Bool.eq_false_iff.mp goes' ((move.run_lasts hr hr').cancelled gone)
    obtain ⟨attempt, timed⟩ := timed goes
    exact ⟨attempt.step step hr' goes', timed.step attempt step prompt hr'⟩

end World

end Muster
