import Muster.Proofs.Run.Deadline

/-!
# Whether launches end in time

* `World.SettledBefore`, `World.realizedBefore`: the members of a plan whose launches ended before a time, and the
  members that came of these.
* `World.Attempt.timedOut_iff`, `World.Attempt.error`: when a run gives up because launches took too long, and what
  its error tells.
* `World.Reachable.launched`, `World.Reachable.timesOut`: a run that nothing delays never gets stuck.
* **`World.Prompts.expires`**: a run gives up just when a launch did not end before the time was up, names the
  members whose launches did not, and closes those that were there by then.
-/

namespace Muster

namespace World

/-- The launch of a member of a plan ended before a time. -/
def SettledBefore (w : World) (log : List (Nat × Nat)) (limit : Nat) (s : MemberSpec) : Prop :=
  ∃ i, Launches.spec? w.launches i = some s ∧ EndedBefore log limit i

/-- The members that came of launches which ended before a time. -/
def realizedBefore (w : World) (log : List (Nat × Nat)) (limit : Nat) : List Nat :=
  ((log.filter (·.2 < limit)).map (·.1)).filterMap (Launches.memberOf? w.launches)

/-- The names are those of the members of a plan whose launches did not end before a time, in the order of their
places. -/
def NamesLate (w : World) (plan : Plan) (log : List (Nat × Nat)) (limit : Nat) (names : List String) : Prop :=
  ∃ late : List MemberSpec, late.Pairwise (·.ordinal < ·.ordinal) ∧
    (∀ s, s ∈ late ↔ s ∈ plan.members ∧ ¬ w.SettledBefore log limit s) ∧ names = late.map (·.name)

variable {r limit : Nat} {w₀ w w' : World} {run run' : Run} {log more : List (Nat × Nat)} {plan : Plan}
  {platform : Nat} {channel? : Option Nat} {cancelled : Bool}

/-! ### What an attempt tells -/

namespace Attempt

theorem own (h : w.Attempt plan r log run) {i : Nat} (ended : EndedBefore log limit i) :
    i ∈ Launches.ofRun w.launches r := by
  obtain ⟨t, there, -⟩ := ended
  exact (h.logged there).1

/-- What launches a member of the plan is one launch of the run. -/
theorem settledBefore_iff (h : w.Attempt plan r log run) {i : Nat} {s : MemberSpec}
    (hi : i ∈ Launches.ofRun w.launches r) (hs : Launches.spec? w.launches i = some s) :
    w.SettledBefore log limit s ↔ EndedBefore log limit i := by
  refine ⟨fun ⟨j, hj, ended⟩ => ?_, fun ended => ⟨i, hs, ended⟩⟩
  have same : Launches.ordinal w.launches j = Launches.ordinal w.launches i := by
    rw [Launches.ordinal_of_spec? hj, Launches.ordinal_of_spec? hs]
  exact List.inj_on_of_nodup_map h.apart (h.own ended) hi same ▸ ended

/-- The members whose launches did not end in time are those of the launches that did not. -/
theorem late_iff (h : w.Attempt plan r log run) {s : MemberSpec} :
    s ∈ plan.members ∧ ¬ w.SettledBefore log limit s ↔ ∃ i ∈ Launches.ofRun w.launches r,
      Launches.spec? w.launches i = some s ∧ ¬ EndedBefore log limit i := by
  obtain ⟨observers, builds⟩ := h.builds
  rw [Launches.mem_specs builds.specs]
  constructor
  · rintro ⟨⟨i, hi, hs⟩, late⟩
    exact ⟨i, hi, hs, fun ended => late ((h.settledBefore_iff hi hs).mpr ended)⟩
  · rintro ⟨i, hi, hs, late⟩
    exact ⟨⟨i, hi, hs⟩, fun settled => late ((h.settledBefore_iff hi hs).mp settled)⟩

/-- A run that is done with launching gave up because launches took too long just when one of them did. -/
theorem timedOut_iff (h : w.Attempt plan r log run) (timed : w.Timed r limit log run)
    (launched : run.phase ≠ .launching) :
    run.TimedOut ↔ ∃ s ∈ plan.members, ¬ w.SettledBefore log limit s := by
  have late : (∃ s ∈ plan.members, ¬ w.SettledBefore log limit s) ↔
      ∃ i ∈ Launches.ofRun w.launches r, ¬ EndedBefore log limit i := by
    constructor
    · rintro ⟨s, late⟩
      obtain ⟨i, hi, -, late⟩ := h.late_iff.mp late
      exact ⟨i, hi, late⟩
    · rintro ⟨i, hi, late⟩
      obtain ⟨l, hl, -⟩ := Launches.mem_ofRun.mp hi
      exact ⟨l.spec, h.late_iff.mpr ⟨i, hi, Launches.spec?_of_getElem? hl, late⟩⟩
  rw [late]
  cases timed with
  | launching hp => exact absurd hp launched
  | expired timedOut _ _ missed some =>
    obtain ⟨i, hi, waits⟩ := some
    exact iff_of_true timedOut ⟨i, hi, missed.late waits⟩
  | inTime _ never all => exact iff_of_false never fun ⟨i, hi, late⟩ => late (all i hi)

/-- A run that gave up took note of just those launches that ended in time. -/
theorem mem_left (h : w.Attempt plan r log run) (timed : w.Timed r limit log run) (timedOut : run.TimedOut)
    {taken left : List Nat} (ledger : Ledger w.core.launches r run taken left) {i : Nat}
    (hi : i ∈ Launches.ofRun w.launches r) : i ∈ left ↔ ¬ EndedBefore log limit i := by
  rw [← h.expects_iff ledger hi]
  cases timed with
  | launching hp => exact absurd hp timedOut.launched
  | expired _ _ noted missed =>
    exact ⟨missed.late, fun late => not_not.mp fun away => late (noted i hi away)⟩
  | inTime _ never => exact absurd timedOut never

theorem mem_taken (h : w.Attempt plan r log run) (timed : w.Timed r limit log run) (timedOut : run.TimedOut)
    {taken left : List Nat} (ledger : Ledger w.core.launches r run taken left) {i : Nat} :
    i ∈ taken ↔ EndedBefore log limit i := by
  constructor
  · intro ht
    refine not_not.mp fun late => ?_
    exact ledger.not_left ht ((h.mem_left timed timedOut ledger (ledger.mem_ofRun (.inl ht))).mpr late)
  · intro ended
    have there := ledger.all.mem_iff.mpr (h.own ended)
    refine (List.mem_append.mp there).resolve_right fun hl => ?_
    exact (h.mem_left timed timedOut ledger (h.own ended)).mp hl ended

/-- Its members are those that came of launches which ended in time. -/
theorem members (h : w.Attempt plan r log run) (timed : w.Timed r limit log run) (timedOut : run.TimedOut) :
    run.members.Perm (w.realizedBefore log limit) := by
  obtain ⟨taken, left, ledger⟩ := h.reachable.sound.booked r run h.there
  refine ledger.members.trans (List.Perm.filterMap _ ?_)
  have once : ((log.filter (·.2 < limit)).map (·.1)).Nodup := h.heard.once.sublist (List.filter_sublist.map _)
  refine (List.perm_ext_iff_of_nodup (List.nodup_append.mp ledger.nodup).1 once).mpr fun i => ?_
  rw [h.mem_taken timed timedOut ledger, List.mem_map]
  constructor
  · rintro ⟨t, there, early⟩
    exact ⟨(i, t), List.mem_filter.mpr ⟨there, decide_eq_true early⟩, rfl⟩
  · rintro ⟨⟨_, t⟩, there, rfl⟩
    obtain ⟨there, early⟩ := List.mem_filter.mp there
    exact ⟨t, there, of_decide_eq_true early⟩

/-- **The error.** When it ends because launches took too long, it says how long that was, names the members whose
launches did not end in time, and has closed those that were there in time. -/
theorem error (h : w.Attempt plan r log run) (timed : w.Timed r limit log run) {timeout : Duration}
    {names : List String} {t : Teardown}
    (hp : run.phase = .finished (.error (.launchTimeout timeout names t))) :
    timeout = plan.options.timeoutOf ∧ w.NamesLate plan log limit names ∧
      t.closed = (w.realizedBefore log limit).length := by
  have timedOut : run.TimedOut := .inr ⟨timeout, names, t, hp⟩
  obtain ⟨taken, left, ledger⟩ := h.reachable.sound.booked r run h.there
  obtain ⟨-, cause, t', he, tells, closed⟩ := ledger.stands.failed hp
  cases cause with
  | launchTimeout out =>
    cases he
    cases tells
    refine ⟨h.timeout, ?_, closed.trans (h.members timed timedOut).length_eq⟩
    obtain ⟨late, sorted, those, names⟩ := ledger.listed h.apart
    refine ⟨late, sorted, fun s => ?_, names⟩
    rw [h.late_iff, those]
    constructor
    · rintro ⟨i, hi, hs⟩
      have own := ledger.mem_ofRun (.inr hi)
      exact ⟨i, own, hs, (h.mem_left timed timedOut ledger own).mp hi⟩
    · rintro ⟨i, own, hs, late⟩
      exact ⟨i, (h.mem_left timed timedOut ledger own).mpr late, hs⟩
  | launch | unstable | cancelled => cases he

end Attempt

/-! ### Going on -/

/-- Nothing delays a run that goes on at once. -/
theorem Prompt.of_ready (ready : w.readiness (.run r) = .ready) (now : w'.now = w.now) : Prompt r w w' where
  ready _ _ _ _ := now
  waits _ _ _ _ waits := Readiness.noConfusion (ready.symm.trans waits)

/-- Nothing delays a run that sleeps while it is not late. -/
theorem Prompt.of_waits {due : Nat} (waits : w.readiness (.run r) = .waits due) (early : w'.now ≤ due) :
    Prompt r w w' where
  ready _ _ _ ready := Readiness.noConfusion (ready.symm.trans waits)
  waits _ _ _ _ waits' := by
    cases waits.symm.trans waits'
    exact early

/-- Nothing delays a run that is done with launching. -/
theorem Prompt.of_launched (hr : w.runs[r]? = some run) (launched : run.phase ≠ .launching) : Prompt r w w' where
  ready x hx hp := by
    cases hr.symm.trans hx
    exact absurd hp launched
  waits x due hx hp := by
    cases hr.symm.trans hx
    exact absurd hp launched

/-- A run that is ready goes on. -/
theorem Prompts.turn (h : Prompts r w₀ w log) (ready : w.readiness (.run r) = .ready) :
    Prompts r w₀ (w.stepRun r) (log ++ settlings r w (w.stepRun r)) :=
  h.go (.advance (.run r) ready) (.of_ready ready (now_stepRun w r))

/-- A run whose time is up while launches are pending gives up. -/
theorem Prompts.late (h : Prompts r w₀ w log) (hr : w.runs[r]? = some run) (hp : run.phase = .launching)
    (waits : run.pending ≠ []) (goes : run.cancelled = false) (late : run.deadline ≤ w.now) :
    ∃ w' log' run', Prompts r w₀ w' log' ∧ w'.runs[r]? = some run' ∧ run'.cancelled = false ∧
      run'.phase ≠ .launching := by
  have ready : w.readiness (.run r) = .ready := by
    simp [readiness, hr, runReadiness, hp, readyFrom, late]
  obtain ⟨places, hr'⟩ := stepRun_late hr hp waits goes late
  exact ⟨_, _, _, h.turn ready, hr', goes, Run.Phase.noConfusion⟩

/-- **Over.** A run that nothing delays can go on until it is done with launching. -/
theorem Reachable.launched (reachable : Reachable w) (hr : w.runs[r]? = some run) (goes : run.cancelled = false) :
    ∃ w' log run', Prompts r w w' log ∧ w'.runs[r]? = some run' ∧ run'.cancelled = false ∧
      run'.phase ≠ .launching := by
  -- each launch of which the run takes note is one less that is pending
  generalize count : run.pending.length = n
  induction n using Nat.strong_induction_on generalizing w run with
  | h n ih =>
    by_cases hp : run.phase = .launching
    · by_cases none : run.pending = []
      · have ready : w.readiness (.run r) = .ready := by
          simp [readiness, hr, runReadiness, hp, none]
        have finishes : w.stepRun r = w.finishLaunching r run := by
          simp only [stepRun, hr, hp, stepLaunching, none, List.isEmpty_nil, if_true]
        obtain ⟨run', set, same, ticks⟩ := sets_finishLaunching hr hp
        have hr' : (w.stepRun r).runs[r]? = some run' := finishes ▸ set ▸ getElem?_replace_self hr run'
        exact ⟨_, _, run', Prompts.start.turn ready, hr', same.trans goes, ticks.launched⟩
      · by_cases late : run.deadline ≤ w.now
        · exact Prompts.start.late hr hp none goes late
        have early := Nat.lt_of_not_le late
        cases settled : run.settled with
        | nil =>
          -- it sleeps until its deadline
          let u : World := { w with now := w.now + (run.deadline - w.now) }
          have on : u.now = run.deadline := Nat.add_sub_of_le (Nat.le_of_lt early)
          have asleep := readiness_early hr hp none goes early settled
          have slept := Prompts.start.go (.pass (run.deadline - w.now)) (.of_waits asleep (Nat.le_of_eq on))
          exact slept.late (w := u) hr hp none goes (Nat.le_of_eq on.symm)
        | cons i rest =>
          obtain ⟨pending, l, hl⟩ := exists_launch_of_settled reachable.sound hr settled
          have ready := ready_of_settled hr hp (settled ▸ List.cons_ne_nil i rest)
          have hr' := stepRun_early hr hp none goes early settled hl
          have less : (run.take w.launches i).pending.length < n := by
            show (run.pending.erase i).length < n
            rw [List.length_erase_of_mem pending, ← count]
            exact Nat.sub_one_lt_of_lt (List.length_pos_of_mem pending)
          obtain ⟨w', log, run', later, there, goes', done⟩ :=
            ih _ less (reachable.tail (.advance (.run r) ready)) hr' goes rfl
          exact ⟨w', _, run', (Prompts.start.turn ready).trans later, there, goes', done⟩
    · exact ⟨w, [], run, .start, hr, goes, hp⟩

/-- Nothing delays a run that closes its members while it waits for them. -/
theorem Waiting.prompts (h : Waiting w w') (hr : w.runs[r]? = some run) (launched : run.phase ≠ .launching) :
    ∃ log, Prompts r w w' log := by
  induction h with
  | refl => exact ⟨[], .start⟩
  | tail waiting waits ih =>
    obtain ⟨log, before⟩ := ih
    exact ⟨_, before.go waits.step (.of_launched (Waiting.runs waiting ▸ hr) launched)⟩

/-- **Returning.** A run that gave up because launches took too long can go on until it has ended so, when the
observers of its members respond. -/
theorem Reachable.timesOut (reachable : Reachable w) (hr : w.runs[r]? = some run) (timedOut : run.TimedOut)
    (answered : w.Answered run.members) : ∃ w' log run' timeout names t, Prompts r w w' log ∧
      w'.runs[r]? = some run' ∧ run'.cancelled = run.cancelled ∧
      run'.phase = .finished (.error (.launchTimeout timeout names t)) := by
  rcases timedOut with ⟨names, places, hp⟩ | ⟨timeout, names, t, hp⟩
  · obtain ⟨v, t, waiting, ready, ended⟩ := reachable.returns hr hp answered
    obtain ⟨log, waits⟩ := waiting.prompts hr fun launching => Run.Phase.noConfusion (hp.symm.trans launching)
    exact ⟨_, _, _, run.timeout, names, t, waits.turn ready, ended, rfl, rfl⟩
  · exact ⟨w, [], run, timeout, names, t, .start, hr, rfl, hp⟩

/-! ### Expiring -/

/-- What becomes of a run that nothing delays while it launches the members of a plan. -/
structure Expires (w : World) (plan : Plan) (r start bound : Nat) (log : List (Nat × Nat)) (run : Run) : Prop where
  /-- It launches members no longer than it may. -/
  timely : run.phase = .launching → w.now ≤ start + bound
  /-- It gives up because launches took too long just when a launch did not end before the time was up. -/
  decides : run.phase ≠ .launching →
    (run.TimedOut ↔ ∃ s ∈ plan.members, ¬ w.SettledBefore log (start + bound) s)
  /-- When it has ended so, the error names the members whose launches did not, and counts as closed those that
  were there by then, even when other launches had failed. -/
  error : ∀ timeout names t, run.phase = .finished (.error (.launchTimeout timeout names t)) →
    timeout = .ofMillis bound ∧ w.NamesLate plan log (start + bound) names ∧
      t.closed = (w.realizedBefore log (start + bound)).length
  /-- It can always go on until it is done with launching, -/
  finishes : ∃ w' more run', Prompts r w w' more ∧ w'.runs[r]? = some run' ∧ run'.cancelled = false ∧
    run'.phase ≠ .launching
  /-- and until it has ended, when it gave up so and the observers of its members respond. -/
  returns : run.TimedOut → w.Answered run.members → ∃ w' more run' timeout names t, Prompts r w w' more ∧
    w'.runs[r]? = some run' ∧ run'.cancelled = false ∧
      run'.phase = .finished (.error (.launchTimeout timeout names t))

/-- **Expiring.** A run that nothing delays gives up when its time is up and launches have not ended, whatever had
become of the others by then; a launch that ends at that very time is late. -/
theorem Prompts.expires (h₀ : Reachable w₀) (distinct : (plan.members.map (·.ordinal)).Nodup) {bound : Nat}
    (hb : plan.options.timeoutOf = .ofMillis bound)
    (h : Prompts (w₀.begin plan platform channel? cancelled).1 (w₀.begin plan platform channel? cancelled).2 w log)
    (hr : w.runs[(w₀.begin plan platform channel? cancelled).1]? = some run) (goes : run.cancelled = false) :
    w.Expires plan (w₀.begin plan platform channel? cancelled).1 w₀.now bound log run := by
  obtain ⟨_, hr', stands⟩ := h.timed h₀ distinct
  cases hr.symm.trans hr'
  obtain ⟨attempt, timed⟩ := stands goes
  rw [hb, Duration.millis_ofMillis] at timed
  refine ⟨fun hp => ?_, attempt.timedOut_iff timed, fun timeout names t hp => ?_, attempt.reachable.launched hr goes,
    fun timedOut answered => ?_⟩
  · cases timed with
    | launching _ _ early => exact early
    | expired timedOut => exact absurd hp timedOut.launched
    | inTime launched => exact absurd hp launched
  · rw [← hb]
    exact attempt.error timed hp
  · obtain ⟨w', more, run', timeout, names, t, later, hr', same, hp⟩ :=
      attempt.reachable.timesOut hr timedOut answered
    exact ⟨w', more, run', timeout, names, t, later, hr', same.trans goes, hp⟩

/-! ### A launch that ends too late -/

/-- Whether a step does not delay a run that launches its members. -/
def isPrompt (r : Nat) (w w' : World) : Bool :=
  match w.runs[r]?.map Run.phase, w.readiness (.run r) with
  | some .launching, .ready => w'.now == w.now
  | some .launching, .waits due => w'.now ≤ due
  | _, _ => true

theorem Prompt.of_isPrompt (h : isPrompt r w w' = true) : Prompt r w w' := by
  constructor
  · intro run hr hp ready
    simpa [isPrompt, hr, hp, ready] using h
  · intro run due hr hp waits
    simpa [isPrompt, hr, hp, waits] using h

/-- Whether each of some strands is ready when its turn comes, and does not delay a run. -/
def canGoPromptly (r : Nat) (w : World) : List Strand → Bool
  | [] => true
  | s :: ss => w.isReady s && isPrompt r w (w.advance s) && canGoPromptly r (w.advance s) ss

theorem Prompts.goes (h : Prompts r w₀ w log) {ss : List Strand} (ready : canGoPromptly r w ss = true) :
    ∃ log, Prompts r w₀ (w.goes ss) log := by
  induction ss generalizing w log with
  | nil => exact ⟨log, h⟩
  | cons s ss ih =>
    rw [canGoPromptly, Bool.and_eq_true, Bool.and_eq_true] at ready
    obtain ⟨⟨first, prompt⟩, rest⟩ := ready
    exact ih (h.go (.advance s (of_decide_eq_true first)) (.of_isPrompt prompt)) rest

/-- A platform that takes half a second to run the second of two members. -/
def sluggish : Platform := .custom {} [("worker-2", { delay := 500 })]

/-- Two members that must be there in half a second. -/
def hurried : Plan := { Plan.pair with options := (∅ : Options).timed (.ofMillis 500) (.ofMillis 200) }

theorem begin_hurried : ((stage sluggish).begin hurried 0 none false).2 =
    openedFor sluggish (.ofMillis 500) (.ofMillis 200) (.always defaultPredicateId) := by
  refine (begin_pair_timed _ (.ofMillis 500) (.ofMillis 200) Options.parallelismOf?_empty).trans ?_
  rw [Options.predicateOf_empty]

/-- The first member is there, and the platform was asked for the second. -/
def askedTwice : World :=
  (openedFor sluggish (.ofMillis 500) (.ofMillis 200) (.always defaultPredicateId)).goes
    [.launch 0, .launch 1, .launch 0, .launch 0, .run 0]

/-- Half a second later the second member is there as well; but the run gave up, and closed the first. -/
def belated : World :=
  askedTwice.later 500 [.launch 1, .launch 1, .run 0, .closing 0, .closing 0, .closing 0, .closing 0, .run 0]

theorem prompts_belated : ∃ log, Prompts 0 ((stage sluggish).begin hurried 0 none false).2 belated log := by
  rw [begin_hurried]
  obtain ⟨log, first⟩ : ∃ log, Prompts 0 _ askedTwice log := Prompts.start.goes (by decide +kernel)
  exact (first.go (.pass 500) (.of_isPrompt (by decide +kernel))).goes (by decide +kernel)

set_option maxRecDepth 4000 in
/-- The error names the second member, which was there when the time was up, and counts the first as closed. -/
theorem expires_belated : ∃ log run t, Prompts 0 ((stage sluggish).begin hurried 0 none false).2 belated log ∧
    belated.runs[0]? = some run ∧
    run.phase = .finished (.error (.launchTimeout (.ofMillis 500) ["worker-2"] t)) ∧
    belated.NamesLate hurried log 500 ["worker-2"] ∧ (belated.realizedBefore log 500).length = 1 := by
  obtain ⟨log, prompts⟩ := prompts_belated
  have after : belated.runs[0]?.map (fun run => (run.cancelled, run.phase)) =
      some (false, .finished (.error (.launchTimeout (.ofMillis 500) ["worker-2"] { closed := 1 }))) := rfl
  obtain ⟨run, hr, same⟩ := Option.map_eq_some_iff.mp after
  obtain ⟨goes, hp⟩ := Prod.mk.injEq .. ▸ same
  have place : ((stage sluggish).begin hurried 0 none false).1 = 0 := rfl
  have distinct : (hurried.members.map (·.ordinal)).Nodup := Plan.pair_distinct
  have bound : hurried.options.timeoutOf = .ofMillis 500 := Options.timeoutOf_timed _ _ _
  have begun : Prompts ((stage sluggish).begin hurried 0 none false).1
      ((stage sluggish).begin hurried 0 none false).2 belated log := by
    rw [place]
    exact prompts
  have there : belated.runs[((stage sluggish).begin hurried 0 none false).1]? = some run := by
    rw [place]
    exact hr
  have expires := Prompts.expires (reachable_stage _) distinct bound begun there goes
  obtain ⟨-, names, closed⟩ := expires.error _ _ _ hp
  rw [show (stage sluggish).now + 500 = 500 from rfl] at names closed
  exact ⟨log, run, _, prompts, hr, hp, names, closed.symm⟩

end World

end Muster
