import Muster.Proofs.Run.Asking
import Muster.Proofs.Run.Success
import Muster.Proofs.Run.Tally
import Muster.Proofs.World.Log

/-!
# Asking until it holds

* `Poll`: a question that a run puts to its predicate; `World.polls` are those that a step puts.
* `Run.Early`: a run has not come to ask its predicate.
* `World.Step.polls`: a step puts no question, or its run asks its predicate and heeds the answer.
* `Poll.Proper`: when and about whom a run of a plan may ask; `World.Reachable.proper`: so it does.
* `World.Polled`: what holds of the questions that a run of a plan has put up to now.
* **`World.Logs.polled`**: it holds of every run, whatever happens in which order.
-/

namespace Muster

/-! ### Questions -/

/-- A question that a run puts to its predicate. -/
structure Poll where
  /-- The world in which it is put. -/
  before : World
  /-- The predicate that is asked. -/
  predicate : Nat
  /-- The members about which it is asked. -/
  members : List Nat

namespace Poll

/-- What comes of the question: an answer, an error or the death of the predicate. -/
def verdict (p : Poll) (predicate : Predicate) : Verdict :=
  predicate.check (p.before.questions.getD predicate.id 0) p.before.now (p.before.views p.members)

/-- When and about whom a run of a plan may ask its predicate: its caller has not given up, no launch is
outstanding, and each of them has ended in a member. It asks about a member for each of the plan, in the
order of their places, and nobody has begun to close any of them. -/
structure Proper (p : Poll) (r : Nat) (plan : Plan) : Prop where
  predicate : p.predicate = plan.options.predicateOf.id
  going : ∃ run, p.before.runs[r]? = some run ∧ run.cancelled = false ∧ run.pending = [] ∧
    run.members = p.members
  peopled : p.members ≠ []
  complete : p.before.Fulfils p.members plan
  untouched : ∀ m ∈ p.members, p.before.Untouched m
  collected : ∀ (i : Nat) (l : Launch), p.before.launches[i]? = some l → l.run? = some r →
    ∃ m ∈ p.members, ∃ failures, l.phase = .settled (.realized m failures)

theorem Proper.length_eq {p : Poll} {r : Nat} {plan : Plan} (h : p.Proper r plan) :
    p.members.length = plan.members.length := by
  obtain ⟨specs, all, -, built⟩ := h.complete
  exact built.length_eq.trans all.length_eq

end Poll

theorem Verdict.holds_iff {v : Verdict} : v.holds = true ↔ v = .answer true := by
  cases v <;> simp [holds]

namespace World

/-- The question that was put, if it was about members of a run. -/
def poll? (w : World) (r : Nat) : Occurrence → Option Poll
  | .asked p ms => if w.core.about r ms then some ⟨w, p, ms⟩ else none
  | _ => none

/-- The questions that a step puts about members of a run, as long as the run has not ended. -/
def polls (r : Nat) (w w' : World) : List Poll :=
  if (w.runs[r]?.bind Run.outcome?).isSome then []
  else (w'.record.drop w.record.length).filterMap (w.poll? r)

variable {w w' : World} {r : Nat}

theorem filterMap_poll? (w : World) (r : Nat) (beats : List Beat) :
    (beats.flatMap Beat.entries).filterMap (w.poll? r) =
      (w.core.questions r beats).map fun q => ⟨w, q.1, q.2⟩ := by
  have others (events : List (Nat × Event)) :
      (events.map fun e => Occurrence.announced e.1 e.2).filterMap (w.poll? r) = [] := by
    rw [List.filterMap_eq_nil_iff]
    intro o ho
    obtain ⟨e, -, rfl⟩ := List.mem_map.mp ho
    rfl
  induction beats with
  | nil => rfl
  | cons b beats ih =>
    rw [List.flatMap_cons, List.filterMap_append, ih]
    cases b with
    | tell m o occasion state events =>
      rw [Beat.entries, List.filterMap_cons_none rfl, others]
      rfl
    | stop | announce => rfl
    | ask p ms =>
      rw [Core.questions_cons, List.map_append]
      by_cases own : w.core.about r ms <;> simp [Beat.entries, poll?, own]

end World

/-! ### Runs that have not come to ask -/

/-- A run has not come to ask its predicate: it launches its members, or gave up because launches failed or
the time was up. -/
inductive Run.Early (run : Run) : Prop where
  | launching (hp : run.phase = .launching)
  | failing {failures : List LaunchFailure} {places : List Nat}
    (hp : run.phase = .rollingBack (.launch failures) places)
  | late {names : List String} {places : List Nat}
    (hp : run.phase = .rollingBack (.launchTimeout names) places)
  | failed {failures : List LaunchFailure} {t : Teardown}
    (hp : run.phase = .finished (.error (.launch failures t)))
  | timedOut {timeout : Duration} {names : List String} {t : Teardown}
    (hp : run.phase = .finished (.error (.launchTimeout timeout names t)))

theorem Run.Early.same {run run' : Run} (h : run'.Early) (same : run'.phase = run.phase) : run.Early := by
  cases h with
  | launching hp => exact .launching (same.symm.trans hp)
  | failing hp => exact .failing (same.symm.trans hp)
  | late hp => exact .late (same.symm.trans hp)
  | failed hp => exact .failed (same.symm.trans hp)
  | timedOut hp => exact .timedOut (same.symm.trans hp)

/-- A run that has asked its predicate is past that. -/
theorem Run.Asks.not_early {run run' : Run} {holds : Bool} (asks : run.Asks run' holds) : ¬ run'.Early := by
  intro early
  cases holds with
  | true =>
    obtain ⟨a, hp'⟩ := asks.held rfl
    cases early with
    | launching hp | failing hp | late hp | failed hp | timedOut hp => cases hp.symm.trans hp'
  | false =>
    rcases asks.failed rfl with ⟨due, hp'⟩ | ⟨seen, places, hp'⟩
    all_goals
      cases early with
      | launching hp | failing hp | late hp | failed hp | timedOut hp => cases hp.symm.trans hp'

namespace Core

variable {c c' : Core} {r : Nat} {run run' : Run}

/-- A run that has not come to ask its predicate had not before. -/
theorem Move.early (move : c.Move c') (hr : c.runs[r]? = some run) (hr' : c'.runs[r]? = some run')
    (early : run'.Early) : run.Early := by
  rcases move.run_cases hr hr' with same | move | move
  · exact early.same same.phase
  · cases move with
    | take hs hp | giveUp hs hp | refuse hs hp | gather hs hp | succeedEmpty hs hp =>
      cases hr.symm.trans hs
      exact .launching hp
    | dismiss hs | succeed hs | degrade hs | rest hs | wake hs =>
      cases (getElem?_replace_self hs _).symm.trans hr'
      cases early with
      | launching hp | failing hp | late hp | failed hp | timedOut hp => cases hp
    | @fail _ cause _ _ hs hp =>
      obtain ⟨rfl, rfl⟩ := eq_of_replaced hr hs hr'
      cases cause with
      | launch failures => exact .failing hp
      | launchTimeout names => exact .late hp
      | unstable | cancelled =>
        cases early with
        | launching hp | failing hp | late hp | failed hp | timedOut hp => cases hp
  · exact early.same (move.stays hr hr').1

/-- A run of which no launch failed and that has no members had nothing to launch. -/
theorem Builds.empty {plan : Plan} {observers : List Observer} (h : c.Builds r plan observers) (sound : c.Sound)
    (hr : c.runs[r]? = some run) (hp : run.phase = .launching) (all : run.pending = [])
    (fine : run.failures = []) (nobody : run.members = []) : plan.members = [] := by
  obtain ⟨taken, left, ledger⟩ := sound.booked r run hr
  obtain rfl : left = [] := (ledger.stands.launching hp).1.symm.trans all
  have count := ledger.length_add_length sound.born
  have specs := congrArg List.length h.specs
  rw [List.length_map, List.length_map, ← count, fine, nobody] at specs
  exact List.length_eq_zero_iff.mp specs.symm

end Core

/-! ### Steps and questions -/

namespace World

variable {w w' : World} {r : Nat} {run run' : Run}

theorem Reachable.peopled (h : Reachable w) : w.core.Peopled := by
  refine (Steps.invariant (P := Core.Peopled) h .empty Core.Peopled.empty ?_).2
  exact fun _ move peopled => peopled.move move

theorem Reachable.unasked (h : Reachable w) : w.core.Unasked := by
  refine (Steps.invariant (P := Core.Unasked) h .empty Core.Unasked.empty ?_).2
  exact fun _ move unasked => unasked.move move

/-- **Questions.** A step puts no question about members of a run, or the run asks its predicate and
heeds the answer. -/
theorem Step.polls (step : Step w w') (h : Reachable w) (hr : w.runs[r]? = some run)
    (hr' : w'.runs[r]? = some run') : w.polls r w' = [] ∧ run.Quiet run' ∨
      w.polls r w' = [⟨w, run.predicate.id, run.members⟩] ∧ run.Asks run' (w.holds run) := by
  have sound := h.sound
  unfold World.polls
  rw [hr, Option.bind_some]
  cases ended : run.outcome? with
  | some o =>
    have hp : run.phase = .finished o := Run.outcome?_eq_some.mp ended
    exact .inl ⟨rfl, (step.move sound).quiet hr hr' hp⟩
  | none =>
    have unfinished (o : Except AssemblyError Nat) : run.phase ≠ .finished o := by
      intro hp
      rw [Run.outcome?_eq_some.mpr hp] at ended
      cases ended
    obtain ⟨beats, entered, deed⟩ := step.deed sound
    rw [Option.isSome_none, if_neg Bool.false_ne_true, entered, List.drop_left, filterMap_poll?]
    rcases deed.asks sound h.peopled hr hr' unfinished with ⟨silent, quiet⟩ | ⟨one, asks⟩
    · exact .inl ⟨by rw [silent]; rfl, quiet⟩
    · exact .inr ⟨by rw [one]; rfl, asks⟩

/-- A run that has asked no more than before has put no question. -/
theorem Step.polls_of_same (step : Step w w') (h : Reachable w) (hr : w.runs[r]? = some run)
    (hr' : w'.runs[r]? = some run') (same : run'.evaluations = run.evaluations) : w.polls r w' = [] := by
  rcases step.polls h hr hr' with ⟨silent, -⟩ | ⟨-, asks⟩
  · exact silent
  · exact absurd (same.symm.trans asks.count) (Nat.succ_ne_self _).symm

/-- A run that has asked once more has put the question, and heeds the answer. -/
theorem Step.polls_of_more (step : Step w w') (h : Reachable w) (hr : w.runs[r]? = some run)
    (hr' : w'.runs[r]? = some run') (more : run'.evaluations = run.evaluations + 1) :
    w.polls r w' = [⟨w, run.predicate.id, run.members⟩] ∧ run.Asks run' (w.holds run) := by
  rcases step.polls h hr hr' with ⟨-, quiet⟩ | asked
  · exact absurd (more.symm.trans quiet.count) (Nat.succ_ne_self _)
  · exact asked

variable {plan : Plan} {observers : List Observer} {polls : List Poll}

/-- A run of a plan asks its predicate only when it may. -/
theorem Reachable.proper (h : Reachable w) (builds : w.core.Builds r plan observers)
    (distinct : (plan.members.map (·.ordinal)).Nodup) (hr : w.runs[r]? = some run)
    (predicate : run.predicate = plan.options.predicateOf) (due : run.phase = .asking)
    (going : run.cancelled = false) : Poll.Proper ⟨w, run.predicate.id, run.members⟩ r plan where
  predicate := congrArg Predicate.id predicate
  going := by
    obtain ⟨taken, left, ledger⟩ := h.sound.booked r run hr
    obtain ⟨rfl, -, -⟩ := ledger.stands.asking (.inl due)
    exact ⟨run, hr, going, List.sublist_nil.mp ledger.pending, rfl⟩
  peopled := h.peopled hr (.inl due)
  complete := h.sound.complete h.ordered builds distinct hr (.asking due)
  untouched m hm := by
    obtain ⟨x, hx, fresh⟩ := h.warranted.fresh h.sound hr (.inr (.inl due)) hm
    exact ⟨x, hx, fresh.state, fresh.stops⟩
  collected i l hl own := h.sound.collected hr (.asking due) hl own

/-- The account that a run of a plan gives of the questions that it has put. -/
structure Asked (w : World) (r : Nat) (plan : Plan) (polls : List Poll) (run : Run) : Prop where
  predicate : run.predicate = plan.options.predicateOf
  proper : ∀ p ∈ polls, p.Proper r plan
  early : run.Early → polls = []
  collected : polls ≠ [] → ∀ (i : Nat) (l : Launch), w.launches[i]? = some l → l.run? = some r →
    ∃ m failures, l.phase = .settled (.realized m failures)
  count : run.evaluations = polls.length
  last : ∀ p ∈ polls.dropLast, p.verdict plan.options.predicateOf ≠ .answer true
  goes : (∀ a, run.phase ≠ .finished (.ok a)) →
    ∀ p ∈ polls, p.verdict plan.options.predicateOf ≠ .answer true
  ends : ∀ a, run.phase = .finished (.ok a) → polls = [] ∧ plan.members = [] ∨
    ∃ p, polls.getLast? = some p ∧ p.verdict plan.options.predicateOf = .answer true

/-- Launches that have ended in members have done so for good. -/
theorem Step.collected (step : Step w w') (h : Reachable w) (there : r < w.runs.size)
    (collected : ∀ (i : Nat) (l : Launch), w.launches[i]? = some l → l.run? = some r →
      ∃ m failures, l.phase = .settled (.realized m failures)) {i : Nat} {l' : Launch}
    (hl' : w'.launches[i]? = some l') (own : l'.run? = some r) :
    ∃ m failures, l'.phase = .settled (.realized m failures) := by
  have move := step.move h.sound
  have hi : i ∈ Launches.ofRun w'.core.launches r := Launches.mem_ofRun.mpr ⟨l', hl', own⟩
  rw [move.ofRun_eq there] at hi
  obtain ⟨l, hl, old⟩ := Launches.mem_ofRun.mp hi
  obtain ⟨m, failures, hp⟩ := collected i l hl old
  obtain ⟨l'', hl'', kept⟩ := move.keeps.launches hl
  cases hl'.symm.trans hl''
  exact ⟨m, failures, kept.settled hp⟩

theorem Asked.quiet (asked : w.Asked r plan polls run) (h : Reachable w)
    (builds : w.core.Builds r plan observers) (step : Step w w') (hr : w.runs[r]? = some run)
    (hr' : w'.runs[r]? = some run') (quiet : run.Quiet run') : w'.Asked r plan polls run' := by
  have move := step.move h.sound
  have lasts := move.run_lasts hr hr'
  obtain ⟨run'', hr'', kept⟩ := move.keeps.runs hr
  cases hr'.symm.trans hr''
  exact {
    predicate := lasts.predicate.trans asked.predicate
    proper := asked.proper
    early := fun early => asked.early (move.early hr hr' early)
    collected := fun some i l hl own =>
      step.collected h (lt_of_getElem?_eq_some hr) (asked.collected some) hl own
    count := quiet.count.trans asked.count
    last := asked.last
    goes := fun open_ => asked.goes fun a hp => open_ a (kept.finished hp)
    ends := fun a hp' => by
      rcases quiet.ends hp' with hp | ⟨hp, all, fine, nobody⟩
      · exact asked.ends a hp
      · exact .inl ⟨asked.early (.launching hp), builds.empty h.sound hr hp all fine nobody⟩ }

/-- A run that asks its predicate adds the question to its account. -/
theorem Asked.asks (asked : w.Asked r plan polls run) (h : Reachable w)
    (builds : w.core.Builds r plan observers) (distinct : (plan.members.map (·.ordinal)).Nodup)
    (step : Step w w') (hr : w.runs[r]? = some run) (hr' : w'.runs[r]? = some run')
    (asks : run.Asks run' (w.holds run)) :
    w'.Asked r plan (polls ++ [⟨w, run.predicate.id, run.members⟩]) run' := by
  have move := step.move h.sound
  have lasts := move.run_lasts hr hr'
  have proper := h.proper builds distinct hr asked.predicate asks.due asks.going
  have before := asked.goes fun a hp => by cases asks.due.symm.trans hp
  have verdict : w.holds run = true ↔ Poll.verdict ⟨w, run.predicate.id, run.members⟩
      plan.options.predicateOf = .answer true := by
    rw [← asked.predicate, ← Verdict.holds_iff]
    rfl
  exact {
    predicate := lasts.predicate.trans asked.predicate
    proper := fun p hp => by
      rcases List.mem_append.mp hp with hp | hp
      · exact asked.proper p hp
      · rw [List.mem_singleton.mp hp]
        exact proper
    early := fun early => absurd early asks.not_early
    collected := fun _ i l hl own => by
      refine step.collected h (lt_of_getElem?_eq_some hr) (fun i l hl own => ?_) hl own
      obtain ⟨m, -, ended⟩ := proper.collected i l hl own
      exact ⟨m, ended⟩
    count := by rw [asks.count, asked.count, List.length_append, List.length_singleton]
    last := by
      rw [List.dropLast_concat]
      exact before
    goes := fun open_ p hp => by
      rcases List.mem_append.mp hp with hp | hp
      · exact before p hp
      · rw [List.mem_singleton.mp hp, ne_eq, ← verdict]
        intro holds
        obtain ⟨a, ended⟩ := asks.held holds
        exact open_ a ended
    ends := fun a hp' => by
      refine .inr ⟨_, List.getLast?_concat, verdict.mp ?_⟩
      cases holds : w.holds run with
      | true => rfl
      | false =>
        rcases asks.failed holds with ⟨due, hp⟩ | ⟨seen, places, hp⟩ <;> cases hp'.symm.trans hp }

/-- What holds of the questions that a run of a plan has put up to now. -/
structure Polled (w : World) (r : Nat) (plan : Plan) (polls : List Poll) : Prop where
  /-- The run asked only when it might, and about the members it had to ask about. -/
  proper : ∀ p ∈ polls, p.Proper r plan
  /-- It asked nothing if it has not got beyond launching its members, launches failed or the time was up, -/
  early : ∀ run, w.runs[r]? = some run → run.Early → polls = []
  /-- nor if a launch of the run fell, -/
  fallen : ∀ (i : Nat) (l : Launch), w.launches[i]? = some l → l.run? = some r → l.Fell → polls = []
  /-- nor if there was nothing to launch. -/
  empty : plan.members = [] → polls = []
  /-- Once the caller has given up, it never asks again. -/
  ceased : ∀ run, w.runs[r]? = some run → run.cancelled = true →
    ∀ (w' : World) (later : List Poll), Logs (World.polls r) w w' later → later = []
  /-- Only the last answer may have been positive. -/
  last : ∀ p ∈ polls.dropLast, p.verdict plan.options.predicateOf ≠ .answer true
  /-- The assembly tells how often the run asked, -/
  told : ∀ run a x, w.runs[r]? = some run → run.phase = .finished (.ok a) → w.assemblies[a]? = some x →
    x.evaluations = polls.length
  /-- and so does the error when the members never were stable. -/
  unstable : ∀ run timeout evaluations seen t, w.runs[r]? = some run →
    run.phase = .finished (.error (.unstable timeout evaluations seen t)) → evaluations = polls.length
  /-- A run that launches anything succeeds just when it has asked and the last answer was positive. -/
  succeeds : plan.members ≠ [] → ∀ run, w.runs[r]? = some run →
    ((∃ a, run.phase = .finished (.ok a)) ↔
      ∃ p, polls.getLast? = some p ∧ p.verdict plan.options.predicateOf = .answer true)

/-- Once its caller has given up, a run asks no more. -/
theorem Logs.silent (h : Logs (World.polls r) w w' polls) (reachable : Reachable w)
    (hr : w.runs[r]? = some run) (gone : run.cancelled = true) : polls = [] := by
  have goes : polls = [] ∧ ∃ run, w'.runs[r]? = some run ∧ run.cancelled = true := by
    refine h.keeps (P := fun w polls => polls = [] ∧ ∃ run, w.runs[r]? = some run ∧ run.cancelled = true)
      reachable ⟨rfl, run, hr, gone⟩ fun {w w' log} reachable _ step ⟨nothing, run, hr, gone⟩ => ?_
    have move := step.move reachable.sound
    obtain ⟨run', hr', -⟩ := move.keeps.runs hr
    refine ⟨?_, run', hr', (move.run_lasts hr hr').cancelled gone⟩
    rcases step.polls reachable hr hr' with ⟨silent, -⟩ | ⟨-, asks⟩
    · rw [nothing, silent, List.nil_append]
    · cases gone.symm.trans asks.going
  exact goes.1

end World

namespace World

variable {w₀ w : World} {plan : Plan} {platform : Nat} {channel? : Option Nat} {cancelled : Bool}
  {polls : List Poll}

/-- A run of a plan gives account of the questions that it has put, whatever has happened. -/
theorem Logs.asked (h₀ : Reachable w₀) (distinct : (plan.members.map (·.ordinal)).Nodup)
    (h : Logs (World.polls (w₀.begin plan platform channel? cancelled).1)
      (w₀.begin plan platform channel? cancelled).2 w polls) :
    ∃ run, w.runs[(w₀.begin plan platform channel? cancelled).1]? = some run ∧
      w.Asked (w₀.begin plan platform channel? cancelled).1 plan polls run := by
  refine h.keeps (P := fun w polls => ∃ run, w.runs[_]? = some run ∧ w.Asked _ plan polls run)
    (h₀.tail (.begin plan platform channel? cancelled)) ?_ ?_
  · refine ⟨_, run_begin w₀ plan platform channel? cancelled, ?_⟩
    exact {
      predicate := rfl
      proper := fun p hp => absurd hp List.not_mem_nil
      early := fun _ => rfl
      collected := fun some => absurd rfl some
      count := rfl
      last := fun p hp => absurd hp List.not_mem_nil
      goes := fun _ p hp => absurd hp List.not_mem_nil
      ends := fun a hp => by cases hp }
  · intro w w' polls reachable steps step ⟨run, hr, asked⟩
    have builds := (steps.builds h₀).2
    obtain ⟨run', hr', -⟩ := (step.move reachable.sound).keeps.runs hr
    refine ⟨run', hr', ?_⟩
    rcases step.polls reachable hr hr' with ⟨silent, quiet⟩ | ⟨one, asks⟩
    · rw [silent, List.append_nil]
      exact asked.quiet reachable builds step hr hr' quiet
    · rw [one]
      exact asked.asks reachable builds distinct step hr hr' asks

/-- **Asking until it holds.** A run of a plan asks its predicate only once it has a member for each of the
plan, about all of them in the order of their places, and never again once its caller has given up or the
predicate held; it tells how often it asked, and succeeds just when the predicate held. -/
theorem Logs.polled (h₀ : Reachable w₀) (distinct : (plan.members.map (·.ordinal)).Nodup)
    (h : Logs (World.polls (w₀.begin plan platform channel? cancelled).1)
      (w₀.begin plan platform channel? cancelled).2 w polls) :
    w.Polled (w₀.begin plan platform channel? cancelled).1 plan polls := by
  obtain ⟨run, hr, asked⟩ := h.asked h₀ distinct
  have reachable : Reachable w := h.steps.reachable h₀
  have only {x : Run} (hx : w.runs[(w₀.begin plan platform channel? cancelled).1]? = some x) : x = run :=
    Option.some.inj (hx.symm.trans hr)
  refine {
    proper := asked.proper
    early := fun x hx early => asked.early (only hx ▸ early)
    fallen := fun i l hl own fell => ?_
    empty := fun none => ?_
    ceased := fun x hx gone w' later logs => logs.silent reachable hx gone
    last := asked.last
    told := fun x a y hx hp hy => ?_
    unstable := fun x timeout evaluations seen t hx hp => ?_
    succeeds := fun some x hx => ?_ }
  · by_contra asks
    obtain ⟨m, failures, hp⟩ := asked.collected asks i l hl own
    rcases fell with ⟨f, hf⟩ | ⟨message, hf⟩ <;> cases hp.symm.trans hf
  · refine List.eq_nil_iff_forall_not_mem.mpr fun p hp => (asked.proper p hp).peopled ?_
    rw [← List.length_eq_zero_iff, (asked.proper p hp).length_eq, none]
    rfl
  · obtain ⟨y', hy', kept⟩ := reachable.delivered hx hp
    cases hy.symm.trans hy'
    rw [kept.evaluations, ← asked.count, ← only hx]
    rfl
  · obtain ⟨taken, left, ledger⟩ := reachable.sound.booked _ x hx
    obtain ⟨-, cause, t', he, -⟩ := ledger.stands.failed hp
    cases cause with
    | unstable =>
      cases he
      rw [only hx, asked.count]
    | launch | launchTimeout | cancelled => cases he
  · rw [only hx]
    constructor
    · rintro ⟨a, hp⟩
      exact (asked.ends a hp).resolve_left fun none => some none.2
    · rintro ⟨p, hp, holds⟩
      by_contra unfinished
      exact asked.goes (fun a ended => unfinished ⟨a, ended⟩) p (List.mem_of_getLast? hp) holds

set_option maxRecDepth 4000 in
/-- One question was put about the members `1` and `0`, and the answer was positive. -/
theorem polled_stable : ∃ polls p, Logs (World.polls 0) ((stage (.custom {} [])).begin .pair 0 none false).2
    stable polls ∧ stable.Polled 0 .pair polls ∧ polls = [p] ∧
      p.verdict Plan.pair.options.predicateOf = .answer true := by
  have after : stable.runs[0]?.map (·.phase) = some (.finished (.ok 0)) := rfl
  have evaluations : stable.assemblies[0]?.map (·.evaluations) = some 1 := by decide +kernel
  obtain ⟨run, hr, hp⟩ := Option.map_eq_some_iff.mp after
  obtain ⟨x, hx, one⟩ := Option.map_eq_some_iff.mp evaluations
  have steps : Steps ((stage (.custom {} [])).begin .pair 0 none false).2 stable := steps_gathered.tail step_stable
  obtain ⟨polls, logs⟩ := steps.logs (World.polls 0)
  have polled := Logs.polled (reachable_stage _) Plan.pair_distinct logs
  have count := (polled.told run 0 x hr hp hx).symm.trans one
  obtain ⟨p, rfl⟩ := List.length_eq_one_iff.mp count
  obtain ⟨q, last, holds⟩ := (polled.succeeds (by decide) run hr).mp ⟨0, hp⟩
  cases last
  exact ⟨_, p, logs, polled, rfl, holds⟩

end World

end Muster
