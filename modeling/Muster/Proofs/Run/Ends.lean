import Muster.Proofs.Run.Fate
import Muster.Proofs.Run.Punctual

/-!
# What a run ends in

* `Core.Grounded`: a run that gives up because launches failed has failures to show.
* `World.Heeds`: how a run of a plan heeds the answers of its predicate; `World.Heeds.length_eq`,
  `World.Heeds.held_eq`: runs with the same answers ask as often as each other, and come to the same end.
* `World.Performed`: a run of a plan has ended by itself; `World.Ends`: what it may have ended in.
* **`World.Performed.ends`**: when nothing delayed it, its end is told from its fates and its questions.
-/

namespace Muster

namespace Core

variable {c c' : Core}

/-- A run that gives up because launches failed has failures to show. -/
def Grounded (c : Core) : Prop := ∀ {r : Nat} {run : Run} {failures : List LaunchFailure},
  c.runs[r]? = some run → ((∃ places, run.phase = .rollingBack (.launch failures) places) ∨
    ∃ t, run.phase = .finished (.error (.launch failures t))) → failures ≠ []

theorem Grounded.empty : Core.Grounded ⟨#[], #[], #[], #[], #[], #[], []⟩ := fun hr => by simp at hr

theorem Grounded.move (h : c.Grounded) (move : c.Move c') : c'.Grounded := by
  intro r run' failures hr' hp'
  obtain ⟨run, hr⟩ := move.old_run hr' (by rcases hp' with ⟨places, hp⟩ | ⟨t, hp⟩ <;> simp [hp])
  rcases move.run_cases hr hr' with same | move | move
  · exact h hr (same.phase ▸ hp')
  · cases move with
    | refuse hs hp all failed =>
      cases (getElem?_replace_self hs _).symm.trans hr'
      rcases hp' with ⟨places, hp'⟩ | ⟨t, hp'⟩ <;> cases hp'
      exact failed
    | @fail _ cause places _ hs hp =>
      cases (getElem?_replace_self hs _).symm.trans hr'
      rcases hp' with ⟨places, hp'⟩ | ⟨t, hp'⟩
      · cases hp'
      · cases cause with
        | launch =>
          cases hp'
          exact h hs (.inl ⟨places, hp⟩)
        | launchTimeout | unstable | cancelled => cases hp'
    | take hs hp =>
      obtain ⟨rfl, rfl⟩ := eq_of_replaced hr hs hr'
      exact h hr hp'
    | giveUp hs _ _ why =>
      cases (getElem?_replace_self hs _).symm.trans hr'
      rcases hp' with ⟨places, hp'⟩ | ⟨t, hp'⟩ <;> cases hp'
      rcases why with ⟨-, why⟩ | ⟨-, why⟩ <;> cases why
    | gather hs | succeedEmpty hs | dismiss hs | succeed hs | degrade hs | rest hs | wake hs =>
      cases (getElem?_replace_self hs _).symm.trans hr'
      rcases hp' with ⟨places, hp'⟩ | ⟨t, hp'⟩ <;> cases hp'
  · exact h hr ((move.stays hr hr').1 ▸ hp')

end Core

namespace World

theorem Reachable.grounded {w : World} (h : Reachable w) : w.core.Grounded := by
  refine (Steps.invariant (P := Core.Grounded) h .empty Core.Grounded.empty ?_).2
  exact fun _ move grounded => grounded.move move

/-! ### Answers -/

/-- How a run of a plan heeds the answers of its predicate: it asks again until the last answer, which was
positive or came when the time was up. -/
structure Heeds (plan : Plan) (polls : List Poll) (held : Bool) : Prop where
  empty : plan.members = [] → polls = []
  asked : plan.members ≠ [] → polls ≠ []
  inTime : plan.InTime (polls.length - 1)
  early : ∀ p ∈ polls.dropLast, (p.verdict plan.options.predicateOf).holds = false
  last : ∀ p, polls.getLast? = some p → (p.verdict plan.options.predicateOf).holds = held
  late : held = false → plan.options.timeoutOf.millis ≤ plan.asksAt (polls.length - 1)

/-- Predicates give two runs of a plan the same answers, each time that both of them ask. -/
def SameAnswers (plan : Plan) (polls₁ polls₂ : List Poll) : Prop :=
  ∀ (i : Nat) (p₁ p₂ : Poll), polls₁[i]? = some p₁ → polls₂[i]? = some p₂ →
    (p₁.verdict plan.options.predicateOf).holds = (p₂.verdict plan.options.predicateOf).holds

variable {plan : Plan} {polls₁ polls₂ : List Poll} {held₁ held₂ : Bool}

theorem SameAnswers.symm (same : SameAnswers plan polls₁ polls₂) : SameAnswers plan polls₂ polls₁ :=
  fun i p₂ p₁ h₂ h₁ => (same i p₁ p₂ h₁ h₂).symm

/-- A run asks no less often than another with the same answers. -/
theorem Heeds.length_le (one : Heeds plan polls₁ held₁) (two : Heeds plan polls₂ held₂)
    (same : SameAnswers plan polls₁ polls₂) : polls₂.length ≤ polls₁.length := by
  by_contra fewer
  have fewer : polls₁.length < polls₂.length := Nat.lt_of_not_le fewer
  have asked : polls₁ ≠ [] := one.asked fun none => by
    rw [two.empty none] at fewer
    exact Nat.not_lt_zero _ fewer
  have pos : 0 < polls₁.length := List.length_pos_iff.mpr asked
  -- where the one has come to its end the other goes on
  have inner : polls₁.length - 1 < polls₂.dropLast.length := by
    rw [List.length_dropLast]
    omega
  have on : polls₂[polls₁.length - 1]? = some polls₂.dropLast[polls₁.length - 1] := by
    rw [List.getElem_dropLast]
    exact List.getElem?_eq_getElem (by omega)
  have fails := two.early _ (List.getElem_mem inner)
  have ended : polls₁[polls₁.length - 1]? = some (polls₁.getLast asked) := by
    rw [← List.getLast?_eq_getElem?]
    exact List.getLast?_eq_some_getLast asked
  have answer := (same _ _ _ ended on).trans fails
  have held := (one.last _ (List.getLast?_eq_some_getLast asked)).symm.trans answer
  have early := two.inTime (polls₁.length - 1) (by omega)
  exact absurd (one.late held) (Nat.not_le_of_lt early)

/-- Runs with the same answers ask as often as each other, -/
theorem Heeds.length_eq (one : Heeds plan polls₁ held₁) (two : Heeds plan polls₂ held₂)
    (same : SameAnswers plan polls₁ polls₂) : polls₁.length = polls₂.length :=
  Nat.le_antisymm (two.length_le one same.symm) (one.length_le two same)

/-- A run of a plan has ended, not because its caller gave up, nor because the time was up while members were
launched; the world in which it had just begun, and the questions that it has put since. -/
structure Performed (plan : Plan) (r : Nat) (w₀ w : World) (polls : List Poll)
    (e : Except AssemblyError Nat) : Prop where
  begun : ∃ (before : World) (platform : Nat) (channel? : Option Nat) (cancelled : Bool), Reachable before ∧
    before.begin plan platform channel? cancelled = (r, w₀)
  logs : Logs (World.polls r) w₀ w polls
  ended : ∃ run, w.runs[r]? = some run ∧ run.phase = .finished e
  wanted : ∀ t, e ≠ .error (.cancelled t)
  ready : ∀ timeout names t, e ≠ .error (.launchTimeout timeout names t)

/-- What a run of a plan has ended in, told from its fates and its questions. -/
inductive Ends (plan : Plan) (w : World) (r : Nat) (polls : List Poll) : Except AssemblyError Nat → Prop where
  /-- In an assembly of members for all that the plan lists. -/
  | stable {a : Nat} {x : Assembly} (hx : w.assemblies[a]? = some x) (fulfils : w.Fulfils x.members plan)
    (evaluations : x.evaluations = polls.length) (heeds : Heeds plan polls true)
    (fine : (Launches.ofRun w.launches r).filterMap (Launches.failureOf? w.launches) = []) :
    Ends plan w r polls (.ok a)
  /-- In members that never were stable. -/
  | unstable {seen : List Sighting} {t : Teardown} (names : plan.Lists (seen.map (·.name)))
    (asked : polls ≠ []) (heeds : Heeds plan polls false)
    (fine : (Launches.ofRun w.launches r).filterMap (Launches.failureOf? w.launches) = []) :
    Ends plan w r polls (.error (.unstable plan.options.timeoutOf polls.length seen t))
  /-- In failures of launches. -/
  | launch {failures : List LaunchFailure} {t : Teardown} (some : failures ≠ [])
    (all : failures.Perm ((Launches.ofRun w.launches r).filterMap (Launches.failureOf? w.launches)))
    (closed : failures.length + t.closed = plan.members.length)
    (closeFailures : t.closeFailures.Perm ((w.fates r).filterMap plan.unstopped?))
    (observerFailures : t.observerFailures.Perm ((w.fates r).flatMap (plan.told .realized) ++
      ((w.fates r).flatMap (plan.told .closing) ++ (w.fates r).flatMap (plan.told .closed)))) :
    Ends plan w r polls (.error (.launch failures t))

section Asked

variable {w : World} {r : Nat} {polls : List Poll} {run : Run}

/-- A run that has to do with no members does not ask. -/
theorem Asked.polls_eq_nil (asked : w.Asked r plan polls run) (none : plan.members = []) : polls = [] := by
  refine List.eq_nil_iff_forall_not_mem.mpr fun p hp => (asked.proper p hp).peopled ?_
  rw [← List.length_eq_zero_iff, (asked.proper p hp).length_eq, none]
  rfl

/-- Only the last answer may be positive, -/
theorem Asked.not_holds (asked : w.Asked r plan polls run) :
    ∀ p ∈ polls.dropLast, (p.verdict plan.options.predicateOf).holds = false :=
  fun p hp => Bool.eq_false_iff.mpr fun holds => asked.last p hp (Verdict.holds_iff.mp holds)

/-- and it is when the run succeeds. -/
theorem Asked.heeds {a : Nat} (asked : w.Asked r plan polls run) (hp : run.phase = .finished (.ok a))
    (inTime : plan.InTime (polls.length - 1)) : Heeds plan polls true := by
  refine ⟨asked.polls_eq_nil, ?_, inTime, asked.not_holds, ?_, fun h => by cases h⟩
  · rintro some rfl
    rcases asked.ends a hp with ⟨-, none⟩ | ⟨p, last, -⟩
    · exact some none
    · cases last
  · intro p last
    rcases asked.ends a hp with ⟨rfl, -⟩ | ⟨q, last', holds⟩
    · cases last
    · cases last.symm.trans last'
      exact Verdict.holds_iff.mpr holds

/-- A run that gives up when the time is up has had no positive answer. -/
theorem Asked.heeds_of_expires {seen : List Sighting} (asked : w.Asked r plan polls run)
    (unstable : ∀ a, run.phase ≠ .finished (.ok a)) (expires : plan.Expires polls.length seen) :
    Heeds plan polls false where
  empty := asked.polls_eq_nil
  asked _ := List.length_pos_iff.mp expires.some
  inTime := expires.inTime
  early := asked.not_holds
  last _ last := Bool.eq_false_iff.mpr fun holds =>
    asked.goes unstable _ (List.mem_of_getLast? last) (Verdict.holds_iff.mp holds)
  late _ := expires.late

/-- None of its launches fails when a run comes to ask. -/
theorem Asked.fine (asked : w.Asked r plan polls run) (some : polls ≠ []) :
    (Launches.ofRun w.launches r).filterMap (Launches.failureOf? w.launches) = [] := by
  refine List.filterMap_eq_nil_iff.mpr fun i hi => ?_
  obtain ⟨l, hl, own⟩ := Launches.mem_ofRun.mp hi
  obtain ⟨m, failures, realized⟩ := asked.collected some i l hl own
  have outcome : Launches.outcome? w.launches i = Option.some (.realized m failures) :=
    (Launches.outcome?_of_getElem? hl).trans (Launch.outcome?_eq_some.mpr realized)
  rw [Launches.failureOf?, outcome]

end Asked

section Performed

variable {r : Nat} {w₀ w : World} {polls : List Poll} {e : Except AssemblyError Nat}

theorem Performed.reachable (h : Performed plan r w₀ w polls e) : Reachable w := by
  obtain ⟨before, platform, channel?, cancelled, h₀, begun⟩ := h.begun
  cases begun
  exact h.logs.steps.reachable h₀

theorem Performed.builds (h : Performed plan r w₀ w polls e) :
    ∃ observers, w.core.Builds r plan observers := by
  obtain ⟨before, platform, channel?, cancelled, h₀, begun⟩ := h.begun
  cases begun
  exact ⟨_, (h.logs.steps.builds h₀).2⟩

/-- **Ends.** A run of a plan that nothing delayed ends in an assembly for all that the plan lists, or in an
error that tells its fates and how it heeded the answers of its predicate. -/
theorem Performed.ends (distinct : (plan.members.map (·.ordinal)).Nodup) (h : Performed plan r w₀ w polls e)
    (punctual : Punctual r w₀ w polls) : Ends plan w r polls e := by
  obtain ⟨before, platform, channel?, cancelled, h₀, begun⟩ := h.begun
  cases begun
  obtain ⟨run, hr, hp⟩ := h.ended
  have steps := h.logs.steps
  have reachable : Reachable w := steps.reachable h₀
  have sound := reachable.sound
  have builds := (steps.builds h₀).2
  obtain ⟨run₁, hr₁, asked⟩ := h.logs.asked h₀ distinct
  cases hr.symm.trans hr₁
  obtain ⟨run₁, hr₁, times⟩ := punctual.times h₀ distinct
  cases hr.symm.trans hr₁
  have stage : plan.Stage w.now run.cancelled run.deadline run.evaluations run.phase := times.stage
  rw [hp, asked.count] at stage
  obtain ⟨taken, left, ledger⟩ := sound.booked _ run hr
  have ledger : Ledger w.launches (before.begin plan platform channel? cancelled).1 run taken left := ledger
  cases e with
  | ok a =>
    obtain ⟨rfl, fine, -⟩ := ledger.stands.succeeded hp
    obtain ⟨x, hx, kept⟩ := reachable.delivered hr hp
    cases stage with
    | stable inTime =>
      refine .stable hx ?_ (kept.evaluations.trans asked.count) (asked.heeds hp inTime) ?_
      · rw [show x.members = run.members from kept.members]
        exact sound.fulfilled reachable.ordered builds distinct hr hp
      · have failures := ledger.taken_perm_ofRun.filterMap (Launches.failureOf? w.launches)
        rw [← ledger.failures, fine] at failures
        exact List.nil_perm.mp failures
  | error e =>
    obtain ⟨-, cause, t, rfl, tells, closed⟩ := ledger.stands.failed hp
    cases cause with
    | launch failed =>
      obtain ⟨rfl, rfl⟩ := tells
      obtain ⟨order, settled⟩ := steps.logs (World.settles (before.begin plan platform channel? cancelled).1)
      obtain ⟨run₁, hr₁, heard⟩ := settled.heard h₀
      cases hr.symm.trans hr₁
      have failures : run.failures.Perm _ := ledger.failures ▸ ledger.taken_perm_ofRun.filterMap _
      have members := ledger.members.trans (ledger.taken_perm_ofRun.filterMap (Launches.memberOf? w.launches))
      obtain ⟨-, closeFailures, observerFailures⟩ :=
        reachable.rollback_fates builds heard hr members hp (World.rollback?_errorOf run t _)
      refine .launch (reachable.grounded hr (.inr ⟨t, hp⟩)) failures ?_ closeFailures observerFailures
      have count := congrArg List.length builds.specs
      rw [List.length_map, List.length_map] at count
      rw [closed, ledger.length_add_length sound.born]
      exact count
    | unstable seen =>
      have expires := stage.expires_of_unstable
      rw [show errorOf run t (.unstable seen) = .unstable plan.options.timeoutOf polls.length seen t by
        rw [← asked.count, ← times.timeout]; rfl]
      refine .unstable expires.seen ?_ (asked.heeds_of_expires (by simp [hp]) expires) (asked.fine ?_) <;>
        exact List.length_pos_iff.mp expires.some
    | launchTimeout names => exact absurd rfl (h.ready _ _ _)
    | cancelled => exact absurd rfl (h.wanted _)

end Performed

end World

end Muster
