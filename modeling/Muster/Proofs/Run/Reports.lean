import Muster.Proofs.Run.Rollback
import Muster.Proofs.Run.Settling
import Muster.Proofs.Run.Success
import Muster.Proofs.World.Log

/-!
# What becomes of observers' reports

* `Core.Faithful.reportsOf`: a launch that ended in a member reports what the observers of the member do.
* `World.noted`: what is noted of a run: which of its launches end, which calls it makes when it gives up, and which
  calls begin to close members.
* **`Core.Minutes.move`**: every deed keeps the run to what is noted of it.
* `World.Conserved`: what becomes of what observers report to a run.
* **`World.OpenLogs.conserved`**: assemblies and errors tell what observers reported, all of it and each once, but
  for what came up when somebody else closed a member.
-/

namespace Muster

namespace Core

variable {c c' : Core} {r : Nat} {run run' : Run}

/-! ### Launches -/

/-- A launch that ended in a member reports what the observers of the member do. -/
theorem Faithful.reportsOf {log : List Errand} (h : c.Faithful log) {i m : Nat}
    (him : Launches.memberOf? c.launches i = some m) :
    Launches.reportsOf c.launches i = Members.reports c.members .realized m := by
  obtain ⟨l, failures, hl, hp⟩ := Launches.memberOf?_eq_some.mp him
  have reports := h.launches hl
  rw [hp] at reports
  obtain ⟨x, hx, rfl⟩ := reports
  have ended : Launches.outcome? c.launches i = some (.realized m (x.reports .realized)) := by
    rw [Launches.outcome?_of_getElem? hl, Launch.outcome?_eq_some.mpr hp]
  unfold Launches.reportsOf
  rw [ended, Members.reports_of_getElem? hx]

/-- Only launches that ended in members report anything. -/
theorem Faithful.flatMap_reportsOf {log : List Errand} (h : c.Faithful log) (taken : List Nat) :
    taken.flatMap (Launches.reportsOf c.launches) =
      (taken.filterMap (Launches.memberOf? c.launches)).flatMap (Members.reports c.members .realized) := by
  induction taken with
  | nil => rfl
  | cons i taken ih =>
    rw [List.flatMap_cons, ih]
    cases him : Launches.memberOf? c.launches i with
    | some m => rw [List.filterMap_cons_some him, List.flatMap_cons, h.reportsOf him]
    | none =>
      rw [List.filterMap_cons_none him]
      unfold Launches.memberOf? at him
      unfold Launches.reportsOf
      split at him
      · cases him
      · exact List.nil_append _

/-- The launches of a run that have ended are those that it has heard of. -/
theorem Heard.mem_iff {order : List Nat} (h : c.Heard r run order) {i : Nat} :
    i ∈ order ↔ ∃ l o, c.launches[i]? = some l ∧ l.run? = some r ∧ l.phase = .settled o := by
  rw [h.ended i, Launches.mem_ofRun]
  constructor
  · rintro ⟨⟨l, hl, own⟩, ended⟩
    rw [Launches.outcome?_of_getElem? hl] at ended
    obtain ⟨o, ho⟩ := Option.isSome_iff_exists.mp ended
    exact ⟨l, o, hl, own, Launch.outcome?_eq_some.mp ho⟩
  · rintro ⟨l, o, hl, own, hp⟩
    have ended := (Launches.outcome?_of_getElem? hl).trans (Launch.outcome?_eq_some.mpr hp)
    exact ⟨⟨l, hl, own⟩, Option.isSome_iff_exists.mpr ⟨o, ended⟩⟩

/-- A run that has all its launches has left out none of the members in which they ended. -/
theorem Heard.mem_members {order : List Nat} (h : c.Heard r run order) (sound : c.Sound) (hr : c.runs[r]? = some run)
    (gathered : run.Gathered) {m : Nat} (hm : m ∈ order.filterMap (Launches.memberOf? c.launches)) :
    m ∈ run.members := by
  obtain ⟨i, hi, him⟩ := List.mem_filterMap.mp hm
  obtain ⟨l, hl, own⟩ := Launches.mem_ofRun.mp ((h.ended i).mp hi).1
  obtain ⟨n, hn, failures, ended⟩ := sound.collected hr gathered hl own
  cases him.symm.trans (Launches.memberOf?_eq_some.mpr ⟨l, failures, hl, ended⟩)
  exact hn

/-- Once a call for a member has ended, some call closes the member, and ends in what there is to tell of it. -/
theorem Faithful.closer {log : List Errand} (h : c.Faithful log) (doers : c.Doers log) (sound : c.Sound) {j m : Nat}
    {o : Except CloseFailure (List ObserverFailure)} (closes : Closes c.closings j m)
    (returns : Returns c.closings j o) :
    ∃ i k x, .member i ∈ log ∧ c.closings[i]? = some k ∧ k.member = m ∧ c.members[m]? = some x ∧
      k.phase ≠ .called ∧ ∀ o, k.phase = .finished o → o = x.ending := by
  obtain ⟨i, hi, k, hk, rfl⟩ := doers.begun_of_returns sound closes returns
  obtain ⟨k', x, said, hk', hx, spoken⟩ := h.calls hi
  cases hk.symm.trans hk'
  exact ⟨i, k, x, hi, hk, rfl, hx, spoken.ne_called, fun o ho => h.ending hi hk ho hx⟩

/-- No launch of a run that begins has ended. -/
theorem Sound.begin_heard (h : c.Sound) (plan : Plan) (platform : Nat) (channel? : Option Nat) (id : Uuid)
    (now : Nat) (cancelled : Bool) : (c.begin plan platform channel? id now cancelled).Heard c.runs.size
      (plan.run id channel? now cancelled (List.range' c.launches.size plan.members.length)) [] where
  once := List.nodup_nil
  ended i := by
    refine ⟨fun hi => absurd hi List.not_mem_nil, fun ⟨hi, ended⟩ => ?_⟩
    obtain ⟨l, hl, own⟩ := Launches.mem_ofRun.mp hi
    rw [Launches.outcome?_of_getElem? hl] at ended
    unfold Core.begin at hl
    rw [Array.getElem?_append] at hl
    split at hl
    · obtain ⟨run, hrun⟩ := h.lined.manned hl own
      exact absurd (lt_of_getElem?_eq_some hrun) (Nat.lt_irrefl _)
    · obtain ⟨spec, -, rfl⟩ := plan.mem_launches (Array.mem_of_getElem? hl)
      exact absurd ended Bool.false_ne_true
  heard := ⟨[], [], rfl, fun _ => rfl, .refl _, .inl rfl, rfl⟩

/-- A run that begins has not given up. -/
theorem GivenUp.begin (plan : Plan) (channel? : Option Nat) (id : Uuid) (now : Nat) (cancelled : Bool)
    (pending : List Nat) : c.GivenUp (plan.run id channel? now cancelled pending) [] where
  early _ _ := rfl
  rolling hp := by cases hp
  failed hp := by cases hp

end Core

/-! ### What is noted of a run -/

/-- Something to note of a run, or of the calls that close members. -/
inductive Noted where
  /-- A launch of the run ends. -/
  | settled (i : Nat)
  /-- The run, which gives up, calls for one of its members. -/
  | called (j : Nat)
  /-- A call begins to close its member. -/
  | began (j : Nat)
deriving DecidableEq, Repr

namespace Noted

/-- The launch that ends. -/
def settled? : Noted → Option Nat
  | settled i => some i
  | _ => none

/-- The call that the run makes. -/
def called? : Noted → Option Nat
  | called j => some j
  | _ => none

theorem mem_settled? {log : List Noted} {i : Nat} : i ∈ log.filterMap settled? ↔ .settled i ∈ log := by
  rw [List.mem_filterMap]
  constructor
  · rintro ⟨e, he, settled⟩
    cases e with
    | settled n =>
      cases settled
      exact he
    | called | began => cases settled
  · exact fun h => ⟨_, h, rfl⟩

theorem mem_called? {log : List Noted} {j : Nat} : j ∈ log.filterMap called? ↔ .called j ∈ log := by
  rw [List.mem_filterMap]
  constructor
  · rintro ⟨e, he, called⟩
    cases e with
    | called i =>
      cases called
      exact he
    | settled | began => cases called
  · exact fun h => ⟨_, h, rfl⟩

end Noted

/-- What is noted of something that somebody has begun. -/
def Errand.noted? : Errand → Option Noted
  | member j => some (.began j)
  | assembly .. => none

namespace Core

variable {c c' : Core} {r : Nat} {run run' : Run}

/-- What is noted of a run in a move. -/
def noted (c : Core) (r : Nat) (c' : Core) : List Noted :=
  (c.settles r c').map .settled ++ (c.rolls r c').map .called ++ (c.errands c').filterMap Errand.noted?

theorem filterMap_settled?_noted : (c.noted r c').filterMap Noted.settled? = c.settles r c' := by
  have errands : (c.errands c').filterMap (fun e => e.noted?.bind Noted.settled?) = [] :=
    List.filterMap_eq_nil_iff.mpr fun e _ => by cases e <;> rfl
  simp [noted, List.filterMap_filterMap, List.filterMap_map, Function.comp_def, Noted.settled?, errands]

theorem filterMap_called?_noted : (c.noted r c').filterMap Noted.called? = c.rolls r c' := by
  have errands : (c.errands c').filterMap (fun e => e.noted?.bind Noted.called?) = [] :=
    List.filterMap_eq_nil_iff.mpr fun e _ => by cases e <;> rfl
  simp [noted, List.filterMap_filterMap, List.filterMap_map, Function.comp_def, Noted.called?, errands]

theorem began_mem_noted {j : Nat} : .began j ∈ c.noted r c' ↔ .member j ∈ c.errands c' := by
  have one (e : Errand) : e.noted? = some (.began j) ↔ e = .member j := by cases e <;> simp [Errand.noted?]
  simp [noted, one]

/-- A run that gives up calls for its members anew. -/
theorem Move.rolls_ge (move : c.Move c') (hr : c.runs[r]? = some run) (hr' : c'.runs[r]? = some run') {j : Nat}
    (hj : j ∈ c.rolls r c') : c.closings.size ≤ j := by
  have nothing (other : ∀ cause places, run'.phase = .rollingBack cause places → run.phase = run'.phase) :
      c.closings.size ≤ j := by
    rw [rolls_eq_nil hr hr' other] at hj
    exact absurd hj List.not_mem_nil
  have anew {cause : Run.Cause} (was : run.phase = .launching ∨ run.phase = .asking)
      (now : run'.phase = .rollingBack cause (c.callPlaces run.members)) : c.closings.size ≤ j := by
    rw [rolls_eq hr hr' (by rcases was with was | was <;> simp [was]) now] at hj
    exact (List.mem_range'_1.mp hj).1
  rcases move.run_cases hr hr' with same | move | move
  · exact nothing fun _ _ _ => same.phase.symm
  · cases move with
    | giveUp hs hp | refuse hs hp =>
      obtain ⟨rfl, rfl⟩ := eq_of_replaced hr hs hr'
      exact anew (.inl hp) rfl
    | dismiss hs hp | degrade hs hp =>
      obtain ⟨rfl, rfl⟩ := eq_of_replaced hr hs hr'
      exact anew (.inr hp) rfl
    | take hs hp =>
      obtain ⟨rfl, rfl⟩ := eq_of_replaced hr hs hr'
      exact nothing fun _ _ _ => rfl
    | gather hs | succeedEmpty hs | succeed hs | rest hs | wake hs | fail hs =>
      obtain ⟨rfl, rfl⟩ := eq_of_replaced hr hs hr'
      exact nothing nofun
  · exact nothing fun _ _ _ => (move.stays hr hr').1.symm

/-- What is noted of a run, from a time on when there were some calls already, is what has happened. -/
structure Minutes (c : Core) (r start : Nat) (log : List Noted) : Prop where
  run : ∃ run, c.runs[r]? = some run ∧ c.Heard r run (log.filterMap Noted.settled?) ∧
    c.GivenUp run (log.filterMap Noted.called?)
  begun : ∃ errands, c.Doers errands ∧ c.Faithful errands ∧
    ∀ j, start ≤ j → (.member j ∈ errands ↔ .began j ∈ log)
  known : start ≤ c.closings.size
  anew : ∀ j, .called j ∈ log → start ≤ j

/-- **What is noted.** Every deed keeps the run to what is noted of it. -/
theorem Minutes.deed {start : Nat} {log : List Noted} {s : Setting} {beats : List Beat} (h : c.Minutes r start log)
    (sound : c.Sound) (rolling : c.Rolling) (deed : c.Deed s beats c') : c'.Minutes r start (log ++ c.noted r c') := by
  have move := deed.move
  obtain ⟨run, hr, heard, gaveUp⟩ := h.run
  obtain ⟨run', hr', -⟩ := move.keeps.runs hr
  obtain ⟨errands, doers, faithful, same⟩ := h.begun
  refine ⟨⟨run', hr', ?_, ?_⟩, ⟨_, doers.move sound move, faithful.deed doers sound deed, fun j hj => ?_⟩,
    Nat.le_trans h.known move.keeps.closings.size_le, fun j hj => ?_⟩
  · rw [List.filterMap_append, filterMap_settled?_noted]
    exact heard.move sound move hr hr'
  · rw [List.filterMap_append, filterMap_called?_noted]
    exact gaveUp.move rolling move hr hr'
  · rw [List.mem_append, List.mem_append, same j hj, began_mem_noted]
  · rcases List.mem_append.mp hj with hj | hj
    · exact h.anew j hj
    · rw [← Noted.mem_called?, filterMap_called?_noted] at hj
      exact Nat.le_trans h.known (move.rolls_ge hr hr' hj)

end Core

/-! ### Conservation -/

namespace World

/-- The launches of a run that end in a step. -/
def settles (r : Nat) (w w' : World) : List Nat := w.core.settles r w'.core

/-- What is noted of a run in a step. -/
def noted (r : Nat) (w w' : World) : List Noted := w.core.noted r w'.core

/-- The members that a run took note of, in the order in which their launches ended. -/
def collected (w : World) (run : Run) (order : List Nat) : List Nat :=
  (order.filterMap (Launches.memberOf? w.launches)).filter (· ∈ run.members)

/-- The members that a run closed itself when it gave up, in the order of its calls. -/
def rolledBack (w : World) (log : List Noted) : List Nat :=
  ((log.filterMap Noted.called?).filter (.began · ∈ log)).filterMap (Closings.member? w.closings)

/-- What becomes of what observers report to a run of which the given things were noted. -/
structure Conserved (w : World) (r : Nat) (log : List Noted) : Prop where
  /-- The launches that have ended stand in their order, each of them once. -/
  once : (log.filterMap Noted.settled?).Nodup
  ended : ∀ i, .settled i ∈ log ↔ ∃ l o, w.launches[i]? = some l ∧ l.run? = some r ∧ l.phase = .settled o
  /-- The run closes those that it took note of in that order, or else in the order of their places. -/
  members : ∀ run, w.runs[r]? = some run →
    (w.collected run (log.filterMap Noted.settled?)).Perm run.members ∧
      (run.members = w.collected run (log.filterMap Noted.settled?) ∨
        run.members.Pairwise fun m n => w.ordinalOf m ≤ w.ordinalOf n)
  /-- The assembly has what was reported of all its members when they were launched. -/
  assembly : ∀ run a x, w.runs[r]? = some run → run.phase = .finished (.ok a) → w.assemblies[a]? = some x →
    ((log.filterMap Noted.settled?).filterMap (Launches.memberOf? w.launches)).Perm x.members ∧
      x.observerFailures = ((log.filterMap Noted.settled?).filterMap (Launches.memberOf? w.launches)).flatMap
        (Members.reports w.members .realized)
  /-- The error has what was reported of the members of which the run took note, when they were launched,
  and then of each of those in turn that it closed itself, when it was closed. -/
  error : ∀ run e, w.runs[r]? = some run → run.phase = .finished (.error e) →
    (w.rolledBack log).Sublist run.members ∧ ∃ t, e.rollback? = some t ∧ t.observerFailures =
      (w.collected run (log.filterMap Noted.settled?)).flatMap (Members.reports w.members .realized) ++
        (w.rolledBack log).flatMap (Members.parting w.members)
  /-- What was reported when another of its members was closed, the call of somebody else is told that closed it. -/
  elsewhere : ∀ run e m, w.runs[r]? = some run → run.phase = .finished (.error e) → m ∈ run.members →
    m ∉ w.rolledBack log → ∃ j k x, .called j ∉ log ∧ w.closings[j]? = some k ∧ k.member = m ∧
      w.members[m]? = some x ∧ k.phase ≠ .called ∧ ∀ o, k.phase = .finished o → o = x.ending
  /-- Where callers close only what they have in their hands, the error has what was reported of each of its members
  when it was closed. -/
  alone : Reachable w → ∀ run e, w.runs[r]? = some run → run.phase = .finished (.error e) →
    ∃ t, e.rollback? = some t ∧ t.observerFailures =
      (w.collected run (log.filterMap Noted.settled?)).flatMap (Members.reports w.members .realized) ++
        run.members.flatMap (Members.parting w.members)

variable {w : World} {r : Nat} {run : Run} {order : List Nat} {log : List Noted}

/-- Members whose launches the run never took note of are not among its members. -/
theorem collected_eq (sound : w.core.Sound) {taken rest : List Nat} (once : (taken ++ rest).Nodup)
    (heard : run.Heard w.core.members w.core.launches taken rest) :
    w.collected run (taken ++ rest) = taken.filterMap (Launches.memberOf? w.launches) := by
  unfold collected
  rw [List.filterMap_append, List.filter_append]
  have all : ∀ m ∈ taken.filterMap (Launches.memberOf? w.launches), m ∈ run.members :=
    fun m hm => heard.members.mem_iff.mpr hm
  have none : ∀ m ∈ rest.filterMap (Launches.memberOf? w.launches), m ∉ run.members := by
    intro m hm member
    obtain ⟨i, hi, him⟩ := List.mem_filterMap.mp hm
    obtain ⟨j, hj, hjm⟩ := List.mem_filterMap.mp (heard.members.subset member)
    obtain ⟨_, x, _, -, -, hx, rfl, -⟩ := sound.born.of_memberOf? him
    obtain ⟨_, y, _, -, -, hy, rfl, -⟩ := sound.born.of_memberOf? hjm
    cases hx.symm.trans hy
    exact (List.nodup_append.mp once).2.2 _ hj _ hi rfl
  rw [List.filter_eq_self.mpr fun m hm => decide_eq_true (all m hm),
    List.filter_eq_nil_iff.mpr fun m hm => by rw [decide_eq_true_eq]; exact none m hm, List.append_nil]

/-- What is noted of a run tells what becomes of what observers report to it. -/
theorem OpenReachable.accounted (h : OpenReachable w) {start : Nat} (minutes : w.core.Minutes r start log) :
    w.Conserved r log := by
  obtain ⟨run, hr, heard, gaveUp⟩ := minutes.run
  obtain ⟨errands, doers, faithful, same⟩ := minutes.begun
  have sound := h.sound
  obtain ⟨taken, rest, order, account⟩ := heard.heard
  have only {x : Run} (hx : w.runs[r]? = some x) : x = run := Option.some.inj (hx.symm.trans hr)
  have once := heard.once
  rw [order] at once
  have collected : w.collected run (log.filterMap Noted.settled?) = taken.filterMap (Launches.memberOf? w.launches) :=
    order ▸ collected_eq sound once account
  have reports : run.observerFailures = (taken.filterMap (Launches.memberOf? w.launches)).flatMap
      (Members.reports w.members .realized) :=
    account.reports.trans (faithful.flatMap_reportsOf taken)
  -- the calls of the run that have begun to close their members
  have own : w.rolledBack log = ((log.filterMap Noted.called?).filter (.member · ∈ errands)).filterMap
      (Closings.member? w.closings) := by
    unfold rolledBack
    refine congrArg (List.filterMap _) (List.filter_congr fun j hj => ?_)
    exact decide_eq_decide.mpr (same j (minutes.anew j (Noted.mem_called?.mp hj))).symm
  refine {
    once := heard.once
    ended := ?ended
    members := ?members
    assembly := ?assembly
    error := ?error
    elsewhere := ?elsewhere
    alone := ?alone }
  case ended =>
    intro i
    rw [← Noted.mem_settled?]
    exact heard.mem_iff
  case members =>
    intro x hx
    rw [only hx, collected]
    exact ⟨account.members.symm, account.order.imp_right fun sorted => sorted.2⟩
  case assembly =>
    intro x a y hx hp hy
    rw [only hx] at hp
    obtain ⟨y', hy', kept⟩ := h.delivered hr hp
    cases hy.symm.trans hy'
    have all : w.collected run (log.filterMap Noted.settled?) =
        (log.filterMap Noted.settled?).filterMap (Launches.memberOf? w.launches) :=
      List.filter_eq_self.mpr fun m hm => decide_eq_true (heard.mem_members sound hr (.succeeded hp) hm)
    rw [← all, collected, ← reports]
    exact ⟨kept.members ▸ account.members.symm, kept.reports⟩
  case error =>
    intro x e hx hp
    rw [only hx] at hp ⊢
    obtain ⟨calls, outcomes, returns, told⟩ := gaveUp.failed hp
    obtain ⟨within, -, reported⟩ := faithful.tells doers sound calls returns own
    refine ⟨within, _, told, ?_⟩
    rw [collected, ← reports]
    exact congrArg (run.observerFailures ++ ·)
      ((Teardown.observerFailures_ofOutcomes outcomes).trans reported)
  case elsewhere =>
    intro x e m hx hp hm away
    rw [only hx] at hp hm
    obtain ⟨calls, outcomes, returns, -⟩ := gaveUp.failed hp
    -- the call of the run has ended, and so somebody has begun to close the member
    obtain ⟨j, hj, closes⟩ := Core.forall₂_right calls hm
    obtain ⟨o, -, returned⟩ := Core.forall₂_right returns.flip hj
    obtain ⟨i, k, y, hi, hk, rfl, hy, begun, ends⟩ := faithful.closer doers sound closes returned
    refine ⟨i, k, y, fun called => away ?_, hk, rfl, hy, begun, ends⟩
    rw [own]
    exact List.mem_filterMap.mpr ⟨i, List.mem_filter.mpr ⟨Noted.mem_called?.mpr called, decide_eq_true hi⟩,
      Core.Closes.member?.mpr ⟨k, hk, rfl⟩⟩
  case alone =>
    intro reachable x e hx hp
    rw [only hx] at hp ⊢
    rw [collected, ← reports]
    exact ⟨_, reachable.rollback hr hp, rfl⟩

variable {w₀ : World} {plan : Plan} {platform : Nat} {channel? : Option Nat} {cancelled : Bool}

/-- A run keeps to the order in which its launches have ended, whatever has happened. -/
theorem Logs.heard (h₀ : Reachable w₀)
    (h : Logs (World.settles (w₀.begin plan platform channel? cancelled).1)
      (w₀.begin plan platform channel? cancelled).2 w order) :
    ∃ run, w.runs[(w₀.begin plan platform channel? cancelled).1]? = some run ∧
      w.core.Heard (w₀.begin plan platform channel? cancelled).1 run order := by
  refine h.keeps (P := fun w order => ∃ run, w.runs[_]? = some run ∧ w.core.Heard _ run order)
    (h₀.tail (.begin plan platform channel? cancelled)) ?_ ?_
  · refine ⟨_, run_begin w₀ plan platform channel? cancelled, ?_⟩
    rw [core_begin]
    exact h₀.sound.begin_heard plan platform channel? w₀.freshId.1 w₀.now cancelled
  · intro w w' order reachable _ step ⟨run, hr, heard⟩
    have move := step.move reachable.sound
    obtain ⟨run', hr', -⟩ := move.keeps.runs hr
    exact ⟨run', hr', heard.move reachable.sound move hr hr'⟩

/-- What is noted of a run is what happens, whatever happens. -/
theorem OpenLogs.minutes (h₀ : OpenReachable w₀)
    (h : OpenLogs (World.noted (w₀.begin plan platform channel? cancelled).1)
      (w₀.begin plan platform channel? cancelled).2 w log) :
    w.core.Minutes (w₀.begin plan platform channel? cancelled).1
      (w₀.begin plan platform channel? cancelled).2.closings.size log := by
  have begun : OpenReachable (w₀.begin plan platform channel? cancelled).2 :=
    h₀.tail (.step (.begin plan platform channel? cancelled))
  refine OpenLogs.keeps (P := fun w log => w.core.Minutes _ _ log) h begun ?_ ?_
  · obtain ⟨errands, doers, faithful⟩ := begun.faithful
    refine ⟨⟨_, run_begin w₀ plan platform channel? cancelled, ?_, .begin ..⟩, ⟨errands, doers, faithful,
      fun j hj => ⟨fun old => ?_, fun new => absurd new List.not_mem_nil⟩⟩, Nat.le_refl _,
      fun j hj => absurd hj List.not_mem_nil⟩
    · rw [core_begin]
      exact h₀.sound.begin_heard plan platform channel? w₀.freshId.1 w₀.now cancelled
    · obtain ⟨m, works⟩ := doers.works old
      obtain ⟨k, hk, -⟩ := works.closes
      exact absurd (lt_of_getElem?_eq_some hk) (Nat.not_lt_of_le hj)
  · intro w w' log reachable _ step minutes
    obtain ⟨beats, -, deed⟩ := step.deed reachable.sound
    exact minutes.deed reachable.sound reachable.rolling deed

/-- Two members that are watched by an observer which reports an error whatever it is told. -/
def grudging : Plan :=
  { Plan.pair with observers := [{
      id := 1, name := "grudge", reaction := fun occasion _ => { response := .fails [occasion.word] } }] }

/-- A platform that cannot stop the first of two members and refuses to run the second. -/
def stubborn : Platform :=
  .custom { stopError? := some (.terminationFailed "stuck") }
    [("worker-2", { answer := .refusal (.spawnFailed "no room") })]

end World

end Muster
