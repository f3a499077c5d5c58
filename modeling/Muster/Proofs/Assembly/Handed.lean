import Muster.Proofs.Assembly.Errands

/-!
# What clients hear who close the same

* `Client`, `World.closedBy`: who hears how closing something has ended, and which members it closed itself.
* `Core.Reaping`: reapers wait only for calls for members of their runs.
* **`Core.Closer.tells`**: the call that closes an assembly reports what the calls ended in that closed members
  for it, in the order of the members.
* **`World.Logs.handed`**: whoever closes the members of an assembly at the same time, each of them is closed
  by one client, and what comes up then is told to that client only.
-/

namespace Muster

/-- Somebody who has called for something to be closed, and hears how that has ended. -/
inductive Client where
  /-- The call is for a member. -/
  | member (j : Nat)
  /-- The call is for an assembly. -/
  | assembly (d : Nat)
deriving DecidableEq, Repr

/-- What a call that closes an assembly has failed with. -/
def Dissolution.failure? (y : Dissolution) : Option Teardown :=
  match y.phase with
  | .finished (.error t) => some t
  | _ => none

theorem Dissolution.failure?_eq_some {y : Dissolution} {t : Teardown} :
    y.failure? = some t ↔ y.phase = .finished (.error t) := by
  unfold failure?
  split <;> simp_all

/-- The calls for which a call waits that closes an assembly. -/
def Errand.places? (d : Nat) : Errand → Option (List Nat)
  | assembly e places => if e = d then some places else none
  | member _ => none

theorem Errand.places?_eq_some {d : Nat} {e : Errand} {places : List Nat} :
    e.places? d = some places ↔ e = .assembly d places := by
  cases e <;> simp [places?]

/-- Whether somebody who closes an assembly waits for a call. -/
def Errand.takes (j : Nat) : Errand → Bool
  | assembly _ places => places.contains j
  | member _ => false

theorem Errand.any_takes {log : List Errand} {j : Nat} :
    log.any (Errand.takes j) = true ↔ ∃ d places, .assembly d places ∈ log ∧ j ∈ places := by
  rw [List.any_eq_true]
  constructor
  · rintro ⟨e, he, takes⟩
    cases e with
    | member i => cases takes
    | assembly d places => exact ⟨d, places, he, List.contains_iff_mem.mp takes⟩
  · rintro ⟨d, places, hd, hj⟩
    exact ⟨_, hd, List.contains_iff_mem.mpr hj⟩

/-- The calls for members for which a client waits: its own, unless this is one of those of somebody who closes
an assembly. -/
def Client.calls (log : List Errand) : Client → List Nat
  | member j => if log.any (Errand.takes j) then [] else [j]
  | assembly d => (log.findSome? (Errand.places? d)).getD []

theorem Client.calls_eq_nil {log : List Errand} {d : Nat} (nobody : ∀ places, .assembly d places ∉ log) :
    Client.calls log (.assembly d) = [] := by
  have all : log.findSome? (Errand.places? d) = none := by
    rw [List.findSome?_eq_none_iff]
    intro e he
    rw [Option.eq_none_iff_forall_ne_some]
    intro places same
    exact nobody places (Errand.places?_eq_some.mp same ▸ he)
  show (log.findSome? (Errand.places? d)).getD [] = []
  rw [all, Option.getD_none]

/-- The members that a client closes itself, in the order of its calls. -/
def World.closedBy (w : World) (log : List Errand) (client : Client) : List Nat :=
  ((client.calls log).filter (.member · ∈ log)).filterMap (Closings.member? w.closings)

theorem Closing.Phase.At.stops_le_one {p : Closing.Phase} {state : MemberState} {count : Nat}
    (h : p.At state count) : count ≤ 1 := by
  cases h <;> decide

theorem Teardown.report_eq_error {t : Teardown} : (∃ t', t.report = .error t') ↔ t.closeFailures ≠ [] := by
  unfold report
  cases t.closeFailures <;> simp

theorem Members.closeFailure?_ne_none {ms : Array Member} {m : Nat} : Members.closeFailure? ms m ≠ none ↔
    ∃ x cause, ms[m]? = some x ∧ x.process.stopError? = some cause := by
  unfold closeFailure? Member.closeFailure?
  cases ms[m]? with
  | none => simp
  | some x => cases h : x.process.stopError? <;> simp [h]

namespace Core

variable {c c' : Core} {log : List Errand}

/-! ### Reapers -/

/-- Reapers wait only for calls for members that came of launches of their runs. -/
def Reaping (c : Core) : Prop :=
  ∀ {r j : Nat} {run : Run}, c.runs[r]? = some run → run.reaper? = some ⟨some j⟩ → ∃ k x l,
    c.closings[j]? = some k ∧ c.members[k.member]? = some x ∧ c.launches[x.launch]? = some l ∧ l.run? = some r

theorem Reaping.empty : Core.Reaping ⟨#[], #[], #[], #[], #[], #[], []⟩ := fun hr => by simp at hr

theorem Reaping.move (h : c.Reaping) (sound : c.Sound) (move : c.Move c') : c'.Reaping := by
  intro r j run' hr' hp'
  have keeps := move.keeps
  have later {m : Nat} {x : Member} {l : Launch} {k : Closing} (hk' : c'.closings[j]? = some k)
      (own : k.member = m) (hx : c.members[m]? = some x) (hl : c.launches[x.launch]? = some l)
      (hlr : l.run? = some r) : ∃ k x l, c'.closings[j]? = some k ∧ c'.members[k.member]? = some x ∧
        c'.launches[x.launch]? = some l ∧ l.run? = some r := by
    obtain ⟨x', hx', xkept⟩ := keeps.members hx
    obtain ⟨l', hl', lkept⟩ := keeps.launches hl
    exact ⟨k, x', l', hk', own ▸ hx', xkept.launch ▸ hl', lkept.run.trans hlr⟩
  by_cases hlt : r < c.runs.size
  · obtain ⟨run, hr⟩ := exists_getElem? hlt
    have stay (reaper : run.reaper? = some ⟨some j⟩) : ∃ k x l, c'.closings[j]? = some k ∧
        c'.members[k.member]? = some x ∧ c'.launches[x.launch]? = some l ∧ l.run? = some r := by
      obtain ⟨k, x, l, hk, hx, hl, hlr⟩ := h hr reaper
      obtain ⟨k', hk', kkept⟩ := keeps.closings hk
      exact later hk' kkept.member hx hl hlr
    rcases move.run_cases hr hr' with same | move | move
    · exact stay (same.reaper.symm.trans hp')
    · cases move with
      | giveUp hs =>
        cases (getElem?_replace_self hs _).symm.trans hr'
        cases hp'
      | take hs | refuse hs | gather hs | succeedEmpty hs | dismiss hs | succeed hs | degrade hs | rest hs
      | wake hs | fail hs =>
        obtain ⟨rfl, rfl⟩ := eq_of_replaced hr hs hr'
        exact stay hp'
    · cases move with
      | done hs =>
        cases (getElem?_replace_self hs _).symm.trans hr'
        cases hp'
      | drop hs hp =>
        cases (getElem?_replace_self hs _).symm.trans hr'
        cases hp.symm.trans hp'
      | close hs _ settled him =>
        obtain ⟨l, x, hl, hlr, hx, rfl, -⟩ := sound.late hs settled him
        cases (getElem?_replace_self hs _).symm.trans hr'
        cases hp'
        exact later (k := { member := _ }) (by simp [call, setRun]) rfl hx hl hlr
  · obtain ⟨taken, left, ledger⟩ := sound.booked.move sound.lined move r run' hr'
    have none := (ledger.stands.launching (move.new_run (Nat.le_of_not_lt hlt) hr').1).2
    cases none.symm.trans hp'

/-- A call for a member of an assembly is made neither by a run that closes its members nor by a reaper. -/
theorem Sound.outside (h : c.Sound) (rolling : c.Rolling) (reaping : c.Reaping) {a j r : Nat} {x : Assembly}
    {k : Closing} {run : Run} (hx : c.assemblies[a]? = some x) (hk : c.closings[j]? = some k)
    (hm : k.member ∈ x.members) (hr : c.runs[r]? = some run) :
    (∀ cause places, run.phase = .rollingBack cause places → j ∉ places) ∧ run.reaper? ≠ some ⟨some j⟩ := by
  obtain ⟨q, z, hq, hz, members⟩ := h.stocked a x hx
  obtain ⟨_, l, y, _, hl, hlq, -, hy, rfl, -⟩ := h.launch_of_member hq (members ▸ hm)
  refine ⟨fun cause places hp hj => ?_, fun reaper => ?_⟩
  · obtain ⟨m, hm', closes⟩ := forall₂_right (rolling hr hp).flip hj
    cases Closes.eq closes ⟨k, hk, rfl⟩
    obtain ⟨_, l', y', _, hl', hlr, -, hy', rfl, -⟩ := h.launch_of_member hr hm'
    cases hy.symm.trans hy'
    cases hl.symm.trans hl'
    cases hlq.symm.trans hlr
    cases hq.symm.trans hr
    cases hz.symm.trans hp
  · obtain ⟨k', y', l', hk', hy', hl', hlr⟩ := reaping hr reaper
    cases hk.symm.trans hk'
    cases hy.symm.trans hy'
    cases hl.symm.trans hl'
    cases hlq.symm.trans hlr
    cases hq.symm.trans hr
    obtain ⟨taken, left, ledger⟩ := h.booked r run hr
    cases (ledger.stands.succeeded hz).2.2.symm.trans reaper

/-! ### Reports -/

theorem Closer.finished {d : Nat} {places : List Nat} {y : Dissolution} {a : Assembly}
    (closer : c.Closer d places y a) {o : Except Teardown Teardown} (ended : y.phase = .finished o) :
    ∃ outcomes, List.Forall₂ (Returns c.closings) places outcomes ∧
      o = (Teardown.ofOutcomes outcomes).report := by
  have waits := closer.waits
  rw [ended] at waits
  cases waits with
  | finished returns => exact ⟨_, returns, rfl⟩

/-- **Reports.** The call that closes an assembly reports what the calls ended in that closed members for it, in
the order of the members. -/
theorem Closer.tells (faithful : c.Faithful log) (doers : c.Doers log) (sound : c.Sound) {d : Nat}
    {places : List Nat} {y : Dissolution} {a : Assembly} {o : Except Teardown Teardown}
    (closer : c.Closer d places y a) (ended : y.phase = .finished o) {ms : List Nat}
    (own : ms = (places.filter (.member · ∈ log)).filterMap (Closings.member? c.closings)) :
    ms.Sublist a.members ∧ o = Teardown.report {
      closed := a.members.length
      closeFailures := ms.filterMap (Members.closeFailure? c.members)
      observerFailures := ms.flatMap (Members.parting c.members) } := by
  obtain ⟨outcomes, returns, rfl⟩ := closer.finished ended
  obtain ⟨within, failures, reports⟩ := faithful.tells doers sound closer.calls returns own
  refine ⟨within, congrArg Teardown.report ?_⟩
  rw [closer.calls.length_eq.symm, returns.length_eq, ← failures, ← reports, ← Teardown.closed_ofOutcomes,
    ← Teardown.closeFailures_ofOutcomes, ← Teardown.observerFailures_ofOutcomes]

/-! ### Clients -/

/-- The calls for which somebody waits who closes an assembly. -/
theorem Closers.calls_eq (h : c.Closers log) {d : Nat} {places : List Nat} (hd : .assembly d places ∈ log) :
    Client.calls log (.assembly d) = places := by
  obtain ⟨y, a, closer⟩ := h.begun hd
  obtain ⟨found, hfound⟩ : ∃ found, log.findSome? (Errand.places? d) = some found := by
    rw [← Option.isSome_iff_exists, List.findSome?_isSome_iff]
    exact ⟨_, hd, Option.isSome_iff_exists.mpr ⟨_, Errand.places?_eq_some.mpr rfl⟩⟩
  obtain ⟨e, he, same⟩ := List.exists_of_findSome?_eq_some hfound
  rw [Errand.places?_eq_some.mp same] at he
  show (log.findSome? (Errand.places? d)).getD [] = places
  rw [hfound, Option.getD_some]
  exact (h.one he hd closer.there closer.there rfl).2

/-- For which calls a client waits. -/
theorem Closers.mem_calls (h : c.Closers log) {client : Client} {j : Nat} : j ∈ client.calls log ↔
    (client = .member j ∧ ∀ d places, .assembly d places ∈ log → j ∉ places) ∨
      ∃ d places, client = .assembly d ∧ .assembly d places ∈ log ∧ j ∈ places := by
  cases client with
  | member i =>
    unfold Client.calls
    by_cases taken : log.any (Errand.takes i) = true
    · obtain ⟨d, places, hd, hi⟩ := Errand.any_takes.mp taken
      dsimp only
      rw [if_pos taken]
      refine ⟨fun hj => absurd hj List.not_mem_nil, ?_⟩
      rintro (⟨own, nobody⟩ | ⟨_, _, other, -⟩)
      · cases own
        exact absurd hi (nobody d places hd)
      · cases other
    · dsimp only
      rw [if_neg taken, List.mem_singleton]
      constructor
      · rintro rfl
        exact .inl ⟨rfl, fun d places hd hj => taken (Errand.any_takes.mpr ⟨d, places, hd, hj⟩)⟩
      · rintro (⟨own, -⟩ | ⟨_, _, other, -⟩)
        · cases own
          rfl
        · cases other
  | assembly d =>
    constructor
    · intro hj
      by_cases begun : ∃ places, .assembly d places ∈ log
      · obtain ⟨places, hd⟩ := begun
        exact .inr ⟨d, places, rfl, hd, h.calls_eq hd ▸ hj⟩
      · rw [Client.calls_eq_nil (not_exists.mp begun)] at hj
        exact absurd hj List.not_mem_nil
    · rintro (⟨other, -⟩ | ⟨_, places, own, hd, hj⟩)
      · cases other
      · cases own
        rw [h.calls_eq hd]
        exact hj

/-- Each call is waited for by one client. -/
theorem Closers.client (h : c.Closers log) (j : Nat) : ∃! client : Client, j ∈ client.calls log := by
  by_cases taken : ∃ d places, .assembly d places ∈ log ∧ j ∈ places
  · obtain ⟨d, places, hd, hj⟩ := taken
    refine ⟨.assembly d, h.mem_calls.mpr (.inr ⟨d, places, rfl, hd, hj⟩), fun client hj' => ?_⟩
    rcases h.mem_calls.mp hj' with ⟨-, nobody⟩ | ⟨e, qs, rfl, he, hj'⟩
    · exact absurd hj (nobody d places hd)
    · rw [(h.apart hd he hj hj').1]
  · have nobody : ∀ d places, .assembly d places ∈ log → j ∉ places :=
      fun d places hd hj => taken ⟨d, places, hd, hj⟩
    refine ⟨.member j, h.mem_calls.mpr (.inl ⟨rfl, nobody⟩), fun client hj' => ?_⟩
    rcases h.mem_calls.mp hj' with ⟨rfl, -⟩ | ⟨d, places, -, hd, hj⟩
    · rfl
    · exact absurd ⟨d, places, hd, hj⟩ taken

end Core

namespace World

/-- What clients hear who close the members of assemblies at the same time. -/
structure Handed (w : World) (log : List Errand) : Prop where
  /-- The process of a member is stopped at most once. -/
  stops : ∀ m, w.stops m ≤ 1
  /-- A member of an assembly that somebody has begun to close is closed by exactly one client, -/
  sole : ∀ (a m : Nat) (x : Assembly) (y : Member), w.assemblies[a]? = some x → m ∈ x.members →
    w.members[m]? = some y → y.closeStarted = true → ∃! client, m ∈ w.closedBy log client
  /-- and neither by a run nor by its reaper. -/
  outside : ∀ (a j r : Nat) (x : Assembly) (k : Closing) (run : Run), w.assemblies[a]? = some x →
    w.closings[j]? = some k → k.member ∈ x.members → w.runs[r]? = some run →
      (∀ cause places, run.phase = .rollingBack cause places → j ∉ places) ∧ run.reaper? ≠ some ⟨some j⟩
  /-- Whoever calls for a member hears what came up while it was closed if it closed it itself, and nothing
  otherwise. -/
  member : ∀ (j : Nat) (k : Closing) (x : Member) (o : Except CloseFailure (List ObserverFailure)),
    j ∈ Client.calls log (.member j) → w.closings[j]? = some k → w.members[k.member]? = some x →
    k.phase = .finished o → o = if k.member ∈ w.closedBy log (.member j) then x.ending else .ok []
  /-- Of those who call for an assembly one has anything to hear, at most. -/
  single : ∀ (d e : Nat) (y z : Dissolution) (o o' : Except Teardown Teardown), w.dissolutions[d]? = some y →
    w.dissolutions[e]? = some z → y.assembly = z.assembly → y.phase = .finished o → z.phase = .finished o' →
    o ≠ .ok {} → o' ≠ .ok {} → d = e
  /-- It hears of all its members, and what came up while those were closed that it closed itself, in the order
  of the members; the others close no member and hear nothing. -/
  assembly : ∀ (d : Nat) (y : Dissolution) (x : Assembly) (o : Except Teardown Teardown),
    w.dissolutions[d]? = some y → w.assemblies[y.assembly]? = some x → y.phase = .finished o →
      (w.closedBy log (.assembly d) = [] ∧ o = .ok {}) ∨
      (w.closedBy log (.assembly d)).Sublist x.members ∧ o = Teardown.report {
        closed := x.members.length
        closeFailures := (w.closedBy log (.assembly d)).filterMap (Members.closeFailure? w.members)
        observerFailures := (w.closedBy log (.assembly d)).flatMap (Members.parting w.members) }
  /-- It hears of this as an error just when the process of a member that it closed itself could not be
  stopped. -/
  failure : ∀ (d : Nat) (y : Dissolution) (o : Except Teardown Teardown), w.dissolutions[d]? = some y →
    y.phase = .finished o → ((∃ t, o = .error t) ↔ ∃ m ∈ w.closedBy log (.assembly d), ∃ x cause,
      w.members[m]? = some x ∧ x.process.stopError? = some cause)

variable {w : World} {log : List Errand}

theorem mem_closedBy {client : Client} {m : Nat} : m ∈ w.closedBy log client ↔
    ∃ j ∈ client.calls log, .member j ∈ log ∧ Core.Closes w.closings j m := by
  unfold closedBy
  rw [List.mem_filterMap]
  refine exists_congr fun j => ?_
  rw [List.mem_filter, decide_eq_true_iff, and_assoc, Core.Closes.member?]

/-- Whoever calls for an assembly and has anything to hear is the one that closes it. -/
theorem tells (doers : w.core.Doers log) (closers : w.core.Closers log) (faithful : w.core.Faithful log)
    (sound : w.core.Sound) {d : Nat} {y : Dissolution} {x : Assembly} {o : Except Teardown Teardown}
    (hd : w.dissolutions[d]? = some y)
    (hx : w.assemblies[y.assembly]? = some x) (ended : y.phase = .finished o) :
    (w.closedBy log (.assembly d) = [] ∧ o = .ok {}) ∨
      (w.closedBy log (.assembly d)).Sublist x.members ∧ o = Teardown.report {
        closed := x.members.length
        closeFailures := (w.closedBy log (.assembly d)).filterMap (Members.closeFailure? w.members)
        observerFailures := (w.closedBy log (.assembly d)).flatMap (Members.parting w.members) } := by
  by_cases began : ∃ places, .assembly d places ∈ log
  · obtain ⟨places, began⟩ := began
    obtain ⟨y', x', closer⟩ := closers.begun began
    cases hd.symm.trans closer.there
    cases hx.symm.trans closer.assembly
    refine .inr (closer.tells faithful doers sound ended ?_)
    unfold closedBy
    rw [closers.calls_eq began]
    rfl
  · have none := not_exists.mp began
    refine .inl ⟨?_, ?_⟩
    · unfold closedBy
      rw [Client.calls_eq_nil none]
      rfl
    · rcases closers.skipped hd none with called | nothing
      · cases ended.symm.trans called
      · cases ended.symm.trans nothing
        rfl

theorem OpenLogs.closers (h : OpenLogs World.errands {} w log) : w.core.Closers log := by
  refine OpenLogs.keeps (P := fun w log => w.core.Closers log) h .refl .empty ?_
  intro w w' log reachable _ step closers
  exact closers.move (step.move reachable.sound)

theorem Reachable.reaping (h : Reachable w) : w.core.Reaping := by
  refine (Steps.invariant (P := Core.Reaping) h .empty Core.Reaping.empty ?_).2
  exact fun sound move reaping => reaping.move sound move

/-- The process of a member is stopped at most once. -/
theorem Reachable.stops_le_one (h : Reachable w) (m : Nat) : w.stops m ≤ 1 := by
  show w.stopped.count m ≤ 1
  by_cases there : m < w.members.size
  · obtain ⟨x, hx⟩ := exists_getElem? there
    rcases h.sound.lives.life hx with fresh | ⟨j, way⟩
    · exact Nat.le_trans (Nat.le_of_eq fresh.stops) (Nat.zero_le 1)
    · obtain ⟨k, -, -, phase⟩ := way.works
      exact phase.stops_le_one
  · have none : w.stopped.count m = 0 := List.count_eq_zero.mpr fun hm => there (h.sound.lives.stopped hm)
    exact Nat.le_trans (Nat.le_of_eq none) (Nat.zero_le 1)

/-- **Clients.** However many clients close the members of an assembly, by themselves or with the assembly, and
in whatever order: no process is stopped twice, each member is closed by one client at most, and what came up
while it was closed is told to that client and to nobody else; only one of those who close the assembly has
anything to hear. -/
theorem Logs.handed (h : Logs World.errands {} w log) : w.Handed log := by
  have reachable : Reachable w := h.steps
  have sound := reachable.sound
  obtain ⟨doers, faithful⟩ := OpenLogs.faithful h.opened
  have closers := OpenLogs.closers h.opened
  refine {
    stops := reachable.stops_le_one
    sole := ?sole
    outside := fun _ _ _ _ _ _ hx hk hm hr => sound.outside reachable.rolling reachable.reaping hx hk hm hr
    member := ?member
    single := ?single
    assembly := fun _ _ _ _ hd hx ended => tells doers closers faithful sound hd hx ended
    failure := ?failure }
  case sole =>
    intro a m x y _ _ hy begun
    obtain ⟨j, hj, closes⟩ := doers.begun hy begun
    obtain ⟨client, waits, only⟩ := closers.client j
    refine ⟨client, mem_closedBy.mpr ⟨j, waits, hj, closes⟩, fun other hm => only other ?_⟩
    obtain ⟨i, hi, began, closes'⟩ := mem_closedBy.mp hm
    exact doers.one began hj closes' closes ▸ hi
  case member =>
    intro j k x o own hk hx ended
    have mine : k.member ∈ w.closedBy log (.member j) ↔ .member j ∈ log := by
      rw [mem_closedBy]
      constructor
      · rintro ⟨i, hi, began, -⟩
        rcases closers.mem_calls.mp hi with ⟨same, -⟩ | ⟨d, places, other, -⟩
        · cases same
          exact began
        · cases other
      · exact fun began => ⟨j, own, began, k, hk, rfl⟩
    split
    · rename_i closes
      exact faithful.ending (mine.mp closes) hk ended hx
    · rename_i idle
      rcases doers.idle hk (mt mine.mpr idle) with called | nothing
      · cases ended.symm.trans called
      · cases ended.symm.trans nothing
        rfl
  case single =>
    intro d e y z o o' hd he same ended ended' some some'
    have began {d : Nat} {y : Dissolution} {o : Except Teardown Teardown} (hd : w.dissolutions[d]? = .some y)
        (ended : y.phase = .finished o) (some : o ≠ .ok {}) : ∃ places, .assembly d places ∈ log := by
      by_contra none
      rcases closers.skipped hd (not_exists.mp none) with called | nothing
      · cases ended.symm.trans called
      · cases ended.symm.trans nothing
        exact some rfl
    obtain ⟨ps, hd'⟩ := began hd ended some
    obtain ⟨qs, he'⟩ := began he ended' some'
    exact (closers.one hd' he' hd he same).1
  case failure =>
    intro d y o hd ended
    obtain ⟨x, hx⟩ := exists_getElem? (sound.dissolved.known hd)
    rcases tells doers closers faithful sound hd hx ended with ⟨none, rfl⟩ | ⟨-, rfl⟩
    · rw [none]
      simp
    · rw [Teardown.report_eq_error]
      simp only [ne_eq, List.filterMap_eq_nil_iff, not_forall, exists_prop]
      exact exists_congr fun m => and_congr_right fun _ => Members.closeFailure?_ne_none

/-- A platform that cannot stop any process. -/
def sullen : Platform := .custom { stopError? := some (.terminationFailed "stuck") } []

/-- Two members were launched on it, watched by an observer which reports an error whatever it is told. -/
def watched : World :=
  ({ stage sullen with
    identities := 1
    runs := #[grudging.plainRun (.random 0) 0 false [0, 1]]
    launches := (grudging.launches 0 0 grudging.observers).toArray } : World).goes
      [.launch 0, .launch 0, .launch 0, .launch 0, .launch 1, .launch 1, .launch 1, .launch 1, .run 0, .run 0]

theorem steps_watched : Steps ((stage sullen).begin grudging 0 none false).2 watched := by
  rw [begin_plain _ rfl]
  exact Steps.goes (by decide +kernel)

/-- They are an assembly. -/
def manned : World :=
  (watched.modifyRun 0 fun run =>
    { run with members := [0, 1], deadline := watched.now + run.timeout.millis, phase := .asking }).advance
      (.run 0)

theorem reachable_manned : Reachable manned :=
  ((steps_watched.reachable (reachable_stage _)).tail (.gather rfl (List.cons_ne_nil 0 [1]) (.refl [0, 1])
    (by decide +kernel) (by decide +kernel))).tail (.advance (.run 0) (by decide +kernel))

/-- Somebody closes the first member, and two others the assembly; the first one begins first, and all of
them come to an end. -/
def disputed : World :=
  ((manned.callClose 0).2.callDissolve 0).2.callDissolve 0 |>.2.goes
    [.closing 0, .closing 0, .dissolution 1, .dissolution 0, .closing 1, .closing 2, .closing 2, .closing 0,
      .closing 0, .closing 2, .closing 2, .closing 0, .closing 0, .closing 2, .closing 2, .dissolution 1]

theorem reachable_disputed : Reachable disputed := by
  have members : manned.assemblies[0]?.map (·.members) = some [0, 1] := by decide +kernel
  obtain ⟨x, hx, hxm⟩ := Option.map_eq_some_iff.mp members
  have held : manned.Held 0 := .inl ⟨x, Array.mem_of_getElem? hx, hxm ▸ by decide⟩
  exact (((reachable_manned.tail (.close 0 held)).tail (.dissolve 0 (by decide +kernel))).tail
    (.dissolve 0 (by decide +kernel))).trans (Steps.goes (by decide +kernel))

set_option maxRecDepth 4000 in
/-- The first one hears of the first member, one of the two others hears of the second one, and the other of
nothing, although it was the first of the two to call. -/
theorem handed_disputed : ∃ log, Logs World.errands {} disputed log ∧ disputed.Handed log ∧
    (∃! client, 0 ∈ disputed.closedBy log client) ∧ (∃ m, m ∈ disputed.closedBy log (.assembly 1)) ∧
    disputed.closings.toList.map (fun k => (k.outcome?.bind Closing.failureOf?).map (·.member)) =
      [some "worker-1", none, some "worker-2"] ∧
    disputed.dissolutions[0]?.map (·.phase) = some (.finished (.ok {})) ∧
    ∃ t, disputed.dissolutions[1]?.map (·.phase) = some (.finished (.error t)) ∧
      t.closeFailures.map (·.member) = ["worker-2"] ∧
      t.observerFailures.map (·.occasion) = [.closing, .closed] := by
  obtain ⟨log, logs⟩ := reachable_disputed.logs World.errands
  have handed := Logs.handed logs
  have assembly : disputed.assemblies[0]?.map (·.members) = some [0, 1] := by decide +kernel
  have begun : disputed.members[0]?.map (·.closeStarted) = some true := by decide +kernel
  obtain ⟨x, hx, hxm⟩ := Option.map_eq_some_iff.mp assembly
  obtain ⟨y, hy, hyb⟩ := Option.map_eq_some_iff.mp begun
  have ended : (disputed.dissolutions[1]?.bind Dissolution.failure?).map
      (fun t => (t.closeFailures.map (·.member), t.observerFailures.map (·.occasion))) =
        some (["worker-2"], [.closing, .closed]) := by decide +kernel
  obtain ⟨t, ended, told⟩ := Option.map_eq_some_iff.mp ended
  obtain ⟨d, hd, failed⟩ := Option.bind_eq_some_iff.mp ended
  have hp : d.phase = .finished (.error t) := Dissolution.failure?_eq_some.mp failed
  rw [Prod.mk.injEq] at told
  obtain ⟨m, hm, -⟩ := (handed.failure 1 d _ hd hp).mp ⟨t, rfl⟩
  exact ⟨log, logs, handed, handed.sole 0 0 x y hx (hxm ▸ by decide) hy hyb, ⟨m, hm⟩, by decide +kernel,
    rfl, t, by rw [hd, Option.map_some, hp], told.1, told.2⟩

end World

end Muster
