import Mathlib.Data.List.Nodup
import Muster.Proofs.Launch.Line
import Muster.Proofs.Launch.OfRun
import Muster.Proofs.Member.Outcomes
import Muster.Proofs.Run.Outstanding

/-!
# The books of a run

* `Run.Stands`: what the phase of a run says about the launches that it never took note of.
* `Ledger`: the launches of a run are those it took note of and those it never did; its members and its
  failures are those of the former, the outstanding ones the latter, and what has settled waits to be
  taken up, by the run or by its reaper.
* **`Core.Booked.move`**: every move keeps the books of all runs.
-/

namespace Muster

/-- A cause says what the run found: the failures of all its launches, or who was outstanding. -/
def Run.Cause.Tells (cause : Run.Cause) (run : Run) (left : List Nat) : Prop :=
  match cause with
  | .launch failures => failures = run.failures ∧ left = []
  | .launchTimeout names => names = run.outstanding.map (·.2)
  | .unstable _ | .cancelled => True

/-- Where a run stands, when it never took note of the launches that are left. -/
def Run.Stands (run : Run) (left : List Nat) : Prop :=
  match run.phase with
  | .launching => run.pending = left ∧ run.reaper? = none
  | .asking | .resting _ | .finished (.ok _) => left = [] ∧ run.failures = [] ∧ run.reaper? = none
  | .rollingBack cause places => (run.reaper? = none → left = []) ∧ cause.Tells run left ∧
      places.length = run.members.length
  | .finished (.error e) => (run.reaper? = none → left = []) ∧ ∃ (cause : Run.Cause) (t : Teardown),
      e = World.errorOf run t cause ∧ cause.Tells run left ∧ t.closed = run.members.length

/-- The books of a run: the launches that it took note of, and those that are left. -/
structure Ledger (ls : Array Launch) (r : Nat) (run : Run) (taken left : List Nat) : Prop where
  all : (taken ++ left).Perm (Launches.ofRun ls r)
  ended : ∀ i ∈ taken, (Launches.outcome? ls i).isSome
  pending : run.pending.Sublist left
  reaped : ∀ i ∈ left, i ∉ run.pending → (Launches.outcome? ls i).isSome
  settled : ∀ i, i ∈ run.settled ↔ i ∈ run.pending ∧ (Launches.outcome? ls i).isSome
  once : run.settled.Nodup
  members : run.members.Perm (taken.filterMap (Launches.memberOf? ls))
  failures : run.failures = taken.filterMap (Launches.failureOf? ls)
  sorted : run.outstanding.Pairwise (·.1 < ·.1)
  outstanding : ((Launches.ofRun ls r).map (Launches.ordinal ls)).Nodup →
    run.outstanding.Perm (left.map fun i => (Launches.ordinal ls i, Launches.name ls i))
  stands : run.Stands left

namespace Run

variable {run : Run} {left : List Nat}

theorem Stands.launching (h : run.Stands left) (hp : run.phase = .launching) :
    run.pending = left ∧ run.reaper? = none := by
  unfold Stands at h
  rw [hp] at h
  exact h

theorem Stands.asking (h : run.Stands left)
    (hp : run.phase = .asking ∨ ∃ due, run.phase = .resting due) :
    left = [] ∧ run.failures = [] ∧ run.reaper? = none := by
  unfold Stands at h
  rcases hp with hp | ⟨due, hp⟩ <;> rw [hp] at h <;> exact h

theorem Stands.rollingBack (h : run.Stands left) {cause : Run.Cause} {places : List Nat}
    (hp : run.phase = .rollingBack cause places) : (run.reaper? = none → left = []) ∧
      cause.Tells run left ∧ places.length = run.members.length := by
  unfold Stands at h
  rw [hp] at h
  exact h

theorem Stands.succeeded (h : run.Stands left) {a : Nat} (hp : run.phase = .finished (.ok a)) :
    left = [] ∧ run.failures = [] ∧ run.reaper? = none := by
  unfold Stands at h
  rw [hp] at h
  exact h

theorem Stands.failed (h : run.Stands left) {e : AssemblyError}
    (hp : run.phase = .finished (.error e)) : (run.reaper? = none → left = []) ∧
      ∃ (cause : Run.Cause) (t : Teardown), e = World.errorOf run t cause ∧ cause.Tells run left ∧
        t.closed = run.members.length := by
  unfold Stands at h
  rw [hp] at h
  exact h

/-- Only a run that gave up leaves anything to a reaper. -/
theorem Stands.gaveUp (h : run.Stands left) (reaper : run.reaper?.isSome) :
    (∃ cause places, run.phase = .rollingBack cause places) ∨
      ∃ e, run.phase = .finished (.error e) := by
  have some : run.reaper? ≠ none := Option.isSome_iff_ne_none.mp reaper
  cases hp : run.phase with
  | launching => exact absurd (h.launching hp).2 some
  | rollingBack cause places => exact .inl ⟨cause, places, rfl⟩
  | asking => exact absurd (h.asking (.inl hp)).2.2 some
  | resting due => exact absurd (h.asking (.inr ⟨due, hp⟩)).2.2 some
  | finished o =>
    cases o with
    | ok a => exact absurd (h.succeeded hp).2.2 some
    | error e => exact .inr ⟨e, rfl⟩

/-- A run that gave up stands where it stood when only its reaper goes on. -/
theorem Stands.reap (h : run.Stands left) (reaper : run.reaper?.isSome) (pending settled : List Nat)
    (next : Reaper) : Run.Stands { run with pending, settled, reaper? := some next } left := by
  rcases h.gaveUp reaper with ⟨cause, places, hp⟩ | ⟨e, hp⟩
  · obtain ⟨-, tells, length⟩ := h.rollingBack hp
    unfold Stands
    rw [hp]
    exact ⟨fun none => (by cases none), tells, length⟩
  · obtain ⟨-, rest⟩ := h.failed hp
    unfold Stands
    rw [hp]
    exact ⟨fun none => (by cases none), rest⟩

end Run

namespace Ledger

variable {ls ls' : Array Launch} {r : Nat} {run run' : Run} {taken left : List Nat}

theorem mem_ofRun (h : Ledger ls r run taken left) {i : Nat} (hi : i ∈ taken ∨ i ∈ left) :
    i ∈ Launches.ofRun ls r :=
  h.all.subset (List.mem_append.mpr hi)

theorem nodup (h : Ledger ls r run taken left) : (taken ++ left).Nodup :=
  h.all.nodup_iff.mpr (Launches.nodup_ofRun ls r)

theorem left_nodup (h : Ledger ls r run taken left) : left.Nodup := (List.nodup_append.mp h.nodup).2.1

theorem not_left (h : Ledger ls r run taken left) {i : Nat} (hi : i ∈ taken) : i ∉ left :=
  fun hl => (List.nodup_append.mp h.nodup).2.2 i hi i hl rfl

/-- When nothing is left, the run took note of all its launches. -/
theorem taken_perm_ofRun (h : Ledger ls r run taken []) : taken.Perm (Launches.ofRun ls r) := by
  have all := h.all
  rw [List.append_nil] at all
  exact all

/-- A launch of the run that has not ended is pending. -/
theorem pending_of_unsettled (h : Ledger ls r run taken left) {i : Nat}
    (hi : i ∈ Launches.ofRun ls r) (none : Launches.outcome? ls i = none) : i ∈ run.pending := by
  by_contra hp
  rcases List.mem_append.mp (h.all.mem_iff.mpr hi) with ht | hl
  · simpa [none] using h.ended i ht
  · simpa [none] using h.reaped i hl hp

/-- The books hold as long as the launches of the run show the same. -/
theorem alike (h : Ledger ls r run taken left) (of : Launches.ofRun ls' r = Launches.ofRun ls r)
    (alike : ∀ i ∈ Launches.ofRun ls r, Launches.Alike ls ls' i) : Ledger ls' r run taken left := by
  have ht : ∀ i ∈ taken, Launches.Alike ls ls' i := fun i hi => alike i (h.mem_ofRun (.inl hi))
  have hl : ∀ i ∈ left, Launches.Alike ls ls' i := fun i hi => alike i (h.mem_ofRun (.inr hi))
  refine { h with
    all := of ▸ h.all
    ended := fun i hi => (ht i hi).2 ▸ h.ended i hi
    reaped := fun i hi hp => (hl i hi).2 ▸ h.reaped i hi hp
    settled := fun i => ?_
    members := ?_
    failures := ?_
    outstanding := ?_ }
  · refine (h.settled i).trans (and_congr_right fun hp => ?_)
    rw [(hl i (h.pending.subset hp)).2]
  · rw [List.filterMap_congr fun i hi => (ht i hi).memberOf?_eq]
    exact h.members
  · rw [List.filterMap_congr fun i hi => (ht i hi).failureOf?_eq]
    exact h.failures
  · intro distinct
    rw [of, List.map_congr_left fun i hi => Launches.ordinal_congr (alike i hi).1] at distinct
    rw [List.map_congr_left fun i hi => by
      rw [Launches.ordinal_congr (hl i hi).1, Launches.name_congr (hl i hi).1]]
    exact h.outstanding distinct

/-- A pending launch has ended, and waits to be taken up. -/
theorem settle (h : Ledger ls r run taken left) {i : Nat} {l l' : Launch} (hl : ls[i]? = some l)
    (hr : l.run? = some r) (none : l.outcome? = none) (spec : l'.spec = l.spec)
    (same : l'.run? = l.run?) (ended : l'.outcome?.isSome) (permits : Nat) (line : List Nat) :
    Ledger (ls.setIfInBounds i l') r { run with permits, line, settled := run.settled ++ [i] } taken left := by
  have hof := Launches.ofRun_set hl same r
  have hi : i ∈ Launches.ofRun ls r := Launches.mem_ofRun.mpr ⟨l, hl, hr⟩
  have unsettled : Launches.outcome? ls i = Option.none := by rw [Launches.outcome?_of_getElem? hl, none]
  have pending := h.pending_of_unsettled hi unsettled
  have hself : (Launches.outcome? (ls.setIfInBounds i l') i).isSome := by
    rw [Launches.outcome?_of_getElem? (getElem?_replace_self hl l')]
    exact ended
  have alike : ∀ j, j ≠ i → Launches.Alike ls (ls.setIfInBounds i l') j := fun j hj =>
    Launches.alike_of_getElem?_eq (getElem?_replace_of_ne hl hj l')
  have other : ∀ j ∈ taken, j ≠ i := fun j hj hji => h.not_left hj (hji ▸ h.pending.subset pending)
  refine { h with
    all := hof ▸ h.all
    ended := fun j hj => (alike j (other j hj)).2 ▸ h.ended j hj
    reaped := fun j hj hp => ?_
    settled := fun j => ?_
    once := ?_
    members := ?_
    failures := ?_
    outstanding := ?_ }
  · have hj' : j ≠ i := fun hji => hp (hji ▸ pending)
    exact (alike j hj').2 ▸ h.reaped j hj hp
  · rw [List.mem_append, List.mem_singleton, h.settled j]
    by_cases hj : j = i
    · rw [hj]
      exact ⟨fun _ => ⟨pending, hself⟩, fun _ => .inr rfl⟩
    · rw [(alike j hj).2]
      exact ⟨fun hs => hs.resolve_right hj, .inl⟩
  · refine List.nodup_append.mpr ⟨h.once, List.pairwise_singleton _ i, fun j hj k hk hjk => ?_⟩
    rw [hjk, List.mem_singleton.mp hk] at hj
    simpa [unsettled] using ((h.settled i).mp hj).2
  · rw [List.filterMap_congr fun j hj => (alike j (other j hj)).memberOf?_eq]
    exact h.members
  · rw [List.filterMap_congr fun j hj => (alike j (other j hj)).failureOf?_eq]
    exact h.failures
  · intro distinct
    have spec? := Launches.spec?_set hl spec
    rw [hof, List.map_congr_left fun j _ => Launches.ordinal_congr (spec? j)] at distinct
    rw [List.map_congr_left fun j _ => by
      rw [Launches.ordinal_congr (spec? j), Launches.name_congr (spec? j)]]
    exact h.outstanding distinct

/-- Who is outstanding when one launch less is left. -/
theorem outstanding_erase (h : Ledger ls r run taken left)
    (distinct : ((Launches.ofRun ls r).map (Launches.ordinal ls)).Nodup) {i : Nat} (hi : i ∈ left) :
    (run.outstanding.filter (·.1 ≠ Launches.ordinal ls i)).Perm
      ((left.erase i).map fun j => (Launches.ordinal ls j, Launches.name ls j)) := by
  have perm := (h.outstanding distinct).trans ((List.perm_cons_erase hi).map _)
  refine (perm.filter _).trans ?_
  rw [List.map_cons, List.filter_cons_of_neg (by simp)]
  refine List.Perm.of_eq (List.filter_eq_self.mpr fun e he => ?_)
  obtain ⟨j, hj, rfl⟩ := List.mem_map.mp he
  rw [h.left_nodup.mem_erase_iff] at hj
  have apart := List.inj_on_of_nodup_map distinct (h.mem_ofRun (.inr hj.2)) (h.mem_ofRun (.inr hi))
  exact decide_eq_true fun same => hj.1 (apart same)

/-- The run takes note of the first launch that has ended. -/
theorem take (h : Ledger ls r run taken left) (hp : run.phase = .launching) {i : Nat} {rest : List Nat}
    (hs : run.settled = i :: rest) :
    Ledger ls r (run.take ls i) (taken ++ [i]) (left.erase i) := by
  obtain ⟨pending, reaper⟩ := h.stands.launching hp
  obtain ⟨hi, ended⟩ := (h.settled i).mp (hs ▸ List.mem_cons_self)
  rw [pending] at hi
  have perm : left.Perm (i :: left.erase i) := List.perm_cons_erase hi
  refine {
    all := ?_
    ended := ?_
    pending := ?_
    reaped := ?_
    settled := ?_
    once := h.once.erase i
    members := ?_
    failures := ?_
    sorted := h.sorted.filter _
    outstanding := ?_
    stands := ?_ }
  · refine List.Perm.trans ?_ h.all
    rw [List.append_assoc]
    exact perm.symm.append_left taken
  · intro j hj
    rcases List.mem_append.mp hj with hj | hj
    · exact h.ended j hj
    · rw [List.mem_singleton.mp hj]
      exact ended
  · exact pending ▸ List.Sublist.refl _
  · intro j hj hp'
    refine absurd ?_ hp'
    show j ∈ run.pending.erase i
    rw [pending]
    exact hj
  · intro j
    have hleft : run.pending.Nodup := pending ▸ h.left_nodup
    show j ∈ run.settled.erase i ↔ j ∈ run.pending.erase i ∧ _
    rw [h.once.mem_erase_iff, hleft.mem_erase_iff, h.settled j, and_assoc]
  · rw [List.filterMap_append]
    exact h.members.append (by cases hm : Launches.memberOf? ls i <;> simp [hm])
  · rw [List.filterMap_append, ← h.failures]
    unfold Run.take
    cases hf : Launches.failureOf? ls i <;> simp [hf]
  · intro distinct
    exact h.outstanding_erase distinct hi
  · unfold Run.Stands Run.take
    rw [hp]
    exact ⟨congrArg (·.erase i) pending, reaper⟩

/-- The reaper is handed the first launch that has ended. -/
theorem hand (h : Ledger ls r run taken left) {i : Nat} {rest : List Nat} (hs : run.settled = i :: rest)
    (reaper : run.reaper?.isSome) (next : Reaper) :
    Ledger ls r { run.hand i with reaper? := some next } taken left := by
  obtain ⟨hi, ended⟩ := (h.settled i).mp (hs ▸ List.mem_cons_self)
  have nodup : run.pending.Nodup := h.left_nodup.sublist h.pending
  refine { h with
    pending := List.erase_sublist.trans h.pending
    reaped := fun j hj hp => ?_
    settled := fun j => ?_
    once := h.once.erase i
    stands := h.stands.reap reaper _ _ next }
  · by_cases hji : j = i
    · rw [hji]
      exact ended
    · exact h.reaped j hj fun hj' => hp ((List.mem_erase_of_ne hji).mpr hj')
  · show j ∈ run.settled.erase i ↔ j ∈ run.pending.erase i ∧ _
    rw [h.once.mem_erase_iff, nodup.mem_erase_iff, h.settled j, and_assoc]

/-- The members are put in order. -/
theorem gather (h : Ledger ls r run taken left) {members : List Nat} (perm : members.Perm run.members)
    (deadline : Nat) {phase : Run.Phase}
    (stands : Run.Stands { run with members, deadline, phase } left) :
    Ledger ls r { run with members, deadline, phase } taken left :=
  { h with members := perm.trans h.members, stands }

/-- The members get closed; what is left stays with the reaper. -/
theorem rollBack (h : Ledger ls r run taken left) {reaper? : Option Reaper} {evaluations : Nat}
    {cause : Run.Cause} {places : List Nat} (reaper : reaper? = none → left = [])
    (tells : cause.Tells run left) (length : places.length = run.members.length) :
    Ledger ls r { run with reaper?, evaluations, phase := .rollingBack cause places } taken left :=
  { h with stands := ⟨reaper, tells, length⟩ }

end Ledger

/-- The launches of a run that begins launch what the plan lists. -/
theorem Plan.map_spec? (plan : Plan) (ls : Array Launch) (platform r : Nat) (observers : List Observer) :
    (List.range' ls.size plan.members.length).map
      (Launches.spec? (ls ++ (plan.launches platform r observers).toArray)) = plan.members.map some := by
  have h := Launches.map_spec?_append ls (plan.launches platform r observers)
  unfold Plan.launches at h ⊢
  rw [List.length_map, List.map_map] at h
  exact h

theorem Plan.ofRun_append (plan : Plan) {ls : Array Launch} {r : Nat} (fresh : Launches.ofRun ls r = [])
    (platform : Nat) (observers : List Observer) :
    Launches.ofRun (ls ++ (plan.launches platform r observers).toArray) r =
      List.range' ls.size plan.members.length := by
  rw [Launches.ofRun_append, fresh, List.nil_append, Launches.ofRun_eq_range, List.range'_eq_map_range]
  · simp [Plan.launches]
  · intro l hl
    obtain ⟨spec, -, rfl⟩ := plan.mem_launches hl
    rfl

/-- The books of a run that begins: all launches of the plan are left. -/
theorem Ledger.begin (plan : Plan) {ls : Array Launch} {r : Nat} (fresh : Launches.ofRun ls r = [])
    (platform : Nat) (observers : List Observer) (id : Uuid) (channel? : Option Nat) (now : Nat)
    (cancelled : Bool) :
    Ledger (ls ++ (plan.launches platform r observers).toArray) r
      (plan.run id channel? now cancelled (List.range' ls.size plan.members.length)) []
      (List.range' ls.size plan.members.length) := by
  have hof := plan.ofRun_append fresh platform observers
  have specs := plan.map_spec? ls platform r observers
  refine {
    all := hof ▸ .refl _
    ended := fun i hi => absurd hi List.not_mem_nil
    pending := .refl _
    reaped := fun i hi hp => absurd hi hp
    settled := fun i => ?_
    once := List.nodup_nil
    members := .refl _
    failures := rfl
    sorted := World.enterAll_sorted .nil
    outstanding := fun distinct => ?_
    stands := ⟨rfl, rfl⟩ }
  · refine ⟨fun h => absurd h List.not_mem_nil, fun ⟨hi, ended⟩ => ?_⟩
    have hi : i ∈ List.range' ls.size plan.members.length := hi
    obtain ⟨k, -, hk⟩ := List.mem_range'.mp hi
    obtain ⟨l, hl, -⟩ := Launches.mem_ofRun.mp (hof.symm ▸ hi)
    have hnew := hl
    rw [Array.getElem?_append_right (by omega)] at hnew
    obtain ⟨spec, -, rfl⟩ := plan.mem_launches (Array.mem_of_getElem? hnew)
    rw [Launches.outcome?_of_getElem? hl] at ended
    exact absurd ended Bool.false_ne_true
  · rw [hof, Launches.map_ordinal specs] at distinct
    have perm := World.enterAll_perm (l := []) distinct fun _ _ e he => absurd he List.not_mem_nil
    rw [List.append_nil] at perm
    have keys := congrArg₂ List.zip (Launches.map_ordinal specs) (Launches.map_name specs)
    rw [List.zip_map', List.zip_map'] at keys
    rw [keys]
    exact perm

namespace Core

/-- The books of all runs are kept. -/
def Booked (ls : Array Launch) (rs : Array Run) : Prop :=
  ∀ (r : Nat) (run : Run), rs[r]? = some run → ∃ taken left, Ledger ls r run taken left

namespace Booked

variable {ls ls' : Array Launch} {rs : Array Run}

theorem empty : Booked #[] #[] := fun r run hr => by simp at hr

/-- The launches of all runs show the same. -/
theorem alike (h : Booked ls rs)
    (same : ∀ (r : Nat) (run : Run), rs[r]? = some run → Launches.ofRun ls' r = Launches.ofRun ls r ∧
      ∀ i ∈ Launches.ofRun ls r, Launches.Alike ls ls' i) : Booked ls' rs := by
  intro r run hr
  obtain ⟨taken, left, ledger⟩ := h r run hr
  obtain ⟨of, alike⟩ := same r run hr
  exact ⟨taken, left, ledger.alike of alike⟩

/-- A launch goes on that has not ended, and does not end now. -/
theorem setPhase (h : Booked ls rs) {i : Nat} {l : Launch} (hl : ls[i]? = some l)
    (unsettled : ∀ o, l.phase ≠ .settled o) {p : Launch.Phase} (later : ∀ o, p ≠ .settled o) :
    Booked (ls.setIfInBounds i { l with phase := p }) rs := by
  have now : l.outcome? = none := Launch.outcome?_eq_none unsettled
  have next : Launch.outcome? { l with phase := p } = none := Launch.outcome?_eq_none later
  refine h.alike fun r _ _ => ⟨Launches.ofRun_set hl ?_ r, fun j _ => Launches.alike_set hl ?_ ?_ j⟩
  · rfl
  · rfl
  · exact next.trans now.symm

/-- The books of one run are written on. -/
theorem setRun (h : Booked ls rs) {r : Nat} {run run' : Run} (hr : rs[r]? = some run)
    (write : ∀ taken left, Ledger ls r run taken left → ∃ taken left, Ledger ls r run' taken left) :
    Booked ls (rs.setIfInBounds r run') := by
  intro r' x hx
  rw [getElem?_replace hr] at hx
  split at hx
  · rename_i same
    cases hx
    rw [same]
    obtain ⟨taken, left, ledger⟩ := h r run hr
    exact write taken left ledger
  · exact h r' x hx

/-- A launch ends. -/
theorem settle (h : Booked ls rs) {i r : Nat} {l : Launch} {run : Run} {o : Launch.Outcome}
    (hl : ls[i]? = some l) (unsettled : ∀ o, l.phase ≠ .settled o) (hr : l.run? = some r)
    (hrun : rs[r]? = some run) (permits : Nat) (line : List Nat) :
    Booked (ls.setIfInBounds i { l with phase := .settled o })
      (rs.setIfInBounds r { run with permits, line, settled := run.settled ++ [i] }) := by
  have now : l.outcome? = none := Launch.outcome?_eq_none unsettled
  intro r' x hx
  rw [getElem?_replace hrun] at hx
  split at hx
  · rename_i same
    cases hx
    rw [same]
    obtain ⟨taken, left, ledger⟩ := h r run hrun
    exact ⟨taken, left, ledger.settle hl hr now (by rfl) (by rfl) (by rfl) permits line⟩
  · rename_i other
    obtain ⟨taken, left, ledger⟩ := h r' x hx
    refine ⟨taken, left, ledger.alike (Launches.ofRun_set hl (by rfl) r') fun j hj => ?_⟩
    -- the launch that ends belongs to another run
    refine Launches.alike_of_getElem?_eq (getElem?_replace_of_ne hl ?_ _)
    rintro rfl
    obtain ⟨y, hy, hr'⟩ := Launches.mem_ofRun.mp hj
    rw [hl] at hy
    cases hy
    rw [hr] at hr'
    exact other (Option.some.inj hr').symm

/-- A launch ends that belongs to no run. -/
theorem settleAlone (h : Booked ls rs) {i : Nat} {l : Launch} {o : Launch.Outcome}
    (hl : ls[i]? = some l) (hr : l.run? = none) :
    Booked (ls.setIfInBounds i { l with phase := .settled o }) rs := by
  refine h.alike fun r _ _ => ⟨Launches.ofRun_set hl (by rfl) r, fun j hj => ?_⟩
  refine Launches.alike_of_getElem?_eq (getElem?_replace_of_ne hl ?_ _)
  rintro rfl
  obtain ⟨y, hy, hr'⟩ := Launches.mem_ofRun.mp hj
  rw [hl] at hy
  cases hy
  rw [hr] at hr'
  cases hr'

/-- Launches are added that belong to none of the runs. -/
theorem appendLaunches (h : Booked ls rs) (new : Array Launch)
    (away : ∀ (r : Nat) (run : Run), rs[r]? = some run → ∀ l ∈ new, l.run? ≠ some r) :
    Booked (ls ++ new) rs := by
  refine h.alike fun r run hr => ⟨?_, fun i hi => ?_⟩
  · rw [Launches.ofRun_append, Launches.ofRun_eq_nil (away r run hr), List.map_nil, List.append_nil]
  · obtain ⟨l, hl, -⟩ := Launches.mem_ofRun.mp hi
    exact Launches.alike_of_getElem?_eq (Array.getElem?_append_left (lt_of_getElem?_eq_some hl))

/-- A run begins. -/
theorem begin (h : Booked ls rs) (lined : Lined ls rs) (plan : Plan) (platform : Nat)
    (observers : List Observer) (id : Uuid) (channel? : Option Nat) (now : Nat) (cancelled : Bool) :
    Booked (ls ++ (plan.launches platform rs.size observers).toArray)
      (rs.push (plan.run id channel? now cancelled (List.range' ls.size plan.members.length))) := by
  have old := h.appendLaunches (plan.launches platform rs.size observers).toArray
    fun r run hr l hl same => by
      obtain ⟨spec, -, rfl⟩ := plan.mem_launches hl
      cases same
      exact Nat.lt_irrefl _ (lt_of_getElem?_eq_some hr)
  intro r x hx
  rw [Array.getElem?_push] at hx
  split at hx
  · rename_i last
    cases hx
    have fresh : Launches.ofRun ls rs.size = [] := Launches.ofRun_eq_nil fun l hl hr => by
      obtain ⟨i, hi, rfl⟩ := Array.mem_iff_getElem.mp hl
      obtain ⟨run, hrun⟩ := lined.manned (Array.getElem?_eq_getElem hi) hr
      exact Nat.lt_irrefl _ (lt_of_getElem?_eq_some hrun)
    rw [last]
    exact ⟨_, _, .begin plan fresh platform observers id channel? now cancelled⟩
  · exact old r x hx

end Booked

variable {c c' : Core}

theorem LaunchMove.booked {i : Nat} (move : c.LaunchMove i c') (h : Booked c.launches c.runs) :
    Booked c'.launches c'.runs := by
  have same : ∀ {r : Nat} {run : Run} {permits : Nat} {line : List Nat}, c.runs[r]? = some run →
      Booked c.launches (c.runs.setIfInBounds r { run with permits, line }) := by
    intro r run permits line hrun
    exact h.setRun hrun fun taken left ledger => ⟨taken, left, { ledger with }⟩
  cases move with
  | wait hl hp hr hrun => exact (same hrun).setPhase hl (by simp [hp]) (by simp)
  | pass hl hp hr hrun free due => exact (same hrun).setPhase hl (by simp [hp]) (by simp)
  | ask hl hp due =>
    refine h.setPhase hl ?_ (by simp)
    rcases hp with hp | ⟨hp, -⟩ <;> simp [hp]
  | handOut hl hp id process since => exact h.setPhase hl (by simp [hp]) (by simp)
  | tell hl hp same fewer => exact h.setPhase hl (by simp [hp]) (by simp)
  | settle hl ends hr => exact h.settleAlone hl hr
  | settleLast hl ends hr hrun empty => exact h.settle hl ends.unsettled hr hrun _ _
  | settleNext hl ends hr hrun first other hn waits =>
    have hn' := fun l => (getElem?_replace_of_ne hl other l).trans hn
    exact (h.settle hl ends.unsettled hr hrun _ _).setPhase (hn' _) (by simp [waits]) (by simp)

theorem RunMove.booked {r : Nat} (move : c.RunMove r c') (h : Booked c.launches c.runs) :
    Booked c'.launches c'.runs := by
  have length : ∀ ms : List Nat, (c.callPlaces ms).length = ms.length := fun ms => List.length_range'
  cases move with
  | take hr hp waits goes hs hi =>
    exact h.setRun hr fun taken left ledger => ⟨_, _, ledger.take hp hs⟩
  | giveUp hr hp waits why =>
    refine h.setRun hr fun taken left ledger => ⟨taken, left, ledger.rollBack (by simp) ?_ (length _)⟩
    rcases why with ⟨-, rfl⟩ | ⟨-, rfl⟩
    · trivial
    · rfl
  | refuse hr hp all failed =>
    refine h.setRun hr fun taken left ledger => ?_
    have empty : left = [] := (ledger.stands.launching hp).1.symm.trans all
    exact ⟨taken, left, ledger.rollBack (fun _ => empty) ⟨rfl, empty⟩ (length _)⟩
  | gather hr hp all fine some deadline =>
    refine h.setRun hr fun taken left ledger => ?_
    obtain ⟨pending, reaper⟩ := ledger.stands.launching hp
    exact ⟨taken, left, ledger.gather (List.mergeSort_perm _ _) deadline
      ⟨pending.symm.trans all, fine, reaper⟩⟩
  | succeedEmpty hr hp all fine none deadline =>
    refine h.setRun hr fun taken left ledger => ?_
    obtain ⟨pending, reaper⟩ := ledger.stands.launching hp
    exact ⟨taken, left, ledger.gather (.refl _) deadline ⟨pending.symm.trans all, fine, reaper⟩⟩
  | dismiss hr hp gone =>
    refine h.setRun hr fun taken left ledger => ?_
    have stands := ledger.stands.asking (.inl hp)
    exact ⟨taken, left, ledger.rollBack (fun _ => stands.1) trivial (length _)⟩
  | succeed hr hp goes =>
    refine h.setRun hr fun taken left ledger => ?_
    exact ⟨taken, left, { ledger with stands := ledger.stands.asking (.inl hp) }⟩
  | degrade hr hp goes seen =>
    refine h.setRun hr fun taken left ledger => ?_
    have stands := ledger.stands.asking (.inl hp)
    exact ⟨taken, left, ledger.rollBack (fun _ => stands.1) trivial (length _)⟩
  | rest hr hp goes due =>
    refine h.setRun hr fun taken left ledger => ?_
    exact ⟨taken, left, { ledger with stands := ledger.stands.asking (.inl hp) }⟩
  | wake hr hp =>
    refine h.setRun hr fun taken left ledger => ?_
    exact ⟨taken, left, { ledger with stands := ledger.stands.asking (.inr ⟨_, hp⟩) }⟩
  | fail hr hp ho =>
    refine h.setRun hr fun taken left ledger => ?_
    obtain ⟨reaper, tells, length⟩ := ledger.stands.rollingBack hp
    refine ⟨taken, left, { ledger with stands := ⟨reaper, _, _, rfl, tells, ?_⟩ }⟩
    exact ((Teardown.closed_ofOutcomes _).trans (outcomes?_eq_some ho).1).trans length

theorem ReaperMove.booked {r : Nat} (move : c.ReaperMove r c') (h : Booked c.launches c.runs) :
    Booked c'.launches c'.runs := by
  cases move with
  | done hr hp hk ho =>
    refine h.setRun hr fun taken left ledger => ⟨taken, left, { ledger with stands := ?_ }⟩
    exact ledger.stands.reap (by rw [hp]; rfl) _ _ {}
  | drop hr hp hs hm =>
    refine h.setRun hr fun taken left ledger => ⟨taken, left, ?_⟩
    have hand := ledger.hand hs (by rw [hp]; rfl) {}
    rw [← hp] at hand
    exact hand
  | close hr hp hs hm =>
    refine h.setRun hr fun taken left ledger => ⟨taken, left, ?_⟩
    exact ledger.hand hs (by rw [hp]; rfl) _

theorem OutsideMove.booked {closes : Nat → Prop} (move : c.OutsideMove closes c') (lined : Lined c.launches c.runs)
    (h : Booked c.launches c.runs) : Booked c'.launches c'.runs := by
  cases move with
  | cancel hr => exact h.setRun hr fun taken left ledger => ⟨taken, left, { ledger with }⟩
  | begin plan platform channel? id now cancelled =>
    exact h.begin lined plan platform _ id channel? now cancelled
  | launch spec platform observers =>
    refine h.appendLaunches #[_] fun r run hr l hl same => ?_
    rw [Array.mem_singleton.mp hl] at same
    cases same
  | close held => exact h
  | dissolve known => exact h

/-- **The books.** Every move keeps the books of all runs. -/
theorem Booked.move (h : Booked c.launches c.runs) (lined : Lined c.launches c.runs) (move : c.Move c') :
    Booked c'.launches c'.runs := by
  cases move with
  | stay => exact h
  | launch i move => exact move.booked h
  | closing j move => cases move <;> exact h
  | run r move => exact move.booked h
  | reaper r move => exact move.booked h
  | dissolution d move => cases move <;> exact h
  | outside move => exact move.booked lined h

end Core

end Muster
