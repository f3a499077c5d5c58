import Mathlib.Data.List.Forall2
import Muster.Proofs.World.Paths

/-!
# Nothing is lost, and nothing counted twice

* `World.tally`: the places in the assembly of the members that a run has, of those whose launches failed,
  and of those that are outstanding.
* `Ledger.taken_perm`, `Ledger.tally_perm`: what a run took note of are members and failures, and all of it
  together are its launches.
* `Ledger.fallen`, `Ledger.listed`, `Ledger.names`: the failures are those of the fallen launches, and the
  names that are outstanding those of the launches that the run never took note of.
* **`World.Steps.nothing_lost`**: at every time the tally of a run are the places of its plan, each of them
  once; so a launch error counts every member once, and a timeout names just those that were outstanding.
-/

namespace Muster

/-- A launch has ended, and no member came of it. -/
def Launch.Fell (l : Launch) : Prop :=
  (∃ f, l.phase = .settled (.failed f)) ∨ ∃ message, l.phase = .settled (.died message)

namespace World

variable (w : World) (run : Run)

/-- The places in the assembly of the members that a run has, of those whose launches failed, and of those
that are outstanding. -/
def tally : List Nat :=
  run.members.map w.ordinalOf ++ run.failures.map (·.ordinal) ++ run.outstanding.map (·.1)

/-- Those are outstanding whose launches are pending. -/
def AwaitsPending : Prop :=
  (run.outstanding.map (·.1)).Perm (run.pending.map (Launches.ordinal w.launches))

/-- There is one failure for each fallen launch of a run, with the name and the place of its own. -/
def BlamesFallen (r : Nat) (failures : List LaunchFailure) : Prop :=
  ∃ fallen : List Nat, fallen.Nodup ∧
    (∀ i, i ∈ fallen ↔ ∃ l, w.launches[i]? = some l ∧ l.run? = some r ∧ l.Fell) ∧
    List.Forall₂ (fun f i => f.member = Launches.name w.launches i ∧
      f.ordinal = Launches.ordinal w.launches i) failures fallen

/-- The names are those of the members of a plan of which a run has taken no note, in the order of their
places. -/
def NamesUnknown (plan : Plan) (names : List String) : Prop :=
  ∃ specs : List MemberSpec, specs.Pairwise (·.ordinal < ·.ordinal) ∧
    (∀ s, s ∈ specs ↔ s ∈ plan.members ∧ s.ordinal ∉ run.members.map w.ordinalOf ∧
      s.ordinal ∉ run.failures.map (·.ordinal)) ∧
    names = specs.map (·.name)

end World

namespace Launches

variable {ls : Array Launch} {i : Nat}

/-- Of a launch that has ended came a member, or else there is a failure. -/
theorem ended_cases (ended : (outcome? ls i).isSome) :
    (∃ m, memberOf? ls i = some m ∧ failureOf? ls i = none) ∨
      ∃ f, memberOf? ls i = none ∧ failureOf? ls i = some f := by
  unfold memberOf? failureOf?
  cases ho : outcome? ls i with
  | none => simp [ho] at ended
  | some o =>
    cases o with
    | realized m failures => exact .inl ⟨m, rfl, rfl⟩
    | failed f => exact .inr ⟨f, rfl, rfl⟩
    | died message => exact .inr ⟨_, rfl, rfl⟩

/-- There is a failure just when the launch fell. -/
theorem failureOf?_isSome {l : Launch} (hl : ls[i]? = some l) :
    (failureOf? ls i).isSome ↔ l.Fell := by
  unfold failureOf? Launch.Fell
  rw [outcome?_of_getElem? hl]
  unfold Launch.outcome?
  cases hp : l.phase with
  | settled o => cases o <;> simp
  | _ => simp

end Launches

namespace Core.Born

variable {ms : Array Member} {ls : Array Launch} {i : Nat}

/-- A member stands where its launch was to put it. -/
theorem ordinal_of_memberOf? (h : Born ms ls) {m : Nat} (hm : Launches.memberOf? ls i = some m) :
    Members.ordinal ms m = Launches.ordinal ls i := by
  obtain ⟨l, x, failures, hl, -, hx, -, spec⟩ := h.of_memberOf? hm
  unfold Members.ordinal
  rw [hx, Launches.ordinal_of_getElem? hl, Option.map_some, Option.getD_some, spec]

/-- A failure says whose launch failed. -/
theorem of_failureOf? (h : Born ms ls) {f : LaunchFailure} (hf : Launches.failureOf? ls i = some f) :
    f.ordinal = Launches.ordinal ls i ∧ f.member = Launches.name ls i := by
  unfold Launches.failureOf? at hf
  split at hf
  · rename_i g ho
    cases hf
    obtain ⟨l, hl, hlo⟩ := Option.bind_eq_some_iff.mp ho
    rw [Launches.ordinal_of_getElem? hl, Launches.name_of_getElem? hl]
    exact (h.failure hl (Launch.outcome?_eq_some.mp hlo)).symm
  · cases hf
    exact ⟨rfl, rfl⟩
  · cases hf

end Core.Born

namespace Ledger

variable {ms : Array Member} {ls : Array Launch} {r : Nat} {run : Run} {taken left : List Nat}

/-- What a run took note of are members and failures, each of them in the place of its launch. -/
theorem taken_perm (born : Core.Born ms ls) (ended : ∀ i ∈ taken, (Launches.outcome? ls i).isSome) :
    ((taken.filterMap (Launches.memberOf? ls)).map (Members.ordinal ms) ++
      (taken.filterMap (Launches.failureOf? ls)).map (·.ordinal)).Perm
        (taken.map (Launches.ordinal ls)) := by
  induction taken with
  | nil => exact .refl _
  | cons i taken ih =>
    have ih := ih fun j hj => ended j (List.mem_cons_of_mem i hj)
    rw [List.map_cons]
    rcases Launches.ended_cases (ended i List.mem_cons_self) with ⟨m, hm, hf⟩ | ⟨f, hm, hf⟩
    · rw [List.filterMap_cons_some hm, List.filterMap_cons_none hf, List.map_cons, List.cons_append,
        born.ordinal_of_memberOf? hm]
      exact ih.cons _
    · rw [List.filterMap_cons_none hm, List.filterMap_cons_some hf, List.map_cons,
        (born.of_failureOf? hf).1]
      exact List.perm_middle.trans (ih.cons _)

/-- Members and failures together are what the run took note of. -/
theorem known_perm (h : Ledger ls r run taken left) (born : Core.Born ms ls) :
    (run.members.map (Members.ordinal ms) ++ run.failures.map (·.ordinal)).Perm
      (taken.map (Launches.ordinal ls)) := by
  rw [h.failures]
  exact ((h.members.map _).append_right _).trans (taken_perm born h.ended)

/-- Who is outstanding are those whose launches are left. -/
theorem outstanding_perm (h : Ledger ls r run taken left)
    (distinct : ((Launches.ofRun ls r).map (Launches.ordinal ls)).Nodup) :
    (run.outstanding.map (·.1)).Perm (left.map (Launches.ordinal ls)) := by
  have := (h.outstanding distinct).map (·.1)
  rw [List.map_map] at this
  exact this

/-- A launch is outstanding just when it is left. -/
theorem mem_outstanding (h : Ledger ls r run taken left)
    (distinct : ((Launches.ofRun ls r).map (Launches.ordinal ls)).Nodup) {i : Nat}
    (hi : i ∈ Launches.ofRun ls r) : Launches.ordinal ls i ∈ run.outstanding.map (·.1) ↔ i ∈ left := by
  rw [(h.outstanding_perm distinct).mem_iff]
  refine ⟨fun there => ?_, fun there => List.mem_map_of_mem there⟩
  obtain ⟨j, hj, same⟩ := List.mem_map.mp there
  exact List.inj_on_of_nodup_map distinct (h.mem_ofRun (.inr hj)) hi same ▸ hj

/-- Members, failures and who is outstanding together are the launches of the run. -/
theorem tally_perm (h : Ledger ls r run taken left) (born : Core.Born ms ls)
    (distinct : ((Launches.ofRun ls r).map (Launches.ordinal ls)).Nodup) :
    (run.members.map (Members.ordinal ms) ++ run.failures.map (·.ordinal) ++
      run.outstanding.map (·.1)).Perm ((Launches.ofRun ls r).map (Launches.ordinal ls)) := by
  refine ((h.known_perm born).append (h.outstanding_perm distinct)).trans ?_
  rw [← List.map_append]
  exact h.all.map _

/-- When nothing is left, members and failures are as many as there are launches. -/
theorem length_add_length (h : Ledger ls r run taken []) (born : Core.Born ms ls) :
    run.failures.length + run.members.length = (Launches.ofRun ls r).length := by
  have known := (h.known_perm born).length_eq
  rw [List.length_append, List.length_map, List.length_map, List.length_map,
    h.taken_perm_ofRun.length_eq] at known
  omega

/-- While members are launched, those are outstanding whose launches are pending. -/
theorem outstanding_pending (h : Ledger ls r run taken left)
    (distinct : ((Launches.ofRun ls r).map (Launches.ordinal ls)).Nodup) (hp : run.phase = .launching) :
    (run.outstanding.map (·.1)).Perm (run.pending.map (Launches.ordinal ls)) := by
  rw [(h.stands.launching hp).1]
  exact h.outstanding_perm distinct

/-- The failures of a run that left nothing out are those of its fallen launches, each with the name and
the place of its own. -/
theorem fallen (h : Ledger ls r run taken []) (born : Core.Born ms ls) :
    ∃ fallen : List Nat, fallen.Nodup ∧
      (∀ i, i ∈ fallen ↔ ∃ l, ls[i]? = some l ∧ l.run? = some r ∧ l.Fell) ∧
      List.Forall₂ (fun f i => f.member = Launches.name ls i ∧ f.ordinal = Launches.ordinal ls i)
        run.failures fallen := by
  refine ⟨taken.filter fun i => (Launches.failureOf? ls i).isSome, ?_, fun i => ?_, ?_⟩
  · exact (List.nodup_append.mp h.nodup).1.filter _
  · rw [List.mem_filter, h.taken_perm_ofRun.mem_iff, Launches.mem_ofRun]
    constructor
    · rintro ⟨⟨l, hl, hr⟩, fell⟩
      exact ⟨l, hl, hr, (Launches.failureOf?_isSome hl).mp fell⟩
    · rintro ⟨l, hl, hr, fell⟩
      exact ⟨⟨l, hl, hr⟩, (Launches.failureOf?_isSome hl).mpr fell⟩
  · rw [h.failures]
    generalize taken = l
    induction l with
    | nil => exact .nil
    | cons i l ih =>
      cases hf : Launches.failureOf? ls i with
      | none =>
        rw [List.filterMap_cons_none hf, List.filter_cons_of_neg (by rw [hf]; exact Bool.false_ne_true)]
        exact ih
      | some f =>
        rw [List.filterMap_cons_some hf, List.filter_cons_of_pos (by rw [hf]; rfl)]
        exact .cons (born.of_failureOf? hf).symm ih

/-- Those are outstanding, in the order of their places, whose launches are left. -/
theorem listed (h : Ledger ls r run taken left)
    (distinct : ((Launches.ofRun ls r).map (Launches.ordinal ls)).Nodup) :
    ∃ out : List MemberSpec, out.Pairwise (·.ordinal < ·.ordinal) ∧
      (∀ s, s ∈ out ↔ ∃ i ∈ left, Launches.spec? ls i = some s) ∧
      run.outstanding.map (·.2) = out.map (·.name) := by
  obtain ⟨kept, hkept⟩ : ∃ kept : List MemberSpec, left.map (Launches.spec? ls) = kept.map some := by
    exact Launches.exists_specs fun i hi => Launches.lt_of_mem_ofRun (h.mem_ofRun (.inr hi))
  have entries : left.map (fun i => (Launches.ordinal ls i, Launches.name ls i)) =
      kept.map fun s => (s.ordinal, s.name) := by
    rw [← List.zip_map', ← List.zip_map', Launches.map_ordinal hkept, Launches.map_name hkept]
  have perm := h.outstanding distinct
  rw [entries] at perm
  obtain ⟨out, hout, same⟩ := (congrFun (congrFun (List.eq_map_comp_perm _) _) _).mpr perm
  have hout : run.outstanding = out.map fun s => (s.ordinal, s.name) := hout
  refine ⟨out, ?_, fun s => ?_, ?_⟩
  · have := h.sorted
    rw [hout, List.pairwise_map] at this
    exact this
  · rw [same.mem_iff, Launches.mem_specs hkept]
  · rw [hout, List.map_map]
    rfl

/-- Those are outstanding, in the order of their places, who are neither members nor failures. -/
theorem names (h : Ledger ls r run taken left) (born : Core.Born ms ls) {specs : List MemberSpec}
    (hof : (Launches.ofRun ls r).map (Launches.spec? ls) = specs.map some)
    (distinct : (specs.map (·.ordinal)).Nodup) :
    ∃ out : List MemberSpec, out.Pairwise (·.ordinal < ·.ordinal) ∧
      (∀ s, s ∈ out ↔ s ∈ specs ∧ s.ordinal ∉ run.members.map (Members.ordinal ms) ∧
        s.ordinal ∉ run.failures.map (·.ordinal)) ∧
      run.outstanding.map (·.2) = out.map (·.name) := by
  rw [← Launches.map_ordinal hof] at distinct
  obtain ⟨out, sorted, those, names⟩ := h.listed distinct
  refine ⟨out, sorted, fun s => ?_, names⟩
  have known := (h.known_perm born).mem_iff (a := s.ordinal)
  rw [List.mem_append] at known
  rw [← not_or, known, those, Launches.mem_specs hof]
  constructor
  · rintro ⟨i, hi, hs⟩
    refine ⟨⟨i, h.mem_ofRun (.inr hi), hs⟩, fun ht => ?_⟩
    obtain ⟨j, hj, hji⟩ := List.mem_map.mp ht
    rw [← Launches.ordinal_of_spec? hs] at hji
    have apart := List.inj_on_of_nodup_map distinct (h.mem_ofRun (.inl hj)) (h.mem_ofRun (.inr hi)) hji
    exact h.not_left hj (apart ▸ hi)
  · rintro ⟨⟨i, hi, hs⟩, away⟩
    rcases List.mem_append.mp (h.all.mem_iff.mpr hi) with ht | hl
    · exact absurd (List.mem_map.mpr ⟨i, ht, Launches.ordinal_of_spec? hs⟩) away
    · exact ⟨i, hl, hs⟩

end Ledger

namespace Core

variable {c c' : Core} {r : Nat} {plan : Plan} {observers : List Observer} {run run' : Run}

/-- The launches of a run launch into different places when its plan wants them so. -/
theorem Builds.distinct (h : c.Builds r plan observers) (distinct : (plan.members.map (·.ordinal)).Nodup) :
    ((Launches.ofRun c.launches r).map (Launches.ordinal c.launches)).Nodup := by
  rw [Launches.map_ordinal h.specs]
  exact distinct

/-- Whatever a run does next while members are launched, those stay outstanding whose launches are
pending. -/
theorem Sound.outstanding_pending (h : c.Sound) (builds : c.Builds r plan observers)
    (distinct : (plan.members.map (·.ordinal)).Nodup) (hr : c.runs[r]? = some run)
    (hp : run.phase = .launching) (move : c.Move c') (hr' : c'.runs[r]? = some run') :
    (run'.outstanding.map (·.1)).Perm (run'.pending.map (Launches.ordinal c'.launches)) := by
  obtain ⟨taken, left, ledger⟩ := h.booked r run hr
  obtain ⟨taken', left', ledger'⟩ := (h.move move).booked r run' hr'
  have goes (hp' : run'.phase = .launching) :=
    ledger'.outstanding_pending ((builds.move move).distinct distinct) hp'
  -- a run that leaves the launches alone leaves both lists alone
  have leaves (outstanding : run'.outstanding = run.outstanding) (pending : run'.pending = run.pending) :
      (run'.outstanding.map (·.1)).Perm (run'.pending.map (Launches.ordinal c'.launches)) := by
    have same : run.pending.map (Launches.ordinal c'.launches) =
        run.pending.map (Launches.ordinal c.launches) := by
      refine List.map_congr_left fun i hi => ?_
      obtain ⟨l, hl, -⟩ := Launches.mem_ofRun.mp (ledger.mem_ofRun (.inr (ledger.pending.subset hi)))
      obtain ⟨l', hl', kept⟩ := move.keeps.launches hl
      rw [Launches.ordinal_of_getElem? hl', Launches.ordinal_of_getElem? hl, kept.spec]
    rw [outstanding, pending, same]
    exact ledger.outstanding_pending (builds.distinct distinct) hp
  rcases move.run_cases hr hr' with same | move | move
  · exact goes (same.phase.trans hp)
  · cases move with
    | take hs hq =>
      refine goes ?_
      cases (getElem?_replace_self hs _).symm.trans hr'
      exact hq
    | giveUp hs | refuse hs | gather hs | succeedEmpty hs =>
      obtain ⟨rfl, rfl⟩ := eq_of_replaced hr hs hr'
      exact leaves rfl rfl
    | dismiss hs hq | succeed hs hq | degrade hs hq | rest hs hq | wake hs hq | fail hs hq =>
      cases hr.symm.trans hs
      cases hp.symm.trans hq
  · have reaper := (ledger.stands.launching hp).2
    cases move with
    | done hs hq | drop hs hq | close hs hq =>
      cases hr.symm.trans hs
      cases reaper.symm.trans hq

end Core

namespace World

variable {w₀ w : World} {plan : Plan} {platform : Nat} {channel? : Option Nat} {cancelled : Bool}

/-- **Nothing lost, nothing counted twice.** At every time the members of a run, its failures and those
outstanding are the members of its plan, each of them once. While members are launched, and when the run
is done with that, those are outstanding whose launches are pending. When launches failed, failures and
closed members are as many as the plan lists, with one failure for each launch that fell; when the time
was up, the error names just those of which the run had taken no note. -/
theorem Steps.nothing_lost (h₀ : Reachable w₀) (h : Steps (w₀.begin plan platform channel? cancelled).2 w)
    (distinct : (plan.members.map (·.ordinal)).Nodup) {run : Run}
    (hr : w.runs[(w₀.begin plan platform channel? cancelled).1]? = some run) :
    (w.tally run).Perm (plan.members.map (·.ordinal)) ∧ (w.tally run).Nodup ∧
    (run.phase = .launching → w.AwaitsPending run ∧ ∀ w' run', Step w w' →
      w'.runs[(w₀.begin plan platform channel? cancelled).1]? = some run' → w'.AwaitsPending run') ∧
    (∀ failures t, run.phase = .finished (.error (.launch failures t)) →
      failures.length + t.closed = plan.members.length ∧
      w.BlamesFallen (w₀.begin plan platform channel? cancelled).1 failures) ∧
    ∀ timeout names t, run.phase = .finished (.error (.launchTimeout timeout names t)) →
      w.NamesUnknown run plan names := by
  obtain ⟨sound, builds⟩ := h.builds h₀
  obtain ⟨taken, left, ledger⟩ := sound.booked _ run hr
  have apart := builds.distinct distinct
  have perm : (w.tally run).Perm (plan.members.map (·.ordinal)) := by
    rw [← Launches.map_ordinal builds.specs]
    exact ledger.tally_perm sound.born apart
  refine ⟨perm, perm.nodup_iff.mpr distinct, fun hp => ⟨?_, fun w' run' step hr' => ?_⟩,
    fun failures t hp => ?_, fun timeout names t hp => ?_⟩
  · exact ledger.outstanding_pending apart hp
  · exact sound.outstanding_pending builds distinct hr hp (step.move sound) hr'
  · obtain ⟨-, cause, t', he, tells, closed⟩ := ledger.stands.failed hp
    cases cause with
    | launch fs =>
      cases he
      obtain ⟨rfl, rfl⟩ := tells
      refine ⟨?_, ledger.fallen sound.born⟩
      have all := congrArg List.length builds.specs
      rw [List.length_map, List.length_map] at all
      rw [closed, ledger.length_add_length sound.born, all]
    | launchTimeout | unstable | cancelled => cases he
  · obtain ⟨-, cause, t', he, tells, -⟩ := ledger.stands.failed hp
    cases cause with
    | launchTimeout out =>
      cases he
      cases tells
      exact ledger.names sound.born builds.specs distinct
    | launch | unstable | cancelled => cases he

/-- A platform that refuses to run the second of two members. -/
def refusing : Platform := .custom {} [("worker-2", { answer := .refusal (.spawnFailed "no room") })]

/-- The second of two members was refused, and the first is closed again. -/
def refused : World :=
  (opened refusing).goes [.launch 0, .launch 0, .launch 0, .launch 1, .launch 1, .run 0, .run 0, .run 0,
    .closing 0, .closing 0, .closing 0, .closing 0, .run 0]

theorem steps_refused : Steps ((stage refusing).begin .pair 0 none false).2 refused := by
  rw [begin_pair]
  exact Steps.goes (by decide +kernel)

set_option maxRecDepth 4000 in
/-- One member failed and one was closed, and these are the two of the plan. -/
theorem nothing_lost_refused : ∃ run failures t, refused.runs[0]? = some run ∧
    run.phase = .finished (.error (.launch failures t)) ∧ failures.length + t.closed = 2 ∧
    (refused.tally run).Perm [0, 1] ∧ refused.BlamesFallen 0 failures := by
  have there : refused.runs[0]?.map (·.phase) = some (.finished (.error (.launch
      [⟨"worker-2", 1, (PlatformError.spawnFailed "no room").message⟩] { closed := 1 }))) := rfl
  obtain ⟨run, hr, failed⟩ := Option.map_eq_some_iff.mp there
  obtain ⟨perm, -, -, launch, -⟩ :=
    Steps.nothing_lost (reachable_stage _) steps_refused Plan.pair_distinct hr
  obtain ⟨count, blames⟩ := launch _ _ failed
  exact ⟨run, _, _, hr, failed, count, perm, blames⟩

end World

end Muster
