import Mathlib.Data.List.Perm.Subperm
import Muster.Proofs.Launch.Permits
import Muster.Proofs.Launch.Requests
import Muster.Proofs.Run.Failure

/-!
# What a run asks of its platform

* `World.inside`: how many launches of a run are with the platform or with observers.
* `World.submissions`: what platforms were asked for by the launches of a run, in order.
* `World.Steps.rationed`: a run goes round with the permits with which it began.
* **`World.Steps.submitted`**: at no time are there more launches inside than the plan allows; no member of the
  plan is asked for twice; and each one was asked for once all the launches have ended.
-/

namespace Muster

namespace World

/-- How many launches of a run are with the platform or with observers. -/
def inside (w : World) (r : Nat) : Nat := Launches.tally w.launches Launch.Phase.inside r

/-- What platforms were asked for by the launches of a run, in order. -/
def submissions (w : World) (r : Nat) : List MemberSpec :=
  (w.requests.filter (· ∈ Launches.ofRun w.launches r)).filterMap (Launches.spec? w.launches)

variable {w₀ w : World} {plan : Plan} {platform : Nat} {channel? : Option Nat} {cancelled : Bool} {r : Nat}

/-! ### Permits -/

/-- A run goes round with the permits with which it began. -/
theorem Steps.rationed (h₀ : Reachable w₀) (h : Steps (w₀.begin plan platform channel? cancelled).2 w) :
    w.core.Rationed (w₀.begin plan platform channel? cancelled).1
      (plan.options.parallelismOf?.getD (max plan.members.length 1)) := by
  have begun : (w₀.begin plan platform channel? cancelled).2.core.Sound :=
    Steps.sound (Relation.ReflTransGen.single (.begin plan platform channel? cancelled)) h₀.sound
  refine (h.invariant (P := fun c => c.Rationed _ _) begun ?_ ?_).2
  · rw [core_begin]
    exact .begin h₀.sound.lined plan platform channel? w₀.freshId.1 w₀.now cancelled
  · exact fun sound move rationed => rationed.move sound.lined move

/-- A launch that is inside has a permit. -/
theorem inside_le_of_rationed {total : Nat} (h : w.core.Rationed r total) : w.inside r ≤ total := by
  obtain ⟨run, -, all⟩ := h
  have admitted : w.inside r ≤ Launches.tally w.core.launches Launch.Phase.admitted r :=
    Launches.tally_mono (fun _ => Launch.Phase.admitted_of_inside) w.launches r
  omega

/-- No more launches are inside than there are members. -/
theorem inside_le_length {observers : List Observer} (builds : w.core.Builds r plan observers) :
    w.inside r ≤ plan.members.length := by
  have launches := congrArg List.length builds.specs
  rw [List.length_map, List.length_map] at launches
  exact Nat.le_trans (Launches.tally_le_length _ _ r) (Nat.le_of_eq launches)

/-! ### Requests -/

/-- What the launches of a run launch are the members of its plan. -/
theorem filterMap_spec? {ls : Array Launch} {is : List Nat} {specs : List MemberSpec}
    (h : is.map (Launches.spec? ls) = specs.map some) : is.filterMap (Launches.spec? ls) = specs := by
  have same := congrArg (List.filterMap id) h
  rw [List.filterMap_map, List.filterMap_map] at same
  exact same.trans (List.filterMap_some ..)

/-- Entries that are there once, all of them in a list, are part of it. -/
theorem subperm_filterMap {α β : Type} {is js : List α} (f : α → Option β) (h : is.Subperm js) :
    (is.filterMap f).Subperm (js.filterMap f) := by
  obtain ⟨l, perm, sub⟩ := h
  exact ⟨l.filterMap f, perm.filterMap f, sub.filterMap f⟩

/-- Platforms were asked for each launch of a run once at most. -/
theorem nodup_requests (asks : w.Asks) (r : Nat) :
    (w.requests.filter (· ∈ Launches.ofRun w.launches r)).Nodup := by
  refine List.nodup_iff_count_le_one.mpr fun i => ?_
  refine Nat.le_trans (List.filter_sublist.count_le i) ?_
  by_cases there : i ∈ w.requests
  · obtain ⟨l, hl⟩ := exists_getElem? (asks.known i there)
    rw [asks.count hl]
    exact Bool.toNat_le _
  · rw [List.count_eq_zero.mpr there]
    exact Nat.zero_le 1

theorem submissions_subperm {observers : List Observer} (asks : w.Asks)
    (builds : w.core.Builds r plan observers) : (w.submissions r).Subperm plan.members := by
  rw [← filterMap_spec? builds.specs]
  refine subperm_filterMap _ ((nodup_requests asks r).subperm fun i hi => ?_)
  exact of_decide_eq_true (List.mem_filter.mp hi).2

/-- Once all launches have ended, platforms were asked for each of them. -/
theorem submissions_perm {observers : List Observer} (asks : w.Asks)
    (builds : w.core.Builds r plan observers)
    (ended : ∀ (i : Nat) (l : Launch), w.launches[i]? = some l → l.run? = some r →
      ∃ o, l.phase = .settled o) : (w.submissions r).Perm plan.members := by
  rw [← filterMap_spec? builds.specs]
  refine List.Perm.filterMap _ ((List.perm_ext_iff_of_nodup (nodup_requests asks r)
    (Launches.nodup_ofRun w.launches r)).mpr fun i => ?_)
  rw [List.mem_filter, decide_eq_true_eq]
  refine ⟨fun both => both.2, fun own => ⟨?_, own⟩⟩
  obtain ⟨l, hl, hr⟩ := Launches.mem_ofRun.mp own
  obtain ⟨o, hp⟩ := ended i l hl hr
  have once := asks.count hl
  rw [hp] at once
  exact List.count_pos_iff.mp (once ▸ Nat.one_pos)

/-- **Submission.** At no time are more launches of a run inside than its plan allows at one time, or has
members if it sets no bound; platforms are asked for no member of the plan twice, and were asked for each
one once all launches of the run have ended, however they ended. -/
theorem Steps.submitted (h₀ : Reachable w₀)
    (h : Steps (w₀.begin plan platform channel? cancelled).2 w) :
    w.inside (w₀.begin plan platform channel? cancelled).1 ≤
      plan.options.parallelismOf?.getD plan.members.length ∧
    (w.submissions (w₀.begin plan platform channel? cancelled).1).Subperm plan.members ∧
    ((∀ (i : Nat) (l : Launch), w.launches[i]? = some l →
        l.run? = some (w₀.begin plan platform channel? cancelled).1 → ∃ o, l.phase = .settled o) →
      (w.submissions (w₀.begin plan platform channel? cancelled).1).Perm plan.members) := by
  obtain ⟨-, builds⟩ := h.builds h₀
  have asks := (h.reachable h₀).asked
  refine ⟨?_, submissions_subperm asks builds, submissions_perm asks builds⟩
  have bound := inside_le_of_rationed (h.rationed h₀)
  cases hp : plan.options.parallelismOf? with
  | none => exact inside_le_length builds
  | some n =>
    rw [hp] at bound
    exact bound

end World

/-! ### One at a time -/

/-- Options that let so many members be launched at one time. -/
def Options.bounded (n : Nat) : Options := Registry.add (∅ : Options) (OptionValue.parallelism n)

/-- A plan for two members, one after the other. -/
def Plan.turns : Plan := { Plan.pair with options := Options.bounded 1 }

theorem Options.get_bounded {t : standardOptions.Ty} (n : Nat)
    (other : OptionTy.parallelism.kind ≠ OptionTy.kind t) :
    (Registry.get (bounded n) t 0).value = (Registry.get (∅ : Options) t 0).value :=
  @Registry.get_add_of_ne standardOptions ∅ (.parallelism n : OptionValue) t other 0

theorem Options.parallelismOf?_bounded (n : Nat) : (bounded n).parallelismOf? = some n := by
  have set : (Registry.get (bounded n) Engine.parallelism 0).value = some (OptionValue.parallelism n) :=
    Registry.get_add_self (∅ : Options) (OptionValue.parallelism n : standardOptions.Value) 0
  unfold Registry.parallelismOf?
  rw [set]
  rfl

theorem Plan.run_turns (id : Uuid) (pending : List Nat) :
    Plan.turns.run id none 0 false pending =
      { Plan.pair.plainRun id 0 false pending with permits := 1 } := by
  have timeout : (Options.bounded 1).timeoutOf = defaultTimeout := by
    rw [← Options.timeoutOf_empty]
    unfold Registry.timeoutOf
    rw [Options.get_bounded 1 (by decide)]
  have pollInterval : (Options.bounded 1).pollIntervalOf = defaultPollInterval := by
    rw [← Options.pollIntervalOf_empty]
    unfold Registry.pollIntervalOf
    rw [Options.get_bounded 1 (by decide)]
  have predicate : (Options.bounded 1).predicateOf = .always defaultPredicateId := by
    rw [← Options.predicateOf_empty]
    unfold Registry.predicateOf
    rw [Options.get_bounded 1 (by decide)]
  unfold Plan.run Plan.plainRun Plan.turns
  dsimp only
  rw [timeout, pollInterval, predicate, Options.parallelismOf?_bounded]
  rfl

namespace World

/-- A platform that refuses to run the first of two members. -/
def unwilling : Platform := .custom {} [("worker-1", { answer := .refusal (.spawnFailed "no room") })]

/-- The world once two members were asked for on a platform, one after the other. -/
def queued (p : Platform) : World :=
  { opened p with runs := #[{ Plan.pair.plainRun (.random 0) 0 false [0, 1] with permits := 1 }] }

theorem begin_turns (p : Platform) : ((stage p).begin .turns 0 none false).2 = queued p := by
  rw [begin_unannounced]
  show ({ stage p with
    identities := 1
    runs := #[Plan.turns.run (.random 0) none 0 false [0, 1]]
    launches := (Plan.turns.launches 0 0 []).toArray } : World) = queued p
  rw [Plan.run_turns]
  rfl

/-- While the first member is launched the second one waits. -/
example : ((queued unwilling).goes [.launch 0, .launch 1]).inside 0 = 1 := by decide +kernel

/-- The first of two members is refused, and leaves its permit to the second. -/
def inTurn : World :=
  (queued unwilling).goes [.launch 0, .launch 1, .launch 0, .launch 1, .launch 1, .launch 1]

theorem steps_inTurn : Steps ((stage unwilling).begin .turns 0 none false).2 inTurn := by
  rw [begin_turns]
  exact Steps.goes (by decide +kernel)

/-- Both members were asked for, though the first was refused. -/
theorem submitted_inTurn : inTurn.inside 0 ≤ 1 ∧ (inTurn.submissions 0).Perm Plan.turns.members := by
  obtain ⟨bound, -, all⟩ := Steps.submitted (reachable_stage _) steps_inTurn
  have allowed : Plan.turns.options.parallelismOf? = some 1 := Options.parallelismOf?_bounded 1
  rw [allowed] at bound
  refine ⟨bound, all fun i l hl _ => ?_⟩
  have size : inTurn.launches.size = 2 := by decide +kernel
  have ended : ∀ i < 2, inTurn.readiness (.launch i) = .ended := by decide +kernel
  exact settled_of_ended hl (ended i (size ▸ lt_of_getElem?_eq_some hl))

end World

end Muster
