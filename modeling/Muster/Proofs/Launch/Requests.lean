import Muster.Proofs.World.Aloof
import Muster.Proofs.World.Reach

/-!
# Requests to platforms

* `World.requests`: the launches for which a platform was asked for a process, in order.
* `World.desk`: the launches of a world and these requests; nothing but a launch that goes on changes it
  (`World.aloof_desk`, `World.desk_advance`).
* `Asked`: a platform was asked once for each launch that has got so far, and for no other.
* **`World.Reachable.asked`**: this holds of every reachable world.
-/

namespace Muster

namespace World

/-- The launches for which a platform was asked for a process, in order. -/
def requests (w : World) : List Nat := (w.since 0).filterMap Occurrence.requested?

/-- The launches of a world, and those for which a platform was asked for a process. -/
def desk (w : World) : Array Launch × List Nat := (w.launches, w.requests)

variable {w w' : World}

theorem requests_note (w : World) (o : Occurrence) :
    (w.note o).requests = w.requests ++ o.requested?.toList := by
  unfold requests since note
  rw [Array.toList_push, List.drop_zero, List.drop_zero, List.filterMap_append]
  cases h : o.requested? <;> simp [h]

theorem desk_note_of {o : Occurrence} (h : o.requested? = none) (w : World) : (w.note o).desk = w.desk := by
  unfold desk
  rw [requests_note, h]
  exact congrArg _ (List.append_nil _)

theorem aloof_desk (desk : Array Launch × List Nat) : Aloof fun w => w.desk = desk where
  note unasked _ _ here := (desk_note_of unasked _).trans here
  announce _ _ here := (desk_note_of rfl _).trans here
  questions _ here := here
  runs _ here := here
  closings _ here := here
  assemblies _ here := here
  dissolutions _ here := here

theorem desk_stepClosing (w : World) (j : Nat) : (w.stepClosing j).desk = w.desk :=
  (aloof_desk w.desk).stepClosing (fun _ here => here) (fun _ here => here)
    (fun _ here => (desk_note_of rfl _).trans here) j rfl

/-- What closes and what builds leaves the desk alone. -/
theorem desk_advance (w : World) {t : Strand} (other : ∀ i, t ≠ .launch i) : (w.advance t).desk = w.desk := by
  cases t with
  | launch i => exact absurd rfl (other i)
  | closing j => exact desk_stepClosing w j
  | run r => exact (aloof_desk w.desk).stepRun r rfl
  | reaper r => exact (aloof_desk w.desk).stepReaper r rfl
  | dissolution d => exact (aloof_desk w.desk).stepDissolution d rfl

theorem requests_begin (w : World) (plan : Plan) (platform : Nat) (channel? : Option Nat)
    (cancelled : Bool) : (w.begin plan platform channel? cancelled).2.requests = w.requests := by
  unfold World.begin beginWith
  dsimp only
  generalize announced : World.announceRun _ _ _ = w'
  have same : w'.requests = w.requests := by
    rw [← announced]
    exact congrArg Prod.snd ((aloof_desk _).announceRun _ _ rfl)
  rw [queueLaunches_eq]
  exact same

end World

/-! ### Which launches were asked for -/

/-- A platform was asked for the process of a launch in this phase. -/
def Launch.Phase.asked : Launch.Phase → Bool
  | realizing _ | telling _ | settled _ => true
  | queued | waiting | granted => false

theorem Launch.Ends.asked {l : Launch} {o : Launch.Outcome} (ends : l.Ends o) : l.phase.asked = true := by
  cases ends with
  | refused hp | struck hp | told hp | felled hp => rw [hp]; rfl

/-- A platform was asked once for each launch that has got so far, and for no other. -/
structure Asked (ls : Array Launch) (requests : List Nat) : Prop where
  known : ∀ i ∈ requests, i < ls.size
  count : ∀ {i : Nat} {l : Launch}, ls[i]? = some l → requests.count i = l.phase.asked.toNat

namespace Asked

variable {ls : Array Launch} {requests : List Nat} {i : Nat} {l l' : Launch}

theorem empty : Asked #[] [] where
  known i hi := absurd hi List.not_mem_nil
  count hl := by simp at hl

/-- Nobody is asked when a launch goes on that has got as far as before. -/
theorem set (h : Asked ls requests) (hl : ls[i]? = some l) (same : l'.phase.asked = l.phase.asked) :
    Asked (ls.setIfInBounds i l') requests where
  known j hj := by
    rw [Array.size_setIfInBounds]
    exact h.known j hj
  count {j x} hx := by
    rw [getElem?_replace hl] at hx
    split at hx
    · rename_i here
      cases hx
      rw [here, h.count hl, same]
    · exact h.count hx

/-- A platform is asked for a launch for the first time. -/
theorem ask (h : Asked ls requests) (hl : ls[i]? = some l) (first : l.phase.asked = false)
    (now : l'.phase.asked = true) : Asked (ls.setIfInBounds i l') (requests ++ [i]) where
  known j hj := by
    rw [Array.size_setIfInBounds]
    rcases List.mem_append.mp hj with hj | hj
    · exact h.known j hj
    · rw [List.mem_singleton.mp hj]
      exact lt_of_getElem?_eq_some hl
  count {j x} hx := by
    rw [getElem?_replace hl] at hx
    rw [List.count_append, List.count_singleton]
    split at hx
    · rename_i here
      cases hx
      rw [here, h.count hl, first, now, if_pos (beq_self_eq_true i)]
      rfl
    · rename_i other
      rw [h.count hx, if_neg fun same => other (eq_of_beq same).symm, Nat.add_zero]

/-- Launches that are added were not asked for. -/
theorem append (h : Asked ls requests) (new : Array Launch) (queued : ∀ l ∈ new, l.phase.asked = false) :
    Asked (ls ++ new) requests where
  known j hj := by
    rw [Array.size_append]
    exact Nat.lt_add_right _ (h.known j hj)
  count {j x} hx := by
    rw [Array.getElem?_append] at hx
    split at hx
    · exact h.count hx
    · rename_i new
      rw [queued x (Array.mem_of_getElem? hx)]
      exact List.count_eq_zero.mpr fun hj => new (h.known j hj)

end Asked

namespace World

variable {w w' : World} {i : Nat} {l : Launch}

/-- A platform was asked once for each launch of the world that has got so far, and for no other. -/
def Asks (w : World) : Prop := Asked w.launches w.requests

theorem Asks.of_desk (h : w.Asks) (same : w'.desk = w.desk) : w'.Asks := by
  obtain ⟨launches, requests⟩ := Prod.mk.injEq .. ▸ same
  unfold Asks
  rw [launches, requests]
  exact h

theorem Asks.setLaunchPhase (h : w.Asks) (hl : w.launches[i]? = some l) {p : Launch.Phase}
    (same : p.asked = l.phase.asked) : (w.setLaunchPhase i p).Asks := by
  have set : (w.setLaunchPhase i p).launches = _ := congrArg Core.launches (core_setLaunchPhase hl p)
  unfold Asks
  rw [set]
  exact Asked.set h hl same

theorem Asks.askPlatform (h : w.Asks) (hl : w.launches[i]? = some l) (first : l.phase.asked = false)
    (x : Launch) : (w.askPlatform i x).Asks := by
  have requests : (w.askPlatform i x).requests = w.requests ++ [i] := requests_note w (.requested i)
  obtain ⟨due, core⟩ := core_askPlatform hl x
  have launches : (w.askPlatform i x).launches = _ := congrArg Core.launches core
  unfold Asks
  rw [requests, launches]
  exact Asked.ask h hl first rfl

theorem requests_settle (w : World) (i : Nat) (l : Launch) (o : Launch.Outcome) :
    (w.settle i l o).requests = w.requests := by
  unfold settle releasePermit
  dsimp only
  split
  · rfl
  · split <;> rfl

/-- A launch that ends has ended, and the first in line for its permit, which waited, may go on. -/
theorem launches_settle (lined : Core.Lined w.launches w.runs) {o : Launch.Outcome}
    (hl : w.launches[i]? = some l) (ends : l.Ends o) :
    (w.settle i l o).launches = w.launches.setIfInBounds i { l with phase := .settled o } ∨
      ∃ n next, (w.launches.setIfInBounds i { l with phase := .settled o })[n]? = some next ∧
        next.phase = .waiting ∧ (w.settle i l o).launches =
          (w.launches.setIfInBounds i { l with phase := .settled o }).setIfInBounds n
            { next with phase := .granted } := by
  rcases Option.eq_none_or_eq_some l.run? with hr | ⟨r, hr⟩
  · have alone : w.settle i l o = w.setLaunchPhase i (.settled o) := by
      unfold World.settle
      simp only [hr]
    exact .inl (congrArg Core.launches ((congrArg core alone).trans (core_setLaunchPhase hl _)))
  · obtain ⟨run, hrun⟩ := lined.manned hl hr
    cases hline : run.line with
    | nil => exact .inl (congrArg Core.launches (core_settle_last hl hr hrun hline))
    | cons n line =>
      obtain ⟨next, hn, waits, -⟩ := lined.waits hrun (hline ▸ List.mem_cons_self)
      have other : n ≠ i := by
        intro same
        rw [same, hl] at hn
        cases hn
        exact ends.not_waiting waits
      exact .inr ⟨n, next, (getElem?_replace_of_ne hl other _).trans hn, waits,
        congrArg Core.launches (core_settle_next hl hr hrun hline other hn)⟩

/-- Nobody is asked when a launch ends: the one that gets its permit has to go on first. -/
theorem Asks.settle (h : w.Asks) (lined : Core.Lined w.launches w.runs) {o : Launch.Outcome}
    (hl : w.launches[i]? = some l) (ends : l.Ends o) : (w.settle i l o).Asks := by
  have ended : Asked (w.launches.setIfInBounds i { l with phase := .settled o }) w.requests :=
    Asked.set h hl ends.asked.symm
  unfold Asks
  rw [requests_settle]
  rcases launches_settle lined hl ends with launches | ⟨n, next, hn, waits, launches⟩
  · rw [launches]
    exact ended
  · rw [launches]
    exact ended.set hn (by rw [waits]; rfl)

theorem Asks.takeAnswer (h : w.Asks) (lined : Core.Lined w.launches w.runs)
    (hl : w.launches[i]? = some l) {due : Nat} (hp : l.phase = .realizing due) :
    (w.takeAnswer i l).Asks := by
  unfold World.takeAnswer
  split
  · exact h.settle lined hl (.struck hp _)
  · rename_i p _
    dsimp only
    split
    · exact Asks.settle (w := w.modifyAccounts _ _) h lined hl (.refused hp _)
    · exact Asks.settle (w := w.modifyAccounts _ _) h lined hl (.struck hp _)
    · rename_i given _
      exact Asks.setLaunchPhase (w := ((w.modifyAccounts _ _).addMember i l p _ given).2.modifyAccounts
        l.platform (·.handOut l.spec.name)) h hl (by rw [hp]; rfl)

theorem Asks.tellLaunch (h : w.Asks) (lined : Core.Lined w.launches w.runs) {round : Round}
    (hl : w.launches[i]? = some l) (hp : l.phase = .telling round) (left : round.left ≠ []) :
    (match w.tell round with
      | (w, .on round) => w.setLaunchPhase i (.telling round)
      | (w, .dead message) => w.settle i l (.died message)).Asks := by
  obtain ⟨o, rest, left⟩ := List.exists_cons_of_ne_nil left
  cases hx : w.members[round.member]? with
  | none =>
    rw [tell_nobody w hx]
    exact h.setLaunchPhase hl (by rw [hp]; rfl)
  | some x =>
    have core := core_tell w round
    have desk := (aloof_desk w.desk).tell round rfl
    obtain ⟨beats, -, goes⟩ := tell_goes w left hx
    generalize w.tell round = told at core desk goes ⊢
    obtain ⟨w', told⟩ := told
    have hl' : w'.launches[i]? = some l := (congrArg (·.launches[i]?) core).trans hl
    have lined' : Core.Lined w'.core.launches w'.core.runs := by rw [core]; exact lined
    have leads := goes.leadsTo left
    cases told with
    | on round' => exact (h.of_desk desk).setLaunchPhase hl' (by rw [hp]; rfl)
    | dead message =>
      exact (h.of_desk desk).settle lined' hl' (.felled hp (left ▸ List.mem_cons_self) leads message)

/-- **One step of a launch.** A launch asks the platform when it gets a permit, and never again. -/
theorem Asks.stepLaunch (h : w.Asks) (lined : Core.Lined w.launches w.runs) (i : Nat) :
    (w.stepLaunch i).Asks := by
  unfold World.stepLaunch
  split
  · exact h
  rename_i l hl
  split
  · rename_i queued
    split
    · exact h.askPlatform hl (by rw [queued]; rfl) l
    · split
      · exact Asks.askPlatform (w := w.modifyRun _ _) h hl (by rw [queued]; rfl) l
      · exact Asks.setLaunchPhase (w := w.modifyRun _ _) h hl (by rw [queued]; rfl)
  · rename_i granted
    exact h.askPlatform hl (by rw [granted]; rfl) l
  · rename_i due hp
    exact h.takeAnswer lined hl hp
  · rename_i round hp
    split
    · rename_i done
      exact h.settle lined hl (.told hp (List.isEmpty_iff.mp done))
    · rename_i left
      have left : round.left ≠ [] := fun none => left (List.isEmpty_iff.mpr none)
      exact h.tellLaunch lined hl hp left
  · exact h
  · exact h

/-- Nobody is asked when a run begins. -/
theorem Asks.begin (h : w.Asks) (plan : Plan) (platform : Nat) (channel? : Option Nat)
    (cancelled : Bool) : (w.begin plan platform channel? cancelled).2.Asks := by
  have launches : (w.begin plan platform channel? cancelled).2.launches = _ :=
    congrArg Core.launches (core_begin w plan platform channel? cancelled)
  unfold Asks
  rw [requests_begin, launches]
  refine Asked.append h _ fun l hl => ?_
  obtain ⟨spec, -, rfl⟩ := plan.mem_launches hl
  rfl

/-- What is asked of platforms stays right with every step. -/
theorem Step.asks (step : Step w w') (lined : Core.Lined w.launches w.runs) (h : w.Asks) : w'.Asks := by
  cases step with
  | advance t =>
    cases t with
    | launch i => exact h.stepLaunch lined i
    | closing | run | reaper | dissolution =>
      exact h.of_desk (desk_advance w fun _ => Strand.noConfusion)
  | begin plan platform channel? cancelled => exact h.begin plan platform channel? cancelled
  | launch spec platform observers =>
    refine Asked.append h #[_] fun l hl => ?_
    rw [Array.mem_singleton.mp hl]
    rfl
  | ask a => exact h.of_desk ((aloof_desk w.desk).isStable a rfl)
  | announce channel e => exact h.of_desk ((aloof_desk w.desk).announce channel e rfl)
  | pass | cancel | close | dissolve | platform | channel => exact h

/-- **Requests.** In every reachable world a platform was asked once for each launch that has got so far,
and for no other. -/
theorem Reachable.asked (h : Reachable w) : w.Asks := by
  have both : w.core.Sound ∧ w.Asks := by
    induction h with
    | refl => exact ⟨.empty, .empty⟩
    | tail _ step ih =>
      obtain ⟨sound, asks⟩ := ih
      exact ⟨sound.move (step.move sound), step.asks sound.lined asks⟩
  exact both.2

end World

end Muster
