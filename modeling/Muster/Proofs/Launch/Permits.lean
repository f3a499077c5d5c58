import Muster.Proofs.Launch.Line
import Muster.Proofs.Launch.OfRun

/-!
# Permits

* `Launch.Phase.admitted`, `Launch.Phase.inside`: whether a launch has a permit, and whether it has got past
  asking the platform.
* `Core.Rationed`: the permits that are free and those that launches have are so many in all.
* `Core.LaunchMove.rationed`: a launch takes a permit, hands it on or gives it back; none gets lost when the
  launch fails or is taken down.
* **`Core.Rationed.move`**: no move makes permits, and none loses any.
-/

namespace Muster

namespace Launch.Phase

/-- A launch in this phase has a permit of its run. -/
def admitted : Launch.Phase → Bool
  | granted | realizing _ | telling _ => true
  | queued | waiting | settled _ => false

/-- The platform is at work for a launch in this phase, or its observers are told. -/
def inside : Launch.Phase → Bool
  | realizing _ | telling _ => true
  | queued | waiting | granted | settled _ => false

theorem admitted_of_inside {p : Launch.Phase} (h : p.inside = true) : p.admitted = true := by
  cases p with
  | realizing | telling => rfl
  | queued | waiting | granted | settled => cases h

end Launch.Phase

/-- A launch that may end has a permit. -/
theorem Launch.Ends.admitted {l : Launch} {o : Launch.Outcome} (ends : l.Ends o) :
    l.phase.admitted = true := by
  cases ends with
  | refused hp | struck hp | told hp | felled hp => rw [hp]; rfl

/-- A list counts one entry more or less when only that entry changes. -/
theorem countP_of_agree {is : List Nat} {i : Nat} {p p' : Nat → Bool} (once : is.Nodup) (hi : i ∈ is)
    (agree : ∀ j ≠ i, p' j = p j) :
    is.countP p' + (p i).toNat = is.countP p + (p' i).toNat := by
  have split (q : Nat → Bool) : is.countP q = (is.erase i).countP q + (q i).toNat := by
    rw [(List.perm_cons_erase hi).countP_eq, List.countP_cons]
    cases q i <;> rfl
  have others : (is.erase i).countP p' = (is.erase i).countP p := by
    refine List.countP_congr fun j hj => ?_
    have other : j ≠ i := fun same => once.not_mem_erase (same ▸ hj)
    rw [agree j other]
  rw [split p, split p', others]
  omega

namespace Launches

variable {ls : Array Launch} {i r : Nat} {l l' : Launch}

/-- The launch at a place is in a phase of some sort. -/
def phaseIs (ls : Array Launch) (sort : Launch.Phase → Bool) (i : Nat) : Bool :=
  (ls[i]?.map fun l => sort l.phase).getD false

/-- How many launches of a run are in a phase of some sort. -/
def tally (ls : Array Launch) (sort : Launch.Phase → Bool) (r : Nat) : Nat :=
  (ofRun ls r).countP (phaseIs ls sort)

variable {sort : Launch.Phase → Bool}

theorem phaseIs_of_getElem? (hl : ls[i]? = some l) : phaseIs ls sort i = sort l.phase := by
  unfold phaseIs
  rw [hl, Option.map_some, Option.getD_some]

variable (sort) in
/-- When a launch of a run goes on, it counts as what it is now and no longer as what it was. -/
theorem tally_set (hl : ls[i]? = some l) (run : l'.run? = l.run?) (hr : l.run? = some r) :
    tally (ls.setIfInBounds i l') sort r + (sort l.phase).toNat =
      tally ls sort r + (sort l'.phase).toNat := by
  have agree : ∀ j ≠ i, phaseIs (ls.setIfInBounds i l') sort j = phaseIs ls sort j := by
    intro j other
    unfold phaseIs
    rw [getElem?_replace_of_ne hl other]
  have counted := countP_of_agree (nodup_ofRun ls r) (mem_ofRun.mpr ⟨l, hl, hr⟩) agree
  rw [phaseIs_of_getElem? hl, phaseIs_of_getElem? (getElem?_replace_self hl l')] at counted
  unfold tally
  rw [ofRun_set hl run]
  exact counted

/-- When a launch of another run goes on, nothing changes, -/
theorem tally_set_of_ne (hl : ls[i]? = some l) (run : l'.run? = l.run?) (hr : l.run? ≠ some r) :
    tally (ls.setIfInBounds i l') sort r = tally ls sort r := by
  unfold tally
  rw [ofRun_set hl run]
  refine List.countP_congr fun j hj => ?_
  obtain ⟨x, hx, hxr⟩ := mem_ofRun.mp hj
  have other : j ≠ i := by
    intro same
    rw [same, hl] at hx
    cases hx
    exact hr hxr
  unfold phaseIs
  rw [getElem?_replace_of_ne hl other]

/-- nor does anything when a launch goes on to a phase of the same sort. -/
theorem tally_set_of_same (hl : ls[i]? = some l) (run : l'.run? = l.run?)
    (same : sort l'.phase = sort l.phase) : tally (ls.setIfInBounds i l') sort r = tally ls sort r := by
  by_cases hr : l.run? = some r
  · have counted := tally_set sort hl run hr
    rw [same] at counted
    exact Nat.add_right_cancel counted
  · exact tally_set_of_ne hl run hr

theorem tally_le_length (ls : Array Launch) (sort : Launch.Phase → Bool) (r : Nat) :
    tally ls sort r ≤ (ofRun ls r).length := List.countP_le_length

theorem tally_mono {sort sort' : Launch.Phase → Bool} (h : ∀ p, sort p = true → sort' p = true)
    (ls : Array Launch) (r : Nat) : tally ls sort r ≤ tally ls sort' r := by
  refine List.countP_mono_left fun i _ hi => ?_
  unfold phaseIs at hi ⊢
  cases hl : ls[i]? with
  | none => simp [hl] at hi
  | some l =>
    rw [hl] at hi
    exact h _ hi

/-- Launches that are there count as before when others are added. -/
theorem tally_of_grows {ls ls' : Array Launch} (of : ofRun ls' r = ofRun ls r)
    (old : ∀ (i : Nat) (l : Launch), ls[i]? = some l → ls'[i]? = some l) :
    tally ls' sort r = tally ls sort r := by
  unfold tally
  rw [of]
  refine List.countP_congr fun i hi => ?_
  obtain ⟨l, hl, -⟩ := mem_ofRun.mp hi
  rw [phaseIs_of_getElem? hl, phaseIs_of_getElem? (old i l hl)]

end Launches

namespace Core

/-- The permits of a run that are free and those that its launches have are so many in all. -/
def Rationed (c : Core) (r total : Nat) : Prop :=
  ∃ run, c.runs[r]? = some run ∧ run.permits + Launches.tally c.launches Launch.Phase.admitted r = total

variable {c c' : Core} {r total : Nat}

theorem Rationed.there (h : c.Rationed r total) : r < c.runs.size := by
  obtain ⟨run, hrun, -⟩ := h
  exact lt_of_getElem?_eq_some hrun

/-- What changes neither launches nor permits changes nothing. -/
theorem Rationed.of_same (h : c.Rationed r total)
    (runs : ∀ (run : Run), c.runs[r]? = some run → ∃ run', c'.runs[r]? = some run' ∧
      run'.permits = run.permits)
    (launches : Launches.tally c'.launches Launch.Phase.admitted r =
      Launches.tally c.launches Launch.Phase.admitted r) :
    c'.Rationed r total := by
  obtain ⟨run, hrun, all⟩ := h
  obtain ⟨run', hrun', permits⟩ := runs run hrun
  exact ⟨run', hrun', by rw [permits, launches, all]⟩

/-- A run keeps its permits when it, or another one, goes on without touching them. -/
theorem kept_setRun {rs : Array Run} {s : Nat} {x x' : Run} (hs : rs[s]? = some x)
    (same : x'.permits = x.permits) (run : Run) (hrun : rs[r]? = some run) :
    ∃ run', (rs.setIfInBounds s x')[r]? = some run' ∧ run'.permits = run.permits := by
  rw [getElem?_replace hs]
  split
  · rename_i here
    rw [here, hs] at hrun
    cases hrun
    exact ⟨x', rfl, same⟩
  · exact ⟨run, hrun, rfl⟩

theorem Rationed.setRun (h : c.Rationed r total) {s : Nat} {x x' : Run} (hs : c.runs[s]? = some x)
    (same : x'.permits = x.permits) : (c.setRun s x').Rationed r total :=
  h.of_same (kept_setRun hs same) rfl

/-- A launch goes on, and so does its run: what the launch takes, the run gives. -/
theorem Rationed.exchange (h : c.Rationed r total) {i s : Nat} {l l' : Launch} {x x' : Run}
    (hl : c.launches[i]? = some l) (run : l'.run? = l.run?) (hls : l.run? = some s)
    (hs : c.runs[s]? = some x)
    (even : x'.permits + l'.phase.admitted.toNat = x.permits + l.phase.admitted.toNat) :
    ((c.setRun s x').setLaunch i l').Rationed r total := by
  obtain ⟨y, hy, all⟩ := h
  by_cases here : s = r
  · subst here
    cases hs.symm.trans hy
    have counted := Launches.tally_set Launch.Phase.admitted hl run hls
    refine ⟨x', getElem?_replace_self hs x', ?_⟩
    show x'.permits + Launches.tally (c.launches.setIfInBounds i l') _ s = total
    omega
  · refine ⟨y, (getElem?_replace_of_ne hs (Ne.symm here) x').trans hy, ?_⟩
    show y.permits + Launches.tally (c.launches.setIfInBounds i l') _ r = total
    rw [Launches.tally_set_of_ne hl run fun hr => here (Option.some.inj (hls.symm.trans hr)), all]

theorem Rationed.setLaunch (h : c.Rationed r total) {i : Nat} {l l' : Launch}
    (hl : c.launches[i]? = some l) (run : l'.run? = l.run?)
    (same : l.run? = none ∨ l'.phase.admitted = l.phase.admitted) :
    (c.setLaunch i l').Rationed r total := by
  refine h.of_same (fun x hx => ⟨x, hx, rfl⟩) ?_
  rcases same with none | same
  · exact Launches.tally_set_of_ne hl run fun same => Option.some_ne_none r (same.symm.trans none)
  · exact Launches.tally_set_of_same hl run same

/-- **Permits go round.** A launch that gets a permit has it until it ends, however it ends; then the first
in line has it, or it is free. -/
theorem LaunchMove.rationed {i : Nat} (move : c.LaunchMove i c') (lined : Lined c.launches c.runs)
    (h : c.Rationed r total) : c'.Rationed r total := by
  cases move with
  | wait hl hp hr hrun => exact h.exchange hl rfl hr hrun (by rw [hp]; rfl)
  | pass hl hp hr hrun free due =>
    refine h.exchange hl rfl hr hrun ?_
    rw [hp, free]
    rfl
  | ask hl hp due =>
    refine h.setLaunch hl rfl ?_
    rcases hp with granted | ⟨-, none⟩
    · exact .inr (by rw [granted]; rfl)
    · exact .inl none
  | handOut hl hp id process since =>
    refine Rationed.setLaunch (c := c.addMember _) ?_ hl rfl (.inr (by rw [hp]; rfl))
    exact h.of_same (fun x hx => ⟨x, hx, rfl⟩) rfl
  | tell hl hp same fewer => exact h.setLaunch hl rfl (.inr (by rw [hp]; rfl))
  | settle hl ends none => exact h.setLaunch hl rfl (.inl none)
  | settleLast hl ends hr hrun empty =>
    refine h.exchange hl rfl hr hrun ?_
    rw [ends.admitted]
    rfl
  | settleNext hl ends hr hrun first other hn waits =>
    -- the permit of the launch that ends goes to the run for a moment, and from there to the next in line
    rename_i l next o s n x line
    obtain ⟨next', hn', -, same⟩ := lined.waits hrun (first ▸ List.mem_cons_self)
    cases hn.symm.trans hn'
    have given : ((c.setRun s { x with permits := x.permits + 1 }).setLaunch i
        { l with phase := .settled o }).Rationed r total := by
      refine h.exchange hl rfl hr hrun ?_
      rw [ends.admitted]
      rfl
    have taken : ((((c.setRun s { x with permits := x.permits + 1 }).setLaunch i
        { l with phase := .settled o }).setRun s { x with line, settled := x.settled ++ [i] }).setLaunch n
        { next with phase := .granted }).Rationed r total :=
      given.exchange ((getElem?_replace_of_ne hl other _).trans hn) rfl same (getElem?_replace_self hrun _)
        (by rw [waits]; rfl)
    refine taken.of_same (fun y hy => ⟨y, ?_, rfl⟩) rfl
    rw [← hy]
    show (c.runs.setIfInBounds s _)[r]? = ((c.runs.setIfInBounds s _).setIfInBounds s _)[r]?
    rw [Array.setIfInBounds_setIfInBounds]

theorem RunMove.rationed {s : Nat} (move : c.RunMove s c') (h : c.Rationed r total) :
    c'.Rationed r total := by
  cases move with
  | take hr | giveUp hr | refuse hr | gather hr | succeedEmpty hr | dismiss hr | succeed hr | degrade hr
  | rest hr | wake hr | fail hr => exact h.of_same (kept_setRun hr rfl) rfl

theorem ReaperMove.rationed {s : Nat} (move : c.ReaperMove s c') (h : c.Rationed r total) :
    c'.Rationed r total := by
  cases move with
  | done hr | drop hr | close hr => exact h.of_same (kept_setRun hr rfl) rfl

theorem OutsideMove.rationed {closes : Nat → Prop} (move : c.OutsideMove closes c')
    (h : c.Rationed r total) : c'.Rationed r total := by
  have of : Launches.ofRun c'.launches r = Launches.ofRun c.launches r :=
    (Moves.outside move).move.ofRun_eq h.there
  cases move with
  | cancel hr => exact h.setRun hr rfl
  | begin plan platform channel? id now cancelled =>
    refine h.of_same (fun x hx => ⟨x, ?_, rfl⟩) (Launches.tally_of_grows of fun i l hl => ?_)
    · exact (Array.getElem?_push_lt h.there).trans ((Array.getElem?_eq_getElem h.there).symm.trans hx)
    · exact (Array.getElem?_append_left (lt_of_getElem?_eq_some hl)).trans hl
  | launch spec platform observers =>
    refine h.of_same (fun x hx => ⟨x, hx, rfl⟩) (Launches.tally_of_grows of fun i l hl => ?_)
    have there := lt_of_getElem?_eq_some hl
    exact (Array.getElem?_push_lt there).trans ((Array.getElem?_eq_getElem there).symm.trans hl)
  | close => exact h.of_same (fun x hx => ⟨x, hx, rfl⟩) rfl
  | dissolve known => exact h.of_same (fun x hx => ⟨x, hx, rfl⟩) rfl

/-- **Permits.** No move makes permits, and none loses any. -/
theorem Rationed.move (h : c.Rationed r total) (lined : Lined c.launches c.runs) (move : c.Move c') :
    c'.Rationed r total := by
  cases move with
  | stay => exact h
  | launch i move => exact move.rationed lined h
  | closing j move => cases move <;> exact h.of_same (fun x hx => ⟨x, hx, rfl⟩) rfl
  | run s move => exact move.rationed h
  | reaper s move => exact move.rationed h
  | dissolution d move => cases move <;> exact h.of_same (fun x hx => ⟨x, hx, rfl⟩) rfl
  | outside move => exact move.rationed h

/-- A run begins with all its permits, since none of its launches has begun. -/
theorem Rationed.begin (lined : Lined c.launches c.runs) (plan : Plan) (platform : Nat)
    (channel? : Option Nat) (id : Uuid) (now : Nat) (cancelled : Bool) :
    (c.begin plan platform channel? id now cancelled).Rationed c.runs.size
      (plan.options.parallelismOf?.getD (max plan.members.length 1)) := by
  refine ⟨_, Array.getElem?_push_size, ?_⟩
  suffices none : Launches.tally (c.begin plan platform channel? id now cancelled).launches Launch.Phase.admitted
      c.runs.size = 0 by
    rw [none]
    rfl
  refine List.countP_eq_zero.mpr fun i hi => ?_
  obtain ⟨l, hl, hr⟩ := Launches.mem_ofRun.mp hi
  rw [Launches.phaseIs_of_getElem? hl]
  unfold Core.begin at hl
  rw [Array.getElem?_append] at hl
  split at hl
  · obtain ⟨run, hrun⟩ := lined.manned hl hr
    exact absurd (lt_of_getElem?_eq_some hrun) (Nat.lt_irrefl _)
  · obtain ⟨spec, -, rfl⟩ := plan.mem_launches (Array.mem_of_getElem? hl)
    exact Bool.false_ne_true

end Core

end Muster
