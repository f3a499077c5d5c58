import Mathlib.Logic.Relation
import Muster.Proofs.Run.Custody

/-!
# Reachable worlds

* `World.Steps`, `World.Reachable`: any number of steps, and the worlds to which they lead from the one
  in which nothing has happened.
* `World.OpenSteps`, `World.OpenReachable`: the same for open steps, in which anybody closes members.
* **`World.OpenReachable.sound`**: the invariants hold of every world to which open steps lead, so of every reachable
  one (`World.Reachable.sound`).
* `World.Reachable.warranted`: in a reachable world calls close only members that they may.
* `World.Reachable.history`: what every deed keeps holds of every such world and its
  record.
* `Core.Builds`: a run builds the members of a plan; it does so from its beginning on (`Core.Builds.begin`,
  `Core.Builds.move`).
* **`World.OpenSteps.builds`**, `World.Steps.builds`: in every world to which steps lead after a run has begun, the
  run builds the members of its plan.
-/

namespace Muster

namespace Core

variable {c c' : Core}

/-- **Soundness.** Every move keeps what holds of every core. -/
theorem Sound.move (h : c.Sound) (move : c.Move c') : c'.Sound where
  lined := h.lined.move move
  born := h.born.move move
  booked := h.booked.move h.lined move
  lives := h.lives.move move h.born h.lt_of_run h.lt_of_assembly
  stocked := h.stocked.move move
  dissolved := h.dissolved.move move
  called := h.called_move move

theorem Sound.empty : Core.Sound ⟨#[], #[], #[], #[], #[], #[], []⟩ where
  lined := .empty
  born := .empty
  booked := .empty
  lives := .empty
  stocked := .empty
  dissolved := .empty
  called := ⟨fun hr => by simp at hr, fun hr => by simp at hr, fun _ hr => by simp at hr⟩

/-- A run builds the members of a plan. -/
structure Builds (c : Core) (r : Nat) (plan : Plan) (observers : List Observer) : Prop where
  there : r < c.runs.size
  specs : (Launches.ofRun c.launches r).map (Launches.spec? c.launches) = plan.members.map some
  observers : ∀ {i : Nat} {l : Launch}, c.launches[i]? = some l → l.run? = some r →
    l.observers = l.spec.schema.observers ++ observers

namespace Builds

variable {r : Nat} {plan : Plan} {observers : List Observer}

theorem begin (h : c.Sound) (plan : Plan) (platform : Nat) (channel? : Option Nat) (id : Uuid)
    (now : Nat) (cancelled : Bool) :
    (c.begin plan platform channel? id now cancelled).Builds c.runs.size plan
      (plan.observersOf channel? id) := by
  have away : ∀ l ∈ c.launches, l.run? ≠ some c.runs.size := by
    intro l hl hr
    obtain ⟨i, hi⟩ := Array.mem_iff_getElem?.mp hl
    obtain ⟨run, hrun⟩ := h.lined.manned hi hr
    exact Nat.lt_irrefl _ (lt_of_getElem?_eq_some hrun)
  refine ⟨?_, ?_, fun {i l} hl hr => ?_⟩
  · unfold Core.begin
    rw [Array.size_push]
    exact Nat.lt_succ_self _
  · unfold Core.begin
    rw [plan.ofRun_append (Launches.ofRun_eq_nil away)]
    exact plan.map_spec? _ _ _ _
  · unfold Core.begin at hl
    rw [Array.getElem?_append] at hl
    split at hl
    · exact absurd hr (away l (Array.mem_of_getElem? hl))
    · obtain ⟨spec, -, rfl⟩ := plan.mem_launches (Array.mem_of_getElem? hl)
      rfl

theorem move (h : c.Builds r plan observers) (move : c.Move c') : c'.Builds r plan observers := by
  have keeps := move.keeps
  have hof := move.ofRun_eq h.there
  refine ⟨Nat.lt_of_lt_of_le h.there keeps.runs.size_le, ?_, fun {i l'} hl' hr => ?_⟩
  · rw [hof, ← h.specs]
    refine List.map_congr_left fun i hi => ?_
    obtain ⟨l, hl, -⟩ := Launches.mem_ofRun.mp hi
    obtain ⟨l', hl', kept⟩ := keeps.launches hl
    rw [Launches.spec?_of_getElem? hl', Launches.spec?_of_getElem? hl, kept.spec]
  · have hi : i ∈ Launches.ofRun c.launches r := hof ▸ Launches.mem_ofRun.mpr ⟨l', hl', hr⟩
    obtain ⟨l, hl, hlr⟩ := Launches.mem_ofRun.mp hi
    obtain ⟨l'', hl'', kept⟩ := keeps.launches hl
    cases hl'.symm.trans hl''
    rw [kept.observers, kept.spec]
    exact h.observers hl hlr

end Builds

end Core

namespace World

/-- Any number of steps. -/
def Steps : World → World → Prop := Relation.ReflTransGen Step

/-- What may come about, beginning with a world in which nothing has happened. -/
def Reachable (w : World) : Prop := Steps {} w

/-- Any number of open steps. -/
def OpenSteps : World → World → Prop := Relation.ReflTransGen OpenStep

/-- What may come about by open steps, beginning with a world in which nothing has happened. -/
def OpenReachable (w : World) : Prop := OpenSteps {} w

variable {w₀ w w' : World}

/-! ### Steps and moves -/

/-- What a step enters in the record, and what it does to the core of a world, is a deed in which callers close only
what they have in their hands. -/
theorem Step.deed (h : Step w w') (sound : w.core.Sound) : w.Enters (w.setting w.core.Held) w' :=
  (h.within sound.lt_of_held).deed sound.lined rfl

/-- What an open step enters in the record, and what it does to the core of a world, is a deed. -/
theorem OpenStep.deed (h : OpenStep w w') (sound : w.core.Sound) : w.Enters (w.setting fun _ => True) w' :=
  (h.within sound.lt_of_held).deed sound.lined rfl

theorem OpenStep.move (h : OpenStep w w') (sound : w.core.Sound) : w.core.Move w'.core := by
  obtain ⟨beats, -, deed⟩ := h.deed sound
  exact deed.move

theorem Step.moves (h : Step w w') (sound : w.core.Sound) : w.core.Moves w.core.Held w'.core := by
  obtain ⟨beats, -, deed⟩ := h.deed sound
  exact deed.moves

/-- What a step does to the core of a world is a move. -/
theorem Step.move (h : Step w w') (sound : w.core.Sound) : w.core.Move w'.core := (h.moves sound).move

theorem Steps.opened (h : Steps w₀ w) : OpenSteps w₀ w := Relation.ReflTransGen.mono (fun _ _ => .step) w₀ w h

theorem Reachable.opened (h : Reachable w) : OpenReachable w := Steps.opened h

/-! ### What steps keep -/

/-- Open steps keep what each move keeps. -/
theorem OpenSteps.invariant {P : Core → Prop} (h : OpenSteps w₀ w) (sound : w₀.core.Sound) (first : P w₀.core)
    (kept : ∀ {c c' : Core}, c.Sound → c.Move c' → P c → P c') : w.core.Sound ∧ P w.core := by
  induction h with
  | refl => exact ⟨sound, first⟩
  | tail _ step ih =>
    obtain ⟨sound, here⟩ := ih
    have move := step.move sound
    exact ⟨sound.move move, kept sound move here⟩

theorem OpenSteps.sound (h : OpenSteps w₀ w) (sound : w₀.core.Sound) : w.core.Sound :=
  (h.invariant (P := fun _ => True) sound trivial fun _ _ _ => trivial).1

/-- **Reachable worlds.** The invariants hold of every world to which open steps lead. -/
theorem OpenReachable.sound (h : OpenReachable w) : w.core.Sound := OpenSteps.sound h .empty

/-- Steps keep what each move keeps. -/
theorem Steps.invariant {P : Core → Prop} (h : Steps w₀ w) (sound : w₀.core.Sound) (first : P w₀.core)
    (kept : ∀ {c c' : Core}, c.Sound → c.Move c' → P c → P c') : w.core.Sound ∧ P w.core :=
  h.opened.invariant sound first kept

theorem Steps.sound (h : Steps w₀ w) (sound : w₀.core.Sound) : w.core.Sound := h.opened.sound sound

theorem Reachable.sound (h : Reachable w) : w.core.Sound := h.opened.sound

/-- In a reachable world calls close only members that they may. -/
theorem Reachable.warranted (h : Reachable w) : w.core.Warranted := by
  induction h with
  | refl => exact ⟨fun hk => by simp [core] at hk⟩
  | tail steps step ih => exact ih.move (Steps.sound steps .empty) (step.moves (Steps.sound steps .empty))

/-- What is kept by every deed in which callers close only what they have in their hands holds of every reachable world,
and of the beats that make up its record. -/
theorem Reachable.history {P : List Beat → Core → Prop} (h : Reachable w) (first : P [] (World.core {}))
    (kept : ∀ {c c' : Core} {s : Core.Setting} {beats new : List Beat}, c.Sound →
      (∀ m, s.closes m → c.Held m) → c.Deed s new c' → P beats c → P (beats ++ new) c') :
    ∃ beats, w.record = beats.flatMap Beat.entries ∧ P beats w.core := by
  induction h with
  | refl => exact ⟨[], rfl, first⟩
  | tail steps step ih =>
    obtain ⟨beats, record, here⟩ := ih
    have sound := Steps.sound steps .empty
    obtain ⟨new, entered, deed⟩ := step.deed sound
    refine ⟨beats ++ new, ?_, kept sound (fun _ => id) deed here⟩
    rw [entered, record, List.flatMap_append]

/-- Runs have delivered the assemblies in which they ended. -/
theorem OpenReachable.delivered (h : OpenReachable w) : w.core.Delivered := by
  refine (OpenSteps.invariant (P := Core.Delivered) h .empty Core.Delivered.empty ?_).2
  exact fun _ move delivered => delivered.move move

theorem Reachable.delivered (h : Reachable w) : w.core.Delivered := h.opened.delivered

/-- Every member came of a launch that is there. -/
theorem Reachable.launch_of_member (h : Reachable w) {m : Nat} {x : Member} (hx : w.members[m]? = some x) :
    ∃ l, w.launches[x.launch]? = some l := by
  obtain ⟨l, hl, -⟩ := h.sound.born.member hx
  exact ⟨l, hl⟩

/-- A run that begins is reachable, and so is what steps lead to from there. -/
theorem Steps.reachable {plan : Plan} {platform : Nat} {channel? : Option Nat} {cancelled : Bool}
    (h₀ : Reachable w₀) (h : Steps (w₀.begin plan platform channel? cancelled).2 w) : Reachable w :=
  (h₀.tail (.begin plan platform channel? cancelled)).trans h

/-- A run that begins is reached by open steps, and so is what they lead to from there. -/
theorem OpenSteps.reachable {plan : Plan} {platform : Nat} {channel? : Option Nat} {cancelled : Bool}
    (h₀ : OpenReachable w₀) (h : OpenSteps (w₀.begin plan platform channel? cancelled).2 w) : OpenReachable w :=
  (h₀.tail (.step (.begin plan platform channel? cancelled))).trans h

/-- **A run and its plan.** A run that has begun builds the members of its plan. -/
theorem OpenSteps.builds {plan : Plan} {platform : Nat} {channel? : Option Nat} {cancelled : Bool}
    (h₀ : OpenReachable w₀) (h : OpenSteps (w₀.begin plan platform channel? cancelled).2 w) :
    w.core.Sound ∧ w.core.Builds (w₀.begin plan platform channel? cancelled).1 plan
      (plan.observersOf channel? w₀.freshId.1) := by
  have begun : (w₀.begin plan platform channel? cancelled).2.core.Sound :=
    OpenSteps.sound (Relation.ReflTransGen.single (.step (.begin plan platform channel? cancelled))) h₀.sound
  refine h.invariant (P := fun c => c.Builds _ plan _) begun ?_ fun _ move builds => builds.move move
  rw [core_begin]
  exact .begin h₀.sound plan platform channel? w₀.freshId.1 w₀.now cancelled

theorem Steps.builds {plan : Plan} {platform : Nat} {channel? : Option Nat} {cancelled : Bool}
    (h₀ : Reachable w₀) (h : Steps (w₀.begin plan platform channel? cancelled).2 w) :
    w.core.Sound ∧ w.core.Builds (w₀.begin plan platform channel? cancelled).1 plan
      (plan.observersOf channel? w₀.freshId.1) :=
  h.opened.builds h₀.opened

end World

end Muster
