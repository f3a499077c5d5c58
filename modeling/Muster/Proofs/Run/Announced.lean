import Muster.Proofs.Run.Narrative
import Muster.Proofs.World.Channels
import Muster.Proofs.World.Paths

/-!
# What is announced of an assembly

* `World.Undisturbed`: any number of steps in which nobody closes a member of a run, or announces an event
  under its identifier.
* `World.Undisturbed.narrated`: the record then tells the story of the assembly that the run builds.
* `World.Announced`: which events are announced of an assembly, and in which order; the log of its channel holds them.
* **`World.Undisturbed.announced`**: whatever happens besides, the events under the identifier of a run that
  has a channel come in this order, and are what is read there.
-/

namespace Muster

namespace World

/-- At most one call closes each assembly. -/
theorem Reachable.alone {w : World} (h : Reachable w) : Core.Alone w.assemblies w.dissolutions :=
  (Steps.invariant (P := fun c => Core.Alone c.assemblies c.dissolutions) h .empty .empty
    fun sound move alone => alone.move sound.dissolved move).2

/-- A step in which nobody closes a member of a run, or announces an event under its identifier. -/
def Orderly (r : Nat) (id : Uuid) (w w' : World) : Prop :=
  StepWithin (fun m => w.Held m ∧ w.core.runOf? m ≠ some r) (fun e => e.assemblyId ≠ id) w w'

/-- Any number of such steps. -/
def Undisturbed (r : Nat) (id : Uuid) : World → World → Prop := Relation.ReflTransGen (Orderly r id)

variable {w₀ w : World} {plan : Plan} {platform channel r : Nat} {id : Uuid} {cancelled : Bool} {b : Channel}

theorem Orderly.step (h : Orderly r id w₀ w) : Step w₀ w :=
  (StepWithin.mono h (fun _ may => may.1) fun _ may => may).step

theorem Undisturbed.steps (h : Undisturbed r id w₀ w) : Steps w₀ w :=
  Relation.ReflTransGen.mono (fun _ _ => Orderly.step) w₀ w h

theorem Undisturbed.goes {ss : List Strand} (ready : w.canGo ss = true) : Undisturbed r id w (w.goes ss) :=
  goes_of (fun _ s ready => StepWithin.advance s ready) ready

/-- **The story of an assembly.** The record tells the story of the assembly that a run builds, when nobody
disturbs it. -/
theorem Undisturbed.narrated (h₀ : Reachable w₀)
    (h : Undisturbed (w₀.begin plan platform (some channel) cancelled).1 w₀.freshId.1
      (w₀.begin plan platform (some channel) cancelled).2 w)
    (before : w₀.events w₀.freshId.1 = [])
    (observers : ∀ o ∈ plan.observers, o.speaksFor w₀.freshId.1 = false)
    (schemas : ∀ s ∈ plan.members, ∀ o ∈ s.schema.observers, o.speaksFor w₀.freshId.1 = false)
    (reserved : w.core.Reserved (w₀.begin plan platform (some channel) cancelled).1 w₀.freshId.1) :
    ∃ run beats, w.core.runs[(w₀.begin plan platform (some channel) cancelled).1]? = some run ∧
      run.id = w₀.freshId.1 ∧ run.channel? = some channel ∧ w.record = beats.flatMap Beat.entries ∧
      w.core.Narrated (w₀.begin plan platform (some channel) cancelled).1 w₀.freshId.1 run beats := by
  induction h with
  | refl =>
    obtain ⟨beats, record, chronicled, attributed⟩ :=
      h₀.history (P := fun beats c => c.Chronicled beats ∧ c.Attributed beats) ⟨.empty, Core.Attributed.empty _⟩
        fun sound held deed ⟨chronicled, attributed⟩ =>
          ⟨chronicled.deed sound held deed, Core.Attributed.deed attributed deed⟩
    obtain ⟨time, begun⟩ := record_begin w₀ plan platform (some channel) cancelled
    rw [events_of_record record] at before
    rw [core_begin]
    refine ⟨_, _, Array.getElem?_push_size, rfl, rfl, ?_,
      .begin h₀.sound chronicled attributed before plan platform channel w₀.now cancelled time⟩
    rw [begun, record, List.flatMap_append]
    rfl
  | @tail v w steps step ih =>
    have steps := Undisturbed.steps steps
    have reachable := steps.reachable h₀
    obtain ⟨sound, builds⟩ := steps.builds h₀
    have move := (Orderly.step step).move sound
    obtain ⟨run, beats, hr, own, there, record, narrated⟩ := ih (reserved.before move)
    obtain ⟨run', hr', -⟩ := move.keeps.runs hr
    have lasts := move.run_lasts hr hr'
    obtain ⟨new, entered, deed⟩ := StepWithin.deed (s := ⟨v.holds, _, _⟩) step sound.lined rfl
    refine ⟨run', beats ++ new, hr', lasts.id.trans own, lasts.channel.trans there, ?_, ?_⟩
    · rw [entered, record, List.flatMap_append]
    · exact narrated.deed sound reachable.warranted reachable.delivered reachable.alone
        (builds.solo observers schemas) deed reserved hr hr' own there (fun _ may => may.1) (fun _ may => may.2)
        fun _ may => may

/-- What is announced of the assembly that a run builds. -/
structure Announced (w : World) (r : Nat) (run : Run) : Prop where
  /-- Events in the life of the assembly come in one of three orders, -/
  order : (w.events run.id).filterMap Event.kind? <+: [.building, .stable, .closed] ∨
    (w.events run.id).filterMap Event.kind? <+: [.building, .failed] ∨
    (w.events run.id).filterMap Event.kind? <+: [.building, .degraded, .failed]
  /-- and tell how far the run has got. -/
  reached : ∀ kind, kind ∈ (w.events run.id).filterMap Event.kind? ↔ run.Reached w.assemblies kind
  /-- All other events tell of members of the run, -/
  own : ∀ e, Event.member e ∈ w.events run.id → ∃ m, w.core.Concerns r (.member e) m
  /-- of each of which the events come in one order. -/
  life : ∀ m x, w.members[m]? = some x → w.core.runOf? m = some r →
    (w.events run.id).filterMap (Event.of? x.id) <+: [.realized, .closing, .closed]
  /-- That the assembly is stable comes after each of its members was announced to run, -/
  stable : ∀ pre e post, w.events run.id = pre ++ .assembly e :: post → e.kind = .stable →
    ∀ m, w.core.runOf? m = some r → Members.Tells w.members pre m .realized
  /-- that it never was comes before any of them is announced to be closed, -/
  degraded : ∀ pre e post, w.events run.id = pre ++ .assembly e :: post → e.kind = .degraded →
    ∀ e', Event.member e' ∈ pre → e'.occasion = .realized
  /-- that it failed after this was announced of each that the run had, -/
  failed : ∀ pre e post, w.events run.id = pre ++ .assembly e :: post → e.kind = .failed →
    ∀ m ∈ run.members, Members.Tells w.members pre m .closed
  /-- and before nothing but events of members that it never had, -/
  late : ∀ pre e post, w.events run.id = pre ++ .assembly e :: post → e.kind = .failed →
    ∀ e' ∈ post, ∃ m, w.core.Concerns r e' m ∧ m ∉ run.members
  /-- and that it is closed after all of its members are. -/
  closed : ∀ pre e post, w.events run.id = pre ++ .assembly e :: post → e.kind = .closed →
    ∃ a x, run.phase = .finished (.ok a) ∧ w.assemblies[a]? = some x ∧
      ∀ m ∈ x.members, Members.Tells w.members pre m .closed

/-- **Announcements.** Whatever happens besides, the events under the identifier of a run that has a channel
come in order, when nobody else announces anything under it and nobody closes a member but by closing the
assembly. They are what the log of the channel holds under the identifier. -/
theorem Undisturbed.announced (h₀ : Reachable w₀)
    (h : Undisturbed (w₀.begin plan platform (some channel) cancelled).1 w₀.freshId.1
      (w₀.begin plan platform (some channel) cancelled).2 w)
    (bus : w₀.channels[channel]? = some b) (quiet : ∀ e ∈ b.log.toList, e.assemblyId ≠ w₀.freshId.1)
    (before : w₀.events w₀.freshId.1 = [])
    (observers : ∀ o ∈ plan.observers, o.speaksFor w₀.freshId.1 = false)
    (schemas : ∀ s ∈ plan.members, ∀ o ∈ s.schema.observers, o.speaksFor w₀.freshId.1 = false)
    (reserved : w.core.Reserved (w₀.begin plan platform (some channel) cancelled).1 w₀.freshId.1) :
    ∃ run c, w.runs[(w₀.begin plan platform (some channel) cancelled).1]? = some run ∧ run.id = w₀.freshId.1 ∧
      w.channels[channel]? = some c ∧ c.log.toList.filter (·.assemblyId = run.id) = w.events run.id ∧
      w.Announced (w₀.begin plan platform (some channel) cancelled).1 run := by
  obtain ⟨run, beats, hr, own, there, record, narrated⟩ := h.narrated h₀ before observers schemas reserved
  obtain ⟨sound, builds⟩ := h.steps.builds h₀
  -- what is announced under the identifier goes to the channel
  have path : OpenSteps w₀ w :=
    .head (.step (.begin plan platform (some channel) cancelled)) h.steps.opened
  obtain ⟨c, hc, -, log⟩ := path.published bus before quiet fun number e he about => by
    have entered : .announced number e ∈ w.record := List.mem_filter.mpr ⟨he, rfl⟩
    rw [record] at entered
    exact narrated.on_channel sound reserved (builds.bridged observers schemas) there entered about
  have delivered : w.core.Delivered := (h.steps.reachable h₀).delivered
  have solo : w.core.Solo _ w₀.freshId.1 := builds.solo observers schemas
  have events : w.events run.id = beats.flatMap (Beat.events w₀.freshId.1) := by
    rw [own, events_of_record record]
  -- when an event was announced the run had got that far
  have reached {pre post : List Event} {e : AssemblyEvent}
      (split : beats.flatMap (Beat.events w₀.freshId.1) = pre ++ .assembly e :: post) :
      run.Reached w.assemblies e.kind := by
    refine Run.mem_kinds.mp (narrated.kinds ▸ List.mem_filterMap.mpr ⟨.assembly e, ?_, rfl⟩)
    rw [split]
    exact List.mem_append_right pre List.mem_cons_self
  have kind {e : AssemblyEvent} {kind : AssemblyEvent.Kind} (hk : e.kind = kind) :
      Event.kind? (.assembly e) = some kind := congrArg some hk
  refine ⟨run, c, hr, own, hc, own ▸ log, ?_⟩
  constructor <;> rw [events]
  · exact narrated.kinds ▸ run.kinds_cases w.assemblies
  · exact fun k => narrated.kinds ▸ Run.mem_kinds
  · intro e he
    obtain ⟨m, x, o, state, hx, own, same, -⟩ :=
      narrated.chronicled.spoken narrated.attributed narrated.civil sound reserved he
    exact ⟨m, e, x, rfl, hx, own, same⟩
  · exact fun m x hx own => narrated.member_isPrefix sound solo reserved hx own
  · intro pre e post split hk m own
    obtain ⟨a, hp⟩ : run.Reached w.assemblies .stable := hk ▸ reached split
    exact (narrated.ready split).stable (kind hk) m (sound.mem_of_gathered hr (.succeeded hp) own)
  · exact fun pre e post split hk => (narrated.ready split).degraded (kind hk)
  · exact fun pre e post split hk => (narrated.ready split).ended (.inl (kind hk))
  · exact fun pre e post split hk => narrated.late sound solo reserved split hk
  · intro pre e post split hk
    obtain ⟨a, x, hp, hx, -⟩ : run.Reached w.assemblies .closed := hk ▸ reached split
    obtain ⟨x', hx', kept⟩ := delivered hr hp
    cases hx.symm.trans hx'
    have had : x.members = run.members := kept.members
    exact ⟨a, x, hp, hx, fun m hm => (narrated.ready split).ended (.inr (kind hk)) m (had ▸ hm)⟩

/-- A stage with a channel. -/
def hall (p : Platform) : World := { stage p with channels := #[{ capacity := 16 }] }

theorem reachable_hall (p : Platform) : Reachable (hall p) := (reachable_stage p).tail (.channel _)

/-- The world once two members were asked for that are announced. -/
def heralded (p : Platform) : World :=
  { ({ hall p with identities := 1 } : World).announce 0
      (.assembly (.building (.random 0) 2 (hall p).time)) with
    runs := #[{ Plan.pair.plainRun (.random 0) 0 false [0, 1] with channel? := some 0 }]
    launches := (Plan.pair.launches 0 0 [bridge 0 (.random 0)]).toArray }

theorem begin_heralded (p : Platform) : ((hall p).begin .pair 0 (some 0) false).2 = heralded p := by
  rw [begin_without_options _ rfl]
  rfl

/-- The second member was refused, and the first is closed again. -/
def mourned : World :=
  (heralded refusing).goes [.launch 0, .launch 0, .launch 0, .launch 0, .launch 1, .launch 1, .run 0, .run 0,
    .run 0, .closing 0, .closing 0, .closing 0, .closing 0, .closing 0, .closing 0, .run 0]

theorem undisturbed_mourned :
    Undisturbed 0 (.random 0) ((hall refusing).begin .pair 0 (some 0) false).2 mourned := by
  rw [begin_heralded]
  exact Undisturbed.goes (by decide +kernel)

theorem reserved_mourned : mourned.core.Reserved 0 (.random 0) := by
  have runs : mourned.core.runs.size = 1 := by decide +kernel
  have members : mourned.core.members.size = 1 := by decide +kernel
  have launches : ∀ l ∈ mourned.core.launches.toList, l.run? = some 0 := by decide +kernel
  have first {α : Type} {as : Array α} {i : Nat} {a : α} (one : as.size = 1) (ha : as[i]? = some a) : i = 0 :=
    Nat.lt_one_iff.mp (one ▸ lt_of_getElem?_eq_some ha)
  exact {
    runs := fun hs _ => first runs hs
    observers := fun hl _ _ => launches _ (Array.mem_toList_iff.mpr (Array.mem_of_getElem? hl))
    members := fun hx hy _ => (first members hx).trans (first members hy).symm }

set_option maxRecDepth 4000 in
/-- Of the first member three events are announced, between the beginning and the failure of the assembly. -/
theorem announced_mourned : ∃ run c, mourned.runs[0]? = some run ∧ mourned.channels[0]? = some c ∧
    c.log.toList.filter (·.assemblyId = run.id) = mourned.events run.id ∧ mourned.Announced 0 run ∧
    (mourned.events run.id).map Event.kind? = [some .building, none, none, none, some .failed] := by
  have silent : (hall refusing).events (.random 0) = [] := rfl
  have schemas : ∀ s ∈ Plan.pair.members, ∀ o ∈ s.schema.observers, o.speaksFor (.random 0) = false := by decide
  obtain ⟨run, c, hr, own, hc, log, announced⟩ := Undisturbed.announced (reachable_hall refusing)
    undisturbed_mourned rfl (fun _ he => absurd he List.not_mem_nil) silent
    (fun _ ho => absurd ho List.not_mem_nil) schemas reserved_mourned
  refine ⟨run, c, hr, hc, log, announced, ?_⟩
  rw [own]
  decide +kernel

end World

end Muster
