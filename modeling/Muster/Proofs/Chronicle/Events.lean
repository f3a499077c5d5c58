import Muster.Proofs.Member.Script

/-!
# Events under an identifier

* `AssemblyEvent.kind`, `MemberEvent.occasion`: what an event tells.
* `World.events`: what was announced under an identifier, in order; `Beat.events` is what a beat adds to it.
* `Observer.speaksFor`: whether an observer announces what it is told under an identifier;
  `Observer.Voices`: what it announces of a member.
* `Note.voices_script`: what is announced of a member in the end, when one of its observers announces it.
* `Before`: each entry of a list meets a condition on those before it; `eq_nil_of_last`: nothing follows the
  last one.
-/

namespace Muster

/-! ### What an event tells -/

/-- The kinds of events in the life of an assembly. -/
inductive AssemblyEvent.Kind where
  | building
  | stable
  | degraded
  | failed
  | closed
deriving DecidableEq, Repr

/-- The kind of an event in the life of an assembly. -/
def AssemblyEvent.kind : AssemblyEvent → Kind
  | building .. => .building
  | stable .. => .stable
  | degraded .. => .degraded
  | failed .. => .failed
  | closed .. => .closed

namespace MemberEvent

/-- The identifier of the member. -/
def member : MemberEvent → Uuid
  | realized _ m _ _ _ _ | closing _ m _ _ | closed _ m _ _ => m

/-- The occasion in the life of the member. -/
def occasion : MemberEvent → Occasion
  | realized .. => .realized
  | closing .. => .closing
  | closed .. => .closed

end MemberEvent

namespace Event

/-- The kind of an event in the life of an assembly. -/
def kind? : Event → Option AssemblyEvent.Kind
  | assembly e => some e.kind
  | member _ => none

/-- The occasion in the life of the member with an identifier. -/
def of? (u : Uuid) : Event → Option Occasion
  | member e => if e.member = u then some e.occasion else none
  | assembly _ => none

end Event

/-! ### What was announced -/

/-- The event, if one was announced under an identifier. -/
def Occurrence.under? (id : Uuid) : Occurrence → Option Event
  | announced _ e => if e.assemblyId = id then some e else none
  | requested _ | told .. | noted _ | stopped _ | asked .. | logged .. | measured _ => none

/-- What a beat announces under an identifier. -/
def Beat.events (id : Uuid) (b : Beat) : List Event := b.entries.filterMap (Occurrence.under? id)

theorem Beat.events_announce_of_ne {id : Uuid} {e : Event} (other : e.assemblyId ≠ id) (channel : Nat) :
    (announce channel e).events id = [] := by
  simp [events, entries, Occurrence.under?, other]

theorem Beat.events_announces {id : Uuid} {e : AssemblyEvent} (own : e.assembly = id) {channel? : Option Nat}
    {channel : Nat} (there : channel? = some channel) :
    (channel?.toList.map fun c => announce c (.assembly e)).flatMap (events id) = [.assembly e] := by
  simp [there, events, entries, Occurrence.under?, Event.assemblyId, own]

theorem Beat.events_announces_of_ne {id : Uuid} {e : AssemblyEvent} (other : e.assembly ≠ id)
    (channel? : Option Nat) :
    (channel?.toList.map fun c => announce c (.assembly e)).flatMap (events id) = [] := by
  rw [List.flatMap_eq_nil_iff]
  intro b hb
  obtain ⟨c, -, rfl⟩ := List.mem_map.mp hb
  exact events_announce_of_ne (e := .assembly e) other c

namespace World

/-- What was announced under an identifier, in order. -/
def events (w : World) (id : Uuid) : List Event := (w.since 0).filterMap (Occurrence.under? id)

/-- What was announced can be told from the record. -/
theorem events_of_record {w : World} {beats : List Beat} (record : w.record = beats.flatMap Beat.entries)
    (id : Uuid) : w.events id = beats.flatMap (Beat.events id) := by
  have recorded : w.events id = w.record.filterMap (Occurrence.under? id) := by
    unfold World.record events
    rw [List.filterMap_filter]
    refine congrArg (List.filterMap · _) (funext fun o => ?_)
    cases o <;> rfl
  rw [recorded, record, List.filterMap_flatMap]
  rfl

end World

/-! ### What observers announce -/

namespace Observer

/-- Whether an observer announces what it is told under an identifier. -/
def speaksFor (id : Uuid) (o : Observer) : Bool :=
  match o.trail with
  | .announces _ assembly => assembly = id
  | .silent | .records | .journals => false

/-- Events are what an observer announces of an occasion in the life of the member with an identifier. -/
def Voices (o : Observer) (u : Uuid) (occasion : Occasion) (events : List (Nat × Event)) : Prop :=
  match o.trail with
  | .announces channel assembly => ∃ e : MemberEvent, events = [(channel, .member e)] ∧
      e.assembly = assembly ∧ e.member = u ∧ e.occasion = occasion
  | .silent | .records | .journals => events = []

variable {o : Observer} {u : Uuid} {occasion : Occasion} {events : List (Nat × Event)}

theorem Announces.voices {x : Member} (h : o.Announces x occasion events) :
    o.Voices x.id occasion events := by
  unfold Announces at h
  unfold Voices
  cases trail : o.trail with
  | announces channel assembly =>
    rw [trail] at h
    obtain ⟨w, rfl⟩ := h
    exact ⟨_, rfl, by cases occasion <;> exact ⟨rfl, rfl, rfl⟩⟩
  | silent | records | journals =>
    rw [trail] at h
    exact h

/-- An observer that is told announces one event under its identifier, and none under any other. -/
theorem Voices.events_tell (h : o.Voices u occasion events) (id : Uuid) (m : Nat) (state : MemberState) :
    o.speaksFor id = true ∧ (∃ e : MemberEvent, (Beat.tell m o occasion state events).events id = [.member e] ∧
      e.member = u ∧ e.occasion = occasion) ∨
    o.speaksFor id = false ∧ (Beat.tell m o occasion state events).events id = [] := by
  unfold Voices at h
  unfold speaksFor
  cases trail : o.trail with
  | announces channel assembly =>
    rw [trail] at h
    obtain ⟨e, rfl, rfl, member, told⟩ := h
    by_cases own : e.assembly = id
    · refine .inl ⟨decide_eq_true own, e, ?_, member, told⟩
      exact (List.filterMap_cons_none rfl).trans (List.filterMap_cons_some (if_pos own))
    · refine .inr ⟨decide_eq_false own, ?_⟩
      exact (List.filterMap_cons_none rfl).trans (List.filterMap_cons_none (if_neg own))
  | silent | records | journals =>
    rw [trail] at h
    rw [h]
    exact .inr ⟨rfl, rfl⟩

/-- An observer announces events on one channel, and in the name of one assembly. -/
theorem Voices.trail (h : o.Voices u occasion events) {number : Nat} {e : Event} (he : (number, e) ∈ events) :
    o.trail = .announces number e.assemblyId := by
  unfold Voices at h
  cases trail : o.trail with
  | announces channel assembly =>
    rw [trail] at h
    obtain ⟨e', rfl, rfl, -⟩ := h
    cases List.mem_singleton.mp he
    rfl
  | silent | records | journals =>
    rw [trail] at h
    rw [h] at he
    exact absurd he List.not_mem_nil

end Observer

namespace Note

/-- The occasion of which a note tells an observer that announces it under an identifier. -/
def voice? (id : Uuid) : Note → Option Occasion
  | told o occasion _ => if o.speaksFor id then some occasion else none
  | stopped => none

/-- Of an occasion as many observers announce something as speak for the identifier. -/
theorem voices_tells (id : Uuid) (occasion : Occasion) (os : List Observer) :
    (tells occasion os).filterMap (voice? id) = List.replicate (os.countP (·.speaksFor id)) occasion := by
  induction os with
  | nil => rfl
  | cons o os ih =>
    show (told o occasion occasion.state :: tells occasion os).filterMap (voice? id) = _
    cases h : o.speaksFor id <;> simp [voice?, h, ih, List.replicate_succ]

/-- When one observer speaks for the identifier, each occasion is announced once in the end. -/
theorem voices_script {id : Uuid} {os : List Observer} (one : os.countP (·.speaksFor id) = 1) :
    (script os).filterMap (voice? id) = [.realized, .closing, .closed] := by
  have stop : stopped.voice? id = none := rfl
  simp only [script, parting, List.filterMap_append, List.filterMap_cons, voices_tells, one, stop]
  rfl

end Note

/-! ### What comes before -/

/-- Each entry of a list meets a condition on those before it. -/
def Before {α : Type} (P : List α → α → Prop) (l : List α) : Prop :=
  ∀ ⦃pre : List α⦄ ⦃a : α⦄ ⦃post : List α⦄, l = pre ++ a :: post → P pre a

namespace Before

variable {α : Type} {P Q : List α → α → Prop} {l : List α} {a : α}

theorem nil : Before P [] := fun _ _ _ h => by simp at h

theorem snoc (h : Before P l) (ha : P l a) : Before P (l ++ [a]) := by
  intro pre b post split
  rcases List.eq_nil_or_concat post with rfl | ⟨rest, c, rfl⟩
  · obtain ⟨rfl, last⟩ := List.append_inj' split rfl
    cases last
    exact ha
  · have split : l ++ [a] = pre ++ b :: rest ++ [c] := split.trans (by simp)
    exact h (List.append_inj' split rfl).1

/-- More entries that need not wait. -/
theorem append (h : Before P l) {more : List α} (any : ∀ a ∈ more, ∀ pre, P pre a) : Before P (l ++ more) := by
  induction more generalizing l with
  | nil => exact l.append_nil.symm ▸ h
  | cons a more ih =>
    rw [List.append_cons]
    exact ih (h.snoc (any a List.mem_cons_self l)) fun b hb => any b (List.mem_cons_of_mem a hb)

theorem imp (h : Before P l) (weaker : ∀ pre, ∀ a ∈ l, P pre a → Q pre a) : Before Q l := by
  rintro pre a post rfl
  exact weaker pre a (by simp) (h rfl)

end Before

/-- Nothing follows the last entry of a list of which some entries are there. -/
theorem eq_nil_of_last {α : Type} (ends : List α) {s t : List α} {a : α} (h : s ++ t <+: ends ++ [a])
    (last : a ∉ ends) (there : a ∈ s) : t = [] := by
  rcases List.prefix_concat_iff.mp h with all | early
  · rcases List.eq_nil_or_concat t with none | ⟨t, b, rfl⟩
    · exact none
    · rw [List.concat_eq_append, ← List.append_assoc] at all
      exact absurd ((List.append_inj' all rfl).1 ▸ List.mem_append_left t there) last
  · exact absurd (early.subset (List.mem_append_left t there)) last

end Muster
