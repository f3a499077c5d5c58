import Mathlib.Data.List.Nodup
import Muster.Event.Codec
import Muster.Proofs.Json.Text
import Muster.Proofs.Timestamp.Text
import Muster.Proofs.Tree.Carried
import Muster.Proofs.Uuid.Text

/-!
# Events, read back

* `Event.Proper`: numbers have as many bits as they may have, and times are proper.
* `MemberEvent.ofRecord?_parts`, `AssemblyEvent.ofRecord?_parts`: under the name of what happened, the record of
  an event is read as that event.
* `Event.ofTree?_record`: the kind of an event is told from the one entry beside it.
* `Event.ofTree?_toTree`, `Event.kept_toTree`: so an event is read back from its tree, and its text keeps the tree.
* **`Event.toJson_lossless`**: an event is read back as it was written, so no two events are written alike.
-/

namespace Muster

/-! ### What events hold -/

/-- Numbers have 64 bits, that of a process has 32, and the time is proper. -/
def MemberEvent.Proper : MemberEvent → Prop
  | realized _ _ _ o p t => o < Readable.limit ∧ (∀ n ∈ p, n < twoTo 32) ∧ t.Proper
  | closing _ _ _ t | closed _ _ _ t => t.Proper

/-- Numbers have 64 bits, and the time is proper. -/
def AssemblyEvent.Proper : AssemblyEvent → Prop
  | building _ n t => n < Readable.limit ∧ t.Proper
  | stable _ n v ms t => n < Readable.limit ∧ v < Readable.limit ∧ ms < Readable.limit ∧ t.Proper
  | degraded _ _ t | failed _ _ t | closed _ t => t.Proper

/-- The numbers and the time of an event are proper. -/
def Event.Proper : Event → Prop
  | member e => e.Proper
  | assembly e => e.Proper

/-! ### Parts -/

theorem Uuid.ofTree?_toTree (u : Uuid) : Uuid.ofTree? u.toTree = some u := by
  show (some u.text).bind Uuid.ofText? = some u
  rw [Option.bind_some, ofText?_text]

theorem Timestamp.ofTree?_toTree {t : Timestamp} (proper : t.Proper) : Timestamp.ofTree? t.toTree = some t := by
  show (some t.text).bind Timestamp.ofText? = some t
  rw [Option.bind_some, ofText?_text proper]

theorem Tree.text?_text (s : String) : Readable.text? (Tree.text s) = some s := rfl

theorem Tree.nat?_nat {n : Nat} (small : n < Readable.limit) : Readable.nat? (Tree.nat n) = some n :=
  (carries_int n).nat? small

/-- The number of a process is read as it was written, and so is its absence. -/
theorem Tree.readOptional_pid? {p : Option Nat} (small : ∀ n ∈ p, n < twoTo 32) :
    readOptional Tree.pid? (some (Tree.nat? p)) = some p := by
  cases p with
  | none => rfl
  | some n =>
    have fits : n < twoTo 32 := small n rfl
    have read : Tree.pid? (Tree.nat n) = some n := by
      unfold Tree.pid?
      rw [nat?_nat (Nat.lt_trans fits (by decide)), Option.bind_some, if_pos fits]
    show (Tree.pid? (Tree.nat n)).map some = some (some n)
    rw [read, Option.map_some]

/-- Texts keep natural numbers of 64 bits. -/
theorem Tree.kept_nat {n : Nat} (small : n < Readable.limit) {depth : Nat} : Json.Kept depth (Tree.nat n) :=
  .nat (Nat.le_pred_of_lt small)

/-! ### Members -/

namespace MemberEvent

/-- The parts that all events about members have are read under the name of their time. -/
theorem readCommon_parts {time : String} (other : time ∉ ["assembly_id", "member_id", "member"])
    (make : Uuid → Uuid → String → Timestamp → MemberEvent) (a m : Uuid) (n : String) {t : Timestamp}
    (proper : t.Proper) :
    readCommon time make (.record [("assembly_id", a.toTree), ("member_id", m.toTree), ("member", .text n),
      (time, t.toTree)]) = some (make a m n t) := by
  unfold readCommon
  rw [Tree.record?_complete]
  · simp only [List.map_cons, List.map_nil, Option.bind_eq_bind, Option.bind_some, Uuid.ofTree?_toTree,
      Tree.text?_text, Timestamp.ofTree?_toTree proper]
  · rfl
  · exact List.Nodup.concat other (by decide)

/-- **Members.** Under the name of what happened, the record of an event is read as that event. -/
theorem ofRecord?_parts {e : MemberEvent} (proper : e.Proper) :
    ofRecord? e.parts.1 (.record e.parts.2) = some e := by
  cases e with
  | realized a m n o p t =>
    obtain ⟨ordinal, pid, time⟩ := proper
    unfold ofRecord? parts
    dsimp only
    rw [if_pos rfl, Tree.record?_complete rfl (by decide)]
    simp only [List.map_cons, List.map_nil, Option.bind_eq_bind, Option.bind_some, Uuid.ofTree?_toTree,
      Tree.text?_text, Tree.nat?_nat ordinal, Tree.readOptional_pid? pid, Timestamp.ofTree?_toTree time]
  | closing a m n t =>
    unfold ofRecord? parts
    dsimp only
    rw [if_neg (by decide), if_pos rfl]
    exact readCommon_parts (by decide) closing a m n proper
  | closed a m n t =>
    unfold ofRecord? parts
    dsimp only
    rw [if_neg (by decide), if_neg (by decide), if_pos rfl]
    exact readCommon_parts (by decide) closed a m n proper

/-- An event about a member is read back as it was written. -/
theorem ofTree?_toTree {e : MemberEvent} (proper : e.Proper) : ofTree? e.toTree = some e :=
  ofRecord?_parts proper

/-- No part of an event is flawed. -/
theorem sound_parts (e : MemberEvent) : (Tree.record e.parts.2).sound = true := by
  cases e with
  | realized a m n o p t => cases p <;> rfl
  | closing | closed => rfl

/-- Texts keep every part of an event. -/
theorem kept_parts {e : MemberEvent} (proper : e.Proper) : ∀ p ∈ e.parts.2, Json.Kept 3 p.2 := by
  cases e with
  | realized a m n o p t =>
    obtain ⟨ordinal, small, -⟩ := proper
    have pid : Json.Kept 3 (Tree.nat? p) := by
      cases p with
      | none => exact .null
      | some p => exact Tree.kept_nat (Nat.lt_trans (small p rfl) (by decide))
    simp only [parts, List.forall_mem_cons, List.not_mem_nil, false_implies, implies_true, and_true]
    exact ⟨.text _, .text _, .text _, Tree.kept_nat ordinal, pid, .text _⟩
  | closing a m n t | closed a m n t =>
    simp only [parts, List.forall_mem_cons, List.not_mem_nil, false_implies, implies_true, and_true]
    exact ⟨.text _, .text _, .text _, .text _⟩

/-- What happened is not mistaken for the kind of an event. -/
theorem parts_ne_type (e : MemberEvent) : e.parts.1 ≠ "type" := by
  cases e <;> simp [parts]

end MemberEvent

/-! ### Assemblies -/

namespace AssemblyEvent

/-- The parts of the events that give a reason are read under the name of their time. -/
theorem readReasoned_parts {time : String} (other : time ∉ ["assembly_id", "reason"])
    (make : Uuid → String → Timestamp → AssemblyEvent) (a : Uuid) (r : String) {t : Timestamp}
    (proper : t.Proper) :
    readReasoned time make (.record [("assembly_id", a.toTree), ("reason", .text r), (time, t.toTree)]) =
      some (make a r t) := by
  unfold readReasoned
  rw [Tree.record?_complete]
  · simp only [List.map_cons, List.map_nil, Option.bind_eq_bind, Option.bind_some, Uuid.ofTree?_toTree,
      Tree.text?_text, Timestamp.ofTree?_toTree proper]
  · rfl
  · exact List.Nodup.concat other (by decide)

/-- **Assemblies.** Under the name of what happened, the record of an event is read as that event. -/
theorem ofRecord?_parts {e : AssemblyEvent} (proper : e.Proper) :
    ofRecord? e.parts.1 (.record e.parts.2) = some e := by
  cases e with
  | building a n t =>
    obtain ⟨members, time⟩ := proper
    unfold ofRecord? parts
    dsimp only
    rw [if_pos rfl, Tree.record?_complete rfl (by decide)]
    simp only [List.map_cons, List.map_nil, Option.bind_eq_bind, Option.bind_some, Uuid.ofTree?_toTree,
      Tree.nat?_nat members, Timestamp.ofTree?_toTree time]
  | stable a n v ms t =>
    obtain ⟨members, evaluations, elapsed, time⟩ := proper
    unfold ofRecord? parts
    dsimp only
    rw [if_neg (by decide), if_pos rfl, Tree.record?_complete rfl (by decide)]
    simp only [List.map_cons, List.map_nil, Option.bind_eq_bind, Option.bind_some, Uuid.ofTree?_toTree,
      Tree.nat?_nat members, Tree.nat?_nat evaluations, Tree.nat?_nat elapsed, Timestamp.ofTree?_toTree time]
  | degraded a r t =>
    unfold ofRecord? parts
    dsimp only
    rw [if_neg (by decide), if_neg (by decide), if_pos rfl]
    exact readReasoned_parts (by decide) degraded a r proper
  | failed a r t =>
    unfold ofRecord? parts
    dsimp only
    rw [if_neg (by decide), if_neg (by decide), if_neg (by decide), if_pos rfl]
    exact readReasoned_parts (by decide) failed a r proper
  | closed a t =>
    unfold ofRecord? parts
    dsimp only
    rw [if_neg (by decide), if_neg (by decide), if_neg (by decide), if_neg (by decide), if_pos rfl,
      Tree.record?_complete rfl (by decide)]
    simp only [List.map_cons, List.map_nil, Option.bind_eq_bind, Option.bind_some, Uuid.ofTree?_toTree,
      Timestamp.ofTree?_toTree (show t.Proper from proper)]

/-- An event about an assembly is read back as it was written. -/
theorem ofTree?_toTree {e : AssemblyEvent} (proper : e.Proper) : ofTree? e.toTree = some e :=
  ofRecord?_parts proper

/-- No part of an event is flawed. -/
theorem sound_parts (e : AssemblyEvent) : (Tree.record e.parts.2).sound = true := by
  cases e <;> rfl

/-- Texts keep every part of an event. -/
theorem kept_parts {e : AssemblyEvent} (proper : e.Proper) : ∀ p ∈ e.parts.2, Json.Kept 3 p.2 := by
  cases e with
  | building a n t =>
    obtain ⟨members, -⟩ := proper
    simp only [parts, List.forall_mem_cons, List.not_mem_nil, false_implies, implies_true, and_true]
    exact ⟨.text _, Tree.kept_nat members, .text _⟩
  | stable a n v ms t =>
    obtain ⟨members, evaluations, elapsed, -⟩ := proper
    simp only [parts, List.forall_mem_cons, List.not_mem_nil, false_implies, implies_true, and_true]
    exact ⟨.text _, Tree.kept_nat members, Tree.kept_nat evaluations, Tree.kept_nat elapsed, .text _⟩
  | degraded a r t | failed a r t =>
    simp only [parts, List.forall_mem_cons, List.not_mem_nil, false_implies, implies_true, and_true]
    exact ⟨.text _, .text _, .text _⟩
  | closed a t =>
    simp only [parts, List.forall_mem_cons, List.not_mem_nil, false_implies, implies_true, and_true]
    exact ⟨.text _, .text _⟩

/-- What happened is not mistaken for the kind of an event. -/
theorem parts_ne_type (e : AssemblyEvent) : e.parts.1 ≠ "type" := by
  cases e <;> simp [parts]

end AssemblyEvent

/-! ### Events -/

namespace Event

/-- The kind of an event is told from the one entry beside it. -/
theorem ofTree?_record {kind tag : String} {parts : List (String × Tree)} (other : tag ≠ "type")
    (sound : (Tree.record parts).sound = true) :
    ofTree? (.record [("type", .text kind), (tag, .record parts)]) =
      if kind = "member" then (MemberEvent.ofRecord? tag (.record parts)).map member
      else if kind = "assembly" then (AssemblyEvent.ofRecord? tag (.record parts)).map assembly
      else none := by
  have table : Readable.table? (Tree.record [("type", .text kind), (tag, .record parts)]) =
      some [("type", .text kind), (tag, .record parts)] := Tree.entries?_record _
  have whole : Readable.content? (Tree.record parts) = some (Tree.record parts) := if_pos sound
  unfold ofTree?
  rw [table]
  simp [other, whole]

/-- The JSON text of an event. -/
def toJson (e : Event) : String := Json.write e.toTree

/-- Reads an event from its JSON text. -/
def ofJson? (s : String) : Option Event := (Json.parse? s).bind ofTree?

variable {e : Event}

theorem ofTree?_toTree (proper : e.Proper) : ofTree? e.toTree = some e := by
  cases e with
  | member e =>
    unfold toTree
    rw [ofTree?_record e.parts_ne_type e.sound_parts, if_pos rfl, MemberEvent.ofRecord?_parts proper,
      Option.map_some]
  | assembly e =>
    unfold toTree
    rw [ofTree?_record e.parts_ne_type e.sound_parts, if_neg (by decide), if_pos rfl,
      AssemblyEvent.ofRecord?_parts proper, Option.map_some]

/-- Texts keep events. -/
theorem kept_toTree (proper : e.Proper) : Json.Kept 1 e.toTree := by
  have both {kind tag : String} {parts : List (String × Tree)} (kept : ∀ p ∈ parts, Json.Kept 3 p.2) :
      Json.Kept 1 (.record [("type", .text kind), (tag, .record parts)]) := by
    refine .record (by decide) fun p hp => ?_
    rcases List.mem_pair.mp hp with rfl | rfl
    · exact .text kind
    · exact .record (by decide) kept
  cases e with
  | member e => exact both (e.kept_parts proper)
  | assembly e => exact both (e.kept_parts proper)

theorem ofJson?_toJson (proper : e.Proper) : ofJson? e.toJson = some e := by
  unfold ofJson? toJson
  rw [Json.parse?_write (kept_toTree proper), Option.bind_some, ofTree?_toTree proper]

end Event

/-- **Events.** An event is read back as it was written, as a tree and as a text, with its assembly and its
member; so no two events are written alike. -/
theorem Event.toJson_lossless (e : Event) (proper : e.Proper) :
    ofTree? e.toTree = some e ∧
    ofJson? e.toJson = some e ∧
    (ofJson? e.toJson).map assemblyId = some e.assemblyId ∧
    (ofJson? e.toJson).map memberName? = some e.memberName? ∧
    ∀ d : Event, d.Proper → d.toJson = e.toJson → d = e := by
  have read := ofJson?_toJson proper
  refine ⟨ofTree?_toTree proper, read, by rw [read, Option.map_some], by rw [read, Option.map_some],
    fun d hd same => ?_⟩
  have other := ofJson?_toJson hd
  rw [same, read] at other
  exact (Option.some.inj other).symm

namespace Event

/-- A member that runs since a leap second. -/
def realizedSample : Event :=
  member (.realized (.ofNat 7) (.ofNat (twoTo 127)) "storage-1" 0 (some 4711) ⟨1483228799, 1500000000⟩)

/-- An assembly that is stable. -/
def stableSample : Event := assembly (.stable (.ofNat 7) 3 2 150 ⟨-62167219200, 0⟩)

theorem realizedSample_proper : realizedSample.Proper := by
  refine ⟨by decide, fun n hn => ?_, by decide, by decide, by decide⟩
  cases hn
  decide

theorem stableSample_proper : stableSample.Proper :=
  ⟨by decide, by decide, by decide, by decide, by decide, by decide⟩

/-- The news of the member and those of the assembly are read back, and are not written alike. -/
theorem toJson_lossless_realized :
    ofJson? realizedSample.toJson = some realizedSample ∧ stableSample.toJson ≠ realizedSample.toJson := by
  obtain ⟨-, read, -, -, alone⟩ := toJson_lossless realizedSample realizedSample_proper
  exact ⟨read, fun same => absurd (alone stableSample stableSample_proper same) (by decide)⟩

end Event

end Muster
