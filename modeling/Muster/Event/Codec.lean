import Muster.Event.Basic
import Muster.Tree.Reading

/-!
# Events as value trees

* An event about a member or an assembly is a map with one entry, whose key names what happened and
  whose value is the record of its parts.
* An event of either kind has that entry beside one with the key `type`.
* `toTree` writes these forms, and `ofTree?` reads them.
-/

namespace Muster

/-- Reads an identifier. -/
def Uuid.ofTree? (t : Tree) : Option Uuid := (Readable.text? t).bind Uuid.ofText?

/-- Writes an identifier. -/
def Uuid.toTree (u : Uuid) : Tree := .text u.text

/-- Reads a point in time. -/
def Timestamp.ofTree? (t : Tree) : Option Timestamp := (Readable.text? t).bind Timestamp.ofText?

/-- Writes a point in time. -/
def Timestamp.toTree (t : Timestamp) : Tree := .text t.text

/-- Writes a natural number. -/
def Tree.nat (n : Nat) : Tree := .int n

/-- Writes an optional natural number. -/
def Tree.nat? (n : Option Nat) : Tree := n.elim .null .nat

/-- Reads a process number, which has 32 bits. -/
def Tree.pid? (t : Tree) : Option Nat :=
  (Readable.nat? t).bind fun n => if n < twoTo 32 then some n else none

/-- A map with one entry. -/
def Tree.tagged (tag : String) (parts : List (String × Tree)) : Tree := .record [(tag, .record parts)]

namespace MemberEvent

/-- The name of what happened, and the parts of its record. -/
def parts : MemberEvent → String × List (String × Tree)
  | realized a m n o p t =>
    ("MemberRealized", [("assembly_id", a.toTree), ("member_id", m.toTree), ("member", .text n),
      ("ordinal", .nat o), ("pid", .nat? p), ("realized_at", t.toTree)])
  | closing a m n t =>
    ("MemberClosing", [("assembly_id", a.toTree), ("member_id", m.toTree), ("member", .text n),
      ("closing_at", t.toTree)])
  | closed a m n t =>
    ("MemberClosed", [("assembly_id", a.toTree), ("member_id", m.toTree), ("member", .text n),
      ("closed_at", t.toTree)])

/-- Writes an event. -/
def toTree (e : MemberEvent) : Tree := .tagged e.parts.1 e.parts.2

/-- Reads the parts that all events about members have, with the time under its own name. -/
def readCommon (time : String) (make : Uuid → Uuid → String → Timestamp → MemberEvent) (t : Tree) :
    Option MemberEvent := do
  match ← Readable.record? [⟨"assembly_id", .required⟩, ⟨"member_id", .required⟩,
      ⟨"member", .required⟩, ⟨time, .required⟩] t with
  | [some a, some m, some n, some t] =>
    some (make (← Uuid.ofTree? a) (← Uuid.ofTree? m) (← Readable.text? n) (← Timestamp.ofTree? t))
  | _ => none

/-- Reads the record of the event with the given name. -/
def ofRecord? (tag : String) (t : Tree) : Option MemberEvent :=
  if tag = "MemberRealized" then do
    match ← Readable.record? [⟨"assembly_id", .required⟩, ⟨"member_id", .required⟩,
        ⟨"member", .required⟩, ⟨"ordinal", .required⟩, ⟨"pid", .optional⟩,
        ⟨"realized_at", .required⟩] t with
    | [some a, some m, some n, some o, p, some t] =>
      some (realized (← Uuid.ofTree? a) (← Uuid.ofTree? m) (← Readable.text? n) (← Readable.nat? o)
        (← readOptional Tree.pid? p) (← Timestamp.ofTree? t))
    | _ => none
  else if tag = "MemberClosing" then readCommon "closing_at" closing t
  else if tag = "MemberClosed" then readCommon "closed_at" closed t
  else none

/-- Reads an event. -/
def ofTree? (t : Tree) : Option MemberEvent :=
  match t.choice? with
  | some (tag, some t) => ofRecord? tag t
  | _ => none

end MemberEvent

namespace AssemblyEvent

/-- The name of what happened, and the parts of its record. -/
def parts : AssemblyEvent → String × List (String × Tree)
  | building a n t =>
    ("AssemblyBuilding", [("assembly_id", a.toTree), ("members", .nat n), ("started_at", t.toTree)])
  | stable a n v ms t =>
    ("AssemblyStable", [("assembly_id", a.toTree), ("members", .nat n), ("evaluations", .nat v),
      ("elapsed_ms", .nat ms), ("stable_at", t.toTree)])
  | degraded a r t =>
    ("AssemblyDegraded", [("assembly_id", a.toTree), ("reason", .text r), ("degraded_at", t.toTree)])
  | failed a r t =>
    ("AssemblyFailed", [("assembly_id", a.toTree), ("reason", .text r), ("failed_at", t.toTree)])
  | closed a t => ("AssemblyClosed", [("assembly_id", a.toTree), ("closed_at", t.toTree)])

/-- Writes an event. -/
def toTree (e : AssemblyEvent) : Tree := .tagged e.parts.1 e.parts.2

/-- Reads the record of an event that gives a reason, with the time under its own name. -/
def readReasoned (time : String) (make : Uuid → String → Timestamp → AssemblyEvent) (t : Tree) :
    Option AssemblyEvent := do
  match ← Readable.record? [⟨"assembly_id", .required⟩, ⟨"reason", .required⟩, ⟨time, .required⟩] t with
  | [some a, some r, some t] =>
    some (make (← Uuid.ofTree? a) (← Readable.text? r) (← Timestamp.ofTree? t))
  | _ => none

/-- Reads the record of the event with the given name. -/
def ofRecord? (tag : String) (t : Tree) : Option AssemblyEvent :=
  if tag = "AssemblyBuilding" then do
    match ← Readable.record? [⟨"assembly_id", .required⟩, ⟨"members", .required⟩,
        ⟨"started_at", .required⟩] t with
    | [some a, some n, some t] =>
      some (building (← Uuid.ofTree? a) (← Readable.nat? n) (← Timestamp.ofTree? t))
    | _ => none
  else if tag = "AssemblyStable" then do
    match ← Readable.record? [⟨"assembly_id", .required⟩, ⟨"members", .required⟩,
        ⟨"evaluations", .required⟩, ⟨"elapsed_ms", .required⟩, ⟨"stable_at", .required⟩] t with
    | [some a, some n, some v, some ms, some t] =>
      some (stable (← Uuid.ofTree? a) (← Readable.nat? n) (← Readable.nat? v) (← Readable.nat? ms)
        (← Timestamp.ofTree? t))
    | _ => none
  else if tag = "AssemblyDegraded" then readReasoned "degraded_at" degraded t
  else if tag = "AssemblyFailed" then readReasoned "failed_at" failed t
  else if tag = "AssemblyClosed" then do
    match ← Readable.record? [⟨"assembly_id", .required⟩, ⟨"closed_at", .required⟩] t with
    | [some a, some t] => some (closed (← Uuid.ofTree? a) (← Timestamp.ofTree? t))
    | _ => none
  else none

/-- Reads an event. -/
def ofTree? (t : Tree) : Option AssemblyEvent :=
  match t.choice? with
  | some (tag, some t) => ofRecord? tag t
  | _ => none

end AssemblyEvent

namespace Event

/-- Writes an event, its kind under the key `type`. -/
def toTree : Event → Tree
  | member e => .record [("type", .text "member"), (e.parts.1, .record e.parts.2)]
  | assembly e => .record [("type", .text "assembly"), (e.parts.1, .record e.parts.2)]

/-- Reads an event. Beside its kind there is exactly one entry, no part of which is flawed. -/
def ofTree? (t : Tree) : Option Event := do
  let entries ← Readable.table? t
  match entries.filter (·.1 = "type"), entries.filter (·.1 ≠ "type") with
  | [(_, .text kind)], [(tag, record)] =>
    let record ← Readable.content? record
    if kind = "member" then (MemberEvent.ofRecord? tag record).map member
    else if kind = "assembly" then (AssemblyEvent.ofRecord? tag record).map assembly
    else none
  | _, _ => none

end Event

end Muster
