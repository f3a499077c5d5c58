import Muster.Assembly.Error
import Muster.Event.Codec

/-!
# Members and what is known of them as value trees

* `toTree` writes states, occasions, failures, sightings and environments, and `ofTree?` reads them.
-/

namespace Muster

namespace MemberState

/-- Writes a state. -/
def toTree (s : MemberState) : Tree := .text s.word

/-- Reads a state. -/
def ofTree? : Tree → Option MemberState := Tree.constant? ofWord?

end MemberState

namespace Occasion

/-- Writes an occasion. -/
def toTree (o : Occasion) : Tree := .text o.word

/-- Reads an occasion. -/
def ofTree? : Tree → Option Occasion := Tree.constant? ofWord?

end Occasion

namespace AssemblyState

/-- Writes a state. -/
def toTree (s : AssemblyState) : Tree := .text s.word

/-- Reads a state. -/
def ofTree? : Tree → Option AssemblyState := Tree.constant? ofWord?

end AssemblyState

namespace ObserverFailure

/-- Writes a failure. -/
def toTree (f : ObserverFailure) : Tree :=
  .record [("interceptor", .text f.observer), ("member", .text f.member),
    ("event", f.occasion.toTree), ("message", .text f.detail)]

/-- Reads a failure. -/
def ofTree? (t : Tree) : Option ObserverFailure := do
  match ← Readable.record? [⟨"interceptor", .required⟩, ⟨"member", .required⟩, ⟨"event", .required⟩,
      ⟨"message", .required⟩] t with
  | [some i, some m, some o, some d] =>
    some ⟨← Readable.text? i, ← Readable.text? m, ← Occasion.ofTree? o, ← Readable.text? d⟩
  | _ => none

end ObserverFailure

namespace Sighting

/-- Writes a sighting. -/
def toTree (s : Sighting) : Tree :=
  .record [("id", s.id.toTree), ("name", .text s.name), ("ordinal", .nat s.ordinal),
    ("state", s.state.toTree), ("pid", .nat? s.pid)]

/-- Reads a sighting. -/
def ofTree? (t : Tree) : Option Sighting := do
  match ← Readable.record? [⟨"id", .required⟩, ⟨"name", .required⟩, ⟨"ordinal", .required⟩,
      ⟨"state", .required⟩, ⟨"pid", .optional⟩] t with
  | [some i, some n, some o, some s, p] =>
    some ⟨← Uuid.ofTree? i, ← Readable.text? n, ← Readable.nat? o, ← MemberState.ofTree? s,
      ← readOptional Tree.pid? p⟩
  | _ => none

end Sighting

namespace Environment

/-- Writes an environment as a list of pairs. -/
def toTree (e : Environment) : Tree :=
  .list (e.pairs.map fun p => .list [.text p.1, .text p.2])

/-- Reads a pair of texts. -/
def pairOfTree? (t : Tree) : Option (String × String) := do
  match ← Readable.list? t with
  | [a, b] => some (← Readable.text? a, ← Readable.text? b)
  | _ => none

/-- Reads an environment. -/
def ofTree? (t : Tree) : Option Environment := do
  some ⟨← (← Readable.list? t).mapM pairOfTree?⟩

end Environment

end Muster
