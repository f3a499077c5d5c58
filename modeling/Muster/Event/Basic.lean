import Muster.Timestamp
import Muster.Uuid

/-!
# Events in the life of assemblies

* `MemberEvent`, `AssemblyEvent`: what is announced about one member, or about an assembly as a whole.
* `Event`: either of them; every event names the assembly it belongs to.
-/

namespace Muster

/-- What is announced about a member. -/
inductive MemberEvent where
  /-- The member runs. -/
  | realized (assembly member : Uuid) (name : String) (ordinal : Nat) (pid : Option Nat)
      (time : Timestamp)
  /-- The member is about to be stopped. -/
  | closing (assembly member : Uuid) (name : String) (time : Timestamp)
  /-- The member was stopped. -/
  | closed (assembly member : Uuid) (name : String) (time : Timestamp)
deriving DecidableEq, Repr

namespace MemberEvent

/-- The assembly that an event belongs to. -/
def assembly : MemberEvent → Uuid
  | realized a _ _ _ _ _ | closing a _ _ _ | closed a _ _ _ => a

/-- The name of the member. -/
def name : MemberEvent → String
  | realized _ _ n _ _ _ | closing _ _ n _ | closed _ _ n _ => n

end MemberEvent

/-- What is announced about an assembly. -/
inductive AssemblyEvent where
  /-- Its members are about to be launched. -/
  | building (assembly : Uuid) (members : Nat) (time : Timestamp)
  /-- All its members run and it is stable. -/
  | stable (assembly : Uuid) (members evaluations elapsedMs : Nat) (time : Timestamp)
  /-- It was not stable in time. -/
  | degraded (assembly : Uuid) (reason : String) (time : Timestamp)
  /-- It could not be built. -/
  | failed (assembly : Uuid) (reason : String) (time : Timestamp)
  /-- It was closed. -/
  | closed (assembly : Uuid) (time : Timestamp)
deriving DecidableEq, Repr

namespace AssemblyEvent

/-- The assembly that an event belongs to. -/
def assembly : AssemblyEvent → Uuid
  | building a _ _ | stable a _ _ _ _ | degraded a _ _ | failed a _ _ | closed a _ => a

end AssemblyEvent

/-- What is announced. -/
inductive Event where
  /-- About a member. -/
  | member (e : MemberEvent)
  /-- About an assembly. -/
  | assembly (e : AssemblyEvent)
deriving DecidableEq, Repr

namespace Event

/-- The assembly that an event belongs to. -/
def assemblyId : Event → Uuid
  | member e => e.assembly
  | assembly e => e.assembly

/-- The name of the member, for an event about one. -/
def memberName? : Event → Option String
  | member e => some e.name
  | assembly _ => none

end Event

end Muster
