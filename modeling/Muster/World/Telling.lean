import Muster.World.Basic

/-!
# Telling observers

* `World.tell`: goes on with telling the observers of a member of an occasion: either the next one is
  told, or the one that was told responds.
* A failure is noted and stops nothing; an observer that dies takes down whoever tells it.
-/

namespace Muster

/-- What goes on after a step of telling observers. -/
inductive Told where
  /-- The round goes on, or is over when no observer is left. -/
  | on (round : Round)
  /-- An observer took the round down. -/
  | dead (message : String)

namespace Round

/-- Whether all observers have responded. -/
def done (r : Round) : Bool := r.left.isEmpty

end Round

namespace World

/-- A round that tells all observers of a member of an occasion. -/
def round (w : World) (occasion : Occasion) (member : Nat) (failures : List ObserverFailure) : Round :=
  { occasion, member, left := (w.members[member]?.map (·.observers)).getD [], failures }

/-- The event that announces an occasion in the life of a member. -/
def memberEvent (w : World) (assembly : Uuid) (occasion : Occasion) (m : Member) : MemberEvent :=
  let name := m.spec.name
  match occasion with
  | .realized =>
    .realized assembly m.id name m.spec.ordinal m.process.pid { w with now := m.since }.time
  | .closing => .closing assembly m.id name w.time
  | .closed => .closed assembly m.id name w.time

/-- An observer leaves behind what it leaves of what it is told. -/
def leaveTrail (w : World) (o : Observer) (occasion : Occasion) (m : Member) : World :=
  match o.trail with
  | .silent | .records => w
  | .journals =>
    w.note (.noted (":".intercalate [o.name, occasion.word, m.spec.name, m.state.word]))
  | .announces channel assembly => w.announce channel (.member (w.memberEvent assembly occasion m))

/-- An observer responds. -/
def respond (w : World) (r : Round) (o : Observer) (rest : List Observer) (seat : Seat) :
    World × Told :=
  match (o.reaction r.occasion seat).response with
  | .fine => (w, .on { r with left := rest, due? := none })
  | .fails causes =>
    let failure : ObserverFailure := ⟨o.name, seat.name, r.occasion, causes.line⟩
    (w.log .warn ("Lifecycle interceptor failed: " ++ causes.line),
      .on { r with left := rest, due? := none, failures := r.failures ++ [failure] })
  | .dies message => (w, .dead message)

/-- Tells the next observer, or lets the one that was told respond. -/
def tell (w : World) (r : Round) : World × Told :=
  match r.left, w.members[r.member]? with
  | o :: rest, some m =>
    let seat := m.spec.seat
    match r.due? with
    | some _ => w.respond r o rest seat
    | none =>
      let w := (w.note (.told o.id r.occasion r.member m.state)).leaveTrail o r.occasion m
      match (o.reaction r.occasion seat).delay with
      | 0 => w.respond r o rest seat
      | delay + 1 => (w, .on { r with due? := some (w.now + delay + 1) })
  | _, _ => (w, .on { r with left := [] })

end World

end Muster
