import Muster.Event.Basic

/-!
# Channels of events

* `Channel`: what was announced, of which only the last `capacity` events are kept.
* `Receiver`: a place in a channel, and the assembly it listens to.
* `Receiver.receive`: the next event, or why there is none; a receiver that fell behind learns once how
  many events it missed, and goes on with the oldest that is kept.
-/

namespace Muster

/-- Why there is no event. -/
inductive ChannelError where
  /-- Nobody can announce anything any more, and everything kept was received. -/
  | closed
  /-- Everything announced so far was received. -/
  | empty
  /-- The receiver fell behind; so many events are lost to it. -/
  | lagged (missed : Nat)
deriving DecidableEq, Repr

namespace ChannelError

/-- The wording of an error. -/
def message : ChannelError → String
  | closed => "Event bus is closed"
  | empty => "No events available"
  | lagged n => "Receiver lagged by " ++ toString n ++ " events (events were dropped)"

end ChannelError

/-- A channel of events. -/
structure Channel where
  /-- How many events are kept. -/
  capacity : Nat
  /-- Everything announced so far, oldest first. -/
  log : Array Event := #[]

/-- The least power of two that is not below a number. -/
def powerOfTwoFrom (n : Nat) : Nat := go n 1 n
where
  /-- Doubles `p` until it reaches `n`. -/
  go (n p : Nat) : Nat → Nat
    | 0 => p
    | fuel + 1 => if n ≤ p then p else go n (2 * p) fuel

/-- A place in a channel. -/
structure Receiver where
  /-- The number of the channel. -/
  channel : Nat
  /-- The place of the next event in the channel's log. -/
  next : Nat
  /-- The assembly whose events are let through, or all events. -/
  assembly? : Option Uuid := none
deriving DecidableEq, Repr

namespace Channel

/-- How many events a channel keeps when nothing else is asked for. -/
def defaultCapacity : Nat := 1000

/-- The capacity from which on there is no channel. -/
def capacityLimit : Nat := twoTo 63

/-- A channel that keeps at least so many events; there is none that keeps no event, and none beyond
the limit. -/
def ofCapacity? (n : Nat) : Option Channel :=
  if n = 0 ∨ capacityLimit ≤ n then none else some { capacity := powerOfTwoFrom n }

/-- Announces an event. -/
def publish (c : Channel) (e : Event) : Channel := { c with log := c.log.push e }

/-- The place behind the last event. -/
def tail (c : Channel) : Nat := c.log.size

/-- The place of the oldest event that is kept. -/
def head (c : Channel) : Nat := c.tail - c.capacity

/-- A receiver of everything announced from now on. -/
def subscribe (c : Channel) (number : Nat) (assembly? : Option Uuid) : Receiver :=
  ⟨number, c.tail, assembly?⟩

end Channel

namespace Receiver

/-- Whether the receiver lets an event through. -/
def accepts (r : Receiver) (e : Event) : Bool := r.assembly?.all (e.assemblyId = ·)

/-- The next event of a channel whatever its assembly; `isOpen` tells whether anyone can still announce
something. -/
def step (r : Receiver) (c : Channel) (isOpen : Bool) : Except ChannelError Event × Receiver :=
  if r.next < c.head then (.error (.lagged (c.head - r.next)), { r with next := c.head })
  else match c.log[r.next]? with
    | some e => (.ok e, { r with next := r.next + 1 })
    | none => (.error (if isOpen then .empty else .closed), r)

/-- The next event that the receiver lets through. Events passed over stay passed over. -/
def receive (r : Receiver) (c : Channel) (isOpen : Bool) : Except ChannelError Event × Receiver :=
  go r (c.tail - r.next)
where
  /-- Takes at most `n` steps over events that are not let through. -/
  go (r : Receiver) : Nat → Except ChannelError Event × Receiver
    | 0 => r.step c isOpen
    | n + 1 =>
      match r.step c isOpen with
      | (.ok e, r) => if r.accepts e then (.ok e, r) else go r n
      | (.error e, r) => (.error e, r)

/-- Receives a number of times. -/
def receiveTimes (r : Receiver) (c : Channel) (isOpen : Bool) :
    Nat → List (Except ChannelError Event) × Receiver
  | 0 => ([], r)
  | n + 1 =>
    let (answer, r) := r.receive c isOpen
    let (answers, r) := r.receiveTimes c isOpen n
    (answer :: answers, r)

/-- Receives until there is no event. -/
def drain (r : Receiver) (c : Channel) (isOpen : Bool) :
    List (Except ChannelError Event) × Receiver :=
  go r (c.tail - r.next)
where
  /-- Receives at most `n` events and whatever comes then. -/
  go (r : Receiver) : Nat → List (Except ChannelError Event) × Receiver
    | 0 =>
      let (answer, r) := r.receive c isOpen
      ([answer], r)
    | n + 1 =>
      match r.receive c isOpen with
      | (.ok e, r) =>
        let (answers, r) := go r n
        (.ok e :: answers, r)
      | (.error e, r) => ([.error e], r)

end Receiver

end Muster
