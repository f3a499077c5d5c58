import Muster.Session.Basic
import Muster.World.Holding

/-!
# Channels in a session

* `Session.openChannels`: the channels on which someone may still announce something: through a value
  that has a name, or through something that is going on.
* `Session.openChannel`, `Session.subscribe`, `Session.announce`: make channels and receivers, and
  announce events.
* `Session.receiveTimes`, `Session.drain`: receive events.
-/

namespace Muster

namespace Session

/-- The channels on which someone may still announce something. -/
def openChannels (s : Session) : List Nat :=
  let w := s.schedule.world
  s.channels.toList ++ Observer.channels s.observers.toList ++
    s.builders.toList.flatMap Schema.channels ++ s.schemas.toList.flatMap Schema.channels ++
    s.drafts.toList.flatMap Draft.channels ++ s.plans.toList.flatMap Plan.channels ++
    s.members.toList.flatMap w.memberChannels ++ s.assemblies.toList.flatMap w.assemblyChannels ++
    w.channelsInUse

/-- How many receivers a channel has. -/
def subscribers (channel : Nat) : Act Nat :=
  return (← get).receivers.toList.countP fun r => r.channel = channel

/-- Makes a channel; there is none that keeps no event. -/
def openChannel (name : String) (capacity : Nat) : Act (Option Nat) := do
  match Channel.ofCapacity? capacity with
  | none => return none
  | some c =>
    let i ← doing fun w => (w.channels.size, { w with channels := w.channels.push c })
    return some (← Place.channels.put name i)

/-- Makes a receiver of what is announced from now on, of one assembly or of all. -/
def subscribe (channel receiver : String) (assembly? : Option Uuid) : Act Nat := do
  let i ← Place.channels.find channel
  let c ← there (← world).channels[i]?
  let _ ← Place.receivers.put receiver (c.subscribe i assembly?)
  return i

/-- Announces events in order. -/
def announce (channel : String) (events : List Event) : Act Nat := do
  let i ← Place.channels.find channel
  doing fun w => (i, events.foldl (fun w e => w.announce i e) w)

/-- Does something with a receiver, its channel, and whether that is still open. -/
def receiving {α : Type} (name : String) (f : Receiver → Channel → Bool → α × Receiver) : Act α := do
  let r ← Place.receivers.find name
  let c ← there (← world).channels[r.channel]?
  let (a, r) := f r c ((← get).openChannels.contains r.channel)
  let _ ← Place.receivers.put name r
  return a

/-- Receives a number of times. -/
def receiveTimes (name : String) (n : Nat) : Act (List (Except ChannelError Event)) :=
  receiving name fun r c isOpen => r.receiveTimes c isOpen n

/-- Receives until there is no event. -/
def drain (name : String) : Act (List (Except ChannelError Event)) :=
  receiving name fun r c isOpen => r.drain c isOpen

end Session

end Muster
