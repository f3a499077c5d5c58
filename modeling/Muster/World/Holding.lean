import Muster.World.Basic

/-!
# Who may still announce something

* `World.channelsInUse`: the channels on which something that is going on may still announce events.
* A channel on which nobody can announce anything any more is closed for its receivers.
-/

namespace Muster

/-- The channels on which observers announce. -/
def Observer.channels (l : List Observer) : List Nat :=
  l.filterMap fun o => match o.trail with
    | .announces channel _ => some channel
    | _ => none

/-- The channels of the observers of a schema. -/
def Schema.channels (s : Schema) : List Nat := Observer.channels s.observers

/-- The channels of the observers in a plan. -/
def Plan.channels (p : Plan) : List Nat :=
  Observer.channels p.observers ++ p.members.flatMap fun m => m.schema.channels

/-- The channels of the observers of an assembly under construction. -/
def Draft.channels (d : Draft) : List Nat :=
  Observer.channels d.observers ++ d.groups.flatMap fun g => g.schema.channels

/-- The channels of the observers of a member. -/
def Member.channels (m : Member) : List Nat := Observer.channels m.observers ++ m.spec.schema.channels

/-- The channels of an assembly. -/
def Assembly.channels (a : Assembly) : List Nat := a.channel?.toList

namespace World

/-- The channels of the member at a place. -/
def memberChannels (w : World) (i : Nat) : List Nat := (w.members[i]?.map Member.channels).getD []

/-- The channels of the assembly at a place and of its members. -/
def assemblyChannels (w : World) (i : Nat) : List Nat :=
  match w.assemblies[i]? with
  | some a => a.channels ++ a.members.flatMap w.memberChannels
  | none => []

/-- The channels of a launch: of the observers until it has settled, and then of the member. -/
def launchChannels (w : World) (l : Launch) : List Nat :=
  match l.phase with
  | .settled (.realized m _) => w.memberChannels m
  | .settled _ => []
  | _ => Observer.channels l.observers ++ l.spec.schema.channels

/-- The channels of a run: those of its pending launches, and its own until it has ended. -/
def runChannels (w : World) (run : Run) : List Nat :=
  let own := match run.phase with
    | .finished _ => []
    | _ => run.channel?.toList
  own ++ run.pending.flatMap fun i => (w.launches[i]?.map w.launchChannels).getD []

/-- The channels of a call that closes a member. -/
def closingChannels (w : World) (c : Closing) : List Nat :=
  match c.phase with
  | .finished _ | .dead => []
  | _ => w.memberChannels c.member

/-- The channels of a call that closes an assembly. -/
def dissolutionChannels (w : World) (d : Dissolution) : List Nat :=
  match d.phase with
  | .finished _ => []
  | _ => w.assemblyChannels d.assembly

/-- The channels on which something that is going on may still announce events. -/
def channelsInUse (w : World) : List Nat :=
  w.runs.toList.flatMap w.runChannels ++ w.closings.toList.flatMap w.closingChannels ++
    w.dissolutions.toList.flatMap w.dissolutionChannels

end World

end Muster
