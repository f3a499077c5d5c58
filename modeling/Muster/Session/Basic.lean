import Muster.Manifest.Basic
import Muster.Schedule.Calls
import Muster.Session.Shelf
import Muster.World.Trace

/-!
# Sessions

* `Session`: a schedule, and the values that were named so far, a shelf for each kind of value.
* `Act`: something done in a session; it fails when nothing stands under a name that it asks for.
* `Place`: one shelf of a session.
-/

namespace Muster

/-- Values under names, and the schedule in which they are used. Parts of the world stand under their
places in it. -/
structure Session where
  /-- Registries of options. -/
  registries : Shelf Options := {}
  /-- Value generators. -/
  generators : Shelf Generator := {}
  /-- Sources of values. -/
  sources : Shelf Source := {}
  /-- Observers. -/
  observers : Shelf Observer := {}
  /-- Schemas under construction. -/
  builders : Shelf Schema := {}
  /-- Finished schemas. -/
  schemas : Shelf Schema := {}
  /-- Assemblies under construction. -/
  drafts : Shelf Draft := {}
  /-- Plans. -/
  plans : Shelf Plan := {}
  /-- Manifests. -/
  manifests : Shelf Manifest := {}
  /-- Predicates. -/
  predicates : Shelf Predicate := {}
  /-- Platforms. -/
  platforms : Shelf Nat := {}
  /-- Channels. -/
  channels : Shelf Nat := {}
  /-- Receivers. -/
  receivers : Shelf Receiver := {}
  /-- Members. -/
  members : Shelf Nat := {}
  /-- Assemblies. -/
  assemblies : Shelf Nat := {}
  /-- Tasks that go on behind. -/
  tasks : Shelf Task := {}
  /-- The sequences from which values are drawn. -/
  sequences : Sequences := {}
  /-- The world, and what goes on in it. -/
  schedule : Schedule := {}
  /-- How many defaults of counted options were made. -/
  counted : Nat := 0
  /-- How many observers and predicates were made. -/
  identities : Nat := 0
  /-- How much of the trace the journal was read of. -/
  journalRead : Nat := 0
  /-- The assemblies of runs, in the order in which they were first mentioned. -/
  mentioned : List Uuid := []
deriving Inhabited

/-- Nothing stands under a name. -/
structure Missing where
  /-- The name. -/
  name : String
deriving DecidableEq, Repr

/-- Something done in a session. -/
abbrev Act := ExceptT Missing (StateM Session)

/-- A shelf of a session. -/
structure Place (α : Type) where
  /-- Takes the shelf out of a session. -/
  get : Session → Shelf α
  /-- Puts the shelf into a session. -/
  set : Session → Shelf α → Session

namespace Place

variable {α : Type}

/-- The value under a name. -/
def find (p : Place α) (name : String) : Act α := do
  match (p.get (← MonadState.get)).get? name with
  | some a => pure a
  | none => throw ⟨name⟩

/-- Puts a value under a name. -/
def put (p : Place α) (name : String) (a : α) : Act α := do
  modify fun s => p.set s ((p.get s).put name a)
  pure a

/-- Changes the value under a name. -/
def change (p : Place α) (name : String) (f : α → α) : Act α := do
  p.put name (f (← p.find name))

/-- Takes away the value under a name. -/
def erase (p : Place α) (name : String) : Act Unit :=
  modify fun s => p.set s ((p.get s).erase name)

/-- The registries of options. -/
def registries : Place Options := ⟨(·.registries), fun s x => { s with registries := x }⟩

/-- The value generators. -/
def generators : Place Generator := ⟨(·.generators), fun s x => { s with generators := x }⟩

/-- The sources of values. -/
def sources : Place Source := ⟨(·.sources), fun s x => { s with sources := x }⟩

/-- The observers. -/
def observers : Place Observer := ⟨(·.observers), fun s x => { s with observers := x }⟩

/-- The schemas under construction. -/
def builders : Place Schema := ⟨(·.builders), fun s x => { s with builders := x }⟩

/-- The finished schemas. -/
def schemas : Place Schema := ⟨(·.schemas), fun s x => { s with schemas := x }⟩

/-- The assemblies under construction. -/
def drafts : Place Draft := ⟨(·.drafts), fun s x => { s with drafts := x }⟩

/-- The plans. -/
def plans : Place Plan := ⟨(·.plans), fun s x => { s with plans := x }⟩

/-- The manifests. -/
def manifests : Place Manifest := ⟨(·.manifests), fun s x => { s with manifests := x }⟩

/-- The predicates. -/
def predicates : Place Predicate := ⟨(·.predicates), fun s x => { s with predicates := x }⟩

/-- The platforms. -/
def platforms : Place Nat := ⟨(·.platforms), fun s x => { s with platforms := x }⟩

/-- The channels. -/
def channels : Place Nat := ⟨(·.channels), fun s x => { s with channels := x }⟩

/-- The receivers. -/
def receivers : Place Receiver := ⟨(·.receivers), fun s x => { s with receivers := x }⟩

/-- The members. -/
def members : Place Nat := ⟨(·.members), fun s x => { s with members := x }⟩

/-- The assemblies. -/
def assemblies : Place Nat := ⟨(·.assemblies), fun s x => { s with assemblies := x }⟩

/-- The tasks that go on behind. -/
def tasks : Place Task := ⟨(·.tasks), fun s x => { s with tasks := x }⟩

end Place

namespace Session

variable {α : Type}

/-- The world as it is. -/
def world : Act World := return (← get).schedule.world

/-- A part of the world that there has to be. -/
def there (a : Option α) : Act α :=
  match a with
  | some a => pure a
  | none => throw ⟨""⟩

/-- Does something with the schedule. -/
def scheduling (f : Schedule → α × Schedule) : Act α :=
  modifyGet fun s =>
    let (a, schedule) := f s.schedule
    (a, { s with schedule })

/-- Does something at once in the world. -/
def doing (f : World → α × World) : Act α :=
  scheduling fun s =>
    let (a, world) := f s.world
    (a, { s with world })

/-- Draws from the sequences. -/
def drawing (f : Sequences → α × Sequences) : Act α :=
  modifyGet fun s =>
    let (a, sequences) := f s.sequences
    (a, { s with sequences })

/-- Draws a number of times. -/
def drawingTimes (f : Sequences → α × Sequences) : Nat → Act (List α)
  | 0 => pure []
  | n + 1 => do
    let a ← drawing f
    return a :: (← drawingTimes f n)

/-- An identity for one more observer or predicate. -/
def freshIdentity : Act Nat :=
  modifyGet fun s => (s.identities + 1, { s with identities := s.identities + 1 })

/-- Does something, and tells what was logged meanwhile. -/
def logging (a : Act α) : Act (α × List (Level × String)) := do
  let start := (← world).trace.size
  let x ← a
  return (x, (← world).loggedSince start)

/-- The lines of the journal since it was read last. -/
def readJournal : Act (List String) := do
  let w ← world
  modifyGet fun s => (w.journalSince s.journalRead, { s with journalRead := w.trace.size })

/-- The number of a run's assembly, counted from zero in the order in which assemblies were first
mentioned. -/
def numberOf (id : Uuid) : Act Nat := do
  let s ← get
  match s.mentioned.idxOf? id with
  | some k => pure k
  | none =>
    set { s with mentioned := s.mentioned ++ [id] }
    pure s.mentioned.length

/-- Asks the options under a name, which keep the default that was made. -/
def asking (name : String) (ty : OptionTy)
    (question : Options → Nat → Registry.Answer standardOptions α) : Act (α × List String) := do
  let a := question (← Place.registries.find name) (← get).counted
  let _ ← Place.registries.put name a.registry
  if a.made && ty = .counted then modify fun s => { s with counted := s.counted + 1 }
  return (a.value, a.warnings)

/-- The last value of a type in the options under a name, and what was logged. -/
def lastOption (name : String) (ty : OptionTy) : Act (Option OptionValue × List String) :=
  asking name ty fun o counted => o.get ty counted

/-- Every value of a type in the options under a name, and what was logged. -/
def allOptions (name : String) (ty : OptionTy) : Act (List OptionValue × List String) :=
  asking name ty fun o counted => o.getAll ty counted

end Session

end Muster
