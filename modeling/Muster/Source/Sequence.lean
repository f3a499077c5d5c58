import Muster.Text.Quoted

/-!
# Sequences of values

* `Sequence.at?`: the value of a sequence at a position; every draw takes the next one.
* `Sequences`: sequences that are shared by everyone who refers to them, each with the number of draws
  made so far.
* `Source`: a fixed value, or a reference to a shared sequence.
-/

namespace Muster

/-- What a sequence hands out. -/
inductive Sequence where
  /-- The given values, once. -/
  | once (values : List String)
  /-- The whole numbers from `first` on, `count` of them. -/
  | span (first : Int) (count : Nat)
  /-- The given values over and over; nothing when there are none. -/
  | cycle (values : List String)
  /-- The natural numbers from `start` on. -/
  | counter (start : Nat)
deriving DecidableEq, Repr

namespace Sequence

/-- The value at a position, counted from zero. -/
def at? : Sequence → Nat → Option String
  | once values, i => values[i]?
  | span first count, i => if i < count then some (toString (first + i)) else none
  | cycle values, i => values[i % values.length]?
  | counter start, i => some (toString (start + i))

/-- The word for the way in which a sequence ends or does not. -/
def word : Sequence → String
  | once _ | span _ _ => "sequence"
  | cycle _ => "cycle"
  | counter _ => "counter"

@[simp] theorem at?_once (l : List String) (i : Nat) : (once l).at? i = l[i]? := rfl

@[simp] theorem at?_counter (n i : Nat) : (counter n).at? i = some (toString (n + i)) := rfl

end Sequence

/-- A sequence together with the number of values that were drawn from it. -/
structure Sequence.Cell where
  /-- What the sequence hands out. -/
  sequence : Sequence
  /-- The number of draws that found a value. -/
  drawn : Nat := 0

/-- Names a shared sequence. -/
structure SequenceId where
  /-- The place of the sequence among all. -/
  index : Nat
deriving DecidableEq, Repr

/-- All shared sequences. -/
structure Sequences where
  /-- The sequences in the order in which they were made. -/
  cells : Array Sequence.Cell := #[]
deriving Inhabited

namespace Sequences

/-- Adds a sequence of which nothing is drawn yet. -/
def add (s : Sequences) (q : Sequence) : SequenceId × Sequences :=
  (⟨s.cells.size⟩, ⟨s.cells.push ⟨q, 0⟩⟩)

/-- The number of values drawn from a sequence. -/
def drawn (s : Sequences) (id : SequenceId) : Nat := (s.cells[id.index]?.map (·.drawn)).getD 0

/-- The sequence under a reference. -/
def sequence? (s : Sequences) (id : SequenceId) : Option Sequence :=
  s.cells[id.index]?.map (·.sequence)

/-- The next value of a sequence, and the sequences after the draw; a sequence without one stays as
it is. -/
def draw (s : Sequences) (id : SequenceId) : Option String × Sequences :=
  match s.cells[id.index]? with
  | none => (none, s)
  | some cell =>
    match cell.sequence.at? cell.drawn with
    | none => (none, s)
    | some v => (some v, ⟨s.cells.setIfInBounds id.index { cell with drawn := cell.drawn + 1 }⟩)

end Sequences

/-- Where the value of one name comes from. -/
inductive Source where
  /-- Always the same value. -/
  | fixed (value : String)
  /-- The next value of a shared sequence; `word` says which way of ending it has. -/
  | shared (id : SequenceId) (word : String)
deriving DecidableEq, Repr

namespace Source

/-- Shows a source, but not what a sequence holds. -/
def shown : Source → String
  | fixed v => Text.shownTuple "Fixed" [Text.quoted v]
  | shared _ word =>
    Text.shownTuple "Sequence" [Text.shownRecord "SharedSequence" [("kind", Text.quoted word)] true]

/-- Whether two sources refer to the very same sequence; unknown unless both refer to one. -/
def sameSequence? : Source → Source → Option Bool
  | shared a _, shared b _ => some (a = b)
  | _, _ => none

/-- The next value of a source. -/
def draw (src : Source) (s : Sequences) : Option String × Sequences :=
  match src with
  | fixed v => (some v, s)
  | shared id _ => s.draw id

end Source

end Muster
