import Muster.Source.Sequence

/-!
# Generators of named values

* `Generator`: names with their sources, in the order of their registration.
* `Generator.snapshot`: one value per name, in order; stops at the first exhausted sequence.
* `Environment`: the names and values that one member gets.
-/

namespace Muster

/-- Why a name has no value. -/
inductive DrawError where
  /-- No source is registered under the name. -/
  | unknown (name : String)
  /-- The sequence under the name has run out. -/
  | exhausted (name : String)
deriving DecidableEq, Repr

namespace DrawError

/-- The wording of an error. -/
def message : DrawError → String
  | unknown name => "no value source registered for '" ++ name ++ "'"
  | exhausted name => "value sequence for '" ++ name ++ "' is exhausted"

end DrawError

/-- Names with their values, in order. -/
structure Environment where
  /-- The pairs of name and value. -/
  pairs : List (String × String) := []
deriving DecidableEq, Repr, Inhabited

namespace Environment

/-- The first value of a name. -/
def get? (e : Environment) (name : String) : Option String :=
  (e.pairs.find? fun p => p.1 = name).map (·.2)

/-- The number of pairs. -/
def size (e : Environment) : Nat := e.pairs.length

/-- Whether there is no pair. -/
def isEmpty (e : Environment) : Bool := e.pairs.isEmpty

end Environment

/-- Names with their sources, each name once, in the order of registration. -/
structure Generator where
  /-- The pairs of name and source. -/
  entries : List (String × Source) := []
deriving DecidableEq, Repr, Inhabited

namespace Generator

/-- Replaces the source of the first entry with the name, or appends an entry. -/
def setIn (name : String) (src : Source) : List (String × Source) → List (String × Source)
  | [] => [(name, src)]
  | e :: es => if e.1 = name then (name, src) :: es else e :: setIn name src es

/-- Registers a source under a name. A name that is there keeps its place. -/
def set (g : Generator) (name : String) (src : Source) : Generator := ⟨setIn name src g.entries⟩

/-- The source under a name. -/
def source? (g : Generator) (name : String) : Option Source :=
  (g.entries.find? fun e => e.1 = name).map (·.2)

/-- The names in order. -/
def names (g : Generator) : List String := g.entries.map (·.1)

/-- Whether a name is registered. -/
def contains (g : Generator) (name : String) : Bool := (g.source? name).isSome

/-- The number of names. -/
def size (g : Generator) : Nat := g.entries.length

/-- Whether there is no name. -/
def isEmpty (g : Generator) : Bool := g.entries.isEmpty

/-- Registers every entry of `h` over those of `g`. -/
def merge (g h : Generator) : Generator := h.entries.foldl (fun g e => g.set e.1 e.2) g

/-- The next value under a name. -/
def resolve (g : Generator) (name : String) (s : Sequences) : Except DrawError String × Sequences :=
  match g.source? name with
  | none => (.error (.unknown name), s)
  | some src =>
    match src.draw s with
    | (some v, s) => (.ok v, s)
    | (none, s) => (.error (.exhausted name), s)

/-- Draws once for each entry in order, up to the first that has run out. -/
def drawAll (s : Sequences) : List (String × Source) → Except DrawError (List (String × String)) × Sequences
  | [] => (.ok [], s)
  | e :: es =>
    match e.2.draw s with
    | (none, s) => (.error (.exhausted e.1), s)
    | (some v, s) =>
      match drawAll s es with
      | (.ok ps, s) => (.ok ((e.1, v) :: ps), s)
      | (.error x, s) => (.error x, s)

/-- One value per name, in order. Draws made before one that fails stay made. -/
def snapshot (g : Generator) (s : Sequences) : Except DrawError Environment × Sequences :=
  match drawAll s g.entries with
  | (.ok ps, s) => (.ok ⟨ps⟩, s)
  | (.error x, s) => (.error x, s)

/-- Shows the names with their sources. -/
def shown (g : Generator) : String :=
  Text.shownRecord "ValueGenerator"
    [("entries", Text.bracketed (g.entries.map fun e =>
      "(" ++ Text.quoted e.1 ++ ", " ++ e.2.shown ++ ")"))]

@[simp] theorem entries_set (g : Generator) (n : String) (src : Source) :
    (g.set n src).entries = setIn n src g.entries := rfl

@[simp] theorem names_mk (es : List (String × Source)) : names ⟨es⟩ = es.map (·.1) := rfl

end Generator

end Muster
