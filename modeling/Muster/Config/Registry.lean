import Std.Data.HashMap

/-!
# Typed options by kind

* `OptionFamily`: the option types of a program, each indexed under a kind; types may share a kind.
* `Registry`: any number of values per kind, kinds in the order in which they were first filled.
* `Registry.get`, `Registry.getAll`: the last or every value of a type. When the kind holds no value,
  the default of the type asked first answers, and is kept for every later question of that kind.
-/

namespace Muster

open Std

/-- The option types of a program. -/
structure OptionFamily where
  /-- The kinds under which values are kept. -/
  Kind : Type
  /-- The types of options. -/
  Ty : Type
  /-- The values of all types. -/
  Value : Type
  /-- Kinds can be told apart. -/
  [decEqKind : DecidableEq Kind]
  /-- Kinds can be hashed. -/
  [hashableKind : Hashable Kind]
  /-- Types can be told apart. -/
  [decEqTy : DecidableEq Ty]
  /-- The kind of a type. -/
  kindOf : Ty → Kind
  /-- The type of a value. -/
  tyOf : Value → Ty
  /-- The equality of two values of one type; it need not be reflexive. -/
  same : Value → Value → Bool
  /-- What a type gives when it is asked for its default, after it was asked so many times before. -/
  default? : Ty → Nat → Option Value
  /-- The default of a type is of that type. -/
  tyOf_default {t : Ty} {calls : Nat} {v : Value} : default? t calls = some v → tyOf v = t

namespace OptionFamily

variable (F : OptionFamily)

instance : DecidableEq F.Kind := F.decEqKind

instance : Hashable F.Kind := F.hashableKind

instance : DecidableEq F.Ty := F.decEqTy

/-- The kind of a value's type. -/
def kindOfValue (v : F.Value) : F.Kind := F.kindOf (F.tyOf v)

/-- Two values agree when they are equal values of one type. -/
def agrees (v w : F.Value) : Bool := F.tyOf v = F.tyOf w && F.same v w

/-- The value, if it has the type. -/
def ofTy? (t : F.Ty) (v : F.Value) : Option F.Value := if F.tyOf v = t then some v else none

end OptionFamily

/-- Ordered values of options, any number per kind. -/
structure Registry (F : OptionFamily) where
  /-- The kinds that hold a value, in the order in which they were first filled. -/
  order : List F.Kind
  /-- The values of each kind, oldest first. -/
  values : HashMap F.Kind (List F.Value)
  /-- The defaults made so far; a kind without a default is remembered as well. -/
  defaults : HashMap F.Kind (Option F.Value)

namespace Registry

variable {F : OptionFamily}

/-- The registry without values. -/
def empty : Registry F := ⟨[], ∅, ∅⟩

instance : EmptyCollection (Registry F) := ⟨empty⟩

instance : Inhabited (Registry F) := ⟨empty⟩

/-- The values of a kind, oldest first. -/
def ofKind (r : Registry F) (k : F.Kind) : List F.Value := r.values.getD k []

/-- The kinds that hold a value, in order. -/
def kinds (r : Registry F) : List F.Kind := r.order

/-- The kinds in order, each with its values. -/
def toList (r : Registry F) : List (F.Kind × List F.Value) := r.order.map fun k => (k, r.ofKind k)

/-- The number of values of all kinds. -/
def size (r : Registry F) : Nat := r.toList.foldr (fun e n => e.2.length + n) 0

/-- Whether no kind holds a value. -/
def isEmpty (r : Registry F) : Bool := r.values.isEmpty

/-- Whether the kind of a type holds a value. -/
def contains (r : Registry F) (t : F.Ty) : Bool := r.values.contains (F.kindOf t)

/-- Appends values to a kind, opening the kind at the end of the order if it is not there. -/
def extend (r : Registry F) (k : F.Kind) (vs : List F.Value) : Registry F :=
  { r with
    order := if r.values.contains k then r.order else r.order ++ [k]
    values := r.values.insert k (r.ofKind k ++ vs) }

/-- Removes a kind with all its values. -/
def close (r : Registry F) (k : F.Kind) : Registry F :=
  { r with order := r.order.filter (· ≠ k), values := r.values.erase k }

/-- Appends a value after those of its kind. -/
def add (r : Registry F) (v : F.Value) : Registry F := r.extend (F.kindOfValue v) [v]

/-- Appends a value unless one that agrees with it is there. -/
def addIfAbsent (r : Registry F) (v : F.Value) : Registry F :=
  if (r.ofKind (F.kindOfValue v)).any (F.agrees v) then r else r.add v

/-- Removes every value that agrees with `v`. -/
def remove (r : Registry F) (v : F.Value) : Registry F :=
  let k := F.kindOfValue v
  if r.values.contains k then
    match (r.ofKind k).filter (fun w => !F.agrees v w) with
    | [] => r.close k
    | kept => { r with values := r.values.insert k kept }
  else r

/-- Whether some value agrees with `v`, so that removing it changes the registry. -/
def removes (r : Registry F) (v : F.Value) : Bool := (r.ofKind (F.kindOfValue v)).any (F.agrees v)

/-- Removes every value of a type's kind. -/
def clear (r : Registry F) (t : F.Ty) : Registry F := r.close (F.kindOf t)

/-- Appends the values of `s` kind by kind, in the order of `s`. -/
def merge (r s : Registry F) : Registry F := s.toList.foldl (fun r e => r.extend e.1 e.2) r

/-- A copy: the same values, and no default made yet. -/
def copy (r : Registry F) : Registry F := { r with defaults := ∅ }

/-! ### Questions -/

/-- The answer to a question, and what asking it did. -/
structure Answer (F : OptionFamily) (α : Type) where
  /-- What was asked for. -/
  value : α
  /-- The registry afterwards. -/
  registry : Registry F
  /-- Whether the type was asked for its default. -/
  made : Bool := false
  /-- How many values of the kind were passed over because they have another type. -/
  mismatches : Nat := 0

/-- What is logged about values that were passed over. -/
def Answer.warnings {α : Type} (a : Answer F α) : List String :=
  List.replicate a.mismatches "option kind is shared by more than one type; ignoring mismatched value"

/-- The default of a type's kind, where that type was asked `calls` times before: the one made before, or
else the type's own. -/
def default (r : Registry F) (t : F.Ty) (calls : Nat) : Answer F (Option F.Value) :=
  let k := F.kindOf t
  match r.defaults[k]? with
  | some slot =>
    let found := slot.bind (F.ofTy? t)
    ⟨found, r, false, if slot.isSome && found.isNone then 1 else 0⟩
  | none =>
    let slot := F.default? t calls
    ⟨slot.bind (F.ofTy? t), { r with defaults := r.defaults.insert k slot }, true, 0⟩

/-- The last value of a type, or its default. A last value of another type hides both. -/
def get (r : Registry F) (t : F.Ty) (calls : Nat) : Answer F (Option F.Value) :=
  match (r.ofKind (F.kindOf t)).getLast? with
  | some v =>
    let found := F.ofTy? t v
    ⟨found, r, false, if found.isNone then 1 else 0⟩
  | none => r.default t calls

/-- Every value of a type in order, or its default alone when the kind holds no value. -/
def getAll (r : Registry F) (t : F.Ty) (calls : Nat) : Answer F (List F.Value) :=
  match r.ofKind (F.kindOf t) with
  | [] =>
    let a := r.default t calls
    { a with value := a.value.toList }
  | vs =>
    let found := vs.filterMap (F.ofTy? t)
    ⟨found, r, false, vs.length - found.length⟩

end Registry

end Muster
