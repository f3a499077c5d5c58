import Muster.Decimal.Power
import Muster.Tree.Basic

/-!
# Reading typed values from documents

* `Readable`: what a data format offers to those who read typed values from it.
* `Field`: a named part of a record, and what its absence means.
* Trees are readable: records may also be written as lists of their fields in order.
-/

namespace Muster

/-- What the absence of a field means. -/
inductive Presence where
  /-- The record is rejected. -/
  | required
  /-- A record written as a map may leave the field out; one written as a list may not. -/
  | optional
  /-- The field has a default. -/
  | defaulted
deriving DecidableEq, Repr

/-- A named part of a record. -/
structure Field where
  /-- The name in maps. -/
  name : String
  /-- What its absence means. -/
  presence : Presence := .required

/-- A document format from which typed values are read. -/
class Readable (α : Type) where
  /-- The value as a text. -/
  text? : α → Option String
  /-- The value as a natural number below `2 ^ 64`. -/
  nat? : α → Option Nat
  /-- The value as a truth value. -/
  bool? : α → Option Bool
  /-- Whether the value stands for the absence of an optional one, if it can be told. -/
  absent? : α → Option Bool
  /-- The items of a list. -/
  list? : α → Option (List α)
  /-- The values of a record's fields, in the order of the fields. -/
  record? : List Field → α → Option (List (Option α))
  /-- The entries of a map from texts. -/
  table? : α → Option (List (String × α))
  /-- The value whatever its type, if every part of it can be represented. -/
  content? : α → Option Tree

/-- The bound of natural numbers in documents. -/
def Readable.limit : Nat := twoTo 64

namespace Field

variable {α : Type}

/-- Looks a field up among entries: rejects a second one, and an absent one that is required. -/
def pick (f : Field) (entries : List (String × α)) : Option (Option α) :=
  match entries.filter (fun e => e.1 = f.name) with
  | [] => if f.presence = .required then none else some none
  | [e] => some (some e.2)
  | _ => none

/-- The fields of a record written as a map; entries with other names are ignored. -/
def named (fs : List Field) (entries : List (String × α)) : Option (List (Option α)) :=
  fs.mapM (·.pick entries)

/-- The fields of a record written as a list; only defaulted ones may be missing at its end. -/
def positional : List Field → List α → Option (List (Option α))
  | [], [] => some []
  | [], _ :: _ => none
  | f :: fs, [] => if f.presence = .defaulted then (positional fs []).map (none :: ·) else none
  | _ :: fs, a :: as => (positional fs as).map (some a :: ·)

end Field

/-- Reads an optional value. -/
def readOptional {α β : Type} [Readable α] (read : α → Option β) : Option α → Option (Option β)
  | none => some none
  | some a =>
    match Readable.absent? a with
    | none => none
    | some true => some none
    | some false => (read a).map some

namespace Tree

/-- The entries of a map; an entry whose key is no text makes the map unreadable. -/
def entries? : Tree → Option (List (String × Tree))
  | .fields es => textEntries? es
  | _ => none

instance : Readable Tree where
  text?
    | .text s => some s
    | _ => none
  nat?
    | .int i => if 0 ≤ i ∧ i < Readable.limit then some i.toNat else none
    | _ => none
  bool?
    | .bool b => some b
    | _ => none
  absent?
    | .null => some true
    | _ => some false
  list?
    | .list items => some items
    | _ => none
  record? fs t :=
    match t with
    | .list items => Field.positional fs items
    | t => t.entries?.bind (Field.named fs)
  table? := entries?
  content? t := if t.sound then some t else none

/-- Splits a tagged choice: a lone text, or a map with the tag as its only key. -/
def choice? : Tree → Option (String × Option Tree)
  | .text s => some (s, none)
  | .fields [(.text k, t)] => some (k, some t)
  | _ => none

/-- Reads a choice among constants: its text alone, or as the key of an entry without a value. -/
def constant? {β : Type} (named : String → Option β) (t : Tree) : Option β :=
  match t.choice? with
  | some (s, none) => named s
  | some (s, some .null) => named s
  | _ => none

end Tree

end Muster
