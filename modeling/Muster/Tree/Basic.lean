/-!
# Value trees

* `Tree`: the values that data formats carry, with map entries in their written order.
* `Tree.Sound`: no part of the tree is flawed.

A reader keeps what it cannot represent as a flawed part, so that only those who look at the part
have to reject it.
-/

namespace Muster

/-- The key of a map entry. -/
inductive Key where
  /-- A text. -/
  | text (s : String)
  /-- A natural number. -/
  | index (n : Nat)
  /-- A value of any other kind. -/
  | other
deriving DecidableEq, Repr

/-- A value of a data format. -/
inductive Tree where
  /-- No value. -/
  | null
  /-- A truth value. -/
  | bool (b : Bool)
  /-- A whole number. -/
  | int (i : Int)
  /-- A floating-point number. -/
  | float (x : Float)
  /-- A text. -/
  | text (s : String)
  /-- A list. -/
  | list (items : List Tree)
  /-- A map with its entries in order. -/
  | fields (entries : List (Key × Tree))
  /-- A value that is well written but cannot be represented. -/
  | flawed
deriving Inhabited

namespace Tree

/-- A map whose keys are texts. -/
def record (entries : List (String × Tree)) : Tree :=
  .fields (entries.map fun e => (.text e.1, e.2))

mutual

/-- Whether no part of the tree is flawed. -/
def sound : Tree → Bool
  | .list items => soundItems items
  | .fields entries => soundEntries entries
  | .flawed => false
  | _ => true

/-- Whether no part of the items is flawed. -/
def soundItems : List Tree → Bool
  | [] => true
  | t :: ts => t.sound && soundItems ts

/-- Whether no part of the entries is flawed. -/
def soundEntries : List (Key × Tree) → Bool
  | [] => true
  | (_, t) :: es => t.sound && soundEntries es

end

/-- The entries of a map whose keys are texts. -/
def textEntries? : List (Key × Tree) → Option (List (String × Tree))
  | [] => some []
  | (.text k, t) :: es => (textEntries? es).map ((k, t) :: ·)
  | _ :: _ => none

/-- The value of the first entry with a key. -/
def get? (t : Tree) (key : String) : Option Tree :=
  match t with
  | .fields entries => (entries.find? fun e => e.1 = .text key).map (·.2)
  | _ => none

theorem textEntries?_map (es : List (String × Tree)) :
    textEntries? (es.map fun e => (Key.text e.1, e.2)) = some es := by
  induction es with
  | nil => rfl
  | cons e es ih => simp [textEntries?, ih]

end Tree

end Muster
