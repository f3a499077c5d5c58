/-!
# Values under names

* `Shelf`: at most one value under each name; a value that is put under a name replaces the one there.
-/

namespace Muster

/-- Values under names. -/
structure Shelf (α : Type) where
  /-- The names with their values, the latest first. -/
  entries : List (String × α) := []

namespace Shelf

variable {α : Type}

/-- The value under a name. -/
def get? (s : Shelf α) (name : String) : Option α :=
  (s.entries.find? fun e => e.1 = name).map (·.2)

/-- Takes away the value under a name. -/
def erase (s : Shelf α) (name : String) : Shelf α := ⟨s.entries.filter fun e => e.1 ≠ name⟩

/-- Puts a value under a name. -/
def put (s : Shelf α) (name : String) (a : α) : Shelf α := ⟨(name, a) :: (s.erase name).entries⟩

/-- All values. -/
def toList (s : Shelf α) : List α := s.entries.map (·.2)

end Shelf

end Muster
