/-!
# Blank text

* `isBlank`: the 25 characters with the Unicode property White_Space.
* `Blank`: a text is blank when nothing is left of it after trimming.
-/

namespace Muster

/-- A closed range of code points. -/
structure CodeRange where
  /-- The first code point. -/
  first : Nat
  /-- The last code point. -/
  last : Nat

namespace CodeRange

/-- Whether the range holds the code point. -/
def holds (r : CodeRange) (n : Nat) : Bool := r.first ≤ n && n ≤ r.last

/-- Whether one of the ranges holds the character. -/
def anyHolds (rs : List CodeRange) (c : Char) : Bool := rs.any (·.holds c.toNat)

end CodeRange

namespace Text

/-- The ranges of white space, in ascending order. -/
def blankRanges : List CodeRange :=
  [⟨0x09, 0x0D⟩, ⟨0x20, 0x20⟩, ⟨0x85, 0x85⟩, ⟨0xA0, 0xA0⟩, ⟨0x1680, 0x1680⟩, ⟨0x2000, 0x200A⟩,
   ⟨0x2028, 0x2029⟩, ⟨0x202F, 0x202F⟩, ⟨0x205F, 0x205F⟩, ⟨0x3000, 0x3000⟩]

/-- Whether the character is white space. -/
def isBlank (c : Char) : Bool := CodeRange.anyHolds blankRanges c

/-- A text is blank when every character of it is white space; the empty text is blank. -/
def Blank (s : String) : Prop := ∀ c ∈ s.toList, isBlank c = true

instance (s : String) : Decidable (Blank s) :=
  List.decidableBAll (fun c => isBlank c = true) s.toList

end Text

end Muster
