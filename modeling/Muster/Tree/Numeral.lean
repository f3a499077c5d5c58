import Muster.Decimal.Nearest
import Muster.Tree.Basic

/-!
# Numbers in value trees

* `Numeral`: sign, digits before and behind the point, and exponent of a written number.
* `Numeral.tree`: whole numbers of 64 bits stay whole; every other number is a significand of 64 bits
  scaled by powers of ten, one floating-point operation at a time.
-/

namespace Muster

/-- A written number. -/
structure Numeral where
  /-- A minus sign stands in front. -/
  negative : Bool
  /-- The digits before the point. -/
  whole : List Nat
  /-- The digits behind the point, if there is one. -/
  fraction : Option (List Nat)
  /-- The exponent: whether it is negative, and its digits. -/
  exponent : Option (Bool × List Nat)

namespace Numeral

/-- The greatest number of 64 bits. -/
def maxWord : Nat := twoTo 64 - 1

/-- A significand together with a power of ten. -/
structure Scaled where
  /-- The significand, of 64 bits at most. -/
  significand : Nat
  /-- The exponent of ten. -/
  exp : Int

/-- Takes whole digits while the significand fits; from the first that does not on, each counts as a
power of ten. -/
def takeWhole (significand : Nat) : List Nat → Scaled
  | [] => ⟨significand, 0⟩
  | d :: ds =>
    if significand * 10 + d ≤ maxWord then takeWhole (significand * 10 + d) ds
    else ⟨significand, (d :: ds).length⟩

/-- Takes digits behind the point while the significand fits, and drops the others. -/
def takeFraction (s : Scaled) : List Nat → Scaled
  | [] => s
  | d :: ds =>
    if s.significand * 10 + d ≤ maxWord then takeFraction ⟨s.significand * 10 + d, s.exp - 1⟩ ds else s

/-- The value of digits. -/
def valueOf (ds : List Nat) : Nat := ds.foldl (fun n d => 10 * n + d) 0

/-- The power `10 ^ k` for `k` up to 308. -/
def powerOfTen (k : Nat) : Float := Decimal.nearest ⟨1, k⟩

/-- The value of a scaled number; `none` when it exceeds every finite one. -/
def scale (s : Scaled) : Option Float :=
  go (Float.ofNat s.significand) s.exp s.exp.natAbs
where
  /-- Divides by `10 ^ 308` until the rest of the exponent has a power of its own. -/
  go (f : Float) (e : Int) : Nat → Option Float
    | 0 => finish f e
    | n + 1 =>
      if e.natAbs ≤ 308 then finish f e
      else if f == 0 then some f
      else if e ≥ 0 then none
      else go (f / powerOfTen 308) (e + 308) n
  /-- Applies an exponent of at most 308. -/
  finish (f : Float) (e : Int) : Option Float :=
    if e ≥ 0 then
      let r := f * powerOfTen e.toNat
      if r.isInf then none else some r
    else some (f / powerOfTen e.natAbs)

/-- The greatest exponent that is taken by its value. -/
def maxExponent : Nat := twoTo 31 - 1

/-- The magnitude of a number with a point or an exponent, or too large to be whole. -/
def magnitude (n : Numeral) : Option Float :=
  let s := takeFraction (takeWhole 0 n.whole) (n.fraction.getD [])
  match n.exponent with
  | none => scale s
  | some (negative, ds) =>
    let e := valueOf ds
    if e > maxExponent then
      if s.significand ≠ 0 ∧ ¬ negative then none else some 0
    else scale ⟨s.significand, if negative then s.exp - e else s.exp + e⟩

/-- The number as a tree. -/
def tree (n : Numeral) : Tree :=
  let v := valueOf n.whole
  let floating : Tree := match n.magnitude with
    | some f => .float (if n.negative then -f else f)
    | none => .flawed
  if n.fraction.isSome || n.exponent.isSome || v > maxWord then floating
  else if ¬ n.negative then .int v
  else if 0 < v ∧ v ≤ twoTo 63 then .int (-(v : Int))
  else floating

end Numeral

end Muster
