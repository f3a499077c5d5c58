import Muster.Decimal.Binary

/-!
# The double nearest to a decimal

* `Decimal.nearest`: the double nearest to a decimal, ties to the even significand; infinity beyond the
  largest double.
-/

namespace Muster.Decimal

/-- A quotient rounded to the nearest whole number, ties to the even one. -/
def roundedQuotient (n d : Nat) : Nat :=
  let m := n / d
  let twice := 2 * (n % d)
  if twice > d ∨ (twice = d ∧ m % 2 = 1) then m + 1 else m

/-- The bits of the double nearest to `num / den`, which is neither zero nor far out of range. -/
def nearestBits (num den : Nat) : Nat :=
  let quotient (q : Int) : Nat × Nat := (num * twoTo (-q).toNat, den * twoTo q.toNat)
  -- the value lies between `2 ^ (guess - 1)` and `2 ^ (guess + 1)`
  let guess : Int := (num.log2 : Int) - den.log2
  let q := max (guess - 53) (-1074)
  let (n, d) := quotient q
  let q := if n / d ≥ twoTo 53 then q + 1 else q
  let (n, d) := quotient q
  -- the significand's leading bit, and a carry out of the significand, count into the exponent
  (q + 1074).toNat * twoTo 52 + roundedQuotient n d

/-- The bits of infinity. -/
def infinityBits : Nat := 0x7FF * twoTo 52

/-- The double nearest to a decimal. -/
def nearest (d : Decimal) : Float :=
  let leading := d.exp + (Nat.toDigits 10 d.digits).length
  if d.digits = 0 ∨ leading < -400 then 0
  else if leading > 400 then Float.ofBits (UInt64.ofNat infinityBits)
  else
    let bits := nearestBits (d.digits * tenTo d.exp.toNat) (tenTo (-d.exp).toNat)
    Float.ofBits (UInt64.ofNat (min bits infinityBits))

end Muster.Decimal
