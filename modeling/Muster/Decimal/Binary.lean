import Muster.Decimal.Power

/-!
# Binary floating point as exact numbers

* `Binary`: a finite non-negative double is `m * 2 ^ q` with natural `m`.
* `Binary.readsBack`: a decimal lies among the reals that round to the value, ties to even.
-/

namespace Muster

/-- A finite non-negative double: the number `m * 2 ^ q`. -/
structure Binary where
  /-- The significand. -/
  m : Nat
  /-- The exponent of two. -/
  q : Int
  /-- The gap to the value below is half the gap to the value above. -/
  narrowBelow : Bool

/-- The decimal number `digits * 10 ^ exp`. -/
structure Decimal where
  /-- The significant digits, as a number. -/
  digits : Nat
  /-- The exponent of ten. -/
  exp : Int
deriving DecidableEq, Repr

namespace Binary

/-- The magnitude of a double that is neither infinite nor a NaN. -/
def ofFloat (x : Float) : Binary :=
  let bits := x.toBits
  let e := ((bits >>> 52) &&& 0x7FF).toNat
  let f := (bits &&& 0xFFFFFFFFFFFFF).toNat
  if e = 0 then ⟨f, -1074, false⟩ else ⟨twoTo 52 + f, (e : Int) - 1075, f = 0 && e > 1⟩

/-- Compares `a * 10 ^ i` with `n * 2 ^ j`, exactly. -/
def compareScaled (a : Nat) (i : Int) (n : Nat) (j : Int) : Ordering :=
  compare (a * tenTo i.toNat * twoTo (-j).toNat) (n * twoTo j.toNat * tenTo (-i).toNat)

/-- The lower end of the reals that round to the value, in quarters of its last place. -/
def low (x : Binary) : Nat := if x.narrowBelow then 4 * x.m - 1 else 4 * x.m - 2

/-- The upper end of the reals that round to the value, in quarters of its last place. -/
def high (x : Binary) : Nat := 4 * x.m + 2

/-- Whether the decimal rounds to the value; the ends of the interval do when `m` is even. -/
def readsBack (x : Binary) (d : Decimal) : Bool :=
  let atLow := compareScaled d.digits d.exp x.low (x.q - 2)
  let atHigh := compareScaled d.digits d.exp x.high (x.q - 2)
  let ends := x.m % 2 = 0
  (atLow == .gt || (ends && atLow == .eq)) && (atHigh == .lt || (ends && atHigh == .eq))

/-- The least exponent `k` with value below `10 ^ k`, for a value other than zero. -/
def scale (x : Binary) : Int :=
  let bits : Int := (x.m.log2 : Int) + x.q
  -- the decimal logarithm of two lies between 30102/100000 and 30103/100000
  let guess := (bits * 30103).fdiv 100000 - 1
  go guess 4
where
  /-- Moves up until the power of ten exceeds the value. -/
  go (k : Int) : Nat → Int
    | 0 => k
    | n + 1 => if compareScaled 1 k x.m x.q == .gt then k else go (k + 1) n

end Binary

end Muster
