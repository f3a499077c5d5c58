import Muster.Decimal.Binary

/-!
# The fewest digits that read back

* `Binary.nearestOf`: of the two neighbours of a value on a decimal grid, the one to write.
* `Binary.shortest`: the coarsest grid on which a neighbour reads back wins; of two neighbours the
  nearer one, and on a tie the one the rule names.
-/

namespace Muster

/-- Where an exact tie between two equally short decimals goes. -/
inductive TieRule where
  /-- To the neighbour with the even last digit. -/
  | toEven
  /-- To the neighbour farther from zero. -/
  | up
deriving DecidableEq, Repr

namespace Decimal

/-- Removes trailing zeros from the digits. -/
def trimmed (d : Decimal) : Decimal := go d.digits d.exp d.digits
where
  /-- Divides by ten while the last digit is zero. -/
  go (digits : Nat) (exp : Int) : Nat → Decimal
    | 0 => ⟨digits, exp⟩
    | n + 1 => if digits % 10 = 0 ∧ digits ≠ 0 then go (digits / 10) (exp + 1) n else ⟨digits, exp⟩

end Decimal

namespace Binary

/-- The floor of the value divided by `10 ^ e`. -/
def floorOn (x : Binary) (e : Int) : Nat :=
  (x.m * twoTo x.q.toNat * tenTo (-e).toNat) / (twoTo (-x.q).toNat * tenTo e.toNat)

/-- The neighbour of the value on the grid `10 ^ e` that reads back, if there is one. -/
def nearestOf (x : Binary) (tie : TieRule) (e : Int) : Option Decimal :=
  let lower := x.floorOn e
  let below : Decimal := ⟨lower, e⟩
  let above : Decimal := ⟨lower + 1, e⟩
  match x.readsBack below && lower != 0, x.readsBack above with
  | false, false => none
  | true, false => some below
  | false, true => some above
  | true, true =>
    -- the middle of the two neighbours is (2 * lower + 1) / 2 on the grid
    match compareScaled (2 * lower + 1) e (2 * x.m) x.q with
    | .gt => some below
    | .lt => some above
    | .eq => match tie with
      | .up => some above
      | .toEven => if lower % 2 = 0 then some below else some above

/-- The exact decimal value. -/
def exact (x : Binary) : Decimal :=
  ⟨x.m * twoTo x.q.toNat * Nat.pow 5 (-x.q).toNat, -((-x.q).toNat : Int)⟩

/-- The shortest decimal that reads back to a value other than zero. -/
def shortest (x : Binary) (tie : TieRule) : Decimal :=
  let k := x.scale
  match (List.range 17).findSome? fun (n : Nat) => x.nearestOf tie (k - (n + 1 : Nat)) with
  | some d => d.trimmed
  | none => x.exact.trimmed

end Binary

end Muster
