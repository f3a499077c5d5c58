import Muster.Decimal.Nearest

/-!
# Reading floating-point numbers

* `Decimal.ofText?`: digits with at most one point among them, and an exponent.
* `Float.ofText?`: a sign, and a decimal or one of the words for infinity and for no number.
-/

namespace Muster

namespace Decimal

/-- The value of a decimal digit. -/
def digit? (c : Char) : Option Nat :=
  if '0' ≤ c ∧ c ≤ '9' then some (c.toNat - 48) else none

/-- The number that decimal digits make. -/
def ofDigits? (cs : List Char) : Option Nat :=
  if cs.isEmpty then none else cs.foldlM (fun n c => (digit? c).map (10 * n + ·)) 0

/-- Splits off the leading digits. -/
def spanDigits (cs : List Char) : List Char × List Char := cs.span fun c => (digit? c).isSome

/-- The exponent at the end of a number. -/
def exponent? : List Char → Option Int
  | [] => some 0
  | c :: cs =>
    if c = 'e' ∨ c = 'E' then
      match cs with
      | '-' :: ds => (ofDigits? ds).map fun n => -(n : Int)
      | '+' :: ds => (ofDigits? ds).map fun n => (n : Int)
      | ds => (ofDigits? ds).map fun n => (n : Int)
    else none

/-- The decimal in a text without sign. -/
def ofText? (cs : List Char) : Option Decimal := do
  let (whole, cs) := spanDigits cs
  let (fraction, cs) := match cs with
    | '.' :: cs => spanDigits cs
    | cs => ([], cs)
  let digits ← ofDigits? (whole ++ fraction)
  let e ← exponent? cs
  some ⟨digits, e - fraction.length⟩

end Decimal

namespace Float

/-- The number in a text without sign. -/
def magnitude? (cs : List Char) : Option Float :=
  let word := String.ofList (cs.map Char.toLower)
  if word = "inf" ∨ word = "infinity" then some (1 / 0)
  else if word = "nan" then some (0 / 0)
  else (Decimal.ofText? cs).map Decimal.nearest

/-- The number in a text. -/
def ofText? (s : String) : Option Float :=
  match s.toList with
  | '-' :: cs => (magnitude? cs).map (-·)
  | '+' :: cs => magnitude? cs
  | cs => magnitude? cs

end Float

end Muster
