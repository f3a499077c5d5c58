import Muster.Decimal.Shortest

/-!
# Floating-point numbers in writing

* `Float.plain`: positional, without an exponent and without a trailing `.0`.
* `Float.pointed`: positional near one and with an exponent otherwise; whole numbers end in `.0`.
* `Float.compact`: positional up to sixteen digits before the point; whole numbers end in `.0`.
-/

namespace Muster

/-- The decisions that a way of writing numbers makes. -/
structure Notation where
  /-- The least exponent of the leading digit that is written positionally. -/
  plainFrom : Int
  /-- The greatest exponent of the leading digit that is written positionally, if there is one. -/
  plainTo : Option Int
  /-- Whole numbers written positionally end in `.0`. -/
  pointZero : Bool
  /-- Where an exact tie between two shortest decimals goes. -/
  tie : TieRule
  /-- The text of a value that is not a number. -/
  nan : String
  /-- The text of positive infinity. -/
  inf : String

namespace Notation

/-- Decimal digits of a number. -/
def digitsOf (n : Nat) : List Char := Nat.toDigits 10 n

/-- A decimal written without an exponent. -/
def positional (n : Notation) (ds : List Char) (exp : Int) : String :=
  let zeros : Nat → List Char := (List.replicate · '0')
  let text :=
    if exp ≥ 0 then ds ++ zeros exp.toNat ++ (if n.pointZero then ['.', '0'] else [])
    else
      let places := (-exp).toNat
      if places < ds.length then
        ds.take (ds.length - places) ++ '.' :: ds.drop (ds.length - places)
      else '0' :: '.' :: zeros (places - ds.length) ++ ds
  String.ofList text

/-- A decimal written with one digit before the point and an exponent. -/
def scientific (_ : Notation) (ds : List Char) (leading : Int) : String :=
  let fraction := match ds.drop 1 with
    | [] => []
    | rest => '.' :: rest
  String.ofList (ds.take 1 ++ fraction) ++ "e" ++ toString leading

/-- A decimal other than zero. -/
def layout (n : Notation) (d : Decimal) : String :=
  let ds := digitsOf d.digits
  let leading := d.exp + ds.length - 1
  let tooLarge := match n.plainTo with
    | some top => leading > top
    | none => false
  if leading < n.plainFrom || tooLarge then n.scientific ds leading else n.positional ds d.exp

/-- The text of a number. -/
def write (n : Notation) (x : Float) : String :=
  if x.isNaN then n.nan
  else
    let sign := if x.toBits >>> 63 = 1 then "-" else ""
    if x.isInf then sign ++ n.inf
    else
      let b := Binary.ofFloat x
      if b.m = 0 then sign ++ n.positional ['0'] 0 else sign ++ n.layout (b.shortest n.tie)

end Notation

namespace Float

/-- Never an exponent: every digit stands at its place. -/
def plain : Notation :=
  ⟨-400, none, false, .up, "NaN", "inf"⟩

/-- An exponent from `1e16` on and below `1e-4`. -/
def pointed : Notation :=
  ⟨-4, some 15, true, .up, "NaN", "inf"⟩

/-- An exponent from `1e16` on and below `1e-5`; the writing of data formats. -/
def compact : Notation :=
  ⟨-5, some 15, true, .toEven, "NaN", "inf"⟩

end Float

end Muster
