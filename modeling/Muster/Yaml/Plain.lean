import Muster.Decimal.Reading
import Muster.Tree.Basic
import Muster.Yaml.Cursor

/-!
# What plain scalars stand for

* `isNull`, `bool?`, `natural?`, `integer?`, `float?`: the words and numbers among plain scalars.
* `plainTree?`: the value of a plain scalar; what is none of these is a text.

Numbers may be written in base ten, and behind `0x`, `0o` or `0b` in base 16, 8 or 2. Digits behind a
leading zero are a text.
-/

namespace Muster.Yaml

/-- The words for no value. -/
def isNull (s : String) : Bool := s ∈ ["null", "Null", "NULL", "~"]

/-- The words for truth values. -/
def bool? (s : String) : Option Bool :=
  if s ∈ ["true", "True", "TRUE"] then some true
  else if s ∈ ["false", "False", "FALSE"] then some false
  else none

/-! ### Whole numbers -/

/-- The text without a sign at its front. -/
def withoutSign : List Char → List Char
  | '+' :: cs | '-' :: cs => cs
  | cs => cs

/-- Several digits of which the first is zero. -/
def zeroPadded (cs : List Char) : Bool :=
  match withoutSign cs with
  | '0' :: d :: ds => (d :: ds).all fun c => (digit? c).isSome
  | _ => false

/-- The number that digits of a base make. -/
def ofDigits? (base : Nat) (cs : List Char) : Option Nat :=
  if cs.isEmpty then none
  else cs.foldlM (fun n c => (hexValue? c).bind fun d =>
    if d < base then some (base * n + d) else none) 0

/-- The base that stands in front of digits. -/
def baseOf? : List Char → Option (Nat × List Char)
  | '0' :: 'x' :: cs => some (16, cs)
  | '0' :: 'o' :: cs => some (8, cs)
  | '0' :: 'b' :: cs => some (2, cs)
  | _ => none

/-- The natural number in a text, which may have a plus sign in front. -/
def natural? (s : String) : Option Nat :=
  let cs := s.toList
  let unsigned := match cs with
    | '+' :: cs => cs
    | cs => cs
  match baseOf? unsigned with
  | some (base, ds) => ofDigits? base ds
  | none => if zeroPadded cs then none else ofDigits? 10 unsigned

/-- The whole number in a text. -/
def integer? (s : String) : Option Int :=
  match s.toList with
  | '-' :: cs =>
    match baseOf? cs with
    | some (base, ds) => (ofDigits? base ds).map fun n => -(n : Int)
    | none => if zeroPadded cs then none else (ofDigits? 10 cs).map fun n => -(n : Int)
  | _ => (natural? s).map fun n => (n : Int)

/-! ### Floating-point numbers -/

/-- The floating-point number in a text: infinite or no number only by their own words. -/
def float? (s : String) : Option Float :=
  let infinity : Float := 1 / 0
  if s ∈ [".inf", ".Inf", ".INF", "+.inf", "+.Inf", "+.INF"] then some infinity
  else if s ∈ ["-.inf", "-.Inf", "-.INF"] then some (-infinity)
  else if s ∈ [".nan", ".NaN", ".NAN"] then some (0 / 0)
  else
    (Muster.Float.ofText? s).filter Float.isFinite

/-! ### Values -/

/-- Whether a whole number fits into 64 bits, with or without sign. -/
def fitsWord (i : Int) : Bool := -(twoTo 63 : Int) ≤ i && i < twoTo 64

/-- Whether a whole number fits into 128 bits, with or without sign. -/
def fitsDoubleWord (i : Int) : Bool := -(twoTo 127 : Int) ≤ i && i < twoTo 128

/-- The number in a text; nothing when there is none, and flawed when it is whole and lies between 64
and 128 bits. -/
def wholeTree? (s : String) : Option Tree :=
  match integer? s with
  | some i =>
    if fitsWord i then some (.int i)
    else if fitsDoubleWord i then some .flawed
    else none
  | none => none

/-- The value of a plain scalar. -/
def plainTree (s : String) : Tree :=
  if s.isEmpty || isNull s then .null
  else match bool? s with
    | some b => .bool b
    | none => match wholeTree? s with
      | some t => t
      | none =>
        if zeroPadded s.toList then .text s
        else match float? s with
          | some x => .float x
          | none => .text s

end Muster.Yaml
