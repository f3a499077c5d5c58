import Muster.Decimal.Power

/-!
# Universally unique identifiers

* `Uuid.text`: 32 lower-case hexadecimal digits in groups of 8, 4, 4, 4 and 12.
* `Uuid.ofText?`: reads the hyphenated form, the bare digits, and the hyphenated form in braces or
  behind `urn:uuid:`; the case of the digits does not matter.
* `Uuid.random`: the identifier of version 4 with the given payload.
-/

namespace Muster

/-- An identifier of 128 bits. -/
structure Uuid where
  /-- The bits, most significant digit first in writing. -/
  bits : BitVec 128
deriving DecidableEq, Repr, Inhabited, Hashable

namespace Uuid

/-- The identifier whose bits are the number. -/
def ofNat (n : Nat) : Uuid := ⟨BitVec.ofNat 128 n⟩

/-- The number that the bits of an identifier make. -/
def toNat (u : Uuid) : Nat := u.bits.toNat

/-- The identifier of version 4 and variant 1 that carries the payload in its last 62 bits. -/
def random (payload : Nat) : Uuid :=
  ofNat (4 * twoTo 76 + 2 * twoTo 62 + payload % twoTo 62)

/-- The version that the identifier names. -/
def version (u : Uuid) : Nat := u.toNat / twoTo 76 % 16

/-- The `count` low hexadecimal digits of a number, most significant first. -/
def hexDigits : Nat → Nat → List Char
  | 0, _ => []
  | count + 1, n => hexDigits count (n / 16) ++ [Nat.digitChar (n % 16)]

/-- The hyphenated text of an identifier. -/
def text (u : Uuid) : String :=
  let ds := hexDigits 32 u.toNat
  let part (skip take : Nat) : List Char := (ds.drop skip).take take
  String.ofList
    (part 0 8 ++ '-' :: part 8 4 ++ '-' :: part 12 4 ++ '-' :: part 16 4 ++ '-' :: part 20 12)

/-- The value of a hexadecimal digit. -/
def hexValue? (c : Char) : Option Nat :=
  if '0' ≤ c ∧ c ≤ '9' then some (c.toNat - 48)
  else if 'a' ≤ c ∧ c ≤ 'f' then some (c.toNat - 87)
  else if 'A' ≤ c ∧ c ≤ 'F' then some (c.toNat - 55)
  else none

/-- Reads hexadecimal digits as one number. -/
def readHex (ds : List Char) : Option Nat :=
  ds.foldlM (fun n c => (hexValue? c).map (16 * n + ·)) 0

/-- Reads groups of 8, 4, 4, 4 and 12 digits with hyphens between them. -/
def readHyphenated (cs : List Char) : Option Nat :=
  if cs.length = 36 ∧ [8, 13, 18, 23].all (fun i => cs[i]? = some '-') then
    readHex ((cs.take 8) ++ (cs.drop 9).take 4 ++ (cs.drop 14).take 4 ++ (cs.drop 19).take 4 ++ cs.drop 24)
  else none

/-- Reads an identifier in any of its written forms. -/
def ofText? (s : String) : Option Uuid :=
  let cs := s.toList
  let read :=
    if cs.length = 32 then readHex cs
    else if cs.length = 36 then readHyphenated cs
    else if cs.length = 38 ∧ cs.head? = some '\x7b' ∧ cs.getLast? = some '\x7d' then
      readHyphenated (cs.drop 1).dropLast
    else if cs.length = 45 ∧ cs.take 9 = "urn:uuid:".toList then readHyphenated (cs.drop 9)
    else none
  read.map ofNat

end Uuid

end Muster
