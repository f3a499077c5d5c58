import Mathlib.Algebra.Ring.Nat
import Muster.Uuid

/-!
# Identifiers, read back

* `Uuid.readHex_hexDigits`: the hexadecimal digits of a number make that number, if they are enough.
* `Uuid.readHyphenated_groups`: the hyphens between groups of digits are passed over.
* **`Uuid.ofText?_text`**: an identifier is read back from its text.
-/

namespace Muster.Uuid

theorem hexValue?_digitChar {d : Nat} (h : d < 16) : hexValue? (Nat.digitChar d) = some d := by
  revert d
  decide

theorem length_hexDigits (count n : Nat) : (hexDigits count n).length = count := by
  induction count generalizing n with
  | zero => rfl
  | succ count ih => rw [hexDigits, List.length_append, ih, List.length_singleton]

/-- The hexadecimal digits of a number make that number, if they are enough. -/
theorem readHex_hexDigits {count n : Nat} (small : n < 16 ^ count) : readHex (hexDigits count n) = some n := by
  unfold readHex
  induction count generalizing n with
  | zero =>
    have zero : n = 0 := by omega
    rw [zero]
    rfl
  | succ count ih =>
    have high : n / 16 < 16 ^ count := by
      rw [Nat.pow_succ] at small
      omega
    rw [hexDigits, List.foldlM_append, ih high, Option.bind_eq_bind, Option.bind_some, List.foldlM_cons,
      hexValue?_digitChar (Nat.mod_lt n (by decide)), Option.map_some, Option.bind_eq_bind, Option.bind_some,
      List.foldlM_nil, Nat.div_add_mod]
    rfl

/-- The hyphens between groups of digits are passed over. -/
theorem readHyphenated_groups {a b c d e : List Char} (ha : a.length = 8) (hb : b.length = 4)
    (hc : c.length = 4) (hd : d.length = 4) (he : e.length = 12) :
    readHyphenated (a ++ '-' :: b ++ '-' :: c ++ '-' :: d ++ '-' :: e) = readHex (a ++ b ++ c ++ d ++ e) := by
  unfold readHyphenated
  rw [if_pos (by simp [ha, hb, hc, hd, he])]
  simp [ha, hb, hc, hd, List.drop_append, List.drop_of_length_le]

/-- **Identifiers.** An identifier is read back from its text. -/
theorem ofText?_text (u : Uuid) : ofText? u.text = some u := by
  have length := length_hexDigits 32 u.toNat
  have value : readHex (hexDigits 32 u.toNat) = some u.toNat := readHex_hexDigits u.bits.isLt
  unfold ofText? text
  dsimp only
  generalize hexDigits 32 u.toNat = ds at length value ⊢
  have part (skip take : Nat) (within : skip + take ≤ 32) : ((ds.drop skip).take take).length = take := by
    rw [List.length_take, List.length_drop]
    omega
  have join (skip take : Nat) : (ds.drop skip).take take ++ ds.drop (skip + take) = ds.drop skip := by
    rw [← List.drop_drop, List.take_append_drop]
  have rest : (ds.drop 20).take 12 = ds.drop 20 := List.take_of_length_le (by rw [List.length_drop]; omega)
  have whole : (ds.drop 0).take 8 ++ (ds.drop 8).take 4 ++ (ds.drop 12).take 4 ++ (ds.drop 16).take 4 ++
      (ds.drop 20).take 12 = ds := by
    rw [rest, List.append_assoc, join 16 4, List.append_assoc, join 12 4, List.append_assoc, join 8 4,
      join 0 8, List.drop_zero]
  have read := readHyphenated_groups (part 0 8 (by decide)) (part 8 4 (by decide)) (part 12 4 (by decide))
    (part 16 4 (by decide)) (part 20 12 (by decide))
  rw [whole, value] at read
  rw [String.toList_ofList, if_neg, if_pos, read, Option.map_some]
  · exact congrArg (fun bits => some (⟨bits⟩ : Uuid)) (BitVec.ofNat_toNat ..)
  · simp [length]
  · simp [length]

end Muster.Uuid
