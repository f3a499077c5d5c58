import Mathlib.Tactic.NormNum
import Muster.Decimal.Notation
import Muster.Decimal.Nearest

/-!
# Whole numbers as doubles

* `Decimal.roundedMantissa_shiftRight`: bits that are shifted out round a significand as `Decimal.roundedQuotient`
  rounds a quotient.
* `Binary.ofWhole`: the double nearest to a whole number from `2 ^ 63` on, below `2 ^ 64`.
* **`Float.ofFloat_ofNat`**: this is the double that the whole number is turned into; it is finite and positive
  (`Float.finite_ofNat`, `Float.sign_ofNat`).
-/

namespace Muster

open Float.Model Float.Model.UnpackedFloat

namespace Decimal

/-! ### Rounding -/

/-- A common factor does not change a rounded quotient. -/
theorem roundedQuotient_mul {c : Nat} (some : 0 < c) (n d : Nat) :
    roundedQuotient (n * c) (d * c) = roundedQuotient n d := by
  have rest : (2 * (n * c % (d * c)) > d * c ↔ 2 * (n % d) > d) ∧
      (2 * (n * c % (d * c)) = d * c ↔ 2 * (n % d) = d) := by
    rw [Nat.mul_mod_mul_right, ← Nat.mul_assoc]
    exact ⟨Nat.mul_lt_mul_right some, Nat.mul_left_inj (Nat.ne_of_gt some)⟩
  unfold roundedQuotient
  simp only [Nat.mul_div_mul_right n d some, rest.1, rest.2]

/-- What is left of a significand when bits are shifted out. -/
theorem shiftRight_succ (m k : Nat) : (⟨m, false, false⟩ : ExtendedMantissa) >>> (k + 1) =
    ⟨m / 2 ^ (k + 1), m / 2 ^ k % 2 != 0, m % 2 ^ k != 0⟩ := by
  induction k with
  | zero =>
    show ExtendedMantissa.shiftRightOne ⟨m, false, false⟩ = _
    simp [ExtendedMantissa.shiftRightOne, Nat.mod_one]
  | succ k ih =>
    show ExtendedMantissa.shiftRightOne ((⟨m, false, false⟩ : ExtendedMantissa) >>> (k + 1)) = _
    have low : m % 2 ^ (k + 1) = m % 2 ^ k + 2 ^ k * (m / 2 ^ k % 2) := by rw [Nat.pow_succ, Nat.mod_mul]
    have some := Nat.pow_pos (n := k) (by decide : 0 < 2)
    rw [ih]
    unfold ExtendedMantissa.shiftRightOne
    congr 1
    · rw [Nat.div_div_eq_div_mul, ← Nat.pow_succ]
    · rw [low]
      rcases Nat.mod_two_eq_zero_or_one (m / 2 ^ k) with bit | bit <;> rw [bit]
      · simp
      · simp

/-- Bits that are shifted out round a significand to the nearest one, ties to the even one. -/
theorem roundedMantissa_shiftRight (m k : Nat) :
    ((⟨m, false, false⟩ : ExtendedMantissa) >>> (k + 1)).roundedMantissa = roundedQuotient m (2 ^ (k + 1)) := by
  have low : m % 2 ^ (k + 1) = m % 2 ^ k + 2 ^ k * (m / 2 ^ k % 2) := by rw [Nat.pow_succ, Nat.mod_mul]
  have small := Nat.mod_lt m (Nat.pow_pos (n := k) (by decide : 0 < 2))
  rw [shiftRight_succ]
  unfold roundedQuotient ExtendedMantissa.roundedMantissa
  rw [low, Nat.pow_succ]
  generalize m / (2 ^ k * 2) = q
  generalize m % 2 ^ k = r at small ⊢
  generalize 2 ^ k = p at small ⊢
  have even : (r != 0) = false ↔ r = 0 := bne_eq_false_iff_eq
  rcases Nat.mod_two_eq_zero_or_one (m / p) with bit | bit <;> rw [bit]
  · have below : ¬ (2 * (r + p * 0) > p * 2 ∨ 2 * (r + p * 0) = p * 2 ∧ q % 2 = 1) := by omega
    rw [if_neg below]
    cases r != 0 <;> rfl
  · cases rest : r != 0 with
    | false =>
      show q + q % 2 = _
      rw [even.mp rest]
      dsimp only
      split <;> omega
    | true =>
      have above : 2 * (r + p * 1) > p * 2 := by
        have := mt even.mpr (by rw [rest]; decide)
        omega
      rw [if_pos (.inl above)]
      rfl

/-! ### Packing -/

open Format in
/-- A significand of 53 bits stays as it is. -/
theorem shiftToTargetExponent_self {k : Nat} (low : 2 ^ 52 ≤ k) (high : k < 2 ^ 53) :
    shiftToTargetExponent binary64 k 11 .exact = (⟨k, false, false⟩, 11) := by
  have log : k.log2 = 52 := (Nat.log2_eq_iff (by omega)).mpr ⟨low, high⟩
  unfold shiftToTargetExponent
  have target : binary64.targetExponent (totalExponent k 11) = 11 := by
    unfold totalExponent
    rw [log]
    decide
  rw [target]
  rfl

open Format in
theorem shiftToTargetExponent_next :
    shiftToTargetExponent binary64 (2 ^ 53) 11 .exact = (⟨2 ^ 52, false, false⟩, 12) := by
  have log : (2 ^ 53).log2 = 53 := Nat.log2_two_pow
  unfold shiftToTargetExponent
  have target : binary64.targetExponent (totalExponent (2 ^ 53) 11) = 12 := by
    unfold totalExponent
    rw [log]
    decide
  rw [target]
  rfl

open Format in
/-- A whole number from `2 ^ 63` on loses eleven bits. -/
theorem shiftToTargetExponent_whole {n : Nat} (low : 2 ^ 63 ≤ n) (high : n < 2 ^ 64) :
    shiftToTargetExponent binary64 (n * 2 ^ 53) (-53) .exact =
      ((⟨n * 2 ^ 53, false, false⟩ : ExtendedMantissa) >>> (63 + 1), 11) := by
  have log : (n * 2 ^ 53).log2 = 116 := (Nat.log2_eq_iff (by omega)).mpr (by omega)
  unfold shiftToTargetExponent
  have target : binary64.targetExponent (totalExponent (n * 2 ^ 53) (-53)) = 11 := by
    unfold totalExponent
    rw [log]
    decide
  rw [target]
  rfl

theorem roundedQuotient_bounds {n : Nat} (low : 2 ^ 63 ≤ n) (high : n < 2 ^ 64) :
    2 ^ 52 ≤ roundedQuotient n 2048 ∧ roundedQuotient n 2048 ≤ 2 ^ 53 := by
  unfold roundedQuotient
  dsimp only
  split <;> omega

end Decimal

/-! ### The nearest double -/

/-- The double nearest to a whole number from `2 ^ 63` on, below `2 ^ 64`: a multiple of 2048. -/
def Binary.ofWhole (n : Nat) : Binary :=
  let m := Decimal.roundedQuotient n 2048
  if m = 2 ^ 53 then ⟨2 ^ 52, 12, true⟩ else ⟨m, 11, m = 2 ^ 52⟩

open Decimal

variable {n : Nat}

theorem Binary.ofWhole_bounds (low : 2 ^ 63 ≤ n) (high : n < 2 ^ 64) :
    2 ^ 52 ≤ (ofWhole n).m ∧ (ofWhole n).m < 2 ^ 53 := by
  obtain ⟨least, most⟩ := roundedQuotient_bounds low high
  unfold ofWhole
  dsimp only
  split
  · decide
  · exact ⟨least, Nat.lt_of_le_of_ne most ‹_›⟩

theorem Binary.ofWhole_q (n : Nat) : (ofWhole n).q = 11 ∨ (ofWhole n).q = 12 := by
  unfold ofWhole
  dsimp only
  split
  · exact .inr rfl
  · exact .inl rfl

theorem Binary.ofWhole_narrowBelow (n : Nat) :
    (ofWhole n).narrowBelow = decide ((ofWhole n).m = 2 ^ 52) := by
  unfold ofWhole
  dsimp only
  split <;> rfl

namespace Float

open Binary

/-- What a double of 53 bits is packed into. -/
theorem pack_finite {m : Nat} {e : Int} (low : 2 ^ 52 ≤ m) (high : m < 2 ^ 53) (some : 0 < m)
    (small : e = 11 ∨ e = 12) : UnpackedFloat.pack .binary64 (.finite .positive m e some) =
      packComponents .binary64 .positive (BitVec.ofNat 11 (e + 1075).toNat) (BitVec.ofNat 52 m) := by
  have log : m.log2 = 52 := (Nat.log2_eq_iff (by omega)).mpr ⟨low, high⟩
  unfold UnpackedFloat.pack
  dsimp only
  rw [log]
  rcases small with rfl | rfl <;> rfl

theorem pack_whole (low : 2 ^ 63 ≤ n) (high : n < 2 ^ 64) :
    UnpackedFloat.pack .binary64 (roundWithAccuracy .binary64 .positive (n * 2 ^ 53) (-53) .exact) =
      packComponents .binary64 .positive (BitVec.ofNat 11 ((ofWhole n).q + 1075).toNat)
        (BitVec.ofNat 52 (ofWhole n).m) := by
  obtain ⟨least, most⟩ := roundedQuotient_bounds low high
  have quotient : roundedQuotient (n * 2 ^ 53) (2 ^ (63 + 1)) = roundedQuotient n 2048 :=
    roundedQuotient_mul (by decide) n 2048
  unfold roundWithAccuracy ofWhole
  rw [shiftToTargetExponent_whole low high]
  dsimp only
  rw [roundedMantissa_shiftRight, quotient]
  by_cases carry : roundedQuotient n 2048 = 2 ^ 53
  · rw [if_pos carry, carry, shiftToTargetExponent_next]
    exact pack_finite (Nat.le_refl _) (by decide) (by decide) (.inr rfl)
  · rw [if_neg carry, shiftToTargetExponent_self least (Nat.lt_of_le_of_ne most carry)]
    dsimp only
    rw [dif_neg (by omega)]
    exact pack_finite least (Nat.lt_of_le_of_ne most carry) (by omega) (.inl rfl)

theorem toModel_ofNat (low : 2 ^ 63 ≤ n) :
    (Float.ofNat n).toModel = Float.Model.pack (roundWithAccuracy .binary64 .positive (n * 2 ^ 53) (-53) .exact) := by
  have large : ¬ (n < 2 ^ 53 ∧ 0 ≤ 22) := by omega
  have exponents : (2048 : Int) = 2 ^ Format.binary64.exponentBits := rfl
  show (Float.ofScientific n false 0).toModel = _
  unfold Float.ofScientific
  rw [dif_neg large]
  show Float.Model.pack (UnpackedFloat.ofScientific .binary64 n 0) = _
  unfold UnpackedFloat.ofScientific
  rw [dif_neg (by omega), if_neg (by decide), if_neg (by rw [← exponents]; omega), if_pos (Int.le_refl 0)]
  show Float.Model.pack (roundWithAccuracy .binary64 (.positive * .positive) (n <<< 53 * 1) (-53 + 0) .exact) = _
  rw [Nat.shiftLeft_eq, Nat.mul_one, Int.add_zero]
  rfl

/-- The bits of the double nearest to a whole number. -/
theorem toBits_ofNat (low : 2 ^ 63 ≤ n) (high : n < 2 ^ 64) :
    (Float.ofNat n).toBits.toBitVec = packComponents .binary64 .positive
      (BitVec.ofNat 11 ((ofWhole n).q + 1075).toNat) (BitVec.ofNat 52 (ofWhole n).m) := by
  rw [← pack_whole low high]
  exact congrArg (fun m => m.toBits.toBitVec) (toModel_ofNat low)

theorem toNat_toBits_ofNat (low : 2 ^ 63 ≤ n) (high : n < 2 ^ 64) :
    (Float.ofNat n).toBits.toNat = ((ofWhole n).q + 1075).toNat * 2 ^ 52 + (ofWhole n).m % 2 ^ 52 := by
  show (Float.ofNat n).toBits.toBitVec.toNat = _
  rw [toBits_ofNat low high]
  unfold packComponents
  rw [BitVec.toNat_append, BitVec.toNat_append, ← Nat.shiftLeft_add_eq_or_of_lt (BitVec.isLt _),
    BitVec.toNat_ofNat, BitVec.toNat_ofNat, Nat.shiftLeft_eq]
  rcases ofWhole_q n with q | q <;> rw [q] <;> rfl

/-- The double nearest to a whole number is finite. -/
theorem finite_ofNat (low : 2 ^ 63 ≤ n) (high : n < 2 ^ 64) :
    (Float.ofNat n).isNaN = false ∧ (Float.ofNat n).isInf = false := by
  show (Float.ofNat n).toModel.unpack.isNaN = false ∧ (Float.ofNat n).toModel.unpack.isInf = false
  unfold Float.Model.unpack
  rw [show (Float.ofNat n).toModel.toBits.toBitVec = _ from toBits_ofNat low high]
  unfold UnpackedFloat.unpack
  rw [unpackExponent_packComponents]
  rcases ofWhole_q n with q | q <;> rw [q] <;> dsimp only <;> rw [if_neg (by decide), if_neg (by decide)] <;>
    exact ⟨rfl, rfl⟩

/-- It is positive. -/
theorem sign_ofNat (low : 2 ^ 63 ≤ n) (high : n < 2 ^ 64) : (Float.ofNat n).toBits >>> 63 ≠ 1 := by
  intro negative
  have q := ofWhole_q n
  have small := Nat.mod_lt (ofWhole n).m (by decide : 0 < 2 ^ 52)
  have none : (((ofWhole n).q + 1075).toNat * 2 ^ 52 + (ofWhole n).m % 2 ^ 52) / 2 ^ 63 = 0 :=
    Nat.div_eq_of_lt (by omega)
  have top := congrArg UInt64.toNat negative
  rw [UInt64.toNat_shiftRight, Nat.shiftRight_eq_div_pow, toNat_toBits_ofNat low high] at top
  cases none.symm.trans top

/-- **Nearest doubles.** The double that a whole number from `2 ^ 63` on is turned into. -/
theorem ofFloat_ofNat (low : 2 ^ 63 ≤ n) (high : n < 2 ^ 64) : Binary.ofFloat (Float.ofNat n) = ofWhole n := by
  have bits := toNat_toBits_ofNat low high
  have q := ofWhole_q n
  obtain ⟨least, most⟩ := ofWhole_bounds low high
  have small := Nat.mod_lt (ofWhole n).m (by decide : 0 < 2 ^ 52)
  have e : (((Float.ofNat n).toBits >>> 52) &&& 0x7FF).toNat = ((ofWhole n).q + 1075).toNat := by
    rw [UInt64.toNat_and, UInt64.toNat_shiftRight, bits]
    refine (Nat.and_two_pow_sub_one_eq_mod _ 11).trans ?_
    rw [Nat.shiftRight_eq_div_pow]
    show (((ofWhole n).q + 1075).toNat * 2 ^ 52 + (ofWhole n).m % 2 ^ 52) / 2 ^ 52 % 2 ^ 11 = _
    omega
  have f : ((Float.ofNat n).toBits &&& 0xFFFFFFFFFFFFF).toNat = (ofWhole n).m % 2 ^ 52 := by
    rw [UInt64.toNat_and, bits]
    refine (Nat.and_two_pow_sub_one_eq_mod _ 52).trans ?_
    omega
  have significand : twoTo 52 + (ofWhole n).m % 2 ^ 52 = (ofWhole n).m := by
    show 2 ^ 52 + _ = _
    omega
  have narrow : (decide ((ofWhole n).m % 2 ^ 52 = 0) && decide (((ofWhole n).q + 1075).toNat > 1)) =
      (ofWhole n).narrowBelow := by
    rw [ofWhole_narrowBelow, decide_eq_true (by omega : ((ofWhole n).q + 1075).toNat > 1), Bool.and_true]
    exact decide_eq_decide.mpr (by omega)
  unfold ofFloat
  dsimp only
  rw [e, f, if_neg (by omega), significand, narrow]
  have exponent : ((((ofWhole n).q + 1075).toNat : Nat) : Int) - 1075 = (ofWhole n).q := by omega
  rw [exponent]

end Float

end Muster
