import Mathlib.Tactic.SplitIfs
import Muster.Proofs.Decimal.Shortest

/-!
# Whole numbers that survive as doubles

* `Decimal.near`: the double nearest to a whole number from `2 ^ 63` on, below `2 ^ 64`, as a whole number.
* `Binary.scale_ofWhole`, `Binary.reads_ofWhole`: how many digits it has, and which numbers are read as it.
* `Decimal.Survives`: such a whole number is the one with the fewest digits of those that are read as its double.
* **`Float.write_ofNat`**: its double is written as a whole number, which is the same just in this case.
-/

namespace Muster

open Decimal

/-- The double nearest to a whole number from `2 ^ 63` on, below `2 ^ 64`, as a whole number. -/
def Decimal.near (n : Nat) : Nat := 2048 * roundedQuotient n 2048

/-- A quotient is rounded to the nearest whole number, ties to the even one. -/
theorem Decimal.roundedQuotient_eq_iff {d k : Nat} : roundedQuotient d 2048 = k ↔
    (2048 * k < d + 1024 ∨ k % 2 = 0 ∧ 2048 * k = d + 1024) ∧
      (d < 2048 * k + 1024 ∨ k % 2 = 0 ∧ d = 2048 * k + 1024) := by
  unfold roundedQuotient
  dsimp only
  split <;> omega

theorem Decimal.near_bounds {n : Nat} (low : 2 ^ 63 ≤ n) (high : n < 2 ^ 64) : 2 ^ 63 ≤ near n ∧ near n ≤ 2 ^ 64 := by
  have bounds := roundedQuotient_bounds low high
  unfold near
  omega

namespace Binary

variable {n : Nat}

theorem whole_ofWhole (n : Nat) : (ofWhole n).whole = near n := by
  unfold ofWhole near
  dsimp only
  split
  · rename_i carry
    rw [carry]
    rfl
  · exact Nat.mul_comm _ _

/-- It has nineteen or twenty digits. -/
theorem scale_ofWhole (low : 2 ^ 63 ≤ n) (high : n < 2 ^ 64) :
    (ofWhole n).scale = (19 : Nat) ∨ (ofWhole n).scale = (20 : Nat) := by
  have bounds := ofWhole_bounds low high
  have log : (ofWhole n).m.log2 = 52 := (Nat.log2_eq_iff (by omega)).mpr bounds
  have value : 2 ^ 63 ≤ (ofWhole n).whole ∧ (ofWhole n).whole ≤ 2 ^ 64 := whole_ofWhole n ▸ near_bounds low high
  have step (k : Nat) : (compareScaled 1 k (ofWhole n).m (ofWhole n).q == .gt) = true ↔
      (ofWhole n).whole < tenTo k := by
    have q := ofWhole_q n
    rw [compareScaled_whole _ _ _ (by omega), Nat.one_mul, beq_iff_eq, Nat.compare_eq_gt]
    rfl
  have at17 := (step 17).not.mpr (Nat.not_lt.mpr (Nat.le_trans (by decide) value.1))
  have at18 := (step 18).not.mpr (Nat.not_lt.mpr (Nat.le_trans (by decide) value.1))
  have at20 := (step 20).mpr (Nat.lt_of_le_of_lt value.2 (by decide))
  have goes (fuel : Nat) (k : Int) : scale.go (ofWhole n) k (fuel + 1) =
      if compareScaled 1 k (ofWhole n).m (ofWhole n).q == .gt then k else scale.go (ofWhole n) (k + 1) fuel := rfl
  have from17 : (ofWhole n).scale = scale.go (ofWhole n) (17 : Nat) 4 ∨
      (ofWhole n).scale = scale.go (ofWhole n) (18 : Nat) 4 := by
    unfold scale
    dsimp only
    rw [log]
    rcases ofWhole_q n with q | q <;> rw [q]
    · exact .inl rfl
    · exact .inr rfl
  have from18 (fuel : Nat) : scale.go (ofWhole n) (18 : Nat) (fuel + 3) = (19 : Nat) ∨
      scale.go (ofWhole n) (18 : Nat) (fuel + 3) = (20 : Nat) := by
    rw [goes, if_neg at18, goes, show ((18 : Nat) : Int) + 1 = (19 : Nat) from rfl]
    split
    · exact .inl rfl
    · rw [goes, show ((19 : Nat) : Int) + 1 = (20 : Nat) from rfl, if_pos at20]
      exact .inr rfl
  rcases from17 with start | start <;> rw [start]
  · rw [goes, if_neg at17]
    exact from18 0
  · exact from18 1

/-- How far the middles between it and the next doubles are away, and when they are read as it. -/
theorem middles_ofWhole (low : 2 ^ 63 ≤ n) (high : n < 2 ^ 64) :
    (ofWhole n).low * twoTo ((ofWhole n).q - 2).toNat + (if near n = 2 ^ 63 then 512 else 1024) = near n ∧
      (ofWhole n).high * twoTo ((ofWhole n).q - 2).toNat = near n + (if near n = 2 ^ 64 then 2048 else 1024) ∧
      ((ofWhole n).m % 2 = 0 ↔ near n % 4096 = 0) := by
  obtain ⟨least, most⟩ := roundedQuotient_bounds low high
  unfold ofWhole near Binary.low Binary.high
  generalize roundedQuotient n 2048 = k at least most ⊢
  dsimp only
  have nine : twoTo ((11 : Int) - 2).toNat = 512 := rfl
  by_cases carry : k = 2 ^ 53
  · subst carry
    decide
  rw [if_neg carry]
  dsimp only
  rw [nine]
  by_cases first : k = 2 ^ 52
  · subst first
    decide
  · rw [decide_eq_false first, if_neg Bool.false_ne_true, if_neg (by omega), if_neg (by omega)]
    omega

/-- The numbers that are read as it: around it, up to the middles between it and the next doubles. -/
theorem reads_ofWhole (low : 2 ^ 63 ≤ n) (high : n < 2 ^ 64) (d : Nat) :
    (ofWhole n).Reads d ↔
      (near n < d + (if near n = 2 ^ 63 then 512 else 1024) ∨
        near n % 4096 = 0 ∧ d + (if near n = 2 ^ 63 then 512 else 1024) = near n) ∧
      (d < near n + (if near n = 2 ^ 64 then 2048 else 1024) ∨
        near n % 4096 = 0 ∧ d = near n + (if near n = 2 ^ 64 then 2048 else 1024)) := by
  obtain ⟨below, above, ends⟩ := middles_ofWhole low high
  unfold Reads
  rw [ends, above]
  omega

/-- A whole number is read as the double nearest to it. -/
theorem reads_self (low : 2 ^ 63 ≤ n) (high : n < 2 ^ 64) : (ofWhole n).Reads n := by
  rw [reads_ofWhole low high]
  unfold near roundedQuotient
  dsimp only
  split_ifs <;> omega

/-- Of the multiples of ten thousand, those are read as it that have the same double. -/
theorem reads_iff_near (low : 2 ^ 63 ≤ n) (high : n < 2 ^ 64) {d : Nat} (tens : 10000 ∣ d) :
    (ofWhole n).Reads d ↔ near d = near n := by
  obtain ⟨least, most⟩ := roundedQuotient_bounds low high
  rw [reads_ofWhole low high]
  unfold near
  rw [Nat.mul_right_inj (by decide), roundedQuotient_eq_iff]
  generalize roundedQuotient n 2048 = k at least most ⊢
  by_cases first : k = 2 ^ 52
  · subst first
    rw [if_pos (by decide), if_neg (by decide)]
    omega
  by_cases last : k = 2 ^ 53
  · subst last
    rw [if_neg (by decide), if_pos (by decide)]
    omega
  · have even : 2048 * k % 4096 = 0 ↔ k % 2 = 0 := by omega
    rw [if_neg (by omega), if_neg (by omega), even, eq_comm (a := d + 1024)]

/-- A number that is read as it is near. -/
theorem Reads.near (low : 2 ^ 63 ≤ n) (high : n < 2 ^ 64) {d : Nat} (reads : (ofWhole n).Reads d) :
    Decimal.near n ≤ d + 1024 ∧ d ≤ Decimal.near n + 2048 := by
  rw [reads_ofWhole low high] at reads
  split_ifs at reads <;> omega

/-- What is nearer than 512 is read as it, and so is what is larger by a thousand at most. -/
theorem reads_of_near (low : 2 ^ 63 ≤ n) (high : n < 2 ^ 64) {d : Nat} (below : Decimal.near n < d + 512)
    (above : d ≤ Decimal.near n + 1000) : (ofWhole n).Reads d := by
  rw [reads_ofWhole low high]
  split_ifs <;> omega

end Binary

namespace Decimal

/-- A whole number from `2 ^ 63` on, below `2 ^ 64`, is the one with the fewest digits of those that have its double:
a multiple of ten thousand, or, if none has that double, the multiple of a thousand that is nearest to it. -/
def Survives (n : Nat) : Prop :=
  10000 ∣ n ∨ 1000 ∣ n ∧ Nat.dist n (near n) < 500 ∧ ∀ m, 10000 ∣ m → near m ≠ near n

end Decimal

namespace Binary

variable {n : Nat}

/-- On some grid from the third on a number stands for it. -/
theorem shortest_from (low : 2 ^ 63 ≤ n) (high : n < 2 ^ 64) (tie : TieRule) {c e : Nat} (e_mem : e = 3 ∨ e = 4)
    (beside : Beside (Decimal.near n) e c) (reads : (ofWhole n).Reads (c * tenTo e)) :
    ∃ d f : Nat, e ≤ f ∧ (ofWhole n).shortest tie = (⟨d, f⟩ : Decimal).trimmed ∧ d ≠ 0 ∧
      (ofWhole n).Reads (d * tenTo f) ∧ (f = e → Nat.dist (d * tenTo f) (Decimal.near n) ≤
        Nat.dist (c * tenTo e) (Decimal.near n)) := by
  have q := ofWhole_q n
  obtain ⟨s, scale, digits⟩ : ∃ s : Nat, (ofWhole n).scale = s ∧ (s = 19 ∨ s = 20) := by
    rcases scale_ofWhole low high with scale | scale
    · exact ⟨19, scale, .inl rfl⟩
    · exact ⟨20, scale, .inr rfl⟩
  rw [← whole_ofWhole] at beside ⊢
  obtain ⟨d, f, coarse, shortest, there, reads', nearest⟩ :=
    shortest_spec (by omega) tie scale (by omega) (by omega) (by omega) beside reads
  refine ⟨d, f, coarse, shortest, there.1, reads', fun same => ?_⟩
  subst same
  exact nearest c beside reads

/-- A multiple of a thousand that is read as it is nearer to it than five hundred. -/
theorem exists_thousand (low : 2 ^ 63 ≤ n) (high : n < 2 ^ 64) :
    ∃ c, Beside (Decimal.near n) 3 c ∧ (ofWhole n).Reads (c * tenTo 3) ∧
      Nat.dist (c * tenTo 3) (Decimal.near n) < 500 := by
  have large := near_bounds low high
  obtain ⟨k, value⟩ : ∃ k, Decimal.near n = 2048 * k := ⟨_, rfl⟩
  unfold Beside Nat.dist
  rw [show tenTo 3 = 1000 from rfl]
  -- a multiple of 2048 is not in the middle of two multiples of a thousand
  by_cases near : Decimal.near n % 1000 < 500
  · exact ⟨Decimal.near n / 1000, ⟨by omega, .inl rfl⟩, reads_of_near low high (by omega) (by omega), by omega⟩
  · exact ⟨Decimal.near n / 1000 + 1, ⟨by omega, .inr rfl⟩, reads_of_near low high (by omega) (by omega), by omega⟩

/-- A multiple of ten thousand that is read as it is the number with the fewest digits. -/
theorem eq_of_tens (low : 2 ^ 63 ≤ n) (high : n < 2 ^ 64) {tie : TieRule} {d f m : Nat}
    (shortest : (ofWhole n).shortest tie = (⟨d, f⟩ : Decimal).trimmed) (tens : 10000 ∣ m)
    (reads : (ofWhole n).Reads m) : d * tenTo f = m := by
  have near := reads.near low high
  have large := near_bounds low high
  have split : m / 10000 * tenTo 4 = m := Nat.div_mul_cancel tens
  have beside : Beside (Decimal.near n) 4 (m / 10000) := by
    refine beside_of_near (by omega) ?_ ?_ <;> rw [show tenTo 4 = 10000 from rfl] <;> omega
  obtain ⟨d', f', coarse, shortest', -, reads', -⟩ :=
    shortest_from low high tie (.inr rfl) beside (split.symm ▸ reads)
  have near' := reads'.near low high
  have tens' : 10000 ∣ d' * tenTo f' := Nat.dvd_mul_left_of_dvd (Nat.pow_dvd_pow 10 coarse) d'
  have same : d * tenTo f = d' * tenTo f' := by
    rw [← (trimmed_whole d f).2, ← (trimmed_whole d' f').2, ← shortest, ← shortest']
  omega

/-- **The fewest digits.** The whole number with the fewest digits of those that are read as the double of a whole
number is this number if and only if it survives. -/
theorem shortest_ofWhole (low : 2 ^ 63 ≤ n) (high : n < 2 ^ 64) (tie : TieRule) :
    ∃ d f : Nat, d ≠ 0 ∧ (ofWhole n).shortest tie = (⟨d, f⟩ : Decimal).trimmed ∧
      (d * tenTo f = n ↔ Survives n) := by
  obtain ⟨c, beside, reads, close⟩ := exists_thousand low high
  obtain ⟨d, f, coarse, shortest, some, reads', nearest⟩ := shortest_from low high tie (.inl rfl) beside reads
  -- unless a multiple of ten thousand is read as the double, it is the nearest multiple of a thousand
  have thousand (alone : ∀ m, 10000 ∣ m → ¬ (ofWhole n).Reads m) :
      1000 ∣ d * tenTo f ∧ Nat.dist (d * tenTo f) (Decimal.near n) < 500 := by
    have third : f = 3 := by
      by_contra other
      exact alone _ (Nat.dvd_mul_left_of_dvd (Nat.pow_dvd_pow 10 (by omega : 4 ≤ f)) d) reads'
    refine ⟨?_, Nat.lt_of_le_of_lt (nearest third) close⟩
    rw [third]
    exact Nat.dvd_mul_left _ _
  refine ⟨d, f, some, shortest, ?_, ?_⟩
  · intro same
    by_cases multiple : ∃ m, 10000 ∣ m ∧ (ofWhole n).Reads m
    · obtain ⟨m, tens, reads⟩ := multiple
      exact .inl (same ▸ eq_of_tens low high shortest tens reads ▸ tens)
    · have alone (m : Nat) (tens : 10000 ∣ m) (reads : (ofWhole n).Reads m) : False := multiple ⟨m, tens, reads⟩
      obtain ⟨divides, near⟩ := thousand alone
      rw [same] at divides near
      exact .inr ⟨divides, near, fun m hm same => alone m hm ((reads_iff_near low high hm).mpr same)⟩
  · rintro (tens | ⟨divides, near, alone⟩)
    · exact eq_of_tens low high shortest tens (reads_self low high)
    · obtain ⟨divides', near'⟩ := thousand fun m hm reads => alone m hm ((reads_iff_near low high hm).mp reads)
      unfold Nat.dist at near near'
      omega

end Binary

namespace Float

variable {n : Nat}

/-- The double that a whole number is turned into is written as the number with the fewest digits that is read as it. -/
theorem write_eq_layout (low : 2 ^ 63 ≤ n) (high : n < 2 ^ 64) :
    plain.write (Float.ofNat n) = plain.layout ((Binary.ofWhole n).shortest .up) := by
  obtain ⟨isNaN, isInf⟩ := finite_ofNat low high
  have significand : (Binary.ofWhole n).m ≠ 0 := by
    have := Binary.ofWhole_bounds low high
    omega
  unfold Notation.write
  rw [isNaN, isInf, if_neg (sign_ofNat low high), ofFloat_ofNat low high]
  dsimp only
  rw [if_neg Bool.false_ne_true, if_neg Bool.false_ne_true, if_neg significand]
  exact String.empty_append

/-- **Whole numbers in writing.** The double that a whole number from `2 ^ 63` on, below `2 ^ 64`, is turned into is
written as a whole number; it is the same one if and only if it survives. -/
theorem write_ofNat (low : 2 ^ 63 ≤ n) (high : n < 2 ^ 64) :
    ∃ d : Nat, plain.write (Float.ofNat n) = toString d ∧ (d = n ↔ Survives n) := by
  obtain ⟨d, f, some, shortest, survives⟩ := Binary.shortest_ofWhole low high .up
  obtain ⟨pos, value⟩ := trimmed_whole d f
  refine ⟨d * tenTo f, ?_, survives⟩
  have digits : (⟨d, f⟩ : Decimal).trimmed.digits ≠ 0 := by
    intro none
    have zero : (⟨d, f⟩ : Decimal).trimmed.whole = 0 := by
      unfold whole
      rw [none, Nat.zero_mul]
    exact Nat.mul_ne_zero some (Nat.ne_of_gt (tenTo_pos f)) (value.symm.trans zero)
  rw [write_eq_layout low high, shortest, Notation.layout_plain digits pos, value]

end Float

end Muster
