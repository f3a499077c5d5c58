import Mathlib.Algebra.Ring.Nat
import Muster.Text.Blank

/-!
# Decimal digits

* `Text.digit_range`: where the digits stand among the characters; `Text.isBlank_of_isDigit`: none is blank.
* `Text.ofDigitChars_lt`: a row of digits writes a number with as many digits at most.
* **`Text.exists_digits`**: a number is written with a first digit and further ones, and reading them one after
  the other gives the number back.
-/

namespace Muster.Text

variable {c : Char}

/-- Where the digits stand among the characters. -/
theorem digit_range (h : c.isDigit = true) : 48 ≤ c.toNat ∧ c.toNat ≤ 57 := by
  unfold Char.isDigit at h
  rw [Bool.and_eq_true, decide_eq_true_eq, decide_eq_true_eq] at h
  exact ⟨UInt32.le_iff_toNat_le.mp h.1, UInt32.le_iff_toNat_le.mp h.2⟩

theorem isDigit_iff : '0' ≤ c ∧ c ≤ '9' ↔ c.isDigit = true := by
  unfold Char.isDigit
  rw [Bool.and_eq_true, decide_eq_true_eq, decide_eq_true_eq]
  exact Iff.rfl

/-- A character that stands beside all ranges of white space is not blank. -/
theorem not_isBlank (h : 0x21 ≤ c.toNat ∧ c.toNat ≤ 0x7E) : isBlank c = false := by
  unfold isBlank CodeRange.anyHolds
  refine List.any_eq_false.mpr fun r hr => ?_
  unfold CodeRange.holds
  rw [Bool.and_eq_true, decide_eq_true_eq, decide_eq_true_eq]
  have apart : r.last < 0x21 ∨ 0x7E < r.first := by
    revert r
    decide
  omega

theorem isBlank_of_isDigit (h : c.isDigit = true) : isBlank c = false := by
  have range := digit_range h
  exact not_isBlank ⟨by omega, by omega⟩

/-- Digits that follow make a number no smaller. -/
theorem le_ofDigitChars (cs : List Char) (n : Nat) : n ≤ Nat.ofDigitChars 10 cs n := by
  rw [Nat.ofDigitChars_eq_ofDigitChars_zero]
  have := Nat.le_mul_of_pos_left n (Nat.pow_pos (n := cs.length) (by decide : 0 < 10))
  omega

/-- A row of digits writes a number with as many digits at most. -/
theorem ofDigitChars_lt {cs : List Char} (digits : ∀ c ∈ cs, c.isDigit = true) (n : Nat) :
    Nat.ofDigitChars 10 cs n < (n + 1) * 10 ^ cs.length := by
  induction cs generalizing n with
  | nil =>
    rw [Nat.ofDigitChars_nil, List.length_nil, Nat.pow_zero, Nat.mul_one]
    exact Nat.lt_succ_self n
  | cons c cs ih =>
    have range := digit_range (digits c List.mem_cons_self)
    have zero : '0'.toNat = 48 := rfl
    have first : 10 * n + (c.toNat - '0'.toNat) + 1 ≤ (n + 1) * 10 := by omega
    rw [Nat.ofDigitChars_cons, List.length_cons]
    calc Nat.ofDigitChars 10 cs (10 * n + (c.toNat - '0'.toNat))
        < (10 * n + (c.toNat - '0'.toNat) + 1) * 10 ^ cs.length :=
          ih (fun d hd => digits d (List.mem_cons_of_mem c hd)) _
      _ ≤ (n + 1) * 10 * 10 ^ cs.length := Nat.mul_le_mul_right _ first
      _ = (n + 1) * 10 ^ (cs.length + 1) := by rw [Nat.mul_assoc, Nat.pow_succ, Nat.mul_comm 10]

/-- **Digits.** A number is written with a first digit and further ones; reading them one after the other
gives the number back. -/
theorem exists_digits (n : Nat) : ∃ c cs, Nat.toDigits 10 n = c :: cs ∧ c.isDigit = true ∧
    (∀ d ∈ cs, d.isDigit = true) ∧ Nat.ofDigitChars 10 cs (c.toNat - 48) = n := by
  have digits : ∀ d ∈ Nat.toDigits 10 n, d.isDigit = true := fun d hd =>
    Nat.isDigit_of_mem_toDigits (by decide) (by decide) hd
  have value : Nat.ofDigitChars 10 (Nat.toDigits 10 n) 0 = n := Nat.ofDigitChars_ten_toDigits
  obtain ⟨c, cs, written⟩ := List.exists_cons_of_ne_nil (Nat.toDigits_ne_nil (n := n) (b := 10))
  rw [written] at digits value
  rw [Nat.ofDigitChars_cons, Nat.mul_zero, Nat.zero_add] at value
  exact ⟨c, cs, written, digits c List.mem_cons_self, fun d hd => digits d (List.mem_cons_of_mem c hd),
    value⟩

end Muster.Text
