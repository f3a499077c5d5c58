import Mathlib.Data.Nat.Dist
import Muster.Decimal.Notation
import Muster.Proofs.Decimal.Whole

/-!
# The fewest digits of a whole number

* `Binary.whole`: the value of a double that is a multiple of four. `Binary.Reads`: the whole numbers that are read
  as such a double (`Binary.readsBack_iff`).
* `Binary.Beside`: the neighbours of a value on a decimal grid. `Binary.nearestOf_spec`: which of them stands for it.
* **`Binary.shortest_spec`**: the number with the fewest digits comes from the coarsest grid that has one.
* `Notation.layout_plain`: a decimal that is whole is written digit by digit.
-/

namespace Muster

namespace Binary

variable {x : Binary}

/-! ### Whole numbers that read back -/

/-- The value of a double that is whole. -/
def whole (x : Binary) : Nat := x.m * twoTo x.q.toNat

/-- A whole number rounds to a double that is a multiple of four; the ends of the interval do when the significand
is even. -/
def Reads (x : Binary) (d : Nat) : Prop :=
  (x.low * twoTo (x.q - 2).toNat < d ∨ x.m % 2 = 0 ∧ d = x.low * twoTo (x.q - 2).toNat) ∧
    (d < x.high * twoTo (x.q - 2).toNat ∨ x.m % 2 = 0 ∧ d = x.high * twoTo (x.q - 2).toNat)

theorem compareScaled_whole (a e n : Nat) {j : Int} (hj : 0 ≤ j) :
    compareScaled a e n j = compare (a * tenTo e) (n * twoTo j.toNat) := by
  have none : (-j).toNat = 0 ∧ (-(e : Int)).toNat = 0 := by omega
  unfold compareScaled
  rw [none.1, none.2, Int.toNat_natCast]
  exact congrArg₂ compare (Nat.mul_one _) (Nat.mul_one _)

theorem readsBack_iff (hq : 2 ≤ x.q) (d e : Nat) : x.readsBack ⟨d, e⟩ = true ↔ x.Reads (d * tenTo e) := by
  unfold readsBack
  dsimp only
  rw [compareScaled_whole _ _ _ (by omega), compareScaled_whole _ _ _ (by omega)]
  unfold Reads
  simp only [Bool.and_eq_true, Bool.or_eq_true, beq_iff_eq, Nat.compare_eq_gt, Nat.compare_eq_lt, Nat.compare_eq_eq,
    decide_eq_true_eq]

theorem floorOn_whole (hq : 0 ≤ x.q) (e : Nat) : x.floorOn e = x.whole / tenTo e := by
  have none : (-x.q).toNat = 0 ∧ (-(e : Int)).toNat = 0 := by omega
  unfold floorOn whole
  rw [none.1, none.2, Int.toNat_natCast]
  exact congrArg₂ (· / ·) (Nat.mul_one _) (Nat.one_mul _)

/-! ### Neighbours on a grid -/

/-- A number stands on a grid next to a value. -/
def Beside (v e d : Nat) : Prop := d ≠ 0 ∧ (d = v / tenTo e ∨ d = v / tenTo e + 1)

/-- A whole number on a grid that is less than one place away from a value stands next to it. -/
theorem beside_of_near {v e d : Nat} (some : d ≠ 0) (below : d * tenTo e < v + tenTo e)
    (above : v < (d + 1) * tenTo e) : Beside v e d := by
  have unit := tenTo_pos e
  refine ⟨some, ?_⟩
  have least : v / tenTo e < d + 1 := (Nat.div_lt_iff_lt_mul unit).mpr above
  have most : d - 1 ≤ v / tenTo e := by
    rw [Nat.le_div_iff_mul_le unit, Nat.sub_mul, Nat.one_mul]
    omega
  omega

/-- Of two neighbours, the one that is not beyond the middle is the nearer one. -/
theorem dist_neighbour {v l p c d : Nat} (below : l * p ≤ v) (above : v < (l + 1) * p) (hc : c = l ∨ c = l + 1)
    (hd : d = l ∧ 2 * v ≤ (2 * l + 1) * p ∨ d = l + 1 ∧ (2 * l + 1) * p ≤ 2 * v) :
    Nat.dist (d * p) v ≤ Nat.dist (c * p) v := by
  have next : (l + 1) * p = l * p + p := Nat.succ_mul l p
  have middle : (2 * l + 1) * p = 2 * (l * p) + p := by rw [Nat.succ_mul, Nat.mul_assoc]
  unfold Nat.dist
  rcases hc with rfl | rfl <;> rcases hd with ⟨rfl, near⟩ | ⟨rfl, near⟩ <;> omega

/-- **Neighbours.** On a grid where no neighbour reads back there is nothing, and otherwise the nearest of those
that do. -/
theorem nearestOf_spec (hq : 2 ≤ x.q) (tie : TieRule) (e : Nat) :
    (x.nearestOf tie e = none ∧ ∀ c, Beside x.whole e c → ¬ x.Reads (c * tenTo e)) ∨
    ∃ d, x.nearestOf tie e = some ⟨d, e⟩ ∧ Beside x.whole e d ∧ x.Reads (d * tenTo e) ∧
      ∀ c, Beside x.whole e c → x.Reads (c * tenTo e) →
        Nat.dist (d * tenTo e) x.whole ≤ Nat.dist (c * tenTo e) x.whole := by
  have least : x.whole / tenTo e * tenTo e ≤ x.whole := Nat.div_mul_le_self ..
  have most : x.whole < (x.whole / tenTo e + 1) * tenTo e :=
    (Nat.div_lt_iff_lt_mul (tenTo_pos e)).mp (Nat.lt_succ_self _)
  have middle : compareScaled (2 * (x.whole / tenTo e) + 1) e (2 * x.m) x.q =
      compare ((2 * (x.whole / tenTo e) + 1) * tenTo e) (2 * x.whole) := by
    rw [compareScaled_whole _ _ _ (by omega), Nat.mul_assoc]
    rfl
  unfold nearestOf Beside
  rw [floorOn_whole (by omega)]
  dsimp only
  rw [middle]
  generalize x.whole / tenTo e = l at least most ⊢
  have below : (x.readsBack ⟨l, e⟩ && l != 0) = true ↔ x.Reads (l * tenTo e) ∧ l ≠ 0 := by
    rw [Bool.and_eq_true, readsBack_iff hq, bne_iff_ne]
  have above := readsBack_iff hq (l + 1) e
  split
  · rename_i no no'
    rw [no] at below
    rw [no'] at above
    refine .inl ⟨rfl, ?_⟩
    rintro c ⟨some, rfl | rfl⟩ reads
    · exact absurd (below.mpr ⟨reads, some⟩) Bool.false_ne_true
    · exact absurd (above.mpr reads) Bool.false_ne_true
  · rename_i yes no
    rw [no] at above
    obtain ⟨reads, some⟩ := below.mp yes
    refine .inr ⟨l, rfl, ⟨some, .inl rfl⟩, reads, ?_⟩
    rintro c ⟨-, rfl | rfl⟩ reads'
    · exact Nat.le_refl _
    · exact absurd (above.mpr reads') Bool.false_ne_true
  · rename_i no yes
    rw [no] at below
    refine .inr ⟨l + 1, rfl, ⟨Nat.succ_ne_zero l, .inr rfl⟩, above.mp yes, ?_⟩
    rintro c ⟨some, rfl | rfl⟩ reads'
    · exact absurd (below.mpr ⟨reads', some⟩) Bool.false_ne_true
    · exact Nat.le_refl _
  · rename_i yes yes'
    obtain ⟨reads, some⟩ := below.mp yes
    have lower (near : 2 * x.whole ≤ (2 * l + 1) * tenTo e) :=
      fun c (hc : c ≠ 0 ∧ (c = l ∨ c = l + 1)) (_ : x.Reads (c * tenTo e)) =>
        dist_neighbour least most hc.2 (.inl ⟨rfl, near⟩)
    have upper (near : (2 * l + 1) * tenTo e ≤ 2 * x.whole) :=
      fun c (hc : c ≠ 0 ∧ (c = l ∨ c = l + 1)) (_ : x.Reads (c * tenTo e)) =>
        dist_neighbour least most hc.2 (.inr ⟨rfl, near⟩)
    split
    · rename_i gt
      exact .inr ⟨l, rfl, ⟨some, .inl rfl⟩, reads, lower (Nat.le_of_lt (Nat.compare_eq_gt.mp gt))⟩
    · rename_i lt
      exact .inr ⟨l + 1, rfl, ⟨Nat.succ_ne_zero l, .inr rfl⟩, above.mp yes',
        upper (Nat.le_of_lt (Nat.compare_eq_lt.mp lt))⟩
    · rename_i eq
      have tied := Nat.compare_eq_eq.mp eq
      split
      · exact .inr ⟨l + 1, rfl, ⟨Nat.succ_ne_zero l, .inr rfl⟩, above.mp yes', upper (Nat.le_of_eq tied)⟩
      · split
        · exact .inr ⟨l, rfl, ⟨some, .inl rfl⟩, reads, lower (Nat.le_of_eq tied.symm)⟩
        · exact .inr ⟨l + 1, rfl, ⟨Nat.succ_ne_zero l, .inr rfl⟩, above.mp yes', upper (Nat.le_of_eq tied)⟩

/-- **The coarsest grid.** The number with the fewest digits is the nearest neighbour on the coarsest grid on which
one reads back. -/
theorem shortest_spec (hq : 2 ≤ x.q) (tie : TieRule) {s e c : Nat} (scale : x.scale = s) (small : 17 ≤ s)
    (coarse : e < s) (fine : s ≤ e + 17) (beside : Beside x.whole e c) (reads : x.Reads (c * tenTo e)) :
    ∃ d f, e ≤ f ∧ x.shortest tie = (⟨d, f⟩ : Decimal).trimmed ∧ Beside x.whole f d ∧ x.Reads (d * tenTo f) ∧
      (∀ c, Beside x.whole f c → x.Reads (c * tenTo f) →
        Nat.dist (d * tenTo f) x.whole ≤ Nat.dist (c * tenTo f) x.whole) := by
  have grid {n : Nat} (hn : n < 17) : ((s : Int) - (n + 1 : Nat)) = ((s - (n + 1) : Nat) : Int) := by omega
  have found : ((List.range 17).findSome? fun n => x.nearestOf tie (s - (n + 1 : Nat))).isSome = true := by
    rw [List.findSome?_isSome_iff]
    refine ⟨s - (e + 1), List.mem_range.mpr (by omega), ?_⟩
    have same : s - (s - (e + 1) + 1) = e := by omega
    rw [grid (by omega), same]
    rcases nearestOf_spec hq tie e with ⟨-, none⟩ | ⟨d, some, -⟩
    · exact absurd reads (none c beside)
    · rw [some]
      rfl
  obtain ⟨d, found⟩ := Option.isSome_iff_exists.mp found
  have shortest : x.shortest tie = d.trimmed := by
    unfold Binary.shortest
    rw [scale]
    dsimp only
    rw [found]
  obtain ⟨before, n, after, split, some, coarser⟩ := List.findSome?_eq_some_iff.mp found
  have hn : n < 17 := List.mem_range.mp (split ▸ List.mem_append_right _ List.mem_cons_self)
  -- what comes before a number in a range are the smaller ones
  have smaller : before = List.range n := by
    have here : (List.range 17)[before.length]? = .some n := by rw [split]; simp
    have length : before.length = n := by
      obtain ⟨_, same⟩ := List.getElem?_eq_some_iff.mp here
      rw [List.getElem_range] at same
      exact same
    have taken : before = (List.range 17).take n := by rw [split, ← length, List.take_left]
    rw [taken, List.take_range, Nat.min_eq_left (Nat.le_of_lt hn)]
  rw [grid hn] at some
  refine ⟨d.digits, s - (n + 1), ?_, ?_⟩
  · by_contra coarser'
    have earlier : s - (e + 1) ∈ before := smaller ▸ List.mem_range.mpr (by omega)
    have none := coarser _ earlier
    have same : s - (s - (e + 1) + 1) = e := by omega
    rw [grid (by omega), same] at none
    rcases nearestOf_spec hq tie e with ⟨-, silent⟩ | ⟨d', some', -⟩
    · exact silent c beside reads
    · cases none.symm.trans some'
  · rcases nearestOf_spec hq tie (s - (n + 1)) with ⟨none, -⟩ | ⟨d', some', spec⟩
    · cases none.symm.trans some
    · cases some.symm.trans some'
      exact ⟨shortest, spec⟩

end Binary

/-! ### Decimals that are whole -/

namespace Decimal

/-- The value of a decimal that is whole. -/
def whole (d : Decimal) : Nat := d.digits * tenTo d.exp.toNat

theorem trimmed_go {n : Nat} (digits : Nat) {exp : Int} (pos : 0 ≤ exp) :
    0 ≤ (trimmed.go digits exp n).exp ∧ (trimmed.go digits exp n).whole = digits * tenTo exp.toNat := by
  induction n generalizing digits exp with
  | zero => exact ⟨pos, rfl⟩
  | succ n ih =>
    unfold trimmed.go
    split
    · rename_i divides
      obtain ⟨pos', value⟩ := ih (digits / 10) (by omega : 0 ≤ exp + 1)
      refine ⟨pos', value.trans ?_⟩
      have next : (exp + 1).toNat = exp.toNat + 1 := by omega
      rw [next, tenTo_succ, Nat.mul_comm (tenTo _), ← Nat.mul_assoc,
        Nat.div_mul_cancel (Nat.dvd_of_mod_eq_zero divides.1)]
    · exact ⟨pos, rfl⟩

/-- Zeros at the end of the digits count into the exponent. -/
theorem trimmed_whole (d e : Nat) :
    0 ≤ (⟨d, e⟩ : Decimal).trimmed.exp ∧ (⟨d, e⟩ : Decimal).trimmed.whole = d * tenTo e :=
  trimmed_go d (Int.natCast_nonneg e)

end Decimal

namespace Notation

/-- The digits of a number are followed by as many zeros as powers of ten it is multiplied by. -/
theorem toDigits_mul_tenTo {d : Nat} (some : d ≠ 0) (e : Nat) :
    Nat.toDigits 10 (d * tenTo e) = Nat.toDigits 10 d ++ List.replicate e '0' := by
  induction e with
  | zero => rw [show d * tenTo 0 = d from Nat.mul_one d, List.replicate_zero, List.append_nil]
  | succ e ih =>
    have pos : 0 < d * tenTo e := Nat.mul_pos (Nat.pos_of_ne_zero some) (tenTo_pos e)
    have digit := Nat.toDigits_append_toDigits (b := 10) (d := 0) (by decide) pos (by decide)
    rw [Nat.add_zero] at digit
    rw [tenTo_succ, ← Nat.mul_assoc, Nat.mul_comm _ 10, ← digit, ih, List.append_assoc, List.replicate_succ']
    rfl

/-- A decimal that is whole is written digit by digit. -/
theorem layout_plain {d : Decimal} (some : d.digits ≠ 0) (pos : 0 ≤ d.exp) :
    Float.plain.layout d = toString d.whole := by
  have digits : 0 < (Nat.toDigits 10 d.digits).length := List.length_pos_iff.mpr Nat.toDigits_ne_nil
  have plain : ¬ (decide (d.exp + (Nat.toDigits 10 d.digits).length - 1 < -400) || false) = true := by
    rw [Bool.or_false, decide_eq_true_eq]
    omega
  unfold layout positional
  show (if (decide (d.exp + (Nat.toDigits 10 d.digits).length - 1 < -400) || false) = true then _ else _) = _
  rw [if_neg plain]
  dsimp only
  rw [if_pos (show d.exp ≥ 0 from pos), if_neg (by decide), List.append_nil]
  show String.ofList (Nat.toDigits 10 d.digits ++ List.replicate d.exp.toNat '0') = _
  rw [← toDigits_mul_tenTo some]
  rfl

end Notation

end Muster
