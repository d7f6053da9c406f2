import Mathlib.Algebra.Order.BigOperators.Group.List
import Mathlib.Algebra.Order.Floor.Div

/-!
# Even splits

A range of `size` bytes cut into `count` slices of `size ⌈/⌉ count` bytes each
but the last, which gets what is left. Both divisions round, so how much is
left for the last slice is not visible from either: `le_lastSlice_iff` says
exactly when it is at least a given number of bytes.
-/

namespace MiddlewareBench.EvenSplit

/-- The slices reach the end of the range. -/
theorem le_count_mul {size count : Nat} (pos : 0 < count) :
    size ≤ count * (size ⌈/⌉ count) := by
  simpa only [smul_eq_mul] using le_smul_ceilDiv (b := size) pos

/-- Rounding up costs less than one byte a slice. -/
theorem count_mul_lt {size count : Nat} (pos : 0 < count) :
    count * (size ⌈/⌉ count) < size + count := by
  have split := Nat.div_mul_le_self (size + count - 1) count
  rw [Nat.ceilDiv_eq_add_pred_div, Nat.mul_comm]
  omega

theorem lt_ceilDiv_iff {size count n : Nat} (pos : 0 < count) :
    n < size ⌈/⌉ count ↔ count * n < size := by
  rw [← not_le, ceilDiv_le_iff_le_smul pos, smul_eq_mul, not_le]

/-- Slices of at most `budget` bytes do not grow when their number is rounded up
first. -/
theorem ceilDiv_ceilDiv_le {size budget : Nat} (nonempty : 0 < size) (pos : 0 < budget) :
    size ⌈/⌉ (size ⌈/⌉ budget) ≤ budget := by
  have count : 0 < size ⌈/⌉ budget := (lt_ceilDiv_iff pos).mpr (by omega)
  rw [ceilDiv_le_iff_le_smul count, smul_eq_mul, Nat.mul_comm]
  exact le_count_mul pos

/-- When there are only as many slices as `budget` bytes each require, something
is left for the last one. -/
theorem lastSlice_pos {size budget : Nat} (nonempty : 0 < size) (pos : 0 < budget) :
    (size ⌈/⌉ budget - 1) * (size ⌈/⌉ (size ⌈/⌉ budget)) < size := by
  have count : 0 < size ⌈/⌉ budget := (lt_ceilDiv_iff pos).mpr (by omega)
  calc (size ⌈/⌉ budget - 1) * (size ⌈/⌉ (size ⌈/⌉ budget))
      ≤ (size ⌈/⌉ budget - 1) * budget :=
        Nat.mul_le_mul_left _ (ceilDiv_ceilDiv_le nonempty pos)
    _ = budget * (size ⌈/⌉ budget - 1) := Nat.mul_comm _ _
    _ < size := (lt_ceilDiv_iff pos).mp (Nat.sub_one_lt count.ne')

/-- Fewer slices of at most `budget` bytes do not add up to the size. -/
theorem ceilDiv_le_length {size budget : Nat} (pos : 0 < budget) {lens : List Nat}
    (fit : ∀ n ∈ lens, n ≤ budget) (total : lens.sum = size) :
    size ⌈/⌉ budget ≤ lens.length := by
  rw [ceilDiv_le_iff_le_smul pos, smul_eq_mul, Nat.mul_comm, ← total, ← smul_eq_mul]
  exact List.sum_le_card_nsmul lens budget fit

theorem ceilDiv_of_dvd {size count : Nat} (pos : 0 < count) (even : count ∣ size) :
    size ⌈/⌉ count = size / count := by
  rcases even with ⟨share, rfl⟩
  rw [Nat.mul_div_cancel_left share pos]
  apply Nat.le_antisymm
  · exact (ceilDiv_le_iff_le_smul pos).mpr (le_of_eq rfl)
  · exact Nat.le_of_mul_le_mul_left (le_count_mul pos) pos

theorem ceilDiv_of_not_dvd {size count : Nat} (pos : 0 < count) (uneven : ¬ count ∣ size) :
    size ⌈/⌉ count = size / count + 1 := by
  have split := Nat.div_add_mod size count
  have below := Nat.mod_lt size pos
  have rest : size % count ≠ 0 := fun zero => uneven (Nat.dvd_of_mod_eq_zero zero)
  apply Nat.le_antisymm
  · rw [ceilDiv_le_iff_le_smul pos, smul_eq_mul, Nat.mul_succ]
    omega
  · exact (lt_ceilDiv_iff pos).mpr (by omega)

/-- The last slice of an even split has at least `n` bytes exactly when the
split is exact and its slices have, or the quotient and the remainder make up
for one byte less in each of the other slices. -/
theorem le_lastSlice_iff {size count n : Nat} (pos : 0 < count) :
    (count - 1) * (size ⌈/⌉ count) + n ≤ size ↔
      (count ∣ size ∧ n ≤ size / count) ∨
        (¬ count ∣ size ∧ count + n ≤ size / count + size % count + 1) := by
  have split := Nat.div_add_mod size count
  obtain ⟨others, rfl⟩ := Nat.exists_eq_succ_of_ne_zero pos.ne'
  rw [Nat.succ_eq_add_one] at *
  rw [Nat.add_mul, Nat.one_mul] at split
  by_cases even : others + 1 ∣ size
  · rw [Nat.mod_eq_zero_of_dvd even] at split
    rw [ceilDiv_of_dvd pos even, Nat.add_sub_cancel]
    simp only [even, true_and, not_true_eq_false, false_and, or_false]
    omega
  · rw [ceilDiv_of_not_dvd pos even, Nat.add_sub_cancel, Nat.mul_succ]
    simp only [even, false_and, not_false_eq_true, true_and, false_or]
    omega

/-- The slices have at least `n` bytes and the last at least `m`. -/
theorem le_slices_iff {size count n m : Nat} (pos : 0 < count) (some' : 0 < n) (le : m ≤ n) :
    (n ≤ size ⌈/⌉ count ∧ (count - 1) * (size ⌈/⌉ count) + m ≤ size) ↔
      (n - 1) * count < size ∧
        (count ∣ size ∨ count + m ≤ size / count + size % count + 1) := by
  have share : n ≤ size ⌈/⌉ count ↔ (n - 1) * count < size := by
    rw [Nat.mul_comm, ← lt_ceilDiv_iff pos]
    omega
  rw [le_lastSlice_iff pos, share]
  refine and_congr_right fun long => ?_
  by_cases even : count ∣ size
  · have longer := share.mpr long
    rw [ceilDiv_of_dvd pos even] at longer
    simp only [even, true_and, not_true_eq_false, false_and, or_false, true_or, iff_true]
    omega
  · simp only [even, false_and, not_false_eq_true, true_and, false_or]

end MiddlewareBench.EvenSplit
