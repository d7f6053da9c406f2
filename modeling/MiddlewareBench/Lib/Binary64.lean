import Mathlib.Tactic.Linarith
import Mathlib.Tactic.Positivity
import MiddlewareBench.Lib.PyNumbers

/-!
# Machine arithmetic is accurate

How far `binary64` is from the exact magnitude, and that a number that is printed with
few enough places reads back as one that is printed alike.
-/

namespace MiddlewareBench.PyFloat

/-! ## Rounding to an integer -/

theorem abs_roundHalfEven_sub (q : ℚ≥0) : |(roundHalfEven q : ℚ) - q| ≤ 1 / 2 := by
  have pos : (0 : ℚ) < q.den := by exact_mod_cast q.den_pos
  have value : (q : ℚ) = q.num / q.den := by
    conv_lhs => rw [← NNRat.num_div_den q]
    push_cast
    rfl
  have parts : (q.den : ℚ) * (q.num / q.den : Nat) + (q.num % q.den : Nat) = q.num := by
    exact_mod_cast Nat.div_add_mod q.num q.den
  have rest : ((q.num % q.den : Nat) : ℚ) < q.den := by
    exact_mod_cast Nat.mod_lt _ q.den_pos
  have scaled : ∀ n : Nat, |(n : ℚ) * q.den - q.num| ≤ q.den / 2 → |(n : ℚ) - q| ≤ 1 / 2 := by
    intro n near
    have same : (n : ℚ) - q = (n * q.den - q.num) / q.den := by
      rw [value]
      field_simp
    rw [same, abs_div, abs_of_pos pos, div_le_iff₀ pos]
    linarith
  unfold roundHalfEven
  dsimp only
  apply scaled
  split
  · rename_i down
    have half : 2 * ((q.num % q.den : Nat) : ℚ) ≤ q.den := by
      rcases down with less | same
      · exact_mod_cast less.le
      · exact_mod_cast same.1.le
    have low : (0 : ℚ) ≤ (q.num % q.den : Nat) := Nat.cast_nonneg _
    rw [abs_le]
    refine ⟨?_, ?_⟩ <;> linarith
  · rename_i up
    have half : (q.den : ℚ) ≤ 2 * ((q.num % q.den : Nat) : ℚ) := by
      exact_mod_cast not_lt.mp (not_or.mp up).1
    rw [abs_le]
    push_cast
    refine ⟨?_, ?_⟩ <;> linarith

/-- Less than a half from an integer, that is the nearest. -/
theorem roundHalfEven_of_near {q : ℚ≥0} {n : Nat} (near : |(q : ℚ) - n| < 1 / 2) :
    roundHalfEven q = n := by
  have close := abs_le.mp (abs_roundHalfEven_sub q)
  have near' := abs_lt.mp near
  have below : (roundHalfEven q : ℚ) < n + 1 := by linarith
  have above : (n : ℚ) < roundHalfEven q + 1 := by linarith
  have below' : roundHalfEven q < n + 1 := by exact_mod_cast below
  have above' : n < roundHalfEven q + 1 := by exact_mod_cast above
  omega

/-! ## Rounding to a double -/

theorem floorLog2_lt {q : ℚ≥0} {e : Nat} (below : q < 2 ^ e) : floorLog2 q < e := by
  have bound : q.num < 2 ^ e * q.den := by
    have pos : (0 : ℚ≥0) < q.den := by exact_mod_cast q.den_pos
    rw [← NNRat.num_div_den q, div_lt_iff₀ pos] at below
    exact_mod_cast below
  by_cases zero : q.num = 0
  · have whole : q = 0 := by rw [← NNRat.num_div_den q, zero, Nat.cast_zero, zero_div]
    have first : floorLog2 0 = -1 := by rfl
    rw [whole, first]
    omega
  · unfold floorLog2
    dsimp only
    have low := Nat.log2_self_le zero
    have high := @Nat.lt_log2_self q.den
    have order : Nat.log2 q.num < e + (Nat.log2 q.den + 1) := by
      rw [← Nat.pow_lt_pow_iff_right (a := 2) (by decide), Nat.pow_add]
      calc 2 ^ Nat.log2 q.num ≤ q.num := low
        _ < 2 ^ e * q.den := bound
        _ ≤ 2 ^ e * 2 ^ (Nat.log2 q.den + 1) := Nat.mul_le_mul_left _ high.le
    split
    · omega
    · rename_i reached
      by_cases negative : (Nat.log2 q.num : Int) - Nat.log2 q.den < 0
      · omega
      · obtain ⟨k, difference⟩ := Int.eq_ofNat_of_zero_le (not_lt.mp negative)
        rw [difference, Int.toNat_of_nonpos (by omega), Int.toNat_natCast, pow_zero, mul_one,
          not_lt] at reached
        have less : 2 ^ k < 2 ^ e := by
          apply Nat.lt_of_mul_lt_mul_right (a := q.den)
          rw [Nat.mul_comm]
          exact reached.trans_lt bound
        have exponents := (Nat.pow_lt_pow_iff_right (by decide)).mp less
        omega

/-- Half of the lowest bit is what rounding can change, where that bit is no integer. -/
theorem binary64_near {q : ℚ≥0} {e : Nat} (few : e ≤ 53) (below : q < 2 ^ e) :
    ∃ r, binary64 q = some r ∧ |(r : ℚ) - q| ≤ 1 / 2 ^ (54 - e) := by
  obtain ⟨k, exponent, places⟩ : ∃ k : Nat,
      max (floorLog2 q) (-1022) - 52 = -(k : Int) ∧ 53 - e ≤ k := by
    have top := floorLog2_lt below
    exact ⟨(-(max (floorLog2 q) (-1022) - 52)).toNat, by omega, by omega⟩
  have scaled : ((q * 2 ^ k : ℚ≥0) : ℚ) = (q : ℚ) * 2 ^ k := by push_cast; rfl
  have close := abs_roundHalfEven_sub (q * 2 ^ k)
  rw [scaled] at close
  have pos : (0 : ℚ) < 2 ^ k := by positivity
  have near : |((roundHalfEven (q * 2 ^ k) / 2 ^ k : ℚ≥0) : ℚ) - q| ≤ 1 / 2 ^ (54 - e) := by
    have same : ((roundHalfEven (q * 2 ^ k) / 2 ^ k : ℚ≥0) : ℚ) - q =
        (roundHalfEven (q * 2 ^ k) - q * 2 ^ k) / 2 ^ k := by
      push_cast
      field_simp
    rw [same, abs_div, abs_of_pos pos, div_le_div_iff₀ pos (by positivity)]
    calc |(roundHalfEven (q * 2 ^ k) : ℚ) - q * 2 ^ k| * 2 ^ (54 - e)
        ≤ 1 / 2 * 2 ^ (k + 1) := by
          apply mul_le_mul close _ (by positivity) (by norm_num)
          exact pow_le_pow_right₀ (by norm_num) (by omega)
      _ = 1 * 2 ^ k := by rw [pow_succ]; ring
  refine ⟨roundHalfEven (q * 2 ^ k) / 2 ^ k, ?_, near⟩
  unfold binary64
  dsimp only
  rw [exponent, neg_neg, Int.toNat_natCast, Int.toNat_of_nonpos (by omega), pow_zero, div_one,
    mul_one, if_pos]
  -- what is this far from an overflow stays below it
  have small : ((roundHalfEven (q * 2 ^ k) / 2 ^ k : ℚ≥0) : ℚ) < 2 ^ 1024 := by
    have top : (q : ℚ) < 2 ^ 53 := by
      calc (q : ℚ) < 2 ^ e := by exact_mod_cast below
        _ ≤ 2 ^ 53 := pow_le_pow_right₀ (by norm_num) few
    have unit : (1 : ℚ) / 2 ^ (54 - e) ≤ 1 := by
      rw [div_le_one (by positivity)]
      exact one_le_pow₀ (by norm_num)
    have most := (abs_le.mp near).2
    calc ((roundHalfEven (q * 2 ^ k) / 2 ^ k : ℚ≥0) : ℚ) ≤ q + 1 := by linarith
      _ < 2 ^ 54 := by linarith
      _ ≤ 2 ^ 1024 := pow_le_pow_right₀ (by norm_num) (by decide)
  exact_mod_cast small

/-- A magnitude that is rounded to one, and to nearly itself. -/
theorem exists_binary64 {q : ℚ≥0} {n : Nat} (small : q ≤ n) (few : n < 2 ^ 53) :
    ∃ r, binary64 q = some r ∧ r ≤ n + 1 := by
  have below : q < 2 ^ 53 := by
    calc q ≤ n := small
      _ < 2 ^ 53 := by exact_mod_cast few
  obtain ⟨r, made, near⟩ := binary64_near (Nat.le_refl 53) below
  refine ⟨r, made, ?_⟩
  have most := (abs_le.mp near).2
  have small' : (q : ℚ) ≤ n := by exact_mod_cast small
  have sum : (r : ℚ) ≤ n + 1 := by linarith
  exact_mod_cast sum

end MiddlewareBench.PyFloat

namespace MiddlewareBench.PyNumbers

open PyFloat

/-- **What is printed reads back in machine arithmetic** as a number that is printed
alike, with three places up to `2^42`. -/
theorem exists_pyFloat_binary64 {neg : Bool} {mag : ℚ≥0} (small : mag ≤ 2 ^ 42) :
    ∃ mag', pyFloat binary64 (fixed 3 (.finite neg mag)) = .ok (.finite neg mag') ∧
      fixed 3 (.finite neg mag') = fixed 3 (.finite neg mag) ∧ mag' ≤ 2 ^ 42 + 1 := by
  have units : roundHalfEven (mag * pow10 3) ≤ 2 ^ 42 * 1000 := by
    apply roundHalfEven_le
    calc mag * pow10 3 ≤ 2 ^ 42 * pow10 3 := by gcongr
      _ = (2 ^ 42 * 1000 : Nat) := by
        unfold pow10
        norm_num
  have value : (roundHalfEven (mag * pow10 3) : ℚ≥0) / pow10 3 ≤ (2 ^ 42 : Nat) := by
    have pos : 0 < pow10 3 := pow_pos (by decide) 3
    rw [div_le_iff₀ pos]
    calc (roundHalfEven (mag * pow10 3) : ℚ≥0) ≤ (2 ^ 42 * 1000 : Nat) := by exact_mod_cast units
      _ = (2 ^ 42 : Nat) * pow10 3 := by
        unfold pow10
        norm_num
  have below : (roundHalfEven (mag * pow10 3) : ℚ≥0) / pow10 3 < 2 ^ 43 :=
    value.trans_lt (by norm_num)
  obtain ⟨r, made, near⟩ := binary64_near (by decide) below
  refine ⟨r, ?_, ?_, ?_⟩
  · rw [pyFloat_fixed binary64 (by decide)]
    unfold rounded
    rw [made]
  · have same : roundHalfEven (r * pow10 3) = roundHalfEven (mag * pow10 3) := by
      apply roundHalfEven_of_near
      unfold pow10 at near ⊢
      push_cast at near ⊢
      have parts := abs_le.mp near
      norm_num at parts
      rw [abs_lt]
      refine ⟨?_, ?_⟩ <;> linarith
    unfold fixed
    dsimp only
    rw [same]
  · have most := (abs_le.mp near).2
    have value' : (((roundHalfEven (mag * pow10 3) : ℚ≥0) / pow10 3 : ℚ≥0) : ℚ) ≤ 2 ^ 42 := by
      exact_mod_cast value
    have step : (1 : ℚ) / 2 ^ (54 - 43) ≤ 1 := by norm_num
    have sum : (r : ℚ) ≤ 2 ^ 42 + 1 := by linarith only [most, step, value']
    exact_mod_cast sum

end MiddlewareBench.PyNumbers
