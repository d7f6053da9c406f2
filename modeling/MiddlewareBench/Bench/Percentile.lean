import Mathlib.Data.Rat.Floor
import MiddlewareBench.Lib.Quantile
import MiddlewareBench.Vsomeip.PrintCsv

/-!
# Percentiles

`Percentile` and `ReportLatencyCounters` of `common.h`, and `PercentileUs` of
`net_common.h` and `bench_common.h`. The three functions have one body. Over exact
numbers it computes the quantile by linear interpolation (`percentileOf_eq_quantile`).
-/

namespace MiddlewareBench

open Quantile StableSort Vsomeip

/-- The common body. `none` is an access outside the vector. -/
def percentileOf (v : List Double) (p : Double) : Option Double :=
  if v = [] then some 0
  else do
    let v := sortBy id v
    let idx := p * (v.length - 1 : Nat)
    let lo := ⌊idx⌋₊
    let hi := min (lo + 1) (v.length - 1)
    let frac := idx - lo
    let vLo ← v[lo]?
    let vHi ← v[hi]?
    some (vLo * (1 - frac) + vHi * frac)

/-- `common.h`. -/
def Bench.percentile (v : List Double) (p : Double) : Option Double :=
  percentileOf v p

/-- `net_common.h`. -/
def Net.percentileUs (us : List Double) (p : Double) : Option Double :=
  percentileOf us p

/-- `bench_common.h`, with its accesses checked. -/
def Vsomeip.percentileUsChecked (us : List Double) (p : Double) : Option Double :=
  percentileOf us p

variable {v : List Double} {p : Double}

/-- The greatest position is that of the last element. -/
theorem floor_position_le (atMost : p ≤ 1) (n : Nat) : ⌊p * (n : Double)⌋₊ ≤ n := by
  apply Nat.floor_le_of_le
  exact mul_le_of_le_one_left n.cast_nonneg atMost

theorem percentileOf_eq_quantile (nonempty : v ≠ []) (atMost : p ≤ 1) :
    percentileOf v p = some (quantile v p) := by
  have positive := List.length_pos_of_ne_nil nonempty
  have below := floor_position_le atMost (v.length - 1)
  have inside : ⌊p * ((v.length - 1 : Nat) : Double)⌋₊ < (sortBy id v).length := by
    rw [length_sortBy]
    omega
  have next := getElem?_clamped (sortBy_ne_nil (f := id) nonempty)
    (⌊p * ((v.length - 1 : Nat) : Double)⌋₊ + 1)
  rw [length_sortBy] at next
  simp only [percentileOf, if_neg nonempty, length_sortBy, getElem?_eq_rank inside, next,
    Option.bind_eq_bind, Option.bind_some]
  rfl

theorem proper_percentileOf : Proper percentileOf :=
  proper_of_eq_quantile fun _ _ nonempty _ atMost => percentileOf_eq_quantile nonempty atMost

theorem floor_toNat (x : Double) : x.floor.toNat = ⌊x⌋₊ :=
  Int.floor_toNat x

/-- `percentileUs` reads `0` outside the vector, and is never asked to. -/
theorem percentileUsChecked_eq (us : List Double) (atMost : p ≤ 1) :
    percentileUsChecked us p = some (percentileUs us p) := by
  by_cases empty : us = []
  · unfold percentileUsChecked percentileOf percentileUs
    rw [if_pos empty, if_pos empty]
  · have below := floor_position_le atMost (us.length - 1)
    have position : min ⌊p * ((us.length - 1 : Nat) : Double)⌋₊ (us.length - 1) =
        ⌊p * ((us.length - 1 : Nat) : Double)⌋₊ := min_eq_left below
    unfold percentileUsChecked
    rw [percentileOf_eq_quantile empty atMost]
    unfold percentileUs
    simp only [if_neg empty, quantile, polyline, between, rank, length_sortBy, floor_toNat,
      position]

/-- All three are quantiles, and the third is what the result line of the vsomeip
benches is printed from. -/
theorem percentiles_proper :
    Proper Bench.percentile ∧ Proper Net.percentileUs ∧ Proper percentileUsChecked ∧
      ∀ us p, 0 ≤ p → p ≤ 1 → percentileUsChecked us p = some (percentileUs us p) :=
  ⟨proper_percentileOf, proper_percentileOf, proper_percentileOf,
    fun us _ _ atMost => percentileUsChecked_eq us atMost⟩

example : Bench.percentile [4, 1, 2] (3 / 4) = some 3 := by decide +kernel

/-! ## What is reported -/

namespace Bench

/-- The counters in the order in which they are set. -/
def reportLatencyCounters (latSec : List Double) : Option (List (String × Double)) :=
  if latSec = [] then some []
  else do
    let least ← latSec.min?
    let greatest ← latSec.max?
    let median ← percentile latSec (1 / 2)
    let p99 ← percentile latSec (99 / 100)
    some [("min_ns", least * 1000000000), ("max_ns", greatest * 1000000000),
      ("median_ns", median * 1000000000), ("p99_ns", p99 * 1000000000)]

/-- Four counters are set, and the two percentiles lie in their order between the
extremes. -/
theorem reportLatencyCounters_ordered {latSec : List Double} (nonempty : latSec ≠ []) :
    ∃ least median p99 greatest : Double,
      reportLatencyCounters latSec = some [("min_ns", least * 1000000000),
        ("max_ns", greatest * 1000000000), ("median_ns", median * 1000000000),
        ("p99_ns", p99 * 1000000000)] ∧
      least ≤ median ∧ median ≤ p99 ∧ p99 ≤ greatest := by
  refine ⟨quantile latSec 0, quantile latSec (1 / 2), quantile latSec (99 / 100),
    quantile latSec 1, ?_, ?_, ?_, ?_⟩
  · unfold reportLatencyCounters percentile
    rw [if_neg nonempty, min?_eq_quantile nonempty, max?_eq_quantile nonempty,
      percentileOf_eq_quantile nonempty (by norm_num),
      percentileOf_eq_quantile nonempty (by norm_num)]
    rfl
  · exact quantile_mono le_rfl (by norm_num) latSec
  · exact quantile_mono (by norm_num) (by norm_num) latSec
  · exact quantile_mono (by norm_num) (by norm_num) latSec

end Bench

/-- The two percentiles of a result line, also of one without samples. -/
theorem p50_le_p99 (us : List Double) :
    Vsomeip.percentileUs us (1 / 2) ≤ Vsomeip.percentileUs us (99 / 100) := by
  by_cases empty : us = []
  · simp [Vsomeip.percentileUs, empty]
  · exact proper_percentileOf.mono us (1 / 2) (99 / 100) _ _ empty (by norm_num) (by norm_num)
      (by norm_num) (percentileUsChecked_eq us (by norm_num))
      (percentileUsChecked_eq us (by norm_num))

end MiddlewareBench
