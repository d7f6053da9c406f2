import Mathlib.Data.List.ReduceOption
import MiddlewareBench.Snapshot.Latest
import MiddlewareBench.Snapshot.Series

/-!
# The chart is aligned

Both lines have an entry for each label of the chart, each entry is that of the size
under its label, and the axis is long enough.
-/

namespace MiddlewareBench.Snapshot

open PyFloat PyNumbers

variable {rnd : Rounding} {rows allRows : List Row} {stack runLabel : String} {size : Int}

/-! ## Selected rows -/

theorem filterRunLabel_subset {r : Row} (member : r ∈ filterRunLabel rows runLabel) :
    r ∈ rows := by
  unfold filterRunLabel at member
  split at member
  · exact member
  · exact (List.mem_filter.mp member).1

/-- With sizes to sort by where they are sorted by, rows are selected from those given. -/
theorem exists_selectRows (sortable : runLabel = "" → ∀ r ∈ allRows, Sortable r) :
    ∃ rows, selectRows allRows runLabel = .ok rows ∧ ∀ r ∈ rows, r ∈ allRows := by
  unfold selectRows
  split
  · exact ⟨_, rfl, fun r => filterRunLabel_subset⟩
  · rename_i unlabelled
    refine ⟨_, latestPerConfig_eq (sortable (not_not.mp unlabelled)), ?_⟩
    intro r member
    exact values_newestOf_subset (StableSort.mem_sortBy.mp member)

theorem rowOk_of_lastUsable {r : Row} (last : lastUsable rows stack size = some r) :
    r ∈ rows ∧ rowOk r = true := by
  obtain ⟨member, ok⟩ := usable_of_lastUsable last
  unfold usable at ok
  exact ⟨member, (Bool.and_eq_true_iff.mp ok).2⟩

/-! ## The lines -/

/-- An entry of a line: the mean of the last usable row of the stack for the size, or
the placeholder when there is none. -/
structure EntryOf (rnd : Rounding) (rows : List Row) (stack : String) (size : Int)
    (entry : String) : Prop where
  placeholder : entry = "0" ↔ lastUsable rows stack size = none
  mean : ∀ r, lastUsable rows stack size = some r →
    ∃ mean, meanOf rnd r = .ok mean ∧ entry = fixed 3 mean
  whole : ',' ∉ entry.toList

/-- A line with one entry for each size. -/
def LineAligned (rnd : Rounding) (rows : List Row) (stack : String) (sizes : List Int)
    (line : String) : Prop :=
  ∃ entries : List String, line = ", ".intercalate entries ∧
    List.Forall₂ (EntryOf rnd rows stack) sizes entries

theorem entryOf_fmtEntry
    (readable : ∀ r, lastUsable rows stack size = some r → Readable rnd r) :
    EntryOf rnd rows stack size
      (fmtEntry ((lastUsable rows stack size).map (meanValue rnd))) := by
  cases last : lastUsable rows stack size with
  | none =>
      exact ⟨⟨fun _ => last, fun _ => rfl⟩, by simp [last], show ',' ∉ "0".toList by decide⟩
  | some r =>
      refine ⟨?_, ?_, comma_notMem_fixed 3 _⟩
      · rw [last]
        refine ⟨?_, ?_⟩
        · exact fun same => absurd same (fixed_ne_zero 3 _)
        · intro none
          cases none
      · intro r' last'
        rw [last, Option.some.injEq] at last'
        subst last'
        obtain ⟨mean, -, read, -⟩ := readable r last
        refine ⟨mean, read, ?_⟩
        rw [Option.map_some, meanValue, read]
        rfl

theorem lineAligned_fmtLine (readable : ∀ size ∈ canonicalSizes, ∀ r,
      lastUsable rows stack size = some r → Readable rnd r) :
    LineAligned rnd rows stack (chartSizes rows) (fmtLine (lineOf rnd rows stack)) := by
  refine ⟨_, rfl, ?_⟩
  unfold lineOf
  rw [List.map_map, List.forall₂_map_right_iff, List.forall₂_same]
  intro size member
  exact entryOf_fmtEntry (readable size (List.mem_filter.mp member).1)

/-- Labels and lines of a data set. -/
structure Aligned (rnd : Rounding) (rows : List Row) (dataset : Dataset) : Prop where
  sizes : ∃ sizes : List Int, dataset.sizeLabels = sizes.map sizeLabel ∧
    sizes.Pairwise (· < ·) ∧
    (∀ size, size ∈ sizes ↔ size ∈ canonicalSizes ∧
      (lastUsable rows "covesa" size ≠ none ∨ lastUsable rows "sgmenon" size ≠ none)) ∧
    LineAligned rnd rows "covesa" sizes dataset.covesaLine ∧
    LineAligned rnd rows "sgmenon" sizes dataset.sgmenonLine

theorem mem_chartSizes : size ∈ chartSizes rows ↔ size ∈ canonicalSizes ∧
    (lastUsable rows "covesa" size ≠ none ∨ lastUsable rows "sgmenon" size ≠ none) := by
  unfold chartSizes charted
  rw [List.mem_filter, Bool.or_eq_true, Option.isSome_iff_ne_none, Option.isSome_iff_ne_none]

theorem aligned_datasetOf (readable : ChartReadable rnd rows) {csvPath transport : String}
    {chartYMax : Int} :
    Aligned rnd rows (datasetOf rnd csvPath rows runLabel transport chartYMax) where
  sizes := by
    refine ⟨chartSizes rows, rfl, ?_, fun size => mem_chartSizes,
      lineAligned_fmtLine (readable "covesa" (by simp)),
      lineAligned_fmtLine (readable "sgmenon" (by simp))⟩
    have ladder : canonicalSizes.Pairwise (· < ·) := by decide
    exact ladder.sublist List.filter_sublist

/-! ## The axis -/

/-- In exact arithmetic the axis reaches beyond every value. -/
theorem yMax_exactly {values : List PyFloat}
    (nonneg : ∀ v ∈ values, ∃ s m, v = finite s m ∧ 0 ≤ signed s m) :
    ∃ n : Int, yMax exactly values = .ok n ∧
      ∀ s m, finite s m ∈ values → signed s m ≤ n := by
  cases values with
  | nil => exact ⟨1, rfl, by simp⟩
  | cons first rest =>
      obtain ⟨s, m, best, inside, bound⟩ := @maximum_finite first rest
        fun v member => (nonneg v member).imp fun s found => found.imp fun m same => same.1
      obtain ⟨u, p, sum, value⟩ := signed_add s false (m * (23 / 20)) 1
      refine ⟨(signed u p).ceil, ?_, ?_⟩
      · show ceil (add exactly (mul exactly (maximum first rest) _) _) = _
        rw [best]
        show ceil (add exactly (finite (s ^^ false) (m * (23 / 20))) (finite false 1)) = _
        rw [Bool.xor_false, sum]
        rfl
      · intro t n member
        obtain ⟨s', m', same, positive⟩ := nonneg _ inside
        cases same
        have margin : signed s m ≤ signed u p := by
          rw [value, signed_mul]
          push_cast
          unfold signed at positive ⊢
          simp only [Bool.false_eq_true, if_false]
          push_cast
          linarith
        exact (bound t n member).trans (margin.trans Rat.le_ceil)

/-- The number that is printed for a magnitude with `d` decimals. -/
def printed (d : Nat) (mag : ℚ≥0) : ℚ≥0 := roundHalfEven (mag * pow10 d) / pow10 d

/-- Printing does not pass an integer. -/
theorem signed_printed_le {s : Bool} {m : ℚ≥0} {n : Int} (d : Nat) (nonneg : 0 ≤ signed s m)
    (le : signed s m ≤ n) : signed s (printed d m) ≤ n := by
  have nonneg' : 0 ≤ n := by exact_mod_cast nonneg.trans le
  obtain ⟨k, rfl⟩ := Int.eq_ofNat_of_zero_le nonneg'
  cases s with
  | true =>
      refine le_trans ?_ (show (0 : ℚ) ≤ ((k : Int) : ℚ) by exact_mod_cast nonneg')
      simp [signed]
  | false =>
      have small : m ≤ k := by
        simp only [signed, Bool.false_eq_true, if_false] at le
        exact_mod_cast le
      have scaled : m * pow10 d ≤ ((k * 10 ^ d : Nat) : ℚ≥0) := by
        unfold pow10
        push_cast
        gcongr
      have rounded' := roundHalfEven_le scaled
      have quotient : printed d m ≤ k := by
        unfold printed pow10
        unfold pow10 at rounded'
        rw [div_le_iff₀ (by positivity)]
        exact_mod_cast rounded'
      simp only [signed, Bool.false_eq_true, if_false]
      exact_mod_cast quotient

/-- Every value shown is on the axis, exactly and as printed. -/
def WithinAxis (rows : List Row) (dataset : Dataset) : Prop :=
  ∀ stack ∈ ["covesa", "sgmenon"], ∀ size ∈ canonicalSizes, ∀ r,
    lastUsable rows stack size = some r → ∃ s m, meanOf exactly r = .ok (finite s m) ∧
      signed s m ≤ dataset.chartYMax ∧ signed s (printed 3 m) ≤ dataset.chartYMax

/-- A row whose mean is not negative. -/
def NonnegativeMean (r : Row) : Prop :=
  ∃ s m, meanOf exactly r = .ok (finite s m) ∧ 0 ≤ signed s m

theorem mem_plotted {v : PyFloat} : v ∈ plotted rnd rows ↔
    ∃ stack ∈ ["covesa", "sgmenon"], ∃ size ∈ chartSizes rows, ∃ r,
      lastUsable rows stack size = some r ∧ v = meanValue rnd r := by
  unfold plotted lineOf
  rw [List.reduceOption_mem_iff, List.mem_append, List.mem_map, List.mem_map]
  simp only [List.mem_cons, List.not_mem_nil, or_false, exists_eq_or_imp, exists_eq_left,
    Option.map_eq_some_iff, eq_comm (a := v)]

theorem mem_chartSizes_of_lastUsable {r : Row} (one : stack ∈ ["covesa", "sgmenon"])
    (member : size ∈ canonicalSizes) (last : lastUsable rows stack size = some r) :
    size ∈ chartSizes rows :=
  List.mem_filter.mpr ⟨member, charted_eq_true.mpr ⟨stack, one, r, last⟩⟩

theorem meanValue_eq {r : Row} {mean : PyFloat} (read : meanOf rnd r = .ok mean) :
    meanValue rnd r = mean := by
  unfold meanValue
  rw [read]
  rfl

/-- In exact arithmetic there is a data set, and its axis is long enough. -/
theorem withinAxis_exactly {csvPath transport : String}
    (selected : selectRows allRows runLabel = .ok rows) (readable : ChartReadable exactly rows)
    (nonneg : ∀ r ∈ rows, rowOk r = true → NonnegativeMean r) :
    ∃ dataset, makeDataset exactly csvPath allRows runLabel transport = .ok dataset ∧
      WithinAxis rows dataset := by
  have values : ∀ v ∈ plotted exactly rows, ∃ s m, v = finite s m ∧ 0 ≤ signed s m := by
    intro v member
    obtain ⟨stack, -, size, -, r, last, rfl⟩ := mem_plotted.mp member
    obtain ⟨inRows, ok⟩ := rowOk_of_lastUsable last
    obtain ⟨s, m, read, positive⟩ := nonneg r inRows ok
    exact ⟨s, m, meanValue_eq read, positive⟩
  obtain ⟨n, ends, bound⟩ := yMax_exactly values
  refine ⟨_, makeDataset_eq_ok.mpr ⟨rows, n, selected, readable, ends, rfl⟩, ?_⟩
  intro stack one size member r last
  obtain ⟨inRows, ok⟩ := rowOk_of_lastUsable last
  obtain ⟨s, m, read, positive⟩ := nonneg r inRows ok
  have shown : finite s m ∈ plotted exactly rows := mem_plotted.mpr
    ⟨stack, one, size, mem_chartSizes_of_lastUsable one member last, r, last,
      (meanValue_eq read).symm⟩
  have le := bound s m shown
  exact ⟨s, m, read, le, signed_printed_le 3 positive le⟩

/-- **The chart is aligned.** For every history whose sizes are integers and whose
usable rows can be read, in both modes: rows are selected; in the data set made of
them the labels are those of the sizes that have a usable row, in increasing order,
and each line has for each of them the mean of the last usable row, or the
placeholder where there is none; and in exact arithmetic, with no mean negative, the
data set is made and no value lies beyond the axis. -/
theorem chart_aligned (rnd : Rounding) (csvPath : String) (allRows : List Row)
    (runLabel transport : String) (sortable : ∀ r ∈ allRows, Sortable r)
    (readable : ∀ r ∈ allRows, rowOk r = true → Readable rnd r) :
    ∃ rows, selectRows allRows runLabel = .ok rows ∧
      (∀ dataset, makeDataset rnd csvPath allRows runLabel transport = .ok dataset →
        Aligned rnd rows dataset) ∧
      (rnd = exactly → (∀ r ∈ allRows, rowOk r = true → NonnegativeMean r) →
        ∃ dataset, makeDataset rnd csvPath allRows runLabel transport = .ok dataset ∧
          WithinAxis rows dataset) := by
  obtain ⟨rows, selected, subset⟩ : ∃ rows, selectRows allRows runLabel = .ok rows ∧
      ∀ r ∈ rows, r ∈ allRows := exists_selectRows fun _ => sortable
  have chartReadable : ChartReadable rnd rows := by
    intro stack _ size _ r last
    obtain ⟨member, ok⟩ := rowOk_of_lastUsable last
    exact readable r (subset r member) ok
  refine ⟨rows, selected, ?_, ?_⟩
  · intro dataset made
    obtain ⟨rows', chartYMax, selected', -, -, rfl⟩ := makeDataset_eq_ok.mp made
    rw [selected, Except.ok.injEq] at selected'
    subst selected'
    exact aligned_datasetOf chartReadable
  · intro exact' nonneg
    subst exact'
    exact withinAxis_exactly selected chartReadable fun r member => nonneg r (subset r member)

/-- Both stacks at 64 bytes, and a run of one of them that failed. -/
def covRow : Row := historyRow "2026-01-01" "a" "covesa" "64" "100.0" "1000" "12.500" "20.000"
def sgmRow : Row := historyRow "2026-01-01" "a" "sgmenon" "64" "100.0" "1000" "10.000" "18.000"
def naRow : Row := historyRow "2026-01-01" "a" "sgmenon" "1024" "100" "0" "NA" "NA"

theorem chart_aligned_three :
    ∃ rows dataset, selectRows [covRow, sgmRow, naRow] "a" = .ok rows ∧
      makeDataset exactly "snapshot.csv" [covRow, sgmRow, naRow] "a" "udp" = .ok dataset ∧
      Aligned exactly rows dataset ∧ WithinAxis rows dataset := by
  have covMean : meanOf exactly covRow = .ok (finite false (25 / 2)) := by decide +kernel
  have covP99 : p99Of exactly covRow = .ok (finite false 20) := by decide +kernel
  have sgmMean : meanOf exactly sgmRow = .ok (finite false 10) := by decide +kernel
  have sgmP99 : p99Of exactly sgmRow = .ok (finite false 18) := by decide +kernel
  have sortable : ∀ r ∈ [covRow, sgmRow, naRow], Sortable r := by
    simp only [List.forall_mem_cons, List.not_mem_nil, false_implies, implies_true, and_true]
    exact ⟨⟨64, rfl⟩, ⟨64, rfl⟩, ⟨1024, rfl⟩⟩
  have readable : ∀ r ∈ [covRow, sgmRow, naRow], rowOk r = true →
      Readable exactly r ∧ NonnegativeMean r := by
    simp only [List.forall_mem_cons, List.not_mem_nil, false_implies, implies_true, and_true]
    refine ⟨fun _ => ⟨⟨_, _, covMean, covP99⟩, _, _, covMean, by norm_num [signed]⟩,
      fun _ => ⟨⟨_, _, sgmMean, sgmP99⟩, _, _, sgmMean, by norm_num [signed]⟩, ?_⟩
    exact fun ok => absurd ok (by decide)
  obtain ⟨rows, selected, aligned, within⟩ := chart_aligned exactly "snapshot.csv"
    [covRow, sgmRow, naRow] "a" "udp" sortable fun r member ok => (readable r member ok).1
  obtain ⟨dataset, made, inside⟩ := within rfl fun r member ok => (readable r member ok).2
  exact ⟨rows, dataset, selected, made, aligned dataset made, inside⟩

end MiddlewareBench.Snapshot
