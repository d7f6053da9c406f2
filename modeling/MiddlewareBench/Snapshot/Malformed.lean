import MiddlewareBench.Snapshot.Chart
import MiddlewareBench.Snapshot.Table

/-!
# Malformed rows

Rows whose size is no integer are left out of the chart and of the table, but not of
the sort by size, and a charted row has to be readable. A history renders as if its
malformed rows were not there exactly when neither is in the way (`unharmed_iff`).
-/

namespace MiddlewareBench.Snapshot

open Dict Fallible PyFloat PyNumbers StableSort

/-- A row whose size is an integer. -/
def hasSize (r : Row) : Bool := (sizeOf r).toOption.isSome

/-! ## Leaving rows without a size out -/

section LeftOut

variable {rnd : Rounding} {rows allRows : List Row} {stack runLabel : String} {size : Int}

/-- Whether a row has a size is a matter of its configuration. -/
theorem hasSize_eq (r : Row) : hasSize r = (pyInt (configKey r).2.1).toOption.isSome := by
  unfold hasSize sizeOf configKey Row.item Row.get
  cases r.get? "size" with
  | none => rfl
  | some text => rfl

theorem filter_hasSize_newestOf : (newestOf rows).values.filter hasSize =
    (newestOf (rows.filter hasSize)).values := by
  have byKey : hasSize = fun r => (pyInt (configKey r).2.1).toOption.isSome :=
    funext hasSize_eq
  have filed : Filed configKey (newestOf rows) := filed_foldBy selects_newer
  have kept := filter_values filed fun key => (pyInt key.2.1).toOption.isSome
  unfold newestOf at kept ⊢
  rw [filterKeys_foldBy] at kept
  rw [byKey]
  exact kept

/-- Rows without a size can be left out before rows are selected. -/
theorem selectRows_filter (sortable : runLabel = "" → ∀ r ∈ allRows, Sortable r)
    (selected : selectRows allRows runLabel = .ok rows) :
    selectRows (allRows.filter hasSize) runLabel = .ok (rows.filter hasSize) := by
  unfold selectRows at selected ⊢
  by_cases labelled : runLabel ≠ ""
  · rw [if_pos labelled, Except.ok.injEq] at selected
    rw [if_pos labelled, ← selected]
    unfold filterRunLabel
    rw [if_neg labelled, if_neg labelled, List.filter_comm]
  · rw [if_neg labelled] at selected ⊢
    have sortable' := sortable (not_not.mp labelled)
    rw [latestPerConfig_eq sortable', Except.ok.injEq] at selected
    rw [latestPerConfig_eq fun r member => sortable' r (List.mem_filter.mp member).1,
      ← selected, sortBy_filter, filter_hasSize_newestOf]

theorem lastUsable_filter :
    lastUsable (rows.filter hasSize) stack size = lastUsable rows stack size := by
  unfold lastUsable
  rw [List.filter_filter]
  refine congrArg List.getLast? (List.filter_congr ?_)
  intro r _
  rw [Bool.and_eq_left_iff_imp]
  intro ok
  unfold hasSize
  rw [(usable_eq_true.mp ok).2.1]
  rfl

theorem chartSizes_filter : chartSizes (rows.filter hasSize) = chartSizes rows := by
  unfold chartSizes charted
  simp only [lastUsable_filter]

theorem lineOf_filter : lineOf rnd (rows.filter hasSize) stack = lineOf rnd rows stack := by
  unfold lineOf
  simp only [chartSizes_filter, lastUsable_filter]

theorem byConfig_filter : byConfig (rows.filter hasSize) = byConfig rows := by
  unfold byConfig
  rw [List.foldl_filter]
  congr 1
  funext d r
  unfold hasSize byConfigStep
  cases sizeOf r with
  | error e => rfl
  | ok size => rfl

theorem comparisonRows_filter :
    comparisonRows rnd (rows.filter hasSize) = comparisonRows rnd rows := by
  have same : (rows.filter hasSize).foldl byConfigStep .empty = rows.foldl byConfigStep .empty :=
    byConfig_filter
  unfold comparisonRows
  rw [same]

end LeftOut

/-! ## What is in the way -/

section InTheWay

variable (rnd : Rounding)

/-- The axis of these values ends at a number. -/
def AxisEnds : List PyFloat → Prop
  | [] => True
  | first :: rest => ∃ neg mag, axisEnd rnd first rest = finite neg mag

/-- Sizes that can be sorted by where they are, charted rows that can be read, and a
finite axis. -/
structure Renderable (allRows : List Row) (runLabel : String) : Prop where
  sizes : runLabel = "" → ∀ r ∈ allRows, Sortable r
  numbers : ∀ rows, selectRows allRows runLabel = .ok rows → ChartReadable rnd rows
  axis : ∀ rows, selectRows allRows runLabel = .ok rows → AxisEnds rnd (plotted rnd rows)

/-- There is a data set, with the comparisons and the chart of the rows that have a size. -/
def Unharmed (csvPath : String) (allRows : List Row) (runLabel transport : String) : Prop :=
  ∃ dataset dataset', makeDataset rnd csvPath allRows runLabel transport = .ok dataset ∧
    makeDataset rnd csvPath (allRows.filter hasSize) runLabel transport = .ok dataset' ∧
    dataset.comparisons = dataset'.comparisons ∧ dataset.sizeLabels = dataset'.sizeLabels ∧
    dataset.covesaLine = dataset'.covesaLine ∧ dataset.sgmenonLine = dataset'.sgmenonLine

variable {rnd} {rows allRows : List Row} {runLabel : String} {values : List PyFloat}

theorem ceil_eq_ok {v : PyFloat} : (∃ n, ceil v = .ok n) ↔ ∃ neg mag, v = finite neg mag := by
  cases v with
  | finite neg mag => exact iff_of_true ⟨_, rfl⟩ ⟨neg, mag, rfl⟩
  | inf neg => simp [ceil]
  | nan => simp [ceil]

theorem yMax_eq_ok : (∃ n, yMax rnd values = .ok n) ↔ AxisEnds rnd values := by
  cases values with
  | nil => exact iff_of_true ⟨1, rfl⟩ trivial
  | cons first rest => exact ceil_eq_ok

/-- What was sorted by its size had one. -/
theorem sortable_of_latestPerConfig (sorted : latestPerConfig allRows = .ok rows) :
    ∀ r ∈ allRows, Sortable r := by
  intro r member
  unfold latestPerConfig at sorted
  rw [foldl_keepNewest] at sorted
  obtain ⟨keyed, ran, -⟩ := bind_eq_ok.mp sorted
  obtain ⟨r', kept, sameKey⟩ : ∃ r' ∈ (newestOf allRows).values, configKey r' = configKey r := by
    rw [← List.mem_map, map_configKey_values]
    exact mem_keys_foldBy.mpr (.inr (List.mem_map.mpr ⟨r, member, rfl⟩))
  obtain ⟨_, decorated⟩ := exists_of_mapM_eq_ok ran kept
  have sameSize : r'.get "size" "" = r.get "size" "" := congrArg (fun key => key.2.1) sameKey
  unfold Sortable
  rw [sortSize_eq, ← sameSize, ← sortSize_eq]
  unfold sortKey at decorated
  cases read : sortSize r' with
  | ok size => exact ⟨size, rfl⟩
  | error e =>
      rw [read] at decorated
      cases decorated

/-- **When malformed rows are harmless.** For every history and both modes: the data
set is made, with the comparisons and lines of the rows that have an integer size, if
and only if without a label every size is an integer or empty, the charted rows can be
read, and the axis is finite. -/
theorem unharmed_iff (rnd : Rounding) (csvPath : String) (allRows : List Row)
    (runLabel transport : String) :
    Unharmed rnd csvPath allRows runLabel transport ↔ Renderable rnd allRows runLabel := by
  refine ⟨?_, ?_⟩
  · intro unharmed
    rcases unharmed with ⟨dataset, -, made, -⟩
    obtain ⟨rows, chartYMax, selected, readable, ends, -⟩ := makeDataset_eq_ok.mp made
    refine ⟨?_, ?_, ?_⟩
    · intro unlabelled
      unfold selectRows at selected
      rw [if_neg (not_not_intro unlabelled)] at selected
      exact sortable_of_latestPerConfig selected
    · intro rows' selected'
      rw [selected, Except.ok.injEq] at selected'
      exact selected' ▸ readable
    · intro rows' selected'
      rw [selected, Except.ok.injEq] at selected'
      exact selected' ▸ yMax_eq_ok.mp ⟨chartYMax, ends⟩
  · intro renderable
    obtain ⟨rows, selected, -⟩ := exists_selectRows renderable.sizes
    have readable := renderable.numbers rows selected
    obtain ⟨chartYMax, ends⟩ := yMax_eq_ok.mpr (renderable.axis rows selected)
    have selected' := selectRows_filter renderable.sizes selected
    have readable' : ChartReadable rnd (rows.filter hasSize) := by
      intro stack one size member r last
      rw [lastUsable_filter] at last
      exact readable stack one size member r last
    have ends' : yMax rnd (plotted rnd (rows.filter hasSize)) = .ok chartYMax := by
      unfold plotted at ends ⊢
      rw [lineOf_filter, lineOf_filter]
      exact ends
    refine ⟨_, _, makeDataset_eq_ok.mpr ⟨rows, chartYMax, selected, readable, ends, rfl⟩,
      makeDataset_eq_ok.mpr ⟨_, chartYMax, selected', readable', ends', rfl⟩, ?_, ?_, ?_, ?_⟩
    · exact comparisonRows_filter.symm
    · exact congrArg (List.map sizeLabel) chartSizes_filter.symm
    · exact congrArg fmtLine lineOf_filter.symm
    · exact congrArg fmtLine lineOf_filter.symm

/-- A row whose columns were shifted by a comma. -/
def shiftedRow : Row :=
  historyRow "2026-01-01" "a" "50" "covesa" "64" "100.0" "1000" "12.000"

/-- Without a label, one size that is no integer ends the run. -/
theorem not_unharmed_shifted :
    ¬ Unharmed binary64 "snapshot.csv" [covRow, shiftedRow] "" "udp" := by
  intro unharmed
  rcases unharmed with ⟨dataset, -, made, -⟩
  have failed : makeDataset binary64 "snapshot.csv" [covRow, shiftedRow] "" "udp" =
      .error .valueError := by decide +kernel
  rw [failed] at made
  cases made

end InTheWay

end MiddlewareBench.Snapshot
