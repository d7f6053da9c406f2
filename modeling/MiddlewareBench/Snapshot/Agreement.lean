import MiddlewareBench.Snapshot.Chart
import MiddlewareBench.Snapshot.Table

/-!
# Chart and table

The chart shows the last usable row of a size at any rate, the table the last row of
a size and rate, usable or not. They agree where these rows have one mean.
-/

namespace MiddlewareBench.Snapshot

open DecimalText Fallible PyFloat PyNumbers

section Agreement

variable (rnd : Rounding) (rows : List Row)

/-- The series of a stack has a point with this value for a size. -/
def Charted (stack : String) (size : Int) (value : PyFloat) : Prop :=
  ∃ points, seriesForStack rnd rows stack = .ok points ∧
    ∃ point ∈ points, point.label = sizeLabel size ∧ point.mean = value

/-- For each size of the chart one line of the table has the values that are charted. -/
def ChartAgrees (dataset : Dataset) : Prop :=
  ∀ size ∈ canonicalSizes,
    (∃ stack ∈ ["covesa", "sgmenon"], ∃ value, Charted rnd rows stack size value) →
    ∃ c ∈ dataset.comparisons, c.size = toString size ∧
      (∀ value, Charted rnd rows "covesa" size value → pyFloat rnd c.covMeanUs = .ok value) ∧
      ∀ value, Charted rnd rows "sgmenon" size value → pyFloat rnd c.sgmMeanUs = .ok value

/-- At one rate the last rows of a size have the means of its last usable rows. -/
def SameRate : Prop :=
  ∀ size ∈ canonicalSizes, charted rows size = true →
    ∃ rate, ∀ stack ∈ ["covesa", "sgmenon"], ∀ r, lastUsable rows stack size = some r →
      ∃ r', lastRow rows stack size rate = some r' ∧ meanOf rnd r' = meanOf rnd r

variable {rnd} {rows} {stack : String} {size : Int} {value : PyFloat}

/-- What is charted is the mean of the last usable row. -/
theorem charted_iff (readable : ChartReadable rnd rows) (one : stack ∈ ["covesa", "sgmenon"])
    (member : size ∈ canonicalSizes) : Charted rnd rows stack size value ↔
      ∃ r, lastUsable rows stack size = some r ∧ meanOf rnd r = .ok value := by
  have made := seriesForStack_readable (readable stack one)
  refine ⟨?_, ?_⟩
  · intro found
    rcases found with ⟨points, made', point, inSeries, label, mean⟩
    rw [made, Except.ok.injEq] at made'
    subst made'
    obtain ⟨size', member', shown⟩ := List.mem_filterMap.mp inSeries
    obtain ⟨r, last, rfl⟩ := Option.map_eq_some_iff.mp shown
    cases sizeLabel_injective size' member' size member label
    obtain ⟨mean', p99, read, -⟩ := readable stack one size member r last
    refine ⟨r, last, ?_⟩
    rw [read, ← mean, ← meanValue_eq read]
    rfl
  · intro found
    rcases found with ⟨r, last, read⟩
    refine ⟨_, made, plot rnd size r, ?_, rfl, meanValue_eq read⟩
    exact List.mem_filterMap.mpr ⟨size, member, by rw [last]; rfl⟩

theorem pyFloat_NA : pyFloat rnd "NA" = .error .valueError := rfl

/-- A cell of the table that is read as a number is that of a row. -/
theorem pyFloat_cell {row : Option Row} : pyFloat rnd (cell row "mean_us") = .ok value ↔
    ∃ r, row = some r ∧ meanOf rnd r = .ok value := by
  cases row with
  | none =>
      refine ⟨?_, ?_⟩
      · intro read
        rw [cell, pyFloat_NA] at read
        cases read
      · intro found
        rcases found with ⟨r, none, -⟩
        cases none
  | some r =>
      have read : pyFloat rnd (cell (some r) "mean_us") = .ok value ↔ meanOf rnd r = .ok value := by
        have entry : cell (some r) "mean_us" = (r.get? "mean_us").getD "NA" := rfl
        rw [meanOf_eq_ok, entry]
        cases r.get? "mean_us" with
        | none => exact iff_of_false nofun nofun
        | some mean => simp
      rw [read]
      refine ⟨?_, ?_⟩
      · exact fun read => ⟨r, rfl, read⟩
      · intro found
        rcases found with ⟨r', same, read⟩
        cases same
        exact read

/-- The line that agrees with the chart is at a rate where the means are the same. -/
theorem sameRate_of_chartAgrees (readable : ChartReadable rnd rows) {csvPath runLabel : String}
    {transport : String} {chartYMax : Int}
    (agrees : ChartAgrees rnd rows (datasetOf rnd csvPath rows runLabel transport chartYMax)) :
    SameRate rnd rows := by
  intro size member shown
  have drawn : ∃ stack ∈ ["covesa", "sgmenon"], ∃ value, Charted rnd rows stack size value := by
    obtain ⟨stack, one, r, last⟩ := charted_eq_true.mp shown
    obtain ⟨mean, p99, read, -⟩ := readable stack one size member r last
    exact ⟨stack, one, mean, (charted_iff readable one member).mpr ⟨r, last, read⟩⟩
  obtain ⟨c, line, sameSize, cov, sgm⟩ := agrees size member drawn
  obtain ⟨size', rate, -, rfl⟩ := mem_comparisonRows.mp line
  cases toString_injective (show toString size' = toString size from sameSize)
  refine ⟨rate, ?_⟩
  intro stack one r last
  obtain ⟨mean, p99, read, -⟩ := readable stack one size member r last
  have drawn' := (charted_iff readable one member).mpr ⟨r, last, read⟩
  have shown' : pyFloat rnd (cell (lastRow rows stack size rate) "mean_us") = .ok mean := by
    simp only [List.mem_cons, List.not_mem_nil, or_false] at one
    rcases one with rfl | rfl
    · exact cov mean drawn'
    · exact sgm mean drawn'
  obtain ⟨r', there, read'⟩ := pyFloat_cell.mp shown'
  exact ⟨r', there, read'.trans read.symm⟩

theorem chartAgrees_of_sameRate (readable : ChartReadable rnd rows) (same : SameRate rnd rows)
    {csvPath runLabel transport : String} {chartYMax : Int} :
    ChartAgrees rnd rows (datasetOf rnd csvPath rows runLabel transport chartYMax) := by
  intro size member drawn
  rcases drawn with ⟨stack, one, value, drawn⟩
  obtain ⟨r, last, -⟩ := (charted_iff readable one member).mp drawn
  obtain ⟨rate, atRate⟩ := same size member
    (List.mem_filter.mp (mem_chartSizes_of_lastUsable one member last)).2
  have reads : ∀ stack ∈ ["covesa", "sgmenon"], ∀ value, Charted rnd rows stack size value →
      pyFloat rnd (cell (lastRow rows stack size rate) "mean_us") = .ok value := by
    intro stack one value drawn
    obtain ⟨r, last, read⟩ := (charted_iff readable one member).mp drawn
    obtain ⟨r', there, sameMean⟩ := atRate stack one r last
    exact pyFloat_cell.mpr ⟨r', there, sameMean.trans read⟩
  obtain ⟨r', there, -⟩ := atRate stack one r last
  have line : ∃ stack ∈ ["covesa", "sgmenon"], lastRow rows stack size rate ≠ none :=
    ⟨stack, one, by simp [there]⟩
  exact ⟨_, mem_comparisonRows.mpr ⟨size, rate, line, rfl⟩, rfl, reads "covesa" (by simp),
    reads "sgmenon" (by simp)⟩

/-- A row without a stack is of neither. -/
theorem get_stack_eq {r : Row} (one : stack ∈ ["covesa", "sgmenon"]) :
    r.get "stack" "" = stack ↔ r.get? "stack" = some stack := by
  unfold Row.get
  cases r.get? "stack" with
  | some stack' => simp
  | none =>
      refine iff_of_false ?_ nofun
      rintro rfl
      exact absurd one (by decide)

/-- With one rate for each size and no failed runs, chart and table agree. -/
theorem sameRate_of_oneRate (finished : ∀ r ∈ rows, rowOk r = true)
    (oneRate : ∀ r ∈ rows, ∀ r' ∈ rows, sizeOf r = sizeOf r' →
      r.get "rate_hz" "" = r'.get "rate_hz" "") : SameRate rnd rows := by
  intro size member shown
  obtain ⟨stack₀, -, r₀, last₀⟩ := charted_eq_true.mp shown
  obtain ⟨inRows, usable₀⟩ := usable_of_lastUsable last₀
  have size₀ : sizeOf r₀ = .ok size := (usable_eq_true.mp usable₀).2.1
  refine ⟨r₀.get "rate_hz" "", ?_⟩
  intro stack one r last
  refine ⟨r, ?_, rfl⟩
  rw [← last]
  refine congrArg List.getLast? (List.filter_congr ?_)
  intro r' member'
  rw [Bool.eq_iff_iff, tabled_eq_true, usable_eq_true, get_stack_eq one]
  refine ⟨?_, ?_⟩
  · intro shown'
    exact ⟨shown'.1, shown'.2.1, finished r' member'⟩
  · intro usable'
    exact ⟨usable'.1, usable'.2.1, oneRate r' member' r₀ inRows (usable'.2.1.trans size₀.symm)⟩

end Agreement

/-- **When chart and table agree.** For every history and both modes: in the data set
each size of the chart has a line of the table with the values that are charted, if
and only if each of these sizes has a rate at which the last row of a stack, usable or
not, has the mean of its last usable row at any rate. -/
theorem chartAgrees_iff (rnd : Rounding) (csvPath : String) (allRows : List Row)
    (runLabel transport : String) (rows : List Row) (dataset : Dataset)
    (selected : selectRows allRows runLabel = .ok rows)
    (made : makeDataset rnd csvPath allRows runLabel transport = .ok dataset) :
    ChartAgrees rnd rows dataset ↔ SameRate rnd rows := by
  obtain ⟨rows', chartYMax, selected', readable, -, rfl⟩ := makeDataset_eq_ok.mp made
  rw [selected, Except.ok.injEq] at selected'
  subst selected'
  exact ⟨sameRate_of_chartAgrees readable, fun same => chartAgrees_of_sameRate readable same⟩

/-- Both stacks at one rate, and one of them again at half of it. -/
def covAt100 : Row :=
  historyRow "2026-01-01" "a" "covesa" "64" "100.0" "1000" "12.000" "20.000"
def sgmAt100 : Row :=
  historyRow "2026-01-01" "a" "sgmenon" "64" "100.0" "1000" "10.000" "18.000"
def sgmAt50 : Row :=
  historyRow "2026-01-02" "b" "sgmenon" "64" "50.0" "1000" "30.000" "38.000"

theorem chartAgrees_iff_two : ∃ dataset,
    makeDataset binary64 "snapshot.csv" [covAt100, sgmAt100, sgmAt50] "a" "udp" = .ok dataset ∧
      ChartAgrees binary64 [covAt100, sgmAt100] dataset := by
  have selected : selectRows [covAt100, sgmAt100, sgmAt50] "a" = .ok [covAt100, sgmAt100] := by
    decide +kernel
  have made : (makeDataset binary64 "snapshot.csv" [covAt100, sgmAt100, sgmAt50] "a"
      "udp").toOption.isSome := by decide +kernel
  cases dataset : makeDataset binary64 "snapshot.csv" [covAt100, sgmAt100, sgmAt50] "a" "udp" with
  | error e =>
      rw [dataset] at made
      cases made
  | ok dataset' =>
      refine ⟨dataset', rfl, (chartAgrees_iff _ _ _ _ _ _ _ selected dataset).mpr ?_⟩
      have rate : ∀ r ∈ [covAt100, sgmAt100], r.get "rate_hz" "" = "100.0" := by decide
      exact sameRate_of_oneRate (by decide) fun r member r' member' _ =>
        (rate r member).trans (rate r' member').symm

/-- The chart puts 12 beside 30, and no line of the table has both. -/
theorem not_chartAgrees_rates : ∃ rows dataset,
    selectRows [covAt100, sgmAt100, sgmAt50] "" = .ok rows ∧
      makeDataset binary64 "snapshot.csv" [covAt100, sgmAt100, sgmAt50] "" "udp" = .ok dataset ∧
      ¬ ChartAgrees binary64 rows dataset := by
  have selected : selectRows [covAt100, sgmAt100, sgmAt50] "" =
      .ok [covAt100, sgmAt100, sgmAt50] := by decide +kernel
  have made : (makeDataset binary64 "snapshot.csv" [covAt100, sgmAt100, sgmAt50] ""
      "udp").toOption.isSome := by decide +kernel
  obtain ⟨dataset, made⟩ := Option.isSome_iff_exists.mp made
  rw [toOption_eq_some] at made
  obtain ⟨rows, chartYMax, selected', readable, -, rfl⟩ := makeDataset_eq_ok.mp made
  rw [selected, Except.ok.injEq] at selected'
  subst selected'
  refine ⟨_, _, selected, made, ?_⟩
  intro agrees
  obtain ⟨rate, atRate⟩ := sameRate_of_chartAgrees readable agrees 64 (by decide) (by decide)
  obtain ⟨r, there, -⟩ := atRate "covesa" (by simp) covAt100 (by decide)
  obtain ⟨member, shown⟩ := tabled_of_lastRow there
  obtain ⟨own, -, rfl⟩ := tabled_eq_true.mp shown
  obtain ⟨r', there', mean⟩ := atRate "sgmenon" (by simp) sgmAt50 (by decide)
  simp only [List.mem_cons, List.not_mem_nil, or_false] at member
  rcases member with rfl | rfl | rfl
  · have paired : lastRow [covAt100, sgmAt100, sgmAt50] "sgmenon" 64
        (covAt100.get "rate_hz" "") = some sgmAt100 := by decide
    rw [paired, Option.some.injEq] at there'
    subst there'
    revert mean
    decide +kernel
  · exact absurd own (by decide)
  · exact absurd own (by decide)

end MiddlewareBench.Snapshot
