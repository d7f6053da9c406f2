import MiddlewareBench.Snapshot.Render

/-!
# What the chart shows

The series in terms of the rows: for each canonical size the last usable row of the
stack (`lastUsable`), and a point for it. The data set is made exactly when its rows
can be selected and read and the axis has an end (`makeDataset_eq_ok`).
-/

namespace MiddlewareBench.Snapshot

open Dict Fallible PyNumbers

/-- A row of a stack that can be charted under a size. -/
def usable (stack : String) (size : Int) (r : Row) : Bool :=
  (r.get? "stack" = some stack) && ((sizeOf r).toOption = some size) && rowOk r

def lastUsable (rows : List Row) (stack : String) (size : Int) : Option Row :=
  (rows.filter (usable stack size)).getLast?

theorem usable_eq_true {stack : String} {size : Int} {r : Row} : usable stack size r = true ↔
    r.get? "stack" = some stack ∧ sizeOf r = .ok size ∧ rowOk r = true := by
  unfold usable
  rw [Bool.and_eq_true, Bool.and_eq_true, decide_eq_true_eq, decide_eq_true_eq,
    toOption_eq_some, and_assoc]

theorem usable_of_lastUsable {rows : List Row} {stack : String} {size : Int} {r : Row}
    (last : lastUsable rows stack size = some r) : r ∈ rows ∧ usable stack size r = true :=
  List.mem_filter.mp (List.mem_of_getLast? last)

/-- The size a row is charted under. -/
def chartSize (stack : String) (r : Row) : Option Int :=
  if r.get? "stack" = some stack ∧ rowOk r then (sizeOf r).toOption else none

theorem bySizeStep_eq (stack : String) (bySize : Dict Int Row) (r : Row) :
    bySizeStep stack bySize r = file (chartSize stack) id bySize r := by
  unfold bySizeStep file chartSize
  by_cases own : r.get? "stack" = some stack
  · cases read : sizeOf r with
    | error e => simp [own, Except.toOption]
    | ok size => cases ok : rowOk r <;> simp [own, Except.toOption]
  · simp [own]

/-- The dictionary of the source holds the last usable row of each size. -/
theorem get?_bySize (rows : List Row) (stack : String) (size : Int) :
    (rows.foldl (bySizeStep stack) .empty).get? size = lastUsable rows stack size := by
  have steps : bySizeStep stack = file (chartSize stack) id :=
    funext fun d => funext fun r => bySizeStep_eq stack d r
  rw [steps, get?_foldl_file, Option.map_id]
  unfold lastUsable
  refine congrArg List.getLast? (List.filter_congr ?_)
  intro r _
  unfold chartSize usable
  by_cases own : r.get? "stack" = some stack
  · cases ok : rowOk r <;> simp [own]
  · simp [own]

section Points

variable (rnd : Rounding)

/-- `float(r["mean_us"])` and `float(r["p99_us"])`. -/
def meanOf (r : Row) : Except PyError PyFloat := r.item "mean_us" >>= pyFloat rnd
def p99Of (r : Row) : Except PyError PyFloat := r.item "p99_us" >>= pyFloat rnd

/-- A row whose numbers can be read. -/
def Readable (r : Row) : Prop := ∃ mean p99, meanOf rnd r = .ok mean ∧ p99Of rnd r = .ok p99

/-- The mean of a readable row. -/
def meanValue (r : Row) : PyFloat := (meanOf rnd r).toOption.getD .nan

/-- The point of a readable row. -/
def plot (size : Int) (r : Row) : Point where
  label := sizeLabel size
  mean := meanValue rnd r
  p99 := (p99Of rnd r).toOption.getD .nan

/-- The points of the sizes that have a usable row. -/
def pointsOf (rows : List Row) (stack : String) : List Point :=
  canonicalSizes.filterMap fun size => (lastUsable rows stack size).map (plot rnd size)

variable {rnd} {rows : List Row} {stack : String} {size : Int}

theorem meanOf_eq_ok {r : Row} {mean : PyFloat} : meanOf rnd r = .ok mean ↔
    ∃ text, r.get? "mean_us" = some text ∧ pyFloat rnd text = .ok mean := by
  unfold meanOf
  rw [bind_eq_ok]
  simp only [Row.item_eq_ok]

theorem pointOf_bySize : pointOf rnd (rows.foldl (bySizeStep stack) .empty) size =
    match lastUsable rows stack size with
    | none => .ok none
    | some r => do
      let mean ← meanOf rnd r
      let p99 ← p99Of rnd r
      return some { label := sizeLabel size, mean, p99 } := by
  unfold pointOf
  rw [get?_bySize]
  rfl

theorem pointOf_readable (readable : ∀ r, lastUsable rows stack size = some r → Readable rnd r) :
    pointOf rnd (rows.foldl (bySizeStep stack) .empty) size =
      .ok ((lastUsable rows stack size).map (plot rnd size)) := by
  rw [pointOf_bySize]
  cases last : lastUsable rows stack size with
  | none => rfl
  | some r =>
      obtain ⟨mean, p99, readMean, readP99⟩ := readable r last
      dsimp only
      rw [readMean, readP99, Option.map_some, plot, meanValue, readMean, readP99]
      rfl

/-- A series of readable rows has their points. -/
theorem seriesForStack_readable
    (readable : ∀ size ∈ canonicalSizes, ∀ r, lastUsable rows stack size = some r →
      Readable rnd r) : seriesForStack rnd rows stack = .ok (pointsOf rnd rows stack) := by
  have ran : canonicalSizes.mapM (pointOf rnd (rows.foldl (bySizeStep stack) .empty)) =
      .ok (canonicalSizes.map fun size => (lastUsable rows stack size).map (plot rnd size)) :=
    mapM_eq_ok fun size member => pointOf_readable (readable size member)
  unfold seriesForStack
  dsimp only
  rw [ran]
  show Except.ok _ = Except.ok _
  unfold pointsOf List.reduceOption
  rw [List.filterMap_map]
  rfl

/-- Where a series is made, its rows are readable. -/
theorem readable_of_seriesForStack {points : List Point}
    (made : seriesForStack rnd rows stack = .ok points) :
    ∀ size ∈ canonicalSizes, ∀ r, lastUsable rows stack size = some r → Readable rnd r := by
  intro size member r last
  unfold seriesForStack at made
  obtain ⟨all, ran, -⟩ := bind_eq_ok.mp made
  obtain ⟨point, made'⟩ := exists_of_mapM_eq_ok ran member
  rw [pointOf_bySize, last] at made'
  obtain ⟨mean, readMean, rest⟩ := bind_eq_ok.mp made'
  obtain ⟨p99, readP99, -⟩ := bind_eq_ok.mp rest
  exact ⟨mean, p99, readMean, readP99⟩

end Points

/-! ## Lines -/

/-- Labels tell the canonical sizes apart. -/
theorem sizeLabel_injective : ∀ a ∈ canonicalSizes, ∀ b ∈ canonicalSizes,
    sizeLabel a = sizeLabel b → a = b := by
  decide

theorem filter_canonicalSizes : ∀ size ∈ canonicalSizes,
    canonicalSizes.filter (fun a => a = size) = [size] := by
  decide

/-- Whether either stack has a usable row. -/
def charted (rows : List Row) (size : Int) : Bool :=
  (lastUsable rows "covesa" size).isSome || (lastUsable rows "sgmenon" size).isSome

def chartSizes (rows : List Row) : List Int := canonicalSizes.filter (charted rows)

section Lines

variable (rnd : Rounding)

/-- The values of a line. -/
def lineOf (rows : List Row) (stack : String) : List (Option PyFloat) :=
  (chartSizes rows).map fun size => (lastUsable rows stack size).map (meanValue rnd)

/-- The values the axis is made for. -/
def plotted (rows : List Row) : List PyFloat :=
  (lineOf rnd rows "covesa" ++ lineOf rnd rows "sgmenon").reduceOption

variable {rnd} {rows : List Row} {stack : String} {size : Int}

theorem charted_eq_true : charted rows size = true ↔
    ∃ stack ∈ ["covesa", "sgmenon"], ∃ r, lastUsable rows stack size = some r := by
  unfold charted
  rw [Bool.or_eq_true, Option.isSome_iff_exists, Option.isSome_iff_exists]
  simp only [List.mem_cons, List.not_mem_nil, or_false, exists_eq_or_imp, exists_eq_left]

theorem mem_labels (member : size ∈ canonicalSizes) :
    sizeLabel size ∈ (pointsOf rnd rows stack).map Point.label ↔
      (lastUsable rows stack size).isSome := by
  unfold pointsOf
  rw [List.mem_map]
  refine ⟨?_, ?_⟩
  · intro found
    rcases found with ⟨point, inSeries, label⟩
    obtain ⟨size', member', shown⟩ := List.mem_filterMap.mp inSeries
    obtain ⟨r, last, rfl⟩ := Option.map_eq_some_iff.mp shown
    rw [← sizeLabel_injective size' member' size member label, last]
    rfl
  · intro some'
    obtain ⟨r, last⟩ := Option.isSome_iff_exists.mp some'
    exact ⟨plot rnd size r, List.mem_filterMap.mpr ⟨size, member, by rw [last]; rfl⟩, rfl⟩

theorem chartLabels_pointsOf :
    chartLabels (pointsOf rnd rows "covesa") (pointsOf rnd rows "sgmenon") =
      (chartSizes rows).map sizeLabel := by
  unfold chartLabels chartSizes
  rw [List.filter_map]
  refine congrArg (List.map sizeLabel) (List.filter_congr ?_)
  intro size member
  unfold charted
  rw [Function.comp_apply, Bool.decide_or]
  simp only [mem_labels member, Bool.decide_eq_true]

theorem get?_valuesByLabel (member : size ∈ canonicalSizes) :
    ((pointsOf rnd rows stack).foldl (fun d point => d.set point.label point.mean)
      Dict.empty).get? (sizeLabel size) = (lastUsable rows stack size).map (meanValue rnd) := by
  have own : (pointsOf rnd rows stack).filter
      (fun point => some point.label = some (sizeLabel size)) =
        [size].filterMap fun size => (lastUsable rows stack size).map (plot rnd size) := by
    unfold pointsOf
    rw [← filter_canonicalSizes size member, List.filter_filterMap, List.filterMap_filter]
    apply List.filterMap_congr
    intro size' member'
    cases last : lastUsable rows stack size' with
    | none => simp
    | some r =>
        by_cases same : size' = size
        · simp [same, plot, Option.filter]
        · have other : sizeLabel size' ≠ sizeLabel size := fun label =>
            same (sizeLabel_injective size' member' size member label)
          simp [same, plot, Option.filter, other]
  have filed : ((pointsOf rnd rows stack).foldl (file (fun point => some point.label) Point.mean)
      Dict.empty).get? (sizeLabel size) = _ := get?_foldl_file
  refine filed.trans ?_
  rw [own]
  cases last : lastUsable rows stack size with
  | none => rw [List.filterMap_cons_none (by rw [last]; rfl)]; rfl
  | some r => rw [List.filterMap_cons_some (by rw [last]; rfl)]; rfl

theorem align_pointsOf : align ((chartSizes rows).map sizeLabel) (pointsOf rnd rows stack) =
    lineOf rnd rows stack := by
  unfold align lineOf
  rw [List.map_map]
  apply List.map_congr_left
  intro size member
  exact get?_valuesByLabel (List.mem_filter.mp member).1

/-! ## Making a data set -/

variable (rnd) in
/-- Both series can be read. -/
def ChartReadable (rows : List Row) : Prop :=
  ∀ stack ∈ ["covesa", "sgmenon"], ∀ size ∈ canonicalSizes, ∀ r,
    lastUsable rows stack size = some r → Readable rnd r

variable (rnd) in
/-- The data set of selected rows. -/
def datasetOf (csvPath : String) (rows : List Row) (runLabel transport : String)
    (chartYMax : Int) : Dataset where
  transport := transport
  runLabel := if runLabel ≠ "" then runLabel else "(latest per stack/size/rate)"
  historyCsv := csvPath
  comparisons := comparisonRows rnd rows
  sizeLabels := (chartSizes rows).map sizeLabel
  covesaLine := fmtLine (lineOf rnd rows "covesa")
  sgmenonLine := fmtLine (lineOf rnd rows "sgmenon")
  chartYMax := chartYMax
  csvRaw := csvRaw rows

/-- **When a data set is made**, and which. -/
theorem makeDataset_eq_ok {csvPath : String} {allRows : List Row} {runLabel transport : String}
    {dataset : Dataset} : makeDataset rnd csvPath allRows runLabel transport = .ok dataset ↔
      ∃ rows chartYMax, selectRows allRows runLabel = .ok rows ∧ ChartReadable rnd rows ∧
        yMax rnd (plotted rnd rows) = .ok chartYMax ∧
        dataset = datasetOf rnd csvPath rows runLabel transport chartYMax := by
  unfold makeDataset
  refine ⟨?_, ?_⟩
  · intro made
    obtain ⟨rows, selected, made⟩ := bind_eq_ok.mp made
    obtain ⟨cov, covMade, made⟩ := bind_eq_ok.mp made
    obtain ⟨sgm, sgmMade, made⟩ := bind_eq_ok.mp made
    have readable : ChartReadable rnd rows := by
      intro stack one
      simp only [List.mem_cons, List.not_mem_nil, or_false] at one
      rcases one with rfl | rfl
      · exact readable_of_seriesForStack covMade
      · exact readable_of_seriesForStack sgmMade
    have covSeries := seriesForStack_readable (readable "covesa" (by simp))
    have sgmSeries := seriesForStack_readable (readable "sgmenon" (by simp))
    rw [covMade, Except.ok.injEq] at covSeries
    rw [sgmMade, Except.ok.injEq] at sgmSeries
    subst covSeries
    subst sgmSeries
    dsimp only at made
    rw [chartLabels_pointsOf, align_pointsOf, align_pointsOf] at made
    obtain ⟨chartYMax, ends, made⟩ := bind_eq_ok.mp made
    exact ⟨rows, chartYMax, selected, readable, ends, (Except.ok.inj made).symm⟩
  · intro found
    rcases found with ⟨rows, chartYMax, selected, readable, ends, rfl⟩
    apply bind_eq_ok.mpr ⟨rows, selected, ?_⟩
    apply bind_eq_ok.mpr ⟨_, seriesForStack_readable (readable "covesa" (by simp)), ?_⟩
    apply bind_eq_ok.mpr ⟨_, seriesForStack_readable (readable "sgmenon" (by simp)), ?_⟩
    dsimp only
    rw [chartLabels_pointsOf, align_pointsOf, align_pointsOf]
    exact bind_eq_ok.mpr ⟨chartYMax, ends, rfl⟩

end Lines

end MiddlewareBench.Snapshot
