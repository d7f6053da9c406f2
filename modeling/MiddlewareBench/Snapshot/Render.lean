import MiddlewareBench.Lib.CsvText
import MiddlewareBench.Lib.Dict
import MiddlewareBench.Lib.Fallible
import MiddlewareBench.Lib.PyNumbers
import Mathlib.Data.String.Basic
import Mathlib.Data.Prod.Lex

/-!
# Rendering a snapshot

`render_snapshot.py` up to the template: which rows of the history are selected, the
two series of the chart, the comparison table, and the data set handed to the
template. A row is a dictionary from column names to text. Arithmetic on floats is
rounded by `rnd`.
-/

namespace MiddlewareBench.Snapshot

open PyFloat PyNumbers StableSort

/-! ## Rows -/

abbrev Row := Dict String String

/-- `r.get(key, default)`. -/
def Row.get (r : Row) (key default : String) : String :=
  (r.get? key).getD default

/-- `r[key]`. -/
def Row.item (r : Row) (key : String) : Except PyError String :=
  match r.get? key with
  | some value => .ok value
  | none => .error .keyError

theorem Row.item_eq_ok {r : Row} {key value : String} :
    r.item key = .ok value ↔ r.get? key = some value := by
  unfold Row.item
  cases r.get? key <;> simp

/-! ## Sizes -/

def canonicalSizes : List Int :=
  [64, 1024, 16384, 65536, 262144, 1048576, 4194304, 10485760]

def sizeLabel (numBytes : Int) : String :=
  if numBytes ≥ 1048576 ∧ numBytes % 1048576 = 0 then s!"{numBytes / 1048576}MiB"
  else if numBytes ≥ 1024 ∧ numBytes % 1024 = 0 then s!"{numBytes / 1024}KiB"
  else s!"{numBytes}B"

/-! ## Selecting rows -/

def filterRunLabel (rows : List Row) (runLabel : String) : List Row :=
  if runLabel = "" then rows
  else rows.filter fun r => r.get? "run_label" = some runLabel

def configKey (r : Row) : String × String × String :=
  (r.get "stack" "", r.get "size" "", r.get "rate_hz" "")

/-- One turn of the loop of `latest_per_config`. -/
def keepNewest (best : Dict (String × String × String) Row) (r : Row) :
    Dict (String × String × String) Row :=
  match best.get? (configKey r) with
  | none => best.set (configKey r) r
  | some prev =>
    if r.get "recorded_utc" "" ≥ prev.get "recorded_utc" "" then best.set (configKey r) r else best

/-- `int(r.get("size", "0") or 0)`. -/
def sortSize (r : Row) : Except PyError Int :=
  let size := r.get "size" "0"
  if size = "" then .ok 0 else pyInt size

/-- What `latest_per_config` sorts by. -/
def sortKey (r : Row) : Except PyError (String ×ₗ Int) :=
  (sortSize r).map fun size => toLex (r.get "stack" "", size)

/-- The keys are all computed before anything is sorted. -/
def latestPerConfig (rows : List Row) : Except PyError (List Row) := do
  let best := rows.foldl keepNewest .empty
  let keyed ← best.values.mapM fun r => (sortKey r).map fun key => (key, r)
  return (sortBy Prod.fst keyed).map Prod.snd

/-! ## The chart -/

def rowOk (r : Row) : Bool :=
  let mean := r.get "mean_us" ""
  let n := r.get "n" "0"
  (mean ∉ ["", "NA"]) && (n ∉ ["", "0"])

/-- `int(row["size"])`. -/
def sizeOf (r : Row) : Except PyError Int := r.item "size" >>= pyInt

/-- One turn of the first loop of `series_for_stack`. -/
def bySizeStep (stack : String) (bySize : Dict Int Row) (r : Row) : Dict Int Row :=
  if r.get? "stack" ≠ some stack then bySize
  else match sizeOf r with
    | .error _ => bySize
    | .ok size => if rowOk r then bySize.set size r else bySize

/-- A point of a series: `labels`, `means` and `p99s` are three lists of one length. -/
structure Point where
  label : String
  mean : PyFloat
  p99 : PyFloat
  deriving DecidableEq

section Chart

variable (rnd : Rounding)

/-- One turn of the second loop: a size without a row has no point. -/
def pointOf (bySize : Dict Int Row) (size : Int) : Except PyError (Option Point) :=
  match bySize.get? size with
  | none => .ok none
  | some r => do
    let mean ← r.item "mean_us" >>= pyFloat rnd
    let p99 ← r.item "p99_us" >>= pyFloat rnd
    return some { label := sizeLabel size, mean, p99 }

def seriesForStack (rows : List Row) (stack : String) : Except PyError (List Point) := do
  let bySize := rows.foldl (bySizeStep stack) .empty
  let points ← canonicalSizes.mapM (pointOf rnd bySize)
  return points.reduceOption

/-- `max(values) * 1.15 + 1`. -/
def axisEnd (first : PyFloat) (rest : List PyFloat) : PyFloat :=
  add rnd (mul rnd (maximum first rest) (rounded rnd false (23 / 20))) (finite false 1)

def yMax : List PyFloat → Except PyError Int
  | [] => .ok 1
  | first :: rest => ceil (axisEnd rnd first rest)

/-! ## The table -/

structure Comparison where
  size : String
  sizeLabel : String
  rateHz : String
  n : String
  covMeanUs : String
  sgmMeanUs : String
  covP99Us : String
  sgmP99Us : String
  sgmImprovement : String
  deriving DecidableEq, Repr

/-- One turn of the first loop of `comparison_rows`. -/
def byConfigStep (byConfig : Dict (Int × String) (Dict String Row)) (row : Row) :
    Dict (Int × String) (Dict String Row) :=
  match sizeOf row with
  | .error _ => byConfig
  | .ok size =>
    let stack := row.get "stack" ""
    if stack ∉ ["covesa", "sgmenon"] then byConfig
    else
      let key := (size, row.get "rate_hz" "")
      byConfig.set key (((byConfig.get? key).getD .empty).set stack row)

/-- `row.get(key, "NA") if row else "NA"`. -/
def cell (row : Option Row) (key : String) : String :=
  match row with
  | some row => row.get key "NA"
  | none => "NA"

/-- How much less time sgmenon takes, in percent of what covesa takes. -/
def improvement (covMean sgmMean : String) : Except PyError String := do
  let covValue ← pyFloat rnd covMean
  let sgmValue ← pyFloat rnd sgmMean
  let part ← div rnd (sub rnd covValue sgmValue) covValue
  return fixed 1 (mul rnd part (finite false 100)) ++ "%"

/-- The row of the table for the two rows of a configuration. -/
def compared (size : Int) (rate : String) (cov sgm : Option Row) : Comparison :=
  let covMean := cell cov "mean_us"
  let sgmMean := cell sgm "mean_us"
  let covN := cell cov "n"
  let sgmN := cell sgm "n"
  { size := toString size
    sizeLabel := sizeLabel size
    rateHz := rate
    n := if covN = sgmN then covN else s!"{covN} / {sgmN}"
    covMeanUs := covMean
    sgmMeanUs := sgmMean
    covP99Us := cell cov "p99_us"
    sgmP99Us := cell sgm "p99_us"
    sgmImprovement := match improvement rnd covMean sgmMean with
      | .ok percent => percent
      | .error _ => "NA" }

/-- One turn of the second loop. -/
def comparisonOf (size : Int) (rate : String) (pair : Dict String Row) : Comparison :=
  compared rnd size rate (pair.get? "covesa") (pair.get? "sgmenon")

def comparisonRows (rows : List Row) : List Comparison :=
  let byConfig := rows.foldl byConfigStep .empty
  (sortBy (fun entry => toLex entry.1) byConfig.items).map fun entry =>
    comparisonOf rnd entry.1.1 entry.1.2 entry.2

/-! ## The data set -/

/-- The selected rows as CSV again, in the columns of the first. -/
def csvRaw (rows : List Row) : String :=
  match rows with
  | [] => ""
  | first :: _ =>
    let lines := first.keys :: rows.map fun r => first.keys.map fun key => r.get key ""
    String.ofList (lines.flatMap CsvText.writeRow)

structure Dataset where
  transport : String
  runLabel : String
  historyCsv : String
  comparisons : List Comparison
  sizeLabels : List String
  covesaLine : String
  sgmenonLine : String
  chartYMax : Int
  csvRaw : String
  deriving DecidableEq, Repr

/-- The rows of a run, or without a label the latest of each configuration. -/
def selectRows (allRows : List Row) (runLabel : String) : Except PyError (List Row) :=
  if runLabel ≠ "" then .ok (filterRunLabel allRows runLabel) else latestPerConfig allRows

/-- The labels of the sizes that either stack has a point for. -/
def chartLabels (cov sgm : List Point) : List String :=
  (canonicalSizes.map sizeLabel).filter fun label =>
    label ∈ cov.map Point.label ∨ label ∈ sgm.map Point.label

/-- The values of a series under the labels of the chart. -/
def align (sizeLabels : List String) (points : List Point) : List (Option PyFloat) :=
  let valuesByLabel := points.foldl (fun d point => d.set point.label point.mean) Dict.empty
  sizeLabels.map valuesByLabel.get?

def fmtEntry : Option PyFloat → String
  | none => "0"
  | some value => fixed 3 value

def fmtLine (values : List (Option PyFloat)) : String :=
  ", ".intercalate (values.map fmtEntry)

/-- `csv_path` is only printed; `allRows` are its rows, none if it does not exist. -/
def makeDataset (csvPath : String) (allRows : List Row) (runLabel transport : String) :
    Except PyError Dataset := do
  let rows ← selectRows allRows runLabel
  let cov ← seriesForStack rnd rows "covesa"
  let sgm ← seriesForStack rnd rows "sgmenon"
  let sizeLabels := chartLabels cov sgm
  let covLine := align sizeLabels cov
  let sgmLine := align sizeLabels sgm
  let chartYMax ← yMax rnd (covLine ++ sgmLine).reduceOption
  return {
    transport
    runLabel := if runLabel ≠ "" then runLabel else "(latest per stack/size/rate)"
    historyCsv := csvPath
    comparisons := comparisonRows rnd rows
    sizeLabels
    covesaLine := fmtLine covLine
    sgmenonLine := fmtLine sgmLine
    chartYMax
    csvRaw := csvRaw rows }

end Chart

end MiddlewareBench.Snapshot
