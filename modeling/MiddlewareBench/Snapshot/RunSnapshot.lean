import MiddlewareBench.Lib.ShellText
import MiddlewareBench.Snapshot.Grid
import MiddlewareBench.Snapshot.RawCsv

/-!
# A snapshot and its runs

`run_snapshot.sh` as a whole: it runs every stack at every size, takes the line of the
client from the log of a run, appends a row to the history of the transport, or to another
file where `SNAPSHOT_CSV` names one, and has the histories of both transports rendered. Here
is the script, and what its runs leave in the files (`runSnapshot_runs`).
-/

namespace MiddlewareBench.Snapshot

open CsvText DecimalText PyNumbers ShellText Vsomeip

/-! ## The script -/

/-- What `run.sh` leaves: whether it has succeeded, and its log. -/
structure RunLog where
  succeeded : Bool
  log : String

/-- A line that `grep -aE '^(covesa|sgmenon),'` prints. -/
def isBenchLine (line : List Char) : Bool :=
  "covesa,".toList.isPrefixOf line || "sgmenon,".toList.isPrefixOf line

/-- `bench_line`. -/
def benchLine (log : String) : String :=
  match ((linesOf log.toList).filter isBenchLine).getLast? with
  | none => ""
  | some line => String.ofList line

inductive Transport
  | udp
  | tcp
  deriving DecidableEq

def Transport.text : Transport → String
  | udp => "udp"
  | tcp => "tcp"

/-- The files of the script: the histories of the transports, which are what is rendered,
and any other that `SNAPSHOT_CSV` names. -/
inductive CsvFile
  | udp
  | tcp
  | apart
  deriving DecidableEq

/-- `UDP_CSV` and `TCP_CSV`. -/
def Transport.csv : Transport → CsvFile
  | udp => .udp
  | tcp => .tcp

theorem Transport.csv_injective : Function.Injective Transport.csv := by
  intro transport other same
  cases transport <;> cases other <;> first | rfl | cases same

/-- What is in the files, empty where there is none. -/
structure Histories where
  udp : String
  tcp : String
  apart : String

namespace Histories

def get (files : Histories) : CsvFile → String
  | .udp => files.udp
  | .tcp => files.tcp
  | .apart => files.apart

def set (files : Histories) (csv : String) : CsvFile → Histories
  | .udp => { files with udp := csv }
  | .tcp => { files with tcp := csv }
  | .apart => { files with apart := csv }

@[simp] theorem get_set (files : Histories) (csv : String) (file other : CsvFile) :
    (files.set csv file).get other = if other = file then csv else files.get other := by
  cases file <;> cases other <;> rfl

end Histories

def vsomeipFrameSizes : List String :=
  ["64", "1024", "16384", "65536", "262144", "1048576", "4194304", "10485760"]

/-- What the script is started with, a variable that is not set being empty, and what
`run.sh` leaves when it is called for the `n`-th time. -/
structure Script where
  transport : Transport
  /-- `SNAPSHOT_CSV`, if it is set. -/
  snapshotCsv : Option CsvFile
  renderOnly : Bool
  runLabel : String
  /-- `snapshot-$(date -u +%Y%m%dT%H%M%SZ)` -/
  stamp : String
  dateUtc : String
  gitSha : String
  count : String
  warmup : String
  sizesText : String
  stacksText : String
  run : Nat → RunLog

namespace Script

/-- `SNAPSHOT_CSV` after its default. -/
def csvFile (s : Script) : CsvFile := s.snapshotCsv.getD s.transport.csv

/-- `VSOMEIP_FRAME_SIZES`. -/
def frameSizes (s : Script) : List String :=
  if s.sizesText ≠ "" then words s.sizesText.toList else vsomeipFrameSizes

/-- `VSOMEIP_STACKS`, of which `read` takes one line. -/
def stackList (s : Script) : List String :=
  words ((orDefault s.stacksText "covesa sgmenon").toList.takeWhile (· ≠ '\n'))

/-- `WARMUP` after its default. -/
def warmupText (s : Script) : String := orDefault s.warmup "50"

/-- `RUN_LABEL` after its defaults. -/
def label (s : Script) (csv : String) : String :=
  let shown :=
    if s.runLabel = "" ∧ s.renderOnly ∧ csv ≠ "" then latestRunLabel csv else s.runLabel
  orDefault shown s.stamp

/-- The body of the loop: the history after the `n`-th run. -/
def cell (s : Script) (label csv : String) (n : Nat) (stack size : String) : String :=
  let rateHz := vsomeipRateForSize size
  let runCount := orDefault s.count (vsomeipSnapshotCountForSize size)
  let line := benchLine (s.run n).log
  if (s.run n).succeeded ∧ line ≠ "" then
    snapshotCsvAppendLine csv s.dateUtc s.gitSha label runCount s.warmupText line
  else
    snapshotCsvAppendNa csv s.dateUtc s.gitSha label runCount s.warmupText stack size rateHz

/-- The stacks and sizes in the order of the two loops. -/
def cells (s : Script) : List (String × String) :=
  s.frameSizes.flatMap fun size => s.stackList.map fun stack => (stack, size)

/-- The history after all runs. -/
def loop (s : Script) (label csv : String) : String :=
  s.cells.zipIdx.foldl (fun csv run => s.cell label csv run.2 run.1.1 run.1.2)
    (snapshotCsvEnsure csv)

/-- The run label that each transport is rendered with. -/
def renderLabel (s : Script) (label : String) (files : Histories) (transport : Transport) :
    String :=
  if transport = s.transport then
    if s.sizesText = "" then label else ""
  else latestRunLabel (files.get transport.csv)

/-- The files after the script, and the label that each transport is rendered with. -/
def runSnapshot (s : Script) (files : Histories) : Histories × (Transport → String) :=
  let csv := files.get s.csvFile
  let label := s.label csv
  let files := if s.renderOnly then files else files.set (s.loop label csv) s.csvFile
  (files, s.renderLabel label files)

end Script

/-- `make_dataset` of a file, for which every row has to have its columns. -/
def MakesDataset (csvPath file runLabel : String) (transport : Transport) (dataset : Dataset) :
    Prop :=
  ∃ read allRows, loadRows file = .ok read ∧ List.Forall₂ ReadAs read allRows ∧
    makeDataset binary64 csvPath allRows runLabel transport.text = .ok dataset

/-- `render_snapshot.py` has written its report: it took every argument for the value of its
option, which a dash in front could make another option of, and it made both data sets. -/
structure Script.Renders (s : Script) (paths : Transport → String) (files : Histories)
    (labels : Transport → String) (datasets : Transport → Dataset) : Prop where
  values : ∀ value ∈ [paths .udp, paths .tcp, s.gitSha, s.dateUtc, s.warmupText],
    value.toList.head? ≠ some '-'
  dashless : ∀ transport, (labels transport).toList.head? ≠ some '-'
  warmup : ∃ n, pyInt s.warmupText = .ok n
  datasets : ∀ transport, MakesDataset (paths transport) (files.get transport.csv)
    (labels transport) transport (datasets transport)

/-! ## What the runs leave -/

/-- The sizes of the ladder as numbers. -/
def ladder : List UInt64 := [64, 1024, 16384, 65536, 262144, 1048576, 4194304, 10485760]

theorem vsomeipFrameSizes_eq : vsomeipFrameSizes = ladder.map sizeText := by decide +kernel

/-- They are the sizes of the chart. -/
theorem canonicalSizes_eq : canonicalSizes = ladder.map fun size => (size.toNat : Int) := by decide

/-- The log of a run that has measured something has the line of its client, and no such
line after it; one that has not has failed, or has no such line. -/
def RunLog.Leaves (atof : String → Double) (ran : RunLog) (stack : String) (size : UInt64) :
    Option Measurement → Prop
  | some measured => ran.succeeded = true ∧ ∃ before after,
      linesOf ran.log.toList =
        before ++ (clientLine atof stack size measured).text.toList :: after ∧
      ∀ line ∈ after, isBenchLine line = false
  | none => ran.succeeded = false ∨ ∀ line ∈ linesOf ran.log.toList, isBenchLine line = false

namespace Script

/-- The label of a script that runs something. -/
def ownLabel (s : Script) : String := orDefault s.runLabel s.stamp

/-- What the rows of the script have in common. -/
def args (s : Script) : SnapshotArgs where
  recorded := s.dateUtc
  sha := s.gitSha
  label := s.ownLabel
  count := if s.count = "" then none else some s.count
  warmup := s.warmupText

/-- The runs of the script, numbered, with the sizes they are given. -/
def runsOf (s : Script) (sizes : List UInt64) : List ((String × UInt64) × Nat) :=
  (sizes.flatMap fun size => s.stackList.map fun stack => (stack, size)).zipIdx

/-- The rows that the script appends; `outcome` is what each run has measured. -/
def rows (atof : String → Double) (s : Script) (sizes : List UInt64)
    (outcome : Nat → Option Measurement) : List HistoryRow :=
  (s.runsOf sizes).map fun run => s.args.row atof run.1.1 run.1.2 (outcome run.2)

/-- A script that runs these sizes, with these outcomes. -/
structure Runs (atof : String → Double) (s : Script) (sizes : List UInt64)
    (outcome : Nat → Option Measurement) : Prop where
  renderOnly : s.renderOnly = false
  frameSizes : s.frameSizes = sizes.map sizeText
  stackList : ∀ stack ∈ s.stackList, stack ∈ ["covesa", "sgmenon"]
  leaves : ∀ run ∈ s.runsOf sizes,
    (s.run run.2).Leaves atof run.1.1 run.1.2 (outcome run.2)

theorem mem_stackList_of_runsOf {s : Script} {sizes : List UInt64}
    {run : (String × UInt64) × Nat} (member : run ∈ s.runsOf sizes) :
    run.1.1 ∈ s.stackList ∧ run.1.2 ∈ sizes := by
  obtain ⟨size, inSizes, found⟩ := List.mem_flatMap.mp
    (List.mem_of_getElem? (List.mk_mem_zipIdx_iff_getElem?.mp member))
  obtain ⟨stack, inStacks, same⟩ := List.mem_map.mp found
  rw [← same]
  exact ⟨inStacks, inSizes⟩

end Script

section Loop

variable {atof : String → Double} {s : Script} {csv stack : String} {size : UInt64}
  {sizes : List UInt64} {n : Nat} {outcome : Nat → Option Measurement}

theorem benchLine_of_last {log text : String} {before after : List (List Char)}
    (parts : linesOf log.toList = before ++ text.toList :: after)
    (own : isBenchLine text.toList = true) (last : ∀ line ∈ after, isBenchLine line = false) :
    benchLine log = text := by
  have none' : after.filter isBenchLine = [] :=
    List.filter_eq_nil_iff.mpr fun line member => by simp [last line member]
  unfold benchLine
  rw [parts, List.filter_append, List.filter_cons_of_pos own, none', List.getLast?_concat]
  exact String.ofList_toList

theorem benchLine_of_none {log : String}
    (none' : ∀ line ∈ linesOf log.toList, isBenchLine line = false) : benchLine log = "" := by
  have empty : (linesOf log.toList).filter isBenchLine = [] :=
    List.filter_eq_nil_iff.mpr fun line member => by simp [none' line member]
  unfold benchLine
  rw [empty]
  rfl

/-- The line of a client is one of those that are looked for. -/
theorem isBenchLine_text {line : BenchLine} (one : line.stack ∈ ["covesa", "sgmenon"]) :
    isBenchLine line.text.toList = true := by
  unfold isBenchLine BenchLine.text
  simp only [List.mem_cons, List.not_mem_nil, or_false] at one
  rcases one with named | named <;> simp [named, String.toList_append, toString_self]

/-- The count that the rows say is the one that the clients are given. -/
theorem count_row {measured : Option Measurement} :
    (s.args.row atof stack size measured).count =
      orDefault s.count (vsomeipSnapshotCountForSize (sizeText size)) := by
  unfold SnapshotArgs.row Script.args orDefault
  dsimp only
  split <;> rfl

/-- A run adds the row of what it has measured. -/
theorem cell_eq {measured : Option Measurement} (one : stack ∈ ["covesa", "sgmenon"])
    (leaves : (s.run n).Leaves atof stack size measured) :
    s.cell s.ownLabel csv n stack (sizeText size) = HistoryCall.run csv (.appendLine
      (s.args.row atof stack size measured)) := by
  have count := @count_row atof s stack size measured
  unfold SnapshotArgs.row Script.args at count
  dsimp only at count
  unfold Script.cell SnapshotArgs.row Script.args
  dsimp only
  rw [count]
  cases measured with
  | some m =>
      rcases leaves with ⟨succeeded, before, after, parts, last⟩
      have own : isBenchLine (clientLine atof stack size m).text.toList = true :=
        isBenchLine_text one
      have line : (clientLine atof stack size m).text ≠ "" := by
        intro empty
        rw [empty] at own
        cases own
      rw [benchLine_of_last parts own last, if_pos ⟨succeeded, line⟩]
      rfl
  | none =>
      rw [if_neg]
      · exact appendNa_eq ..
      · rintro ⟨succeeded, line⟩
        rcases leaves with failed | none'
        · rw [failed] at succeeded
          cases succeeded
        · exact line (benchLine_of_none none')

theorem label_eq (runs : s.renderOnly = false) : s.label csv = s.ownLabel := by
  unfold Script.label
  rw [runs]
  simp only [Bool.false_eq_true, false_and, and_false, if_false]
  rfl

theorem cells_zipIdx (given : s.frameSizes = sizes.map sizeText) :
    s.cells.zipIdx = (s.runsOf sizes).map fun run => ((run.1.1, sizeText run.1.2), run.2) := by
  have cells : s.cells = (sizes.flatMap fun size => s.stackList.map fun stack =>
      (stack, size)).map fun run => (run.1, sizeText run.2) := by
    unfold Script.cells
    rw [given, List.flatMap_map, List.map_flatMap]
    simp [Function.comp_def]
  rw [cells, List.zipIdx_map]
  rfl

/-- The loop adds the rows of its runs. -/
theorem loop_eq {calls : List HistoryCall} (runs : s.Runs atof sizes outcome)
    (made : snapshotCsvEnsure csv = history calls) :
    s.loop s.ownLabel csv =
      history (calls ++ (s.rows atof sizes outcome).map HistoryCall.appendLine) := by
  have steps : s.loop s.ownLabel csv = ((s.rows atof sizes outcome).map
      HistoryCall.appendLine).foldl HistoryCall.run (snapshotCsvEnsure csv) := by
    unfold Script.loop Script.rows
    rw [cells_zipIdx runs.frameSizes, List.foldl_map, List.foldl_map, List.foldl_map]
    refine List.foldl_ext _ _ _ fun csv run member => ?_
    exact cell_eq (runs.stackList _ (Script.mem_stackList_of_runsOf member).1)
      (runs.leaves run member)
  rw [steps, made]
  unfold history
  rw [List.foldl_append]

/-- Its history is all that a script changes. -/
theorem runSnapshot_runs {files : Histories} {calls : List HistoryCall}
    (runs : s.Runs atof sizes outcome)
    (made : snapshotCsvEnsure (files.get s.csvFile) = history calls) :
    (s.runSnapshot files).1 = files.set
      (history (calls ++ (s.rows atof sizes outcome).map HistoryCall.appendLine)) s.csvFile ∧
    (s.runSnapshot files).2 = s.renderLabel s.ownLabel (s.runSnapshot files).1 := by
  unfold Script.runSnapshot
  dsimp only
  rw [label_eq runs.renderOnly, runs.renderOnly, if_neg Bool.false_ne_true, loop_eq runs made]
  exact ⟨rfl, rfl⟩

/-- What is appended to another file is not rendered. -/
theorem runSnapshot_elsewhere {files : Histories} {transport : Transport}
    (elsewhere : s.csvFile ≠ transport.csv) :
    (s.runSnapshot files).1.get transport.csv = files.get transport.csv := by
  unfold Script.runSnapshot
  dsimp only
  split
  · rfl
  · rw [Histories.get_set, if_neg elsewhere.symm]

theorem history_ne_empty (calls : List HistoryCall) : history calls ≠ "" := by
  intro empty
  have text := history_eq calls
  rw [empty] at text
  simp [recordsOf, joinedText, joined] at text

theorem appended_rows {calls : List HistoryCall} {rows : List HistoryRow} :
    appended (calls ++ rows.map HistoryCall.appendLine) = appended calls ++ rows := by
  unfold appended
  rw [List.filterMap_append, List.filterMap_map]
  congr 1
  exact List.filterMap_some

/-- The fields of a line after its stack and its size. -/
def measures (line : BenchLine) : List String :=
  [line.rateHz, line.n, line.meanUs, line.p50Us, line.p99Us, line.gapCount]

theorem plain_repr {n : Nat} (small : n < 2 ^ 64) : Plain (Nat.repr n).toList where
  whole c member := by
    have digit := isDigit_of_mem_repr member
    have notNewline : ¬ isNewline c = true := by
      simp [isNewline, @ne_of_isDigit c '\n' digit rfl, @ne_of_isDigit c '\r' digit rfl]
    exact separates_eq_false notNewline (ne_of_isDigit digit rfl)
  unquoted first :=
    ne_of_isDigit (isDigit_of_mem_repr (List.mem_of_head? first)) (d := '"') rfl rfl
  short := by
    have length := (Nat.length_repr_le_iff (n := n) (k := 20) (by decide)).mpr (by omega)
    rw [String.length_toList]
    exact length.trans (by decide)

theorem plain_vsomeipRateForSize (size : String) : Plain (vsomeipRateForSize size).toList := by
  unfold vsomeipRateForSize
  split <;> decide

theorem plain_vsomeipSnapshotCountForSize (size : String) :
    Plain (vsomeipSnapshotCountForSize size).toList := by
  unfold vsomeipSnapshotCountForSize
  split <;> decide

/-- The row of a run has plain fields, where its script has been given such and its client
has printed such. -/
theorem plainRow_row {args : SnapshotArgs} {measured : Option Measurement}
    (given : ∀ text ∈ [args.recorded, args.sha, args.label, args.warmup, stack], Plain text.toList)
    (count : ∀ text ∈ args.count, Plain text.toList)
    (printed : ∀ m ∈ measured,
      ∀ text ∈ measures (clientLine atof stack size m), Plain text.toList) :
    PlainRow (args.row atof stack size measured) := by
  have counted :
      Plain (args.count.getD (vsomeipSnapshotCountForSize (sizeText size))).toList := by
    cases asked : args.count with
    | none => exact plain_vsomeipSnapshotCountForSize _
    | some text => exact count text asked
  have line : ∀ text ∈ measures (args.row atof stack size measured).bench,
      Plain text.toList := by
    cases measured with
    | none =>
        simp only [SnapshotArgs.row, measures, naLine, List.forall_mem_cons]
        exact ⟨plain_vsomeipRateForSize _, by decide⟩
    | some m => exact printed m rfl
  have named : (args.row atof stack size measured).bench.stack = stack := stack_row
  have sized : Plain (args.row atof stack size measured).bench.size.toList := by
    rw [size_row]
    exact plain_repr size.toNat_lt
  simp only [List.forall_mem_cons, measures] at given line
  unfold PlainRow HistoryRow.fields
  simp only [List.forall_mem_cons]
  rw [named]
  exact ⟨given.1, given.2.1, given.2.2.1, counted, given.2.2.2.1, given.2.2.2.2.1, sized, line⟩

end Loop

end MiddlewareBench.Snapshot
