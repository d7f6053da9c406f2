import MiddlewareBench.Snapshot.RawCsv
import MiddlewareBench.Vsomeip.ParseOptions

/-!
# The grid of a snapshot

The loop of `run_snapshot.sh` with the tables of `size_ladder.sh`: a row for each size
and stack, printed by the client or, where the run failed, by the shell. The client
prints the rate with a decimal and the shell without, and the table pairs rows by the
text of the rate; and the texts that the shell adds are not quoted (`rendersGrid_iff`).
-/

namespace MiddlewareBench.Snapshot

open CText CsvText DecimalText Dict Fallible PyNumbers Vsomeip

/-! ## The loop -/

def vsomeipRateForSize (size : String) : String :=
  match size with
  | "10485760" => "1"
  | "4194304" => "2"
  | "1048576" => "10"
  | "262144" | "65536" => "50"
  | _ => "100"

def vsomeipSnapshotCountForSize (size : String) : String :=
  match size with
  | "10485760" => "50"
  | "4194304" => "100"
  | _ => "200"

/-- What the client of a run measured: its latencies and its gaps. -/
structure Measurement where
  latencyUs : List Double
  gapCount : UInt64

/-- What all the rows of a snapshot have in common; `count` is the sample count that is
asked for. -/
structure SnapshotArgs where
  recorded : String
  sha : String
  label : String
  count : Option String
  warmup : String

/-- A snapshot with the outcomes of its runs: what one has measured, unless it failed. -/
structure GridRun extends SnapshotArgs where
  sizes : List UInt64
  outcome : String → UInt64 → Option Measurement

/-- The size as the shell has it. -/
def sizeText (size : UInt64) : String := Nat.repr size.toNat

/-- The options of a client, as far as it prints them. -/
def printedOptions (atof : String → Double) (stack size rateHz : String) : Options where
  stack := stack
  size := strtoull size
  rateHz := atof rateHz

/-- The line that the client of a run prints. -/
def clientLine (atof : String → Double) (stack : String) (size : UInt64)
    (measured : Measurement) : BenchLine :=
  printCsv (printedOptions atof stack (sizeText size) (vsomeipRateForSize (sizeText size)))
    measured.latencyUs measured.gapCount

namespace SnapshotArgs

/-- What the loop appends for a run. -/
def call (atof : String → Double) (args : SnapshotArgs) (stack : String) (size : UInt64)
    (outcome : Option Measurement) : HistoryCall :=
  let rateHz := vsomeipRateForSize (sizeText size)
  let runCount := args.count.getD (vsomeipSnapshotCountForSize (sizeText size))
  match outcome with
  | some measured => .appendLine ⟨args.recorded, args.sha, args.label, runCount, args.warmup,
      clientLine atof stack size measured⟩
  | none => .appendNa args.recorded args.sha args.label runCount args.warmup stack (sizeText size)
      rateHz

/-- The row of a run. -/
def row (atof : String → Double) (args : SnapshotArgs) (stack : String) (size : UInt64)
    (outcome : Option Measurement) : HistoryRow where
  recorded := args.recorded
  sha := args.sha
  label := args.label
  count := args.count.getD (vsomeipSnapshotCountForSize (sizeText size))
  warmup := args.warmup
  bench := match outcome with
    | some measured => clientLine atof stack size measured
    | none => naLine stack (sizeText size) (vsomeipRateForSize (sizeText size))

theorem row_call (atof : String → Double) (args : SnapshotArgs) (stack : String) (size : UInt64)
    (outcome : Option Measurement) :
    (args.call atof stack size outcome).row = some (args.row atof stack size outcome) := by
  cases outcome <;> rfl

end SnapshotArgs

namespace GridRun

abbrev cellRow (atof : String → Double) (snap : GridRun) (stack : String) (size : UInt64) :
    HistoryRow :=
  snap.row atof stack size (snap.outcome stack size)

/-- What a snapshot appends. -/
def calls (atof : String → Double) (snap : GridRun) : List HistoryCall :=
  snap.sizes.flatMap fun size => ["covesa", "sgmenon"].map fun stack =>
    snap.call atof stack size (snap.outcome stack size)

/-- The rows of these calls. -/
def rows (atof : String → Double) (snap : GridRun) : List HistoryRow :=
  snap.sizes.flatMap fun size => ["covesa", "sgmenon"].map fun stack => snap.cellRow atof stack size

theorem appended_calls (atof : String → Double) (snap : GridRun) :
    appended (snap.calls atof) = snap.rows atof := by
  unfold appended calls rows
  rw [List.filterMap_flatMap]
  refine List.flatMap_congr fun size _ => ?_
  rw [List.filterMap_map]
  simp [SnapshotArgs.row_call]

end GridRun

/-- `bench_args` of `bazel_entrypoint.sh`. -/
def benchArgs (stack size count warmup rateHz maxDatagram transport rpcCalls : String) :
    List String :=
  [s!"--stack={stack}", s!"--size={size}", s!"--count={count}", s!"--warmup={warmup}",
    s!"--rate-hz={rateHz}", s!"--max-datagram={maxDatagram}", s!"--transport={transport}",
    s!"--rpc-calls={rpcCalls}"]

/-- A row of a history under the names of its columns, which is what `load_rows` returns of
it if its fields are plain (`readAs_history`). -/
def rowOf (row : HistoryRow) : Row :=
  ⟨historyColumns.zip row.fields, by
    have columns : (historyColumns.zip row.fields).map Prod.fst = historyColumns :=
      List.map_fst_zip (show historyColumns.length ≤ row.fields.length from Nat.le_refl 13)
    rw [columns]
    decide⟩

theorem readAs_rowOf {read : DictRow} {row : HistoryRow} :
    ReadAs read (rowOf row) ↔ HasFields read row := by
  have items : (rowOf row).items.map (fun entry => (entry.1, some entry.2)) =
      historyColumns.zip (row.fields.map some) := by
    show (historyColumns.zip row.fields).map _ = _
    rw [List.zip_map_right]
    rfl
  refine ⟨?_, ?_⟩
  · intro readAs
    exact ⟨readAs.rest, items ▸ readAs.items⟩
  · intro fields
    exact ⟨fields.1, items ▸ fields.2⟩

/-- What is read of a history with plain rows are its rows. -/
theorem readAs_history {calls : List HistoryCall} (plain : ∀ row ∈ appended calls, PlainRow row) :
    ∃ read, loadRows (history calls) = .ok read ∧
      List.Forall₂ ReadAs read ((appended calls).map rowOf) := by
  obtain ⟨read, loaded, same⟩ := loadRows_of_plain plain
  refine ⟨read, loaded, ?_⟩
  rw [List.forall₂_map_right_iff]
  exact same.imp fun _ _ => readAs_rowOf.mpr

/-- Where rows that were appended are all that is read under some condition, they are all
that is read, and plain. -/
theorem plain_of_filter {calls : List HistoryCall} {read : List DictRow} {p : DictRow → Bool}
    (loaded : loadRows (history calls) = .ok read)
    (same : List.Forall₂ HasFields (read.filter p) (appended calls)) :
    ∀ row ∈ appended calls, PlainRow row := by
  rw [loadRows_eq] at loaded
  obtain ⟨out, ran, rfl⟩ := map_eq_ok.mp loaded
  rw [List.map_map, List.filter_map, List.forall₂_map_left_iff] at same
  simp only [Function.comp_apply, hasFields_dictRow, textOf_eq] at same
  rw [← List.forall₂_map_right_iff (R := (· = ·)), List.forall₂_eq_eq_eq] at same
  have sublist : ((appended calls).map fun row => recordOf row.fields).Sublist (kept out) := by
    rw [← same]
    exact List.filter_sublist
  exact plain_recordOf.mp ((reads_joined_iff several_recordOf).mp
    ⟨out, ran, kept_eq_of_sublist several_recordOf ran sublist⟩)

/-! ## What a row is filed under -/

theorem get?_rowOf {row : HistoryRow} {column value : String}
    (member : (column, value) ∈ historyColumns.zip row.fields) :
    (rowOf row).get? column = some value :=
  get?_eq_some.mpr member

/-- The columns that a row is selected and filed by. -/
structure Columns (r : Row) (row : HistoryRow) : Prop where
  runLabel : r.get? "run_label" = some row.label
  stack : r.get? "stack" = some row.bench.stack
  size : r.get? "size" = some row.bench.size
  rateHz : r.get? "rate_hz" = some row.bench.rateHz
  mean : r.get? "mean_us" = some row.bench.meanUs
  p99 : r.get? "p99_us" = some row.bench.p99Us

theorem columns_rowOf (row : HistoryRow) : Columns (rowOf row) row := by
  constructor
  all_goals
    apply get?_rowOf
    simp [historyColumns, HistoryRow.fields]

theorem get_of_get? {r : Row} {column value : String} (there : r.get? column = some value)
    (default : String) : r.get column default = value := by
  unfold Row.get
  rw [there]
  rfl

section Cells

variable {atof : String → Double} {args args' : SnapshotArgs} {stack stack' : String}
  {size : UInt64} {outcome outcome' : Option Measurement}

theorem size_row : (args.row atof stack size outcome).bench.size = sizeText size := by
  cases outcome with
  | some measured =>
      show Nat.repr (strtoull (sizeText size)).toNat = sizeText size
      rw [sizeText, strtoull_repr]
  | none => rfl

theorem stack_row : (args.row atof stack size outcome).bench.stack = stack := by
  cases outcome <;> rfl

/-- The rate as the client prints it. -/
def printedRate (atof : String → Double) (size : UInt64) : String :=
  printDouble 1 (atof (vsomeipRateForSize (sizeText size)))

theorem rateHz_row : (args.row atof stack size outcome).bench.rateHz =
    if outcome.isSome then printedRate atof size else vsomeipRateForSize (sizeText size) := by
  cases outcome <;> rfl

/-- No rate of the shell has a point. -/
theorem point_notMem_vsomeipRateForSize (size : String) :
    '.' ∉ (vsomeipRateForSize size).toList := by
  unfold vsomeipRateForSize
  split <;> decide

/-- No rate of the shell is a rate of the client. -/
theorem printedRate_ne : printedRate atof size ≠ vsomeipRateForSize (sizeText size) := by
  intro same
  apply point_notMem_vsomeipRateForSize (sizeText size)
  rw [← same]
  exact point_mem_printDouble 1 _

/-- Rates are the same where outcomes are of the same kind. -/
theorem rateHz_row_eq_iff : (args.row atof stack size outcome).bench.rateHz =
    (args'.row atof stack' size outcome').bench.rateHz ↔ outcome.isSome = outcome'.isSome := by
  rw [rateHz_row, rateHz_row]
  cases outcome <;> cases outcome' <;> simp [printedRate_ne, Ne.symm printedRate_ne]

theorem sizeOf_rowOf : sizeOf (rowOf (args.row atof stack size outcome)) =
    .ok (size.toNat : Int) := by
  have few : (Nat.toDigits 10 size.toNat).length ≤ maxStrDigits := by
    have short : (Nat.toDigits 10 size.toNat).length ≤ 20 :=
      (Nat.length_toDigits_le_iff (by decide) (by decide)).mpr (size.toNat_lt.trans (by decide))
    exact short.trans (by decide)
  have item : (rowOf (args.row atof stack size outcome)).item "size" = .ok (sizeText size) := by
    rw [Row.item_eq_ok, (columns_rowOf _).size, size_row]
  exact bind_eq_ok.mpr ⟨_, item, pyInt_repr few⟩

end Cells

/-! ## The table of a run -/

section Tables

variable {rnd : Rounding} {atof : String → Double} {snap : GridRun} {stack rate : String}
  {size : UInt64} {z : Int}

/-- The rows of a run under the names of their columns. -/
def gridRows (atof : String → Double) (snap : GridRun) : List Row :=
  (snap.rows atof).map rowOf

theorem mem_gridRows {r : Row} : r ∈ gridRows atof snap ↔
    ∃ size ∈ snap.sizes, ∃ stack ∈ ["covesa", "sgmenon"],
      r = rowOf (snap.cellRow atof stack size) := by
  unfold gridRows GridRun.rows
  simp only [List.mem_map, List.mem_flatMap]
  refine ⟨?_, ?_⟩
  · intro found
    rcases found with ⟨row, ⟨size, member, stack, one, rfl⟩, rfl⟩
    exact ⟨size, member, stack, one, rfl⟩
  · intro found
    rcases found with ⟨size, member, stack, one, rfl⟩
    exact ⟨_, ⟨size, member, stack, one, rfl⟩, rfl⟩

theorem tabled_cellRow {stack' : String} :
    tabled stack z rate (rowOf (snap.cellRow atof stack' size)) = true ↔
      stack' = stack ∧ (size.toNat : Int) = z ∧
        (snap.cellRow atof stack' size).bench.rateHz = rate := by
  rw [tabled_eq_true, sizeOf_rowOf, Except.ok.injEq, get_of_get? (columns_rowOf _).stack,
    get_of_get? (columns_rowOf _).rateHz, stack_row]

theorem lastRow_gridRows (one : stack ∈ ["covesa", "sgmenon"]) (member : size ∈ snap.sizes) :
    lastRow (gridRows atof snap) stack size.toNat rate =
      if (snap.cellRow atof stack size).bench.rateHz = rate then
        some (rowOf (snap.cellRow atof stack size)) else none := by
  have only : ∀ r, lastRow (gridRows atof snap) stack size.toNat rate = some r →
      (snap.cellRow atof stack size).bench.rateHz = rate ∧
        r = rowOf (snap.cellRow atof stack size) := by
    intro r last
    obtain ⟨inRows, shown⟩ := tabled_of_lastRow last
    obtain ⟨size', -, stack', -, rfl⟩ := mem_gridRows.mp inRows
    obtain ⟨rfl, same, rates⟩ := tabled_cellRow.mp shown
    cases UInt64.toNat.inj (Int.ofNat.inj same)
    exact ⟨rates, rfl⟩
  split
  · rename_i own
    cases last : lastRow (gridRows atof snap) stack size.toNat rate with
    | some r => rw [(only r last).2]
    | none =>
        have none' := List.filter_eq_nil_iff.mp (List.getLast?_eq_none_iff.mp last)
        exact absurd (tabled_cellRow.mpr ⟨rfl, rfl, own⟩)
          (none' _ (mem_gridRows.mpr ⟨size, member, stack, one, rfl⟩))
  · rename_i other
    cases last : lastRow (gridRows atof snap) stack size.toNat rate with
    | some r => exact absurd (only r last).1 other
    | none => rfl

theorem mem_tableKeys_gridRows (member : size ∈ snap.sizes) :
    ((size.toNat : Int), rate) ∈ tableKeys (gridRows atof snap) ↔
      (snap.cellRow atof "covesa" size).bench.rateHz = rate ∨
        (snap.cellRow atof "sgmenon" size).bench.rateHz = rate := by
  rw [mem_tableKeys]
  simp only [List.mem_cons, List.not_mem_nil, or_false, exists_eq_or_imp, exists_eq_left]
  rw [lastRow_gridRows (by simp) member, lastRow_gridRows (by simp) member]
  simp

/-- The table of these rows. -/
def gridTable (rnd : Rounding) (atof : String → Double) (snap : GridRun) : List Comparison :=
  comparisonRows rnd (gridRows atof snap)

/-- A line with the numbers of these two rows. -/
structure Pairs (c : Comparison) (cov sgm : BenchLine) : Prop where
  covMean : c.covMeanUs = cov.meanUs
  sgmMean : c.sgmMeanUs = sgm.meanUs
  covP99 : c.covP99Us = cov.p99Us
  sgmP99 : c.sgmP99Us = sgm.p99Us

/-- One line for each size, with the outcomes of both stacks, and no other line. -/
structure TablesGrid (atof : String → Double) (snap : GridRun) (table : List Comparison) :
    Prop where
  one : ∀ size ∈ snap.sizes, ∃ c, table.filter (fun c => c.size = sizeText size) = [c] ∧
    Pairs c (snap.cellRow atof "covesa" size).bench (snap.cellRow atof "sgmenon" size).bench
  others : ∀ c ∈ table, ∃ size ∈ snap.sizes, c.size = sizeText size

/-- A row that is read under a run label. -/
def labelled (label : String) (read : DictRow) : Bool :=
  read.columns.get? "run_label" = some (some label)

/-- A run is appended to a history of plain rows that are not under its label; what is read
under it then are the rows of the run, and their table has one line for each size, with the
outcomes of both stacks. -/
def RendersGrid (rnd : Rounding) (atof : String → Double) (snap : GridRun) : Prop :=
  ∀ earlier : List HistoryCall,
    (∀ row ∈ appended earlier, PlainRow row ∧ row.label ≠ snap.label) →
      ∃ read shown, loadRows (history (earlier ++ snap.calls atof)) = .ok read ∧
        List.Forall₂ ReadAs (read.filter (labelled snap.label)) shown ∧
        shown = gridRows atof snap ∧ TablesGrid atof snap (comparisonRows rnd shown)

theorem gridTable_eq : gridTable rnd atof snap =
    (tableKeys (gridRows atof snap)).map fun key =>
      compared rnd key.1 key.2 (lastRow (gridRows atof snap) "covesa" key.1 key.2)
        (lastRow (gridRows atof snap) "sgmenon" key.1 key.2) :=
  comparisonRows_eq

theorem gridTable_others {c : Comparison} (member : c ∈ gridTable rnd atof snap) :
    ∃ size ∈ snap.sizes, c.size = sizeText size := by
  rw [gridTable_eq] at member
  obtain ⟨key, inKeys, rfl⟩ := List.mem_map.mp member
  obtain ⟨stack, -, there⟩ := mem_tableKeys.mp inKeys
  obtain ⟨r, last⟩ := Option.ne_none_iff_exists'.mp there
  obtain ⟨inRows, shown⟩ := tabled_of_lastRow last
  obtain ⟨size, inSizes, stack', -, rfl⟩ := mem_gridRows.mp inRows
  obtain ⟨-, same, -⟩ := tabled_cellRow.mp shown
  exact ⟨size, inSizes, congrArg toString same.symm⟩

/-- Where both rows of a size have one rate they share a line. -/
theorem gridTable_of_sameRate (member : size ∈ snap.sizes)
    (same : (snap.cellRow atof "covesa" size).bench.rateHz =
      (snap.cellRow atof "sgmenon" size).bench.rateHz) :
    ∃ c, (gridTable rnd atof snap).filter (fun c => c.size = sizeText size) = [c] ∧
      Pairs c (snap.cellRow atof "covesa" size).bench
        (snap.cellRow atof "sgmenon" size).bench := by
  have own : (tableKeys (gridRows atof snap)).filter (fun key => toString key.1 = sizeText size) =
      [((size.toNat : Int), (snap.cellRow atof "sgmenon" size).bench.rateHz)] := by
    have only : ∀ key ∈ tableKeys (gridRows atof snap), (toString key.1 = sizeText size ↔
        key = ((size.toNat : Int), (snap.cellRow atof "sgmenon" size).bench.rateHz)) := by
      intro key inKeys
      refine ⟨?_, ?_⟩
      · intro text
        have sizes : key.1 = (size.toNat : Int) := toString_injective text
        have rates := (mem_tableKeys_gridRows member).mp
          (show ((size.toNat : Int), key.2) ∈ _ by rw [← sizes]; exact inKeys)
        rw [same, or_self] at rates
        exact Prod.ext sizes rates.symm
      · rintro rfl
        rfl
    rw [List.filter_congr fun key inKeys => decide_eq_decide.mpr (only key inKeys),
      List.filter_eq, List.count_eq_one_of_mem nodup_tableKeys
        ((mem_tableKeys_gridRows member).mpr (.inr rfl)), List.replicate_one]
  rw [gridTable_eq, List.filter_map]
  refine ⟨_, congrArg (List.map _) own, ?_⟩
  have cov : lastRow (gridRows atof snap) "covesa" size.toNat
      (snap.cellRow atof "sgmenon" size).bench.rateHz =
        some (rowOf (snap.cellRow atof "covesa" size)) := by
    rw [lastRow_gridRows (by simp) member, if_pos same]
  have sgm : lastRow (gridRows atof snap) "sgmenon" size.toNat
      (snap.cellRow atof "sgmenon" size).bench.rateHz =
        some (rowOf (snap.cellRow atof "sgmenon" size)) := by
    rw [lastRow_gridRows (by simp) member, if_pos rfl]
  dsimp only
  rw [cov, sgm]
  exact ⟨get_of_get? (columns_rowOf _).mean "NA", get_of_get? (columns_rowOf _).mean "NA",
    get_of_get? (columns_rowOf _).p99 "NA", get_of_get? (columns_rowOf _).p99 "NA"⟩

/-- Where they have two rates they do not. -/
theorem sameRate_of_gridTable (member : size ∈ snap.sizes) {c : Comparison}
    (one : (gridTable rnd atof snap).filter (fun c => c.size = sizeText size) = [c]) :
    (snap.cellRow atof "covesa" size).bench.rateHz =
      (snap.cellRow atof "sgmenon" size).bench.rateHz := by
  have line : ∀ rate, ((size.toNat : Int), rate) ∈ tableKeys (gridRows atof snap) →
      rate = c.rateHz := by
    intro rate inKeys
    have inTable : compared rnd (size.toNat : Int) rate
        (lastRow (gridRows atof snap) "covesa" size.toNat rate)
        (lastRow (gridRows atof snap) "sgmenon" size.toNat rate) ∈
          (gridTable rnd atof snap).filter (fun c => c.size = sizeText size) := by
      rw [gridTable_eq]
      exact List.mem_filter.mpr ⟨List.mem_map.mpr ⟨_, inKeys, rfl⟩, decide_eq_true rfl⟩
    rw [one, List.mem_singleton] at inTable
    rw [← inTable]
    rfl
  rw [line _ ((mem_tableKeys_gridRows member).mpr (.inl rfl)),
    line _ ((mem_tableKeys_gridRows member).mpr (.inr rfl))]

end Tables

/-! ## Through the file -/

section Files

variable {atof : String → Double} {snap : GridRun} {label : String}

theorem ReadAs.get? {read : DictRow} {r : Row} (readAs : ReadAs read r) (column : String) :
    read.columns.get? column = (r.get? column).map some := by
  unfold Dict.get?
  rw [readAs.items, List.find?_map, Option.map_map, Option.map_map]
  rfl

theorem labelled_eq {read : DictRow} {r : Row} (readAs : ReadAs read r) :
    labelled label read = decide (r.get? "run_label" = some label) := by
  unfold labelled
  rw [readAs.get?, decide_eq_decide, Option.map_eq_some_iff]
  simp

/-- The rows under a label are those that were appended under it. -/
theorem filter_label_rowOf (rows : List HistoryRow) :
    (rows.map rowOf).filter (fun r => decide (r.get? "run_label" = some label)) =
      (rows.filter fun row => decide (row.label = label)).map rowOf := by
  rw [List.filter_map]
  refine congrArg (List.map rowOf) (List.filter_congr fun row _ => ?_)
  rw [Function.comp_apply, (columns_rowOf row).runLabel]
  exact decide_eq_decide.mpr Option.some_inj

theorem filter_label_fresh {old rows : List HistoryRow} (others : ∀ row ∈ old, row.label ≠ label)
    (own : ∀ row ∈ rows, row.label = label) :
    (old ++ rows).filter (fun row => decide (row.label = label)) = rows := by
  rw [List.filter_append, List.filter_eq_nil_iff.mpr fun row member => by simp [others row member],
    List.filter_eq_self.mpr fun row member => by simp [own row member], List.nil_append]

theorem label_of_mem_rows {row : HistoryRow} (member : row ∈ snap.rows atof) :
    row.label = snap.label := by
  obtain ⟨size, -, inRow⟩ := List.mem_flatMap.mp member
  obtain ⟨stack, -, rfl⟩ := List.mem_map.mp inRow
  rfl

theorem appended_append_calls (earlier : List HistoryCall) :
    appended (earlier ++ snap.calls atof) = appended earlier ++ snap.rows atof := by
  rw [← GridRun.appended_calls]
  exact List.filterMap_append

/-- What is read under the label of a run with plain rows. -/
theorem exists_read {earlier : List HistoryCall}
    (before : ∀ row ∈ appended earlier, PlainRow row ∧ row.label ≠ snap.label)
    (plain : ∀ row ∈ snap.rows atof, PlainRow row) :
    ∃ read, loadRows (history (earlier ++ snap.calls atof)) = .ok read ∧
      List.Forall₂ ReadAs (read.filter (labelled snap.label)) (gridRows atof snap) := by
  have all : ∀ row ∈ appended (earlier ++ snap.calls atof), PlainRow row := by
    intro row member
    rw [appended_append_calls] at member
    rcases List.mem_append.mp member with old | new
    · exact (before row old).1
    · exact plain row new
  obtain ⟨read, loaded, complete⟩ := readAs_history all
  rw [appended_append_calls] at complete
  have shown := List.rel_filter (R := ReadAs) (p := labelled snap.label)
    (q := fun r => decide (r.get? "run_label" = some snap.label))
    (fun read r readAs => Bool.eq_iff_iff.mp (labelled_eq readAs)) complete
  rw [filter_label_rowOf, filter_label_fresh (fun row old => (before row old).2)
    fun row member => label_of_mem_rows member] at shown
  exact ⟨read, loaded, shown⟩

end Files

/-- **When a run renders as its grid.** For every run: what is read under its label are its
rows, and their table has one line for each size, with the outcomes of both stacks, if and
only if all fields of its rows are plain and for each size both runs succeeded or both
failed; and a run that failed is never filed under the configuration of one that
succeeded. -/
theorem rendersGrid_iff (rnd : Rounding) (atof : String → Double) (snap : GridRun) :
    (RendersGrid rnd atof snap ↔ (∀ row ∈ snap.rows atof, PlainRow row) ∧
      ∀ size ∈ snap.sizes,
        (snap.outcome "covesa" size).isSome = (snap.outcome "sgmenon" size).isSome) ∧
    ∀ (later : GridRun) (stack : String) (size : UInt64) (r r' : Row),
      Columns r (snap.cellRow atof stack size) → Columns r' (later.cellRow atof stack size) →
      (snap.outcome stack size).isSome → later.outcome stack size = none →
      configKey r ≠ configKey r' := by
  refine ⟨⟨?_, ?_⟩, ?_⟩
  · intro renders
    obtain ⟨read, shown, loaded, same, rfl, tables⟩ := renders [] (by simp [appended])
    refine ⟨?_, ?_⟩
    · rw [← GridRun.appended_calls]
      refine @plain_of_filter _ _ (labelled snap.label) loaded ?_
      rw [GridRun.appended_calls]
      rw [gridRows, List.forall₂_map_right_iff] at same
      exact same.imp fun _ _ => readAs_rowOf.mp
    · intro size member
      obtain ⟨c, one, -⟩ := tables.one size member
      exact rateHz_row_eq_iff.mp (sameRate_of_gridTable member one)
  · rintro ⟨plain, same⟩ earlier before
    obtain ⟨read, loaded, shown⟩ := exists_read before plain
    refine ⟨read, _, loaded, shown, rfl, ?_, ?_⟩
    · exact fun size member => gridTable_of_sameRate member
        (rateHz_row_eq_iff.mpr (same size member))
    · exact fun c member => gridTable_others member
  · intro later stack size r r' columns columns' succeeded failed keys
    have texts := congrArg (fun key => key.2.2) keys
    unfold configKey at texts
    dsimp only at texts
    rw [get_of_get? columns.rateHz, get_of_get? columns'.rateHz] at texts
    have rates := rateHz_row_eq_iff.mp texts
    rw [succeeded, failed] at rates
    cases rates

/-- A run of both stacks at one size, and one a day later in which sgmenon failed. -/
def fullRun : GridRun where
  recorded := "2026-01-01 00:00 UTC"
  sha := "0000000"
  label := "a"
  count := none
  warmup := "50"
  sizes := [64]
  outcome := fun _ _ => some ⟨[12, 13], 0⟩

def halfRun : GridRun where
  recorded := "2026-01-02 00:00 UTC"
  sha := "0000000"
  label := "b"
  count := none
  warmup := "50"
  sizes := [64]
  outcome := fun stack _ => if stack = "covesa" then some ⟨[12, 13], 0⟩ else none

/-- The later run has no line for both stacks, and its failure does not replace the
success of the earlier one. -/
theorem not_rendersGrid_half : ¬ RendersGrid binary64 (fun _ => 100) halfRun ∧
    latestPerConfig [rowOf (fullRun.cellRow (fun _ => 100) "sgmenon" 64),
      rowOf (halfRun.cellRow (fun _ => 100) "sgmenon" 64)] =
        .ok [rowOf (fullRun.cellRow (fun _ => 100) "sgmenon" 64),
          rowOf (halfRun.cellRow (fun _ => 100) "sgmenon" 64)] := by
  refine ⟨?_, ?_⟩
  · intro renders
    obtain ⟨read, shown, -, -, rfl, tables⟩ := renders [] (by simp [appended])
    obtain ⟨c, one, -⟩ := tables.one 64 (by decide)
    have same := rateHz_row_eq_iff.mp (sameRate_of_gridTable (by decide) one)
    exact absurd same (by decide)
  · decide +kernel

end MiddlewareBench.Snapshot
