import MiddlewareBench.Lib.CsvReader
import MiddlewareBench.Lib.Dict
import MiddlewareBench.Vsomeip.PrintCsv

/-!
# The history file

`snapshot_csv.sh`, which appends rows to the history, and its two readers: `load_rows`
of `render_snapshot.py`, through `csv.DictReader`, and `latest_run_label` of
`run_snapshot.sh`, through `cut`. The rows are written without any quoting; they read
back exactly when their fields are plain (`readsBack_iff`).
-/

namespace MiddlewareBench.Snapshot

open CsvText Fallible Vsomeip

/-! ## Writing -/

def snapshotCsvHeader : String :=
  "recorded_utc,git_sha,run_label,count,warmup,stack,size,rate_hz,n,mean_us,p50_us,p99_us,gap_count"

/-- `echo` of a line into a file without one, or with nothing in it. -/
def snapshotCsvEnsure (file : String) : String :=
  if file = "" then s!"{snapshotCsvHeader}\n" else file

def snapshotCsvAppendLine (file recorded sha label count warmup benchLine : String) : String :=
  file ++ s!"{recorded},{sha},{label},{count},{warmup},{benchLine}\n"

def snapshotCsvAppendNa (file recorded sha label count warmup stack size rateHz : String) :
    String :=
  snapshotCsvAppendLine file recorded sha label count warmup
    s!"{stack},{size},{rateHz},0,NA,NA,NA,NA"

/-- What is given to an append. -/
structure HistoryRow where
  recorded : String
  sha : String
  label : String
  count : String
  warmup : String
  bench : BenchLine
  deriving DecidableEq, Repr

/-- The line that stands for a run that failed. -/
def naLine (stack size rateHz : String) : BenchLine :=
  ⟨stack, size, rateHz, "0", "NA", "NA", "NA", "NA"⟩

inductive HistoryCall where
  | ensure
  | appendLine (row : HistoryRow)
  | appendNa (recorded sha label count warmup stack size rateHz : String)

namespace HistoryCall

def run (file : String) : HistoryCall → String
  | ensure => snapshotCsvEnsure file
  | appendLine row => snapshotCsvAppendLine file row.recorded row.sha row.label row.count
      row.warmup row.bench.text
  | appendNa recorded sha label count warmup stack size rateHz =>
    snapshotCsvAppendNa file recorded sha label count warmup stack size rateHz

/-- The row that a call appends. -/
def row : HistoryCall → Option HistoryRow
  | ensure => none
  | appendLine row => some row
  | appendNa recorded sha label count warmup stack size rateHz =>
    some ⟨recorded, sha, label, count, warmup, naLine stack size rateHz⟩

end HistoryCall

/-- The file after it has been made and some calls. -/
def history (calls : List HistoryCall) : String :=
  calls.foldl HistoryCall.run (snapshotCsvEnsure "")

def appended (calls : List HistoryCall) : List HistoryRow := calls.filterMap HistoryCall.row

/-! ## Reading -/

/-- A row of `csv.DictReader`: a column that is missing is `None`, and what is left
under the key `None` is `rest`. -/
structure DictRow where
  columns : Dict String (Option String)
  rest : List String
  deriving DecidableEq

def dictRow (fieldnames record : List String) : DictRow where
  columns :=
    let values := record.map some ++ List.replicate (fieldnames.length - record.length) none
    (fieldnames.zip values).foldl (fun d entry => d.set entry.1 entry.2) .empty
  rest := record.drop fieldnames.length

/-- A record as text. -/
def textOf (record : Record) : List String := record.map String.ofList

/-- `load_rows`: the first record names the columns, and blank lines are passed over. -/
def loadRows (file : String) : Except CsvError (List DictRow) := do
  let records ← recordsFrom .start file.toList
  match records.map textOf with
  | [] => return []
  | fieldnames :: records => return (records.filter (· ≠ [])).map (dictRow fieldnames)

/-- What `tail` takes for lines. -/
def linesOf (text : List Char) : List (List Char) :=
  let parts := text.splitOn '\n'
  if parts.getLast? = some [] then parts.dropLast else parts

/-- `cut -d, -f`. -/
def cut (n : Nat) (line : List Char) : List Char :=
  let fields := line.splitOn ','
  if fields.length = 1 then line else fields[n - 1]?.getD []

/-- `tail -n +2 | tail -1 | cut -d, -f3`, of a file that is not empty. -/
def latestRunLabel (file : String) : String :=
  if file = "" then ""
  else match ((linesOf file.toList).drop 1).getLast? with
    | none => ""
    | some line => String.ofList (cut 3 line)

/-! ## The text of a history -/

def historyColumns : List String :=
  ["recorded_utc", "git_sha", "run_label", "count", "warmup", "stack", "size", "rate_hz", "n",
    "mean_us", "p50_us", "p99_us", "gap_count"]

def HistoryRow.fields (row : HistoryRow) : List String :=
  [row.recorded, row.sha, row.label, row.count, row.warmup, row.bench.stack, row.bench.size,
    row.bench.rateHz, row.bench.n, row.bench.meanUs, row.bench.p50Us, row.bench.p99Us,
    row.bench.gapCount]

/-- Fields as they are read. -/
def recordOf (fields : List String) : Record := fields.map String.toList

theorem toString_self (text : String) : toString text = text := rfl

theorem header_eq : (snapshotCsvEnsure "").toList = joined (recordOf historyColumns) := by
  simp [snapshotCsvEnsure, snapshotCsvHeader, joined, recordOf, historyColumns, List.intercalate,
    List.intersperse, toString_self]

theorem appendLine_eq (file : String) (row : HistoryRow) :
    (HistoryCall.run file (.appendLine row)).toList =
      file.toList ++ joined (recordOf row.fields) := by
  simp [HistoryCall.run, snapshotCsvAppendLine, BenchLine.text, joined, recordOf,
    HistoryRow.fields, List.intercalate, List.intersperse, String.toList_append, toString_self]

theorem appendNa_eq (file recorded sha label count warmup stack size rateHz : String) :
    HistoryCall.run file (.appendNa recorded sha label count warmup stack size rateHz) =
      HistoryCall.run file
        (.appendLine ⟨recorded, sha, label, count, warmup, naLine stack size rateHz⟩) := by
  apply String.toList_injective
  simp [HistoryCall.run, snapshotCsvAppendNa, snapshotCsvAppendLine, BenchLine.text, naLine,
    String.toList_append, toString_self]

/-- A call adds the line of its row to a file that is there. -/
theorem run_eq {file : String} (there : file ≠ "") (call : HistoryCall) :
    (call.run file).toList =
      file.toList ++ joinedText (call.row.toList.map fun row => recordOf row.fields) := by
  cases call with
  | ensure =>
      unfold HistoryCall.run snapshotCsvEnsure
      simp [there, HistoryCall.row, joinedText]
  | appendLine row =>
      rw [appendLine_eq]
      simp [HistoryCall.row, joinedText]
  | appendNa recorded sha label count warmup stack size rateHz =>
      rw [appendNa_eq, appendLine_eq]
      simp [HistoryCall.row, joinedText]

/-- The rows of a history, with the names of the columns first. -/
def recordsOf (calls : List HistoryCall) : List Record :=
  recordOf historyColumns :: (appended calls).map fun row => recordOf row.fields

theorem history_eq (calls : List HistoryCall) :
    (history calls).toList = joinedText (recordsOf calls) := by
  induction calls using List.reverseRecOn with
  | nil =>
      rw [show history [] = snapshotCsvEnsure "" from rfl, header_eq]
      simp [recordsOf, appended, joinedText]
  | append_singleton calls call ih =>
      have there : history calls ≠ "" := by
        intro empty
        rw [empty] at ih
        simp [recordsOf, joinedText, joined] at ih
      have one : history (calls ++ [call]) = call.run (history calls) := by
        unfold history
        rw [List.foldl_append]
        rfl
      rw [one, run_eq there, ih]
      cases row : call.row with
      | none => simp [recordsOf, appended, joinedText, row]
      | some row => simp [recordsOf, appended, joinedText, row]

/-! ## Reading it back -/

/-- A row that has all the fields as they were written, and nothing else. -/
def HasFields (read : DictRow) (row : HistoryRow) : Prop :=
  read.rest = [] ∧ read.columns.items = historyColumns.zip (row.fields.map some)

/-- Both readers return what was appended. -/
def ReadsBack (calls : List HistoryCall) : Prop :=
  (∃ rows, loadRows (history calls) = .ok rows ∧
    List.Forall₂ HasFields rows (appended calls)) ∧
  ∀ row, (appended calls).getLast? = some row → latestRunLabel (history calls) = row.label

/-- A row none of whose fields needs quotes. -/
def PlainRow (row : HistoryRow) : Prop := ∀ field ∈ row.fields, Plain field.toList

theorem items_dictRow (record : List String) : (dictRow historyColumns record).columns.items =
    historyColumns.zip
      (record.map some ++ List.replicate (historyColumns.length - record.length) none) := by
  apply Dict.items_foldl_set
  rw [List.map_fst_zip]
  · decide
  · simp only [List.length_append, List.length_map, List.length_replicate]
    omega

theorem hasFields_dictRow (record : List String) (row : HistoryRow) :
    HasFields (dictRow historyColumns record) row ↔ record = row.fields := by
  refine ⟨?_, ?_⟩
  · intro fields
    rcases fields with ⟨rest, items⟩
    have short : record.length ≤ historyColumns.length := List.drop_eq_nil_iff.mp rest
    rw [items_dictRow] at items
    have values := congrArg (List.map Prod.snd) items
    rw [List.map_snd_zip, List.map_snd_zip] at values
    · have missing : historyColumns.length - record.length = 0 := by
        by_contra some'
        have none' : none ∈ row.fields.map some := by
          rw [← values]
          exact List.mem_append_right _ (List.mem_replicate.mpr ⟨some', rfl⟩)
        simp at none'
      rw [missing, List.replicate_zero, List.append_nil] at values
      exact List.map_injective_iff.mpr (Option.some_injective String) values
    · exact Nat.le_refl 13
    · simp only [List.length_append, List.length_map, List.length_replicate]
      omega
  · rintro rfl
    refine ⟨rfl, ?_⟩
    rw [items_dictRow]
    exact congrArg _ (List.append_nil _)

theorem textOf_recordOf (fields : List String) : textOf (recordOf fields) = fields := by
  simp [textOf, recordOf, Function.comp_def]

theorem textOf_eq {record : Record} {fields : List String} :
    textOf record = fields ↔ record = recordOf fields := by
  refine ⟨?_, ?_⟩
  · rintro rfl
    simp [textOf, recordOf, Function.comp_def]
  · rintro rfl
    exact textOf_recordOf fields

theorem plain_historyColumns : ∀ field ∈ recordOf historyColumns, Plain field := by
  have whole : ∀ field ∈ recordOf historyColumns, (∀ c ∈ field, separates c = false) ∧
      field.head? ≠ some '"' ∧ field.length ≤ fieldSizeLimit := by
    simp [recordOf, historyColumns, separates, isNewline, fieldSizeLimit]
  intro field member
  obtain ⟨separate, quote, short⟩ := whole field member
  exact ⟨separate, quote, short⟩

theorem loadRows_eq (calls : List HistoryCall) : loadRows (history calls) =
    (recordsFrom .start (joinedText ((appended calls).map fun row => recordOf row.fields))).map
      fun out => ((kept out).map textOf).map (dictRow historyColumns) := by
  have header : 2 ≤ (recordOf historyColumns).length := by decide
  unfold loadRows
  rw [history_eq, recordsOf, joinedText, List.flatMap_cons, ← joinedText,
    recordsFrom_line header plain_historyColumns]
  cases recordsFrom .start (joinedText ((appended calls).map fun row => recordOf row.fields)) with
  | error e => rfl
  | ok out =>
      show Except.ok _ = Except.ok _
      rw [textOf_recordOf]
      unfold kept
      congr 2
      rw [List.filter_map]
      refine congrArg (List.map textOf) (List.filter_congr ?_)
      intro record _
      cases record <;> simp [textOf]

/-- `load_rows` gets the rows as they were written when the reader gets their records. -/
theorem loadRows_history (calls : List HistoryCall) :
    (∃ rows, loadRows (history calls) = .ok rows ∧ List.Forall₂ HasFields rows (appended calls)) ↔
      ∃ out, recordsFrom .start
          (joinedText ((appended calls).map fun row => recordOf row.fields)) = .ok out ∧
        kept out = (appended calls).map fun row => recordOf row.fields := by
  have sameRows : ∀ out, List.Forall₂ HasFields
      (((kept out).map textOf).map (dictRow historyColumns)) (appended calls) ↔
        kept out = (appended calls).map fun row => recordOf row.fields := by
    intro out
    rw [List.map_map, List.forall₂_map_left_iff]
    simp only [Function.comp_apply, hasFields_dictRow, textOf_eq]
    rw [← List.forall₂_map_right_iff (R := (· = ·)), List.forall₂_eq_eq_eq]
  rw [loadRows_eq]
  refine ⟨?_, ?_⟩
  · intro found
    rcases found with ⟨rows, read, same⟩
    obtain ⟨out, ran, rfl⟩ := map_eq_ok.mp read
    exact ⟨out, ran, (sameRows out).mp same⟩
  · intro found
    rcases found with ⟨out, ran, same⟩
    exact ⟨_, map_eq_ok.mpr ⟨out, ran, rfl⟩, (sameRows out).mpr same⟩

/-- The lines of a text all of whose lines end. -/
theorem linesOf_joinedText {rows : List Record}
    (whole : ∀ row ∈ rows, '\n' ∉ [','].intercalate row) :
    linesOf (joinedText rows) = rows.map fun row => [','].intercalate row := by
  have parts : (joinedText rows).splitOn '\n' =
      (rows.map fun row => [','].intercalate row) ++ [[]] := by
    induction rows with
    | nil => rfl
    | cons row rows ih =>
        have line : joinedText (row :: rows) =
            [','].intercalate row ++ '\n' :: joinedText rows := by
          simp [joinedText, joined]
        rw [line, List.splitOn_append_cons_self_of_not_mem (whole row List.mem_cons_self),
          ih fun row' member => whole row' (List.mem_cons_of_mem row member)]
        rfl
  unfold linesOf
  dsimp only
  rw [parts, if_pos (by simp), List.dropLast_concat]

theorem newline_notMem_intercalate {row : Record} (plain : ∀ field ∈ row, Plain field) :
    '\n' ∉ [','].intercalate row := by
  induction row with
  | nil => simp
  | cons field row ih =>
      have own := (plain field List.mem_cons_self).notMem (show separates '\n' = true by decide)
      have others := ih fun field' member => plain field' (List.mem_cons_of_mem field member)
      by_cases last : row = []
      · subst last
        simpa using own
      · rw [List.intercalate_cons_of_ne_nil last]
        simp [own, others]

/-- With plain fields `cut` finds the label. -/
theorem latestRunLabel_history {calls : List HistoryCall} {row : HistoryRow}
    (plain : ∀ row ∈ appended calls, PlainRow row)
    (last : (appended calls).getLast? = some row) :
    latestRunLabel (history calls) = row.label := by
  have plain' : ∀ row ∈ appended calls, ∀ field ∈ recordOf row.fields, Plain field := by
    intro row member field inRow
    obtain ⟨text, inFields, rfl⟩ := List.mem_map.mp inRow
    exact plain row member text inFields
  have whole : ∀ record ∈ recordsOf calls, '\n' ∉ [','].intercalate record := by
    intro record member
    rcases List.mem_cons.mp member with rfl | inRows
    · exact newline_notMem_intercalate plain_historyColumns
    · obtain ⟨row, inCalls, rfl⟩ := List.mem_map.mp inRows
      exact newline_notMem_intercalate (plain' row inCalls)
  have there : history calls ≠ "" := by
    intro empty
    have text := history_eq calls
    rw [empty] at text
    simp [recordsOf, joinedText, joined] at text
  have line : ((linesOf (history calls).toList).drop 1).getLast? =
      some ([','].intercalate (recordOf row.fields)) := by
    rw [history_eq, linesOf_joinedText whole, recordsOf, List.map_cons, List.drop_one,
      List.tail_cons, List.map_map, List.getLast?_map, last]
    rfl
  have fields : ([','].intercalate (recordOf row.fields)).splitOn ',' = recordOf row.fields :=
    List.splitOn_intercalate ',' (fun field member =>
      (plain' row (List.mem_of_getLast? last) field member).notMem
        (show separates ',' = true by decide)) (by simp [recordOf, HistoryRow.fields])
  unfold latestRunLabel
  rw [if_neg there, line]
  dsimp only
  unfold cut
  rw [fields]
  simp [recordOf, HistoryRow.fields]

theorem several_recordOf {calls : List HistoryCall} :
    ∀ record ∈ (appended calls).map fun row => recordOf row.fields, 2 ≤ record.length := by
  intro record member
  obtain ⟨row, -, rfl⟩ := List.mem_map.mp member
  exact Nat.le_add_left 2 11

theorem plain_recordOf {calls : List HistoryCall} :
    (∀ record ∈ (appended calls).map fun row => recordOf row.fields,
      ∀ field ∈ record, Plain field) ↔ ∀ row ∈ appended calls, PlainRow row := by
  simp [PlainRow, recordOf]

/-- Plain rows are loaded as they were written. -/
theorem loadRows_of_plain {calls : List HistoryCall} (plain : ∀ row ∈ appended calls, PlainRow row) :
    ∃ rows, loadRows (history calls) = .ok rows ∧
      List.Forall₂ HasFields rows (appended calls) :=
  (loadRows_history calls).mpr
    ((reads_joined_iff several_recordOf).mpr (plain_recordOf.mpr plain))

/-- **When a history reads back.** Both readers return what was appended, and nothing
else, if and only if no field of a row has a comma or an end of line in it, begins with
a quote or is longer than the reader allows. -/
theorem readsBack_iff (calls : List HistoryCall) :
    ReadsBack calls ↔ ∀ row ∈ appended calls, PlainRow row := by
  refine ⟨?_, ?_⟩
  · intro reads
    exact plain_recordOf.mp
      ((reads_joined_iff several_recordOf).mp ((loadRows_history calls).mp reads.1))
  · intro plain
    exact ⟨loadRows_of_plain plain, fun row last => latestRunLabel_history plain last⟩

/-- A run that is labelled with a comma. -/
def commaRow : HistoryRow where
  recorded := "2026-01-01 00:00 UTC"
  sha := "0000000"
  label := "a,b"
  count := "200"
  warmup := "50"
  bench := ⟨"covesa", "64", "100.0", "200", "12.500", "12.000", "20.000", "0"⟩

/-- The comma ends the label. -/
theorem not_readsBack_comma : ¬ ReadsBack [.appendLine commaRow] := by
  intro reads
  have plain := plain_recordOf.mp
    ((reads_joined_iff several_recordOf).mp ((loadRows_history _).mp reads.1))
  have label : "a,b" ∈ commaRow.fields := by simp [HistoryRow.fields, commaRow]
  exact (plain commaRow List.mem_cons_self "a,b" label).notMem
    (show separates ',' = true by decide) (by decide)

end MiddlewareBench.Snapshot
