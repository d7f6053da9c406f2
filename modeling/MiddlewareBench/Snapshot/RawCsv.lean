import MiddlewareBench.Lib.CsvRoundTrip
import MiddlewareBench.Snapshot.History
import MiddlewareBench.Snapshot.Malformed

/-!
# The raw CSV of a report

`make_dataset` writes the rows it has selected back as CSV (`csv_raw`), and the
template prints that text. It can stand for the history: `load_rows` reads from it the
rows that were selected, and the data set that is made of these is the same
(`report_again`).
-/

namespace MiddlewareBench.Snapshot

open CsvText Dict Fallible PyFloat StableSort

/-! ## What `load_rows` returns -/

/-- What was read is the row, with none of its columns missing and nothing else. -/
structure ReadAs (read : DictRow) (r : Row) : Prop where
  rest : read.rest = []
  items : read.columns.items = r.items.map fun entry => (entry.1, some entry.2)

/-- Every row was read. -/
theorem exists_readAs {read : List DictRow} {rows : List Row} {r : Row}
    (complete : List.Forall₂ ReadAs read rows) (member : r ∈ rows) :
    ∃ one ∈ read, ReadAs one r := by
  induction complete with
  | nil => cases member
  | cons readAs _ ih =>
      rcases List.mem_cons.mp member with rfl | others
      · exact ⟨_, List.mem_cons_self, readAs⟩
      · obtain ⟨one, inRest, same⟩ := ih others
        exact ⟨one, List.mem_cons_of_mem _ inRest, same⟩

theorem ReadAs.keys {read : DictRow} {r : Row} (readAs : ReadAs read r) :
    read.columns.keys = r.keys := by
  unfold Dict.keys
  rw [readAs.items, List.map_map]
  rfl

/-- Rows that a reader can have returned: with the same columns, and no text longer
than it allows. -/
structure Tabular (columns : List String) (rows : List Row) : Prop where
  keys : ∀ r ∈ rows, r.keys = columns
  named : columns ≠ []
  short : ∀ column ∈ columns, column.toList.length ≤ fieldSizeLimit
  values : ∀ r ∈ rows, ∀ value ∈ r.values, value.toList.length ≤ fieldSizeLimit

theorem Tabular.subset {columns : List String} {rows rows' : List Row}
    (tabular : Tabular columns rows) (subset : ∀ r ∈ rows', r ∈ rows) : Tabular columns rows' where
  keys r member := tabular.keys r (subset r member)
  named := tabular.named
  short := tabular.short
  values r member := tabular.values r (subset r member)

section Reading

variable {fieldnames record : List String}

/-- The columns of a row are those of the first record, each once. -/
theorem keys_dictRow (record' : List String) :
    (dictRow fieldnames record).columns.keys = (dictRow fieldnames record').columns.keys := by
  have whole : ∀ record : List String, (fieldnames.zip (record.map some ++
      List.replicate (fieldnames.length - record.length) none)).map Prod.fst = fieldnames := by
    intro record
    apply List.map_fst_zip
    simp only [List.length_append, List.length_map, List.length_replicate]
    omega
  unfold dictRow
  exact keys_foldl_set_congr rfl ((whole record).trans (whole record').symm)

/-- All the columns that are named are there. -/
theorem mem_keys_dictRow {column : String} (named : column ∈ fieldnames) :
    column ∈ (dictRow fieldnames record).columns.keys := by
  unfold dictRow
  refine (@mem_keys_foldBy _ _ _ _ _ _ Prod.fst (fun _ entry => entry.2) _).mpr (.inr ?_)
  rw [List.map_fst_zip]
  · exact named
  · simp only [List.length_append, List.length_map, List.length_replicate]
    omega

theorem mem_items_dictRow {entry : String × Option String}
    (member : entry ∈ (dictRow fieldnames record).columns.items) :
    entry.1 ∈ fieldnames ∧ ∀ value, entry.2 = some value → value ∈ record := by
  unfold dictRow at member
  rcases mem_items_foldl_set member with none' | given
  · cases none'
  · have parts := List.of_mem_zip (show (entry.1, entry.2) ∈ _ from given)
    refine ⟨parts.1, fun value there => ?_⟩
    rw [there] at parts
    rcases List.mem_append.mp parts.2 with own | missing
    · simpa using own
    · cases (List.mem_replicate.mp missing).2

end Reading

/-- Rows without a column missing, as they were read, can be written and read again. -/
theorem tabular_of_loadRows {file : String} {read : List DictRow} {rows : List Row}
    (loaded : loadRows file = .ok read) (complete : List.Forall₂ ReadAs read rows)
    (some' : rows ≠ []) : ∃ columns, Tabular columns rows := by
  unfold loadRows at loaded
  obtain ⟨records, ran, loaded⟩ := bind_eq_ok.mp loaded
  have short : ∀ row ∈ records.map textOf, ∀ field ∈ row,
      field.toList.length ≤ fieldSizeLimit := by
    intro row member field inside
    obtain ⟨record, inRecords, rfl⟩ := List.mem_map.mp member
    obtain ⟨chars, inRecord, rfl⟩ := List.mem_map.mp inside
    rw [String.toList_ofList]
    exact short_recordsFrom short_start ran record inRecords chars inRecord
  cases texts' : records.map textOf with
  | nil =>
      rw [texts'] at loaded
      cases loaded
      cases complete
      exact absurd rfl some'
  | cons fieldnames later =>
      rw [texts'] at loaded short
      cases loaded
      have inRead : ∀ r ∈ rows, ∃ record ∈ later, record ≠ [] ∧
          ReadAs (dictRow fieldnames record) r := by
        intro r member
        obtain ⟨one, inOnes, readAs⟩ := exists_readAs complete member
        obtain ⟨record, kept, rfl⟩ := List.mem_map.mp inOnes
        rw [List.mem_filter] at kept
        exact ⟨record, kept.1, by simpa using kept.2, readAs⟩
      obtain ⟨first, rest, rfl⟩ := List.exists_cons_of_ne_nil some'
      obtain ⟨record, -, nonblank, readAs⟩ := inRead first List.mem_cons_self
      refine ⟨(dictRow fieldnames record).columns.keys, ?_, ?_, ?_, ?_⟩
      · intro r member
        obtain ⟨record', -, -, readAs'⟩ := inRead r member
        rw [← readAs'.keys, keys_dictRow record]
      · -- without columns all of a record would be left over
        intro none'
        have noNames : fieldnames = [] := by
          refine List.eq_nil_iff_forall_not_mem.mpr fun column named => ?_
          have there := @mem_keys_dictRow fieldnames record column named
          rw [none'] at there
          cases there
        have left := readAs.rest
        rw [noNames] at left
        exact nonblank left
      · intro column member
        obtain ⟨entry, inside, rfl⟩ := List.mem_map.mp member
        exact short fieldnames List.mem_cons_self _ (mem_items_dictRow inside).1
      · intro r member value inside
        obtain ⟨record', inLater, -, readAs'⟩ := inRead r member
        obtain ⟨entry, there, rfl⟩ := List.mem_map.mp inside
        have given : (entry.1, some entry.2) ∈ (dictRow fieldnames record').columns.items := by
          rw [readAs'.items]
          exact List.mem_map.mpr ⟨entry, there, rfl⟩
        exact short record' (List.mem_cons_of_mem _ inLater) _
          ((mem_items_dictRow given).2 entry.2 rfl)

/-! ## Reading the raw CSV -/

section Written

variable {columns : List String} {rows allRows : List Row} {r : Row}

/-- The values of a row under its columns. -/
theorem map_get_keys (r : Row) : (r.keys.map fun key => r.get key "") = r.values := by
  unfold Dict.keys Dict.values
  rw [List.map_map]
  refine List.map_congr_left fun entry member => ?_
  exact congrArg (Option.getD · "") (get?_eq_some.mpr member)

/-- The records that are written of rows. -/
theorem csvRaw_eq (tabular : Tabular columns rows) (some' : rows ≠ []) :
    csvRaw rows = String.ofList ((columns :: rows.map Dict.values).flatMap writeRow) := by
  obtain ⟨first, rest, rfl⟩ := List.exists_cons_of_ne_nil some'
  unfold csvRaw
  dsimp only
  rw [tabular.keys first List.mem_cons_self]
  congr 3
  refine List.map_congr_left fun r member => ?_
  rw [← tabular.keys r member]
  exact map_get_keys r

theorem readAs_values (own : r.keys = columns) : ReadAs (dictRow columns r.values) r := by
  have same : columns.length = r.values.length := by
    rw [← own]
    unfold Dict.keys Dict.values
    rw [List.length_map, List.length_map]
  refine ⟨List.drop_eq_nil_iff.mpr (Nat.le_of_eq same.symm), ?_⟩
  unfold dictRow
  dsimp only
  rw [same, Nat.sub_self, List.replicate_zero, List.append_nil]
  have distinct : (columns.zip (r.values.map some)).map Prod.fst = columns := by
    apply List.map_fst_zip
    rw [List.length_map, same]
  rw [items_foldl_set (by rw [distinct, ← own]; exact r.nodup), ← own]
  unfold Dict.keys Dict.values
  rw [List.map_map, List.zip_map']
  rfl

/-- **The raw CSV reads back** as the rows it was made of, whatever is in them. -/
theorem loadRows_csvRaw (tabular : Tabular columns rows) :
    ∃ read, loadRows (csvRaw rows) = .ok read ∧ List.Forall₂ ReadAs read rows := by
  by_cases none' : rows = []
  · subst none'
    exact ⟨[], rfl, .nil⟩
  · have some' : ∀ row ∈ columns :: rows.map Dict.values, row ≠ [] := by
      intro row member
      rcases List.mem_cons.mp member with rfl | values
      · exact tabular.named
      · obtain ⟨r, inRows, rfl⟩ := List.mem_map.mp values
        intro empty
        apply tabular.named
        rw [← tabular.keys r inRows]
        unfold Dict.values at empty
        unfold Dict.keys
        rw [List.map_eq_nil_iff] at empty ⊢
        exact empty
    have short : ∀ row ∈ columns :: rows.map Dict.values, ∀ field ∈ row,
        field.toList.length ≤ fieldSizeLimit := by
      intro row member
      rcases List.mem_cons.mp member with rfl | values
      · exact tabular.short
      · obtain ⟨r, inRows, rfl⟩ := List.mem_map.mp values
        exact tabular.values r inRows
    have records : ((columns :: rows.map Dict.values).map texts).map textOf =
        columns :: rows.map Dict.values := by
      rw [List.map_map]
      exact (List.map_congr_left fun row _ => textOf_recordOf row).trans (List.map_id _)
    refine ⟨(rows.map Dict.values).map (dictRow columns), ?_, ?_⟩
    · unfold loadRows
      rw [csvRaw_eq tabular none', String.toList_ofList, recordsFrom_writeRows some' short]
      dsimp only [bind, Except.bind]
      rw [records]
      dsimp only
      rw [List.filter_eq_self.mpr]
      · rfl
      · intro row member
        exact decide_eq_true (some' row (List.mem_cons_of_mem _ member))
    · rw [List.map_map, List.forall₂_map_left_iff]
      exact List.forall₂_same.mpr fun r member => readAs_values (tabular.keys r member)

end Written

/-! ## Rendering again -/

/-- A summary is its own summary. -/
theorem latestPerConfig_again {rows : List Row} (sortable : ∀ r ∈ rows, Sortable r) :
    latestPerConfig (sortBy (fun r => classOf (configKey r)) (newestOf rows).values) =
      .ok (sortBy (fun r => classOf (configKey r)) (newestOf rows).values) := by
  have kept : ∀ r ∈ sortBy (fun r => classOf (configKey r)) (newestOf rows).values,
      Sortable r := fun r member => sortable r (values_newestOf_subset (mem_sortBy.mp member))
  have again : sortBy (fun r => classOf (configKey r)) (newestOf (rows ++ [])).values =
      sortBy (fun r => classOf (configKey r))
        (newestOf
          (sortBy (fun r => classOf (configKey r)) (newestOf rows).values ++ [])).values := by
    unfold newestOf
    exact sortBy_foldBy_append selects_newer (fun _ => rfl) fun _ => rfl
  rw [List.append_nil, List.append_nil] at again
  rw [latestPerConfig_eq kept, ← again]

/-- What was selected is what would be selected of it. -/
theorem selectRows_again {allRows rows : List Row} {runLabel : String}
    (selected : selectRows allRows runLabel = .ok rows) :
    selectRows rows runLabel = .ok rows ∧ ∀ r ∈ rows, r ∈ allRows := by
  unfold selectRows at selected ⊢
  split
  · rename_i labelled
    rw [if_pos labelled, Except.ok.injEq] at selected
    subst selected
    refine ⟨?_, fun r => filterRunLabel_subset⟩
    unfold filterRunLabel
    rw [if_neg labelled, if_neg labelled, List.filter_filter]
    simp only [Bool.and_self]
  · rename_i unlabelled
    rw [if_neg unlabelled] at selected
    have sortable := sortable_of_latestPerConfig selected
    rw [latestPerConfig_eq sortable, Except.ok.injEq] at selected
    subst selected
    exact ⟨latestPerConfig_again sortable,
      fun r member => values_newestOf_subset (mem_sortBy.mp member)⟩

/-- **A report can be made again from its raw CSV.** For every history file whose rows
have all their columns and no more, and both selection modes: what `load_rows` reads
from the raw CSV of the data set are the rows that were selected, each field as it was,
and from these the same data set is made. -/
theorem report_again (rnd : Rounding) (file csvPath runLabel transport : String)
    (read : List DictRow) (allRows : List Row) (dataset : Dataset)
    (loaded : loadRows file = .ok read) (complete : List.Forall₂ ReadAs read allRows)
    (made : makeDataset rnd csvPath allRows runLabel transport = .ok dataset) :
    ∃ read' rows, loadRows dataset.csvRaw = .ok read' ∧ List.Forall₂ ReadAs read' rows ∧
      selectRows allRows runLabel = .ok rows ∧
        makeDataset rnd csvPath rows runLabel transport = .ok dataset := by
  obtain ⟨rows, chartYMax, selected, readable, ends, rfl⟩ := makeDataset_eq_ok.mp made
  obtain ⟨again, subset⟩ := selectRows_again selected
  have remade : makeDataset rnd csvPath rows runLabel transport =
      .ok (datasetOf rnd csvPath rows runLabel transport chartYMax) :=
    makeDataset_eq_ok.mpr ⟨rows, chartYMax, again, readable, ends, rfl⟩
  by_cases none' : allRows = []
  · have empty : rows = [] := by
      refine List.eq_nil_iff_forall_not_mem.mpr fun r member => ?_
      have inAll := subset r member
      rw [none'] at inAll
      cases inAll
    subst empty
    exact ⟨[], [], rfl, .nil, selected, remade⟩
  · obtain ⟨columns, tabular⟩ := tabular_of_loadRows loaded complete none'
    obtain ⟨read', loaded', same⟩ := loadRows_csvRaw (tabular.subset subset)
    exact ⟨read', rows, loaded', same, selected, remade⟩

/-- A history with a comma, a quote and the end of a line in one of its labels. -/
def quotedHistory : String :=
  "run_label,stack\n\"a,\"\"\nb\",covesa\nc,sgmenon\n"

def quotedRow : Row := ⟨[("run_label", "a,\"\nb"), ("stack", "covesa")], by decide⟩

def otherRow : Row := ⟨[("run_label", "c"), ("stack", "sgmenon")], by decide⟩

/-- The report of the quoted label. -/
def quotedReport : Dataset where
  transport := "udp"
  runLabel := "a,\"\nb"
  historyCsv := "snapshot.csv"
  comparisons := []
  sizeLabels := []
  covesaLine := ""
  sgmenonLine := ""
  chartYMax := 1
  csvRaw := "run_label,stack\n\"a,\"\"\nb\",covesa\n"

theorem report_again_quoted :
    ∃ read' rows, loadRows quotedReport.csvRaw = .ok read' ∧ List.Forall₂ ReadAs read' rows ∧
      selectRows [quotedRow, otherRow] "a,\"\nb" = .ok rows ∧
        makeDataset binary64 "snapshot.csv" rows "a,\"\nb" "udp" = .ok quotedReport :=
  report_again binary64 quotedHistory "snapshot.csv" "a,\"\nb" "udp"
    [dictRow ["run_label", "stack"] ["a,\"\nb", "covesa"],
      dictRow ["run_label", "stack"] ["c", "sgmenon"]]
    [quotedRow, otherRow] quotedReport (by decide +kernel)
    (.cons ⟨rfl, by decide +kernel⟩ (.cons ⟨rfl, by decide +kernel⟩ .nil)) (by decide +kernel)

end MiddlewareBench.Snapshot
