import MiddlewareBench.Lib.Binary64
import MiddlewareBench.Snapshot.RunSnapshot

/-!
# What a full run shows

A script that runs both stacks at all the sizes shows what its clients have printed
(`runSnapshot_shows`), and rendering it again shows the same (`runSnapshot_again`).
-/

namespace MiddlewareBench.Snapshot

open CsvText DecimalText Fallible PyFloat PyNumbers ShellText Vsomeip

/-- What a run has measured, if it has samples. -/
def GridRun.sampled (snap : GridRun) (stack : String) (size : UInt64) : Option Measurement :=
  (snap.outcome stack size).filter fun measured => measured.latencyUs ≠ []

/-- The sizes that either stack has samples of. -/
def GridRun.sampledSizes (snap : GridRun) : List UInt64 :=
  snap.sizes.filter fun size =>
    (snap.sampled "covesa" size).isSome || (snap.sampled "sgmenon" size).isSome

/-- The entry of a line: the mean as its client has printed it. -/
def GridRun.entry (snap : GridRun) (stack : String) (size : UInt64) : String :=
  match snap.sampled stack size with
  | some measured => printDouble 3 (meanUs measured.latencyUs)
  | none => "0"

/-- The data set has the measurements of the run, and no others. -/
structure ShowsGrid (atof : String → Double) (snap : GridRun) (dataset : Dataset) : Prop where
  runLabel : dataset.runLabel = snap.label
  sizeLabels : dataset.sizeLabels = snap.sampledSizes.map fun size => sizeLabel size.toNat
  covesaLine : dataset.covesaLine = ", ".intercalate (snap.sampledSizes.map (snap.entry "covesa"))
  sgmenonLine : dataset.sgmenonLine =
    ", ".intercalate (snap.sampledSizes.map (snap.entry "sgmenon"))
  comparisons : dataset.comparisons = gridTable binary64 atof snap
  csvRaw : dataset.csvRaw = csvRaw (gridRows atof snap)

section Full

variable {atof : String → Double} {snap : GridRun} {stack : String} {size : UInt64}

theorem rowOk_cellRow :
    rowOk (rowOf (snap.cellRow atof stack size)) = (snap.sampled stack size).isSome := by
  have n : (rowOf (snap.cellRow atof stack size)).get? "n" =
      some (snap.cellRow atof stack size).bench.n :=
    get?_rowOf (by simp [historyColumns, HistoryRow.fields])
  unfold rowOk
  dsimp only
  rw [get_of_get? (columns_rowOf _).mean, get_of_get? n]
  unfold GridRun.cellRow GridRun.sampled
  cases snap.outcome stack size with
  | none => rfl
  | some measured =>
      have point := point_mem_printDouble 3 (meanUs measured.latencyUs)
      have mean : printDouble 3 (meanUs measured.latencyUs) ∉ ["", "NA"] := by
        intro member
        simp only [List.mem_cons, List.not_mem_nil, or_false] at member
        rcases member with empty | missing
        · rw [empty] at point
          cases point
        · rw [missing] at point
          exact absurd point (by decide)
      have count : Nat.repr measured.latencyUs.length ∉ ["", "0"] ↔ measured.latencyUs ≠ [] := by
        have zero : Nat.repr measured.latencyUs.length = "0" ↔ measured.latencyUs.length = 0 :=
          ⟨fun same => repr_injective (same.trans (by decide : "0" = Nat.repr 0)),
            fun same => by rw [same]; decide⟩
        have digits : Nat.repr measured.latencyUs.length ≠ "" := by
          intro empty
          have text := congrArg String.toList empty
          rw [Nat.toList_repr] at text
          exact Nat.toDigits_ne_nil text
        simp [zero, digits]
      unfold SnapshotArgs.row clientLine printCsv
      dsimp only
      have counted : decide (Nat.repr measured.latencyUs.length ∉ ["", "0"]) =
          decide (measured.latencyUs ≠ []) := decide_eq_decide.mpr count
      rw [decide_eq_true mean, counted, Bool.true_and, Option.filter_some]
      split
      · rename_i some'
        exact some'
      · rename_i none'
        exact Bool.eq_false_iff.mpr none'

/-- The row that is charted is that of the run, if it has samples. -/
theorem lastUsable_gridRows (one : stack ∈ ["covesa", "sgmenon"]) (member : size ∈ snap.sizes) :
    lastUsable (gridRows atof snap) stack size.toNat =
      (snap.sampled stack size).map fun _ => rowOf (snap.cellRow atof stack size) := by
  have own : ∀ r ∈ gridRows atof snap, (usable stack (size.toNat : Int) r = true ↔
      r = rowOf (snap.cellRow atof stack size) ∧ (snap.sampled stack size).isSome) := by
    intro r inRows
    obtain ⟨size', -, stack', -, rfl⟩ := mem_gridRows.mp inRows
    rw [usable_eq_true, (columns_rowOf _).stack, stack_row, sizeOf_rowOf, Option.some.injEq,
      Except.ok.injEq]
    refine ⟨?_, ?_⟩
    · rintro ⟨rfl, same, ok⟩
      cases UInt64.toNat.inj (Int.ofNat.inj same)
      exact ⟨rfl, rowOk_cellRow.symm.trans ok⟩
    · rintro ⟨same, some'⟩
      have stacks' := congrArg (fun r => r.get? "stack") same
      have sizes := congrArg sizeOf same
      rw [(columns_rowOf _).stack, (columns_rowOf _).stack, stack_row, stack_row,
        Option.some.injEq] at stacks'
      rw [sizeOf_rowOf, sizeOf_rowOf, Except.ok.injEq] at sizes
      rw [same]
      exact ⟨stacks', sizes, rowOk_cellRow.trans some'⟩
  cases sampled : snap.sampled stack size with
  | none =>
      unfold lastUsable
      rw [List.filter_eq_nil_iff.mpr]
      · rfl
      · intro r inRows ok
        have some' := ((own r inRows).mp ok).2
        rw [sampled] at some'
        cases some'
  | some measured =>
      have there : rowOf (snap.cellRow atof stack size) ∈
          (gridRows atof snap).filter (usable stack size.toNat) := by
        have inRows : rowOf (snap.cellRow atof stack size) ∈ gridRows atof snap :=
          mem_gridRows.mpr ⟨size, member, stack, one, rfl⟩
        exact List.mem_filter.mpr ⟨inRows, (own _ inRows).mpr ⟨rfl, by rw [sampled]; rfl⟩⟩
      unfold lastUsable
      cases last : ((gridRows atof snap).filter (usable stack size.toNat)).getLast? with
      | none =>
          rw [List.getLast?_eq_none_iff.mp last] at there
          cases there
      | some r =>
          obtain ⟨inRows, ok⟩ := List.mem_filter.mp (List.mem_of_getLast? last)
          rw [((own r inRows).mp ok).1]
          rfl

/-- Means up to 50 days. -/
def GridRun.Small (snap : GridRun) : Prop :=
  ∀ stack ∈ ["covesa", "sgmenon"], ∀ size ∈ snap.sizes, ∀ measured,
    snap.outcome stack size = some measured →
      Rat.nnabs (meanUs measured.latencyUs) ≤ (2 ^ 42 : Nat)

theorem GridRun.Small.mean {snap : GridRun} {stack : String} {size : UInt64}
    {measured : Measurement} (small : snap.Small) (one : stack ∈ ["covesa", "sgmenon"])
    (inSizes : size ∈ snap.sizes) (outcome : snap.outcome stack size = some measured) :
    Rat.nnabs (meanUs measured.latencyUs) ≤ 2 ^ 42 := by
  have bound := small stack one size inSizes measured outcome
  rw [Nat.cast_pow, Nat.cast_ofNat] at bound
  exact bound

/-- The numbers of a run with samples are read, the mean as it was printed. -/
theorem meanOf_cellRow {measured : Measurement} (sampled : snap.sampled stack size = some measured)
    (small : Rat.nnabs (meanUs measured.latencyUs) ≤ 2 ^ 42) :
    ∃ neg mag, meanOf binary64 (rowOf (snap.cellRow atof stack size)) = .ok (finite neg mag) ∧
      fixed 3 (finite neg mag) = snap.entry stack size ∧ mag ≤ 2 ^ 42 + 1 ∧
      Readable binary64 (rowOf (snap.cellRow atof stack size)) := by
  obtain ⟨outcome, -⟩ := Option.filter_eq_some_iff.mp sampled
  have bench : (snap.cellRow atof stack size).bench = clientLine atof stack size measured := by
    unfold GridRun.cellRow
    rw [outcome]
    rfl
  obtain ⟨mag, read, printed, bound⟩ :=
    @exists_pyFloat_binary64 (decide (meanUs measured.latencyUs < 0)) _ small
  have mean : meanOf binary64 (rowOf (snap.cellRow atof stack size)) = .ok (finite _ mag) :=
    meanOf_eq_ok.mpr ⟨_, (columns_rowOf _).mean, by rw [bench]; exact read⟩
  obtain ⟨p99, readP99⟩ : ∃ p99,
      pyFloat binary64 (snap.cellRow atof stack size).bench.p99Us = .ok p99 := by
    rw [bench]
    exact ⟨_, pyFloat_fixed binary64 (by decide) _ _⟩
  have p99' : p99Of binary64 (rowOf (snap.cellRow atof stack size)) = .ok p99 :=
    bind_eq_ok.mpr ⟨_, Row.item_eq_ok.mpr (columns_rowOf _).p99, readP99⟩
  refine ⟨_, mag, mean, ?_, bound, _, p99, mean, p99'⟩
  rw [printed]
  unfold GridRun.entry
  rw [sampled]
  rfl

/-- The axis of small values ends at a number. -/
theorem axisEnds_small {values : List PyFloat}
    (small : ∀ v ∈ values, ∃ s m, v = finite s m ∧ m ≤ 2 ^ 42 + 1) : AxisEnds binary64 values := by
  cases values with
  | nil => trivial
  | cons first rest =>
      obtain ⟨s, m, best, inside, -⟩ := @maximum_finite first rest
        fun v member => (small v member).imp fun s found => found.imp fun m same => same.1
      obtain ⟨s', m', same, bound⟩ := small _ inside
      cases same
      obtain ⟨c, factor, near⟩ := exists_binary64 (q := 23 / 20) (n := 2)
        (by decide +kernel) (by decide)
      have product : m * c ≤ (2 ^ 45 : Nat) := by
        calc m * c ≤ (2 ^ 42 + 1) * (2 + 1) := mul_le_mul bound near (by positivity) (by positivity)
          _ ≤ (2 ^ 45 : Nat) := by norm_num
      obtain ⟨p, scaled, below⟩ := exists_binary64 product (by decide)
      show ∃ neg mag, add binary64 (mul binary64 (maximum first rest)
        (rounded binary64 false (23 / 20))) (finite false 1) = finite neg mag
      have times : mul binary64 (finite s m) (rounded binary64 false (23 / 20)) =
          finite (s ^^ false) p := by
        unfold rounded
        rw [factor]
        unfold mul rounded
        dsimp only
        rw [scaled]
      rw [best, times]
      unfold add
      dsimp only
      split
      · exact ⟨_, _, rfl⟩
      · have sum : Rat.nnabs (signed (s ^^ false) p + signed false 1) ≤ (2 ^ 45 + 2 : Nat) := by
          rw [← NNRat.coe_le_coe, Rat.coe_nnabs]
          have below' : (p : ℚ) ≤ (2 ^ 45 : Nat) + 1 := by exact_mod_cast below
          calc |signed (s ^^ false) p + signed false 1|
              ≤ |signed (s ^^ false) p| + |signed false 1| := abs_add_le _ _
            _ = p + (1 : ℚ≥0) := by rw [abs_signed, abs_signed]
            _ ≤ ((2 ^ 45 + 2 : Nat) : ℚ≥0) := by
              push_cast at below' ⊢
              linarith
        obtain ⟨mag, made, -⟩ := exists_binary64 sum (by decide)
        unfold rounded
        rw [made]
        exact ⟨_, mag, rfl⟩

section Ladder

variable (full : snap.sizes = ladder)

include full

theorem exists_size {z : Int} (canonical : z ∈ canonicalSizes) :
    ∃ size ∈ snap.sizes, z = (size.toNat : Int) := by
  rw [canonicalSizes_eq, ← full] at canonical
  obtain ⟨size, member, same⟩ := List.mem_map.mp canonical
  exact ⟨size, member, same.symm⟩

theorem chartSizes_gridRows : chartSizes (gridRows atof snap) =
    snap.sampledSizes.map fun size => (size.toNat : Int) := by
  unfold chartSizes GridRun.sampledSizes
  rw [canonicalSizes_eq, ← full, List.filter_map]
  refine congrArg (List.map _) (List.filter_congr fun size member => ?_)
  rw [Function.comp_apply, charted, lastUsable_gridRows (by simp) member,
    lastUsable_gridRows (by simp) member, Option.isSome_map, Option.isSome_map]

/-- The charted row of a canonical size. -/
theorem sampled_of_lastUsable {z : Int} {r : Row} (one : stack ∈ ["covesa", "sgmenon"])
    (canonical : z ∈ canonicalSizes) (last : lastUsable (gridRows atof snap) stack z = some r) :
    ∃ size ∈ snap.sizes, ∃ measured, snap.sampled stack size = some measured ∧
      r = rowOf (snap.cellRow atof stack size) := by
  obtain ⟨size, member, rfl⟩ := exists_size full canonical
  rw [lastUsable_gridRows one member] at last
  obtain ⟨measured, sampled, same⟩ := Option.map_eq_some_iff.mp last
  exact ⟨size, member, measured, sampled, same.symm⟩

/-- A line has the means as they were printed. -/
theorem fmtLine_gridRows (one : stack ∈ ["covesa", "sgmenon"]) (small : snap.Small) :
    fmtLine (lineOf binary64 (gridRows atof snap) stack) =
      ", ".intercalate (snap.sampledSizes.map (snap.entry stack)) := by
  unfold fmtLine lineOf
  rw [chartSizes_gridRows full, List.map_map, List.map_map]
  congr 1
  refine List.map_congr_left fun size member => ?_
  have inSizes : size ∈ snap.sizes := (List.mem_filter.mp member).1
  rw [Function.comp_apply, Function.comp_apply, lastUsable_gridRows one inSizes, Option.map_map]
  cases sampled : snap.sampled stack size with
  | none =>
      unfold GridRun.entry
      rw [sampled]
      rfl
  | some measured =>
      obtain ⟨outcome, -⟩ := Option.filter_eq_some_iff.mp sampled
      obtain ⟨neg, mag, read, printed, -⟩ := @meanOf_cellRow atof _ _ _ _ sampled
        (small.mean one inSizes outcome)
      show fixed 3 (meanValue binary64 (rowOf (snap.cellRow atof stack size))) = _
      rw [meanValue_eq read, printed]

/-- The rows of a full run make a data set, with its measurements. -/
theorem makeDataset_gridRows (small : snap.Small) {csvPath : String} {allRows : List Row}
    (transport : Transport) (labelled : snap.label ≠ "")
    (selected : selectRows allRows snap.label = .ok (gridRows atof snap)) :
    ∃ dataset, makeDataset binary64 csvPath allRows snap.label transport.text = .ok dataset ∧
      ShowsGrid atof snap dataset := by
  have readable : ChartReadable binary64 (gridRows atof snap) := by
    intro stack one z canonical r last
    obtain ⟨size, member, measured, sampled, rfl⟩ := sampled_of_lastUsable full one canonical last
    obtain ⟨outcome, -⟩ := Option.filter_eq_some_iff.mp sampled
    obtain ⟨neg, mag, -, -, -, readable⟩ := @meanOf_cellRow atof _ _ _ _ sampled
      (small.mean one member outcome)
    exact readable
  have axis : AxisEnds binary64 (plotted binary64 (gridRows atof snap)) := by
    apply axisEnds_small
    intro v shown
    obtain ⟨stack, one, z, charted', r, last, rfl⟩ := mem_plotted.mp shown
    obtain ⟨size, member, measured, sampled, rfl⟩ :=
      sampled_of_lastUsable full one (List.mem_filter.mp charted').1 last
    obtain ⟨outcome, -⟩ := Option.filter_eq_some_iff.mp sampled
    obtain ⟨neg, mag, read, -, bound, -⟩ := @meanOf_cellRow atof _ _ _ _ sampled
      (small.mean one member outcome)
    exact ⟨neg, mag, meanValue_eq read, bound⟩
  obtain ⟨chartYMax, ends⟩ := yMax_eq_ok.mpr axis
  refine ⟨_, makeDataset_eq_ok.mpr ⟨_, chartYMax, selected, readable, ends, rfl⟩, ?_, ?_, ?_, ?_,
    ?_, ?_⟩
  · exact if_pos labelled
  · show (chartSizes (gridRows atof snap)).map sizeLabel = _
    rw [chartSizes_gridRows full, List.map_map]
    rfl
  · exact fmtLine_gridRows full (by simp) small
  · exact fmtLine_gridRows full (by simp) small
  · rfl
  · rfl

end Ladder

end Full

section Shown

variable {atof : String → Double} {s : Script} {files : Histories} {calls : List HistoryCall}
  {sizes : List UInt64} {outcome : String → UInt64 → Option Measurement}

/-- The snapshot of a script that runs the whole ladder. -/
def Script.grid (s : Script) (outcome : String → UInt64 → Option Measurement) : GridRun :=
  { s.args with sizes := ladder, outcome }

/-- The outcomes of its runs, by their numbers. -/
def Script.outcomes (s : Script) (outcome : String → UInt64 → Option Measurement) (n : Nat) :
    Option Measurement :=
  (s.runsOf ladder)[n]?.bind fun run => outcome run.1.1 run.1.2

/-- A script for the whole ladder and both stacks. -/
structure FullRun (atof : String → Double) (s : Script)
    (outcome : String → UInt64 → Option Measurement) : Prop where
  renderOnly : s.renderOnly = false
  sizesText : s.sizesText = ""
  stacksText : s.stacksText = ""
  leaves : ∀ run ∈ s.runsOf ladder,
    (s.run run.2).Leaves atof run.1.1 run.1.2 (outcome run.1.1 run.1.2)

theorem stackList_of_unset (unset : s.stacksText = "") : s.stackList = ["covesa", "sgmenon"] := by
  unfold Script.stackList
  rw [unset]
  decide +kernel

theorem outcomes_eq {run : (String × UInt64) × Nat} (member : run ∈ s.runsOf ladder) :
    s.outcomes outcome run.2 = outcome run.1.1 run.1.2 := by
  have there := List.mk_mem_zipIdx_iff_getElem?.mp member
  unfold Script.outcomes Script.runsOf
  rw [List.getElem?_zipIdx, there]
  rfl

theorem FullRun.runs (full : FullRun atof s outcome) :
    s.Runs atof ladder (s.outcomes outcome) where
  renderOnly := full.renderOnly
  frameSizes := by
    unfold Script.frameSizes
    rw [full.sizesText, if_neg (not_not_intro rfl), vsomeipFrameSizes_eq]
  stackList := by
    rw [stackList_of_unset full.stacksText]
    exact fun stack => id
  leaves run member := by
    rw [outcomes_eq member]
    exact full.leaves run member

theorem FullRun.rows_eq (full : FullRun atof s outcome) :
    s.rows atof ladder (s.outcomes outcome) = (s.grid outcome).rows atof := by
  have measured : s.rows atof ladder (s.outcomes outcome) = (s.runsOf ladder).map fun run =>
      s.args.row atof run.1.1 run.1.2 (outcome run.1.1 run.1.2) :=
    List.map_congr_left fun run member => by rw [outcomes_eq member]
  have numbered : (s.runsOf ladder).map Prod.fst =
      ladder.flatMap fun size => s.stackList.map fun stack => (stack, size) :=
    List.zipIdx_map_fst ..
  have apart : ((s.runsOf ladder).map fun run =>
      s.args.row atof run.1.1 run.1.2 (outcome run.1.1 run.1.2)) =
        ((s.runsOf ladder).map Prod.fst).map fun run =>
          s.args.row atof run.1 run.2 (outcome run.1 run.2) := by
    rw [List.map_map]
    rfl
  rw [measured, apart, numbered, List.map_flatMap, stackList_of_unset full.stacksText]
  rfl

/-- The rows under a fresh label are those of the run. -/
theorem selectRows_fresh {old : List HistoryRow} {snap : GridRun} (labelled : snap.label ≠ "")
    (fresh : ∀ row ∈ old, row.label ≠ snap.label) :
    selectRows ((old ++ snap.rows atof).map rowOf) snap.label = .ok (gridRows atof snap) := by
  unfold selectRows filterRunLabel
  rw [if_pos labelled, if_neg labelled, filter_label_rowOf,
    filter_label_fresh fresh fun row member => label_of_mem_rows member]
  rfl

/-- The other transport is left alone, and rendered under the label of its last run. -/
theorem runSnapshot_others {outcome : Nat → Option Measurement} {other : Transport}
    (runs : s.Runs atof sizes outcome) (rendered : s.csvFile = s.transport.csv)
    (made : snapshotCsvEnsure (files.get s.csvFile) = history calls)
    (different : other ≠ s.transport) :
    (s.runSnapshot files).1.get other.csv = files.get other.csv ∧
      (s.runSnapshot files).2 other = latestRunLabel (files.get other.csv) := by
  have unchanged : (s.runSnapshot files).1.get other.csv = files.get other.csv :=
    runSnapshot_elsewhere fun same =>
      different (Transport.csv_injective (same.symm.trans rendered))
  refine ⟨unchanged, ?_⟩
  rw [(runSnapshot_runs runs made).2]
  unfold Script.renderLabel
  rw [if_neg different, unchanged]

/-- Its own is rendered under its label. -/
theorem FullRun.renderLabel (full : FullRun atof s outcome)
    (made : snapshotCsvEnsure (files.get s.csvFile) = history calls) :
    (s.runSnapshot files).2 s.transport = s.ownLabel := by
  rw [(runSnapshot_runs full.runs made).2]
  unfold Script.renderLabel
  rw [if_pos rfl, if_pos full.sizesText]

/-- And its file makes a data set of its grid. -/
theorem FullRun.exists_dataset (full : FullRun atof s outcome)
    (rendered : s.csvFile = s.transport.csv)
    (made : snapshotCsvEnsure (files.get s.csvFile) = history calls)
    (plain : ∀ row ∈ appended calls ++ (s.grid outcome).rows atof, PlainRow row)
    (labelled : s.ownLabel ≠ "") (fresh : ∀ row ∈ appended calls, row.label ≠ s.ownLabel)
    (small : (s.grid outcome).Small) (csvPath : String) :
    ∃ dataset, MakesDataset csvPath ((s.runSnapshot files).1.get s.transport.csv) s.ownLabel
      s.transport dataset ∧ ShowsGrid atof (s.grid outcome) dataset := by
  obtain ⟨read, loaded, complete⟩ := @readAs_history
    (calls ++ ((s.grid outcome).rows atof).map HistoryCall.appendLine)
    (by rw [appended_rows]; exact plain)
  rw [appended_rows] at complete
  obtain ⟨dataset, made', shows'⟩ := @makeDataset_gridRows atof (s.grid outcome) rfl small
    csvPath _ s.transport labelled (selectRows_fresh labelled fresh)
  rw [(runSnapshot_runs full.runs made).1, rendered, Histories.get_set, if_pos rfl, full.rows_eq]
  exact ⟨dataset, ⟨read, _, loaded, complete, made'⟩, shows'⟩

/-- **A full run shows what its clients have printed.** Whatever the history of the
transport has plain rows of, and whichever runs have failed: with a label of its own the run
is rendered as its grid, every mean in the chart being the text that its client has printed,
with nothing of an earlier run; and the other transport is left as it was. The report is
written if the other history makes a data set too, and `argparse` takes what it is given. -/
theorem runSnapshot_shows (atof : String → Double) (s : Script) (files : Histories)
    (calls : List HistoryCall) (outcome : String → UInt64 → Option Measurement)
    (paths : Transport → String) (full : FullRun atof s outcome)
    (rendered : s.csvFile = s.transport.csv)
    (made : snapshotCsvEnsure (files.get s.csvFile) = history calls)
    (plain : ∀ row ∈ appended calls ++ (s.grid outcome).rows atof, PlainRow row)
    (labelled : s.ownLabel ≠ "") (fresh : ∀ row ∈ appended calls, row.label ≠ s.ownLabel)
    (small : (s.grid outcome).Small)
    (values : ∀ value ∈ [paths .udp, paths .tcp, s.gitSha, s.dateUtc, s.warmupText],
      value.toList.head? ≠ some '-')
    (label : s.ownLabel.toList.head? ≠ some '-') (warmup : ∃ n, pyInt s.warmupText = .ok n)
    (others : ∀ other ≠ s.transport,
      (latestRunLabel (files.get other.csv)).toList.head? ≠ some '-' ∧
        ∃ dataset, MakesDataset (paths other) (files.get other.csv)
          (latestRunLabel (files.get other.csv)) other dataset) :
    (∃ datasets, s.Renders paths (s.runSnapshot files).1 (s.runSnapshot files).2 datasets ∧
      ShowsGrid atof (s.grid outcome) (datasets s.transport)) ∧
    ∀ other ≠ s.transport, (s.runSnapshot files).1.get other.csv = files.get other.csv ∧
      (s.runSnapshot files).2 other = latestRunLabel (files.get other.csv) := by
  have apart := fun other => @runSnapshot_others _ _ _ _ _ _ other full.runs rendered made
  have ownLabel := full.renderLabel made
  obtain ⟨dataset, makes, shows'⟩ :=
    full.exists_dataset rendered made plain labelled fresh small (paths s.transport)
  have all : ∀ transport, ((s.runSnapshot files).2 transport).toList.head? ≠ some '-' ∧
      ∃ dataset, MakesDataset (paths transport) ((s.runSnapshot files).1.get transport.csv)
        ((s.runSnapshot files).2 transport) transport dataset ∧
          (transport = s.transport → ShowsGrid atof (s.grid outcome) dataset) := by
    intro transport
    by_cases same : transport = s.transport
    · subst same
      rw [ownLabel]
      exact ⟨label, dataset, makes, fun _ => shows'⟩
    · obtain ⟨dashless, other, makes'⟩ := others transport same
      obtain ⟨unchanged, label⟩ := apart transport same
      rw [unchanged, label]
      exact ⟨dashless, other, makes', fun own => absurd own same⟩
  choose dashless datasets make shown using all
  exact ⟨⟨datasets, ⟨values, dashless, warmup, make⟩, shown s.transport rfl⟩, apart⟩

/-- A row of an earlier run. -/
def earlierCalls : List HistoryCall :=
  [.appendLine (fullRun.cellRow (fun _ => 100) "sgmenon" 64)]

/-- The log of a run whose client has printed what it measured, or that has failed. -/
def loggedRun (stack : String) (size : UInt64) : Option Measurement → RunLog
  | some measured =>
    ⟨true, "== result ==\n" ++ (clientLine (fun _ => 100) stack size measured).text ++ "\n"⟩
  | none => ⟨false, "timed out\n"⟩

/-- Every run of sgmenon fails. -/
def covOutcome (stack : String) (_ : UInt64) : Option Measurement :=
  if stack = "covesa" then some ⟨[12, 13], 0⟩ else none

def ladderScript : Script where
  transport := .udp
  snapshotCsv := none
  renderOnly := false
  runLabel := ""
  stamp := "snapshot-20260102T000000Z"
  dateUtc := "2026-01-02 00:00 UTC"
  gitSha := "0000000"
  count := ""
  warmup := "50"
  sizesText := ""
  stacksText := ""
  run := fun n =>
    match (ladder.flatMap fun size => ["covesa", "sgmenon"].map fun stack => (stack, size))[n]? with
    | some run => loggedRun run.1 run.2 (covOutcome run.1 run.2)
    | none => ⟨false, ""⟩

/-- What a client prints of these latencies. -/
theorem plain_measures {stack : String} {size : UInt64} :
    ∀ text ∈ measures (clientLine (fun _ => 100) stack size ⟨[12, 13], 0⟩), Plain text.toList := by
  have texts : ∀ text ∈ [printDouble 1 100, Nat.repr 2, printDouble 3 (meanUs [12, 13]),
      printDouble 3 (percentileUs [12, 13] (1 / 2)),
      printDouble 3 (percentileUs [12, 13] (99 / 100)), Nat.repr 0], Plain text.toList := by
    decide +kernel
  exact texts

/-- The rows of these latencies, and of failures, with texts as plain as those of this
script. -/
theorem plainRow_measured {args : SnapshotArgs} {stack : String} {size : UInt64}
    {measured : Option Measurement}
    (given : ∀ text ∈ [args.recorded, args.sha, args.label, args.warmup, stack], Plain text.toList)
    (uncounted : args.count = none) (known : ∀ m ∈ measured, m = ⟨[12, 13], 0⟩) :
    PlainRow (args.row (fun _ => 100) stack size measured) := by
  refine plainRow_row given ?_ ?_
  · rw [uncounted]
    exact fun text member => nomatch member
  · intro m member
    rw [known m member]
    exact plain_measures

theorem leaves_loggedRun {stack : String} {size : UInt64} {measured : Option Measurement}
    (one : stack ∈ ["covesa", "sgmenon"]) :
    (loggedRun stack size measured).Leaves (fun _ => 100) stack size measured := by
  cases measured with
  | none => exact .inl rfl
  | some m =>
      have log : (loggedRun stack size (some m)).log.toList = joinedText
          [["== result ==".toList], [(clientLine (fun _ => 100) stack size m).text.toList]] := by
        simp [loggedRun, joinedText, joined, String.toList_append]
      refine ⟨rfl, ["== result ==".toList], [], ?_, by simp⟩
      rw [log, linesOf_joinedText]
      · simp only [List.map_cons, List.map_nil, List.intercalate_singleton, List.singleton_append]
      · intro row inRows
        simp only [List.mem_cons, List.not_mem_nil, or_false] at inRows one
        rcases inRows with rfl | rfl
        · decide
        · rw [List.intercalate_singleton]
          refine notMem_text (by decide) (by decide) (show '\n' ∉ stack.toList from ?_) _ _
          rcases one with rfl | rfl <;> decide

theorem fullRun_ladderScript : FullRun (fun _ => 100) ladderScript covOutcome where
  renderOnly := rfl
  sizesText := rfl
  stacksText := rfl
  leaves run member := by
    have there := List.mk_mem_zipIdx_iff_getElem?.mp member
    rw [stackList_of_unset rfl] at there
    have ran : ladderScript.run run.2 =
        loggedRun run.1.1 run.1.2 (covOutcome run.1.1 run.1.2) := by
      unfold ladderScript
      dsimp only
      rw [there]
    rw [ran]
    have one := (Script.mem_stackList_of_runsOf member).1
    rw [stackList_of_unset rfl] at one
    exact leaves_loggedRun one

theorem plain_earlierCalls : ∀ row ∈ appended earlierCalls, PlainRow row := by
  intro row member
  cases List.mem_singleton.mp member
  exact plainRow_measured (by decide) rfl fun m there => (Option.some.inj there).symm

theorem plain_ladderScript : ∀ row ∈ appended earlierCalls ++
    (ladderScript.grid covOutcome).rows (fun _ => 100), PlainRow row := by
  intro row member
  rcases List.mem_append.mp member with old | own
  · exact plain_earlierCalls row old
  · obtain ⟨size, -, inRow⟩ := List.mem_flatMap.mp own
    obtain ⟨stack, one, rfl⟩ := List.mem_map.mp inRow
    simp only [List.mem_cons, List.not_mem_nil, or_false] at one
    rcases one with rfl | rfl
    · exact plainRow_measured (by decide) rfl fun m there => (Option.some.inj there).symm
    · exact plainRow_measured (by decide) rfl fun m there => nomatch there

theorem runSnapshot_shows_ladder :
    (∃ datasets, ladderScript.Renders (fun transport => transport.text)
        (ladderScript.runSnapshot ⟨history earlierCalls, "", ""⟩).1
        (ladderScript.runSnapshot ⟨history earlierCalls, "", ""⟩).2 datasets ∧
      ShowsGrid (fun _ => 100) (ladderScript.grid covOutcome) (datasets .udp)) ∧
    ∀ other ≠ Transport.udp,
      (ladderScript.runSnapshot ⟨history earlierCalls, "", ""⟩).1.get other.csv =
        Histories.get ⟨history earlierCalls, "", ""⟩ other.csv ∧
      (ladderScript.runSnapshot ⟨history earlierCalls, "", ""⟩).2 other =
        latestRunLabel (Histories.get ⟨history earlierCalls, "", ""⟩ other.csv) := by
  refine runSnapshot_shows (fun _ => 100) ladderScript ⟨history earlierCalls, "", ""⟩ earlierCalls
    covOutcome _ fullRun_ladderScript rfl (if_neg (history_ne_empty _)) plain_ladderScript
    (by decide) ?_ ?_ (by decide) (by decide) ⟨50, by decide +kernel⟩ ?_
  · decide +kernel
  · intro stack _ size _ measured there
    have mean : Rat.nnabs (meanUs [12, 13]) ≤ (2 ^ 42 : Nat) := by decide +kernel
    unfold Script.grid covOutcome at there
    dsimp only at there
    split at there
    · cases there
      exact mean
    · cases there
  · intro other different
    cases other with
    | udp => exact absurd rfl different
    | tcp =>
        refine ⟨by decide, ?_⟩
        exact ⟨_, [], [], by decide +kernel, .nil, by rfl⟩

/-- The label of the last row is that of the script. -/
theorem latestRunLabel_runs {outcome : Nat → Option Measurement}
    (some' : s.rows atof sizes outcome ≠ [])
    (plain : ∀ row ∈ appended calls ++ s.rows atof sizes outcome, PlainRow row) :
    latestRunLabel (history (calls ++ (s.rows atof sizes outcome).map HistoryCall.appendLine)) =
      s.ownLabel := by
  obtain ⟨row, last⟩ := Option.ne_none_iff_exists'.mp
    (mt List.getLast?_eq_none_iff.mp some')
  obtain ⟨run, -, rfl⟩ := List.mem_map.mp (List.mem_of_getLast? last)
  refine @latestRunLabel_history _ (s.args.row atof run.1.1 run.1.2 (outcome run.2)) ?_ ?_
  · rw [appended_rows]
    exact plain
  · rw [appended_rows, List.getLast?_append, last]
    rfl

/-- A script that only renders takes the label from the history. -/
theorem runSnapshot_render {s' : Script} (rendered : s'.csvFile = s'.transport.csv)
    (again : s'.renderOnly = true ∧ s'.runLabel = "" ∧ s'.sizesText = "")
    (labelled : latestRunLabel (files.get s'.transport.csv) ≠ "") :
    s'.runSnapshot files = (files, fun transport => latestRunLabel (files.get transport.csv)) := by
  have there : files.get s'.transport.csv ≠ "" := by
    intro empty
    rw [empty] at labelled
    exact labelled rfl
  have label : s'.label (files.get s'.transport.csv) =
      latestRunLabel (files.get s'.transport.csv) := by
    have shown : (if s'.runLabel = "" ∧ s'.renderOnly ∧ files.get s'.transport.csv ≠ "" then
        latestRunLabel (files.get s'.transport.csv) else s'.runLabel) =
          latestRunLabel (files.get s'.transport.csv) := if_pos ⟨again.2.1, again.1, there⟩
    unfold Script.label
    dsimp only
    rw [shown, orDefault_of_ne labelled]
  unfold Script.runSnapshot
  dsimp only
  rw [rendered, label, again.1, if_pos rfl]
  congr 1
  funext transport
  unfold Script.renderLabel
  split
  · rename_i own
    rw [if_pos again.2.2, own]
  · rfl

/-- **Rendering a full run again shows the same.** Whichever transport it is asked for,
as long as that has been run before, a script that only renders uses both histories
and both labels as the run has left them. -/
theorem runSnapshot_again (atof : String → Double) (s s' : Script) (files : Histories)
    (calls : List HistoryCall) (outcome : String → UInt64 → Option Measurement)
    (full : FullRun atof s outcome)
    (rendered : s.csvFile = s.transport.csv ∧ s'.csvFile = s'.transport.csv)
    (made : snapshotCsvEnsure (files.get s.csvFile) = history calls)
    (plain : ∀ row ∈ appended calls ++ (s.grid outcome).rows atof, PlainRow row)
    (labelled : s.ownLabel ≠ "")
    (again : s'.renderOnly = true ∧ s'.runLabel = "" ∧ s'.sizesText = "")
    (before : s'.transport ≠ s.transport → latestRunLabel (files.get s'.transport.csv) ≠ "") :
    s'.runSnapshot (s.runSnapshot files).1 = s.runSnapshot files := by
  have some' : s.rows atof ladder (s.outcomes outcome) ≠ [] := by
    rw [full.rows_eq]
    exact List.cons_ne_nil _ _
  have own : latestRunLabel ((s.runSnapshot files).1.get s.transport.csv) = s.ownLabel := by
    rw [(runSnapshot_runs full.runs made).1, rendered.1, Histories.get_set, if_pos rfl]
    exact latestRunLabel_runs some' (by rw [full.rows_eq]; exact plain)
  have shown : latestRunLabel ((s.runSnapshot files).1.get s'.transport.csv) ≠ "" := by
    by_cases same : s'.transport = s.transport
    · rw [same, own]
      exact labelled
    · rw [(runSnapshot_others full.runs rendered.1 made same).1]
      exact before same
  rw [runSnapshot_render rendered.2 again shown]
  refine Prod.ext rfl (funext fun transport => ?_)
  by_cases same : transport = s.transport
  · rw [same, full.renderLabel made]
    exact own
  · obtain ⟨unchanged, label⟩ := runSnapshot_others full.runs rendered.1 made same
    rw [label]
    exact congrArg latestRunLabel unchanged

/-- The script that renders that run again. -/
def renderScript : Script := { ladderScript with renderOnly := true }

theorem runSnapshot_again_ladder :
    renderScript.runSnapshot (ladderScript.runSnapshot ⟨history earlierCalls, "", ""⟩).1 =
      ladderScript.runSnapshot ⟨history earlierCalls, "", ""⟩ :=
  runSnapshot_again (fun _ => 100) ladderScript renderScript ⟨history earlierCalls, "", ""⟩
    earlierCalls covOutcome fullRun_ladderScript ⟨rfl, rfl⟩ (if_neg (history_ne_empty _))
    plain_ladderScript (by decide) ⟨rfl, rfl, rfl⟩ (absurd rfl)

end Shown

end MiddlewareBench.Snapshot
