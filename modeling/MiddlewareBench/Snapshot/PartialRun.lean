import MiddlewareBench.Snapshot.FullRun

/-!
# What a run of some sizes shows

A run of some sizes under an older label replaces nothing that it has not measured
(`runSnapshot_partial`), and over any number of runs the histories hold the rows of all of
them (`snapshots_read`).
-/

namespace MiddlewareBench.Snapshot

open CsvText Dict Fallible ShellText StableSort Vsomeip

section Partial

variable {atof : String → Double} {s : Script} {files : Histories} {calls : List HistoryCall}
  {sizes : List UInt64} {outcome : Nat → Option Measurement}

theorem mem_rows {row : HistoryRow} : row ∈ s.rows atof sizes outcome ↔
    ∃ run ∈ s.runsOf sizes, row = s.args.row atof run.1.1 run.1.2 (outcome run.2) := by
  unfold Script.rows
  simp only [List.mem_map, eq_comm (a := row)]

theorem configKey_rowOf (row : HistoryRow) :
    configKey (rowOf row) = (row.bench.stack, row.bench.size, row.bench.rateHz) := by
  unfold configKey
  rw [get_of_get? (columns_rowOf row).stack, get_of_get? (columns_rowOf row).size,
    get_of_get? (columns_rowOf row).rateHz]

theorem recordedUtc_rowOf (row : HistoryRow) : recordedUtc (rowOf row) = row.recorded :=
  get_of_get? (get?_rowOf (by simp [historyColumns, HistoryRow.fields])) ""

theorem sortable_row {args : SnapshotArgs} {stack : String} {size : UInt64}
    {measured : Option Measurement} : Sortable (rowOf (args.row atof stack size measured)) := by
  have sized : sizeOf (rowOf (args.row atof stack size measured)) = .ok (size.toNat : Int) :=
    sizeOf_rowOf
  obtain ⟨text, item, read⟩ := bind_eq_ok.mp sized
  refine ⟨if text = "" then 0 else (size.toNat : Int), ?_⟩
  unfold sortSize
  rw [get_of_get? (Row.item_eq_ok.mp item)]
  dsimp only
  split
  · rfl
  · exact read

/-- All rows of the file can be sorted, those of the script anyway. -/
theorem sortable_rows (sortable : ∀ row ∈ appended calls, Sortable (rowOf row)) :
    ∀ r ∈ (appended calls).map rowOf ++ (s.rows atof sizes outcome).map rowOf, Sortable r := by
  intro r member
  rcases List.mem_append.mp member with old | new
  · exact List.forall_mem_map.mpr sortable r old
  · obtain ⟨row, inRows, rfl⟩ := List.mem_map.mp new
    obtain ⟨run, -, rfl⟩ := mem_rows.mp inRows
    exact sortable_row

/-- They have its date. -/
theorem recordedUtc_rows :
    ∀ r ∈ (s.rows atof sizes outcome).map rowOf, recordedUtc r = s.dateUtc := by
  intro r member
  obtain ⟨row, inRows, rfl⟩ := List.mem_map.mp member
  obtain ⟨run, -, rfl⟩ := mem_rows.mp inRows
  exact recordedUtc_rowOf _

/-- A row that a client has printed shares its configuration with no failure. -/
theorem configKey_ne_of_failed {r : Row} (printed : '.' ∈ (r.get "rate_hz" "").toList)
    (failed : ∀ run ∈ s.runsOf sizes, r.get "stack" "" = run.1.1 →
      r.get "size" "" = sizeText run.1.2 → outcome run.2 = none) :
    ∀ r' ∈ (s.rows atof sizes outcome).map rowOf, configKey r' ≠ configKey r := by
  intro r' inNew same
  obtain ⟨row, inRows, rfl⟩ := List.mem_map.mp inNew
  obtain ⟨run, inRuns, rfl⟩ := mem_rows.mp inRows
  rw [configKey_rowOf, stack_row, size_row, rateHz_row] at same
  unfold configKey at same
  rw [Prod.mk.injEq, Prod.mk.injEq] at same
  have none' := failed run inRuns same.1.symm same.2.1.symm
  have rate := same.2.2
  rw [none', if_neg (by decide)] at rate
  rw [← rate] at printed
  exact point_notMem_vsomeipRateForSize _ printed

/-- The rows that are selected by their dates. -/
theorem mem_selectRows {rows selected : List Row} {r : Row} (sortable : ∀ r ∈ rows, Sortable r)
    (made : selectRows rows "" = .ok selected) :
    r ∈ selected ↔ (newestOf rows).get? (configKey r) = some r := by
  unfold selectRows at made
  rw [if_neg (not_not_intro rfl), latestPerConfig_eq sortable, Except.ok.injEq] at made
  rw [← made, mem_sortBy]
  refine ⟨mem_values_newestOf, fun kept => ?_⟩
  exact List.mem_map.mpr ⟨_, get?_eq_some.mp kept, rfl⟩

/-- Rows that are no earlier than those before them replace the rows of their
configurations, the last of each. -/
theorem mem_selectRows_append {old new before shown : List Row}
    (sortable : ∀ r ∈ old ++ new, Sortable r) (selected : selectRows old "" = .ok before)
    (selected' : selectRows (old ++ new) "" = .ok shown)
    (dated : new.Pairwise fun r r' => recordedUtc r ≤ recordedUtc r')
    (later : ∀ r ∈ old, ∀ r' ∈ new, recordedUtc r ≤ recordedUtc r') (r : Row) :
    r ∈ shown ↔ (new.filter fun r' => configKey r' = configKey r).getLast? = some r ∨
      r ∈ before ∧ ∀ r' ∈ new, configKey r' ≠ configKey r := by
  have kept : (newestOf (old ++ new)).get? (configKey r) =
      (new.filter fun r' => configKey r' = configKey r).getLast?.or
        ((newestOf old).get? (configKey r)) := get?_foldBy_newer dated later
  rw [mem_selectRows sortable selected',
    mem_selectRows (fun r member => sortable r (List.mem_append_left _ member)) selected, kept]
  cases last : (new.filter fun r' => configKey r' = configKey r).getLast? with
  | none =>
      have others : ∀ r' ∈ new, configKey r' ≠ configKey r := fun r' member same =>
        List.filter_eq_nil_iff.mp (List.getLast?_eq_none_iff.mp last) r' member
          (decide_eq_true same)
      rw [Option.none_or]
      refine ⟨fun own => .inr ⟨own, others⟩, ?_⟩
      intro found
      rcases found with inNew | old
      · cases inNew
      · exact old.1
  | some r' =>
      obtain ⟨inNew, same⟩ := List.mem_filter.mp (List.mem_of_getLast? last)
      rw [decide_eq_true_eq] at same
      rw [Option.some_or]
      refine ⟨.inl, ?_⟩
      intro found
      rcases found with own | old
      · exact own
      · exact absurd same (old.2 r' inNew)

/-- **A run of some sizes replaces what it has measured.** With a date no earlier than
any in the history, the transport is rendered without a label, and the rows that are
selected are the last of the run in each configuration and, of the rows selected before it,
those of which the run has no configuration; so what a client has printed stays where its
stack has failed since. -/
theorem runSnapshot_partial (atof : String → Double) (s : Script) (files : Histories)
    (calls : List HistoryCall) (sizes : List UInt64) (outcome : Nat → Option Measurement)
    (runs : s.Runs atof sizes outcome) (rendered : s.csvFile = s.transport.csv)
    (given : s.sizesText ≠ "")
    (made : snapshotCsvEnsure (files.get s.csvFile) = history calls)
    (plain : ∀ row ∈ appended calls ++ s.rows atof sizes outcome, PlainRow row)
    (sortable : ∀ row ∈ appended calls, Sortable (rowOf row))
    (later : ∀ row ∈ appended calls, row.recorded ≤ s.dateUtc) :
    (s.runSnapshot files).2 s.transport = "" ∧
    ∃ read allRows shown before,
      loadRows ((s.runSnapshot files).1.get s.transport.csv) = .ok read ∧
      List.Forall₂ ReadAs read allRows ∧ selectRows allRows "" = .ok shown ∧
      selectRows ((appended calls).map rowOf) "" = .ok before ∧
      (∀ r, r ∈ shown ↔
        (((s.rows atof sizes outcome).map rowOf).filter fun r' =>
          configKey r' = configKey r).getLast? = some r ∨
        r ∈ before ∧ ∀ r' ∈ (s.rows atof sizes outcome).map rowOf, configKey r' ≠ configKey r) ∧
      ∀ r ∈ before, '.' ∈ (r.get "rate_hz" "").toList →
        (∀ run ∈ s.runsOf sizes, r.get "stack" "" = run.1.1 →
          r.get "size" "" = sizeText run.1.2 → outcome run.2 = none) → r ∈ shown := by
  obtain ⟨after, labels⟩ := runSnapshot_runs runs made
  obtain ⟨read, loaded, complete⟩ := @readAs_history
    (calls ++ (s.rows atof sizes outcome).map HistoryCall.appendLine)
    (by rw [appended_rows]; exact plain)
  rw [appended_rows, List.map_append] at complete
  have allSortable := @sortable_rows atof s calls sizes outcome sortable
  have dated := @recordedUtc_rows atof s sizes outcome
  obtain ⟨before, selected, -⟩ := @exists_selectRows _ "" fun _ =>
    List.forall_mem_map.mpr sortable
  obtain ⟨shown, selected', -⟩ := @exists_selectRows _ "" fun _ => allSortable
  have exchange := fun r => mem_selectRows_append allSortable selected selected'
    (List.pairwise_of_forall_mem_list fun r member r' member' => by
      rw [dated r member, dated r' member'])
    (fun r member r' member' => by
      obtain ⟨row, inOld, rfl⟩ := List.mem_map.mp member
      rw [dated r' member', recordedUtc_rowOf]
      exact later row inOld) r
  refine ⟨?_, read, _, shown, before, ?_, complete, selected', selected, exchange, ?_⟩
  · rw [labels]
    unfold Script.renderLabel
    rw [if_pos rfl, if_neg given]
  · rw [after, rendered, Histories.get_set, if_pos rfl]
    exact loaded
  · intro r inBefore printed failed
    exact (exchange r).mpr (.inr ⟨inBefore, configKey_ne_of_failed printed failed⟩)

/-- A script that runs one size twice after that; the first run of covesa fails. -/
def sizesScript : Script :=
  { ladderScript with
    sizesText := "64 64"
    run := fun n =>
      if n = 2 then loggedRun "covesa" 64 (some ⟨[12, 13], 0⟩) else ⟨false, "timed out\n"⟩ }

def sizesOutcome (n : Nat) : Option Measurement :=
  if n = 2 then some ⟨[12, 13], 0⟩ else none

theorem runsOf_sizesScript : sizesScript.runsOf [64, 64] =
    [(("covesa", 64), 0), (("sgmenon", 64), 1), (("covesa", 64), 2), (("sgmenon", 64), 3)] := by
  unfold Script.runsOf
  rw [stackList_of_unset rfl]
  rfl

theorem runs_sizesScript : sizesScript.Runs (fun _ => 100) [64, 64] sizesOutcome where
  renderOnly := rfl
  frameSizes := by decide +kernel
  stackList := by
    rw [stackList_of_unset rfl]
    exact fun stack => id
  leaves := by
    rw [runsOf_sizesScript]
    simp only [List.forall_mem_cons]
    exact ⟨.inl rfl, .inl rfl, @leaves_loggedRun "covesa" 64 (some _) (by decide), .inl rfl,
      by simp⟩

/-- The rows of such a script, whatever its label is. -/
theorem plain_sizesScript {label : String} (given : Plain label.toList) :
    ∀ row ∈ Script.rows (fun _ => 100) { sizesScript with runLabel := label } [64, 64]
      sizesOutcome, PlainRow row := by
  have labelled : Plain (orDefault label ladderScript.stamp).toList := by
    unfold orDefault
    split
    · decide
    · exact given
  intro row member
  obtain ⟨run, inRuns, rfl⟩ := mem_rows.mp member
  have one : run.1.1 ∈ ["covesa", "sgmenon"] := by
    rw [← stackList_of_unset (s := { sizesScript with runLabel := label }) rfl]
    exact (Script.mem_stackList_of_runsOf inRuns).1
  have named : Plain run.1.1.toList := by
    simp only [List.mem_cons, List.not_mem_nil, or_false] at one
    rcases one with covesa | sgmenon
    · rw [covesa]
      decide
    · rw [sgmenon]
      decide
  have dated : Plain ladderScript.dateUtc.toList := by decide
  have built : Plain ladderScript.gitSha.toList := by decide
  have warm : Plain ladderScript.warmupText.toList := by decide
  refine plainRow_measured ?_ rfl ?_
  · simp only [List.forall_mem_cons]
    exact ⟨dated, built, labelled, warm, named, by simp⟩
  · intro m there
    unfold sizesOutcome at there
    split at there
    · exact (Option.some.inj there).symm
    · cases there

theorem runSnapshot_partial_two :
    (sizesScript.runSnapshot ⟨history earlierCalls, "", ""⟩).2 .udp = "" ∧
    ∃ read allRows shown before,
      loadRows ((sizesScript.runSnapshot ⟨history earlierCalls, "", ""⟩).1.get .udp) = .ok read ∧
      List.Forall₂ ReadAs read allRows ∧ selectRows allRows "" = .ok shown ∧
      selectRows ((appended earlierCalls).map rowOf) "" = .ok before ∧
      (∀ r, r ∈ shown ↔
        (((sizesScript.rows (fun _ => 100) [64, 64] sizesOutcome).map rowOf).filter fun r' =>
          configKey r' = configKey r).getLast? = some r ∨
        r ∈ before ∧ ∀ r' ∈ (sizesScript.rows (fun _ => 100) [64, 64] sizesOutcome).map rowOf,
          configKey r' ≠ configKey r) ∧
      ∀ r ∈ before, '.' ∈ (r.get "rate_hz" "").toList →
        (∀ run ∈ sizesScript.runsOf [64, 64], r.get "stack" "" = run.1.1 →
          r.get "size" "" = sizeText run.1.2 → sizesOutcome run.2 = none) → r ∈ shown := by
  refine runSnapshot_partial (fun _ => 100) sizesScript ⟨history earlierCalls, "", ""⟩
    earlierCalls [64, 64] sizesOutcome runs_sizesScript rfl (by decide)
    (if_neg (history_ne_empty _)) ?_ ?_ ?_
  · intro row member
    rcases List.mem_append.mp member with old | own
    · exact plain_earlierCalls row old
    · exact @plain_sizesScript "" (by decide) row own
  · intro row member
    cases List.mem_singleton.mp member
    exact sortable_row
  · decide +kernel

end Partial

/-! ## Over any number of runs -/

/-- The script, with what it has run. -/
structure Invocation where
  script : Script
  sizes : List UInt64
  outcome : Nat → Option Measurement

namespace Invocation

/-- A script that only renders, or one with these runs. -/
def Good (atof : String → Double) (one : Invocation) : Prop :=
  one.script.renderOnly = true ∨ one.script.Runs atof one.sizes one.outcome

/-- One that runs, and appends to this file. -/
def AppendsTo (one : Invocation) (file : CsvFile) : Prop :=
  one.script.renderOnly = false ∧ one.script.csvFile = file

instance (one : Invocation) (file : CsvFile) : Decidable (one.AppendsTo file) :=
  inferInstanceAs (Decidable (_ ∧ _))

/-- The rows that it appends to a file. -/
def rows (atof : String → Double) (file : CsvFile) (one : Invocation) : List HistoryRow :=
  if one.AppendsTo file then one.script.rows atof one.sizes one.outcome else []

end Invocation

/-- The files after some invocations, of which the first finds none. -/
def snapshots (invocations : List Invocation) : Histories :=
  invocations.foldl (fun files one => (one.script.runSnapshot files).1) ⟨"", "", ""⟩

section Invocations

variable {atof : String → Double} {invocations : List Invocation} {file : CsvFile}

/-- A file has the rows that were appended to it, in order. -/
theorem snapshots_eq (good : ∀ one ∈ invocations, one.Good atof) :
    snapshotCsvEnsure ((snapshots invocations).get file) = history
      ((invocations.flatMap (Invocation.rows atof file)).map HistoryCall.appendLine) := by
  induction invocations using List.reverseRecOn generalizing file with
  | nil => cases file <;> rfl
  | append_singleton invocations one ih =>
      have before := fun file => @ih file fun one' member =>
        good one' (List.mem_append_left _ member)
      have step : snapshots (invocations ++ [one]) =
          (one.script.runSnapshot (snapshots invocations)).1 := by
        unfold snapshots
        rw [List.foldl_append]
        rfl
      rw [step, List.flatMap_append, List.flatMap_singleton, List.map_append]
      rcases good one (by simp) with renders | runs
      · have unchanged : (one.script.runSnapshot (snapshots invocations)).1 =
            snapshots invocations := if_pos renders
        have nothing : one.rows atof file = [] :=
          if_neg fun runs => Bool.false_ne_true (runs.1.symm.trans renders)
        rw [unchanged, nothing, List.map_nil, List.append_nil]
        exact before file
      · rw [(runSnapshot_runs runs (before one.script.csvFile)).1, Histories.get_set]
        unfold Invocation.rows
        split
        · rename_i own
          subst own
          rw [if_pos ⟨runs.renderOnly, rfl⟩]
          exact if_neg (history_ne_empty _)
        · rename_i other
          rw [if_neg fun own => other own.2.symm, List.map_nil, List.append_nil]
          exact before file

/-- A history that has just been made has no rows, and neither has a missing one. -/
theorem loadRows_ensure (file : String) : loadRows (snapshotCsvEnsure file) = loadRows file := by
  by_cases empty : file = ""
  · subst empty
    decide +kernel
  · exact congrArg loadRows (if_neg empty)

theorem label_of_mem_invocation {one : Invocation} {row : HistoryRow}
    (member : row ∈ one.rows atof file) :
    one.AppendsTo file ∧ row.label = one.script.ownLabel := by
  unfold Invocation.rows at member
  split at member
  · rename_i appends
    obtain ⟨run, -, rfl⟩ := mem_rows.mp member
    exact ⟨appends, rfl⟩
  · cases member

/-- The rows of some invocations under a label that is not theirs. -/
theorem filter_label_eq_nil {label : String}
    (others : ∀ one ∈ invocations, one.AppendsTo file → one.script.ownLabel ≠ label) :
    (invocations.flatMap (Invocation.rows atof file)).filter
      (fun row => decide (row.label = label)) = [] := by
  rw [List.filter_eq_nil_iff]
  intro row member
  obtain ⟨one, inInvocations, own⟩ := List.mem_flatMap.mp member
  obtain ⟨appends, same⟩ := label_of_mem_invocation own
  rw [decide_eq_true_eq, same]
  exact others one inInvocations appends

/-- **No run is lost.** After any number of invocations on both transports and any other
file, each file is read as the rows of its runs, in their order, as long as all of these are
plain; and a run whose label no other run of the file has is selected by it, whatever was run
before and after. -/
theorem snapshots_read (atof : String → Double) (invocations : List Invocation)
    (file : CsvFile) (good : ∀ one ∈ invocations, one.Good atof)
    (plain : ∀ row ∈ invocations.flatMap (Invocation.rows atof file), PlainRow row) :
    ∃ read allRows, loadRows ((snapshots invocations).get file) = .ok read ∧
      List.Forall₂ ReadAs read allRows ∧
      allRows = (invocations.flatMap (Invocation.rows atof file)).map rowOf ∧
      ∀ before one after, invocations = before ++ one :: after → one.script.ownLabel ≠ "" →
        (∀ other ∈ before ++ after, other.AppendsTo file →
          other.script.ownLabel ≠ one.script.ownLabel) →
        selectRows allRows one.script.ownLabel = .ok ((one.rows atof file).map rowOf) := by
  have rows : appended ((invocations.flatMap (Invocation.rows atof file)).map
      HistoryCall.appendLine) = invocations.flatMap (Invocation.rows atof file) :=
    @appended_rows [] _
  obtain ⟨read, loaded, complete⟩ := @readAs_history ((invocations.flatMap
    (Invocation.rows atof file)).map HistoryCall.appendLine) (by rw [rows]; exact plain)
  rw [rows] at complete
  rw [← snapshots_eq good, loadRows_ensure] at loaded
  refine ⟨read, _, loaded, complete, rfl, ?_⟩
  rintro before one after rfl labelled others
  have own : (one.rows atof file).filter
      (fun row => decide (row.label = one.script.ownLabel)) = one.rows atof file :=
    List.filter_eq_self.mpr fun row member =>
      decide_eq_true (label_of_mem_invocation member).2
  unfold selectRows filterRunLabel
  rw [if_pos labelled, if_neg labelled, filter_label_rowOf, List.flatMap_append,
    List.flatMap_cons, List.filter_append, List.filter_append, own,
    filter_label_eq_nil fun other member => others other (List.mem_append_left _ member),
    filter_label_eq_nil fun other member => others other (List.mem_append_right _ member),
    List.nil_append, List.append_nil]

/-- The ladder, one size of it twice, and a script that only renders. -/
def twoInvocations : List Invocation :=
  [⟨ladderScript, ladder, ladderScript.outcomes covOutcome⟩,
    ⟨{ sizesScript with runLabel := "again" }, [64, 64], sizesOutcome⟩,
    ⟨{ renderScript with runLabel := "again" }, [], fun _ => none⟩]

theorem snapshots_read_two :
    ∃ read allRows, loadRows ((snapshots twoInvocations).get .udp) = .ok read ∧
      List.Forall₂ ReadAs read allRows ∧
      allRows = (twoInvocations.flatMap (Invocation.rows (fun _ => 100) .udp)).map rowOf ∧
      ∀ before one after, twoInvocations = before ++ one :: after → one.script.ownLabel ≠ "" →
        (∀ other ∈ before ++ after, other.AppendsTo .udp →
          other.script.ownLabel ≠ one.script.ownLabel) →
        selectRows allRows one.script.ownLabel =
          .ok ((one.rows (fun _ => 100) .udp).map rowOf) := by
  refine snapshots_read (fun _ => 100) twoInvocations .udp ?_ ?_
  · intro one member
    simp only [twoInvocations, List.mem_cons, List.not_mem_nil, or_false] at member
    rcases member with rfl | rfl | rfl
    · exact .inr fullRun_ladderScript.runs
    · exact .inr ⟨rfl, runs_sizesScript.frameSizes, runs_sizesScript.stackList,
        runs_sizesScript.leaves⟩
    · exact .inl rfl
  · intro row member
    simp only [twoInvocations, List.flatMap_cons, List.flatMap_nil, List.append_nil] at member
    rcases List.mem_append.mp member with first | later
    · apply plain_ladderScript row
      rw [← fullRun_ladderScript.rows_eq]
      exact List.mem_append_right _ first
    · rcases List.mem_append.mp later with second | renders
      · exact plain_sizesScript (by decide) row second
      · cases renders

end Invocations

end MiddlewareBench.Snapshot
