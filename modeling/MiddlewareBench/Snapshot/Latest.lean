import MiddlewareBench.Snapshot.Render

/-!
# The newest row of each configuration

What `latestPerConfig` keeps of a history, in which order, and that a summary can
stand for the rows it was made from.
-/

namespace MiddlewareBench.Snapshot

open Dict Fallible PyNumbers StableSort

/-- When a row was recorded. -/
def recordedUtc (r : Row) : String := r.get "recorded_utc" ""

/-- A row whose size can be sorted by: an integer, or empty. -/
def Sortable (r : Row) : Prop := ∃ size, sortSize r = .ok size

/-- The stack and the size of a configuration; a size that is none counts as `0`. -/
def classOf (key : String × String × String) : String ×ₗ Int :=
  toLex (key.1, if key.2.1 = "" then 0 else (pyInt key.2.1).toOption.getD 0)

theorem keepNewest_eq (best : Dict (String × String × String) Row) (r : Row) :
    keepNewest best r =
      best.set (configKey r) (newer recordedUtc (best.get? (configKey r)) r) := by
  unfold keepNewest newer
  cases there : best.get? (configKey r) with
  | none => rfl
  | some prev =>
      dsimp only
      split
      · rename_i later
        rw [if_pos (show recordedUtc prev ≤ recordedUtc r from later)]
      · rename_i earlier
        rw [if_neg (show ¬ recordedUtc prev ≤ recordedUtc r from earlier), set_eq_self there]

/-- The dictionary `best` of the source. -/
def newestOf (rows : List Row) : Dict (String × String × String) Row :=
  foldBy configKey (newer recordedUtc) .empty rows

theorem foldl_keepNewest (rows : List Row) : rows.foldl keepNewest .empty = newestOf rows := by
  have steps : keepNewest = fun best r =>
      best.set (configKey r) (newer recordedUtc (best.get? (configKey r)) r) :=
    funext fun best => funext fun r => keepNewest_eq best r
  rw [steps]
  rfl

/-! ## What is kept -/

theorem mem_values_newestOf {rows : List Row} {r : Row} (member : r ∈ (newestOf rows).values) :
    (newestOf rows).get? (configKey r) = some r := by
  obtain ⟨e, inside, rfl⟩ := List.mem_map.mp member
  rw [get?_eq_some, filed_foldBy selects_newer e inside]
  exact inside

/-- What is kept for a key is the last of its newest rows. -/
theorem newestOf_last {rows : List Row} {r : Row} (member : r ∈ (newestOf rows).values) :
    ∃ before after, rows = before ++ r :: after ∧
      (∀ r' ∈ before, configKey r' = configKey r → recordedUtc r' ≤ recordedUtc r) ∧
      ∀ r' ∈ after, configKey r' = configKey r → recordedUtc r' < recordedUtc r := by
  have kept := mem_values_newestOf member
  unfold newestOf at kept
  rw [get?_foldBy] at kept
  obtain ⟨before, after, split, earlier, later⟩ := foldl_newer kept
  obtain ⟨front, rest, rfl, rfl, inRest⟩ := List.filter_eq_append_iff.mp split
  obtain ⟨skipped, back, rfl, others, own, rfl⟩ := List.filter_eq_cons_iff.mp inRest
  refine ⟨front ++ skipped, back, by simp, ?_, ?_⟩
  · intro r' inFront same
    rcases List.mem_append.mp inFront with first | second
    · exact earlier r' (List.mem_filter.mpr ⟨first, by simpa using same⟩)
    · exact absurd (by simpa using same) (others r' second)
  · intro r' inBack same
    exact later r' (List.mem_filter.mpr ⟨inBack, by simpa using same⟩)

theorem values_newestOf_subset {rows : List Row} {r : Row}
    (member : r ∈ (newestOf rows).values) : r ∈ rows := by
  obtain ⟨before, after, rfl, -, -⟩ := newestOf_last member
  exact List.mem_append_right _ List.mem_cons_self

theorem map_configKey_values (rows : List Row) :
    (newestOf rows).values.map configKey = (newestOf rows).keys := by
  unfold values keys
  rw [List.map_map]
  exact List.map_congr_left fun e member => filed_foldBy selects_newer e member

/-! ## In which order -/

/-- A row without a size is sorted as one whose size is empty. -/
theorem sortSize_eq (r : Row) : sortSize r =
    if r.get "size" "" = "" then .ok 0 else pyInt (r.get "size" "") := by
  unfold sortSize Row.get
  cases r.get? "size" with
  | none => rfl
  | some text => rfl

theorem sortKey_eq {r : Row} (sortable : Sortable r) :
    sortKey r = .ok (classOf (configKey r)) := by
  rcases sortable with ⟨size, read⟩
  have same : (if r.get "size" "" = "" then 0
      else (pyInt (r.get "size" "")).toOption.getD 0) = size := by
    rw [sortSize_eq] at read
    split at read
    · rename_i empty
      rw [if_pos empty]
      exact Except.ok.inj read
    · rename_i nonempty
      rw [if_neg nonempty, read]
      rfl
  unfold sortKey
  rw [read]
  unfold classOf configKey
  dsimp only
  rw [same]
  rfl

theorem latestPerConfig_eq {rows : List Row} (sortable : ∀ r ∈ rows, Sortable r) :
    latestPerConfig rows =
      .ok (sortBy (fun r => classOf (configKey r)) (newestOf rows).values) := by
  have keyed : (newestOf rows).values.mapM (fun r => (sortKey r).map fun key => (key, r)) =
      .ok ((newestOf rows).values.map fun r => (classOf (configKey r), r)) := by
    apply mapM_eq_ok
    intro r member
    rw [sortKey_eq (sortable r (values_newestOf_subset member))]
    rfl
  unfold latestPerConfig
  rw [foldl_keepNewest]
  dsimp only
  rw [keyed]
  show Except.ok _ = Except.ok _
  rw [sortBy_map, List.map_map]
  exact congrArg Except.ok (List.map_id _)

/-! ## The newest rows -/

/-- `out` has the last newest row of each configuration of `rows` and no other, by
stack and size, and of one stack and size by the first appearance of the
configuration. -/
structure NewestRows (rows out : List Row) : Prop where
  keys : ∀ key, key ∈ out.map configKey ↔ key ∈ rows.map configKey
  nodup : (out.map configKey).Nodup
  newest : ∀ r ∈ out, ∃ before after, rows = before ++ r :: after ∧
    (∀ r' ∈ before, configKey r' = configKey r → recordedUtc r' ≤ recordedUtc r) ∧
    ∀ r' ∈ after, configKey r' = configKey r → recordedUtc r' < recordedUtc r
  sorted : out.Pairwise fun r r' => ∃ key key', sortKey r = .ok key ∧ sortKey r' = .ok key' ∧
    (key < key' ∨ key = key' ∧
      (rows.map configKey).idxOf (configKey r) < (rows.map configKey).idxOf (configKey r'))

theorem newestRows_sortBy {rows : List Row} (sortable : ∀ r ∈ rows, Sortable r) :
    NewestRows rows (sortBy (fun r => classOf (configKey r)) (newestOf rows).values) where
  keys key := by
    rw [(sortBy_perm.map configKey).mem_iff, map_configKey_values]
    unfold newestOf
    rw [mem_keys_foldBy]
    simp [empty, Dict.keys]
  nodup := by
    rw [(sortBy_perm.map configKey).nodup_iff, map_configKey_values]
    exact (newestOf rows).nodup
  newest r member := newestOf_last (mem_sortBy.mp member)
  sorted := by
    have ordered : (newestOf rows).values.Pairwise fun r r' =>
        (rows.map configKey).idxOf (configKey r) < (rows.map configKey).idxOf (configKey r') := by
      rw [← List.pairwise_map (f := configKey)
        (R := fun k k' => (rows.map configKey).idxOf k < (rows.map configKey).idxOf k'),
        map_configKey_values]
      unfold newestOf
      exact keys_foldBy_ordered
    refine (pairwise_sortBy (f := fun r => classOf (configKey r)) ordered).imp_of_mem ?_
    intro r r' member member' order
    exact ⟨_, _, sortKey_eq (sortable r (values_newestOf_subset (mem_sortBy.mp member))),
      sortKey_eq (sortable r' (values_newestOf_subset (mem_sortBy.mp member'))), order⟩

/-- **The newest-row map, and that it is incremental.** For every history whose sizes
can be sorted by: the summary has the last newest row of each configuration, in
order; the summary of a longer history is that of the summary and what was appended;
and the summary of a summary is itself. -/
theorem latestPerConfig_newest (rows more : List Row)
    (sortable : ∀ r ∈ rows ++ more, Sortable r) :
    ∃ out, latestPerConfig rows = .ok out ∧ NewestRows rows out ∧
      latestPerConfig (rows ++ more) = latestPerConfig (out ++ more) ∧
      latestPerConfig out = .ok out := by
  have own : ∀ r ∈ rows, Sortable r := fun r member =>
    sortable r (List.mem_append_left _ member)
  have incremental : ∀ more : List Row, (∀ r ∈ more, Sortable r) →
      latestPerConfig (rows ++ more) = latestPerConfig
        (sortBy (fun r => classOf (configKey r)) (newestOf rows).values ++ more) := by
    intro more appended
    have all : ∀ r ∈ rows ++ more, Sortable r := fun r member =>
      (List.mem_append.mp member).elim (own r) (appended r)
    have kept : ∀ r ∈ sortBy (fun r => classOf (configKey r)) (newestOf rows).values ++ more,
        Sortable r := by
      intro r member
      rcases List.mem_append.mp member with old | new
      · exact own r (values_newestOf_subset (mem_sortBy.mp old))
      · exact appended r new
    rw [latestPerConfig_eq all, latestPerConfig_eq kept]
    congr 1
    unfold newestOf
    apply sortBy_foldBy_append selects_newer
    · exact fun _ => rfl
    · exact fun _ => rfl
  refine ⟨_, latestPerConfig_eq own, newestRows_sortBy own,
    incremental more fun r member => sortable r (List.mem_append_right _ member), ?_⟩
  have again := incremental [] (by simp)
  rw [List.append_nil, List.append_nil] at again
  rw [← again, latestPerConfig_eq own]

/-- A row with all thirteen columns. -/
def historyRow (recorded label stack size rate n mean p99 : String) : Row :=
  ⟨[("recorded_utc", recorded), ("git_sha", "0000000"), ("run_label", label), ("count", "1000"),
    ("warmup", "50"), ("stack", stack), ("size", size), ("rate_hz", rate), ("n", n),
    ("mean_us", mean), ("p50_us", mean), ("p99_us", p99), ("gap_count", "0")], by simp⟩

/-- One configuration on three days. -/
def firstDay : Row := historyRow "2026-01-01" "a" "covesa" "64" "100.0" "1000" "15.000" "20.000"
def secondDay : Row := historyRow "2026-01-02" "b" "covesa" "64" "100.0" "1000" "12.000" "20.000"
def thirdDay : Row := historyRow "2026-01-03" "c" "covesa" "64" "100.0" "1000" "11.000" "20.000"

theorem latestPerConfig_newest_two :
    ∃ out, latestPerConfig [secondDay, firstDay] = .ok out ∧ NewestRows [secondDay, firstDay] out ∧
      latestPerConfig ([secondDay, firstDay] ++ [thirdDay]) = latestPerConfig (out ++ [thirdDay]) ∧
      latestPerConfig out = .ok out := by
  apply latestPerConfig_newest
  intro r member
  simp only [List.cons_append, List.nil_append, List.mem_cons, List.not_mem_nil, or_false]
    at member
  rcases member with rfl | rfl | rfl
  · exact ⟨64, rfl⟩
  · exact ⟨64, rfl⟩
  · exact ⟨64, rfl⟩

end MiddlewareBench.Snapshot
