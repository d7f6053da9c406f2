import MiddlewareBench.Snapshot.Render

/-!
# What the table shows

The table in terms of the rows: one line for each size and rate that one of the two
stacks has a row for, made of the last such row of each (`comparisonRows_eq`).
-/

namespace MiddlewareBench.Snapshot

open Dict Fallible StableSort

/-- A row of a stack that the table shows under a size and rate. -/
def tabled (stack : String) (size : Int) (rate : String) (r : Row) : Bool :=
  (r.get "stack" "" = stack) && ((sizeOf r).toOption = some size) && (r.get "rate_hz" "" = rate)

def lastRow (rows : List Row) (stack : String) (size : Int) (rate : String) : Option Row :=
  (rows.filter (tabled stack size rate)).getLast?

/-- The dictionary `by_config` of the source. -/
def byConfig (rows : List Row) : Dict (Int × String) (Dict String Row) :=
  rows.foldl byConfigStep .empty

section Rows

variable {rnd : Rounding} {rows : List Row} {stack rate : String} {size : Int}

theorem tabled_eq_true {r : Row} : tabled stack size rate r = true ↔
    r.get "stack" "" = stack ∧ sizeOf r = .ok size ∧ r.get "rate_hz" "" = rate := by
  unfold tabled
  rw [Bool.and_eq_true, Bool.and_eq_true, decide_eq_true_eq, decide_eq_true_eq,
    decide_eq_true_eq, toOption_eq_some, and_assoc]

theorem tabled_of_lastRow {r : Row} (last : lastRow rows stack size rate = some r) :
    r ∈ rows ∧ tabled stack size rate r = true :=
  List.mem_filter.mp (List.mem_of_getLast? last)

theorem lastRow_concat (r : Row) : lastRow (rows ++ [r]) stack size rate =
    if tabled stack size rate r then some r else lastRow rows stack size rate := by
  unfold lastRow
  rw [List.filter_append]
  split
  · rename_i own
    rw [List.filter_cons_of_pos own, List.filter_nil, List.getLast?_concat]
  · rename_i other
    rw [List.filter_cons_of_neg other, List.filter_nil, List.append_nil]

theorem byConfig_concat (r : Row) : byConfig (rows ++ [r]) = byConfigStep (byConfig rows) r := by
  unfold byConfig
  rw [List.foldl_append]
  rfl

/-- A row goes into the pair of its size and rate, under its stack. -/
theorem get?_byConfigStep (d : Dict (Int × String) (Dict String Row)) (r : Row)
    (one : stack ∈ ["covesa", "sgmenon"]) :
    ((byConfigStep d r).get? (size, rate)).bind (fun pair => pair.get? stack) =
      if tabled stack size rate r then some r
      else (d.get? (size, rate)).bind fun pair => pair.get? stack := by
  simp only [tabled_eq_true]
  unfold byConfigStep
  cases read : sizeOf r with
  | error e => simp
  | ok size' =>
      dsimp only
      by_cases known : r.get "stack" "" ∈ ["covesa", "sgmenon"]
      · rw [if_neg (not_not_intro known), get?_set]
        by_cases key : (size', r.get "rate_hz" "") = (size, rate)
        · obtain ⟨rfl, rfl⟩ := Prod.mk.injEq .. ▸ key
          rw [if_pos rfl, Option.bind_some, get?_set]
          by_cases own : r.get "stack" "" = stack
          · rw [if_pos own, if_pos ⟨own, rfl, rfl⟩]
          · rw [if_neg own, if_neg fun all => own all.1]
            cases there : d.get? (size', r.get "rate_hz" "") with
            | none => rfl
            | some pair => rfl
        · rw [if_neg key, if_neg]
          intro all
          exact key (Prod.ext (Except.ok.inj all.2.1) all.2.2)
      · rw [if_pos known, if_neg]
        intro all
        exact known (all.1 ▸ one)

/-- The pair of a size and rate holds the last row of each stack. -/
theorem get?_byConfig (one : stack ∈ ["covesa", "sgmenon"]) :
    ((byConfig rows).get? (size, rate)).bind (fun pair => pair.get? stack) =
      lastRow rows stack size rate := by
  induction rows using List.reverseRecOn with
  | nil => rfl
  | append_singleton rows r ih =>
      rw [byConfig_concat, get?_byConfigStep _ _ one, ih, lastRow_concat]

/-- There is no pair without a row. -/
theorem mem_keys_byConfig : (size, rate) ∈ (byConfig rows).keys ↔
    ∃ stack ∈ ["covesa", "sgmenon"], lastRow rows stack size rate ≠ none := by
  refine ⟨?_, ?_⟩
  · intro present
    induction rows using List.reverseRecOn with
    | nil => cases present
    | append_singleton rows r ih =>
        have kept : ∀ stack, lastRow rows stack size rate ≠ none →
            lastRow (rows ++ [r]) stack size rate ≠ none := by
          intro stack there
          rw [lastRow_concat]
          split
          · exact Option.some_ne_none r
          · exact there
        have older : (size, rate) ∈ (byConfig rows).keys →
            ∃ stack ∈ ["covesa", "sgmenon"], lastRow (rows ++ [r]) stack size rate ≠ none := by
          intro old
          obtain ⟨stack, one, there⟩ := ih old
          exact ⟨stack, one, kept stack there⟩
        rw [byConfig_concat] at present
        unfold byConfigStep at present
        cases read : sizeOf r with
        | error e =>
            rw [read] at present
            exact older present
        | ok size' =>
            rw [read] at present
            dsimp only at present
            split at present
            · exact older present
            · rename_i known
              rw [keys_set] at present
              split at present
              · exact older present
              · rcases List.mem_append.mp present with old | new
                · exact older old
                · obtain ⟨rfl, rfl⟩ := Prod.mk.injEq .. ▸ List.mem_singleton.mp new
                  refine ⟨r.get "stack" "", not_not.mp known, ?_⟩
                  rw [lastRow_concat, if_pos]
                  · exact Option.some_ne_none r
                  · exact tabled_eq_true.mpr ⟨rfl, read, rfl⟩
  · intro found
    rcases found with ⟨stack, one, there⟩
    by_contra absent
    rw [← get?_byConfig one, get?_eq_none.mpr absent] at there
    exact there rfl

/-! ## The lines of the table -/

/-- The sizes and rates of the table, in order. -/
def tableKeys (rows : List Row) : List (Int × String) :=
  sortBy (fun key => (toLex key : Int ×ₗ String)) (byConfig rows).keys

theorem mem_tableKeys : (size, rate) ∈ tableKeys rows ↔
    ∃ stack ∈ ["covesa", "sgmenon"], lastRow rows stack size rate ≠ none :=
  mem_sortBy.trans mem_keys_byConfig

theorem nodup_tableKeys : (tableKeys rows).Nodup :=
  sortBy_perm.nodup_iff.mpr (byConfig rows).nodup

/-- The table has a line for each size and rate, from the last row of each stack. -/
theorem comparisonRows_eq : comparisonRows rnd rows = (tableKeys rows).map fun key =>
    compared rnd key.1 key.2 (lastRow rows "covesa" key.1 key.2)
      (lastRow rows "sgmenon" key.1 key.2) := by
  have sorted : tableKeys rows =
      (sortBy (fun entry => (toLex entry.1 : Int ×ₗ String)) (byConfig rows).items).map
        Prod.fst := sortBy_map Prod.fst (byConfig rows).items
  rw [sorted, List.map_map]
  apply List.map_congr_left
  intro entry member
  have there : (byConfig rows).get? (entry.1.1, entry.1.2) = some entry.2 :=
    get?_eq_some.mpr (mem_sortBy.mp member)
  rw [Function.comp_apply, ← get?_byConfig (by simp), ← get?_byConfig (by simp), there]
  rfl

theorem mem_comparisonRows {c : Comparison} : c ∈ comparisonRows rnd rows ↔
    ∃ size rate, (∃ stack ∈ ["covesa", "sgmenon"], lastRow rows stack size rate ≠ none) ∧
      c = compared rnd size rate (lastRow rows "covesa" size rate)
        (lastRow rows "sgmenon" size rate) := by
  rw [comparisonRows_eq, List.mem_map]
  refine ⟨?_, ?_⟩
  · intro found
    rcases found with ⟨key, member, rfl⟩
    exact ⟨key.1, key.2, mem_tableKeys.mp member, rfl⟩
  · intro found
    rcases found with ⟨size, rate, there, rfl⟩
    exact ⟨(size, rate), mem_tableKeys.mpr there, rfl⟩

end Rows

end MiddlewareBench.Snapshot
