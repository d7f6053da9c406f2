import MiddlewareBench.Lib.CsvReader
import MiddlewareBench.Lib.CsvText

/-!
# Written CSV reads back

`csv.reader` reads from what `csv.writer` has written the records that were written,
whatever is in their fields (`recordsFrom_writeRows`): what could end a field or begin
a quotation is quoted, and between quotes only a quote is special.
-/

namespace MiddlewareBench.CsvText

variable {done : Record} {acc field rest : List Char} {r r' : Reader} {c : Char}

/-! ## Between quotes -/

/-- The quotes of a field, doubled. -/
def doubled (field : List Char) : List Char :=
  field.flatMap fun c => if c = '"' then ['"', '"'] else [c]

theorem doubled_cons : doubled (c :: field) =
    (if c = '"' then ['"', '"'] else [c]) ++ doubled field := List.flatMap_cons

theorem quoted_eq : quoted field = '"' :: (doubled field ++ ['"']) := rfl

/-- Between quotes a line goes on. -/
theorem recordsFrom_within (step : r.process c = .ok r') (within : r'.mode = .inQuoted) :
    recordsFrom r (c :: rest) = recordsFrom r' rest := by
  rw [recordsFrom_cons step, Reader.endLine_eq_none.mpr within]
  exact ite_self _

theorem process_inQuoted (other : c ≠ '"') (short : acc.length < fieldSizeLimit) :
    Reader.process ⟨.inQuoted, acc, done⟩ c = .ok ⟨.inQuoted, acc ++ [c], done⟩ := by
  unfold Reader.process
  dsimp only
  rw [if_neg other, Reader.add, if_neg (Nat.not_le.mpr short)]

theorem process_quoteInQuoted (short : acc.length < fieldSizeLimit) :
    Reader.process ⟨.quoteInQuoted, acc, done⟩ '"' = .ok ⟨.inQuoted, acc ++ ['"'], done⟩ := by
  unfold Reader.process
  dsimp only
  rw [if_pos rfl, Reader.add, if_neg (Nat.not_le.mpr short)]

/-- The first of two quotes, or the one that ends the field. -/
theorem recordsFrom_quote (more : rest ≠ []) :
    recordsFrom ⟨.inQuoted, acc, done⟩ ('"' :: rest) =
      recordsFrom ⟨.quoteInQuoted, acc, done⟩ rest := by
  rw [recordsFrom_cons rfl, endsLine_eq_false (by decide) more, if_neg Bool.false_ne_true]

/-- The characters of a quoted field are added to it, with half of its quotes. -/
theorem recordsFrom_doubled (short : (acc ++ field).length ≤ fieldSizeLimit) :
    recordsFrom ⟨.inQuoted, acc, done⟩ (doubled field ++ rest) =
      recordsFrom ⟨.inQuoted, acc ++ field, done⟩ rest := by
  induction field generalizing acc with
  | nil => rw [List.append_nil, doubled, List.flatMap_nil, List.nil_append]
  | cons c field ih =>
      have room : acc.length < fieldSizeLimit := by
        rw [List.length_append, List.length_cons] at short
        omega
      have later := @ih (acc ++ [c]) (by simpa using short)
      rw [List.append_assoc] at later
      rw [doubled_cons, List.append_assoc]
      by_cases quote : c = '"'
      · subst quote
        rw [if_pos rfl, List.cons_append, recordsFrom_quote (by simp), List.cons_append,
          recordsFrom_within (process_quoteInQuoted room) rfl]
        exact later
      · rw [if_neg quote, List.cons_append, recordsFrom_within (process_inQuoted quote room) rfl]
        exact later

/-! ## Fields -/

/-- A quoted field up to its last quote. -/
theorem recordsFrom_quoted (short : field.length ≤ fieldSizeLimit) (more : rest ≠ []) :
    recordsFrom ⟨.startField, [], done⟩ (quoted field ++ rest) =
      recordsFrom ⟨.quoteInQuoted, field, done⟩ rest := by
  have opened : Reader.process ⟨.startField, [], done⟩ '"' = .ok ⟨.inQuoted, [], done⟩ := rfl
  rw [quoted_eq, List.cons_append, recordsFrom_within opened rfl, List.append_assoc,
    recordsFrom_doubled (by simpa using short)]
  exact recordsFrom_quote more

/-- A field that is not quoted is plain. -/
theorem plain_of_not_special {field : String} (bare : field.toList.any special = false)
    (short : field.toList.length ≤ fieldSizeLimit) : Plain field.toList := by
  have none' : ∀ c ∈ field.toList, special c = false := by
    intro c member
    exact Bool.eq_false_iff.mpr (List.any_eq_false.mp bare c member)
  refine ⟨fun c member => ?_, fun first => ?_, short⟩
  · have ordinary := none' c member
    unfold special at ordinary
    unfold separates isNewline
    simp only [Bool.or_eq_false_iff, decide_eq_false_iff_not] at ordinary ⊢
    exact ⟨⟨ordinary.2, ordinary.1.2⟩, ordinary.1.1.1⟩
  · have quote := none' '"' (List.mem_of_mem_head? first)
    exact absurd quote (by decide)

/-- A written field and a comma. -/
theorem recordsFrom_writeField_comma {field : String}
    (short : field.toList.length ≤ fieldSizeLimit) (more : rest ≠ []) :
    recordsFrom ⟨.startField, [], done⟩ (writeField field ++ ',' :: rest) =
      recordsFrom ⟨.startField, [], done ++ [field.toList]⟩ rest := by
  unfold writeField
  split
  · rw [recordsFrom_quoted short (by simp), recordsFrom_cons rfl,
      endsLine_eq_false (by decide) more]
    rfl
  · rename_i bare
    exact recordsFrom_comma (plain_of_not_special (Bool.eq_false_iff.mpr bare) short) more

/-- The last written field of a line. -/
theorem recordsFrom_writeField_newline {field : String}
    (short : field.toList.length ≤ fieldSizeLimit) :
    recordsFrom ⟨.startField, [], done⟩ (writeField field ++ '\n' :: rest) =
      (recordsFrom .start rest).map ((done ++ [field.toList]) :: ·) := by
  have ended : endsLine '\n' rest = true := rfl
  unfold writeField
  split
  · rw [recordsFrom_quoted short (by simp), recordsFrom_cons rfl, ended]
    rfl
  · rename_i bare
    exact recordsFrom_newline (plain_of_not_special (Bool.eq_false_iff.mpr bare) short)

/-! ## Rows -/

/-- A row as text. -/
def texts (row : List String) : Record := row.map String.toList

theorem intercalate_writeField_cons {field : String} {row : List String} (more : row ≠ []) :
    List.intercalate [','] ((field :: row).map writeField) =
      writeField field ++ ',' :: List.intercalate [','] (row.map writeField) := by
  rw [List.map_cons, List.intercalate_cons_of_ne_nil (by simpa using more), List.append_assoc,
    List.singleton_append]

/-- The fields of a row from its first on. -/
theorem recordsFrom_fields {row : List String} (some' : row ≠ [])
    (short : ∀ field ∈ row, field.toList.length ≤ fieldSizeLimit) :
    recordsFrom ⟨.startField, [], done⟩
        (List.intercalate [','] (row.map writeField) ++ '\n' :: rest) =
      (recordsFrom .start rest).map ((done ++ texts row) :: ·) := by
  induction row generalizing done with
  | nil => exact absurd rfl some'
  | cons field row ih =>
      have own := short field List.mem_cons_self
      by_cases last : row = []
      · subst last
        rw [List.map_singleton, List.intercalate_singleton]
        exact recordsFrom_writeField_newline own
      · rw [intercalate_writeField_cons last, List.append_assoc, List.cons_append,
          recordsFrom_writeField_comma own (by simp),
          ih last fun field' member => short field' (List.mem_cons_of_mem field member),
          List.append_assoc]
        rfl

/-- A written row does not look blank. -/
theorem writeRow_head {row : List String} (some' : row ≠ []) :
    ∃ c text, writeRow row = c :: text ∧ isNewline c = false := by
  have written : ∀ field : String, field ≠ "" →
      ∃ c text, writeField field = c :: text ∧ isNewline c = false := by
    intro field nonempty
    unfold writeField
    split
    · exact ⟨'"', _, rfl, by decide⟩
    · rename_i bare
      cases chars : field.toList with
      | nil => exact absurd (String.toList_eq_nil_iff.mp chars) nonempty
      | cons c text =>
          rw [chars, List.any_cons, Bool.or_eq_true, not_or] at bare
          refine ⟨c, text, rfl, ?_⟩
          have ordinary := Bool.eq_false_iff.mpr bare.1
          unfold special at ordinary
          unfold isNewline
          simp only [Bool.or_eq_false_iff, decide_eq_false_iff_not] at ordinary ⊢
          exact ⟨ordinary.2, ordinary.1.2⟩
  unfold writeRow
  split
  · exact ⟨'"', _, rfl, by decide⟩
  · rename_i several
    cases row with
    | nil => exact absurd rfl some'
    | cons field row =>
        by_cases last : row = []
        · subst last
          obtain ⟨c, text, same, other⟩ := written field fun empty => several (by rw [empty])
          rw [List.map_singleton, List.intercalate_singleton, same]
          exact ⟨c, _, rfl, other⟩
        · rw [intercalate_writeField_cons last]
          by_cases empty : field = ""
          · subst empty
            exact ⟨',', _, rfl, by decide⟩
          · obtain ⟨c, text, same, other⟩ := written field empty
            rw [same]
            exact ⟨c, _, rfl, other⟩

/-- A written row reads back, and reading goes on after it. -/
theorem recordsFrom_writeRow {row : List String} (some' : row ≠ [])
    (short : ∀ field ∈ row, field.toList.length ≤ fieldSizeLimit) :
    recordsFrom .start (writeRow row ++ rest) =
      (recordsFrom .start rest).map (texts row :: ·) := by
  obtain ⟨c, text, same, other⟩ := writeRow_head some'
  rw [same, List.cons_append, recordsFrom_start other, ← List.cons_append, ← same]
  unfold writeRow
  split
  · rename_i blank
    subst blank
    have ended : endsLine '\n' rest = true := rfl
    rw [List.append_assoc, recordsFrom_quoted (Nat.zero_le _) (by simp), List.singleton_append,
      recordsFrom_cons rfl, ended]
    rfl
  · rw [List.append_assoc, List.singleton_append, recordsFrom_fields some' short]
    rfl

/-- **Written rows read back**, whatever is in their fields. -/
theorem recordsFrom_writeRows {rows : List (List String)} (some' : ∀ row ∈ rows, row ≠ [])
    (short : ∀ row ∈ rows, ∀ field ∈ row, field.toList.length ≤ fieldSizeLimit) :
    recordsFrom .start (rows.flatMap writeRow) = .ok (rows.map texts) := by
  induction rows with
  | nil => rfl
  | cons row rows ih =>
      rw [List.flatMap_cons, recordsFrom_writeRow (some' row List.mem_cons_self)
        (short row List.mem_cons_self),
        ih (fun row' member => some' row' (List.mem_cons_of_mem row member))
          fun row' member => short row' (List.mem_cons_of_mem row member)]
      rfl

/-! ## What is read can be written -/

/-- Nothing in a reader is longer than it allows. -/
structure Reader.Short (r : Reader) : Prop where
  field : r.field.length ≤ fieldSizeLimit
  fields : ∀ field ∈ r.fields, field.length ≤ fieldSizeLimit

theorem Reader.Step.short (step : Reader.Step r c r') (short : r.Short) : r'.Short := by
  rcases short with ⟨field, fields⟩
  cases step with
  | skip | openQuote | quote => exact ⟨field, fields⟩
  | close unquoted separator =>
      refine ⟨Nat.zero_le _, fun closed member => ?_⟩
      rcases List.mem_append.mp member with earlier | last
      · exact fields closed earlier
      · rw [List.mem_singleton.mp last]
        exact field
  | plain room unquoted other | quoted room quoted =>
      refine ⟨?_, fields⟩
      rw [List.length_append]
      exact room

theorem Reader.Short.endLine {record : Record} (short : r.Short)
    (completed : r.endLine = some record) : ∀ field ∈ record, field.length ≤ fieldSizeLimit := by
  rcases short with ⟨own, fields⟩
  have read : record = r.fields ∨ record = r.fields ++ [r.field] := by
    unfold Reader.endLine at completed
    cases mode : r.mode <;> simp [mode] at completed <;> simp [completed]
  intro field member
  rcases read with rfl | rfl
  · exact fields field member
  · rcases List.mem_append.mp member with earlier | last
    · exact fields field earlier
    · rw [List.mem_singleton.mp last]
      exact own

theorem Reader.Short.finish (short : r.Short) :
    ∀ record ∈ r.finish, ∀ field ∈ record, field.length ≤ fieldSizeLimit := by
  rcases short with ⟨own, fields⟩
  intro record member field inside
  unfold Reader.finish at member
  split at member
  · rw [List.mem_singleton.mp member] at inside
    rcases List.mem_append.mp inside with earlier | last
    · exact fields field earlier
    · rw [List.mem_singleton.mp last]
      exact own
  · cases member

theorem short_start : Reader.start.Short :=
  ⟨Nat.zero_le _, fun field member => by cases member⟩

/-- No field that is read is longer than the reader allows. -/
theorem short_recordsFrom {text : List Char} {out : List Record} (short : r.Short)
    (ran : recordsFrom r text = .ok out) :
    ∀ record ∈ out, ∀ field ∈ record, field.length ≤ fieldSizeLimit := by
  induction text generalizing r out with
  | nil =>
      rw [recordsFrom, Except.ok.injEq] at ran
      rw [← ran]
      exact short.finish
  | cons c text ih =>
      obtain ⟨next, processed⟩ := process_of_recordsFrom ran
      have kept := (Reader.step_of_process processed).short short
      rw [recordsFrom_cons processed] at ran
      split at ran
      · cases completed : next.endLine with
        | none =>
            rw [completed] at ran
            exact ih kept ran
        | some record =>
            rw [completed] at ran
            obtain ⟨later, ran', rfl⟩ := Fallible.map_eq_ok.mp ran
            intro record' member
            rcases List.mem_cons.mp member with rfl | others
            · exact kept.endLine completed
            · exact ih short_start ran' record' others
      · exact ih kept ran

end MiddlewareBench.CsvText
