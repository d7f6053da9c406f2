import MiddlewareBench.Lib.Fallible
import Mathlib.Algebra.BigOperators.Group.List.Basic
import Mathlib.Algebra.GroupWithZero.Nat
import Mathlib.Data.List.Induction

/-!
# Reading CSV text

What `csv.reader` of Python makes of a file opened with `newline=""`, in its default
dialect: commas between fields, double quotes around them, no escape character, not
strict. Fields joined by commas without any quoting read back exactly when they are
`Plain` (`reads_joined_iff`).
-/

namespace MiddlewareBench.CsvText

open Fallible

abbrev Record := List (List Char)

/-- `csv.Error`. -/
inductive CsvError where
  | newlineInField
  | fieldTooLong
  deriving DecidableEq, Repr

inductive Mode where
  | startRecord
  | startField
  | inField
  | inQuoted
  | quoteInQuoted
  | eatNewline
  deriving DecidableEq, Repr

/-- The field being read and the fields before it. -/
structure Reader where
  mode : Mode
  field : List Char
  fields : Record
  deriving DecidableEq, Repr

/-- `csv.field_size_limit()`. -/
def fieldSizeLimit : Nat := 131072

def isNewline (c : Char) : Bool := c = '\n' || c = '\r'

namespace Reader

def start : Reader := ⟨.startRecord, [], []⟩

def add (r : Reader) (mode : Mode) (c : Char) : Except CsvError Reader :=
  if r.field.length ≥ fieldSizeLimit then .error .fieldTooLong
  else .ok { r with mode, field := r.field ++ [c] }

def save (r : Reader) (mode : Mode) : Reader := ⟨mode, [], r.fields ++ [r.field]⟩

def processStart (r : Reader) (c : Char) : Except CsvError Reader :=
  if isNewline c then .ok (r.save .eatNewline)
  else if c = '"' then .ok { r with mode := .inQuoted }
  else if c = ',' then .ok (r.save .startField)
  else r.add .inField c

def process (r : Reader) (c : Char) : Except CsvError Reader :=
  match r.mode with
  | .startRecord => if isNewline c then .ok { r with mode := .eatNewline } else r.processStart c
  | .startField => r.processStart c
  | .inField =>
    if isNewline c then .ok (r.save .eatNewline)
    else if c = ',' then .ok (r.save .startField)
    else r.add .inField c
  | .inQuoted => if c = '"' then .ok { r with mode := .quoteInQuoted } else r.add .inQuoted c
  | .quoteInQuoted =>
    if c = '"' then r.add .inQuoted c
    else if c = ',' then .ok (r.save .startField)
    else if isNewline c then .ok (r.save .eatNewline)
    else r.add .inField c
  | .eatNewline => if isNewline c then .ok r else .error .newlineInField

/-- The record that the end of a line completes. -/
def endLine (r : Reader) : Option Record :=
  match r.mode with
  | .startRecord | .eatNewline => some r.fields
  | .startField | .inField | .quoteInQuoted => some (r.fields ++ [r.field])
  | .inQuoted => none

/-- The record that the end of the file completes. -/
def finish (r : Reader) : List Record :=
  if r.field ≠ [] ∨ r.mode = .inQuoted then [r.fields ++ [r.field]] else []

end Reader

/-- Lines end with `"\n"`, `"\r"` or `"\r\n"`, and at the end of the file. -/
def endsLine (c : Char) (rest : List Char) : Bool :=
  c = '\n' || (c = '\r' && rest.head? ≠ some '\n') || rest = []

/-- The records that are read. -/
def recordsFrom (r : Reader) : List Char → Except CsvError (List Record)
  | [] => .ok r.finish
  | c :: rest => do
    let r ← r.process c
    if endsLine c rest then
      match r.endLine with
      | some record => return record :: (← recordsFrom .start rest)
      | none => recordsFrom r rest
    else recordsFrom r rest

/-! ## Taking a reader apart -/

section Steps

variable {r r' : Reader} {c : Char} {rest : List Char} {out : List Record}

theorem recordsFrom_cons (step : r.process c = .ok r') : recordsFrom r (c :: rest) =
    if endsLine c rest then
      match r'.endLine with
      | some record => (recordsFrom .start rest).map (record :: ·)
      | none => recordsFrom r' rest
    else recordsFrom r' rest := by
  rw [recordsFrom, step]
  show (if _ then _ else _) = _
  split
  · cases r'.endLine with
    | none => rfl
    | some record => cases recordsFrom .start rest <;> rfl
  · rfl

theorem process_of_recordsFrom (ran : recordsFrom r (c :: rest) = .ok out) :
    ∃ r', r.process c = .ok r' := by
  rw [recordsFrom] at ran
  obtain ⟨r', step, -⟩ := bind_eq_ok.mp ran
  exact ⟨r', step⟩

theorem endsLine_eq_false (other : isNewline c = false) (more : rest ≠ []) :
    endsLine c rest = false := by
  unfold isNewline at other
  rw [Bool.or_eq_false_iff] at other
  unfold endsLine
  simp [other.1, other.2, more]

/-- A line ends at a line end, or with the text. -/
theorem isNewline_of_endsLine (ended : endsLine c rest = true)
    (last : rest = [] → isNewline c = true) : isNewline c = true := by
  by_cases done : rest = []
  · exact last done
  · by_contra other
    rw [endsLine_eq_false (Bool.not_eq_true _ ▸ other) done] at ended
    cases ended

theorem add_eq_ok {mode : Mode} (added : r.add mode c = .ok r') :
    r.field.length < fieldSizeLimit ∧ r' = { r with mode, field := r.field ++ [c] } := by
  unfold Reader.add at added
  split at added
  · cases added
  · rename_i short
    exact ⟨Nat.lt_of_not_le short, (Except.ok.inj added).symm⟩

end Steps

/-! ## What a character does -/

/-- A character that ends a field. -/
def separates (c : Char) : Bool := isNewline c || c = ','

theorem separates_eq_false {c : Char} (notNewline : ¬ isNewline c = true) (notComma : c ≠ ',') :
    separates c = false := by
  simp [separates, notNewline, notComma]

namespace Reader

variable {r r' : Reader} {c : Char} {rest : List Char} {record : Record} {out : List Record}

/-- What a reader makes of a character. -/
inductive Step (r : Reader) (c : Char) : Reader → Prop where
  | skip (outside : r.mode = .startRecord ∨ r.mode = .eatNewline) (newline : isNewline c = true) :
    Step r c { r with mode := .eatNewline }
  | close {mode : Mode} (unquoted : r.mode ≠ .inQuoted ∧ r.mode ≠ .eatNewline)
    (separator : c = ',' ∧ mode = .startField ∨ isNewline c = true ∧ mode = .eatNewline) :
    Step r c (r.save mode)
  | openQuote (outside : r.mode = .startRecord ∨ r.mode = .startField) (quote : c = '"') :
    Step r c { r with mode := .inQuoted }
  | quote (quoted : r.mode = .inQuoted) (quote : c = '"') :
    Step r c { r with mode := .quoteInQuoted }
  | plain (short : r.field.length < fieldSizeLimit) (unquoted : r.mode ≠ .inQuoted)
    (other : separates c = false) : Step r c { r with mode := .inField, field := r.field ++ [c] }
  | quoted (short : r.field.length < fieldSizeLimit)
    (quoted : r.mode = .inQuoted ∨ r.mode = .quoteInQuoted) :
    Step r c { r with mode := .inQuoted, field := r.field ++ [c] }

theorem step_of_add {mode : Mode} (added : r.add mode c = .ok r')
    (plain : mode = .inField → r.mode ≠ .inQuoted ∧ separates c = false)
    (quoted : mode ≠ .inField → mode = .inQuoted ∧
      (r.mode = .inQuoted ∨ r.mode = .quoteInQuoted)) : Step r c r' := by
  obtain ⟨short, rfl⟩ := add_eq_ok added
  by_cases unquoted : mode = .inField
  · subst unquoted
    exact .plain short (plain rfl).1 (plain rfl).2
  · obtain ⟨rfl, within⟩ := quoted unquoted
    exact .quoted short within

theorem step_of_processStart (outside : r.mode = .startRecord ∨ r.mode = .startField)
    (step : r.processStart c = .ok r') : Step r c r' := by
  have unquoted : r.mode ≠ .inQuoted ∧ r.mode ≠ .eatNewline := by
    rcases outside with first | later
    · simp [first]
    · simp [later]
  unfold processStart at step
  split at step
  · rename_i newline
    cases step
    exact .close unquoted (.inr ⟨newline, rfl⟩)
  · rename_i other
    split at step
    · rename_i quote
      cases step
      exact .openQuote outside quote
    · split at step
      · rename_i comma
        cases step
        exact .close unquoted (.inl ⟨comma, rfl⟩)
      · rename_i notComma
        exact step_of_add step (fun _ => ⟨unquoted.1, separates_eq_false other notComma⟩) (by simp)

theorem step_of_process (step : r.process c = .ok r') : Step r c r' := by
  unfold process at step
  cases mode : r.mode with
  | startRecord =>
      rw [mode] at step
      dsimp only at step
      split at step
      · rename_i newline
        cases step
        exact .skip (.inl mode) newline
      · exact step_of_processStart (.inl mode) step
  | startField =>
      rw [mode] at step
      exact step_of_processStart (.inr mode) step
  | inField =>
      rw [mode] at step
      dsimp only at step
      split at step
      · rename_i newline
        cases step
        exact .close (by simp [mode]) (.inr ⟨newline, rfl⟩)
      · rename_i other
        split at step
        · rename_i comma
          cases step
          exact .close (by simp [mode]) (.inl ⟨comma, rfl⟩)
        · rename_i notComma
          exact step_of_add step (fun _ => ⟨by simp [mode], separates_eq_false other notComma⟩)
            (by simp)
  | inQuoted =>
      rw [mode] at step
      dsimp only at step
      split at step
      · rename_i quote
        cases step
        exact .quote mode quote
      · exact step_of_add step (by simp) fun _ => ⟨rfl, .inl mode⟩
  | quoteInQuoted =>
      rw [mode] at step
      dsimp only at step
      split at step
      · exact step_of_add step (by simp) fun _ => ⟨rfl, .inr mode⟩
      · split at step
        · rename_i comma
          cases step
          exact .close (by simp [mode]) (.inl ⟨comma, rfl⟩)
        · rename_i notComma
          split at step
          · rename_i newline
            cases step
            exact .close (by simp [mode]) (.inr ⟨newline, rfl⟩)
          · rename_i other
            exact step_of_add step (fun _ => ⟨by simp [mode], separates_eq_false other notComma⟩)
              (by simp)
  | eatNewline =>
      rw [mode] at step
      dsimp only at step
      split at step
      · rename_i newline
        have same := Step.skip (.inr mode) newline
        rw [← mode] at same
        cases step
        exact same
      · cases step

theorem Step.mode (step : Step r c r') : r'.mode ≠ .startRecord := by
  cases step with
  | skip => simp
  | close unquoted separator =>
      rcases separator with comma | newline
      · simp [save, comma.2]
      · simp [save, newline.2]
  | openQuote => simp
  | quote => simp
  | plain => simp
  | quoted => simp

/-- After the end of a line a field is open only between quotes. -/
theorem Step.mode_newline (step : Step r c r') (newline : isNewline c = true) :
    r'.mode = .eatNewline ∨ r'.mode = .inQuoted := by
  cases step with
  | skip => exact .inl rfl
  | close unquoted separator =>
      rcases separator with comma | line
      · rw [comma.1] at newline
        exact absurd newline (by decide)
      · exact .inl line.2
  | openQuote => exact .inr rfl
  | quote quoted quote =>
      rw [quote] at newline
      exact absurd newline (by decide)
  | plain short unquoted other =>
      exact absurd newline (Bool.eq_false_iff.mp (Bool.or_eq_false_iff.mp other).1)
  | quoted => exact .inr rfl

/-! ## What has been read stays -/

/-- A record with everything that has been read of it. -/
def Begins (r : Reader) (record : Record) : Prop :=
  match r.mode with
  | .startRecord => True
  | .startField | .eatNewline => ∃ tail, record = r.fields ++ tail
  | .inField | .inQuoted | .quoteInQuoted =>
    ∃ suffix tail, record = r.fields ++ (r.field ++ suffix) :: tail

/-- All fields read have begun a record that has more of the last one. -/
theorem begins_of_field {suffix : List Char} {tail : Record}
    (same : record = r.fields ++ (r.field ++ suffix) :: tail) : r.Begins record := by
  unfold Begins
  cases r.mode with
  | startRecord => trivial
  | startField => exact ⟨_, same⟩
  | eatNewline => exact ⟨_, same⟩
  | inField => exact ⟨suffix, tail, same⟩
  | inQuoted => exact ⟨suffix, tail, same⟩
  | quoteInQuoted => exact ⟨suffix, tail, same⟩

theorem Step.begins (step : Step r c r') (begins : r'.Begins record) : r.Begins record := by
  cases step with
  | skip outside newline =>
      unfold Begins
      rcases outside with first | later
      · rw [first]
        trivial
      · rw [later]
        exact begins
  | close unquoted separator =>
      obtain ⟨tail, same⟩ : ∃ tail, record = (r.fields ++ [r.field]) ++ tail := by
        rcases separator with comma | line
        · rw [comma.2] at begins
          exact begins
        · rw [line.2] at begins
          exact begins
      exact @begins_of_field r record [] tail (by simpa using same)
  | openQuote => exact begins_of_field begins.choose_spec.choose_spec
  | quote => exact begins_of_field begins.choose_spec.choose_spec
  | plain =>
      rcases begins with ⟨suffix, tail, same⟩
      exact begins_of_field (by simpa using same)
  | quoted =>
      rcases begins with ⟨suffix, tail, same⟩
      exact begins_of_field (by simpa using same)

theorem begins_endLine (completed : r.endLine = some record) : r.Begins record := by
  have whole : record = r.fields ++ [r.field] → r.Begins record := fun same =>
    @begins_of_field r record [] [] (by simpa using same)
  unfold endLine at completed
  cases mode : r.mode with
  | startRecord =>
      unfold Begins
      rw [mode]
      trivial
  | eatNewline =>
      rw [mode] at completed
      unfold Begins
      rw [mode]
      exact ⟨[], by simpa using completed.symm⟩
  | startField =>
      rw [mode] at completed
      exact whole (Option.some.inj completed).symm
  | inField =>
      rw [mode] at completed
      exact whole (Option.some.inj completed).symm
  | quoteInQuoted =>
      rw [mode] at completed
      exact whole (Option.some.inj completed).symm
  | inQuoted =>
      rw [mode] at completed
      cases completed

/-- Only a field between quotes goes on after the end of a line. -/
theorem endLine_eq_none : r.endLine = none ↔ r.mode = .inQuoted := by
  unfold endLine
  cases r.mode <;> simp

end Reader

section Records

variable {r : Reader} {text : List Char} {out : List Record}

theorem endsLine_last (c : Char) : endsLine c [] = true := by simp [endsLine]

/-- The next record is the one that has begun. -/
theorem begins_recordsFrom {c : Char} {r' : Reader} (processed : r.process c = .ok r')
    (ran : recordsFrom r (c :: text) = .ok out) :
    ∃ record later, out = record :: later ∧ r'.Begins record := by
  induction text generalizing r r' c with
  | nil =>
      rw [recordsFrom_cons processed, if_pos (endsLine_last c)] at ran
      cases completed : r'.endLine with
      | none =>
          have quoted := Reader.endLine_eq_none.mp completed
          rw [completed] at ran
          dsimp only at ran
          rw [recordsFrom, Except.ok.injEq, Reader.finish, if_pos (.inr quoted)] at ran
          exact ⟨_, [], ran.symm, @Reader.begins_of_field r' _ [] [] (by simp)⟩
      | some record =>
          rw [completed] at ran
          obtain ⟨later, -, same⟩ := map_eq_ok.mp ran
          exact ⟨record, later, same.symm, Reader.begins_endLine completed⟩
  | cons c' text ih =>
      have onwards : recordsFrom r' (c' :: text) = .ok out →
          ∃ record later, out = record :: later ∧ r'.Begins record := by
        intro ran'
        obtain ⟨r'', processed'⟩ := process_of_recordsFrom ran'
        obtain ⟨record, later, same, begins⟩ := ih processed' ran'
        exact ⟨record, later, same, (Reader.step_of_process processed').begins begins⟩
      rw [recordsFrom_cons processed] at ran
      split at ran
      · cases completed : r'.endLine with
        | none =>
            rw [completed] at ran
            exact onwards ran
        | some record =>
            rw [completed] at ran
            obtain ⟨later, -, same⟩ := map_eq_ok.mp ran
            exact ⟨record, later, same.symm, Reader.begins_endLine completed⟩
      · exact onwards ran

/-- Records without those of blank lines. -/
def kept (out : List Record) : List Record := out.filter (· ≠ [])

theorem begins_kept {c : Char} {r' : Reader} {record : Record} {later : List Record}
    (processed : r.process c = .ok r') (ran : recordsFrom r (c :: text) = .ok out)
    (nonblank : ∀ record, r'.Begins record → record ≠ [])
    (same : kept out = record :: later) : r'.Begins record := by
  obtain ⟨record', later', rfl, begins⟩ := begins_recordsFrom processed ran
  unfold kept at same
  rw [List.filter_cons_of_pos (by simpa using nonblank record' begins)] at same
  exact (List.cons.inj same).1 ▸ begins

/-- A field that has been closed is in the next record. -/
theorem kept_save {c : Char} {mode : Mode} {record : Record} {later : List Record}
    (processed : r.process c = .ok (r.save mode))
    (closed : mode = .startField ∨ mode = .eatNewline)
    (ran : recordsFrom r (c :: text) = .ok out) (same : kept out = record :: later) :
    ∃ tail, record = r.fields ++ r.field :: tail := by
  have closes : ∀ record, (r.save mode).Begins record →
      ∃ tail, record = r.fields ++ r.field :: tail := by
    intro record begins
    unfold Reader.Begins at begins
    rcases closed with rfl | rfl
    · rcases begins with ⟨tail, same⟩
      exact ⟨tail, by simpa [Reader.save] using same⟩
    · rcases begins with ⟨tail, same⟩
      exact ⟨tail, by simpa [Reader.save] using same⟩
  apply closes record
  apply begins_kept processed ran _ same
  intro record' begins
  obtain ⟨tail, rfl⟩ := closes record' begins
  simp

/-- The beginning of a field that is open is in the next record. -/
theorem kept_field {c : Char} {r' : Reader} {record : Record} {later : List Record}
    (processed : r.process c = .ok r') (opened : r'.mode = .inField ∨ r'.mode = .inQuoted)
    (ran : recordsFrom r (c :: text) = .ok out) (same : kept out = record :: later) :
    ∃ suffix tail, record = r'.fields ++ (r'.field ++ suffix) :: tail := by
  have opens : ∀ record, r'.Begins record →
      ∃ suffix tail, record = r'.fields ++ (r'.field ++ suffix) :: tail := by
    intro record begins
    unfold Reader.Begins at begins
    rcases opened with plain | quoted
    · rwa [plain] at begins
    · rwa [quoted] at begins
  apply opens record
  apply begins_kept processed ran _ same
  intro record' begins
  obtain ⟨suffix, tail, rfl⟩ := opens record' begins
  simp

/-! ## Counting characters -/

/-- The characters of a record, and one for the end of each field. -/
def recordWeight (record : Record) : Nat := (record.map fun field => field.length + 1).sum

def weight (out : List Record) : Nat := (out.map recordWeight).sum

/-- What is in a reader, and one for a quote that has been opened. -/
def Reader.weight (r : Reader) : Nat :=
  recordWeight r.fields + r.field.length +
    if r.mode = .inQuoted ∨ r.mode = .quoteInQuoted then 1 else 0

theorem recordWeight_concat (record : Record) (field : List Char) :
    recordWeight (record ++ [field]) = recordWeight record + (field.length + 1) := by
  simp [recordWeight]

theorem Reader.Step.weight {r' : Reader} {c : Char} (step : Reader.Step r c r') :
    r'.weight ≤ r.weight + 1 := by
  cases step with
  | skip outside newline => simp [Reader.weight]; omega
  | close unquoted separator =>
      rcases separator with comma | line
      · simp [Reader.weight, Reader.save, comma.2, recordWeight_concat]; omega
      · simp [Reader.weight, Reader.save, line.2, recordWeight_concat]; omega
  | openQuote => simp [Reader.weight]
  | quote quoted quote => simp [Reader.weight, quoted]
  | plain => simp [Reader.weight]; omega
  | quoted short quoted => simp [Reader.weight, quoted]; omega

/-- No more is read than was written. -/
theorem weight_recordsFrom (ran : recordsFrom r text = .ok out)
    (lines : ∀ c, text.getLast? = some c → isNewline c = true)
    (resting : text = [] → r.mode = .inQuoted ∨ r.field = []) :
    weight out ≤ r.weight + text.length := by
  induction text generalizing r out with
  | nil =>
      rw [recordsFrom, Except.ok.injEq, Reader.finish] at ran
      subst ran
      split
      · rename_i pending
        have quoted : r.mode = .inQuoted := by
          rcases resting rfl with quoted | empty
          · exact quoted
          · exact pending.resolve_left (by simp [empty])
        simp [weight, recordWeight_concat, Reader.weight, quoted]
        omega
      · simp [weight]
  | cons c rest ih =>
      obtain ⟨r', processed⟩ := process_of_recordsFrom ran
      have step := Reader.step_of_process processed
      have one := step.weight
      rw [recordsFrom_cons processed] at ran
      have lines' : ∀ c', rest.getLast? = some c' → isNewline c' = true := by
        intro c' last
        apply lines c'
        rw [List.getLast?_cons, last]
        rfl
      have onwards : recordsFrom r' rest = .ok out → (rest = [] → r'.mode = .inQuoted) →
          weight out ≤ r.weight + (c :: rest).length := by
        intro ran' quoted
        have later := ih ran' lines' fun done => .inl (quoted done)
        rw [List.length_cons]
        omega
      split at ran
      · rename_i ended
        have newline : isNewline c = true :=
          isNewline_of_endsLine ended fun done => lines c (by rw [done]; rfl)
        rcases step.mode_newline newline with complete | quoted
        · have completed : r'.endLine = some r'.fields := by
            unfold Reader.endLine
            rw [complete]
          rw [completed] at ran
          obtain ⟨later, ran', rfl⟩ := map_eq_ok.mp ran
          have rest' := ih ran' lines' fun _ => .inr rfl
          have empty : Reader.start.weight = 0 := rfl
          have held : recordWeight r'.fields ≤ r'.weight := by
            unfold Reader.weight
            omega
          rw [weight, List.map_cons, List.sum_cons, ← weight, List.length_cons]
          omega
        · rw [Reader.endLine_eq_none.mpr quoted] at ran
          exact onwards ran fun _ => quoted
      · rename_i within
        apply onwards ran
        intro done
        rw [done] at within
        exact absurd (endsLine_last c) within

end Records

/-! ## Plain fields -/

/-- A field that reads back without quotes. -/
structure Plain (field : List Char) : Prop where
  whole : ∀ c ∈ field, separates c = false
  unquoted : field.head? ≠ some '"'
  short : field.length ≤ fieldSizeLimit

theorem plain_iff {field : List Char} : Plain field ↔ (field.all fun c => !separates c) = true ∧
    field.head? ≠ some '"' ∧ field.length ≤ fieldSizeLimit := by
  rw [List.all_eq_true]
  refine ⟨fun plain => ⟨?_, plain.unquoted, plain.short⟩, fun parts => ⟨?_, parts.2.1, parts.2.2⟩⟩
  · intro c member
    rw [plain.whole c member]
    rfl
  · intro c member
    exact (Bool.not_eq_true' _).mp (parts.1 c member)

instance {field : List Char} : Decidable (Plain field) := decidable_of_iff _ plain_iff.symm

theorem Plain.notMem {field : List Char} {c : Char} (plain : Plain field)
    (ends : separates c = true) : c ∉ field := by
  intro member
  rw [plain.whole c member] at ends
  cases ends

section Fields

variable {done : Record} {acc field rest : List Char} {c : Char} {out : List Record}

theorem process_inField (other : separates c = false) (short : acc.length < fieldSizeLimit) :
    Reader.process ⟨.inField, acc, done⟩ c = .ok ⟨.inField, acc ++ [c], done⟩ := by
  unfold separates at other
  rw [Bool.or_eq_false_iff, decide_eq_false_iff_not] at other
  unfold Reader.process
  dsimp only
  rw [if_neg (by simp [other.1]), if_neg other.2, Reader.add, if_neg (by simpa using short)]

theorem process_startField (other : separates c = false) (unquoted : c ≠ '"') :
    Reader.process ⟨.startField, [], done⟩ c = .ok ⟨.inField, [c], done⟩ := by
  unfold separates at other
  rw [Bool.or_eq_false_iff, decide_eq_false_iff_not] at other
  unfold Reader.process Reader.processStart
  dsimp only
  rw [if_neg (by simp [other.1]), if_neg unquoted, if_neg other.2]
  rfl

/-- The characters of a plain field are added to it. -/
theorem recordsFrom_inField (whole : ∀ c ∈ field, separates c = false)
    (short : (acc ++ field).length ≤ fieldSizeLimit) (more : rest ≠ []) :
    recordsFrom ⟨.inField, acc, done⟩ (field ++ rest) =
      recordsFrom ⟨.inField, acc ++ field, done⟩ rest := by
  induction field generalizing acc with
  | nil => rw [List.append_nil, List.nil_append]
  | cons c field ih =>
      have other := whole c List.mem_cons_self
      have room : acc.length < fieldSizeLimit := by
        rw [List.length_append, List.length_cons] at short
        omega
      have newline : isNewline c = false := (Bool.or_eq_false_iff.mp other).1
      rw [List.cons_append, recordsFrom_cons (process_inField other room),
        endsLine_eq_false newline (by simp [more]), if_neg Bool.false_ne_true,
        ih (fun c' member => whole c' (List.mem_cons_of_mem c member)) (by simpa using short),
        List.append_assoc]
      rfl

theorem recordsFrom_field (plain : Plain (c :: field)) (more : rest ≠ []) :
    recordsFrom ⟨.startField, [], done⟩ (c :: field ++ rest) =
      recordsFrom ⟨.inField, c :: field, done⟩ rest := by
  have other := plain.whole c List.mem_cons_self
  have unquoted : c ≠ '"' := fun quote => plain.unquoted (by simp [quote])
  have newline : isNewline c = false := (Bool.or_eq_false_iff.mp other).1
  rw [List.cons_append, recordsFrom_cons (process_startField other unquoted),
    endsLine_eq_false newline (by simp [more]), if_neg Bool.false_ne_true,
    recordsFrom_inField (fun c' member => plain.whole c' (List.mem_cons_of_mem c member))
      (by simpa [Nat.add_comm] using plain.short) more]
  rfl

/-- A field and a comma. -/
theorem recordsFrom_comma (plain : Plain field) (more : rest ≠ []) :
    recordsFrom ⟨.startField, [], done⟩ (field ++ ',' :: rest) =
      recordsFrom ⟨.startField, [], done ++ [field]⟩ rest := by
  cases field with
  | nil =>
      rw [List.nil_append, recordsFrom_cons rfl, endsLine_eq_false (by decide) more]
      rfl
  | cons c field =>
      rw [recordsFrom_field plain (by simp), recordsFrom_cons rfl,
        endsLine_eq_false (by decide) more]
      rfl

/-- The last field of a line. -/
theorem recordsFrom_newline (plain : Plain field) :
    recordsFrom ⟨.startField, [], done⟩ (field ++ '\n' :: rest) =
      (recordsFrom .start rest).map ((done ++ [field]) :: ·) := by
  have ended : endsLine '\n' rest = true := rfl
  cases field with
  | nil =>
      rw [List.nil_append, recordsFrom_cons rfl, ended]
      rfl
  | cons c field =>
      rw [recordsFrom_field plain (by simp), recordsFrom_cons rfl, ended]
      rfl

end Fields

/-! ## Fields that do not read back -/

section Unreadable

variable {r : Reader} {done tail : Record} {later : List Record} {acc field rest : List Char}
  {c sep : Char} {out : List Record}

theorem field_eq {field field' : List Char} {tail tail' : Record}
    (same : done ++ field :: tail = done ++ field' :: tail') : field = field' :=
  (List.cons.inj (List.append_cancel_left same)).1

theorem next_eq {d : Char} {suffix suffix' : List Char}
    (same : acc ++ [c] ++ suffix = acc ++ d :: suffix') : c = d := by
  rw [List.append_assoc] at same
  exact (List.cons.inj (List.append_cancel_left same)).1

/-- A field that goes on is not closed. -/
theorem not_save {mode : Mode} {d : Char} {suffix : List Char}
    (processed : r.process c = .ok (r.save mode))
    (closed : mode = .startField ∨ mode = .eatNewline)
    (ran : recordsFrom r (c :: rest) = .ok out)
    (same : kept out = (r.fields ++ (r.field ++ d :: suffix) :: tail) :: later) : False := by
  obtain ⟨tail', shown⟩ := kept_save processed closed ran same
  simpa using field_eq shown

/-- Between quotes, a quote is read only where there is one. -/
theorem not_quote_of_quoted {suffix : List Char} (ran : recordsFrom r (c :: rest) = .ok out)
    (within : r.mode = .inQuoted ∨ r.mode = .quoteInQuoted) (other : c ≠ '"')
    (same : kept out = (r.fields ++ (r.field ++ '"' :: suffix) :: tail) :: later) : False := by
  obtain ⟨r', processed⟩ := process_of_recordsFrom ran
  cases Reader.step_of_process processed with
  | skip outside newline => rcases within with mode | mode <;> simp [mode] at outside
  | close unquoted separator =>
      exact not_save processed (separator.imp And.right And.right) ran same
  | openQuote outside quote => exact other quote
  | quote quoted quote => exact other quote
  | plain short unquoted newline =>
      obtain ⟨suffix', tail', shown⟩ := kept_field processed (.inl rfl) ran same
      exact other (next_eq (field_eq shown).symm)
  | quoted short quoted =>
      obtain ⟨suffix', tail', shown⟩ := kept_field processed (.inr rfl) ran same
      exact other (next_eq (field_eq shown).symm)

theorem replicate_quote {j m : Nat} (less : j < m) : List.replicate m '"' ++ field =
    List.replicate j '"' ++ '"' :: (List.replicate (m - j - 1) '"' ++ field) := by
  obtain ⟨k, rfl⟩ := Nat.exists_eq_add_of_lt less
  rw [Nat.add_assoc, List.replicate_add, List.append_assoc, List.replicate_succ,
    show j + (k + 1) - j - 1 = k by omega]
  rfl

theorem separates_quote : separates '"' = false := by decide

/-- A field with quotes in front does not read back: of those after the first, every
other one is lost. -/
theorem not_quotes_of_kept {j m : Nat} {mode : Mode} (ends : separates sep = true) (lost : j < m)
    (within : mode = .inQuoted ∨ mode = .quoteInQuoted)
    (ran : recordsFrom ⟨mode, List.replicate j '"', done⟩ (field ++ sep :: rest) = .ok out)
    (same : kept out = (done ++ (List.replicate m '"' ++ field) :: tail) :: later) : False := by
  induction field generalizing j m mode with
  | nil =>
      have notQuote : sep ≠ '"' := fun quote => by simp [quote, separates_quote] at ends
      rw [replicate_quote lost] at same
      exact not_quote_of_quoted ran within notQuote same
  | cons c field ih =>
      by_cases quote : c = '"'
      · subst quote
        have one : List.replicate m '"' ++ '"' :: field =
            List.replicate (m + 1) '"' ++ field := by
          rw [List.replicate_succ', List.append_assoc]
          rfl
        have within' : endsLine '"' (field ++ sep :: rest) = false :=
          endsLine_eq_false (by decide) (by simp)
        rw [one] at same
        rcases within with rfl | rfl
        · rw [List.cons_append, recordsFrom_cons rfl, within', if_neg Bool.false_ne_true] at ran
          exact ih (by omega) (.inr rfl) ran same
        · obtain ⟨r', processed⟩ := process_of_recordsFrom ran
          obtain ⟨-, rfl⟩ := add_eq_ok
            (show Reader.add _ .inQuoted '"' = .ok r' from processed)
          rw [List.cons_append, recordsFrom_cons processed, within',
            if_neg Bool.false_ne_true] at ran
          dsimp only at ran
          rw [← List.replicate_succ'] at ran
          exact ih (by omega) (.inl rfl) ran same
      · rw [replicate_quote lost] at same
        exact not_quote_of_quoted ran within quote same

/-- What is read back from a field that is being read is plain. -/
theorem plain_of_inField (short : acc.length ≤ fieldSizeLimit)
    (ran : recordsFrom ⟨.inField, acc, done⟩ (field ++ sep :: rest) = .ok out)
    (same : kept out = (done ++ (acc ++ field) :: tail) :: later) :
    (∀ c ∈ field, separates c = false) ∧ (acc ++ field).length ≤ fieldSizeLimit := by
  induction field generalizing acc with
  | nil => exact ⟨by simp, by simpa using short⟩
  | cons c field ih =>
      obtain ⟨r', processed⟩ := process_of_recordsFrom ran
      cases Reader.step_of_process processed with
      | skip outside newline => simp at outside
      | close unquoted separator =>
          exact (not_save processed (separator.imp And.right And.right) ran same).elim
      | openQuote outside quote => simp at outside
      | quote quoted quote => simp at quoted
      | plain room unquoted other =>
          have newline : isNewline c = false := (Bool.or_eq_false_iff.mp other).1
          rw [List.cons_append, recordsFrom_cons processed,
            endsLine_eq_false newline (by simp), if_neg Bool.false_ne_true] at ran
          have room' : (acc ++ [c]).length ≤ fieldSizeLimit := by
            rw [List.length_append]
            exact room
          obtain ⟨whole, short'⟩ := ih room' ran (by simpa using same)
          exact ⟨List.forall_mem_cons.mpr ⟨other, whole⟩, by simpa using short'⟩
      | quoted short quoted => simp at quoted

/-- What is read back from a field is plain. -/
theorem plain_of_startField (ends : separates sep = true)
    (ran : recordsFrom ⟨.startField, [], done⟩ (field ++ sep :: rest) = .ok out)
    (same : kept out = (done ++ field :: tail) :: later) : Plain field := by
  cases field with
  | nil => exact ⟨by simp, by simp, Nat.zero_le _⟩
  | cons c field =>
      have unquoted : c ≠ '"' := by
        intro quote
        subst quote
        rw [List.cons_append, recordsFrom_cons rfl, endsLine_eq_false (by decide) (by simp),
          if_neg Bool.false_ne_true] at ran
        exact @not_quotes_of_kept done tail later field rest sep out 0 1 _ ends Nat.one_pos
          (.inl rfl) ran same
      obtain ⟨r', processed⟩ := process_of_recordsFrom ran
      cases Reader.step_of_process processed with
      | skip outside newline => simp at outside
      | close outside separator =>
          exact (not_save processed (separator.imp And.right And.right) ran same).elim
      | openQuote outside quote => exact absurd quote unquoted
      | quote quoted quote => simp at quoted
      | plain room outside other =>
          have newline : isNewline c = false := (Bool.or_eq_false_iff.mp other).1
          rw [List.cons_append, recordsFrom_cons processed,
            endsLine_eq_false newline (by simp), if_neg Bool.false_ne_true] at ran
          obtain ⟨whole, short⟩ := plain_of_inField (by simp [fieldSizeLimit]) ran
            (by simpa using same)
          exact ⟨List.forall_mem_cons.mpr ⟨other, whole⟩, by simpa using unquoted,
            by simpa using short⟩
      | quoted short quoted => simp at quoted

end Unreadable

/-! ## Joined lines -/

/-- A line with the fields as they are. -/
def joined (fields : Record) : List Char := [','].intercalate fields ++ ['\n']

def joinedText (rows : List Record) : List Char := rows.flatMap joined

section Joined

variable {done fields : Record} {rows out later : List Record} {field text rest : List Char}

theorem joined_cons (more : fields ≠ []) :
    joined (field :: fields) = field ++ ',' :: joined fields := by
  cases fields with
  | nil => exact absurd rfl more
  | cons next fields => simp [joined, List.intercalate, List.intersperse]

theorem length_joined (some' : fields ≠ []) : (joined fields).length = recordWeight fields := by
  induction fields with
  | nil => exact absurd rfl some'
  | cons field fields ih =>
      by_cases last : fields = []
      · subst last
        simp [joined, recordWeight, List.intercalate]
      · rw [joined_cons last, List.length_append, List.length_cons, ih last, recordWeight,
          recordWeight, List.map_cons, List.sum_cons]
        omega

theorem recordsFrom_joined (some' : fields ≠ []) (plain : ∀ field ∈ fields, Plain field) :
    recordsFrom ⟨.startField, [], done⟩ (joined fields ++ rest) =
      (recordsFrom .start rest).map ((done ++ fields) :: ·) := by
  induction fields generalizing done with
  | nil => exact absurd rfl some'
  | cons field fields ih =>
      have own := plain field List.mem_cons_self
      by_cases last : fields = []
      · subst last
        rw [show joined [field] ++ rest = field ++ '\n' :: rest by simp [joined, List.intercalate]]
        exact recordsFrom_newline own
      · rw [joined_cons last, List.append_assoc, List.cons_append,
          recordsFrom_comma own (by simp [joined]),
          ih last fun field' member => plain field' (List.mem_cons_of_mem field member),
          List.append_assoc]
        rfl

/-- A line that does not look blank begins with its first field. -/
theorem recordsFrom_start {c : Char} (other : isNewline c = false) :
    recordsFrom .start (c :: rest) = recordsFrom ⟨.startField, [], []⟩ (c :: rest) := by
  have same : Reader.start.process c = Reader.process ⟨.startField, [], []⟩ c := by
    unfold Reader.process Reader.start
    dsimp only
    rw [other]
    rfl
  rw [recordsFrom, recordsFrom, same]

/-- A record of several plain fields. -/
theorem recordsFrom_line (several : 2 ≤ fields.length) (plain : ∀ field ∈ fields, Plain field) :
    recordsFrom .start (joined fields ++ rest) =
      (recordsFrom .start rest).map (fields :: ·) := by
  obtain ⟨c, text, same, other⟩ : ∃ c text, joined fields ++ rest = c :: text ∧
      isNewline c = false := by
    match fields, several with
    | field :: next :: fields, _ =>
        rw [joined_cons (by simp)]
        cases field with
        | nil => exact ⟨',', _, rfl, by decide⟩
        | cons c field =>
            have whole := (plain _ List.mem_cons_self).whole c List.mem_cons_self
            exact ⟨c, _, rfl, (Bool.or_eq_false_iff.mp whole).1⟩
  rw [same, recordsFrom_start other, ← same, recordsFrom_joined (by rintro rfl; simp at several)
    plain]
  rfl

/-- Lines of plain fields read back. -/
theorem recordsFrom_joinedText (several : ∀ row ∈ rows, 2 ≤ row.length)
    (plain : ∀ row ∈ rows, ∀ field ∈ row, Plain field) :
    recordsFrom .start (joinedText rows) = .ok rows := by
  induction rows with
  | nil => rfl
  | cons row rows ih =>
      rw [joinedText, List.flatMap_cons, ← joinedText,
        recordsFrom_line (several row List.mem_cons_self) (plain row List.mem_cons_self),
        ih (fun row' member => several row' (List.mem_cons_of_mem row member))
          fun row' member => plain row' (List.mem_cons_of_mem row member)]
      rfl

/-- A line that reads back has plain fields. -/
theorem plain_of_joined
    (ran : recordsFrom ⟨.startField, [], done⟩ (joined fields ++ rest) = .ok out)
    (same : kept out = (done ++ fields) :: later) : ∀ field ∈ fields, Plain field := by
  induction fields generalizing done with
  | nil => simp
  | cons field fields ih =>
      by_cases last : fields = []
      · subst last
        rw [show joined [field] ++ rest = field ++ '\n' :: rest by
          simp [joined, List.intercalate]] at ran
        simpa using plain_of_startField (by decide) ran same
      · rw [joined_cons last, List.append_assoc, List.cons_append] at ran
        have own := plain_of_startField (by decide) ran same
        rw [recordsFrom_comma own (by simp [joined])] at ran
        intro field' member
        rcases List.mem_cons.mp member with rfl | later'
        · exact own
        · exact ih ran (by simpa using same) field' later'

theorem isNewline_of_getLast?_joinedText {c : Char}
    (last : (joinedText rows).getLast? = some c) : isNewline c = true := by
  induction rows using List.reverseRecOn with
  | nil => cases last
  | append_singleton rows row =>
      have final : (joinedText (rows ++ [row])).getLast? = some '\n' := by
        simp [joinedText, joined]
      rw [final, Option.some.injEq] at last
      rw [← last]
      rfl

theorem length_joinedText (some' : ∀ row ∈ rows, row ≠ []) :
    (joinedText rows).length = weight rows := by
  induction rows with
  | nil => rfl
  | cons row rows ih =>
      rw [joinedText, List.flatMap_cons, List.length_append, ← joinedText,
        length_joined (some' row List.mem_cons_self),
        ih fun row' member => some' row' (List.mem_cons_of_mem row member), weight, weight,
        List.map_cons, List.sum_cons]

theorem weight_kept : weight (kept out) = weight out := by
  induction out with
  | nil => rfl
  | cons record out ih =>
      unfold weight kept at ih ⊢
      cases record with
      | nil => simpa [recordWeight] using ih
      | cons field record => simpa using ih

theorem weight_cons (record : Record) (out : List Record) :
    weight (record :: out) = recordWeight record + weight out := by
  simp [weight]

theorem weight_sublist {part : List Record} (sublist : part.Sublist out) :
    weight part ≤ weight out := by
  induction sublist with
  | slnil => exact Nat.le_refl 0
  | cons record sublist ih =>
      rw [weight_cons]
      omega
  | cons_cons record sublist ih =>
      rw [weight_cons, weight_cons]
      omega

theorem recordWeight_pos {record : Record} (some' : record ≠ []) : 0 < recordWeight record := by
  cases record with
  | nil => exact absurd rfl some'
  | cons field record =>
      rw [recordWeight, List.map_cons, List.sum_cons]
      omega

/-- A part of some records is all of them, if it has as much. -/
theorem eq_of_sublist {part : List Record} (sublist : part.Sublist out)
    (nonempty : ∀ record ∈ out, record ≠ []) (heavy : weight out ≤ weight part) : part = out := by
  induction sublist with
  | slnil => rfl
  | @cons part out record sublist ih =>
      have rest := weight_sublist sublist
      have own := recordWeight_pos (nonempty record List.mem_cons_self)
      rw [weight_cons] at heavy
      omega
  | @cons_cons part out record sublist ih =>
      rw [weight_cons, weight_cons] at heavy
      rw [ih (fun record' member => nonempty record' (List.mem_cons_of_mem record member))
        (by omega)]

/-- A first line that looks blank is lost, and with it a character. -/
theorem weight_of_newline {c : Char} (ran : recordsFrom .start (c :: text) = .ok out)
    (newline : isNewline c = true)
    (lines : ∀ c', (c :: text).getLast? = some c' → isNewline c' = true) :
    weight out ≤ text.length := by
  have processed : Reader.start.process c = .ok ⟨.eatNewline, [], []⟩ := by
    unfold Reader.process Reader.start
    dsimp only
    rw [if_pos newline]
  have lines' : ∀ c', text.getLast? = some c' → isNewline c' = true := by
    intro c' last
    apply lines c'
    rw [List.getLast?_cons, last]
    rfl
  rw [recordsFrom_cons processed] at ran
  split at ran
  · obtain ⟨later, ran', rfl⟩ := map_eq_ok.mp ran
    have bound := weight_recordsFrom ran' lines' fun _ => .inr rfl
    simpa [weight, recordWeight, Reader.weight, Reader.start] using bound
  · have bound := weight_recordsFrom ran lines' fun _ => .inr rfl
    simpa [recordWeight, Reader.weight] using bound

/-- Lines that read back have plain fields. -/
theorem plain_of_joinedText (several : ∀ row ∈ rows, 2 ≤ row.length)
    (ran : recordsFrom .start (joinedText rows) = .ok out) (same : kept out = rows) :
    ∀ row ∈ rows, ∀ field ∈ row, Plain field := by
  induction rows generalizing out with
  | nil => simp
  | cons row rows ih =>
      have nonempty : ∀ row' ∈ row :: rows, row' ≠ [] := by
        intro row' member empty
        have two := several row' member
        simp [empty] at two
      have whole : (joinedText (row :: rows)).length = weight out := by
        rw [length_joinedText nonempty, ← same, weight_kept]
      have front : joinedText (row :: rows) = joined row ++ joinedText rows := rfl
      have own : ∀ field ∈ row, Plain field := by
        cases text : joinedText (row :: rows) with
        | nil =>
            rw [front] at text
            simp [joined] at text
        | cons c text' =>
            by_cases newline : isNewline c = true
            · rw [text] at ran whole
              have bound := weight_of_newline ran newline fun c' last =>
                isNewline_of_getLast?_joinedText (text ▸ last)
              rw [List.length_cons] at whole
              omega
            · rw [text, recordsFrom_start (Bool.eq_false_iff.mpr newline), ← text, front] at ran
              exact plain_of_joined ran same
      have two := several row List.mem_cons_self
      rw [front, recordsFrom_line two own] at ran
      obtain ⟨later, ran', rfl⟩ := map_eq_ok.mp ran
      have same' : kept later = rows := by
        unfold kept at same
        rw [List.filter_cons_of_pos (by simpa using nonempty row List.mem_cons_self)] at same
        exact (List.cons.inj same).2
      intro row' member
      rcases List.mem_cons.mp member with rfl | others
      · exact own
      · exact ih (fun row' member => several row' (List.mem_cons_of_mem row member)) ran' same'
          row' others

/-- Where all that was written is read, nothing else is. -/
theorem kept_eq_of_sublist (several : ∀ row ∈ rows, 2 ≤ row.length)
    (ran : recordsFrom .start (joinedText rows) = .ok out) (sublist : rows.Sublist (kept out)) :
    kept out = rows := by
  have nonempty : ∀ row ∈ rows, row ≠ [] := by
    intro row member empty
    have two := several row member
    simp [empty] at two
  refine (eq_of_sublist sublist ?_ ?_).symm
  · intro record member
    simpa using (List.mem_filter.mp member).2
  · have bound := weight_recordsFrom ran (fun c => isNewline_of_getLast?_joinedText)
      fun _ => .inr rfl
    have empty : Reader.start.weight = 0 := rfl
    rw [length_joinedText nonempty] at bound
    rw [weight_kept]
    omega

/-- **What reads back as it was written**, with no quotes written. -/
theorem reads_joined_iff (several : ∀ row ∈ rows, 2 ≤ row.length) :
    (∃ out, recordsFrom .start (joinedText rows) = .ok out ∧ kept out = rows) ↔
      ∀ row ∈ rows, ∀ field ∈ row, Plain field := by
  refine ⟨?_, ?_⟩
  · intro read
    rcases read with ⟨out, ran, same⟩
    exact plain_of_joinedText several ran same
  · intro plain
    refine ⟨rows, recordsFrom_joinedText several plain, ?_⟩
    apply List.filter_eq_self.mpr
    intro row member
    have two := several row member
    cases row with
    | nil => simp at two
    | cons field row => simp

end Joined

end MiddlewareBench.CsvText
