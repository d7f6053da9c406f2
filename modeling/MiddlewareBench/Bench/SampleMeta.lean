import MiddlewareBench.Lib.Bytes

/-!
# Reading a sample

`ReadSampleMeta` of `bench_sample.h`, which the benches and the network programs run on
whatever they receive. Every position it reads at is computed from earlier bytes of the
message, and only the length is tested. A read outside of the message is the value
`none`, so that a call makes no such read exactly when it returns (`inBounds_iff`).

FlatBuffers and the code generated from `Bench.fbs` are a parameter, and
`FlatReader.Documented` is what is known of them.
-/

namespace MiddlewareBench.Bench

open Bytes

/-! ## Words of a message -/

/-- The word at a position, which may be anywhere. -/
def readWord (data : Block) (at' : Int) (width : Nat) : Option Nat :=
  if 0 ≤ at' then (readChecked data at'.toNat width).map leNat else none

/-- The word at a position inside of the message. -/
def wordAt (data : Block) (at' : Int) (width : Nat) : Nat :=
  leNat (slice data at'.toNat width)

theorem readWord_eq (data : Block) (at' : Int) (width : Nat) : readWord data at' width =
    if 0 ≤ at' ∧ at' + width ≤ data.length then some (wordAt data at' width) else none := by
  unfold readWord
  split
  · rename_i nonneg
    unfold readChecked
    split
    · rename_i inside
      rw [if_pos (by omega)]
      rfl
    · rename_i outside
      rw [if_neg (by omega)]
      rfl
  · rename_i negative
    rw [if_neg fun inside => negative inside.1]

/-! ## FlatBuffers -/

/-- `GetRoot`, which yields the position of a table, and the accessor of a scalar field
of 64 bits, named by its place in the vtable. -/
structure FlatReader where
  getRoot : Block → Option Int
  getField : Block → (table : Int) → (field : Nat) → Option UInt64

/-- A vtable begins with its size, and holds a slot for each field up to there. -/
def optionalFieldOffset (data : Block) (vtable : Int) (field : Nat) : Option Nat := do
  let size ← readWord data vtable 2
  if field < size then readWord data (vtable + field) 2 else return 0

/-- The signed offset at a table leads back to its vtable. A field without a slot, or
with an empty one, has its default. -/
def documentedField (data : Block) (table : Int) (field : Nat) : Option UInt64 := do
  let soffset ← readWord data table 4
  let slot ← optionalFieldOffset data (table - (Int32.ofNat soffset).toInt) field
  if slot = 0 then return 0
  else (readWord data (table + slot) 8).map UInt64.ofNat

/-- What the format says of the reads; nothing is verified before. -/
structure FlatReader.Documented (fb : FlatReader) : Prop where
  getRoot : ∀ data, fb.getRoot data = (readWord data 0 4).map Int.ofNat
  getField : ∀ data table field, fb.getField data table field = documentedField data table field

/-! ## ReadSampleMeta -/

/-- The places of the fields of `Sample`. -/
def vtSeq : Nat := 4
def vtSendNs : Nat := 6

/-- What is written through the output pointers that are given. -/
structure SampleMeta where
  seq : Option UInt64
  sendNs : Option UInt64
  deriving DecidableEq, Repr

/-- `some none` is the result `false`. -/
def readSampleMeta (fb : FlatReader) (data : Option Block) (seqOut sendNsOut : Bool) :
    Option (Option SampleMeta) :=
  match data with
  | none => some none
  | some data =>
    if data.length < 8 then some none
    else do
      let sample ← fb.getRoot data
      let seq ← if seqOut then (fb.getField data sample vtSeq).map some else some none
      let sendNs ← if sendNsOut then (fb.getField data sample vtSendNs).map some else some none
      return some { seq, sendNs }

/-! ## Where the reads are -/

section Positions

variable (data : Block) (field : Nat)

def tablePos : Int := wordAt data 0 4

def vtablePos : Int := tablePos data - (Int32.ofNat (wordAt data (tablePos data) 4)).toInt

def vtableSize : Nat := wordAt data (vtablePos data) 2

/-- The slot of the field, if the vtable has one. -/
def slotOf : Nat :=
  if field < vtableSize data then wordAt data (vtablePos data + field) 2 else 0

/-- The offset of the table, its vtable, the slot of the field if there is one and the
value if the slot is not empty: each ends before the message does, and the vtable does
not begin before the message. -/
structure FieldInside : Prop where
  table : tablePos data + 4 ≤ data.length
  nonneg : 0 ≤ vtablePos data
  vtable : vtablePos data + 2 ≤ data.length
  slot : field < vtableSize data → vtablePos data + field + 2 ≤ data.length
  value : slotOf data field ≠ 0 → tablePos data + slotOf data field + 8 ≤ data.length

instance : Decidable (FieldInside data field) :=
  decidable_of_iff (_ ∧ _ ∧ _ ∧ (field < vtableSize data → _) ∧ (slotOf data field ≠ 0 → _))
    ⟨fun ⟨table, nonneg, vtable, slot, value⟩ => ⟨table, nonneg, vtable, slot, value⟩,
      fun inside => ⟨inside.table, inside.nonneg, inside.vtable, inside.slot, inside.value⟩⟩

end Positions

section Reads

variable {data : Block} {at' : Int} {width field : Nat} {α : Type}

/-- What begins with a read stays inside of the message if the read does and the rest
does. -/
theorem isSome_readWord_bind {next : Nat → Option α} : (readWord data at' width >>= next).isSome ↔
    0 ≤ at' ∧ at' + width ≤ data.length ∧ (next (wordAt data at' width)).isSome := by
  rw [readWord_eq]
  split
  · rename_i inside
    exact ⟨fun ran => ⟨inside.1, inside.2, ran⟩, fun ran => ran.2.2⟩
  · rename_i outside
    exact iff_of_false Bool.false_ne_true fun inside => outside ⟨inside.1, inside.2.1⟩

theorem isSome_readWord : (readWord data at' width).isSome ↔
    0 ≤ at' ∧ at' + width ≤ data.length := by
  rw [readWord_eq]
  split
  · rename_i inside
    exact iff_of_true rfl inside
  · rename_i outside
    exact iff_of_false Bool.false_ne_true outside

theorem tablePos_nonneg : 0 ≤ tablePos data := Int.natCast_nonneg _

theorem isSome_optionalFieldOffset_bind {next : Nat → Option α} :
    (optionalFieldOffset data (vtablePos data) field >>= next).isSome ↔
      0 ≤ vtablePos data ∧ vtablePos data + 2 ≤ data.length ∧
        (field < vtableSize data → vtablePos data + field + 2 ≤ data.length) ∧
          (next (slotOf data field)).isSome := by
  unfold optionalFieldOffset
  rw [bind_assoc, isSome_readWord_bind]
  refine and_congr_right fun nonneg => and_congr_right fun _ => ?_
  unfold slotOf
  rw [← vtableSize]
  by_cases listed : field < vtableSize data
  · rw [if_pos listed, if_pos listed, isSome_readWord_bind]
    exact ⟨fun ran => ⟨fun _ => ran.2.1, ran.2.2⟩, fun ran => ⟨by omega, ran.1 listed, ran.2⟩⟩
  · rw [if_neg listed, if_neg listed]
    exact ⟨fun ran => ⟨fun listed' => absurd listed' listed, ran⟩, fun ran => ran.2⟩

/-- A field is read without leaving the message exactly when it is inside. -/
theorem isSome_documentedField :
    (documentedField data (tablePos data) field).isSome ↔ FieldInside data field := by
  unfold documentedField
  rw [isSome_readWord_bind, ← vtablePos, isSome_optionalFieldOffset_bind]
  have value : (if slotOf data field = 0 then return 0 else
      (readWord data (tablePos data + slotOf data field) 8).map UInt64.ofNat :
        Option UInt64).isSome ↔ (slotOf data field ≠ 0 →
          tablePos data + slotOf data field + 8 ≤ data.length) := by
    by_cases empty : slotOf data field = 0
    · rw [if_pos empty]
      exact iff_of_true rfl fun used => absurd empty used
    · rw [if_neg empty, Option.isSome_map, isSome_readWord]
      have nonneg := @tablePos_nonneg data
      exact ⟨fun inside _ => inside.2, fun inside => ⟨by omega, inside empty⟩⟩
  rw [value]
  refine ⟨?_, ?_⟩
  · intro inside
    rcases inside with ⟨-, table, nonneg, vtable, slot, value⟩
    exact ⟨table, nonneg, vtable, slot, value⟩
  · intro inside
    exact ⟨tablePos_nonneg, inside.table, inside.nonneg, inside.vtable, inside.slot, inside.value⟩

/-- A field that nobody asks for is not read. -/
theorem isSome_requested_bind {out : Bool} {read : Option UInt64}
    {next : Option UInt64 → Option α} {p : Prop} (rest : ∀ value, (next value).isSome ↔ p) :
    (if out then (read.map some).bind next else next none).isSome ↔
      (out → read.isSome) ∧ p := by
  cases out with
  | false => exact (rest none).trans (and_iff_right nofun).symm
  | true =>
      cases read with
      | none => exact iff_of_false Bool.false_ne_true fun both => Bool.false_ne_true (both.1 rfl)
      | some value => exact (rest (some value)).trans (and_iff_right fun _ => rfl).symm

end Reads

/-- **When `ReadSampleMeta` is safe.** For every message and every choice of output
pointers: the call returns `false` or reads inside of the message only, precisely when
the message is shorter than 8 bytes or has the requested fields inside. -/
theorem inBounds_iff (fb : FlatReader) (documented : fb.Documented) (data : Option Block)
    (seqOut sendNsOut : Bool) : (readSampleMeta fb data seqOut sendNsOut).isSome ↔
      ∀ message ∈ data, message.length < 8 ∨
        (seqOut → FieldInside message vtSeq) ∧ (sendNsOut → FieldInside message vtSendNs) := by
  cases data with
  | none => exact iff_of_true rfl nofun
  | some message =>
      simp only [Option.mem_some_iff, forall_eq']
      unfold readSampleMeta
      dsimp only
      by_cases short : message.length < 8
      · rw [if_pos short]
        exact iff_of_true rfl (.inl short)
      · have root : fb.getRoot message = some (tablePos message) := by
          rw [documented.getRoot, readWord_eq, if_pos (by omega)]
          rfl
        rw [if_neg short, root, or_iff_right short]
        simp only [Option.bind_eq_bind, Option.bind_some, documented.getField,
          ← isSome_documentedField]
        apply isSome_requested_bind
        intro seq
        exact (isSome_requested_bind fun _ => iff_of_true rfl trivial).trans (and_iff_left trivial)

/-- The accessors as the format has them. -/
def documentedReader : FlatReader where
  getRoot data := (readWord data 0 4).map Int.ofNat
  getField := documentedField

theorem documented_documentedReader : documentedReader.Documented where
  getRoot _ := rfl
  getField _ _ _ := rfl

/-- The offset of a table, its vtable of two slots, and the table with both fields. -/
def smallSample : Block :=
  [12, 0, 0, 0] ++ [8, 0, 20, 0, 4, 0, 12, 0] ++ [8, 0, 0, 0] ++ leBytes 8 7 ++ leBytes 8 9

theorem inBounds_iff_small :
    (readSampleMeta documentedReader (some smallSample) true true).isSome :=
  (inBounds_iff documentedReader documented_documentedReader (some smallSample) true true).mpr
    (by decide)

example : readSampleMeta documentedReader (some smallSample) true true =
    some (some ⟨some 7, some 9⟩) := by decide

/-- Eight bytes are enough for the test, not for the table they point to. -/
theorem not_inBounds_eight :
    ¬ (readSampleMeta documentedReader (some [100, 0, 0, 0, 0, 0, 0, 0]) true false).isSome := by
  decide

end MiddlewareBench.Bench
