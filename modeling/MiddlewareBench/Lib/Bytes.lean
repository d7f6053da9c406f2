import Mathlib.Algebra.Group.Nat.Defs
import Mathlib.Data.List.Basic

/-!
# Byte blocks

Little-endian words and the copies of a flat byte block.

`leBytes width value` is the memory image of an unsigned `value` of `width`
bytes and `leNat` reads one back. `slice` and `writeAt` are the two directions
of a `memcpy`; `readChecked` and `writeChecked` are the same copies, defined
only when they stay inside the block, so that a program built from them
returns a value exactly when it makes no access out of bounds.
-/

namespace MiddlewareBench.Bytes

abbrev Block := List UInt8

/-! ## Little-endian words -/

/-- The `width` low bytes of `value`, least significant first. -/
def leBytes : Nat → Nat → Block
  | 0, _ => []
  | width + 1, value => UInt8.ofNat value :: leBytes width (value / 256)

/-- The number a little-endian byte string denotes. -/
def leNat : Block → Nat
  | [] => 0
  | byte :: rest => byte.toNat + 256 * leNat rest

@[simp] theorem length_leBytes (width value : Nat) :
    (leBytes width value).length = width := by
  induction width generalizing value with
  | zero => rfl
  | succ width ih => simp only [leBytes, List.length_cons, ih]

theorem leNat_leBytes (width value : Nat) :
    leNat (leBytes width value) = value % 256 ^ width := by
  induction width generalizing value with
  | zero => simp only [leBytes, leNat, Nat.pow_zero, Nat.mod_one]
  | succ width ih =>
      have low : (UInt8.ofNat value).toNat = value % 256 := UInt8.toNat_ofNat
      rw [leBytes, leNat, ih, low, Nat.pow_succ, Nat.mul_comm (256 ^ width),
        Nat.mod_mul]

theorem leNat_leBytes_of_lt {width value : Nat} (fits : value < 256 ^ width) :
    leNat (leBytes width value) = value := by
  rw [leNat_leBytes, Nat.mod_eq_of_lt fits]

@[simp] theorem ofNat_leNat_u16 (word : UInt16) :
    UInt16.ofNat (leNat (leBytes 2 word.toNat)) = word := by
  rw [leNat_leBytes_of_lt word.toNat_lt, UInt16.ofNat_toNat]

@[simp] theorem ofNat_leNat_u32 (word : UInt32) :
    UInt32.ofNat (leNat (leBytes 4 word.toNat)) = word := by
  rw [leNat_leBytes_of_lt word.toNat_lt, UInt32.ofNat_toNat]

@[simp] theorem ofNat_leNat_u64 (word : UInt64) :
    UInt64.ofNat (leNat (leBytes 8 word.toNat)) = word := by
  rw [leNat_leBytes_of_lt word.toNat_lt, UInt64.ofNat_toNat]

/-! ## Copies out of a block -/

/-- The `n` bytes of `block` from offset `off`. -/
def slice (block : Block) (off n : Nat) : Block :=
  (block.drop off).take n

theorem length_slice {block : Block} {off n : Nat} (inside : off + n ≤ block.length) :
    (slice block off n).length = n := by
  rw [slice, List.length_take, List.length_drop]
  omega

/-- A slice of a slice is a slice of the block. -/
theorem slice_slice {block : Block} {off n inner m : Nat} (inside : inner + m ≤ n) :
    slice (slice block off n) inner m = slice block (off + inner) m := by
  rw [slice, slice, slice, List.drop_take, List.take_take, List.drop_drop,
    Nat.min_eq_left (by omega)]

theorem slice_append_left {left right : Block} {off n : Nat}
    (inside : off + n ≤ left.length) :
    slice (left ++ right) off n = slice left off n := by
  rw [slice, slice, List.drop_append_of_le_length (by omega),
    List.take_append_of_le_length (by rw [List.length_drop]; omega)]

theorem slice_append_right {left right : Block} {off n : Nat}
    (after : left.length ≤ off) :
    slice (left ++ right) off n = slice right (off - left.length) n := by
  rw [slice, slice, List.drop_append, List.drop_eq_nil_of_le after, List.nil_append]

theorem slice_take {block : Block} {off n m : Nat} (inside : off + n ≤ m) :
    slice (block.take m) off n = slice block off n := by
  rw [slice, slice, List.drop_take, List.take_take, Nat.min_eq_left (by omega)]

theorem slice_all (block : Block) : slice block 0 block.length = block := by
  rw [slice, List.drop_zero, List.take_length]

/-! ## Copies into a block -/

/-- `block` with `src` copied over it from offset `off`. -/
def writeAt (block : Block) (off : Nat) (src : Block) : Block :=
  block.take off ++ src ++ block.drop (off + src.length)

theorem length_writeAt {block src : Block} {off : Nat}
    (inside : off + src.length ≤ block.length) :
    (writeAt block off src).length = block.length := by
  simp only [writeAt, List.length_append, List.length_take, List.length_drop]
  omega

/-- Reading back the bytes just written. -/
theorem slice_writeAt_same {block src : Block} {off n : Nat}
    (inside : off + n ≤ block.length) (width : src.length = n) :
    slice (writeAt block off src) off n = src := by
  subst width
  have prefixLength : (block.take off).length = off := by
    rw [List.length_take]
    omega
  rw [writeAt, List.append_assoc, slice_append_right (by omega), prefixLength, Nat.sub_self,
    slice_append_left (by omega), slice_all]

/-- A copy changes no byte before its first one. -/
theorem slice_writeAt_before {block src : Block} {off at' n : Nat}
    (inside : at' + src.length ≤ block.length) (before : off + n ≤ at') :
    slice (writeAt block at' src) off n = slice block off n := by
  rw [writeAt, List.append_assoc, slice_append_left (by rw [List.length_take]; omega),
    slice_take before]

/-- A copy changes no byte from its end on. -/
theorem slice_writeAt_after {block src : Block} {off at' n : Nat}
    (inside : at' + src.length ≤ block.length) (after : at' + src.length ≤ off) :
    slice (writeAt block at' src) off n = slice block off n := by
  have writtenLength : (block.take at' ++ src).length = at' + src.length := by
    rw [List.length_append, List.length_take]
    omega
  rw [writeAt, slice_append_right (by omega), writtenLength, slice, slice, List.drop_drop]
  congr 2
  omega

/-! ## Checked copies -/

/-- Copy `n` bytes out of `block`, if they are all there. -/
def readChecked (block : Block) (off n : Nat) : Option Block :=
  if off + n ≤ block.length then some (slice block off n) else none

/-- Copy `src` into `block`, if it fits. -/
def writeChecked (block : Block) (off : Nat) (src : Block) : Option Block :=
  if off + src.length ≤ block.length then some (writeAt block off src) else none

theorem length_of_writeChecked {block src written : Block} {off : Nat}
    (wrote : writeChecked block off src = some written) : written.length = block.length := by
  unfold writeChecked at wrote
  split at wrote
  · rename_i inside
    cases wrote
    exact length_writeAt inside
  · cases wrote

theorem readChecked_of_le {block : Block} {off n : Nat} (inside : off + n ≤ block.length) :
    readChecked block off n = some (slice block off n) :=
  if_pos inside

theorem writeChecked_of_le {block src : Block} {off : Nat}
    (inside : off + src.length ≤ block.length) :
    writeChecked block off src = some (writeAt block off src) :=
  if_pos inside

end MiddlewareBench.Bytes
