import MiddlewareBench.Vsomeip.ChunkPlan
import MiddlewareBench.Vsomeip.ParseOptions

/-!
# How far a plan reaches

The numbers a plan is made from come from the command line and are bounded by
nothing but their 64 bits. For which of them the slices tile the frame
(`partitionsFrame_iff`) and no operation of `planChunks` wraps
(`arithmeticSound_iff`).
-/

namespace MiddlewareBench.Vsomeip

open Bytes EvenSplit

/-! ## The slices -/

/-- The slices of a plan cut a frame of `size` bytes into as few pieces as
datagrams of `maxDatagram` bytes allow. Each shares its datagram with an E2E
header, or with the hole for one. -/
structure Partitions (size maxDatagram : UInt64) (plan : ChunkPlan) : Prop where
  inside : ∀ c < plan.count.toNat, (plan.offset c).toNat < size.toNat
  nonempty : ∀ c < plan.count.toNat, 0 < (plan.sliceLen size c).toNat
  ordered : ∀ c d, c < d → d < plan.count.toNat →
    (plan.offset c).toNat + (plan.sliceLen size c).toNat ≤ (plan.offset d).toNat
  covers : ∀ x, x < size.toNat ↔ ∃ c < plan.count.toNat, (plan.offset c).toNat ≤ x ∧
    x < (plan.offset c).toNat + (plan.sliceLen size c).toNat
  budget : ∀ c < plan.count.toNat,
    kE2eHeaderBytes.toNat + (plan.sliceLen size c).toNat ≤ maxDatagram.toNat
  least : ∀ lens : List Nat, (∀ n ∈ lens, kE2eHeaderBytes.toNat + n ≤ maxDatagram.toNat) →
    lens.sum = size.toNat → plan.count.toNat ≤ lens.length

def PartitionsFrame (size maxDatagram : UInt64) : Prop :=
  ∃ plan, planChunks size maxDatagram = some plan ∧ Partitions size maxDatagram plan

section Slices

variable {size maxDatagram : UInt64} {plan : ChunkPlan}

/-- An even split into as many chunks as needed, with bytes left for the last. -/
structure EvenPlan (size maxDatagram : UInt64) (plan : ChunkPlan) : Prop where
  pos : 0 < plan.count.toNat
  few : plan.len.toNat ≤ maxDatagram.toNat - 12
  last : (plan.count.toNat - 1) * plan.len.toNat < size.toNat
  reach : size.toNat ≤ plan.count.toNat * plan.len.toNat

theorem evenPlan_of_split (nonempty : 0 < size.toNat) (header : 12 < maxDatagram.toNat)
    (count : plan.count.toNat = datagramsNeeded size maxDatagram)
    (len : plan.len.toNat = size.toNat ⌈/⌉ datagramsNeeded size maxDatagram) :
    EvenPlan size maxDatagram plan := by
  have budget : 0 < maxDatagram.toNat - 12 := by omega
  have needed : 0 < datagramsNeeded size maxDatagram :=
    (lt_ceilDiv_iff budget).mpr (by omega)
  refine ⟨by omega, ?_, ?_, ?_⟩
  · rw [len]
    exact ceilDiv_ceilDiv_le nonempty budget
  · rw [count, len]
    exact lastSlice_pos nonempty budget
  · rw [count, len]
    exact le_count_mul needed

theorem EvenPlan.before (even : EvenPlan size maxDatagram plan) {c : Nat}
    (below : c < plan.count.toNat) : c * plan.len.toNat < size.toNat :=
  Nat.lt_of_le_of_lt (Nat.mul_le_mul_right _ (Nat.le_sub_one_of_lt below)) even.last

theorem EvenPlan.offset (even : EvenPlan size maxDatagram plan) {c : Nat}
    (below : c < plan.count.toNat) : (plan.offset c).toNat = c * plan.len.toNat :=
  ChunkPlan.offset_toNat (Nat.lt_trans (even.before below) size.toNat_lt)

theorem EvenPlan.sliceLen (even : EvenPlan size maxDatagram plan) {c : Nat}
    (below : c < plan.count.toNat) : (plan.sliceLen size c).toNat =
      min plan.len.toNat (size.toNat - c * plan.len.toNat) :=
  ChunkPlan.sliceLen_toNat (even.before below).le

theorem EvenPlan.len_pos (even : EvenPlan size maxDatagram plan) (nonempty : 0 < size.toNat) :
    0 < plan.len.toNat := by
  have reach := even.reach
  rcases Nat.eq_zero_or_pos plan.len.toNat with zero | pos
  · rw [zero, Nat.mul_zero] at reach
    omega
  · exact pos

/-- Byte `x` of the frame is in slice `x / len`. -/
theorem EvenPlan.covers (even : EvenPlan size maxDatagram plan) (nonempty : 0 < size.toNat)
    {x : Nat} (inFrame : x < size.toNat) :
    ∃ c < plan.count.toNat, (plan.offset c).toNat ≤ x ∧
      x < (plan.offset c).toNat + (plan.sliceLen size c).toNat := by
  have pos := even.len_pos nonempty
  have below : x / plan.len.toNat < plan.count.toNat :=
    Nat.div_lt_of_lt_mul (Nat.lt_of_lt_of_le inFrame (Nat.mul_comm _ _ ▸ even.reach))
  have start := Nat.div_mul_le_self x plan.len.toNat
  have next := Nat.lt_div_mul_add (a := x) pos
  refine ⟨x / plan.len.toNat, below, ?_, ?_⟩
  · rw [even.offset below]
    exact start
  · rw [even.offset below, even.sliceLen below]
    omega

theorem EvenPlan.partitions (even : EvenPlan size maxDatagram plan) (nonempty : 0 < size.toNat)
    (header : 12 < maxDatagram.toNat)
    (count : plan.count.toNat = datagramsNeeded size maxDatagram) :
    Partitions size maxDatagram plan where
  inside c below := by
    rw [even.offset below]
    exact even.before below
  nonempty c below := by
    have before := even.before below
    have pos := even.len_pos nonempty
    rw [even.sliceLen below]
    omega
  ordered c d earlier below := by
    have step := Nat.mul_le_mul_right plan.len.toNat (show c + 1 ≤ d from earlier)
    rw [Nat.succ_mul] at step
    rw [even.offset below, even.offset (Nat.lt_trans earlier below),
      even.sliceLen (Nat.lt_trans earlier below)]
    omega
  covers x := by
    refine ⟨?_, ?_⟩
    · exact even.covers nonempty
    · intro found
      rcases found with ⟨c, below, -, inSlice⟩
      have before := even.before below
      rw [even.offset below, even.sliceLen below] at inSlice
      omega
  budget c below := by
    have few := even.few
    have twelve : kE2eHeaderBytes.toNat = 12 := rfl
    rw [even.sliceLen below, twelve]
    omega
  least lens fit total := by
    have twelve : kE2eHeaderBytes.toNat = 12 := rfl
    rw [twelve] at fit
    rw [count]
    exact ceilDiv_le_length (by omega) (fun n member => by have := fit n member; omega) total

/-- **When the slices tile the frame.** For every frame and every datagram with
room for more than the E2E header, where `size + budget - 1` does not wrap: the
slices partition the frame into as few chunks as possible exactly when
`size + count - 1` does not wrap either. -/
theorem partitionsFrame_iff (nonempty : 1 ≤ size.toNat)
    (header : kE2eHeaderBytes.toNat < maxDatagram.toNat)
    (small : size.toNat + (maxDatagram.toNat - kE2eHeaderBytes.toNat) - 1 < 2 ^ 64) :
    PartitionsFrame size maxDatagram ↔
      size.toNat + datagramsNeeded size maxDatagram - 1 < 2 ^ 64 := by
  have header12 : 12 < maxDatagram.toNat := header
  have first : size.toNat + (maxDatagram.toNat - 12) ≤ 2 ^ 64 := by
    have : size.toNat + (maxDatagram.toNat - 12) - 1 < 2 ^ 64 := small
    omega
  have needed : 0 < datagramsNeeded size maxDatagram :=
    (lt_ceilDiv_iff (by omega)).mpr (by omega)
  refine ⟨?_, ?_⟩
  · intro tiles
    rcases tiles with ⟨plan, planned, partitions⟩
    obtain ⟨count, planned', countNat⟩ := planChunks_of_le (by omega) header12 first
    rw [planned', Option.some.injEq] at planned
    subst planned
    by_contra wraps
    -- the second rounding wraps to chunks of length zero
    have zero : (size + count - 1) / count = 0 := roundUp_eq_zero (by rw [countNat]; omega)
    have some' := partitions.nonempty 0 (by dsimp only; omega)
    rw [ChunkPlan.sliceLen_toNat (by omega), zero] at some'
    simp at some'
  · intro second
    obtain ⟨plan, planned, count, len⟩ :=
      planChunks_even (by omega) header12 first (by omega)
    exact ⟨plan, planned,
      (evenPlan_of_split (by omega) header12 count len).partitions (by omega) header12 count⟩

end Slices

/-- The defaults. -/
theorem partitionsFrame_default : PartitionsFrame 4096 1400 :=
  (partitionsFrame_iff (by decide) (by decide) (by decide)).mpr (by decide)

/-- With one byte of payload for each datagram, the second rounding wraps and all
chunks are empty. -/
theorem not_partitionsFrame_wraps :
    1 ≤ (9223372036854775809 : UInt64).toNat ∧
      kE2eHeaderBytes.toNat < (13 : UInt64).toNat ∧
      (9223372036854775809 : UInt64).toNat + ((13 : UInt64).toNat - kE2eHeaderBytes.toNat) - 1 <
        2 ^ 64 ∧
      ¬ PartitionsFrame 9223372036854775809 13 := by
  refine ⟨by decide, by decide, by decide, ?_⟩
  intro tiles
  rcases tiles with ⟨plan, planned, partitions⟩
  have cut : planChunks 9223372036854775809 13 = some ⟨9223372036854775809, 0⟩ := by decide
  rw [cut] at planned
  cases planned
  have some' := partitions.nonempty 0 (by decide)
  exact absurd some' (by decide)

/-! ## The arithmetic -/

/-- An addition of two `size_t` that must not wrap. -/
def checkedAdd (a b : UInt64) : Option UInt64 :=
  if a.toNat + b.toNat < 2 ^ 64 then some (a + b) else none

/-- A subtraction that must not underflow. -/
def checkedSub (a b : UInt64) : Option UInt64 :=
  if b.toNat ≤ a.toNat then some (a - b) else none

/-- A division that must not be by zero. -/
def checkedDiv (a b : UInt64) : Option UInt64 :=
  if b = 0 then none else some (a / b)

/-- `(a + b - 1) / b` with every operation checked. -/
def checkedRoundUp (a b : UInt64) : Option UInt64 := do
  let sum ← checkedAdd a b
  let bytes ← checkedSub sum 1
  checkedDiv bytes b

/-- `planChunks` with every operation checked. -/
def planChunksChecked (size maxDatagram : UInt64) : Option ChunkPlan := do
  let budget ← checkedSub maxDatagram kE2eHeaderBytes
  let count ← checkedRoundUp size budget
  let len ← checkedRoundUp size count
  return { count, len }

/-- No operation of `planChunks` wraps or divides by zero, and there is a chunk and
something in it. -/
def ArithmeticSound (size maxDatagram : UInt64) : Prop :=
  ∃ plan, planChunksChecked size maxDatagram = some plan ∧ 1 ≤ plan.count ∧ 1 ≤ plan.len

section Arithmetic

variable {a b c : UInt64}

theorem toNat_pos (nonzero : a ≠ 0) : 0 < a.toNat :=
  Nat.pos_of_ne_zero fun zero => nonzero (UInt64.toNat_inj.mp zero)

theorem checkedSub_eq_some : checkedSub a b = some c ↔ b.toNat ≤ a.toNat ∧ a - b = c := by
  rw [checkedSub, Option.ite_none_right_eq_some, Option.some.injEq]

theorem checkedRoundUp_eq_some :
    checkedRoundUp a b = some c ↔ a.toNat + b.toNat < 2 ^ 64 ∧ b ≠ 0 ∧ (a + b - 1) / b = c := by
  simp only [checkedRoundUp, checkedAdd, checkedSub, checkedDiv, Option.bind_eq_bind,
    Option.bind_eq_some_iff, Option.ite_none_right_eq_some, Option.ite_none_left_eq_some,
    Option.some.injEq]
  refine ⟨?_, ?_⟩
  · intro ran
    rcases ran with ⟨sum, ⟨small, rfl⟩, bytes, ⟨-, rfl⟩, nonzero, quotient⟩
    exact ⟨small, nonzero, quotient⟩
  · intro ran
    rcases ran with ⟨small, nonzero, quotient⟩
    have pos := toNat_pos nonzero
    refine ⟨a + b, ⟨small, rfl⟩, a + b - 1, ⟨?_, rfl⟩, nonzero, quotient⟩
    rw [UInt64.toNat_add, UInt64.toNat_one, Nat.mod_eq_of_lt small]
    omega

theorem planChunksChecked_eq_some {size maxDatagram : UInt64} {plan : ChunkPlan} :
    planChunksChecked size maxDatagram = some plan ↔
      ∃ budget, checkedSub maxDatagram kE2eHeaderBytes = some budget ∧
        ∃ count, checkedRoundUp size budget = some count ∧
          ∃ len, checkedRoundUp size count = some len ∧ plan = ⟨count, len⟩ := by
  simp only [planChunksChecked, Option.bind_eq_bind, Option.bind_eq_some_iff, Option.pure_def,
    Option.some.injEq, eq_comm (a := plan)]

/-- Where nothing wraps, the checked plan is the plan. -/
theorem planChunks_of_checked {size maxDatagram : UInt64} {plan : ChunkPlan}
    (checked : planChunksChecked size maxDatagram = some plan) :
    planChunks size maxDatagram = some plan := by
  obtain ⟨budget, subtracted, count, first, len, second, rfl⟩ :=
    planChunksChecked_eq_some.mp checked
  obtain ⟨-, rfl⟩ := checkedSub_eq_some.mp subtracted
  obtain ⟨-, nonzero, rfl⟩ := checkedRoundUp_eq_some.mp first
  obtain ⟨-, nonzero', rfl⟩ := checkedRoundUp_eq_some.mp second
  unfold planChunks
  exact (if_neg nonzero).trans (if_neg nonzero')

theorem checkedRoundUp_of_room (pos : 0 < b.toNat) (small : a.toNat + b.toNat < 2 ^ 64) :
    checkedRoundUp a b = some ((a + b - 1) / b) := by
  apply checkedRoundUp_eq_some.mpr
  refine ⟨small, ?_, rfl⟩
  intro zero
  rw [zero, UInt64.toNat_zero] at pos
  omega

end Arithmetic

/-- **When the planner's arithmetic is sound.** For every configuration the publisher
accepts: nothing in `planChunks` wraps or divides by zero, and there is a chunk and
something in it, exactly when a datagram has room for more than the E2E header and
neither `size + budget` nor `size + count` reaches `2^64`. -/
theorem arithmeticSound_iff (atof : String → Double) (program : String) (args : List String)
    (opt : Options) (served : serviceOptions atof program args = .ok opt) :
    ArithmeticSound opt.size opt.maxDatagram ↔
      kE2eHeaderBytes.toNat < opt.maxDatagram.toNat ∧
        opt.size.toNat + (opt.maxDatagram.toNat - kE2eHeaderBytes.toNat) < 2 ^ 64 ∧
        opt.size.toNat + datagramsNeeded opt.size opt.maxDatagram < 2 ^ 64 := by
  have frame : 16 ≤ opt.size.toNat := (serviceOptions_accepted served).2
  have twelve : kE2eHeaderBytes.toNat = 12 := rfl
  rw [twelve]
  refine ⟨?_, ?_⟩
  · intro sound
    rcases sound with ⟨plan, checked, -, -⟩
    obtain ⟨budget, subtracted, count, first, len, second, -⟩ :=
      planChunksChecked_eq_some.mp checked
    obtain ⟨header, rfl⟩ := checkedSub_eq_some.mp subtracted
    obtain ⟨small, nonzero, rfl⟩ := checkedRoundUp_eq_some.mp first
    obtain ⟨small', -, -⟩ := checkedRoundUp_eq_some.mp second
    have budgetNat : (opt.maxDatagram - kE2eHeaderBytes).toNat = opt.maxDatagram.toNat - 12 :=
      UInt64.toNat_sub_of_le _ _ (UInt64.le_iff_toNat_le.mpr header)
    have pos := toNat_pos nonzero
    rw [roundUp_toNat pos small.le, budgetNat] at small'
    exact ⟨by omega, by omega, small'⟩
  · intro room
    rcases room with ⟨header, first, second⟩
    have budgetNat : (opt.maxDatagram - kE2eHeaderBytes).toNat = opt.maxDatagram.toNat - 12 :=
      UInt64.toNat_sub_of_le _ _ (UInt64.le_iff_toNat_le.mpr header.le)
    obtain ⟨plan, planned, count, len⟩ :=
      planChunks_even (by omega) header first.le second.le
    have even := evenPlan_of_split (by omega) header count len
    have needed : 0 < datagramsNeeded opt.size opt.maxDatagram :=
      (lt_ceilDiv_iff (by omega)).mpr (by omega)
    -- neither rounding is refused, so the checked plan is the plan
    have firstChecked := checkedRoundUp_of_room (a := opt.size)
      (show 0 < (opt.maxDatagram - kE2eHeaderBytes).toNat by omega) (by omega)
    have rounded := roundUp_toNat (a := opt.size)
      (show 0 < (opt.maxDatagram - kE2eHeaderBytes).toNat by omega) (by omega)
    rw [budgetNat] at rounded
    change _ = datagramsNeeded opt.size opt.maxDatagram at rounded
    have secondChecked := checkedRoundUp_of_room (a := opt.size)
      (show 0 < ((opt.size + (opt.maxDatagram - kE2eHeaderBytes) - 1) /
        (opt.maxDatagram - kE2eHeaderBytes)).toNat by omega) (by omega)
    have checked := planChunksChecked_eq_some.mpr
      ⟨_, checkedSub_eq_some.mpr ⟨header.le, rfl⟩, _, firstChecked, _, secondChecked, rfl⟩
    have same := planned.symm.trans (planChunks_of_checked checked)
    rw [← Option.some.inj same] at checked
    refine ⟨plan, checked, ?_, ?_⟩
    · exact UInt64.le_iff_toNat_le.mpr even.pos
    · exact UInt64.le_iff_toNat_le.mpr (even.len_pos (by omega))

/-- The defaults. -/
theorem arithmeticSound_default : ArithmeticSound 4096 1400 :=
  (arithmeticSound_iff (fun _ => 1) "event_service" [] { stack := "vsomeip" } (by rfl)).mpr
    ⟨by decide, by decide, by decide⟩

/-- A datagram of 12 bytes is accepted and leaves no budget to divide by. -/
theorem not_arithmeticSound_header :
    ∃ opt, serviceOptions (fun _ => 1) "event_service" ["--max-datagram=12"] = .ok opt ∧
      ¬ ArithmeticSound opt.size opt.maxDatagram := by
  refine ⟨{ stack := "vsomeip", maxDatagram := 12 }, by rfl, ?_⟩
  intro sound
  rcases sound with ⟨plan, checked, -⟩
  have refused : planChunksChecked 4096 12 = none := by decide
  rw [refused] at checked
  cases checked

end MiddlewareBench.Vsomeip
