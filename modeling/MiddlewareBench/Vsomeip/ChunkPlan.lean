import MiddlewareBench.Lib.EvenSplit
import MiddlewareBench.Vsomeip.Fragment

/-!
# Room for the chunk headers

`planChunks` rounds twice: to the number of chunks a frame needs, and to the
length of a chunk. The last chunk gets what is left, and nothing in the source
bounds that from below. `planFits_iff` says for which frames every planned
chunk can carry what is written into it.
-/

namespace MiddlewareBench.Vsomeip

open Bytes EvenSplit

/-! ## `size_t` arithmetic without wrapping -/

theorem ChunkPlan.offset_toNat {plan : ChunkPlan} {i : Nat}
    (small : i * plan.len.toNat < 2 ^ 64) :
    (plan.offset i).toNat = i * plan.len.toNat := by
  rw [ChunkPlan.offset, UInt64.toNat_mul, UInt64.toNat_ofNat', Nat.mod_mul_mod,
    Nat.mod_eq_of_lt small]

theorem ChunkPlan.sliceLen_toNat {plan : ChunkPlan} {size : UInt64} {i : Nat}
    (inside : i * plan.len.toNat ≤ size.toNat) :
    (plan.sliceLen size i).toNat =
      min plan.len.toNat (size.toNat - i * plan.len.toNat) := by
  have bound := size.toNat_lt
  have off : (plan.offset i).toNat = i * plan.len.toNat := offset_toNat (by omega)
  have rest : (size - plan.offset i).toNat = size.toNat - i * plan.len.toNat := by
    rw [UInt64.toNat_sub_of_le _ _ (UInt64.le_iff_toNat_le.mpr (off ▸ inside)), off]
  rw [ChunkPlan.sliceLen, ← rest]
  show (if plan.len ≤ size - plan.offset i then plan.len else size - plan.offset i).toNat = _
  split
  · rename_i le
    rw [Nat.min_eq_left (UInt64.le_iff_toNat_le.mp le)]
  · rename_i gt
    rw [Nat.min_eq_right (Nat.le_of_not_le (mt UInt64.le_iff_toNat_le.mpr gt))]

/-- `(a + b - 1) / b`, where the sum stays below `2^64`. -/
theorem roundUp_toNat {a b : UInt64} (pos : 0 < b.toNat) (small : a.toNat + b.toNat ≤ 2 ^ 64) :
    ((a + b - 1) / b).toNat = a.toNat ⌈/⌉ b.toNat := by
  have aBound := a.toNat_lt
  rw [UInt64.toNat_div, UInt64.toNat_sub, UInt64.toNat_add, UInt64.toNat_one,
    Nat.ceilDiv_eq_add_pred_div]
  congr 1
  omega

/-- `(a + b - 1) / b`, where the sum wraps: what is left of it is below `b`. -/
theorem roundUp_eq_zero {a b : UInt64} (wraps : 2 ^ 64 < a.toNat + b.toNat) :
    (a + b - 1) / b = 0 := by
  have aBound := a.toNat_lt
  have bBound := b.toNat_lt
  apply UInt64.toNat_inj.mp
  rw [UInt64.toNat_div, UInt64.toNat_sub, UInt64.toNat_add, UInt64.toNat_one, UInt64.toNat_zero]
  apply Nat.div_eq_of_lt
  omega

/-! ## The plan in plain arithmetic -/

/-- How many datagrams a frame needs when each carries `maxDatagram` bytes, 12 of
them an E2E header. -/
def datagramsNeeded (size maxDatagram : UInt64) : Nat :=
  size.toNat ⌈/⌉ (maxDatagram.toNat - 12)

/-- A plan exists when the first rounding does not wrap, and its count is the
number of datagrams needed. -/
theorem planChunks_of_le {size maxDatagram : UInt64} (nonempty : 0 < size.toNat)
    (header : 12 < maxDatagram.toNat) (small : size.toNat + (maxDatagram.toNat - 12) ≤ 2 ^ 64) :
    ∃ count : UInt64, planChunks size maxDatagram = some ⟨count, (size + count - 1) / count⟩ ∧
      count.toNat = datagramsNeeded size maxDatagram := by
  set budget := maxDatagram - kE2eHeaderBytes with budgetEq
  have budgetNat : budget.toNat = maxDatagram.toNat - 12 :=
    UInt64.toNat_sub_of_le _ _ (UInt64.le_iff_toNat_le.mpr header.le)
  have countNat : ((size + budget - 1) / budget).toNat = datagramsNeeded size maxDatagram := by
    rw [roundUp_toNat (by omega) (by omega), budgetNat, datagramsNeeded]
  have needed : 0 < datagramsNeeded size maxDatagram :=
    (lt_ceilDiv_iff (by omega)).mpr (by omega)
  have budgetNe : budget ≠ 0 := by
    intro zero
    rw [zero, UInt64.toNat_zero] at budgetNat
    omega
  have countNe : (size + budget - 1) / budget ≠ 0 := by
    intro zero
    rw [zero, UInt64.toNat_zero] at countNat
    omega
  refine ⟨(size + budget - 1) / budget, ?_, countNat⟩
  rw [planChunks]
  exact (if_neg budgetNe).trans (if_neg countNe)

/-- Where neither rounding wraps, the plan is the even split. -/
theorem planChunks_even {size maxDatagram : UInt64} (nonempty : 0 < size.toNat)
    (header : 12 < maxDatagram.toNat) (first : size.toNat + (maxDatagram.toNat - 12) ≤ 2 ^ 64)
    (second : size.toNat + datagramsNeeded size maxDatagram ≤ 2 ^ 64) :
    ∃ plan, planChunks size maxDatagram = some plan ∧
      plan.count.toNat = datagramsNeeded size maxDatagram ∧
      plan.len.toNat = size.toNat ⌈/⌉ datagramsNeeded size maxDatagram := by
  obtain ⟨count, planned, countNat⟩ := planChunks_of_le nonempty header first
  have needed : 0 < datagramsNeeded size maxDatagram :=
    (lt_ceilDiv_iff (by omega)).mpr (by omega)
  refine ⟨_, planned, countNat, ?_⟩
  rw [roundUp_toNat (by omega) (by omega), countNat]

/-- Where the first rounding wraps, the source divides by zero. -/
theorem planChunks_eq_none {size maxDatagram : UInt64} (header : 12 ≤ maxDatagram.toNat)
    (wraps : 2 ^ 64 < size.toNat + (maxDatagram.toNat - 12)) :
    planChunks size maxDatagram = none := by
  have budget : (maxDatagram - kE2eHeaderBytes).toNat = maxDatagram.toNat - 12 :=
    UInt64.toNat_sub_of_le _ _ (UInt64.le_iff_toNat_le.mpr header)
  rw [planChunks]
  dsimp only
  split
  · rfl
  · exact if_pos (roundUp_eq_zero (budget ▸ wraps))

/-! ## Where the headers and the stamp go -/

/-- The writes of `writeChunkHeaders` and `stampSendNs` for a frame of `size`
bytes: the header of chunk `i` at `[off, off + 8)` stays inside the block and
inside the slice that is sent as chunk `i`, and the stamp at `[8, 16)` stays
inside chunk `0` and off every other header. -/
structure HeadersFit (size : UInt64) (plan : ChunkPlan) : Prop where
  inBlock : ∀ i < plan.count.toNat,
    (plan.offset i).toNat + ChunkHeader.sizeof ≤ size.toNat
  inSlice : ∀ i < plan.count.toNat, ChunkHeader.sizeof ≤ (plan.sliceLen size i).toNat
  stampInFirst : kChunkSendNsOffset + 8 ≤ (plan.sliceLen size 0).toNat
  stampClear : ∀ i < plan.count.toNat, 0 < i → kChunkSendNsOffset + 8 ≤ (plan.offset i).toNat

/-- Every chunk that `planChunks` plans can carry what is written into it. -/
def PlanFits (size maxDatagram : UInt64) : Prop :=
  ∃ plan, planChunks size maxDatagram = some plan ∧ HeadersFit size plan

/-- No rounding wraps, the slices of an even split into the `needed` datagrams
are longer than 15 bytes, and the split is exact or leaves 8 bytes for the last. -/
def SplitsEvenly (size maxDatagram : UInt64) : Prop :=
  let needed := datagramsNeeded size maxDatagram
  size.toNat + (maxDatagram.toNat - 12) ≤ 2 ^ 64 ∧ size.toNat + needed ≤ 2 ^ 64 ∧
    15 * needed < size.toNat ∧
    (needed ∣ size.toNat ∨ needed + 7 ≤ size.toNat / needed + size.toNat % needed)

instance (size maxDatagram : UInt64) : Decidable (SplitsEvenly size maxDatagram) :=
  inferInstanceAs (Decidable (_ ∧ _ ∧ _ ∧ _))

/-- Room in the last chunk, and for the stamp in the first, is room everywhere. -/
theorem headersFit_of_last {size : UInt64} {plan : ChunkPlan}
    (stamp : 16 ≤ plan.len.toNat) (frame : 16 ≤ size.toNat)
    (last : (plan.count.toNat - 1) * plan.len.toNat + 8 ≤ size.toNat) :
    HeadersFit size plan := by
  have bound := size.toNat_lt
  have room : ∀ i < plan.count.toNat, i * plan.len.toNat + 8 ≤ size.toNat := by
    intro i below
    have before := Nat.mul_le_mul_right plan.len.toNat (Nat.le_sub_one_of_lt below)
    omega
  have offset : ∀ i < plan.count.toNat, (plan.offset i).toNat = i * plan.len.toNat :=
    fun i below => ChunkPlan.offset_toNat (by have := room i below; omega)
  refine ⟨?_, ?_, ?_, ?_⟩
  · intro i below
    rw [offset i below]
    exact room i below
  · intro i below
    have inside := room i below
    rw [ChunkPlan.sliceLen_toNat (by omega), ChunkHeader.sizeof]
    omega
  · rw [ChunkPlan.sliceLen_toNat (by omega), kChunkSendNsOffset, ChunkHeader.sizeof]
    omega
  · intro i below later
    rw [offset i below, kChunkSendNsOffset, ChunkHeader.sizeof]
    have first := Nat.mul_le_mul_right plan.len.toNat (show 1 ≤ i from later)
    omega

/-- The headers fit exactly when the stamp fits chunk `0` and the last header
fits what is left of the block. -/
theorem headersFit_iff_last {size : UInt64} {plan : ChunkPlan} (pos : 0 < plan.count.toNat)
    (frame : 16 ≤ size.toNat) (small : plan.count.toNat * plan.len.toNat < 2 ^ 64) :
    HeadersFit size plan ↔
      16 ≤ plan.len.toNat ∧ (plan.count.toNat - 1) * plan.len.toNat + 8 ≤ size.toNat := by
  refine ⟨?_, ?_⟩
  · intro fit
    have stamp := fit.stampInFirst
    have last := fit.inBlock (plan.count.toNat - 1) (by omega)
    have before := Nat.mul_le_mul_right plan.len.toNat (Nat.sub_le plan.count.toNat 1)
    rw [ChunkPlan.sliceLen_toNat (by omega), kChunkSendNsOffset, ChunkHeader.sizeof] at stamp
    rw [ChunkPlan.offset_toNat (by omega), ChunkHeader.sizeof] at last
    exact ⟨by omega, last⟩
  · intro room
    rcases room with ⟨stamp, last⟩
    exact headersFit_of_last stamp frame last

/-- An even split has room for its headers when its slices are longer than 15
bytes and 8 bytes are left for the last. -/
theorem headersFit_iff_even {size : UInt64} {plan : ChunkPlan} {needed : Nat} (pos : 0 < needed)
    (frame : 16 ≤ size.toNat) (small : size.toNat + needed ≤ 2 ^ 64)
    (count : plan.count.toNat = needed) (len : plan.len.toNat = size.toNat ⌈/⌉ needed) :
    HeadersFit size plan ↔
      15 * needed < size.toNat ∧
        (needed ∣ size.toNat ∨ needed + 7 ≤ size.toNat / needed + size.toNat % needed) := by
  have total : needed * (size.toNat ⌈/⌉ needed) < size.toNat + needed := count_mul_lt pos
  rw [headersFit_iff_last (by omega) frame (by rw [count, len]; omega), count, len,
    le_slices_iff pos (by decide) (by decide)]
  have last : needed + 8 ≤ size.toNat / needed + size.toNat % needed + 1 ↔
      needed + 7 ≤ size.toNat / needed + size.toNat % needed := by omega
  rw [last]

/-- **Which frames are safe to cut.** For a frame of at least 16 bytes and
datagrams with room for the E2E header and a minimal first chunk, every header
and the stamp land where they should exactly when the frame splits evenly. -/
theorem planFits_iff {size maxDatagram : UInt64} (frame : kMinFrameBytes ≤ size.toNat)
    (room : kE2eHeaderBytes.toNat + kMinFrameBytes ≤ maxDatagram.toNat) :
    PlanFits size maxDatagram ↔ SplitsEvenly size maxDatagram := by
  have frame16 : 16 ≤ size.toNat := frame
  have room28 : 28 ≤ maxDatagram.toNat := room
  unfold SplitsEvenly
  by_cases first : size.toNat + (maxDatagram.toNat - 12) ≤ 2 ^ 64
  · have needed : 0 < datagramsNeeded size maxDatagram :=
      (lt_ceilDiv_iff (by omega)).mpr (by omega)
    have fits : ∀ plan, planChunks size maxDatagram = some plan →
        (PlanFits size maxDatagram ↔ HeadersFit size plan) := by
      intro plan planned
      rw [PlanFits, planned]
      simp only [Option.some.injEq, exists_eq_left']
    by_cases second : size.toNat + datagramsNeeded size maxDatagram ≤ 2 ^ 64
    · obtain ⟨plan, planned, count, len⟩ := planChunks_even (by omega) (by omega) first second
      rw [fits plan planned, headersFit_iff_even needed frame16 second count len]
      exact ⟨fun even => ⟨first, second, even⟩, fun even => even.2.2⟩
    · -- the second rounding wraps to chunks of length zero
      obtain ⟨count, planned, countNat⟩ := planChunks_of_le (by omega) (by omega) first
      have zero : (size + count - 1) / count = 0 := roundUp_eq_zero (by rw [countNat]; omega)
      rw [fits _ planned, zero]
      refine ⟨fun fit => ?_, fun even => absurd even.2.1 second⟩
      have room := (headersFit_iff_last (by simpa using countNat ▸ needed) frame16
        (by simp)).mp fit
      have stamp : 16 ≤ (0 : UInt64).toNat := room.1
      exact absurd stamp (by decide)
  · refine ⟨?_, fun even => absurd even.1 first⟩
    intro fits
    rcases fits with ⟨plan, planned, -⟩
    rw [planChunks_eq_none (by omega) (by omega)] at planned
    cases planned

/-- The defaults cut 4096 bytes into three chunks, with room in each. -/
theorem planFits_default : PlanFits 4096 1400 :=
  (planFits_iff (by decide) (by decide)).mpr (by decide)

/-- With the default datagram size, a frame of 1925157 bytes is cut into 1388
chunks of 1388 bytes, the last of which is one byte long. -/
theorem not_planFits_default :
    kMinFrameBytes ≤ (1925157 : UInt64).toNat ∧
      kE2eHeaderBytes.toNat + kMinFrameBytes ≤ (1400 : UInt64).toNat ∧
      ¬ PlanFits 1925157 1400 := by
  refine ⟨by decide, by decide, ?_⟩
  intro fits
  rcases fits with ⟨plan, planned, fit⟩
  have cut : planChunks 1925157 1400 = some ⟨1388, 1388⟩ := by decide
  rw [cut] at planned
  cases planned
  have last := fit.inBlock 1387 (by decide)
  exact absurd last (by decide)

end MiddlewareBench.Vsomeip
