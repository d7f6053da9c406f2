import MiddlewareBench.Vsomeip.PlanLimits
import MiddlewareBench.Vsomeip.RoundTrip

/-!
# What the headers of a frame say

A chunk header has 16 bits for the index and for the count, and it stands in a block that
later headers and the stamp are written into. For which configurations the slices that are
sent still say which chunk of how many they are (`headersExact_iff`).
-/

namespace MiddlewareBench.Vsomeip

open Bytes EvenSplit EventService

/-! ## The claim of a header -/

/-- The payloads of a frame, each with the header that its protection wrote. -/
def frameArrivals (build : Build) (headers : Nat → Fin (kE2eHoleBytes build) → UInt8)
    (payloads : List Block) : List Block :=
  payloads.mapIdx fun c payload => e2eProtect build (headers c) payload

/-- The headers in what arrives of a frame lose nothing to their 16-bit fields: there is one
for each chunk, which says its index and the count, no two chunks have one index and none
but the first has index `0`, and a chunk that is not the last completes no frame, whatever
the tracker has seen before. -/
structure FrameExact (build : Build) (plan : ChunkPlan) (arrived : List Block) : Prop where
  all : arrived.length = plan.count.toNat
  present : ∀ i (below : i < arrived.length), ¬ Runt build arrived[i]
  index : ∀ i (below : i < arrived.length), (headerOf build arrived[i]).index.toNat = i
  count : ∀ i (below : i < arrived.length),
    (headerOf build arrived[i]).count.toNat = plan.count.toNat
  distinct : (arrived.map fun data => (headerOf build data).index).Nodup
  first : ∀ i (below : i < arrived.length), (headerOf build arrived[i]).index = 0 → i = 0
  notEarly : ∀ (tr : FrameTracker) i (below : i < arrived.length), i + 1 < arrived.length →
    (tr.ingest build arrived[i]).2 = none

/-- There is a plan, and whatever the block holds, every turn of the publish loop sends a
frame whose headers are exact. -/
def HeadersExact (build : Build) (lengthT : UInt64 → UInt64) (opt : Options) : Prop :=
  ∃ plan, opt.plan = some plan ∧
    ∀ (block : Block) (seq : UInt32) (sendNs : UInt64)
      (headers : Nat → Fin (kE2eHoleBytes build) → UInt8), block.length = opt.size.toNat →
        ∃ written payloads, publishFrame build lengthT plan block seq sendNs =
          some (written, payloads) ∧
            FrameExact build plan (frameArrivals build headers payloads)

/-- The first rounding does not wrap, the count fits 16 bits, the stamp ends before the
index of chunk `1`, and 8 bytes are left for the last chunk. -/
def HeadersKept (size maxDatagram : UInt64) : Prop :=
  let needed := datagramsNeeded size maxDatagram
  size.toNat + (maxDatagram.toNat - 12) ≤ 2 ^ 64 ∧ needed ≤ 65535 ∧ 11 * needed < size.toNat ∧
    (needed ∣ size.toNat ∨ needed + 7 ≤ size.toNat / needed + size.toNat % needed)

instance (size maxDatagram : UInt64) : Decidable (HeadersKept size maxDatagram) :=
  inferInstanceAs (Decidable (_ ∧ _ ∧ _ ∧ _))

/-! ## What exact indices give -/

/-- A chunk whose successor has not been seen does not complete its frame. -/
theorem FrameTracker.advance_notLast (tr : FrameTracker) {hdr : ChunkHeader}
    (more : hdr.index.toNat + 1 < hdr.count.toNat) : (tr.advance hdr).2 = none := by
  unfold FrameTracker.advance
  split
  · rfl
  · rename_i taken
    simp only [not_or, not_not] at taken
    rcases taken with ⟨-, -, expected⟩
    have next := next_succ_toNat (show hdr.index.toNat < hdr.count.toNat by omega) expected
    have lt : tr.next + 1 < hdr.count := by
      rw [UInt16.lt_iff_toNat_lt, next, ← expected]
      exact more
    dsimp only
    rw [if_pos lt]

theorem FrameTracker.ingest_notLast (build : Build) (tr : FrameTracker) {data : Block}
    (more : (headerOf build data).index.toNat + 1 < (headerOf build data).count.toNat) :
    (tr.ingest build data).2 = none := by
  unfold FrameTracker.ingest
  split
  · rfl
  · dsimp only
    split
    · rfl
    · exact FrameTracker.advance_notLast _ more

theorem frameExact_of_index {build : Build} {plan : ChunkPlan} {arrived : List Block}
    (all : arrived.length = plan.count.toNat)
    (present : ∀ i (below : i < arrived.length), ¬ Runt build arrived[i])
    (index : ∀ i (below : i < arrived.length), (headerOf build arrived[i]).index.toNat = i)
    (count : ∀ i (below : i < arrived.length),
      (headerOf build arrived[i]).count.toNat = plan.count.toNat) :
    FrameExact build plan arrived where
  all := all
  present := present
  index := index
  count := count
  distinct := by
    rw [List.nodup_iff_injective_get]
    intro i j same
    have below : ∀ k : Fin (arrived.map fun data => (headerOf build data).index).length,
        k.val < arrived.length := fun k => by simpa using k.isLt
    simp only [List.get_eq_getElem, List.getElem_map] at same
    have numbers := congrArg UInt16.toNat same
    rw [index i.val (below i), index j.val (below j)] at numbers
    exact Fin.ext numbers
  first i below zero := by
    have own := index i below
    rw [zero] at own
    exact own.symm
  notEarly tr i below more := by
    apply FrameTracker.ingest_notLast
    rw [index i below, count i below, ← all]
    exact more

theorem ChunkPlan.header_index {plan : ChunkPlan} {seq : UInt32} {i : Nat}
    (few : plan.count.toNat ≤ 65535) (below : i < plan.count.toNat) :
    (plan.header seq i).index.toNat = i :=
  UInt16.toNat_ofNat_of_lt' (by rw [UInt16.size]; omega)

theorem ChunkPlan.header_count {plan : ChunkPlan} {seq : UInt32} {i : Nat}
    (few : plan.count.toNat ≤ 65535) : (plan.header seq i).count.toNat = plan.count.toNat := by
  show plan.count.toUInt16.toNat = plan.count.toNat
  rw [UInt64.toNat_toUInt16]
  omega

/-! ## The header under the stamp -/

section Written

variable {size : UInt64} {plan : ChunkPlan} {seq : UInt32} {sendNs : UInt64} {block : Block}

theorem ChunkHeader.index_ofBytes_slice (block : Block) (off : Nat) :
    (ChunkHeader.ofBytes (slice block off ChunkHeader.sizeof)).index =
      UInt16.ofNat (leNat (slice block (off + 4) 2)) :=
  congrArg (fun bytes => UInt16.ofNat (leNat bytes)) (slice_slice (by decide))

theorem ChunkHeader.count_ofBytes_slice (block : Block) (off : Nat) :
    (ChunkHeader.ofBytes (slice block off ChunkHeader.sizeof)).count =
      UInt16.ofNat (leNat (slice block (off + 6) 2)) :=
  congrArg (fun bytes => UInt16.ofNat (leNat bytes)) (slice_slice (by decide))

/-- A stamp that ends before the index of chunk `1` changes no index and no count. -/
theorem slice_stamp (clear : 12 ≤ plan.len.toNat)
    (frame : 16 ≤ size.toNat) (length : block.length = size.toNat) (i : Nat) {k : Nat}
    (low : 4 ≤ k) (high : k + 2 ≤ ChunkHeader.sizeof) :
    slice (writeAt block kChunkSendNsOffset (leBytes 8 sendNs.toNat))
        (i * plan.len.toNat + k) 2 = slice block (i * plan.len.toNat + k) 2 := by
  have width : (leBytes 8 sendNs.toNat).length = 8 := length_leBytes 8 _
  have eight : kChunkSendNsOffset = 8 := rfl
  rw [ChunkHeader.sizeof] at high
  rcases Nat.eq_zero_or_pos i with rfl | later
  · exact slice_writeAt_before (by omega) (by omega)
  · have start := Nat.mul_le_mul_right plan.len.toNat (show 1 ≤ i from later)
    exact slice_writeAt_after (by omega) (by omega)

/-- After both writes every chunk says its index and the count. -/
theorem exists_stamped (headed : HeadedPlan size plan) (clear : 12 ≤ plan.len.toNat)
    (frame : 16 ≤ size.toNat) (seq : UInt32) (sendNs : UInt64)
    (length : block.length = size.toNat) :
    ∃ header stamped, writeChunkHeaders block seq plan = some header ∧
      stampSendNs header sendNs = some stamped ∧ stamped.length = size.toNat ∧
      ∀ i < plan.count.toNat,
        (ChunkHeader.ofBytes (slice stamped (i * plan.len.toNat) ChunkHeader.sizeof)).index =
            (plan.header seq i).index ∧
          (ChunkHeader.ofBytes (slice stamped (i * plan.len.toNat) ChunkHeader.sizeof)).count =
            (plan.header seq i).count := by
  obtain ⟨header, run, headerLength, written⟩ := writeHeaders_spec headed seq length le_rfl
  have fits : kChunkSendNsOffset + (leBytes 8 sendNs.toNat).length ≤ header.length := by
    rw [length_leBytes, headerLength]
    exact frame
  refine ⟨header, _, run, writeChecked_of_le fits, by rw [length_writeAt fits, headerLength],
    fun i below => ?_⟩
  have own := written i below
  have kept := fun k => @slice_stamp _ _ sendNs _ clear frame headerLength i k
  rw [ChunkHeader.index_ofBytes_slice, ChunkHeader.count_ofBytes_slice,
    kept 4 (by decide) (by decide), kept 6 (by decide) (by decide),
    ← ChunkHeader.index_ofBytes_slice, ← ChunkHeader.count_ofBytes_slice, own,
    ChunkHeader.ofBytes_toBytes]
  exact ⟨rfl, rfl⟩

end Written

section Sent

variable {build : Build} {lengthT : UInt64 → UInt64} {size maxDatagram : UInt64}
  {plan : ChunkPlan} {block written : Block} {payloads : List Block} {seq : UInt32}
  {sendNs : UInt64} {headers : Nat → Fin (kE2eHoleBytes build) → UInt8}

theorem length_frameArrivals : (frameArrivals build headers payloads).length = payloads.length :=
  List.length_mapIdx

theorem getElem_frameArrivals {i : Nat} (below : i < (frameArrivals build headers payloads).length)
    (below' : i < payloads.length) :
    (frameArrivals build headers payloads)[i] = e2eProtect build (headers i) payloads[i] :=
  List.getElem_mapIdx ..

/-- A frame whose last chunk has 8 bytes and whose stamp is clear of the index of chunk `1`
is sent with exact headers. -/
theorem frameExact_publishFrame (headed : HeadedPlan size plan) (clear : 12 ≤ plan.len.toNat)
    (frame : 16 ≤ size.toNat) (few : plan.count.toNat ≤ 65535)
    (fits : build = .sgmenon → ∀ c < plan.count.toNat,
      lengthT (plan.sliceLen size c) = plan.sliceLen size c)
    (length : block.length = size.toNat) :
    ∃ written payloads, publishFrame build lengthT plan block seq sendNs =
      some (written, payloads) ∧
        FrameExact build plan (frameArrivals build headers payloads) := by
  obtain ⟨header, stamped, writeHeaders, stamp, stampedLength, kept⟩ :=
    exists_stamped headed clear frame seq sendNs length
  have sent := publishFrame_of_stamped headed fits writeHeaders stamp stampedLength
  refine ⟨_, _, sent, ?_⟩
  have all : (frameArrivals build headers ((List.range plan.count.toNat).map fun c =>
      List.replicate (kE2eHoleBytes build) 0 ++ chunkSlice size plan stamped c)).length =
        plan.count.toNat := by
    rw [length_frameArrivals, List.length_map, List.length_range]
  have own : ∀ i (below : i < _),
      (frameArrivals build headers ((List.range plan.count.toNat).map fun c =>
        List.replicate (kE2eHoleBytes build) 0 ++ chunkSlice size plan stamped c))[i] =
          List.ofFn (headers i) ++ chunkSlice size plan stamped i := by
    intro i below
    rw [getElem_frameArrivals below (length_frameArrivals ▸ below), List.getElem_map,
      List.getElem_range, e2eProtect_hole]
  refine frameExact_of_index all ?_ ?_ ?_
  · intro i below
    have room := headed.room i (all ▸ below)
    rw [own i below, Runt, List.length_append, List.length_ofFn,
      length_chunkSlice headed stampedLength (all ▸ below)]
    omega
  · intro i below
    rw [own i below, headerOf_chunkSlice headed build (all ▸ below), (kept i (all ▸ below)).1]
    exact ChunkPlan.header_index few (all ▸ below)
  · intro i below
    rw [own i below, headerOf_chunkSlice headed build (all ▸ below), (kept i (all ▸ below)).2]
    exact ChunkPlan.header_count few

/-! ## What exact headers need -/

/-- What a turn of the loop has done, where it makes no access out of bounds. -/
theorem publishFrame_eq_some
    (ran : publishFrame build lengthT plan block seq sendNs = some (written, payloads)) :
    ∃ header, writeChunkHeaders block seq plan = some header ∧
      stampSendNs header sendNs = some written ∧
      (List.range plan.count.toNat).mapM (notifyPayload build lengthT plan written) =
        some payloads := by
  unfold publishFrame at ran
  simp only [Option.bind_eq_bind, Option.bind_eq_some_iff, Option.pure_def, Option.some.injEq,
    Prod.mk.injEq] at ran
  obtain ⟨header, writeHeaders, stamped, stamp, payloads', slices, rfl, rfl⟩ := ran
  exact ⟨header, writeHeaders, stamp, slices⟩

/-- A payload is what it should be only where its slice is inside the block. -/
theorem notifyPayload_eq_some {c : Nat} {payload : Block}
    (fits : build = .sgmenon → lengthT (plan.sliceLen (UInt64.ofNat block.length) c) =
      plan.sliceLen (UInt64.ofNat block.length) c)
    (sent : notifyPayload build lengthT plan block c = some payload) :
    (plan.offset c).toNat + (plan.sliceLen (UInt64.ofNat block.length) c).toNat ≤ block.length ∧
      payload = List.replicate (kE2eHoleBytes build) 0 ++ slice block (plan.offset c).toNat
        (plan.sliceLen (UInt64.ofNat block.length) c).toNat := by
  have read : ∀ {off n : Nat} {data : Block}, readChecked block off n = some data →
      off + n ≤ block.length ∧ data = slice block off n := by
    intro off n data checked
    unfold readChecked at checked
    split at checked
    · rename_i inside
      exact ⟨inside, (Option.some.inj checked).symm⟩
    · cases checked
  unfold notifyPayload at sent
  cases build with
  | covesa =>
      obtain ⟨data, checked, rfl⟩ := Option.map_eq_some_iff.mp sent
      obtain ⟨inside, rfl⟩ := read checked
      exact ⟨inside, rfl⟩
  | sgmenon =>
      dsimp only at sent
      rw [fits rfl] at sent
      exact read sent

/-- What exact headers say of the slices: each is inside the block and has its header. -/
theorem exists_slices
    (fits : build = .sgmenon → ∀ c < plan.count.toNat,
      lengthT (plan.sliceLen size c) = plan.sliceLen size c)
    (length : written.length = size.toNat)
    (slices : (List.range plan.count.toNat).mapM (notifyPayload build lengthT plan written) =
      some payloads)
    (exact' : FrameExact build plan (frameArrivals build headers payloads)) {c : Nat}
    (below : c < plan.count.toNat) :
    (plan.offset c).toNat + (plan.sliceLen size c).toNat ≤ size.toNat ∧
      ChunkHeader.sizeof ≤ (plan.sliceLen size c).toNat ∧
      (ChunkHeader.ofBytes
        (slice written (plan.offset c).toNat ChunkHeader.sizeof)).index.toNat = c := by
  have own : UInt64.ofNat written.length = size := by rw [length, UInt64.ofNat_toNat]
  have all := exact'.all
  rw [length_frameArrivals] at all
  have there : c < payloads.length := by omega
  have arrived : c < (frameArrivals build headers payloads).length := by
    rw [length_frameArrivals]
    exact there
  have sent := Fallible.getElem?_of_mapM_eq_some slices c
  rw [List.getElem?_range below, Option.bind_some, List.getElem?_eq_getElem there] at sent
  obtain ⟨inside, payload⟩ :=
    notifyPayload_eq_some (fun cast => by rw [own]; exact fits cast c below) sent.symm
  rw [own] at inside payload
  have width := length_slice inside
  rw [length] at inside
  have data : (frameArrivals build headers payloads)[c] = List.ofFn (headers c) ++
      slice written (plan.offset c).toNat (plan.sliceLen size c).toNat := by
    rw [getElem_frameArrivals arrived there, payload, e2eProtect_hole]
  have present := exact'.present c arrived
  have index := exact'.index c arrived
  rw [data, Runt, List.length_append, List.length_ofFn, width] at present
  have room : ChunkHeader.sizeof ≤ (plan.sliceLen size c).toNat := by omega
  rw [data, headerOf, chunkData, List.drop_left' List.length_ofFn, slice_slice (by omega),
    Nat.add_zero] at index
  exact ⟨inside, room, index⟩

/-- Two bytes of which the first is zero do not say `1`. -/
theorem index_ne_one {off : Nat} (inside : off < written.length)
    (zero : slice written off 1 = [0]) :
    (UInt16.ofNat (leNat (slice written off 2))).toNat ≠ 1 := by
  obtain ⟨b, rest, text⟩ := List.exists_cons_of_length_pos
    (show 0 < (written.drop off).length by rw [List.length_drop]; omega)
  rw [slice, text, List.take_succ_cons, List.take_zero, List.cons.injEq] at zero
  rw [slice, text, zero.1, List.take_succ_cons, leNat, UInt16.toNat_ofNat']
  have none' : (0 : UInt8).toNat = 0 := rfl
  omega

/-- Where the stamp reaches the index of chunk `1`, a `send_ns` of zero is read there. -/
theorem index_overwritten {header : Block} {len : Nat} (frame : 16 ≤ header.length)
    (stamp : stampSendNs header 0 = some written) (low : 8 ≤ len) (high : len < 12) :
    (ChunkHeader.ofBytes (slice written len ChunkHeader.sizeof)).index.toNat ≠ 1 := by
  have eight : kChunkSendNsOffset = 8 := rfl
  have width : (leBytes 8 0).length = 8 := length_leBytes 8 _
  have fits : kChunkSendNsOffset + (leBytes 8 (0 : UInt64).toNat).length ≤ header.length := by
    rw [length_leBytes]
    exact frame
  rw [stampSendNs, writeChecked_of_le fits, Option.some.injEq] at stamp
  have zeros : slice written 8 8 = leBytes 8 0 := by
    rw [← stamp]
    exact slice_writeAt_same (by omega) width
  rw [ChunkHeader.index_ofBytes_slice]
  apply index_ne_one
  · rw [← stamp, length_writeAt fits]
    omega
  · obtain ⟨k, rfl⟩ := Nat.exists_eq_add_of_le low
    have part : slice written (8 + k + 4) 1 = slice (slice written 8 8) (k + 4) 1 := by
      rw [slice_slice (by omega), Nat.add_assoc]
    have each : ∀ k < 4, slice (leBytes 8 0) (k + 4) 1 = [0] := by decide
    rw [part, zeros]
    exact each k (by omega)

end Sent

/-! ## The configurations -/

theorem length_writeChunkHeaders {block header : Block} {seq : UInt32} {plan : ChunkPlan}
    (wrote : writeChunkHeaders block seq plan = some header) : header.length = block.length := by
  unfold writeChunkHeaders at wrote
  generalize List.range plan.count.toNat = chunks at wrote
  induction chunks generalizing block with
  | nil =>
      cases wrote
      rfl
  | cons i chunks ih =>
      rw [List.foldlM_cons, Option.bind_eq_bind, Option.bind_eq_some_iff] at wrote
      obtain ⟨next, first, rest⟩ := wrote
      rw [ih rest, length_of_writeChecked first]

/-- Few chunks and one rounding that does not wrap leave the other no room to. -/
theorem size_add_needed_le {size maxDatagram : UInt64} (header : 12 < maxDatagram.toNat)
    (first : size.toNat + (maxDatagram.toNat - 12) ≤ 2 ^ 64)
    (few : datagramsNeeded size maxDatagram ≤ 65535) :
    size.toNat + datagramsNeeded size maxDatagram ≤ 2 ^ 64 := by
  by_contra wraps
  have reach : size.toNat ≤ (maxDatagram.toNat - 12) * datagramsNeeded size maxDatagram :=
    le_count_mul (by omega)
  have bound := Nat.mul_le_mul (show maxDatagram.toNat - 12 ≤ 65535 by omega) few
  omega

section Configurations

variable {build : Build} {lengthT : UInt64 → UInt64} {opt : Options}

theorem HeadersKept.exact (kept : HeadersKept opt.size opt.maxDatagram)
    (frame : 16 ≤ opt.size.toNat) (header : 12 < opt.maxDatagram.toNat)
    (plans : opt.plan = planChunks opt.size opt.maxDatagram)
    (fits : build = .sgmenon → ∀ plan, opt.plan = some plan → ∀ c < plan.count.toNat,
      lengthT (plan.sliceLen opt.size c) = plan.sliceLen opt.size c) :
    HeadersExact build lengthT opt := by
  rcases kept with ⟨first, few, split⟩
  have second := size_add_needed_le header first few
  obtain ⟨plan, planned, count, len⟩ := planChunks_even (by omega) header first second
  have needed : 0 < datagramsNeeded opt.size opt.maxDatagram :=
    (lt_ceilDiv_iff (by omega)).mpr (by omega)
  have room := (@le_slices_iff opt.size.toNat _ 12 8 needed (by decide) (by decide)).mpr
    ⟨split.1, split.2.imp_right fun rest => by omega⟩
  rw [← len, ← count] at room
  have headed : HeadedPlan opt.size plan :=
    headedPlan_of_last (by omega) (Nat.le_trans (by decide) room.1) room.2
  rw [← plans] at planned
  refine ⟨plan, planned, fun block seq sendNs headers length => ?_⟩
  exact frameExact_publishFrame headed room.1 frame (by omega)
    (fun cast => fits cast plan planned) length

theorem HeadersExact.kept (exact' : HeadersExact build lengthT opt)
    (frame : 16 ≤ opt.size.toNat) (header : 12 < opt.maxDatagram.toNat)
    (plans : opt.plan = planChunks opt.size opt.maxDatagram)
    (fits : build = .sgmenon → ∀ plan, opt.plan = some plan → ∀ c < plan.count.toNat,
      lengthT (plan.sliceLen opt.size c) = plan.sliceLen opt.size c) :
    HeadersKept opt.size opt.maxDatagram := by
  obtain ⟨plan, planned, frames⟩ := exact'
  -- the frame whose stamp is zero
  obtain ⟨written, payloads, sent, exact'⟩ :=
    frames (List.replicate opt.size.toNat 0) 0 0 (fun _ _ => 0) (by simp)
  obtain ⟨headed, writeHeaders, stamp, slices⟩ := publishFrame_eq_some sent
  have headedLength : headed.length = opt.size.toNat := by
    rw [length_writeChunkHeaders writeHeaders, List.length_replicate]
  have length : written.length = opt.size.toNat := by
    rw [length_of_writeChecked stamp, headedLength]
  have slice := fun c => @exists_slices _ _ _ _ _ _ _ (fun cast => fits cast plan planned) length
    slices exact' c
  have pos := Options.plan_pos planned
  have few : plan.count.toNat ≤ 65535 := by
    have own := exact'.count 0 (by rw [exact'.all]; exact pos)
    rw [← own]
    exact Nat.le_of_lt_succ (UInt16.toNat_lt _)
  rw [plans] at planned
  have first : opt.size.toNat + (opt.maxDatagram.toNat - 12) ≤ 2 ^ 64 := by
    by_contra wraps
    rw [planChunks_eq_none header.le (Nat.not_le.mp wraps)] at planned
    cases planned
  obtain ⟨count, planned', countNat⟩ := planChunks_of_le (by omega) header first
  have needed : datagramsNeeded opt.size opt.maxDatagram ≤ 65535 := by
    rw [planned', Option.some.injEq] at planned
    rw [← countNat, show count = plan.count by rw [← planned]]
    exact few
  obtain ⟨even, planned', count, len⟩ := planChunks_even (by omega) header first
    (size_add_needed_le header first needed)
  rw [planned', Option.some.injEq] at planned
  subst planned
  have split := evenPlan_of_split (by omega) header count len
  have last := (slice (even.count.toNat - 1) (by omega)).2.1
  rw [split.sliceLen (by omega), ChunkHeader.sizeof] at last
  have inFrame := split.last
  have clear : 12 ≤ even.len.toNat := by
    rcases Nat.lt_or_ge 1 even.count.toNat with several | one
    · by_contra reaches
      have second := (slice 1 several).2.2
      rw [split.offset several, Nat.one_mul] at second
      exact index_overwritten (by omega) stamp (by omega) (by omega) second
    · have reach := split.reach
      rw [show even.count.toNat = 1 by omega, Nat.one_mul] at reach
      omega
  have needed' : 0 < datagramsNeeded opt.size opt.maxDatagram := by omega
  rw [len] at clear
  rw [count, len] at last inFrame
  obtain ⟨long, rest⟩ := (@le_slices_iff opt.size.toNat _ 12 8 needed' (by decide)
    (by decide)).mp ⟨clear, by omega⟩
  exact ⟨first, needed, long, rest.imp_right fun rest => by omega⟩

end Configurations

/-- **When the header fields are wide enough.** For every UDP configuration the publisher
accepts and every datagram with room for more than the E2E header: the headers of every
frame that is sent are exact if and only if there is a plan of at most 65535 chunks, the
stamp in chunk `0` does not reach the index of chunk `1` and the last chunk has room for a
header. -/
theorem headersExact_iff (atof : String → Double) (program : String) (args : List String)
    (opt : Options) (served : serviceOptions atof program args = .ok opt)
    (udp : opt.transport = "udp") (header : 12 < opt.maxDatagram.toNat) (build : Build)
    (lengthT : UInt64 → UInt64)
    (fits : build = .sgmenon → ∀ plan, opt.plan = some plan → ∀ c < plan.count.toNat,
      lengthT (plan.sliceLen opt.size c) = plan.sliceLen opt.size c) :
    HeadersExact build lengthT opt ↔ HeadersKept opt.size opt.maxDatagram := by
  have frame : kMinFrameBytes ≤ opt.size.toNat := (serviceOptions_accepted served).2
  have plans : opt.plan = planChunks opt.size opt.maxDatagram := by
    refine if_neg ?_
    rw [udp]
    decide
  exact ⟨fun exact' => exact'.kept frame header plans fits,
    fun kept => kept.exact frame header plans fits⟩

/-- The defaults, for a `length_t` of 32 bits. -/
theorem headersExact_default : HeadersExact .sgmenon (fun n => n.toUInt32.toUInt64)
    { stack := "vsomeip" } := by
  refine (headersExact_iff (fun _ => 1) "event_service" [] { stack := "vsomeip" } (by rfl) rfl
    (by decide) .sgmenon _ ?_).mpr (by decide)
  intro _ plan planned
  have cut : Options.plan { stack := "vsomeip" } = some ⟨3, 1366⟩ := by decide
  rw [cut] at planned
  cases planned
  decide

/-- A frame of 100 MB in datagrams of the default size needs 72047 chunks, and the
headers say 6511. -/
theorem not_headersExact_large :
    ∃ opt plan, serviceOptions (fun _ => 1) "event_service" ["--size=100000000"] = .ok opt ∧
      opt.transport = "udp" ∧ 12 < opt.maxDatagram.toNat ∧ opt.plan = some plan ∧
      plan.count = 72047 ∧ (ChunkHeader.ofBytes (plan.header 0 0).toBytes).count = 6511 ∧
      ∀ build, ¬ HeadersExact build id opt := by
  refine ⟨{ stack := "vsomeip", size := 100000000 }, ⟨72047, 1388⟩, by rfl, rfl, by decide,
    by decide, by decide, by decide, ?_⟩
  intro build exact'
  have kept := exact'.kept (by decide) (by decide) (by rfl) (fun _ _ _ _ _ => rfl)
  exact absurd kept (by decide)

/-- With `--size=40 --max-datagram=22` the stamp is written over the index of chunk `1`. -/
example : (publishFrame .sgmenon id ⟨4, 10⟩ (List.replicate 40 0) 7 0).map (fun sent =>
    sent.2.map fun data => (headerOf .sgmenon data).index) = some [0, 0, 2, 3] := by
  decide

end MiddlewareBench.Vsomeip
