import MiddlewareBench.Lib.Fallible
import MiddlewareBench.Vsomeip.ChunkPlan
import MiddlewareBench.Vsomeip.EventService
import MiddlewareBench.Vsomeip.Tracker

/-!
# From the publisher to the tracker

What the publisher writes into its block and sends in slices, the tracker reads
back: with every datagram delivered in order, it reports each frame at its last
chunk and nothing else, from any state.

The argument goes through the block. `writeHeaders_spec` gives the block after
the headers, `FrameBlock` is what a block holds once it is stamped too, and
`FrameBlock.carriesChunk` reads one delivered payload back as a chunk.
`publishFrames_spec` is the loop: one such block for each frame.
-/

namespace MiddlewareBench.Vsomeip

open Bytes Transducer EventService

/-- The bytes of a frame of `size` bytes that chunk `i` covers:
`[i*len, min((i+1)*len, size))`. -/
def ChunkPlan.chunkBytes (plan : ChunkPlan) (size : UInt64) (i : Nat) : Nat :=
  min ((i + 1) * plan.len.toNat) size.toNat - i * plan.len.toNat

/-- A plan for a frame of `size` bytes each of whose chunks has room for its header. -/
structure HeadedPlan (size : UInt64) (plan : ChunkPlan) : Prop where
  pos : 0 < plan.count.toNat
  room : ∀ i < plan.count.toNat, ChunkHeader.sizeof ≤ plan.chunkBytes size i

/-- A plan for a frame of `size` bytes whose chunks have room for their header,
chunk `0` for the stamp too, and whose count fits the 16 bits of a header. -/
structure RoomyPlan (size : UInt64) (plan : ChunkPlan) : Prop extends HeadedPlan size plan where
  count : plan.count.toNat ≤ 65535
  first : kMinFrameBytes ≤ plan.chunkBytes size 0

section HeadedPlan

variable {size : UInt64} {plan : ChunkPlan}

/-- Chunk `i` starts at least 8 bytes before the end of the frame. -/
theorem HeadedPlan.inside (headed : HeadedPlan size plan) {i : Nat}
    (below : i < plan.count.toNat) : i * plan.len.toNat + 8 ≤ size.toNat := by
  have room := headed.room i below
  unfold ChunkPlan.chunkBytes ChunkHeader.sizeof at room
  omega

theorem HeadedPlan.eight_le_len (headed : HeadedPlan size plan) : 8 ≤ plan.len.toNat := by
  have room := headed.room 0 headed.pos
  unfold ChunkPlan.chunkBytes ChunkHeader.sizeof at room
  omega

theorem HeadedPlan.offset (headed : HeadedPlan size plan) {i : Nat}
    (below : i < plan.count.toNat) : (plan.offset i).toNat = i * plan.len.toNat := by
  have inside := headed.inside below
  have bound := size.toNat_lt
  exact ChunkPlan.offset_toNat (by omega)

theorem HeadedPlan.sliceLen (headed : HeadedPlan size plan) {i : Nat}
    (below : i < plan.count.toNat) :
    (plan.sliceLen size i).toNat = plan.chunkBytes size i := by
  have inside := headed.inside below
  have next : (i + 1) * plan.len.toNat = i * plan.len.toNat + plan.len.toNat := Nat.succ_mul _ _
  rw [ChunkPlan.sliceLen_toNat (by omega), ChunkPlan.chunkBytes]
  omega

/-- Chunk `i` ends inside the frame. -/
theorem HeadedPlan.chunk_inside (headed : HeadedPlan size plan) {i : Nat}
    (below : i < plan.count.toNat) :
    i * plan.len.toNat + plan.chunkBytes size i ≤ size.toNat := by
  have inside := headed.inside below
  unfold ChunkPlan.chunkBytes
  omega

/-- Chunks of 8 bytes at least, of which the last ends with the frame. -/
theorem headedPlan_of_last (pos : 0 < plan.count.toNat) (len : 8 ≤ plan.len.toNat)
    (last : (plan.count.toNat - 1) * plan.len.toNat + 8 ≤ size.toNat) :
    HeadedPlan size plan := by
  refine ⟨pos, fun i below => ?_⟩
  have before := Nat.mul_le_mul_right plan.len.toNat (Nat.le_sub_one_of_lt below)
  have next : (i + 1) * plan.len.toNat = i * plan.len.toNat + plan.len.toNat := Nat.succ_mul _ _
  unfold ChunkPlan.chunkBytes ChunkHeader.sizeof
  omega

end HeadedPlan

section RoomyPlan

variable {size : UInt64} {plan : ChunkPlan}

theorem RoomyPlan.frame (roomy : RoomyPlan size plan) : 16 ≤ size.toNat := by
  have first := roomy.first
  unfold ChunkPlan.chunkBytes kMinFrameBytes kChunkSendNsOffset ChunkHeader.sizeof at first
  omega

theorem RoomyPlan.len (roomy : RoomyPlan size plan) : 16 ≤ plan.len.toNat := by
  have first := roomy.first
  unfold ChunkPlan.chunkBytes kMinFrameBytes kChunkSendNsOffset ChunkHeader.sizeof at first
  omega

/-- A plan whose headers fit is roomy, if its count fits their 16 bits. -/
theorem HeadersFit.roomyPlan (fit : HeadersFit size plan) (pos : 0 < plan.count.toNat)
    (count : plan.count.toNat ≤ 65535) (small : plan.count.toNat * plan.len.toNat < 2 ^ 64) :
    RoomyPlan size plan := by
  refine ⟨⟨pos, fun i below => ?_⟩, count, ?_⟩
  · have offset : (plan.offset i).toNat = i * plan.len.toNat := by
      have before := Nat.mul_le_mul_right plan.len.toNat below.le
      exact ChunkPlan.offset_toNat (by omega)
    have inside := fit.inBlock i below
    have slice := fit.inSlice i below
    have next : (i + 1) * plan.len.toNat = i * plan.len.toNat + plan.len.toNat :=
      Nat.succ_mul _ _
    rw [ChunkPlan.sliceLen_toNat (by omega)] at slice
    unfold ChunkPlan.chunkBytes
    omega
  · have stamp := fit.stampInFirst
    rw [ChunkPlan.sliceLen_toNat (by omega)] at stamp
    unfold kMinFrameBytes ChunkPlan.chunkBytes
    omega

/-- A frame that splits evenly has a roomy plan. -/
theorem SplitsEvenly.roomyPlan {maxDatagram : UInt64} (even : SplitsEvenly size maxDatagram)
    (frame : kMinFrameBytes ≤ size.toNat)
    (room : kE2eHeaderBytes.toNat + kMinFrameBytes ≤ maxDatagram.toNat)
    (few : datagramsNeeded size maxDatagram ≤ 65535) :
    ∃ plan, planChunks size maxDatagram = some plan ∧ RoomyPlan size plan := by
  have frame16 : 16 ≤ size.toNat := frame
  have room28 : 28 ≤ maxDatagram.toNat := room
  rcases even with ⟨first, second, split⟩
  obtain ⟨plan, planned, count, len⟩ := planChunks_even (by omega) (by omega) first second
  have needed : 0 < datagramsNeeded size maxDatagram :=
    (EvenSplit.lt_ceilDiv_iff (by omega)).mpr (by omega)
  have fit := (headersFit_iff_even needed frame16 second count len).mpr split
  have total : datagramsNeeded size maxDatagram *
      (size.toNat ⌈/⌉ datagramsNeeded size maxDatagram) <
        size.toNat + datagramsNeeded size maxDatagram := EvenSplit.count_mul_lt needed
  exact ⟨plan, planned, fit.roomyPlan (by omega) (by omega) (by rw [count, len]; omega)⟩

end RoomyPlan

/-! ## The block -/

section Block

variable {size : UInt64} {plan : ChunkPlan}

/-- The first `n` header writes succeed and put each header at the start of its
chunk: a later one does not reach back. -/
theorem writeHeaders_spec (planned : HeadedPlan size plan) (seq : UInt32) {block : Block}
    (length : block.length = size.toNat) {n : Nat} (le : n ≤ plan.count.toNat) :
    ∃ written, (List.range n).foldlM (fun block i =>
        writeChecked block (plan.offset i).toNat (plan.header seq i).toBytes) block =
          some written ∧
      written.length = size.toNat ∧
      ∀ i < n, slice written (i * plan.len.toNat) ChunkHeader.sizeof =
        (plan.header seq i).toBytes := by
  induction n with
  | zero => exact ⟨block, rfl, length, fun i below => absurd below (Nat.not_lt_zero i)⟩
  | succ n ih =>
      obtain ⟨written, run, writtenLength, headers⟩ := ih (by omega)
      have inside := planned.inside (show n < plan.count.toNat by omega)
      have width := (plan.header seq n).length_toBytes
      unfold ChunkHeader.sizeof at width headers ⊢
      refine ⟨writeAt written (n * plan.len.toNat) (plan.header seq n).toBytes, ?_, ?_, ?_⟩
      · have target : (plan.offset n).toNat = n * plan.len.toNat := planned.offset (by omega)
        have write : writeChecked written (plan.offset n).toNat (plan.header seq n).toBytes =
            some (writeAt written (n * plan.len.toNat) (plan.header seq n).toBytes) := by
          rw [target]
          exact writeChecked_of_le (by omega)
        rw [List.range_succ, List.foldlM_append, run]
        exact (bind_pure _).trans write
      · rw [length_writeAt (by omega), writtenLength]
      · intro i below
        rcases Nat.lt_succ_iff_lt_or_eq.mp below with earlier | rfl
        · have before := Nat.mul_le_mul_right plan.len.toNat (show i + 1 ≤ n from earlier)
          rw [Nat.succ_mul] at before
          have len := planned.eight_le_len
          rw [slice_writeAt_before (by omega) (by omega)]
          exact headers i earlier
        · exact slice_writeAt_same (by omega) width

/-- A block that holds the headers of a frame and, after the first, its stamp. -/
structure FrameBlock (size : UInt64) (plan : ChunkPlan) (seq : UInt32) (sendNs : UInt64)
    (block : Block) : Prop where
  length : block.length = size.toNat
  header : ∀ i < plan.count.toNat,
    slice block (i * plan.len.toNat) ChunkHeader.sizeof = (plan.header seq i).toBytes
  stamp : slice block kChunkSendNsOffset 8 = leBytes 8 sendNs.toNat

/-- Headers and stamp are written in place over any block of the right size. -/
theorem frameBlock_written (roomy : RoomyPlan size plan) (seq : UInt32) (sendNs : UInt64)
    {block : Block} (length : block.length = size.toNat) :
    ∃ headed stamped, writeChunkHeaders block seq plan = some headed ∧
      stampSendNs headed sendNs = some stamped ∧ FrameBlock size plan seq sendNs stamped := by
  obtain ⟨headed, run, headedLength, headers⟩ := writeHeaders_spec roomy.toHeadedPlan seq length le_rfl
  have frame := roomy.frame
  have width : (leBytes 8 sendNs.toNat).length = 8 := length_leBytes 8 _
  unfold ChunkHeader.sizeof at headers
  have fits : 8 + (leBytes 8 sendNs.toNat).length ≤ headed.length := by omega
  refine ⟨headed, writeAt headed 8 (leBytes 8 sendNs.toNat), run, writeChecked_of_le fits, ?_⟩
  refine ⟨by rw [length_writeAt fits, headedLength], fun i below => ?_,
    slice_writeAt_same (by omega) width⟩
  rw [ChunkHeader.sizeof, ← headers i below]
  rcases Nat.eq_zero_or_pos i with rfl | later
  · exact slice_writeAt_before fits (by omega)
  · -- chunk 1 starts after the stamp, because chunk 0 has room for it
    have first := Nat.mul_le_mul_right plan.len.toNat (show 1 ≤ i from later)
    have len := roomy.len
    exact slice_writeAt_after fits (by omega)

end Block

/-! ## The payloads -/

section Payloads

variable {size : UInt64} {plan : ChunkPlan} {seq : UInt32} {sendNs : UInt64} {block : Block}

/-- The slice of the block that travels as chunk `c`. -/
def chunkSlice (size : UInt64) (plan : ChunkPlan) (block : Block) (c : Nat) : Block :=
  slice block (c * plan.len.toNat) (plan.chunkBytes size c)

/-- The payload of chunk `c` is its slice behind an empty hole. The sgmenon build
casts the length of the slice on the way. -/
theorem notifyPayload_spec (headed : HeadedPlan size plan) (build : Build)
    {lengthT : UInt64 → UInt64} (length : block.length = size.toNat) {c : Nat}
    (below : c < plan.count.toNat)
    (fits : build = .sgmenon → lengthT (plan.sliceLen size c) = plan.sliceLen size c) :
    notifyPayload build lengthT plan block c =
      some (List.replicate (kE2eHoleBytes build) 0 ++ chunkSlice size plan block c) := by
  have inside : c * plan.len.toNat + plan.chunkBytes size c ≤ block.length := by
    rw [length]
    exact headed.chunk_inside below
  have read : readChecked block (plan.offset c).toNat (plan.sliceLen size c).toNat =
      some (chunkSlice size plan block c) := by
    rw [headed.offset below, headed.sliceLen below]
    exact readChecked_of_le inside
  have own : UInt64.ofNat block.length = size := by rw [length, UInt64.ofNat_toNat]
  cases build with
  | covesa => simp only [notifyPayload, own, read, Option.map_some]
  | sgmenon => simp only [notifyPayload, own, fits rfl, read, kE2eHoleBytes,
      List.replicate_zero, List.nil_append]

theorem length_chunkSlice (headed : HeadedPlan size plan) (length : block.length = size.toNat)
    {c : Nat} (below : c < plan.count.toNat) :
    (chunkSlice size plan block c).length = plan.chunkBytes size c :=
  length_slice (by rw [length]; exact headed.chunk_inside below)

/-- The header that arrives is the one at the start of the chunk. -/
theorem headerOf_chunkSlice (headed : HeadedPlan size plan) (build : Build) {c : Nat}
    (below : c < plan.count.toNat) (header : Fin (kE2eHoleBytes build) → UInt8) :
    headerOf build (List.ofFn header ++ chunkSlice size plan block c) =
      ChunkHeader.ofBytes (slice block (c * plan.len.toNat) ChunkHeader.sizeof) := by
  have room := headed.room c below
  rw [headerOf, chunkData, List.drop_left' List.length_ofFn, chunkSlice,
    slice_slice (by omega), Nat.add_zero]

/-- What arrives as chunk `c` carries it, whatever header the protection wrote. -/
theorem FrameBlock.carriesChunk (written : FrameBlock size plan seq sendNs block)
    (roomy : RoomyPlan size plan) (build : Build) {c : Nat} (below : c < plan.count.toNat)
    (header : Fin (kE2eHoleBytes build) → UInt8) :
    CarriesChunk build seq plan.count.toNat c
      (List.ofFn header ++ chunkSlice size plan block c) := by
  have hole : (List.ofFn header).length = kE2eHoleBytes build := List.length_ofFn
  have width := length_chunkSlice roomy.toHeadedPlan written.length below
  refine ⟨?_, ?_, fun first => ?_⟩
  · rw [headerOf_chunkSlice roomy.toHeadedPlan build below, written.header c below,
      ChunkHeader.ofBytes_toBytes, ChunkPlan.header]
    rfl
  · rw [List.length_append, hole, width]
    exact Nat.add_le_add_left (roomy.room c below) _
  · rw [List.length_append, hole, width, first]
    exact Nat.add_le_add_left roomy.first _

/-- What arrives as chunk `0` carries the stamp. -/
theorem FrameBlock.sendNsOf_first (written : FrameBlock size plan seq sendNs block)
    (roomy : RoomyPlan size plan) (build : Build)
    (header : Fin (kE2eHoleBytes build) → UInt8) :
    sendNsOf build (List.ofFn header ++ chunkSlice size plan block 0) = sendNs := by
  have first := roomy.first
  rw [kMinFrameBytes] at first
  rw [sendNsOf, chunkData, List.drop_left' List.length_ofFn, chunkSlice, slice_slice first,
    Nat.zero_mul, Nat.zero_add, written.stamp, ofNat_leNat_u64]

end Payloads

/-! ## Frames -/

/-- The payload behind its empty hole, which the protection then overwrites. -/
theorem e2eProtect_hole (build : Build) (header : Fin (kE2eHoleBytes build) → UInt8)
    (data : Block) :
    e2eProtect build header (List.replicate (kE2eHoleBytes build) 0 ++ data) =
      List.ofFn header ++ data := by
  rw [e2eProtect, List.drop_left' List.length_replicate]

section Frames

variable {build : Build} {lengthT : UInt64 → UInt64} {size : UInt64} {plan : ChunkPlan}

/-- Where both writes succeed, the slices of what they leave are sent. -/
theorem publishFrame_of_stamped (headed : HeadedPlan size plan)
    (fits : build = .sgmenon → ∀ c < plan.count.toNat,
      lengthT (plan.sliceLen size c) = plan.sliceLen size c)
    {seq : UInt32} {sendNs : UInt64} {block header stamped : Block}
    (writeHeaders : writeChunkHeaders block seq plan = some header)
    (stamp : stampSendNs header sendNs = some stamped) (length : stamped.length = size.toNat) :
    publishFrame build lengthT plan block seq sendNs =
      some (stamped, (List.range plan.count.toNat).map fun c =>
        List.replicate (kE2eHoleBytes build) 0 ++ chunkSlice size plan stamped c) := by
  have slices : (List.range plan.count.toNat).mapM (notifyPayload build lengthT plan stamped) =
      some ((List.range plan.count.toNat).map fun c =>
        List.replicate (kE2eHoleBytes build) 0 ++ chunkSlice size plan stamped c) := by
    refine Fallible.mapM_eq_pure fun c inRange => ?_
    have below := List.mem_range.mp inRange
    exact notifyPayload_spec headed build length below (fun cast => fits cast c below)
  rw [publishFrame, writeHeaders]
  dsimp only [Option.bind_eq_bind, Option.bind_some]
  rw [stamp]
  dsimp only [Option.bind_some]
  rw [slices]
  rfl

/-- One turn of the loop makes no access out of bounds and sends the slices of a
block that holds the frame. -/
theorem publishFrame_spec (roomy : RoomyPlan size plan)
    (fits : build = .sgmenon → ∀ c < plan.count.toNat,
      lengthT (plan.sliceLen size c) = plan.sliceLen size c)
    (seq : UInt32) (sendNs : UInt64) {block : Block} (length : block.length = size.toNat) :
    ∃ written, FrameBlock size plan seq sendNs written ∧
      publishFrame build lengthT plan block seq sendNs =
        some (written, (List.range plan.count.toNat).map fun c =>
          List.replicate (kE2eHoleBytes build) 0 ++ chunkSlice size plan written c) := by
  obtain ⟨headed, stamped, writeHeaders, stamp, written⟩ :=
    frameBlock_written roomy seq sendNs length
  exact ⟨stamped, written,
    publishFrame_of_stamped roomy.toHeadedPlan fits writeHeaders stamp written.length⟩

/-- The whole loop makes no access out of bounds: its `k`-th frame is sent from a
block that holds it. -/
theorem publishFrames_spec (roomy : RoomyPlan size plan)
    (fits : build = .sgmenon → ∀ c < plan.count.toNat,
      lengthT (plan.sliceLen size c) = plan.sliceLen size c)
    (seq : UInt32) (sends : List UInt64) {block : Block} (length : block.length = size.toNat) :
    ∃ blocks : Nat → Block,
      (∀ k (below : k < sends.length),
        FrameBlock size plan (seq + UInt32.ofNat k) sends[k] (blocks k)) ∧
      publishFrames build lengthT plan block seq sends =
        some ((List.range sends.length).map fun k => (List.range plan.count.toNat).map fun c =>
          List.replicate (kE2eHoleBytes build) 0 ++ chunkSlice size plan (blocks k) c) := by
  induction sends generalizing seq block with
  | nil => exact ⟨fun _ => block, fun k below => absurd below (Nat.not_lt_zero k), rfl⟩
  | cons sendNs sends ih =>
      obtain ⟨written, holds, publish⟩ := publishFrame_spec roomy fits seq sendNs length
      obtain ⟨blocks, later, run⟩ := ih (seq + 1) holds.length
      have next : ∀ k, seq + UInt32.ofNat (k + 1) = seq + 1 + UInt32.ofNat k := by
        intro k
        rw [UInt32.ofNat_add, UInt32.add_comm (UInt32.ofNat k), ← UInt32.add_assoc]
        rfl
      refine ⟨Nat.rec written fun k _ => blocks k, ?_, ?_⟩
      · intro k below
        cases k with
        | zero =>
            rw [show seq + UInt32.ofNat 0 = seq by simp]
            exact holds
        | succ k =>
            rw [next]
            exact later k (Nat.lt_of_succ_lt_succ below)
      · rw [publishFrames, publish]
        dsimp only [Option.bind_eq_bind, Option.bind_some]
        rw [run, List.length_cons, List.range_succ_eq_map, List.map_cons, List.map_map]
        rfl

end Frames

/-! ## Runs -/

/-- The datagrams of a run in the order they were sent, each with the header its
protection wrote. -/
def inOrder (build : Build) (headers : Nat → Nat → Fin (kE2eHoleBytes build) → UInt8)
    (frames : List (List Block)) : List Block :=
  (frames.mapIdx fun k payloads =>
    payloads.mapIdx fun c payload => e2eProtect build (headers k c) payload).flatten

/-- Chunk by chunk, the slices of the blocks arrive behind their protection
headers. -/
theorem inOrder_slices (build : Build) (headers : Nat → Nat → Fin (kE2eHoleBytes build) → UInt8)
    (slices : Nat → Nat → Block) (frames n : Nat) :
    inOrder build headers ((List.range frames).map fun k => (List.range n).map fun c =>
        List.replicate (kE2eHoleBytes build) 0 ++ slices k c) =
      (List.range frames).flatMap fun k => (List.range n).map fun c =>
        List.ofFn (headers k c) ++ slices k c := by
  rw [inOrder, List.flatMap_def]
  congr 1
  refine List.ext_getElem (by simp) fun k _ _ => ?_
  rw [List.getElem_mapIdx, List.getElem_map, List.getElem_map, List.getElem_range]
  refine List.ext_getElem (by simp) fun c _ _ => ?_
  rw [List.getElem_mapIdx, List.getElem_map, List.getElem_map, List.getElem_range,
    e2eProtect_hole]

/-- A plan the options yield has a chunk. -/
theorem Options.plan_pos {opt : Options} {plan : ChunkPlan} (planned : opt.plan = some plan) :
    0 < plan.count.toNat := by
  have nonzero : plan.count ≠ 0 := by
    unfold Options.plan at planned
    split at planned
    · cases planned
      exact (by decide : (1 : UInt64) ≠ 0)
    · rw [planChunks] at planned
      dsimp only at planned
      split at planned
      · cases planned
      · split at planned
        · cases planned
        · rename_i counted
          cases planned
          exact counted
  exact Nat.pos_of_ne_zero fun zero => nonzero (UInt64.toNat_inj.mp zero)

/-- **Round trip over a whole run.** With every chunk roomy enough for what it
carries, the publish loop makes no access out of bounds, whatever its block held
before; and with all datagrams delivered in order, the tracker answers, from any
state, with each frame's `seq` and `send_ns` at its last chunk and with nothing
at any other. -/
theorem EventService.outputs_publishFrames (build : Build) (lengthT : UInt64 → UInt64)
    (opt : Options) (plan : ChunkPlan) (sends : List UInt64) (seq : UInt32) (block : Block)
    (tr : FrameTracker) (headers : Nat → Nat → Fin (kE2eHoleBytes build) → UInt8)
    (planned : opt.plan = some plan) (length : block.length = opt.size.toNat)
    (count : plan.count.toNat ≤ 65535) (first : kMinFrameBytes ≤ plan.chunkBytes opt.size 0)
    (others : ∀ c < plan.count.toNat, 0 < c →
      ChunkHeader.sizeof ≤ plan.chunkBytes opt.size c)
    (fits : build = .sgmenon → ∀ c < plan.count.toNat,
      lengthT (plan.sliceLen opt.size c) = plan.sliceLen opt.size c) :
    ∃ frames, publishFrames build lengthT plan block seq sends = some frames ∧
      outputs (FrameTracker.ingest build) tr (inOrder build headers frames) =
        (sends.mapIdx fun k sendNs => List.replicate (plan.count.toNat - 1) none ++
          [some ⟨seq + UInt32.ofNat k, sendNs⟩]).flatten := by
  have roomy : RoomyPlan opt.size plan := by
    refine ⟨⟨Options.plan_pos planned, fun c below => ?_⟩, count, first⟩
    rcases Nat.eq_zero_or_pos c with rfl | later
    · exact Nat.le_trans (by decide) first
    · exact others c below later
  obtain ⟨blocks, holds, run⟩ := publishFrames_spec roomy fits seq sends length
  have answers := tr.outputs_frames build roomy.pos roomy.count fun k below c inFrame =>
    (holds k below).carriesChunk roomy build inFrame (headers k c)
  refine ⟨_, run, ?_⟩
  rw [inOrder_slices, answers, List.flatMap_def]
  congr 1
  refine List.ext_getElem (by simp) fun k below _ => ?_
  rw [List.length_map, List.length_range] at below
  rw [List.getElem_map, List.getElem_range, List.getElem_mapIdx,
    (holds k below).sendNsOf_first roomy]

/-- Three frames of two chunks each, for a `length_t` of 32 bits and a tracker
left in the middle of another frame. -/
theorem EventService.outputs_publishFrames_two_chunks :
    ∃ frames, publishFrames .sgmenon (fun n => n.toUInt32.toUInt64) ⟨2, 24⟩
        (List.replicate 48 0xFF) 4294967295 [10, 20, 30] = some frames ∧
      outputs (FrameTracker.ingest .sgmenon) ⟨true, 7, 1, 5⟩
          (inOrder .sgmenon (fun _ _ i => i.elim0) frames) =
        [none, some ⟨4294967295, 10⟩, none, some ⟨0, 20⟩, none, some ⟨1, 30⟩] :=
  EventService.outputs_publishFrames .sgmenon (fun n => n.toUInt32.toUInt64)
    { size := 48, maxDatagram := 36 } ⟨2, 24⟩ [10, 20, 30] 4294967295 (List.replicate 48 0xFF)
    ⟨true, 7, 1, 5⟩ (fun _ _ i => i.elim0) (by decide) (by decide) (by decide) (by decide)
    (by decide) (by decide)

end MiddlewareBench.Vsomeip
