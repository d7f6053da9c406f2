import MiddlewareBench.Lib.InOrder
import MiddlewareBench.Vsomeip.Common

/-!
# Fragmented frames

`fragment.h`: how a frame is cut into chunks, what every chunk carries, and the
tracker that follows chunks on the subscriber.

The functions that write the shared block are partial: they return `none` where
the source would write past its end. `planChunks` returns `none` where the
source divides by zero. All arithmetic on a `size_t` wraps.
-/

namespace MiddlewareBench.Vsomeip

open Bytes

/-! ## Chunk headers -/

@[ext] structure ChunkHeader where
  seq : UInt32 := 0
  index : UInt16 := 0
  count : UInt16 := 1
  deriving DecidableEq, Repr

/-- `sizeof(ChunkHeader)`: the structure is packed. -/
def ChunkHeader.sizeof : Nat := 8

def ChunkHeader.toBytes (hdr : ChunkHeader) : Block :=
  leBytes 4 hdr.seq.toNat ++ leBytes 2 hdr.index.toNat ++ leBytes 2 hdr.count.toNat

def ChunkHeader.ofBytes (bytes : Block) : ChunkHeader where
  seq := UInt32.ofNat (leNat (slice bytes 0 4))
  index := UInt16.ofNat (leNat (slice bytes 4 2))
  count := UInt16.ofNat (leNat (slice bytes 6 2))

@[simp] theorem ChunkHeader.length_toBytes (hdr : ChunkHeader) :
    hdr.toBytes.length = ChunkHeader.sizeof := by
  simp only [toBytes, List.length_append, length_leBytes, sizeof]

@[simp] theorem ChunkHeader.ofBytes_toBytes (hdr : ChunkHeader) :
    ChunkHeader.ofBytes hdr.toBytes = hdr := by
  have seq : slice hdr.toBytes 0 4 = leBytes 4 hdr.seq.toNat := by
    rw [toBytes, List.append_assoc, slice_append_left (by simp)]
    exact List.take_of_length_le (by simp)
  have index : slice hdr.toBytes 4 2 = leBytes 2 hdr.index.toNat := by
    rw [toBytes, List.append_assoc, slice_append_right (by simp),
      slice_append_left (by simp)]
    exact List.take_of_length_le (by simp)
  have count : slice hdr.toBytes 6 2 = leBytes 2 hdr.count.toNat := by
    rw [toBytes, slice_append_right (by simp)]
    exact List.take_of_length_le (by simp)
  rw [ofBytes, seq, index, count, ofNat_leNat_u32, ofNat_leNat_u16, ofNat_leNat_u16]

def kChunkSendNsOffset : Nat := ChunkHeader.sizeof
def kMinFrameBytes : Nat := kChunkSendNsOffset + 8

/-! ## Cutting a frame -/

structure ChunkPlan where
  count : UInt64 := 1
  len : UInt64 := 0
  deriving DecidableEq, Repr

/-- Even split; the E2E header shares the datagram on both stacks. -/
def planChunks (size maxDatagram : UInt64) : Option ChunkPlan :=
  let budget := maxDatagram - kE2eHeaderBytes
  if budget = 0 then none
  else
    let count := (size + budget - 1) / budget
    if count = 0 then none
    else some { count, len := (size + count - 1) / count }

/-- `i * plan.len`, where chunk `i` starts. -/
def ChunkPlan.offset (plan : ChunkPlan) (i : Nat) : UInt64 :=
  UInt64.ofNat i * plan.len

/-- How many bytes of a frame of `size` bytes the publisher sends as chunk `i`:
`min(plan.len, size - off)`, for which `off` past `size` wraps. -/
def ChunkPlan.sliceLen (plan : ChunkPlan) (size : UInt64) (i : Nat) : UInt64 :=
  min plan.len (size - plan.offset i)

/-- The header of chunk `i`: both numbers are cut to 16 bits. -/
def ChunkPlan.header (plan : ChunkPlan) (seq : UInt32) (i : Nat) : ChunkHeader :=
  ⟨seq, UInt16.ofNat i, plan.count.toUInt16⟩

def writeChunkHeaders (block : Block) (seq : UInt32) (plan : ChunkPlan) : Option Block :=
  (List.range plan.count.toNat).foldlM
    (fun block i => writeChecked block (plan.offset i).toNat (plan.header seq i).toBytes) block

def stampSendNs (block : Block) (sendNs : UInt64) : Option Block :=
  writeChecked block kChunkSendNsOffset (leBytes 8 sendNs.toNat)

/-! ## Following chunks -/

@[ext] structure CompletedFrame where
  seq : UInt32 := 0
  sendNs : UInt64 := 0
  deriving DecidableEq, Repr

structure FrameTracker where
  active : Bool := false
  seq : UInt32 := 0
  next : UInt16 := 0
  sendNs : UInt64 := 0
  deriving DecidableEq, Repr

/-- A chunk `0` restarts the tracker, whatever it was doing. -/
def FrameTracker.restart (self : FrameTracker) (hdr : ChunkHeader) (data : Block) :
    FrameTracker :=
  if hdr.index = 0 then
    { active := true
      seq := hdr.seq
      next := 0
      sendNs := UInt64.ofNat (leNat (slice data kChunkSendNsOffset 8)) }
  else self

/-- The tracker's answer to a chunk, once a chunk `0` has had its say. -/
def FrameTracker.advance (self : FrameTracker) (hdr : ChunkHeader) :
    FrameTracker × Option CompletedFrame :=
  if !self.active ∨ hdr.seq ≠ self.seq ∨ hdr.index ≠ self.next then
    ({ self with active := false }, none)
  else
    let self := { self with next := self.next + 1 }
    if self.next < hdr.count then (self, none)
    else ({ self with active := false }, some ⟨self.seq, self.sendNs⟩)

/-- Follows chunks in arrival order; reports a frame when its last chunk
arrives and none were missed. -/
def FrameTracker.ingest (build : Build) (self : FrameTracker) (data : Block) :
    FrameTracker × Option CompletedFrame :=
  if data.length < kE2eHoleBytes build + ChunkHeader.sizeof then (self, none)
  else
    let data := data.drop (kE2eHoleBytes build)
    let hdr := ChunkHeader.ofBytes (slice data 0 ChunkHeader.sizeof)
    if hdr.index = 0 ∧ data.length < kMinFrameBytes then ({ self with active := false }, none)
    else (self.restart hdr data).advance hdr

end MiddlewareBench.Vsomeip
