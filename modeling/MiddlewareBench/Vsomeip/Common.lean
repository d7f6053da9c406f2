import MiddlewareBench.Lib.Bytes
import Mathlib.Data.Rat.Defs

/-!
# Shared constants, options and stamps

`constants.h` and `bench_common.h`. A `size_t` is a `UInt64` and an `int` an
`Int32`; a `double` is read as the exact rational it stands for. Offsets into
a byte block are `Nat`.
-/

namespace MiddlewareBench.Vsomeip

open Bytes

/-- A `double`, without its rounding. -/
abbrev Double := Rat

/-- The two stacks a binary is built for: `VSOMEIP_BENCH_COVESA_E2E_HOLES` is
defined for the first. -/
inductive Build
  | covesa
  | sgmenon
  deriving DecidableEq, Repr

def kServiceId : UInt16 := 0xBEEF
def kInstanceId : UInt16 := 0x0001
def kEventId : UInt16 := 0x8001
def kEchoMethodId : UInt16 := 0x0001

/-- Logical user frame: `send_ns` `[0,8)`, `seq` `[8,12)`, fill `[12,size)`. -/
def kBenchSendNsOffset : Nat := 0
def kBenchSeqOffset : Nat := 8
def kBenchHeaderBytes : Nat := 12

/-- The P04 header, which shares the datagram with every fragment. -/
def kE2eHeaderBytes : UInt64 := 12

/-- COVESA protects in place, in a hole at the front of every payload; the
sgmenon plugin adds and strips the header itself. -/
def kE2eHoleBytes : Build → Nat
  | .covesa => kE2eHeaderBytes.toNat
  | .sgmenon => 0

structure Options where
  stack : String := ""
  transport : String := "udp"
  size : UInt64 := 4096
  count : Int32 := 1000
  warmup : Int32 := 50
  rateHz : Double := 1000
  maxDatagram : UInt64 := 1400
  rpcCalls : Int32 := 0

/-- `static_cast<double>(recv_ns - send_ns) / 1000.0`. -/
def latencyUs (recvNs sendNs : UInt64) : Double :=
  ((recvNs - sendNs).toNat : Rat) / 1000

/-! ## Stamped payloads -/

/-- The fill byte at offset `i` of the frame with this `seq`. -/
def fillByte (seq : UInt32) (i : Nat) : UInt8 :=
  UInt8.ofNat (i * 131 + seq.toNat)

def stampPayload (data : Block) (sendNs : UInt64) (seq : UInt32) : Block :=
  if data.length < kBenchHeaderBytes then data
  else
    let data := writeAt data kBenchSendNsOffset (leBytes 8 sendNs.toNat)
    let data := writeAt data kBenchSeqOffset (leBytes 4 seq.toNat)
    data.take kBenchHeaderBytes ++
      (List.range' kBenchHeaderBytes (data.length - kBenchHeaderBytes)).map (fillByte seq)

/-- The `send_ns` and `seq` of a payload, when it is long enough to hold them. -/
def readStamp (data : Block) : Option (UInt64 × UInt32) :=
  if data.length < kBenchHeaderBytes then none
  else
    some (UInt64.ofNat (leNat (slice data kBenchSendNsOffset 8)),
      UInt32.ofNat (leNat (slice data kBenchSeqOffset 4)))

/-- Stamping keeps the length of the buffer. -/
theorem length_stampPayload (data : Block) (sendNs : UInt64) (seq : UInt32) :
    (stampPayload data sendNs seq).length = data.length := by
  rw [stampPayload]
  split
  · rfl
  · rename_i long
    rw [kBenchHeaderBytes] at long ⊢
    simp only [List.length_append, List.length_take, List.length_map, List.length_range',
      length_writeAt, kBenchSendNsOffset, kBenchSeqOffset, length_leBytes,
      show 0 + 8 ≤ data.length by omega, show 8 + 4 ≤ data.length by omega]
    omega

/-- **Stamp round trip.** A payload that has room for the stamp gives it back. -/
theorem readStamp_stampPayload {data : Block} (sendNs : UInt64) (seq : UInt32)
    (room : kBenchHeaderBytes ≤ data.length) :
    readStamp (stampPayload data sendNs seq) = some (sendNs, seq) := by
  have long : 12 ≤ data.length := room
  set timed := writeAt data 0 (leBytes 8 sendNs.toNat) with timedEq
  set stamped := writeAt timed 8 (leBytes 4 seq.toNat) with stampedEq
  have timedLength : timed.length = data.length :=
    length_writeAt (by rw [length_leBytes]; omega)
  have stampedLength : stamped.length = data.length := by
    rw [← timedLength]
    exact length_writeAt (by rw [length_leBytes]; omega)
  have head : ∀ off n, off + n ≤ 12 →
      slice (stampPayload data sendNs seq) off n = slice stamped off n := by
    intro off n inside
    rw [stampPayload, if_neg (Nat.not_lt.mpr room)]
    change slice (stamped.take 12 ++ _) off n = slice stamped off n
    rw [slice_append_left (by rw [List.length_take]; omega), slice_take inside]
  have sendNsBytes : slice stamped 0 8 = leBytes 8 sendNs.toNat := by
    rw [stampedEq, slice_writeAt_before (by rw [length_leBytes]; omega) (by omega), timedEq]
    exact slice_writeAt_same (by omega) (length_leBytes 8 _)
  have seqBytes : slice stamped 8 4 = leBytes 4 seq.toNat :=
    slice_writeAt_same (by omega) (length_leBytes 4 _)
  rw [readStamp, if_neg (by rw [length_stampPayload]; omega), kBenchSendNsOffset,
    kBenchSeqOffset, head 0 8 (by omega), head 8 4 (by omega), sendNsBytes, seqBytes,
    ofNat_leNat_u64, ofNat_leNat_u32]

end MiddlewareBench.Vsomeip
