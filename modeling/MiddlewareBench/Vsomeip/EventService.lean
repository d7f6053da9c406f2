import MiddlewareBench.Vsomeip.Fragment

/-!
# The publisher

`EventService::Worker` of `event_service.cc`: one block, reused for every frame,
whose headers and stamp are rewritten in place and whose slices are sent as one
`notify` each.

The payload types are the library's. `lengthT` is its `length_t`, the type a
slice length is cast to on sgmenon, and `e2eProtect` is what its P04 protection
does to a payload on the way: it fills the hole at the front.
-/

namespace MiddlewareBench.Vsomeip

open Bytes

/-- One notify per frame on TCP, an even split on UDP. -/
def Options.plan (opt : Options) : Option ChunkPlan :=
  if opt.transport = "tcp" then some ⟨1, opt.size⟩ else planChunks opt.size opt.maxDatagram

namespace EventService

/-- The payload of chunk `c`. The COVESA build puts a hole in front of it. -/
def notifyPayload (build : Build) (lengthT : UInt64 → UInt64) (plan : ChunkPlan)
    (block : Block) (c : Nat) : Option Block :=
  let off := (plan.offset c).toNat
  let n := plan.sliceLen (UInt64.ofNat block.length) c
  match build with
  | .covesa => (readChecked block off n.toNat).map (List.replicate (kE2eHoleBytes build) 0 ++ ·)
  | .sgmenon => readChecked block off (lengthT n).toNat

/-- One turn of the publish loop: the block it leaves and the payloads it sends. -/
def publishFrame (build : Build) (lengthT : UInt64 → UInt64) (plan : ChunkPlan)
    (block : Block) (seq : UInt32) (now : UInt64) : Option (Block × List Block) := do
  let block ← writeChunkHeaders block seq plan
  let block ← stampSendNs block now
  let payloads ← (List.range plan.count.toNat).mapM (notifyPayload build lengthT plan block)
  return (block, payloads)

/-- The publish loop, given what the clock reads in each turn. -/
def publishFrames (build : Build) (lengthT : UInt64 → UInt64) (plan : ChunkPlan) :
    Block → UInt32 → List UInt64 → Option (List (List Block))
  | _, _, [] => some []
  | block, seq, now :: later => do
    let (block, payloads) ← publishFrame build lengthT plan block seq now
    let frames ← publishFrames build lengthT plan block (seq + 1) later
    return payloads :: frames

/-- How many frames are published. -/
def total (opt : Options) : Int32 := opt.warmup + opt.count

/-- The block before the first frame. -/
def initialBlock (opt : Options) : Block :=
  (List.range opt.size.toNat).map (fillByte 0)

def worker (build : Build) (lengthT : UInt64 → UInt64) (opt : Options) (clock : Nat → UInt64) :
    Option (List (List Block)) := do
  let plan ← opt.plan
  publishFrames build lengthT plan (initialBlock opt) 0
    ((List.range (total opt).toInt.toNat).map clock)

end EventService

/-- The payload as the subscriber's stack hands it on, its hole overwritten by
the P04 header. -/
def e2eProtect (build : Build) (header : Fin (kE2eHoleBytes build) → UInt8) (payload : Block) :
    Block :=
  List.ofFn header ++ payload.drop (kE2eHoleBytes build)

end MiddlewareBench.Vsomeip
