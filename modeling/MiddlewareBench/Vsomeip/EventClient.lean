import MiddlewareBench.Lib.Transducer
import MiddlewareBench.Vsomeip.Fragment

/-!
# The subscriber

`EventClient` of `event_client.cc`: what a message does to the client. Events go
through the tracker and are counted when a frame completes; responses to the
echo method are compared with the call that is pending.

`onEchoResponse` reads the payload before it takes the lock, so what it does
under the lock is a function of its own, `completeEcho`. `recvNs` is what the
clock reads on arrival.
-/

namespace MiddlewareBench.Vsomeip

open Bytes Transducer

inductive MessageType
  | mtNotification
  | mtResponse
  | mtOther
  deriving DecidableEq, Repr

structure Message where
  messageType : MessageType
  service : UInt16
  instanceId : UInt16
  method : UInt16
  payload : Block
  deriving DecidableEq, Repr

/-- A notification of the benchmark's event. -/
def notification (payload : Block) : Message :=
  ⟨.mtNotification, kServiceId, kInstanceId, kEventId, payload⟩

/-- A response of the echo method. -/
def echoResponse (payload : Block) : Message :=
  ⟨.mtResponse, kServiceId, kInstanceId, kEchoMethodId, payload⟩

/-- What the handlers of a client share. -/
structure EventClient where
  tracker : FrameTracker := {}
  done : Bool := false
  rpcPendingSeq : UInt32 := 0
  rpcDone : Bool := false
  rpcRttUs : Double := 0
  lastSeq : UInt32 := 0
  gapCount : UInt64 := 0
  latenciesUs : List Double := []
  deriving DecidableEq, Repr

namespace EventClient

/-! ## Events -/

/-- Counts the frames skipped since the last one. `last_seq_` is `0` before the
first. -/
def countGap (self : EventClient) (seq : UInt32) : EventClient :=
  let self :=
    if self.lastSeq ≠ 0 ∧ seq > self.lastSeq + 1 then
      { self with gapCount := self.gapCount + (seq - self.lastSeq - 1).toUInt64 }
    else self
  { self with lastSeq := seq }

/-- Records a sample, unless the frame is one of the warmup. -/
def recordLatency (opt : Options) (self : EventClient) (seq : UInt32) (us : Double) :
    EventClient :=
  if seq < opt.warmup.toUInt32 then self
  else
    let self := { self with latenciesUs := self.latenciesUs ++ [us] }
    if Int32.ofNat self.latenciesUs.length ≥ opt.count then { self with done := true } else self

/-- What a completed frame does, under the lock. -/
def onFrame (opt : Options) (self : EventClient) (recvNs : UInt64) (frame : CompletedFrame) :
    EventClient :=
  (self.countGap frame.seq).recordLatency opt frame.seq (latencyUs recvNs frame.sendNs)

def onNotification (build : Build) (opt : Options) (self : EventClient) (recvNs : UInt64)
    (payload : Block) : EventClient :=
  let ingested := self.tracker.ingest build payload
  let self := { self with tracker := ingested.1 }
  match ingested.2 with
  | none => self
  | some frame => self.onFrame opt recvNs frame

/-! ## Echo responses -/

/-- What a readable response does, under the lock. -/
def completeEcho (self : EventClient) (recvNs sendNs : UInt64) (seq : UInt32) : EventClient :=
  if seq ≠ self.rpcPendingSeq then self
  else { self with rpcRttUs := latencyUs recvNs sendNs, rpcDone := true }

def onEchoResponse (self : EventClient) (recvNs : UInt64) (payload : Block) : EventClient :=
  match readStamp payload with
  | none => self
  | some (sendNs, seq) => self.completeEcho recvNs sendNs seq

/-! ## Messages -/

def onMessage (build : Build) (opt : Options) (self : EventClient) (recvNs : UInt64)
    (msg : Message) : EventClient :=
  if msg.messageType = .mtResponse ∧ msg.method = kEchoMethodId then
    self.onEchoResponse recvNs msg.payload
  else if msg.messageType ≠ .mtNotification then self
  else if msg.service ≠ kServiceId ∨ msg.instanceId ≠ kInstanceId ∨ msg.method ≠ kEventId then self
  else self.onNotification build opt recvNs msg.payload

/-- A client that is handed messages one after the other, each with its arrival
time. -/
def receive (build : Build) (opt : Options) (self : EventClient)
    (arrivals : List (UInt64 × Message)) : EventClient :=
  arrivals.foldl (fun self arrival => self.onMessage build opt arrival.1 arrival.2) self

@[simp] theorem onMessage_notification (build : Build) (opt : Options) (self : EventClient)
    (recvNs : UInt64) (payload : Block) :
    self.onMessage build opt recvNs (notification payload) =
      self.onNotification build opt recvNs payload := by
  rfl

end EventClient

end MiddlewareBench.Vsomeip
