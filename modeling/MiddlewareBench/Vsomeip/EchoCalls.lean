import MiddlewareBench.Lib.Runs
import MiddlewareBench.Vsomeip.EventClient

/-!
# Echo calls

`EventClient::RunEchoCalls` and the parties around it: the calling thread, the
echo service, which sends the payload of a request back unchanged, a network
that may deliver any request or response it was given, in any order, any number
of times or never, and the handlers that run `OnEchoResponse`.

A step of the caller is what it does between two points where another party can
interfere: it stamps its buffer, takes the lock to arm the call, sends, and wakes
or times out with the lock held. A handler reads the clock and the payload
(`deliver`) before it takes the lock (`handle`), and several may be in between.
-/

namespace MiddlewareBench.Vsomeip.EchoCalls

open Bytes

/-! ## States -/

/-- Where the caller is. Call `i` has sequence number `i`. -/
inductive CallerPc
  | begin
  /-- at the loop head -/
  | call (i : Nat)
  /-- stamped, about to set the pending number -/
  | arm (i : Nat)
  | send (i : Nat)
  | wait (i : Nat)
  /-- left the loop after `calls` calls -/
  | finished (calls : Nat)
  | failed
  deriving DecidableEq, Repr

/-- What is printed about a call. -/
inductive Line
  | rtt (call : Nat) (us : Double)
  | timeout (call : Nat)
  deriving DecidableEq, Repr

def Line.call : Line → Nat
  | .rtt call _ => call
  | .timeout call => call

def Line.rtt? : Line → Option Double
  | .rtt _ us => some us
  | .timeout _ => none

/-- A handler that has read its response and not yet taken the lock. -/
structure Handler where
  recvNs : UInt64
  sendNs : UInt64
  seq : UInt32
  deriving DecidableEq, Repr

/-- `requests` and `responses` are all that was ever sent. -/
structure State where
  client : EventClient := {}
  buf : Block
  pc : CallerPc := .begin
  rtts : List Double := []
  printed : List Line := []
  requests : List Block := []
  responses : List Block := []
  handlers : List Handler := []
  deriving DecidableEq, Repr

def start (opt : Options) : State := { buf := List.replicate opt.size.toNat 0 }

/-! ## Steps -/

inductive Action
  -- caller
  | begin
  | stamp (now : UInt64)
  | leave
  | arm
  | send
  | wake
  | timeout
  -- service, for any request sent
  | echo (request : Nat)
  -- handlers, for any response sent
  | deliver (response : Nat) (recvNs : UInt64)
  | handle (handler : Nat)
  deriving DecidableEq, Repr

def step (opt : Options) (s : State) : Action → Option State
  | .begin =>
    match s.pc with
    | .begin =>
      if opt.transport = "udp" ∧ opt.size > opt.maxDatagram then some { s with pc := .failed }
      else some { s with pc := .call 0 }
    | _ => none
  | .stamp now =>
    match s.pc with
    | .call i =>
      if (i : Int) < opt.rpcCalls.toInt then
        some { s with buf := stampPayload s.buf now (UInt32.ofNat i), pc := .arm i }
      else none
    | _ => none
  | .leave =>
    match s.pc with
    | .call i =>
      if (i : Int) < opt.rpcCalls.toInt then none else some { s with pc := .finished i }
    | _ => none
  | .arm =>
    match s.pc with
    | .arm i =>
      let client := { s.client with rpcPendingSeq := UInt32.ofNat i, rpcDone := false }
      some { s with client, pc := .send i }
    | _ => none
  | .send =>
    match s.pc with
    | .send i => some { s with requests := s.requests ++ [s.buf], pc := .wait i }
    | _ => none
  | .wake =>
    match s.pc with
    | .wait i =>
      if s.client.rpcDone then
        some { s with
          rtts := s.rtts ++ [s.client.rpcRttUs]
          printed := s.printed ++ [.rtt i s.client.rpcRttUs]
          pc := .call (i + 1) }
      else none
    | _ => none
  | .timeout =>
    match s.pc with
    | .wait i =>
      if s.client.rpcDone then none
      else some { s with printed := s.printed ++ [.timeout i], pc := .call (i + 1) }
    | _ => none
  | .echo request =>
    s.requests[request]?.map fun payload => { s with responses := s.responses ++ [payload] }
  | .deliver response recvNs =>
    s.responses[response]?.map fun payload =>
      match readStamp payload with
      | none => s
      | some (sendNs, seq) => { s with handlers := s.handlers ++ [⟨recvNs, sendNs, seq⟩] }
  | .handle handler =>
    s.handlers[handler]?.map fun h =>
      { s with
        client := s.client.completeEcho h.recvNs h.sendNs h.seq
        handlers := s.handlers.eraseIdx handler }

/-! ## What a step can do -/

inductive Step (opt : Options) (s : State) : Action → State → Prop
  | refuse (pc : s.pc = .begin) : Step opt s .begin { s with pc := .failed }
  | begin (pc : s.pc = .begin) : Step opt s .begin { s with pc := .call 0 }
  | stamp (i : Nat) (now : UInt64) (pc : s.pc = .call i) (more : (i : Int) < opt.rpcCalls.toInt) :
      Step opt s (.stamp now)
        { s with buf := stampPayload s.buf now (UInt32.ofNat i), pc := .arm i }
  | leave (i : Nat) (pc : s.pc = .call i) : Step opt s .leave { s with pc := .finished i }
  | arm (i : Nat) (client : EventClient) (pc : s.pc = .arm i)
      (pending : client.rpcPendingSeq = UInt32.ofNat i) (open' : client.rpcDone = false) :
      Step opt s .arm { s with client, pc := .send i }
  | send (i : Nat) (pc : s.pc = .send i) :
      Step opt s .send { s with requests := s.requests ++ [s.buf], pc := .wait i }
  | wake (i : Nat) (pc : s.pc = .wait i) (done : s.client.rpcDone = true) :
      Step opt s .wake { s with
        rtts := s.rtts ++ [s.client.rpcRttUs]
        printed := s.printed ++ [.rtt i s.client.rpcRttUs]
        pc := .call (i + 1) }
  | timeout (i : Nat) (pc : s.pc = .wait i) :
      Step opt s .timeout { s with printed := s.printed ++ [.timeout i], pc := .call (i + 1) }
  | echo (request : Nat) (payload : Block) (sent : s.requests[request]? = some payload) :
      Step opt s (.echo request) { s with responses := s.responses ++ [payload] }
  | ignore (response : Nat) (recvNs : UInt64) (payload : Block)
      (sent : s.responses[response]? = some payload) (unreadable : readStamp payload = none) :
      Step opt s (.deliver response recvNs) s
  | deliver (response : Nat) (recvNs sendNs : UInt64) (seq : UInt32) (payload : Block)
      (sent : s.responses[response]? = some payload)
      (stamped : readStamp payload = some (sendNs, seq)) :
      Step opt s (.deliver response recvNs)
        { s with handlers := s.handlers ++ [⟨recvNs, sendNs, seq⟩] }
  | handle (handler : Nat) (h : Handler) (running : s.handlers[handler]? = some h) :
      Step opt s (.handle handler) { s with
        client := s.client.completeEcho h.recvNs h.sendNs h.seq
        handlers := s.handlers.eraseIdx handler }

/-- **Inversion.** -/
theorem step_cases {opt : Options} {s t : State} {a : Action}
    (stepped : step opt s a = some t) : Step opt s a t := by
  cases a with
  | begin =>
      simp only [step] at stepped
      split at stepped
      · rename_i pc
        split at stepped <;> cases stepped
        · exact .refuse pc
        · exact .begin pc
      · cases stepped
  | stamp now =>
      simp only [step] at stepped
      split at stepped
      · rename_i i pc
        simp only [Option.ite_none_right_eq_some, Option.some.injEq] at stepped
        rcases stepped with ⟨more, rfl⟩
        exact .stamp i now pc more
      · cases stepped
  | leave =>
      simp only [step] at stepped
      split at stepped
      · rename_i i pc
        simp only [Option.ite_none_left_eq_some, Option.some.injEq] at stepped
        rcases stepped with ⟨-, rfl⟩
        exact .leave i pc
      · cases stepped
  | arm =>
      simp only [step] at stepped
      split at stepped
      · rename_i i pc
        cases stepped
        exact .arm i _ pc rfl rfl
      · cases stepped
  | send =>
      simp only [step] at stepped
      split at stepped
      · rename_i i pc
        cases stepped
        exact .send i pc
      · cases stepped
  | wake =>
      simp only [step] at stepped
      split at stepped
      · rename_i i pc
        simp only [Option.ite_none_right_eq_some, Option.some.injEq] at stepped
        rcases stepped with ⟨done, rfl⟩
        exact .wake i pc done
      · cases stepped
  | timeout =>
      simp only [step] at stepped
      split at stepped
      · rename_i i pc
        simp only [Option.ite_none_left_eq_some, Option.some.injEq] at stepped
        rcases stepped with ⟨-, rfl⟩
        exact .timeout i pc
      · cases stepped
  | echo request =>
      obtain ⟨payload, sent, rfl⟩ := Option.map_eq_some_iff.mp stepped
      exact .echo request payload sent
  | deliver response recvNs =>
      obtain ⟨payload, sent, outcome⟩ := Option.map_eq_some_iff.mp stepped
      cases stamp : readStamp payload with
      | none =>
          rw [stamp] at outcome
          cases outcome
          exact .ignore response recvNs payload sent stamp
      | some stamped =>
          rw [stamp] at outcome
          cases outcome
          exact .deliver response recvNs _ _ payload sent stamp
  | handle handler =>
      obtain ⟨h, running, rfl⟩ := Option.map_eq_some_iff.mp stepped
      exact .handle handler h running

end MiddlewareBench.Vsomeip.EchoCalls
