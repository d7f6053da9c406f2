import MiddlewareBench.Lib.Runs
import MiddlewareBench.Vsomeip.Common

/-!
# Network ping-pong

`RunPub` and `RunSub` of `subspace_net.cc`, `zenoh_net.cc` and `cyclone_net.cc`,
which are one program over three libraries: probe until an echo comes back, then
time one request after the other, each until its own echo comes back. Between
the two processes are two channels that may deliver any message they were given,
in any order, any number of times or never.

The FlatBuffers code behind a `Bench::Sample` is a parameter.
-/

namespace MiddlewareBench.Net

open Bytes Vsomeip

/-- The fields of the options that `RunPub` and `RunSub` compute with. -/
structure Options where
  size : UInt64 := 1024
  count : Int32 := 1000
  warmup : Int32 := 50

/-! ## Samples -/

/-- `Bench_generated.h` and the library under it: `CreateSample` with `Finish`,
the reader of `seq`, and `mutate_send_ns`, which fails when the field is absent. -/
structure Flatbuffers where
  createSample : (seq sendNs : UInt64) → (data : Block) → Block
  seq : Block → UInt64
  mutateSendNs : Block → UInt64 → Option Block

/-- What is written is read back, and a new time stamp leaves the rest alone. -/
structure Flatbuffers.Lawful (fbs : Flatbuffers) : Prop where
  seq_createSample : ∀ seq sendNs data, fbs.seq (fbs.createSample seq sendNs data) = seq
  seq_mutateSendNs : ∀ buf sendNs stamped, fbs.mutateSendNs buf sendNs = some stamped →
    fbs.seq stamped = fbs.seq buf

variable (fbs : Flatbuffers)

/-- The body is left as the memory was. -/
def buildSample (seq : UInt64) (payloadBytes : UInt64) (memory : Block) : Block :=
  fbs.createSample seq 1 (memory.take payloadBytes.toNat)

def stampSample (buf : Block) (now : UInt64) : Option Block :=
  fbs.mutateSendNs buf now

def readSampleMeta (data : Block) : Option UInt64 :=
  if data.length < 8 then none else some (fbs.seq data)

/-- What `PublishFbs` and `PutBytes` hand to the library. -/
def sampleBytes (opt : Options) (memory : Block) (seq now : UInt64) : Option Block :=
  stampSample fbs (buildSample fbs seq opt.size memory) now

/-- `Bench_Sample` of the generated `Bench.h`. -/
structure BenchSample where
  seq : UInt64
  sendNs : UInt64
  data : Block
  deriving DecidableEq, Repr

/-- What `WriteSample` hands to the library: the payload is zeroed, and its length
is cast to 32 bits. -/
def writeSample (opt : Options) (_ : Block) (seq now : UInt64) : Option BenchSample :=
  some { seq, sendNs := now, data := List.replicate opt.size.toUInt32.toNat 0 }

/-! ## The three programs -/

/-- In what the programs differ. -/
structure Program where
  Message : Type
  /-- How many times the link is probed at most. -/
  maxProbes : Nat
  /-- A probe is sent only after `WaitMatched`. -/
  waitsMatched : Bool
  /-- Publishing reports its failures. -/
  reports : Bool
  write : (opt : Options) → (memory : Block) → (seq now : UInt64) → Option Message
  readSeq : Message → Option UInt64

def subspaceNet : Program where
  Message := Block
  maxProbes := 200
  waitsMatched := false
  reports := true
  write := sampleBytes fbs
  readSeq := readSampleMeta fbs

def zenohNet : Program where
  Message := Block
  maxProbes := 100
  waitsMatched := false
  reports := false
  write := sampleBytes fbs
  readSeq := readSampleMeta fbs

def cycloneNet : Program where
  Message := BenchSample
  maxProbes := 200
  waitsMatched := true
  reports := true
  write := writeSample
  readSeq sample := some sample.seq

/-! ## States -/

/-- Where `RunPub` is. -/
inductive PubPc
  /-- at the head of the probing loop -/
  | probe (i : Nat)
  /-- waiting for the echo of that probe -/
  | link (i : Nat)
  /-- at the head of the timed loop -/
  | timed (i : Nat)
  | publish (i : Nat) (t0 : UInt64)
  | await (i : Nat) (t0 : UInt64)
  /-- has the echo, about to read the clock -/
  | echoed (i : Nat) (t0 : UInt64)
  | finished
  | failed
  deriving DecidableEq, Repr

/-- `requests` and `replies` are all that was ever sent on the two channels. -/
structure State (M : Type) where
  pc : PubPc := .probe 0
  seq : UInt64 := 1000
  halfUs : List Double := []
  requests : List M := []
  replies : List M := []
  /-- `RunSub` has not returned. -/
  echoing : Bool := true

/-- `static_cast<double>(t1 - t0) / 2.0 * 1e-3`. -/
def halfRttUs (t1 t0 : UInt64) : Double :=
  ((t1 - t0).toNat : Rat) / 2 * (1 / 1000)

/-! ## Steps -/

inductive Action
  -- RunPub
  | unmatched
  | publish (memory : Block) (now : UInt64) (ok : Bool)
  | take (reply : Nat)
  | expire
  | begin (t0 : UInt64)
  | finish (t1 : UInt64)
  | leave
  -- RunSub, for any request sent
  | echo (request : Nat) (memory : Block) (now : UInt64) (ok : Bool)
  | ignore (request : Nat)
  deriving DecidableEq, Repr

/-- `i < opt.warmup + opt.count`. -/
def more (pub : Options) (i : Nat) : Prop := (i : Int) < (pub.warmup + pub.count).toInt

instance (pub : Options) (i : Nat) : Decidable (more pub i) :=
  inferInstanceAs (Decidable (_ < _))

/-- A failed publish may have sent its message all the same; one that throws ends
the process, which is no step. -/
def step (net : Program) (pub sub : Options) (s : State net.Message) :
    Action → Option (State net.Message)
  | .unmatched =>
    match s.pc with
    | .probe i =>
      if net.waitsMatched ∧ i < net.maxProbes then some { s with pc := .probe (i + 1) } else none
    | _ => none
  | .publish memory now ok =>
    if ok ∨ net.reports then
      match s.pc with
      | .probe i =>
        if i < net.maxProbes then
          (net.write pub memory (UInt64.ofNat (i + 1)) now).map fun message =>
            { s with
              requests := s.requests ++ [message]
              pc := if ok then .link i else .probe (i + 1) }
        else none
      | .publish i t0 =>
        (net.write pub memory s.seq now).map fun message =>
          { s with
            requests := s.requests ++ [message]
            pc := if ok then .await i t0 else .failed }
      | _ => none
    else none
  | .take reply =>
    s.replies[reply]?.bind fun message =>
      match s.pc with
      | .link i =>
        if net.readSeq message = some (UInt64.ofNat (i + 1)) then some { s with pc := .timed 0 }
        else some s
      | .await i t0 =>
        if net.readSeq message = some s.seq then some { s with pc := .echoed i t0 } else some s
      | _ => none
  | .expire =>
    match s.pc with
    | .link i => some { s with pc := .probe (i + 1) }
    | .await _ _ => some { s with pc := .failed }
    | _ => none
  | .begin t0 =>
    match s.pc with
    | .timed i =>
      if more pub i then some { s with seq := s.seq + 1, pc := .publish i t0 } else none
    | _ => none
  | .finish t1 =>
    match s.pc with
    | .echoed i t0 =>
      some { s with
        halfUs := if pub.warmup.toInt ≤ i then s.halfUs ++ [halfRttUs t1 t0] else s.halfUs
        pc := .timed (i + 1) }
    | _ => none
  | .leave =>
    match s.pc with
    | .probe i => if i < net.maxProbes then none else some { s with pc := .failed }
    | .timed i => if more pub i then none else some { s with pc := .finished }
    | _ => none
  | .echo request memory now ok =>
    if s.echoing ∧ (ok ∨ net.reports) then
      s.requests[request]?.bind fun message =>
        (net.readSeq message).bind fun seq =>
          (net.write sub memory seq now).map fun reply =>
            { s with replies := s.replies ++ [reply], echoing := ok }
    else none
  | .ignore request =>
    s.requests[request]?.bind fun message =>
      if s.echoing ∧ net.readSeq message = none then some s else none

/-! ## What a step can do -/

section Inversion

variable (net : Program) (pub sub : Options)

inductive Step (s : State net.Message) : Action → State net.Message → Prop
  | unmatched (i : Nat) (pc : s.pc = .probe i) : Step s .unmatched { s with pc := .probe (i + 1) }
  | probe (i : Nat) (memory : Block) (now : UInt64) (ok : Bool) (message : net.Message)
      (pc : s.pc = .probe i) (below : i < net.maxProbes)
      (written : net.write pub memory (UInt64.ofNat (i + 1)) now = some message) :
      Step s (.publish memory now ok) { s with
        requests := s.requests ++ [message]
        pc := if ok then .link i else .probe (i + 1) }
  | publish (i : Nat) (t0 : UInt64) (memory : Block) (now : UInt64) (ok : Bool)
      (message : net.Message) (pc : s.pc = .publish i t0)
      (written : net.write pub memory s.seq now = some message) :
      Step s (.publish memory now ok) { s with
        requests := s.requests ++ [message]
        pc := if ok then .await i t0 else .failed }
  | linked (i reply : Nat) (pc : s.pc = .link i) : Step s (.take reply) { s with pc := .timed 0 }
  | pass (reply : Nat) (waiting : (∃ i, s.pc = .link i) ∨ ∃ i t0, s.pc = .await i t0) :
      Step s (.take reply) s
  | answer (i : Nat) (t0 : UInt64) (reply : Nat) (message : net.Message)
      (pc : s.pc = .await i t0) (sent : s.replies[reply]? = some message)
      (same : net.readSeq message = some s.seq) :
      Step s (.take reply) { s with pc := .echoed i t0 }
  | retry (i : Nat) (pc : s.pc = .link i) : Step s .expire { s with pc := .probe (i + 1) }
  | timeout : Step s .expire { s with pc := .failed }
  | begin (i : Nat) (t0 : UInt64) (pc : s.pc = .timed i) (more : more pub i) :
      Step s (.begin t0) { s with seq := s.seq + 1, pc := .publish i t0 }
  | finish (i : Nat) (t0 t1 : UInt64) (pc : s.pc = .echoed i t0) :
      Step s (.finish t1) { s with
        halfUs := if pub.warmup.toInt ≤ i then s.halfUs ++ [halfRttUs t1 t0] else s.halfUs
        pc := .timed (i + 1) }
  | leave (pc : PubPc) (over' : pc = .failed ∨ pc = .finished) : Step s .leave { s with pc }
  | echo (request : Nat) (memory : Block) (now : UInt64) (ok : Bool) (message reply : net.Message)
      (seq : UInt64) (sent : s.requests[request]? = some message)
      (read : net.readSeq message = some seq) (written : net.write sub memory seq now = some reply) :
      Step s (.echo request memory now ok)
        { s with replies := s.replies ++ [reply], echoing := ok }
  | ignore (request : Nat) : Step s (.ignore request) s

variable {net pub sub}

/-- **Inversion.** -/
theorem step_cases {s t : State net.Message} {a : Action}
    (stepped : step net pub sub s a = some t) : Step net pub sub s a t := by
  cases a with
  | unmatched =>
      simp only [step] at stepped
      split at stepped
      · rename_i i pc
        simp only [Option.ite_none_right_eq_some, Option.some.injEq] at stepped
        rcases stepped with ⟨-, rfl⟩
        exact .unmatched i pc
      · cases stepped
  | publish memory now ok =>
      simp only [step, Option.ite_none_right_eq_some] at stepped
      rcases stepped with ⟨-, stepped⟩
      split at stepped
      · rename_i i pc
        simp only [Option.ite_none_right_eq_some] at stepped
        rcases stepped with ⟨below, stepped⟩
        obtain ⟨message, written, rfl⟩ := Option.map_eq_some_iff.mp stepped
        exact .probe i memory now ok message pc below written
      · rename_i i t0 pc
        obtain ⟨message, written, rfl⟩ := Option.map_eq_some_iff.mp stepped
        exact .publish i t0 memory now ok message pc written
      · cases stepped
  | take reply =>
      obtain ⟨message, sent, stepped⟩ := Option.bind_eq_some_iff.mp stepped
      split at stepped
      · rename_i i pc
        split at stepped <;> cases stepped
        · exact .linked i reply pc
        · exact .pass reply (.inl ⟨i, pc⟩)
      · rename_i i t0 pc
        split at stepped <;> cases stepped
        · rename_i same
          exact .answer i t0 reply message pc sent same
        · exact .pass reply (.inr ⟨i, t0, pc⟩)
      · cases stepped
  | expire =>
      simp only [step] at stepped
      split at stepped
      · rename_i i pc
        cases stepped
        exact .retry i pc
      · cases stepped
        exact .timeout
      · cases stepped
  | begin t0 =>
      simp only [step] at stepped
      split at stepped
      · rename_i i pc
        simp only [Option.ite_none_right_eq_some, Option.some.injEq] at stepped
        rcases stepped with ⟨more, rfl⟩
        exact .begin i t0 pc more
      · cases stepped
  | finish t1 =>
      simp only [step] at stepped
      split at stepped
      · rename_i i t0 pc
        cases stepped
        exact .finish i t0 t1 pc
      · cases stepped
  | leave =>
      simp only [step] at stepped
      split at stepped
      · simp only [Option.ite_none_left_eq_some, Option.some.injEq] at stepped
        rcases stepped with ⟨-, rfl⟩
        exact .leave .failed (.inl rfl)
      · simp only [Option.ite_none_left_eq_some, Option.some.injEq] at stepped
        rcases stepped with ⟨-, rfl⟩
        exact .leave .finished (.inr rfl)
      · cases stepped
  | echo request memory now ok =>
      simp only [step, Option.ite_none_right_eq_some] at stepped
      rcases stepped with ⟨-, stepped⟩
      obtain ⟨message, sent, stepped⟩ := Option.bind_eq_some_iff.mp stepped
      obtain ⟨seq, read, stepped⟩ := Option.bind_eq_some_iff.mp stepped
      obtain ⟨reply, written, rfl⟩ := Option.map_eq_some_iff.mp stepped
      exact .echo request memory now ok message reply seq sent read written
  | ignore request =>
      obtain ⟨message, -, stepped⟩ := Option.bind_eq_some_iff.mp stepped
      simp only [Option.ite_none_right_eq_some, Option.some.injEq] at stepped
      rcases stepped with ⟨-, rfl⟩
      exact .ignore request

end Inversion

end MiddlewareBench.Net
