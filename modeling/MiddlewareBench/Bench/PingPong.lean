import MiddlewareBench.Net.PingAttribution

/-!
# In-process ping-pong

`RunPingPong` of `cyclone_bench.cc`, `subspace_bench.cc` and `zenoh_bench.cc`: one thread
publishes a sample, takes until it has that sample back, and records how long it was on
its way. Between the publisher and the subscriber of that thread is a channel that may
deliver whatever it was given, in any order, any number of times or never.

Cyclone waits until the writer is matched first, Zenoh probes the link, and goes on with
the number of the probe that came through.
-/

namespace MiddlewareBench.Bench

open Bytes Runs Vsomeip

/-! ## Samples -/

/-- `Bench_generated.h` with its reader of `send_ns`. -/
structure Flatbuffers extends Net.Flatbuffers where
  sendNs : Block → UInt64

structure Flatbuffers.Lawful (fbs : Flatbuffers) : Prop extends fbs.toFlatbuffers.Lawful where
  sendNs_mutateSendNs : ∀ buf sendNs stamped, fbs.mutateSendNs buf sendNs = some stamped →
    fbs.sendNs stamped = sendNs

def oneWayLatencySec (sendNs now : UInt64) : Double :=
  if now ≤ sendNs then 0 else ((now - sendNs).toNat : Rat) * (1 / 1000000000)

namespace PingPong

/-! ## The three programs -/

/-- Where the thread is. -/
inductive Pc
  /-- in `WaitMatched`, after so many looks -/
  | matching (polls : Nat)
  /-- in `WaitUntilLinked`, about to send this probe -/
  | probe (i : Nat)
  /-- waiting for that probe -/
  | link (i : Nat)
  /-- at the head of the benchmark loop -/
  | head
  | publish
  | await
  /-- has the sample, about to read the clock -/
  | taken (sendNs : UInt64)
  | finished
  | skipped
  deriving DecidableEq, Repr

/-- In what the programs differ. -/
structure Program where
  Message : Type
  entry : Pc
  maxProbes : (size : UInt64) → Nat
  /-- A probe that did not come through shared memory does not count. -/
  requireShm : (size : UInt64) → Bool
  /-- A failed publish is reported, and ends the run. -/
  reports : Bool
  /-- A message that cannot be read ends the run. -/
  unreadableEnds : Bool
  write : (size : UInt64) → (memory : Block) → (seq now : UInt64) → Option Message
  read : Message → Option (UInt64 × UInt64)
  isWanted : (want got : UInt64) → Bool

/-- What `WaitMatched` looks for, every ten milliseconds of two seconds. -/
def matchPolls : Nat := 200

def readSampleMeta (fbs : Flatbuffers) (data : Block) : Option (UInt64 × UInt64) :=
  if data.length < 8 then none else some (fbs.seq data, fbs.sendNs data)

def cyclone : Program where
  Message := Net.BenchSample
  entry := .matching 0
  maxProbes _ := 0
  requireShm _ := false
  reports := true
  unreadableEnds := false
  write size := Net.writeSample { size }
  read sample := some (sample.seq, sample.sendNs)
  isWanted want got := got == want

def subspace (fbs : Flatbuffers) : Program where
  Message := Block
  entry := .head
  maxProbes _ := 0
  requireShm _ := false
  reports := true
  unreadableEnds := true
  write size := Net.sampleBytes fbs.toFlatbuffers { size }
  read := readSampleMeta fbs
  isWanted want got := got == want

/-- Few probes at the sizes that would exhaust the segment, and no insistence on shared
memory for the tiny ones. In `RecvMatching` the number 0 stands for any. -/
def zenoh (fbs : Flatbuffers) : Program where
  Message := Block
  entry := .probe 1
  maxProbes size := if size > 256 * 1024 then 4 else 32
  requireShm size := decide (size ≥ 4096)
  reports := false
  unreadableEnds := false
  write size := Net.sampleBytes fbs.toFlatbuffers { size }
  read := readSampleMeta fbs
  isWanted want got := want == 0 || got == want

/-! ## States -/

/-- `iterations` is how often the library runs the loop, in its own type. -/
structure Config where
  size : UInt64
  iterations : Int64

/-- `channel` is all that was ever published. -/
structure State (M : Type) where
  pc : Pc
  seq : UInt64 := 0
  started : Nat := 0
  lats : List Double := []
  channel : List M := []

def start (program : Program) : State program.Message := { pc := program.entry }

/-! ## Steps -/

inductive Action
  | look (matched : Bool)
  | probe (memory : Block) (now : UInt64)
  | begin
  | publish (memory : Block) (now : UInt64) (ok : Bool)
  | take (message : Nat) (shm : Bool)
  /-- out of time, or out of a library that failed -/
  | giveUp
  | record (now : UInt64)
  | leave
  deriving DecidableEq, Repr

/-- Whether the loop runs once more. -/
def more (cfg : Config) (started : Nat) : Prop := (started : Int) < cfg.iterations.toInt

instance (cfg : Config) (started : Nat) : Decidable (more cfg started) :=
  inferInstanceAs (Decidable (_ < _))

/-- What a delivered message does to the thread that waits for it. -/
def receive (program : Program) (cfg : Config) (s : State program.Message)
    (message : program.Message) (shm : Bool) : Option (State program.Message) :=
  match s.pc with
  | .link i =>
    match program.read message with
    | none => some s
    | some (got, _) =>
      if program.requireShm cfg.size ∧ shm = false then some s
      else if program.isWanted (UInt64.ofNat i) got then
        some { s with seq := UInt64.ofNat i, pc := .head }
      else some s
  | .await =>
    match program.read message with
    | none => if program.unreadableEnds then some { s with pc := .skipped } else some s
    | some (got, sendNs) =>
      if program.isWanted s.seq got then some { s with pc := .taken sendNs } else some s
  | _ => none

/-- A failed publish may have sent its message all the same; one that throws ends the
process, which is no step. -/
def step (program : Program) (cfg : Config) (s : State program.Message) :
    Action → Option (State program.Message)
  | .look matched =>
    match s.pc with
    | .matching polls =>
      if polls < matchPolls then
        some { s with pc := if matched then .head else .matching (polls + 1) }
      else none
    | _ => none
  | .probe memory now =>
    match s.pc with
    | .probe i =>
      if i ≤ program.maxProbes cfg.size then
        (program.write cfg.size memory (UInt64.ofNat i) now).map fun message =>
          { s with channel := s.channel ++ [message], pc := .link i }
      else none
    | _ => none
  | .begin =>
    match s.pc with
    | .head =>
      if more cfg s.started then
        some { s with started := s.started + 1, seq := s.seq + 1, pc := .publish }
      else none
    | _ => none
  | .publish memory now ok =>
    match s.pc with
    | .publish =>
      if ok ∨ program.reports then
        (program.write cfg.size memory s.seq now).map fun message =>
          { s with
            channel := s.channel ++ [message]
            pc := if ok then .await else .skipped }
      else none
    | _ => none
  | .take message shm => s.channel[message]?.bind fun message => receive program cfg s message shm
  | .giveUp =>
    match s.pc with
    | .link i => some { s with pc := .probe (i + 1) }
    | .await => some { s with pc := .skipped }
    | _ => none
  | .record now =>
    match s.pc with
    | .taken sendNs => some { s with lats := s.lats ++ [oneWayLatencySec sendNs now], pc := .head }
    | _ => none
  | .leave =>
    match s.pc with
    | .matching polls => if polls < matchPolls then none else some { s with pc := .skipped }
    | .probe i => if i ≤ program.maxProbes cfg.size then none else some { s with pc := .skipped }
    | .head => if more cfg s.started then none else some { s with pc := .finished }
    | _ => none

/-! ## What a step can do -/

inductive Step (program : Program) (cfg : Config) (s : State program.Message) :
    Action → State program.Message → Prop
  | look (polls : Nat) (matched : Bool) (pc : s.pc = .matching polls) :
      Step program cfg s (.look matched)
        { s with pc := if matched then .head else .matching (polls + 1) }
  | probe (i : Nat) (memory : Block) (now : UInt64) (message : program.Message)
      (pc : s.pc = .probe i) (below : i ≤ program.maxProbes cfg.size)
      (written : program.write cfg.size memory (UInt64.ofNat i) now = some message) :
      Step program cfg s (.probe memory now)
        { s with channel := s.channel ++ [message], pc := .link i }
  | begin (pc : s.pc = .head) (more : more cfg s.started) :
      Step program cfg s .begin
        { s with started := s.started + 1, seq := s.seq + 1, pc := .publish }
  | publish (memory : Block) (now : UInt64) (ok : Bool) (message : program.Message)
      (pc : s.pc = .publish) (written : program.write cfg.size memory s.seq now = some message) :
      Step program cfg s (.publish memory now ok)
        { s with channel := s.channel ++ [message], pc := if ok then .await else .skipped }
  | linked (i k : Nat) (shm : Bool) (pc : s.pc = .link i) :
      Step program cfg s (.take k shm) { s with seq := UInt64.ofNat i, pc := .head }
  | taken (k : Nat) (shm : Bool) (message : program.Message) (got sendNs : UInt64)
      (pc : s.pc = .await) (sent : s.channel[k]? = some message)
      (read : program.read message = some (got, sendNs)) (wanted : program.isWanted s.seq got) :
      Step program cfg s (.take k shm) { s with pc := .taken sendNs }
  | unreadable (k : Nat) (shm : Bool) (pc : s.pc = .await) :
      Step program cfg s (.take k shm) { s with pc := .skipped }
  | pass (k : Nat) (shm : Bool) : Step program cfg s (.take k shm) s
  | retry (i : Nat) (pc : s.pc = .link i) :
      Step program cfg s .giveUp { s with pc := .probe (i + 1) }
  | timeout (pc : s.pc = .await) : Step program cfg s .giveUp { s with pc := .skipped }
  | record (sendNs now : UInt64) (pc : s.pc = .taken sendNs) :
      Step program cfg s (.record now)
        { s with lats := s.lats ++ [oneWayLatencySec sendNs now], pc := .head }
  | skip (outside : (∃ polls, s.pc = .matching polls) ∨ ∃ i, s.pc = .probe i) :
      Step program cfg s .leave { s with pc := .skipped }
  | finish (pc : s.pc = .head) (done : ¬ more cfg s.started) :
      Step program cfg s .leave { s with pc := .finished }

section Inversion

variable {program : Program} {cfg : Config}

theorem receive_cases {s t : State program.Message} {message : program.Message} {k : Nat}
    {shm : Bool} (sent : s.channel[k]? = some message)
    (received : receive program cfg s message shm = some t) :
    Step program cfg s (.take k shm) t := by
  unfold receive at received
  split at received
  · rename_i i pc
    split at received
    · cases received
      exact .pass k shm
    · split at received
      · cases received
        exact .pass k shm
      · split at received <;> cases received
        · exact .linked i k shm pc
        · exact .pass k shm
  · rename_i pc
    split at received
    · split at received <;> cases received
      · exact .unreadable k shm pc
      · exact .pass k shm
    · rename_i got sendNs read
      split at received <;> cases received
      · rename_i wanted
        exact .taken k shm message got sendNs pc sent read wanted
      · exact .pass k shm
  · cases received

/-- **Inversion.** -/
theorem step_cases {s t : State program.Message} {a : Action}
    (stepped : step program cfg s a = some t) : Step program cfg s a t := by
  cases a with
  | look matched =>
      simp only [step] at stepped
      split at stepped
      · rename_i polls pc
        simp only [Option.ite_none_right_eq_some, Option.some.injEq] at stepped
        rcases stepped with ⟨-, rfl⟩
        exact .look polls matched pc
      · cases stepped
  | probe memory now =>
      simp only [step] at stepped
      split at stepped
      · rename_i i pc
        simp only [Option.ite_none_right_eq_some] at stepped
        rcases stepped with ⟨below, stepped⟩
        obtain ⟨message, written, rfl⟩ := Option.map_eq_some_iff.mp stepped
        exact .probe i memory now message pc below written
      · cases stepped
  | begin =>
      simp only [step] at stepped
      split at stepped
      · rename_i pc
        simp only [Option.ite_none_right_eq_some, Option.some.injEq] at stepped
        rcases stepped with ⟨more, rfl⟩
        exact .begin pc more
      · cases stepped
  | publish memory now ok =>
      simp only [step] at stepped
      split at stepped
      · rename_i pc
        simp only [Option.ite_none_right_eq_some] at stepped
        rcases stepped with ⟨-, stepped⟩
        obtain ⟨message, written, rfl⟩ := Option.map_eq_some_iff.mp stepped
        exact .publish memory now ok message pc written
      · cases stepped
  | take k shm =>
      obtain ⟨message, sent, received⟩ := Option.bind_eq_some_iff.mp stepped
      exact receive_cases sent received
  | giveUp =>
      simp only [step] at stepped
      split at stepped <;> cases stepped
      · rename_i i pc
        exact .retry i pc
      · rename_i pc
        exact .timeout pc
  | record now =>
      simp only [step] at stepped
      split at stepped <;> cases stepped
      rename_i sendNs pc
      exact .record sendNs now pc
  | leave =>
      simp only [step] at stepped
      split at stepped
      · rename_i polls pc
        simp only [Option.ite_none_left_eq_some, Option.some.injEq] at stepped
        rcases stepped with ⟨-, rfl⟩
        exact .skip (.inl ⟨polls, pc⟩)
      · rename_i i pc
        simp only [Option.ite_none_left_eq_some, Option.some.injEq] at stepped
        rcases stepped with ⟨-, rfl⟩
        exact .skip (.inr ⟨i, pc⟩)
      · rename_i pc
        simp only [Option.ite_none_left_eq_some, Option.some.injEq] at stepped
        rcases stepped with ⟨done, rfl⟩
        exact .finish pc done
      · cases stepped

end Inversion

/-! ## What a run did -/

/-- When the messages were stamped, those of the iterations among them, and when the
clock was read for a latency. -/
structure Times where
  sent : List UInt64 := []
  published : List UInt64 := []
  recorded : List UInt64 := []

def Times.add (times : Times) : Action → Times
  | .probe _ now => { times with sent := times.sent ++ [now] }
  | .publish _ now _ =>
    { times with sent := times.sent ++ [now], published := times.published ++ [now] }
  | .record now => { times with recorded := times.recorded ++ [now] }
  | _ => times

def times (acts : List Action) : Times := acts.foldl Times.add {}

theorem times_concat (acts : List Action) (a : Action) :
    times (acts ++ [a]) = (times acts).add a :=
  List.foldl_concat ..

/-! ## How the messages are numbered -/

/-- What the argument needs of a program. -/
structure Program.Lawful (program : Program) : Prop where
  reads : ∀ {size memory seq now message p}, program.write size memory seq now = some message →
    program.read message = some p → p = (seq, now)
  wanted : ∀ {want got}, program.isWanted want got → want = 0 ∨ got = want
  probes : ∀ size, program.maxProbes size ≤ 32
  entry : program.entry = .matching 0 ∨ program.entry = .head ∨ program.entry = .probe 1

variable {program : Program} {cfg : Config} {ts : Times} {s t : State program.Message}

/-- Message `k` has the number `k + 1`, and the stamp of the `k`-th time. -/
structure Numbered (program : Program) (sent : List UInt64) (channel : List program.Message) :
    Prop where
  length : channel.length = sent.length
  stamped : ∀ (k : Nat) message, channel[k]? = some message → ∃ now, sent[k]? = some now ∧
    ∀ p, program.read message = some p → p = (UInt64.ofNat (k + 1), now)

theorem Numbered.send (lawful : program.Lawful) {sent : List UInt64}
    {channel : List program.Message} (numbered : Numbered program sent channel) {memory : Block}
    {size now : UInt64} {message : program.Message}
    (written : program.write size memory (UInt64.ofNat (channel.length + 1)) now = some message) :
    Numbered program (sent ++ [now]) (channel ++ [message]) := by
  refine ⟨?_, ?_⟩
  · rw [List.length_append, List.length_append, numbered.length]
    rfl
  · intro k found there
    rcases getElem?_concat_cases there with old | ⟨rfl, rfl⟩
    · obtain ⟨time, at', reads⟩ := numbered.stamped k found old
      exact ⟨time, getElem?_append_of_some at', reads⟩
    · refine ⟨now, ?_, fun p read => lawful.reads written read⟩
      rw [numbered.length]
      exact List.getElem?_concat_length

/-! ## How far a run has got -/

/-- All that was published in an iteration is recorded, and `begun` iterations are
begun without having published yet. -/
structure Settled (program : Program) (cfg : Config) (ts : Times) (s : State program.Message)
    (begun : Nat) : Prop where
  balanced : ts.published.length = ts.recorded.length
  started : ts.recorded.length + begun = s.started
  bound : s.channel.length + begun ≤ program.maxProbes cfg.size + s.started
  limit : s.started ≤ cfg.iterations.toInt.toNat

/-- All but the last, which was stamped at `now`. -/
structure Pending (program : Program) (cfg : Config) (ts : Times) (s : State program.Message)
    (now : UInt64) : Prop where
  last : ∃ past, ts.published = past ++ [now] ∧ past.length = ts.recorded.length
  started : ts.recorded.length + 1 = s.started
  bound : s.channel.length ≤ program.maxProbes cfg.size + s.started
  limit : s.started ≤ cfg.iterations.toInt.toNat

def Position (program : Program) (cfg : Config) (ts : Times) (s : State program.Message) :
    Pc → Prop
  | .matching _ => s.seq = 0 ∧ s.channel = [] ∧ Settled program cfg ts s 0
  | .probe i => i = s.channel.length + 1 ∧ Settled program cfg ts s 0
  | .link i => i = s.channel.length ∧ Settled program cfg ts s 0
  | .head => s.seq = UInt64.ofNat s.channel.length ∧ Settled program cfg ts s 0
  | .publish => s.seq = UInt64.ofNat (s.channel.length + 1) ∧ Settled program cfg ts s 1
  | .await => s.seq = UInt64.ofNat s.channel.length ∧
      ∃ now, ts.sent.getLast? = some now ∧ Pending program cfg ts s now
  | .taken sendNs => s.seq = UInt64.ofNat s.channel.length ∧ Pending program cfg ts s sendNs
  | .finished => Settled program cfg ts s 0 ∧ ¬ more cfg s.started
  | .skipped => ts.recorded.length ≤ ts.published.length

structure Sound (program : Program) (cfg : Config) (ts : Times) (s : State program.Message) :
    Prop where
  numbered : Numbered program ts.sent s.channel
  lats : s.lats = List.zipWith oneWayLatencySec ts.published ts.recorded
  position : Position program cfg ts s s.pc

theorem Settled.le {begun : Nat} (settled : Settled program cfg ts s begun) :
    ts.recorded.length ≤ ts.published.length :=
  settled.balanced.ge

theorem Pending.le {now : UInt64} (pending : Pending program cfg ts s now) :
    ts.recorded.length ≤ ts.published.length := by
  obtain ⟨past, front, same⟩ := pending.last
  rw [front, List.length_append, same]
  exact Nat.le_add_right ..

/-- The numbers of a run do not wrap. -/
theorem Pending.lt (lawful : program.Lawful) {now : UInt64}
    (pending : Pending program cfg ts s now) : s.channel.length < UInt64.size := by
  have bound := pending.bound
  have limit := pending.limit
  have probes := lawful.probes cfg.size
  have iterations := Int64.toInt_lt cfg.iterations
  rw [UInt64.size]
  omega

/-- The stamp of the message that is waited for is that of the last one published. -/
theorem own_of_wanted (lawful : program.Lawful) (numbered : Numbered program ts.sent s.channel)
    {now got sendNs : UInt64} {k : Nat} {message : program.Message}
    (seq : s.seq = UInt64.ofNat s.channel.length) (last : ts.sent.getLast? = some now)
    (pending : Pending program cfg ts s now) (there : s.channel[k]? = some message)
    (read : program.read message = some (got, sendNs)) (wanted : program.isWanted s.seq got) :
    sendNs = now := by
  obtain ⟨time, at', reads⟩ := numbered.stamped k message there
  obtain ⟨rfl, rfl⟩ := Prod.mk.inj (reads _ read)
  obtain ⟨inside, -⟩ := List.getElem?_eq_some_iff.mp there
  have below := pending.lt lawful
  have same : k + 1 = s.channel.length := by
    rcases lawful.wanted wanted with zero | equal
    · rw [seq] at zero
      have none := congrArg UInt64.toNat zero
      rw [UInt64.toNat_ofNat_of_lt' below, UInt64.toNat_zero] at none
      omega
    · rw [seq] at equal
      have number := congrArg UInt64.toNat equal
      rwa [UInt64.toNat_ofNat_of_lt' (Nat.lt_of_le_of_lt inside below),
        UInt64.toNat_ofNat_of_lt' below] at number
  rw [List.getLast?_eq_getElem?, ← numbered.length, ← same, Nat.add_sub_cancel, at'] at last
  exact Option.some.inj last

/-- A time that nothing answers yet leaves the pairs alone. -/
theorem zipWith_concat_left {xs ys : List UInt64} (x : UInt64) (le : ys.length ≤ xs.length) :
    List.zipWith oneWayLatencySec (xs ++ [x]) ys = List.zipWith oneWayLatencySec xs ys := by
  induction xs generalizing ys with
  | nil =>
      rw [List.eq_nil_of_length_eq_zero (Nat.le_zero.mp le)]
      rfl
  | cons first xs ih =>
      cases ys with
      | nil => rfl
      | cons y ys =>
          rw [List.cons_append, List.zipWith_cons_cons, List.zipWith_cons_cons,
            ih (Nat.le_of_succ_le_succ le)]

theorem sound_start (lawful : program.Lawful) (cfg : Config) :
    Sound program cfg {} (start program) := by
  have settled : Settled program cfg {} (start program) 0 :=
    ⟨rfl, rfl, Nat.zero_le _, Nat.zero_le _⟩
  refine ⟨⟨rfl, by simp [start]⟩, rfl, ?_⟩
  have entry := lawful.entry
  change Position program cfg {} (start program) program.entry
  rcases entry with entry | entry | entry <;> rw [entry]
  · exact ⟨rfl, rfl, settled⟩
  · exact ⟨rfl, settled⟩
  · exact ⟨rfl, settled⟩

theorem sound_step (lawful : program.Lawful) {a : Action} (sound : Sound program cfg ts s)
    (stepped : step program cfg s a = some t) : Sound program cfg (ts.add a) t := by
  rcases sound with ⟨numbered, lats, position⟩
  cases step_cases stepped with
  | look polls matched pc =>
      rw [pc] at position
      obtain ⟨seq, channel, balanced, started, bound, limit⟩ := position
      refine ⟨numbered, lats, ?_⟩
      cases matched with
      | false => exact ⟨seq, channel, balanced, started, bound, limit⟩
      | true => exact ⟨by rw [seq, channel]; rfl, balanced, started, bound, limit⟩
  | probe i memory now message pc below written =>
      rw [pc] at position
      obtain ⟨rfl, balanced, started, bound, limit⟩ := position
      have grown : (s.channel ++ [message]).length = s.channel.length + 1 := List.length_append ..
      refine ⟨numbered.send lawful written, lats, grown.symm, balanced, started, ?_, limit⟩
      rw [grown]
      omega
  | begin pc more =>
      rw [pc] at position
      obtain ⟨seq, balanced, started, bound, limit⟩ := position
      unfold PingPong.more at more
      refine ⟨numbered, lats, ?_, balanced, congrArg Nat.succ started, Nat.succ_le_succ bound, ?_⟩
      · rw [seq]
        exact (UInt64.ofNat_add ..).symm
      · dsimp only
        omega
  | publish memory now ok message pc written =>
      rw [pc] at position
      obtain ⟨seq, settled⟩ := position
      have grown : (s.channel ++ [message]).length = s.channel.length + 1 := List.length_append ..
      rw [seq] at written
      refine ⟨numbered.send lawful written, ?_, ?_⟩
      · exact lats.trans (zipWith_concat_left now settled.le).symm
      · cases ok with
        | false =>
            change ts.recorded.length ≤ (ts.published ++ [now]).length
            rw [List.length_append]
            exact settled.le.trans (Nat.le_add_right ..)
        | true =>
            refine ⟨?_, now, List.getLast?_concat, ⟨_, rfl, settled.balanced⟩, settled.started, ?_,
              settled.limit⟩
            · rw [seq, grown]
            · rw [grown]
              exact settled.bound
  | linked i k shm pc =>
      rw [pc] at position
      obtain ⟨rfl, balanced, started, bound, limit⟩ := position
      exact ⟨numbered, lats, rfl, balanced, started, bound, limit⟩
  | taken k shm message got sendNs pc there read wanted =>
      rw [pc] at position
      obtain ⟨seq, now, last, pending⟩ := position
      obtain rfl := own_of_wanted lawful numbered seq last pending there read wanted
      exact ⟨numbered, lats, seq, pending.last, pending.started, pending.bound, pending.limit⟩
  | unreadable k shm pc =>
      rw [pc] at position
      obtain ⟨-, now, -, pending⟩ := position
      exact ⟨numbered, lats, pending.le⟩
  | pass k shm => exact ⟨numbered, lats, position⟩
  | retry i pc =>
      rw [pc] at position
      obtain ⟨rfl, balanced, started, bound, limit⟩ := position
      exact ⟨numbered, lats, rfl, balanced, started, bound, limit⟩
  | timeout pc =>
      rw [pc] at position
      obtain ⟨-, now, -, pending⟩ := position
      exact ⟨numbered, lats, pending.le⟩
  | record sendNs now pc =>
      rw [pc] at position
      obtain ⟨seq, ⟨past, front, same⟩, started, bound, limit⟩ := position
      have grown : (ts.recorded ++ [now]).length = ts.recorded.length + 1 := List.length_append ..
      refine ⟨numbered, ?_, seq, ?_, ?_, bound, limit⟩
      · change s.lats ++ _ = List.zipWith oneWayLatencySec ts.published (ts.recorded ++ [now])
        rw [lats, front, zipWith_concat_left sendNs same.ge, List.zipWith_append same]
        rfl
      · change ts.published.length = (ts.recorded ++ [now]).length
        rw [grown, front, List.length_append, same]
        rfl
      · change (ts.recorded ++ [now]).length + 0 = s.started
        rw [grown]
        exact started
  | skip outside =>
      refine ⟨numbered, lats, ?_⟩
      rcases outside with ⟨polls, pc⟩ | ⟨i, pc⟩
      · rw [pc] at position
        exact position.2.2.le
      · rw [pc] at position
        exact position.2.le
  | finish pc done =>
      rw [pc] at position
      obtain ⟨-, balanced, started, bound, limit⟩ := position
      exact ⟨numbered, lats, ⟨balanced, started, bound, limit⟩, done⟩

theorem run_sound (lawful : program.Lawful) {acts : List Action}
    (ran : run (step program cfg) (start program) acts = some s) :
    Sound program cfg (times acts) s := by
  refine run_history (P := fun acts => Sound program cfg (times acts)) (sound_start lawful cfg) ?_
    ran
  intro past m a t sound stepped
  rw [times_concat]
  exact sound_step lawful sound stepped

/-! ## The three programs -/

variable {fbs : Flatbuffers}

theorem Flatbuffers.Lawful.reads (lawful : fbs.Lawful) {size seq now : UInt64} {memory : Block}
    {message : Block} {p : UInt64 × UInt64}
    (written : Net.sampleBytes fbs.toFlatbuffers { size } memory seq now = some message)
    (read : readSampleMeta fbs message = some p) : p = (seq, now) := by
  unfold readSampleMeta at read
  rw [Option.ite_none_left_eq_some, Option.some.injEq] at read
  rw [← read.2, lawful.sendNs_mutateSendNs _ now message written,
    lawful.seq_mutateSendNs _ now message written]
  exact congrArg (·, now) (lawful.seq_createSample ..)

theorem cyclone_lawful : cyclone.Lawful where
  reads written read := by
    cases written
    exact (Option.some.inj read).symm
  wanted wanted := .inr (eq_of_beq wanted)
  probes _ := Nat.zero_le _
  entry := .inl rfl

theorem subspace_lawful (lawful : fbs.Lawful) : (subspace fbs).Lawful where
  reads := Flatbuffers.Lawful.reads lawful
  wanted wanted := .inr (eq_of_beq wanted)
  probes _ := Nat.zero_le _
  entry := .inr (.inl rfl)

theorem zenoh_lawful (lawful : fbs.Lawful) : (zenoh fbs).Lawful where
  reads := Flatbuffers.Lawful.reads lawful
  wanted wanted := (Bool.or_eq_true _ _ ▸ wanted).imp eq_of_beq eq_of_beq
  probes size := by
    simp only [zenoh]
    split <;> decide
  entry := .inr (.inr rfl)

/-- **Each latency is that of its own iteration's message**, whatever the channel delivers
and however often: the `k`-th is taken between the stamp of the `k`-th message published
in an iteration and the `k`-th reading of the clock, none is missing, and a run that ends
without being skipped has one for each iteration. -/
theorem lats_eq_zipWith (fbs : Flatbuffers) (lawful : fbs.Lawful) (program : Program)
    (one : program = cyclone ∨ program = subspace fbs ∨ program = zenoh fbs) (cfg : Config)
    (acts : List Action) (s : State program.Message)
    (ran : run (step program cfg) (start program) acts = some s) :
    s.lats = List.zipWith oneWayLatencySec (times acts).published (times acts).recorded ∧
      (times acts).recorded.length ≤ (times acts).published.length ∧
      (s.pc = .finished → s.lats.length = cfg.iterations.toInt.toNat) := by
  have programLawful : program.Lawful := by
    rcases one with rfl | rfl | rfl
    · exact cyclone_lawful
    · exact subspace_lawful lawful
    · exact zenoh_lawful lawful
  obtain ⟨-, lats, position⟩ := run_sound programLawful ran
  refine ⟨lats, ?_, ?_⟩
  · cases pc : s.pc <;> rw [pc] at position
    case matching => exact position.2.2.le
    case await =>
      obtain ⟨-, now, -, pending⟩ := position
      exact pending.le
    case finished => exact position.1.le
    case skipped => exact position
    all_goals exact position.2.le
  · intro pc
    rw [pc] at position
    obtain ⟨⟨balanced, started, -, limit⟩, done⟩ := position
    unfold more at done
    rw [lats, List.length_zipWith, balanced, min_self]
    omega

/-- The samples of the network programs, with the stamp behind the number. -/
def packed : Flatbuffers where
  toFlatbuffers := Net.packed
  sendNs buf := UInt64.ofNat (leNat (slice buf 8 8))

theorem packed_lawful : packed.Lawful where
  toLawful := Net.packed_lawful
  sendNs_mutateSendNs buf sendNs stamped written := by
    obtain ⟨room, same⟩ := Option.ite_none_left_eq_some.mp written
    rw [← Option.some.inj same]
    show UInt64.ofNat (leNat (slice (writeAt buf 8 _) 8 8)) = sendNs
    rw [slice_writeAt_same (by omega) (length_leBytes 8 _), ofNat_leNat_u64]

/-- The second probe comes through, and the first while a sample is waited for. -/
def lateProbe : List Action :=
  [.probe [] 5, .giveUp, .probe [] 6, .take 1 false, .begin, .publish [] 10 true, .take 0 true,
    .take 2 true, .record 1000000010, .leave]

theorem lats_eq_zipWith_lateProbe :
    ∃ s, run (step (zenoh packed) ⟨64, 1⟩) (start (zenoh packed)) lateProbe = some s ∧
      s.lats = [oneWayLatencySec 10 1000000010] ∧ s.lats.length = 1 := by
  have ends : (run (step (zenoh packed) ⟨64, 1⟩) (start (zenoh packed)) lateProbe).map State.pc =
      some .finished := by decide +kernel
  obtain ⟨s, ran, pc⟩ := Option.map_eq_some_iff.mp ends
  obtain ⟨lats, -, all⟩ := lats_eq_zipWith packed packed_lawful (zenoh packed) (.inr (.inr rfl))
    ⟨64, 1⟩ lateProbe s ran
  exact ⟨s, ran, lats, all pc⟩

end PingPong

end MiddlewareBench.Bench
