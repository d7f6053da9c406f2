import MiddlewareBench.Lib.Runs

/-!
# The multithreaded one-way benches

`RunMtOneWay` of `cyclone_bench.cc`, `zenoh_bench.cc` and `subspace_bench.cc`:
a publisher thread and the subscriber in the benchmark loop, who share the
atomics `stop` and `in_flight` and a channel. A step is one access to one of
the three, so a list of actions is an interleaving of the two threads.

The harnesses differ in how a publish can fail and in what the publisher does
then (`afterFailure`), and in whether a poll can fail while draining. A call of the
library is one step, taken when it returns: a publisher may be held up in a put that
blocks, or waiting for a buffer, for as long as the library holds it. A message
is its sequence number: what it is stamped with and what is recorded about it
decides no step. All messages are built by `BuildSample`, so none is refused as
malformed.
-/

namespace MiddlewareBench.Bench

inductive Harness
  | cyclone
  | zenoh
  | subspace
  deriving DecidableEq, Repr

/-- `reliable` is the argument of `RunMtOneWay`; `lossy` says whether the channel
may discard what was published (best-effort QoS, congestion control `DROP`, slot
overwrite). -/
structure Config where
  harness : Harness
  reliable : Bool
  lossy : Bool
  deriving DecidableEq, Repr

namespace MtOneWay

def maxInFlight : Int := 2

/-- How many queued samples are drained before a timed one. -/
def drainCap : Nat := 32

/-! ## States -/

/-- Where the publisher is. -/
inductive PubPc
  /-- about to read `stop` -/
  | loopHead
  /-- about to compare `in_flight` with the limit -/
  | check
  /-- let through, about to publish sample `s` -/
  | publish (s : UInt64)
  /-- published, about to add its credit -/
  | credit
  | exited
  deriving DecidableEq, Repr

/-- Which of its two polls the subscriber took a message with. -/
inductive Poll
  | drain (drained : Nat)
  | timed
  deriving DecidableEq, Repr

/-- Where the subscriber is. -/
inductive SubPc
  /-- about to start an iteration, or to leave the benchmark loop -/
  | iterate
  | poll (at' : Poll)
  /-- took a message, about to read `in_flight` -/
  | load (at' : Poll)
  /-- in the compare-exchange loop -/
  | cas (at' : Poll) (cur : Int)
  /-- out of the benchmark loop, about to set `stop` -/
  | done
  | joining
  deriving DecidableEq, Repr

structure State where
  stop : Bool := false
  inFlight : Int := 0
  seq : UInt64 := 0
  channel : List UInt64 := []
  pub : PubPc := .loopHead
  sub : SubPc := .iterate
  deriving DecidableEq, Repr

/-- Both threads at their start, and nothing in the channel. `linked` is the
sequence number a probe left behind, which only Zenoh has. -/
def start (linked : UInt64) : State := { seq := linked }

/-! ## Steps -/

/-- How a publish can fail. -/
inductive Failure
  /-- `dds_write` returned an error, or `PutShm` threw -/
  | write
  /-- `GetMessageBuffer` returned an error -/
  | getBuffer
  /-- there was no free buffer -/
  | noBuffer
  /-- there was none and waiting for one failed -/
  | wait
  /-- `PublishMessage` returned an error -/
  | publishMessage
  deriving DecidableEq, Repr

/-- Where the publisher goes after a failure its harness can have. -/
def afterFailure (cfg : Config) (failure : Failure) : Option PubPc :=
  match cfg.harness, failure with
  | .cyclone, .write => some (if cfg.reliable then .loopHead else .exited)
  | .zenoh, .write => some (if cfg.reliable then .loopHead else .exited)
  | .subspace, .getBuffer => some .exited
  | .subspace, .noBuffer => some .loopHead
  | .subspace, .wait => if cfg.reliable then some .exited else none
  | .subspace, .publishMessage => some .exited
  | _, _ => none

inductive Action
  -- publisher
  | readStop
  | readInFlight
  | publish
  | fail (failure : Failure)
  | addCredit
  -- channel
  | drop (i : Nat)
  -- subscriber
  | iterate
  | leave
  | take
  | pollEmpty
  | giveUp
  | loadInFlight
  | exchange
  | exchangeFails
  | skip
  | setStop
  deriving DecidableEq, Repr

/-- Where the subscriber goes on once a message is dealt with. -/
def Poll.next : Poll → SubPc
  | .drain drained => if drained + 1 < drainCap then .poll (.drain (drained + 1)) else .poll .timed
  | .timed => .iterate

def step (cfg : Config) (s : State) : Action → Option State
  | .readStop =>
    match s.pub with
    | .loopHead => some { s with pub := if s.stop then .exited else .check }
    | _ => none
  | .readInFlight =>
    match s.pub with
    | .check =>
      if s.inFlight ≥ maxInFlight then some { s with pub := .loopHead }
      else some { s with seq := s.seq + 1, pub := .publish (s.seq + 1) }
    | _ => none
  | .publish =>
    match s.pub with
    | .publish sample => some { s with channel := s.channel ++ [sample], pub := .credit }
    | _ => none
  | .fail failure =>
    match s.pub with
    | .publish _ => (afterFailure cfg failure).map fun pc => { s with pub := pc }
    | _ => none
  | .addCredit =>
    match s.pub with
    | .credit => some { s with inFlight := s.inFlight + 1, pub := .loopHead }
    | _ => none
  | .drop i =>
    if cfg.lossy ∧ i < s.channel.length then some { s with channel := s.channel.eraseIdx i }
    else none
  | .iterate =>
    match s.sub with
    | .iterate => some { s with sub := .poll (.drain 0) }
    | _ => none
  | .leave =>
    match s.sub with
    | .iterate => some { s with sub := .done }
    | _ => none
  | .take =>
    match s.sub, s.channel with
    | .poll at', _ :: channel => some { s with channel, sub := .load at' }
    | _, _ => none
  | .pollEmpty =>
    match s.sub with
    | .poll _ => some { s with sub := .poll .timed }
    | _ => none
  | .giveUp =>
    match s.sub with
    | .poll .timed => some { s with sub := .done }
    | .poll (.drain _) => if cfg.harness = .zenoh then none else some { s with sub := .done }
    | _ => none
  | .loadInFlight =>
    match s.sub with
    | .load at' => some { s with sub := .cas at' s.inFlight }
    | _ => none
  | .exchange =>
    match s.sub with
    | .cas at' cur =>
      if cur > 0 ∧ s.inFlight = cur then some { s with inFlight := cur - 1, sub := at'.next }
      else none
    | _ => none
  | .exchangeFails =>
    match s.sub with
    | .cas at' cur => if cur > 0 then some { s with sub := .cas at' s.inFlight } else none
    | _ => none
  | .skip =>
    match s.sub with
    | .cas at' cur => if cur > 0 then none else some { s with sub := at'.next }
    | _ => none
  | .setStop =>
    match s.sub with
    | .done => some { s with stop := true, sub := .joining }
    | _ => none

/-! ## The states the credits are about -/

/-- How many credits the publisher has yet to add. -/
def PubPc.owed : PubPc → Nat
  | .credit => 1
  | _ => 0

/-- How many taken messages the subscriber has yet to return the credit of. -/
def SubPc.held : SubPc → Nat
  | .load _ => 1
  | .cas _ _ => 1
  | _ => 0

/-- Neither party is in the middle of an iteration: the publisher not between
publish and increment, the subscriber not between take and decrement. -/
def Quiet (s : State) : Prop :=
  s.pub ≠ .credit ∧ s.sub.held = 0

/-- The publisher is about to look whether it may publish. -/
def AtHead (s : State) : Prop :=
  s.pub = .loopHead ∨ s.pub = .check

/-- The publisher is refused, and nothing is left whose taking would return a
credit. -/
structure Wedged (s : State) : Prop where
  head : AtHead s
  refused : s.inFlight ≥ maxInFlight
  empty : s.channel = []
  idle : s.sub.held = 0

instance (s : State) : Decidable (Quiet s) := inferInstanceAs (Decidable (_ ∧ _))

instance (s : State) : Decidable (AtHead s) := inferInstanceAs (Decidable (_ ∨ _))

instance (s : State) : Decidable (Wedged s) :=
  decidable_of_iff (_ ∧ _ ∧ _ ∧ _)
    ⟨fun ⟨head, refused, empty, idle⟩ => ⟨head, refused, empty, idle⟩,
      fun wedged => ⟨wedged.head, wedged.refused, wedged.empty, wedged.idle⟩⟩

/-! ## What a step can do -/

/-- After a failure the publisher starts over or leaves. -/
theorem afterFailure_eq_some {cfg : Config} {failure : Failure} {pc : PubPc}
    (next : afterFailure cfg failure = some pc) : pc = .loopHead ∨ pc = .exited := by
  simp only [afterFailure] at next
  grind

/-- A message dealt with leaves the subscriber without one. -/
@[simp] theorem held_next (at' : Poll) : at'.next.held = 0 := by
  cases at' with
  | drain drained =>
      rw [Poll.next]
      split <;> rfl
  | timed => rfl

/-- What each action can do. The subscriber's other moves, between two messages,
are one rule. -/
inductive Step (cfg : Config) (s : State) : Action → State → Prop
  | readStop (pub : s.pub = .loopHead) :
      Step cfg s .readStop { s with pub := if s.stop then .exited else .check }
  | refused (pub : s.pub = .check) (full : s.inFlight ≥ maxInFlight) :
      Step cfg s .readInFlight { s with pub := .loopHead }
  | granted (pub : s.pub = .check) (below : s.inFlight < maxInFlight) :
      Step cfg s .readInFlight { s with seq := s.seq + 1, pub := .publish (s.seq + 1) }
  | publish (sample : UInt64) (pub : s.pub = .publish sample) :
      Step cfg s .publish { s with channel := s.channel ++ [sample], pub := .credit }
  | fail (sample : UInt64) (failure : Failure) (pc : PubPc) (pub : s.pub = .publish sample)
      (next : pc = .loopHead ∨ pc = .exited) : Step cfg s (.fail failure) { s with pub := pc }
  | addCredit (pub : s.pub = .credit) :
      Step cfg s .addCredit { s with inFlight := s.inFlight + 1, pub := .loopHead }
  | drop (i : Nat) (lossy : cfg.lossy) (there : i < s.channel.length) :
      Step cfg s (.drop i) { s with channel := s.channel.eraseIdx i }
  | between (a : Action) (pc : SubPc) (stop : Bool)
      (silent : a ∈ [.iterate, .leave, .pollEmpty, .giveUp, .setStop]) (idle : s.sub.held = 0)
      (still : pc.held = 0) : Step cfg s a { s with sub := pc, stop }
  | take (at' : Poll) (sample : UInt64) (channel : List UInt64) (sub : s.sub = .poll at')
      (queued : s.channel = sample :: channel) :
      Step cfg s .take { s with channel, sub := .load at' }
  | loadInFlight (at' : Poll) (sub : s.sub = .load at') :
      Step cfg s .loadInFlight { s with sub := .cas at' s.inFlight }
  | exchange (at' : Poll) (sub : s.sub = .cas at' s.inFlight) (positive : s.inFlight > 0) :
      Step cfg s .exchange { s with inFlight := s.inFlight - 1, sub := at'.next }
  | exchangeFails (at' : Poll) (cur : Int) (sub : s.sub = .cas at' cur) :
      Step cfg s .exchangeFails { s with sub := .cas at' s.inFlight }
  | skip (at' : Poll) (cur : Int) (sub : s.sub = .cas at' cur) (none : cur ≤ 0) :
      Step cfg s .skip { s with sub := at'.next }

/-- **Inversion.** -/
theorem step_cases {cfg : Config} {s t : State} {a : Action}
    (stepped : step cfg s a = some t) : Step cfg s a t := by
  cases a with
  | readStop =>
      simp only [step] at stepped
      split at stepped
      · rename_i pub
        cases stepped
        exact .readStop pub
      · cases stepped
  | readInFlight =>
      simp only [step] at stepped
      split at stepped
      · rename_i pub
        split at stepped <;> rename_i compared <;> cases stepped
        · exact .refused pub compared
        · exact .granted pub (Int.not_le.mp compared)
      · cases stepped
  | publish =>
      simp only [step] at stepped
      split at stepped
      · rename_i sample pub
        cases stepped
        exact .publish sample pub
      · cases stepped
  | fail failure =>
      simp only [step] at stepped
      split at stepped
      · rename_i sample pub
        obtain ⟨pc, next, rfl⟩ := Option.map_eq_some_iff.mp stepped
        exact .fail sample failure pc pub (afterFailure_eq_some next)
      · cases stepped
  | addCredit =>
      simp only [step] at stepped
      split at stepped
      · rename_i pub
        cases stepped
        exact .addCredit pub
      · cases stepped
  | drop i =>
      simp only [step, Option.ite_none_right_eq_some, Option.some.injEq] at stepped
      rcases stepped with ⟨⟨lossy, there⟩, rfl⟩
      exact .drop i lossy there
  | iterate | leave | pollEmpty | setStop =>
      simp only [step] at stepped
      split at stepped
      · rename_i sub
        cases stepped
        exact .between _ _ _ (by simp) (by rw [sub]; rfl) rfl
      · cases stepped
  | giveUp =>
      simp only [step] at stepped
      split at stepped
      · rename_i sub
        cases stepped
        exact .between _ _ _ (by simp) (by rw [sub]; rfl) rfl
      · rename_i drained sub
        simp only [Option.ite_none_left_eq_some, Option.some.injEq] at stepped
        rcases stepped with ⟨-, rfl⟩
        exact .between _ _ _ (by simp) (by rw [sub]; rfl) rfl
      · cases stepped
  | take =>
      simp only [step] at stepped
      split at stepped
      · rename_i at' sample channel sub queued
        cases stepped
        exact .take at' sample channel sub queued
      · cases stepped
  | loadInFlight =>
      simp only [step] at stepped
      split at stepped
      · rename_i at' sub
        cases stepped
        exact .loadInFlight at' sub
      · cases stepped
  | exchange =>
      simp only [step] at stepped
      split at stepped
      · rename_i at' cur sub
        simp only [Option.ite_none_right_eq_some, Option.some.injEq] at stepped
        rcases stepped with ⟨⟨positive, rfl⟩, rfl⟩
        exact .exchange at' sub positive
      · cases stepped
  | exchangeFails =>
      simp only [step] at stepped
      split at stepped
      · rename_i at' cur sub
        simp only [Option.ite_none_right_eq_some, Option.some.injEq] at stepped
        rcases stepped with ⟨-, rfl⟩
        exact .exchangeFails at' cur sub
      · cases stepped
  | skip =>
      simp only [step] at stepped
      split at stepped
      · rename_i at' cur sub
        simp only [Option.ite_none_left_eq_some, Option.some.injEq] at stepped
        rcases stepped with ⟨none, rfl⟩
        exact .skip at' cur sub (Int.not_lt.mp none)
      · cases stepped

end MtOneWay

end MiddlewareBench.Bench
