import Mathlib.Data.List.Nodup
import MiddlewareBench.Vsomeip.EchoCalls

/-!
# Whose round trip it is

The invariant of `EchoCalls` runs, in four parts: what the caller stamped and
sent (`Stamped`), what the network carries and the handlers have read
(`Carried`), what the shared fields say while a call is pending (`Awaited`), and
what was printed (`Reported`). A run is identified with its actions: the `i`-th
`stamp` is that of call `i`, and response `k` is what the `k`-th `echo` sent.
-/

namespace MiddlewareBench.Vsomeip.EchoCalls

open Bytes Runs

/-! ## What a run did -/

def Action.stamp? : Action → Option UInt64
  | .stamp now => some now
  | _ => none

def Action.echo? : Action → Option Nat
  | .echo request => some request
  | _ => none

/-- The stamps of the calls, in order. -/
def stamps (acts : List Action) : List UInt64 := acts.filterMap Action.stamp?

/-- The requests the responses answer, in order. -/
def echoes (acts : List Action) : List Nat := acts.filterMap Action.echo?

/-- Request `i` was stamped `sendNs`, and a response to it arrived at `recvNs`. -/
def Answers (acts : List Action) (i : Nat) (recvNs sendNs : UInt64) : Prop :=
  (stamps acts)[i]? = some sendNs ∧
    ∃ k, (echoes acts)[k]? = some i ∧ .deliver k recvNs ∈ acts

theorem stamps_concat (acts : List Action) (a : Action) :
    stamps (acts ++ [a]) = stamps acts ++ a.stamp?.toList := by
  rw [stamps, List.filterMap_append, stamps]
  cases a <;> rfl

theorem echoes_concat (acts : List Action) (a : Action) :
    echoes (acts ++ [a]) = echoes acts ++ a.echo?.toList := by
  rw [echoes, List.filterMap_append, echoes]
  cases a <;> rfl

theorem stamps_keep {acts : List Action} {i : Nat} {t : UInt64} (a : Action)
    (stamped : (stamps acts)[i]? = some t) : (stamps (acts ++ [a]))[i]? = some t := by
  rw [stamps_concat]
  exact getElem?_append_of_some stamped

theorem echoes_keep {acts : List Action} {k i : Nat} (a : Action)
    (echoed : (echoes acts)[k]? = some i) : (echoes (acts ++ [a]))[k]? = some i := by
  rw [echoes_concat]
  exact getElem?_append_of_some echoed

theorem Answers.keep {acts : List Action} {i : Nat} {recvNs sendNs : UInt64} (a : Action)
    (answers : Answers acts i recvNs sendNs) : Answers (acts ++ [a]) i recvNs sendNs := by
  rcases answers with ⟨stamped, k, echoed, delivered⟩
  exact ⟨stamps_keep a stamped, k, echoes_keep a echoed, List.mem_append_left _ delivered⟩

/-! ## What the caller stamped and sent -/

/-- How many calls are stamped. -/
def CallerPc.stamped : CallerPc → Nat
  | .begin | .failed => 0
  | .call i | .finished i => i
  | .arm i | .send i | .wait i => i + 1

/-- How many requests are sent. -/
def CallerPc.sent : CallerPc → Nat
  | .begin | .failed => 0
  | .call i | .finished i | .arm i | .send i => i
  | .wait i => i + 1

/-- How many calls are over. -/
def CallerPc.ended : CallerPc → Nat
  | .begin | .failed => 0
  | .call i | .finished i | .arm i | .send i | .wait i => i

/-- The call whose number is the pending one. -/
def CallerPc.pending : CallerPc → Option Nat
  | .send i | .wait i => some i
  | _ => none

/-- The buffer and the requests hold the stamps of their calls. -/
structure Stamped (opt : Options) (acts : List Action) (s : State) : Prop where
  width : s.buf.length = opt.size.toNat
  stamps : (stamps acts).length = s.pc.stamped
  sent : s.requests.length = s.pc.sent
  few : s.pc.stamped ≤ opt.rpcCalls.toInt.toNat
  buffered : ∀ i, s.pc = .arm i ∨ s.pc = .send i → ∃ t, (EchoCalls.stamps acts)[i]? = some t ∧
    readStamp s.buf = some (t, UInt32.ofNat i)
  requests : ∀ j payload, s.requests[j]? = some payload →
    ∃ t, (EchoCalls.stamps acts)[j]? = some t ∧ readStamp payload = some (t, UInt32.ofNat j)

/-- Nothing the caller stamped or sent has changed, and the buffer is not of
interest or as it was. -/
theorem Stamped.frame {opt : Options} {acts : List Action} {s t : State} {a : Action}
    (stamped : Stamped opt acts s) (quiet : a.stamp? = none) (buf : t.buf = s.buf)
    (requests : t.requests = s.requests) (count : t.pc.stamped = s.pc.stamped)
    (sent : t.pc.sent = s.pc.sent)
    (same : ∀ i, t.pc = .arm i ∨ t.pc = .send i → s.pc = .arm i ∨ s.pc = .send i) :
    Stamped opt (acts ++ [a]) t := by
  have stamps : EchoCalls.stamps (acts ++ [a]) = EchoCalls.stamps acts := by
    rw [stamps_concat, quiet, Option.toList_none, List.append_nil]
  refine ⟨buf ▸ stamped.width, ?_, ?_, count ▸ stamped.few, ?_, ?_⟩
  · rw [stamps, stamped.stamps, count]
  · rw [requests, stamped.sent, sent]
  · rw [stamps, buf]
    exact fun i at' => stamped.buffered i (same i at')
  · rw [stamps, requests]
    exact stamped.requests

theorem Stamped.step {opt : Options} (room : kBenchHeaderBytes ≤ opt.size.toNat)
    {acts : List Action} {s t : State} {a : Action} (stamped : Stamped opt acts s)
    (stepped : step opt s a = some t) : Stamped opt (acts ++ [a]) t := by
  cases step_cases stepped with
  | refuse pc | begin pc =>
      exact stamped.frame rfl rfl rfl (by rw [pc]; rfl) (by rw [pc]; rfl) (by simp)
  | stamp i now pc more =>
      rcases stamped with ⟨width, count, sent, few, buffered, requests⟩
      rw [pc] at count sent
      have own : (EchoCalls.stamps (acts ++ [.stamp now]))[i]? = some now := by
        rw [stamps_concat, List.getElem?_append_right (by rw [count]; rfl), count]
        simp [CallerPc.stamped, Action.stamp?]
      refine ⟨?_, ?_, sent, ?_, ?_, ?_⟩
      · rw [length_stampPayload, width]
      · rw [stamps_concat, List.length_append, count]
        rfl
      · simp only [CallerPc.stamped]
        omega
      · intro j at'
        rcases at' with at' | at' <;> cases at'
        exact ⟨now, own, readStamp_stampPayload now _ (width ▸ room)⟩
      · intro j payload there
        obtain ⟨t, at', read⟩ := requests j payload there
        exact ⟨t, stamps_keep _ at', read⟩
  | leave i pc => exact stamped.frame rfl rfl rfl (by rw [pc]; rfl) (by rw [pc]; rfl) (by simp)
  | arm i client pc pending open' =>
      exact stamped.frame rfl rfl rfl (by rw [pc]; rfl) (by rw [pc]; rfl) (by simp [pc])
  | send i pc =>
      rcases stamped with ⟨width, count, sent, few, buffered, requests⟩
      obtain ⟨now, at', read⟩ := buffered i (.inr pc)
      rw [pc] at count sent few
      have same : EchoCalls.stamps (acts ++ [.send]) = EchoCalls.stamps acts := by
        rw [stamps_concat]
        exact List.append_nil _
      refine ⟨width, by rw [same, count]; rfl, by simp [sent, CallerPc.sent], few, by simp, ?_⟩
      intro j payload there
      rw [same]
      rcases getElem?_concat_cases there with old | ⟨own, rfl⟩
      · exact requests j payload old
      · rw [own, sent]
        exact ⟨now, at', read⟩
  | wake i pc done =>
      exact stamped.frame rfl rfl rfl (by rw [pc]; rfl) (by rw [pc]; rfl) (by simp)
  | timeout i pc => exact stamped.frame rfl rfl rfl (by rw [pc]; rfl) (by rw [pc]; rfl) (by simp)
  | echo request payload sent => exact stamped.frame rfl rfl rfl rfl rfl fun _ => id
  | ignore response recvNs payload sent unreadable =>
      exact stamped.frame rfl rfl rfl rfl rfl fun _ => id
  | deliver response recvNs sendNs seq payload sent read =>
      exact stamped.frame rfl rfl rfl rfl rfl fun _ => id
  | handle handler h running => exact stamped.frame rfl rfl rfl rfl rfl fun _ => id

/-! ## What the network carries -/

/-- A response holds the payload of the request it answers, and a handler the
stamp and the number of that request. -/
structure Carried (acts : List Action) (s : State) : Prop where
  echoed : (echoes acts).length = s.responses.length
  responses : ∀ (k : Nat) payload, s.responses[k]? = some payload →
    ∃ j : Nat, (echoes acts)[k]? = some j ∧ s.requests[j]? = some payload
  handlers : ∀ h ∈ s.handlers, ∃ j < s.requests.length,
    Answers acts j h.recvNs h.sendNs ∧ h.seq = UInt32.ofNat j

/-- A step that sends no response and starts no handler. -/
theorem Carried.frame {acts : List Action} {s t : State} {a : Action} (carried : Carried acts s)
    (quiet : a.echo? = none) (responses : t.responses = s.responses)
    (requests : s.requests <+: t.requests) (handlers : ∀ h ∈ t.handlers, h ∈ s.handlers) :
    Carried (acts ++ [a]) t := by
  rcases requests with ⟨more, grown⟩
  refine ⟨?_, ?_, ?_⟩
  · rw [echoes_concat, quiet, Option.toList_none, List.append_nil, responses, carried.echoed]
  · intro k payload there
    obtain ⟨j, echoed, sent⟩ := carried.responses k payload (responses ▸ there)
    exact ⟨j, echoes_keep a echoed, grown ▸ getElem?_append_of_some sent⟩
  · intro h member
    obtain ⟨j, below, answers, seq⟩ := carried.handlers h (handlers h member)
    refine ⟨j, ?_, answers.keep a, seq⟩
    rw [← grown, List.length_append]
    omega

theorem Carried.step {opt : Options} {acts : List Action} {s t : State} {a : Action}
    (carried : Carried acts s) (stamped : Stamped opt acts s)
    (stepped : step opt s a = some t) : Carried (acts ++ [a]) t := by
  cases step_cases stepped with
  | refuse | begin | stamp | leave | arm | wake | timeout =>
      exact carried.frame rfl rfl (List.prefix_refl _) fun _ => id
  | send i pc => exact carried.frame rfl rfl (List.prefix_append _ _) fun _ => id
  | ignore => exact carried.frame rfl rfl (List.prefix_refl _) fun _ => id
  | echo request payload sent =>
      rcases carried with ⟨echoed, responses, handlers⟩
      refine ⟨?_, ?_, ?_⟩
      · rw [echoes_concat, List.length_append, echoed, List.length_append]
        rfl
      · intro k payload' there
        rcases getElem?_concat_cases there with old | ⟨own, rfl⟩
        · obtain ⟨j, earlier, request⟩ := responses k payload' old
          exact ⟨j, echoes_keep _ earlier, request⟩
        · refine ⟨request, ?_, sent⟩
          rw [echoes_concat, own, ← echoed]
          exact List.getElem?_concat_length
      · intro h member
        obtain ⟨j, below, answers, seq⟩ := handlers h member
        exact ⟨j, below, answers.keep _, seq⟩
  | deliver response recvNs sendNs seq payload sent read =>
      rcases carried with ⟨echoed, responses, handlers⟩
      refine ⟨?_, ?_, ?_⟩
      · rw [echoes_concat, List.length_append, echoed]
        rfl
      · intro k payload' there
        obtain ⟨j, earlier, request⟩ := responses k payload' there
        exact ⟨j, echoes_keep _ earlier, request⟩
      · intro h member
        rcases List.mem_append.mp member with old | own
        · obtain ⟨j, below, answers, number⟩ := handlers h old
          exact ⟨j, below, answers.keep _, number⟩
        · -- the response read now is the payload of its request, stamp and number
          obtain ⟨j, echo, request⟩ := responses response payload sent
          obtain ⟨now, stamp, read'⟩ := stamped.requests j payload request
          rw [List.mem_singleton.mp own]
          rw [read, Option.some.injEq, Prod.mk.injEq] at read'
          rcases read' with ⟨rfl, rfl⟩
          refine ⟨j, (List.getElem?_eq_some_iff.mp request).1, ⟨stamps_keep _ stamp, response,
            echoes_keep _ echo, List.mem_append_right _ List.mem_cons_self⟩, rfl⟩
  | handle handler h running =>
      exact carried.frame rfl rfl (List.prefix_refl _) fun _ => List.mem_of_mem_eraseIdx

/-! ## What the shared fields say -/

/-- While call `i` is pending, its number is the pending one, and a completed
round trip is its own. -/
structure Awaited (acts : List Action) (s : State) : Prop where
  pending : ∀ i, s.pc.pending = some i → s.client.rpcPendingSeq = UInt32.ofNat i
  completed : ∀ i, s.pc.pending = some i → s.client.rpcDone = true →
    ∃ recvNs sendNs, Answers acts i recvNs sendNs ∧
      s.client.rpcRttUs = latencyUs recvNs sendNs

/-- A step that leaves the client alone and makes no call pending. -/
theorem Awaited.frame {acts : List Action} {s t : State} {a : Action} (awaited : Awaited acts s)
    (client : t.client = s.client) (pc : ∀ i, t.pc.pending = some i → s.pc.pending = some i) :
    Awaited (acts ++ [a]) t := by
  refine ⟨fun i now => ?_, fun i now done => ?_⟩
  · rw [client]
    exact awaited.pending i (pc i now)
  · rw [client] at done ⊢
    obtain ⟨recvNs, sendNs, answers, rtt⟩ := awaited.completed i (pc i now) done
    exact ⟨recvNs, sendNs, answers.keep a, rtt⟩

theorem completeEcho_of_ne {self : EventClient} {recvNs sendNs : UInt64} {seq : UInt32}
    (other : seq ≠ self.rpcPendingSeq) : self.completeEcho recvNs sendNs seq = self :=
  if_pos other

theorem completeEcho_pending (self : EventClient) (recvNs sendNs : UInt64) :
    self.completeEcho recvNs sendNs self.rpcPendingSeq =
      { self with rpcRttUs := latencyUs recvNs sendNs, rpcDone := true } :=
  if_neg (not_not_intro rfl)

/-- Calls have different numbers. -/
theorem call_eq_of_seq_eq {i j : Nat} (fewI : i < 2 ^ 31) (fewJ : j < 2 ^ 31)
    (same : UInt32.ofNat i = UInt32.ofNat j) : i = j := by
  have nat := congrArg UInt32.toNat same
  rwa [UInt32.toNat_ofNat_of_lt' (by rw [UInt32.size]; omega),
    UInt32.toNat_ofNat_of_lt' (by rw [UInt32.size]; omega)] at nat

/-- A pending call is one of the calls. -/
theorem Stamped.pending_lt {opt : Options} {acts : List Action} {s : State}
    (stamped : Stamped opt acts s) {i : Nat} (pending : s.pc.pending = some i) : i < 2 ^ 31 := by
  have few := stamped.few
  have bound := opt.rpcCalls.toInt_lt
  have own : s.pc.stamped = i + 1 := by
    cases pc : s.pc <;> simp [pc, CallerPc.pending] at pending <;>
      simp [CallerPc.stamped, pending]
  omega

/-- A request that was sent is one of a call. -/
theorem Stamped.request_lt {opt : Options} {acts : List Action} {s : State}
    (stamped : Stamped opt acts s) {j : Nat} (sent : j < s.requests.length) : j < 2 ^ 31 := by
  have few := stamped.few
  have bound := opt.rpcCalls.toInt_lt
  have count := stamped.sent
  have order : s.pc.sent ≤ s.pc.stamped := by
    cases s.pc <;> simp [CallerPc.sent, CallerPc.stamped]
  omega

theorem Awaited.step {opt : Options} {acts : List Action} {s t : State} {a : Action}
    (awaited : Awaited acts s) (stamped : Stamped opt acts s) (carried : Carried acts s)
    (stepped : step opt s a = some t) : Awaited (acts ++ [a]) t := by
  cases step_cases stepped with
  | refuse | begin | stamp | leave | wake | timeout =>
      exact awaited.frame rfl fun _ none => nomatch none
  | arm i client pc pending open' =>
      refine ⟨fun j own => ?_, fun j own done => ?_⟩
      · cases own
        exact pending
      · exact absurd (open'.symm.trans done) Bool.false_ne_true
  | send i pc => exact awaited.frame rfl fun j own => by rw [pc]; exact own
  | echo | ignore | deliver => exact awaited.frame rfl fun _ => id
  | handle handler h running =>
      obtain ⟨j, sent, answers, number⟩ := carried.handlers h (List.mem_of_getElem? running)
      by_cases other : h.seq ≠ s.client.rpcPendingSeq
      · exact awaited.frame (completeEcho_of_ne other) fun _ => id
      · have same := not_not.mp other
        refine ⟨fun i own => ?_, fun i own done => ?_⟩
        · rw [same, completeEcho_pending]
          exact awaited.pending i own
        · have pending := awaited.pending i own
          have call : j = i := call_eq_of_seq_eq (stamped.request_lt sent)
            (stamped.pending_lt own) (number.symm.trans (same.trans pending))
          rw [same, completeEcho_pending]
          exact ⟨h.recvNs, h.sendNs, (call ▸ answers).keep _, rfl⟩

/-! ## What is reported -/

/-- One line for each call that is over, in order, and each round trip printed or
collected is that of its call. -/
structure Reported (acts : List Action) (s : State) : Prop where
  lines : s.printed.map Line.call = List.range s.pc.ended
  trips : ∀ i us, .rtt i us ∈ s.printed →
    ∃ recvNs sendNs, Answers acts i recvNs sendNs ∧ us = latencyUs recvNs sendNs
  collected : s.rtts = s.printed.filterMap Line.rtt?

/-- A step that prints nothing. -/
theorem Reported.frame {acts : List Action} {s t : State} {a : Action}
    (reported : Reported acts s) (printed : t.printed = s.printed) (rtts : t.rtts = s.rtts)
    (ended : t.pc.ended = s.pc.ended) : Reported (acts ++ [a]) t := by
  refine ⟨by rw [printed, ended, reported.lines], fun i us member => ?_,
    by rw [printed, rtts, reported.collected]⟩
  obtain ⟨recvNs, sendNs, answers, trip⟩ := reported.trips i us (printed ▸ member)
  exact ⟨recvNs, sendNs, answers.keep a, trip⟩

/-- A step that ends a call with a line, whose round trip is that of its call. -/
theorem Reported.line {acts : List Action} {s t : State} {a : Action}
    (reported : Reported acts s) {line : Line} (printed : t.printed = s.printed ++ [line])
    (rtts : t.rtts = s.rtts ++ line.rtt?.toList) (call : line.call = s.pc.ended)
    (ended : t.pc.ended = s.pc.ended + 1)
    (trip : ∀ i us, .rtt i us = line → ∃ recvNs sendNs, Answers acts i recvNs sendNs ∧
      us = latencyUs recvNs sendNs) : Reported (acts ++ [a]) t := by
  refine ⟨?_, fun i us member => ?_, ?_⟩
  · rw [printed, List.map_append, reported.lines, List.map_singleton, call, ended]
    exact List.range_succ.symm
  · rw [printed, List.mem_append, List.mem_singleton] at member
    obtain ⟨recvNs, sendNs, answers, own⟩ := member.elim (reported.trips i us) (trip i us)
    exact ⟨recvNs, sendNs, answers.keep a, own⟩
  · rw [rtts, printed, List.filterMap_append, ← reported.collected]
    cases line <;> rfl

theorem Reported.step {opt : Options} {acts : List Action} {s t : State} {a : Action}
    (reported : Reported acts s) (awaited : Awaited acts s)
    (stepped : step opt s a = some t) : Reported (acts ++ [a]) t := by
  cases step_cases stepped with
  | refuse pc | begin pc | stamp _ _ pc | leave _ pc | arm _ _ pc | send _ pc =>
      exact reported.frame rfl rfl (by rw [pc]; rfl)
  | echo | ignore | deliver | handle => exact reported.frame rfl rfl rfl
  | wake i pc done =>
      apply reported.line rfl rfl (by rw [pc]; rfl) (by rw [pc]; rfl)
      intro j us same
      cases same
      exact awaited.completed i (by rw [pc]; rfl) done
  | timeout i pc =>
      apply reported.line rfl (List.append_nil _).symm (by rw [pc]; rfl) (by rw [pc]; rfl)
      intro j us same
      cases same

/-! ## Every interleaving -/

/-- The invariant of a run. -/
structure Sound (opt : Options) (acts : List Action) (s : State) : Prop where
  stamped : Stamped opt acts s
  carried : Carried acts s
  awaited : Awaited acts s
  reported : Reported acts s

theorem sound_start (opt : Options) : Sound opt [] (start opt) where
  stamped :=
    ⟨List.length_replicate, rfl, rfl, Nat.zero_le _, by simp [start], by simp [start]⟩
  carried := ⟨rfl, by simp [start], by simp [start]⟩
  awaited := ⟨by simp [start, CallerPc.pending], by simp [start, CallerPc.pending]⟩
  reported := ⟨rfl, by simp [start], rfl⟩

theorem run_sound {opt : Options} (room : kBenchHeaderBytes ≤ opt.size.toNat) {acts : List Action}
    {s : State} (ran : run (step opt) (start opt) acts = some s) : Sound opt acts s := by
  refine run_history (P := Sound opt) (sound_start opt) ?_ ran
  intro past m a t sound stepped
  exact ⟨sound.stamped.step room stepped, sound.carried.step sound.stamped stepped,
    sound.awaited.step sound.stamped sound.carried stepped,
    sound.reported.step sound.awaited stepped⟩

/-- The calls that are over are among those to be made. -/
theorem Stamped.ended_le {opt : Options} {acts : List Action} {s : State}
    (stamped : Stamped opt acts s) : s.pc.ended ≤ opt.rpcCalls.toInt.toNat := by
  have few := stamped.few
  have order : s.pc.ended ≤ s.pc.stamped := by
    cases s.pc <;> simp [CallerPc.ended, CallerPc.stamped]
  omega

/-- A handler that runs on behalf of a call other than the pending one ends
without effect. -/
theorem Sound.handle_late {opt : Options} {acts : List Action} {s t : State}
    (sound : Sound opt acts s) {handler : Nat} {h : Handler}
    (running : s.handlers[handler]? = some h) {i j : Nat} (pending : s.pc.pending = some i)
    (late : i ≠ j) (sent : j < s.requests.length) (number : h.seq = UInt32.ofNat j)
    (stepped : step opt s (.handle handler) = some t) :
    t = { s with handlers := s.handlers.eraseIdx handler } := by
  have other : h.seq ≠ s.client.rpcPendingSeq := by
    rw [number, sound.awaited.pending i pending]
    intro same
    exact late (call_eq_of_seq_eq (sound.stamped.request_lt sent)
      (sound.stamped.pending_lt pending) same).symm
  simp only [step, running, Option.map_some, Option.some.injEq] at stepped
  rw [← stepped, completeEcho_of_ne other]

/-- **Round trips are never misattributed**, in any interleaving of sends, echoes,
deliveries, handlers and timeouts. A round trip printed for call `i` is the
arrival of a response to request `i` minus the stamp of request `i`; a call
without a response has none, nor has one that timed out; the values collected are
those printed, at most one for each call; and a handler that has read a response
to a call other than the pending one changes nothing. -/
theorem round_trips_attributed (opt : Options) (room : kBenchHeaderBytes ≤ opt.size.toNat)
    (acts : List Action) (s : State) (ran : run (step opt) (start opt) acts = some s) :
    (∀ i us, .rtt i us ∈ s.printed →
        ∃ recvNs sendNs, Answers acts i recvNs sendNs ∧ us = latencyUs recvNs sendNs) ∧
      (∀ i, (∀ recvNs sendNs, ¬ Answers acts i recvNs sendNs) → ∀ us, .rtt i us ∉ s.printed) ∧
      (∀ i, .timeout i ∈ s.printed → ∀ us, .rtt i us ∉ s.printed) ∧
      s.rtts = s.printed.filterMap Line.rtt? ∧ (s.printed.map Line.call).Nodup ∧
      s.rtts.length ≤ opt.rpcCalls.toInt.toNat ∧
      ∀ (handler : Nat) h, s.handlers[handler]? = some h →
        ∃ j, Answers acts j h.recvNs h.sendNs ∧ ∀ i t, s.pc.pending = some i → i ≠ j →
          step opt s (.handle handler) = some t →
            t = { s with handlers := s.handlers.eraseIdx handler } := by
  have sound := run_sound room ran
  have ⟨lines, trips, collected⟩ := sound.reported
  have nodup : (s.printed.map Line.call).Nodup := by
    rw [lines]
    exact List.nodup_range
  refine ⟨trips, fun i unanswered us member => ?_, fun i timedOut us member => ?_, collected,
    nodup, ?_, fun handler h running => ?_⟩
  · obtain ⟨recvNs, sendNs, answers, -⟩ := trips i us member
    exact unanswered recvNs sendNs answers
  · cases List.inj_on_of_nodup_map nodup timedOut member rfl
  · have count : s.printed.length = s.pc.ended := by
      simpa using congrArg List.length lines
    calc s.rtts.length ≤ s.printed.length := by
          rw [collected]
          exact List.length_filterMap_le _ _
      _ = s.pc.ended := count
      _ ≤ opt.rpcCalls.toInt.toNat := sound.stamped.ended_le
  · obtain ⟨j, sent, answers, number⟩ := sound.carried.handlers h (List.mem_of_getElem? running)
    exact ⟨j, answers, fun i t pending late stepped =>
      sound.handle_late running pending late sent number stepped⟩

/-- Call `0` times out, and the response to it arrives during call `1`, before the
response to call `1` does. -/
def lateResponse : List Action :=
  [.begin, .stamp 100, .arm, .send, .timeout, .stamp 5000, .arm, .send,
    .echo 0, .deliver 0 6000, .handle 0, .echo 1, .deliver 1 7000, .handle 0, .wake]

theorem round_trips_attributed_late :
    ∃ s, run (step { size := 12, rpcCalls := 2 }) (start { size := 12, rpcCalls := 2 })
        lateResponse = some s ∧ s.printed = [.timeout 0, .rtt 1 2] ∧
      ∃ recvNs sendNs, Answers lateResponse 1 recvNs sendNs ∧ 2 = latencyUs recvNs sendNs := by
  have prints : (run (step { size := 12, rpcCalls := 2 }) (start { size := 12, rpcCalls := 2 })
      lateResponse).map State.printed = some [.timeout 0, .rtt 1 2] := by decide +kernel
  obtain ⟨s, ran, printed⟩ := Option.map_eq_some_iff.mp prints
  refine ⟨s, ran, printed, ?_⟩
  exact (round_trips_attributed { size := 12, rpcCalls := 2 } (by decide) lateResponse s ran).1 1 2
    (by simp [printed])

end MiddlewareBench.Vsomeip.EchoCalls
