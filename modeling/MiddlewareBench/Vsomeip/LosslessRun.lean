import MiddlewareBench.Vsomeip.Deliveries
import MiddlewareBench.Vsomeip.ParseOptions
import MiddlewareBench.Vsomeip.PrintCsv

/-!
# Runs without a loss

What a client knows of the events depends on the notifications of the event alone, and
what it knows of its calls on the echo responses alone, whatever else arrives in between
(`receive_independent`). A client that gets all notifications of a run of the publisher,
in order, ends with the line that the run should have (`report_lossless`).
-/

namespace MiddlewareBench.Vsomeip

open Bytes Transducer SeqNumbers

/-! ## Messages that matter -/

def Message.isEcho (msg : Message) : Bool :=
  msg.messageType = .mtResponse ∧ msg.method = kEchoMethodId

def Message.isEvent (msg : Message) : Bool :=
  msg.messageType = .mtNotification ∧ msg.service = kServiceId ∧ msg.instanceId = kInstanceId ∧
    msg.method = kEventId

namespace EventClient

/-- What the events change. -/
def eventPart (self : EventClient) : FrameTracker × Bool × UInt32 × UInt64 × List Double :=
  (self.tracker, self.done, self.lastSeq, self.gapCount, self.latenciesUs)

/-- What the calls and their responses change. -/
def rpcPart (self : EventClient) : UInt32 × Bool × Double :=
  (self.rpcPendingSeq, self.rpcDone, self.rpcRttUs)

variable {build : Build} {opt : Options} {self self' : EventClient} {recvNs : UInt64}
  {msg : Message}

theorem onMessage_of_isEvent (event : msg.isEvent = true) :
    self.onMessage build opt recvNs msg = self.onNotification build opt recvNs msg.payload := by
  simp only [Message.isEvent, decide_eq_true_eq] at event
  obtain ⟨type, service, inst, method⟩ := event
  unfold onMessage
  rw [if_neg (by rw [type]; nofun), if_neg (by simpa using type),
    if_neg (by simp [service, inst, method])]

theorem onMessage_of_isEcho (echo : msg.isEcho = true) :
    self.onMessage build opt recvNs msg = self.onEchoResponse recvNs msg.payload := by
  simp only [Message.isEcho, decide_eq_true_eq] at echo
  unfold onMessage
  rw [if_pos echo]

/-- Anything else is ignored. -/
theorem onMessage_of_foreign (event : msg.isEvent = false) (echo : msg.isEcho = false) :
    self.onMessage build opt recvNs msg = self := by
  simp only [Message.isEcho, decide_eq_false_iff_not] at echo
  simp only [Message.isEvent, decide_eq_false_iff_not, not_and_or] at event
  unfold onMessage
  rw [if_neg echo]
  split
  · rfl
  · rename_i type
    rw [if_pos (event.resolve_left type)]

/-! ## Events -/

theorem onFrame_eventPart {frame : CompletedFrame} (same : self.eventPart = self'.eventPart) :
    (self.onFrame opt recvNs frame).eventPart = (self'.onFrame opt recvNs frame).eventPart := by
  simp only [eventPart, Prod.mk.injEq] at same ⊢
  obtain ⟨tracker, done, last, gaps, samples⟩ := same
  unfold onFrame countGap recordLatency
  simp only [last, gaps]
  grind

theorem onNotification_eventPart {payload : Block} (same : self.eventPart = self'.eventPart) :
    (self.onNotification build opt recvNs payload).eventPart =
      (self'.onNotification build opt recvNs payload).eventPart := by
  have parts := same
  simp only [eventPart, Prod.mk.injEq] at parts
  obtain ⟨tracker, rest⟩ := parts
  unfold onNotification
  simp only [tracker]
  cases (self'.tracker.ingest build payload).2 with
  | none => simp only [eventPart, rest]
  | some frame => exact onFrame_eventPart (by simp only [eventPart, rest])

theorem onFrame_rpcPart {frame : CompletedFrame} :
    (self.onFrame opt recvNs frame).rpcPart = self.rpcPart := by
  unfold onFrame
  rw [recordLatency_frame, countGap_frame]
  rfl

theorem onNotification_rpcPart {payload : Block} :
    (self.onNotification build opt recvNs payload).rpcPart = self.rpcPart := by
  unfold onNotification
  dsimp only
  cases (self.tracker.ingest build payload).2 with
  | none => rfl
  | some frame => exact onFrame_rpcPart

/-! ## Echo responses -/

theorem onEchoResponse_eventPart {payload : Block} :
    (self.onEchoResponse recvNs payload).eventPart = self.eventPart := by
  unfold onEchoResponse
  cases readStamp payload with
  | none => rfl
  | some stamp =>
      unfold completeEcho
      dsimp only
      split <;> rfl

theorem onEchoResponse_rpcPart {payload : Block} (same : self.rpcPart = self'.rpcPart) :
    (self.onEchoResponse recvNs payload).rpcPart =
      (self'.onEchoResponse recvNs payload).rpcPart := by
  unfold onEchoResponse
  cases readStamp payload with
  | none => exact same
  | some stamp =>
      simp only [rpcPart, Prod.mk.injEq] at same ⊢
      unfold completeEcho
      simp only [same.1]
      split
      · exact same
      · exact ⟨rfl, rfl, rfl⟩

/-- **Events and calls do not meet.** Whatever messages arrive, in whatever order: what a
client knows of the events is what the notifications of the event alone would have told
it, and what it knows of its calls is what the echo responses alone would have. -/
theorem receive_independent (build : Build) (opt : Options) (self : EventClient)
    (arrivals : List (UInt64 × Message)) :
    (self.receive build opt arrivals).eventPart =
        (self.receive build opt (arrivals.filter fun arrival => arrival.2.isEvent)).eventPart ∧
      (self.receive build opt arrivals).rpcPart =
        (self.receive build opt (arrivals.filter fun arrival => arrival.2.isEcho)).rpcPart := by
  refine ⟨foldl_project ?_ ?_ rfl arrivals, foldl_project ?_ ?_ rfl arrivals⟩
  · intro s arrival other
    cases echo : arrival.2.isEcho with
    | true =>
        rw [onMessage_of_isEcho echo]
        exact onEchoResponse_eventPart
    | false => rw [onMessage_of_foreign other echo]
  · intro s s' arrival event same
    rw [onMessage_of_isEvent event, onMessage_of_isEvent event]
    exact onNotification_eventPart same
  · intro s arrival other
    cases event : arrival.2.isEvent with
    | true =>
        rw [onMessage_of_isEvent event]
        exact onNotification_rpcPart
    | false => rw [onMessage_of_foreign event other]
  · intro s s' arrival echo same
    rw [onMessage_of_isEcho echo, onMessage_of_isEcho echo]
    exact onEchoResponse_rpcPart same

end EventClient

/-! ## All datagrams in order -/

/-- A frame that its last datagram completes. -/
theorem completions_concat {build : Build} {tr : FrameTracker}
    {earlier : List (UInt64 × Block)} {recvNs : UInt64} {data : Block} {frame : CompletedFrame}
    (answers : outputs (FrameTracker.ingest build) tr (earlier.map Prod.snd ++ [data]) =
      List.replicate earlier.length none ++ [some frame]) :
    completions build tr (earlier ++ [(recvNs, data)]) = [(recvNs, frame)] := by
  induction earlier generalizing tr with
  | nil =>
      simp only [List.map_nil, List.nil_append, outputs_cons, outputs_nil, List.length_nil,
        List.replicate_zero, List.cons.injEq, and_true] at answers
      simp [completions, answers]
  | cons arrival earlier ih =>
      simp only [List.map_cons, List.cons_append, outputs_cons, List.length_cons,
        List.replicate_succ, List.cons.injEq] at answers
      rw [List.cons_append, completions, answers.1]
      exact ih answers.2

theorem length_datagrams (frames n : Nat) : (datagrams frames n).length = frames * n := by
  simp [datagrams]

section Whole

variable {build : Build} {frames n : Nat} {payload : Nat → Nat → Block}

/-- Delivered whole and in order, every frame is completed by its last datagram. -/
theorem SentFrames.completions_whole (sent : SentFrames build frames n payload) (pos : 0 < n)
    (clock : Datagram → UInt64) (tr : FrameTracker) {upTo : Nat} (within : upTo ≤ frames) :
    completions build tr (arrivals clock payload (datagrams upTo n)) =
      (List.range upTo).map fun k =>
        (clock (k, n - 1), ⟨UInt32.ofNat k, sendNsOf build (payload k 0)⟩) := by
  induction upTo with
  | zero => rfl
  | succ k ih =>
      obtain ⟨last, rfl⟩ : ∃ last, n = last + 1 := ⟨n - 1, (Nat.sub_add_cancel pos).symm⟩
      have own := fun tr => @FrameTracker.outputs_frame build tr _ _ pos sent.count (payload k)
        (sent.carries k within)
      have frame : arrivals clock payload ((List.range (last + 1)).map fun c => (k, c)) =
          (List.range last).map (fun c => (clock (k, c), payload k c)) ++
            [(clock (k, last), payload k last)] := by
        rw [arrivals, List.map_map, List.range_succ, List.map_append]
        rfl
      rw [datagrams_succ, arrivals, List.map_append, ← arrivals, ← arrivals, completions_append,
        ih (Nat.le_of_succ_le within), frame, @List.range_succ k, List.map_append]
      congr 1
      apply completions_concat
      rw [List.map_map, List.length_map, List.length_range]
      have answers := own (after (FrameTracker.ingest build) tr
        ((arrivals clock payload (datagrams k (last + 1))).map Prod.snd))
      rw [List.range_succ, List.map_append, Nat.add_sub_cancel] at answers
      exact answers

/-- Datagram `(k, c)` is sent in the place `k * n + c`. -/
theorem mapIdx_datagrams (recv : Nat → UInt64) (payload : Datagram → Block) (frames n : Nat) :
    ((datagrams frames n).map payload).mapIdx (fun i data => (recv i, data)) =
      (datagrams frames n).map fun d => (recv (d.1 * n + d.2), payload d) := by
  induction frames with
  | zero => rfl
  | succ frames ih =>
      rw [datagrams_succ, List.map_append, List.map_append, List.mapIdx_append, ih]
      congr 1
      refine List.ext_getElem (by simp) fun c _ _ => ?_
      simp [length_datagrams, Nat.add_comm]

end Whole

/-! ## The line of a run -/

/-- What a client counts over frames `0`, `1`, … that are completed in turn. -/
theorem EventClient.onFrames_whole {opt : Options} {w c : Nat} (warmup : opt.warmup.toInt = w)
    (few : w + c < 2 ^ 31) (recv send : Nat → UInt64) :
    (onFrames opt {} ((List.range (w + c)).map fun k =>
        (recv k, ⟨UInt32.ofNat k, send k⟩))).latenciesUs =
      (List.range c).map fun i => latencyUs (recv (w + i)) (send (w + i)) := by
  have seq : ∀ k < w + c, (UInt32.ofNat k).toNat = k := fun k below => toNat_seq (by omega)
  have warm : (List.range w).filter (fun k => decide (opt.warmup.toInt ≤ (UInt32.ofNat k).toNat)) =
      [] := by
    refine List.filter_eq_nil_iff.mpr fun k member => ?_
    have below := List.mem_range.mp member
    rw [seq k (by omega), decide_eq_true_iff]
    omega
  have timed : ((List.range c).map (w + ·)).filter
      (fun k => decide (opt.warmup.toInt ≤ (UInt32.ofNat k).toNat)) =
        (List.range c).map (w + ·) := by
    refine List.filter_eq_self.mpr fun k member => ?_
    obtain ⟨i, inside, rfl⟩ := List.mem_map.mp member
    have below := List.mem_range.mp inside
    rw [seq _ (by omega), decide_eq_true_iff]
    omega
  rw [onFrames_latenciesUs, measured_eq (by omega), List.filter_map]
  simp only [Function.comp_def]
  rw [List.range_add, List.filter_append, warm, timed, List.nil_append, List.map_map,
    List.map_map]
  rfl

/-- **The report of a run without losses.** With room in every chunk for what it carries,
and whatever else arrives in between: a client that gets every datagram of the publisher,
in order, is done, has one sample for each measured frame, from the stamp of the frame to
the arrival of its last datagram, has counted no gap, and prints a line that says so. -/
theorem EventClient.report_lossless (build : Build) (lengthT : UInt64 → UInt64) (opt : Options)
    (plan : ChunkPlan) (clock : Nat → UInt64)
    (headers : Nat → Nat → Fin (kE2eHoleBytes build) → UInt8) (recv : Nat → UInt64)
    (warmup : 0 ≤ opt.warmup.toInt) (count : 0 < opt.count.toInt)
    (few : opt.warmup.toInt + opt.count.toInt < 2 ^ 31)
    (planned : opt.plan = some plan) (roomy : RoomyPlan opt.size plan)
    (fits : build = .sgmenon → ∀ c < plan.count.toNat,
      lengthT (plan.sliceLen opt.size c) = plan.sliceLen opt.size c) :
    ∃ sent, EventService.worker build lengthT opt clock = some sent ∧
      ∀ received, received.filter (fun arrival => arrival.2.isEvent) =
          notified ((inOrder build headers sent).mapIdx fun i data => (recv i, data)) →
        let client := EventClient.receive build opt {} received
        let n := plan.count.toNat
        client.done = true ∧
          client.latenciesUs = (List.range opt.count.toInt.toNat).map (fun i =>
            let k := opt.warmup.toInt.toNat + i
            latencyUs (recv (k * n + (n - 1))) (clock k)) ∧
          client.gapCount = 0 ∧
          (printCsv opt client.latenciesUs client.gapCount).n = Nat.repr opt.count.toInt.toNat ∧
          (printCsv opt client.latenciesUs client.gapCount).gapCount = "0" := by
  obtain ⟨sent, payload, works, same, frames, stamps⟩ :=
    EventService.sentFrames_worker planned roomy fits clock headers
  refine ⟨sent, works, ?_⟩
  intro received delivered client n
  set w := opt.warmup.toInt.toNat with wEq
  set c := opt.count.toInt.toNat with cEq
  have total : (EventService.total opt).toInt.toNat = w + c := by
    rw [EventService.total_toInt warmup count few]
    omega
  rw [total] at same frames stamps
  rw [same, mapIdx_datagrams] at delivered
  set at' : Datagram → UInt64 := fun d => recv (d.1 * n + d.2) with atEq
  have whole := frames.completions_whole roomy.pos at' {} le_rfl
  set completed := completions build {} (arrivals at' payload (datagrams (w + c) n))
    with completedEq
  have stamped : completed = (List.range (w + c)).map fun k =>
      (at' (k, n - 1), ⟨UInt32.ofNat k, clock k⟩) := by
    rw [whole]
    refine List.map_congr_left fun k member => ?_
    rw [stamps k (List.mem_range.mp member)]
  have numbers : seqs completed = List.range (w + c) := by
    rw [stamped, seqs, List.map_map]
    refine (List.map_congr_left fun k member => ?_).trans (List.map_id _)
    have below := List.mem_range.mp member
    exact toNat_seq (by omega)
  -- nothing but the events matters, and of them only the frames they complete
  have events := (receive_independent build opt {} received).1
  rw [delivered, receive_notified] at events
  simp only [eventPart, Prod.mk.injEq] at events
  obtain ⟨-, done, -, gaps, samples⟩ := events
  have latencies : client.latenciesUs = (List.range c).map fun i =>
      latencyUs (recv ((w + i) * n + (n - 1))) (clock (w + i)) := by
    refine samples.trans ?_
    change (onFrames opt {} completed).latenciesUs = _
    rw [stamped]
    exact onFrames_whole (by omega) (by omega) (fun k => at' (k, n - 1)) clock
  have length : (measured opt completed).length = c := by
    have taken : client.latenciesUs.length = (measured opt completed).length := by
      refine (congrArg List.length samples).trans ?_
      change (onFrames opt {} completed).latenciesUs.length = _
      rw [onFrames_latenciesUs, List.length_map]
    rw [← taken, latencies, List.length_map, List.length_range]
  have ended : client.done = true := by
    refine done.trans ?_
    change (onFrames opt {} completed).done = true
    rw [onFrames_done_iff count (by omega)]
    omega
  have noGap : client.gapCount = 0 := by
    have counted := @onFrames_countedGaps opt completed
      (by rw [numbers]; exact List.pairwise_lt_range)
      (by rw [numbers]; intro k member; have := List.mem_range.mp member; omega)
    have none : missed ((List.range (w + c)).filter (· ≠ 0)) = 0 := by
      refine missed_eq_zero fun a _ b last k above below => ?_
      have inside := List.mem_range.mp (List.mem_of_mem_filter last)
      rw [List.mem_filter, List.mem_range, decide_eq_true_iff]
      omega
    refine gaps.trans (UInt64.toNat_inj.mp ?_)
    change (onFrames opt {} completed).gapCount.toNat = 0
    rw [counted.gaps, numbers, none]
  refine ⟨ended, latencies, noGap, ?_, ?_⟩
  · unfold printCsv
    rw [latencies, List.length_map, List.length_range]
  · rw [noGap]
    rfl

/-- Two frames of two datagrams each, and a response that nobody has asked for. -/
theorem EventClient.report_lossless_two_chunks :
    ∃ sent, EventService.worker .sgmenon (fun n => n.toUInt32.toUInt64)
        { size := 48, maxDatagram := 36, count := 1, warmup := 1 } (fun k => 10 * UInt64.ofNat k) =
          some sent ∧
      (EventClient.receive .sgmenon { size := 48, maxDatagram := 36, count := 1, warmup := 1 } {}
        ((7, echoResponse []) :: notified ((inOrder .sgmenon (fun _ _ i => i.elim0) sent).mapIdx
          fun i data => (1000 * UInt64.ofNat i, data)))).latenciesUs = [latencyUs 3000 10] := by
  obtain ⟨sent, works, report⟩ := EventClient.report_lossless .sgmenon
    (fun n => n.toUInt32.toUInt64) { size := 48, maxDatagram := 36, count := 1, warmup := 1 }
    ⟨2, 24⟩
    (fun k => 10 * UInt64.ofNat k) (fun _ _ i => i.elim0) (fun i => 1000 * UInt64.ofNat i)
    (by decide) (by decide) (by decide) (by decide)
    ⟨⟨by decide, by decide⟩, by decide, by decide⟩ (by decide)
  refine ⟨sent, works, (report _ ?_).2.1⟩
  rw [List.filter_cons_of_neg (by decide)]
  refine List.filter_eq_self.mpr fun arrival member => ?_
  obtain ⟨arrival, -, rfl⟩ := List.mem_map.mp member
  rfl

end MiddlewareBench.Vsomeip
