import MiddlewareBench.Lib.SeqNumbers
import MiddlewareBench.Vsomeip.EventClient
import MiddlewareBench.Vsomeip.EventService
import MiddlewareBench.Vsomeip.Tracker

/-!
# Samples and gaps of a run

What the client counts over a run depends on its tracker only through the
frames it completes, `completions`, in order (`receive_notified`). On a channel
that loses datagrams but keeps their order these are the frames that lost none
(`seqs_inOrder`); on one that reorders them too, each frame is completed at most
once (`nodup_seqs`).
-/

namespace MiddlewareBench.Vsomeip

open Bytes Transducer SeqNumbers

/-! ## What a run completes -/

/-- The frames a tracker completes, each with the arrival time of its last
chunk. -/
def completions (build : Build) :
    FrameTracker → List (UInt64 × Block) → List (UInt64 × CompletedFrame)
  | _, [] => []
  | tr, (recvNs, data) :: later =>
    let ingested := tr.ingest build data
    (ingested.2.map fun frame => (recvNs, frame)).toList ++ completions build ingested.1 later

/-- The sequence numbers of completed frames. -/
def seqs (completed : List (UInt64 × CompletedFrame)) : List Nat :=
  completed.map fun f => f.2.seq.toNat

theorem completions_append (build : Build) (tr : FrameTracker)
    (left right : List (UInt64 × Block)) :
    completions build tr (left ++ right) =
      completions build tr left ++
        completions build (after (FrameTracker.ingest build) tr (left.map Prod.snd)) right := by
  induction left generalizing tr with
  | nil => rfl
  | cons arrival left ih =>
      simp only [List.cons_append, completions, ih, List.append_assoc, List.map_cons, after_cons]

/-- The completions are the answers of the tracker that are frames. -/
theorem map_completions (build : Build) (tr : FrameTracker)
    (arrivals : List (UInt64 × Block)) :
    (completions build tr arrivals).map Prod.snd =
      (outputs (FrameTracker.ingest build) tr (arrivals.map Prod.snd)).filterMap id := by
  induction arrivals generalizing tr with
  | nil => rfl
  | cons arrival arrivals ih =>
      simp only [completions, List.map_append, ih, List.map_cons, outputs_cons]
      cases answer : (tr.ingest build arrival.2).2 with
      | none => simp
      | some frame => simp

namespace EventClient

/-- Notifications of these payloads. -/
def notified (arrivals : List (UInt64 × Block)) : List (UInt64 × Message) :=
  arrivals.map fun arrival => (arrival.1, notification arrival.2)

/-- What completed frames do to the client, one after the other. -/
def onFrames (opt : Options) (self : EventClient) (completed : List (UInt64 × CompletedFrame)) :
    EventClient :=
  completed.foldl (fun self f => self.onFrame opt f.1 f.2) self

/-- Counting a gap leaves all but the count and the last number alone. -/
theorem countGap_frame (self : EventClient) (seq : UInt32) :
    self.countGap seq = { self with gapCount := (self.countGap seq).gapCount, lastSeq := seq } := by
  unfold countGap
  dsimp only
  split <;> rfl

/-- Recording a sample leaves all but the samples and the end alone. -/
theorem recordLatency_frame (opt : Options) (self : EventClient) (seq : UInt32) (us : Double) :
    self.recordLatency opt seq us =
      { self with
        latenciesUs := (self.recordLatency opt seq us).latenciesUs
        done := (self.recordLatency opt seq us).done } := by
  unfold recordLatency
  dsimp only
  split
  · rfl
  · split <;> rfl

theorem countGap_tracker (self : EventClient) (tr : FrameTracker) (seq : UInt32) :
    { self with tracker := tr }.countGap seq = { self.countGap seq with tracker := tr } := by
  unfold countGap
  dsimp only
  split <;> rfl

theorem recordLatency_tracker (opt : Options) (self : EventClient) (tr : FrameTracker)
    (seq : UInt32) (us : Double) :
    { self with tracker := tr }.recordLatency opt seq us =
      { self.recordLatency opt seq us with tracker := tr } := by
  unfold recordLatency
  dsimp only
  split
  · rfl
  · split <;> rfl

/-- What a completed frame does neither reads nor writes the tracker. -/
theorem onFrame_tracker (opt : Options) (self : EventClient) (tr : FrameTracker)
    (recvNs : UInt64) (frame : CompletedFrame) :
    { self with tracker := tr }.onFrame opt recvNs frame =
      { self.onFrame opt recvNs frame with tracker := tr } := by
  rw [onFrame, onFrame, countGap_tracker, recordLatency_tracker]

theorem onFrames_tracker (opt : Options) (self : EventClient) (tr : FrameTracker)
    (completed : List (UInt64 × CompletedFrame)) :
    { self with tracker := tr }.onFrames opt completed =
      { self.onFrames opt completed with tracker := tr } := by
  induction completed generalizing self with
  | nil => rfl
  | cons f completed ih =>
      rw [onFrames, List.foldl_cons, onFrame_tracker]
      exact ih _

/-- **The client follows its tracker.** -/
theorem receive_notified (build : Build) (opt : Options) (self : EventClient)
    (arrivals : List (UInt64 × Block)) :
    self.receive build opt (notified arrivals) =
      { self.onFrames opt (completions build self.tracker arrivals) with
        tracker := after (FrameTracker.ingest build) self.tracker (arrivals.map Prod.snd) } := by
  induction arrivals generalizing self with
  | nil => rfl
  | cons arrival arrivals ih =>
      rw [notified, List.map_cons, receive, List.foldl_cons, onMessage_notification]
      refine (ih _).trans ?_
      simp only [onNotification, completions, List.map_cons, after_cons]
      cases answer : (self.tracker.ingest build arrival.2).2 with
      | none =>
          dsimp only
          rw [onFrames_tracker]
          rfl
      | some frame =>
          dsimp only
          rw [onFrame_tracker, onFrames_tracker]
          rfl

/-! ## Gaps -/

@[simp] theorem countGap_lastSeq (self : EventClient) (seq : UInt32) :
    (self.countGap seq).lastSeq = seq := rfl

@[simp] theorem recordLatency_lastSeq (opt : Options) (self : EventClient) (seq : UInt32)
    (us : Double) : (self.recordLatency opt seq us).lastSeq = self.lastSeq := by
  rw [recordLatency_frame]

@[simp] theorem recordLatency_gapCount (opt : Options) (self : EventClient) (seq : UInt32)
    (us : Double) : (self.recordLatency opt seq us).gapCount = self.gapCount := by
  rw [recordLatency_frame]

/-- The client has counted the gaps of `ks`, except that a gap after frame `0`
is none to it. -/
structure CountedGaps (ks : List Nat) (client : EventClient) : Prop where
  last : client.lastSeq.toNat = ks.getLast?.getD 0
  gaps : client.gapCount.toNat = missed (ks.filter (· ≠ 0))

/-- After a frame other than `0`, the next one adds the gap between them. -/
theorem CountedGaps.after_nonzero {ks : List Nat} {client : EventClient} {seq : UInt32}
    (counted : CountedGaps ks client) (increasing : (ks ++ [seq.toNat]).Pairwise (· < ·))
    (few : seq.toNat < 2 ^ 31) (nonzero : client.lastSeq ≠ 0) :
    CountedGaps (ks ++ [seq.toNat]) (client.countGap seq) := by
  rcases counted with ⟨last, gaps⟩
  obtain ⟨b, lastKs⟩ : ∃ b, ks.getLast? = some b := by
    cases absent : ks.getLast? with
    | none =>
        rw [absent] at last
        exact absurd (UInt32.toNat_inj.mp last) nonzero
    | some b => exact ⟨b, rfl⟩
  rw [lastKs, Option.getD_some] at last
  have positive : b ≠ 0 := fun zero => nonzero (UInt32.toNat_inj.mp (last.trans zero))
  obtain ⟨before, -, jump⟩ := List.pairwise_append.mp increasing
  have later : b < seq.toNat := jump b (List.mem_of_getLast? lastKs) _ List.mem_cons_self
  have lastKept : (ks.filter (· ≠ 0)).getLast? = some b := by
    obtain ⟨init, rfl⟩ := List.getLast?_eq_some_iff.mp lastKs
    rw [List.filter_append, List.filter_cons_of_pos (by simpa using positive), List.filter_nil,
      List.getLast?_concat]
  have kept : (ks ++ [seq.toNat]).filter (· ≠ 0) = ks.filter (· ≠ 0) ++ [seq.toNat] := by
    rw [List.filter_append, List.filter_cons_of_pos (by simp; omega), List.filter_nil]
  have grown := missed_concat (kept ▸ increasing.filter _) lastKept
  have small := missed_le (before.filter _) lastKept
  have next : (client.lastSeq + 1).toNat = b + 1 := by
    rw [UInt32.toNat_add, last, UInt32.toNat_one]
    omega
  refine ⟨by simp, ?_⟩
  rw [kept, grown, ← gaps, countGap]
  by_cases gap : seq > client.lastSeq + 1
  · have wide : b + 1 < seq.toNat := next ▸ UInt32.lt_iff_toNat_lt.mp gap
    have skipped : (seq - client.lastSeq - 1).toNat = seq.toNat - b - 1 := by
      rw [UInt32.toNat_sub_of_le _ _ ?_, UInt32.toNat_sub_of_le _ _ ?_, last, UInt32.toNat_one]
      · rw [UInt32.le_iff_toNat_le]
        omega
      · rw [UInt32.le_iff_toNat_le, UInt32.toNat_sub_of_le _ _ ?_, UInt32.toNat_one]
        · omega
        · rw [UInt32.le_iff_toNat_le]
          omega
    simp only [nonzero, gap, ne_eq, not_false_eq_true, and_self, ite_true]
    rw [UInt64.toNat_add, UInt32.toNat_toUInt64, skipped]
    omega
  · have narrow : ¬ b + 1 < seq.toNat := fun wide =>
      gap (UInt32.lt_iff_toNat_lt.mpr (next ▸ wide))
    simp only [gap, and_false, ite_false]
    omega

/-- The first frame, and the one after frame `0`, add nothing. -/
theorem CountedGaps.after_zero {ks : List Nat} {client : EventClient} {seq : UInt32}
    (counted : CountedGaps ks client) (increasing : (ks ++ [seq.toNat]).Pairwise (· < ·))
    (zero : client.lastSeq = 0) : CountedGaps (ks ++ [seq.toNat]) (client.countGap seq) := by
  rcases counted with ⟨last, gaps⟩
  have none : ks.filter (· ≠ 0) = [] := by
    refine List.filter_eq_nil_iff.mpr fun k member => ?_
    cases lastKs : ks.getLast? with
    | none =>
        rw [List.getLast?_eq_none_iff.mp lastKs] at member
        cases member
    | some b =>
        obtain ⟨init, rfl⟩ := List.getLast?_eq_some_iff.mp lastKs
        obtain ⟨-, -, order⟩ := List.pairwise_append.mp (List.pairwise_append.mp increasing).1
        rw [zero, lastKs] at last
        rcases List.mem_append.mp member with earlier | own
        · have below := order k earlier b List.mem_cons_self
          simp only [Option.getD_some, UInt32.toNat_zero] at last
          omega
        · -- `b` itself, which is `0`
          rw [List.mem_singleton.mp own]
          simpa using last.symm
  refine ⟨by simp, ?_⟩
  have same : (client.countGap seq).gapCount = client.gapCount := by
    simp [countGap, zero]
  rw [same, gaps, List.filter_append, none]
  by_cases own : seq.toNat = 0 <;> simp [own]

theorem onFrames_concat (opt : Options) (self : EventClient)
    (completed : List (UInt64 × CompletedFrame)) (f : UInt64 × CompletedFrame) :
    self.onFrames opt (completed ++ [f]) = (self.onFrames opt completed).onFrame opt f.1 f.2 :=
  List.foldl_concat ..

theorem seqs_concat (completed : List (UInt64 × CompletedFrame)) (f : UInt64 × CompletedFrame) :
    seqs (completed ++ [f]) = seqs completed ++ [f.2.seq.toNat] :=
  List.map_append

/-- Over frames completed in increasing order, the client counts the gaps except
one after frame `0`. -/
theorem onFrames_countedGaps (opt : Options) {completed : List (UInt64 × CompletedFrame)}
    (increasing : (seqs completed).Pairwise (· < ·)) (few : ∀ k ∈ seqs completed, k < 2 ^ 31) :
    CountedGaps (seqs completed) (onFrames opt {} completed) := by
  induction completed using List.reverseRecOn with
  | nil => exact ⟨rfl, rfl⟩
  | append_singleton completed f ih =>
      rw [seqs_concat] at increasing few
      have counted := ih (List.pairwise_append.mp increasing).1
        fun k member => few k (List.mem_append_left _ member)
      have small := few _ (List.mem_append_right _ List.mem_cons_self)
      have next : CountedGaps (seqs completed ++ [f.2.seq.toNat])
          ((onFrames opt {} completed).countGap f.2.seq) := by
        by_cases zero : (onFrames opt {} completed).lastSeq = 0
        · exact counted.after_zero increasing zero
        · exact counted.after_nonzero increasing small zero
      rw [onFrames_concat, seqs_concat, onFrame]
      exact ⟨by rw [recordLatency_lastSeq, next.last], by rw [recordLatency_gapCount, next.gaps]⟩

/-! ## Samples -/

/-- The completed frames that are not part of the warmup. -/
def measured (opt : Options) (completed : List (UInt64 × CompletedFrame)) :
    List (UInt64 × CompletedFrame) :=
  completed.filter fun f => ¬ f.2.seq < opt.warmup.toUInt32

theorem measured_concat (opt : Options) (completed : List (UInt64 × CompletedFrame))
    (f : UInt64 × CompletedFrame) :
    measured opt (completed ++ [f]) =
      if f.2.seq < opt.warmup.toUInt32 then measured opt completed
      else measured opt completed ++ [f] := by
  rw [measured, List.filter_append, ← measured]
  split
  · rename_i warm
    rw [List.filter_cons_of_neg (by simpa using warm), List.filter_nil, List.append_nil]
  · rename_i counted
    rw [List.filter_cons_of_pos (by simpa using counted), List.filter_nil]

@[simp] theorem countGap_latenciesUs (self : EventClient) (seq : UInt32) :
    (self.countGap seq).latenciesUs = self.latenciesUs := by
  rw [countGap_frame]

@[simp] theorem countGap_done (self : EventClient) (seq : UInt32) :
    (self.countGap seq).done = self.done := by
  rw [countGap_frame]

/-- One sample for each completed frame that is not part of the warmup, in the
order they were completed. -/
theorem onFrames_latenciesUs (opt : Options) (completed : List (UInt64 × CompletedFrame)) :
    (onFrames opt {} completed).latenciesUs =
      (measured opt completed).map fun f => latencyUs f.1 f.2.sendNs := by
  induction completed using List.reverseRecOn with
  | nil => rfl
  | append_singleton completed f ih =>
      rw [onFrames_concat, onFrame, recordLatency, measured_concat]
      by_cases warm : f.2.seq < opt.warmup.toUInt32
      · rw [if_pos warm, if_pos warm, countGap_latenciesUs, ih]
      · rw [if_neg warm, if_neg warm, List.map_append, ← ih]
        dsimp only
        split <;> simp

/-- As long as no more than `count` samples are taken, the client is done exactly
when there are `count`. -/
theorem onFrames_done_iff {opt : Options} (count : 0 < opt.count.toInt)
    {completed : List (UInt64 × CompletedFrame)}
    (most : ((measured opt completed).length : Int) ≤ opt.count.toInt) :
    (onFrames opt {} completed).done = true ↔
      ((measured opt completed).length : Int) = opt.count.toInt := by
  induction completed using List.reverseRecOn with
  | nil =>
      have waiting : (onFrames opt {} []).done = false := rfl
      have none : (measured opt []).length = 0 := rfl
      rw [waiting, none]
      simp only [Bool.false_eq_true, false_iff]
      omega
  | append_singleton completed f ih =>
      have taken : ((onFrames opt {} completed).countGap f.2.seq).latenciesUs.length =
          (measured opt completed).length := by
        rw [countGap_latenciesUs, onFrames_latenciesUs, List.length_map]
      by_cases warm : f.2.seq < opt.warmup.toUInt32
      · rw [measured_concat, if_pos warm] at most ⊢
        rw [onFrames_concat, onFrame, recordLatency, if_pos warm, countGap_done]
        exact ih most
      · rw [measured_concat, if_neg warm, List.length_append, List.length_singleton] at most ⊢
        have bound := opt.count.toInt_lt
        have samples : (Int32.ofNat ((measured opt completed).length + 1)).toInt =
            ((measured opt completed).length + 1 : Nat) :=
          Int32.toInt_ofNat_of_lt (by omega)
        have enough : Int32.ofNat ((measured opt completed).length + 1) ≥ opt.count ↔
            (((measured opt completed).length + 1 : Nat) : Int) = opt.count.toInt := by
          rw [ge_iff_le, Int32.le_iff_toInt_le, samples]
          omega
        rw [onFrames_concat, onFrame, recordLatency, if_neg warm]
        dsimp only
        rw [List.length_append, List.length_singleton, taken]
        by_cases full : Int32.ofNat ((measured opt completed).length + 1) ≥ opt.count
        · rw [if_pos full]
          simpa only [true_iff] using enough.mp full
        · rw [if_neg full, ← enough]
          dsimp only
          rw [countGap_done, ih (by omega)]
          simp only [full, iff_false]
          omega

end EventClient

end MiddlewareBench.Vsomeip
