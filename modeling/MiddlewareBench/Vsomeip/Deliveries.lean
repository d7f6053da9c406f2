import MiddlewareBench.Vsomeip.FrameAccounting
import MiddlewareBench.Vsomeip.RoundTrip

/-!
# Deliveries of a run

The datagrams of a publisher's frames, numbered from `0` (`sentFrames_worker`),
and what a client makes of those that reach it. On a channel that loses datagrams but keeps their
order the tracker completes the frames that lost none (`seqs_inOrder`). On one
that reorders them too, a frame is completed by its own last chunk only, so at
most once (`seqs_sublist`).
-/

namespace MiddlewareBench.Vsomeip

open Bytes Transducer SeqNumbers

/-- Chunk `c` of frame `k`, as a pair. -/
abbrev Datagram := Nat × Nat

/-- The datagrams of `frames` frames of `n` chunks each, in the order they are
sent. -/
def datagrams (frames n : Nat) : List Datagram :=
  (List.range frames).flatMap fun k => (List.range n).map fun c => (k, c)

/-- The payloads of such a run: each carries its chunk of its frame. -/
structure SentFrames (build : Build) (frames n : Nat) (payload : Nat → Nat → Block) : Prop where
  few : frames < 2 ^ 31
  count : n ≤ 65535
  carries : ∀ k < frames, ∀ c < n, CarriesChunk build (UInt32.ofNat k) n c (payload k c)

/-- What arrives when these datagrams are delivered, each at its own time. -/
def arrivals (clock : Datagram → UInt64) (payload : Nat → Nat → Block)
    (delivered : List Datagram) : List (UInt64 × Block) :=
  delivered.map fun d => (clock d, payload d.1 d.2)

/-- No chunk of frame `k` is lost. -/
def Intact (n : Nat) (delivered : List Datagram) (k : Nat) : Prop :=
  ∀ c < n, (k, c) ∈ delivered

instance (n : Nat) (delivered : List Datagram) (k : Nat) : Decidable (Intact n delivered k) :=
  inferInstanceAs (Decidable (∀ c < n, (k, c) ∈ delivered))

theorem mem_datagrams {frames n : Nat} {d : Datagram} :
    d ∈ datagrams frames n ↔ d.1 < frames ∧ d.2 < n := by
  rcases d with ⟨k, c⟩
  simp [datagrams]

theorem datagrams_succ (frames n : Nat) :
    datagrams (frames + 1) n =
      datagrams frames n ++ (List.range n).map fun c => (frames, c) := by
  rw [datagrams, List.range_succ, List.flatMap_append, List.flatMap_singleton, datagrams]

/-- Datagrams of a later frame make no difference to frame `k`. -/
theorem intact_append_iff {frames n k : Nat} {earlier own : List Datagram}
    (ownFrame : ∀ d ∈ own, d.1 = frames) (below : k < frames) :
    Intact n (earlier ++ own) k ↔ Intact n earlier k := by
  refine forall₂_congr fun c _ => ?_
  rw [List.mem_append]
  refine or_iff_left fun member => ?_
  have := ownFrame (k, c) member
  dsimp only at this
  omega

/-- The last frame is intact exactly when each of its chunks was delivered in its
turn. -/
theorem intact_last_iff {frames n : Nat} {earlier own : List Datagram}
    (earlierFrame : ∀ d ∈ earlier, d.1 < frames)
    (lossy : own.Sublist ((List.range n).map fun c => (frames, c))) :
    Intact n (earlier ++ own) frames ↔ own = (List.range n).map fun c => (frames, c) := by
  refine ⟨?_, ?_⟩
  · intro intact
    have covered : ((List.range n).map fun c => (frames, c)) ⊆ own := by
      intro d member
      obtain ⟨c, inRange, rfl⟩ := List.mem_map.mp member
      rcases List.mem_append.mp (intact c (List.mem_range.mp inRange)) with early | late
      · exact absurd (earlierFrame _ early) (Nat.lt_irrefl frames)
      · exact late
    have distinct : ((List.range n).map fun c => (frames, c)).Nodup :=
      List.nodup_range.map fun c c' same => (Prod.mk.inj same).2
    exact lossy.eq_of_length_le (distinct.subperm covered).length_le
  · intro all c inFrame
    rw [all]
    exact List.mem_append_right _ (List.mem_map_of_mem (List.mem_range.mpr inFrame))

theorem toNat_seq {k : Nat} (few : k < 2 ^ 31) : (UInt32.ofNat k).toNat = k :=
  UInt32.toNat_ofNat_of_lt' (by rw [UInt32.size]; omega)

/-- **The publisher sends such a run.** With room in every chunk for what it
carries, what `worker` sends is a run of all its frames, frame `k` stamped with
what its clock read. -/
theorem EventService.sentFrames_worker {build : Build} {lengthT : UInt64 → UInt64}
    {opt : Options} {plan : ChunkPlan} (planned : opt.plan = some plan)
    (roomy : RoomyPlan opt.size plan)
    (fits : build = .sgmenon → ∀ c < plan.count.toNat,
      lengthT (plan.sliceLen opt.size c) = plan.sliceLen opt.size c)
    (clock : Nat → UInt64) (headers : Nat → Nat → Fin (kE2eHoleBytes build) → UInt8) :
    ∃ sent payload, EventService.worker build lengthT opt clock = some sent ∧
      inOrder build headers sent =
        (datagrams (EventService.total opt).toInt.toNat plan.count.toNat).map
          (fun d => payload d.1 d.2) ∧
      SentFrames build (EventService.total opt).toInt.toNat plan.count.toNat payload ∧
      ∀ k < (EventService.total opt).toInt.toNat, sendNsOf build (payload k 0) = clock k := by
  have size : (EventService.initialBlock opt).length = opt.size.toNat := by
    rw [EventService.initialBlock, List.length_map, List.length_range]
  have few : (EventService.total opt).toInt.toNat < 2 ^ 31 := by
    have := (EventService.total opt).toInt_lt
    omega
  set stamps := (List.range (EventService.total opt).toInt.toNat).map clock with stampsEq
  have length : stamps.length = (EventService.total opt).toInt.toNat := by
    rw [stampsEq, List.length_map, List.length_range]
  obtain ⟨blocks, holds, run⟩ := publishFrames_spec roomy fits 0 stamps size
  have works : EventService.worker build lengthT opt clock =
      EventService.publishFrames build lengthT plan (EventService.initialBlock opt) 0 stamps := by
    rw [EventService.worker, planned]
    rfl
  have held : ∀ k < (EventService.total opt).toInt.toNat,
      FrameBlock opt.size plan (UInt32.ofNat k) (clock k) (blocks k) := by
    intro k below
    have block := holds k (by omega)
    simp only [stampsEq, List.getElem_map, List.getElem_range, UInt32.zero_add] at block
    exact block
  refine ⟨_, fun k c => List.ofFn (headers k c) ++ chunkSlice opt.size plan (blocks k) c,
    works.trans run, ?_, ⟨few, roomy.count, ?_⟩, ?_⟩
  · rw [inOrder_slices, length, datagrams, List.map_flatMap]
    simp only [List.map_map]
    rfl
  · intro k below c inFrame
    exact (held k below).carriesChunk roomy build inFrame (headers k c)
  · intro k below
    exact (held k below).sendNsOf_first roomy build (headers k 0)

/-! ## Losses in order -/

section InOrderDelivery

variable {build : Build} {n : Nat} {payload : Nat → Nat → Block}

/-- A datagram as a piece of its frame. -/
def pieceOf (build : Build) (n : Nat) (payload : Nat → Nat → Block) (d : Datagram) :
    InOrder.Piece UInt32 UInt64 :=
  ⟨UInt32.ofNat d.1, d.2, n, sendNsOf build (payload d.1 d.2)⟩

theorem SentFrames.chunkOf_eq {frames : Nat} (sent : SentFrames build frames n payload)
    {d : Datagram} (member : d ∈ datagrams frames n) :
    chunkOf build (payload d.1 d.2) = some (pieceOf build n payload d) := by
  obtain ⟨below, inFrame⟩ := mem_datagrams.mp member
  exact (sent.carries d.1 below d.2 inFrame).chunkOf_eq inFrame sent.count

theorem SentFrames.valid {frames : Nat} (sent : SentFrames build frames n payload)
    {d : Datagram} (member : d ∈ datagrams frames n) :
    ValidPayload build (payload d.1 d.2) := by
  obtain ⟨below, inFrame⟩ := mem_datagrams.mp member
  exact .inr ((sent.carries d.1 below d.2 inFrame).wellFormed inFrame sent.count)

theorem SentFrames.valid_all {frames : Nat} (sent : SentFrames build frames n payload)
    {delivered : List Datagram} (genuine : ∀ d ∈ delivered, d ∈ datagrams frames n) :
    ∀ data ∈ delivered.map fun d => payload d.1 d.2, ValidPayload build data := by
  intro data member
  obtain ⟨d, there, rfl⟩ := List.mem_map.mp member
  exact sent.valid (genuine d there)

theorem SentFrames.init {frames : Nat} (sent : SentFrames build (frames + 1) n payload) :
    SentFrames build frames n payload where
  few := Nat.lt_of_succ_lt sent.few
  count := sent.count
  carries k below := sent.carries k (Nat.lt_succ_of_lt below)

/-- The sequence numbers of completed frames, without their arrival times. -/
theorem seqs_eq (completed : List (UInt64 × CompletedFrame)) :
    seqs completed = (completed.map Prod.snd).map fun frame => frame.seq.toNat := by
  rw [seqs, List.map_map]
  rfl

theorem snd_arrivals (clock : Datagram → UInt64) (delivered : List Datagram) :
    (arrivals clock payload delivered).map Prod.snd =
      delivered.map fun d => payload d.1 d.2 := by
  rw [arrivals, List.map_map]
  rfl

/-- All chunks of the last frame complete it. -/
theorem SentFrames.seqs_intact {frames : Nat} (sent : SentFrames build (frames + 1) n payload)
    (pos : 0 < n) (clock : Datagram → UInt64) (tr : FrameTracker) :
    seqs (completions build tr (arrivals clock payload ((List.range n).map fun c => (frames, c)))) =
      [frames] := by
  have answers := tr.outputs_frame build pos sent.count
    (sent.carries frames (Nat.lt_succ_self frames))
  have payloads : (arrivals clock payload ((List.range n).map fun c => (frames, c))).map Prod.snd =
      (List.range n).map (payload frames) := by
    rw [snd_arrivals, List.map_map]
    rfl
  rw [seqs_eq, map_completions, payloads, answers]
  have few := sent.few
  simp [toNat_seq (show frames < 2 ^ 31 by omega)]

/-- The chunks of the last frame, as pieces. -/
theorem map_pieceOf (frames : Nat) :
    ((List.range n).map fun c => (frames, c)).map (pieceOf build n payload) =
      InOrder.pieces (UInt32.ofNat frames) n (fun c => sendNsOf build (payload frames c)) n := by
  rw [InOrder.pieces, List.map_map]
  rfl

/-- What the tracker follows after these datagrams is what the receiver does after
their pieces. -/
theorem SentFrames.followed_after {frames : Nat} (sent : SentFrames build frames n payload)
    {delivered : List Datagram} (genuine : ∀ d ∈ delivered, d ∈ datagrams frames n) :
    (after (FrameTracker.ingest build) {} (delivered.map fun d => payload d.1 d.2)).followed =
      after InOrder.ingest none (delivered.map (pieceOf build n payload)) := by
  have chunks : (delivered.map fun d => payload d.1 d.2).filterMap (chunkOf build) =
      delivered.map (pieceOf build n payload) := by
    rw [List.filterMap_map, ← List.filterMap_eq_map]
    exact List.filterMap_congr fun d member => sent.chunkOf_eq (genuine d member)
  rw [(ingest_implements build).after_eq {} (sent.valid_all genuine), chunks]
  rfl

/-- With a chunk of the last frame lost, it is not completed. -/
theorem SentFrames.seqs_lossy {frames : Nat} (sent : SentFrames build (frames + 1) n payload)
    (pos : 0 < n) (clock : Datagram → UInt64) {earlier own : List Datagram}
    (before : ∀ d ∈ earlier, d ∈ datagrams frames n)
    (lossy : own.Sublist ((List.range n).map fun c => (frames, c)))
    (lost : own ≠ (List.range n).map fun c => (frames, c)) :
    seqs (completions build
      (after (FrameTracker.ingest build) {} (earlier.map fun d => payload d.1 d.2))
      (arrivals clock payload own)) = [] := by
  have genuine : ∀ d ∈ own, d ∈ datagrams (frames + 1) n := by
    intro d member
    rw [datagrams_succ]
    exact List.mem_append_right _ (lossy.subset member)
  have chunks : (own.map fun d => payload d.1 d.2).map (chunkOf build) =
      (own.map (pieceOf build n payload)).map some := by
    rw [List.map_map, List.map_map]
    exact List.map_congr_left fun d member => sent.chunkOf_eq (genuine d member)
  have whole := InOrder.isWhole_pieces (UInt32.ofNat frames)
    (fun c => sendNsOf build (payload frames c)) pos
  rw [← map_pieceOf] at whole
  have below : ∀ p ∈ ((List.range n).map fun c => (frames, c)).map (pieceOf build n payload),
      p.index < p.count := by
    intro p member
    obtain ⟨d, there, rfl⟩ := List.mem_map.mp member
    obtain ⟨c, inRange, rfl⟩ := List.mem_map.mp there
    exact List.mem_range.mp inRange
  have others : ∀ p ∈ earlier.map (pieceOf build n payload), p.key ≠ UInt32.ofNat frames := by
    intro p member sameKey
    obtain ⟨d, there, rfl⟩ := List.mem_map.mp member
    have earlierFrame := (mem_datagrams.mp (before d there)).1
    have few := sent.few
    have sameFrame := congrArg UInt32.toNat
      (show UInt32.ofNat d.1 = UInt32.ofNat frames from sameKey)
    rw [toNat_seq (by omega), toNat_seq (by omega)] at sameFrame
    omega
  have quiet := InOrder.outputs_lossy whole below (lossy.map _)
    (fun same => lost (lossy.eq_of_length (by simpa using congrArg List.length same))) others
  rw [seqs_eq, map_completions, snd_arrivals,
    (ingest_implements build).outputs_eq _ (sent.valid_all genuine) chunks,
    sent.init.followed_after before, List.filterMap_map, List.map_eq_nil_iff,
    List.filterMap_eq_nil_iff]
  intro report member
  rw [quiet report member]
  rfl

/-- **What survives a lossy channel that keeps the order**: exactly the frames
that lost no chunk. -/
theorem SentFrames.seqs_inOrder {frames : Nat} (sent : SentFrames build frames n payload)
    (pos : 0 < n) (clock : Datagram → UInt64) {delivered : List Datagram}
    (lossy : delivered.Sublist (datagrams frames n)) :
    seqs (completions build {} (arrivals clock payload delivered)) =
      (List.range frames).filter (Intact n delivered ·) := by
  induction frames generalizing delivered with
  | zero =>
      rw [List.sublist_nil.mp lossy]
      rfl
  | succ frames ih =>
      rw [datagrams_succ] at lossy
      obtain ⟨earlier, own, rfl, lossyEarlier, lossyOwn⟩ := List.sublist_append_iff.mp lossy
      have before : ∀ d ∈ earlier, d ∈ datagrams frames n := fun d => (lossyEarlier.subset ·)
      have ownFrame : ∀ d ∈ own, d.1 = frames := by
        intro d member
        obtain ⟨c, -, rfl⟩ := List.mem_map.mp (lossyOwn.subset member)
        rfl
      have earlierFrame : ∀ d ∈ earlier, d.1 < frames :=
        fun d member => (mem_datagrams.mp (before d member)).1
      have others : (List.range frames).filter (Intact n (earlier ++ own) ·) =
          (List.range frames).filter (Intact n earlier ·) := by
        refine List.filter_congr fun k inRange => ?_
        rw [decide_eq_decide]
        exact intact_append_iff ownFrame (List.mem_range.mp inRange)
      have last : seqs (completions build
          (after (FrameTracker.ingest build) {} (earlier.map fun d => payload d.1 d.2))
          (arrivals clock payload own)) = [frames].filter (Intact n (earlier ++ own) ·) := by
        have whole := intact_last_iff earlierFrame lossyOwn
        by_cases all : own = (List.range n).map fun c => (frames, c)
        · rw [List.filter_cons_of_pos (by simpa using whole.mpr all), List.filter_nil, all]
          exact sent.seqs_intact pos clock _
        · rw [List.filter_cons_of_neg (by simpa using mt whole.mp all), List.filter_nil]
          exact sent.seqs_lossy pos clock before lossyOwn all
      have split : arrivals clock payload (earlier ++ own) =
          arrivals clock payload earlier ++ arrivals clock payload own := List.map_append
      rw [split, completions_append, snd_arrivals, seqs, List.map_append, ← seqs, ← seqs,
        ih sent.init lossyEarlier, last, List.range_succ, List.filter_append, others]

end InOrderDelivery

/-- **When the client counts its gaps right.** With some datagrams lost and the
others delivered in order, `gap_count` is the number of frames missed between
the first and the last completed one exactly when, if frame `0` and a later one
survive, frame `1` does too: a gap right after frame `0` is not counted. -/
theorem EventClient.gapCount_eq_iff (build : Build) (opt : Options) (frames n : Nat)
    (payload : Nat → Nat → Block) (clock : Datagram → UInt64) (delivered : List Datagram)
    (sent : SentFrames build frames n payload) (pos : 0 < n)
    (lossy : delivered.Sublist (datagrams frames n)) :
    (EventClient.receive build opt {}
        (notified (arrivals clock payload delivered))).gapCount.toNat =
        missed (seqs (completions build {} (arrivals clock payload delivered))) ↔
      (Intact n delivered 0 → (∃ k < frames, 0 < k ∧ Intact n delivered k) →
        Intact n delivered 1) := by
  have survivors := sent.seqs_inOrder pos clock lossy
  have increasing : (seqs (completions build {} (arrivals clock payload delivered))).Pairwise
      (· < ·) := by
    rw [survivors]
    exact List.pairwise_lt_range.filter _
  have small : ∀ k ∈ seqs (completions build {} (arrivals clock payload delivered)),
      k < 2 ^ 31 := by
    intro k member
    rw [survivors] at member
    exact Nat.lt_trans (List.mem_range.mp (List.mem_of_mem_filter member)) sent.few
  have counted := onFrames_countedGaps opt increasing small
  rw [EventClient.receive_notified]
  refine (Eq.congr_left counted.gaps).trans ((missed_nonzero_iff increasing).trans ?_)
  rw [survivors]
  simp only [List.mem_filter, List.mem_range, decide_eq_true_eq]
  refine ⟨?_, ?_⟩
  · intro counts first other
    rcases other with ⟨k, below, later, intact⟩
    exact (counts ⟨by omega, first⟩ ⟨k, ⟨below, intact⟩, later⟩).2
  · intro second zeroth other
    rcases zeroth with ⟨-, first⟩
    rcases other with ⟨k, ⟨below, intact⟩, later⟩
    exact ⟨by omega, second first ⟨k, below, later, intact⟩⟩

/-- Chunk `c` of frame `k` with nothing in it but a stamp. -/
def plainChunk (n k c : Nat) : Block :=
  (ChunkHeader.mk (UInt32.ofNat k) (UInt16.ofNat c) (UInt16.ofNat n)).toBytes ++ leBytes 8 k

/-- Frame `0` lost, frame `2` lost: the gap between `1` and `3` is counted. -/
theorem EventClient.gapCount_eq_one :
    (EventClient.receive .sgmenon {} {}
        (notified (arrivals (fun _ => 0) (plainChunk 1) [(1, 0), (3, 0)]))).gapCount.toNat =
      missed (seqs (completions .sgmenon {} (arrivals (fun _ => 0) (plainChunk 1) [(1, 0), (3, 0)]))) :=
  (EventClient.gapCount_eq_iff .sgmenon {} 4 1 (plainChunk 1) (fun _ => 0) [(1, 0), (3, 0)]
    ⟨by decide, by decide, by decide⟩ (by decide) (by decide)).mpr (by decide)

/-- Frame `1` lost between frames `0` and `2`: not counted. -/
theorem EventClient.gapCount_ne_after_zero :
    SentFrames .sgmenon 3 1 (plainChunk 1) ∧ [(0, 0), (2, 0)].Sublist (datagrams 3 1) ∧
      (EventClient.receive .sgmenon {} {}
        (notified (arrivals (fun _ => 0) (plainChunk 1) [(0, 0), (2, 0)]))).gapCount.toNat = 0 ∧
      missed (seqs (completions .sgmenon {}
        (arrivals (fun _ => 0) (plainChunk 1) [(0, 0), (2, 0)]))) = 1 := by
  refine ⟨⟨by decide, by decide, by decide⟩, by decide, by decide, by decide⟩

/-! ## Losses and reordering -/

section ReorderedDelivery

variable {build : Build} {frames n : Nat} {payload : Nat → Nat → Block}

/-- Only the last chunk of a frame completes it. -/
theorem CarriesChunk.completes_own {seq : UInt32} {c : Nat} {data : Block}
    (carries : CarriesChunk build seq n c data) (below : c < n) (count : n ≤ 65535)
    {tr : FrameTracker} {frame : CompletedFrame} (complete : (tr.ingest build data).2 = some frame) :
    frame.seq = seq ∧ c + 1 = n := by
  have answered := (ingest_implements build).answer tr data _
    (.inr (carries.wellFormed below count)) (carries.chunkOf_eq below count)
  rw [complete] at answered
  have report := toCompleted_eq_some.mp answered.2.symm
  obtain ⟨key, last⟩ := InOrder.ingest_complete below report
  exact ⟨key.symm, last⟩

/-- Whatever the order, the frames completed are among those whose last chunk was
delivered. -/
theorem SentFrames.seqs_sublist (sent : SentFrames build frames n payload)
    (clock : Datagram → UInt64) (tr : FrameTracker) {delivered : List Datagram}
    (genuine : ∀ d ∈ delivered, d ∈ datagrams frames n) :
    (seqs (completions build tr (arrivals clock payload delivered))).Sublist
      ((delivered.filter fun d => d.2 + 1 = n).map Prod.fst) := by
  induction delivered generalizing tr with
  | nil => exact .slnil
  | cons d delivered ih =>
      have rest := ih (tr.ingest build (payload d.1 d.2)).1
        fun e member => genuine e (List.mem_cons_of_mem d member)
      obtain ⟨below, inFrame⟩ := mem_datagrams.mp (genuine d List.mem_cons_self)
      have carries := sent.carries d.1 below d.2 inFrame
      have unfolded : seqs (completions build tr (arrivals clock payload (d :: delivered))) =
          ((tr.ingest build (payload d.1 d.2)).2.map fun frame => frame.seq.toNat).toList ++
            seqs (completions build (tr.ingest build (payload d.1 d.2)).1
              (arrivals clock payload delivered)) := by
        simp only [arrivals, List.map_cons, completions, seqs, List.map_append]
        cases (tr.ingest build (payload d.1 d.2)).2 <;> rfl
      rw [unfolded]
      cases answer : (tr.ingest build (payload d.1 d.2)).2 with
      | none =>
          exact rest.trans ((List.sublist_cons_self d delivered).filter _ |>.map _)
      | some frame =>
          obtain ⟨own, last⟩ := carries.completes_own inFrame sent.count answer
          have few := sent.few
          rw [List.filter_cons_of_pos (by simpa using last), List.map_cons]
          simp only [Option.map_some, Option.toList_some, List.cons_append, List.nil_append, own,
            toNat_seq (show d.1 < 2 ^ 31 by omega)]
          exact rest.cons_cons d.1

/-- Without duplicates, each frame is completed at most once. -/
theorem SentFrames.nodup_seqs (sent : SentFrames build frames n payload)
    (clock : Datagram → UInt64) (tr : FrameTracker) {delivered : List Datagram}
    (once : delivered.Nodup) (genuine : ∀ d ∈ delivered, d ∈ datagrams frames n) :
    (seqs (completions build tr (arrivals clock payload delivered))).Nodup := by
  refine (List.Nodup.map_on ?_ (once.filter _)).sublist (sent.seqs_sublist clock tr genuine)
  intro d member d' member' same
  rcases d with ⟨k, c⟩
  rcases d' with ⟨k', c'⟩
  have last := List.of_mem_filter member
  have last' := List.of_mem_filter member'
  simp only [decide_eq_true_eq] at last last' same
  rw [same, show c = c' by omega]

/-- Only frames that were sent are completed. -/
theorem SentFrames.seqs_lt (sent : SentFrames build frames n payload)
    (clock : Datagram → UInt64) (tr : FrameTracker) {delivered : List Datagram}
    (genuine : ∀ d ∈ delivered, d ∈ datagrams frames n) :
    ∀ k ∈ seqs (completions build tr (arrivals clock payload delivered)), k < frames := by
  intro k member
  obtain ⟨d, there, rfl⟩ := List.mem_map.mp ((sent.seqs_sublist clock tr genuine).subset member)
  exact (mem_datagrams.mp (genuine d (List.mem_of_mem_filter there))).1

end ReorderedDelivery

theorem EventService.total_toInt {opt : Options} (warmup : 0 ≤ opt.warmup.toInt)
    (count : 0 < opt.count.toInt) (fits : opt.warmup.toInt + opt.count.toInt < 2 ^ 31) :
    (EventService.total opt).toInt = opt.warmup.toInt + opt.count.toInt := by
  rw [EventService.total, Int32.toInt_add]
  exact Int.bmod_eq_of_le (by omega) (by omega)

/-- The comparison with the warmup, without its cast. -/
theorem EventClient.measured_eq {opt : Options} (warmup : 0 ≤ opt.warmup.toInt)
    (completed : List (UInt64 × CompletedFrame)) :
    measured opt completed = completed.filter fun f => opt.warmup.toInt ≤ f.2.seq.toNat := by
  have cast : opt.warmup.toUInt32.toNat = opt.warmup.toInt.toNat :=
    Int32.toNat_toUInt32_of_le (Int32.le_iff_toInt_le.mpr warmup)
  refine List.filter_congr fun f _ => ?_
  rw [decide_eq_decide, UInt32.lt_iff_toNat_lt, cast]
  omega

theorem EventClient.seqs_measured {opt : Options} (warmup : 0 ≤ opt.warmup.toInt)
    (completed : List (UInt64 × CompletedFrame)) :
    seqs (measured opt completed) =
      (seqs completed).filter fun k : Nat => opt.warmup.toInt ≤ k := by
  rw [measured_eq warmup, seqs, seqs, List.filter_map]
  rfl

/-- Completed once each, the measured frames are at most `count`, and `count` of
them only when none is missing: their numbers are distinct members of
`[warmup, warmup + count)`. -/
theorem EventClient.length_measured {opt : Options} (warmup : 0 ≤ opt.warmup.toInt)
    (count : 0 < opt.count.toInt) {completed : List (UInt64 × CompletedFrame)}
    (nodup : (seqs completed).Nodup)
    (below : ∀ k ∈ seqs completed, (k : Int) < opt.warmup.toInt + opt.count.toInt) :
    ((measured opt completed).length : Int) ≤ opt.count.toInt ∧
      (((measured opt completed).length : Int) = opt.count.toInt ↔
        ∀ k : Nat, opt.warmup.toInt ≤ k → (k : Int) < opt.warmup.toInt + opt.count.toInt →
          k ∈ seqs completed) := by
  have distinct : (seqs (measured opt completed)).Nodup := by
    rw [seqs_measured warmup]
    exact nodup.filter _
  have inside : ∀ k ∈ seqs (measured opt completed),
      opt.warmup.toInt.toNat ≤ k ∧ k < (opt.warmup.toInt + opt.count.toInt).toNat := by
    intro k member
    rw [seqs_measured warmup, List.mem_filter, decide_eq_true_iff] at member
    have := below k member.1
    omega
  have length : (seqs (measured opt completed)).length = (measured opt completed).length :=
    List.length_map _
  have most := length_le_of_nodup distinct inside
  have covers := length_eq_iff_covers distinct inside
  refine ⟨by omega, ?_⟩
  have full : ((measured opt completed).length : Int) = opt.count.toInt ↔
      (seqs (measured opt completed)).length =
        (opt.warmup.toInt + opt.count.toInt).toNat - opt.warmup.toInt.toNat := by
    omega
  rw [full, covers, seqs_measured warmup]
  simp only [List.mem_filter, decide_eq_true_eq]
  refine ⟨?_, ?_⟩
  · exact fun all k above under => (all k (by omega) (by omega)).1
  · exact fun all k above under => ⟨all k (by omega) (by omega), by omega⟩

/-- **Sample accounting.** With datagrams lost and reordered but not duplicated,
whatever was delivered so far: there is one sample for each completed frame that
is not part of the warmup and no other, no frame is completed twice, there are
never more than `count` samples, and the client is done exactly when all `count`
measured frames have been completed. -/
theorem EventClient.sample_accounting (build : Build) (opt : Options) (n : Nat)
    (payload : Nat → Nat → Block) (clock : Datagram → UInt64) (delivered : List Datagram)
    (warmup : 0 ≤ opt.warmup.toInt) (count : 0 < opt.count.toInt)
    (fits : opt.warmup.toInt + opt.count.toInt < 2 ^ 31)
    (sent : SentFrames build (EventService.total opt).toInt.toNat n payload)
    (once : delivered.Nodup)
    (genuine : ∀ d ∈ delivered, d ∈ datagrams (EventService.total opt).toInt.toNat n) :
    let completed := completions build {} (arrivals clock payload delivered)
    let client := EventClient.receive build opt {} (notified (arrivals clock payload delivered))
    client.latenciesUs =
        (completed.filter fun f => opt.warmup.toInt ≤ f.2.seq.toNat).map
          (fun f => latencyUs f.1 f.2.sendNs) ∧
      (seqs completed).Nodup ∧
      (∀ k ∈ seqs completed, (k : Int) < opt.warmup.toInt + opt.count.toInt) ∧
      (client.latenciesUs.length : Int) ≤ opt.count.toInt ∧
      (client.done = true ↔ ∀ k : Nat, opt.warmup.toInt ≤ k →
        (k : Int) < opt.warmup.toInt + opt.count.toInt → k ∈ seqs completed) := by
  intro completed client
  have total := EventService.total_toInt warmup count fits
  have nodup : (seqs completed).Nodup := sent.nodup_seqs clock {} once genuine
  have below : ∀ k ∈ seqs completed, (k : Int) < opt.warmup.toInt + opt.count.toInt := by
    intro k member
    have := sent.seqs_lt clock {} genuine k member
    omega
  have samples : client.latenciesUs =
      (measured opt completed).map fun f => latencyUs f.1 f.2.sendNs :=
    (congrArg latenciesUs (receive_notified build opt {} _)).trans
      (onFrames_latenciesUs opt completed)
  obtain ⟨most, full⟩ := length_measured warmup count nodup below
  have finished : client.done = true ↔
      ((measured opt completed).length : Int) = opt.count.toInt := by
    have done : client.done = (onFrames opt {} completed).done :=
      (congrArg EventClient.done (receive_notified build opt {} _)).trans rfl
    rw [done]
    exact onFrames_done_iff count most
  refine ⟨?_, nodup, below, ?_, ?_⟩
  · rw [samples, measured_eq warmup]
  · rw [samples, List.length_map]
    exact most
  · rw [finished]
    exact full

/-- One warmup frame and one measured: the measured one is enough. -/
theorem EventClient.sample_accounting_one_measured :
    (EventClient.receive .sgmenon { count := 1, warmup := 1 } {}
      (notified (arrivals (fun _ => 0) (plainChunk 2) [(0, 1), (1, 0), (1, 1)]))).done = true :=
  (EventClient.sample_accounting .sgmenon { count := 1, warmup := 1 } 2 (plainChunk 2)
    (fun _ => 0) [(0, 1), (1, 0), (1, 1)] (by decide) (by decide) (by decide)
    ⟨by decide, by decide, by decide⟩ (by decide) (by decide)).2.2.2.2.mpr
    fun k above below => by
      have only : k = 1 := by
        simp at above below
        omega
      rw [only]
      decide

end MiddlewareBench.Vsomeip
