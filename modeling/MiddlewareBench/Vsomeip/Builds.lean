import MiddlewareBench.Lib.Fallible
import MiddlewareBench.Vsomeip.LosslessRun

/-!
# The two builds

The COVESA build puts a hole in front of every payload and skips it on arrival, the
sgmenon build does neither. Under the same clock both publish the same frames, and what a
network does to their datagrams it does to both: the clients end in the same state
(`builds_agree`), so that a comparison of the two compares their stacks.
-/

namespace MiddlewareBench.Vsomeip

open Bytes Transducer Fallible EventClient

/-! ## The publishers -/

/-- A payload behind an empty hole. -/
def behindHole (data : Block) : Block :=
  List.replicate (kE2eHoleBytes .covesa) 0 ++ data

namespace EventService

variable {lengthT : UInt64 → UInt64} {plan : ChunkPlan} {block written : Block} {seq : UInt32}
  {size now : UInt64}

theorem notifyPayload_covesa {c : Nat}
    (fits : lengthT (plan.sliceLen (UInt64.ofNat block.length) c) =
      plan.sliceLen (UInt64.ofNat block.length) c) :
    notifyPayload .covesa lengthT plan block c =
      behindHole <$> notifyPayload .sgmenon lengthT plan block c := by
  unfold notifyPayload
  dsimp only
  rw [fits]
  rfl

theorem length_of_writeChunkHeaders (wrote : writeChunkHeaders block seq plan = some written) :
    written.length = block.length := by
  unfold writeChunkHeaders at wrote
  generalize List.range plan.count.toNat = chunks at wrote
  induction chunks generalizing block with
  | nil =>
      cases wrote
      rfl
  | cons i chunks ih =>
      rw [List.foldlM_cons] at wrote
      obtain ⟨headed, head, rest⟩ := Option.bind_eq_some_iff.mp wrote
      exact (ih rest).trans (length_of_writeChecked head)

/-- A turn of the loop leaves the same block in both builds, and sends the same data. -/
theorem publishFrame_covesa (length : block.length = size.toNat)
    (fits : ∀ c < plan.count.toNat, lengthT (plan.sliceLen size c) = plan.sliceLen size c) :
    publishFrame .covesa lengthT plan block seq now =
      (publishFrame .sgmenon lengthT plan block seq now).map fun sent =>
        (sent.1, sent.2.map behindHole) := by
  unfold publishFrame
  cases headed : writeChunkHeaders block seq plan with
  | none => rfl
  | some headed' =>
      cases stamped : stampSendNs headed' now with
      | none => simp [stamped]
      | some stamped' =>
          have kept : UInt64.ofNat stamped'.length = size := by
            rw [length_of_writeChecked stamped, length_of_writeChunkHeaders headed, length,
              UInt64.ofNat_toNat]
          have payloads : (List.range plan.count.toNat).mapM
              (notifyPayload .covesa lengthT plan stamped') =
                List.map behindHole <$> (List.range plan.count.toNat).mapM
                  (notifyPayload .sgmenon lengthT plan stamped') := by
            refine mapM_eq_map fun c member => notifyPayload_covesa ?_
            rw [kept]
            exact fits c (List.mem_range.mp member)
          simp only [Option.bind_eq_bind, Option.bind_some, stamped, payloads]
          cases (List.range plan.count.toNat).mapM
            (notifyPayload .sgmenon lengthT plan stamped') <;> rfl

theorem length_of_publishFrame {build : Build} {payloads : List Block}
    (published : publishFrame build lengthT plan block seq now = some (written, payloads)) :
    written.length = block.length := by
  unfold publishFrame at published
  obtain ⟨headed, head, published⟩ := Option.bind_eq_some_iff.mp published
  obtain ⟨stamped, stamp, published⟩ := Option.bind_eq_some_iff.mp published
  obtain ⟨payloads', -, published⟩ := Option.bind_eq_some_iff.mp published
  cases published
  exact (length_of_writeChecked stamp).trans (length_of_writeChunkHeaders head)

theorem publishFrames_covesa (clock : List UInt64) (length : block.length = size.toNat)
    (fits : ∀ c < plan.count.toNat, lengthT (plan.sliceLen size c) = plan.sliceLen size c) :
    publishFrames .covesa lengthT plan block seq clock =
      (publishFrames .sgmenon lengthT plan block seq clock).map
        (List.map (List.map behindHole)) := by
  induction clock generalizing block seq with
  | nil => rfl
  | cons now clock ih =>
      unfold publishFrames
      rw [publishFrame_covesa length fits]
      cases published : publishFrame .sgmenon lengthT plan block seq now with
      | none => rfl
      | some sent =>
          obtain ⟨written, payloads⟩ := sent
          simp only [Option.map_some, Option.bind_eq_bind, Option.bind_some]
          rw [ih ((length_of_publishFrame published).trans length)]
          cases publishFrames .sgmenon lengthT plan written (seq + 1) clock <;> rfl

theorem worker_covesa {opt : Options} (clock : Nat → UInt64)
    (fits : ∀ plan, opt.plan = some plan → ∀ c < plan.count.toNat,
      lengthT (plan.sliceLen opt.size c) = plan.sliceLen opt.size c) :
    worker .covesa lengthT opt clock =
      (worker .sgmenon lengthT opt clock).map (List.map (List.map behindHole)) := by
  unfold worker
  cases planned : opt.plan with
  | none => rfl
  | some plan =>
      refine publishFrames_covesa _ ?_ (fits plan planned)
      rw [initialBlock, List.length_map, List.length_range]

end EventService

/-! ## The clients -/

theorem FrameTracker.ingest_covesa (tr : FrameTracker) (data : Block) :
    tr.ingest .covesa data = tr.ingest .sgmenon (data.drop (kE2eHoleBytes .covesa)) := by
  have covesa : kE2eHoleBytes .covesa = 12 := rfl
  have sgmenon : kE2eHoleBytes .sgmenon = 0 := rfl
  have header : ChunkHeader.sizeof = 8 := rfl
  have length := @List.length_drop _ (kE2eHoleBytes .covesa) data
  unfold FrameTracker.ingest
  rw [sgmenon, List.drop_zero]
  by_cases runt : data.length < kE2eHoleBytes .covesa + ChunkHeader.sizeof
  · rw [if_pos runt, if_pos (by omega)]
  · have whole : ¬ (data.drop (kE2eHoleBytes .covesa)).length < 0 + ChunkHeader.sizeof := by omega
    rw [if_neg runt, if_neg whole]

namespace EventClient

/-- A client that skips holes is one that is handed what is behind them. -/
theorem receive_covesa (opt : Options) (self : EventClient) (arrivals : List (UInt64 × Block)) :
    self.receive .covesa opt (notified arrivals) =
      self.receive .sgmenon opt (notified (arrivals.map fun arrival =>
        (arrival.1, arrival.2.drop (kE2eHoleBytes .covesa)))) := by
  induction arrivals generalizing self with
  | nil => rfl
  | cons arrival arrivals ih =>
      have same : self.onNotification .covesa opt arrival.1 arrival.2 =
          self.onNotification .sgmenon opt arrival.1
            (arrival.2.drop (kE2eHoleBytes .covesa)) := by
        unfold onNotification
        rw [FrameTracker.ingest_covesa]
      unfold receive notified
      rw [List.map_cons, List.map_cons, List.map_cons, List.foldl_cons, List.foldl_cons,
        onMessage_notification, onMessage_notification, same]
      exact ih _

end EventClient

/-! ## Any network -/

/-- What arrives of the datagrams of a run: those in the places of `picks`, at these
times, in this order, each as often as it is picked. -/
def delivered (sent : List Block) (picks : List (UInt64 × Nat)) : List (UInt64 × Block) :=
  picks.filterMap fun pick => sent[pick.2]?.map fun data => (pick.1, data)

/-- The datagrams of both builds are the same behind their headers. -/
theorem inOrder_covesa (headers : Nat → Nat → Fin (kE2eHoleBytes .covesa) → UInt8)
    (headers' : Nat → Nat → Fin (kE2eHoleBytes .sgmenon) → UInt8) (frames : List (List Block)) :
    (inOrder .covesa headers (frames.map (List.map behindHole))).map
        (List.drop (kE2eHoleBytes .covesa)) = inOrder .sgmenon headers' frames := by
  unfold inOrder
  rw [List.map_flatten]
  congr 1
  refine List.ext_getElem (by simp) fun k _ _ => ?_
  simp only [List.getElem_map, List.getElem_mapIdx]
  refine List.ext_getElem (by simp) fun c _ _ => ?_
  simp only [List.getElem_map, List.getElem_mapIdx, behindHole, e2eProtect_hole]
  rw [List.drop_left' (List.length_ofFn ..)]
  rfl

/-- **The builds measure alike.** When the sgmenon publisher makes no access out of bounds,
neither does the COVESA publisher under the same clock; and whichever of its datagrams a
network delivers, at whatever times, in whatever order and however often, the COVESA
client ends as the sgmenon client does when the same happens to its datagrams. -/
theorem builds_agree (lengthT : UInt64 → UInt64) (opt : Options) (clock : Nat → UInt64)
    (fits : ∀ plan, opt.plan = some plan → ∀ c < plan.count.toNat,
      lengthT (plan.sliceLen opt.size c) = plan.sliceLen opt.size c)
    (sent : List (List Block))
    (works : EventService.worker .sgmenon lengthT opt clock = some sent) :
    ∃ sent', EventService.worker .covesa lengthT opt clock = some sent' ∧
      ∀ headers headers' picks (self : EventClient),
        self.receive .covesa opt (notified (delivered (inOrder .covesa headers sent') picks)) =
          self.receive .sgmenon opt
            (notified (delivered (inOrder .sgmenon headers' sent) picks)) := by
  refine ⟨sent.map (List.map behindHole), ?_, ?_⟩
  · rw [EventService.worker_covesa clock fits, works]
    rfl
  · intro headers headers' picks self
    rw [EventClient.receive_covesa, ← inOrder_covesa headers headers' sent]
    congr 2
    unfold delivered
    rw [List.map_filterMap]
    refine List.filterMap_congr fun pick _ => ?_
    rw [List.getElem?_map, Option.map_map, Option.map_map]
    rfl

/-- Two frames of two datagrams. -/
def twoFrames : Options := { size := 48, maxDatagram := 36, count := 1, warmup := 1 }

/-- One datagram comes late, and another twice. -/
theorem builds_agree_late : ∃ sent sent',
    EventService.worker .sgmenon (fun n => n.toUInt32.toUInt64) twoFrames (fun _ => 9) = some sent ∧
    EventService.worker .covesa (fun n => n.toUInt32.toUInt64) twoFrames (fun _ => 9) =
      some sent' ∧
    EventClient.receive .covesa twoFrames {} (notified (delivered
        (inOrder .covesa (fun k _ i => UInt8.ofNat (k + i)) sent')
        [(5, 0), (6, 2), (7, 2), (8, 1), (9, 3)])) =
      EventClient.receive .sgmenon twoFrames {} (notified (delivered
        (inOrder .sgmenon (fun _ _ i => i.elim0) sent)
        [(5, 0), (6, 2), (7, 2), (8, 1), (9, 3)])) := by
  have published : (EventService.worker .sgmenon (fun n => n.toUInt32.toUInt64) twoFrames
      fun _ => 9).isSome := by decide +kernel
  obtain ⟨sent, works⟩ := Option.isSome_iff_exists.mp published
  obtain ⟨sent', works', agree⟩ := builds_agree (fun n => n.toUInt32.toUInt64) twoFrames
    (fun _ => 9) (fun plan planned => by cases planned; decide) sent works
  exact ⟨sent, sent', works, works', agree _ _ _ _⟩

end MiddlewareBench.Vsomeip
