import MiddlewareBench.Vsomeip.Fragment

/-!
# What the frame tracker reports

`FrameTracker.ingest` works on bytes and 16-bit counters. On payloads that are
either too short to hold a header or chunks with an index below their count it
implements the in-order receiver of `MiddlewareBench.InOrder`
(`ingest_implements`), so its reports are exactly that receiver's:
`reports_iff` characterises them on every stream, whatever was lost,
duplicated, reordered or interleaved.
-/

namespace MiddlewareBench.Vsomeip

open Bytes Transducer

/-- The part of a payload the tracker looks at. -/
def chunkData (build : Build) (data : Block) : Block :=
  data.drop (kE2eHoleBytes build)

def headerOf (build : Build) (data : Block) : ChunkHeader :=
  ChunkHeader.ofBytes (slice (chunkData build data) 0 ChunkHeader.sizeof)

/-- The `send_ns` of a chunk `0`. -/
def sendNsOf (build : Build) (data : Block) : UInt64 :=
  UInt64.ofNat (leNat (slice (chunkData build data) kChunkSendNsOffset 8))

/-- A payload too short for a chunk header. -/
def Runt (build : Build) (data : Block) : Prop :=
  data.length < kE2eHoleBytes build + ChunkHeader.sizeof

instance (build : Build) (data : Block) : Decidable (Runt build data) :=
  inferInstanceAs (Decidable (_ < _))

/-- A chunk whose index is below its count and which, as chunk `0`, has room
for the `send_ns`. -/
structure WellFormedChunk (build : Build) (data : Block) : Prop where
  index_lt : (headerOf build data).index.toNat < (headerOf build data).count.toNat
  room : (headerOf build data).index = 0 → kE2eHoleBytes build + kMinFrameBytes ≤ data.length

/-- The payloads of a stream: runts and well-formed chunks. -/
def ValidPayload (build : Build) (data : Block) : Prop :=
  Runt build data ∨ WellFormedChunk build data

instance (build : Build) (data : Block) : Decidable (WellFormedChunk build data) :=
  decidable_of_iff (_ ∧ _) ⟨fun h => ⟨h.1, h.2⟩, fun h => ⟨h.1, h.2⟩⟩

instance (build : Build) (data : Block) : Decidable (ValidPayload build data) :=
  inferInstanceAs (Decidable (_ ∨ _))

/-- A payload as a piece of the frame named by its `seq`; a runt is none. -/
def chunkOf (build : Build) (data : Block) : Option (InOrder.Piece UInt32 UInt64) :=
  if Runt build data then none
  else
    let hdr := headerOf build data
    some ⟨hdr.seq, hdr.index.toNat, hdr.count.toNat, sendNsOf build data⟩

/-- The frame an active tracker follows. -/
def FrameTracker.followed (tr : FrameTracker) : Option (InOrder.Follow UInt32 UInt64) :=
  if tr.active then some ⟨tr.seq, tr.next.toNat, tr.sendNs⟩ else none

/-- A report of the receiver, in the tracker's words. -/
def toCompleted (report : Option (UInt32 × UInt64)) : Option CompletedFrame :=
  report.map fun frame => ⟨frame.1, frame.2⟩

@[simp] theorem toCompleted_none : toCompleted none = none := rfl

@[simp] theorem toCompleted_some (seq : UInt32) (sendNs : UInt64) :
    toCompleted (some (seq, sendNs)) = some ⟨seq, sendNs⟩ := rfl

theorem toCompleted_eq_some {report : Option (UInt32 × UInt64)} {seq : UInt32}
    {sendNs : UInt64} : toCompleted report = some ⟨seq, sendNs⟩ ↔ report = some (seq, sendNs) := by
  rcases report with _ | ⟨s, t⟩
  · simp
  · simp [CompletedFrame.ext_iff]

/-! ## The tracker implements the receiver -/

theorem uint16_eq_zero_iff {n : UInt16} : n = 0 ↔ n.toNat = 0 := by
  rw [← UInt16.toNat_inj, UInt16.toNat_zero]

theorem FrameTracker.followed_restart (tr : FrameTracker) (build : Build) (data : Block) :
    (tr.restart (headerOf build data) (chunkData build data)).followed =
      InOrder.restart tr.followed
        ⟨(headerOf build data).seq, (headerOf build data).index.toNat,
          (headerOf build data).count.toNat, sendNsOf build data⟩ := by
  unfold FrameTracker.restart InOrder.restart
  dsimp only
  by_cases first : (headerOf build data).index = 0
  · rw [if_pos first, if_pos (uint16_eq_zero_iff.mp first)]
    rfl
  · rw [if_neg first, if_neg (mt uint16_eq_zero_iff.mpr first)]

/-- The tracker's counter cannot wrap on a chunk whose index is below its count. -/
theorem next_succ_toNat {next index count : UInt16} (valid : index.toNat < count.toNat)
    (expected : index = next) : (next + 1).toNat = next.toNat + 1 := by
  have bound := count.toNat_lt
  rw [UInt16.toNat_add, UInt16.toNat_one, ← expected]
  exact Nat.mod_eq_of_lt (by omega)

/-- Once restarted, the tracker answers a chunk as the receiver does. -/
theorem FrameTracker.advance_spec (tr : FrameTracker) {hdr : ChunkHeader}
    (valid : hdr.index.toNat < hdr.count.toNat) {s : Option (InOrder.Follow UInt32 UInt64)}
    {p : InOrder.Piece UInt32 UInt64} (key : p.key = hdr.seq) (index : p.index = hdr.index.toNat)
    (count : p.count = hdr.count.toNat) (restarted : tr.followed = InOrder.restart s p) :
    (tr.advance hdr).1.followed = (InOrder.ingest s p).1 ∧
      (tr.advance hdr).2 = toCompleted (InOrder.ingest s p).2 := by
  by_cases fits : tr.active ∧ hdr.seq = tr.seq ∧ hdr.index = tr.next
  · rcases fits with ⟨active, seq, expected⟩
    have next := next_succ_toNat valid expected
    have followed : InOrder.follow s p = some ⟨tr.seq, tr.next.toNat, tr.sendNs⟩ := by
      refine InOrder.follow_eq_some.mpr ⟨?_, key.trans seq, index.trans (congrArg _ expected)⟩
      rw [← restarted, FrameTracker.followed, if_pos active]
    have taken : ¬ (!tr.active ∨ hdr.seq ≠ tr.seq ∨ hdr.index ≠ tr.next) := by
      simp [active, seq, expected]
    rw [FrameTracker.advance, if_neg taken]
    rcases Nat.lt_or_ge (tr.next.toNat + 1) p.count with more | last
    · have lt : tr.next + 1 < hdr.count := by
        rw [UInt16.lt_iff_toNat_lt, next, ← count]
        exact more
      rw [InOrder.ingest_more followed more]
      simp [lt, FrameTracker.followed, active, next]
    · have notLt : ¬ tr.next + 1 < hdr.count := by
        rw [UInt16.lt_iff_toNat_lt, next, ← count]
        exact Nat.not_lt.mpr last
      rw [InOrder.ingest_last followed last]
      simp [notLt, FrameTracker.followed]
  · have refused : !tr.active ∨ hdr.seq ≠ tr.seq ∨ hdr.index ≠ tr.next := by
      cases active : tr.active with
      | false => exact .inl rfl
      | true => exact .inr (not_and_or.mp fun same => fits ⟨active, same⟩)
    have misfit : InOrder.follow s p = none := by
      refine InOrder.follow_eq_none.mpr fun f following same => ?_
      rw [← restarted, FrameTracker.followed] at following
      cases active : tr.active with
      | false => simp [active] at following
      | true =>
          simp only [active, ite_true, Option.some.injEq] at following
          subst following
          exact fits ⟨active, key ▸ same.1, UInt16.toNat_inj.mp (index ▸ same.2)⟩
    rw [FrameTracker.advance, if_pos refused, InOrder.ingest_misfit misfit]
    exact ⟨rfl, rfl⟩

/-- A payload that is no runt is handled by `restart` and `advance`. -/
theorem FrameTracker.ingest_eq_advance (build : Build) (tr : FrameTracker) {data : Block}
    (valid : ValidPayload build data) (long : ¬ Runt build data) :
    tr.ingest build data =
      (tr.restart (headerOf build data) (chunkData build data)).advance (headerOf build data) := by
  have wf := valid.resolve_left long
  have room : ¬ ((headerOf build data).index = 0 ∧
      (chunkData build data).length < kMinFrameBytes) := by
    intro short
    rcases short with ⟨first, short⟩
    have enough := wf.room first
    rw [chunkData, List.length_drop] at short
    omega
  unfold FrameTracker.ingest
  exact (if_neg long).trans (if_neg room)

/-- **Refinement.** On valid payloads the tracker is the in-order receiver. -/
theorem ingest_implements (build : Build) :
    Implements (FrameTracker.ingest build) InOrder.ingest (ValidPayload build)
      FrameTracker.followed (chunkOf build) toCompleted none where
  skip tr data none := by
    have runt : Runt build data := by
      by_contra long
      rw [chunkOf, if_neg long] at none
      cases none
    exact if_pos runt
  answer tr data piece valid some := by
    by_cases runt : Runt build data
    · rw [chunkOf, if_pos runt] at some
      cases some
    · rw [chunkOf, if_neg runt] at some
      cases some
      rw [tr.ingest_eq_advance build valid runt]
      exact FrameTracker.advance_spec _ (valid.resolve_left runt).index_lt rfl rfl rfl
        (tr.followed_restart build data)

theorem chunkOf_of_not_runt {build : Build} {data : Block} (long : ¬ Runt build data) :
    chunkOf build data = some ⟨(headerOf build data).seq, (headerOf build data).index.toNat,
      (headerOf build data).count.toNat, sendNsOf build data⟩ :=
  if_neg long

/-! ## Frames sent in order -/

/-- `data` carries chunk `c` of the `n` chunks of frame `seq`, with room for its
header and, in chunk `0`, for the stamp. -/
structure CarriesChunk (build : Build) (seq : UInt32) (n c : Nat) (data : Block) : Prop where
  header : headerOf build data = ⟨seq, UInt16.ofNat c, UInt16.ofNat n⟩
  room : kE2eHoleBytes build + ChunkHeader.sizeof ≤ data.length
  first : c = 0 → kE2eHoleBytes build + kMinFrameBytes ≤ data.length

instance (build : Build) (seq : UInt32) (n c : Nat) (data : Block) :
    Decidable (CarriesChunk build seq n c data) :=
  decidable_of_iff (_ ∧ _ ∧ _) ⟨fun h => ⟨h.1, h.2.1, h.2.2⟩, fun h => ⟨h.1, h.2, h.3⟩⟩

section CarriesChunk

variable {build : Build} {seq : UInt32} {n c : Nat} {data : Block}

theorem CarriesChunk.index_toNat (carries : CarriesChunk build seq n c data) (below : c < n)
    (count : n ≤ 65535) : (headerOf build data).index.toNat = c := by
  rw [carries.header]
  exact UInt16.toNat_ofNat_of_lt' (by rw [UInt16.size]; omega)

theorem CarriesChunk.count_toNat (carries : CarriesChunk build seq n c data)
    (count : n ≤ 65535) : (headerOf build data).count.toNat = n := by
  rw [carries.header]
  exact UInt16.toNat_ofNat_of_lt' (by rw [UInt16.size]; omega)

theorem CarriesChunk.not_runt (carries : CarriesChunk build seq n c data) :
    ¬ Runt build data :=
  Nat.not_lt.mpr carries.room

theorem CarriesChunk.wellFormed (carries : CarriesChunk build seq n c data) (below : c < n)
    (count : n ≤ 65535) : WellFormedChunk build data where
  index_lt := by
    rw [carries.index_toNat below count, carries.count_toNat count]
    exact below
  room index := by
    rw [uint16_eq_zero_iff, carries.index_toNat below count] at index
    exact carries.first index

theorem CarriesChunk.chunkOf_eq (carries : CarriesChunk build seq n c data) (below : c < n)
    (count : n ≤ 65535) : chunkOf build data = some ⟨seq, c, n, sendNsOf build data⟩ := by
  rw [chunkOf_of_not_runt carries.not_runt, carries.index_toNat below count,
    carries.count_toNat count, carries.header]

end CarriesChunk

/-- **A frame delivered whole.** From any state, the tracker answers its chunks
with one report, at the last. -/
theorem FrameTracker.outputs_frame (build : Build) (tr : FrameTracker) {seq : UInt32}
    {n : Nat} (pos : 0 < n) (count : n ≤ 65535) {payload : Nat → Block}
    (carries : ∀ c < n, CarriesChunk build seq n c (payload c)) :
    outputs (FrameTracker.ingest build) tr ((List.range n).map payload) =
      List.replicate (n - 1) none ++ [some ⟨seq, sendNsOf build (payload 0)⟩] := by
  have valid : ∀ data ∈ (List.range n).map payload, ValidPayload build data := by
    intro data member
    obtain ⟨c, inRange, rfl⟩ := List.mem_map.mp member
    have below := List.mem_range.mp inRange
    exact .inr ((carries c below).wellFormed below count)
  have chunks : ((List.range n).map payload).map (chunkOf build) =
      (InOrder.pieces seq n (fun c => sendNsOf build (payload c)) n).map some := by
    rw [InOrder.pieces, List.map_map, List.map_map]
    refine List.map_congr_left fun c inRange => ?_
    have below := List.mem_range.mp inRange
    exact (carries c below).chunkOf_eq below count
  rw [(ingest_implements build).outputs_eq tr valid chunks,
    InOrder.outputs_whole _ (InOrder.isWhole_pieces seq _ pos), InOrder.length_pieces,
    List.map_append, List.map_replicate, toCompleted_none, List.map_singleton,
    toCompleted_some]

/-- **Frames delivered whole, one after the other.** -/
theorem FrameTracker.outputs_frames (build : Build) (tr : FrameTracker) {seq : Nat → UInt32}
    {n : Nat} (pos : 0 < n) (count : n ≤ 65535) {payload : Nat → Nat → Block} {frames : Nat}
    (carries : ∀ k < frames, ∀ c < n, CarriesChunk build (seq k) n c (payload k c)) :
    outputs (FrameTracker.ingest build) tr
        ((List.range frames).flatMap fun k => (List.range n).map (payload k)) =
      (List.range frames).flatMap fun k =>
        List.replicate (n - 1) none ++ [some ⟨seq k, sendNsOf build (payload k 0)⟩] := by
  induction frames with
  | zero => rfl
  | succ frames ih =>
      have earlier := ih fun k below => carries k (Nat.lt_succ_of_lt below)
      have last := fun tr => FrameTracker.outputs_frame build tr pos count
        (carries frames (Nat.lt_succ_self frames))
      rw [List.range_succ, List.flatMap_append, List.flatMap_append, List.flatMap_singleton,
        List.flatMap_singleton, outputs_append, earlier, last]

/-! ## Reports -/

/-- **What the tracker reports, on every stream.** The answer at position `p`
is a frame exactly when the payload there is no runt and, runts aside, the
chunks ending there have a suffix that is this frame: one `seq`, indices
`0, 1, …`, counts that promise more up to the last chunk and not there, and the
`send_ns` of its chunk `0`. -/
theorem FrameTracker.reports_iff (build : Build) {stream : List Block}
    (valid : ∀ data ∈ stream, ValidPayload build data) (p : Nat) (seq : UInt32)
    (sendNs : UInt64) :
    (outputs (FrameTracker.ingest build) {} stream)[p]? = some (some ⟨seq, sendNs⟩) ↔
      (∃ data, stream[p]? = some data ∧ ¬ Runt build data) ∧
        ∃ frame, frame <:+ (stream.take (p + 1)).filterMap (chunkOf build) ∧
          InOrder.IsWhole seq sendNs frame := by
  rw [getElem?_outputs]
  cases here : stream[p]? with
  | none => simp
  | some data =>
      have member : data ∈ stream := List.mem_of_getElem? here
      rw [List.take_add_one, here, Option.toList_some, List.filterMap_append, Option.map_some,
        Option.some.injEq]
      by_cases runt : Runt build data
      · have skipped : FrameTracker.ingest build
            (after (FrameTracker.ingest build) {} (stream.take p)) data = (_, none) := if_pos runt
        simp [skipped, runt]
      · have before : ∀ data ∈ stream.take p, ValidPayload build data :=
          fun data taken => valid data (List.mem_of_mem_take taken)
        have wf := (valid data member).resolve_left runt
        rw [(ingest_implements build).output_eq {} before (valid data member)
          (chunkOf_of_not_runt runt), toCompleted_eq_some,
          List.filterMap_cons_some (chunkOf_of_not_runt runt), List.filterMap_nil]
        refine (InOrder.output_eq_some_iff wf.index_lt).trans ?_
        exact ⟨fun whole => ⟨⟨data, rfl, runt⟩, whole⟩, fun reported => reported.2⟩

/-- A runt, then both chunks of a frame of two: the frame is there to be found. -/
theorem FrameTracker.reports_iff_two_chunks :
    ∃ frame, frame <:+ ([[], (ChunkHeader.mk 7 0 2).toBytes ++ leBytes 8 258,
        (ChunkHeader.mk 7 1 2).toBytes].take 3).filterMap (chunkOf .sgmenon) ∧
      InOrder.IsWhole 7 258 frame :=
  ((FrameTracker.reports_iff .sgmenon (by decide) 2 7 258).mp (by decide)).2

end MiddlewareBench.Vsomeip
