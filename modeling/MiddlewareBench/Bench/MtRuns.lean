import Mathlib.Algebra.Group.Nat.Defs
import MiddlewareBench.Bench.MtCredits

/-!
# Whole runs of the multithreaded one-way benches

What `RunMtOneWay` promises of its own loops, whoever is scheduled when: once `stop`
is set, the publisher takes only a few more steps; the cap of the drain loop
keeps a racing publisher from holding an iteration back; and the numbers read are
those written, in the order they were drawn.
-/

namespace MiddlewareBench.Bench.MtOneWay

open Runs

/-! ## Stopping the publisher -/

/-- The publisher's own steps. -/
def Action.isPublisher : Action → Bool
  | .readStop | .readInFlight | .publish | .fail _ | .addCredit => true
  | _ => false

/-- How many steps the publisher still takes once `stop` is set. -/
def PubPc.toExit : PubPc → Nat
  | .exited => 0
  | .loopHead => 1
  | .credit => 2
  | .publish _ => 3
  | .check => 4

/-- How many samples it still publishes then. -/
def PubPc.toPublish : PubPc → Nat
  | .check | .publish _ => 1
  | .loopHead | .credit | .exited => 0

/-- Nobody clears `stop`. -/
theorem stop_step {cfg : Config} {s t : State} {a : Action} (stopped : s.stop = true)
    (stepped : step cfg s a = some t) : t.stop = true := by
  cases a with
  | setStop =>
      simp only [step] at stepped
      split at stepped <;> cases stepped
      rfl
  | iterate | leave | pollEmpty | giveUp =>
      simp only [step] at stepped
      grind
  | _ =>
      cases step_cases stepped with
      | between a pc stop silent idle still => simp at silent
      | _ => exact stopped

/-- Once `stop` is set, the publisher only moves on towards its exit, and what the
subscriber and the channel do leaves it where it is. -/
theorem toExit_step {cfg : Config} {s t : State} {a : Action} (stopped : s.stop = true)
    (stepped : step cfg s a = some t) :
    t.pub.toExit + a.isPublisher.toNat ≤ s.pub.toExit ∧
      t.pub.toPublish + (a == .publish).toNat ≤ s.pub.toPublish := by
  cases step_cases stepped with
  | readStop pub =>
      rw [pub, if_pos stopped]
      exact ⟨Nat.le_refl _, Nat.le_refl _⟩
  | refused pub full | granted pub below | publish sample pub | addCredit pub =>
      rw [pub]
      simp [PubPc.toExit, PubPc.toPublish, Action.isPublisher, beq_eq_decide]
  | fail sample failure pc pub next =>
      rw [pub]
      rcases next with rfl | rfl <;>
        simp [PubPc.toExit, PubPc.toPublish, Action.isPublisher, beq_eq_decide]
  | between a pc stop silent idle still =>
      simp only [List.mem_cons, List.not_mem_nil, or_false] at silent
      rcases silent with rfl | rfl | rfl | rfl | rfl <;>
        exact ⟨Nat.le_refl _, Nat.le_refl _⟩
  | _ => exact ⟨Nat.le_refl _, Nat.le_refl _⟩

/-- **`stop` ends the publisher.** Once the subscriber has set it, every run from there has
at most four more steps of the publisher and publishes at most one more sample, and a
publisher that has taken four of them has left its loop. -/
theorem stop_joins (cfg : Config) (linked : UInt64) (before after : List Action) (s t : State)
    (stopped : run (step cfg) (start linked) (before ++ [.setStop]) = some s)
    (ran : run (step cfg) s after = some t) :
    after.countP Action.isPublisher ≤ 4 ∧ after.count .publish ≤ 1 ∧
      (after.countP Action.isPublisher = 4 → t.pub = .exited) := by
  have set : s.stop = true := by
    obtain ⟨m, -, last⟩ := run_concat_eq_some.mp stopped
    simp only [step] at last
    split at last <;> cases last
    rfl
  have fewSteps := @run_budget _ _ _ (fun m => m.stop = true) (fun m => m.pub.toExit)
    Action.isPublisher (fun _ => false) 0
    (fun m a u stopped stepped => ⟨stop_step stopped stepped, (toExit_step stopped stepped).1⟩)
    _ _ _ set ran
  have onePublish := @run_budget _ _ _ (fun m => m.stop = true) (fun m => m.pub.toPublish)
    (· == .publish) (fun _ => false) 0
    (fun m a u stopped stepped => ⟨stop_step stopped stepped, (toExit_step stopped stepped).2⟩)
    _ _ _ set ran
  have steps : s.pub.toExit ≤ 4 := by cases s.pub <;> simp [PubPc.toExit]
  have publishes : s.pub.toPublish ≤ 1 := by cases s.pub <;> simp [PubPc.toPublish]
  refine ⟨by omega, by rw [List.count]; omega, fun all => ?_⟩
  have none : t.pub.toExit = 0 := by omega
  cases pub : t.pub with
  | exited => rfl
  | _ =>
      rw [pub] at none
      cases none

/-- A publisher that has found `stop` unset just before is refused no more: it publishes, and
is out with its fourth step. -/
theorem stop_joins_let_through :
    [Action.readInFlight, .publish, .addCredit, .readStop].countP Action.isPublisher ≤ 4 ∧
      [Action.readInFlight, .publish, .addCredit, .readStop].count .publish ≤ 1 ∧
        ([Action.readInFlight, .publish, .addCredit, .readStop].countP Action.isPublisher = 4 →
          PubPc.exited = .exited) :=
  stop_joins ⟨.zenoh, true, false⟩ 0 [.readStop, .leave]
    [.readInFlight, .publish, .addCredit, .readStop]
    { stop := true, pub := .check, sub := .joining }
    { stop := true, inFlight := 1, seq := 1, channel := [1], pub := .exited, sub := .joining }
    (by decide) (by decide)

/-! ## The cap of the drain loop -/

/-- How many messages the subscriber may still take before its next iteration. -/
def SubPc.mayTake : SubPc → Nat
  | .poll (.drain drained) => drainCap - drained + 1
  | .poll .timed => 1
  | .load (.drain drained) => drainCap - drained
  | .cas (.drain drained) _ => drainCap - drained
  | _ => 0

/-- The drain loop has not run past its cap. -/
def SubPc.Capped : SubPc → Prop
  | .poll (.drain drained) | .load (.drain drained) | .cas (.drain drained) _ =>
    drained < drainCap
  | _ => True

/-- What the subscriber's moves between two messages are. -/
theorem sub_of_silent {cfg : Config} {s t : State} {a : Action}
    (silent : a ∈ [.iterate, .leave, .pollEmpty, .giveUp, .setStop])
    (stepped : step cfg s a = some t) :
    a = .iterate ∧ s.sub = .iterate ∧ t.sub = .poll (.drain 0) ∨
      a = .pollEmpty ∧ (∃ at', s.sub = .poll at') ∧ t.sub = .poll .timed ∨
        t.sub = .done ∨ t.sub = .joining := by
  simp only [List.mem_cons, List.not_mem_nil, or_false] at silent
  rcases silent with rfl | rfl | rfl | rfl | rfl <;> simp only [step] at stepped <;> grind

/-- A message dealt with leaves the cap as it was when the message was taken. -/
theorem next_capped {at' : Poll} (capped : (SubPc.load at').Capped) :
    at'.next.Capped ∧ at'.next.mayTake ≤ (SubPc.load at').mayTake := by
  cases at' with
  | drain drained =>
      simp only [SubPc.Capped, drainCap] at capped
      rw [Poll.next]
      split
      · rename_i below
        exact ⟨below, by simp only [SubPc.mayTake, drainCap]; omega⟩
      · exact ⟨trivial, by simp only [SubPc.mayTake, drainCap]; omega⟩
  | timed => exact ⟨trivial, Nat.le_refl _⟩

/-- Only a new iteration gives the subscriber messages to take. -/
theorem mayTake_step {cfg : Config} {s t : State} {a : Action} (capped : s.sub.Capped)
    (stepped : step cfg s a = some t) :
    t.sub.Capped ∧
      t.sub.mayTake + (a == .take).toNat ≤
        s.sub.mayTake + (drainCap + 1) * (a == .iterate).toNat := by
  cases step_cases stepped with
  | between a pc stop silent idle still =>
      have notTake : (a == .take) = false := by
        simp only [List.mem_cons, List.not_mem_nil, or_false] at silent
        rcases silent with rfl | rfl | rfl | rfl | rfl <;> rfl
      rw [notTake]
      rcases sub_of_silent silent stepped with
        ⟨rfl, sub, moved⟩ | ⟨rfl, ⟨at', sub⟩, moved⟩ | moved | moved
      · rw [moved, sub]
        exact ⟨Nat.zero_lt_succ _, Nat.le_refl _⟩
      · rw [moved, sub]
        refine ⟨trivial, ?_⟩
        refine Nat.le_add_right_of_le ?_
        cases at' with
        | drain drained => exact Nat.le_add_left _ _
        | timed => exact Nat.le_refl _
      · rw [moved]
        exact ⟨trivial, Nat.zero_le _⟩
      · rw [moved]
        exact ⟨trivial, Nat.zero_le _⟩
  | take at' sample channel sub queued =>
      rw [sub] at capped ⊢
      cases at' with
      | drain drained =>
          simp only [SubPc.Capped] at capped ⊢
          simp only [SubPc.mayTake]
          exact ⟨capped, Nat.le_refl _⟩
      | timed => exact ⟨trivial, Nat.le_refl _⟩
  | loadInFlight at' sub =>
      rw [sub] at capped ⊢
      cases at' with
      | drain drained => exact ⟨capped, Nat.le_refl _⟩
      | timed => exact ⟨trivial, Nat.le_refl _⟩
  | exchange at' sub positive =>
      rw [sub] at capped ⊢
      cases at' with
      | drain drained => exact @next_capped (.drain drained) capped
      | timed => exact ⟨trivial, Nat.le_refl _⟩
  | exchangeFails at' cur sub =>
      rw [sub] at capped ⊢
      cases at' with
      | drain drained => exact ⟨capped, Nat.le_refl _⟩
      | timed => exact ⟨trivial, Nat.le_refl _⟩
  | skip at' cur sub none =>
      rw [sub] at capped ⊢
      cases at' with
      | drain drained => exact @next_capped (.drain drained) capped
      | timed => exact ⟨trivial, Nat.le_refl _⟩
  | _ => exact ⟨capped, Nat.le_refl _⟩

/-- How many messages the channel has dropped. -/
def drops (acts : List Action) : Nat :=
  acts.countP fun a => match a with
    | .drop _ => true
    | _ => false

/-- What was published was taken, was dropped, or is in the channel. -/
theorem published_eq {cfg : Config} {linked : UInt64} {acts : List Action} {s : State}
    (ran : run (step cfg) (start linked) acts = some s) :
    acts.count .publish = acts.count .take + drops acts + s.channel.length := by
  refine run_history (P := fun past m =>
    past.count .publish = past.count .take + drops past + m.channel.length) rfl ?_ ran
  intro past m a t before stepped
  simp only [drops, List.count_append, List.count_singleton, List.countP_append,
    List.countP_singleton] at before ⊢
  cases step_cases stepped with
  | publish sample pub =>
      simp only [List.length_append, List.length_singleton, beq_eq_decide]
      simp
      omega
  | take at' sample channel sub queued =>
      rw [queued] at before
      simp only [List.length_cons, beq_eq_decide] at before ⊢
      simp
      omega
  | drop i lossy there =>
      simp only [List.length_eraseIdx_of_lt there, beq_eq_decide]
      simp
      omega
  | between a pc stop silent idle still =>
      simp only [List.mem_cons, List.not_mem_nil, or_false] at silent
      rcases silent with rfl | rfl | rfl | rfl | rfl <;> simpa [beq_eq_decide] using before
  | _ => simpa [beq_eq_decide] using before

/-- **The cap of the drain loop.** An iteration takes at most the 32 messages it
drains and the one it times, and the credits let the publisher be only two
messages ahead: however the two race, what is published beyond what the channel
drops is bounded by the iterations begun. -/
theorem takes_le (cfg : Config) (linked : UInt64) (acts : List Action) (s : State)
    (ran : run (step cfg) (start linked) acts = some s) :
    acts.count .take ≤ (drainCap + 1) * acts.count .iterate ∧
      acts.count .publish ≤ (drainCap + 1) * acts.count .iterate + drops acts + 2 := by
  have taken := @run_budget _ _ _ (fun m => m.sub.Capped) (fun m => m.sub.mayTake)
    (· == .take) (· == .iterate) (drainCap + 1)
    (fun m a u capped stepped => mayTake_step capped stepped) _ _ _ trivial ran
  have fromStart : (start linked).sub.mayTake = 0 := rfl
  have published := published_eq ran
  obtain ⟨w, tracks, -⟩ := run_tracks ran
  have outstanding := tracks.outstanding
  have room := w.outstanding_le
  simp only [List.count] at published ⊢
  refine ⟨by omega, by omega⟩

/-- An iteration that drains one message and times the next. -/
theorem takes_le_iteration :
    2 ≤ (drainCap + 1) * 1 ∧ 2 ≤ (drainCap + 1) * 1 + 0 + 2 :=
  takes_le ⟨.subspace, true, false⟩ 0
    [.readStop, .readInFlight, .publish, .addCredit, .readStop, .readInFlight, .publish,
      .addCredit, .iterate, .take, .loadInFlight, .exchange, .pollEmpty, .take, .loadInFlight,
      .exchange]
    { seq := 2 } (by decide)

/-! ## The order of the messages -/

/-- The sample an action hands to the middleware. -/
def wrote (s : State) : Action → Option UInt64
  | .publish =>
    match s.pub with
    | .publish sample => some sample
    | _ => none
  | _ => none

/-- The sample an action gets from it. -/
def got (s : State) : Action → Option UInt64
  | .take => s.channel.head?
  | _ => none

/-- The samples published in a run, in the order they were published. -/
def published (cfg : Config) (linked : UInt64) : List Action → List UInt64 :=
  seen (step cfg) wrote (start linked)

/-- The samples taken in a run, in the order they were taken. -/
def taken (cfg : Config) (linked : UInt64) : List Action → List UInt64 :=
  seen (step cfg) got (start linked)

section Order

variable {cfg : Config} {linked : UInt64} {acts : List Action} {s : State}

theorem published_concat {t : State} {a : Action}
    (ran : run (step cfg) (start linked) acts = some s) (stepped : step cfg s a = some t) :
    published cfg linked (acts ++ [a]) = published cfg linked acts ++ (wrote s a).toList :=
  seen_concat ran stepped

theorem taken_concat {t : State} {a : Action}
    (ran : run (step cfg) (start linked) acts = some s) (stepped : step cfg s a = some t) :
    taken cfg linked (acts ++ [a]) = taken cfg linked acts ++ (got s a).toList :=
  seen_concat ran stepped

/-- Every publish hands over a sample. -/
theorem length_published (ran : run (step cfg) (start linked) acts = some s) :
    (published cfg linked acts).length = acts.count .publish := by
  refine length_seen (fun m a u stepped => ?_) ran
  cases step_cases stepped with
  | publish sample pub => simp only [wrote, pub, Option.isSome_some, beq_self_eq_true]
  | between a pc stop silent idle still =>
      simp only [List.mem_cons, List.not_mem_nil, or_false] at silent
      rcases silent with rfl | rfl | rfl | rfl | rfl <;> rfl
  | _ => rfl

/-- Every take gets one. -/
theorem length_taken (ran : run (step cfg) (start linked) acts = some s) :
    (taken cfg linked acts).length = acts.count .take := by
  refine length_seen (fun m a u stepped => ?_) ran
  cases step_cases stepped with
  | take at' sample channel sub queued =>
      simp only [got, queued, List.head?_cons, Option.isSome_some, beq_self_eq_true]
  | between a pc stop silent idle still =>
      simp only [List.mem_cons, List.not_mem_nil, or_false] at silent
      rcases silent with rfl | rfl | rfl | rfl | rfl <;> rfl
  | _ => rfl

/-- What was taken and what is in the channel are among what was published, in its
order. -/
theorem taken_sublist (ran : run (step cfg) (start linked) acts = some s) :
    (taken cfg linked acts ++ s.channel).Sublist (published cfg linked acts) := by
  suffices reached : run (step cfg) (start linked) acts = some s ∧
      (taken cfg linked acts ++ s.channel).Sublist (published cfg linked acts) from reached.2
  refine run_history (P := fun past m => run (step cfg) (start linked) past = some m ∧
    (taken cfg linked past ++ m.channel).Sublist (published cfg linked past)) ?_ ?_ ran
  · exact ⟨rfl, .slnil⟩
  · rintro past m a t ⟨before, among⟩ stepped
    refine ⟨run_concat_eq_some.mpr ⟨m, before, stepped⟩, ?_⟩
    rw [taken_concat before stepped, published_concat before stepped]
    cases step_cases stepped with
    | publish sample pub =>
        simp only [wrote, got, pub, Option.toList_some, Option.toList_none, List.append_nil]
        rw [← List.append_assoc]
        exact among.append_right [sample]
    | take at' sample channel sub queued =>
        rw [queued] at among
        simpa only [wrote, got, queued, List.head?_cons, Option.toList_some, Option.toList_none,
          List.append_nil, List.append_assoc, List.singleton_append] using among
    | drop i lossy there =>
        simp only [wrote, got, Option.toList_none, List.append_nil]
        exact ((List.eraseIdx_sublist m.channel i).append_left _).trans among
    | between a pc stop silent idle still =>
        simp only [List.mem_cons, List.not_mem_nil, or_false] at silent
        rcases silent with rfl | rfl | rfl | rfl | rfl <;>
          simpa only [wrote, got, Option.toList_none, List.append_nil] using among
    | _ => simpa only [wrote, got, Option.toList_none, List.append_nil] using among

/-- The numbers drawn so far: those published rise to the last one drawn, which a
sample about to be published carries alone. -/
structure Drawn (linked : UInt64) (past : List Action) (samples : List UInt64) (s : State) :
    Prop where
  drawn : s.seq.toNat ≤ linked.toNat + past.length
  rising : samples.Pairwise (· < ·)
  last : ∀ sample ∈ samples, sample ≤ s.seq
  pending : ∀ sample, s.pub = .publish sample → sample = s.seq ∧ ∀ old ∈ samples, old < sample

/-- The publisher moves on without drawing or publishing. -/
theorem Drawn.move {past : List Action} {samples : List UInt64} {s t : State} {a : Action}
    (drawn : Drawn linked past samples s) (seq : t.seq = s.seq)
    (pending : ∀ sample, t.pub = .publish sample → s.pub = .publish sample) :
    Drawn linked (past ++ [a]) samples t := by
  refine ⟨?_, drawn.rising, by rw [seq]; exact drawn.last, fun sample publishing => ?_⟩
  · rw [seq, List.length_append]
    exact Nat.le_trans drawn.drawn (by omega)
  · rw [seq]
    exact drawn.pending sample (pending sample publishing)

/-- A publisher that is not about to publish moves on. -/
theorem Drawn.idle {past : List Action} {samples : List UInt64} {s t : State} {a : Action}
    (drawn : Drawn linked past samples s) (seq : t.seq = s.seq)
    (idle : ∀ sample, t.pub ≠ .publish sample) : Drawn linked (past ++ [a]) samples t :=
  drawn.move seq fun sample publishing => absurd publishing (idle sample)

theorem drawn_step {past : List Action} {samples : List UInt64} {t : State} {a : Action}
    (room : linked.toNat + (past ++ [a]).length < 2 ^ 64) (drawn : Drawn linked past samples s)
    (stepped : step cfg s a = some t) :
    Drawn linked (past ++ [a]) (samples ++ (wrote s a).toList) t := by
  cases step_cases stepped with
  | readStop pub =>
      simp only [wrote, Option.toList_none, List.append_nil]
      refine drawn.idle rfl fun sample publishing => ?_
      cases stopped : s.stop <;> simp [stopped] at publishing
  | refused pub full =>
      simp only [wrote, Option.toList_none, List.append_nil]
      exact drawn.idle rfl fun sample publishing => nomatch publishing
  | granted pub below =>
      -- the only step that draws a number, and there is room for one more
      have limit := drawn.drawn
      simp only [List.length_append, List.length_singleton] at room
      have next : (s.seq + 1).toNat = s.seq.toNat + 1 := by
        rw [UInt64.toNat_add, UInt64.toNat_one, Nat.mod_eq_of_lt (by omega)]
      have fresh : ∀ old ∈ samples, old < s.seq + 1 := by
        intro old member
        have atMost := UInt64.le_iff_toNat_le.mp (drawn.last old member)
        rw [UInt64.lt_iff_toNat_lt]
        omega
      simp only [wrote, Option.toList_none, List.append_nil]
      refine ⟨?_, drawn.rising, fun old member => UInt64.le_of_lt (fresh old member), ?_⟩
      · rw [List.length_append, List.length_singleton, next]
        omega
      · intro sample publishing
        cases publishing
        exact ⟨rfl, fresh⟩
  | publish sample pub =>
      obtain ⟨carried, fresh⟩ := drawn.pending sample pub
      simp only [wrote, pub, Option.toList_some]
      refine ⟨?_, ?_, ?_, fun other publishing => nomatch publishing⟩
      · rw [List.length_append]
        exact Nat.le_trans drawn.drawn (by omega)
      · rw [List.pairwise_append]
        refine ⟨drawn.rising, List.pairwise_singleton _ _, fun old member new last => ?_⟩
        rw [List.mem_singleton.mp last]
        exact fresh old member
      · intro old member
        rcases List.mem_append.mp member with earlier | now
        · exact drawn.last old earlier
        · rw [List.mem_singleton.mp now, carried]
          exact UInt64.le_refl _
  | fail sample failure pc pub next =>
      simp only [wrote, Option.toList_none, List.append_nil]
      refine drawn.idle rfl fun sample publishing => ?_
      rcases next with rfl | rfl <;> cases publishing
  | addCredit pub =>
      simp only [wrote, Option.toList_none, List.append_nil]
      exact drawn.idle rfl fun sample publishing => nomatch publishing
  | between a pc stop silent idle still =>
      simp only [List.mem_cons, List.not_mem_nil, or_false] at silent
      rcases silent with rfl | rfl | rfl | rfl | rfl <;>
        simp only [wrote, Option.toList_none, List.append_nil] <;>
        exact drawn.move rfl fun _ => id
  | _ =>
      simp only [wrote, Option.toList_none, List.append_nil]
      exact drawn.move rfl fun _ => id

/-- As long as the numbers last, each published sample has a larger one than all
before it. -/
theorem published_rising (room : linked.toNat + acts.length < 2 ^ 64)
    (ran : run (step cfg) (start linked) acts = some s) :
    (published cfg linked acts).Pairwise (· < ·) := by
  suffices reached : run (step cfg) (start linked) acts = some s ∧
      (linked.toNat + acts.length < 2 ^ 64 → Drawn linked acts (published cfg linked acts) s) from
    (reached.2 room).rising
  refine run_history (P := fun past m => run (step cfg) (start linked) past = some m ∧
    (linked.toNat + past.length < 2 ^ 64 →
      Drawn linked past (published cfg linked past) m)) ?_ ?_ ran
  · refine ⟨rfl, fun _ => ⟨Nat.le_refl _, .nil, ?_, fun sample publishing => nomatch publishing⟩⟩
    intro sample member
    cases member
  · rintro past m a t ⟨before, drawn⟩ stepped
    refine ⟨run_concat_eq_some.mpr ⟨m, before, stepped⟩, fun room => ?_⟩
    have earlier : linked.toNat + past.length < 2 ^ 64 := by
      rw [List.length_append] at room
      omega
    rw [published_concat before stepped]
    exact drawn_step room (drawn earlier) stepped

end Order

/-- **No message is read twice or out of order.** However the two threads race,
and whatever fails or is dropped, the numbers the subscriber reads rise, and they
are numbers that were published. Where nothing was dropped, they and those still
in the channel are all of them. -/
theorem taken_in_order (cfg : Config) (linked : UInt64) (acts : List Action) (s : State)
    (ran : run (step cfg) (start linked) acts = some s)
    (room : linked.toNat + acts.length < 2 ^ 64) :
    (taken cfg linked acts).Pairwise (· < ·) ∧
      (taken cfg linked acts).Sublist (published cfg linked acts) ∧
        (drops acts = 0 → taken cfg linked acts ++ s.channel = published cfg linked acts) := by
  have among := taken_sublist ran
  have read := (List.sublist_append_left _ _).trans among
  refine ⟨(published_rising room ran).sublist read, read, fun lossless => ?_⟩
  refine among.eq_of_length ?_
  rw [List.length_append, length_taken ran, length_published ran, published_eq ran, lossless,
    Nat.add_zero]

/-- A failed write costs its number, and the numbers read rise over the gap. -/
theorem taken_in_order_gap :
    [1, 3].Pairwise (· < · : UInt64 → UInt64 → Prop) ∧ [1, 3].Sublist ([1, 3] : List UInt64) ∧
      (0 = 0 → [1, 3] ++ [] = ([1, 3] : List UInt64)) :=
  taken_in_order ⟨.cyclone, true, false⟩ 0
    [.readStop, .readInFlight, .publish, .addCredit, .iterate, .take, .readStop, .readInFlight,
      .fail .write, .readStop, .readInFlight, .publish, .loadInFlight, .exchange, .take]
    { seq := 3, pub := .credit, sub := .load (.drain 1) } (by decide) (by decide)

end MiddlewareBench.Bench.MtOneWay
