import MiddlewareBench.Bench.MtOneWay
import MiddlewareBench.Lib.CreditWindow

/-!
# The credits of the multithreaded one-way benches

`in_flight` counts the credits that are out, but the publisher adds one only
after its message can be taken, and the subscriber returns one only if it finds
any. `step_simulates` relates a state to the leaky credit window it stands for:
a message holds its credit from the publish on, and a dropped message or a
skipped decrement leaks it. What the window says of its runs then holds of
every interleaving.
-/

namespace MiddlewareBench.Bench.MtOneWay

open Runs CreditWindow

/-- The window of credits a state stands for. -/
structure Tracks (s : State) (w : Window 2) : Prop where
  spent : s.inFlight + s.pub.owed = w.spent
  outstanding : s.channel.length + s.sub.held = w.outstanding
  nonneg : 0 ≤ s.inFlight
  checked : ∀ sample, s.pub = .publish sample → s.inFlight < maxInFlight

/-- What an action means for the credits. -/
def credits : Action → List CreditWindow.Action
  | .publish => [.acquire]
  | .exchange => [.release]
  | .drop _ => [.leak]
  | .skip => [.leak]
  | _ => []

/-- The subscriber's moves between two messages touch no credit. -/
theorem credits_silent {a : Action}
    (silent : a ∈ [.iterate, .leave, .pollEmpty, .giveUp, .setStop]) : credits a = [] := by
  simp only [List.mem_cons, List.not_mem_nil, or_false] at silent
  rcases silent with rfl | rfl | rfl | rfl | rfl <;> rfl

/-- How many messages of a run were dropped, or taken and their decrement skipped. -/
def losses (acts : List Action) : Nat := (acts.flatMap credits).count .leak

theorem tracks_start (linked : UInt64) : Tracks (start linked) (.full 2) where
  spent := rfl
  outstanding := rfl
  nonneg := Int.le_refl 0
  checked := fun _ publishing => nomatch publishing

/-- An action that moves a thread without touching a credit. -/
theorem Tracks.move {s t : State} {w : Window 2} (tracks : Tracks s w)
    (inFlight : t.inFlight = s.inFlight) (owed : t.pub.owed = s.pub.owed)
    (outstanding : t.channel.length + t.sub.held = s.channel.length + s.sub.held)
    (checked : ∀ sample, t.pub = .publish sample → t.inFlight < maxInFlight) :
    ∃ v, run CreditWindow.step w [] = some v ∧ Tracks t v := by
  refine ⟨w, rfl, ?_, ?_, ?_, checked⟩
  · rw [inFlight, owed, tracks.spent]
  · rw [outstanding, tracks.outstanding]
  · rw [inFlight]
    exact tracks.nonneg

/-- **Refinement.** Every step of the bench is a step of its credit window, or
none. -/
theorem step_simulates (cfg : Config) :
    Simulates (step cfg) CreditWindow.step credits Tracks := by
  intro s a t w tracks stepped
  have ⟨spent, outstanding, nonneg, checked⟩ := tracks
  unfold Window.spent at spent
  cases step_cases stepped with
  | readStop pub =>
      refine tracks.move rfl ?_ rfl fun sample publishing => ?_
      · rw [pub]
        cases s.stop <;> rfl
      · cases stopped : s.stop <;> simp [stopped] at publishing
  | refused pub full =>
      exact tracks.move rfl (by rw [pub]; rfl) rfl fun _ other => nomatch other
  | granted pub below => exact tracks.move rfl (by rw [pub]; rfl) rfl fun _ _ => below
  | publish sample pub =>
      -- let through below the limit, and only the publisher adds credits
      have below := checked sample pub
      simp only [pub, PubPc.owed, maxInFlight] at spent below
      obtain ⟨v, acquired, more, same⟩ := exists_acquire (w := w) (by rw [Window.spent]; omega)
      refine ⟨v, run_singleton.mpr acquired, ?_, ?_, nonneg, fun _ other => nomatch other⟩
      · simp only [Window.spent, PubPc.owed]
        omega
      · simp only [List.length_append, List.length_singleton]
        omega
  | fail sample failure pc pub next =>
      refine tracks.move rfl ?_ rfl fun sample again => ?_
      · rw [pub]
        rcases next with rfl | rfl <;> rfl
      · rcases next with rfl | rfl <;> cases again
  | addCredit pub =>
      simp only [pub, PubPc.owed] at spent
      refine ⟨w, rfl, ?_, outstanding, ?_, fun _ other => nomatch other⟩
      · simp only [Window.spent, PubPc.owed]
        omega
      · dsimp only
        omega
  | drop i lossy there =>
      obtain ⟨v, leaked, less, more⟩ := exists_leak (w := w) (by omega)
      refine ⟨v, run_singleton.mpr leaked, ?_, ?_, nonneg, checked⟩
      · simp only [Window.spent]
        omega
      · simp only [List.length_eraseIdx_of_lt there]
        omega
  | between a pc stop silent idle still =>
      rw [credits_silent silent]
      exact tracks.move rfl rfl (by rw [idle, still]) checked
  | take at' sample channel sub queued =>
      refine tracks.move rfl rfl ?_ checked
      rw [sub, queued]
      rfl
  | loadInFlight at' sub => exact tracks.move rfl rfl (by rw [sub]; rfl) checked
  | exchange at' sub positive =>
      simp only [sub, SubPc.held] at outstanding
      obtain ⟨v, released, less, same⟩ := exists_release (w := w) (by omega)
      refine ⟨v, run_singleton.mpr released, ?_, ?_, ?_, fun sample publishing => ?_⟩
      · simp only [Window.spent]
        omega
      · simp only [held_next]
        omega
      · dsimp only
        omega
      · have below := checked sample publishing
        dsimp only
        omega
  | exchangeFails at' cur sub => exact tracks.move rfl rfl (by rw [sub]; rfl) checked
  | skip at' cur sub none =>
      simp only [sub, SubPc.held] at outstanding
      obtain ⟨v, leaked, less, more⟩ := exists_leak (w := w) (by omega)
      refine ⟨v, run_singleton.mpr leaked, ?_, ?_, nonneg, checked⟩
      · simp only [Window.spent]
        omega
      · simp only [held_next]
        omega

/-! ## Losses -/

theorem losses_eq_zero_iff {acts : List Action} :
    losses acts = 0 ↔ .skip ∉ acts ∧ ∀ i, .drop i ∉ acts := by
  rw [losses, List.count_eq_zero, List.mem_flatMap]
  refine ⟨?_, ?_⟩
  · intro none
    exact ⟨fun skipped => none ⟨.skip, skipped, List.mem_singleton_self _⟩,
      fun i dropped => none ⟨.drop i, dropped, List.mem_singleton_self _⟩⟩
  · intro none leaking
    rcases none with ⟨noSkip, noDrop⟩
    rcases leaking with ⟨a, taken, leaks⟩
    cases a with
    | skip => exact noSkip taken
    | drop i => exact noDrop i taken
    | _ => simp [credits] at leaks

/-- A channel that is not lossy drops nothing. -/
theorem not_dropped {harness : Harness} {reliable : Bool} {s t : State} {acts : List Action}
    (ran : run (step ⟨harness, reliable, false⟩) s acts = some t) (i : Nat) :
    .drop i ∉ acts := by
  refine run_history (P := fun past _ => .drop i ∉ past) (List.not_mem_nil) ?_ ran
  intro past m a t before stepped dropped
  rcases List.mem_append.mp dropped with earlier | now
  · exact before earlier
  · cases List.mem_singleton.mp now
    cases step_cases stepped with
    | drop i lossy there => cases lossy
    | between a pc stop silent idle still => simp at silent

/-- What a run has done to the window it started with. -/
theorem run_tracks {cfg : Config} {linked : UInt64} {acts : List Action} {s : State}
    (ran : run (step cfg) (start linked) acts = some s) :
    ∃ w, Tracks s w ∧ w.leaked = losses acts := by
  obtain ⟨w, followed, tracks⟩ := (step_simulates cfg).run (tracks_start linked) ran
  exact ⟨w, tracks, (CreditWindow.run_leaked followed).trans (Nat.zero_add _)⟩

theorem owed_of_atHead {s : State} (head : AtHead s) : s.pub.owed = 0 := by
  rcases head with pub | pub <;> rw [pub] <;> rfl

theorem owed_eq_zero {pc : PubPc} (notOwing : pc ≠ .credit) : pc.owed = 0 := by
  cases pc with
  | credit => exact absurd rfl notOwing
  | _ => rfl

/-- While the subscriber holds a message and finds no credit, none has leaked: the
only credit out is one the publisher has yet to add. -/
theorem Tracks.leaked_eq_zero {s : State} {w : Window 2} (tracks : Tracks s w)
    (holding : s.sub.held = 1) (none : s.inFlight ≤ 0) : w.leaked = 0 := by
  have spent := tracks.spent
  have outstanding := tracks.outstanding
  unfold Window.spent at spent
  have owed : s.pub.owed ≤ 1 := by cases s.pub <;> simp [PubPc.owed]
  omega

/-- On a lossless channel at most one credit is lost, and none while the
subscriber is about to skip a decrement. -/
structure Slack (s : State) (w : Window 2) : Prop where
  tracks : Tracks s w
  leaked : w.leaked ≤ 1
  skipping : ∀ at' cur, s.sub = .cas at' cur → cur ≤ 0 → w.leaked = 0

/-- Between two messages nothing can be skipped. -/
theorem Slack.of_held {s : State} {w : Window 2} (tracks : Tracks s w) (leaked : w.leaked ≤ 1)
    (none : s.sub.held = 0) : Slack s w := by
  refine ⟨tracks, leaked, fun at' cur sub => ?_⟩
  rw [sub] at none
  cases none

/-- A decrement that is about to be skipped is one that found no credit. -/
theorem Slack.of_load {s : State} {w : Window 2} (tracks : Tracks s w) (leaked : w.leaked ≤ 1)
    {at' : Poll} (sub : s.sub = .cas at' s.inFlight) : Slack s w := by
  refine ⟨tracks, leaked, fun at'' cur sub' none => ?_⟩
  rw [sub] at sub'
  cases sub'
  exact tracks.leaked_eq_zero (by rw [sub]; rfl) none

theorem Slack.step {harness : Harness} {reliable : Bool} {s t : State} {w : Window 2}
    {a : Action} (slack : Slack s w) (stepped : step ⟨harness, reliable, false⟩ s a = some t) :
    ∃ v, Slack t v := by
  rcases slack with ⟨tracks, leaked, skipping⟩
  obtain ⟨v, followed, tracked⟩ := step_simulates _ s a t w tracks stepped
  have lost : v.leaked = w.leaked + (credits a).count .leak := CreditWindow.run_leaked followed
  refine ⟨v, ?_⟩
  cases step_cases stepped with
  | readStop | refused | granted | publish | fail | addCredit =>
      have same : v.leaked = w.leaked := lost
      exact ⟨tracked, same ▸ leaked, same ▸ skipping⟩
  | drop i lossy there => cases lossy
  | between a pc stop silent idle still =>
      rw [credits_silent silent] at lost
      exact .of_held tracked (lost ▸ leaked) still
  | take at' sample channel sub queued =>
      have same : v.leaked = w.leaked := lost
      exact ⟨tracked, same ▸ leaked, fun _ _ other => nomatch other⟩
  | loadInFlight at' sub => exact .of_load tracked (lost ▸ leaked) rfl
  | exchange at' sub positive => exact .of_held tracked (lost ▸ leaked) (held_next at')
  | exchangeFails at' cur sub => exact .of_load tracked (lost ▸ leaked) rfl
  | skip at' cur sub none =>
      rw [skipping at' cur sub none] at lost
      exact .of_held tracked (Nat.le_of_eq lost) (held_next at')

theorem run_slack {harness : Harness} {reliable : Bool} {linked : UInt64} {acts : List Action}
    {s : State} (ran : run (step ⟨harness, reliable, false⟩) (start linked) acts = some s) :
    ∃ w, Slack s w := by
  refine run_invariant (P := fun m => ∃ w, Slack m w) ?_ ?_ ran
  · exact ⟨_, .of_held (tracks_start linked) (Nat.zero_le 1) rfl⟩
  · intro m a t ⟨w, slack⟩ stepped
    exact slack.step stepped

/-! ## What holds of every interleaving -/

/-- **At most two messages are outstanding**, in every harness, on every
channel, in every interleaving. -/
theorem channel_length_le (cfg : Config) (linked : UInt64) (acts : List Action) (s : State)
    (ran : run (step cfg) (start linked) acts = some s) :
    (s.channel.length : Int) ≤ maxInFlight := by
  obtain ⟨w, tracks, -⟩ := run_tracks ran
  have outstanding := tracks.outstanding
  have bound := w.outstanding_le
  rw [maxInFlight]
  omega

/-- Both credits used: two messages in the channel. -/
theorem channel_length_le_two_published :
    (([1, 2] : List UInt64).length : Int) ≤ maxInFlight :=
  channel_length_le ⟨.subspace, false, true⟩ 0
    [.readStop, .readInFlight, .publish, .addCredit, .readStop, .readInFlight, .publish]
    { inFlight := 1, seq := 2, channel := [1, 2], pub := .credit } (by decide)

/-- **The credits of a lossless channel.** Between two iterations `in_flight` is
the number of messages published and not yet taken exactly when no decrement of
the run was skipped. -/
theorem inFlight_eq_iff (harness : Harness) (reliable : Bool) (linked : UInt64)
    (acts : List Action) (s : State)
    (ran : run (step ⟨harness, reliable, false⟩) (start linked) acts = some s) (quiet : Quiet s) :
    s.inFlight = s.channel.length ↔ .skip ∉ acts := by
  obtain ⟨w, tracks, lost⟩ := run_tracks ran
  rcases quiet with ⟨notOwing, idle⟩
  have spent := tracks.spent
  have outstanding := tracks.outstanding
  rw [owed_eq_zero notOwing] at spent
  rw [idle] at outstanding
  have usable : s.inFlight = s.channel.length ↔ w.spent = w.outstanding := by omega
  rw [usable, w.outstanding_eq_spent_iff, lost, losses_eq_zero_iff]
  exact and_iff_left (not_dropped ran)

/-- One message published and its credit added. -/
theorem inFlight_eq_published : (1 : Int) = ([1] : List UInt64).length :=
  (inFlight_eq_iff .zenoh true 0 [.readStop, .readInFlight, .publish, .addCredit]
    { inFlight := 1, seq := 1, channel := [1] } (by decide) (by decide)).mpr (by decide)

/-- A message taken, and its decrement skipped, before its credit was added: the
credit stays out with nothing in the channel. -/
theorem inFlight_ne_skipped :
    ∃ s, run (step ⟨.cyclone, true, false⟩) (start 0)
        [.readStop, .readInFlight, .publish, .iterate, .take, .loadInFlight, .skip, .addCredit] =
          some s ∧
      Quiet s ∧ s.inFlight ≠ s.channel.length :=
  ⟨{ inFlight := 1, seq := 1, sub := .poll (.drain 1) }, by decide, by decide, by decide⟩

/-- A run is wedged at the loop head exactly when it has lost both credits. -/
theorem wedged_iff {cfg : Config} {linked : UInt64} {acts : List Action} {s : State}
    (ran : run (step cfg) (start linked) acts = some s) :
    Wedged s ↔ AtHead s ∧ 2 ≤ losses acts := by
  obtain ⟨w, tracks, lost⟩ := run_tracks ran
  have spent := tracks.spent
  have outstanding := tracks.outstanding
  have room := w.room
  unfold Window.spent at spent
  rw [← lost]
  refine ⟨?_, ?_⟩
  · intro wedged
    rcases wedged with ⟨head, refused, empty, idle⟩
    rw [owed_of_atHead head] at spent
    rw [empty, idle, List.length_nil] at outstanding
    rw [maxInFlight] at refused
    exact ⟨head, by omega⟩
  · intro lost
    rcases lost with ⟨head, both⟩
    rw [owed_of_atHead head] at spent
    refine ⟨head, ?_, List.length_eq_zero_iff.mp (by omega), by omega⟩
    rw [maxInFlight]
    omega

/-- **When the unreliable bench does not wedge**: as long as at most one message
of the run was dropped, or taken and its decrement skipped. At the second such
loss it does, as soon as the publisher is at its loop head. -/
theorem not_wedged_iff (harness : Harness) (linked : UInt64) (acts : List Action) (s : State)
    (ran : run (step ⟨harness, false, true⟩) (start linked) acts = some s) :
    ¬ Wedged s ↔ (AtHead s → losses acts ≤ 1) := by
  rw [wedged_iff ran, not_and, Nat.not_le, Nat.lt_succ_iff]

/-- One dropped message does not wedge the bench. -/
theorem not_wedged_one_drop :
    ¬ Wedged { inFlight := 1, seq := 1 } :=
  (not_wedged_iff .zenoh 0 [.readStop, .readInFlight, .publish, .addCredit, .drop 0]
    { inFlight := 1, seq := 1 } (by decide)).mpr (by decide)

/-- Two do. -/
theorem wedged_two_drops :
    ∃ s, run (step ⟨.zenoh, false, true⟩) (start 0)
        [.readStop, .readInFlight, .publish, .addCredit, .drop 0,
          .readStop, .readInFlight, .publish, .addCredit, .drop 0] = some s ∧ Wedged s :=
  ⟨{ inFlight := 2, seq := 2 }, by decide, by decide⟩

/-- **The reliable bench never wedges**: a lossless channel loses at most one of
its two credits. -/
theorem reliable_not_wedged (harness : Harness) (linked : UInt64) (acts : List Action) (s : State)
    (ran : run (step ⟨harness, true, false⟩) (start linked) acts = some s) : ¬ Wedged s := by
  obtain ⟨w, tracks, leaked, -⟩ := run_slack ran
  intro wedged
  rcases wedged with ⟨head, refused, empty, idle⟩
  have spent := tracks.spent
  have outstanding := tracks.outstanding
  rw [Window.spent, owed_of_atHead head] at spent
  rw [empty, idle, List.length_nil] at outstanding
  rw [maxInFlight] at refused
  omega

/-- A credit lost to a skipped decrement, and the other one in use. -/
theorem reliable_not_wedged_skipped :
    ¬ Wedged { inFlight := 2, seq := 2, channel := [2], sub := .poll (.drain 1) } :=
  reliable_not_wedged .cyclone 0
    [.readStop, .readInFlight, .publish, .iterate, .take, .loadInFlight, .skip, .addCredit,
      .readStop, .readInFlight, .publish, .addCredit]
    { inFlight := 2, seq := 2, channel := [2], sub := .poll (.drain 1) } (by decide)

end MiddlewareBench.Bench.MtOneWay
