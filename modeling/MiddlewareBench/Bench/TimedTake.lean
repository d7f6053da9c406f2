import Mathlib.Algebra.Field.Rat
import Mathlib.Algebra.Order.BigOperators.Group.List
import Mathlib.Algebra.Order.Ring.Nat
import MiddlewareBench.Bench.MtOneWay
import MiddlewareBench.Vsomeip.Common

/-!
# The timed take of the one-way benches

`TakeOne` of `cyclone_bench.cc`, `RecvOne` of `zenoh_bench.cc` and the timed loop of
`RunMtOneWay` in `subspace_bench.cc`, each of which polls until there is a sample, and
`MtTakeStats`, which is told whether that sample was already waiting. Two harnesses
tell it by the first poll. The third tells it by whether it has waited, which it does
only after 65 empty polls (`sameFlag_iff`).
-/

namespace MiddlewareBench.Bench.TimedTake

open Vsomeip

/-! ## Polls -/

inductive Polled
  | error
  | empty
  /-- a message without valid data -/
  | invalid
  | sample (sendNs : UInt64)
  deriving DecidableEq, Repr

/-- What may come before a poll: a look at the clock at the head of the loop, and a
wait. `waitNs` is the time between the two readings of the clock around the wait. The
waits lie before a deadline of seconds, so their sum does not wrap. -/
structure Pause where
  now : Nat
  waitNs : Nat
  ok : Bool
  deriving DecidableEq, Repr

/-- How a take ends; `polling` is a take that has used up the polls it was given. -/
inductive Outcome
  | taken (sendNs : UInt64) (wasQueued : Bool) (waitNs : Nat)
  | failed
  | polling
  deriving DecidableEq, Repr

/-! ## Cyclone and Zenoh -/

/-- The loops of `TakeOne` and `RecvOne`, about to make poll `j`. -/
def waitLoop (errorEnds : Bool) (deadline : Nat) (pause : Nat → Pause) (j waitNs : Nat) :
    List Polled → Outcome
  | [] => .polling
  | polled :: polls =>
    if (pause j).now < deadline then
      let waitNs := waitNs + (pause j).waitNs
      match polled with
      | .sample sendNs => .taken sendNs false waitNs
      | .error =>
        if errorEnds then .failed else waitLoop errorEnds deadline pause (j + 1) waitNs polls
      | .empty | .invalid => waitLoop errorEnds deadline pause (j + 1) waitNs polls
    else .failed

/-- `start` is the time after the first poll. -/
def takeOne (timeoutMs start : Nat) (pause : Nat → Pause) : List Polled → Outcome
  | [] => .polling
  | .error :: _ => .failed
  | .sample sendNs :: _ => .taken sendNs true 0
  | .empty :: polls | .invalid :: polls =>
    waitLoop true (start + timeoutMs * 1000000) pause 1 0 polls

/-- A channel that is closed looks empty. -/
def recvOne (timeoutMs start : Nat) (pause : Nat → Pause) : List Polled → Outcome
  | [] => .polling
  | .sample sendNs :: _ => .taken sendNs true 0
  | .error :: polls | .empty :: polls | .invalid :: polls =>
    waitLoop false (start + timeoutMs * 1000000) pause 1 0 polls

/-! ## Subspace -/

def spinLimit : Nat := 64

/-- The timed loop, about to make poll `j`. After an empty poll at the head of the loop
up to 64 more follow at once, of which `spins` are left. -/
def timedLoop (reliable : Bool) (deadline : Nat) (pause : Nat → Pause) (j spins waitNs : Nat) :
    List Polled → Outcome
  | [] => .polling
  | .error :: _ | .invalid :: _ => .failed
  | .sample sendNs :: _ => .taken sendNs (waitNs == 0) waitNs
  | .empty :: polls =>
    match spins with
    | spins + 1 => timedLoop reliable deadline pause (j + 1) spins waitNs polls
    | 0 =>
      -- `Wait` can fail, `yield` cannot
      if reliable ∧ (pause (j + 1)).ok = false then .failed
      else if (pause (j + 1)).now < deadline then
        timedLoop reliable deadline pause (j + 1) spinLimit (waitNs + (pause (j + 1)).waitNs) polls
      else .failed

/-- `start` is the time before the first look at the clock. -/
def timedTake (reliable : Bool) (start : Nat) (pause : Nat → Pause) (polls : List Polled) :
    Outcome :=
  let deadline := start + 2000000000
  if (pause 0).now < deadline then timedLoop reliable deadline pause 0 spinLimit 0 polls
  else .failed

/-! ## The counters -/

structure MtTakeStats where
  n : Nat := 0
  nQueued : Nat := 0
  sumE2eSec : Double := 0
  sumQueuedE2eSec : Double := 0
  sumFreshE2eSec : Double := 0
  sumWaitSec : Double := 0

namespace MtTakeStats

def record (stats : MtTakeStats) (e2eSec : Double) (wasQueued : Bool) (waitSec : Double) :
    MtTakeStats :=
  let stats := { stats with
    n := stats.n + 1
    sumE2eSec := stats.sumE2eSec + e2eSec
    sumWaitSec := stats.sumWaitSec + waitSec }
  if wasQueued then
    { stats with
      nQueued := stats.nQueued + 1
      sumQueuedE2eSec := stats.sumQueuedE2eSec + e2eSec }
  else { stats with sumFreshE2eSec := stats.sumFreshE2eSec + e2eSec }

/-- The counters of `Report`, those that are set. -/
structure Counters where
  queuedPct : Double
  waitNs : Double
  queuedLatNs : Option Double
  freshLatNs : Option Double

def report (stats : MtTakeStats) : Option Counters :=
  if stats.n = 0 then none
  else
    let nFresh := stats.n - stats.nQueued
    some {
      queuedPct := 100 * stats.nQueued / stats.n
      waitNs := stats.sumWaitSec / stats.n * 1000000000
      queuedLatNs :=
        if stats.nQueued > 0 then some (stats.sumQueuedE2eSec / stats.nQueued * 1000000000)
        else none
      freshLatNs :=
        if nFresh > 0 then some (stats.sumFreshE2eSec / nFresh * 1000000000) else none }

end MtTakeStats

/-! ## An iteration of the benchmark loop -/

/-- The samples that were drained, how many of the timed polls were empty before the
one that returned a sample, and how the time went. -/
structure Iteration where
  drainedE2eSec : List Double := []
  empties : Nat
  sendNs : UInt64
  start : Nat
  pause : Nat → Pause
  e2eSec : Double

namespace Iteration

def polls (it : Iteration) : List Polled :=
  List.replicate it.empties .empty ++ [.sample it.sendNs]

/-- The sample comes before the deadline, no wait fails and each takes time. -/
structure Timely (it : Iteration) : Prop where
  early : ∀ j ≤ it.empties, (it.pause j).now < it.start + 2000000000
  waits : ∀ j ≤ it.empties, 1 ≤ (it.pause j).waitNs
  ok : ∀ j ≤ it.empties, (it.pause j).ok = true

end Iteration

/-- The timed take of `RunMtOneWay`. -/
def take (harness : Harness) (reliable : Bool) (it : Iteration) : Outcome :=
  match harness with
  | .cyclone => takeOne 2000 it.start it.pause it.polls
  | .zenoh => recvOne 2000 it.start it.pause it.polls
  | .subspace => timedTake reliable it.start it.pause it.polls

/-- An iteration records what it has drained and what it has timed. -/
def iterate (harness : Harness) (reliable : Bool) (stats : MtTakeStats) (it : Iteration) :
    MtTakeStats :=
  let stats := it.drainedE2eSec.foldl (fun stats e2eSec => stats.record e2eSec true 0) stats
  match take harness reliable it with
  | .taken _ wasQueued waitNs => stats.record it.e2eSec wasQueued (waitNs / 1000000000)
  | _ => stats

/-! ## What is called queued -/

/-- What a harness says of a sample after so many empty polls (`take_eq`). -/
def flag (harness : Harness) (empties : Nat) : Bool :=
  match harness with
  | .cyclone | .zenoh => empties = 0
  | .subspace => empties ≤ spinLimit

section Loops

variable {deadline last j spins waitNs n : Nat} {pause : Nat → Pause} {sendNs : UInt64}
  {errorEnds reliable : Bool}

theorem waitLoop_replicate (early : ∀ k ≤ last, (pause k).now < deadline)
    (within : j + n ≤ last) :
    ∃ total, waitLoop errorEnds deadline pause j waitNs
      (List.replicate n .empty ++ [.sample sendNs]) = .taken sendNs false total := by
  induction n generalizing j waitNs with
  | zero =>
      rw [List.replicate_zero, List.nil_append, waitLoop, if_pos (early j within)]
      exact ⟨_, rfl⟩
  | succ n ih =>
      rw [List.replicate_succ, List.cons_append, waitLoop, if_pos (early j (by omega))]
      exact ih (by omega)

/-- A take that calls the sample of its first poll queued, and else waits. -/
theorem firstPoll_replicate {run : List Polled → Outcome}
    (early : ∀ k ≤ n, (pause k).now < deadline)
    (first : run [.sample sendNs] = .taken sendNs true 0)
    (rest : ∀ polls, run (.empty :: polls) = waitLoop errorEnds deadline pause 1 0 polls) :
    ∃ total, run (List.replicate n .empty ++ [.sample sendNs]) =
      .taken sendNs (decide (n = 0)) total := by
  cases n with
  | zero => exact ⟨0, first⟩
  | succ n =>
      rw [List.replicate_succ, List.cons_append, rest]
      exact waitLoop_replicate early (by omega)

/-- The total stays zero as long as the spins last. -/
theorem timedLoop_replicate (early : ∀ k ≤ last, (pause k).now < deadline)
    (waits : ∀ k ≤ last, 1 ≤ (pause k).waitNs) (ok : ∀ k ≤ last, (pause k).ok = true)
    (within : j + n ≤ last) :
    ∃ total, timedLoop reliable deadline pause j spins waitNs
      (List.replicate n .empty ++ [.sample sendNs]) = .taken sendNs (total == 0) total ∧
        (total = 0 ↔ waitNs = 0 ∧ n ≤ spins) := by
  induction n generalizing j spins waitNs with
  | zero =>
      refine ⟨waitNs, ?_, by simp⟩
      rw [List.replicate_zero, List.nil_append, timedLoop]
  | succ n ih =>
      have next : j + 1 ≤ last := by omega
      rw [List.replicate_succ, List.cons_append]
      cases spins with
      | succ spins =>
          obtain ⟨total, took, zero⟩ := @ih (j + 1) spins waitNs (by omega)
          refine ⟨total, ?_, ?_⟩
          · rw [timedLoop]
            exact took
          · rw [zero, Nat.succ_le_succ_iff]
      | zero =>
          obtain ⟨total, took, zero⟩ :=
            @ih (j + 1) spinLimit (waitNs + (pause (j + 1)).waitNs) (by omega)
          refine ⟨total, ?_, ?_⟩
          · rw [timedLoop, if_neg (by simp [ok (j + 1) next]), if_pos (early (j + 1) next)]
            exact took
          · have waited := waits (j + 1) next
            rw [zero]
            omega

end Loops

variable {harness : Harness} {reliable : Bool}

theorem take_eq {it : Iteration} (timely : it.Timely) : ∃ waitNs,
    take harness reliable it = .taken it.sendNs (flag harness it.empties) waitNs := by
  rcases timely with ⟨early, waits, ok⟩
  cases harness with
  | cyclone =>
      exact @firstPoll_replicate _ it.empties it.pause it.sendNs true
        (takeOne 2000 it.start it.pause) early rfl fun _ => rfl
  | zenoh =>
      exact @firstPoll_replicate _ it.empties it.pause it.sendNs false
        (recvOne 2000 it.start it.pause) early rfl fun _ => rfl
  | subspace =>
      obtain ⟨total, took, zero⟩ := @timedLoop_replicate (it.start + 2000000000) it.empties 0
        spinLimit 0 it.empties it.pause it.sendNs reliable early waits ok (by omega)
      have same : (total == 0) = decide (it.empties ≤ spinLimit) := by
        rw [beq_eq_decide, decide_eq_decide, zero]
        simp
      refine ⟨total, ?_⟩
      unfold take timedTake flag Iteration.polls
      rw [if_pos (early 0 (Nat.zero_le _)), took, same]

theorem flag_eq_first (n : Nat) :
    (∀ harness, flag harness n = decide (n = 0)) ↔ n = 0 ∨ spinLimit < n := by
  refine ⟨?_, ?_⟩
  · intro same
    have spun := decide_eq_decide.mp (same .subspace)
    omega
  · intro outside harness
    cases harness with
    | cyclone => rfl
    | zenoh => rfl
    | subspace =>
        apply decide_eq_decide.mpr
        unfold spinLimit at outside ⊢
        omega

/-- **When the harnesses agree.** After the same polls, all three take the sample and
say that it was waiting if and only if the first poll returned it, precisely when no
poll was empty or more than 64 were. -/
theorem sameFlag_iff (reliable : Bool) (n : Nat) (sendNs : UInt64) (its : Harness → Iteration)
    (same : ∀ harness, (its harness).empties = n ∧ (its harness).sendNs = sendNs)
    (timely : ∀ harness, (its harness).Timely) :
    (∀ harness, ∃ waitNs,
      take harness reliable (its harness) = .taken sendNs (decide (n = 0)) waitNs) ↔
        n = 0 ∨ spinLimit < n := by
  rw [← flag_eq_first]
  refine ⟨?_, ?_⟩
  · intro agree harness
    obtain ⟨waitNs, took⟩ := agree harness
    obtain ⟨waitNs', took'⟩ := @take_eq harness reliable _ (timely harness)
    rw [took, (same harness).1] at took'
    exact (Outcome.taken.inj took').2.1.symm
  · intro agree harness
    obtain ⟨waitNs, took⟩ := @take_eq harness reliable _ (timely harness)
    rw [(same harness).1, (same harness).2, agree harness] at took
    exact ⟨waitNs, took⟩

/-- An iteration whose waits take a nanosecond each. -/
def afterEmpties (n : Nat) : Iteration where
  empties := n
  sendNs := 7
  start := 0
  pause := fun _ => ⟨0, 1, true⟩
  e2eSec := 1

theorem timely_afterEmpties (n : Nat) : (afterEmpties n).Timely where
  early _ _ := by simp [afterEmpties]
  waits _ _ := Nat.le_refl 1
  ok _ _ := rfl

theorem sameFlag_iff_waited : ∃ waitNs,
    take .subspace true (afterEmpties 65) = .taken 7 (decide (65 = 0)) waitNs :=
  (sameFlag_iff true 65 7 (fun _ => afterEmpties 65) (fun _ => ⟨rfl, rfl⟩)
    fun _ => timely_afterEmpties 65).mpr (.inr (by decide)) .subspace

/-- A sample that the first spin finds was not there when the subscriber looked. -/
theorem not_sameFlag_spun : (afterEmpties 1).Timely ∧ ¬ ∀ harness, ∃ waitNs,
    take harness true (afterEmpties 1) = .taken 7 (decide (1 = 0)) waitNs := by
  refine ⟨timely_afterEmpties 1, ?_⟩
  intro agree
  obtain ⟨waitNs, took⟩ := agree .subspace
  obtain ⟨waitNs', spun⟩ := @take_eq .subspace true _ (timely_afterEmpties 1)
  rw [took] at spun
  exact absurd (Outcome.taken.inj spun).2.1 (by decide)

/-! ## The counters of a run -/

/-- What a run has recorded. -/
def stats (harness : Harness) (reliable : Bool) (its : List Iteration) : MtTakeStats :=
  its.foldl (iterate harness reliable) {}

/-- What an iteration adds to `n_queued`. -/
def queued (harness : Harness) (it : Iteration) : Nat :=
  it.drainedE2eSec.length + (flag harness it.empties).toNat

section Counters

variable {harness : Harness} {reliable : Bool}

theorem n_record (stats : MtTakeStats) (e2eSec waitSec : Double) (wasQueued : Bool) :
    (stats.record e2eSec wasQueued waitSec).n = stats.n + 1 ∧
      (stats.record e2eSec wasQueued waitSec).nQueued = stats.nQueued + wasQueued.toNat := by
  unfold MtTakeStats.record
  cases wasQueued <;> exact ⟨rfl, rfl⟩

theorem n_drained (stats : MtTakeStats) (drained : List Double) :
    let after := drained.foldl (fun stats e2eSec => stats.record e2eSec true 0) stats
    after.n = stats.n + drained.length ∧ after.nQueued = stats.nQueued + drained.length := by
  induction drained generalizing stats with
  | nil => exact ⟨rfl, rfl⟩
  | cons e2eSec drained ih =>
      obtain ⟨one, oneQueued⟩ := n_record stats e2eSec 0 true
      obtain ⟨rest, restQueued⟩ := ih (stats.record e2eSec true 0)
      rw [one] at rest
      rw [oneQueued] at restQueued
      refine ⟨?_, ?_⟩
      · rw [List.foldl_cons, rest, List.length_cons]
        omega
      · rw [List.foldl_cons, restQueued, List.length_cons, Bool.toNat_true]
        omega

theorem n_iterate (stats : MtTakeStats) {it : Iteration} (timely : it.Timely) :
    (iterate harness reliable stats it).n = stats.n + (it.drainedE2eSec.length + 1) ∧
      (iterate harness reliable stats it).nQueued = stats.nQueued + queued harness it := by
  obtain ⟨waitNs, took⟩ := @take_eq harness reliable it timely
  obtain ⟨drained, drainedQueued⟩ := n_drained stats it.drainedE2eSec
  unfold iterate queued
  dsimp only
  rw [took]
  dsimp only
  rw [(n_record _ _ _ _).1, (n_record _ _ _ _).2, drained, drainedQueued]
  exact ⟨Nat.add_assoc .., Nat.add_assoc ..⟩

/-- What a run has counted. -/
theorem n_stats {its : List Iteration} (timely : ∀ it ∈ its, it.Timely) :
    (stats harness reliable its).n = (its.map fun it => it.drainedE2eSec.length + 1).sum ∧
      (stats harness reliable its).nQueued = (its.map (queued harness)).sum := by
  induction its using List.reverseRecOn with
  | nil => exact ⟨rfl, rfl⟩
  | append_singleton its it ih =>
      obtain ⟨before, queuedBefore⟩ := ih fun it' member =>
        timely it' (List.mem_append_left _ member)
      have own := @n_iterate harness reliable (stats harness reliable its) it
        (timely it (List.mem_append_right _ List.mem_cons_self))
      have last : stats harness reliable (its ++ [it]) =
          iterate harness reliable (stats harness reliable its) it := by
        unfold stats
        rw [List.foldl_append]
        rfl
      rw [last, own.1, own.2, before, queuedBefore, List.map_append, List.map_append,
        List.sum_append, List.sum_append, List.map_singleton, List.map_singleton,
        List.sum_singleton, List.sum_singleton]
      exact ⟨rfl, rfl⟩

/-- After as many samples, shares are the same where counts are. -/
theorem queuedPct_report_eq_iff {stats stats' : MtTakeStats} (total : stats.n = stats'.n)
    (le : stats.nQueued ≤ stats.n) (le' : stats'.nQueued ≤ stats'.n) :
    stats.report.map (·.queuedPct) = stats'.report.map (·.queuedPct) ↔
      stats.nQueued = stats'.nQueued := by
  unfold MtTakeStats.report
  rw [total]
  by_cases none : stats'.n = 0
  · rw [if_pos none, if_pos none]
    exact iff_of_true rfl (by omega)
  · rw [if_neg none, if_neg none]
    have some' : (stats'.n : Double) ≠ 0 := Nat.cast_ne_zero.mpr none
    simp only [Option.map_some, Option.some.injEq, div_left_inj' some']
    rw [mul_right_inj' (OfNat.ofNat_ne_zero 100), Nat.cast_inj]

/-- Nothing is counted as queued that the first poll has returned or not found, but
for what Subspace finds while it spins. -/
theorem flag_cyclone_le (n : Nat) : (flag .cyclone n).toNat ≤ (flag .subspace n).toNat := by
  cases n with
  | zero => exact Nat.le_refl 1
  | succ n => exact Nat.zero_le _

theorem flag_subspace_eq_iff (n : Nat) : flag .cyclone n = flag .subspace n ↔
    n = 0 ∨ spinLimit < n := by
  rw [← flag_eq_first]
  refine ⟨?_, ?_⟩
  · intro same harness
    cases harness with
    | cyclone => rfl
    | zenoh => rfl
    | subspace => exact same.symm
  · exact fun first => (first .subspace).symm

/-- **What the published shares say.** After iterations with the same polls, Subspace
publishes the `queued_pct` of Cyclone if and only if it found no sample while spinning. -/
theorem queuedPct_eq_iff (reliable : Bool) (its : List (Harness → Iteration))
    (same : ∀ it ∈ its, (it .subspace).empties = (it .cyclone).empties ∧
      (it .subspace).drainedE2eSec.length = (it .cyclone).drainedE2eSec.length)
    (timely : ∀ it ∈ its, ∀ harness, (it harness).Timely) :
    ((stats .subspace reliable (its.map (· .subspace))).report.map (·.queuedPct) =
      (stats .cyclone reliable (its.map (· .cyclone))).report.map (·.queuedPct)) ↔
        ∀ it ∈ its, (it .cyclone).empties = 0 ∨ spinLimit < (it .cyclone).empties := by
  have counted := fun harness => @n_stats harness reliable (its.map (· harness)) (by
    intro it member
    obtain ⟨it', member', rfl⟩ := List.mem_map.mp member
    exact timely it' member' harness)
  simp only [List.map_map, Function.comp_def] at counted
  have total : (stats .subspace reliable (its.map (· .subspace))).n =
      (stats .cyclone reliable (its.map (· .cyclone))).n := by
    rw [(counted .subspace).1, (counted .cyclone).1]
    exact congrArg List.sum (List.map_congr_left fun it member => by rw [(same it member).2])
  have le_total : ∀ harness, (stats harness reliable (its.map (· harness))).nQueued ≤
      (stats harness reliable (its.map (· harness))).n := by
    intro harness
    rw [(counted harness).1, (counted harness).2]
    exact List.sum_le_sum fun it _ => Nat.add_le_add_left (Bool.toNat_le _) _
  have le : ∀ it ∈ its, queued .cyclone (it .cyclone) ≤ queued .subspace (it .subspace) := by
    intro it member
    unfold queued
    rw [(same it member).1, (same it member).2]
    exact Nat.add_le_add_left (flag_cyclone_le _) _
  have each : (stats .subspace reliable (its.map (· .subspace))).nQueued =
      (stats .cyclone reliable (its.map (· .cyclone))).nQueued ↔
        ∀ it ∈ its, queued .cyclone (it .cyclone) = queued .subspace (it .subspace) := by
    rw [(counted .subspace).2, (counted .cyclone).2]
    refine ⟨?_, ?_⟩
    · intro sums it member
      by_contra other
      have less := List.sum_lt_sum (fun it => queued .cyclone (it .cyclone))
        (fun it => queued .subspace (it .subspace)) le
        ⟨it, member, lt_of_le_of_ne (le it member) other⟩
      exact absurd sums.symm less.ne
    · exact fun all => congrArg List.sum (List.map_congr_left fun it member => (all it member).symm)
  have every : (∀ it ∈ its, (it .cyclone).empties = 0 ∨ spinLimit < (it .cyclone).empties) ↔
      ∀ it ∈ its, queued .cyclone (it .cyclone) = queued .subspace (it .subspace) := by
    refine forall₂_congr fun it member => ?_
    unfold queued
    rw [(same it member).1, (same it member).2, ← flag_subspace_eq_iff, Nat.add_left_cancel_iff]
    cases flag .cyclone (it .cyclone).empties <;> cases flag .subspace (it .cyclone).empties <;>
      simp
  rw [every, ← each]
  exact queuedPct_report_eq_iff total (le_total .subspace) (le_total .cyclone)

end Counters

end MiddlewareBench.Bench.TimedTake
