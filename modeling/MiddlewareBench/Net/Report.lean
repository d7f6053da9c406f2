import MiddlewareBench.Bench.Percentile
import MiddlewareBench.Net.Deployment
import MiddlewareBench.Net.PingAttribution

/-!
# The line of a network run

What `RunPub` prints when it returns, in every order of publishes, echoes, deliveries
and timeouts: nothing when it fails, and otherwise one line for as many half round trips
as were asked for, each timed around an echo of its own request (`net_report`).
-/

namespace MiddlewareBench.Net

open Quantile Runs
open Vsomeip (Double)

/-! ## The line -/

/-- `MeanUs` of `net_common.h`, which is that of `bench_common.h`. -/
def meanUs (us : List Double) : Double := Vsomeip.meanUs us

/-- The numbers that are printed with `%.3f`. -/
inductive Figure
  | mean
  | p50
  | p99
  deriving DecidableEq, Repr

/-- The six fields of the line. -/
structure NetLine where
  stack : String
  size : UInt64
  n : Nat
  meanUs : Double
  p50Us : Double
  p99Us : Double

/-- The line, where `print` is what is written for a number that the program has computed in
floating point. -/
def NetLine.text (print : Figure → Double → String) (line : NetLine) : String :=
  s!"{line.stack},{line.size.toNat},{line.n}," ++
    s!"{print .mean line.meanUs},{print .p50 line.p50Us},{print .p99 line.p99Us}\n"

/-- `none` is an access outside the vector. -/
def printCsv (opt : FullOptions) (halfRttUs : List Double) : Option NetLine := do
  let p50 ← percentileUs halfRttUs (1 / 2)
  let p99 ← percentileUs halfRttUs (99 / 100)
  return {
    stack := opt.stack
    size := opt.size
    n := halfRttUs.length
    meanUs := meanUs halfRttUs
    p50Us := p50
    p99Us := p99 }

/-- What `RunPub` has written to its standard output. -/
def stdout {M : Type} (print : Figure → Double → String) (opt : FullOptions) (s : State M) :
    Option String :=
  match s.pc with
  | .finished => (printCsv opt s.halfUs).map (NetLine.text print)
  | _ => some ""

/-- How many iterations there are. -/
def iterations (opt : Options) : Nat := (opt.warmup + opt.count).toInt.toNat

/-! ## How many iterations are made -/

/-- Where the publisher is, it has not made too many. -/
def PubPc.Within (total : Nat) : PubPc → Prop
  | .timed i => i ≤ total
  | .publish i _ | .await i _ | .echoed i _ => i < total
  | .probe _ | .link _ | .finished | .failed => True

section Iterations

variable {net : Program} {pub sub : Options} {acts : List Action} {s t : State net.Message}
  {a : Action}

theorem more_iff {i : Nat} : more pub i ↔ i < iterations pub := by
  unfold more iterations
  omega

theorem within_of_step (within : s.pc.Within (iterations pub))
    (stepped : step net pub sub s a = some t) : t.pc.Within (iterations pub) := by
  cases step_cases stepped with
  | unmatched | retry | timeout => trivial
  | probe i memory now ok => cases ok <;> trivial
  | publish i t0 memory now ok message pc =>
      cases ok
      · trivial
      · rw [pc] at within
        exact within
  | linked => exact Nat.zero_le _
  | answer i t0 reply message pc | finish i t0 t1 pc =>
      rw [pc] at within
      exact within
  | begin i t0 pc more' => exact more_iff.mp more'
  | leave pc over' => rcases over' with rfl | rfl <;> trivial
  | pass | echo | ignore => exact within

/-- A publisher that has finished has made all of them. -/
def AllMade (pub : Options) (acts : List Action) (s : State net.Message) : Prop :=
  s.pc = .finished → ended acts = iterations pub

theorem AllMade.step (made : AllMade pub acts s) (numbered : Numbered net acts s)
    (within : s.pc.Within (iterations pub)) (stepped : step net pub sub s a = some t) :
    AllMade pub (acts ++ [a]) t := by
  cases step_cases stepped with
  | leave pc over' =>
      intro last
      simp only [Net.step] at stepped
      split at stepped
      · rw [unless_eq_some] at stepped
        rw [← stepped.2] at last
        cases last
      · rename_i i pc'
        rw [unless_eq_some, more_iff] at stepped
        rw [pc'] at within
        have count := numbered.ended i (by rw [pc']; rfl)
        rw [ended_concat, count]
        exact Nat.le_antisymm within (Nat.not_lt.mp stepped.1)
      · cases stepped
  | probe i memory now ok => cases ok <;> exact fun last => by cases last
  | publish i t0 memory now ok => cases ok <;> exact fun last => by cases last
  | unmatched | retry | timeout | linked | answer | finish | begin =>
      exact fun last => by cases last
  | pass | echo | ignore =>
      intro last
      rw [ended_concat]
      exact made last

theorem run_allMade (lawful : net.Lawful) (ran : run (step net pub sub) {} acts = some s) :
    AllMade pub acts s := by
  have all := run_history (P := fun acts s => Sound net pub acts s ∧
    s.pc.Within (iterations pub) ∧ AllMade pub acts s)
    ⟨sound_start net pub, trivial, fun last => by cases last⟩ ?_ ran
  · exact all.2.2
  · intro past m a t held stepped
    obtain ⟨ends, measured⟩ := held.1.measured
    refine ⟨?_, within_of_step held.2.1 stepped,
      held.2.2.step held.1.numbered held.2.1 stepped⟩
    exact ⟨held.1.numbered.step lawful stepped, held.1.echoed.step lawful stepped,
      held.1.underway.step held.1.numbered held.1.echoed stepped,
      measured.step held.1.numbered held.1.underway stepped⟩

end Iterations

/-! ## What is printed -/

/-- The mean, the median and the last percentile of some samples, which are zero of none. -/
structure Describes (us : List Double) (mean p50 p99 : Double) : Prop where
  average : mean * us.length = us.sum
  empty : us = [] → mean = 0 ∧ p50 = 0 ∧ p99 = 0
  quantiles : us ≠ [] → p50 = quantile us (1 / 2) ∧ p99 = quantile us (99 / 100)

/-- `PrintCsv` reads inside its samples, and prints what describes them. -/
theorem printCsv_eq (opt : FullOptions) (us : List Double) : ∃ mean p50 p99,
    printCsv opt us = some ⟨opt.stack, opt.size, us.length, mean, p50, p99⟩ ∧
      Describes us mean p50 p99 := by
  by_cases none' : us = []
  · subst none'
    exact ⟨0, 0, 0, rfl, zero_mul _, fun _ => ⟨rfl, rfl, rfl⟩, fun some' => absurd rfl some'⟩
  · refine ⟨meanUs us, quantile us (1 / 2), quantile us (99 / 100), ?_,
      Vsomeip.meanUs_mul_length us, fun empty => absurd empty none', fun _ => ⟨rfl, rfl⟩⟩
    have p50 : percentileUs us (1 / 2) = some (quantile us (1 / 2)) :=
      percentileOf_eq_quantile none' (by norm_num)
    have p99 : percentileUs us (99 / 100) = some (quantile us (99 / 100)) :=
      percentileOf_eq_quantile none' (by norm_num)
    unfold printCsv
    rw [p50, p99]
    rfl

/-- As many are timed as were asked for, where the sum does not overflow. -/
theorem iterations_sub {opt : Options} (nonneg : 0 ≤ opt.warmup.toInt) (some' : 0 ≤ opt.count.toInt)
    (few : opt.warmup.toInt + opt.count.toInt < 2 ^ 31) :
    iterations opt - opt.warmup.toInt.toNat = opt.count.toInt.toNat := by
  have sum : (opt.warmup + opt.count).toInt = opt.warmup.toInt + opt.count.toInt := by
    rw [Int32.toInt_add]
    exact Int.bmod_eq_of_le (by omega) (by omega)
  unfold iterations
  omega

/-- The clock was read at `trip.1` and `trip.2`, around a reply that echoes the request
of iteration `i`. -/
def Trip (acts : List Action) (i : Nat) (trip : UInt64 × UInt64) : Prop :=
  ∃ r k, Timed i trip.1 trip.2 r k acts ∧ (echoes acts)[k]? = some r

/-- What was recorded, as trips. -/
theorem exists_trips {net : Program} {pub sub : Options} {acts : List Action}
    {s : State net.Message} (lawful : net.Lawful)
    (ran : run (step net pub sub) {} acts = some s) :
    ∃ trips : List (UInt64 × UInt64), s.halfUs = trips.map (fun trip => halfRttUs trip.2 trip.1) ∧
      ∀ (j : Nat) trip, trips[j]? = some trip → Trip acts (pub.warmup.toInt.toNat + j) trip := by
  obtain ⟨ends, measured⟩ := (run_sound lawful ran).measured
  have each : ∀ j : Fin s.halfUs.length, ∃ trip : UInt64 × UInt64,
      s.halfUs[j] = halfRttUs trip.2 trip.1 ∧ Trip acts (pub.warmup.toInt.toNat + j) trip := by
    intro j
    have inside : pub.warmup.toInt.toNat + j < ends.length := by
      rw [measured.count]
      have := measured.recorded
      omega
    obtain ⟨t0, t1, r, timed, ⟨echo, -⟩, value⟩ :=
      measured.own _ _ (List.getElem?_eq_getElem inside)
    refine ⟨(t0, t1), ?_, r, _, timed, echo⟩
    have recorded := value (Nat.le_add_right _ _)
    rw [Nat.add_sub_cancel_left, List.getElem?_eq_getElem j.isLt] at recorded
    exact Option.some.inj recorded
  choose trip value own using each
  refine ⟨List.ofFn trip, ?_, ?_⟩
  · apply List.ext_getElem
    · rw [List.length_map, List.length_ofFn]
    · intro j inside _
      rw [List.getElem_map, List.getElem_ofFn]
      exact value ⟨j, inside⟩
  · intro j trip' there
    obtain ⟨inside, rfl⟩ := List.getElem?_eq_some_iff.mp there
    rw [List.getElem_ofFn]
    exact own ⟨j, List.length_ofFn (f := trip) ▸ inside⟩

/-- **The line of a network run.** In every order of publishes, echoes, deliveries and
timeouts, of all three programs: a publisher prints nothing unless it finishes, and one
that finishes has made all its iterations and prints one line, of the half round trips
of those after the warmup, in order, each timed around a reply that echoes its own
request: how many they are, their mean, their median and their last percentile. Where the
warmup is not negative and the two numbers add up, they are as many as were asked for. -/
theorem net_report (fbs : Flatbuffers) (lawful : fbs.Lawful) (net : Program)
    (one : net = subspaceNet fbs ∨ net = zenohNet fbs ∨ net = cycloneNet) (pub : FullOptions)
    (sub : Options) (print : Figure → Double → String) (acts : List Action)
    (s : State net.Message) (ran : run (step net pub.toOptions sub) {} acts = some s) :
    (s.pc ≠ .finished → stdout print pub s = some "") ∧
    (s.pc = .finished → ∃ (trips : List (UInt64 × UInt64)) (us : List Double)
        (mean p50 p99 : Double),
      us = trips.map (fun trip => halfRttUs trip.2 trip.1) ∧
      (∀ (j : Nat) trip, trips[j]? = some trip → Trip acts (pub.warmup.toInt.toNat + j) trip) ∧
      trips.length = iterations pub.toOptions - pub.warmup.toInt.toNat ∧
      (0 ≤ pub.warmup.toInt → 0 ≤ pub.count.toInt →
        pub.warmup.toInt + pub.count.toInt < 2 ^ 31 → trips.length = pub.count.toInt.toNat) ∧
      Describes us mean p50 p99 ∧
      stdout print pub s = some (s!"{pub.stack},{pub.size.toNat},{us.length}," ++
        s!"{print .mean mean},{print .p50 p50},{print .p99 p99}\n")) := by
  have netLawful : net.Lawful := by
    rcases one with rfl | rfl | rfl
    · exact subspaceNet_lawful lawful
    · exact zenohNet_lawful lawful
    · exact cycloneNet_lawful
  refine ⟨?_, ?_⟩
  · intro before
    unfold stdout
    split
    · rename_i finished
      exact absurd finished before
    · rfl
  · intro finished
    obtain ⟨trips, halfUs, own⟩ := exists_trips netLawful ran
    have made : trips.length = iterations pub.toOptions - pub.warmup.toInt.toNat := by
      obtain ⟨ends, measured⟩ := (run_sound netLawful ran).measured
      rw [← run_allMade netLawful ran finished, ← measured.recorded, halfUs, List.length_map]
    obtain ⟨mean, p50, p99, printed, describes⟩ := printCsv_eq pub s.halfUs
    refine ⟨trips, s.halfUs, mean, p50, p99, halfUs, own, made, ?_, describes, ?_⟩
    · intro nonneg some' few
      rw [made]
      exact iterations_sub nonneg some' few
    · unfold stdout
      rw [finished, printed]
      rfl

theorem net_report_lateProbe :
    ∃ s, run (step (subspaceNet packed) { count := 1, warmup := 0 } {}) {} lateProbe = some s ∧
      s.pc = .finished ∧ stdout (fun _ => Vsomeip.printDouble 3)
        { stack := "subspace", count := 1, warmup := 0 } s =
          some "subspace,1024,1,1.000,1.000,1.000\n" ∧
      ∃ trip, Trip lateProbe 0 trip := by
  have ends : (run (step (subspaceNet packed) { count := 1, warmup := 0 } {}) {}
      lateProbe).map (fun s => (s.halfUs, s.pc)) = some ([1], .finished) := by decide +kernel
  obtain ⟨s, ran, same⟩ := Option.map_eq_some_iff.mp ends
  rw [Prod.mk.injEq] at same
  rcases same with ⟨halfUs, finished⟩
  have report := net_report packed packed_lawful (subspaceNet packed) (.inl rfl)
    { stack := "subspace", count := 1, warmup := 0 } {} (fun _ => Vsomeip.printDouble 3)
    lateProbe s ran
  obtain ⟨trips, us, mean, p50, p99, -, own, -, count, -⟩ := report.2 finished
  have inside : 0 < trips.length := by
    rw [count (by decide) (by decide) (by decide)]
    decide
  refine ⟨s, ran, finished, ?_, trips[0], own 0 _ (List.getElem?_eq_getElem inside)⟩
  unfold stdout
  rw [finished, halfUs]
  decide +kernel

end MiddlewareBench.Net
