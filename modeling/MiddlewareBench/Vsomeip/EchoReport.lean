import MiddlewareBench.Bench.Percentile
import MiddlewareBench.Vsomeip.EchoAttribution

/-!
# What is printed of the echo calls

The lines that `RunEchoCalls` prints and its summary. Whatever becomes of requests and
responses, the caller is never stuck and takes a bounded number of steps; every call
has its line, and the summary says what the lines say (`echo_report`). The numbers are
exact up to where they are printed.
-/

namespace MiddlewareBench.Vsomeip.EchoCalls

open Quantile Runs StableSort

/-! ## The text -/

/-- The numbers that are printed with `%.3f`. -/
inductive Figure
  | rtt
  | mean
  | p50
  | min
  | max
  deriving DecidableEq, Repr

/-- A line, where `print` is what is written for a number that the program has computed in
floating point. -/
def Line.text (print : Figure → Double → String) (opt : Options) : Line → String
  | .rtt call us =>
    s!"rpc {opt.stack} size={opt.size.toNat} call={call} rtt_us={print .rtt us}\n"
  | .timeout call => s!"rpc {opt.stack} size={opt.size.toNat} call={call} timeout\n"

/-- The numbers of `rpc_summary`. -/
structure EchoSummary where
  ok : Nat
  meanUs : Double
  p50Us : Double
  minUs : Double
  maxUs : Double

/-- `*std::min_element`, or `0.0` without an element. -/
def minUs (us : List Double) : Double := us.min?.getD 0

/-- `*std::max_element`, or `0.0` without an element. -/
def maxUs (us : List Double) : Double := us.max?.getD 0

def rpcSummary (rtts : List Double) : EchoSummary where
  ok := rtts.length
  meanUs := meanUs rtts
  p50Us := percentileUs rtts (1 / 2)
  minUs := minUs rtts
  maxUs := maxUs rtts

def EchoSummary.text (print : Figure → Double → String) (opt : Options) (summary : EchoSummary) :
    String :=
  s!"rpc_summary {opt.stack} size={opt.size.toNat} " ++
    s!"ok={summary.ok}/{opt.rpcCalls.toInt} mean_us={print .mean summary.meanUs} " ++
    s!"p50_us={print .p50 summary.p50Us} min_us={print .min summary.minUs} " ++
    s!"max_us={print .max summary.maxUs}\n"

/-- What the client has written to its standard output. -/
def stdout (print : Figure → Double → String) (opt : Options) (s : State) : String :=
  String.join (s.printed.map (Line.text print opt)) ++
    match s.pc with
    | .finished _ => (rpcSummary s.rtts).text print opt
    | _ => ""

/-- What `WaitAndReport` leaves the process with after `RunEchoCalls`. -/
def exitCode : CallerPc → Option Nat
  | .finished _ => some 0
  | .failed => some 1
  | _ => none

/-! ## The caller -/

/-- A step of the caller. -/
def Action.isCaller : Action → Bool
  | .begin | .stamp _ | .leave | .arm | .send | .wake | .timeout => true
  | .echo _ | .deliver _ _ | .handle _ => false

/-- How many steps the caller takes from here at most. -/
def CallerPc.stepsLeft (calls : Nat) : CallerPc → Nat
  | .begin => 4 * calls + 2
  | .call i => 4 * (calls - i) + 1
  | .arm i => 4 * (calls - i)
  | .send i => 4 * (calls - i) - 1
  | .wait i => 4 * (calls - i) - 2
  | .finished _ | .failed => 0

section Caller

variable {opt : Options} {s t : State} {a : Action} {acts : List Action}

/-- No step makes more calls than were asked for. -/
theorem stamped_le_of_step (few : s.pc.stamped ≤ opt.rpcCalls.toInt.toNat)
    (stepped : step opt s a = some t) : t.pc.stamped ≤ opt.rpcCalls.toInt.toNat := by
  cases step_cases stepped with
  | refuse | begin => exact Nat.zero_le _
  | stamp i now pc more =>
      show i + 1 ≤ _
      omega
  | leave i pc | arm i _ pc | send i pc | wake i pc | timeout i pc =>
      rw [pc] at few
      exact few
  | echo | ignore | deliver | handle => exact few

/-- A step of the caller uses up one of those it has left. -/
theorem stepsLeft_of_step (few : s.pc.stamped ≤ opt.rpcCalls.toInt.toNat)
    (stepped : step opt s a = some t) :
    t.pc.stepsLeft opt.rpcCalls.toInt.toNat + a.isCaller.toNat ≤
      s.pc.stepsLeft opt.rpcCalls.toInt.toNat := by
  cases step_cases stepped with
  | refuse pc | begin pc =>
      rw [pc]
      simp only [CallerPc.stepsLeft, Action.isCaller, Bool.toNat_true]
      omega
  | stamp i now pc more =>
      rw [pc]
      exact Nat.le_refl _
  | leave i pc | arm i _ pc | send i pc | wake i pc | timeout i pc =>
      rw [pc] at few ⊢
      simp only [CallerPc.stamped] at few
      simp only [CallerPc.stepsLeft, Action.isCaller, Bool.toNat_true]
      omega
  | echo | ignore | deliver | handle => exact Nat.le_refl _

/-- However the network behaves, the caller takes a bounded number of steps. -/
theorem caller_steps (ran : run (step opt) (start opt) acts = some s) :
    acts.countP Action.isCaller ≤ 4 * opt.rpcCalls.toInt.toNat + 2 := by
  have paid := @run_budget _ _ _ (fun s => s.pc.stamped ≤ opt.rpcCalls.toInt.toNat)
    (fun s => s.pc.stepsLeft opt.rpcCalls.toInt.toNat) Action.isCaller (fun _ => false) 0
    (fun s a t few stepped => ⟨stamped_le_of_step few stepped, stepsLeft_of_step few stepped⟩)
    _ _ _ (Nat.zero_le _) ran
  have first : (start opt).pc.stepsLeft opt.rpcCalls.toInt.toNat =
      4 * opt.rpcCalls.toInt.toNat + 2 := rfl
  omega

/-- The caller that has not returned can take a step. -/
theorem exists_caller_step (running : exitCode s.pc = none) :
    ∃ a : Action, a.isCaller = true ∧ (step opt s a).isSome = true := by
  cases pc : s.pc with
  | begin =>
      refine ⟨.begin, rfl, ?_⟩
      by_cases large : opt.transport = "udp" ∧ opt.size > opt.maxDatagram
      · simp only [step, pc, if_pos large, Option.isSome_some]
      · simp only [step, pc, if_neg large, Option.isSome_some]
  | call i =>
      by_cases more : (i : Int) < opt.rpcCalls.toInt
      · exact ⟨.stamp 0, rfl, by simp only [step, pc, if_pos more, Option.isSome_some]⟩
      · exact ⟨.leave, rfl, by simp only [step, pc, if_neg more, Option.isSome_some]⟩
  | arm i => exact ⟨.arm, rfl, by simp only [step, pc, Option.isSome_some]⟩
  | send i => exact ⟨.send, rfl, by simp only [step, pc, Option.isSome_some]⟩
  | wait i =>
      by_cases done : s.client.rpcDone = true
      · exact ⟨.wake, rfl, by simp only [step, pc, if_pos done, Option.isSome_some]⟩
      · exact ⟨.timeout, rfl, by simp only [step, pc, if_neg done, Option.isSome_some]⟩
  | finished calls | failed =>
      rw [pc] at running
      cases running

/-- It has made all calls, or been refused before the first. -/
structure Ended (opt : Options) (s : State) : Prop where
  finished : ∀ calls, s.pc = .finished calls → calls = opt.rpcCalls.toInt.toNat
  failed : s.pc = .failed → s.printed = [] ∧ s.requests = []
  begin : s.pc = .begin → s.printed = [] ∧ s.requests = []

theorem Ended.step (ended : Ended opt s) (few : s.pc.stamped ≤ opt.rpcCalls.toInt.toNat)
    (stepped : step opt s a = some t) : Ended opt t := by
  cases step_cases stepped with
  | refuse pc => exact ⟨by simp, fun _ => ended.begin pc, by simp⟩
  | begin | stamp | arm | send | wake | timeout => exact ⟨by simp, by simp, by simp⟩
  | leave i pc =>
      refine ⟨?_, by simp, by simp⟩
      intro calls same
      cases same
      have last : ¬ (i : Int) < opt.rpcCalls.toInt := by
        intro more
        simp only [EchoCalls.step, pc, if_pos more] at stepped
        cases stepped
      rw [pc] at few
      simp only [CallerPc.stamped] at few
      omega
  | echo | ignore | deliver | handle => exact ⟨ended.finished, ended.failed, ended.begin⟩

theorem run_ended (ran : run (step opt) (start opt) acts = some s) : Ended opt s := by
  have both := run_invariant
    (P := fun s => Ended opt s ∧ s.pc.stamped ≤ opt.rpcCalls.toInt.toNat)
    ⟨⟨by simp [start], by simp [start], fun _ => ⟨rfl, rfl⟩⟩, Nat.zero_le _⟩
    (fun m a t held stepped =>
      ⟨held.1.step held.2 stepped, stamped_le_of_step held.2 stepped⟩) ran
  exact both.1

end Caller

/-! ## The summary -/

section Summary

variable {us : List Double}

theorem minUs_least (some' : us ≠ []) : minUs us ∈ us ∧ ∀ x ∈ us, minUs us ≤ x := by
  obtain ⟨least, found⟩ := Option.isSome_iff_exists.mp (List.isSome_min?_iff.mpr some')
  unfold minUs
  rw [found]
  exact List.min?_eq_some_iff.mp found

theorem maxUs_greatest (some' : us ≠ []) : maxUs us ∈ us ∧ ∀ x ∈ us, x ≤ maxUs us := by
  obtain ⟨greatest, found⟩ := Option.isSome_iff_exists.mp (List.isSome_max?_iff.mpr some')
  unfold maxUs
  rw [found]
  exact List.max?_eq_some_iff.mp found

/-- The median of the round trips. -/
theorem percentileUs_eq_quantile (some' : us ≠ []) :
    percentileUs us (1 / 2) = quantile us (1 / 2) := by
  have checked := percentileUsChecked_eq us (p := 1 / 2) (by norm_num)
  unfold percentileUsChecked at checked
  rw [percentileOf_eq_quantile some' (by norm_num), Option.some.injEq] at checked
  exact checked.symm

/-- The summary of some round trips: how many they are, their mean and their median, which is
the value of the broken line through them halfway between the least and the greatest, and
these two; of none, zeros. -/
structure Summarises (us : List Double) (summary : EchoSummary) : Prop where
  ok : summary.ok = us.length
  mean : summary.meanUs * us.length = us.sum
  none : us = [] → summary.meanUs = 0 ∧ summary.p50Us = 0 ∧ summary.minUs = 0 ∧ summary.maxUs = 0
  median : us ≠ [] → summary.p50Us = quantile us (1 / 2)
  least : us ≠ [] → IsLeast {x | x ∈ us} summary.minUs
  greatest : us ≠ [] → IsGreatest {x | x ∈ us} summary.maxUs

theorem summarises_rpcSummary (us : List Double) : Summarises us (rpcSummary us) where
  ok := rfl
  mean := meanUs_mul_length us
  none none' := by
    rw [none']
    exact ⟨rfl, rfl, rfl, rfl⟩
  median some' := percentileUs_eq_quantile some'
  least some' := minUs_least some'
  greatest some' := maxUs_greatest some'

/-- The lines of the calls in order. -/
theorem text_printed (print : Figure → Double → String) {opt : Options} {lines : List Line}
    {calls : Nat} (inOrder : lines.map Line.call = List.range calls) :
    lines.map (Line.text print opt) =
      (lines.map Line.rtt?).zipIdx.map fun (outcome, call) =>
        match outcome with
        | some us =>
          s!"rpc {opt.stack} size={opt.size.toNat} call={call} rtt_us={print .rtt us}\n"
        | none => s!"rpc {opt.stack} size={opt.size.toNat} call={call} timeout\n" := by
  apply List.ext_getElem
  · simp only [List.length_map, List.length_zipIdx]
  · intro i inside _
    rw [List.length_map] at inside
    have number : lines[i].call = i := by
      have same := congrArg (·[i]?) inOrder
      have below : i < calls := by
        rw [← List.length_range (n := calls), ← inOrder, List.length_map]
        exact inside
      simpa [List.getElem?_range below, inside] using same
    simp only [List.getElem_map, List.getElem_zipIdx, Nat.zero_add]
    cases line : lines[i] with
    | rtt call us =>
        rw [line] at number
        cases number
        rfl
    | timeout call =>
        rw [line] at number
        cases number
        rfl

end Summary

/-- **The echo calls end with a report.** In any interleaving, with any requests and
responses lost, late or repeated: the caller that has not returned can take a step, and
it takes at most four for a call and two more; a caller that is refused prints and
sends nothing; and one that finishes has made all calls and printed a line for each in
order, with its round trip or that it timed out, and after them how many round trips there
are, of how many calls, with their mean, their median, the least and the greatest. -/
theorem echo_report (print : Figure → Double → String) (opt : Options)
    (room : kBenchHeaderBytes ≤ opt.size.toNat)
    (acts : List Action) (s : State) (ran : run (step opt) (start opt) acts = some s) :
    (exitCode s.pc = none → ∃ a : Action, a.isCaller = true ∧ (step opt s a).isSome = true) ∧
    acts.countP Action.isCaller ≤ 4 * opt.rpcCalls.toInt.toNat + 2 ∧
    (s.pc = .failed → stdout print opt s = "" ∧ s.requests = []) ∧
    ∀ calls, s.pc = .finished calls → calls = opt.rpcCalls.toInt.toNat ∧
      ∃ (outcomes : List (Option Double)) (summary : EchoSummary),
        outcomes.length = calls ∧ outcomes.filterMap id = s.rtts ∧ Summarises s.rtts summary ∧
        stdout print opt s =
          String.join (outcomes.zipIdx.map fun (outcome, call) =>
            match outcome with
            | some us =>
              s!"rpc {opt.stack} size={opt.size.toNat} call={call} rtt_us={print .rtt us}\n"
            | none => s!"rpc {opt.stack} size={opt.size.toNat} call={call} timeout\n") ++
          (s!"rpc_summary {opt.stack} size={opt.size.toNat} " ++
            s!"ok={s.rtts.length}/{opt.rpcCalls.toInt} mean_us={print .mean summary.meanUs} " ++
            s!"p50_us={print .p50 summary.p50Us} min_us={print .min summary.minUs} " ++
            s!"max_us={print .max summary.maxUs}\n") := by
  have ended := run_ended ran
  have reported := (run_sound room ran).reported
  refine ⟨exists_caller_step, caller_steps ran, ?_, ?_⟩
  · intro failed
    obtain ⟨printed, requests⟩ := ended.failed failed
    refine ⟨?_, requests⟩
    unfold stdout
    rw [printed, failed]
    rfl
  · intro calls finished
    have all := ended.finished calls finished
    have inOrder : s.printed.map Line.call = List.range calls := by
      rw [reported.lines, finished]
      rfl
    refine ⟨all, s.printed.map Line.rtt?, rpcSummary s.rtts, ?_, ?_,
      summarises_rpcSummary s.rtts, ?_⟩
    · rw [List.length_map, ← List.length_map (f := Line.call), inOrder, List.length_range]
    · rw [List.filterMap_map, reported.collected]
      rfl
    · unfold stdout
      rw [finished, text_printed print inOrder]
      rfl

/-- The run with a late response, to its end. -/
theorem echo_report_late :
    ∃ s, run (step { size := 12, rpcCalls := 2 }) (start { size := 12, rpcCalls := 2 })
        (lateResponse ++ [.leave]) = some s ∧ s.pc = .finished 2 ∧
      (lateResponse ++ [Action.leave]).countP Action.isCaller ≤ 10 ∧
      ∃ summary, Summarises s.rtts summary := by
  have ends : (run (step { size := 12, rpcCalls := 2 }) (start { size := 12, rpcCalls := 2 })
      (lateResponse ++ [.leave])).map State.pc = some (.finished 2) := by decide +kernel
  obtain ⟨s, ran, finished⟩ := Option.map_eq_some_iff.mp ends
  have report := echo_report (fun _ => printDouble 3) { size := 12, rpcCalls := 2 } (by decide)
    (lateResponse ++ [Action.leave]) s ran
  obtain ⟨-, outcomes, summary, -, -, described, -⟩ := report.2.2.2 2 finished
  exact ⟨s, ran, finished, report.2.1, summary, described⟩

end MiddlewareBench.Vsomeip.EchoCalls
