import MiddlewareBench.Lib.CText
import MiddlewareBench.Lib.PyFloat
import MiddlewareBench.Lib.StableSort
import MiddlewareBench.Vsomeip.Common

/-!
# The result line

`MeanUs`, `PercentileUs` and `PrintCsv` of `bench_common.h`: the line with which a
client reports what it has measured. Its numbers print as those of Python do.
-/

namespace MiddlewareBench.Vsomeip

open DecimalText StableSort

def meanUs (us : List Double) : Double :=
  if us = [] then 0 else us.sum / us.length

theorem meanUs_mul_length (us : List Double) : meanUs us * us.length = us.sum := by
  unfold meanUs
  split
  · rename_i none'
    rw [none']
    exact zero_mul _
  · rename_i some'
    have count : (us.length : Double) ≠ 0 := by
      exact_mod_cast (List.length_pos_of_ne_nil some').ne'
    exact div_mul_cancel₀ _ count

def percentileUs (us : List Double) (p : Double) : Double :=
  if us = [] then 0
  else
    let us := sortBy id us
    let idx := p * (us.length - 1 : Nat)
    let lo := idx.floor.toNat
    let hi := min (lo + 1) (us.length - 1)
    let frac := idx - lo
    us.getD lo 0 * (1 - frac) + us.getD hi 0 * frac

/-- `%.{d}f`. -/
def printDouble (d : Nat) (x : Double) : String :=
  PyFloat.fixed d (.finite (decide (x < 0)) (Rat.nnabs x))

/-- The eight fields of a result line. -/
structure BenchLine where
  stack : String
  size : String
  rateHz : String
  n : String
  meanUs : String
  p50Us : String
  p99Us : String
  gapCount : String
  deriving DecidableEq, Repr

def BenchLine.text (line : BenchLine) : String :=
  s!"{line.stack},{line.size},{line.rateHz},{line.n},{line.meanUs},{line.p50Us},{line.p99Us}," ++
    line.gapCount

/-- The line that `PrintCsv` prints. -/
def printCsv (opt : Options) (latencyUs : List Double) (gapCount : UInt64) : BenchLine where
  stack := opt.stack
  size := Nat.repr opt.size.toNat
  rateHz := printDouble 1 opt.rateHz
  n := Nat.repr latencyUs.length
  meanUs := printDouble 3 (meanUs latencyUs)
  p50Us := printDouble 3 (percentileUs latencyUs (1 / 2))
  p99Us := printDouble 3 (percentileUs latencyUs (99 / 100))
  gapCount := Nat.repr gapCount.toNat

/-- A printed number has a point, so that it is not the text of an integer. -/
theorem point_mem_printDouble (d : Nat) (x : Double) : '.' ∈ (printDouble d x).toList := by
  obtain ⟨whole, part, text, -, -⟩ := PyFloat.toList_fixed_finite d (decide (x < 0)) (Rat.nnabs x)
  unfold printDouble
  rw [text]
  exact List.mem_append_right _ List.mem_cons_self

/-! ## Characters of a line -/

/-- A printed number has digits, a point and a sign. -/
theorem notMem_printDouble {c : Char} (noDigit : c.isDigit = false) (other : c ∉ ['.', '-'])
    (d : Nat) (x : Double) : c ∉ (printDouble d x).toList := by
  obtain ⟨whole, part, text, wholeDigits, partDigits⟩ :=
    PyFloat.toList_fixed_finite d (decide (x < 0)) (Rat.nnabs x)
  simp only [List.mem_cons, List.not_mem_nil, or_false, not_or] at other
  unfold printDouble
  rw [text]
  intro member
  simp only [List.mem_append, List.mem_cons] at member
  rcases member with (sign | inWhole) | point | inPart
  · cases neg : decide (x < 0) <;> simp [neg] at sign
    exact other.2 sign
  · exact ne_of_isDigit (wholeDigits _ inWhole) noDigit rfl
  · exact other.1 point
  · exact ne_of_isDigit (partDigits _ inPart) noDigit rfl

/-- A result line has commas besides, and the characters of its stack. -/
theorem notMem_text {c : Char} {opt : Options} (noDigit : c.isDigit = false)
    (other : c ∉ ['.', '-', ',']) (stack : c ∉ opt.stack.toList) (latencyUs : List Double)
    (gapCount : UInt64) : c ∉ (printCsv opt latencyUs gapCount).text.toList := by
  simp only [List.mem_cons, List.not_mem_nil, or_false, not_or] at other
  have number := notMem_printDouble noDigit (show c ∉ ['.', '-'] by simp [other])
  have count : ∀ n, c ∉ Nat.toDigits 10 n :=
    fun n member => ne_of_isDigit (isDigit_of_mem_toDigits member) noDigit rfl
  unfold BenchLine.text printCsv
  simp [String.toList_append, toString, number, count, stack, other]

end MiddlewareBench.Vsomeip
