import Mathlib.Algebra.Field.Rat
import Mathlib.Data.NNRat.Floor
import MiddlewareBench.Lib.DecimalText

/-!
# Python floats

A `PyFloat` is a sign with an exact magnitude, an infinity or a NaN. Operations
take the exact result and round its magnitude; the rounding is a parameter, so that
a statement can be about the arithmetic of the machine (`binary64`) or about exact
arithmetic (`exactly`).
-/

namespace MiddlewareBench

/-- The exceptions the code raises or catches. -/
inductive PyError
  | keyError
  | valueError
  | overflowError
  | zeroDivisionError
  deriving DecidableEq, Repr

/-- What becomes of an exact magnitude: a representable one, or an overflow. -/
abbrev Rounding := ℚ≥0 → Option ℚ≥0

def exactly : Rounding := some

/-- The nearest integer, the even one of two. -/
def roundHalfEven (q : ℚ≥0) : Nat :=
  let k := q.num / q.den
  let twice := 2 * (q.num % q.den)
  if twice < q.den ∨ twice = q.den ∧ k % 2 = 0 then k else k + 1

/-- The exponent of the greatest power of two that is not above a positive `q`. -/
def floorLog2 (q : ℚ≥0) : Int :=
  let e := (Nat.log2 q.num : Int) - Nat.log2 q.den
  if q.num * 2 ^ (-e).toNat < q.den * 2 ^ e.toNat then e - 1 else e

/-- IEEE 754 double precision, to nearest: 53 bits, the lowest of them never below
`2^-1074`, and an overflow from `2^1024` on. -/
def binary64 : Rounding := fun q =>
  let u := max (floorLog2 q) (-1022) - 52
  let bits := roundHalfEven (q * 2 ^ (-u).toNat / 2 ^ u.toNat)
  let rounded : ℚ≥0 := bits * 2 ^ u.toNat / 2 ^ (-u).toNat
  if rounded < 2 ^ 1024 then some rounded else none

example : binary64 (1 / 10) = some (3602879701896397 / 36028797018963968) := by decide +kernel

inductive PyFloat
  | finite (neg : Bool) (mag : ℚ≥0)
  | inf (neg : Bool)
  | nan
  deriving DecidableEq

namespace PyFloat

open DecimalText

/-! ## Arithmetic -/

section Arithmetic

variable (rnd : Rounding)

def rounded (neg : Bool) (mag : ℚ≥0) : PyFloat :=
  match rnd mag with
  | some mag => finite neg mag
  | none => inf neg

/-- The value of a sign and a magnitude. -/
def signed (neg : Bool) (mag : ℚ≥0) : ℚ :=
  if neg then -mag else mag

def opposite : PyFloat → PyFloat
  | finite neg mag => finite (!neg) mag
  | inf neg => inf (!neg)
  | nan => nan

/-- An exact sum of zero is `-0.0` only if both terms are. -/
def add : PyFloat → PyFloat → PyFloat
  | finite s m, finite t n =>
    let sum := signed s m + signed t n
    if sum = 0 then finite (s && t) 0 else rounded rnd (decide (sum < 0)) (Rat.nnabs sum)
  | finite .., inf t => inf t
  | inf s, finite .. => inf s
  | inf s, inf t => if s = t then inf s else nan
  | nan, _ => nan
  | _, nan => nan

def sub (a b : PyFloat) : PyFloat := add rnd a (opposite b)

def mul : PyFloat → PyFloat → PyFloat
  | finite s m, finite t n => rounded rnd (s ^^ t) (m * n)
  | finite s m, inf t => if m = 0 then nan else inf (s ^^ t)
  | inf s, finite t n => if n = 0 then nan else inf (s ^^ t)
  | inf s, inf t => inf (s ^^ t)
  | nan, _ => nan
  | _, nan => nan

/-- Unlike the division of the machine, that of Python refuses a zero. -/
def div : PyFloat → PyFloat → Except PyError PyFloat
  | _, finite _ 0 => .error .zeroDivisionError
  | finite s m, finite t n => .ok (rounded rnd (s ^^ t) (m / n))
  | finite s _, inf t => .ok (finite (s ^^ t) 0)
  | inf s, finite t _ => .ok (inf (s ^^ t))
  | inf _, inf _ => .ok nan
  | nan, _ => .ok nan
  | _, nan => .ok nan

end Arithmetic

/-- `a < b`, which is false for a NaN. -/
def lt : PyFloat → PyFloat → Bool
  | finite s m, finite t n => signed s m < signed t n
  | finite .., inf t => !t
  | inf s, finite .. => s
  | inf s, inf t => s && !t
  | nan, _ => false
  | _, nan => false

/-- `max` of a non-empty list: the first element that no later one exceeds. -/
def maximum (first : PyFloat) (rest : List PyFloat) : PyFloat :=
  rest.foldl (fun best value => if lt best value then value else best) first

/-- `math.ceil`. -/
def ceil : PyFloat → Except PyError Int
  | finite neg mag => .ok (signed neg mag).ceil
  | inf _ => .error .overflowError
  | nan => .error .valueError

/-! ## Printing -/

/-- A natural number with leading zeros. -/
def padded (width n : Nat) : String :=
  let digits := (Nat.repr n).toList
  String.ofList (List.replicate (width - digits.length) '0' ++ digits)

/-- A power of ten. -/
def pow10 (d : Nat) : ℚ≥0 := 10 ^ d

/-- `%.{d}f`, rounded from the exact value. -/
def fixed (d : Nat) : PyFloat → String
  | finite neg mag =>
    let units := roundHalfEven (mag * pow10 d)
    (if neg then "-" else "") ++ Nat.repr (units / 10 ^ d) ++ "." ++ padded d (units % 10 ^ d)
  | inf neg => if neg then "-inf" else "inf"
  | nan => "nan"

example : fixed 3 (finite true (25 / 2000)) = "-0.012" := by decide +kernel

/-! ## Printed numbers -/

theorem isDigit_of_mem_padded {width n : Nat} {c : Char} (member : c ∈ (padded width n).toList) :
    c.isDigit := by
  unfold padded at member
  rw [String.toList_ofList, List.mem_append] at member
  rcases member with zero | digit
  · rw [List.eq_of_mem_replicate zero]
    rfl
  · exact isDigit_of_mem_repr digit

theorem toList_fixed_finite (d : Nat) (neg : Bool) (mag : ℚ≥0) :
    ∃ whole part : List Char, (fixed d (finite neg mag)).toList =
      (if neg then ['-'] else []) ++ whole ++ '.' :: part ∧
        (∀ c ∈ whole, c.isDigit) ∧ ∀ c ∈ part, c.isDigit := by
  refine ⟨(Nat.repr (roundHalfEven (mag * pow10 d) / 10 ^ d)).toList,
    (padded d (roundHalfEven (mag * pow10 d) % 10 ^ d)).toList, ?_, ?_, ?_⟩
  · unfold fixed
    dsimp only
    rw [String.toList_append, String.toList_append, String.toList_append]
    cases neg <;> simp
  · exact fun c => isDigit_of_mem_repr
  · exact fun c => isDigit_of_mem_padded

/-- A printed number is not a bare digit. -/
theorem fixed_ne_zero (d : Nat) (x : PyFloat) : fixed d x ≠ "0" := by
  cases x with
  | finite neg mag =>
      obtain ⟨whole, part, text, -, -⟩ := toList_fixed_finite d neg mag
      intro same
      rw [same] at text
      have point : '.' ∈ ("0" : String).toList := by
        rw [text]
        exact List.mem_append_right _ List.mem_cons_self
      exact absurd point (by decide)
  | inf neg =>
      cases neg
      · exact show "inf" ≠ "0" by decide
      · exact show "-inf" ≠ "0" by decide
  | nan => exact show "nan" ≠ "0" by decide

theorem comma_notMem_fixed (d : Nat) (x : PyFloat) : ',' ∉ (fixed d x).toList := by
  cases x with
  | finite neg mag =>
      obtain ⟨whole, part, text, wholeDigits, partDigits⟩ := toList_fixed_finite d neg mag
      rw [text]
      intro member
      simp only [List.mem_append, List.mem_cons] at member
      rcases member with (sign | inWhole) | point | inPart
      · cases neg <;> simp at sign
      · exact ne_of_isDigit (wholeDigits _ inWhole) rfl rfl
      · exact absurd point (by decide)
      · exact ne_of_isDigit (partDigits _ inPart) rfl rfl
  | inf neg =>
      cases neg
      · exact show ',' ∉ "inf".toList by decide
      · exact show ',' ∉ "-inf".toList by decide
  | nan => exact show ',' ∉ "nan".toList by decide

/-! ## Exact arithmetic -/

theorem signed_add (s t : Bool) (m n : ℚ≥0) : ∃ u p,
    add exactly (finite s m) (finite t n) = finite u p ∧
      signed u p = signed s m + signed t n := by
  unfold add
  dsimp only
  split
  · rename_i zero
    refine ⟨s && t, 0, rfl, ?_⟩
    rw [zero]
    unfold signed
    split <;> simp
  · refine ⟨decide (signed s m + signed t n < 0), Rat.nnabs (signed s m + signed t n), rfl, ?_⟩
    unfold signed
    by_cases negative : signed s m + signed t n < 0
    · simp only [signed] at negative
      rw [if_pos (by simpa using negative), Rat.coe_nnabs, abs_of_neg negative, neg_neg]
    · simp only [signed] at negative
      rw [if_neg (by simpa using negative), Rat.coe_nnabs, abs_of_nonneg (not_lt.mp negative)]

theorem abs_signed (s : Bool) (m : ℚ≥0) : |signed s m| = m := by
  unfold signed
  split
  · rw [abs_neg, NNRat.abs_coe]
  · rw [NNRat.abs_coe]

theorem signed_mul (s : Bool) (m n : ℚ≥0) : signed s (m * n) = signed s m * n := by
  unfold signed
  split <;> simp

/-- The greatest of finite values. -/
theorem maximum_finite {first : PyFloat} {rest : List PyFloat}
    (finite' : ∀ v ∈ first :: rest, ∃ s m, v = finite s m) :
    ∃ s m, maximum first rest = finite s m ∧ finite s m ∈ first :: rest ∧
      ∀ t n, finite t n ∈ first :: rest → signed t n ≤ signed s m := by
  induction rest generalizing first with
  | nil =>
      obtain ⟨s, m, rfl⟩ := finite' first List.mem_cons_self
      refine ⟨s, m, rfl, List.mem_cons_self, ?_⟩
      intro t n member
      cases List.mem_singleton.mp member
      exact le_refl _
  | cons v rest ih =>
      obtain ⟨s, m, rfl⟩ := finite' first List.mem_cons_self
      obtain ⟨t, n, rfl⟩ := finite' v (List.mem_cons_of_mem _ List.mem_cons_self)
      have later : ∀ w ∈ rest, ∃ s m, w = finite s m := fun w member =>
        finite' w (List.mem_cons_of_mem _ (List.mem_cons_of_mem _ member))
      show ∃ s' m', maximum (if lt (finite s m) (finite t n) then finite t n else finite s m) rest =
        finite s' m' ∧ _
      by_cases less : signed s m < signed t n
      · rw [if_pos (by simpa [lt] using less)]
        obtain ⟨s', m', best, inside, bound⟩ := @ih (finite t n)
          (List.forall_mem_cons.mpr ⟨⟨t, n, rfl⟩, later⟩)
        refine ⟨s', m', best, List.mem_cons_of_mem _ inside, ?_⟩
        intro t' n' member
        rcases List.mem_cons.mp member with own | other
        · cases own
          exact less.le.trans (bound t n List.mem_cons_self)
        · exact bound t' n' other
      · rw [if_neg (by simpa [lt] using less)]
        obtain ⟨s', m', best, inside, bound⟩ := @ih (finite s m)
          (List.forall_mem_cons.mpr ⟨⟨s, m, rfl⟩, later⟩)
        refine ⟨s', m', best, ?_, ?_⟩
        · rcases List.mem_cons.mp inside with own | other
          · exact own ▸ List.mem_cons_self
          · exact List.mem_cons_of_mem _ (List.mem_cons_of_mem _ other)
        · intro t' n' member
          rcases List.mem_cons.mp member with own | other
          · exact bound t' n' (own ▸ List.mem_cons_self)
          · rcases List.mem_cons.mp other with own | other
            · cases own
              exact (not_lt.mp less).trans (bound s m List.mem_cons_self)
            · exact bound t' n' (List.mem_cons_of_mem _ other)

/-- Rounding to an integer does not pass one. -/
theorem roundHalfEven_le {q : ℚ≥0} {n : Nat} (le : q ≤ n) : roundHalfEven q ≤ n := by
  have pos : 0 < q.den := q.den_pos
  have bound : q.num ≤ n * q.den := by
    rw [← NNRat.num_div_den q, div_le_iff₀ (by exact_mod_cast pos)] at le
    exact_mod_cast le
  have parts := Nat.div_add_mod q.num q.den
  unfold roundHalfEven
  dsimp only
  rcases Nat.lt_or_ge (q.num / q.den) n with below | above
  · split <;> omega
  · -- then there is no remainder to round up
    have same : q.num / q.den = n :=
      Nat.le_antisymm (Nat.div_le_of_le_mul (Nat.mul_comm n _ ▸ bound)) above
    have exact' : q.num % q.den = 0 := by
      rw [same, Nat.mul_comm] at parts
      omega
    rw [exact', if_pos (.inl (by omega)), same]

end PyFloat

end MiddlewareBench
