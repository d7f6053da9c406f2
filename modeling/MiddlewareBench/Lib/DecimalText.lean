import Mathlib.Init

/-!
# Decimal text

What a digit is, and that the decimal text of a number has only digits and tells the
number (`repr_injective`, `toString_injective`).
-/

namespace MiddlewareBench.DecimalText

theorem digit_range {c : Char} (digit : c.isDigit) : 48 ≤ c.toNat ∧ c.toNat ≤ 57 := by
  simpa [Char.isDigit, UInt32.le_iff_toNat_le] using digit

theorem ne_of_isDigit {c d : Char} (digit : c.isDigit) (other : d.isDigit = false) : c ≠ d := by
  rintro rfl
  rw [digit] at other
  cases other

theorem isDigit_of_mem_toDigits {n : Nat} {c : Char} (member : c ∈ Nat.toDigits 10 n) :
    c.isDigit :=
  Nat.isDigit_of_mem_toDigits (by omega) (Nat.le_refl 10) member

theorem isDigit_of_mem_repr {n : Nat} {c : Char} (member : c ∈ (Nat.repr n).toList) :
    c.isDigit := by
  rw [Nat.toList_repr] at member
  exact isDigit_of_mem_toDigits member

theorem notMem_repr {c : Char} (other : c.isDigit = false) (n : Nat) :
    c ∉ (Nat.repr n).toList :=
  fun member => ne_of_isDigit (isDigit_of_mem_repr member) other rfl

/-- Different numbers have different decimal texts. -/
theorem repr_injective {m n : Nat} (same : Nat.repr m = Nat.repr n) : m = n := by
  rw [Nat.repr_eq_ofList_toDigits, Nat.repr_eq_ofList_toDigits, String.ofList_inj] at same
  rw [← @Nat.ofDigitChars_ten_toDigits m, same, Nat.ofDigitChars_ten_toDigits]

theorem toString_injective {a b : Int} (same : toString a = toString b) : a = b := by
  have apart : ∀ m n : Nat, Nat.repr m ≠ "-" ++ Nat.repr n := by
    intro m n clash
    apply notMem_repr (show ('-' : Char).isDigit = false from rfl) m
    rw [clash, String.toList_append]
    exact List.mem_append_left _ List.mem_cons_self
  cases a with
  | ofNat m =>
      cases b with
      | ofNat n => exact congrArg Int.ofNat (repr_injective same)
      | negSucc n => exact absurd same (apart m (n + 1))
  | negSucc m =>
      cases b with
      | ofNat n => exact absurd same.symm (apart n (m + 1))
      | negSucc n =>
          have tails : Nat.repr (m + 1) = Nat.repr (n + 1) := by
            have chars := congrArg String.toList (show "-" ++ Nat.repr (m + 1) =
              "-" ++ Nat.repr (n + 1) from same)
            rw [String.toList_append, String.toList_append] at chars
            exact String.toList_injective (List.append_cancel_left chars)
          exact congrArg Int.negSucc (Nat.succ.inj (repr_injective tails))

end MiddlewareBench.DecimalText
