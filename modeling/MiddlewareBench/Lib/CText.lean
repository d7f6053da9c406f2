import Mathlib.Algebra.Group.Int.Defs
import Mathlib.Algebra.Group.Nat.Defs
import Mathlib.Data.List.TakeWhile
import MiddlewareBench.Lib.DecimalText

/-!
# Text as the C and C++ libraries read it

`strtoull` and `atoi` in base 10: white space, a sign and digits are read, and
what follows is ignored. A text without digits reads as `0`. What is too large
for the type of the result saturates, except that `atoi` cuts the saturated
`long` down to an `int`. Then `rfind`, for the last place of a character.
-/

namespace MiddlewareBench.CText

open DecimalText

/-- `isspace` in the C locale. -/
def isSpace (c : Char) : Bool := c = ' ' || (9 ≤ c.toNat && c.toNat ≤ 13)

/-- The value of a run of digits. -/
def digitsValue (digits : List Char) : Nat :=
  digits.foldl (fun n d => 10 * n + (d.toNat - '0'.toNat)) 0

/-- The text behind its white space. -/
def unspaced (text : String) : List Char := text.toList.dropWhile isSpace

/-- Whether there is a minus sign. -/
def isNegative (text : String) : Bool := (unspaced text).head? = some '-'

/-- The text behind its sign. -/
def unsigned (text : String) : List Char :=
  let cs := unspaced text
  if cs.head? = some '-' ∨ cs.head? = some '+' then cs.tail else cs

/-- The absolute value of the number. -/
def magnitude (text : String) : Nat :=
  digitsValue ((unsigned text).takeWhile Char.isDigit)

def strtoull (text : String) : UInt64 :=
  if 2 ^ 64 ≤ magnitude text then 18446744073709551615
  else if isNegative text then -UInt64.ofNat (magnitude text)
  else UInt64.ofNat (magnitude text)

/-- A `long` has 64 bits. -/
def strtol (text : String) : Int :=
  if isNegative text then max (-2 ^ 63) (-(magnitude text : Int))
  else min (2 ^ 63 - 1) (magnitude text)

def atoi (text : String) : Int32 := Int32.ofInt (strtol text)

/-! ## Decimal text -/

theorem digitsValue_eq (digits : List Char) : digitsValue digits = Nat.ofDigitChars 10 digits 0 :=
  Nat.ofDigitChars_eq_foldl.symm

/-- A text of digits has neither white space nor a sign in front. -/
theorem unsigned_of_digits {text : String} (digits : ∀ c ∈ text.toList, c.isDigit) :
    unsigned text = text.toList ∧ isNegative text = false := by
  have front : unspaced text = text.toList ∧ text.toList.head? ≠ some '-' ∧
      text.toList.head? ≠ some '+' := by
    unfold unspaced
    cases chars : text.toList with
    | nil => exact ⟨rfl, nofun, nofun⟩
    | cons c rest =>
        have digit : c.isDigit := digits c (chars ▸ List.mem_cons_self)
        have range := digit_range digit
        have notSpace : isSpace c = false := by
          have other : c ≠ ' ' := ne_of_isDigit digit rfl
          simp only [isSpace, other, decide_false, Bool.false_or, Bool.and_eq_false_iff,
            decide_eq_false_iff_not]
          omega
        refine ⟨List.dropWhile_cons_of_neg (by simp [notSpace]), ?_, ?_⟩
        · exact fun minus => ne_of_isDigit digit rfl (Option.some.inj minus)
        · exact fun plus => ne_of_isDigit digit rfl (Option.some.inj plus)
  rcases front with ⟨same, notMinus, notPlus⟩
  unfold unsigned isNegative
  rw [same]
  exact ⟨if_neg (by simp [notMinus, notPlus]), by simp [notMinus]⟩

theorem magnitude_of_digits {text : String} (digits : ∀ c ∈ text.toList, c.isDigit) :
    magnitude text = digitsValue text.toList := by
  rw [magnitude, (unsigned_of_digits digits).1, List.takeWhile_eq_self_iff.mpr digits]

theorem digitsValue_repr (n : Nat) : digitsValue (Nat.repr n).toList = n := by
  rw [digitsValue_eq, Nat.toList_repr, Nat.ofDigitChars_ten_toDigits]

/-- A number that fits is read from its decimal text. -/
theorem strtoull_repr (n : UInt64) : strtoull (Nat.repr n.toNat) = n := by
  have digits : ∀ c ∈ (Nat.repr n.toNat).toList, c.isDigit := fun c => isDigit_of_mem_repr
  have value : magnitude (Nat.repr n.toNat) = n.toNat := by
    rw [magnitude_of_digits digits, digitsValue_repr]
  unfold strtoull
  rw [value, (unsigned_of_digits digits).2, if_neg (Nat.not_le.mpr n.toNat_lt),
    if_neg Bool.false_ne_true]
  exact UInt64.ofNat_toNat

/-! ## The sign of an `int` -/

/-- The number that a text begins with is positive when it is cut to 32 bits. -/
def BeginsPositive (text : String) : Prop :=
  magnitude text < 2 ^ 63 ∧
    if isNegative text then 2 ^ 31 < magnitude text % 2 ^ 32
    else 0 < magnitude text % 2 ^ 32 ∧ magnitude text % 2 ^ 32 < 2 ^ 31

instance (text : String) : Decidable (BeginsPositive text) :=
  inferInstanceAs (Decidable (_ ∧ _))

/-- Only the low half of the `long` reaches the `int`, so its sign is not that of the
number in the text. -/
theorem atoi_pos_iff (text : String) : 0 < atoi text ↔ BeginsPositive text := by
  have low : 0 < atoi text ↔ 0 < (strtol text).bmod (2 ^ 32) := by
    rw [Int32.lt_iff_toInt_lt, atoi, Int32.toInt_ofInt]
    rfl
  rw [low, Int.bmod_def]
  unfold strtol BeginsPositive
  by_cases minus : isNegative text = true
  · rw [if_pos minus, if_pos minus]
    omega
  · rw [if_neg minus, if_neg minus]
    omega

/-- What fits into an `int` is read as it stands. -/
theorem toInt_atoi_of_digits {text : String} (digits : ∀ c ∈ text.toList, c.isDigit)
    (small : digitsValue text.toList < 2 ^ 31) :
    (atoi text).toInt = digitsValue text.toList := by
  have value : strtol text = digitsValue text.toList := by
    unfold strtol
    rw [magnitude_of_digits digits, (unsigned_of_digits digits).2, if_neg Bool.false_ne_true]
    omega
  rw [atoi, value]
  exact Int32.toInt_ofInt_of_le (by omega) (by omega)

/-! ## The last place of a character -/

def lastIdx (c : Char) : List Char → Option Nat
  | [] => none
  | d :: ds =>
    match lastIdx c ds with
    | some i => some (i + 1)
    | none => if d = c then some 0 else none

/-- `std::string::rfind` of a character; `none` is `npos`. -/
def rfind (text : String) (c : Char) : Option Nat :=
  lastIdx c text.toList

theorem lastIdx_of_notMem {c : Char} {cs : List Char} (absent : c ∉ cs) :
    lastIdx c cs = none := by
  induction cs with
  | nil => rfl
  | cons d ds ih =>
      obtain ⟨other, rest⟩ := not_or.mp (mt List.mem_cons.mpr absent)
      simp only [lastIdx, ih rest, if_neg (Ne.symm other)]

theorem lastIdx_append {c : Char} (front : List Char) {back : List Char} (absent : c ∉ back) :
    lastIdx c (front ++ c :: back) = some front.length := by
  induction front with
  | nil => simp [lastIdx, lastIdx_of_notMem absent]
  | cons d ds ih => simp only [List.cons_append, lastIdx, ih, List.length_cons]

/-- A list that has an element can be split at its last place. -/
theorem exists_last {c : Char} {cs : List Char} (member : c ∈ cs) :
    ∃ front back, cs = front ++ c :: back ∧ c ∉ back := by
  obtain ⟨back, front, split, first⟩ := List.eq_append_cons_of_mem (List.mem_reverse.mpr member)
  refine ⟨front.reverse, back.reverse, ?_, by simpa using first⟩
  have whole := congrArg List.reverse split
  simpa using whole

/-- It can be split there in one way only. -/
theorem last_unique {c : Char} {front back front' back' : List Char}
    (same : front ++ c :: back = front' ++ c :: back') (last : c ∉ back) (last' : c ∉ back') :
    front = front' ∧ back = back' := by
  have places := lastIdx_append front last
  rw [same, lastIdx_append front' last'] at places
  obtain ⟨fronts, backs⟩ := List.append_inj same (Option.some.inj places).symm
  exact ⟨fronts, (List.cons.inj backs).2⟩

end MiddlewareBench.CText
