import Mathlib.Data.List.TakeWhile
import MiddlewareBench.Lib.PyFloat

/-!
# Numbers in text

`int(text)` and `float(text)` of Python. Both read the text in ASCII: a digit of any
script stands for its value and any Unicode space outside ASCII for a space, though
the four ASCII separators do not. Spaces around the number are ignored, and
underscores are allowed between digits.
-/

namespace MiddlewareBench.PyNumbers

open DecimalText

/-! ## Characters -/

/-- The zeros of the runs of decimal digits that Unicode has (general category Nd). -/
def zeros : List Nat :=
  [0x30, 0x660, 0x6f0, 0x7c0, 0x966, 0x9e6, 0xa66, 0xae6, 0xb66, 0xbe6, 0xc66, 0xce6, 0xd66,
    0xde6, 0xe50, 0xed0, 0xf20, 0x1040, 0x1090, 0x17e0, 0x1810, 0x1946, 0x19d0, 0x1a80, 0x1a90,
    0x1b50, 0x1bb0, 0x1c40, 0x1c50, 0xa620, 0xa8d0, 0xa900, 0xa9d0, 0xa9f0, 0xaa50, 0xabf0,
    0xff10, 0x104a0, 0x10d30, 0x11066, 0x110f0, 0x11136, 0x111d0, 0x112f0, 0x11450, 0x114d0,
    0x11650, 0x116c0, 0x11730, 0x118e0, 0x11950, 0x11c50, 0x11d50, 0x11da0, 0x16a60, 0x16ac0,
    0x16b50, 0x1d7ce, 0x1d7d8, 0x1d7e2, 0x1d7ec, 0x1d7f6, 0x1e140, 0x1e2f0, 0x1e950, 0x1fbf0]

/-- The Unicode spaces outside ASCII. -/
def spaces : List Nat :=
  [0x85, 0xa0, 0x1680, 0x2000, 0x2001, 0x2002, 0x2003, 0x2004, 0x2005, 0x2006, 0x2007, 0x2008,
    0x2009, 0x200a, 0x2028, 0x2029, 0x202f, 0x205f, 0x3000]

/-- What a character is read as. -/
def asciiOf (c : Char) : Char :=
  if c.toNat < 127 then c
  else if c.toNat ∈ spaces then ' '
  else match zeros.find? fun start => start ≤ c.toNat ∧ c.toNat < start + 10 with
    | some start => Char.ofNat (0x30 + (c.toNat - start))
    | none => '?'

def isSpace (c : Char) : Bool :=
  c = ' ' || (9 ≤ c.toNat && c.toNat ≤ 13)

/-- The text in ASCII, without the spaces around it. -/
def stripped (text : String) : List Char :=
  (((text.toList.map asciiOf).dropWhile isSpace).reverse.dropWhile isSpace).reverse

/-- The text without its underscores, which must stand between digits. `prev` is
the character before. -/
def withoutUnderscores (prev : Char) : List Char → Option (List Char)
  | [] => if prev = '_' then none else some []
  | c :: rest =>
    if c = '_' then
      if prev.isDigit then withoutUnderscores c rest else none
    else if prev = '_' ∧ ¬ c.isDigit then none
    else (withoutUnderscores c rest).map (c :: ·)

/-- A sign in front of the text. -/
def isNegative (text : List Char) : Bool := text.head? = some '-'

def unsigned : List Char → List Char
  | '+' :: rest => rest
  | '-' :: rest => rest
  | text => text

/-! ## Integers -/

/-- `sys.int_info.default_max_str_digits`. -/
def maxStrDigits : Nat := 4300

def pyInt (text : String) : Except PyError Int :=
  match withoutUnderscores ' ' (stripped text) with
  | none => .error .valueError
  | some number =>
    let digits := unsigned number
    if digits ≠ [] ∧ digits.all Char.isDigit ∧ digits.length ≤ maxStrDigits then
      let magnitude : Int := Nat.ofDigitChars 10 digits 0
      .ok (if isNegative number then -magnitude else magnitude)
    else .error .valueError

/-! ## Floats -/

/-- The digits of a fraction, and the exponent. -/
structure Decimal where
  digits : List Char
  exponent : Int

/-- A signed exponent after `e`, or nothing. -/
def exponentOf : List Char → Option Int
  | [] => some 0
  | e :: text =>
    let digits := unsigned text
    if e.toLower = 'e' ∧ digits ≠ [] ∧ digits.all Char.isDigit then
      let magnitude : Int := Nat.ofDigitChars 10 digits 0
      some (if isNegative text then -magnitude else magnitude)
    else none

/-- Digits with a point among them or not, and an exponent or not. -/
def decimalOf (text : List Char) : Option Decimal :=
  let whole := text.takeWhile Char.isDigit
  let rest := text.dropWhile Char.isDigit
  let point := rest.head? = some '.'
  let after := if point then rest.tail else rest
  let fraction := if point then after.takeWhile Char.isDigit else []
  let tail := if point then after.dropWhile Char.isDigit else rest
  if whole ++ fraction = [] then none
  else (exponentOf tail).map fun exponent =>
    { digits := whole ++ fraction, exponent := exponent - fraction.length }

def Decimal.magnitude (number : Decimal) : ℚ≥0 :=
  let digits := Nat.ofDigitChars 10 number.digits 0
  digits * PyFloat.pow10 number.exponent.toNat / PyFloat.pow10 (-number.exponent).toNat

def pyFloat (rnd : Rounding) (text : String) : Except PyError PyFloat :=
  match withoutUnderscores ' ' (stripped text) with
  | none => .error .valueError
  | some number =>
    let neg := isNegative number
    let word := unsigned number
    let lower := String.ofList (word.map Char.toLower)
    if lower = "inf" ∨ lower = "infinity" then .ok (.inf neg)
    else if lower = "nan" then .ok .nan
    else match decimalOf word with
      | some decimal => .ok (PyFloat.rounded rnd neg decimal.magnitude)
      | none => .error .valueError

/-! ## Decimal text -/

/-- The characters of a printed number. -/
def numeral (c : Char) : Bool := c.isDigit || c = '.' || c = '-'

theorem numeral_of_isDigit {c : Char} (digit : c.isDigit) : numeral c = true := by
  unfold numeral
  rw [digit]
  rfl

/-- They are what they are read as, and neither spaces nor underscores. -/
theorem numeral_range {c : Char} (inNumber : numeral c = true) :
    45 ≤ c.toNat ∧ c.toNat ≤ 57 := by
  unfold numeral at inNumber
  simp only [Bool.or_eq_true, decide_eq_true_eq] at inNumber
  rcases inNumber with (digit | rfl) | rfl
  · have range := digit_range digit
    omega
  · decide
  · decide

theorem asciiOf_of_numeral {c : Char} (inNumber : numeral c = true) : asciiOf c = c := by
  have range := numeral_range inNumber
  unfold asciiOf
  rw [if_pos (by omega)]

theorem not_isSpace_of_numeral {c : Char} (inNumber : numeral c = true) : isSpace c = false := by
  have range := numeral_range inNumber
  have notSpace : c ≠ ' ' := by
    rintro rfl
    exact absurd inNumber (by decide)
  unfold isSpace
  simp only [notSpace, decide_false, Bool.false_or, Bool.and_eq_false_iff,
    decide_eq_false_iff_not]
  omega

section Numerals

variable {text : List Char} (numerals : ∀ c ∈ text, numeral c = true)

include numerals

theorem dropWhile_isSpace_of_numerals : text.dropWhile isSpace = text := by
  cases text with
  | nil => rfl
  | cons c rest =>
      rw [List.dropWhile_cons_of_neg]
      rw [not_isSpace_of_numeral (numerals c List.mem_cons_self)]
      exact Bool.false_ne_true

theorem stripped_of_numerals : stripped (String.ofList text) = text := by
  have same : text.map asciiOf = text :=
    (List.map_congr_left fun c member => asciiOf_of_numeral (numerals c member)).trans
      (List.map_id text)
  unfold stripped
  rw [String.toList_ofList, same, dropWhile_isSpace_of_numerals numerals,
    dropWhile_isSpace_of_numerals fun c member => numerals c (List.mem_reverse.mp member),
    List.reverse_reverse]

theorem withoutUnderscores_of_numerals {prev : Char} (start : prev ≠ '_') :
    withoutUnderscores prev text = some text := by
  induction text generalizing prev with
  | nil => exact if_neg start
  | cons c rest ih =>
      have notUnderscore : c ≠ '_' := by
        rintro rfl
        exact absurd (numerals '_' List.mem_cons_self) (by decide)
      unfold withoutUnderscores
      rw [if_neg notUnderscore, if_neg fun after => start after.1,
        ih (fun c' member => numerals c' (List.mem_cons_of_mem c member)) notUnderscore]
      rfl

end Numerals

section Digits

variable {text : List Char} (digits : ∀ c ∈ text, c.isDigit)

include digits

theorem unsigned_of_digits : unsigned text = text ∧ isNegative text = false := by
  cases text with
  | nil => exact ⟨rfl, rfl⟩
  | cons c rest =>
      have digit := digits c List.mem_cons_self
      have plus : c ≠ '+' := ne_of_isDigit digit rfl
      have minus : c ≠ '-' := ne_of_isDigit digit rfl
      refine ⟨?_, ?_⟩
      · unfold unsigned
        split
        · rename_i same
          exact absurd (List.cons.inj same).1 plus
        · rename_i same
          exact absurd (List.cons.inj same).1 minus
        · rfl
      · unfold isNegative
        simpa using minus

end Digits

/-- A number reads back from its decimal text. -/
theorem pyInt_repr {n : Nat} (few : (Nat.toDigits 10 n).length ≤ maxStrDigits) :
    pyInt (Nat.repr n) = .ok n := by
  have digits : ∀ c ∈ Nat.toDigits 10 n, c.isDigit := fun c => isDigit_of_mem_toDigits
  obtain ⟨sign, positive⟩ := unsigned_of_digits digits
  unfold pyInt
  rw [Nat.repr_eq_ofList_toDigits,
    stripped_of_numerals fun c member => numeral_of_isDigit (digits c member),
    withoutUnderscores_of_numerals (fun c member => numeral_of_isDigit (digits c member))
      (by decide)]
  dsimp only
  rw [sign, positive, if_pos ⟨Nat.toDigits_ne_nil, List.all_eq_true.mpr digits, few⟩,
    Nat.ofDigitChars_ten_toDigits]
  rfl

/-! ## Printed floats -/

section Printed

variable {whole part : List Char} (wholeDigits : ∀ c ∈ whole, c.isDigit)
  (partDigits : ∀ c ∈ part, c.isDigit)

include wholeDigits partDigits

/-- Digits with a point among them. -/
theorem decimalOf_point (some' : whole ≠ []) :
    decimalOf (whole ++ '.' :: part) = some ⟨whole ++ part, -(part.length : Int)⟩ := by
  have front : (whole ++ '.' :: part).takeWhile Char.isDigit = whole := by
    rw [List.takeWhile_append_of_pos wholeDigits, List.takeWhile_cons_of_neg (by decide),
      List.append_nil]
  have rest : (whole ++ '.' :: part).dropWhile Char.isDigit = '.' :: part := by
    rw [List.dropWhile_append_of_pos wholeDigits, List.dropWhile_cons_of_neg (by decide)]
  have inPart : part.takeWhile Char.isDigit = part := List.takeWhile_eq_self_iff.mpr partDigits
  have behind : part.dropWhile Char.isDigit = [] := List.dropWhile_eq_nil_iff.mpr partDigits
  unfold decimalOf
  dsimp only
  rw [front, rest]
  simp only [List.head?_cons, List.tail_cons, ↓reduceIte, inPart, behind]
  rw [if_neg (by simp [some'])]
  show some (Decimal.mk (whole ++ part) (0 - part.length)) = _
  rw [Int.zero_sub]

/-- What is read of a sign, digits, a point and digits. -/
theorem pyFloat_point (rnd : Rounding) (neg : Bool) (some' : whole ≠ []) :
    pyFloat rnd (String.ofList ((if neg then ['-'] else []) ++ whole ++ '.' :: part)) =
      .ok (PyFloat.rounded rnd neg
        (Decimal.magnitude ⟨whole ++ part, -(part.length : Int)⟩)) := by
  have numerals : ∀ c ∈ (if neg then ['-'] else []) ++ whole ++ '.' :: part,
      numeral c = true := by
    intro c member
    simp only [List.mem_append, List.mem_cons] at member
    rcases member with (sign | inWhole) | rfl | inPart
    · cases neg with
      | true =>
          rw [List.mem_singleton.mp sign]
          decide
      | false => cases sign
    · exact numeral_of_isDigit (wholeDigits c inWhole)
    · decide
    · exact numeral_of_isDigit (partDigits c inPart)
  have signs : unsigned ((if neg then ['-'] else []) ++ whole ++ '.' :: part) =
      whole ++ '.' :: part ∧
        isNegative ((if neg then ['-'] else []) ++ whole ++ '.' :: part) = neg := by
    cases neg with
    | true => exact ⟨rfl, rfl⟩
    | false =>
        obtain ⟨c, digits, rfl⟩ := List.exists_cons_of_ne_nil some'
        have digit := wholeDigits c List.mem_cons_self
        have plus : c ≠ '+' := ne_of_isDigit digit rfl
        have minus : c ≠ '-' := ne_of_isDigit digit rfl
        refine ⟨?_, ?_⟩
        · show unsigned (c :: (digits ++ '.' :: part)) = _
          unfold unsigned
          split
          · rename_i same
            exact absurd (List.cons.inj same).1 plus
          · rename_i same
            exact absurd (List.cons.inj same).1 minus
          · rfl
        · show isNegative (c :: (digits ++ '.' :: part)) = _
          unfold isNegative
          simpa using minus
  -- a number with a point is none of the words
  have point : '.' ∈ (String.ofList ((whole ++ '.' :: part).map Char.toLower)).toList := by
    rw [String.toList_ofList, List.map_append]
    exact List.mem_append_right _ List.mem_cons_self
  have word : ∀ name : String, '.' ∉ name.toList →
      String.ofList ((whole ++ '.' :: part).map Char.toLower) ≠ name := by
    rintro name absent rfl
    exact absent point
  unfold pyFloat
  rw [stripped_of_numerals numerals, withoutUnderscores_of_numerals numerals (by decide)]
  dsimp only
  rw [signs.1, signs.2, if_neg (not_or.mpr ⟨word "inf" (by decide), word "infinity" (by decide)⟩),
    if_neg (word "nan" (by decide)), decimalOf_point wholeDigits partDigits some']

end Printed

/-- The digits of a padded number are those of the number. -/
theorem padded_digits {d n : Nat} (some' : 0 < d) (small : n < 10 ^ d) :
    (PyFloat.padded d n).toList.length = d ∧
      Nat.ofDigitChars 10 (PyFloat.padded d n).toList 0 = n := by
  have few : (Nat.toDigits 10 n).length ≤ d :=
    (Nat.length_toDigits_le_iff (by decide) some').mpr small
  unfold PyFloat.padded
  dsimp only
  rw [String.toList_ofList, Nat.toList_repr]
  refine ⟨?_, ?_⟩
  · rw [List.length_append, List.length_replicate]
    omega
  · rw [Nat.ofDigitChars_append, Nat.ofDigitChars_replicate_zero, Nat.mul_zero,
      Nat.ofDigitChars_ten_toDigits]

/-- **A printed number reads back** as what was printed, rounded to its places. -/
theorem pyFloat_fixed (rnd : Rounding) {d : Nat} (some' : 0 < d) (neg : Bool) (mag : ℚ≥0) :
    pyFloat rnd (PyFloat.fixed d (.finite neg mag)) =
      .ok (PyFloat.rounded rnd neg
        (roundHalfEven (mag * PyFloat.pow10 d) / PyFloat.pow10 d)) := by
  have small : roundHalfEven (mag * PyFloat.pow10 d) % 10 ^ d < 10 ^ d :=
    Nat.mod_lt _ (Nat.pow_pos (by decide))
  obtain ⟨places, value⟩ := padded_digits some' small
  have text : PyFloat.fixed d (.finite neg mag) = String.ofList ((if neg then ['-'] else []) ++
      (Nat.repr (roundHalfEven (mag * PyFloat.pow10 d) / 10 ^ d)).toList ++
        '.' :: (PyFloat.padded d
          (roundHalfEven (mag * PyFloat.pow10 d) % 10 ^ d)).toList) := by
    apply String.toList_injective
    unfold PyFloat.fixed
    dsimp only
    rw [String.toList_ofList, String.toList_append, String.toList_append, String.toList_append]
    cases neg <;> simp
  have wholeDigits : ∀ c ∈
      (Nat.repr (roundHalfEven (mag * PyFloat.pow10 d) / 10 ^ d)).toList, c.isDigit :=
    fun c => isDigit_of_mem_repr
  have partDigits : ∀ c ∈ (PyFloat.padded d
      (roundHalfEven (mag * PyFloat.pow10 d) % 10 ^ d)).toList, c.isDigit :=
    fun c => PyFloat.isDigit_of_mem_padded
  have nonempty : (Nat.repr (roundHalfEven (mag * PyFloat.pow10 d) / 10 ^ d)).toList ≠
      [] := by
    rw [Nat.toList_repr]
    exact Nat.toDigits_ne_nil
  rw [text, pyFloat_point wholeDigits partDigits rnd neg nonempty]
  unfold Decimal.magnitude
  dsimp only
  rw [places, Nat.ofDigitChars_append, Nat.ofDigitChars_eq_ofDigitChars_zero, value, places,
    Nat.toList_repr, Nat.ofDigitChars_ten_toDigits, Nat.div_add_mod, neg_neg, Int.toNat_natCast,
    Int.toNat_of_nonpos (by omega)]
  unfold PyFloat.pow10
  rw [pow_zero, mul_one]

end MiddlewareBench.PyNumbers
