import Mathlib.Algebra.Order.Field.Basic
import Mathlib.Algebra.Order.Floor.Semiring
import Mathlib.Tactic.Linarith
import Mathlib.Tactic.Ring
import MiddlewareBench.Lib.StableSort

/-!
# Quantiles by linear interpolation

The broken line through the points `(i, g i)` of a sequence (`polyline`), the order
statistics of a list as a sequence (`rank`), and what a function that takes samples
and a fraction owes to those who call it a quantile (`Proper`).
-/

namespace MiddlewareBench.Quantile

open StableSort

variable {K : Type*} [Field K]

/-! ## Between two points -/

/-- The point of the line from `a` to `b` with the fraction `t` behind it. -/
def between (a b t : K) : K :=
  a * (1 - t) + b * t

variable {a b a' b' t t' : K}

theorem between_eq_add : between a b t = a + (b - a) * t := by
  unfold between
  ring

@[simp] theorem between_zero : between a b 0 = a := by
  simp [between]

variable [LinearOrder K] [IsStrictOrderedRing K]

theorem le_between (le : a ≤ b) (nonneg : 0 ≤ t) : a ≤ between a b t := by
  have rise : 0 ≤ (b - a) * t := mul_nonneg (sub_nonneg.mpr le) nonneg
  rw [between_eq_add]
  exact le_add_of_nonneg_right rise

theorem between_le (le : a ≤ b) (atMost : t ≤ 1) : between a b t ≤ b := by
  have rise : (b - a) * t ≤ (b - a) * 1 :=
    mul_le_mul_of_nonneg_left atMost (sub_nonneg.mpr le)
  rw [between_eq_add]
  linarith

theorem between_mono (le : a ≤ b) (further : t ≤ t') : between a b t ≤ between a b t' := by
  rw [between_eq_add, between_eq_add]
  exact add_le_add_right (mul_le_mul_of_nonneg_left further (sub_nonneg.mpr le)) a

theorem between_le_between (left : a ≤ a') (right : b ≤ b') (nonneg : 0 ≤ t) (atMost : t ≤ 1) :
    between a b t ≤ between a' b' t :=
  add_le_add (mul_le_mul_of_nonneg_right left (sub_nonneg.mpr atMost))
    (mul_le_mul_of_nonneg_right right nonneg)

/-! ## Order statistics -/

section Rank

variable {K : Type*} [Zero K] {l l' : List K}

/-- The elements of a list as a sequence that stays at the last one. -/
def rank (l : List K) (i : ℕ) : K :=
  l.getD (min i (l.length - 1)) 0

theorem getElem?_clamped (nonempty : l ≠ []) (i : ℕ) :
    l[min i (l.length - 1)]? = some (rank l i) := by
  have positive := List.length_pos_of_ne_nil nonempty
  have inside : min i (l.length - 1) < l.length := by omega
  rw [rank, List.getD_eq_getElem?_getD, List.getElem?_eq_getElem inside, Option.getD_some]

theorem getElem?_eq_rank {i : ℕ} (inside : i < l.length) : l[i]? = some (rank l i) := by
  have nonempty : l ≠ [] := List.ne_nil_of_length_pos (by omega)
  have clamped := getElem?_clamped nonempty i
  rwa [min_eq_left (by omega)] at clamped

theorem rank_mem (nonempty : l ≠ []) (i : ℕ) : rank l i ∈ l :=
  List.mem_of_getElem? (getElem?_clamped nonempty i)

theorem exists_rank_eq {c : K} (member : c ∈ l) : ∃ i < l.length, rank l i = c := by
  obtain ⟨i, inside, value⟩ := List.getElem_of_mem member
  have own := getElem?_eq_rank inside
  rw [List.getElem?_eq_getElem inside, value] at own
  exact ⟨i, inside, (Option.some.inj own).symm⟩

variable [LinearOrder K]

theorem rank_mono (sorted : l.Pairwise (· ≤ ·)) : Monotone (rank l) := by
  intro i j le
  rcases eq_or_ne l [] with rfl | nonempty
  · exact le_refl _
  · have positive := List.length_pos_of_ne_nil nonempty
    obtain ⟨inside, value⟩ := List.getElem?_eq_some_iff.mp (getElem?_clamped nonempty i)
    obtain ⟨inside', value'⟩ := List.getElem?_eq_some_iff.mp (getElem?_clamped nonempty j)
    rw [← value, ← value']
    rcases (min_le_min_right (l.length - 1) le).eq_or_lt with same | earlier
    · simp only [same, le_refl]
    · exact List.pairwise_iff_getElem.mp sorted _ _ inside inside' earlier

/-- The first of a sorted list is the least. -/
theorem rank_zero_le (sorted : l.Pairwise (· ≤ ·)) {c : K} (member : c ∈ l) : rank l 0 ≤ c := by
  obtain ⟨i, inside, rfl⟩ := exists_rank_eq member
  exact rank_mono sorted (Nat.zero_le i)

/-- The last of a sorted list is the greatest. -/
theorem le_rank_last (sorted : l.Pairwise (· ≤ ·)) {c : K} (member : c ∈ l) :
    c ≤ rank l (l.length - 1) := by
  obtain ⟨i, inside, rfl⟩ := exists_rank_eq member
  exact rank_mono sorted (Nat.le_sub_one_of_lt inside)

theorem rank_le_rank (pointwise : List.Forall₂ (· ≤ ·) l l') (i : ℕ) : rank l i ≤ rank l' i := by
  unfold rank
  rw [pointwise.length_eq]
  generalize min i (l'.length - 1) = j
  induction pointwise generalizing j with
  | nil => exact le_refl _
  | cons le _ ih =>
      cases j with
      | zero => exact le
      | succ j => exact ih j

end Rank

/-! ## The broken line -/

section Polyline

variable [FloorSemiring K] {g h : ℕ → K} {x y : K}

/-- The broken line through the points `(i, g i)`. -/
def polyline (g : ℕ → K) (x : K) : K :=
  between (g ⌊x⌋₊) (g (⌊x⌋₊ + 1)) (x - ⌊x⌋₊)

theorem offset_nonneg (nonneg : 0 ≤ x) : 0 ≤ x - ⌊x⌋₊ :=
  sub_nonneg.mpr (Nat.floor_le nonneg)

theorem offset_le_one (x : K) : x - ⌊x⌋₊ ≤ 1 := by
  rw [sub_le_iff_le_add']
  exact (Nat.lt_floor_add_one x).le

@[simp] theorem polyline_natCast (g : ℕ → K) (n : ℕ) : polyline g n = g n := by
  simp [polyline]

theorem le_polyline (mono : Monotone g) (nonneg : 0 ≤ x) : g ⌊x⌋₊ ≤ polyline g x :=
  le_between (mono (Nat.le_succ _)) (offset_nonneg nonneg)

theorem polyline_le (mono : Monotone g) (x : K) : polyline g x ≤ g (⌊x⌋₊ + 1) :=
  between_le (mono (Nat.le_succ _)) (offset_le_one x)

/-- The line of a monotone sequence rises within a cell and from one to the next. -/
theorem polyline_mono (mono : Monotone g) (nonneg : 0 ≤ x) (le : x ≤ y) :
    polyline g x ≤ polyline g y := by
  rcases (Nat.floor_mono le).eq_or_lt with same | earlier
  · unfold polyline
    rw [← same]
    exact between_mono (mono (Nat.le_succ _)) (sub_le_sub_right le _)
  · -- the points of the sequence between two cells separate their values
    calc polyline g x ≤ g (⌊x⌋₊ + 1) := polyline_le mono x
      _ ≤ g ⌊y⌋₊ := mono earlier
      _ ≤ polyline g y := le_polyline mono (nonneg.trans le)

theorem polyline_le_polyline (pointwise : ∀ i, g i ≤ h i) (nonneg : 0 ≤ x) :
    polyline g x ≤ polyline h x :=
  between_le_between (pointwise _) (pointwise _) (offset_nonneg nonneg) (offset_le_one x)

end Polyline

/-! ## Quantiles -/

/-- What a function that takes samples and a fraction owes to those who call it a
quantile. Its result is `none` where it reads outside its data. -/
structure Proper (q : List K → K → Option K) : Prop where
  inside : ∀ l p, l ≠ [] → 0 ≤ p → p ≤ 1 → ∃ x, q l p = some x
  bounded : ∀ l p x least greatest, 0 ≤ p → p ≤ 1 → q l p = some x →
    l.min? = some least → l.max? = some greatest → least ≤ x ∧ x ≤ greatest
  zero : ∀ l, l ≠ [] → q l 0 = l.min?
  one : ∀ l, l ≠ [] → q l 1 = l.max?
  perm : ∀ l l' p, l ≠ [] → 0 ≤ p → p ≤ 1 → l.Perm l' → q l p = q l' p
  mono : ∀ l p p' x x', l ≠ [] → 0 ≤ p → p ≤ p' → p' ≤ 1 →
    q l p = some x → q l p' = some x' → x ≤ x'
  mono_data : ∀ l l' p x x', l ≠ [] → 0 ≤ p → p ≤ 1 → List.Forall₂ (· ≤ ·) l l' →
    q l p = some x → q l' p = some x' → x ≤ x'

variable {l l' : List K} {p p' : K}

theorem position_nonneg (nonneg : 0 ≤ p) (n : ℕ) : 0 ≤ p * (n : K) :=
  mul_nonneg nonneg n.cast_nonneg

theorem position_mono (le : p ≤ p') (n : ℕ) : p * (n : K) ≤ p' * n :=
  mul_le_mul_of_nonneg_right le n.cast_nonneg

variable [FloorSemiring K]

/-- The value of the broken line of the order statistics at a fraction of its length. -/
def quantile (l : List K) (p : K) : K :=
  polyline (rank (sortBy id l)) (p * (l.length - 1 : ℕ))

theorem quantile_zero (l : List K) : quantile l 0 = rank (sortBy id l) 0 := by
  unfold quantile
  rw [zero_mul, ← Nat.cast_zero, polyline_natCast]

theorem quantile_one (l : List K) : quantile l 1 = rank (sortBy id l) (l.length - 1) := by
  unfold quantile
  rw [one_mul, polyline_natCast]

theorem quantile_mono (nonneg : 0 ≤ p) (le : p ≤ p') (l : List K) :
    quantile l p ≤ quantile l p' :=
  polyline_mono (rank_mono sorted_sortBy) (position_nonneg nonneg _) (position_mono le _)

theorem quantile_le_quantile (nonneg : 0 ≤ p) (pointwise : List.Forall₂ (· ≤ ·) l l') :
    quantile l p ≤ quantile l' p := by
  unfold quantile
  rw [pointwise.length_eq]
  exact polyline_le_polyline (rank_le_rank (forall₂_sortBy pointwise)) (position_nonneg nonneg _)

omit [IsStrictOrderedRing K] in
theorem quantile_perm (perm : l.Perm l') (p : K) : quantile l p = quantile l' p := by
  unfold quantile
  rw [perm.length_eq, sortBy_eq_of_perm Function.injective_id perm]

/-- The quantile at `0` is the least element. -/
theorem min?_eq_quantile (nonempty : l ≠ []) : l.min? = some (quantile l 0) := by
  rw [quantile_zero, List.min?_eq_some_iff]
  refine ⟨?_, ?_⟩
  · exact mem_sortBy.mp (rank_mem (sortBy_ne_nil nonempty) 0)
  · intro c member
    exact rank_zero_le sorted_sortBy (mem_sortBy.mpr member)

/-- The quantile at `1` is the greatest element. -/
theorem max?_eq_quantile (nonempty : l ≠ []) : l.max? = some (quantile l 1) := by
  rw [quantile_one, List.max?_eq_some_iff]
  refine ⟨?_, ?_⟩
  · exact mem_sortBy.mp (rank_mem (sortBy_ne_nil nonempty) _)
  · intro c member
    have last := le_rank_last sorted_sortBy (mem_sortBy.mpr member)
    rwa [length_sortBy] at last

/-- What computes the quantile wherever it is one is proper. -/
theorem proper_of_eq_quantile {q : List K → K → Option K}
    (computes : ∀ l p, l ≠ [] → 0 ≤ p → p ≤ 1 → q l p = some (quantile l p)) : Proper q where
  inside l p nonempty nonneg atMost := ⟨_, computes l p nonempty nonneg atMost⟩
  bounded l p x least greatest nonneg atMost value lower upper := by
    have nonempty : l ≠ [] := by
      rintro rfl
      cases lower
    rw [computes l p nonempty nonneg atMost] at value
    rw [min?_eq_quantile nonempty] at lower
    rw [max?_eq_quantile nonempty] at upper
    cases value
    cases lower
    cases upper
    exact ⟨quantile_mono le_rfl nonneg l, quantile_mono nonneg atMost l⟩
  zero l nonempty := by
    rw [computes l 0 nonempty le_rfl zero_le_one, min?_eq_quantile nonempty]
  one l nonempty := by
    rw [computes l 1 nonempty zero_le_one le_rfl, max?_eq_quantile nonempty]
  perm l l' p nonempty nonneg atMost perm := by
    have nonempty' : l' ≠ [] := fun empty => nonempty (by rwa [empty, List.perm_nil] at perm)
    rw [computes l p nonempty nonneg atMost, computes l' p nonempty' nonneg atMost,
      quantile_perm perm]
  mono l p p' x x' nonempty nonneg le atMost value value' := by
    rw [computes l p nonempty nonneg (le.trans atMost)] at value
    rw [computes l p' nonempty (nonneg.trans le) atMost] at value'
    cases value
    cases value'
    exact quantile_mono nonneg le l
  mono_data l l' p x x' nonempty nonneg atMost pointwise value value' := by
    have nonempty' : l' ≠ [] := by
      rw [← List.length_pos_iff, ← pointwise.length_eq]
      exact List.length_pos_of_ne_nil nonempty
    rw [computes l p nonempty nonneg atMost] at value
    rw [computes l' p nonempty' nonneg atMost] at value'
    cases value
    cases value'
    exact quantile_le_quantile nonneg pointwise

end MiddlewareBench.Quantile
