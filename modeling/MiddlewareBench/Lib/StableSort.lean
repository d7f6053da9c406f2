import Mathlib.Data.List.Sort

/-!
# Stable sorting by a key

`sortBy f` sorts a list by the values of `f` and leaves elements with one value in
the order they had. A sorted list is determined by the elements of each value in
their order (`eq_of_filter_eq`), and these are what `sortBy` preserves
(`filter_sortBy`); so does any relation between earlier and later elements hold
of those with one value (`pairwise_sortBy`).
-/

namespace MiddlewareBench.StableSort

variable {α β : Type*} [LinearOrder β] {f : α → β} {l l' : List α}

def sortBy (f : α → β) (l : List α) : List α :=
  l.insertionSort fun a b => f a ≤ f b

theorem sortBy_perm : (sortBy f l).Perm l :=
  List.perm_insertionSort _ l

@[simp] theorem mem_sortBy {a : α} : a ∈ sortBy f l ↔ a ∈ l :=
  sortBy_perm.mem_iff

@[simp] theorem length_sortBy : (sortBy f l).length = l.length :=
  sortBy_perm.length_eq

theorem sortBy_ne_nil (nonempty : l ≠ []) : sortBy f l ≠ [] := by
  rw [← List.length_pos_iff, length_sortBy]
  exact List.length_pos_of_ne_nil nonempty

theorem sorted_sortBy : (sortBy f l).Pairwise fun a b => f a ≤ f b := by
  have total : Std.Total fun a b => f a ≤ f b := ⟨fun a b => le_total (f a) (f b)⟩
  have trans : IsTrans α fun a b => f a ≤ f b := ⟨fun _ _ _ => le_trans⟩
  exact List.pairwise_insertionSort _ l

/-- Elements with one value keep their order. -/
theorem filter_sortBy (b : β) :
    (sortBy f l).filter (fun a => f a = b) = l.filter fun a => f a = b := by
  have tied : (l.filter fun a => f a = b).Pairwise fun a a' => f a ≤ f a' := by
    apply List.pairwise_of_forall_mem_list
    intro a member a' member'
    have value := of_decide_eq_true (List.mem_filter.mp member).2
    have value' := of_decide_eq_true (List.mem_filter.mp member').2
    exact (value.trans value'.symm).le
  have kept : (l.filter fun a => f a = b).Sublist (sortBy f l) :=
    List.sublist_insertionSort tied List.filter_sublist
  have inside := kept.filter fun a => decide (f a = b)
  simp only [List.filter_filter, Bool.and_self] at inside
  exact (inside.eq_of_length (sortBy_perm.filter _).length_eq.symm).symm

theorem subset_of_filter_eq
    (same : ∀ b, l.filter (fun a => f a = b) = l'.filter fun a => f a = b) : l ⊆ l' := by
  intro a member
  have own : a ∈ l.filter fun x => f x = f a := List.mem_filter.mpr ⟨member, by simp⟩
  rw [same (f a)] at own
  exact (List.mem_filter.mp own).1

/-- A sorted list is determined by the elements of each value. -/
theorem eq_of_filter_eq (sorted : l.Pairwise fun a b => f a ≤ f b)
    (sorted' : l'.Pairwise fun a b => f a ≤ f b)
    (same : ∀ b, l.filter (fun a => f a = b) = l'.filter fun a => f a = b) : l = l' := by
  induction l generalizing l' with
  | nil => exact (List.subset_nil.mp (subset_of_filter_eq fun b => (same b).symm)).symm
  | cons a l ih =>
      cases l' with
      | nil => exact List.subset_nil.mp (subset_of_filter_eq same)
      | cons a' l' =>
          have later := List.pairwise_cons.mp sorted
          have later' := List.pairwise_cons.mp sorted'
          -- the least value of the one list is that of an element of the other
          have inRight : a ∈ a' :: l' := subset_of_filter_eq same List.mem_cons_self
          have inLeft : a' ∈ a :: l :=
            subset_of_filter_eq (fun b => (same b).symm) List.mem_cons_self
          have value : f a = f a' := by
            apply le_antisymm
            · rcases List.mem_cons.mp inLeft with rfl | member
              · exact le_refl _
              · exact later.1 a' member
            · rcases List.mem_cons.mp inRight with rfl | member
              · exact le_refl _
              · exact later'.1 a member
          have heads := same (f a)
          rw [List.filter_cons_of_pos (by simp), List.filter_cons_of_pos (by simp [value])] at heads
          obtain ⟨rfl, -⟩ := List.cons.inj heads
          have tails : l = l' := by
            apply ih later.2 later'.2
            intro b
            have both := same b
            by_cases own : f a = b
            · rw [List.filter_cons_of_pos (by simp [own]),
                List.filter_cons_of_pos (by simp [own])] at both
              exact (List.cons.inj both).2
            · rwa [List.filter_cons_of_neg (by simp [own]),
                List.filter_cons_of_neg (by simp [own])] at both
          rw [tails]

/-- Lists with the same elements of each value sort alike. -/
theorem sortBy_congr (same : ∀ b, l.filter (fun a => f a = b) = l'.filter fun a => f a = b) :
    sortBy f l = sortBy f l' := by
  apply eq_of_filter_eq sorted_sortBy sorted_sortBy
  intro b
  rw [filter_sortBy, filter_sortBy, same]

/-- What is left out can be left out before sorting. -/
theorem sortBy_filter (p : α → Bool) : (sortBy f l).filter p = sortBy f (l.filter p) := by
  apply eq_of_filter_eq (sorted_sortBy.sublist List.filter_sublist) sorted_sortBy
  intro b
  rw [filter_sortBy, List.filter_comm, filter_sortBy, List.filter_comm]

/-- Sorting a decorated list. -/
theorem sortBy_map {γ : Type*} (h : γ → α) (l : List γ) :
    sortBy f (l.map h) = (sortBy (fun x => f (h x)) l).map h :=
  (List.map_insertionSort _ _ h l fun _ _ _ _ => Iff.rfl).symm

/-- Ties keep whatever relation the order of the list had. -/
theorem pairwise_sortBy {R : α → α → Prop} (ordered : l.Pairwise R) :
    (sortBy f l).Pairwise fun a b => f a < f b ∨ f a = f b ∧ R a b := by
  rw [List.pairwise_iff_forall_sublist]
  intro a b pair
  have le := List.pairwise_iff_forall_sublist.mp sorted_sortBy pair
  rcases le.lt_or_eq with less | tied
  · exact .inl less
  · refine .inr ⟨tied, ?_⟩
    have kept := pair.filter fun x => decide (f x = f b)
    rw [filter_sortBy, List.filter_cons_of_pos (by simp [tied]),
      List.filter_cons_of_pos (by simp), List.filter_nil] at kept
    exact List.pairwise_iff_forall_sublist.mp ordered (kept.trans List.filter_sublist)

/-! ## Larger elements -/

theorem orderedInsert_of_forall_le {a : α} (least : ∀ b ∈ l, f a ≤ f b) :
    l.orderedInsert (fun a b => f a ≤ f b) a = a :: l := by
  cases l with
  | nil => rfl
  | cons b l => exact List.orderedInsert_cons_of_le _ l (least b List.mem_cons_self)

/-- Inserting pointwise larger elements into pointwise larger lists. -/
theorem forall₂_orderedInsert {a b : α} (le : f a ≤ f b)
    (pointwise : List.Forall₂ (fun a b => f a ≤ f b) l l')
    (sorted : l.Pairwise fun a b => f a ≤ f b) (sorted' : l'.Pairwise fun a b => f a ≤ f b) :
    List.Forall₂ (fun a b => f a ≤ f b) (l.orderedInsert (fun a b => f a ≤ f b) a)
      (l'.orderedInsert (fun a b => f a ≤ f b) b) := by
  induction pointwise generalizing a b with
  | nil => exact .cons le .nil
  | @cons x y xs ys least rest ih =>
      have later := List.pairwise_cons.mp sorted
      have later' := List.pairwise_cons.mp sorted'
      -- a head goes in front of its own tail, so it is inserted there as well
      have front : xs.orderedInsert (fun a b => f a ≤ f b) x = x :: xs :=
        orderedInsert_of_forall_le later.1
      have front' : ys.orderedInsert (fun a b => f a ≤ f b) y = y :: ys :=
        orderedInsert_of_forall_le later'.1
      rw [List.orderedInsert_cons, List.orderedInsert_cons]
      by_cases first : f a ≤ f x
      · rw [if_pos first]
        by_cases first' : f b ≤ f y
        · rw [if_pos first']
          exact .cons le (.cons least rest)
        · rw [if_neg first']
          have inner := ih (least.trans (le_of_not_ge first')) later.2 later'.2
          rw [front] at inner
          exact .cons (first.trans least) inner
      · rw [if_neg first]
        by_cases first' : f b ≤ f y
        · rw [if_pos first']
          have inner := ih (le.trans first') later.2 later'.2
          rw [front'] at inner
          exact .cons ((le_of_not_ge first).trans le) inner
        · rw [if_neg first']
          exact .cons least (ih le later.2 later'.2)

/-- Sorting pointwise larger elements gives a pointwise larger list. -/
theorem forall₂_sortBy (pointwise : List.Forall₂ (fun a b => f a ≤ f b) l l') :
    List.Forall₂ (fun a b => f a ≤ f b) (sortBy f l) (sortBy f l') := by
  induction pointwise with
  | nil => exact .nil
  | cons le _ ih => exact forall₂_orderedInsert le ih sorted_sortBy sorted_sortBy

/-- With an injective key the order of the list does not matter. -/
theorem sortBy_eq_of_perm (injective : Function.Injective f) (perm : l.Perm l') :
    sortBy f l = sortBy f l' := by
  have rearranged : (sortBy f l).Perm (sortBy f l') :=
    sortBy_perm.trans (perm.trans sortBy_perm.symm)
  apply rearranged.eq_of_pairwise _ sorted_sortBy sorted_sortBy
  intro a b _ _ le ge
  exact injective (le_antisymm le ge)

end MiddlewareBench.StableSort
