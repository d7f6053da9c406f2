import Mathlib.Order.Interval.Finset.Nat

/-!
# Sequence numbers received

A receiver of numbered items keeps the numbers it saw. `missed` is how many it
did not see between the first and the last one; on a strictly increasing list it
is what is left of the span once the list itself is taken out
(`missed_add_length`), so it grows by the size of each jump (`missed_concat`).
A list without repetitions that stays inside an interval is counted by its
length: `length_eq_iff_covers`.
-/

namespace MiddlewareBench.SeqNumbers

/-! ## Gaps -/

/-- How many numbers strictly between the first and the last of `xs` are not
in `xs`. -/
def missed (xs : List Nat) : Nat :=
  match xs.head?, xs.getLast? with
  | some first, some last => (Finset.Ioo first last \ xs.toFinset).card
  | _, _ => 0

@[simp] theorem missed_nil : missed [] = 0 := rfl

@[simp] theorem missed_singleton (k : Nat) : missed [k] = 0 := by
  simp [missed]

/-- Nothing was missed of a list without holes. -/
theorem missed_eq_zero {xs : List Nat}
    (dense : ∀ a ∈ xs, ∀ b ∈ xs, ∀ k, a < k → k < b → k ∈ xs) : missed xs = 0 := by
  unfold missed
  split
  · rename_i first last there there'
    rw [Finset.card_eq_zero, Finset.sdiff_eq_empty_iff_subset]
    intro k between
    obtain ⟨above, below⟩ := Finset.mem_Ioo.mp between
    exact List.mem_toFinset.mpr
      (dense first (List.mem_of_mem_head? there) last (List.mem_of_getLast? there') k above below)
  · rfl

/-- The numbers of a strictly increasing list lie between its first and its last. -/
theorem mem_Icc_of_increasing {xs : List Nat} (increasing : xs.Pairwise (· < ·)) {a b : Nat}
    (first : xs.head? = some a) (last : xs.getLast? = some b) {k : Nat} (member : k ∈ xs) :
    k ∈ Finset.Icc a b := by
  rw [Finset.mem_Icc]
  refine ⟨?_, ?_⟩
  · obtain ⟨rest, rfl⟩ := List.head?_eq_some_iff.mp first
    rcases List.mem_cons.mp member with rfl | later
    · exact le_rfl
    · exact (List.rel_of_pairwise_cons increasing later).le
  · obtain ⟨before, rfl⟩ := List.getLast?_eq_some_iff.mp last
    rcases List.mem_append.mp member with earlier | own
    · exact (List.pairwise_append.mp increasing).2.2 k earlier b List.mem_cons_self |>.le
    · exact (List.mem_singleton.mp own).le

/-- What was missed and what was seen make up the span. -/
theorem missed_add_length {xs : List Nat} (increasing : xs.Pairwise (· < ·)) {a b : Nat}
    (first : xs.head? = some a) (last : xs.getLast? = some b) :
    missed xs + xs.length = b + 1 - a := by
  have span : Finset.Ioo a b \ xs.toFinset = Finset.Icc a b \ xs.toFinset := by
    ext k
    simp only [Finset.mem_sdiff, Finset.mem_Ioo, Finset.mem_Icc, List.mem_toFinset]
    have firstIn := List.mem_of_mem_head? first
    have lastIn := List.mem_of_mem_getLast? last
    grind
  have inside : xs.toFinset ⊆ Finset.Icc a b := fun k member =>
    mem_Icc_of_increasing increasing first last (List.mem_toFinset.mp member)
  have seen : xs.toFinset.card = xs.length := List.toFinset_card_of_nodup increasing.nodup
  have most := Finset.card_le_card inside
  rw [missed, first, last]
  dsimp only
  rw [span, Finset.card_sdiff_of_subset inside, seen, Nat.card_Icc]
  rw [seen, Nat.card_Icc] at most
  exact Nat.sub_add_cancel most

theorem missed_le {xs : List Nat} (increasing : xs.Pairwise (· < ·)) {b : Nat}
    (last : xs.getLast? = some b) : missed xs ≤ b := by
  cases xs with
  | nil => cases last
  | cons a xs =>
      have span := missed_add_length increasing (a := a) rfl last
      rw [List.length_cons] at span
      omega

/-- A jump from `b` to `c` misses the numbers in between. -/
theorem missed_concat {xs : List Nat} {b c : Nat} (increasing : (xs ++ [c]).Pairwise (· < ·))
    (last : xs.getLast? = some b) : missed (xs ++ [c]) = missed xs + (c - b - 1) := by
  obtain ⟨before, -, jump⟩ := List.pairwise_append.mp increasing
  have later := jump b (List.mem_of_mem_getLast? last) c List.mem_cons_self
  cases xs with
  | nil => cases last
  | cons a xs =>
      have whole := missed_add_length increasing (a := a) (b := c) rfl List.getLast?_concat
      have part := missed_add_length before (a := a) rfl last
      have order := mem_Icc_of_increasing before (a := a) rfl last List.mem_cons_self
      rw [List.length_append, List.length_singleton] at whole
      rw [Finset.mem_Icc] at order
      omega

/-- Seen before all others, `0` adds the numbers up to the next one. -/
theorem missed_zero_cons {xs : List Nat} {a : Nat} (increasing : (0 :: xs).Pairwise (· < ·))
    (first : xs.head? = some a) : missed (0 :: xs) = missed xs + (a - 1) := by
  obtain ⟨rest, rfl⟩ := List.head?_eq_some_iff.mp first
  obtain ⟨positive, tail⟩ := List.pairwise_cons.mp increasing
  obtain ⟨b, last⟩ :=
    Option.isSome_iff_exists.mp (List.getLast?_isSome.mpr (List.cons_ne_nil a rest))
  have whole := missed_add_length increasing (a := 0) (b := b) rfl
    ((List.getLast?_cons_cons).trans last)
  have part := missed_add_length tail (a := a) (b := b) rfl last
  have order := mem_Icc_of_increasing tail (a := a) rfl last List.mem_cons_self
  have later := positive a List.mem_cons_self
  rw [List.length_cons] at whole
  rw [Finset.mem_Icc] at order
  omega

/-- Leaving out `0` changes what was missed exactly when there is something after
it and `1` was missed. -/
theorem missed_nonzero_iff {xs : List Nat} (increasing : xs.Pairwise (· < ·)) :
    missed (xs.filter (· ≠ 0)) = missed xs ↔ (0 ∈ xs → (∃ k ∈ xs, 0 < k) → 1 ∈ xs) := by
  rcases xs with _ | ⟨x, xs⟩
  · simp
  obtain ⟨above, tail⟩ := List.pairwise_cons.mp increasing
  have positive : ∀ k ∈ xs, k ≠ 0 := fun k member => Nat.ne_zero_of_lt (above k member)
  have kept : xs.filter (· ≠ 0) = xs :=
    List.filter_eq_self.mpr fun k member => decide_eq_true (positive k member)
  rcases Nat.eq_zero_or_pos x with rfl | later
  · rw [List.filter_cons_of_neg (by simp), kept]
    rcases xs with _ | ⟨a, xs⟩
    · simp
    · have least : 1 ∈ a :: xs ↔ a = 1 := by
        have first := above a List.mem_cons_self
        refine ⟨fun member => ?_, fun own => own ▸ List.mem_cons_self⟩
        rcases List.mem_cons.mp member with own | rest
        · exact own.symm
        · have order := List.rel_of_pairwise_cons tail rest
          omega
      have first := above a List.mem_cons_self
      rw [missed_zero_cons increasing rfl]
      have others : ∃ k ∈ 0 :: a :: xs, 0 < k :=
        ⟨a, List.mem_cons_of_mem 0 List.mem_cons_self, first⟩
      have one : 1 ∈ 0 :: a :: xs ↔ a = 1 := by
        rw [List.mem_cons, least]
        simp
      simp only [List.mem_cons_self, others, one, forall_const]
      omega
  · have absent : 0 ∉ x :: xs := by
      intro member
      rcases List.mem_cons.mp member with own | rest
      · omega
      · exact positive 0 rest rfl
    have same : (x :: xs).filter (· ≠ 0) = x :: xs := by
      rw [List.filter_cons_of_pos (by simpa using later.ne'), kept]
    rw [same]
    simp only [absent, false_implies]

/-! ## Coverage -/

theorem length_le_of_nodup {xs : List Nat} (nodup : xs.Nodup) {a b : Nat}
    (inside : ∀ k ∈ xs, a ≤ k ∧ k < b) : xs.length ≤ b - a := by
  have subset : xs.toFinset ⊆ Finset.Ico a b := fun k member =>
    Finset.mem_Ico.mpr (inside k (List.mem_toFinset.mp member))
  have card := Finset.card_le_card subset
  rwa [List.toFinset_card_of_nodup nodup, Nat.card_Ico] at card

/-- Such a list has the length of the interval exactly when it covers it. -/
theorem length_eq_iff_covers {xs : List Nat} (nodup : xs.Nodup) {a b : Nat}
    (inside : ∀ k ∈ xs, a ≤ k ∧ k < b) :
    xs.length = b - a ↔ ∀ k, a ≤ k → k < b → k ∈ xs := by
  have subset : xs.toFinset ⊆ Finset.Ico a b := fun k member =>
    Finset.mem_Ico.mpr (inside k (List.mem_toFinset.mp member))
  have card : xs.toFinset.card = xs.length := List.toFinset_card_of_nodup nodup
  refine ⟨?_, ?_⟩
  · intro full k above below
    have all := Finset.eq_of_subset_of_card_le subset (by rw [card, full, Nat.card_Ico])
    exact List.mem_toFinset.mp (all ▸ Finset.mem_Ico.mpr ⟨above, below⟩)
  · intro covers
    have all : xs.toFinset = Finset.Ico a b := by
      refine Finset.Subset.antisymm subset fun k member => ?_
      obtain ⟨above, below⟩ := Finset.mem_Ico.mp member
      exact List.mem_toFinset.mpr (covers k above below)
    rw [← card, all, Nat.card_Ico]

end MiddlewareBench.SeqNumbers
