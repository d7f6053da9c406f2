import Mathlib.Init

/-!
# Computations that can fail

What a sequence of steps that may raise an error yields: `bind_eq_ok` takes two
steps apart, `mapM_eq_pure`, `exists_of_mapM_eq_ok` and `getElem?_of_mapM_eq_some` the
steps over a list.
-/

namespace MiddlewareBench.Fallible

universe u

variable {ε : Type*} {α β : Type u}

theorem toOption_eq_some {e : Except ε α} {a : α} : e.toOption = some a ↔ e = .ok a := by
  cases e <;> simp [Except.toOption]

theorem bind_eq_ok {x : Except ε α} {f : α → Except ε β} {b : β} :
    x >>= f = .ok b ↔ ∃ a, x = .ok a ∧ f a = .ok b := by
  cases x with
  | error e =>
      refine ⟨?_, ?_⟩
      · intro failed
        cases failed
      · intro found
        rcases found with ⟨a, isOk, -⟩
        cases isOk
  | ok a =>
      refine ⟨?_, ?_⟩
      · exact fun ran => ⟨a, rfl, ran⟩
      · intro found
        rcases found with ⟨a', isOk, ran⟩
        cases isOk
        exact ran

theorem map_eq_ok {x : Except ε α} {f : α → β} {b : β} :
    x.map f = .ok b ↔ ∃ a, x = .ok a ∧ f a = b := by
  cases x <;> simp [Except.map]

/-- Steps over a list none of which fails, in any monad. -/
theorem mapM_eq_pure {m : Type u → Type*} [Monad m] [LawfulMonad m] {α : Type*} {f : α → m β}
    {g : α → β} {xs : List α} (all : ∀ x ∈ xs, f x = pure (g x)) :
    xs.mapM f = pure (xs.map g) := by
  induction xs with
  | nil => rfl
  | cons x xs ih =>
      rw [List.mapM_cons, all x List.mem_cons_self,
        ih fun y member => all y (List.mem_cons_of_mem x member), pure_bind, pure_bind]
      rfl

/-- Steps whose results are those of other steps, converted. -/
theorem mapM_eq_map {m : Type u → Type*} [Monad m] [LawfulMonad m] {α : Type*} {γ : Type u}
    {f : α → m γ} {g : α → m β} {h : β → γ} {xs : List α} (all : ∀ x ∈ xs, f x = h <$> g x) :
    xs.mapM f = List.map h <$> xs.mapM g := by
  induction xs with
  | nil => simp
  | cons x xs ih =>
      have rest := ih fun y member => all y (List.mem_cons_of_mem x member)
      rw [List.mapM_cons, List.mapM_cons, all x List.mem_cons_self, rest]
      simp

theorem mapM_eq_ok {f : α → Except ε β} {g : α → β} {xs : List α}
    (all : ∀ x ∈ xs, f x = .ok (g x)) : xs.mapM f = .ok (xs.map g) :=
  mapM_eq_pure all

/-- Where the steps over a list succeed, each does. -/
theorem exists_of_mapM_eq_ok {f : α → Except ε β} {xs : List α} {ys : List β}
    (ran : xs.mapM f = .ok ys) {x : α} (member : x ∈ xs) : ∃ y, f x = .ok y := by
  induction xs generalizing ys with
  | nil => cases member
  | cons head xs ih =>
      rw [List.mapM_cons] at ran
      obtain ⟨y, first, rest⟩ := bind_eq_ok.mp ran
      obtain ⟨ys', others, -⟩ := bind_eq_ok.mp rest
      rcases List.mem_cons.mp member with rfl | later
      · exact ⟨y, first⟩
      · exact ih others later

/-- Where the steps over a list yield values, each yields its own. -/
theorem getElem?_of_mapM_eq_some {α : Type*} {f : α → Option β} {xs : List α} {ys : List β}
    (ran : xs.mapM f = some ys) (i : Nat) : ys[i]? = xs[i]?.bind f := by
  induction xs generalizing ys i with
  | nil =>
      cases ran
      rfl
  | cons x xs ih =>
      rw [List.mapM_cons, Option.bind_eq_bind, Option.bind_eq_some_iff] at ran
      obtain ⟨y, first, rest⟩ := ran
      rw [Option.bind_eq_bind, Option.bind_eq_some_iff] at rest
      obtain ⟨ys', others, same⟩ := rest
      cases same
      cases i with
      | zero => exact first.symm
      | succ i => exact ih others i

end MiddlewareBench.Fallible
