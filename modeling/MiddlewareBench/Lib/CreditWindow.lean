import Mathlib.Data.List.Count
import MiddlewareBench.Lib.Runs

/-!
# A leaky credit window

A sender may have a limited number of messages outstanding. It acquires a
credit for each; the credit comes back when the message is done with, or leaks:
the message is gone and its credit is not returned.

`Window` carries the bound that makes it a window, so no state exceeds the
limit. `run_leaked` counts the leaks of a run, and `outstanding_eq_spent_iff`
says what they cost.
-/

namespace MiddlewareBench.CreditWindow

open Runs

/-- The credits of a window of `limit` that are out: those of messages still
outstanding, and those that leaked. -/
@[ext] structure Window (limit : Nat) where
  outstanding : Nat
  leaked : Nat
  room : outstanding + leaked ≤ limit

inductive Action
  | acquire
  | release
  | leak
  deriving DecidableEq, Repr

variable {limit : Nat}

/-- How many credits are not available. -/
def Window.spent (w : Window limit) : Nat := w.outstanding + w.leaked

/-- The window before any message. -/
def Window.full (limit : Nat) : Window limit := ⟨0, 0, Nat.zero_le _⟩

def step (w : Window limit) : Action → Option (Window limit)
  | .acquire =>
    if free : w.spent < limit then
      some ⟨w.outstanding + 1, w.leaked, by rw [Window.spent] at free; omega⟩
    else none
  | .release =>
    if 0 < w.outstanding then
      some ⟨w.outstanding - 1, w.leaked, by have := w.room; omega⟩
    else none
  | .leak =>
    if some' : 0 < w.outstanding then
      some ⟨w.outstanding - 1, w.leaked + 1, by have := w.room; omega⟩
    else none

/-! ## What a step does -/

theorem Window.outstanding_le (w : Window limit) : w.outstanding ≤ limit :=
  Nat.le_trans (Nat.le_add_right _ _) w.room

/-- The whole window is usable exactly when nothing leaked. -/
theorem Window.outstanding_eq_spent_iff (w : Window limit) :
    w.spent = w.outstanding ↔ w.leaked = 0 := by
  unfold Window.spent
  omega

theorem exists_acquire {w : Window limit} (free : w.spent < limit) :
    ∃ w', step w .acquire = some w' ∧ w'.outstanding = w.outstanding + 1 ∧
      w'.leaked = w.leaked :=
  ⟨_, dif_pos free, rfl, rfl⟩

theorem exists_release {w : Window limit} (out : 0 < w.outstanding) :
    ∃ w', step w .release = some w' ∧ w'.outstanding + 1 = w.outstanding ∧
      w'.leaked = w.leaked :=
  ⟨_, if_pos out, Nat.sub_add_cancel out, rfl⟩

theorem exists_leak {w : Window limit} (out : 0 < w.outstanding) :
    ∃ w', step w .leak = some w' ∧ w'.outstanding + 1 = w.outstanding ∧
      w'.leaked = w.leaked + 1 :=
  ⟨_, dif_pos out, Nat.sub_add_cancel out, rfl⟩

/-- Only a leak changes how many credits have leaked. -/
theorem step_leaked {w w' : Window limit} {a : Action} (stepped : step w a = some w') :
    w'.leaked = w.leaked + [a].count .leak := by
  cases a with
  | acquire =>
      simp only [step, Option.dite_none_right_eq_some, Option.some.injEq] at stepped
      rcases stepped with ⟨-, rfl⟩
      rfl
  | release =>
      simp only [step, Option.ite_none_right_eq_some, Option.some.injEq] at stepped
      rcases stepped with ⟨-, rfl⟩
      rfl
  | leak =>
      simp only [step, Option.dite_none_right_eq_some, Option.some.injEq] at stepped
      rcases stepped with ⟨-, rfl⟩
      rfl

/-! ## What a run does -/

/-- The leaks of a run are what its window has lost. -/
theorem run_leaked {w w' : Window limit} {acts : List Action}
    (ran : run step w acts = some w') : w'.leaked = w.leaked + acts.count .leak := by
  refine run_history (P := fun past m => m.leaked = w.leaked + past.count .leak) rfl ?_ ran
  intro past m a t before stepped
  rw [step_leaked stepped, before, List.count_append, Nat.add_assoc]

end MiddlewareBench.CreditWindow
