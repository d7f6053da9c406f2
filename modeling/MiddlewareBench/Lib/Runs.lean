import Mathlib.Data.List.Induction

/-!
# Runs of a partial step function

A system is a step function `σ → α → Option σ`: an action either takes a state
to the next one or is not enabled in it. `run` takes a list of actions, in the
order they happen, whoever takes them; an interleaving of several parties is
such a list.

`run_invariant` carries what one step preserves to whole runs, and
`run_history` does so for a predicate that also speaks of the actions taken so
far, such as one that says which action was taken last (`Since`). `Simulates`
relates a system to a more abstract one, each of whose actions answers for none,
one or several abstract ones; `Simulates.run` carries it from one step to whole
runs. `run_budget` bounds how often some actions are taken by what pays for them,
and `seen` is what an observer makes of a run.
-/

namespace MiddlewareBench.Runs

variable {σ α τ β : Type*}

/-- The state a list of actions leads to, if each is enabled when its turn comes. -/
def run (step : σ → α → Option σ) (s : σ) (acts : List α) : Option σ :=
  acts.foldlM step s

variable {step : σ → α → Option σ}

@[simp] theorem run_nil (s : σ) : run step s [] = some s := rfl

theorem run_cons (s : σ) (a : α) (acts : List α) :
    run step s (a :: acts) = (step s a).bind fun t => run step t acts := rfl

theorem run_cons_eq_some {s t : σ} {a : α} {acts : List α} :
    run step s (a :: acts) = some t ↔ ∃ m, step s a = some m ∧ run step m acts = some t := by
  rw [run_cons, Option.bind_eq_some_iff]

theorem run_append_eq_some {s t : σ} {left right : List α} :
    run step s (left ++ right) = some t ↔
      ∃ m, run step s left = some m ∧ run step m right = some t := by
  rw [run, List.foldlM_append]
  exact Option.bind_eq_some_iff

theorem run_singleton {s t : σ} {a : α} : run step s [a] = some t ↔ step s a = some t := by
  rw [run_cons_eq_some]
  refine ⟨?_, ?_⟩
  · intro ran
    rcases ran with ⟨m, stepped, same⟩
    rw [← Option.some.inj same]
    exact stepped
  · exact fun stepped => ⟨t, stepped, rfl⟩

theorem run_concat_eq_some {s t : σ} {acts : List α} {a : α} :
    run step s (acts ++ [a]) = some t ↔ ∃ m, run step s acts = some m ∧ step m a = some t := by
  simp only [run_append_eq_some, run_singleton]

/-- A predicate on the actions taken so far and the state they led to holds after
every run when it holds at the start and every step keeps it. -/
theorem run_history {P : List α → σ → Prop} {s : σ} (start : P [] s)
    (keeps : ∀ past m a t, P past m → step m a = some t → P (past ++ [a]) t)
    {acts : List α} {t : σ} (ran : run step s acts = some t) : P acts t := by
  induction acts using List.reverseRecOn generalizing t with
  | nil =>
      rw [← Option.some.inj ran]
      exact start
  | append_singleton past a ih =>
      obtain ⟨m, before, stepped⟩ := run_concat_eq_some.mp ran
      exact keeps past m a t (ih before) stepped

/-- What every step keeps, every run keeps. -/
theorem run_invariant {P : σ → Prop} {s : σ} (start : P s)
    (keeps : ∀ m a t, P m → step m a = some t → P t)
    {acts : List α} {t : σ} (ran : run step s acts = some t) : P t :=
  run_history (P := fun _ => P) start (fun _ => keeps) ran

/-- A step that is enabled under a condition. -/
theorem guard_eq_some {p : Prop} [Decidable p] {s t : σ} :
    (if p then some s else none) = some t ↔ p ∧ s = t := by
  rw [Option.ite_none_right_eq_some, Option.some.injEq]

/-- A step that is enabled unless a condition holds. -/
theorem unless_eq_some {p : Prop} [Decidable p] {s t : σ} :
    (if p then none else some s) = some t ↔ ¬ p ∧ s = t := by
  rw [Option.ite_none_left_eq_some, Option.some.injEq]

/-! ## What has happened -/

/-- What was at position `i` stays there. -/
theorem getElem?_append_of_some {xs ys : List α} {i : Nat} {x : α}
    (there : xs[i]? = some x) : (xs ++ ys)[i]? = some x := by
  obtain ⟨inside, -⟩ := List.getElem?_eq_some_iff.mp there
  rw [List.getElem?_append_left inside, there]

/-- What is at a position of a list with one more element. -/
theorem getElem?_concat_cases {xs : List α} {x y : α} {i : Nat}
    (there : (xs ++ [x])[i]? = some y) : xs[i]? = some y ∨ i = xs.length ∧ y = x := by
  rcases Nat.lt_trichotomy i xs.length with before | rfl | after
  · rw [List.getElem?_append_left before] at there
    exact .inl there
  · rw [List.getElem?_concat_length, Option.some.injEq] at there
    exact .inr ⟨rfl, there.symm⟩
  · rw [List.getElem?_eq_none (by rw [List.length_append]; exact after)] at there
    cases there

/-- Action `a` was taken when `P` held of the actions before it, and only actions
with `Q` have been taken since. -/
def Since (P : List α → Prop) (a : α) (Q : α → Prop) (acts : List α) : Prop :=
  ∃ past rest, acts = past ++ a :: rest ∧ P past ∧ ∀ b ∈ rest, Q b

section Since

variable {P : List α → Prop} {Q : α → Prop} {a b : α} {acts : List α}

theorem Since.now (held : P acts) : Since P a Q (acts ++ [a]) := by
  refine ⟨acts, [], rfl, held, ?_⟩
  intro b member
  cases member

theorem Since.keep (since : Since P a Q acts) (quiet : Q b) : Since P a Q (acts ++ [b]) := by
  rcases since with ⟨past, rest, rfl, held, all⟩
  refine ⟨past, rest ++ [b], List.append_assoc .., held, ?_⟩
  intro c member
  rcases List.mem_append.mp member with old | new
  · exact all c old
  · rw [List.mem_singleton.mp new]
    exact quiet

end Since

/-! ## What a run costs -/

/-- Actions that spend from a budget are paid for by what was in it and by the
actions that add `n` to it. -/
theorem run_budget {I : σ → Prop} {left : σ → Nat} {spends refills : α → Bool} {n : Nat}
    (keeps : ∀ s a t, I s → step s a = some t →
      I t ∧ left t + (spends a).toNat ≤ left s + n * (refills a).toNat)
    {s t : σ} {acts : List α} (start : I s) (ran : run step s acts = some t) :
    left t + acts.countP spends ≤ left s + n * acts.countP refills := by
  suffices total : I t ∧ left t + acts.countP spends ≤ left s + n * acts.countP refills from
    total.2
  refine run_history (P := fun past m => I m ∧
    left m + past.countP spends ≤ left s + n * past.countP refills) ⟨start, Nat.le_refl _⟩ ?_ ran
  intro past m a t before stepped
  obtain ⟨kept, paid⟩ := keeps m a t before.1 stepped
  have ih := before.2
  have counted : ∀ p : α → Bool, (past ++ [a]).countP p = past.countP p + (p a).toNat := by
    intro p
    rw [List.countP_append, List.countP_singleton]
    cases p a <;> rfl
  refine ⟨kept, ?_⟩
  rw [counted, counted, Nat.mul_add]
  omega

/-! ## What a run lets be seen -/

/-- What is seen of a run: of each action, what `see` makes of it in the state it
is taken in. -/
def seen (step : σ → α → Option σ) (see : σ → α → Option β) : σ → List α → List β
  | _, [] => []
  | s, a :: acts =>
    match step s a with
    | some t => (see s a).toList ++ seen step see t acts
    | none => []

/-- One action more is seen after all the others. -/
theorem seen_concat {see : σ → α → Option β} {s m t : σ} {acts : List α} {a : α}
    (ran : run step s acts = some m) (stepped : step m a = some t) :
    seen step see s (acts ++ [a]) = seen step see s acts ++ (see m a).toList := by
  induction acts generalizing s with
  | nil =>
      rw [← Option.some.inj ran] at stepped ⊢
      simp only [List.nil_append, seen, stepped, List.append_nil]
  | cons b acts ih =>
      obtain ⟨n, first, rest⟩ := run_cons_eq_some.mp ran
      simp only [List.cons_append, seen, first]
      rw [ih rest, List.append_assoc]

/-- As much is seen as there are actions of the kind that can be seen. -/
theorem length_seen {see : σ → α → Option β} {visible : α → Bool} {s t : σ} {acts : List α}
    (shows : ∀ m a u, step m a = some u → (see m a).isSome = visible a)
    (ran : run step s acts = some t) :
    (seen step see s acts).length = acts.countP visible := by
  induction acts generalizing s with
  | nil => rfl
  | cons a acts ih =>
      obtain ⟨m, stepped, rest⟩ := run_cons_eq_some.mp ran
      simp only [seen, stepped, List.length_append, ih rest, List.countP_cons,
        ← shows s a m stepped]
      cases see s a <;> simp [Nat.add_comm]

/-! ## Following another system -/

/-- `step'` can follow `step`: from related states, an action is answered by the
abstract actions `label` gives it, and leads to related states. -/
def Simulates (step : σ → α → Option σ) (step' : τ → β → Option τ) (label : α → List β)
    (related : σ → τ → Prop) : Prop :=
  ∀ s a t u, related s u → step s a = some t →
    ∃ v, run step' u (label a) = some v ∧ related t v

/-- A run is followed by the abstract actions of its labels. -/
theorem Simulates.run {step' : τ → β → Option τ} {label : α → List β}
    {related : σ → τ → Prop} (simulates : Simulates step step' label related) {s t : σ} {u : τ}
    (start : related s u) {acts : List α} (ran : Runs.run step s acts = some t) :
    ∃ v, Runs.run step' u (acts.flatMap label) = some v ∧ related t v := by
  induction acts generalizing s u with
  | nil =>
      rw [← Option.some.inj ran]
      exact ⟨u, rfl, start⟩
  | cons a acts ih =>
      obtain ⟨m, stepped, rest⟩ := run_cons_eq_some.mp ran
      obtain ⟨w, answered, related⟩ := simulates s a m u start stepped
      obtain ⟨v, followed, last⟩ := ih related rest
      exact ⟨v, run_append_eq_some.mpr ⟨w, answered, followed⟩, last⟩

end MiddlewareBench.Runs
