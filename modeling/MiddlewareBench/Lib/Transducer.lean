import Mathlib.Data.List.Basic

/-!
# Transducers

A transducer is a step function `σ → α → σ × β`: it reads its input one symbol
at a time and answers each symbol with one output. `after` is the state a word
leaves behind, `outputs` the answers in order.

`Implements` relates two transducers through an abstraction of states and a
partial abstraction of symbols: a symbol with no abstract counterpart changes
nothing, any other takes the abstract step. `Implements.after_eq` and
`Implements.output_eq` carry this from one step to whole words.

A part of the state that only some symbols touch depends on these alone
(`foldl_project`).
-/

namespace MiddlewareBench.Transducer

variable {σ α β τ γ δ : Type*}

/-- The state after reading a word. -/
def after (step : σ → α → σ × β) (s : σ) (word : List α) : σ :=
  word.foldl (fun s x => (step s x).1) s

/-- The answers to a word, in order. -/
def outputs (step : σ → α → σ × β) : σ → List α → List β
  | _, [] => []
  | s, x :: word => (step s x).2 :: outputs step (step s x).1 word

variable {step : σ → α → σ × β}

@[simp] theorem after_nil (s : σ) : after step s [] = s := rfl

@[simp] theorem after_cons (s : σ) (x : α) (word : List α) :
    after step s (x :: word) = after step (step s x).1 word := rfl

theorem after_append (s : σ) (left right : List α) :
    after step s (left ++ right) = after step (after step s left) right :=
  List.foldl_append

@[simp] theorem after_concat (s : σ) (word : List α) (x : α) :
    after step s (word ++ [x]) = (step (after step s word) x).1 := by
  rw [after_append, after_cons, after_nil]

@[simp] theorem outputs_nil (s : σ) : outputs step s [] = [] := rfl

@[simp] theorem outputs_cons (s : σ) (x : α) (word : List α) :
    outputs step s (x :: word) = (step s x).2 :: outputs step (step s x).1 word := rfl

theorem outputs_append (s : σ) (left right : List α) :
    outputs step s (left ++ right) =
      outputs step s left ++ outputs step (after step s left) right := by
  induction left generalizing s with
  | nil => rfl
  | cons x left ih => simp only [List.cons_append, outputs_cons, after_cons, ih]

@[simp] theorem outputs_concat (s : σ) (word : List α) (x : α) :
    outputs step s (word ++ [x]) = outputs step s word ++ [(step (after step s word) x).2] := by
  rw [outputs_append, outputs_cons, outputs_nil]

/-- The answer at position `p` is given in the state the first `p` symbols leave. -/
theorem getElem?_outputs (s : σ) (word : List α) (p : Nat) :
    (outputs step s word)[p]? =
      word[p]?.map fun x => (step (after step s (word.take p)) x).2 := by
  induction word generalizing s p with
  | nil => rfl
  | cons x word ih =>
      cases p with
      | zero => rfl
      | succ p =>
          rw [outputs_cons, List.getElem?_cons_succ, List.getElem?_cons_succ, List.take_succ_cons,
            after_cons]
          exact ih _ p

/-- Every answer is the answer to some symbol of the word, after those before it. -/
theorem mem_outputs {s : σ} {word : List α} {y : β} :
    y ∈ outputs step s word ↔
      ∃ before x rest, word = before ++ x :: rest ∧ (step (after step s before) x).2 = y := by
  refine ⟨?_, ?_⟩
  · induction word generalizing s with
    | nil => exact fun member => nomatch member
    | cons x word ih =>
        intro member
        rcases List.mem_cons.mp member with rfl | later
        · exact ⟨[], x, word, rfl, rfl⟩
        · obtain ⟨before, z, rest, rfl, answer⟩ := ih later
          exact ⟨x :: before, z, rest, rfl, answer⟩
  · intro answered
    rcases answered with ⟨before, x, rest, rfl, rfl⟩
    rw [outputs_append, outputs_cons]
    exact List.mem_append_right _ List.mem_cons_self

/-- `step` answers as `step'` does on the abstracted symbols: `abs` relates the
states, `sym` gives a symbol its abstract counterpart, and a symbol without one
is answered by `idle` and leaves the state as it was. -/
structure Implements (step : σ → α → σ × β) (step' : τ → γ → τ × δ) (ok : α → Prop)
    (abs : σ → τ) (sym : α → Option γ) (out : δ → β) (idle : β) : Prop where
  skip : ∀ s x, sym x = none → step s x = (s, idle)
  answer : ∀ s x y, ok x → sym x = some y →
    abs (step s x).1 = (step' (abs s) y).1 ∧ (step s x).2 = out (step' (abs s) y).2

section Implements

variable {step' : τ → γ → τ × δ} {ok : α → Prop} {abs : σ → τ} {sym : α → Option γ}
  {out : δ → β} {idle : β}

/-- Along a word, the concrete state abstracts to the abstract one. -/
theorem Implements.after_eq (impl : Implements step step' ok abs sym out idle)
    (s : σ) {word : List α} (good : ∀ x ∈ word, ok x) :
    abs (after step s word) = after step' (abs s) (word.filterMap sym) := by
  induction word generalizing s with
  | nil => rfl
  | cons x word ih =>
      have rest := fun y member => good y (List.mem_cons_of_mem x member)
      cases counterpart : sym x with
      | none =>
          rw [List.filterMap_cons_none counterpart, after_cons, impl.skip s x counterpart]
          exact ih s rest
      | some y =>
          rw [List.filterMap_cons_some counterpart, after_cons, after_cons,
            ← (impl.answer s x y (good x List.mem_cons_self) counterpart).1]
          exact ih _ rest

/-- The answer to the symbol after a word is the abstract answer to its
counterpart. -/
theorem Implements.output_eq (impl : Implements step step' ok abs sym out idle)
    (s : σ) {word : List α} (good : ∀ x ∈ word, ok x) {x : α} {y : γ} (okx : ok x)
    (counterpart : sym x = some y) :
    (step (after step s word) x).2 =
      out (step' (after step' (abs s) (word.filterMap sym)) y).2 := by
  rw [← impl.after_eq s good]
  exact (impl.answer _ x y okx counterpart).2

/-- When every symbol has a counterpart, so does every answer. -/
theorem Implements.outputs_eq (impl : Implements step step' ok abs sym out idle)
    (s : σ) {word : List α} {pieces : List γ} (good : ∀ x ∈ word, ok x)
    (counterparts : word.map sym = pieces.map some) :
    outputs step s word = (outputs step' (abs s) pieces).map out := by
  induction word generalizing s pieces with
  | nil =>
      cases pieces with
      | nil => rfl
      | cons _ _ => cases counterparts
  | cons x word ih =>
      cases pieces with
      | nil => cases counterparts
      | cons y pieces =>
          simp only [List.map_cons, List.cons.injEq] at counterparts
          rcases counterparts with ⟨head, tail⟩
          obtain ⟨state, output⟩ := impl.answer s x y (good x List.mem_cons_self) head
          rw [outputs_cons, outputs_cons, List.map_cons, output,
            ih _ (fun z member => good z (List.mem_cons_of_mem x member)) tail, state]

end Implements

/-! ## Parts of a state -/

/-- A part of the state that the symbols outside of `p` leave alone, and that those of
`p` change by itself, is what the symbols of `p` make of it. -/
theorem foldl_project {run : σ → α → σ} {part : σ → τ} {p : α → Bool}
    (skip : ∀ s x, p x = false → part (run s x) = part s)
    (keep : ∀ s s' x, p x = true → part s = part s' → part (run s x) = part (run s' x))
    {s s' : σ} (same : part s = part s') (word : List α) :
    part (word.foldl run s) = part ((word.filter p).foldl run s') := by
  induction word generalizing s s' with
  | nil => exact same
  | cons x word ih =>
      rw [List.foldl_cons]
      cases touches : p x with
      | true =>
          rw [List.filter_cons_of_pos touches, List.foldl_cons]
          exact ih (keep s s' x touches same)
      | false =>
          rw [List.filter_cons_of_neg (by rw [touches]; exact Bool.false_ne_true)]
          exact ih ((skip s x touches).trans same)

end MiddlewareBench.Transducer
