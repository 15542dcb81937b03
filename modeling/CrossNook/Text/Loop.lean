import Mathlib.Tactic

/-!
# Loops whose turns consume input

A loop is iterated by a turn function on its state. Turns that shrink a measure never exhaust the
bound that the measure of the initial state gives, so such a loop satisfies its fixpoint equation
and an induction principle over its turns.

## Main definitions

* `Loop.loop step out μ s`: iterate `step` from `s`

## Main results

* `Loop.loop_eq`: the fixpoint equation
* `Loop.loop_induction`: what the last turn establishes and every other turn pulls back, the loop
  establishes
* `Loop.loop_map`: a loop that follows another one turn by turn has the same outcome
-/

namespace Loop

variable {σ β : Type*}

/-- The outcome of one turn. -/
inductive Turn (σ β : Type*)
  | next (s : σ)
  | done (b : β)

/-- The turn with its state and its result mapped. -/
def Turn.map {σ' β' : Type*} (f : σ → σ') (g : β → β') : Turn σ β → Turn σ' β'
  | .next s => .next (f s)
  | .done b => .done (g b)

/-- At most `n` turns; `out` is the result when they do not finish. -/
def run (step : σ → Turn σ β) (out : β) : ℕ → σ → β
  | 0, _ => out
  | n + 1, s =>
    match step s with
    | .done b => b
    | .next s' => run step out n s'

/-- Every turn shrinks the measure. -/
def Shrinks (step : σ → Turn σ β) (μ : σ → ℕ) : Prop :=
  ∀ s s', step s = .next s' → μ s' < μ s

/-- The loop, with the turns that the measure of the initial state allows. -/
def loop (step : σ → Turn σ β) (out : β) (μ : σ → ℕ) (s : σ) : β := run step out (μ s + 1) s

variable {step : σ → Turn σ β} {out : β} {μ : σ → ℕ}

theorem run_congr (h : Shrinks step μ) {n m : ℕ} {s : σ} (hn : μ s < n) (hm : μ s < m) :
    run step out n s = run step out m s := by
  induction n generalizing m s with
  | zero => omega
  | succ n ih =>
    obtain ⟨m, rfl⟩ : ∃ k, m = k + 1 := ⟨m - 1, by omega⟩
    rw [run, run]
    cases hs : step s with
    | done b => rfl
    | next s' =>
      have := h s s' hs
      exact ih (by omega) (by omega)

/-- **The fixpoint equation.** -/
theorem loop_eq (h : Shrinks step μ) (s : σ) :
    loop step out μ s =
      match step s with
      | .done b => b
      | .next s' => loop step out μ s' := by
  rw [loop, run]
  cases hs : step s with
  | done b => rfl
  | next s' => exact run_congr h (h s s' hs) (Nat.lt_succ_self _)

theorem loop_of_done (h : Shrinks step μ) {s : σ} {b : β} (hs : step s = .done b) :
    loop step out μ s = b := by
  rw [loop_eq h, hs]

theorem loop_of_next (h : Shrinks step μ) {s s' : σ} (hs : step s = .next s') :
    loop step out μ s = loop step out μ s' := by
  rw [loop_eq h, hs]

/-- **Induction over the turns of a loop.** -/
theorem loop_induction (h : Shrinks step μ) {P : σ → β → Prop}
    (hdone : ∀ s b, step s = .done b → P s b)
    (hnext : ∀ s s' b, step s = .next s' → P s' b → P s b) (s : σ) :
    P s (loop step out μ s) := by
  induction hm : μ s using Nat.strong_induction_on generalizing s with
  | _ m ih =>
    cases hs : step s with
    | done b =>
      rw [loop_of_done h hs]
      exact hdone s b hs
    | next s' =>
      rw [loop_of_next h hs]
      exact hnext s s' _ hs (ih (μ s') (hm ▸ h s s' hs) s' rfl)

/-- **A loop that follows another one turn by turn** has the same outcome. -/
theorem loop_map {σ' β' : Type*} {step' : σ' → Turn σ' β'} {out' : β'} {μ' : σ' → ℕ} {f : σ → σ'}
    {g : β → β'} (h : Shrinks step μ) (h' : Shrinks step' μ')
    (hstep : ∀ s, step' (f s) = (step s).map f g) (s : σ) :
    loop step' out' μ' (f s) = g (loop step out μ s) := by
  refine loop_induction h (P := fun s b => loop step' out' μ' (f s) = g b) ?_ ?_ s
  · intro s b hs
    have hs' : step' (f s) = .done (g b) := by rw [hstep, hs, Turn.map]
    exact loop_of_done h' hs'
  · intro s s' b hs ih
    have hs' : step' (f s) = .next (f s') := by rw [hstep, hs, Turn.map]
    rw [loop_of_next h' hs', ih]

end Loop
