import Mathlib.Logic.Function.Basic
import Mathlib.Logic.Relation
import Mathlib.Tactic.Common

/-!
# Processes that share a state

Processes make calls on a shared state, one call at a time and in any order; between its calls a
process acts alone. A logic of rely and guarantee for them: what a process asserts about the shared
state has to withstand the calls of the others, and what it does has to respect what they assert.

## Main definitions

* `Interleave.Proc I α`: a process that makes the calls of the interface `I`
* `Interleave.run act`: the processes after a schedule
* `Interleave.Contract`: the invariant of the state, and what the calls of each process may do
* `Interleave.Safe`: the judgment of the logic

## Main results

* `Interleave.Safe.bind`, `Interleave.Safe.perform`: the rules
* `Interleave.safe_run`: processes that are safe each on their own are safe together
-/

namespace Interleave

/-- The calls of a system, each with the type of its replies. -/
structure Interface where
  Call : Type
  Reply : Call → Type

/-- A process: it is done, it is about to make a call, or it was killed. -/
inductive Proc (I : Interface) (α : Type)
  | done (a : α)
  | call (c : I.Call) (next : I.Reply c → Proc I α)
  | killed

variable {I : Interface} {α β : Type}

namespace Proc

def bind : Proc I α → (α → Proc I β) → Proc I β
  | done a, f => f a
  | call c next, f => call c fun r => (next r).bind f
  | killed, _ => killed

instance : Monad (Proc I) where
  pure := done
  bind := bind

end Proc

/-- A single call. -/
def perform (c : I.Call) : Proc I (I.Reply c) := .call c .done

/-! ## Schedules -/

section Run

variable {ι σ χ : Type} [DecidableEq ι]

/-- The effect of the calls of each process, under what the environment chooses. -/
abbrev Effects (I : Interface) (ι σ χ : Type) : Type :=
  ι → χ → (c : I.Call) → σ → I.Reply c × σ

/-- One turn of the process `i`. -/
def step (act : Effects I ι σ χ) (config : σ × (ι → Proc I α)) (turn : ι × χ) :
    σ × (ι → Proc I α) :=
  match config.2 turn.1 with
  | .call c next =>
    let (r, s) := act turn.1 turn.2 c config.1
    (s, Function.update config.2 turn.1 (next r))
  | _ => config

/-- The turns of a schedule. -/
def run (act : Effects I ι σ χ) (config : σ × (ι → Proc I α)) (schedule : List (ι × χ)) :
    σ × (ι → Proc I α) :=
  schedule.foldl (step act) config

theorem step_of_call {act : Effects I ι σ χ} {config : σ × (ι → Proc I α)} {turn : ι × χ}
    {c : I.Call} {next : I.Reply c → Proc I α} (h : config.2 turn.1 = .call c next) :
    step act config turn = ((act turn.1 turn.2 c config.1).2,
      Function.update config.2 turn.1 (next (act turn.1 turn.2 c config.1).1)) := by
  unfold step
  rw [h]

/-- A turn of a process that makes no call changes nothing. -/
theorem step_cases (act : Effects I ι σ χ) (config : σ × (ι → Proc I α)) (turn : ι × χ) :
    step act config turn = config ∨ ∃ c next, config.2 turn.1 = .call c next := by
  cases h : config.2 turn.1 with
  | call c next => exact .inr ⟨c, next, rfl⟩
  | done a =>
    left
    unfold step
    rw [h]
  | killed =>
    left
    unfold step
    rw [h]

end Run

/-! ## Rely and guarantee -/

/-- An invariant of the shared state, and what the calls of each process may do to it. -/
structure Contract (ι σ : Type) where
  Inv : σ → Prop
  Guar : ι → σ → σ → Prop

section Logic

variable {ι σ χ : Type} (act : Effects I ι σ χ) (C : Contract ι σ) (i : ι)

/-- What may happen to the state while the process `i` waits. -/
def Contract.Others : σ → σ → Prop :=
  Relation.ReflTransGen fun s s' => C.Inv s' ∧ ∃ j, j ≠ i ∧ C.Guar j s s'

/-- An assertion that withstands the calls of the other processes. -/
def Contract.Stable (P : σ → Prop) : Prop :=
  ∀ j, j ≠ i → ∀ s s', C.Guar j s s' → C.Inv s' → P s → P s'

/-- The process respects the contract, and where it is done it has established `Q`. -/
def Safe (Q : α → σ → Prop) : Proc I α → σ → Prop
  | .done a, s => Q a s
  | .killed, _ => True
  | .call c next, s => ∀ s₁, C.Others i s s₁ → C.Inv s₁ → ∀ choice,
      C.Guar i s₁ (act i choice c s₁).2 ∧ C.Inv (act i choice c s₁).2 ∧
        Safe Q (next (act i choice c s₁).1) (act i choice c s₁).2

variable {act C i} {Q Q' : α → σ → Prop} {P : σ → Prop} {s s' : σ}

theorem Contract.Stable.and {P' : σ → Prop} (h : C.Stable i P) (h' : C.Stable i P') :
    C.Stable i fun s => P s ∧ P' s :=
  fun j hj s s' hg hi hp => ⟨h j hj s s' hg hi hp.1, h' j hj s s' hg hi hp.2⟩

theorem Contract.stable_true : C.Stable i fun _ => True := fun _ _ _ _ _ _ h => h

theorem Contract.Stable.others (h : C.Stable i P) (ho : C.Others i s s') (hp : P s) : P s' := by
  induction ho with
  | refl => exact hp
  | tail _ hstep ih =>
    obtain ⟨hinv, j, hj, hg⟩ := hstep
    exact h j hj _ _ hg hinv ih

theorem safe_pure {a : α} : Safe (I := I) act C i Q (pure a) s ↔ Q a s := Iff.rfl

/-- **Consequence.** -/
theorem Safe.mono {p : Proc I α} (h : Safe act C i Q p s) (hQ : ∀ a s, Q a s → Q' a s) :
    Safe act C i Q' p s := by
  induction p generalizing s with
  | done a => exact hQ a s h
  | killed => trivial
  | call c next ih =>
    intro s₁ ho hinv choice
    obtain ⟨hg, hinv', hsafe⟩ := h s₁ ho hinv choice
    exact ⟨hg, hinv', ih _ hsafe⟩

/-- **Sequencing.** -/
theorem Safe.bind {p : Proc I α} {f : α → Proc I β} {R : β → σ → Prop}
    (h : Safe act C i (fun a s => Safe act C i R (f a) s) p s) :
    Safe act C i R (p >>= f) s := by
  change Safe act C i R (p.bind f) s
  induction p generalizing s with
  | done a => exact h
  | killed => trivial
  | call c next ih =>
    intro s₁ ho hinv choice
    obtain ⟨hg, hinv', hsafe⟩ := h s₁ ho hinv choice
    exact ⟨hg, hinv', ih _ hsafe⟩

/-- **The rule of a call**, from an assertion that is stable. -/
theorem Safe.perform {c : I.Call} {f : I.Reply c → Proc I α} (hP : C.Stable i P) (hp : P s)
    (h : ∀ s₁, P s₁ → C.Inv s₁ → ∀ choice,
      C.Guar i s₁ (act i choice c s₁).2 ∧ C.Inv (act i choice c s₁).2 ∧
        Safe act C i Q (f (act i choice c s₁).1) (act i choice c s₁).2) :
    Safe act C i Q (Interleave.perform c >>= f) s :=
  fun s₁ ho hinv choice => h s₁ (hP.others ho hp) hinv choice

/-- The rule of a call that changes nothing. -/
theorem Safe.query {c : I.Call} {f : I.Reply c → Proc I α} (hG : ∀ s, C.Guar i s s)
    (hc : ∀ choice s, (act i choice c s).2 = s) (hP : C.Stable i P) (hp : P s)
    (h : ∀ s₁, P s₁ → C.Inv s₁ → ∀ choice, Safe act C i Q (f (act i choice c s₁).1) s₁) :
    Safe act C i Q (Interleave.perform c >>= f) s := by
  refine Safe.perform hP hp fun s₁ hp₁ hinv choice => ?_
  rw [hc]
  exact ⟨hG s₁, hinv, h s₁ hp₁ hinv choice⟩

/-- What the others do keeps a process safe. -/
theorem Safe.others {p : Proc I α} (hQ : ∀ a, C.Stable i (Q a)) (ho : C.Others i s s')
    (h : Safe act C i Q p s) : Safe act C i Q p s' := by
  cases p with
  | done a => exact (hQ a).others ho h
  | killed => trivial
  | call c next => exact fun s₁ ho₁ hinv choice => h s₁ (ho.trans ho₁) hinv choice

end Logic

section Together

variable {ι σ χ : Type} [DecidableEq ι] {act : Effects I ι σ χ} {C : Contract ι σ}
  {Q : ι → α → σ → Prop}

/-- All processes are safe, and the invariant holds. -/
structure AllSafe (act : Effects I ι σ χ) (C : Contract ι σ) (Q : ι → α → σ → Prop)
    (config : σ × (ι → Proc I α)) : Prop where
  inv : C.Inv config.1
  safe : ∀ i, Safe act C i (Q i) (config.2 i) config.1

/-- **A turn keeps all processes safe**, and it does what the contract allows. -/
theorem AllSafe.step (hG : ∀ i s, C.Guar i s s) (hQ : ∀ i a, C.Stable i (Q i a))
    {config : σ × (ι → Proc I α)} (h : AllSafe act C Q config) (turn : ι × χ) :
    AllSafe act C Q (step act config turn) ∧ C.Guar turn.1 config.1 (step act config turn).1 := by
  rcases step_cases act config turn with heq | ⟨c, next, hcall⟩
  · rw [heq]
    exact ⟨h, hG _ _⟩
  · have hsafe := h.safe turn.1
    rw [hcall] at hsafe
    obtain ⟨hg, hinv, hnext⟩ := hsafe config.1 .refl h.inv turn.2
    rw [step_of_call hcall]
    refine ⟨⟨hinv, fun j => ?_⟩, hg⟩
    dsimp only
    by_cases hj : j = turn.1
    · subst hj
      rwa [Function.update_self]
    · rw [Function.update_of_ne hj]
      exact (h.safe j).others (hQ j) (.single ⟨hinv, turn.1, Ne.symm hj, hg⟩)

/-- **Processes that are safe each on their own are safe together.** -/
theorem safe_run (hG : ∀ i s, C.Guar i s s) (hQ : ∀ i a, C.Stable i (Q i a))
    {config : σ × (ι → Proc I α)} (h : AllSafe act C Q config) (schedule : List (ι × χ)) :
    AllSafe act C Q (run act config schedule) := by
  induction schedule generalizing config with
  | nil => exact h
  | cons turn schedule ih => exact ih (h.step hG hQ turn).1

end Together

end Interleave
