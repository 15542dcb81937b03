import Mathlib.Tactic

/-!
# Machines driven by events

A program that calls into a system: every call with its answer is an event, and the state of the
program tells which call comes next. An event that is not the next call has no successor. A run is
the list of its events.

## Main definitions

* `EventMachine.run next s events`: the state after the events

## Main results

* `EventMachine.run_induct`: what the start has and every step keeps, about the events so far and
  the state, holds after every run
* `EventMachine.run_split`: a run in the middle
-/

namespace EventMachine

variable {σ ε : Type*}

/-- The state after a list of events; `none` when one of them is not the next call. -/
def run (next : σ → ε → Option σ) (s : σ) (events : List ε) : Option σ := events.foldlM next s

variable {next : σ → ε → Option σ} {s t : σ}

@[simp] theorem run_nil (next : σ → ε → Option σ) (s : σ) : run next s [] = some s := rfl

theorem run_append (next : σ → ε → Option σ) (s : σ) (before after : List ε) :
    run next s (before ++ after) = (run next s before).bind fun t => run next t after :=
  List.foldlM_append

/-- The first call and the others. -/
theorem run_cons_eq_some {e : ε} {events : List ε} (h : run next s (e :: events) = some t) :
    ∃ s', next s e = some s' ∧ run next s' events = some t := by
  rw [run, List.foldlM_cons] at h
  exact Option.bind_eq_some_iff.mp h

/-- **Induction over a run**, with the events so far. -/
theorem run_induct {I : List ε → σ → Prop} (h0 : I [] s)
    (step : ∀ events s s' e, I events s → next s e = some s' → I (events ++ [e]) s')
    {events : List ε} (h : run next s events = some t) : I events t := by
  induction events using List.reverseRecOn generalizing t with
  | nil =>
    obtain rfl := Option.some.inj h
    exact h0
  | append_singleton events e ih =>
    rw [run_append] at h
    obtain ⟨s', hrun, hlast⟩ := Option.bind_eq_some_iff.mp h
    obtain ⟨t', hnext, hnil⟩ := run_cons_eq_some hlast
    obtain rfl := Option.some.inj hnil
    exact step events s' t' e (ih hrun) hnext

/-- **A run in the middle**: the state before an event, the one behind it, and the rest. -/
theorem run_split {before after : List ε} {e : ε} (h : run next s (before ++ e :: after) = some t) :
    ∃ s₁ s₂, run next s before = some s₁ ∧ next s₁ e = some s₂ ∧ run next s₂ after = some t := by
  rw [run_append] at h
  obtain ⟨s₁, hbefore, hrest⟩ := Option.bind_eq_some_iff.mp h
  obtain ⟨s₂, hnext, hafter⟩ := run_cons_eq_some hrest
  exact ⟨s₁, s₂, hbefore, hnext, hafter⟩

/-- A state without calls ends the run. -/
theorem run_of_final (hfinal : ∀ e, next s e = none) {events : List ε}
    (h : run next s events = some t) : events = [] ∧ t = s := by
  cases events with
  | nil => exact ⟨rfl, (Option.some.inj h).symm⟩
  | cons e events =>
    obtain ⟨s', hnext, -⟩ := run_cons_eq_some h
    rw [hfinal e] at hnext
    cases hnext

end EventMachine
