import Mathlib.Logic.Function.Basic
import Mathlib.Logic.Relation
import Mathlib.Tactic.Common

/-!
# Clients of a shared store

Clients with a state of their own work on a store that they share. An operation of a client is a
program of its own: it exchanges messages with the store one after the other and leaves a new state
of the client. The operations of different clients overlap in any order. What an operation says and
hears is fixed when it starts, and each of its messages has to be true of the store at the moment
when it is served; an operation with a message that is not true of the store goes no further.

## Main definitions

* `Fleet.System ι σ μ τ`: the operations of the clients, the service of the store, and the changes
  that clients make alone
* `Fleet.Run`: the runs of a system
* `Fleet.Contract`: what holds of the store, of the clients, and of what is left of an operation

## Main results

* `Fleet.Contract.run`: a contract that every step keeps holds after every run
-/

namespace Fleet

variable {ι σ μ τ : Type*}

/-- What the clients and the store can do. -/
structure System (ι σ μ τ : Type*) where
  operates : ι → τ → List μ → τ → Prop
  serves : σ → μ → σ → Prop
  changes : ι → τ → τ → Prop

/-- The store, the clients, and what is left of the operations under way: their messages and the
state that they leave. -/
structure State (ι σ μ τ : Type*) where
  store : σ
  clients : ι → τ
  jobs : ι → Option (List μ × τ)

/-- No operation is under way. -/
def State.Idle (s : State ι σ μ τ) : Prop := ∀ i, s.jobs i = none

/-- What holds of the store, of each client, and of what is left of its operation. -/
structure Contract (ι σ μ τ : Type*) where
  store : σ → Prop
  client : ι → τ → Prop
  job : ι → List μ → τ → Prop

/-- The contract holds of a state. -/
structure Contract.Holds (contract : Contract ι σ μ τ) (s : State ι σ μ τ) : Prop where
  store : contract.store s.store
  client : ∀ i, contract.client i (s.clients i)
  job : ∀ i messages final, s.jobs i = some (messages, final) → contract.job i messages final

/-- Without an operation under way a contract is about the store and the clients. -/
theorem Contract.holds_of_idle {contract : Contract ι σ μ τ} {s : State ι σ μ τ}
    (hidle : s.Idle) (hstore : contract.store s.store)
    (hclient : ∀ i, contract.client i (s.clients i)) : contract.Holds s := by
  refine ⟨hstore, hclient, ?_⟩
  intro i messages final hjob
  rw [hidle i] at hjob
  cases hjob

/-! ## Runs -/

variable [DecidableEq ι]

/-- A client starts an operation, the store serves its next message, it is done; or a client
changes its state alone. -/
inductive Step (system : System ι σ μ τ) (s : State ι σ μ τ) : State ι σ μ τ → Prop
  | start {i : ι} {messages : List μ} {final : τ} (hidle : s.jobs i = none)
    (h : system.operates i (s.clients i) messages final) :
    Step system s { s with jobs := Function.update s.jobs i (some (messages, final)) }
  | serve {i : ι} {message : μ} {rest : List μ} {final : τ} {store : σ}
    (hjob : s.jobs i = some (message :: rest, final))
    (h : system.serves s.store message store) :
    Step system s { s with store, jobs := Function.update s.jobs i (some (rest, final)) }
  | finish {i : ι} {final : τ} (hjob : s.jobs i = some ([], final)) :
    Step system s { s with
      clients := Function.update s.clients i final
      jobs := Function.update s.jobs i none }
  | change {i : ι} {client : τ} (hidle : s.jobs i = none)
    (h : system.changes i (s.clients i) client) :
    Step system s { s with clients := Function.update s.clients i client }

/-- The runs of a system. -/
abbrev Run (system : System ι σ μ τ) : State ι σ μ τ → State ι σ μ τ → Prop :=
  Relation.ReflTransGen (Step system)

/-- The clients and the store keep the contract: an operation of a good client is a good job, the
service of a good job leaves a good store and a good job, and a good job that is done leaves a good
client. -/
structure Contract.Kept (contract : Contract ι σ μ τ) (system : System ι σ μ τ) : Prop where
  operates : ∀ i client messages final, contract.client i client →
    system.operates i client messages final → contract.job i messages final
  serves : ∀ i store message rest final store', contract.store store →
    contract.job i (message :: rest) final → system.serves store message store' →
      contract.store store' ∧ contract.job i rest final
  finishes : ∀ i final, contract.job i [] final → contract.client i final
  changes : ∀ i client client', contract.client i client → system.changes i client client' →
    contract.client i client'

section Contract

variable {system : System ι σ μ τ} {contract : Contract ι σ μ τ} {s t : State ι σ μ τ}

/-- The jobs where that of one client has changed. -/
theorem Contract.Holds.update_job (h : contract.Holds s) {i : ι} {messages : List μ} {final : τ}
    (hnew : contract.job i messages final) :
    ∀ j messages' final', Function.update s.jobs i (some (messages, final)) j =
      some (messages', final') → contract.job j messages' final' := by
  intro j messages' final' hjob
  by_cases hj : j = i
  · subst hj
    rw [Function.update_self] at hjob
    cases hjob
    exact hnew
  · rw [Function.update_of_ne hj] at hjob
    exact h.job j _ _ hjob

/-- The clients where one has changed. -/
theorem Contract.Holds.update_client (h : contract.Holds s) {i : ι} {client : τ}
    (hnew : contract.client i client) :
    ∀ j, contract.client j (Function.update s.clients i client j) := by
  intro j
  by_cases hj : j = i
  · subst hj
    rw [Function.update_self]
    exact hnew
  · rw [Function.update_of_ne hj]
    exact h.client j

/-- **A step keeps the contract.** -/
theorem Contract.Kept.step (hkept : contract.Kept system) (hstep : Step system s t)
    (h : contract.Holds s) : contract.Holds t := by
  cases hstep with
  | @start i messages final hidle hop =>
    have hnew := hkept.operates i _ _ _ (h.client i) hop
    exact ⟨h.store, h.client, h.update_job hnew⟩
  | @serve i message rest final store hjob hserves =>
    obtain ⟨hstore, hnew⟩ := hkept.serves i _ _ _ _ _ h.store (h.job i _ _ hjob) hserves
    exact ⟨hstore, h.client, h.update_job hnew⟩
  | @finish i final hjob =>
    have hnew := hkept.finishes i final (h.job i _ _ hjob)
    refine ⟨h.store, h.update_client hnew, ?_⟩
    intro j messages' final' hjob'
    dsimp only at hjob'
    by_cases hj : j = i
    · subst hj
      rw [Function.update_self] at hjob'
      cases hjob'
    · rw [Function.update_of_ne hj] at hjob'
      exact h.job j _ _ hjob'
  | @change i client hidle hchange =>
    have hnew := hkept.changes i _ _ (h.client i) hchange
    exact ⟨h.store, h.update_client hnew, h.job⟩

/-- **A contract that every step keeps holds after every run**, however the operations overlap. -/
theorem Contract.Kept.run (hkept : contract.Kept system) (hrun : Run system s t)
    (h : contract.Holds s) : contract.Holds t := by
  induction hrun with
  | refl => exact h
  | tail _ hstep ih => exact hkept.step hstep ih

end Contract

end Fleet
