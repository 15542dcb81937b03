import CrossNook.Net.Exchange
import CrossNook.Progress.ProgressStore
import CrossNook.Sync.Progress
import CrossNook.Time.TimeSimple

/-!
# The world of the sync layer

What the operations of the sync layer act on: the machine with its files, and what the clock, the
resolver, the network and the allocator will answer. Each answer is taken from a list that is
fixed in advance, and where a list ends the process is killed. The world records what the
operations do as events, which no program reads.

## Main definitions

* `Kosync.World`, `Kosync.Env`: the world, and programs on it
* `Kosync.Event`: what an observer sees of a program
* `Kosync.sys`: a program of system calls
* `Kosync.timesimpleSync`, `Kosync.resolveA`, `Kosync.exchange`: the calls of other components

## Main results

* `Kosync.ends_sys`, `Kosync.ends_exchange`, ...: the rule of each operation
-/

/-- `cn_dns_result`. -/
inductive DnsResult
  | ok
  | invalid
  | invalidHostname
  | entropyFailed
  | socketFailed
  | networkFailed
  | timeout
  | packetSize
  | malformedResponse
  | truncatedResponse
  | nxdomain
  | serverFailure
  | noAddress
  | unsupportedCname
  deriving DecidableEq, Repr

namespace Kosync

open Crash Posix

/-- What an observer sees: the answers of the clock and of the resolver, the result of a load, a
save as it is started, an HTTP exchange, and the result of a GET of the progress of a document. -/
inductive Event
  | time (result : TimeResult)
  | dns (host : List UInt8) (result : DnsResult)
  | load (identity : BookIdentity) (result : ProgressStore.Result)
  | save (identity : BookIdentity) (record : ProgressStore.Record)
  | exchange (request : NetSimple.Request) (outcome : NetSimple.Outcome)
  | got (documentId : List UInt8) (result : Result)

/-- The world: the machine, the number of the process and the counter of its temporary files, the
answers that are to come and the events so far. A heap answers the allocations of one parse by
the number of bytes that are left to parse. -/
structure World where
  machine : Machine
  pid : ℕ
  sequence : UInt32
  times : List TimeResult
  resolutions : List (DnsResult × List (List UInt8))
  wires : List NetSimple.Wire
  heaps : List (ℕ → Bool)
  events : List Event

/-- The files of the world. -/
abbrev World.files (w : World) : Path → Option Node := w.machine.files

/-- Programs of the sync layer. -/
abbrev Env := Prog World

/-- A program of system calls. -/
def sys {α : Type} (p : Sys α) : Env α := fun w =>
  let (r, machine) := p w.machine
  (r, { w with machine })

/-- Record an event. -/
def log (event : Event) : Env Unit := Prog.modify fun w => { w with events := w.events ++ [event] }

/-- Record the result of a program. -/
def observed {α : Type} (event : α → Event) (p : Env α) : Env α := do
  let a ← p
  log (event a)
  return a

/-- `cn_timesimple_sync`. -/
def timesimpleSync : Env TimeResult := fun w =>
  match w.times with
  | [] => (none, w)
  | result :: times => (some result, { w with times, events := w.events ++ [.time result] })

/-- `cn_dnssimple_resolve_a`: the result and the addresses of the answer. -/
def resolveA (host : List UInt8) : Env (DnsResult × List (List UInt8)) := fun w =>
  match w.resolutions with
  | [] => (none, w)
  | answer :: resolutions =>
    (some answer, { w with resolutions, events := w.events ++ [.dns host answer.1] })

/-- `cn_netsimple_exchange`. -/
def exchange (request : NetSimple.Request) (bufferCap : ℕ) : Env NetSimple.Outcome := fun w =>
  match w.wires with
  | [] => (none, w)
  | wire :: wires =>
    let outcome := NetSimple.exchange request bufferCap wire
    (some outcome, { w with wires, events := w.events ++ [.exchange request outcome] })

/-- The allocations of a parse. -/
def heap : Env (ℕ → Bool) := fun w =>
  match w.heaps with
  | [] => (none, w)
  | alloc :: heaps => (some alloc, { w with heaps })

/-! ## Rules -/

section Rules

variable {α : Type} {w : World} {C : World → Prop}

theorem ends_sys {p : Sys α} {Q : α → World → Prop} :
    Ends (sys p) w Q C ↔
      Ends p w.machine (fun a machine => Q a { w with machine }) fun machine => C { w with machine } := by
  unfold Ends sys
  rcases p w.machine with ⟨a | _, machine⟩ <;> rfl

theorem returns_sys {p : Sys α} {Q : α → World → Prop} :
    Returns (sys p) w Q ↔ Returns p w.machine fun a machine => Q a { w with machine } := by
  rw [returns_iff_ends, returns_iff_ends, ends_sys]

@[simp] theorem ends_log {event : Event} {Q : Unit → World → Prop} :
    Ends (log event) w Q C ↔ Q () { w with events := w.events ++ [event] } := Iff.rfl

theorem ends_observed {event : α → Event} {p : Env α} {Q : α → World → Prop} :
    Ends (observed event p) w Q C ↔
      Ends p w (fun a w' => Q a { w' with events := w'.events ++ [event a] }) C := by
  simp [observed]

theorem ends_timesimpleSync {Q : TimeResult → World → Prop} (hC : C w)
    (h : ∀ result times, Q result { w with times, events := w.events ++ [.time result] }) :
    Ends timesimpleSync w Q C := by
  unfold Ends timesimpleSync
  rcases w.times with _ | ⟨result, times⟩
  exacts [hC, h _ _]

theorem returns_timesimpleSync {Q : TimeResult → World → Prop} :
    Returns timesimpleSync w Q ↔ ∃ result times, w.times = result :: times ∧
      Q result { w with times, events := w.events ++ [.time result] } := by
  rw [returns_iff_ends]
  unfold Ends timesimpleSync
  rcases w.times with _ | ⟨result, times⟩ <;> simp

theorem ends_resolveA {host : List UInt8} {Q : DnsResult × List (List UInt8) → World → Prop}
    (hC : C w)
    (h : ∀ answer resolutions,
      Q answer { w with resolutions, events := w.events ++ [.dns host answer.1] }) :
    Ends (resolveA host) w Q C := by
  unfold Ends resolveA
  rcases w.resolutions with _ | ⟨answer, resolutions⟩
  exacts [hC, h _ _]

theorem returns_resolveA {host : List UInt8} {Q : DnsResult × List (List UInt8) → World → Prop} :
    Returns (resolveA host) w Q ↔ ∃ answer resolutions, w.resolutions = answer :: resolutions ∧
      Q answer { w with resolutions, events := w.events ++ [.dns host answer.1] } := by
  rw [returns_iff_ends]
  unfold Ends resolveA
  rcases w.resolutions with _ | ⟨answer, resolutions⟩ <;> simp

theorem ends_exchange {request : NetSimple.Request} {bufferCap : ℕ}
    {Q : NetSimple.Outcome → World → Prop} (hC : C w)
    (h : ∀ wire wires, Q (NetSimple.exchange request bufferCap wire)
      { w with wires, events := w.events ++
                        [.exchange request (NetSimple.exchange request bufferCap wire)] }) :
    Ends (exchange request bufferCap) w Q C := by
  unfold Ends exchange
  rcases w.wires with _ | ⟨wire, wires⟩
  exacts [hC, h _ _]

theorem returns_exchange {request : NetSimple.Request} {bufferCap : ℕ}
    {Q : NetSimple.Outcome → World → Prop} :
    Returns (exchange request bufferCap) w Q ↔ ∃ wire wires, w.wires = wire :: wires ∧
      Q (NetSimple.exchange request bufferCap wire)
        { w with wires, events := w.events ++
                          [.exchange request (NetSimple.exchange request bufferCap wire)] } := by
  rw [returns_iff_ends]
  unfold Ends exchange
  rcases w.wires with _ | ⟨wire, wires⟩ <;> simp

theorem ends_heap {Q : (ℕ → Bool) → World → Prop} (hC : C w)
    (h : ∀ alloc ∈ w.heaps, ∀ heaps, heaps ⊆ w.heaps → Q alloc { w with heaps }) :
    Ends heap w Q C := by
  unfold Ends heap
  rcases hw : w.heaps with _ | ⟨alloc, heaps⟩
  · exact hC
  · exact h alloc (by simp [hw]) heaps (by simp [hw])

end Rules

end Kosync
