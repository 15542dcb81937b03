import Mathlib.Data.List.Basic

/-!
# Streams that are offered in windows

A party offers a stream piece by piece: whenever it is asked, it shows some part of what follows
everything that was taken so far, and the other party takes from the front of what it was shown.

## Main definitions

* `Relay.Offers offered taken stream events`: every window shown in a list of events is the next part
  of the stream

## Main results

* `Relay.Offers.append_iff`: the events behind others are offered what those have left
* `Relay.take_append_take`: what is taken from a window extends what was taken before
-/

namespace Relay

variable {α ε : Type*}

/-- How much is taken in a list of events. -/
def total (taken : ε → ℕ) (events : List ε) : ℕ := events.foldr (fun e n => taken e + n) 0

/-- Every window shown is the next part of the stream. -/
def Offers (offered : ε → Option (List α)) (taken : ε → ℕ) : List α → List ε → Prop
  | _, [] => True
  | stream, e :: events =>
    (∀ window, offered e = some window → window <+: stream) ∧
      Offers offered taken (stream.drop (taken e)) events

variable {offered : ε → Option (List α)} {taken : ε → ℕ} {stream window : List α}
  {events more : List ε} {e : ε}

@[simp] theorem total_nil (taken : ε → ℕ) : total taken [] = 0 := rfl

@[simp] theorem total_append (taken : ε → ℕ) (events more : List ε) :
    total taken (events ++ more) = total taken events + total taken more := by
  induction events with
  | nil => exact (Nat.zero_add _).symm
  | cons e events ih =>
    change taken e + total taken (events ++ more) = taken e + total taken events + total taken more
    rw [ih, Nat.add_assoc]

@[simp] theorem total_singleton (taken : ε → ℕ) (e : ε) : total taken [e] = taken e := rfl

/-- The events behind others are offered what those have left. -/
theorem Offers.append_iff : Offers offered taken stream (events ++ more) ↔
    Offers offered taken stream events ∧
      Offers offered taken (stream.drop (total taken events)) more := by
  induction events generalizing stream with
  | nil => simp [Offers]
  | cons e events ih =>
    have htotal : total taken (e :: events) = taken e + total taken events := rfl
    rw [List.cons_append, Offers, Offers, ih, htotal, List.drop_drop, and_assoc]

/-- The window that the last event shows. -/
theorem Offers.shows (h : Offers offered taken stream (events ++ [e]))
    (hwindow : offered e = some window) : window <+: stream.drop (total taken events) :=
  (Offers.append_iff.mp h).2.1 window hwindow

/-- What is taken from a window extends what was taken before. -/
theorem take_append_take {n k : ℕ} (h : window <+: stream.drop n) (hk : k ≤ window.length) :
    stream.take n ++ window.take k = stream.take (n + k) := by
  obtain ⟨rest, hrest⟩ := h
  rw [List.take_add, ← hrest, List.take_append_of_le_length hk]

end Relay
