import Mathlib.Tactic

/-!
# Programs that may be killed

A program acts on a state and either returns or is killed on the way. Its specification has a
postcondition for the runs that return and a crash condition for those that do not.

## Main definitions

* `Crash.Prog σ α`: programs on states `σ` that return `α`
* `Crash.Ends p s Q C`: from `s`, `p` returns with `Q` or is killed with `C`
* `Crash.Returns p s Q`: from `s`, `p` returns, and with `Q`

## Main results

* `Crash.ends_bind`: the rule of sequencing
* `Crash.Ends.mono`, `Crash.Ends.and`: the rules of consequence and conjunction
* `Crash.Keeps.bind`: what every part of a program keeps, the program keeps, killed or not
-/

namespace Crash

/-- A program on states `σ`: the state it leaves, and its result unless it was killed. -/
def Prog (σ α : Type) : Type := σ → Option α × σ

variable {σ α β : Type}

namespace Prog

def pure (a : α) : Prog σ α := fun s => (some a, s)

def bind (p : Prog σ α) (f : α → Prog σ β) : Prog σ β := fun s =>
  match p s with
  | (some a, s') => f a s'
  | (none, s') => (none, s')

instance : Monad (Prog σ) where
  pure := pure
  bind := bind

/-- The state. -/
def get : Prog σ σ := fun s => (some s, s)

/-- Replace the state. -/
def modify (f : σ → σ) : Prog σ Unit := fun s => (some (), f s)

/-- The program is killed here. -/
def kill : Prog σ α := fun s => (none, s)

end Prog

/-- From `s`, the program returns with the postcondition `Q` or is killed with `C`. -/
def Ends (p : Prog σ α) (s : σ) (Q : α → σ → Prop) (C : σ → Prop) : Prop :=
  match p s with
  | (some a, s') => Q a s'
  | (none, s') => C s'

variable {p : Prog σ α} {s : σ} {Q Q' : α → σ → Prop} {C C' : σ → Prop}

@[simp] theorem ends_pure (a : α) : Ends (pure a : Prog σ α) s Q C ↔ Q a s := Iff.rfl

@[simp] theorem ends_get {Q : σ → σ → Prop} : Ends Prog.get s Q C ↔ Q s s := Iff.rfl

@[simp] theorem ends_modify {Q : Unit → σ → Prop} (f : σ → σ) :
    Ends (Prog.modify f) s Q C ↔ Q () (f s) := Iff.rfl

@[simp] theorem ends_kill : Ends (Prog.kill : Prog σ α) s Q C ↔ C s := Iff.rfl

/-- **Sequencing.** -/
@[simp] theorem ends_bind (f : α → Prog σ β) {Q : β → σ → Prop} :
    Ends (p >>= f) s Q C ↔ Ends p s (fun a s' => Ends (f a) s' Q C) C := by
  change (match Prog.bind p f s with | (some a, s') => Q a s' | (none, s') => C s') ↔ _
  unfold Prog.bind Ends
  rcases p s with ⟨a | _, s'⟩ <;> rfl

@[simp] theorem ends_ite {c : Prop} [Decidable c] {q : Prog σ α} :
    Ends (if c then p else q) s Q C ↔ if c then Ends p s Q C else Ends q s Q C := by
  split_ifs <;> rfl

/-- **Consequence.** -/
theorem Ends.mono (h : Ends p s Q C) (hQ : ∀ a s', Q a s' → Q' a s') (hC : ∀ s', C s' → C' s') :
    Ends p s Q' C' := by
  unfold Ends at *
  rcases hp : p s with ⟨a | _, s'⟩ <;> rw [hp] at h
  · exact hC s' h
  · exact hQ _ s' h

/-- **Conjunction.** -/
theorem Ends.and (h : Ends p s Q C) (h' : Ends p s Q' C') :
    Ends p s (fun a s' => Q a s' ∧ Q' a s') fun s' => C s' ∧ C' s' := by
  unfold Ends at *
  rcases hp : p s with ⟨a | _, s'⟩ <;> rw [hp] at h h' <;> exact ⟨h, h'⟩

theorem Ends.of_eq {a : α} {s' : σ} (h : Ends p s Q C) (hp : p s = (some a, s')) : Q a s' := by
  unfold Ends at h
  rwa [hp] at h

theorem ends_run (p : Prog σ α) (s : σ) :
    Ends p s (fun a s' => p s = (some a, s')) fun s' => p s = (none, s') := by
  unfold Ends
  rcases p s with ⟨a | _, s'⟩ <;> rfl

theorem bind_of_eq {f : α → Prog σ β} {a : α} {s' : σ} (hp : p s = (some a, s')) :
    (p >>= f) s = f a s' := by
  change Prog.bind p f s = _
  unfold Prog.bind
  rw [hp]

theorem ends_iff : Ends p s Q C ↔ (∀ a s', p s = (some a, s') → Q a s') ∧
    ∀ s', p s = (none, s') → C s' := by
  unfold Ends
  rcases p s with ⟨a | _, s'⟩ <;> simp [Prod.ext_iff]

/-- What holds at every end holds of the state that is left. -/
theorem Ends.final {P : σ → Prop} (h : Ends p s (fun _ => P) P) : P (p s).2 := by
  unfold Ends at h
  rcases hp : p s with ⟨a | _, s'⟩ <;> rw [hp] at h <;> exact h

/-! ## Programs that return -/

/-- From `s`, the program returns with the postcondition `Q`. -/
def Returns (p : Prog σ α) (s : σ) (Q : α → σ → Prop) : Prop :=
  ∃ a s', p s = (some a, s') ∧ Q a s'

theorem returns_iff_ends : Returns p s Q ↔ Ends p s Q fun _ => False := by
  unfold Returns Ends
  rcases p s with ⟨_ | a, s'⟩ <;> simp

@[simp] theorem returns_pure (a : α) : Returns (pure a : Prog σ α) s Q ↔ Q a s := by
  rw [returns_iff_ends, ends_pure]

@[simp] theorem returns_get {Q : σ → σ → Prop} : Returns Prog.get s Q ↔ Q s s := by
  rw [returns_iff_ends, ends_get]

/-- **Sequencing.** -/
@[simp] theorem returns_bind (f : α → Prog σ β) {Q : β → σ → Prop} :
    Returns (p >>= f) s Q ↔ Returns p s fun a s' => Returns (f a) s' Q := by
  simp only [returns_iff_ends, ends_bind]

/-- A program returns with what its results are equivalent to. -/
theorem returns_congr (h : ∀ a s', p s = (some a, s') → (Q a s' ↔ Q' a s')) :
    Returns p s Q ↔ Returns p s Q' :=
  exists₂_congr fun a s' => and_congr_right fun hp => h a s' hp

theorem returns_of_eq {a : α} {s' : σ} (hp : p s = (some a, s')) : Returns p s Q ↔ Q a s' := by
  constructor
  · rintro ⟨_, _, h, hQ⟩
    rw [hp] at h
    cases h
    exact hQ
  · exact fun hQ => ⟨a, s', hp, hQ⟩

/-! ## Programs that keep a part of the state -/

/-- The program leaves a view of the state as it was, whether it returns or is killed. -/
def Keeps {ι : Type} (view : σ → ι) (p : Prog σ α) : Prop := ∀ s, view (p s).2 = view s

variable {ι : Type} {view : σ → ι}

theorem Keeps.pure (a : α) : Keeps view (Pure.pure a : Prog σ α) := fun _ => rfl

theorem Keeps.get : Keeps view (Prog.get : Prog σ σ) := fun _ => rfl

theorem Keeps.kill : Keeps view (Prog.kill : Prog σ α) := fun _ => rfl

theorem Keeps.bind {f : α → Prog σ β} (h : Keeps view p) (hf : ∀ a, Keeps view (f a)) :
    Keeps view (p >>= f) := by
  intro s
  change view (Prog.bind p f s).2 = _
  have hs := h s
  unfold Prog.bind
  rcases hp : p s with ⟨a | _, s'⟩ <;> rw [hp] at hs
  · exact hs
  · exact (hf _ s').trans hs

theorem Keeps.ite {c : Prop} [Decidable c] {q : Prog σ α} (h : Keeps view p)
    (h' : Keeps view q) : Keeps view (if c then p else q) := by
  split_ifs
  exacts [h, h']

theorem Keeps.ends (h : Keeps view p) (s : σ) :
    Ends p s (fun _ s' => view s' = view s) fun s' => view s' = view s := by
  have hs := h s
  unfold Ends
  rcases hp : p s with ⟨a | _, s'⟩ <;> rw [hp] at hs <;> exact hs

end Crash
