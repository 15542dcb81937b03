import CrossNook.System.Crash

/-!
# Two runs of one program

What a program never reads cannot matter: from two states that differ only there, it ends in the
same way. The judgment says at the same time when the program returns at all, so that one walk over
a program yields both.

## Main definitions

* `Crash.Agree R S c p`: from states related by `R`, `p` returns exactly when `c`, then with the same
  result from both and in states related by `S`

## Main results

* `Crash.Agree.bind`: the rule of sequencing
* `Crash.Agree.forM`: the rule of loops over a list
-/

namespace Crash

variable {σ α β ι : Type} {R S T : σ → σ → Prop} {c d : Prop} {p : Prog σ α}

/-- From states related by `R`, the program returns exactly when `c` holds, and then it returns the
same from both and leaves states related by `S`. -/
def Agree (R S : σ → σ → Prop) (c : Prop) (p : Prog σ α) : Prop :=
  ∀ s t, R s t →
    (c → ∃ a s' t', p s = (some a, s') ∧ p t = (some a, t') ∧ S s' t') ∧
      (¬ c → (p s).1 = none ∧ (p t).1 = none)

/-- A program that returns the same from both. -/
theorem Agree.of_total
    (h : ∀ s t, R s t → ∃ a s' t', p s = (some a, s') ∧ p t = (some a, t') ∧ S s' t') :
    Agree R S True p := by
  intro s t hst
  refine ⟨?_, ?_⟩
  · intro _
    exact h s t hst
  · intro hc
    exact absurd trivial hc

theorem Agree.pure (a : α) : Agree R R True (Pure.pure a : Prog σ α) := by
  apply Agree.of_total
  intro s t hst
  exact ⟨a, s, t, rfl, rfl, hst⟩

theorem Agree.kill : Agree R S False (Prog.kill : Prog σ α) := by
  intro s t _
  refine ⟨?_, ?_⟩
  · intro hc
    exact absurd hc id
  · intro _
    exact ⟨rfl, rfl⟩

theorem Agree.congr (h : Agree R S c p) (hcd : c ↔ d) : Agree R S d p := by
  rw [← propext hcd]
  exact h

theorem Agree.weaken (h : Agree R S c p) (hST : ∀ s t, S s t → T s t) : Agree R T c p := by
  intro s t hst
  obtain ⟨hreturns, hkilled⟩ := h s t hst
  refine ⟨?_, hkilled⟩
  intro hc
  obtain ⟨a, s', t', hs, ht, hst'⟩ := hreturns hc
  exact ⟨a, s', t', hs, ht, hST s' t' hst'⟩

theorem Agree.strengthen (h : Agree S T c p) (hRS : ∀ s t, R s t → S s t) : Agree R T c p := by
  intro s t hst
  exact h s t (hRS s t hst)

/-- A bind whose first part is killed. -/
theorem bind_of_killed {f : α → Prog σ β} {s : σ} (h : (p s).1 = none) :
    ((p >>= f) s).1 = none := by
  change (Prog.bind p f s).1 = none
  unfold Prog.bind
  rcases hp : p s with ⟨a | _, s'⟩
  · rfl
  · rw [hp] at h
    cases h

/-- **Sequencing.** -/
theorem Agree.bind {f : α → Prog σ β} (h : Agree R S c p) (hf : ∀ a, Agree S T d (f a)) :
    Agree R T (c ∧ d) (p >>= f) := by
  intro s t hst
  obtain ⟨hreturns, hkilled⟩ := h s t hst
  by_cases hc : c
  · obtain ⟨a, s', t', hs, ht, hst'⟩ := hreturns hc
    obtain ⟨hreturns', hkilled'⟩ := hf a s' t' hst'
    rw [bind_of_eq hs, bind_of_eq ht]
    refine ⟨?_, ?_⟩
    · intro hcd
      exact hreturns' hcd.2
    · intro hcd
      exact hkilled' fun hd => hcd ⟨hc, hd⟩
  · obtain ⟨hs, ht⟩ := hkilled hc
    refine ⟨?_, ?_⟩
    · intro hcd
      exact absurd hcd.1 hc
    · intro _
      exact ⟨bind_of_killed hs, bind_of_killed ht⟩

/-- Sequencing after a part that always returns. -/
theorem Agree.next {f : α → Prog σ β} (h : Agree R S True p) (hf : ∀ a, Agree S T d (f a)) :
    Agree R T d (p >>= f) :=
  (h.bind hf).congr (iff_of_eq (true_and d))

/-- Sequencing before a part that always returns. -/
theorem Agree.last {f : α → Prog σ β} (h : Agree R S c p) (hf : ∀ a, Agree S T True (f a)) :
    Agree R T c (p >>= f) :=
  (h.bind hf).congr (iff_of_eq (and_true c))

/-- **Loops.** -/
theorem Agree.forM {cond : ι → Prop} {f : ι → Prog σ PUnit} (l : List ι)
    (h : ∀ x ∈ l, Agree R R (cond x) (f x)) : Agree R R (∀ x ∈ l, cond x) (l.forM f) := by
  induction l with
  | nil => exact (Agree.pure PUnit.unit).congr (by simp)
  | cons x l ih =>
    change Agree R R _ (f x >>= fun _ => l.forM f)
    refine ((h x List.mem_cons_self).bind fun _ => ih ?_).congr List.forall_mem_cons.symm
    intro y hy
    exact h y (List.mem_cons_of_mem x hy)

/-- A loop whose body always returns. -/
theorem Agree.forM_total {f : ι → Prog σ PUnit} (l : List ι) (h : ∀ x ∈ l, Agree R R True (f x)) :
    Agree R R True (l.forM f) := by
  have hall : Agree R R (∀ x ∈ l, True) (l.forM f) := Agree.forM l h
  exact hall.congr (by simp)

end Crash
