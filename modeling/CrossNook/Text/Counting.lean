import Mathlib.Tactic

/-!
# Counted loops

A loop over an interval of integers whose body can go wrong. A relation between the state at the
start and the state now, indexed by the turns that have been taken, carries over the loop; the
special case used most is a relation that collects what the turns do.

## Main definitions

* `Counting.forTo lo hi body s`: `for (i = lo; i <= hi; i++)`

## Main results

* `Counting.forTo_induct`: what the turns keep, the loop keeps, and no turn goes wrong
* `Counting.forTo_collect`, `Counting.forTo_append`: what the turns do one by one, the loop does
  together
-/

namespace Counting

variable {σ : Type*}

/-- `n` turns of the body, from the index `i` on. `none` is a turn that goes wrong. -/
def times (body : ℤ → σ → Option σ) : ℕ → ℤ → σ → Option σ
  | 0, _, s => some s
  | n + 1, i, s =>
    match body i s with
    | none => none
    | some s' => times body n (i + 1) s'

/-- `for (i = lo; i <= hi; i++)`. -/
def forTo (lo hi : ℤ) (body : ℤ → σ → Option σ) (s : σ) : Option σ :=
  times body (hi + 1 - lo).toNat lo s

variable {body : ℤ → σ → Option σ} {lo hi : ℤ} {s : σ}

theorem times_induct {I : ℤ → σ → Prop} (n : ℕ) {i : ℤ} (h : I i s)
    (step : ∀ j t, i ≤ j → j < i + n → I j t → ∃ t', body j t = some t' ∧ I (j + 1) t') :
    ∃ s', times body n i s = some s' ∧ I (i + n) s' := by
  induction n generalizing i s with
  | zero =>
    refine ⟨s, rfl, ?_⟩
    simpa using h
  | succ n ih =>
    obtain ⟨t, hbody, ht⟩ := step i s le_rfl (by omega) h
    obtain ⟨s', hrun, hs'⟩ := ih ht fun j u hj hj' => step j u (by omega) (by push_cast; omega)
    refine ⟨s', ?_, ?_⟩
    · rw [times, hbody]
      exact hrun
    · have : i + 1 + (n : ℤ) = i + ((n + 1 : ℕ) : ℤ) := by push_cast; ring
      rwa [this] at hs'

/-- **Invariants of a loop.** -/
theorem forTo_induct (body : ℤ → σ → Option σ) (lo hi : ℤ) {I : ℤ → σ → Prop} (h : I lo s)
    (step : ∀ j t, lo ≤ j → j ≤ hi → I j t → ∃ t', body j t = some t' ∧ I (j + 1) t') :
    ∃ s', forTo lo hi body s = some s' ∧ I (max lo (hi + 1)) s' := by
  obtain ⟨s', hrun, hs'⟩ := times_induct (hi + 1 - lo).toNat h fun j t hj hj' =>
    step j t hj (by omega)
  refine ⟨s', hrun, ?_⟩
  have : lo + ((hi + 1 - lo).toNat : ℤ) = max lo (hi + 1) := by omega
  rwa [this] at hs'

/-- **Effects of a loop.** `R X s t` says that the way from `s` to `t` did `X`, a set of effects;
each turn does its own, and the loop does the union. -/
theorem forTo_collect {ε : Type*} {R : Set ε → σ → σ → Prop} {P : σ → Prop} {X : ℤ → Set ε}
    (hrefl : ∀ t, R ∅ t t) (htrans : ∀ A B t u v, R A t u → R B u v → R (A ∪ B) t v)
    (hs : P s)
    (step : ∀ j t, lo ≤ j → j ≤ hi → P t → ∃ t', body j t = some t' ∧ R (X j) t t' ∧ P t') :
    ∃ s', forTo lo hi body s = some s' ∧ R (⋃ j ∈ Set.Icc lo hi, X j) s s' ∧ P s' := by
  let I : ℤ → σ → Prop := fun i t => R (⋃ j ∈ Set.Ico lo i, X j) s t ∧ P t
  have h0 : I lo s := by
    refine ⟨?_, hs⟩
    have : (⋃ j ∈ Set.Ico lo lo, X j) = ∅ := by simp
    rw [this]
    exact hrefl s
  obtain ⟨s', hrun, hR, hP⟩ := forTo_induct body lo hi h0 fun j t hj hj' hI => by
    obtain ⟨t', hbody, hX, hP⟩ := step j t hj hj' hI.2
    refine ⟨t', hbody, ?_, hP⟩
    have : (⋃ k ∈ Set.Ico lo (j + 1), X k) = (⋃ k ∈ Set.Ico lo j, X k) ∪ X j := by
      have hIco : Set.Ico lo (j + 1) = insert j (Set.Ico lo j) := by
        ext k
        simp only [Set.mem_Ico, Set.mem_insert_iff]
        omega
      rw [hIco, Set.biUnion_insert, Set.union_comm]
    rw [this]
    exact htrans _ _ _ _ _ hI.1 hX
  refine ⟨s', hrun, ?_, hP⟩
  have : Set.Ico lo (max lo (hi + 1)) = Set.Icc lo hi := by
    ext k
    simp only [Set.mem_Ico, Set.mem_Icc]
    omega
  rwa [this] at hR

/-- **What a loop produces.** `R X s t` says that the way from `s` to `t` produced the list `X`;
each turn appends its own. -/
theorem forTo_append {ε : Type*} (body : ℤ → σ → Option σ) (n : ℕ) {R : List ε → σ → σ → Prop}
    {P : σ → Prop} {X : ℕ → List ε} (hrefl : ∀ t, R [] t t)
    (htrans : ∀ A B t u v, R A t u → R B u v → R (A ++ B) t v) (hs : P s)
    (step : ∀ k t, k < n → P t → ∃ t', body k t = some t' ∧ R (X k) t t' ∧ P t') :
    ∃ s', forTo 0 (n - 1) body s = some s' ∧ R ((List.range n).flatMap X) s s' ∧ P s' := by
  let I : ℤ → σ → Prop := fun i t => R ((List.range i.toNat).flatMap X) s t ∧ P t
  have h0 : I 0 s := ⟨hrefl s, hs⟩
  obtain ⟨s', hrun, hR, hP⟩ := forTo_induct body 0 (n - 1) h0 fun j t hj hj' hI => by
    obtain ⟨k, rfl⟩ := Int.eq_ofNat_of_zero_le hj
    obtain ⟨t', hbody, hX, hP⟩ := step k t (by omega) hI.2
    refine ⟨t', hbody, ?_, hP⟩
    have : ((k : ℤ) + 1).toNat = k + 1 := by omega
    rw [this, List.range_succ, List.flatMap_append, List.flatMap_singleton]
    exact htrans _ _ _ _ _ hI.1 hX
  refine ⟨s', hrun, ?_, hP⟩
  have : (max 0 ((n : ℤ) - 1 + 1)).toNat = n := by omega
  rwa [this] at hR

end Counting
