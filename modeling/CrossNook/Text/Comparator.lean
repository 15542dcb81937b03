import Mathlib.Tactic
import Mathlib.Order.Lex
import Mathlib.Data.List.Lex

/-!
# Comparison functions

A comparison function returns a negative number, zero or a positive number, as `qsort` of the
standard library expects it. Where the answers belong to an order, sorting is well defined; where
no two different elements compare equal, its result does not depend on the order of the input.

## Main definitions

* `Comparator.Consistent cmp`: the answers of `cmp` belong to a total preorder
* `Comparator.orElse`: a comparison that breaks the ties of another one
* `Comparator.lex`: the lexicographic comparison of sequences
* `Comparator.Sorts`: what a sorting function does with a consistent comparison

## Main results

* `Comparator.Consistent.orElse`, `Comparator.lex_consistent`
* `Comparator.Ordered.eq_of_perm`: ordered lists of the same elements are equal
-/

namespace Comparator

variable {α β : Type*}

/-- The answers of the comparison belong to a total preorder. -/
structure Consistent (cmp : α → α → ℤ) : Prop where
  swap : ∀ a b, cmp a b < 0 ↔ 0 < cmp b a
  trans : ∀ a b c, cmp a b ≤ 0 → cmp b c ≤ 0 → cmp a c ≤ 0

namespace Consistent

variable {cmp : α → α → ℤ} (h : Consistent cmp)

include h

theorem refl (a : α) : cmp a a = 0 := by
  have := h.swap a a
  omega

theorem total (a b : α) : cmp a b ≤ 0 ∨ cmp b a ≤ 0 := by
  have := h.swap a b
  omega

theorem le_zero_iff (a b : α) : cmp a b ≤ 0 ↔ 0 ≤ cmp b a := by
  have := h.swap b a
  omega

theorem eq_zero_comm (a b : α) : cmp a b = 0 ↔ cmp b a = 0 := by
  have hab := h.swap a b
  have hba := h.swap b a
  omega

theorem trans_lt {a b c : α} (hab : cmp a b < 0) (hbc : cmp b c ≤ 0) : cmp a c < 0 := by
  by_contra hac
  have hca : cmp c a ≤ 0 := (h.le_zero_iff c a).mpr (not_lt.mp hac)
  have hba := h.trans b c a hbc hca
  have := (h.swap a b).mp hab
  omega

theorem lt_trans {a b c : α} (hab : cmp a b ≤ 0) (hbc : cmp b c < 0) : cmp a c < 0 := by
  by_contra hac
  have hca : cmp c a ≤ 0 := (h.le_zero_iff c a).mpr (not_lt.mp hac)
  have hcb := h.trans c a b hca hab
  have := (h.swap b c).mp hbc
  omega

/-- Comparing keys. -/
theorem comap (f : β → α) : Consistent fun a b => cmp (f a) (f b) :=
  ⟨fun a b => h.swap (f a) (f b), fun a b c => h.trans (f a) (f b) (f c)⟩

end Consistent

/-- The comparison `first`, with `second` where it finds no difference. -/
def orElse (first second : α → α → ℤ) (a b : α) : ℤ :=
  if first a b ≠ 0 then first a b else second a b

theorem orElse_eq_zero {first second : α → α → ℤ} {a b : α} :
    orElse first second a b = 0 ↔ first a b = 0 ∧ second a b = 0 := by
  unfold orElse
  split_ifs with h
  · exact ⟨fun h0 => absurd h0 h, fun h0 => h0.1⟩
  · exact ⟨fun h0 => ⟨not_not.mp h, h0⟩, fun h0 => h0.2⟩

/-- **Breaking ties keeps a comparison consistent.** -/
theorem Consistent.orElse {first second : α → α → ℤ} (h : Consistent first)
    (h' : Consistent second) : Consistent (orElse first second) where
  swap a b := by
    have hzero := h.eq_zero_comm a b
    have hfirst := h.swap a b
    have hsecond := h'.swap a b
    unfold Comparator.orElse
    split_ifs <;> omega
  trans a b c hab hbc := by
    unfold Comparator.orElse at hab hbc ⊢
    -- where the first comparison does not tie it decides, and strictly so
    by_cases hab0 : first a b = 0
    · rw [if_neg (not_not.mpr hab0)] at hab
      by_cases hbc0 : first b c = 0
      · rw [if_neg (not_not.mpr hbc0)] at hbc
        have hac := h.trans a b c hab0.le hbc0.le
        have hca := h.trans c b a ((h.eq_zero_comm b c).mp hbc0).le
          ((h.eq_zero_comm a b).mp hab0).le
        have := (h.le_zero_iff c a).mp hca
        rw [if_neg (by omega)]
        exact h'.trans a b c hab hbc
      · rw [if_pos hbc0] at hbc
        have := h.lt_trans hab0.le (lt_of_le_of_ne hbc hbc0)
        rw [if_pos this.ne]
        exact this.le
    · rw [if_pos hab0] at hab
      have hbc' : first b c ≤ 0 := by
        split_ifs at hbc with hbc0
        · exact hbc
        · exact (not_not.mp hbc0).le
      have := h.trans_lt (lt_of_le_of_ne hab hab0) hbc'
      rw [if_pos this.ne]
      exact this.le

/-! ## Sequences -/

section Lex

variable [LinearOrder α]

/-- The lexicographic comparison, a proper prefix first. -/
def lex : List α → List α → ℤ
  | [], [] => 0
  | [], _ :: _ => -1
  | _ :: _, [] => 1
  | a :: s, b :: t => if a = b then lex s t else if a < b then -1 else 1

theorem lex_neg_iff (s t : List α) : lex s t < 0 ↔ s < t := by
  induction s generalizing t with
  | nil => cases t <;> simp [lex]
  | cons a s ih =>
    cases t with
    | nil => simp [lex]
    | cons b t =>
      rw [lex, List.cons_lt_cons_iff]
      by_cases hab : a = b
      · simp [hab, ih]
      · by_cases hlt : a < b <;> simp [hab, hlt]

theorem lex_eq_zero_iff (s t : List α) : lex s t = 0 ↔ s = t := by
  induction s generalizing t with
  | nil => cases t <;> simp [lex]
  | cons a s ih =>
    cases t with
    | nil => simp [lex]
    | cons b t =>
      rw [lex]
      by_cases hab : a = b
      · simp [hab, ih]
      · by_cases hlt : a < b <;> simp [hab, hlt]

theorem lex_le_zero_iff (s t : List α) : lex s t ≤ 0 ↔ s ≤ t := by
  rw [Int.le_iff_lt_or_eq, lex_neg_iff, lex_eq_zero_iff, le_iff_lt_or_eq]

/-- **The lexicographic comparison is consistent.** -/
theorem lex_consistent : Consistent (lex (α := α)) where
  swap s t := by
    rw [lex_neg_iff, ← not_le, ← not_le, lex_le_zero_iff]
  trans s t u hst htu := by
    rw [lex_le_zero_iff] at hst htu ⊢
    exact hst.trans htu

end Lex

/-! ## Sorting -/

/-- No element comes after a greater one. -/
abbrev Ordered (cmp : α → α → ℤ) (l : List α) : Prop := l.Pairwise fun a b => cmp a b ≤ 0

/-- **Ordered lists of the same elements are equal**, where only equal elements compare equal. -/
theorem Ordered.eq_of_perm {cmp : α → α → ℤ} (h : Consistent cmp) {l l' : List α}
    (hl : Ordered cmp l) (hl' : Ordered cmp l') (hperm : l.Perm l')
    (heq : ∀ a ∈ l, ∀ b ∈ l, cmp a b = 0 → a = b) : l = l' := by
  have hanti : ∀ a b, a ∈ l → b ∈ l' → cmp a b ≤ 0 → cmp b a ≤ 0 → a = b := by
    intro a b ha hb hab hba
    have := (h.le_zero_iff b a).mp hba
    exact heq a ha b (hperm.mem_iff.mpr hb) (by omega)
  exact hperm.eq_of_pairwise hanti hl hl'

/-- What `qsort` promises of a consistent comparison; the order of elements that compare equal is
left open. -/
def Sorts (sort : (α → α → ℤ) → List α → List α) : Prop :=
  ∀ cmp, Consistent cmp → ∀ l, (sort cmp l).Perm l ∧ Ordered cmp (sort cmp l)

/-- Insertion sort sorts. -/
theorem sorts_insertionSort :
    Sorts fun (cmp : α → α → ℤ) => List.insertionSort fun a b => cmp a b ≤ 0 := by
  intro cmp h l
  have htotal : Std.Total fun a b => cmp a b ≤ 0 := ⟨h.total⟩
  have htrans : IsTrans α fun a b => cmp a b ≤ 0 := ⟨h.trans⟩
  exact ⟨List.perm_insertionSort _ l, List.pairwise_insertionSort _ l⟩

end Comparator
