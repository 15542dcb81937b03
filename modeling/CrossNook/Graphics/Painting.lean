import Mathlib.Data.Set.Basic
import Mathlib.Tactic

/-!
# Painting in layers

A picture gives every place a colour. A layer of paint covers a region with one colour, and layers
are put on top of each other.

## Main definitions

* `Painting.Layer`: a region and its colour
* `Painting.stack`: a picture with layers on top

## Main results

* `Painting.stack_cases`: a place shows the uppermost layer that covers it
* `Painting.stack_congr`: pictures that agree outside a set still do with the same layers on top
-/

namespace Painting

variable {P C : Type*}

/-- A region that is covered with one colour. -/
structure Layer (P C : Type*) where
  region : Set P
  color : C

open Classical in
/-- The picture with the layer on top. -/
noncomputable def Layer.onto (l : Layer P C) (picture : P → C) : P → C :=
  fun p => if p ∈ l.region then l.color else picture p

/-- The picture with layers on top, the last of the list uppermost. -/
noncomputable def stack (layers : List (Layer P C)) (picture : P → C) : P → C :=
  layers.foldl (fun shown l => l.onto shown) picture

/-- The places that some layer covers. -/
def covered (layers : List (Layer P C)) : Set P := {p | ∃ l ∈ layers, p ∈ l.region}

theorem Layer.onto_of_mem {l : Layer P C} {p : P} (h : p ∈ l.region) (picture : P → C) :
    l.onto picture p = l.color := by
  rw [onto, if_pos h]

theorem Layer.onto_of_notMem {l : Layer P C} {p : P} (h : p ∉ l.region) (picture : P → C) :
    l.onto picture p = picture p := by
  rw [onto, if_neg h]

/-- Nothing painted. -/
theorem Layer.onto_empty (color : C) (picture : P → C) :
    (Layer.mk ∅ color).onto picture = picture := by
  funext p
  exact onto_of_notMem (Set.notMem_empty p) picture

/-- Two regions of one colour are one layer. -/
theorem Layer.onto_union (A B : Set P) (color : C) (picture : P → C) :
    (Layer.mk (A ∪ B) color).onto picture =
      (Layer.mk B color).onto ((Layer.mk A color).onto picture) := by
  funext p
  by_cases hB : p ∈ B
  · rw [onto_of_mem (l := ⟨B, color⟩) hB, onto_of_mem (l := ⟨A ∪ B, color⟩) (Or.inr hB)]
  · rw [onto_of_notMem (l := ⟨B, color⟩) hB]
    by_cases hA : p ∈ A
    · rw [onto_of_mem (l := ⟨A, color⟩) hA, onto_of_mem (l := ⟨A ∪ B, color⟩) (Or.inl hA)]
    · rw [onto_of_notMem (l := ⟨A, color⟩) hA, onto_of_notMem (l := ⟨A ∪ B, color⟩)]
      rintro (h | h)
      · exact hA h
      · exact hB h

@[simp] theorem stack_nil (picture : P → C) : stack [] picture = picture := rfl

@[simp] theorem stack_cons (l : Layer P C) (layers : List (Layer P C)) (picture : P → C) :
    stack (l :: layers) picture = stack layers (l.onto picture) := rfl

theorem stack_append (below above : List (Layer P C)) (picture : P → C) :
    stack (below ++ above) picture = stack above (stack below picture) := by
  rw [stack, List.foldl_append]
  rfl

/-- Where nothing is painted, the picture shows. -/
theorem stack_of_notMem {layers : List (Layer P C)} {p : P} (h : p ∉ covered layers)
    (picture : P → C) : stack layers picture p = picture p := by
  induction layers generalizing picture with
  | nil => rfl
  | cons l layers ih =>
    have htail : p ∉ covered layers := by
      rintro ⟨m, hm, hp⟩
      exact h ⟨m, List.mem_cons_of_mem l hm, hp⟩
    rw [stack_cons, ih htail]
    exact Layer.onto_of_notMem (fun hp => h ⟨l, List.mem_cons_self, hp⟩) picture

/-- **What a place shows**: the picture, or the uppermost of the layers that cover the place. -/
theorem stack_cases (layers : List (Layer P C)) (picture : P → C) (p : P) :
    p ∉ covered layers ∧ stack layers picture p = picture p ∨
      ∃ below l above, layers = below ++ l :: above ∧ p ∈ l.region ∧ p ∉ covered above ∧
        stack layers picture p = l.color := by
  by_cases h : p ∈ covered layers
  · right
    induction layers using List.reverseRecOn with
    | nil =>
      obtain ⟨l, hl, -⟩ := h
      simp at hl
    | append_singleton layers m ih =>
      rw [stack_append, stack_cons, stack_nil]
      by_cases hm : p ∈ m.region
      · refine ⟨layers, m, [], rfl, hm, ?_, Layer.onto_of_mem hm _⟩
        rintro ⟨l, hl, -⟩
        simp at hl
      · obtain ⟨l, hl, hp⟩ := h
        have hl' : l ∈ layers := by
          rcases List.mem_append.mp hl with hl | hl
          · exact hl
          · rw [List.mem_singleton] at hl
            exact absurd (hl ▸ hp) hm
        obtain ⟨below, top, above, rfl, htop, habove, heq⟩ := ih ⟨l, hl', hp⟩
        refine ⟨below, top, above ++ [m], by simp, htop, ?_, ?_⟩
        · rintro ⟨k, hk, hpk⟩
          rcases List.mem_append.mp hk with hk | hk
          · exact habove ⟨k, hk, hpk⟩
          · rw [List.mem_singleton] at hk
            exact hm (hk ▸ hpk)
        · rw [Layer.onto_of_notMem hm, heq]
  · exact Or.inl ⟨h, stack_of_notMem h picture⟩

/-- Layers hide the difference between two pictures, and make none. -/
theorem stack_congr (layers : List (Layer P C)) {f g : P → C} {p : P}
    (h : p ∉ covered layers → f p = g p) : stack layers f p = stack layers g p := by
  induction layers generalizing f g with
  | nil =>
    apply h
    rintro ⟨l, hl, -⟩
    exact List.not_mem_nil hl
  | cons l layers ih =>
    rw [stack_cons, stack_cons]
    apply ih
    intro hp
    by_cases hl : p ∈ l.region
    · rw [Layer.onto_of_mem hl, Layer.onto_of_mem hl]
    · rw [Layer.onto_of_notMem hl, Layer.onto_of_notMem hl]
      apply h
      rintro ⟨m, hm, hpm⟩
      rcases List.mem_cons.mp hm with rfl | hm
      · exact hl hpm
      · exact hp ⟨m, hm, hpm⟩

end Painting
