import Mathlib.Algebra.Order.BigOperators.Group.List
import Mathlib.Tactic

/-!
# Filling lines

The longest prefix of a list with a property that passes to shorter prefixes is what a loop finds
that takes elements one by one while it can. Lines of a given room are filled in this way: a line
takes the longest prefix of what is left that fits, and where more follows it ends behind the last
break of that prefix.

## Main definitions

* `Filling.Longest P l pre`: `pre` is the longest prefix of `l` with the property
* `Filling.Fits w room l`: a run of elements of these widths fits into the room
* `Filling.Filled w sp room l lines`: the lines that are filled with `l`

## Main results

* `Filling.longest_of_stops`: a prefix that cannot be extended by one element is the longest
* `Filling.Filled.flatten_eq`: the lines are a partition of the list
* `Filling.FirstLine.total_le_or_countP`: a line fits, or has one element that takes up room
* `Filling.Filled.eq_singleton`: a list that fits is one line
-/

namespace Filling

variable {α : Type*}

/-! ## Longest prefixes -/

/-- What a loop reads at the place behind the elements that it has taken. -/
theorem getElem?_behind (before : List α) (x : α) (rest : List α) :
    (before ++ x :: rest)[before.length]? = some x := by
  rw [List.getElem?_append_right (le_refl _), Nat.sub_self]
  rfl

/-- A property that passes to shorter prefixes. -/
def Closed (P : List α → Prop) : Prop := ∀ u v, P (u ++ v) → P u

/-- The longest prefix of `l` with the property. -/
structure Longest (P : List α → Prop) (l pre : List α) : Prop where
  isPrefix : pre <+: l
  holds : P pre
  longest : ∀ q, q <+: l → P q → q <+: pre

variable {P : List α → Prop} {l pre pre' post : List α}

theorem Longest.unique (h : Longest P l pre) (h' : Longest P l pre') : pre = pre' :=
  (h'.longest pre h.isPrefix h.holds).eq_of_length_le
    (h.longest pre' h'.isPrefix h'.holds).length_le

/-- **A prefix that cannot be extended by one element is the longest.** -/
theorem longest_of_stops (hP : Closed P) (h : P pre)
    (hstop : ∀ x v, post = x :: v → ¬ P (pre ++ [x])) : Longest P (pre ++ post) pre := by
  refine ⟨List.prefix_append pre post, h, fun q hq hPq => ?_⟩
  rcases List.prefix_or_prefix_of_prefix hq (List.prefix_append pre post) with hle | ⟨v, rfl⟩
  · exact hle
  cases v with
  | nil => rw [List.append_nil]
  | cons x v =>
    -- a longer one would begin with the extension that is refused
    obtain ⟨rest, hrest⟩ := hq
    rw [List.append_assoc, List.append_cancel_left_eq, List.cons_append] at hrest
    refine absurd (hP (pre ++ [x]) v ?_) (hstop x (v ++ rest) hrest.symm)
    rwa [List.append_assoc]

/-- The longest prefix cannot be extended. -/
theorem Longest.stops {x : α} {v : List α} (h : Longest P (pre ++ x :: v) pre) :
    ¬ P (pre ++ [x]) := by
  intro hx
  have hle := (h.longest (pre ++ [x]) ⟨v, by simp⟩ hx).length_le
  rw [List.length_append, List.length_singleton] at hle
  omega

/-! ## Widths -/

section Widths

variable (w : α → ℤ)

/-- The room that a run of elements takes up. -/
def total (l : List α) : ℤ := (l.map w).sum

@[simp] theorem total_nil : total w [] = 0 := rfl

@[simp] theorem total_cons (x : α) (l : List α) : total w (x :: l) = w x + total w l := by
  rw [total, List.map_cons, List.sum_cons, total]

@[simp] theorem total_append (l l' : List α) : total w (l ++ l') = total w l + total w l' := by
  rw [total, List.map_append, List.sum_append, total, total]

theorem total_concat (l : List α) (x : α) : total w (l ++ [x]) = total w l + w x := by
  rw [total_append, total_cons, total_nil, add_zero]

variable {w}

theorem total_nonneg (hw : ∀ x, 0 ≤ w x) (l : List α) : 0 ≤ total w l := by
  refine List.sum_nonneg fun n hn => ?_
  obtain ⟨x, -, rfl⟩ := List.mem_map.mp hn
  exact hw x

theorem total_le_of_isPrefix (hw : ∀ x, 0 ≤ w x) (h : pre <+: l) : total w pre ≤ total w l := by
  obtain ⟨v, rfl⟩ := h
  have := total_nonneg hw v
  rw [total_append]
  omega

/-- Where a run takes up no room, none of its elements does. -/
theorem countP_eq_zero_of_total (hw : ∀ x, 0 ≤ w x) (h : total w l ≤ 0) :
    l.countP (fun x => 0 < w x) = 0 := by
  induction l with
  | nil => rfl
  | cons x l ih =>
    have hx := hw x
    have hl := total_nonneg hw l
    rw [total_cons] at h
    rw [List.countP_cons_of_neg (by simpa using (by omega : w x ≤ 0)), ih (by omega)]

variable (w)

/-- A run fits into the room, or nothing in front of its last element takes up any. -/
def Fits (room : ℤ) (l : List α) : Prop := total w l ≤ room ∨ total w l.dropLast ≤ 0

variable {w} {room : ℤ}

/-- What a loop tests before it takes one more element. -/
theorem fits_append_singleton (l : List α) (x : α) :
    Fits w room (l ++ [x]) ↔ ¬ (0 < total w l ∧ room < total w l + w x) := by
  rw [Fits, List.dropLast_concat, total_concat, not_and_or, not_lt, not_lt, or_comm]

theorem fits_nil : Fits w room [] := .inr le_rfl

theorem closed_fits (hw : ∀ x, 0 ≤ w x) (room : ℤ) : Closed (Fits w room) := by
  intro u v h
  rcases List.eq_nil_or_concat v with rfl | ⟨v, x, rfl⟩
  · rwa [List.append_nil] at h
  · rcases h with h | h
    · exact .inl ((total_le_of_isPrefix hw (List.prefix_append _ _)).trans h)
    · refine .inr (le_trans (total_le_of_isPrefix hw ?_) h)
      rw [List.concat_eq_append, ← List.append_assoc, List.dropLast_concat]
      exact (List.dropLast_prefix u).trans (List.prefix_append u v)

end Widths

/-! ## Lines -/

/-- Where a line ends that more follows: behind the last break of what fits, or with what fits where
only its first element can be a break. -/
inductive Breaks (sp : α) : List α → List α → Prop
  | behind {u v : List α} (hu : u ≠ []) (hv : sp ∉ v) : Breaks sp (u ++ sp :: v) (u ++ [sp])
  | whole {pre : List α} (h : sp ∉ pre.tail) : Breaks sp pre pre

/-- The line that is filled first, where `rest` is left: all there is, when it fits, or a line that
is broken. -/
inductive FirstLine (w : α → ℤ) (sp : α) (room : ℤ) (line rest : List α) : Prop
  | last (hrest : rest = []) (hfits : Longest (Fits w room) (line ++ rest) line)
  | broken {pre : List α} (hfits : Longest (Fits w room) (line ++ rest) pre)
      (hmore : pre ≠ line ++ rest) (hbreak : Breaks sp pre line)

/-- The lines that are filled with a list. -/
inductive Filled (w : α → ℤ) (sp : α) (room : ℤ) : List α → List (List α) → Prop
  | nil : Filled w sp room [] []
  | cons {line rest : List α} {lines : List (List α)} (hne : line ≠ [])
      (hline : FirstLine w sp room line rest) (hrest : Filled w sp room rest lines) :
      Filled w sp room (line ++ rest) (line :: lines)

variable {w : α → ℤ} {sp : α} {room : ℤ} {line rest : List α} {lines : List (List α)}

theorem Breaks.isPrefix (h : Breaks sp pre line) : line <+: pre := by
  cases h with
  | behind => exact ⟨_, by rw [List.append_assoc]; rfl⟩
  | whole => exact List.prefix_refl _

/-- Where more follows, a line ends behind the last break of what fits, if a break other than the
first element fits. -/
theorem Breaks.cut [DecidableEq α] (h : Breaks sp pre line) :
    if sp ∈ pre.tail then ∃ u v, pre = u ++ sp :: v ∧ sp ∉ v ∧ line = u ++ [sp]
    else line = pre := by
  cases h with
  | @behind u v hu hv =>
    have hmem : sp ∈ (u ++ sp :: v).tail := by
      rw [List.tail_append_of_ne_nil hu]
      exact List.mem_append_right _ List.mem_cons_self
    rw [if_pos hmem]
    exact ⟨u, v, rfl, hv, rfl⟩
  | whole hnot => rw [if_neg hnot]

/-- A line against the longest prefix that fits: it is broken exactly where more is left than
fits. -/
theorem FirstLine.exists_longest (h : FirstLine w sp room line rest) :
    ∃ pre, Longest (Fits w room) (line ++ rest) pre ∧ (rest = [] ↔ pre = line ++ rest) ∧
      (rest ≠ [] → Breaks sp pre line) := by
  cases h with
  | last hrest hfits =>
    exact ⟨line, hfits, iff_of_true hrest (by rw [hrest, List.append_nil]),
      fun h => absurd hrest h⟩
  | @broken pre hfits hmore hbreak =>
    refine ⟨pre, hfits, iff_of_false ?_ hmore, fun _ => hbreak⟩
    rintro rfl
    have hpre := hfits.isPrefix
    rw [List.append_nil] at hpre hmore
    exact hmore (hpre.eq_of_length_le hbreak.isPrefix.length_le)

/-- **The lines are a partition of the list.** -/
theorem Filled.flatten_eq (h : Filled w sp room l lines) : lines.flatten = l := by
  induction h with
  | nil => rfl
  | cons _ _ _ ih => rw [List.flatten_cons, ih]

theorem Filled.ne_nil (h : Filled w sp room l lines) : ∀ line ∈ lines, line ≠ [] := by
  induction h with
  | nil => exact List.forall_mem_nil _
  | cons hne _ _ ih => exact List.forall_mem_cons.mpr ⟨hne, ih⟩

theorem flatten_eq_nil_iff_of_ne_nil (h : ∀ line ∈ lines, line ≠ []) :
    lines.flatten = [] ↔ lines = [] := by
  rw [List.flatten_eq_nil_iff, List.eq_nil_iff_forall_not_mem]
  exact forall_congr' fun line => ⟨fun hnil hmem => h line hmem (hnil hmem),
    fun hnot hmem => absurd hmem hnot⟩

/-- Every line is the first of what is left at it. -/
theorem Filled.firstLine {before after : List (List α)} (h : Filled w sp room l lines)
    (hlines : lines = before ++ line :: after) : FirstLine w sp room line after.flatten := by
  induction h generalizing before with
  | nil => exact absurd hlines.symm (by simp)
  | @cons line' rest lines hne hline hrest ih =>
    cases before with
    | nil =>
      rw [List.nil_append] at hlines
      obtain ⟨rfl, rfl⟩ := List.cons.inj hlines
      rwa [hrest.flatten_eq]
    | cons first before => exact ih (List.cons.inj hlines).2

/-- What fits, or has nothing that takes up room in front of its last element. -/
theorem Fits.total_le_or_countP (hw : ∀ x, 0 ≤ w x) (h : Fits w room l) :
    total w l ≤ max room 0 ∨ l.countP (fun x => 0 < w x) = 1 := by
  rcases h with h | h
  · exact .inl (le_max_of_le_left h)
  rcases List.eq_nil_or_concat l with rfl | ⟨u, x, rfl⟩
  · exact .inl (le_max_right _ _)
  rw [List.concat_eq_append] at h ⊢
  rw [List.dropLast_concat] at h
  by_cases hx : 0 < w x
  · refine .inr ?_
    rw [List.countP_append, countP_eq_zero_of_total hw h, List.countP_singleton,
      if_pos (by simpa using hx)]
  · refine .inl (le_max_of_le_right ?_)
    rw [total_append, total_cons, total_nil]
    omega

/-- **A line fits**, or has exactly one element that takes up room. Where the room is negative, a
line may instead take up none. -/
theorem FirstLine.total_le_or_countP (hw : ∀ x, 0 ≤ w x) (h : FirstLine w sp room line rest) :
    total w line ≤ max room 0 ∨ line.countP (fun x => 0 < w x) = 1 := by
  cases h with
  | last _ hfits => exact hfits.holds.total_le_or_countP hw
  | broken hfits _ hbreak =>
    obtain ⟨v, rfl⟩ := hbreak.isPrefix
    exact (closed_fits hw room line v hfits.holds).total_le_or_countP hw

/-- **A list that fits is one line.** -/
theorem Filled.eq_singleton (h : Filled w sp room l lines) (hne : l ≠ [])
    (hfits : total w l ≤ room) : lines = [l] := by
  cases h with
  | nil => exact absurd rfl hne
  | @cons line rest lines hline hfirst hrest =>
    obtain ⟨pre, hlongest, hlast, -⟩ := hfirst.exists_longest
    have hall := hlongest.longest (line ++ rest) (List.prefix_refl _) (.inl hfits)
    -- the longest prefix that fits is all of it, so nothing is left
    have hempty := hlast.mpr (hlongest.isPrefix.eq_of_length_le hall.length_le)
    subst hempty
    cases hlines : lines with
    | nil => rw [List.append_nil]
    | cons first lines =>
      rw [hlines] at hrest
      have hflatten := hrest.flatten_eq
      rw [List.flatten_cons, List.append_eq_nil_iff] at hflatten
      exact absurd hflatten.1 (hrest.ne_nil first List.mem_cons_self)

end Filling
