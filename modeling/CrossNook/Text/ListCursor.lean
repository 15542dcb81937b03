import Mathlib.Data.List.InsertIdx
import Mathlib.Tactic

/-!
# Lists with a cursor

A list with a place in it, at which elements are inserted and in front of which they are removed. The
place is where the list is cut in two, so there is none behind its end.

## Main definitions

* `ListCursor`: what stands before the cursor, and what stands behind it
* `ListCursor.insert`, `ListCursor.erase`, `ListCursor.place`: the operations

## Main results

* `ListCursor.items_insert`, `ListCursor.items_erase`: what they do to the list
* `ListCursor.cursor_insert`, `ListCursor.cursor_erase`, `ListCursor.cursor_place`: and to the cursor
-/

/-- A list with a cursor. -/
@[ext]
structure ListCursor (α : Type*) where
  before : List α
  after : List α
  deriving DecidableEq

namespace ListCursor

variable {α : Type*}

/-- The list. -/
def items (c : ListCursor α) : List α := c.before ++ c.after

/-- The number of elements before the cursor. -/
def cursor (c : ListCursor α) : ℕ := c.before.length

def empty : ListCursor α := ⟨[], []⟩

/-- An element inserted at the cursor, which is then behind it. -/
def insert (c : ListCursor α) (x : α) : ListCursor α := ⟨c.before ++ [x], c.after⟩

/-- The element before the cursor removed, if there is one. -/
def erase (c : ListCursor α) : ListCursor α := ⟨c.before.dropLast, c.after⟩

/-- The cursor placed behind `n` elements. -/
def place (c : ListCursor α) (n : ℕ) : ListCursor α := ⟨c.items.take n, c.items.drop n⟩

/-- The cursor at the end. -/
def toEnd (c : ListCursor α) : ListCursor α := ⟨c.items, []⟩

theorem cursor_le (c : ListCursor α) : c.cursor ≤ c.items.length := by
  rw [cursor, items, List.length_append]
  exact Nat.le_add_right _ _

theorem length_items (c : ListCursor α) : c.items.length = c.before.length + c.after.length :=
  List.length_append

/-- **An insertion** is one at the cursor. -/
theorem items_insert (c : ListCursor α) (x : α) :
    (c.insert x).items = c.items.insertIdx c.cursor x := by
  obtain ⟨before, after⟩ := c
  simp only [items, cursor, insert, List.append_assoc, List.singleton_append]
  induction before with
  | nil => rfl
  | cons y before ih => rw [List.cons_append, List.cons_append, List.length_cons,
      List.insertIdx_succ_cons, ih]

theorem cursor_insert (c : ListCursor α) (x : α) : (c.insert x).cursor = c.cursor + 1 := by
  rw [cursor, cursor, insert, List.length_append, List.length_singleton]

/-- **A removal** is one in front of the cursor. -/
theorem items_erase {c : ListCursor α} (h : 0 < c.cursor) :
    c.erase.items = c.items.eraseIdx (c.cursor - 1) := by
  obtain ⟨before, after⟩ := c
  rcases List.eq_nil_or_concat before with rfl | ⟨init, x, rfl⟩
  · exact absurd h (lt_irrefl 0)
  · simp only [items, cursor, erase, List.concat_eq_append, List.dropLast_concat,
      List.length_append, List.length_singleton, Nat.add_sub_cancel, List.append_assoc]
    rw [List.eraseIdx_append_of_length_le (le_refl _), Nat.sub_self]
    rfl

theorem cursor_erase (c : ListCursor α) : c.erase.cursor = c.cursor - 1 := List.length_dropLast

@[simp] theorem items_place (c : ListCursor α) (n : ℕ) : (c.place n).items = c.items :=
  List.take_append_drop n c.items

theorem cursor_place {c : ListCursor α} {n : ℕ} (h : n ≤ c.items.length) :
    (c.place n).cursor = n := List.length_take_of_le h

@[simp] theorem items_toEnd (c : ListCursor α) : c.toEnd.items = c.items := List.append_nil _

theorem cursor_toEnd (c : ListCursor α) : c.toEnd.cursor = c.items.length := rfl

end ListCursor
