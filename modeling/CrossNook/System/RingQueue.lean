import Mathlib.Tactic

/-!
# Ring queues

A queue in an array of `n` slots: elements are written at the tail and read at the head, both
wrap around, and the queue is empty where they meet. It holds at most `n - 1` elements; a push
into a full queue drops the oldest.

## Main definitions

* `RingQueue`: the array with its two indices
* `RingQueue.contents`: the pending elements, the oldest first
* `Fifo`: the queue without the array, with a record of what became of every element

## Main results

* `RingQueue.contents_push_of_lt`, `RingQueue.contents_push_of_full`,
  `RingQueue.contents_pop_of_some`: the operations on the pending elements
* `RingQueue.Refines.run`: a run of a ring delivers what the queue without the array delivers
* `Fifo.elements_run`: in order, every element is delivered, dropped or pending
-/

variable {α : Type*} {n : ℕ}

/-- A queue in `n` slots. -/
structure RingQueue (α : Type*) (n : ℕ) where
  slots : ℕ → α
  head : ℕ
  tail : ℕ
  head_lt : head < n
  tail_lt : tail < n

namespace RingQueue

/-- The index after `i`, around the end. -/
def succ (n i : ℕ) : ℕ := (i + 1) % n

theorem succ_lt {i : ℕ} (h : i < n) : succ n i < n := Nat.mod_lt _ (Nat.zero_lt_of_lt h)

/-- Write at the tail; a full queue drops its oldest element. -/
def push (r : RingQueue α n) (a : α) : RingQueue α n where
  slots := Function.update r.slots r.tail a
  head := if succ n r.tail = r.head then succ n r.head else r.head
  tail := succ n r.tail
  head_lt := by
    split_ifs
    · exact succ_lt r.head_lt
    · exact r.head_lt
  tail_lt := succ_lt r.tail_lt

/-- Read at the head, unless the queue is empty. -/
def pop (r : RingQueue α n) : Option (α × RingQueue α n) :=
  if r.head = r.tail then none
  else some (r.slots r.head, { r with head := succ n r.head, head_lt := succ_lt r.head_lt })

/-! ## The pending elements -/

/-- The number of the pending elements. -/
def count (r : RingQueue α n) : ℕ := if r.head ≤ r.tail then r.tail - r.head else r.tail + n - r.head

/-- The index of the slot `i` places behind the head. -/
def index (r : RingQueue α n) (i : ℕ) : ℕ := if r.head + i < n then r.head + i else r.head + i - n

/-- The pending elements, the oldest first. -/
def contents (r : RingQueue α n) : List α := (List.range r.count).map fun i => r.slots (r.index i)

theorem succ_eq {i : ℕ} (h : i < n) : succ n i = if i + 1 < n then i + 1 else 0 := by
  unfold succ
  split_ifs with hlt
  · exact Nat.mod_eq_of_lt hlt
  · rw [show i + 1 = n by omega, Nat.mod_self]

theorem count_lt (r : RingQueue α n) : r.count < n := by
  have hhead := r.head_lt
  have htail := r.tail_lt
  unfold count
  split_ifs <;> omega

@[simp] theorem length_contents (r : RingQueue α n) : r.contents.length = r.count := by
  rw [contents, List.length_map, List.length_range]

theorem getElem_contents (r : RingQueue α n) {i : ℕ} (h : i < r.contents.length) :
    r.contents[i] = r.slots (r.index i) := by
  simp [contents]

/-- The queue is full where the next index of the tail is the head. -/
theorem succ_tail_eq_head_iff (r : RingQueue α n) : succ n r.tail = r.head ↔ r.count + 1 = n := by
  have hhead := r.head_lt
  have htail := r.tail_lt
  rw [succ_eq htail, count]
  split_ifs <;> omega

theorem head_eq_tail_iff (r : RingQueue α n) : r.head = r.tail ↔ r.contents = [] := by
  have hhead := r.head_lt
  have htail := r.tail_lt
  rw [← List.length_eq_zero_iff, length_contents, count]
  split_ifs <;> omega

/-- The slot behind the pending elements is the tail. -/
theorem index_count (r : RingQueue α n) : r.index r.count = r.tail := by
  have hhead := r.head_lt
  have htail := r.tail_lt
  unfold index count
  split_ifs <;> omega

theorem index_ne_tail (r : RingQueue α n) {i : ℕ} (h : i < r.count) : r.index i ≠ r.tail := by
  have hhead := r.head_lt
  have htail := r.tail_lt
  unfold count at h
  unfold index
  split_ifs at h ⊢ <;> omega

/-- A push into a queue that is not full. -/
theorem contents_push_of_lt (r : RingQueue α n) (a : α) (h : r.count + 1 < n) :
    (r.push a).contents = r.contents ++ [a] := by
  have hfull : ¬ succ n r.tail = r.head := fun hs => by
    have := r.succ_tail_eq_head_iff.mp hs
    omega
  have hhead : (r.push a).head = r.head := if_neg hfull
  have hcount : (r.push a).count = r.count + 1 := by
    have h1 := r.head_lt
    have h2 := r.tail_lt
    have htail : (r.push a).tail = succ n r.tail := rfl
    rw [succ_eq h2] at hfull htail
    unfold count at h ⊢
    rw [hhead, htail]
    split_ifs at h hfull ⊢ <;> omega
  have hindex : ∀ i, (r.push a).index i = r.index i := fun i => by rw [index, index, hhead]
  have hslots : (r.push a).slots = Function.update r.slots r.tail a := rfl
  rw [contents, hcount, List.range_succ, List.map_append, List.map_singleton, hindex, hslots,
    index_count, Function.update_self]
  congr 1
  refine List.map_congr_left fun i hi => ?_
  rw [hindex, Function.update_of_ne (r.index_ne_tail (List.mem_range.mp hi))]

/-- A push into a full queue. -/
theorem contents_push_of_full (r : RingQueue α n) (a : α) (h : r.count + 1 = n) :
    (r.push a).contents = (r.contents ++ [a]).tail := by
  have hfull := r.succ_tail_eq_head_iff.mpr h
  have h1 := r.head_lt
  have h2 := r.tail_lt
  -- the oldest entry is given up: both ends move on by one
  have hhead : (r.push a).head = succ n r.head := if_pos hfull
  have htail : (r.push a).tail = succ n r.tail := rfl
  have hcount : (r.push a).count = r.count := by
    rw [succ_eq h1] at hhead
    rw [succ_eq h2] at hfull htail
    unfold count at h ⊢
    rw [hhead, htail]
    split_ifs at h hfull ⊢ <;> omega
  have hindex : ∀ i, i < r.count → (r.push a).index i = r.index (i + 1) := by
    intro i hi
    rw [succ_eq h1] at hhead
    unfold index
    rw [hhead]
    split_ifs <;> omega
  have hslots : (r.push a).slots = Function.update r.slots r.tail a := rfl
  refine List.ext_getElem ?_ fun i hi hi' => ?_
  · simp [hcount]
  · rw [length_contents, hcount] at hi
    rw [getElem_contents, List.getElem_tail, hindex i hi, hslots]
    -- the new entry takes the slot behind the last
    by_cases hlast : i + 1 = r.count
    · have hslot : Function.update r.slots r.tail a (r.index (i + 1)) = a := by
        rw [hlast, index_count, Function.update_self]
      rw [hslot, List.getElem_append_right (by simp [hlast]), List.getElem_singleton]
    · rw [Function.update_of_ne (r.index_ne_tail (by omega)),
        List.getElem_append_left (by rw [length_contents]; omega), getElem_contents]

theorem contents_pop_of_some {r r' : RingQueue α n} {a : α} (h : r.pop = some (a, r')) :
    r.contents = a :: r'.contents := by
  unfold pop at h
  split_ifs at h with hempty
  obtain ⟨rfl, rfl⟩ := Prod.mk.inj (Option.some.inj h)
  have h1 := r.head_lt
  have h2 := r.tail_lt
  set r' : RingQueue α n := { r with head := succ n r.head, head_lt := succ_lt r.head_lt } with hr'
  have hhead : r'.head = succ n r.head := rfl
  have htail : r'.tail = r.tail := rfl
  rw [succ_eq h1] at hhead
  -- only the head moves on
  have hcount : r.count = r'.count + 1 := by
    unfold count
    rw [hhead, htail]
    split_ifs <;> omega
  have hindex : ∀ i, i < r'.count → r'.index i = r.index (i + 1) := by
    intro i hi
    rw [count, hhead, htail] at hi
    unfold index
    rw [hhead]
    split_ifs at hi ⊢ <;> omega
  have hfirst : r.index 0 = r.head := by
    unfold index
    rw [if_pos (by omega)]
    rfl
  rw [contents, hcount, List.range_succ_eq_map, List.map_cons, List.map_map, hfirst, contents]
  congr 1
  refine List.map_congr_left fun i hi => ?_
  rw [hindex i (List.mem_range.mp hi)]
  rfl

/-- Of the elements pushed, the queue keeps the last. -/
theorem contents_foldl_push (r : RingQueue α n) (l : List α) :
    (l.foldl push r).contents =
      (r.contents ++ l).drop ((r.contents ++ l).length - (n - 1)) := by
  induction l using List.reverseRecOn with
  | nil =>
    have hcount := r.count_lt
    have hshort : (r.contents ++ []).length - (n - 1) = 0 := by
      rw [List.append_nil, length_contents]
      omega
    rw [hshort, List.drop_zero, List.append_nil]
    rfl
  | append_singleton l a ih =>
    rw [List.foldl_append, List.foldl_cons, List.foldl_nil]
    have hlength := congrArg List.length ih
    rw [length_contents, List.length_drop] at hlength
    rw [← List.append_assoc]
    have hlong : (r.contents ++ l ++ [a]).length = (r.contents ++ l).length + 1 :=
      List.length_append
    have hlt := (l.foldl push r).count_lt
    by_cases hfull : (l.foldl push r).count + 1 = n
    · rw [contents_push_of_full _ a hfull, ih, ← List.drop_one, ← List.drop_append_of_le_length
        (by omega), List.drop_drop, hlong]
      congr 1
      omega
    · rw [contents_push_of_lt _ a (by omega), ih, ← List.drop_append_of_le_length (by omega), hlong]
      congr 1
      omega

/-- Of the elements pushed into an empty queue, all are kept if there is room for them. -/
theorem contents_foldl_push_eq_iff {r : RingQueue α n} (hr : r.contents = []) (l : List α) :
    (l.foldl push r).contents = l ↔ l.length ≤ n - 1 := by
  rw [contents_foldl_push, hr, List.nil_append]
  constructor
  · intro h
    have hlength := congrArg List.length h
    rw [List.length_drop] at hlength
    omega
  · intro h
    rw [Nat.sub_eq_zero_of_le h, List.drop_zero]

/-- An empty queue has nothing to read. -/
theorem pop_eq_none_iff (r : RingQueue α n) : r.pop = none ↔ r.contents = [] := by
  rw [← head_eq_tail_iff, pop]
  split_ifs with h
  · exact ⟨fun _ => h, fun _ => rfl⟩
  · exact ⟨fun hn => hn.elim, fun he => absurd he h⟩

end RingQueue

/-! ## The queue without the array -/

/-- What becomes of an element that leaves the queue. -/
inductive Leaving
  | delivered
  | dropped
  deriving DecidableEq

/-- The pending elements, and those that have left with what became of them, in order. -/
structure Fifo (α : Type*) where
  pending : List α
  left : List (Leaving × α)

namespace Fifo

/-- A queue that nothing has been pushed into. -/
def empty : Fifo α := ⟨[], []⟩

/-- Take the oldest element out of the queue. -/
def leave (q : Fifo α) (fate : Leaving) : Fifo α :=
  match q.pending with
  | [] => q
  | a :: rest => ⟨rest, q.left ++ [(fate, a)]⟩

/-- Append; more than `capacity` elements do not stay. -/
def push (capacity : ℕ) (q : Fifo α) (a : α) : Fifo α :=
  let q : Fifo α := { q with pending := q.pending ++ [a] }
  if capacity < q.pending.length then q.leave .dropped else q

/-- The elements that were delivered. -/
def delivered (q : Fifo α) : List α := (q.left.filter fun e => e.1 = .delivered).map Prod.snd

/-- In order, the elements are those that have left and the pending ones. -/
def elements (q : Fifo α) : List α := q.left.map Prod.snd ++ q.pending

theorem elements_leave (q : Fifo α) (fate : Leaving) : (q.leave fate).elements = q.elements := by
  obtain ⟨pending, left⟩ := q
  cases pending with
  | nil => rfl
  | cons a rest => simp [leave, elements]

theorem elements_push (capacity : ℕ) (q : Fifo α) (a : α) :
    (q.push capacity a).elements = q.elements ++ [a] := by
  unfold push
  dsimp only
  split_ifs
  · rw [elements_leave]
    simp [elements]
  · simp [elements]

end Fifo

/-! ## Runs -/

/-- The operations on a queue. -/
inductive QueueOp (α : Type*)
  | push (a : α)
  | pop

namespace QueueOp

/-- The element that an operation pushes. -/
def pushed : QueueOp α → Option α
  | push a => some a
  | pop => none

end QueueOp

/-- The queue without the array after an operation. -/
def Fifo.step (capacity : ℕ) (q : Fifo α) : QueueOp α → Fifo α
  | .push a => q.push capacity a
  | .pop => q.leave .delivered

/-- The queue and what has been delivered so far, after an operation. -/
def RingQueue.step (s : RingQueue α n × List α) : QueueOp α → RingQueue α n × List α
  | .push a => (s.1.push a, s.2)
  | .pop =>
    match s.1.pop with
    | none => s
    | some (a, r) => (r, s.2 ++ [a])

/-- The ring holds the pending elements, and has delivered what the queue has. -/
structure RingQueue.Refines (s : RingQueue α n × List α) (q : Fifo α) : Prop where
  contents : s.1.contents = q.pending
  delivered : s.2 = q.delivered
  length_le : q.pending.length ≤ n - 1

theorem RingQueue.Refines.step {s : RingQueue α n × List α} {q : Fifo α}
    (h : RingQueue.Refines s q) (op : QueueOp α) :
    RingQueue.Refines (RingQueue.step s op) (q.step (n - 1) op) := by
  obtain ⟨r, out⟩ := s
  obtain ⟨pending, left⟩ := q
  obtain ⟨hcontents, hdelivered, hlen⟩ := h
  obtain rfl : r.contents = pending := hcontents
  obtain rfl : out = (⟨r.contents, left⟩ : Fifo α).delivered := hdelivered
  have hcount := r.count_lt
  simp only [RingQueue.length_contents] at hlen
  cases op with
  | push a =>
    by_cases hfull : r.count + 1 = n
    · -- a full ring drops its first element
      have hcontents := r.contents_push_of_full a hfull
      obtain ⟨first, rest, hsplit⟩ : ∃ first rest, r.contents ++ [a] = first :: rest :=
        List.exists_cons_of_ne_nil (by simp)
      have hq : (⟨r.contents, left⟩ : Fifo α).push (n - 1) a =
          ⟨rest, left ++ [(.dropped, first)]⟩ := by
        have hlong : n - 1 < (r.contents ++ [a]).length := by simp; omega
        rw [hsplit] at hlong
        rw [Fifo.push, hsplit, if_pos hlong]
        rfl
      have hrest : rest.length = r.count := by
        have := congrArg List.length hsplit
        simpa using this.symm
      rw [hsplit, List.tail_cons] at hcontents
      rw [Fifo.step, hq]
      refine ⟨hcontents, ?_, by simp only; omega⟩
      simp [RingQueue.step, Fifo.delivered]
    · have hcontents := r.contents_push_of_lt a (by omega)
      have hq : (⟨r.contents, left⟩ : Fifo α).push (n - 1) a = ⟨r.contents ++ [a], left⟩ := by
        have hshort : ¬ n - 1 < (r.contents ++ [a]).length := by simp; omega
        rw [Fifo.push, if_neg hshort]
      rw [Fifo.step, hq]
      exact ⟨hcontents, rfl, by simp; omega⟩
  | pop =>
    -- an element leaves exactly where there is one
    cases hpop : r.pop with
    | none =>
      have hempty := (r.pop_eq_none_iff).mp hpop
      have hq : (⟨r.contents, left⟩ : Fifo α).leave .delivered = ⟨r.contents, left⟩ := by
        rw [hempty]
        rfl
      rw [Fifo.step, hq]
      simp only [RingQueue.step, hpop]
      exact ⟨rfl, rfl, by simpa using hlen⟩
    | some p =>
      obtain ⟨a, r'⟩ := p
      have hcontents := RingQueue.contents_pop_of_some hpop
      have hq : (⟨r.contents, left⟩ : Fifo α).leave .delivered =
          ⟨r'.contents, left ++ [(.delivered, a)]⟩ := by
        rw [hcontents]
        rfl
      have hlength := congrArg List.length hcontents
      simp only [RingQueue.length_contents, List.length_cons] at hlength
      rw [Fifo.step, hq]
      simp only [RingQueue.step, hpop]
      exact ⟨rfl, by simp [Fifo.delivered], by simp; omega⟩

/-- **A run of a ring** delivers and holds what the queue without the array does. -/
theorem RingQueue.Refines.run {s : RingQueue α n × List α} {q : Fifo α}
    (h : RingQueue.Refines s q) (ops : List (QueueOp α)) :
    RingQueue.Refines (ops.foldl RingQueue.step s) (ops.foldl (Fifo.step (n - 1)) q) := by
  induction ops generalizing s q with
  | nil => exact h
  | cons op ops ih => exact ih (h.step op)

/-- **In order, every element is delivered, dropped or pending.** -/
theorem Fifo.elements_run (capacity : ℕ) (ops : List (QueueOp α)) (q : Fifo α) :
    (ops.foldl (Fifo.step capacity) q).elements = q.elements ++ ops.filterMap QueueOp.pushed := by
  induction ops generalizing q with
  | nil => exact (List.append_nil _).symm
  | cons op ops ih =>
    rw [List.foldl_cons, ih]
    cases op with
    | push a =>
      rw [Fifo.step, elements_push, List.append_assoc]
      rfl
    | pop =>
      rw [Fifo.step, elements_leave]
      rfl
