import CrossNook.Text.ListCursor
import CrossNook.UI.AccountTextInput

/-!
# A text field is a list with a cursor

The buffer of a text field (`ui/account_text_input.c`) with the bytes that its edits move to and fro
holds a list with a cursor, in which the edits insert and remove single bytes. This holds along every
sequence of operations on a field that was initialised.

## Main definitions

* `FieldOp`, `TextInput.perform`: the operations of a field
* `ListField`: the abstract field
* `TextInput.Refines`: the buffer of a field holds a list with a cursor

## Main results

* `TextInput.Refines.append`, `TextInput.Refines.erase`: what the moves in the buffer do
* `TextInput.Refines.perform`: an operation of the field is that of the abstract field
* `TextInput.run_refines_list`: every run
-/

/-- An operation of a field. The functions of the code that take an `int` do nothing for a step of
zero, and find no key in a row or column below zero. -/
inductive FieldOp
  | append (byte : UInt8)
  | erase
  | setCursor (cursor : ℕ)
  | moveCursor (step : ℤ)
  | setCursorEnabled (enabled : Bool)
  | toggleShift
  | toggleSymbols
  | select (row column : ℤ)
  | move (step : ℤ)
  | activate
  deriving DecidableEq

namespace TextInput

/-- An operation, and its result where it is a `cn_account_text_result`. -/
def perform (input : TextInput) : FieldOp → TextInput × Option TextResult
  | .append byte => ((input.append byte).1, some (input.append byte).2)
  | .erase => (input.erase.1, some input.erase.2)
  | .setCursor cursor => (input.setCursor cursor, none)
  | .moveCursor step =>
    (if step = 0 then input else (input.moveCursor (decide (0 < step))).1, none)
  | .setCursorEnabled enabled => (input.setCursorEnabled enabled, none)
  | .toggleShift => (input.toggleShift, none)
  | .toggleSymbols => (input.toggleSymbols, none)
  | .select row column =>
    (if row < 0 ∨ column < 0 then input else input.select row.toNat column.toNat, none)
  | .move step => (if step = 0 then input else input.move (decide (0 < step)), none)
  | .activate => (input.activate.1, some input.activate.2)

/-- A field after operations, from `cn_account_text_init`. -/
def run (bytes : List UInt8) (ops : List FieldOp) : TextInput :=
  ops.foldl (fun input op => (input.perform op).1) (.init bytes)

end TextInput

/-! ## The abstract field -/

/-- A field that holds a list with a cursor: of how many bytes there is room for, and the state of
its keyboard. -/
structure ListField where
  capacity : ℕ
  text : ListCursor UInt8
  cursorEnabled : Bool
  symbols : Bool
  shifted : Bool
  selection : ℕ

namespace ListField

/-- An empty field. -/
def init (capacity : ℕ) : ListField where
  capacity := capacity
  text := .empty
  cursorEnabled := true
  symbols := false
  shifted := false
  selection := 0

/-- The text with the place of an edit: the cursor, or the end while the cursor is disabled. -/
def place (field : ListField) : ListCursor UInt8 :=
  if field.cursorEnabled then field.text else field.text.toEnd

/-- A printable byte is inserted, if there is room for it and the terminator. -/
def append (field : ListField) (byte : UInt8) : ListField × TextResult :=
  if field.capacity = 0 ∨ byte < 0x20 ∨ 0x7e < byte then (field, .invalid)
  else if field.capacity ≤ field.text.items.length + 1 then
    ({ field with text := field.place }, .full)
  else ({ field with text := field.place.insert byte }, .changed)

/-- The byte before the cursor is removed. -/
def erase (field : ListField) : ListField × TextResult :=
  if field.place.cursor = 0 then ({ field with text := field.place }, .unchanged)
  else ({ field with text := field.place.erase }, .changed)

def setCursorEnabled (field : ListField) (enabled : Bool) : ListField :=
  { field with
    cursorEnabled := enabled
    text := if enabled then field.text else field.text.toEnd }

/-- The cursor is placed, unless it is disabled or the text is shorter. -/
def setCursor (field : ListField) (cursor : ℕ) : ListField :=
  if field.cursorEnabled = false ∨ field.text.items.length < cursor then field
  else { field with text := field.text.place cursor }

/-- The cursor moves over one byte, unless it is disabled or there is none. -/
def moveCursor (field : ListField) (right : Bool) : ListField × TextResult :=
  if field.cursorEnabled = false then (field, .unchanged)
  else if right then
    if field.text.items.length ≤ field.text.cursor then (field, .unchanged)
    else ({ field with text := field.text.place (field.text.cursor + 1) }, .changed)
  else if field.text.cursor = 0 then (field, .unchanged)
  else ({ field with text := field.text.place (field.text.cursor - 1) }, .changed)

/-- The keyboard of a field, as that of a field without a text. -/
def keyboard (field : ListField) : TextInput :=
  ⟨[], 0, 0, field.cursorEnabled, field.symbols, field.shifted, field.selection⟩

/-- The state of the keyboard replaced. -/
def withKeyboard (field : ListField) (keyboard : TextInput) : ListField :=
  { field with
    symbols := keyboard.symbols
    shifted := keyboard.shifted
    selection := keyboard.selection }

/-- The effect of the selected key. A capital letter that was inserted ends the shift. -/
def activate (field : ListField) : ListField × TextResult :=
  if TextInput.keyRows * TextInput.selectionStride ≤ field.selection then (field, .invalid)
  else
    match field.keyboard.keyAt (field.selection / TextInput.selectionStride)
        (field.selection % TextInput.selectionStride) with
    | none => (field, .unchanged)
    | some (.character c) =>
      if (field.append c).2 = .changed ∧ field.shifted ∧ TextInput.IsLetter c then
        ({ (field.append c).1 with shifted := false }, .changed)
      else field.append c
    | some .shift => ({ field with shifted := !field.shifted }, .changed)
    | some .symbols => ({ field with symbols := !field.symbols, shifted := false }, .changed)
    | some .backspace => field.erase
    | some .cursorLeft => field.moveCursor false
    | some .cursorRight => field.moveCursor true
    | some .done => (field, .done)

/-- An operation of the abstract field. -/
def perform (field : ListField) : FieldOp → ListField × Option TextResult
  | .append byte => ((field.append byte).1, some (field.append byte).2)
  | .erase => (field.erase.1, some field.erase.2)
  | .setCursor cursor => (field.setCursor cursor, none)
  | .moveCursor step =>
    (if step = 0 then field else (field.moveCursor (decide (0 < step))).1, none)
  | .setCursorEnabled enabled => (field.setCursorEnabled enabled, none)
  | .toggleShift => ({ field with shifted := !field.shifted }, none)
  | .toggleSymbols => ({ field with symbols := !field.symbols, shifted := false }, none)
  | .select row column =>
    (if row < 0 ∨ column < 0 then field
      else field.withKeyboard (field.keyboard.select row.toNat column.toNat), none)
  | .move step =>
    (if step = 0 then field else field.withKeyboard (field.keyboard.move (decide (0 < step))), none)
  | .activate => (field.activate.1, some field.activate.2)

/-- The abstract field after operations. -/
def run (capacity : ℕ) (ops : List FieldOp) : ListField :=
  ops.foldl (fun field op => (field.perform op).1) (.init capacity)

end ListField

namespace TextInput

/-! ## The moves in the buffer -/

/-- **A byte inserted**: what stands behind the cursor moves to the right by one, over the byte
behind it. -/
theorem memmove_insert (u : List UInt8) {a v : List UInt8} {x y : UInt8} (byte : UInt8) :
    (memmove (u ++ (x :: a) ++ y :: v) (u.length + 1) u.length (a.length + 1)).set u.length byte =
      u ++ byte :: (x :: a) ++ v := by
  have htake : (u ++ (x :: a) ++ y :: v).take (u.length + 1) = u ++ [x] := by
    rw [List.append_assoc, List.cons_append, List.append_cons]
    exact List.take_left' (by rw [List.length_append, List.length_singleton])
  have hmid : ((u ++ (x :: a) ++ y :: v).drop u.length).take (a.length + 1) = x :: a := by
    rw [List.append_assoc, List.drop_left]
    exact List.take_left' (by rw [List.length_cons])
  have hdrop : (u ++ (x :: a) ++ y :: v).drop (u.length + 1 + (a.length + 1)) = v := by
    rw [List.append_cons]
    refine List.drop_left' ?_
    rw [List.length_append, List.length_append, List.length_cons, List.length_singleton]
    omega
  rw [memmove, htake, hmid, hdrop, List.append_assoc, List.append_assoc,
    List.set_append_right _ _ (le_refl _), Nat.sub_self]
  simp

/-- **A byte removed**: what stands behind it moves to the left by one, and the last byte of that
stays where it was as well. -/
theorem memmove_erase (u a v : List UInt8) (x z : UInt8) :
    memmove (u ++ x :: (a ++ [z]) ++ v) u.length (u.length + 1) (a.length + 1) =
      u ++ (a ++ [z]) ++ z :: v := by
  have htake : (u ++ x :: (a ++ [z]) ++ v).take u.length = u := by
    rw [List.append_assoc, List.take_left]
  have hmid : ((u ++ x :: (a ++ [z]) ++ v).drop (u.length + 1)).take (a.length + 1) = a ++ [z] := by
    have hdrop : (u ++ x :: (a ++ [z]) ++ v).drop (u.length + 1) = a ++ [z] ++ v := by
      rw [List.append_assoc, List.cons_append, List.append_cons]
      exact List.drop_left' (by rw [List.length_append, List.length_singleton])
    rw [hdrop]
    exact List.take_left' (by rw [List.length_append, List.length_singleton])
  have hrest : (u ++ x :: (a ++ [z]) ++ v).drop (u.length + (a.length + 1)) = z :: v := by
    have hsplit : u ++ x :: (a ++ [z]) ++ v = (u ++ x :: a) ++ z :: v := by simp
    rw [hsplit]
    exact List.drop_left' (by rw [List.length_append, List.length_cons])
  rw [memmove, htake, hmid, hrest]

/-! ## The simulation -/

/-- The buffer of a field holds a list with a cursor. All bytes behind the list are zero, up to the
length of the longest list that it has held; a buffer without bytes holds nothing. -/
structure Refines (input : TextInput) (field : ListField) (longest : ℕ) : Prop where
  capacity : input.bytes.length = field.capacity
  length : input.length = field.text.items.length
  cursor : input.cursor = field.text.cursor
  le_longest : input.length ≤ longest
  bytes : field.capacity ≠ 0 → ∃ rest, input.bytes =
    field.text.items ++ List.replicate (longest - input.length + 1) 0 ++ rest
  blank : field.capacity = 0 → field.text = .empty
  disabled : field.cursorEnabled = false → field.text.after = []
  cursorEnabled : input.cursorEnabled = field.cursorEnabled
  symbols : input.symbols = field.symbols
  shifted : input.shifted = field.shifted
  selection : input.selection = field.selection

/-- An operation of a field and one of the abstract field end alike. -/
def Agrees {ρ : Type} (longest : ℕ) (p : TextInput × ρ) (q : ListField × ρ) : Prop :=
  Refines p.1 q.1 (max longest p.1.length) ∧ p.2 = q.2

section Simulation

variable {input : TextInput} {field : ListField} {longest : ℕ}

/-- While the cursor is disabled it is at the end. -/
theorem Refines.place_eq (h : Refines input field longest) : field.place = field.text := by
  unfold ListField.place
  split_ifs with henabled
  · rfl
  · have hafter := h.disabled (by simpa using henabled)
    refine ListCursor.ext ?_ hafter.symm
    rw [ListCursor.toEnd, ListCursor.items, hafter, List.append_nil]

theorem Refines.cursor_eq (h : Refines input field longest) :
    (if input.cursorEnabled then input.cursor else input.length) = input.cursor := by
  split_ifs with henabled
  · rfl
  · have hafter := h.disabled (by rw [← h.cursorEnabled]; simpa using henabled)
    rw [h.length, h.cursor, ListCursor.length_items, hafter, List.length_nil, Nat.add_zero]
    rfl

theorem Refines.cursor_le (h : Refines input field longest) : input.cursor ≤ input.length := by
  rw [h.cursor, h.length]
  exact field.text.cursor_le

/-- Nothing changes. -/
theorem Refines.still (h : Refines input field longest) {ρ : Type} (r : ρ) :
    Agrees longest (input, r) (field, r) := by
  refine ⟨?_, rfl⟩
  dsimp only
  rwa [max_eq_left h.le_longest]

/-- The bytes of a field that is not full, from the cursor on: what is behind it with the
terminator, a byte that an insertion overwrites, and the others. -/
theorem Refines.exists_room {slack : ℕ} (h : Refines input field (input.length + slack))
    (hpos : field.capacity ≠ 0) (hroom : input.length + 1 < field.capacity) :
    ∃ x a y rest, field.text.after ++ [0] = x :: a ∧
      input.bytes =
        field.text.before ++ (x :: a) ++ y :: (List.replicate (slack - 1) 0 ++ rest) := by
  obtain ⟨rest, hbytes⟩ := h.bytes hpos
  have hlength := congrArg List.length hbytes
  have hitems := h.length
  have hcapacity := h.capacity
  obtain ⟨x, a, ha⟩ := List.exists_cons_of_ne_nil
    (List.append_ne_nil_of_right_ne_nil field.text.after (List.cons_ne_nil (0 : UInt8) []))
  rw [Nat.add_sub_cancel_left, List.length_append, List.length_append, List.length_replicate]
    at hlength
  rw [Nat.add_sub_cancel_left, List.replicate_succ, ListCursor.items] at hbytes
  cases slack with
  | zero =>
    cases rest with
    | nil =>
      rw [List.length_nil] at hlength
      omega
    | cons y rest => exact ⟨x, a, y, rest, ha, by rw [hbytes, ← ha]; simp⟩
  | succ slack => exact ⟨x, a, 0, rest, ha, by rw [hbytes, ← ha]; simp [List.replicate_succ]⟩

theorem Refines.append (h : Refines input field longest) (byte : UInt8) :
    Agrees longest (input.append byte) (field.append byte) := by
  have hcapacity := h.capacity
  have hlength := h.length
  have hcursor := h.cursor_le
  unfold TextInput.append ListField.append
  rw [h.cursor_eq, h.place_eq, hcapacity]
  by_cases hinvalid : field.capacity = 0 ∨ byte < 0x20 ∨ 0x7e < byte
  · rw [if_pos hinvalid, if_pos hinvalid]
    exact h.still TextResult.invalid
  rw [if_neg hinvalid, if_neg hinvalid]
  dsimp only
  rw [if_neg (not_lt.mpr hcursor)]
  by_cases hfull : field.capacity ≤ field.text.items.length + 1
  · rw [if_pos (by omega), if_pos hfull]
    exact h.still TextResult.full
  rw [if_neg (by omega), if_neg hfull]
  refine ⟨?_, rfl⟩
  dsimp only
  have hpos : field.capacity ≠ 0 := fun hzero => hinvalid (.inl hzero)
  have hsplit := field.text.length_items
  have hle := h.le_longest
  obtain ⟨slack, rfl⟩ : ∃ slack, longest = input.length + slack := ⟨longest - input.length, by omega⟩
  -- there is a byte behind the terminator to be overwritten
  obtain ⟨x, a, y, rest, hbehind, hbytes⟩ := h.exists_room hpos (by omega)
  have hcursor' : input.cursor = field.text.before.length := h.cursor
  have hcount : input.length - input.cursor + 1 = a.length + 1 := by
    have hafter := congrArg List.length hbehind
    rw [List.length_append, List.length_singleton, List.length_cons] at hafter
    omega
  have hmoved : (memmove input.bytes (input.cursor + 1) input.cursor
      (input.length - input.cursor + 1)).set input.cursor byte =
        field.text.before ++ byte :: (x :: a) ++ (List.replicate (slack - 1) 0 ++ rest) := by
    rw [hbytes, hcount, hcursor']
    exact memmove_insert _ byte
  have hinserted : (field.text.insert byte).items.length = field.text.items.length + 1 := by
    rw [ListCursor.length_items, hsplit, ListCursor.insert]
    dsimp only
    rw [List.length_append, List.length_singleton]
    omega
  rw [hmoved]
  refine ⟨?_, by dsimp only; omega, ?_, by dsimp only; omega, fun _ => ⟨rest, ?_⟩, ?_, ?_,
    h.cursorEnabled, h.symbols, h.shifted, h.selection⟩
  · -- the buffer keeps its length
    have hkept := congrArg List.length hbytes
    rw [hcapacity] at hkept
    dsimp only
    simp only [List.length_append, List.length_cons] at hkept ⊢
    omega
  · dsimp only
    rw [ListCursor.cursor_insert, ← h.cursor]
  · dsimp only
    have hslack : max (input.length + slack) (input.length + 1) - (input.length + 1) + 1 =
        slack - 1 + 1 := by omega
    rw [hslack, List.replicate_succ, ← hbehind, ListCursor.items, ListCursor.insert]
    simp
  · intro hzero
    exact absurd hzero hpos
  · intro hdisabled
    exact h.disabled hdisabled

theorem Refines.erase (h : Refines input field longest) : Agrees longest input.erase field.erase := by
  have hlength := h.length
  have hle := h.le_longest
  have hcursor' : input.cursor = field.text.before.length := h.cursor
  unfold TextInput.erase ListField.erase
  rw [if_neg (not_lt.mpr h.cursor_le), h.place_eq]
  dsimp only
  rw [h.cursor_eq, h.cursor]
  by_cases hstart : field.text.cursor = 0
  · rw [if_pos hstart, if_pos hstart, ← h.cursor]
    exact h.still TextResult.unchanged
  rw [if_neg hstart, if_neg hstart]
  refine ⟨?_, rfl⟩
  dsimp only
  -- the byte in front of the cursor
  obtain ⟨u, x, hbefore⟩ : ∃ u x, field.text.before = u ++ [x] := by
    rcases List.eq_nil_or_concat field.text.before with hnil | ⟨u, x, hconcat⟩
    · exact absurd (congrArg List.length hnil) hstart
    · exact ⟨u, x, hconcat.trans List.concat_eq_append⟩
  have hpos : field.capacity ≠ 0 := by
    intro hzero
    rw [h.blank hzero] at hstart
    exact hstart rfl
  obtain ⟨rest, hbytes⟩ := h.bytes hpos
  have hsplit := field.text.length_items
  have hcount : field.text.cursor = u.length + 1 := by
    rw [ListCursor.cursor, hbefore, List.length_append, List.length_singleton]
  obtain ⟨slack, rfl⟩ : ∃ slack, longest = input.length + slack := ⟨longest - input.length, by omega⟩
  -- what stands behind it moves over it; the terminator stays behind as a zero more
  have hmoved : memmove input.bytes (field.text.cursor - 1) field.text.cursor
      (input.length - field.text.cursor + 1) =
        u ++ (field.text.after ++ [0]) ++ 0 :: (List.replicate slack 0 ++ rest) := by
    have hbytes' : input.bytes =
        u ++ x :: (field.text.after ++ [0]) ++ (List.replicate slack 0 ++ rest) := by
      rw [hbytes, Nat.add_sub_cancel_left, List.replicate_succ, ListCursor.items, hbefore]
      simp
    have hafter : input.length - field.text.cursor + 1 = field.text.after.length + 1 := by
      rw [ListCursor.cursor] at hcount ⊢
      omega
    rw [hafter, hcount, Nat.add_sub_cancel, hbytes']
    exact memmove_erase u field.text.after _ x 0
  have herased : field.text.erase.items = u ++ field.text.after := by
    rw [ListCursor.items, ListCursor.erase, hbefore, List.dropLast_concat]
  have hnew : input.length - 1 = field.text.erase.items.length := by
    rw [herased, List.length_append]
    rw [ListCursor.cursor] at hcount
    omega
  rw [hmoved]
  refine ⟨?_, hnew, ?_, by dsimp only; omega, fun _ => ⟨rest, ?_⟩, ?_, ?_, h.cursorEnabled,
    h.symbols, h.shifted, h.selection⟩
  · have hkept := congrArg List.length hbytes
    rw [h.capacity] at hkept
    rw [ListCursor.cursor] at hcount
    dsimp only
    simp only [List.length_append, List.length_cons, List.length_replicate, List.length_nil]
      at hkept ⊢
    omega
  · dsimp only
    rw [ListCursor.cursor_erase]
  · dsimp only
    rw [ListCursor.cursor] at hcount
    have hslack : max (input.length + slack) (input.length - 1) - (input.length - 1) + 1 =
        slack + 1 + 1 := by omega
    rw [hslack, herased, List.replicate_succ, List.replicate_succ]
    simp
  · intro hzero
    exact absurd hzero hpos
  · intro hdisabled
    exact h.disabled hdisabled

/-! ### The cursor -/

/-- Another place in the same text. -/
theorem Refines.replace (h : Refines input field longest) {cursor : ℕ} {enabled enabled' : Bool}
    {text : ListCursor UInt8} (hitems : text.items = field.text.items)
    (hcursor : cursor = text.cursor) (henabled : enabled = enabled')
    (hdisabled : enabled' = false → text.after = []) :
    Refines { input with cursor, cursorEnabled := enabled }
      { field with text, cursorEnabled := enabled' } longest := by
  refine ⟨h.capacity, h.length.trans (congrArg _ hitems.symm), hcursor, h.le_longest, ?_, ?_,
    hdisabled, henabled, h.symbols, h.shifted, h.selection⟩
  · dsimp only
    rw [hitems]
    exact h.bytes
  · intro hzero
    have hempty := congrArg List.length hitems
    rw [h.blank hzero, ListCursor.length_items, ListCursor.length_items] at hempty
    refine ListCursor.ext (List.length_eq_zero_iff.mp ?_) (List.length_eq_zero_iff.mp ?_)
    all_goals
      simp only [ListCursor.empty, List.length_nil] at hempty ⊢
      omega

theorem Refines.setCursor (h : Refines input field longest) (cursor : ℕ) :
    Refines (input.setCursor cursor) (field.setCursor cursor) longest := by
  have hcondition : (input.cursorEnabled = false ∨ input.length < cursor) ↔
      (field.cursorEnabled = false ∨ field.text.items.length < cursor) := by
    rw [h.length, h.cursorEnabled]
  unfold TextInput.setCursor ListField.setCursor
  by_cases hignored : field.cursorEnabled = false ∨ field.text.items.length < cursor
  · rw [if_pos (hcondition.mpr hignored), if_pos hignored]
    exact h
  · rw [if_neg (mt hcondition.mp hignored), if_neg hignored]
    rw [not_or, not_lt] at hignored
    exact h.replace (field.text.items_place cursor) (ListCursor.cursor_place hignored.2).symm
      h.cursorEnabled (fun hdisabled => absurd hdisabled hignored.1)

theorem Refines.moveCursor (h : Refines input field longest) (right : Bool) :
    Agrees longest (input.moveCursor right) (field.moveCursor right) := by
  have hcursor := h.cursor
  have hlength := h.length
  have hle := field.text.cursor_le
  -- one step, to a place in the text
  have hstep {n n' : ℕ} (hn : n = n') (hplace : n' ≤ field.text.items.length)
      (henabled : field.cursorEnabled ≠ false) :
      Agrees longest ({ input with cursor := n }, TextResult.changed)
        ({ field with text := field.text.place n' }, TextResult.changed) := by
    refine ⟨?_, rfl⟩
    dsimp only
    rw [max_eq_left h.le_longest]
    exact h.replace (field.text.items_place n') (hn.trans (ListCursor.cursor_place hplace).symm)
      h.cursorEnabled (fun hdisabled => absurd hdisabled henabled)
  unfold TextInput.moveCursor ListField.moveCursor
  by_cases henabled : field.cursorEnabled = false
  · rw [if_pos (h.cursorEnabled.trans henabled), if_pos henabled]
    exact h.still TextResult.unchanged
  rw [if_neg (by rwa [h.cursorEnabled]), if_neg henabled]
  cases right with
  | true =>
    rw [if_pos rfl, if_pos rfl]
    by_cases hend : field.text.items.length ≤ field.text.cursor
    · rw [if_pos (by omega), if_pos hend]
      exact h.still TextResult.unchanged
    · rw [if_neg (by omega), if_neg hend]
      exact hstep (by omega) (by omega) henabled
  | false =>
    rw [if_neg Bool.false_ne_true, if_neg Bool.false_ne_true]
    by_cases hstart : field.text.cursor = 0
    · rw [if_pos (by omega), if_pos hstart]
      exact h.still TextResult.unchanged
    · rw [if_neg (by omega), if_neg hstart]
      exact hstep (by omega) (by omega) henabled

theorem Refines.setCursorEnabled (h : Refines input field longest) (enabled : Bool) :
    Refines (input.setCursorEnabled enabled) (field.setCursorEnabled enabled) longest := by
  unfold TextInput.setCursorEnabled ListField.setCursorEnabled
  cases enabled with
  | true => exact h.replace rfl h.cursor rfl (fun hdisabled => absurd hdisabled (by decide))
  | false =>
    exact h.replace field.text.items_toEnd (h.length.trans field.text.cursor_toEnd.symm) rfl
      (fun _ => rfl)

/-! ### The keyboard -/

/-- Another state of the keyboard. -/
theorem Refines.rekey (h : Refines input field longest) {symbols symbols' shifted shifted' : Bool}
    {selection selection' : ℕ} (hsymbols : symbols = symbols') (hshifted : shifted = shifted')
    (hselection : selection = selection') :
    Refines { input with symbols, shifted, selection }
      { field with symbols := symbols', shifted := shifted', selection := selection' } longest :=
  ⟨h.capacity, h.length, h.cursor, h.le_longest, h.bytes, h.blank, h.disabled, h.cursorEnabled,
    hsymbols, hshifted, hselection⟩

/-- Two fields with the same keyboard. -/
structure SameKeys (input input' : TextInput) : Prop where
  cursorEnabled : input.cursorEnabled = input'.cursorEnabled
  symbols : input.symbols = input'.symbols
  shifted : input.shifted = input'.shifted
  selection : input.selection = input'.selection

variable {input' : TextInput}

theorem SameKeys.keyAt_eq (h : SameKeys input input') (row column : ℕ) :
    input.keyAt row column = input'.keyAt row column := by
  unfold keyAt
  rw [h.symbols, h.shifted, h.cursorEnabled]

theorem SameKeys.select (h : SameKeys input input') (row column : ℕ) :
    SameKeys (input.select row column) (input'.select row column) := by
  unfold TextInput.select
  rw [h.keyAt_eq]
  cases input'.keyAt row column with
  | none => exact h
  | some _ => exact ⟨h.cursorEnabled, h.symbols, h.shifted, rfl⟩

theorem SameKeys.moveTries (h : SameKeys input input') (forward : Bool) (tries : ℕ) :
    SameKeys (input.moveTries forward tries) (input'.moveTries forward tries) := by
  induction tries generalizing input input' with
  | zero => exact h
  | succ tries ih =>
    have hmoved (selection : ℕ) :
        SameKeys { input with selection } { input' with selection } :=
      ⟨h.cursorEnabled, h.symbols, h.shifted, rfl⟩
    rw [TextInput.moveTries, TextInput.moveTries, h.selection, (hmoved _).keyAt_eq]
    split
    · exact ih (hmoved _)
    · exact hmoved _

theorem Refines.sameKeys (h : Refines input field longest) : SameKeys input field.keyboard :=
  ⟨h.cursorEnabled, h.symbols, h.shifted, h.selection⟩

theorem select_eq (input : TextInput) (row column : ℕ) :
    ∃ selection, input.select row column = { input with selection } := by
  unfold TextInput.select
  split
  · exact ⟨_, rfl⟩
  · exact ⟨_, rfl⟩

/-- The selection moves alike on the same keyboards. -/
theorem Refines.select (h : Refines input field longest) (row column : ℕ) :
    Refines (input.select row column) (field.withKeyboard (field.keyboard.select row column))
      longest := by
  have hkeys := h.sameKeys.select row column
  obtain ⟨selection, hselection⟩ := input.select_eq row column
  rw [hselection] at hkeys ⊢
  exact h.rekey hkeys.symbols hkeys.shifted hkeys.selection

theorem Refines.move (h : Refines input field longest) (forward : Bool) :
    Refines (input.move forward) (field.withKeyboard (field.keyboard.move forward)) longest := by
  have hkeys := h.sameKeys.moveTries forward (keyRows * selectionStride)
  obtain ⟨selection, hselection⟩ := input.moveTries_eq forward (keyRows * selectionStride)
  rw [TextInput.move, hselection]
  rw [hselection] at hkeys
  exact h.rekey hkeys.symbols hkeys.shifted hkeys.selection

/-- The selected key has the same effect. -/
theorem Refines.activate (h : Refines input field longest) :
    Agrees longest input.activate field.activate := by
  unfold TextInput.activate ListField.activate
  rw [h.sameKeys.keyAt_eq, h.selection]
  by_cases hnone : keyRows * selectionStride ≤ field.selection
  · rw [if_pos hnone, if_pos hnone]
    exact h.still TextResult.invalid
  rw [if_neg hnone, if_neg hnone]
  cases field.keyboard.keyAt (field.selection / selectionStride)
      (field.selection % selectionStride) with
  | none => exact h.still TextResult.unchanged
  | some key =>
    cases key with
    | character c =>
      obtain ⟨happend, hresult⟩ := h.append c
      have hshifted : (field.append c).1.shifted = field.shifted := by
        unfold ListField.append
        split_ifs <;> rfl
      dsimp only
      rw [hresult, happend.shifted, hshifted]
      -- a capital letter that was inserted ends the shift
      by_cases hcapital : (field.append c).2 = .changed ∧ field.shifted ∧ IsLetter c
      · rw [if_pos hcapital, if_pos hcapital, hcapital.1]
        exact ⟨happend.rekey happend.symbols rfl happend.selection, rfl⟩
      · rw [if_neg hcapital, if_neg hcapital]
        exact ⟨happend, rfl⟩
    | shift =>
      exact (h.rekey h.symbols (congrArg not h.shifted) h.selection).still TextResult.changed
    | symbols =>
      exact (h.rekey (congrArg not h.symbols) rfl h.selection).still TextResult.changed
    | backspace => exact h.erase
    | cursorLeft => exact h.moveCursor false
    | cursorRight => exact h.moveCursor true
    | done => exact h.still TextResult.done

/-- **An operation of the field is that of the abstract field.** -/
theorem Refines.perform (h : Refines input field longest) (op : FieldOp) :
    Agrees longest (input.perform op) (field.perform op) := by
  -- operations that answer nothing, and those that answer how the text has changed
  have hquiet {input' : TextInput} {field' : ListField} (h' : Refines input' field' longest) :
      Agrees longest (input', (none : Option TextResult)) (field', none) := h'.still none
  have hloud {p : TextInput × TextResult} {q : ListField × TextResult} (h' : Agrees longest p q) :
      Agrees longest (p.1, some p.2) (q.1, some q.2) := ⟨h'.1, congrArg some h'.2⟩
  cases op with
  | append byte => exact hloud (h.append byte)
  | erase => exact hloud h.erase
  | setCursor cursor => exact hquiet (h.setCursor cursor)
  | moveCursor step =>
    unfold TextInput.perform ListField.perform
    dsimp only
    split_ifs with hstep
    · exact hquiet h
    · exact ⟨(h.moveCursor _).1, rfl⟩
  | setCursorEnabled enabled => exact hquiet (h.setCursorEnabled enabled)
  | toggleShift => exact hquiet (h.rekey h.symbols (congrArg not h.shifted) h.selection)
  | toggleSymbols => exact hquiet (h.rekey (congrArg not h.symbols) rfl h.selection)
  | select row column =>
    unfold TextInput.perform ListField.perform
    dsimp only
    split_ifs with hnone
    · exact hquiet h
    · exact hquiet (h.select _ _)
  | move step =>
    unfold TextInput.perform ListField.perform
    dsimp only
    split_ifs with hstep
    · exact hquiet h
    · exact hquiet (h.move _)
  | activate => exact hloud h.activate

end Simulation

end TextInput

/-! ## Edits that are refused -/

namespace ListField

theorem capacity_append (field : ListField) (byte : UInt8) :
    (field.append byte).1.capacity = field.capacity := by
  unfold append
  split_ifs <;> rfl

theorem capacity_erase (field : ListField) : field.erase.1.capacity = field.capacity := by
  unfold erase
  split_ifs <;> rfl

theorem capacity_moveCursor (field : ListField) (right : Bool) :
    (field.moveCursor right).1.capacity = field.capacity := by
  unfold moveCursor
  split_ifs <;> rfl

theorem capacity_activate (field : ListField) : field.activate.1.capacity = field.capacity := by
  unfold activate
  split_ifs
  · rfl
  cases field.keyboard.keyAt (field.selection / TextInput.selectionStride)
      (field.selection % TextInput.selectionStride) with
  | none => rfl
  | some key =>
    cases key with
    | character c =>
      dsimp only
      split_ifs
      · exact field.capacity_append c
      · exact field.capacity_append c
    | backspace => exact field.capacity_erase
    | cursorLeft => exact field.capacity_moveCursor false
    | cursorRight => exact field.capacity_moveCursor true
    | shift => rfl
    | symbols => rfl
    | done => rfl

/-- The room for a text stays. -/
theorem capacity_perform (field : ListField) (op : FieldOp) :
    (field.perform op).1.capacity = field.capacity := by
  cases op with
  | append byte => exact field.capacity_append byte
  | erase => exact field.capacity_erase
  | setCursor cursor =>
    simp only [perform, setCursor]
    split_ifs <;> rfl
  | moveCursor step =>
    simp only [perform]
    split_ifs
    · rfl
    · exact field.capacity_moveCursor _
  | select row column =>
    simp only [perform]
    split_ifs <;> rfl
  | move step =>
    simp only [perform]
    split_ifs <;> rfl
  | activate => exact field.capacity_activate
  | _ => rfl

/-- An edit is refused. -/
abbrev Refused (r : TextResult) : Prop := r = .full ∨ r = .invalid ∨ r = .unchanged

/-- A refused edit leaves the text, and the cursor while it is enabled. -/
def Leaves (field : ListField) (p : ListField × TextResult) : Prop :=
  Refused p.2 → p.1.text.items = field.text.items ∧
    (field.cursorEnabled = true → p.1.text = field.text)

variable (field : ListField)

theorem leaves_of_not_refused {r : TextResult} (hr : ¬ Refused r) (field' : ListField) :
    field.Leaves (field', r) :=
  fun h => absurd h hr

theorem leaves_self (r : TextResult) : field.Leaves (field, r) := fun _ => ⟨rfl, fun _ => rfl⟩

theorem leaves_place (r : TextResult) : field.Leaves ({ field with text := field.place }, r) := by
  intro _
  refine ⟨?_, fun henabled => if_pos henabled⟩
  dsimp only [place]
  split_ifs
  · rfl
  · exact field.text.items_toEnd

theorem leaves_append (byte : UInt8) : field.Leaves (field.append byte) := by
  unfold append
  split_ifs
  · exact field.leaves_self _
  · exact field.leaves_place _
  · exact field.leaves_of_not_refused (by decide) _

theorem leaves_erase : field.Leaves field.erase := by
  unfold erase
  split_ifs
  · exact field.leaves_place _
  · exact field.leaves_of_not_refused (by decide) _

theorem leaves_moveCursor (right : Bool) : field.Leaves (field.moveCursor right) := by
  unfold moveCursor
  split_ifs
  · exact field.leaves_self _
  · exact field.leaves_self _
  · exact field.leaves_of_not_refused (by decide) _
  · exact field.leaves_self _
  · exact field.leaves_of_not_refused (by decide) _

theorem leaves_activate : field.Leaves field.activate := by
  unfold activate
  split_ifs
  · exact field.leaves_self _
  cases field.keyboard.keyAt (field.selection / TextInput.selectionStride)
      (field.selection % TextInput.selectionStride) with
  | none => exact field.leaves_self _
  | some key =>
    cases key with
    | character c =>
      dsimp only
      split_ifs
      · exact field.leaves_of_not_refused (by decide) _
      · exact field.leaves_append c
    | shift => exact field.leaves_of_not_refused (by decide) _
    | symbols => exact field.leaves_of_not_refused (by decide) _
    | backspace => exact field.leaves_erase
    | cursorLeft => exact field.leaves_moveCursor false
    | cursorRight => exact field.leaves_moveCursor true
    | done => exact field.leaves_self _

/-- **A refused edit leaves the text**, and the cursor while it is enabled. -/
theorem perform_refused {op : FieldOp} {r : TextResult} (h : (field.perform op).2 = some r)
    (hr : Refused r) :
    (field.perform op).1.text.items = field.text.items ∧
      (field.cursorEnabled = true → (field.perform op).1.text = field.text) := by
  cases op with
  | append byte => exact field.leaves_append byte (Option.some.inj h ▸ hr)
  | erase => exact field.leaves_erase (Option.some.inj h ▸ hr)
  | activate => exact field.leaves_activate (Option.some.inj h ▸ hr)
  | _ => cases h

end ListField

namespace TextInput

/-! ## Runs -/

theorem refines_init (bytes : List UInt8) :
    Refines (init bytes) (ListField.init bytes.length) 0 := by
  refine ⟨List.length_set, rfl, rfl, Nat.le_refl 0, fun hpos => ?_, fun _ => rfl,
    fun hdisabled => absurd hdisabled (by simp [ListField.init]), rfl, rfl, rfl, rfl⟩
  cases bytes with
  | nil => exact absurd rfl hpos
  | cons b bytes => exact ⟨bytes, rfl⟩

theorem run_append_singleton (bytes : List UInt8) (ops : List FieldOp) (op : FieldOp) :
    run bytes (ops ++ [op]) = ((run bytes ops).perform op).1 := by
  rw [run, List.foldl_append]
  rfl

/-- **Every run is one of the abstract field**, and the longest text of it is known. -/
theorem run_refines (bytes : List UInt8) (ops : List FieldOp) :
    ∃ longest, Refines (run bytes ops) (ListField.run bytes.length ops) longest ∧
      (ListField.run bytes.length ops).capacity = bytes.length ∧
      ∀ before, before <+: ops → (run bytes before).length ≤ longest := by
  induction ops using List.reverseRecOn with
  | nil =>
    refine ⟨0, refines_init bytes, rfl, fun before hbefore => ?_⟩
    rw [List.prefix_nil.mp hbefore]
    exact Nat.le_refl 0
  | append_singleton ops op ih =>
    obtain ⟨longest, hrefines, hcapacity, hlongest⟩ := ih
    have hstep := (hrefines.perform op).1
    have hfield : ListField.run bytes.length (ops ++ [op]) =
        ((ListField.run bytes.length ops).perform op).1 := by
      rw [ListField.run, List.foldl_append]
      rfl
    rw [← run_append_singleton] at hstep
    rw [hfield]
    refine ⟨_, hstep, (ListField.capacity_perform _ op).trans hcapacity, fun before hbefore => ?_⟩
    rcases List.prefix_concat_iff.mp hbefore with rfl | hbefore
    · exact le_max_right _ _
    · exact (hlongest before hbefore).trans (le_max_left _ _)

/-- The text of a field. -/
def content (input : TextInput) : List UInt8 := input.bytes.take input.length

theorem Refines.content_eq {input : TextInput} {field : ListField} {longest : ℕ}
    (h : Refines input field longest) : input.content = field.text.items := by
  by_cases hzero : field.capacity = 0
  · have hempty := h.length
    rw [h.blank hzero] at hempty ⊢
    rw [content, hempty]
    rfl
  · obtain ⟨rest, hbytes⟩ := h.bytes hzero
    rw [content, hbytes, h.length, List.append_assoc, List.take_left]

/-- An insertion is one at the cursor, which is then behind the byte. -/
theorem Refines.append_changed {input : TextInput} {field : ListField} {longest : ℕ}
    (h : Refines input field longest) {byte : UInt8} (hchanged : (input.append byte).2 = .changed) :
    (input.append byte).1.content = input.content.insertIdx input.cursor byte ∧
      (input.append byte).1.cursor = input.cursor + 1 := by
  obtain ⟨hafter, hsame⟩ := h.append byte
  have htext : (field.append byte).1.text = field.text.insert byte := by
    rw [hsame] at hchanged
    unfold ListField.append at hchanged ⊢
    rw [h.place_eq] at hchanged ⊢
    split_ifs at hchanged ⊢
    rfl
  rw [hafter.content_eq, hafter.cursor, htext, h.content_eq, h.cursor]
  exact ⟨field.text.items_insert byte, field.text.cursor_insert byte⟩

/-- A removal is one in front of the cursor. -/
theorem Refines.erase_changed {input : TextInput} {field : ListField} {longest : ℕ}
    (h : Refines input field longest) (hchanged : input.erase.2 = .changed) :
    input.erase.1.content = input.content.eraseIdx (input.cursor - 1) ∧
      input.erase.1.cursor = input.cursor - 1 := by
  obtain ⟨hafter, hsame⟩ := h.erase
  rw [hsame] at hchanged
  unfold ListField.erase at hchanged
  split_ifs at hchanged with hstart
  have htext : field.erase.1.text = field.text.erase := by
    unfold ListField.erase
    rw [if_neg hstart, h.place_eq]
  rw [h.place_eq] at hstart
  rw [hafter.content_eq, hafter.cursor, htext, h.content_eq, h.cursor]
  exact ⟨ListCursor.items_erase (Nat.pos_of_ne_zero hstart), field.text.cursor_erase⟩

/-- **A text field is a list with a cursor.** After any operations on a field that was initialised,
its content and its cursor are those of the list in which the same operations insert at the cursor
and remove in front of it, and the results are the same. The cursor is in the text, at its end while
it is disabled. The text is shorter than the buffer and terminated, and all bytes behind it are zero
up to the length of the longest text. An edit that is refused changes neither the text nor a cursor
that is enabled. A buffer without bytes has no terminator; there the text stays empty. -/
theorem run_refines_list (bytes : List UInt8) (ops : List FieldOp) :
    (run bytes ops).content = (ListField.run bytes.length ops).text.items ∧
      (run bytes ops).cursor = (ListField.run bytes.length ops).text.cursor ∧
      (run bytes ops).length = (run bytes ops).content.length ∧
      (run bytes ops).cursor ≤ (run bytes ops).length ∧
      ((run bytes ops).cursorEnabled = false → (run bytes ops).cursor = (run bytes ops).length) ∧
      (run bytes ops).bytes.length = bytes.length ∧
      (bytes ≠ [] → (run bytes ops).length < bytes.length ∧
        ∀ before, before <+: ops → ∀ i, (run bytes ops).length ≤ i →
          i ≤ (run bytes before).length → (run bytes ops).bytes[i]? = some 0) ∧
      (∀ op, ((run bytes ops).perform op).2 =
        ((ListField.run bytes.length ops).perform op).2) ∧
      (∀ byte, ((run bytes ops).append byte).2 = .changed →
        ((run bytes ops).append byte).1.content =
            (run bytes ops).content.insertIdx (run bytes ops).cursor byte ∧
          ((run bytes ops).append byte).1.cursor = (run bytes ops).cursor + 1) ∧
      ((run bytes ops).erase.2 = .changed →
        (run bytes ops).erase.1.content =
            (run bytes ops).content.eraseIdx ((run bytes ops).cursor - 1) ∧
          (run bytes ops).erase.1.cursor = (run bytes ops).cursor - 1) ∧
      ∀ op r, ((run bytes ops).perform op).2 = some r →
        r = .full ∨ r = .invalid ∨ r = .unchanged →
        ((run bytes ops).perform op).1.content = (run bytes ops).content ∧
          ((run bytes ops).perform op).1.length = (run bytes ops).length ∧
          ((run bytes ops).cursorEnabled = true →
            ((run bytes ops).perform op).1.cursor = (run bytes ops).cursor) := by
  obtain ⟨longest, h, hcapacity, hlongest⟩ := run_refines bytes ops
  refine ⟨h.content_eq, h.cursor, ?_, h.cursor_le, fun hdisabled => ?_,
    h.capacity.trans hcapacity, fun hne => ?_, fun op => (h.perform op).2,
    fun byte => h.append_changed, h.erase_changed, fun op r hresult hrefused => ?_⟩
  · rw [h.content_eq, h.length]
  · rw [← h.cursor_eq, hdisabled]
    rfl
  · -- the zeros behind the text reach up to the longest text, so up to that of every prefix
    obtain ⟨rest, hbytes⟩ := h.bytes (by
      rw [hcapacity]
      exact mt List.length_eq_zero_iff.mp hne)
    have hlength := congrArg List.length hbytes
    rw [h.capacity.trans hcapacity, List.length_append, List.length_append, List.length_replicate,
      ← h.length] at hlength
    refine ⟨by omega, fun before hbefore i hi hle => ?_⟩
    have hreached := hlongest before hbefore
    rw [hbytes, List.append_assoc, List.getElem?_append_right (by rw [← h.length]; omega),
      List.getElem?_append_left (by rw [List.length_replicate, ← h.length]; omega),
      List.getElem?_replicate_of_lt (by rw [← h.length]; omega)]
  · -- the abstract field refuses as well, and leaves its text
    obtain ⟨hafter, hsame⟩ := h.perform op
    obtain ⟨hitems, htext⟩ :=
      (ListField.run bytes.length ops).perform_refused (hsame ▸ hresult) hrefused
    refine ⟨?_, ?_, fun henabled => ?_⟩
    · rw [hafter.content_eq, h.content_eq, hitems]
    · rw [hafter.length, h.length, hitems]
    · rw [hafter.cursor, h.cursor, htext (h.cursorEnabled ▸ henabled)]

example : (run (List.replicate 8 0xff)
    [.append 0x61, .append 0x62, .moveCursor (-1), .append 0x63, .erase, .append 0x64]).bytes =
      [0x61, 0x64, 0x62, 0, 0xff, 0xff, 0xff, 0xff] := by decide +kernel

/-- A field without a buffer: the length is not below the capacity. -/
theorem no_terminator_without_bytes : ¬ (run [] []).length < (run [] []).bytes.length := by
  decide

end TextInput
