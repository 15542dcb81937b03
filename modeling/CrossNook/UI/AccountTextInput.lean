import CrossNook.Text.Bytes

/-!
# Text fields

The text fields of the account screen: a fixed buffer with a length and a cursor, and the
on-screen keyboard it is edited with.

## Main definitions

* `TextInput`: a field with its buffer
* `TextInput.append`, `TextInput.erase`: the edits
* `TextInput.keyAt`: the keyboard
* `TextInput.activate`: the effect of the selected key
* `TextInput.Clean`: every byte after the text is zero

## Main results

* `TextInput.Clean.activate`: whatever key is activated, every byte after the text stays zero
-/

open Bytes

/-- What an edit of a field ends in. -/
inductive TextResult
  | unchanged
  | changed
  | full
  | invalid
  | done
  deriving DecidableEq, Repr

/-- A key of the on-screen keyboard. -/
inductive TextKey
  | character (c : UInt8)
  | shift
  | symbols
  | backspace
  | cursorLeft
  | cursorRight
  | done
  deriving DecidableEq, Repr

/-- A text field: a buffer, the length of the text in it, the cursor, and the state of the
keyboard. -/
structure TextInput where
  bytes : List UInt8
  length : ℕ
  cursor : ℕ
  cursorEnabled : Bool
  symbols : Bool
  shifted : Bool
  selection : ℕ
  deriving DecidableEq

namespace TextInput

def keyRows : ℕ := 5

def keyColumns : ℕ := 10

def selectionStride : ℕ := 16

/-- `cn_account_text_init`, of a buffer whose bytes after the first are kept. -/
def init (bytes : List UInt8) : TextInput where
  bytes := bytes.set 0 0
  length := 0
  cursor := 0
  cursorEnabled := true
  symbols := false
  shifted := false
  selection := 0

def setCursorEnabled (input : TextInput) (enabled : Bool) : TextInput :=
  { input with cursorEnabled := enabled, cursor := if enabled then input.cursor else input.length }

/-- The buffer with `n` of its bytes moved, as `memmove` does. -/
def memmove (bytes : List UInt8) (dst src n : ℕ) : List UInt8 :=
  bytes.take dst ++ (bytes.drop src).take n ++ bytes.drop (dst + n)

def append (input : TextInput) (byte : UInt8) : TextInput × TextResult :=
  if input.bytes.length = 0 ∨ byte < 0x20 ∨ 0x7e < byte then (input, .invalid)
  else
    let input := { input with cursor := if input.cursorEnabled then input.cursor else input.length }
    if input.length < input.cursor then (input, .invalid)
    else if input.bytes.length ≤ input.length + 1 then (input, .full)
    else
      let moved := memmove input.bytes (input.cursor + 1) input.cursor
        (input.length - input.cursor + 1)
      ({ input with
          bytes := moved.set input.cursor byte
          cursor := input.cursor + 1
          length := input.length + 1 }, .changed)

def erase (input : TextInput) : TextInput × TextResult :=
  if input.length < input.cursor then (input, .invalid)
  else
    let input := { input with cursor := if input.cursorEnabled then input.cursor else input.length }
    if input.cursor = 0 then (input, .unchanged)
    else
      ({ input with
          bytes := memmove input.bytes (input.cursor - 1) input.cursor
            (input.length - input.cursor + 1)
          cursor := input.cursor - 1
          length := input.length - 1 }, .changed)

def setCursor (input : TextInput) (cursor : ℕ) : TextInput :=
  if input.cursorEnabled = false ∨ input.length < cursor then input else { input with cursor }

/-- The cursor a step to the left, or to the right. -/
def moveCursor (input : TextInput) (right : Bool) : TextInput × TextResult :=
  if input.cursorEnabled = false then (input, .unchanged)
  else if right then
    if input.length ≤ input.cursor then (input, .unchanged)
    else ({ input with cursor := input.cursor + 1 }, .changed)
  else if input.cursor = 0 then (input, .unchanged)
  else ({ input with cursor := input.cursor - 1 }, .changed)

def toggleShift (input : TextInput) : TextInput := { input with shifted := !input.shifted }

def toggleSymbols (input : TextInput) : TextInput :=
  { input with symbols := !input.symbols, shifted := false }

/-! ## The keyboard -/

def lowerRows : List (List UInt8) := [ascii "1234567890", ascii "qwertyuiop", ascii "asdfghjkl"]

def upperRows : List (List UInt8) := [ascii "1234567890", ascii "QWERTYUIOP", ascii "ASDFGHJKL"]

def symbolRows : List (List UInt8) := [ascii "1234567890", ascii "+-=^_@#$%&", ascii "!?:;'\"()*`"]

def letters : List UInt8 := ascii "zxcvbnm"

def punctuation : List UInt8 := ascii "[]\x7b\x7d<>\\|~"

/-- The key at a place of the keyboard. -/
def keyAt (input : TextInput) (row column : ℕ) : Option TextKey :=
  if keyRows ≤ row ∨ keyColumns ≤ column then none
  -- three rows of characters, a row with the shift key, and the bottom row
  else if row < 3 then
    let rows := if input.symbols then symbolRows
      else if input.shifted then upperRows else lowerRows
    (rows.getD row [])[column]?.map .character
  else if row = 3 then
    if input.symbols then
      if column ≤ 8 then punctuation[column]?.map .character
      else if column = 9 then some .backspace else none
    else if column = 0 then some .shift
    else if column ≤ 7 then
      letters[column - 1]?.map fun c => .character (if input.shifted then c - 0x20 else c)
    else if column = 8 then some .backspace else none
  else if column = 0 then some .symbols
  else if column = 1 then some (.character 0x2f)
  else if column = 2 ∧ input.cursorEnabled then some .cursorLeft
  else if column = 3 then some (.character 0x20)
  else if column = 4 ∧ input.cursorEnabled then some .cursorRight
  else if column = 5 then some (.character (if input.symbols then 0x2c else 0x2e))
  else if column = 6 then some .done
  else none

/-- The key at `row`, `column` selected, if there is one. -/
def select (input : TextInput) (row column : ℕ) : TextInput :=
  match input.keyAt row column with
  | none => input
  | some _ => { input with selection := row * selectionStride + column }

/-- At most `tries` steps of the selection, up to the next place with a key. -/
def moveTries (input : TextInput) (forward : Bool) : ℕ → TextInput
  | 0 => input
  | tries + 1 =>
    let total := keyRows * selectionStride
    let selection := (input.selection + if forward then 1 else total - 1) % total
    let input := { input with selection }
    match input.keyAt (selection / selectionStride) (selection % selectionStride) with
    | none => input.moveTries forward tries
    | some _ => input

def move (input : TextInput) (forward : Bool) : TextInput :=
  input.moveTries forward (keyRows * selectionStride)

/-- A letter, of either case. -/
abbrev IsLetter (c : UInt8) : Prop := 0x61 ≤ c ∧ c ≤ 0x7a ∨ 0x41 ≤ c ∧ c ≤ 0x5a

/-- The effect of the selected key. -/
def activate (input : TextInput) : TextInput × TextResult :=
  if keyRows * selectionStride ≤ input.selection then (input, .invalid)
  else
    match input.keyAt (input.selection / selectionStride) (input.selection % selectionStride) with
    | none => (input, .unchanged)
    | some (.character c) =>
      let (after, result) := input.append c
      -- the shift key holds for one letter
      if result = .changed ∧ after.shifted ∧ IsLetter c then
        ({ after with shifted := false }, result)
      else (after, result)
    | some .shift => (input.toggleShift, .changed)
    | some .symbols => (input.toggleSymbols, .changed)
    | some .backspace => input.erase
    | some .cursorLeft => input.moveCursor false
    | some .cursorRight => input.moveCursor true
    | some .done => (input, .done)

/-! ## What the buffer holds -/

/-- Every byte after the text is zero, and there is one. -/
structure Clean (input : TextInput) : Prop where
  lt : input.length < input.bytes.length
  zero : ∀ i, input.length ≤ i → ∀ b ∈ input.bytes[i]?, b = 0

section Clean

variable {input : TextInput}

theorem getElem?_memmove {bytes : List UInt8} {dst src n : ℕ} (hdst : dst + n ≤ bytes.length)
    (hsrc : src + n ≤ bytes.length) (i : ℕ) :
    (memmove bytes dst src n)[i]? =
      if dst ≤ i ∧ i < dst + n then bytes[src + (i - dst)]? else bytes[i]? := by
  have htake : (bytes.take dst).length = dst := List.length_take_of_le (by omega)
  have hmid : ((bytes.drop src).take n).length = n := by
    rw [List.length_take_of_le]
    rw [List.length_drop]
    omega
  unfold memmove
  by_cases hleft : i < dst
  · rw [if_neg (by omega), List.append_assoc, List.getElem?_append_left (by omega),
      List.getElem?_take_of_lt hleft]
  by_cases hright : i < dst + n
  · rw [if_pos (by omega), List.getElem?_append_left (by rw [List.length_append]; omega),
      List.getElem?_append_right (by omega), htake, List.getElem?_take_of_lt (by omega),
      List.getElem?_drop]
  · rw [if_neg (by omega), List.getElem?_append_right (by rw [List.length_append]; omega),
      List.length_append, htake, hmid, List.getElem?_drop]
    congr 1
    omega

theorem length_memmove {bytes : List UInt8} {dst src n : ℕ} (hdst : dst + n ≤ bytes.length)
    (hsrc : src + n ≤ bytes.length) : (memmove bytes dst src n).length = bytes.length := by
  unfold memmove
  rw [List.length_append, List.length_append, List.length_take_of_le (by omega),
    List.length_take_of_le (by rw [List.length_drop]; omega), List.length_drop]
  omega

theorem Clean.append (h : input.Clean) (byte : UInt8) : (input.append byte).1.Clean := by
  unfold TextInput.append
  split
  · exact h
  dsimp only
  generalize hcursor : (if input.cursorEnabled then input.cursor else input.length) = cursor
  split
  · exact ⟨h.lt, h.zero⟩
  split
  · exact ⟨h.lt, h.zero⟩
  rename_i hle hroom
  have hlt := h.lt
  refine ⟨?_, ?_⟩
  · dsimp only
    rw [List.length_set, length_memmove (by omega) (by omega)]
    omega
  · intro i hi b hb
    dsimp only at hi hb
    rw [List.getElem?_set_ne (by omega), getElem?_memmove (by omega) (by omega)] at hb
    split at hb
    · -- the byte after the text moved along
      exact h.zero _ (by omega) b hb
    · exact h.zero i (by omega) b hb

theorem Clean.erase (h : input.Clean) : input.erase.1.Clean := by
  unfold TextInput.erase
  split
  · exact h
  dsimp only
  generalize hcursor : (if input.cursorEnabled then input.cursor else input.length) = cursor
  split
  · exact ⟨h.lt, h.zero⟩
  rename_i hle hpos
  have hlt := h.lt
  have hcle : cursor ≤ input.length := by
    rw [← hcursor]
    split <;> omega
  refine ⟨?_, ?_⟩
  · rw [length_memmove (by omega) (by omega)]
    dsimp only
    omega
  · intro i hi b hb
    dsimp only at hi hb
    rw [getElem?_memmove (by omega) (by omega)] at hb
    split at hb
    · exact h.zero _ (by omega) b hb
    · exact h.zero i (by omega) b hb

theorem moveCursor_eq (input : TextInput) (right : Bool) :
    ∃ cursor, (input.moveCursor right).1 = { input with cursor } := by
  unfold moveCursor
  split_ifs
  exacts [⟨_, rfl⟩, ⟨_, rfl⟩, ⟨_, rfl⟩, ⟨_, rfl⟩, ⟨_, rfl⟩]

/-- **Whatever key is activated, every byte after the text stays zero.** -/
theorem Clean.activate (h : input.Clean) : input.activate.1.Clean := by
  unfold TextInput.activate
  split
  · exact h
  split
  · exact h
  · rename_i c _
    have happend := h.append c
    dsimp only
    split
    · exact ⟨happend.lt, happend.zero⟩
    · exact happend
  · exact ⟨h.lt, h.zero⟩
  · exact ⟨h.lt, h.zero⟩
  · exact h.erase
  · obtain ⟨cursor, hcursor⟩ := input.moveCursor_eq false
    rw [hcursor]
    exact ⟨h.lt, h.zero⟩
  · obtain ⟨cursor, hcursor⟩ := input.moveCursor_eq true
    rw [hcursor]
    exact ⟨h.lt, h.zero⟩
  · exact h

theorem moveTries_eq (input : TextInput) (forward : Bool) (tries : ℕ) :
    ∃ selection, input.moveTries forward tries = { input with selection } := by
  induction tries generalizing input with
  | zero => exact ⟨_, rfl⟩
  | succ tries ih =>
    rw [moveTries]
    split
    · obtain ⟨selection, hselection⟩ := ih
        { input with selection := (input.selection + if forward then 1 else
          keyRows * selectionStride - 1) % (keyRows * selectionStride) }
      exact ⟨selection, hselection⟩
    · exact ⟨_, rfl⟩

theorem Clean.move (h : input.Clean) (forward : Bool) : (input.move forward).Clean := by
  obtain ⟨selection, hselection⟩ := input.moveTries_eq forward (keyRows * selectionStride)
  rw [TextInput.move, hselection]
  exact ⟨h.lt, h.zero⟩

theorem Clean.select (h : input.Clean) (row column : ℕ) : (input.select row column).Clean := by
  unfold TextInput.select
  split
  · exact h
  · exact ⟨h.lt, h.zero⟩

end Clean

end TextInput
