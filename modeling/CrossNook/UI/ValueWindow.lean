import CrossNook.UI.Invariant
import Mathlib.Algebra.BigOperators.Intervals

/-!
# The window of a value

The part of a value of the account form that is drawn (`account_value_window` in `ui/ui.c`): three
loops grow a window around the cursor while its bytes fit in the band and into the table of stops,
the stops are recorded, and the window is copied into a buffer to be drawn. Later a touch is looked up
in the stops, when the text may have changed. Reading behind the text or the table, and writing
behind the table or the buffer, are an outcome of their own.

## Main definitions

* `CnUi.accountValueWindow`: `account_value_window`, with the table of stops
* `CnUi.copyWindow`: the copy in `render_account`
* `CnUi.placeCursor`: `account_place_cursor`, over the table of stops

## Main results

* `CnUi.accountValueWindow_spec`: the window, its stops and the caret
* `CnUi.value_window`: the window, the copy of it, and a touch after it
-/

namespace CnUi

variable {R P : Type}

/-- `ACCOUNT_VALUE_STOPS`. -/
def accountValueStops : ℕ := 128

/-- What `account_value_window` leaves: the window, the place of the caret, the number of stops and
the table of them. -/
structure ValueWindow where
  start : ℕ
  stop : ℕ
  caretX : ℤ
  count : ℕ
  stopX : List ℤ

/-- The width of a byte of the value, which is at least 1. `none` is a read behind the buffer. -/
def byteWidth (measure : UInt8 → ℤ) (bytes : List UInt8) (i : ℕ) : Option ℤ :=
  (bytes[i]?).map fun b => if measure b < 1 then 1 else measure b

section Loops

variable (width : ℕ → Option ℤ)

/-- A loop that moves the start of the window to the left: as long as there are fewer than 127 bytes
up to `last`, and the next one fits. -/
def extendLeft (last : ℕ) (bound : ℤ) : ℕ → ℤ → Option (ℕ × ℤ)
  | 0, used => some (0, used)
  | start + 1, used =>
    if last - (start + 1) < accountValueStops - 1 then
      match width start with
      | none => none
      | some w =>
        if bound < used + w then some (start + 1, used) else extendLeft last bound start (used + w)
    else some (start + 1, used)

/-- The loop that moves the end of the window to the right, with `m` bytes to go. -/
def extendRight (start : ℕ) (bound : ℤ) : ℕ → ℕ → ℤ → Option (ℕ × ℤ)
  | 0, last, used => some (last, used)
  | m + 1, last, used =>
    if last - start < accountValueStops - 1 then
      match width last with
      | none => none
      | some w =>
        if bound < used + w then some (last, used) else extendRight start bound m (last + 1) (used + w)
    else some (last, used)

/-- A stop recorded. `none` is a write behind the table. -/
def recordStop (stopX : List ℤ) (count : ℕ) (x : ℤ) : Option (List ℤ) :=
  if count < stopX.length then some (stopX.set count x) else none

/-- The loop that records the stops, with `m` bytes of the window to go. -/
def recordStops : ℕ → ℕ → ℤ → ℕ → List ℤ → Option (ℕ × List ℤ)
  | 0, _, _, count, stopX => some (count, stopX)
  | m + 1, i, x, count, stopX =>
    if count < accountValueStops then
      match width i with
      | none => none
      | some w =>
        match recordStop stopX count (x + w) with
        | none => none
        | some stopX => recordStops m (i + 1) (x + w) (count + 1) stopX
    else some (count, stopX)

end Loops

/-- `account_value_window`, over the table of stops of the field. -/
def accountValueWindow (measure : UInt8 → ℤ) (field : TextInput) (x0 x1 : ℤ) (stopX : List ℤ) :
    Option ValueWindow := do
  let width := byteWidth measure field.bytes
  let available := x1 - x0 - 3
  let prefixTarget := (available * 2).tdiv 3
  let (start, used) ← extendLeft width field.cursor prefixTarget field.cursor 0
  let (last, used) ← extendRight width start available (field.length - field.cursor) field.cursor
    used
  let (start, _) ← extendLeft width last available start used
  let stopX ← recordStop stopX 0 x0
  let (count, stopX) ← recordStops width (last - start) start x0 1 stopX
  let caretX ← stopX[field.cursor - start]?
  return ⟨start, last, caretX, count, stopX⟩

/-- The window of a value in its buffer, with a terminator. `none` is a read behind the value or a
write behind the buffer. -/
def copyWindow (value : List UInt8) (start n : ℕ) : Option (List UInt8) :=
  if start + n ≤ value.length ∧ n + 1 ≤ accountValueStops then
    some ((value.drop start).take n ++ [0])
  else none

/-- The loop of `account_place_cursor` from `i` on, with `m` stops to go. -/
def nearestFrom (x : ℤ) (stopX : List ℤ) : ℕ → ℕ → ℕ → ℤ → Option ℕ
  | 0, _, best, _ => some best
  | m + 1, i, best, bestDistance =>
    match stopX[i]? with
    | none => none
    | some stop =>
      let distance := |x - stop|
      if distance < bestDistance then nearestFrom x stopX m (i + 1) i distance
      else nearestFrom x stopX m (i + 1) best bestDistance

/-- `account_place_cursor` on a field, over what is recorded for it. `none` is a read behind the
table. -/
def placeCursor (field : TextInput) (start count : ℕ) (stopX : List ℤ) (x : ℤ) :
    Option TextInput :=
  if count = 0 then some field
  else
    match stopX[0]? with
    | none => none
    | some first =>
      (nearestFrom x stopX (count - 1) 1 0 |x - first|).map fun best =>
        field.setCursor (start + best)

/-! ## The loops -/

section Loops

variable {width : ℕ → Option ℤ} {w : ℕ → ℤ} {bound used : ℤ}

/-- The width of the bytes from `a` to `b`. -/
def span (w : ℕ → ℤ) (a b : ℕ) : ℤ := ∑ i ∈ Finset.Ico a b, w i

theorem span_self (w : ℕ → ℤ) (a : ℕ) : span w a a = 0 := by
  rw [span, Finset.Ico_self, Finset.sum_empty]

theorem span_succ_left {a b : ℕ} (h : a < b) : span w a b = w a + span w (a + 1) b :=
  Finset.sum_eq_sum_Ico_succ_bot h w

theorem span_succ_right {a b : ℕ} (h : a ≤ b) : span w a (b + 1) = span w a b + w b :=
  Finset.sum_Ico_succ_top h w

theorem span_lt (hw : ∀ i, 0 < w i) {a b c : ℕ} (hab : a ≤ b) (hbc : b < c) :
    span w a b < span w a c := by
  rw [span, span, ← Finset.sum_Ico_consecutive w hab hbc.le, lt_add_iff_pos_right]
  exact Finset.sum_pos (fun i _ => hw i) (Finset.nonempty_Ico.mpr hbc)

/-- **What a loop to the left does**: it moves the start while the bytes up to `last` fit and are at
most 127. -/
theorem extendLeft_spec {start last : ℕ} (hle : start ≤ last) (hused : used = span w start last)
    (hbound : used ≤ bound) (hcount : last - start ≤ 127)
    (hwidth : ∀ i, i < start → width i = some (w i)) :
    ∃ start', extendLeft width last bound start used = some (start', span w start' last) ∧
      start' ≤ start ∧ span w start' last ≤ bound ∧ last - start' ≤ 127 := by
  induction start generalizing used with
  | zero => exact ⟨0, by rw [extendLeft, hused], Nat.le_refl 0, hused ▸ hbound, hcount⟩
  | succ start ih =>
    have hstops : accountValueStops - 1 = 127 := rfl
    have hstay : ∃ start', some (start + 1, used) = some (start', span w start' last) ∧
        start' ≤ start + 1 ∧ span w start' last ≤ bound ∧ last - start' ≤ 127 :=
      ⟨start + 1, by rw [hused], Nat.le_refl _, hused ▸ hbound, hcount⟩
    rw [extendLeft, hwidth start (Nat.lt_succ_self start), hstops]
    dsimp only
    split_ifs with hroom hfit
    · exact hstay
    · obtain ⟨start', heq, hle', hbound', hcount'⟩ := @ih (used + w start) (by omega)
        (by rw [hused, span_succ_left hle]; ring) (by omega) (by omega)
        (fun i hi => hwidth i (by omega))
      exact ⟨start', heq, by omega, hbound', hcount'⟩
    · exact hstay

/-- **What the loop to the right does**, in the same way. -/
theorem extendRight_spec {start last m : ℕ} (hle : start ≤ last)
    (hused : used = span w start last) (hbound : used ≤ bound) (hcount : last - start ≤ 127)
    (hwidth : ∀ i, i < last + m → width i = some (w i)) :
    ∃ last', extendRight width start bound m last used = some (last', span w start last') ∧
      last ≤ last' ∧ last' ≤ last + m ∧ span w start last' ≤ bound ∧ last' - start ≤ 127 := by
  induction m generalizing last used with
  | zero =>
    exact ⟨last, by rw [extendRight, hused], Nat.le_refl _, Nat.le_refl _, hused ▸ hbound, hcount⟩
  | succ m ih =>
    have hstops : accountValueStops - 1 = 127 := rfl
    have hstay : ∃ last', some (last, used) = some (last', span w start last') ∧ last ≤ last' ∧
        last' ≤ last + (m + 1) ∧ span w start last' ≤ bound ∧ last' - start ≤ 127 :=
      ⟨last, by rw [hused], Nat.le_refl _, Nat.le_add_right _ _, hused ▸ hbound, hcount⟩
    rw [extendRight, hwidth last (by omega), hstops]
    dsimp only
    split_ifs with hroom hfit
    · exact hstay
    · obtain ⟨last', heq, hge, hle', hbound', hcount'⟩ := @ih (used + w last)
        (last + 1) (by omega) (by rw [hused, span_succ_right hle]) (by omega)
        (by omega) (fun i hi => hwidth i (by omega))
      exact ⟨last', heq, by omega, by omega, hbound', hcount'⟩
    · exact hstay

/-- The loop to the left is that of the screens. -/
theorem extendLeft_eq_growLeft (last : ℕ) (bound : ℤ) {start : ℕ}
    (hwidth : ∀ i, i < start → width i = some (w i)) (used : ℤ) :
    extendLeft width last bound start used =
      some (growLeft w (fun start => decide (last - start < 127)) bound start used) := by
  induction start generalizing used with
  | zero => rfl
  | succ start ih =>
    have hstops : accountValueStops - 1 = 127 := rfl
    rw [extendLeft, growLeft, hwidth start (Nat.lt_succ_self start), hstops]
    dsimp only
    by_cases hroom : last - (start + 1) < 127
    · by_cases hfit : bound < used + w start
      · rw [if_pos hroom, if_pos hfit, if_pos (.inr hfit)]
      · rw [if_pos hroom, if_neg hfit, if_neg (by simp [hroom, hfit]),
          ih fun i hi => hwidth i (by omega)]
    · rw [if_neg hroom, if_pos (.inl (decide_eq_false hroom))]

theorem extendRight_eq_growRight (start : ℕ) (bound : ℤ) {m last : ℕ}
    (hwidth : ∀ i, i < last + m → width i = some (w i)) (used : ℤ) :
    extendRight width start bound m last used = some (growRight w start bound m last used) := by
  induction m generalizing last used with
  | zero => rfl
  | succ m ih =>
    have hstops : accountValueStops - 1 = 127 := rfl
    rw [extendRight, growRight, hwidth last (by omega), hstops]
    dsimp only
    by_cases hroom : last - start < 127
    · by_cases hfit : bound < used + w last
      · rw [if_pos hroom, if_pos hfit, if_pos (.inr hfit)]
      · rw [if_pos hroom, if_neg hfit, if_neg (not_or.mpr ⟨not_le.mpr hroom, hfit⟩),
          ih fun i hi => hwidth i (by omega)]
    · rw [if_neg hroom, if_pos (.inl (not_lt.mp hroom))]

/-- The first stops of a window that starts at `start` are recorded, and the rest of the table is as
it was. -/
structure Recorded (w : ℕ → ℤ) (start : ℕ) (x0 : ℤ) (old : List ℤ) (count : ℕ)
    (stopX : List ℤ) : Prop where
  length : stopX.length = accountValueStops
  stops : ∀ k, k < count → stopX[k]? = some (x0 + span w start (start + k))
  kept : ∀ k, count ≤ k → stopX[k]? = old[k]?

/-- **What the loop that records the stops does**: one for every byte of the window. -/
theorem recordStops_spec {start i m : ℕ} {x0 : ℤ} {old stopX : List ℤ} (hi : start ≤ i)
    (hroom : i + m - start ≤ 127) (hwidth : ∀ k, k < i + m → width k = some (w k))
    (h : Recorded w start x0 old (i - start + 1) stopX) :
    ∃ stopX', recordStops width m i (x0 + span w start i) (i - start + 1) stopX =
        some (i + m - start + 1, stopX') ∧
      Recorded w start x0 old (i + m - start + 1) stopX' := by
  induction m generalizing i stopX with
  | zero => exact ⟨stopX, rfl, h⟩
  | succ m ih =>
    have hstops : accountValueStops = 128 := rfl
    have hlength := h.length
    -- the number of stops is bounded by the guard of the loop, so this one is in the array
    have hrecord : recordStop stopX (i - start + 1) (x0 + span w start i + w i) =
        some (stopX.set (i - start + 1) (x0 + span w start i + w i)) := if_pos (by omega)
    have hx : x0 + span w start i + w i = x0 + span w start (i + 1) := by
      rw [span_succ_right hi]
      ring
    have hnext : i - start + 1 + 1 = i + 1 - start + 1 := by omega
    -- it is the stop of the place, and those before it are kept
    have hstep : Recorded w start x0 old (i + 1 - start + 1)
        (stopX.set (i - start + 1) (x0 + span w start (i + 1))) := by
      refine ⟨by rw [List.length_set, hlength], fun k hk => ?_, fun k hk => ?_⟩
      · by_cases hlast : k = i - start + 1
        · have hplace : start + (i - start + 1) = i + 1 := by omega
          rw [hlast, List.getElem?_set_self (by omega), hplace]
        · rw [List.getElem?_set_ne (Ne.symm hlast)]
          exact h.stops k (by omega)
      · rw [List.getElem?_set_ne (by omega)]
        exact h.kept k (by omega)
    obtain ⟨stopX', heq, hrecorded⟩ := ih (i := i + 1) (by omega) (by omega)
      (fun k hk => hwidth k (by omega)) hstep
    have hend : i + (m + 1) - start + 1 = i + 1 + m - start + 1 := by omega
    refine ⟨stopX', ?_, by rw [hend]; exact hrecorded⟩
    rw [recordStops, if_pos (by omega), hwidth i (by omega)]
    dsimp only
    rw [hrecord]
    dsimp only
    rw [hx, hnext, heq, hend]

end Loops

/-! ## The window -/

section Window

variable (measure : UInt8 → ℤ) {field : TextInput} {x0 x1 : ℤ} {stopX : List ℤ}

/-- The width that a byte of a value counts for. -/
def valueWidth (bytes : List UInt8) (i : ℕ) : ℤ :=
  if measure (bytes.getD i 0) < 1 then 1 else measure (bytes.getD i 0)

theorem valueWidth_pos (bytes : List UInt8) (i : ℕ) : 0 < valueWidth measure bytes i := by
  unfold valueWidth
  split_ifs <;> omega

theorem valueWidth_eq_max (bytes : List UInt8) (i : ℕ) :
    valueWidth measure bytes i = max 1 (measure (bytes.getD i 0)) := by
  unfold valueWidth
  split_ifs <;> omega

theorem byteWidth_eq {bytes : List UInt8} {i : ℕ} (h : i < bytes.length) :
    byteWidth measure bytes i = some (valueWidth measure bytes i) := by
  rw [byteWidth, valueWidth, List.getD_eq_getElem?_getD, List.getElem?_eq_getElem h]
  rfl

/-- A window around the cursor of a field, with its stops and the caret. -/
structure Framed (field : TextInput) (x0 x1 : ℤ) (old : List ℤ) (win : ValueWindow) : Prop where
  start_le : win.start ≤ field.cursor
  le_stop : field.cursor ≤ win.stop
  stop_le : win.stop ≤ field.length
  bytes_le : win.stop - win.start ≤ 127
  count_eq : win.count = win.stop - win.start + 1
  recorded : Recorded (valueWidth measure field.bytes) win.start x0 old win.count win.stopX
  fits : span (valueWidth measure field.bytes) win.start win.stop ≤ x1 - x0 - 3
  caret_eq : win.caretX = x0 + span (valueWidth measure field.bytes) win.start field.cursor

/-- **The window of a value**: the loops stay inside the text and the table, and end where those of
the screens do. -/
theorem accountValueWindow_spec (hcursor : field.cursor ≤ field.length)
    (hlength : field.length ≤ field.bytes.length) (hband : 3 ≤ x1 - x0)
    (htable : stopX.length = accountValueStops) :
    ∃ win, accountValueWindow measure field x0 x1 stopX = some win ∧
      Framed measure field x0 x1 stopX win ∧
      valueWindow (valueWidth measure field.bytes) field x0 x1 =
        (win.start, (List.range' win.start (win.stop - win.start)).scanl
          (fun x i => x + valueWidth measure field.bytes i) x0) := by
  have hwidth (i : ℕ) (hi : i < field.length) :
      byteWidth measure field.bytes i = some (valueWidth measure field.bytes i) :=
    byteWidth_eq measure (by omega)
  have hstops : accountValueStops = 128 := rfl
  have htarget : ((x1 - x0 - 3) * 2).tdiv 3 ≤ x1 - x0 - 3 ∧ 0 ≤ ((x1 - x0 - 3) * 2).tdiv 3 := by
    rw [Int.tdiv_eq_ediv_of_nonneg (by omega)]
    omega
  generalize hw : valueWidth measure field.bytes = w at hwidth
  -- to the left, for two thirds of the band
  obtain ⟨start, hleft, hstart, hfits, hcount⟩ :=
    extendLeft_spec (Nat.le_refl field.cursor) (span_self w _).symm htarget.2 (by omega)
      fun i hi => hwidth i (by omega)
  -- to the right, for what is left of it
  obtain ⟨stop, hright, hge, hstop, hfits, hcount⟩ :=
    extendRight_spec (m := field.length - field.cursor) hstart rfl (hfits.trans htarget.1) hcount
      fun i hi => hwidth i (by omega)
  -- and to the left again
  obtain ⟨start', hleft', hstart', hfits, hcount⟩ :=
    extendLeft_spec (hstart.trans hge) rfl hfits hcount fun i hi => hwidth i (by omega)
  have hfirst : recordStop stopX 0 x0 = some (stopX.set 0 x0) := if_pos (by omega)
  have hstep : Recorded w start' x0 stopX (start' - start' + 1) (stopX.set 0 x0) := by
    refine ⟨by rw [List.length_set, htable], fun k hk => ?_, fun k hk => ?_⟩
    · obtain rfl : k = 0 := by omega
      rw [List.getElem?_set_self (by omega), Nat.add_zero, span_self, add_zero]
    · exact List.getElem?_set_ne (by omega)
  obtain ⟨stopX', hrecord, hrecorded⟩ :=
    recordStops_spec (m := stop - start') (Nat.le_refl start') (by omega)
      (fun i hi => hwidth i (by omega)) hstep
  have hend : start' + (stop - start') = stop := by omega
  rw [span_self, add_zero, Nat.sub_self, hend] at hrecord
  rw [hend] at hrecorded
  have hcaret : stopX'[field.cursor - start']? = some (x0 + span w start' field.cursor) := by
    have hplace : start' + (field.cursor - start') = field.cursor := by omega
    rw [hrecorded.stops _ (by omega), hplace]
  refine ⟨⟨start', stop, x0 + span w start' field.cursor, stop - start' + 1, stopX'⟩, ?_,
    ⟨hstart'.trans hstart, hge, by dsimp only; omega, hcount, rfl, ?_, ?_, ?_⟩, ?_⟩
  · unfold accountValueWindow
    simp only [hleft, hright, hleft', hfirst, hrecord, hcaret, Option.bind_eq_bind,
      Option.bind_some, Option.pure_def]
  · rw [hw]
    exact hrecorded
  · rw [hw]
    exact hfits
  · rw [hw]
  · rw [extendLeft_eq_growLeft _ _ fun i hi => hwidth i (by omega), Option.some_inj] at hleft hleft'
    rw [extendRight_eq_growRight _ _ fun i hi => hwidth i (by omega), Option.some_inj] at hright
    unfold valueWindow
    simp only [hleft, hright, hleft']

/-- The stops of the screens are those of the table. -/
theorem getElem?_scanl_span (w : ℕ → ℤ) (start m : ℕ) (x0 : ℤ) {k : ℕ} (hk : k ≤ m) :
    ((List.range' start m).scanl (fun x i => x + w i) x0)[k]? =
      some (x0 + span w start (start + k)) := by
  have hzero (start : ℕ) (x0 : ℤ) : x0 + span w start (start + 0) = x0 := by
    rw [Nat.add_zero, span_self, add_zero]
  induction m generalizing start x0 k with
  | zero =>
    obtain rfl := Nat.le_zero.mp hk
    rw [hzero]
    rfl
  | succ m ih =>
    rw [List.range'_succ, List.scanl_cons]
    cases k with
    | zero =>
      rw [hzero]
      rfl
    | succ k =>
      have hend : start + (k + 1) = start + 1 + k := by omega
      have hsum : x0 + w start + span w (start + 1) (start + 1 + k) =
          x0 + span w start (start + 1 + k) := by
        rw [span_succ_left (by omega : start < start + 1 + k)]
        ring
      rw [List.getElem?_cons_succ, ih (start + 1) (x0 + w start) (by omega), hend, hsum]

/-- **The window of the screens** is the one of the code, with the stops that it records. -/
theorem valueWindow_eq (hcursor : field.cursor ≤ field.length)
    (hlength : field.length ≤ field.bytes.length) (hband : 3 ≤ x1 - x0)
    (htable : stopX.length = accountValueStops) :
    ∃ win, accountValueWindow measure field x0 x1 stopX = some win ∧
      Framed measure field x0 x1 stopX win ∧
      valueWindow (valueWidth measure field.bytes) field x0 x1 =
        (win.start, win.stopX.take win.count) := by
  obtain ⟨win, hwin, h, hvalue⟩ :=
    accountValueWindow_spec measure hcursor hlength hband htable
  have hcount := h.count_eq
  refine ⟨win, hwin, h, ?_⟩
  rw [hvalue]
  congr 1
  apply List.ext_getElem?
  intro k
  by_cases hk : k < win.count
  · rw [getElem?_scanl_span _ _ _ _ (by omega), List.getElem?_take_of_lt hk, h.recorded.stops k hk]
  · have hlength := h.recorded.length
    rw [List.getElem?_eq_none (by rw [List.length_scanl, List.length_range']; omega),
      List.getElem?_eq_none (by rw [List.length_take]; omega)]

/-- **What a rendering of the form keeps** of a field. -/
theorem render_valueWindow {ui : CnUi R} (hform : ui.state = .accountSetup ∧ ui.accountEditing)
    (i : Fin 3)
    (hcursor : (ui.accountFields i.castSucc).cursor ≤ (ui.accountFields i.castSucc).length)
    (hlength : (ui.accountFields i.castSucc).length ≤ (ui.accountFields i.castSucc).bytes.length)
    (htable : stopX.length = accountValueStops) :
    ∃ win, accountValueWindow measure (ui.accountFields i.castSucc) 44 567 stopX = some win ∧
      Framed measure (ui.accountFields i.castSucc) 44 567 stopX win ∧
      (ui.render measure).accountValueStart i = win.start ∧
      (ui.render measure).accountValueStopX i = win.stopX.take win.count := by
  have hwidth : (fun n => max 1 (measure ((ui.accountFields i.castSucc).bytes.getD n 0))) =
      valueWidth measure (ui.accountFields i.castSucc).bytes :=
    funext fun n => (valueWidth_eq_max measure _ n).symm
  obtain ⟨win, hwin, hframed, hvalue⟩ :=
    valueWindow_eq measure hcursor hlength (by decide : (3 : ℤ) ≤ 567 - (32 + 12)) htable
  refine ⟨win, hwin, hframed, ?_⟩
  unfold render
  rw [if_pos hform]
  dsimp only
  rw [hwidth, hvalue]
  exact ⟨rfl, rfl⟩

end Window

/-! ## The copy, and touches -/

section Touch

variable {x : ℤ} {stopX : List ℤ}

/-- The distances up to `n` are least at `best`, for the first time. -/
structure Nearest (dist : ℕ → ℤ) (n best : ℕ) : Prop where
  lt : best < n
  least : ∀ k, k < n → dist best ≤ dist k
  first : ∀ k, k < best → dist best < dist k

/-- **A touch is looked up** inside the stops that are recorded. -/
theorem nearestFrom_spec {m i best : ℕ} (h : Nearest (fun k => |x - stopX.getD k 0|) i best)
    (hlength : i + m ≤ stopX.length) :
    ∃ best', nearestFrom x stopX m i best |x - stopX.getD best 0| = some best' ∧
      Nearest (fun k => |x - stopX.getD k 0|) (i + m) best' := by
  induction m generalizing i best with
  | zero => exact ⟨best, rfl, h⟩
  | succ m ih =>
    have hlt := h.lt
    have hend : i + (m + 1) = i + 1 + m := by omega
    have hstop : stopX[i]? = some (stopX.getD i 0) := by
      rw [List.getD_eq_getElem?_getD, List.getElem?_eq_getElem (by omega), Option.getD_some]
    rw [nearestFrom, hstop, hend]
    dsimp only
    split_ifs with hnearer
    · refine ih ⟨Nat.lt_succ_self i, fun k hk => ?_, fun k hk => ?_⟩ (by omega)
      · rcases Nat.lt_succ_iff_lt_or_eq.mp hk with hbefore | rfl
        · exact (hnearer.trans_le (h.least k hbefore)).le
        · exact le_refl _
      · exact hnearer.trans_le (h.least k hk)
    · refine ih ⟨by omega, fun k hk => ?_, h.first⟩ (by omega)
      rcases Nat.lt_succ_iff_lt_or_eq.mp hk with hbefore | rfl
      · exact h.least k hbefore
      · exact not_lt.mp hnearer

/-- The stop that the screens look up. -/
theorem nearestStop_eq {stops : List ℤ} {best : ℕ}
    (h : Nearest (fun k => |x - stops.getD k 0|) stops.length best) :
    nearestStop x stops = best := by
  have hget (k : ℕ) (hk : k < stops.length) : stops.getD k 0 = stops[k] := by
    rw [List.getD_eq_getElem?_getD, List.getElem?_eq_getElem hk, Option.getD_some]
  have hbest := h.lt
  rw [nearestStop, List.findIdx_eq hbest]
  constructor
  · rw [List.all_eq_true]
    intro other hother
    obtain ⟨k, hk, rfl⟩ := List.mem_iff_getElem.mp hother
    have hle := h.least k hk
    rw [hget best hbest, hget k hk, Int.abs_eq_natAbs, Int.abs_eq_natAbs] at hle
    exact decide_eq_true (by omega)
  · intro k hk
    have hlt := h.first k hk
    rw [hget best hbest, hget k (hk.trans hbest), Int.abs_eq_natAbs, Int.abs_eq_natAbs] at hlt
    rw [List.all_eq_false]
    refine ⟨stops[best], List.getElem_mem hbest, ?_⟩
    simp only [decide_eq_true_eq]
    omega

/-- **A touch** is the one of the screens, over the stops that are recorded. -/
theorem placeCursor_eq (field : TextInput) (start : ℕ) {count : ℕ} (hcount : count ≤ stopX.length)
    (x : ℤ) :
    placeCursor field start count stopX x =
      some (if stopX.take count = [] then field
        else field.setCursor (start + nearestStop x (stopX.take count))) := by
  have hlength : (stopX.take count).length = count := List.length_take_of_le hcount
  unfold placeCursor
  by_cases hzero : count = 0
  · rw [if_pos hzero, if_pos (List.eq_nil_of_length_eq_zero (hlength.trans hzero))]
  · have hsome : stopX.take count ≠ [] := by
      intro hnil
      rw [hnil] at hlength
      exact hzero hlength.symm
    have hfirst : stopX[0]? = some (stopX.getD 0 0) := by
      rw [List.getD_eq_getElem?_getD, List.getElem?_eq_getElem (by omega), Option.getD_some]
    -- the search starts with the first stop as the best of one
    have hstart : Nearest (fun k => |x - stopX.getD k 0|) 1 0 := by
      refine ⟨Nat.zero_lt_one, fun k hk => ?_, fun k hk => absurd hk (Nat.not_lt_zero k)⟩
      obtain rfl : k = 0 := by omega
      exact le_refl _
    obtain ⟨best, hbest, hnear⟩ := nearestFrom_spec hstart (by omega : 1 + (count - 1) ≤ _)
    -- within the count, the array and its stops that are recorded agree
    have hget (k : ℕ) (hk : k < count) : (stopX.take count).getD k 0 = stopX.getD k 0 := by
      rw [List.getD_eq_getElem?_getD, List.getElem?_take_of_lt hk, List.getD_eq_getElem?_getD]
    have hstops : nearestStop x (stopX.take count) = best := by
      have hall : 1 + (count - 1) = count := by omega
      rw [hall] at hnear
      have hlt := hnear.lt
      refine nearestStop_eq ⟨by rw [hlength]; exact hlt, fun k hk => ?_, fun k hk => ?_⟩
      · rw [hget best hlt, hget k (by omega)]
        exact hnear.least k (by omega)
      · rw [hget best hlt, hget k (by omega)]
        exact hnear.first k hk
    rw [if_neg hzero, hfirst, if_neg hsome, hstops]
    dsimp only
    rw [hbest]
    rfl

/-- The same, of a field of the screens. -/
theorem placeCursor_accountPlaceCursor (ui : CnUi R) (i : Fin 3) {start count : ℕ}
    (hcount : count ≤ stopX.length) (hstart : ui.accountValueStart i = start)
    (hstops : ui.accountValueStopX i = stopX.take count) (x : ℤ) :
    placeCursor (ui.accountFields i.castSucc) start count stopX x =
      some ((ui.accountPlaceCursor i x).accountFields i.castSucc) := by
  rw [placeCursor_eq _ _ hcount, accountPlaceCursor, hstart, hstops]
  split_ifs
  · rfl
  · dsimp only
    rw [Function.update_self]

/-- A touch leaves the text, and the cursor is in the text if it moves, whatever was recorded. -/
theorem placeCursor_spec (field : TextInput) (start : ℕ) {count : ℕ}
    (hcount : count ≤ stopX.length) (x : ℤ) :
    ∃ placed, placeCursor field start count stopX x = some placed ∧ placed.bytes = field.bytes ∧
      placed.length = field.length ∧
      (placed.cursor = field.cursor ∨ placed.cursor ≤ field.length) := by
  have hset (cursor : ℕ) : (field.setCursor cursor).bytes = field.bytes ∧
      (field.setCursor cursor).length = field.length ∧
      ((field.setCursor cursor).cursor = field.cursor ∨
        (field.setCursor cursor).cursor ≤ field.length) := by
    unfold TextInput.setCursor
    split_ifs with hignored
    · exact ⟨rfl, rfl, .inl rfl⟩
    · exact ⟨rfl, rfl, .inr (not_lt.mp (not_or.mp hignored).2)⟩
  refine ⟨_, placeCursor_eq field start hcount x, ?_⟩
  split_ifs
  · exact ⟨rfl, rfl, .inl rfl⟩
  · exact hset _

end Touch

/-- **The window of a value of the form.** For every text and cursor of a field, every band of at
least three pixels and every face, the window is around the cursor and inside the text, no longer than
127 bytes; its stops, one more than its bytes, are recorded from left to right and nothing else of the
table is touched; the caret is in the band. The window fits into its buffer with the terminator, and a
touch that is looked up later, in any text, leaves the cursor or puts it inside that text. -/
theorem value_window (measure : UInt8 → ℤ) {field : TextInput} {x0 x1 : ℤ} {stopX : List ℤ}
    (hcursor : field.cursor ≤ field.length) (hlength : field.length < field.bytes.length)
    (hband : 3 ≤ x1 - x0) (htable : stopX.length = 128) :
    ∃ win, accountValueWindow measure field x0 x1 stopX = some win ∧
      win.start ≤ field.cursor ∧ field.cursor ≤ win.stop ∧ win.stop ≤ field.length ∧
      win.stop - win.start ≤ 127 ∧
      win.count = win.stop - win.start + 1 ∧ win.stopX.length = 128 ∧
      (∀ k, win.count ≤ k → win.stopX[k]? = stopX[k]?) ∧
      (∀ j k, j < k → k < win.count → ∃ a ∈ win.stopX[j]?, ∃ b ∈ win.stopX[k]?, a < b) ∧
      x0 ≤ win.caretX ∧ win.caretX ≤ x1 ∧
      (∃ window, copyWindow field.bytes win.start (win.stop - win.start) = some window ∧
        window.length = win.stop - win.start + 1 ∧ window.length ≤ 128) ∧
      ∀ (later : TextInput) (x : ℤ), ∃ placed,
        placeCursor later win.start win.count win.stopX x = some placed ∧
          placed.bytes = later.bytes ∧ placed.length = later.length ∧
          (placed.cursor = later.cursor ∨ placed.cursor ≤ later.length) := by
  obtain ⟨win, hwin, h, -⟩ := accountValueWindow_spec measure hcursor hlength.le hband htable
  have hstart := h.start_le
  have hstop := h.le_stop
  have hend := h.stop_le
  have hbytes := h.bytes_le
  have hcount := h.count_eq
  have hstops : accountValueStops = 128 := rfl
  have hpos := valueWidth_pos measure field.bytes
  -- every byte counts for a positive width, so the stops increase
  have hspan {a b c : ℕ} (hab : a ≤ b) (hbc : b ≤ c) :
      span (valueWidth measure field.bytes) a b ≤ span (valueWidth measure field.bytes) a c := by
    rcases Nat.eq_or_lt_of_le hbc with rfl | hlt
    · exact le_refl _
    · exact (span_lt hpos hab hlt).le
  refine ⟨win, hwin, hstart, hstop, hend, hbytes, hcount, h.recorded.length, h.recorded.kept, ?_,
    ?_, ?_, ?_, fun later x => ?_⟩
  · intro j k hjk hk
    refine ⟨_, h.recorded.stops j (by omega), _, h.recorded.stops k hk, ?_⟩
    have hlt := span_lt hpos (Nat.le_add_right win.start j)
      (show win.start + j < win.start + k by omega)
    omega
  · have hleft := hspan (Nat.le_refl win.start) hstart
    rw [span_self] at hleft
    rw [h.caret_eq]
    omega
  · have hright := hspan hstart hstop
    have hfits := h.fits
    rw [h.caret_eq]
    omega
  · have hcopied : ((field.bytes.drop win.start).take (win.stop - win.start) ++ [(0 : UInt8)]).length =
        win.stop - win.start + 1 := by
      rw [List.length_append, List.length_take_of_le (by rw [List.length_drop]; omega),
        List.length_singleton]
    exact ⟨_, if_pos ⟨by omega, by omega⟩, hcopied, by omega⟩
  · exact placeCursor_spec later win.start (by rw [h.recorded.length]; omega) x

/-- The window of "ab" with the cursor between the letters, in the band of the form. -/
theorem value_window_ab :
    ∃ win, accountValueWindow (fun _ => 10) ⟨[0x61, 0x62, 0], 2, 1, true, false, false, 0⟩ 44 567
        (List.replicate 128 0) = some win ∧
      win.start ≤ 1 ∧ 1 ≤ win.stop ∧ win.stop ≤ 2 ∧ 44 ≤ win.caretX ∧ win.caretX ≤ 567 := by
  obtain ⟨win, hwin, hstart, hcursor, hstop, -, -, -, -, -, hleft, hright, -⟩ :=
    @value_window (fun _ => 10) ⟨[0x61, 0x62, 0], 2, 1, true, false, false, 0⟩ 44 567
      (List.replicate 128 0) (by decide) (by decide) (by decide) List.length_replicate
  exact ⟨win, hwin, hstart, hcursor, hstop, hleft, hright⟩

end CnUi
