import CrossNook.UI.FieldRefinement
import CrossNook.UI.ValueWindow

/-!
# The fields of the screens

Every field of the account screen holds a list with a cursor, whatever events and calls do to it: the
cursor is in its text, and the text leaves room in the buffer for a terminator. The windows that are
drawn of the fields, and the touches that are looked up in them later, so stay inside the texts and
the tables in every run.

## Main definitions

* `TextInput.Held`: a field holds a list with a cursor, and there is a terminator
* `CnUi.FieldsHeld`: all fields of the account screen do

## Main results

* `CnUi.run_fieldsHeld`: the fields in every run
* `CnUi.run_valueWindows`: the windows of the values in every run
* `CnUi.run_touches`: the touches on them in every run
-/

namespace TextInput

/-- A field holds a list with a cursor, in a buffer with at least one byte. -/
def Held (input : TextInput) : Prop :=
  ∃ field longest, Refines input field longest ∧ field.capacity ≠ 0

section Held

variable {input : TextInput}

theorem Held.cursor_le (h : input.Held) : input.cursor ≤ input.length := by
  obtain ⟨field, longest, hrefines, -⟩ := h
  exact hrefines.cursor_le

theorem Held.getElem?_length (h : input.Held) : input.bytes[input.length]? = some 0 := by
  obtain ⟨field, longest, hrefines, hpos⟩ := h
  obtain ⟨rest, hbytes⟩ := hrefines.bytes hpos
  rw [hbytes, hrefines.length, List.replicate_succ, List.append_assoc,
    List.getElem?_append_right (le_refl _), Nat.sub_self]
  rfl

theorem Held.length_lt (h : input.Held) : input.length < input.bytes.length :=
  (List.getElem?_eq_some_iff.mp h.getElem?_length).1

/-- An operation of the field keeps what it holds. -/
theorem Held.perform (h : input.Held) (op : FieldOp) : (input.perform op).1.Held := by
  obtain ⟨field, longest, hrefines, hpos⟩ := h
  refine ⟨_, _, (hrefines.perform op).1, ?_⟩
  rwa [ListField.capacity_perform]

theorem Held.activate (h : input.Held) : input.activate.1.Held := h.perform .activate

theorem Held.setCursor (h : input.Held) (cursor : ℕ) : (input.setCursor cursor).Held :=
  h.perform (.setCursor cursor)

theorem Held.select (h : input.Held) (row column : ℕ) : (input.select row column).Held := by
  obtain ⟨field, longest, hrefines, hpos⟩ := h
  exact ⟨_, _, hrefines.select row column, hpos⟩

theorem Held.move (h : input.Held) (forward : Bool) : (input.move forward).Held := by
  obtain ⟨field, longest, hrefines, hpos⟩ := h
  exact ⟨_, _, hrefines.move forward, hpos⟩

theorem held_init {bytes : List UInt8} (h : bytes ≠ []) : (init bytes).Held :=
  ⟨_, _, refines_init bytes, mt List.length_eq_zero_iff.mp h⟩

/-- A text put into the buffer with its terminator, the cursor behind it. -/
theorem held_text (input : TextInput) (text rest : List UInt8) :
    Held { input with
      bytes := text ++ 0 :: rest
      length := text.length
      cursor := text.length } := by
  have hcapacity : (text ++ 0 :: rest).length ≠ 0 := by simp
  have hitems : (⟨text, []⟩ : ListCursor UInt8).items = text := List.append_nil text
  refine ⟨⟨(text ++ 0 :: rest).length, ⟨text, []⟩, input.cursorEnabled, input.symbols,
    input.shifted, input.selection⟩, text.length, ?_, hcapacity⟩
  refine ⟨rfl, (congrArg List.length hitems).symm, rfl, le_refl _, fun _ => ⟨rest, ?_⟩,
    fun hzero => absurd hzero hcapacity, fun _ => rfl, rfl, rfl, rfl, rfl⟩
  dsimp only
  rw [hitems, Nat.sub_self, List.replicate_succ, List.append_assoc]
  rfl

end Held

end TextInput

namespace CnUi

open TextInput (Held)

variable {R P : Type} {ops : ReaderOps R P} {ui ui' : CnUi R}

/-- Every field of the account screen holds a list with a cursor. -/
def FieldsHeld (ui : CnUi R) : Prop := ∀ i, (ui.accountFields i).Held

/-! ## The account screen -/

theorem held_update {fields : Fin 4 → TextInput} (h : ∀ i, (fields i).Held) (i : Fin 4)
    {field : TextInput} (hfield : field.Held) (j : Fin 4) :
    (Function.update fields i field j).Held :=
  (Function.forall_update_iff fields fun _ field => field.Held).mpr ⟨hfield, fun j _ => h j⟩ j

theorem held_blankFields (i : Fin 4) : (blankFields i).Held := by
  have hblank (n : ℕ) : (TextInput.init (List.replicate (n + 1) 0)).Held :=
    TextInput.held_init (by rw [List.replicate_succ]; exact List.cons_ne_nil _ _)
  fin_cases i
  · exact hblank _
  · exact hblank _
  · exact hblank _
  · exact (hblank _).perform (.setCursorEnabled false)

theorem FieldsHeld.accountWipe (h : ui.FieldsHeld) : ui.accountWipe.FieldsHeld :=
  held_update h 3 (TextInput.held_text (ui.accountFields 3) [] (List.replicate passwordMax 0))

theorem FieldsHeld.accountExecuteOption (h : ui.FieldsHeld) (kind : OptionKind) :
    (ui.accountExecuteOption kind).FieldsHeld := by
  cases kind with
  | back => exact h.accountWipe
  | recheck => exact h
  | activate => exact h
  | correct => exact held_blankFields

theorem FieldsHeld.accountSubmit (h : ui.FieldsHeld) : ui.accountSubmit.FieldsHeld := by
  unfold CnUi.accountSubmit
  dsimp only
  split
  · exact h
  · exact h

theorem FieldsHeld.accountActivateKey (h : ui.FieldsHeld) (i : Fin 4) :
    (ui.accountActivateKey i).FieldsHeld := by
  have hactivated := held_update h i (h i).activate
  unfold CnUi.accountActivateKey
  dsimp only
  split
  · exact hactivated
  · exact hactivated
  · exact hactivated
  · exact hactivated

theorem FieldsHeld.touchKey (h : ui.FieldsHeld) (i : Fin 4) (row column : ℕ) :
    (ui.touchKey i row column).FieldsHeld := by
  have hselected : FieldsHeld { ui with
      accountFields := Function.update ui.accountFields i
        ((ui.accountFields i).select row column) } :=
    held_update h i ((h i).select row column)
  exact hselected.accountActivateKey i

theorem FieldsHeld.touchField (h : ui.FieldsHeld) (index : ℤ) (ev : InputEv) :
    (ui.touchField index ev).FieldsHeld := by
  unfold CnUi.touchField
  dsimp only
  split
  · unfold accountPlaceCursor
    split
    · exact h
    · exact held_update h _ ((h _).setCursor _)
  · exact h

theorem FieldsHeld.updateFocused (h : ui.FieldsHeld) {f : TextInput → TextInput}
    (hf : ∀ field : TextInput, field.Held → (f field).Held) : (ui.updateFocused f).FieldsHeld := by
  unfold CnUi.updateFocused
  split
  · exact h
  · exact held_update h _ (hf _ (h _))

theorem FieldsHeld.handleKeyboard (h : ui.FieldsHeld) (ev : InputEv) :
    (ui.handleKeyboard ev).1.FieldsHeld := by
  unfold CnUi.handleKeyboard
  split
  · exact h.updateFocused fun _ hfield => hfield.move true
  · exact h.updateFocused fun _ hfield => hfield.move false
  · split
    · exact h
    · exact h.accountActivateKey _
  · have hclosed : FieldsHeld { ui with accountKeyboardActive := false } := h
    dsimp only
    split
    · exact hclosed.touchKey _ _ _
    split
    · exact hclosed.touchField _ ev
    split
    · exact hclosed.accountSubmit
    · exact hclosed
  · exact h

theorem FieldsHeld.handleForm (h : ui.FieldsHeld) (ev : InputEv) :
    (ui.handleForm ev).1.FieldsHeld := by
  unfold CnUi.handleForm
  split
  · exact h
  · exact h
  · split
    · exact h.accountSubmit
    · exact h
  · split
    · exact h.touchField _ ev
    split
    · exact h.touchKey _ _ _
    split
    · exact h.accountSubmit
    · exact h
  · exact h

theorem FieldsHeld.handleOptions (h : ui.FieldsHeld) (ev : InputEv) :
    (ui.handleOptions ev).1.FieldsHeld := by
  have hfocused (focus : ℤ) : FieldsHeld { ui with accountActionFocus := focus } := h
  unfold CnUi.handleOptions
  dsimp only
  split
  · exact hfocused _
  · exact hfocused _
  · split
    · exact hfocused _
    · exact (hfocused _).accountExecuteOption _
  · split
    · exact hfocused _
    split
    · exact hfocused _
    · exact (hfocused _).accountExecuteOption _
  · exact hfocused _

theorem FieldsHeld.handleAccount (h : ui.FieldsHeld) (ev : InputEv) :
    (ui.handleAccount ev).1.FieldsHeld := by
  unfold CnUi.handleAccount
  split
  · split
    · exact h
    · exact h.accountWipe
  split
  · exact h.accountWipe
  split
  · exact h
  split
  · exact h.handleKeyboard ev
  split
  · exact h.handleForm ev
  · exact h.handleOptions ev

/-! ## Runs -/

/-- Only the events of the account screen change a field. -/
theorem FieldsHeld.move {ev : InputEv} (h : ui.FieldsHeld) (hstate : ui.state ≠ .accountSetup)
    (hmove : Move ops ui ev ui') : ui'.FieldsHeld := by
  cases hmove with
  | leave _ haccount => exact absurd haccount hstate
  | edit _ _ _ _ _ haccount => exact absurd haccount hstate
  | submit hsubmits => exact absurd hsubmits.1 hstate
  | correct _ hcorrects => exact absurd hcorrects.1 hstate
  | exit _ _ haccount => exact absurd haccount hstate
  | _ => exact h

theorem FieldsHeld.powerUp (h : ui.FieldsHeld) (now : ℤ) : (ui.powerUp now).FieldsHeld := by
  have hwiped := h.accountWipe
  obtain ⟨pressed, exit, heq | ⟨-, -, heq⟩⟩ := ui.powerUp_eq now
  · rw [heq]
    exact h
  · rw [heq]
    exact hwiped

theorem FieldsHeld.handle (h : ui.FieldsHeld) (ev : InputEv) (now : ℤ) :
    (ui.handle ops ev now).1.FieldsHeld := by
  by_cases hstate : ui.state = .accountSetup
  · unfold CnUi.handle
    split
    · exact h.handleAccount ev
    · rename_i hother
      have hreader : ui.state ≠ .reader := by
        rw [hstate]
        decide
      -- only the power button is left
      rw [if_neg fun hmodal => hreader hmodal.1]
      have hpower : ev.type = .powerDown ∨ ev.type = .powerUp := by
        by_contra hneither
        rw [not_or] at hneither
        exact hother ⟨hstate, hneither.1, hneither.2⟩
      unfold handleScreen
      rcases hpower with htype | htype
      · rw [htype]
        exact h
      · rw [htype]
        exact h.powerUp now
  · exact h.move hstate (handle_move ops ui ev now)

theorem FieldsHeld.accountSetResult (h : ui.FieldsHeld) (status : AccountResult)
    (localState : AccountLocal) : (ui.accountSetResult status localState).FieldsHeld := by
  unfold CnUi.accountSetResult
  dsimp only
  intro i
  split
  · exact h i
  · exact h.accountWipe i

theorem held_prefill {field : TextInput} (h : field.Held) (text : Option (List UInt8)) :
    (prefill field text).Held := by
  unfold prefill
  split
  · exact h
  · split
    · exact TextInput.held_text field _ _
    · exact h

theorem FieldsHeld.step (h : ui.FieldsHeld) (call : Call R P) : (ui.step ops call).FieldsHeld := by
  cases call with
  | handle ev now => exact h.handle ev now
  | accountSetResult status localState => exact h.accountSetResult status localState
  | accountClearPassword => exact h.accountWipe
  | accountPrefill url device =>
    unfold CnUi.step accountPrefill
    dsimp only
    split
    · exact h
    · exact held_update (held_update h 0 (held_prefill (h 0) url)) 1 (held_prefill (h 1) device)
  | showSyncConflict =>
    unfold CnUi.step showSyncConflict
    dsimp only
    split
    · exact h
    · exact h
  | showSyncFeedback feedback =>
    unfold CnUi.step showSyncFeedback
    dsimp only
    split
    · exact h
    · exact h
  | render measure =>
    unfold CnUi.step render
    dsimp only
    split
    · exact h
    · exact h
  | _ => exact h

/-- **In every run** each field of the account screen holds a list with a cursor. -/
theorem run_fieldsHeld (ops : ReaderOps R P) (calls : List (Call R P)) :
    (run ops calls).FieldsHeld :=
  run_induction held_blankFields (fun _ call h => h.step call) calls

/-- **The windows of the values in every run.** The window that the code computes of a field stays in
the text and in the table of stops, and is the one that a rendering of the form keeps. -/
theorem run_valueWindows (ops : ReaderOps R P) (calls : List (Call R P)) (measure : UInt8 → ℤ)
    (i : Fin 3) {stopX : List ℤ} (htable : stopX.length = accountValueStops)
    (hform : (run ops calls).state = .accountSetup ∧ (run ops calls).accountEditing) :
    ∃ win, accountValueWindow measure ((run ops calls).accountFields i.castSucc) 44 567 stopX =
        some win ∧
      win.start ≤ win.stop ∧ win.stop ≤ ((run ops calls).accountFields i.castSucc).length ∧
      (run ops (calls ++ [.render measure])).accountValueStart i = win.start ∧
      (run ops (calls ++ [.render measure])).accountValueStopX i = win.stopX.take win.count := by
  have hheld := run_fieldsHeld ops calls i.castSucc
  obtain ⟨win, hwin, hframed, hkept⟩ :=
    render_valueWindow measure hform i hheld.cursor_le hheld.length_lt.le htable
  rw [run_append_singleton]
  exact ⟨win, hwin, hframed.start_le.trans hframed.le_stop, hframed.stop_le, hkept⟩

/-! ## Touches -/

/-- Only a rendering records stops. -/
theorem Move.stops_eq {ev : InputEv} (hmove : Move ops ui ev ui') :
    ui'.accountValueStopX = ui.accountValueStopX := by
  cases hmove with
  | submit =>
    unfold CnUi.accountSubmit
    dsimp only
    split
    · rfl
    · rfl
  | _ => rfl

/-- The stops of every value fit into the table. -/
def StopsFit (ui : CnUi R) : Prop := ∀ i, (ui.accountValueStopX i).length ≤ accountValueStops

theorem StopsFit.step (h : ui.StopsFit) (hheld : ui.FieldsHeld) (call : Call R P) :
    (ui.step ops call).StopsFit := by
  cases call with
  | handle ev now =>
    intro i
    have hstops := (handle_move ops ui ev now).stops_eq
    unfold CnUi.step
    dsimp only
    rw [hstops]
    exact h i
  | accountSetResult status localState =>
    intro i
    unfold CnUi.step CnUi.accountSetResult
    dsimp only
    split
    · exact h i
    · exact h i
  | accountPrefill url device =>
    unfold CnUi.step accountPrefill
    dsimp only
    split
    · exact h
    · exact h
  | showSyncConflict =>
    unfold CnUi.step showSyncConflict
    dsimp only
    split
    · exact h
    · exact h
  | showSyncFeedback feedback =>
    unfold CnUi.step showSyncFeedback
    dsimp only
    split
    · exact h
    · exact h
  -- what a rendering keeps is a part of the table
  | render measure =>
    intro i
    have htable : (List.replicate accountValueStops (0 : ℤ)).length = accountValueStops :=
      List.length_replicate
    by_cases hform : ui.state = .accountSetup ∧ ui.accountEditing
    · obtain ⟨win, -, hframed, -, hstops⟩ := render_valueWindow measure hform i
        (hheld i.castSucc).cursor_le (hheld i.castSucc).length_lt.le htable
      unfold CnUi.step
      dsimp only
      rw [hstops, ← hframed.recorded.length]
      exact List.length_take_le' _ _
    · unfold CnUi.step render
      dsimp only
      rw [if_neg hform]
      exact h i
  | _ => exact h

/-- **The touches in every run.** A touch of the screens is the one of the code over a table that holds
what was last recorded, which it does not leave. -/
theorem run_touches (ops : ReaderOps R P) (calls : List (Call R P)) (i : Fin 3) (x : ℤ) :
    ∃ stopX count, stopX.length = accountValueStops ∧ count ≤ accountValueStops ∧
      (run ops calls).accountValueStopX i = stopX.take count ∧
      placeCursor ((run ops calls).accountFields i.castSucc) ((run ops calls).accountValueStart i)
          count stopX x =
        some (((run ops calls).accountPlaceCursor i x).accountFields i.castSucc) := by
  have hfit : (run ops calls).FieldsHeld ∧ (run ops calls).StopsFit :=
    @run_induction R P ops (fun ui => ui.FieldsHeld ∧ ui.StopsFit)
      ⟨held_blankFields, fun _ => Nat.zero_le _⟩
      (fun _ call h => ⟨h.1.step call, h.2.step h.1 call⟩) calls
  have hle := hfit.2 i
  generalize hstops : (run ops calls).accountValueStopX i = stops at hle
  -- the rest of the table is whatever it was
  have htable : (stops ++ List.replicate (accountValueStops - stops.length) 0).length =
      accountValueStops := by
    rw [List.length_append, List.length_replicate]
    omega
  have htake : (stops ++ List.replicate (accountValueStops - stops.length) 0).take stops.length =
      stops := List.take_left' rfl
  refine ⟨_, stops.length, htable, hle, htake.symm, ?_⟩
  exact placeCursor_accountPlaceCursor _ i (by rw [htable]; exact hle) rfl
    (hstops.trans htake.symm) x

end CnUi
