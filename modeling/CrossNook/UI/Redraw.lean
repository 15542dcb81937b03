import CrossNook.UI.Picture

/-!
# When the screen is drawn again

`cn_ui_handle` tells whether the screen has to be drawn again after an event, and an application
that is told no leaves the screen as it is. What the drawing reads must then be as it was. This
rests on two indices of the account screen that stay inside their tables in every run, and on the
reader, which tells the page it was at when it did not turn one.

## Main definitions

* `CnUi.Indexed`: the indices of the account screen are inside their tables
* `CnUi.sessionOps`: the reader of the application, as the screens use it

## Main results

* `CnUi.run_indexed`: in every run the indices are inside their tables
* `CnUi.run_asks`: an event after which no drawing is asked for leaves the picture as it was
* `CnUi.run_pictures`: when the screens of a run can be drawn, and that nothing earlier shows through
-/

open CnCanvas (colorBlack colorGray)
open Reader (Session Pager)
open Drawing

namespace CnUi

variable {R P : Type} {ops : ReaderOps R P} {ui ui' ui'' : CnUi R} {ev : InputEv} {now : ℤ}

/-! ## The indices of the account screen -/

/-- The message is one of the table, and the focus is on one of the options. -/
structure Indexed (ui : CnUi R) : Prop where
  message : ui.accountMessage < accountMessages.length
  focus : 0 ≤ ui.accountActionFocus ∧ ui.accountActionFocus < ui.accountOptions.length

/-- What the options depend on is kept, and the message is kept or is another one of the table. -/
structure Kept (ui ui' : CnUi R) : Prop where
  localState : ui'.accountLocalState = ui.accountLocalState
  status : ui'.accountStatus = ui.accountStatus
  focus : ui'.accountActionFocus = ui.accountActionFocus
  message : ui'.accountMessage = ui.accountMessage ∨ ui'.accountMessage < accountMessages.length

theorem Kept.refl (ui : CnUi R) : ui.Kept ui := ⟨rfl, rfl, rfl, .inl rfl⟩

/-- Nothing about the account but another message of the table. -/
theorem Kept.of_message {m : ℕ} (hm : m < 20) (hmessage : ui'.accountMessage = m)
    (hlocal : ui'.accountLocalState = ui.accountLocalState)
    (hstatus : ui'.accountStatus = ui.accountStatus)
    (hfocus : ui'.accountActionFocus = ui.accountActionFocus) : ui.Kept ui' := by
  refine ⟨hlocal, hstatus, hfocus, .inr ?_⟩
  rw [hmessage]
  exact hm

theorem Kept.trans (h : ui.Kept ui') (h' : ui'.Kept ui'') : ui.Kept ui'' where
  localState := h'.localState.trans h.localState
  status := h'.status.trans h.status
  focus := h'.focus.trans h.focus
  message := by
    rcases h'.message with heq | hlt
    · rw [heq]
      exact h.message
    · exact .inr hlt

theorem accountOptions_congr (hlocal : ui'.accountLocalState = ui.accountLocalState)
    (hstatus : ui'.accountStatus = ui.accountStatus) : ui'.accountOptions = ui.accountOptions := by
  unfold accountOptions
  rw [hlocal, hstatus]

theorem Indexed.of_kept (h : ui.Indexed) (hkept : ui.Kept ui') : ui'.Indexed where
  message := by
    rcases hkept.message with heq | hlt
    · rw [heq]
      exact h.message
    · exact hlt
  focus := by
    rw [accountOptions_congr hkept.localState hkept.status, hkept.focus]
    exact h.focus

theorem kept_accountSubmit (ui : CnUi R) : ui.Kept ui.accountSubmit := by
  unfold accountSubmit
  by_cases hfirst : ui.accountCorrectionConfirm = 1
  · rw [if_pos hfirst]
    exact .of_message (m := 19) (by decide) rfl rfl rfl rfl
  · rw [if_neg hfirst]
    exact .of_message (m := 14) (by decide) rfl rfl rfl rfl

theorem kept_accountActivateKey (ui : CnUi R) (i : Fin 4) : ui.Kept (ui.accountActivateKey i) := by
  unfold accountActivateKey
  dsimp only
  split
  · exact .of_message (m := 17) (by decide) rfl rfl rfl rfl
  · exact .of_message (m := 18) (by decide) rfl rfl rfl rfl
  · exact ⟨rfl, rfl, rfl, .inl rfl⟩
  · exact ⟨rfl, rfl, rfl, .inl rfl⟩

theorem kept_touchKey (ui : CnUi R) (i : Fin 4) (row column : ℕ) :
    ui.Kept (ui.touchKey i row column) := by
  obtain ⟨hlocal, hstatus, hfocus, hmessage⟩ := kept_accountActivateKey { ui with
    accountFields := Function.update ui.accountFields i
      ((ui.accountFields i).select row column) } i
  exact ⟨hlocal, hstatus, hfocus, hmessage⟩

theorem kept_touchField (ui : CnUi R) (index : ℤ) (ev : InputEv) :
    ui.Kept (ui.touchField index ev) := by
  obtain ⟨fields, heq, -⟩ := touchField_eq ui index ev
  rw [heq]
  exact ⟨rfl, rfl, rfl, .inl rfl⟩

theorem kept_updateFocused (ui : CnUi R) (f : TextInput → TextInput) :
    ui.Kept (ui.updateFocused f) := by
  unfold updateFocused
  split
  · exact Kept.refl ui
  · exact ⟨rfl, rfl, rfl, .inl rfl⟩

/-- Executing an option keeps the options. -/
theorem kept_accountExecuteOption (ui : CnUi R) (kind : OptionKind) :
    ui.Kept (ui.accountExecuteOption kind) := by
  cases kind with
  | back => exact ⟨rfl, rfl, rfl, .inl rfl⟩
  | recheck => exact .of_message (m := 14) (by decide) rfl rfl rfl rfl
  | activate => exact .of_message (m := 14) (by decide) rfl rfl rfl rfl
  | correct => exact ⟨rfl, rfl, rfl, .inl rfl⟩

theorem kept_handleKeyboard (ui : CnUi R) (ev : InputEv) : ui.Kept (ui.handleKeyboard ev).1 := by
  have hclosed : ui.Kept { ui with accountKeyboardActive := false } := ⟨rfl, rfl, rfl, .inl rfl⟩
  unfold handleKeyboard
  split
  · exact kept_updateFocused ui (·.move true)
  · exact kept_updateFocused ui (·.move false)
  · split
    · exact Kept.refl ui
    · exact kept_accountActivateKey ui _
  · dsimp only
    split
    · exact hclosed.trans (kept_touchKey _ _ _ _)
    · split_ifs
      · exact hclosed.trans (kept_touchField _ _ _)
      · exact hclosed.trans (kept_accountSubmit _)
      · exact hclosed
  · exact Kept.refl ui

theorem kept_handleForm (ui : CnUi R) (ev : InputEv) : ui.Kept (ui.handleForm ev).1 := by
  unfold handleForm
  split
  · exact ⟨rfl, rfl, rfl, .inl rfl⟩
  · exact ⟨rfl, rfl, rfl, .inl rfl⟩
  · split
    · exact kept_accountSubmit ui
    · exact ⟨rfl, rfl, rfl, .inl rfl⟩
  · split
    · exact kept_touchField ui _ _
    split
    · exact kept_touchKey ui _ _ _
    split
    · exact kept_accountSubmit ui
    · exact Kept.refl ui
  · exact Kept.refl ui

theorem length_accountOptions (ui : CnUi R) :
    1 ≤ ui.accountOptions.length ∧ ui.accountOptions.length ≤ 2 := by
  unfold accountOptions
  split
  · decide
  · split <;> decide
  · decide

/-- The focus on another option. -/
theorem Indexed.focusOn (h : ui.Indexed) {focus : ℤ} (hpos : 0 ≤ focus)
    (hlt : focus < ui.accountOptions.length) : { ui with accountActionFocus := focus }.Indexed :=
  ⟨h.message, hpos, hlt⟩

/-- A focus on one of the options is not moved before the event. -/
theorem Indexed.clamped (h : ui.Indexed) :
    { ui with accountActionFocus :=
        if (ui.accountOptions.length : ℤ) ≤ ui.accountActionFocus then
          (ui.accountOptions.length : ℤ) - 1
        else ui.accountActionFocus } = ui := by
  rw [if_neg (not_le.mpr h.focus.2)]

theorem Indexed.handleOptions (h : ui.Indexed) (ev : InputEv) : (ui.handleOptions ev).1.Indexed := by
  obtain ⟨hpos, hlt⟩ := h.focus
  have hone := (length_accountOptions ui).1
  unfold CnUi.handleOptions
  dsimp only
  rw [h.clamped]
  split
  · apply h.focusOn
    · exact Int.tmod_nonneg _ (by omega)
    · exact Int.tmod_lt_of_pos _ (by omega)
  · apply h.focusOn
    · exact Int.tmod_nonneg _ (by omega)
    · exact Int.tmod_lt_of_pos _ (by omega)
  · split
    · exact h
    · exact h.of_kept (kept_accountExecuteOption ui _)
  · split
    · exact h
    · rename_i i hfind
      have hi : i < ui.accountOptions.length := List.mem_range.mp (List.mem_of_find?_eq_some hfind)
      have hfocus := h.focusOn (Int.natCast_nonneg i) (Int.ofNat_lt.mpr hi)
      split
      · exact hfocus
      · exact hfocus.of_kept (kept_accountExecuteOption _ _)
  · exact h

theorem Indexed.handleAccount (h : ui.Indexed) (ev : InputEv) : (ui.handleAccount ev).1.Indexed := by
  unfold CnUi.handleAccount
  split_ifs
  · exact h.of_kept ⟨rfl, rfl, rfl, .inl rfl⟩
  · exact h.of_kept ⟨rfl, rfl, rfl, .inl rfl⟩
  · exact h.of_kept ⟨rfl, rfl, rfl, .inl rfl⟩
  · exact h
  · exact h.of_kept (kept_handleKeyboard ui ev)
  · exact h.of_kept (kept_handleForm ui ev)
  · exact h.handleOptions ev

/-! ### The other screens -/

theorem kept_handleModal (ui : CnUi R) (ev : InputEv) : ui.Kept (ui.handleModal ev).1 := by
  unfold handleModal
  split
  · exact ⟨rfl, rfl, rfl, .inl rfl⟩
  split
  · exact Kept.refl ui
  split
  · exact ⟨rfl, rfl, rfl, .inl rfl⟩
  split
  · exact ⟨rfl, rfl, rfl, .inl rfl⟩
  split
  · dsimp only
    split
    · exact ⟨rfl, rfl, rfl, .inl rfl⟩
    · exact Kept.refl ui
  split
  · split
    · exact ⟨rfl, rfl, rfl, .inl rfl⟩
    split
    · exact ⟨rfl, rfl, rfl, .inl rfl⟩
    · exact ⟨rfl, rfl, rfl, .inl rfl⟩
  · exact Kept.refl ui

theorem kept_turnPage (ui : CnUi R) (turn : R → R × ℤ) : ui.Kept (ui.turnPage ops turn).1 := by
  unfold turnPage
  split
  · exact Kept.refl ui
  split
  · exact ⟨rfl, rfl, rfl, .inl rfl⟩
  · exact Kept.refl ui

theorem kept_libDown (ui : CnUi R) : ui.Kept ui.libDown := by
  obtain ⟨sel, top, heq, -⟩ := ui.libDown_eq
  rw [heq]
  exact ⟨rfl, rfl, rfl, .inl rfl⟩

theorem kept_libUp (ui : CnUi R) : ui.Kept ui.libUp := by
  obtain ⟨sel, top, heq, -⟩ := ui.libUp_eq
  rw [heq]
  exact ⟨rfl, rfl, rfl, .inl rfl⟩

theorem kept_enterAccount (ui : CnUi R) : ui.Kept ui.enterAccount :=
  .of_message (m := 14) (by decide) rfl rfl rfl rfl

theorem kept_touchHome (ui : CnUi R) (ev : InputEv) : ui.Kept (ui.touchHome ev).1 := by
  unfold touchHome
  split
  · exact ⟨rfl, rfl, rfl, .inl rfl⟩
  split
  · exact ⟨rfl, rfl, rfl, .inl rfl⟩
  split
  · exact kept_enterAccount ui
  · exact Kept.refl ui

theorem kept_touchLibrary (ops : ReaderOps R P) (ui : CnUi R) (ev : InputEv)
    (hstate : ui.state = .library) : ui.Kept (ui.touchLibrary ops ev).1 := by
  obtain ⟨state, page, x, y, sel, top, reader, heq, -⟩ := touchLibrary_browses ops ui ev hstate
  rw [heq]
  exact ⟨rfl, rfl, rfl, .inl rfl⟩

theorem kept_powerUp (ui : CnUi R) (now : ℤ) : ui.Kept (ui.powerUp now) := by
  obtain ⟨pressed, exit, heq | ⟨-, -, heq⟩⟩ := ui.powerUp_eq now
  · rw [heq]
    exact ⟨rfl, rfl, rfl, .inl rfl⟩
  · rw [heq]
    exact ⟨rfl, rfl, rfl, .inl rfl⟩

/-- A touch, behind its marker. -/
theorem kept_touch (ops : ReaderOps R P) (ui : CnUi R) (now : ℤ) (htype : ev.type = .touchUp) :
    ui.Kept (ui.handleScreen ops ev now).1 := by
  have hmarked : ui.Kept (if ui.state ≠ .reader then ui.markAt ev.x ev.y else (ui, false)).1 := by
    obtain ⟨x, y, hmark⟩ := ui.marked_eq ev
    rw [hmark]
    exact ⟨rfl, rfl, rfl, .inl rfl⟩
  unfold handleScreen
  rw [htype]
  dsimp only
  split
  · exact hmarked.trans (kept_touchHome _ ev)
  · rename_i hlibrary
    exact hmarked.trans (kept_touchLibrary ops _ ev hlibrary)
  · exact hmarked

theorem kept_handleScreen (ops : ReaderOps R P) (ui : CnUi R) (ev : InputEv) (now : ℤ) :
    ui.Kept (ui.handleScreen ops ev now).1 := by
  by_cases htouch : ev.type = .touchUp
  · exact kept_touch ops ui now htouch
  unfold handleScreen
  split
  · split
    · exact kept_turnPage ui ops.next
    · exact kept_libDown ui
    · exact ⟨rfl, rfl, rfl, .inl rfl⟩
    · exact ⟨rfl, rfl, rfl, .inl rfl⟩
    · exact Kept.refl ui
  · split
    · exact kept_turnPage ui ops.prev
    · exact ⟨rfl, rfl, rfl, .inl rfl⟩
    · exact kept_libUp ui
    · exact Kept.refl ui
  · split
    · exact ⟨rfl, rfl, rfl, .inl rfl⟩
    · exact kept_enterAccount ui
    · exact Kept.refl ui
  · split
    · exact ⟨rfl, rfl, rfl, .inl rfl⟩
    · exact ⟨rfl, rfl, rfl, .inl rfl⟩
    · exact Kept.refl ui
    · exact ⟨rfl, rfl, rfl, .inl rfl⟩
  · split
    · exact ⟨rfl, rfl, rfl, .inl rfl⟩
    · exact Kept.refl ui
    · exact ⟨rfl, rfl, rfl, .inl rfl⟩
  · exact ⟨rfl, rfl, rfl, .inl rfl⟩
  · exact kept_powerUp ui now
  · rename_i htype
    exact absurd htype htouch
  · exact Kept.refl ui

/-! ### Runs -/

theorem Indexed.handle (h : ui.Indexed) (ops : ReaderOps R P) (ev : InputEv) (now : ℤ) :
    (ui.handle ops ev now).1.Indexed := by
  unfold CnUi.handle
  split
  · exact h.handleAccount ev
  split
  · exact h.of_kept (kept_handleModal ui ev)
  · exact h.of_kept (kept_handleScreen ops ui ev now)

theorem resultMessage_lt (localState : AccountLocal) (status : AccountResult) :
    resultMessage localState status < accountMessages.length := by
  cases status <;> cases localState <;> decide

theorem Indexed.accountSetResult (ui : CnUi R) (status : AccountResult)
    (localState : AccountLocal) : (ui.accountSetResult status localState).Indexed where
  message := resultMessage_lt localState status
  focus := by
    have hone := (length_accountOptions (ui.accountSetResult status localState)).1
    have hfocus : (ui.accountSetResult status localState).accountActionFocus = 0 := rfl
    omega

/-- A call of the application keeps the indices inside their tables. -/
theorem Indexed.step (h : ui.Indexed) (ops : ReaderOps R P) (call : Call R P) :
    (ui.step ops call).Indexed := by
  cases call with
  | handle ev now => exact h.handle ops ev now
  | takeSyncAction => exact h.of_kept ⟨rfl, rfl, rfl, .inl rfl⟩
  | accountTakeAction => exact h.of_kept ⟨rfl, rfl, rfl, .inl rfl⟩
  | accountSetResult status localState => exact Indexed.accountSetResult ui status localState
  | accountClearPassword => exact h.of_kept ⟨rfl, rfl, rfl, .inl rfl⟩
  | accountPrefill url device =>
    rw [CnUi.step, CnUi.accountPrefill]
    split
    · exact h
    · exact h.of_kept ⟨rfl, rfl, rfl, .inl rfl⟩
  | setLibrary lib => exact h.of_kept ⟨rfl, rfl, rfl, .inl rfl⟩
  | setReader created => exact h.of_kept ⟨rfl, rfl, rfl, .inl rfl⟩
  | showSyncConflict =>
    rw [CnUi.step, CnUi.showSyncConflict]
    split
    · exact h.of_kept ⟨rfl, rfl, rfl, .inl rfl⟩
    · exact h
  | showSyncFeedback feedback =>
    rw [CnUi.step, CnUi.showSyncFeedback]
    split
    · exact h.of_kept ⟨rfl, rfl, rfl, .inl rfl⟩
    · exact h
  | readerGotoPosition position => exact h.of_kept ⟨rfl, rfl, rfl, .inl rfl⟩
  | render measure =>
    rw [CnUi.step, CnUi.render]
    split
    · exact h.of_kept ⟨rfl, rfl, rfl, .inl rfl⟩
    · exact h

theorem indexed_init : (init : CnUi R).Indexed :=
  ⟨(by decide : 0 < 20), le_refl 0, (by decide : (0 : ℤ) < 2)⟩

/-- **In every run** the message is one of the table and the focus is on one of the options. -/
theorem run_indexed (ops : ReaderOps R P) (calls : List (Call R P)) : (run ops calls).Indexed :=
  run_induction indexed_init (fun _ call h => h.step ops call) calls

/-! ## Events without a drawing -/

/-- A reader that tells the page it was at has turned none. -/
structure Turns (ops : ReaderOps R P) : Prop where
  next : ∀ r, ops.isOpen r = true → (ops.next r).2 = ops.page r → (ops.next r).1 = r
  prev : ∀ r, ops.isOpen r = true → (ops.prev r).2 = ops.page r → (ops.prev r).1 = r

/-- Only what no screen shows is changed. -/
def Unseen (ui ui' : CnUi R) : Prop :=
  ∃ action pressed exit,
    ui' = { ui with syncAction := action, powerPressMs := pressed, exitRequested := exit }

theorem Unseen.refl (ui : CnUi R) : ui.Unseen ui :=
  ⟨ui.syncAction, ui.powerPressMs, ui.exitRequested, rfl⟩

/-- **What no screen shows** is not drawn. -/
theorem Unseen.picture_eq (h : ui.Unseen ui') (look : Look R) (ops : ReaderOps R P) :
    picture look ops ui' = picture look ops ui := by
  obtain ⟨action, pressed, exit, rfl⟩ := h
  rfl

/-- A handler that asks for no drawing changes only what no screen shows. -/
def Silent (ui : CnUi R) (handled : CnUi R × Bool) : Prop :=
  handled.2 = false → ui.Unseen handled.1

theorem Silent.drawn (ui ui' : CnUi R) : ui.Silent (ui', true) := by
  intro h
  cases h

theorem Silent.same (ui : CnUi R) (redraw : Bool) : ui.Silent (ui, redraw) := by
  intro _
  exact Unseen.refl ui

theorem silent_handleKeyboard (ui : CnUi R) (ev : InputEv) : ui.Silent (ui.handleKeyboard ev) := by
  unfold handleKeyboard
  split
  · exact .drawn _ _
  · exact .drawn _ _
  · split <;> exact .drawn _ _
  · dsimp only
    split
    · exact .drawn _ _
    · split_ifs <;> exact .drawn _ _
  · exact .same _ _

theorem silent_handleForm (ui : CnUi R) (ev : InputEv) : ui.Silent (ui.handleForm ev) := by
  unfold handleForm
  split
  · exact .drawn _ _
  · exact .drawn _ _
  · split <;> exact .drawn _ _
  · split
    · exact .drawn _ _
    split
    · exact .drawn _ _
    split
    · exact .drawn _ _
    · exact .same _ _
  · exact .same _ _

/-- The choice of options, where the focus is on one of them. -/
theorem Indexed.silent_handleOptions (h : ui.Indexed) (ev : InputEv) :
    ui.Silent (ui.handleOptions ev) := by
  unfold CnUi.handleOptions
  dsimp only
  rw [h.clamped]
  split
  · exact .drawn _ _
  · exact .drawn _ _
  · split <;> exact .drawn _ _
  · split
    · exact .same _ _
    · split <;> exact .drawn _ _
  · exact .same _ _

theorem Indexed.silent_handleAccount (h : ui.Indexed) (ev : InputEv) :
    ui.Silent (ui.handleAccount ev) := by
  unfold CnUi.handleAccount
  split_ifs
  · exact .drawn _ _
  · exact .drawn _ _
  · exact .drawn _ _
  · exact .same _ _
  · exact silent_handleKeyboard ui ev
  · exact silent_handleForm ui ev
  · exact h.silent_handleOptions ev

theorem silent_handleModal (ui : CnUi R) (ev : InputEv) : ui.Silent (ui.handleModal ev) := by
  unfold handleModal
  split
  · exact .drawn _ _
  split
  · exact .same _ _
  split
  · exact .drawn _ _
  split
  · exact .drawn _ _
  split
  · dsimp only
    split
    · exact .drawn _ _
    · exact .same _ _
  split
  · split
    · exact .drawn _ _
    split <;> exact .drawn _ _
  · exact .same _ _

/-- A turn that is not drawn has turned nothing. -/
theorem silent_turnPage {turn : R → R × ℤ} (ui : CnUi R)
    (hturn : ∀ r, ops.isOpen r = true → (turn r).2 = ops.page r → (turn r).1 = r) :
    ui.Silent (ui.turnPage ops turn) := by
  unfold turnPage
  cases hreader : ui.reader with
  | none => exact .same _ _
  | some r =>
    dsimp only
    by_cases hopen : ops.isOpen r = true
    · rw [if_pos hopen]
      intro hquiet
      have hpage : (turn r).2 = ops.page r := not_not.mp (of_decide_eq_false hquiet)
      rw [hturn r hopen hpage, ← hreader]
      exact Unseen.refl ui
    · rw [if_neg hopen]
      exact .same _ _

theorem silent_touchHome (ui : CnUi R) (ev : InputEv) : ui.Silent (ui.touchHome ev) := by
  unfold touchHome
  split_ifs
  · exact .drawn _ _
  · exact .drawn _ _
  · exact .drawn _ _
  · exact .same _ _

theorem silent_touchLibrary (ops : ReaderOps R P) (ui : CnUi R) (ev : InputEv) :
    ui.Silent (ui.touchLibrary ops ev) := by
  unfold touchLibrary
  dsimp only
  split
  · split
    · exact .same _ _
    · split
      · split
        · split <;> exact .drawn _ _
        · exact .drawn _ _
      · exact .same _ _
  · exact .same _ _

/-- A touch that is not drawn has not moved the marker either. -/
theorem silent_touch (ops : ReaderOps R P) (ui : CnUi R) (now : ℤ) (htype : ev.type = .touchUp) :
    ui.Silent (ui.handleScreen ops ev now) := by
  have hmarked : ∀ marked, (if ui.state ≠ .reader then ui.markAt ev.x ev.y else (ui, false)) =
      marked → marked.2 = false → marked.1 = ui := by
    intro marked heq hquiet
    subst heq
    unfold markAt at hquiet ⊢
    split_ifs at hquiet ⊢
    · rfl
    · rfl
  unfold handleScreen
  rw [htype]
  dsimp only
  generalize (if ui.state ≠ .reader then ui.markAt ev.x ev.y else (ui, false)) = marked at hmarked
  obtain ⟨ui', redraw⟩ := marked
  have hsame := hmarked (ui', redraw) rfl
  dsimp only at hsame ⊢
  split
  · intro hquiet
    obtain ⟨hmark, hhome⟩ := Bool.or_eq_false_iff.mp hquiet
    obtain rfl := hsame hmark
    exact silent_touchHome _ ev hhome
  · intro hquiet
    obtain ⟨hmark, hlibrary⟩ := Bool.or_eq_false_iff.mp hquiet
    obtain rfl := hsame hmark
    exact silent_touchLibrary ops _ ev hlibrary
  · intro hquiet
    obtain rfl := hsame hquiet
    exact Unseen.refl _

theorem silent_handleScreen (hops : Turns ops) (ui : CnUi R) (now : ℤ)
    (htype : ev.type ≠ .powerUp) : ui.Silent (ui.handleScreen ops ev now) := by
  by_cases htouch : ev.type = .touchUp
  · exact silent_touch ops ui now htouch
  unfold handleScreen
  split
  · split
    · exact silent_turnPage ui hops.next
    · exact .drawn _ _
    · exact .drawn _ _
    · exact .drawn _ _
    · exact .same _ _
  · split
    · exact silent_turnPage ui hops.prev
    · exact .drawn _ _
    · exact .drawn _ _
    · exact .same _ _
  · split
    · intro _
      exact ⟨.manual, ui.powerPressMs, ui.exitRequested, rfl⟩
    · exact .drawn _ _
    · exact .same _ _
  · split
    · exact .drawn _ _
    · exact .drawn _ _
    · exact .same _ _
    · exact .drawn _ _
  · split
    · exact .drawn _ _
    · exact .same _ _
    · exact .drawn _ _
  · intro _
    exact ⟨ui.syncAction, now, ui.exitRequested, rfl⟩
  · rename_i hup
    exact absurd hup htype
  · rename_i hup
    exact absurd hup htouch
  · exact .same _ _

/-- The release of the power button, where no exit is requested. -/
theorem powerUp_unseen (ui : CnUi R) (now : ℤ) (hstay : (ui.powerUp now).exitRequested = false) :
    ui.Unseen (ui.powerUp now) := by
  obtain ⟨pressed, exit, heq | ⟨rfl, -, heq⟩⟩ := ui.powerUp_eq now
  · exact ⟨ui.syncAction, pressed, exit, heq⟩
  · rw [heq] at hstay
    cases hstay

/-- **An event** after which no drawing is asked for changes only what no screen shows. -/
theorem Indexed.handle_unseen (h : ui.Indexed) (hops : Turns ops) (ev : InputEv) (now : ℤ)
    (hquiet : (ui.handle ops ev now).2 = false)
    (hstay : ev.type = .powerUp → (ui.handle ops ev now).1.exitRequested = false) :
    ui.Unseen (ui.handle ops ev now).1 := by
  by_cases hup : ev.type = .powerUp
  · have hhandle : (ui.handle ops ev now).1 = ui.powerUp now := by
      unfold CnUi.handle handleScreen
      rw [hup]
      simp
    rw [hhandle] at hstay ⊢
    exact powerUp_unseen ui now (hstay hup)
  · have hsilent : ui.Silent (ui.handle ops ev now) := by
      unfold CnUi.handle
      split
      · exact h.silent_handleAccount ev
      split
      · exact silent_handleModal ui ev
      · exact silent_handleScreen hops ui now hup
    exact hsilent hquiet

/-- Every glyph is a grey dot, every title is "A", and the pages are white. -/
def dots : Look R where
  ascender px := some px
  font _ := ⟨fun _ => 2, fun _ => some ⟨⟨1, 1, 1, .gray, [128]⟩, 0, 1, 2⟩, 10⟩
  title _ := [0x41]
  page r := (fun _ => CnCanvas.colorWhite, r)

/-! ## The reader of the application -/

section Sessions

variable {D Q F I : Type} (E : Pager D Q I F)

/-- The reader as the screens call it. -/
def sessionOps : ReaderOps (Session D F) ProgressStore.Record where
  isOpen s := s.reader.doc.isSome
  page s := if s.reader.doc.isSome then s.reader.page else 0
  next s := ((Reader.next E s).2, (Reader.next E s).1)
  prev s := ((Reader.prev E s).2, (Reader.prev E s).1)
  openBook s path := ((Reader.openDocument E s path).2, (Reader.openDocument E s path).1 = 0)
  close s := Reader.close s
  gotoPosition s position := (Reader.goPosition E s position).2

/-- A move that tells the page it was at has left the reader alone. -/
theorem go_same {s : Session D F} {page : ℤ} (hopen : s.reader.doc.isSome = true)
    (h : (Reader.go E s page).1 = s.reader.page) : (Reader.go E s page).2 = s := by
  obtain ⟨doc, hdoc⟩ := Option.isSome_iff_exists.mp hopen
  unfold Reader.go at h ⊢
  rw [hdoc] at h ⊢
  dsimp only at h ⊢
  generalize (if s.reader.pages - 1 < (if page < 0 then 0 else page) then s.reader.pages - 1
    else if page < 0 then 0 else page) = target at h ⊢
  by_cases hmoved : target ≠ s.reader.page
  · rw [if_pos hmoved] at h
    exact absurd h hmoved
  · rw [if_neg hmoved]

/-- A turn that is a move, and tells the page the reader was at. -/
theorem turned_same {s : Session D F} {page : ℤ} {turned : ℤ × Session D F}
    (hopen : s.reader.doc.isSome = true) (hturned : turned = Reader.go E s page)
    (h : turned.1 = (sessionOps E).page s) : turned.2 = s := by
  have hpage : (sessionOps E).page s = s.reader.page := if_pos hopen
  rw [hpage, hturned] at h
  rw [hturned]
  exact go_same E hopen h

theorem turns_sessionOps : Turns (sessionOps E) where
  next := by
    intro s hopen h
    have hnext : Reader.next E s = Reader.go E s (s.reader.page + 1) := by
      unfold Reader.next
      rw [Option.isNone_eq_false_iff.mpr hopen, if_neg Bool.false_ne_true]
    exact turned_same E hopen hnext h
  prev := by
    intro s hopen h
    have hprev : Reader.prev E s = Reader.go E s (s.reader.page - 1) := by
      unfold Reader.prev
      rw [Option.isNone_eq_false_iff.mpr hopen, if_neg Bool.false_ne_true]
    exact turned_same E hopen hprev h

/-- **When no drawing is asked for.** In every run of the screens over the reader of the application,
an event after which `cn_ui_handle` asks for no drawing leaves the picture of the screen as it was,
unless it is a release of the power key after which the program is to end. -/
theorem run_asks (look : Look (Session D F)) (calls : List (Call (Session D F) ProgressStore.Record))
    (ev : InputEv) (now : ℤ)
    (hquiet : ((run (sessionOps E) calls).handle (sessionOps E) ev now).2 = false)
    (hstay : ev.type = .powerUp →
      ((run (sessionOps E) calls).handle (sessionOps E) ev now).1.exitRequested = false) :
    picture look (sessionOps E) ((run (sessionOps E) calls).handle (sessionOps E) ev now).1 =
      picture look (sessionOps E) (run (sessionOps E) calls) := by
  have hunseen := (run_indexed (sessionOps E) calls).handle_unseen (turns_sessionOps E) ev now hquiet
    hstay
  exact hunseen.picture_eq look (sessionOps E)

end Sessions

/-- A touch of the home screen beside its buttons. -/
def besideEv : InputEv := ⟨.touchUp, 500, 10⟩

/-- The second touch at the same place. -/
theorem run_asks_beside :
    picture dots (sessionOps Reader.sampleEngine)
        ((run (sessionOps Reader.sampleEngine) [.handle besideEv 0]).handle
          (sessionOps Reader.sampleEngine) besideEv 5).1 =
      picture dots (sessionOps Reader.sampleEngine)
        (run (sessionOps Reader.sampleEngine) [.handle besideEv 0]) :=
  run_asks Reader.sampleEngine dots [.handle besideEv 0] besideEv 5 (by decide +kernel) nofun

/-! ## The pictures of a run -/

/-- The texts of a screen that are cut to a width are short: the password on the form, the titles of
the books in view, and the title and the path of the selected book. -/
def Short (look : Look R) (ui : CnUi R) : Prop :=
  match ui.state with
  | .accountSetup => ui.accountEditing = true → ui.accountPasswordLength ≤ maxLibCp
  | .library => ∀ lib ∈ ui.lib, ∀ i : ℕ, ui.top ≤ i → i < ui.top + libRows → i < lib.count →
      chars (look.title i) ≤ maxLibCp
  | .selectedBook => SelectedShort look ui
  | _ => True

/-- The rows of the library are those of the books in view, where the first of them is a row. -/
theorem shelfShort_iff (look : Look R) (ui : CnUi R)
    (htop : ∀ lib, ui.lib = some lib → lib.count ≠ 0 → 0 ≤ ui.top) :
    ShelfShort look ui ↔ ∀ lib ∈ ui.lib, ∀ i : ℕ, ui.top ≤ i → i < ui.top + libRows →
      i < lib.count → chars (look.title i) ≤ maxLibCp := by
  have hrows : (libRows.toNat : ℤ) = libRows := rfl
  constructor
  · intro h lib hlib i hle hlt hcount
    have hbooks : lib.count ≠ 0 := by omega
    have hshelf : lib ∈ ui.shelf := by
      unfold shelf
      rw [Option.mem_filter_iff]
      exact ⟨hlib, decide_eq_true hbooks⟩
    have hrow := h lib hshelf (i - ui.top).toNat (List.mem_range.mpr (by omega))
    have hindex : ui.top + ((i - ui.top).toNat : ℤ) = i := by omega
    unfold RowShort at hrow
    rw [hindex] at hrow
    exact (hrow hcount).2
  · intro h lib hlib r hr hcount
    unfold shelf at hlib
    obtain ⟨hlib, hbooks⟩ := Option.mem_filter_iff.mp hlib
    have hpos := htop lib hlib (of_decide_eq_true hbooks)
    have hlt := List.mem_range.mp hr
    refine ⟨by omega, ?_⟩
    exact h lib hlib (ui.top + r).toNat (by omega) (by omega) (by omega)

theorem legible_iff_short (look : Look R) (hindexed : ui.Indexed)
    (htop : ∀ lib, ui.lib = some lib → lib.count ≠ 0 → 0 ≤ ui.top) :
    Legible look ui ↔ Short look ui := by
  unfold Legible Short
  cases ui.state with
  | accountSetup => exact and_iff_right hindexed.message
  | library => exact shelfShort_iff look ui htop
  | selectedBook => exact Iff.rfl
  | reader => exact Iff.rfl
  | readerTest => exact Iff.rfl
  | home => exact Iff.rfl

theorem run_top (ops : ReaderOps R P) (calls : List (Call R P)) (lib : Library)
    (hlib : (run ops calls).lib = some lib) (hbooks : lib.count ≠ 0) : 0 ≤ (run ops calls).top := by
  have hcoherent : (run ops calls).Coherent :=
    run_induction coherent_init (fun _ call h => h.step call) calls
  exact (hcoherent.viewport lib hlib hbooks).1

/-- **The pictures of a run.** In every run, and over any two canvases of the size of the screen,
whatever they show and whatever size is set: the screen is drawn exactly when its texts that are cut
to a width have at most 160 characters, otherwise the drawing leaves an array; and when it is drawn
both canvases show the same, nothing of what they showed before. -/
theorem run_pictures {look : Look R} (hlook : look.Sound) (ops : ReaderOps R P)
    (calls : List (Call R P)) (s t : Sheet) (hs : s.Full) (ht : t.Full) :
    (Short look (run ops calls) →
      ∃ drawn s' t', picture look ops (run ops calls) s = (some drawn, s') ∧
        picture look ops (run ops calls) t = (some drawn, t') ∧
        s'.Full ∧ t'.surface.canvas = s'.surface.canvas) ∧
    (¬ Short look (run ops calls) →
      (picture look ops (run ops calls) s).1 = none ∧
        (picture look ops (run ops calls) t).1 = none) := by
  have hagree := agree_picture hlook ops (run_fieldsHeld ops calls)
  rw [legible_iff_short look (run_indexed ops calls) (run_top ops calls)] at hagree
  exact hagree s t ⟨hs, ht⟩

theorem sound_dots : (dots : Look R).Sound where
  sets px := ⟨px, rfl⟩
  fits := by
    intro px cp slot h
    obtain rfl := Option.some.inj h
    exact ⟨rfl, fun _ => le_rfl, fun hmono => absurd hmono (by decide)⟩

/-- A sheet of one colour. -/
def plainSheet (color : UInt16) : Sheet where
  surface := ⟨⟨600, 800, List.replicate (600 * 800) color, List.length_replicate⟩, CnText.resetStats⟩
  px := 20

/-- A library of a book is opened. -/
def shelfCalls : List (Call Unit Unit) :=
  [.setLibrary (some ⟨[⟨some [0x2f, 0x61], .txt⟩]⟩), .handle ⟨.touchUp, 300, 320⟩ 0]

/-- The title of the book, over a black and over a grey sheet. -/
theorem run_pictures_shelf : (run .onePage shelfCalls).state = .library ∧
    ∃ drawn s' t', picture dots .onePage (run .onePage shelfCalls) (plainSheet colorBlack) =
        (some drawn, s') ∧
      picture dots .onePage (run .onePage shelfCalls) (plainSheet colorGray) = (some drawn, t') ∧
      s'.Full ∧ t'.surface.canvas = s'.surface.canvas := by
  have hstate : (run .onePage shelfCalls).state = .library := by decide +kernel
  have hshort : Short dots (run .onePage shelfCalls) := by
    unfold Short
    rw [hstate]
    intro lib _ i _ _ _
    change chars [0x41] ≤ maxLibCp
    decide
  exact ⟨hstate, (run_pictures sound_dots .onePage shelfCalls _ _ ⟨rfl, rfl⟩ ⟨rfl, rfl⟩).1 hshort⟩

end CnUi
