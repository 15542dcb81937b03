import CrossNook.Credentials.CredentialStore
import CrossNook.Settings.SettingsStore
import CrossNook.UI.AccountTextInput
import CrossNook.UI.Book

/-!
# The user interface

The state of the screens and the events that change it (`ui/ui.c`): the library, the reader with
the overlay of a synchronization conflict, and the account screen. The reader itself is a
parameter: a type of readers with the operations that the screens call.

## Main definitions

* `ReaderOps`: the operations of a reader
* `CnUi`: `cn_ui`
* `CnUi.handleAccount`, `CnUi.handleModal`, `CnUi.handleScreen`, `CnUi.handle`: `cn_ui_handle`
* `CnUi.accountSetResult`, `CnUi.showSyncConflict`, `CnUi.takeSyncAction`, ...: the calls of the
  application
-/

/-- `cn_ui_account_result`. -/
inductive AccountResult
  | other
  | activated
  | alreadyEnabled
  | invalidInput
  | precondition
  | incomplete
  | corrupt
  | bootstrapFailed
  | bootstrapUncertain
  | identityFailed
  | identityUncertain
  | authRejected
  | infrastructureFailed
  | saveFailed
  | activationUncertain
  | profileUnavailable
  | activationFailed
  deriving DecidableEq, Repr

/-- `cn_ui_account_local`. -/
inductive AccountLocal
  | unknown
  | noAccount
  | partialDisabled
  | orphanCredentials
  | completeDisabled
  | enabled
  | corrupt
  | unreadable
  deriving DecidableEq, Repr

/-- `cn_ui_account_action`. -/
inductive AccountAction
  | none
  | inspect
  | submitNewOrResume
  | activateExisting
  | replaceDisabled
  | recheck
  deriving DecidableEq, Repr

/-- `cn_ui_sync_action`. -/
inductive SyncAction
  | none
  | manual
  | useLocal
  | useRemote
  | cancel
  deriving DecidableEq, Repr

/-- `cn_ui_sync_feedback`. -/
inductive SyncFeedback
  | working
  | remoteUpdated
  | remoteApplied
  | remoteMissing
  | uploadPossible
  | stale
  | mismatch
  | failed
  deriving DecidableEq, Repr

/-- The overlay over the reader: none, the choices of a conflict, or the feedback on one. -/
inductive SyncModal
  | none
  | choices
  | feedback
  deriving DecidableEq, Repr

/-- `cn_input_event`. -/
inductive InputEvent
  | none
  | pagePrev
  | pageNext
  | menu
  | back
  | home
  | powerDown
  | powerUp
  | touchDown
  | touchMove
  | touchUp
  deriving DecidableEq, Repr

/-- `cn_input_ev`, without the device it came from. -/
structure InputEv where
  type : InputEvent
  x : ℤ
  y : ℤ
  deriving DecidableEq

/-- `cn_library`. -/
structure Library where
  books : List Book
  deriving DecidableEq

def Library.count (lib : Library) : ℤ := lib.books.length

/-- The operations of a reader that the screens call. -/
structure ReaderOps (R P : Type) where
  isOpen : R → Bool
  page : R → ℤ
  next : R → R × ℤ
  prev : R → R × ℤ
  openBook : R → Option (List UInt8) → R × Bool
  close : R → R
  gotoPosition : R → P → R

/-- A reader that always shows the one page of a book. -/
def ReaderOps.onePage : ReaderOps Unit Unit where
  isOpen _ := true
  page _ := 0
  next _ := ((), 0)
  prev _ := ((), 0)
  openBook _ _ := ((), true)
  close _ := ()
  gotoPosition _ _ := ()

/-- `cn_ui`. A field of the account screen holds its own buffer; the password is that of the
last. -/
structure CnUi (R : Type) where
  state : UiState
  page : ℤ
  markX : ℤ
  markY : ℤ
  lib : Option Library
  sel : ℤ
  top : ℤ
  reader : Option R
  syncModal : SyncModal
  syncSelection : ℤ
  syncAction : SyncAction
  syncFeedback : SyncFeedback
  powerPressMs : ℤ
  exitRequested : Bool
  accountPasswordLength : ℕ
  accountFields : Fin 4 → TextInput
  accountFocus : ℤ
  accountEditing : Bool
  accountKeyboardActive : Bool
  accountCorrectionConfirm : ℕ
  accountMessage : ℕ
  accountActionFocus : ℤ
  accountValueStart : Fin 3 → ℕ
  accountValueStopX : Fin 3 → List ℤ
  accountLocalState : AccountLocal
  accountStatus : AccountResult
  accountAction : AccountAction

namespace CnUi

variable {R P : Type}

/-! ## Geometry -/

def powerLongMs : ℤ := 2000

def libRowH : ℤ := 40

def libRowTop : ℤ := 168

def libFooterY : ℤ := 750

def syncRowTop : ℤ := 278

def syncRowH : ℤ := 64

def fieldTop : ℤ := 126

def fieldH : ℤ := 66

def keyboardTop : ℤ := 474

/-- `cn_ui_lib_rows`. -/
def libRows : ℤ :=
  let rows := (libFooterY - libRowTop).tdiv libRowH
  if 0 < rows then rows else 1

def btnHit (x y y0 y1 : ℤ) : Bool := 48 ≤ x ∧ x ≤ 340 ∧ y0 ≤ y ∧ y ≤ y1

/-- The field of the account screen at a place, or -1. -/
def accountFieldHit (x y : ℤ) : ℤ :=
  if x < 32 ∨ 567 < x ∨ y < fieldTop ∨ fieldTop + 4 * fieldH ≤ y then -1
  else (y - fieldTop).tdiv fieldH

def accountSubmitHit (x y : ℤ) : Bool := 72 ≤ x ∧ x ≤ 527 ∧ 398 ≤ y ∧ y ≤ 456

/-- The left edge and the width of a key. -/
def keyboardGeometry (field : TextInput) (row column : ℕ) : Option (ℤ × ℤ) :=
  if row ≤ 1 ∨ field.symbols ∧ row ≤ 3 then some (20 + column * 56, 51)
  else if row = 2 then some (48 + column * 56, 51)
  else if row = 3 then
    if column = 0 then some (20, 71)
    else if column ≤ 7 then some (98 + (column - 1) * 56, 51)
    else if column = 8 then some (492, 83)
    else none
  else [(20, 71), (98, 51), (156, 73), (236, 127), (370, 73), (450, 51), (508, 71)][column]?

/-- A key at a place. -/
def keyHit (field : TextInput) (x y : ℤ) (row column : ℕ) : Bool :=
  match keyboardGeometry field row column, field.keyAt row column with
  | some (left, width), some _ =>
    left ≤ x ∧ x ≤ left + width ∧ keyboardTop + row * 54 ≤ y ∧ y ≤ keyboardTop + row * 54 + 48
  | _, _ => false

/-- `account_keyboard_hit`. -/
def keyboardHit (field : TextInput) (x y : ℤ) : Option (ℕ × ℕ) :=
  ((List.range TextInput.keyRows).flatMap fun row =>
    (List.range TextInput.keyColumns).map fun column => (row, column)).find?
    fun key => keyHit field x y key.1 key.2

/-! ## The account screen -/

def passwordMax : ℕ := 1024

/-- The fields as they are first: four empty buffers, the cursor of the last one fixed. -/
def blankFields : Fin 4 → TextInput
  | 0 => .init (List.replicate SettingsStore.kosyncUrlCapacity 0)
  | 1 => .init (List.replicate SettingsStore.deviceNameCapacity 0)
  | 2 => .init (List.replicate (CredentialStore.usernameMax + 1) 0)
  | 3 => (TextInput.init (List.replicate (passwordMax + 1) 0)).setCursorEnabled false

/-- `cn_ui_init`. -/
def init : CnUi R where
  state := .home
  page := 1
  markX := -1
  markY := -1
  lib := none
  sel := 0
  top := 0
  reader := none
  syncModal := .none
  syncSelection := 0
  syncAction := .none
  syncFeedback := .working
  powerPressMs := -1
  exitRequested := false
  accountPasswordLength := 0
  accountFields := blankFields
  accountFocus := 0
  accountEditing := false
  accountKeyboardActive := false
  accountCorrectionConfirm := 0
  accountMessage := 0
  accountActionFocus := 0
  accountValueStart := fun _ => 0
  accountValueStopX := fun _ => []
  accountLocalState := .unknown
  accountStatus := .other
  accountAction := .none

/-- The password field after `account_wipe`. -/
def wipedField (field : TextInput) : TextInput :=
  { field with bytes := List.replicate (passwordMax + 1) 0, length := 0, cursor := 0 }

/-- `account_wipe`. -/
def accountWipe (ui : CnUi R) : CnUi R :=
  { ui with
    accountFields := Function.update ui.accountFields 3 (wipedField (ui.accountFields 3))
    accountPasswordLength := 0 }

/-- `account_submit`. -/
def accountSubmit (ui : CnUi R) : CnUi R :=
  let ui := { ui with accountKeyboardActive := false }
  if ui.accountCorrectionConfirm = 1 then
    { ui with accountCorrectionConfirm := 2, accountMessage := 19 }
  else
    { ui with
      accountAction := if ui.accountCorrectionConfirm = 2 then .replaceDisabled
        else .submitNewOrResume
      accountMessage := 14 }

/-- `account_option_kind`. -/
inductive OptionKind
  | back
  | recheck
  | activate
  | correct
  deriving DecidableEq, Repr

/-- `account_options`. -/
def accountOptions (ui : CnUi R) : List OptionKind :=
  match ui.accountLocalState with
  | .enabled => [.back]
  | .completeDisabled =>
    match ui.accountStatus with
    | .precondition => [.activate, .correct]
    | .authRejected => [.correct, .back]
    | .infrastructureFailed => [.activate, .back]
    | _ => [.recheck, .back]
  | _ => [.recheck, .back]

/-- A place in the box of an option. -/
def optionHit (count option : ℕ) (x y : ℤ) : Bool :=
  let x0 := if option = 0 then 32 else 316
  let x1 := if option = 0 then 284 else 568
  let y0 := if count = 1 then 600 else 190
  let y1 := if count = 1 then 662 else 252
  x0 ≤ x ∧ x ≤ x1 ∧ y0 ≤ y ∧ y ≤ y1

/-- `account_leave`. -/
def accountLeave (ui : CnUi R) : CnUi R :=
  { ui.accountWipe with
    accountEditing := false
    accountKeyboardActive := false
    accountCorrectionConfirm := 0
    state := .home }

/-- `account_execute_option`. -/
def accountExecuteOption (ui : CnUi R) : OptionKind → CnUi R
  | .back => ui.accountLeave
  | .recheck => { ui with accountAction := .recheck, accountMessage := 14 }
  | .activate => { ui with accountAction := .activateExisting, accountMessage := 14 }
  | .correct =>
    { ui with
      accountFields := blankFields
      accountPasswordLength := 0
      accountEditing := true
      accountKeyboardActive := false
      accountCorrectionConfirm := 1
      accountFocus := 0 }

/-- The field of the account screen in focus. There is none while the focus is on the button. -/
def focusedField (ui : CnUi R) : Option (Fin 4) :=
  if h : 0 ≤ ui.accountFocus ∧ ui.accountFocus < 4 then some ⟨ui.accountFocus.toNat, by omega⟩
  else none

/-- `account_activate_key`, of the field `i`. -/
def accountActivateKey (ui : CnUi R) (i : Fin 4) : CnUi R :=
  let (field, result) := (ui.accountFields i).activate
  let ui := { ui with
    accountFields := Function.update ui.accountFields i field
    accountPasswordLength := if i = 3 then field.length else ui.accountPasswordLength }
  match result with
  | .full => { ui with accountMessage := 17 }
  | .invalid => { ui with accountMessage := 18 }
  | .done => { ui with accountKeyboardActive := false }
  | _ => ui

/-- The index of the stop that is nearest to `x`, the first of them. -/
def nearestStop (x : ℤ) (stops : List ℤ) : ℕ :=
  stops.findIdx fun stop => stops.all fun other => (x - stop).natAbs ≤ (x - other).natAbs

/-- `account_place_cursor`. -/
def accountPlaceCursor (ui : CnUi R) (i : Fin 3) (x : ℤ) : CnUi R :=
  if ui.accountValueStopX i = [] then ui
  else
    let cursor := ui.accountValueStart i + nearestStop x (ui.accountValueStopX i)
    { ui with
      accountFields := Function.update ui.accountFields i.castSucc
        ((ui.accountFields i.castSucc).setCursor cursor) }

/-- A touch on the field `index` of the account screen. -/
def touchField (ui : CnUi R) (index : ℤ) (ev : InputEv) : CnUi R :=
  let ui := { ui with accountFocus := index }
  if h : 0 ≤ index ∧ index < 3 ∧ fieldTop + index * fieldH + 24 ≤ ev.y ∧
      ev.y ≤ fieldTop + index * fieldH + 62 then
    ui.accountPlaceCursor ⟨index.toNat, by omega⟩ ev.x
  else ui

/-- A touch on a key of the keyboard, selected and activated. -/
def touchKey (ui : CnUi R) (i : Fin 4) (row column : ℕ) : CnUi R :=
  { ui with
    accountFields := Function.update ui.accountFields i
      ((ui.accountFields i).select row column) }.accountActivateKey i

/-- The key of the keyboard that an event touches, with the field that it is for. -/
def touchedKey (ui : CnUi R) (ev : InputEv) : Option (Fin 4 × ℕ × ℕ) :=
  ui.focusedField.bind fun i =>
    (keyboardHit (ui.accountFields i) ev.x ev.y).map fun key => (i, key)

/-- The field in focus changed. -/
def updateFocused (ui : CnUi R) (f : TextInput → TextInput) : CnUi R :=
  match ui.focusedField with
  | none => ui
  | some i =>
    { ui with accountFields := Function.update ui.accountFields i (f (ui.accountFields i)) }

/-- `cn_ui_handle` on the account screen, with the keyboard active. -/
def handleKeyboard (ui : CnUi R) (ev : InputEv) : CnUi R × Bool :=
  match ev.type with
  | .pageNext => (ui.updateFocused (·.move true), true)
  | .pagePrev => (ui.updateFocused (·.move false), true)
  | .menu =>
    match ui.focusedField with
    | none => (ui, true)
    | some i => (ui.accountActivateKey i, true)
  | .touchUp =>
    -- any touch ends the use of the keyboard by keys, also one on the keyboard itself
    let ui := { ui with accountKeyboardActive := false }
    match ui.touchedKey ev with
    | some (i, row, column) => (ui.touchKey i row column, true)
    | none =>
      if 0 ≤ accountFieldHit ev.x ev.y then (ui.touchField (accountFieldHit ev.x ev.y) ev, true)
      else if accountSubmitHit ev.x ev.y then (ui.accountSubmit, true)
      else (ui, true)
  | _ => (ui, false)

/-- `cn_ui_handle` on the account screen, in the form. -/
def handleForm (ui : CnUi R) (ev : InputEv) : CnUi R × Bool :=
  match ev.type with
  | .pageNext => ({ ui with accountFocus := (ui.accountFocus + 1 + 5).tmod 5 }, true)
  | .pagePrev => ({ ui with accountFocus := (ui.accountFocus + -1 + 5).tmod 5 }, true)
  | .menu =>
    if ui.accountFocus = 4 then (ui.accountSubmit, true)
    else ({ ui with accountKeyboardActive := true }, true)
  | .touchUp =>
    if 0 ≤ accountFieldHit ev.x ev.y then (ui.touchField (accountFieldHit ev.x ev.y) ev, true)
    else
      match ui.touchedKey ev with
      | some (i, row, column) => (ui.touchKey i row column, true)
      | none => if accountSubmitHit ev.x ev.y then (ui.accountSubmit, true) else (ui, false)
  | _ => (ui, false)

/-- `cn_ui_handle` on the account screen, with a choice of options. -/
def handleOptions (ui : CnUi R) (ev : InputEv) : CnUi R × Bool :=
  let options := ui.accountOptions
  let count : ℤ := options.length
  -- the options may have become fewer since the focus was set
  let ui := { ui with
    accountActionFocus := if count ≤ ui.accountActionFocus then count - 1
      else ui.accountActionFocus }
  match ev.type with
  | .pageNext =>
    -- the focus goes round, with the remainder of C
    ({ ui with accountActionFocus := (ui.accountActionFocus + 1 + count).tmod count }, true)
  | .pagePrev =>
    ({ ui with accountActionFocus := (ui.accountActionFocus + -1 + count).tmod count }, true)
  | .menu =>
    match options[ui.accountActionFocus.toNat]? with
    | none => (ui, true)
    | some kind => (ui.accountExecuteOption kind, true)
  | .touchUp =>
    match (List.range options.length).find? fun i => optionHit options.length i ev.x ev.y with
    | none => (ui, false)
    | some i =>
      let ui := { ui with accountActionFocus := i }
      match options[i]? with
      | none => (ui, true)
      | some kind => (ui.accountExecuteOption kind, true)
  | _ => (ui, false)

/-- `cn_ui_handle` on the account screen. -/
def handleAccount (ui : CnUi R) (ev : InputEv) : CnUi R × Bool :=
  if ev.type = .back then
    if ui.accountKeyboardActive then ({ ui with accountKeyboardActive := false }, true)
    else (ui.accountLeave, true)
  else if ev.type = .home then (ui.accountLeave, true)
  else if ui.accountAction ≠ .none then (ui, false)
  else if ui.accountKeyboardActive then ui.handleKeyboard ev
  else if ui.accountEditing then ui.handleForm ev
  else ui.handleOptions ev

/-! ## The overlay of a conflict -/

/-- `cn_ui_handle` under the overlay. -/
def handleModal (ui : CnUi R) (ev : InputEv) : CnUi R × Bool :=
  -- closing the choices cancels, closing the feedback does not
  if ev.type = .back ∨ ev.type = .home then
    ({ ui with
      syncAction := if ui.syncModal = .choices then .cancel else ui.syncAction
      syncModal := .none }, true)
  else if ui.syncModal = .feedback then (ui, false)
  else if ev.type = .pageNext ∧ ui.syncSelection < 2 then
    ({ ui with syncSelection := ui.syncSelection + 1 }, true)
  else if ev.type = .pagePrev ∧ 0 < ui.syncSelection then
    ({ ui with syncSelection := ui.syncSelection - 1 }, true)
  else if ev.type = .touchUp ∧ 32 ≤ ev.x ∧ ev.x < 600 - 32 ∧ syncRowTop ≤ ev.y ∧
      ev.y < syncRowTop + 3 * syncRowH then
    -- a touch only selects, the menu key confirms
    let selected := (ev.y - syncRowTop).tdiv syncRowH
    if selected ≠ ui.syncSelection then ({ ui with syncSelection := selected }, true)
    else (ui, false)
  else if ev.type = .menu then
    if ui.syncSelection = 0 then
      ({ ui with syncAction := .useLocal, syncModal := .feedback, syncFeedback := .working }, true)
    else if ui.syncSelection = 1 then
      ({ ui with syncAction := .useRemote, syncModal := .feedback, syncFeedback := .working }, true)
    else ({ ui with syncAction := .cancel, syncModal := .none }, true)
  else (ui, false)

/-! ## The other screens -/

/-- `lib_down`. -/
def libDown (ui : CnUi R) : CnUi R :=
  match ui.lib with
  | none => ui
  | some lib =>
    if lib.count = 0 ∨ lib.count - 1 ≤ ui.sel then ui
    else
      let sel := ui.sel + 1
      if libRows ≤ sel - ui.top then
        let top := if lib.count - libRows < sel then lib.count - libRows else sel
        { ui with sel, top := if top < 0 then 0 else top }
      else { ui with sel }

/-- `lib_up`. -/
def libUp (ui : CnUi R) : CnUi R :=
  match ui.lib with
  | none => ui
  | some lib =>
    if lib.count = 0 ∨ ui.sel ≤ 0 then ui
    else
      let sel := ui.sel - 1
      { ui with sel, top := if sel < ui.top then sel else ui.top }

/-- A page turned by `turn`, if a book is open. -/
def turnPage (ops : ReaderOps R P) (turn : R → R × ℤ) (ui : CnUi R) : CnUi R × Bool :=
  match ui.reader with
  | none => (ui, false)
  | some r =>
    if ops.isOpen r then ({ ui with reader := some (turn r).1 }, (turn r).2 ≠ ops.page r)
    else (ui, false)

/-- The account screen entered. -/
def enterAccount (ui : CnUi R) : CnUi R :=
  { ui with state := .accountSetup, accountAction := .inspect, accountMessage := 14 }

/-- A touch on the home screen. -/
def touchHome (ui : CnUi R) (ev : InputEv) : CnUi R × Bool :=
  if btnHit ev.x ev.y 210 252 then ({ ui with state := .readerTest }, true)
  else if ui.lib ≠ none ∧ btnHit ev.x ev.y 300 342 then
    ({ ui with state := .library, sel := 0, top := 0 }, true)
  else if btnHit ev.x ev.y 420 464 then (ui.enterAccount, true)
  else (ui, false)

/-- The selected book activated. -/
def activateBook (ops : ReaderOps R P) (ui : CnUi R) (book : Book) : CnUi R :=
  match ui.reader with
  | none => { ui with state := .selectedBook }
  | some r =>
    if book.format = .epub then
      { ui with
        reader := some (ops.openBook r book.path).1
        state := if (ops.openBook r book.path).2 then .reader else .selectedBook }
    else { ui with state := .selectedBook }

/-- A touch on the list of books. -/
def touchLibrary (ops : ReaderOps R P) (ui : CnUi R) (ev : InputEv) : CnUi R × Bool :=
  let r := (ev.y - libRowTop).tdiv libRowH
  if libRowTop ≤ ev.y ∧ 0 ≤ r ∧ r < libRows then
    let idx := ui.top + r
    match ui.lib with
    | none => (ui, false)
    | some lib =>
      if idx < lib.count then
        if idx = ui.sel then
          match lib.books[idx.toNat]? with
          | none => (ui, true)
          | some book => (ui.activateBook ops book, true)
        else ({ ui with sel := idx }, true)
      else (ui, false)
  else (ui, false)

/-- The marker of a touch. -/
def markAt (ui : CnUi R) (x y : ℤ) : CnUi R × Bool :=
  if x = ui.markX ∧ y = ui.markY then (ui, false) else ({ ui with markX := x, markY := y }, true)

/-- The release of the power button at `now`. -/
def powerUp (ui : CnUi R) (now : ℤ) : CnUi R :=
  if 0 ≤ ui.powerPressMs then
    let dur := if now - ui.powerPressMs < 0 then 0 else now - ui.powerPressMs
    let ui := { ui with exitRequested := ui.exitRequested || decide (powerLongMs ≤ dur) }
    let ui := if ui.exitRequested ∧ ui.state = .accountSetup then ui.accountWipe else ui
    { ui with powerPressMs := -1 }
  else ui

/-- `cn_ui_handle` on the other screens; `now` is the time that the clock tells. -/
def handleScreen (ops : ReaderOps R P) (ui : CnUi R) (ev : InputEv) (now : ℤ) : CnUi R × Bool :=
  match ev.type with
  | .pageNext =>
    match ui.state with
    | .reader => ui.turnPage ops ops.next
    | .library => (ui.libDown, true)
    | .home => ({ ui with state := .readerTest, page := ui.page + 1 }, true)
    | .readerTest => ({ ui with page := ui.page + 1 }, true)
    | _ => (ui, false)
  | .pagePrev =>
    match ui.state with
    | .reader => ui.turnPage ops ops.prev
    | .readerTest => ({ ui with page := if 1 < ui.page then ui.page - 1 else ui.page }, true)
    | .library => (ui.libUp, true)
    | _ => (ui, false)
  | .menu =>
    match ui.state with
    -- the key asks for a synchronization in the Reader, and for the account at home
    | .reader => ({ ui with syncAction := .manual }, false)
    | .home => (ui.enterAccount, true)
    | _ => (ui, false)
  | .back =>
    match ui.state with
    -- leaving the Reader closes the book
    | .reader => ({ ui with reader := ui.reader.map ops.close, state := .library }, true)
    | .selectedBook => ({ ui with state := .library }, true)
    | .home => (ui, false)
    | _ => ({ ui with state := .home }, true)
  | .home =>
    match ui.state with
    | .reader => ({ ui with reader := ui.reader.map ops.close, state := .home }, true)
    | .home => (ui, false)
    | _ => ({ ui with state := .home }, true)
  -- the power key alone does not draw anything
  | .powerDown => ({ ui with powerPressMs := now }, false)
  | .powerUp => (ui.powerUp now, false)
  | .touchUp =>
    -- in the Reader no mark is shown where the screen was touched
    let (ui, marked) := if ui.state ≠ .reader then ui.markAt ev.x ev.y else (ui, false)
    match ui.state with
    | .home => ((ui.touchHome ev).1, marked || (ui.touchHome ev).2)
    | .library => ((ui.touchLibrary ops ev).1, marked || (ui.touchLibrary ops ev).2)
    | _ => (ui, marked)
  | _ => (ui, false)

/-- `cn_ui_handle`: the screen after an event, and whether to draw it again. -/
def handle (ops : ReaderOps R P) (ui : CnUi R) (ev : InputEv) (now : ℤ) : CnUi R × Bool :=
  if ui.state = .accountSetup ∧ ev.type ≠ .powerDown ∧ ev.type ≠ .powerUp then
    ui.handleAccount ev
  else if ui.state = .reader ∧ ui.syncModal ≠ .none ∧ ev.type ≠ .powerDown ∧
      ev.type ≠ .powerUp then
    ui.handleModal ev
  else ui.handleScreen ops ev now

/-! ## The calls of the application -/

/-- `cn_ui_account_take_action`. -/
def accountTakeAction (ui : CnUi R) : AccountAction × CnUi R :=
  (ui.accountAction, { ui with accountAction := .none })

/-- `cn_ui_account_input`. -/
structure AccountInput where
  baseUrl : List UInt8
  deviceName : List UInt8
  username : List UInt8
  password : List UInt8

/-- The text of a field, as a C string. -/
def fieldText (field : TextInput) : List UInt8 := field.bytes.takeWhile fun b => b ≠ 0

/-- `cn_ui_account_get_input`. -/
def accountGetInput (ui : CnUi R) : Option AccountInput :=
  if ui.state ≠ .accountSetup then none
  else some {
    baseUrl := fieldText (ui.accountFields 0)
    deviceName := fieldText (ui.accountFields 1)
    username := fieldText (ui.accountFields 2)
    password := (ui.accountFields 3).bytes.take ui.accountPasswordLength }

/-- A field with a text put into its buffer, if it fits. -/
def prefill (field : TextInput) (text : Option (List UInt8)) : TextInput :=
  match text with
  | none => field
  | some text =>
    if text.length < field.bytes.length then
      { field with
        bytes := text ++ 0 :: field.bytes.drop (text.length + 1)
        length := text.length
        cursor := text.length }
    else field

/-- `cn_ui_account_prefill`. -/
def accountPrefill (ui : CnUi R) (url device : Option (List UInt8)) : CnUi R :=
  if ui.state ≠ .accountSetup then ui
  else
    { ui with
      accountFields := Function.update
        (Function.update ui.accountFields 0 (prefill (ui.accountFields 0) url)) 1
        (prefill (ui.accountFields 1) device) }

/-- The results of a save whose durability is not known. -/
abbrev Uncertain (status : AccountResult) : Prop :=
  status = .bootstrapUncertain ∨ status = .identityUncertain ∨ status = .activationUncertain

/-- The message for what the storage holds. -/
def localMessage : AccountLocal → ℕ
  | .noAccount => 1
  | .partialDisabled => 2
  | .completeDisabled => 4
  | .enabled => 5
  | .orphanCredentials => 3
  | .corrupt => 6
  | .unreadable => 7
  | .unknown => 11

/-- The message for a result. -/
def resultMessage (localState : AccountLocal) : AccountResult → ℕ
  | .activated => 15
  | .alreadyEnabled => 16
  | .authRejected => 8
  | .infrastructureFailed => 9
  | .bootstrapUncertain => 10
  | .identityUncertain => 10
  | .activationUncertain => 10
  | .profileUnavailable => 12
  | .corrupt => 6
  | .incomplete => if localState = .orphanCredentials then 3 else 2
  | .invalidInput => 13
  | .precondition =>
    match localState with
    | .completeDisabled => 4
    | .noAccount => 1
    | .partialDisabled => 2
    | _ => 11
  | .bootstrapFailed => 11
  | .identityFailed => 11
  | .saveFailed => 11
  | .activationFailed => 11
  | .other => localMessage localState

/-- What a result says of the storage. -/
def resultLocal (status : AccountResult) (localState : AccountLocal) : AccountLocal :=
  if status = .activated ∨ status = .alreadyEnabled ∨ status = .profileUnavailable then .enabled
  else localState

/-- `cn_ui_account_set_result`. -/
def accountSetResult (ui : CnUi R) (status : AccountResult) (localState : AccountLocal) : CnUi R :=
  let correcting := ui.accountCorrectionConfirm ≠ 0
  let shown := resultLocal status localState
  let wiped := if status = .other then ui else ui.accountWipe
  let editing := shown = .noAccount ∨ shown = .partialDisabled
  let restart := status = .invalidInput ∧ correcting ∧ shown = .completeDisabled
  { wiped with
    accountKeyboardActive := false
    accountStatus := status
    accountLocalState := shown
    accountActionFocus := 0
    accountCorrectionConfirm := if restart then 1 else 0
    accountMessage := resultMessage localState status
    accountEditing := decide ((editing ∨ restart) ∧ ¬ Uncertain status) }

/-- `cn_ui_set_library`. -/
def setLibrary (ui : CnUi R) (lib : Option Library) : CnUi R :=
  { ui with syncModal := .none, syncAction := .none, lib := lib, sel := 0, top := 0 }

/-- `cn_ui_set_reader`, where `created` is what `cn_reader_new` answers. -/
def setReader (ui : CnUi R) (created : Option R) : CnUi R :=
  { ui with syncModal := .none, syncAction := .none, reader := created }

/-- The reader shows a book. -/
def bookShown (ops : ReaderOps R P) (ui : CnUi R) : Bool :=
  ui.state = .reader ∧ ui.reader.any ops.isOpen

/-- `cn_ui_show_sync_conflict`, and whether it is shown. -/
def showSyncConflict (ops : ReaderOps R P) (ui : CnUi R) : CnUi R × Bool :=
  if ui.bookShown ops then
    ({ ui with syncAction := .none, syncModal := .choices, syncSelection := 2 }, true)
  else (ui, false)

/-- `cn_ui_show_sync_feedback`. -/
def showSyncFeedback (ops : ReaderOps R P) (ui : CnUi R) (feedback : SyncFeedback) : CnUi R × Bool :=
  if ui.bookShown ops then
    ({ ui with syncModal := .feedback, syncAction := .none, syncFeedback := feedback }, true)
  else (ui, false)

/-- `cn_ui_take_sync_action`. -/
def takeSyncAction (ui : CnUi R) : SyncAction × CnUi R :=
  (ui.syncAction, { ui with syncAction := .none })

/-- `cn_ui_reader_goto_position`. -/
def readerGotoPosition (ops : ReaderOps R P) (ui : CnUi R) (position : P) : CnUi R :=
  { ui with reader := ui.reader.map fun r => ops.gotoPosition r position }

/-! ## What rendering keeps of the values -/

section Window

variable (width : ℕ → ℤ)

/-- The start of a window moved to the left while the text fits. -/
def growLeft (room : ℕ → Bool) (bound : ℤ) : ℕ → ℤ → ℕ × ℤ
  | 0, used => (0, used)
  | start + 1, used =>
    if room (start + 1) = false ∨ bound < used + width start then (start + 1, used)
    else growLeft room bound start (used + width start)

/-- The end of a window moved to the right over the bytes left. -/
def growRight (start : ℕ) (bound : ℤ) : ℕ → ℕ → ℤ → ℕ × ℤ
  | 0, last, used => (last, used)
  | left + 1, last, used =>
    if 127 ≤ last - start ∨ bound < used + width last then (last, used)
    else growRight start bound left (last + 1) (used + width last)

/-- `account_value_window`: the window of a value that is drawn, and the places of its stops. -/
def valueWindow (field : TextInput) (x0 x1 : ℤ) : ℕ × List ℤ :=
  let available := x1 - x0 - 3
  let (start, used) := growLeft width (fun start => decide (field.cursor - start < 127))
    ((available * 2).tdiv 3) field.cursor 0
  let (last, used) := growRight width start available (field.length - field.cursor) field.cursor
    used
  let (start, _) := growLeft width (fun start => decide (last - start < 127)) available start used
  (start, (List.range' start (last - start)).scanl (fun x i => x + width i) x0)

end Window

/-- `cn_ui_render`, as far as it changes the state: the windows of the values of the form, where
`measure` tells the widths. -/
def render (measure : UInt8 → ℤ) (ui : CnUi R) : CnUi R :=
  if ui.state = .accountSetup ∧ ui.accountEditing then
    let window (i : Fin 3) :=
      valueWindow (fun n => max 1 (measure ((ui.accountFields i.castSucc).bytes.getD n 0)))
        (ui.accountFields i.castSucc) (32 + 12) 567
    { ui with
      accountValueStart := fun i => (window i).1
      accountValueStopX := fun i => (window i).2 }
  else ui

/-! ## Runs -/

/-- An event, or a call of the application that changes the state. -/
inductive Call (R P : Type)
  | handle (ev : InputEv) (now : ℤ)
  | takeSyncAction
  | accountTakeAction
  | accountSetResult (status : AccountResult) (localState : AccountLocal)
  | accountClearPassword
  | accountPrefill (url device : Option (List UInt8))
  | setLibrary (lib : Option Library)
  | setReader (created : Option R)
  | showSyncConflict
  | showSyncFeedback (feedback : SyncFeedback)
  | readerGotoPosition (position : P)
  | render (measure : UInt8 → ℤ)

/-- The state after a call. -/
def step (ops : ReaderOps R P) (ui : CnUi R) : Call R P → CnUi R
  | .handle ev now => (ui.handle ops ev now).1
  | .takeSyncAction => ui.takeSyncAction.2
  | .accountTakeAction => ui.accountTakeAction.2
  | .accountSetResult status localState => ui.accountSetResult status localState
  | .accountClearPassword => ui.accountWipe
  | .accountPrefill url device => ui.accountPrefill url device
  | .setLibrary lib => ui.setLibrary lib
  | .setReader created => ui.setReader created
  | .showSyncConflict => (ui.showSyncConflict ops).1
  | .showSyncFeedback feedback => (ui.showSyncFeedback ops feedback).1
  | .readerGotoPosition position => ui.readerGotoPosition ops position
  | .render measure => ui.render measure

/-- The state after calls, from the one that `cn_ui_init` makes. -/
def run (ops : ReaderOps R P) (calls : List (Call R P)) : CnUi R := calls.foldl (step ops) init

@[simp] theorem run_nil (ops : ReaderOps R P) : run ops [] = init := rfl

@[simp] theorem run_append_singleton (ops : ReaderOps R P) (calls : List (Call R P))
    (call : Call R P) : run ops (calls ++ [call]) = step ops (run ops calls) call := by
  rw [run, List.foldl_append]
  rfl

/-- **The invariants of a run**: what holds first and is kept by every call holds throughout. -/
theorem run_induction {ops : ReaderOps R P} {Inv : CnUi R → Prop} (hinit : Inv init)
    (hstep : ∀ ui call, Inv ui → Inv (step ops ui call)) (calls : List (Call R P)) :
    Inv (run ops calls) := by
  induction calls using List.reverseRecOn with
  | nil => exact hinit
  | append_singleton calls call ih =>
    rw [run_append_singleton]
    exact hstep _ call ih

end CnUi
