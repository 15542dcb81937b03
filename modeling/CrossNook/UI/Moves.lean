import CrossNook.UI.Ui

/-!
# What an event does

The events of the user interface by their effect: what each can change, and under which conditions
it changes anything. The invariants of the screens are derived from this.

## Main definitions

* `CnUi.Submits`, `CnUi.Corrects`: the events that activate the form's button and the correction
* `CnUi.Move`: the effects of an event

## Main results

* `CnUi.handle_move`: every event has one of these effects
-/

namespace CnUi

variable {R P : Type} {ops : ReaderOps R P} {ui : CnUi R} {ev : InputEv}

/-- The selection lies in the library, and in view. -/
def Viewport (ui : CnUi R) : Prop :=
  ∀ lib, ui.lib = some lib → lib.count ≠ 0 →
    0 ≤ ui.top ∧ ui.top ≤ ui.sel ∧ ui.sel < lib.count ∧ ui.sel - ui.top < libRows

/-- The focus is on a field or on the button. -/
def FocusInRange (focus : ℤ) : Prop := 0 ≤ focus ∧ focus ≤ 4

/-- The event activates the button of the form. -/
def Submits (ui : CnUi R) (ev : InputEv) : Prop :=
  ui.state = .accountSetup ∧ ui.accountAction = .none ∧
    (ev.type = .menu ∧ ui.accountKeyboardActive = false ∧ ui.accountEditing = true ∧
        ui.accountFocus = 4 ∨
      ev.type = .touchUp ∧ accountSubmitHit ev.x ev.y = true ∧
        (ui.accountKeyboardActive = true ∨ ui.accountEditing = true))

/-- The option that an event activates. -/
def chosenOption (ui : CnUi R) (ev : InputEv) : Option OptionKind :=
  match ev.type with
  | .menu =>
    ui.accountOptions[(if (ui.accountOptions.length : ℤ) ≤ ui.accountActionFocus then
      (ui.accountOptions.length : ℤ) - 1 else ui.accountActionFocus).toNat]?
  | .touchUp =>
    ((List.range ui.accountOptions.length).find? fun i =>
      optionHit ui.accountOptions.length i ev.x ev.y).bind fun i => ui.accountOptions[i]?
  | _ => none

/-- The event activates an option of the account screen. -/
def Chooses (ui : CnUi R) (ev : InputEv) (kind : OptionKind) : Prop :=
  ui.state = .accountSetup ∧ ui.accountAction = .none ∧ ui.accountKeyboardActive = false ∧
    ui.accountEditing = false ∧ ui.chosenOption ev = some kind

/-- The event activates the correction of a saved account. -/
def Corrects (ui : CnUi R) (ev : InputEv) : Prop := ui.Chooses ev .correct

/-- The password field edited: what follows its text stays zero, and its length stays known. -/
structure Edits (ui : CnUi R) (fields : Fin 4 → TextInput) (length : ℕ) : Prop where
  clean : (ui.accountFields 3).Clean → (fields 3).Clean
  known : length = (fields 3).length ∨
    length = ui.accountPasswordLength ∧ (fields 3).length = (ui.accountFields 3).length

/-- **The effects of an event.** -/
inductive Move (ops : ReaderOps R P) (ui : CnUi R) (ev : InputEv) : CnUi R → Prop
  /-- Nothing but the focus on an option. -/
  | still (focus : ℤ) : Move ops ui ev { ui with accountActionFocus := focus }
  | leave (focus : ℤ) (hstate : ui.state = .accountSetup)
      (hev : ui.accountAction = .none ∨ ev.type = .home ∨
        ev.type = .back ∧ ui.accountKeyboardActive = false) :
      Move ops ui ev { ui with accountActionFocus := focus }.accountLeave
  | edit (fields : Fin 4 → TextInput) (length : ℕ) (keyboard : Bool) (focus : ℤ) (message : ℕ)
      (hstate : ui.state = .accountSetup) (hedits : ui.Edits fields length)
      (hfocus : FocusInRange ui.accountFocus → FocusInRange focus)
      (hkeyboard : keyboard = true →
        ui.accountKeyboardActive = true ∧ focus = ui.accountFocus ∨
          ui.accountEditing = true ∧ focus ≠ 4) :
      Move ops ui ev { ui with
        accountFields := fields
        accountPasswordLength := length
        accountKeyboardActive := keyboard
        accountFocus := focus
        accountMessage := message }
  | submit (hsubmits : ui.Submits ev) : Move ops ui ev ui.accountSubmit
  | request (focus : ℤ) (action : AccountAction) (hstate : ui.state = .accountSetup)
      (haction : action = .recheck ∨ action = .activateExisting) :
      Move ops ui ev { ui with
        accountActionFocus := focus, accountAction := action, accountMessage := 14 }
  | correct (focus : ℤ) (hcorrects : ui.Corrects ev) :
      Move ops ui ev ({ ui with accountActionFocus := focus }.accountExecuteOption .correct)
  | enter (x y : ℤ) (hstate : ui.state = .home) :
      Move ops ui ev { ui with markX := x, markY := y }.enterAccount
  | dismiss (hmodal : ui.state = .reader ∧ ui.syncModal ≠ .none)
      (hev : ev.type = .back ∨ ev.type = .home) :
      Move ops ui ev { ui with
        syncAction := if ui.syncModal = .choices then .cancel else ui.syncAction
        syncModal := .none }
  | select (row : ℤ) (hmodal : ui.state = .reader ∧ ui.syncModal = .choices) :
      Move ops ui ev { ui with syncSelection := row }
  | confirm (action : SyncAction) (hmodal : ui.state = .reader ∧ ui.syncModal = .choices)
      (hev : ev.type = .menu)
      (hrow : ui.syncSelection = 0 ∧ action = .useLocal ∨
        ui.syncSelection = 1 ∧ action = .useRemote) :
      Move ops ui ev { ui with
        syncAction := action, syncModal := .feedback, syncFeedback := .working }
  | cancel (hmodal : ui.state = .reader ∧ ui.syncModal = .choices) (hev : ev.type = .menu) :
      Move ops ui ev { ui with syncAction := .cancel, syncModal := .none }
  | manual (hstate : ui.state = .reader) (hmodal : ui.syncModal = .none) (hev : ev.type = .menu) :
      Move ops ui ev { ui with syncAction := .manual }
  | browse (state : UiState) (page x y sel top : ℤ) (reader : Option R)
      (hfrom : ui.state ≠ .accountSetup) (hto : state ≠ .accountSetup)
      (hmodal : ui.state = .reader → ui.syncModal = .none)
      (hleave : ui.state = .reader → state ≠ .reader → ev.type = .back ∨ ev.type = .home)
      (hview : ui.Viewport → { ui with sel := sel, top := top }.Viewport) :
      Move ops ui ev { ui with
        state := state, page := page, markX := x, markY := y, sel := sel, top := top,
        reader := reader }
  | power (pressed : ℤ) (exit : Bool) : Move ops ui ev { ui with
        powerPressMs := pressed, exitRequested := exit }
  | exit (pressed : ℤ) (exit : Bool) (hstate : ui.state = .accountSetup) :
      Move ops ui ev { ui.accountWipe with powerPressMs := pressed, exitRequested := exit }

theorem Move.refl : Move ops ui ev ui := .still ui.accountActionFocus

/-! ## The account screen -/

theorem accountFieldHit_range {x y : ℤ} (h : 0 ≤ accountFieldHit x y) :
    accountFieldHit x y ≤ 3 := by
  unfold accountFieldHit at h ⊢
  split_ifs at h ⊢ with hout
  · omega
  · simp only [fieldTop, fieldH] at hout ⊢
    simp only [not_or, not_lt, not_le] at hout
    rw [Int.tdiv_eq_ediv_of_nonneg (by omega)]
    omega

theorem clean_of_eq {field field' : TextInput} (hb : field'.bytes = field.bytes)
    (hl : field'.length = field.length) (h : field.Clean) : field'.Clean := by
  refine ⟨?_, ?_⟩
  · rw [hb, hl]
    exact h.lt
  · rw [hb, hl]
    exact h.zero

/-- One field edited, the length of the password known if it is the password. -/
theorem edits_update (ui : CnUi R) (i : Fin 4) {field : TextInput}
    (hclean : (ui.accountFields i).Clean → field.Clean) :
    ui.Edits (Function.update ui.accountFields i field)
      (if i = 3 then field.length else ui.accountPasswordLength) := by
  by_cases hi : i = 3
  · subst hi
    refine ⟨fun h => ?_, .inl ?_⟩
    · rw [Function.update_self]
      exact hclean h
    · rw [Function.update_self, if_pos rfl]
  · refine ⟨fun h => ?_, .inr ⟨?_, ?_⟩⟩
    · rwa [Function.update_of_ne (Ne.symm hi)]
    · rw [if_neg hi]
    · rw [Function.update_of_ne (Ne.symm hi)]

/-- One field edited, its length as it was. -/
theorem edits_update_of_length (ui : CnUi R) (i : Fin 4) {field : TextInput}
    (hclean : (ui.accountFields i).Clean → field.Clean)
    (hlength : field.length = (ui.accountFields i).length) :
    ui.Edits (Function.update ui.accountFields i field) ui.accountPasswordLength := by
  refine ⟨(ui.edits_update i hclean).clean, .inr ⟨rfl, ?_⟩⟩
  by_cases hi : i = 3
  · subst hi
    rw [Function.update_self, hlength]
  · rw [Function.update_of_ne (Ne.symm hi)]

theorem Edits.trans {fields fields' : Fin 4 → TextInput} {length length' : ℕ}
    (h : ui.Edits fields length)
    (h' : Edits { ui with accountFields := fields, accountPasswordLength := length } fields'
      length') : ui.Edits fields' length' := by
  refine ⟨fun hc => h'.clean (h.clean hc), ?_⟩
  rcases h'.known with hk | ⟨hk, hl⟩
  · exact .inl hk
  rcases h.known with hk' | ⟨hk', hl'⟩
  · left
    rw [hk, hl]
    exact hk'
  · exact .inr ⟨hk.trans hk', hl.trans hl'⟩

theorem edits_refl : ui.Edits ui.accountFields ui.accountPasswordLength := ⟨id, .inr ⟨rfl, rfl⟩⟩

/-- What the activation of a key changes. -/
theorem accountActivateKey_eq (ui : CnUi R) (i : Fin 4) : ∃ fields length keyboard message,
    ui.accountActivateKey i = { ui with
      accountFields := fields
      accountPasswordLength := length
      accountKeyboardActive := keyboard
      accountMessage := message } ∧
    ui.Edits fields length ∧ (keyboard = true → ui.accountKeyboardActive = true) := by
  have hedits := ui.edits_update i fun h => h.activate
  unfold accountActivateKey
  dsimp only
  split
  exacts [⟨_, _, _, 17, rfl, hedits, id⟩, ⟨_, _, _, 18, rfl, hedits, id⟩,
    ⟨_, _, false, _, rfl, hedits, fun h => absurd h (by simp)⟩, ⟨_, _, _, _, rfl, hedits, id⟩]

theorem touchKey_eq (ui : CnUi R) (i : Fin 4) (row column : ℕ) : ∃ fields length keyboard message,
    ui.touchKey i row column = { ui with
      accountFields := fields
      accountPasswordLength := length
      accountKeyboardActive := keyboard
      accountMessage := message } ∧
    ui.Edits fields length ∧ (keyboard = true → ui.accountKeyboardActive = true) := by
  have hselect : ui.Edits (Function.update ui.accountFields i
      ((ui.accountFields i).select row column)) ui.accountPasswordLength := by
    refine ui.edits_update_of_length i (fun h => h.select row column) ?_
    unfold TextInput.select
    split <;> rfl
  obtain ⟨fields, length, keyboard, message, heq, hedits, hkeyboard⟩ :=
    accountActivateKey_eq { ui with
      accountFields := Function.update ui.accountFields i
        ((ui.accountFields i).select row column) } i
  exact ⟨fields, length, keyboard, message, heq, hselect.trans hedits, hkeyboard⟩

/-- What a touch on a field changes. -/
theorem touchField_eq (ui : CnUi R) (index : ℤ) (ev : InputEv) : ∃ fields,
    ui.touchField index ev = { ui with accountFields := fields, accountFocus := index } ∧
    ui.Edits fields ui.accountPasswordLength := by
  unfold touchField
  dsimp only
  split
  · rename_i hindex
    unfold accountPlaceCursor
    split
    · exact ⟨_, rfl, edits_refl⟩
    · refine ⟨_, rfl, ?_⟩
      refine edits_update_of_length _ _ (clean_of_eq ?_ ?_) ?_ <;>
      · unfold TextInput.setCursor
        split <;> rfl
  · exact ⟨_, rfl, edits_refl⟩

/-- The field in focus changed, the length of its text as it was. -/
theorem updateFocused_move (hstate : ui.state = .accountSetup) {f : TextInput → TextInput}
    (hclean : ∀ field : TextInput, field.Clean → (f field).Clean)
    (hlength : ∀ field, (f field).length = field.length) :
    Move ops ui ev (ui.updateFocused f) := by
  unfold updateFocused
  split
  · exact .refl
  · rename_i i _
    exact .edit _ _ ui.accountKeyboardActive ui.accountFocus ui.accountMessage hstate
      (ui.edits_update_of_length i (hclean _) (hlength _)) id (fun h => .inl ⟨h, rfl⟩)

theorem length_move (field : TextInput) (forward : Bool) :
    (field.move forward).length = field.length := by
  obtain ⟨selection, hselection⟩ :=
    field.moveTries_eq forward (TextInput.keyRows * TextInput.selectionStride)
  rw [TextInput.move, hselection]

theorem handleKeyboard_move (hstate : ui.state = .accountSetup)
    (hkeyboard : ui.accountKeyboardActive = true) (haction : ui.accountAction = .none) :
    Move ops ui ev (ui.handleKeyboard ev).1 := by
  unfold handleKeyboard
  split
  · exact updateFocused_move hstate (fun _ h => h.move true) fun field => length_move field true
  · exact updateFocused_move hstate (fun _ h => h.move false) fun field => length_move field false
  · split
    · exact .refl
    · rename_i i _
      obtain ⟨fields, length, keyboard, message, heq, hedits, hkeep⟩ := ui.accountActivateKey_eq i
      rw [heq]
      exact .edit _ _ _ ui.accountFocus _ hstate hedits id fun h => .inl ⟨hkeep h, rfl⟩
  · -- a touch: on the keyboard, on a field, on the button, or beside all of them
    rename_i htype
    dsimp only
    split
    · rename_i i row column _
      obtain ⟨fields, length, keyboard, message, heq, hedits, hkeep⟩ :=
        touchKey_eq { ui with accountKeyboardActive := false } i row column
      rw [heq]
      exact .edit _ _ _ ui.accountFocus _ hstate ⟨hedits.clean, hedits.known⟩ id
        fun h => absurd (hkeep h) (by simp)
    split
    · rename_i hfield
      obtain ⟨fields, heq, hedits⟩ := touchField_eq { ui with accountKeyboardActive := false }
        (accountFieldHit ev.x ev.y) ev
      rw [heq]
      have := accountFieldHit_range hfield
      exact .edit _ _ false _ ui.accountMessage hstate ⟨hedits.clean, hedits.known⟩
        (fun _ => ⟨hfield, by omega⟩) fun h => absurd h (by simp)
    split
    · rename_i hsubmit
      exact .submit ⟨hstate, haction, .inr ⟨htype, hsubmit, .inl hkeyboard⟩⟩
    · exact .edit ui.accountFields ui.accountPasswordLength false ui.accountFocus
        ui.accountMessage hstate edits_refl id fun h => absurd h (by simp)
  · exact .refl

theorem focus_tmod {focus step : ℤ} (hstep : -1 ≤ step) (h : FocusInRange focus) :
    FocusInRange ((focus + step + 5).tmod 5) := by
  obtain ⟨h0, h4⟩ := h
  rw [Int.tmod_eq_emod_of_nonneg (by omega)]
  exact ⟨by omega, by omega⟩

theorem handleForm_move (hstate : ui.state = .accountSetup)
    (hkeyboard : ui.accountKeyboardActive = false) (hediting : ui.accountEditing = true)
    (haction : ui.accountAction = .none) : Move ops ui ev (ui.handleForm ev).1 := by
  unfold handleForm
  -- one case for each branch of the switch over the event
  split
  · exact .edit ui.accountFields ui.accountPasswordLength ui.accountKeyboardActive _
      ui.accountMessage hstate edits_refl (focus_tmod (by decide))
      fun h => absurd h (by simp [hkeyboard])
  · exact .edit ui.accountFields ui.accountPasswordLength ui.accountKeyboardActive _
      ui.accountMessage hstate edits_refl (focus_tmod (by decide))
      fun h => absurd h (by simp [hkeyboard])
  · rename_i htype
    split
    · rename_i hfocus
      exact .submit ⟨hstate, haction, .inl ⟨htype, hkeyboard, hediting, hfocus⟩⟩
    · rename_i hfocus
      exact .edit ui.accountFields ui.accountPasswordLength true ui.accountFocus
        ui.accountMessage hstate edits_refl id fun _ => .inr ⟨hediting, hfocus⟩
  · rename_i htype
    split
    · rename_i hfield
      obtain ⟨fields, heq, hedits⟩ := ui.touchField_eq (accountFieldHit ev.x ev.y) ev
      rw [heq]
      -- the touch sets the focus to the field that it hits
      have := accountFieldHit_range hfield
      exact .edit _ _ ui.accountKeyboardActive _ ui.accountMessage hstate hedits
        (fun _ => ⟨hfield, by omega⟩) fun h => absurd h (by simp [hkeyboard])
    split
    · rename_i i row column _
      obtain ⟨fields, length, keyboard, message, heq, hedits, hkeep⟩ := ui.touchKey_eq i row column
      rw [heq]
      exact .edit _ _ _ ui.accountFocus _ hstate hedits id fun h => .inl ⟨hkeep h, rfl⟩
    split
    · rename_i hsubmit
      exact .submit ⟨hstate, haction, .inr ⟨htype, hsubmit, .inr hediting⟩⟩
    · exact .refl
  · exact .refl

/-- The option that an event activates, executed. -/
theorem executeOption_move {kind : OptionKind} (focus : ℤ) (h : ui.Chooses ev kind) :
    Move ops ui ev ({ ui with accountActionFocus := focus }.accountExecuteOption kind) := by
  cases kind with
  | back => exact .leave focus h.1 (.inl h.2.1)
  | recheck => exact .request focus .recheck h.1 (.inl rfl)
  | activate => exact .request focus .activateExisting h.1 (.inr rfl)
  | correct => exact .correct focus h

theorem handleOptions_move (hstate : ui.state = .accountSetup) (haction : ui.accountAction = .none)
    (hkeyboard : ui.accountKeyboardActive = false) (hediting : ui.accountEditing = false) :
    Move ops ui ev (ui.handleOptions ev).1 := by
  -- both ways to an option, the menu key and the touch, choose it
  have hchooses : ∀ {kind : OptionKind}, ui.chosenOption ev = some kind → ui.Chooses ev kind :=
    fun h => ⟨hstate, haction, hkeyboard, hediting, h⟩
  unfold handleOptions
  dsimp only
  split
  · exact .still _
  · exact .still _
  · rename_i htype
    split
    · exact .still _
    · rename_i kind hkind
      refine executeOption_move _ (hchooses ?_)
      unfold chosenOption
      rw [htype]
      exact hkind
  · rename_i htype
    split
    · exact .still _
    · rename_i i hfind
      split
      · exact .still _
      · rename_i kind hkind
        refine executeOption_move _ (hchooses ?_)
        unfold chosenOption
        rw [htype]
        dsimp only
        rw [hfind]
        exact hkind
  · exact .still _

theorem handleAccount_move (hstate : ui.state = .accountSetup) :
    Move ops ui ev (ui.handleAccount ev).1 := by
  unfold handleAccount
  split
  · rename_i htype
    split
    · exact .edit ui.accountFields ui.accountPasswordLength false ui.accountFocus
        ui.accountMessage hstate edits_refl id fun h => absurd h (by simp)
    · rename_i hkeyboard
      exact .leave ui.accountActionFocus hstate
        (.inr (.inr ⟨htype, Bool.eq_false_of_not_eq_true hkeyboard⟩))
  split
  · rename_i htype
    exact .leave ui.accountActionFocus hstate (.inr (.inl htype))
  split
  · exact .refl
  rename_i haction
  have haction := not_not.mp haction
  split
  · rename_i hkeyboard
    exact handleKeyboard_move hstate hkeyboard haction
  rename_i hkeyboard
  have hkeyboard := Bool.eq_false_of_not_eq_true hkeyboard
  split
  · rename_i hediting
    exact handleForm_move hstate hkeyboard hediting haction
  · rename_i hediting
    exact handleOptions_move hstate haction hkeyboard (Bool.eq_false_of_not_eq_true hediting)

/-! ## The overlay -/

theorem handleModal_move (hstate : ui.state = .reader) (hmodal : ui.syncModal ≠ .none) :
    Move ops ui ev (ui.handleModal ev).1 := by
  unfold handleModal
  split
  · rename_i hev
    exact .dismiss ⟨hstate, hmodal⟩ hev
  split
  · exact .refl
  rename_i hfeedback
  -- behind the feedback only the choices are left
  have hchoices : ui.syncModal = .choices := by
    cases h : ui.syncModal with
    | none => exact absurd h hmodal
    | choices => rfl
    | feedback => exact absurd h hfeedback
  split
  · exact .select _ ⟨hstate, hchoices⟩
  split
  · exact .select _ ⟨hstate, hchoices⟩
  split
  · dsimp only
    split
    · exact .select _ ⟨hstate, hchoices⟩
    · exact .refl
  split
  · rename_i htype
    split
    · rename_i hrow
      exact .confirm .useLocal ⟨hstate, hchoices⟩ htype (.inl ⟨hrow, rfl⟩)
    split
    · rename_i hrow
      exact .confirm .useRemote ⟨hstate, hchoices⟩ htype (.inr ⟨hrow, rfl⟩)
    · exact .cancel ⟨hstate, hchoices⟩ htype
  · exact .refl

/-! ## The other screens -/

theorem libRows_eq : libRows = 14 := by decide

theorem libDown_eq (ui : CnUi R) : ∃ sel top, ui.libDown = { ui with sel := sel, top := top } ∧
    (ui.Viewport → { ui with sel := sel, top := top }.Viewport) := by
  unfold libDown
  split
  · exact ⟨ui.sel, ui.top, rfl, id⟩
  rename_i lib hlib
  split
  · exact ⟨ui.sel, ui.top, rfl, id⟩
  rename_i hmore
  simp only [not_or, not_le] at hmore
  dsimp only
  split
  · rename_i hcross
    refine ⟨_, _, rfl, fun hview lib' hlib' hcount => ?_⟩
    obtain rfl : lib = lib' := Option.some.inj (hlib.symm.trans hlib')
    obtain ⟨htop, hsel, hlt, hrows⟩ := hview lib hlib hcount
    rw [libRows_eq] at hcross hrows ⊢
    dsimp only
    split_ifs <;> omega
  · rename_i hcross
    refine ⟨_, ui.top, rfl, fun hview lib' hlib' hcount => ?_⟩
    obtain rfl : lib = lib' := Option.some.inj (hlib.symm.trans hlib')
    obtain ⟨htop, hsel, hlt, hrows⟩ := hview lib hlib hcount
    rw [libRows_eq] at hcross hrows ⊢
    dsimp only
    omega

theorem libUp_eq (ui : CnUi R) : ∃ sel top, ui.libUp = { ui with sel := sel, top := top } ∧
    (ui.Viewport → { ui with sel := sel, top := top }.Viewport) := by
  unfold libUp
  split
  · exact ⟨ui.sel, ui.top, rfl, id⟩
  rename_i lib hlib
  split
  · exact ⟨ui.sel, ui.top, rfl, id⟩
  rename_i hmore
  simp only [not_or, not_le] at hmore
  refine ⟨_, _, rfl, fun hview lib' hlib' hcount => ?_⟩
  obtain rfl : lib = lib' := Option.some.inj (hlib.symm.trans hlib')
  obtain ⟨htop, hsel, hlt, hrows⟩ := hview lib hlib hcount
  rw [libRows_eq] at hrows ⊢
  dsimp only
  split_ifs <;> omega

/-- What a screen without account and overlay may change. -/
def Browses (ui : CnUi R) (ev : InputEv) (ui' : CnUi R) : Prop :=
  ∃ (state : UiState) (page x y sel top : ℤ) (reader : Option R),
    ui' = { ui with
      state := state, page := page, markX := x, markY := y, sel := sel, top := top,
      reader := reader } ∧
    state ≠ .accountSetup ∧
    (ui.state = .reader → state ≠ .reader → ev.type = .back ∨ ev.type = .home) ∧
    (ui.Viewport → { ui with sel := sel, top := top }.Viewport)

theorem Browses.move {ui' : CnUi R} (h : ui.Browses ev ui') (hstate : ui.state ≠ .accountSetup)
    (hmodal : ui.state = .reader → ui.syncModal = .none) : Move ops ui ev ui' := by
  obtain ⟨state, page, x, y, sel, top, reader, rfl, hto, hleave, hview⟩ := h
  exact .browse state page x y sel top reader hstate hto hmodal hleave hview

/-- To another screen, the selection as it was. -/
theorem browses_to (state : UiState) (page x y : ℤ) (reader : Option R)
    (hto : state ≠ .accountSetup)
    (hleave : ui.state = .reader → state ≠ .reader → ev.type = .back ∨ ev.type = .home) :
    ui.Browses ev { ui with
      state := state, page := page, markX := x, markY := y, reader := reader } :=
  ⟨state, page, x, y, ui.sel, ui.top, reader, rfl, hto, hleave, id⟩

theorem browses_refl (hstate : ui.state ≠ .accountSetup) : ui.Browses ev ui :=
  browses_to ui.state ui.page ui.markX ui.markY ui.reader hstate fun h h' => absurd h h'

theorem turnPage_browses (turn : R → R × ℤ) (hstate : ui.state ≠ .accountSetup) :
    ui.Browses ev (ui.turnPage ops turn).1 := by
  unfold turnPage
  split
  · exact browses_refl hstate
  split
  · exact browses_to ui.state ui.page ui.markX ui.markY _ hstate fun h h' => absurd h h'
  · exact browses_refl hstate

theorem activateBook_browses (ops : ReaderOps R P) (ui : CnUi R) (book : Book)
    (hstate : ui.state = .library) : ui.Browses ev (ui.activateBook ops book) := by
  have hleave : ∀ state : UiState, ui.state = .reader → state ≠ .reader →
      ev.type = .back ∨ ev.type = .home := by
    intro state hreader
    rw [hstate] at hreader
    cases hreader
  unfold activateBook
  split
  · exact browses_to _ ui.page ui.markX ui.markY ui.reader (by decide) (hleave _)
  rename_i r _
  split
  · refine browses_to _ ui.page ui.markX ui.markY (some (ops.openBook r book.path).1) ?_ (hleave _)
    split <;> decide
  · exact browses_to _ ui.page ui.markX ui.markY ui.reader (by decide) (hleave _)

theorem touchLibrary_browses (ops : ReaderOps R P) (ui : CnUi R) (ev : InputEv)
    (hstate : ui.state = .library) :
    ui.Browses ev (ui.touchLibrary ops ev).1 := by
  have hne : ui.state ≠ .accountSetup := by
    rw [hstate]
    decide
  unfold touchLibrary
  dsimp only
  split
  · rename_i hrow
    obtain ⟨-, hr, hrows⟩ := hrow
    split
    · exact browses_refl hne
    rename_i lib hlib
    split
    · rename_i hlt
      split
      · split
        · exact browses_refl hne
        · exact activateBook_browses ops ui _ hstate
      · -- a row in view is selected
        refine ⟨ui.state, ui.page, ui.markX, ui.markY, _, ui.top, ui.reader, rfl, hne,
          fun h h' => absurd h h', fun hview lib' hlib' hcount => ?_⟩
        obtain rfl : lib = lib' := Option.some.inj (hlib.symm.trans hlib')
        obtain ⟨htop, -, -, -⟩ := hview lib hlib hcount
        exact ⟨htop, show ui.top ≤ ui.top + _ by omega, hlt, show ui.top + _ - ui.top < _ by omega⟩
    · exact browses_refl hne
  · exact browses_refl hne

theorem viewport_zero {ui' : CnUi R} (hsel : ui'.sel = 0) (htop : ui'.top = 0) : ui'.Viewport := by
  intro lib hlib hcount
  have hpos : 0 ≤ lib.count := Int.natCast_nonneg _
  rw [hsel, htop, libRows_eq]
  omega

/-- A touch on the home screen, whose marker has moved. -/
theorem touchHome_move (x y : ℤ) (hstate : ui.state = .home) :
    Move ops ui ev ({ ui with markX := x, markY := y }.touchHome ev).1 := by
  have hne : ui.state ≠ .accountSetup := by
    rw [hstate]
    decide
  have hmodal : ui.state = .reader → ui.syncModal = .none := by
    rw [hstate]
    intro h
    cases h
  have hleave : ∀ state : UiState, ui.state = .reader → state ≠ .reader →
      ev.type = .back ∨ ev.type = .home := by
    intro state hreader
    rw [hstate] at hreader
    cases hreader
  unfold touchHome
  split
  · exact (browses_to .readerTest ui.page x y ui.reader (by decide) (hleave _)).move hne hmodal
  split
  · exact .browse .library ui.page x y 0 0 ui.reader hne (by decide) hmodal (hleave _)
      fun _ => viewport_zero rfl rfl
  split
  · exact .enter x y hstate
  · exact (browses_to ui.state ui.page x y ui.reader hne (hleave _)).move hne hmodal

/-- The release of the power button wipes the account screen only where it requests the exit. -/
theorem powerUp_eq (ui : CnUi R) (now : ℤ) : ∃ pressed exit,
    ui.powerUp now = { ui with powerPressMs := pressed, exitRequested := exit } ∨
      exit = true ∧ ui.state = .accountSetup ∧
        ui.powerUp now = { ui.accountWipe with powerPressMs := pressed, exitRequested := exit } := by
  unfold powerUp
  split
  · generalize (if now - ui.powerPressMs < 0 then 0 else now - ui.powerPressMs) = dur
    by_cases hexit : (ui.exitRequested || decide (powerLongMs ≤ dur)) = true ∧
        ui.state = .accountSetup
    · simp only [if_pos hexit]
      exact ⟨-1, _, .inr ⟨hexit.1, hexit.2, rfl⟩⟩
    · simp only [if_neg hexit]
      exact ⟨-1, _, .inl rfl⟩
  · exact ⟨ui.powerPressMs, ui.exitRequested, .inl rfl⟩

theorem powerUp_move (now : ℤ) : Move ops ui ev (ui.powerUp now) := by
  obtain ⟨pressed, exit, heq | ⟨-, haccount, heq⟩⟩ := ui.powerUp_eq now
  · rw [heq]
    exact .power _ _
  · rw [heq]
    exact .exit _ _ haccount

theorem markAt_eq (ui : CnUi R) (x y : ℤ) :
    ∃ x' y', (ui.markAt x y).1 = { ui with markX := x', markY := y' } := by
  unfold markAt
  split
  · exact ⟨ui.markX, ui.markY, rfl⟩
  · exact ⟨x, y, rfl⟩

/-- The marker is set on every screen but that of the reader. -/
theorem marked_eq (ui : CnUi R) (ev : InputEv) : ∃ x y,
    (if ui.state ≠ .reader then ui.markAt ev.x ev.y else (ui, false)).1 =
      { ui with markX := x, markY := y } := by
  split
  · exact ui.markAt_eq ev.x ev.y
  · exact ⟨ui.markX, ui.markY, rfl⟩

/-- A touch on a screen without account and overlay. -/
theorem touch_move (now : ℤ) (htype : ev.type = .touchUp) (hstate : ui.state ≠ .accountSetup)
    (hmodal : ui.state = .reader → ui.syncModal = .none) :
    Move ops ui ev (ui.handleScreen ops ev now).1 := by
  unfold handleScreen
  rw [htype]
  dsimp only
  by_cases hreader : ui.state ≠ .reader
  · rw [if_pos hreader]
    obtain ⟨x, y, hmark⟩ := ui.markAt_eq ev.x ev.y
    rw [hmark]
    dsimp only
    split
    · rename_i hhome
      exact touchHome_move x y hhome
    · rename_i hlibrary
      obtain ⟨state, page, x', y', sel, top, reader, heq, hto, hleave, hview⟩ :=
        touchLibrary_browses ops { ui with markX := x, markY := y } ev hlibrary
      rw [heq]
      exact .browse state page x' y' sel top reader hstate hto hmodal hleave hview
    · exact (browses_to ui.state ui.page x y ui.reader hstate fun h h' => absurd h h').move
        hstate hmodal
  · rw [if_neg hreader]
    rw [not_not] at hreader
    dsimp only
    rw [hreader]
    exact .refl

theorem handleScreen_move (now : ℤ)
    (hstate : ui.state = .accountSetup → ev.type = .powerDown ∨ ev.type = .powerUp)
    (hmodal : ui.state = .reader → ui.syncModal = .none ∨ ev.type = .powerDown ∨
      ev.type = .powerUp) : Move ops ui ev (ui.handleScreen ops ev now).1 := by
  -- the power button is the only event on the account screen and under the overlay
  by_cases hpower : ev.type = .powerDown ∨ ev.type = .powerUp
  · unfold handleScreen
    rcases hpower with htype | htype
    · rw [htype]
      exact .power now ui.exitRequested
    · rw [htype]
      exact powerUp_move now
  have hstate : ui.state ≠ .accountSetup := fun h => hpower (hstate h)
  have hmodal : ui.state = .reader → ui.syncModal = .none := fun h =>
    (hmodal h).resolve_right hpower
  rw [not_or] at hpower
  have hstay : ∀ {ui' : CnUi R}, ui.Browses ev ui' → Move ops ui ev ui' :=
    fun h => h.move hstate hmodal
  by_cases htouch : ev.type = .touchUp
  · exact touch_move now htouch hstate hmodal
  unfold handleScreen
  split
  · -- the page button forward
    split
    · exact hstay (turnPage_browses ops.next hstate)
    · obtain ⟨sel, top, heq, hview⟩ := ui.libDown_eq
      rw [heq]
      exact .browse ui.state ui.page ui.markX ui.markY sel top ui.reader hstate hstate hmodal
        (fun h h' => absurd h h') hview
    · rename_i hhome
      refine hstay (browses_to .readerTest _ ui.markX ui.markY ui.reader (by decide) ?_)
      intro h
      rw [hhome] at h
      cases h
    · exact hstay (browses_to ui.state _ ui.markX ui.markY ui.reader hstate
        fun h h' => absurd h h')
    · exact .refl
  · -- the page button back
    split
    · exact hstay (turnPage_browses ops.prev hstate)
    · exact hstay (browses_to ui.state _ ui.markX ui.markY ui.reader hstate
        fun h h' => absurd h h')
    · obtain ⟨sel, top, heq, hview⟩ := ui.libUp_eq
      rw [heq]
      exact .browse ui.state ui.page ui.markX ui.markY sel top ui.reader hstate hstate hmodal
        (fun h h' => absurd h h') hview
    · exact .refl
  · -- the menu button
    rename_i htype
    split
    · rename_i hreader
      exact .manual hreader (hmodal hreader) htype
    · rename_i hhome
      exact .enter ui.markX ui.markY hhome
    · exact .refl
  · -- back
    rename_i htype
    split
    · exact hstay (browses_to .library ui.page ui.markX ui.markY _ (by decide)
        fun _ _ => .inl htype)
    · exact hstay (browses_to .library ui.page ui.markX ui.markY ui.reader (by decide)
        fun _ _ => .inl htype)
    · exact .refl
    · exact hstay (browses_to .home ui.page ui.markX ui.markY ui.reader (by decide)
        fun _ _ => .inl htype)
  · -- home
    rename_i htype
    split
    · exact hstay (browses_to .home ui.page ui.markX ui.markY _ (by decide)
        fun _ _ => .inr htype)
    · exact .refl
    · exact hstay (browses_to .home ui.page ui.markX ui.markY ui.reader (by decide)
        fun _ _ => .inr htype)
  · rename_i htype
    exact absurd htype hpower.1
  · rename_i htype
    exact absurd htype hpower.2
  · rename_i htype
    exact absurd htype htouch
  · exact .refl

/-- **Every event has one of these effects.** -/
theorem handle_move (ops : ReaderOps R P) (ui : CnUi R) (ev : InputEv) (now : ℤ) :
    Move ops ui ev (ui.handle ops ev now).1 := by
  unfold handle
  split
  · rename_i haccount
    exact handleAccount_move haccount.1
  rename_i haccount
  split
  · rename_i hmodal
    exact handleModal_move hmodal.1 hmodal.2.1
  · rename_i hmodal
    refine handleScreen_move now (fun hstate => ?_) fun hstate => ?_ <;> grind

end CnUi
