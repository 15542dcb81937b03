import CrossNook.UI.Moves

/-!
# The invariants of the screens

What holds in every state that events and calls lead to: the selection stays in the library and in
view, the flags of the account screen and of the overlay fit together, and the password is gone
from the buffer once its screen is left.

## Main definitions

* `CnUi.Coherent`: the flags fit together
* `CnUi.Hygienic`: what the password buffer holds

## Main results

* `CnUi.run_coherent`, `CnUi.run_hygienic`: both hold throughout every run
-/

namespace CnUi

variable {R P : Type} {ops : ReaderOps R P} {ui ui' : CnUi R} {ev : InputEv}

/-! ## The flags -/

/-- The flags of the screens fit together. -/
structure Coherent (ui : CnUi R) : Prop where
  viewport : ∀ lib, ui.lib = some lib → lib.count ≠ 0 →
    0 ≤ ui.top ∧ ui.top ≤ ui.sel ∧ ui.sel < lib.count ∧ ui.sel - ui.top < libRows
  modal : ui.syncModal ≠ .none → ui.state = .reader
  keyboard : ui.accountKeyboardActive = true → ui.accountEditing = true ∧ ui.accountFocus < 4
  confirm : ui.accountCorrectionConfirm ≠ 0 →
    ui.accountLocalState = .completeDisabled ∧ ui.accountEditing = true
  focus : 0 ≤ ui.accountFocus ∧ ui.accountFocus ≤ 4

theorem Coherent.noModal (h : ui.Coherent) {screen : UiState} (hstate : ui.state = screen)
    (hscreen : screen ≠ .reader) : ui.syncModal = .none := by
  by_contra hmodal
  exact hscreen (hstate.symm.trans (h.modal hmodal))

/-- The correction is offered only for a complete account that is disabled. -/
theorem completeDisabled_of_correct (h : .correct ∈ ui.accountOptions) :
    ui.accountLocalState = .completeDisabled := by
  unfold accountOptions at h
  cases hlocal : ui.accountLocalState <;> rw [hlocal] at h <;> first | rfl | simp at h

theorem mem_of_chosenOption {kind : OptionKind} (h : ui.chosenOption ev = some kind) :
    kind ∈ ui.accountOptions := by
  unfold chosenOption at h
  split at h
  · exact List.mem_of_getElem? h
  · obtain ⟨i, -, hi⟩ := Option.bind_eq_some_iff.mp h
    exact List.mem_of_getElem? hi
  · cases h

theorem Corrects.completeDisabled (h : ui.Corrects ev) :
    ui.accountLocalState = .completeDisabled :=
  completeDisabled_of_correct (mem_of_chosenOption h.2.2.2.2)

theorem Coherent.accountSubmit (h : ui.Coherent) : ui.accountSubmit.Coherent := by
  unfold CnUi.accountSubmit
  dsimp only
  split
  · rename_i hone
    exact ⟨h.viewport, h.modal, fun hk => absurd hk (by simp),
      fun _ => h.confirm (by rw [hone]; decide), h.focus⟩
  · exact ⟨h.viewport, h.modal, fun hk => absurd hk (by simp), h.confirm, h.focus⟩

theorem Coherent.move (h : ui.Coherent) (hmove : Move ops ui ev ui') : ui'.Coherent := by
  cases hmove with
  | still => exact ⟨h.viewport, h.modal, h.keyboard, h.confirm, h.focus⟩
  | leave _ hstate =>
    exact ⟨h.viewport, fun hm => absurd (h.noModal hstate (by decide)) hm,
      fun hk => absurd hk (by simp [accountLeave]), fun hc => absurd rfl hc, h.focus⟩
  | edit _ _ _ _ _ _ _ hfocus hkeyboard =>
    have hrange := hfocus h.focus
    refine ⟨h.viewport, h.modal, fun hk => ?_, h.confirm, hrange⟩
    rcases hkeyboard hk with ⟨hactive, heq⟩ | ⟨hediting, hne⟩
    · -- the keyboard stays open only over the field that it was opened for
      have := h.keyboard hactive
      exact ⟨this.1, heq ▸ this.2⟩
    · exact ⟨hediting, lt_of_le_of_ne hrange.2 hne⟩
  | submit => exact h.accountSubmit
  | request => exact ⟨h.viewport, h.modal, h.keyboard, h.confirm, h.focus⟩
  | correct _ hcorrects =>
    exact ⟨h.viewport, h.modal, fun hk => absurd hk (by simp [accountExecuteOption]),
      fun _ => ⟨hcorrects.completeDisabled, rfl⟩, ⟨le_refl 0, show (0 : ℤ) ≤ 4 by decide⟩⟩
  | enter _ _ hstate =>
    exact ⟨h.viewport, fun hm => absurd (h.noModal hstate (by decide)) hm, h.keyboard, h.confirm,
      h.focus⟩
  | dismiss => exact ⟨h.viewport, fun hm => absurd rfl hm, h.keyboard, h.confirm, h.focus⟩
  | select => exact ⟨h.viewport, h.modal, h.keyboard, h.confirm, h.focus⟩
  | confirm _ hmodal => exact ⟨h.viewport, fun _ => hmodal.1, h.keyboard, h.confirm, h.focus⟩
  | cancel => exact ⟨h.viewport, fun hm => absurd rfl hm, h.keyboard, h.confirm, h.focus⟩
  | manual => exact ⟨h.viewport, h.modal, h.keyboard, h.confirm, h.focus⟩
  | browse _ _ _ _ _ _ _ _ _ hmodal _ hview =>
    exact ⟨hview h.viewport, fun hm => absurd (hmodal (h.modal hm)) hm, h.keyboard, h.confirm,
      h.focus⟩
  | power => exact ⟨h.viewport, h.modal, h.keyboard, h.confirm, h.focus⟩
  | exit => exact ⟨h.viewport, h.modal, h.keyboard, h.confirm, h.focus⟩

theorem coherent_init : (init : CnUi R).Coherent where
  viewport _ hlib := absurd hlib (by simp [init])
  modal h := absurd rfl h
  keyboard h := absurd h (by simp [init])
  confirm h := absurd rfl h
  focus := ⟨le_refl 0, show (0 : ℤ) ≤ 4 by decide⟩

/-- What a result leaves of the flags of the account screen. -/
theorem accountSetResult_eq (ui : CnUi R) (status : AccountResult) (localState : AccountLocal) :
    ∃ fields length message editing confirm, ui.accountSetResult status localState = { ui with
      accountFields := fields
      accountPasswordLength := length
      accountKeyboardActive := false
      accountStatus := status
      accountLocalState := resultLocal status localState
      accountActionFocus := 0
      accountCorrectionConfirm := confirm
      accountMessage := message
      accountEditing := editing } ∧
    (confirm ≠ 0 → confirm = 1 ∧ status = .invalidInput ∧ ui.accountCorrectionConfirm ≠ 0 ∧
      resultLocal status localState = .completeDisabled ∧ editing = true) ∧
    (status ≠ .other → fields = ui.accountWipe.accountFields ∧ length = 0) ∧
    (status = .other → fields = ui.accountFields ∧ length = ui.accountPasswordLength) := by
  -- the confirmation starts again only where the correction is still being edited
  have hrestart :
      (if status = .invalidInput ∧ ui.accountCorrectionConfirm ≠ 0 ∧
        resultLocal status localState = .completeDisabled then 1 else 0) ≠ 0 →
      (if status = .invalidInput ∧ ui.accountCorrectionConfirm ≠ 0 ∧
        resultLocal status localState = .completeDisabled then 1 else 0) = 1 ∧
      status = .invalidInput ∧ ui.accountCorrectionConfirm ≠ 0 ∧
      resultLocal status localState = .completeDisabled ∧
      decide (((resultLocal status localState = .noAccount ∨
          resultLocal status localState = .partialDisabled) ∨
        status = .invalidInput ∧ ui.accountCorrectionConfirm ≠ 0 ∧
          resultLocal status localState = .completeDisabled) ∧ ¬ Uncertain status) = true := by
    intro hne
    split_ifs at hne with hr
    · rw [if_pos hr]
      refine ⟨rfl, hr.1, hr.2.1, hr.2.2, decide_eq_true ⟨.inr hr, ?_⟩⟩
      rw [hr.1]
      decide
    · exact absurd rfl hne
  unfold accountSetResult
  dsimp only
  by_cases hother : status = .other
  · simp only [if_pos hother]
    exact ⟨_, _, _, _, _, rfl, hrestart, fun h => absurd hother h,
      fun _ => ⟨rfl, rfl⟩⟩
  · simp only [if_neg hother]
    exact ⟨_, _, _, _, _, rfl, hrestart, fun _ => ⟨rfl, rfl⟩,
      fun h => absurd h hother⟩

theorem Coherent.step (h : ui.Coherent) (call : Call R P) : (ui.step ops call).Coherent := by
  cases call with
  | handle ev now => exact h.move (handle_move ops ui ev now)
  | takeSyncAction => exact ⟨h.viewport, h.modal, h.keyboard, h.confirm, h.focus⟩
  | accountTakeAction => exact ⟨h.viewport, h.modal, h.keyboard, h.confirm, h.focus⟩
  | accountSetResult status localState =>
    -- a result closes the keyboard, which is the flag that the others depend on
    obtain ⟨fields, length, message, editing, confirm, heq, hconfirm, -, -⟩ :=
      ui.accountSetResult_eq status localState
    rw [CnUi.step, heq]
    exact ⟨h.viewport, h.modal, fun hk => absurd hk (by simp),
      fun hc => (hconfirm hc).2.2.2, h.focus⟩
  | accountClearPassword => exact ⟨h.viewport, h.modal, h.keyboard, h.confirm, h.focus⟩
  | accountPrefill url device =>
    rw [CnUi.step, CnUi.accountPrefill]
    split
    · exact h
    · exact ⟨h.viewport, h.modal, h.keyboard, h.confirm, h.focus⟩
  | setLibrary lib =>
    exact ⟨viewport_zero rfl rfl, fun hm => absurd rfl hm, h.keyboard, h.confirm, h.focus⟩
  | setReader created =>
    exact ⟨h.viewport, fun hm => absurd rfl hm, h.keyboard, h.confirm, h.focus⟩
  | showSyncConflict =>
    rw [CnUi.step, CnUi.showSyncConflict]
    split
    · rename_i hshown
      have hstate : ui.state = .reader := (of_decide_eq_true hshown).1
      exact ⟨h.viewport, fun _ => hstate, h.keyboard, h.confirm, h.focus⟩
    · exact h
  | showSyncFeedback feedback =>
    rw [CnUi.step, CnUi.showSyncFeedback]
    split
    · rename_i hshown
      have hstate : ui.state = .reader := (of_decide_eq_true hshown).1
      exact ⟨h.viewport, fun _ => hstate, h.keyboard, h.confirm, h.focus⟩
    · exact h
  | readerGotoPosition position =>
    exact ⟨h.viewport, h.modal, h.keyboard, h.confirm, h.focus⟩
  | render measure =>
    rw [CnUi.step, CnUi.render]
    split
    · exact ⟨h.viewport, h.modal, h.keyboard, h.confirm, h.focus⟩
    · exact h

/-- **The flags fit together throughout every run.** Whatever events arrive and whatever the
application calls, in whatever order: with a library that is not empty the selection lies in it
and in view, an overlay is shown over the reader only, the keyboard is active in the form only and
for a field, a correction is confirmed only for a complete account that is disabled and in the
form, and the focus is on a field or on the button. -/
theorem run_coherent (ops : ReaderOps R P) (calls : List (Call R P)) : (run ops calls).Coherent :=
  run_induction coherent_init (fun _ call h => h.step call) calls

/-! ## The password -/

/-- Nothing of a password is left. -/
structure Wiped (ui : CnUi R) : Prop where
  bytes : ∀ b ∈ (ui.accountFields 3).bytes, b = 0
  length : (ui.accountFields 3).length = 0
  passwordLength : ui.accountPasswordLength = 0

/-- What the password buffer holds: nothing outside the account screen; there, the password, whose
length is known, and zeros. -/
structure Hygienic (ui : CnUi R) : Prop where
  known : ui.accountPasswordLength = (ui.accountFields 3).length
  clean : (ui.accountFields 3).Clean
  wiped : ui.state ≠ .accountSetup → ui.Wiped

theorem Wiped.of_eq (h : ui.Wiped) (hfields : ui'.accountFields 3 = ui.accountFields 3)
    (hlength : ui'.accountPasswordLength = ui.accountPasswordLength) : ui'.Wiped := by
  refine ⟨?_, ?_, hlength.trans h.passwordLength⟩
  · rw [hfields]
    exact h.bytes
  · rw [hfields]
    exact h.length

theorem wiped_accountWipe (ui : CnUi R) : ui.accountWipe.Wiped := by
  unfold accountWipe
  refine ⟨?_, ?_, rfl⟩
  · dsimp only
    rw [Function.update_self]
    exact fun b hb => (List.mem_replicate.mp hb).2
  · dsimp only
    rw [Function.update_self]
    rfl

/-- A buffer of zeros is clean. -/
theorem Wiped.clean (h : ui.Wiped) (hpos : (ui.accountFields 3).bytes ≠ []) :
    (ui.accountFields 3).Clean :=
  ⟨h.length ▸ List.length_pos_iff.mpr hpos, fun _ _ b hb => h.bytes b (List.mem_of_getElem? hb)⟩

theorem Wiped.hygienic (h : ui.Wiped) (hpos : (ui.accountFields 3).bytes ≠ []) : ui.Hygienic :=
  ⟨h.passwordLength.trans h.length.symm, h.clean hpos, fun _ => h⟩

theorem hygienic_accountWipe (ui : CnUi R) : ui.accountWipe.Hygienic := by
  refine (wiped_accountWipe ui).hygienic ?_
  unfold accountWipe
  dsimp only
  rw [Function.update_self]
  exact List.cons_ne_nil _ _

/-- What does not touch the password, nor leave its screen, keeps the invariant. -/
theorem Hygienic.of_eq (h : ui.Hygienic) (hfields : ui'.accountFields 3 = ui.accountFields 3)
    (hlength : ui'.accountPasswordLength = ui.accountPasswordLength)
    (hstate : ui'.state ≠ .accountSetup → ui.state ≠ .accountSetup) : ui'.Hygienic := by
  refine ⟨?_, ?_, fun hs => (h.wiped (hstate hs)).of_eq hfields hlength⟩
  · rw [hlength, hfields]
    exact h.known
  · rw [hfields]
    exact h.clean

theorem wiped_blank (hfields : ui.accountFields = blankFields)
    (hlength : ui.accountPasswordLength = 0) : ui.Hygienic := by
  refine Wiped.hygienic ⟨?_, ?_, hlength⟩ ?_
  · rw [hfields]
    exact fun b hb => List.eq_of_mem_replicate (n := passwordMax + 1) hb
  · rw [hfields]
    rfl
  · rw [hfields]
    exact List.cons_ne_nil _ _

theorem Hygienic.accountSubmit (h : ui.Hygienic) : ui.accountSubmit.Hygienic := by
  unfold CnUi.accountSubmit
  dsimp only
  split
  · exact h.of_eq rfl rfl id
  · exact h.of_eq rfl rfl id

theorem Hygienic.move (h : ui.Hygienic) (hmove : Move ops ui ev ui') : ui'.Hygienic := by
  cases hmove with
  | still => exact h.of_eq rfl rfl id
  | leave focus =>
    have := hygienic_accountWipe { ui with accountActionFocus := focus }
    exact ⟨this.known, this.clean, fun _ =>
      (wiped_accountWipe { ui with accountActionFocus := focus }).of_eq rfl rfl⟩
  | edit _ _ _ _ _ hstate hedits =>
    refine ⟨?_, hedits.clean h.clean, fun hs => absurd hstate hs⟩
    rcases hedits.known with hk | ⟨hk, hl⟩
    · exact hk
    · exact hk.trans (h.known.trans hl.symm)
  | submit => exact h.accountSubmit
  | request => exact h.of_eq rfl rfl id
  | correct => exact wiped_blank rfl rfl
  | enter _ _ hstate => exact ⟨h.known, h.clean, fun hs => absurd rfl hs⟩
  | dismiss => exact h.of_eq rfl rfl id
  | select => exact h.of_eq rfl rfl id
  | confirm => exact h.of_eq rfl rfl id
  | cancel => exact h.of_eq rfl rfl id
  | manual => exact h.of_eq rfl rfl id
  | browse _ _ _ _ _ _ _ hfrom => exact h.of_eq rfl rfl fun _ => hfrom
  | power => exact h.of_eq rfl rfl id
  | exit =>
    have := hygienic_accountWipe ui
    exact ⟨this.known, this.clean, fun _ => (wiped_accountWipe ui).of_eq rfl rfl⟩

theorem wiped_accountSetResult (ui : CnUi R) {status : AccountResult} (hstatus : status ≠ .other)
    (localState : AccountLocal) : (ui.accountSetResult status localState).Wiped := by
  obtain ⟨fields, length, message, editing, confirm, heq, -, hwipe, -⟩ :=
    ui.accountSetResult_eq status localState
  obtain ⟨rfl, rfl⟩ := hwipe hstatus
  rw [heq]
  exact (wiped_accountWipe ui).of_eq rfl rfl

theorem Hygienic.accountSetResult (h : ui.Hygienic) (status : AccountResult)
    (localState : AccountLocal) : (ui.accountSetResult status localState).Hygienic := by
  obtain ⟨fields, length, message, editing, confirm, heq, -, hwipe, hkeep⟩ :=
    ui.accountSetResult_eq status localState
  rw [heq]
  by_cases hother : status = .other
  · obtain ⟨rfl, rfl⟩ := hkeep hother
    exact h.of_eq rfl rfl id
  · obtain ⟨rfl, rfl⟩ := hwipe hother
    have := hygienic_accountWipe ui
    exact ⟨this.known, this.clean, fun _ => (wiped_accountWipe ui).of_eq rfl rfl⟩

theorem Hygienic.step (h : ui.Hygienic) (call : Call R P) : (ui.step ops call).Hygienic := by
  cases call with
  | handle ev now => exact h.move (handle_move ops ui ev now)
  | takeSyncAction => exact h.of_eq rfl rfl id
  | accountTakeAction => exact h.of_eq rfl rfl id
  | accountSetResult status localState => exact h.accountSetResult status localState
  | accountClearPassword => exact hygienic_accountWipe ui
  | accountPrefill url device =>
    rw [CnUi.step, CnUi.accountPrefill]
    split
    · exact h
    · -- the password is not one of the two fields that are filled
      refine h.of_eq ?_ rfl id
      dsimp only
      rw [Function.update_of_ne (by decide), Function.update_of_ne (by decide)]
  | setLibrary lib => exact h.of_eq rfl rfl id
  | setReader created => exact h.of_eq rfl rfl id
  | showSyncConflict =>
    rw [CnUi.step, CnUi.showSyncConflict]
    split
    · exact h.of_eq rfl rfl id
    · exact h
  | showSyncFeedback feedback =>
    rw [CnUi.step, CnUi.showSyncFeedback]
    split
    · exact h.of_eq rfl rfl id
    · exact h
  | readerGotoPosition position => exact h.of_eq rfl rfl id
  | render measure =>
    rw [CnUi.step, CnUi.render]
    split
    · exact h.of_eq rfl rfl id
    · exact h

/-- **The password does not outlive its screen.** Throughout every run, outside the account screen
every byte of the buffer is zero and both lengths are; on the screen the length is that of the
field and every byte from there on is zero; and every result but one of no known kind leaves
nothing of the password. -/
theorem run_hygienic (ops : ReaderOps R P) (calls : List (Call R P)) :
    (run ops calls).Hygienic ∧
      ∀ status localState, status ≠ AccountResult.other →
        ((run ops calls).accountSetResult status localState).Wiped :=
  ⟨run_induction (wiped_blank rfl rfl) (fun _ call h => h.step call) calls,
    fun _ localState hstatus => wiped_accountSetResult _ hstatus localState⟩

end CnUi
