import CrossNook.UI.Replacement

/-!
# Intents

The intents that the screens leave for the application. A choice in a conflict is emitted at most
once each time the overlay is shown, by the menu key; and an intent outlives its screen only where
the user leaves while it is pending.

## Main definitions

* `CnUi.OneShot`: the choice of a conflict is a one-shot intent
* `CnUi.OnScreen`: no intent is pending on a screen other than its own
* `CnUi.Abandons`: the event leaves a screen with an intent pending

## Main results

* `CnUi.run_oneShot`: the choice of a conflict is one-shot in every run
* `CnUi.onScreen_iff`: when intents do not outlive their screens
-/

namespace CnUi

variable {R P : Type} {ops : ReaderOps R P} {ui ui' : CnUi R} {ev : InputEv}
  {calls : List (Call R P)}

/-! ## The choice of a conflict -/

/-- A choice between the two sides of a conflict. -/
def Choice (action : SyncAction) : Prop := action = .useLocal ∨ action = .useRemote

/-- The intent for a row of the overlay. -/
def RowIntent (row : ℤ) (action : SyncAction) : Prop :=
  row = 0 ∧ action = .useLocal ∨ row = 1 ∧ action = .useRemote

/-- What an event does to the overlay and to the intent. -/
theorem Move.sync_cases (h : Move ops ui ev ui') :
    (ui'.syncAction = ui.syncAction ∧
      (ui'.syncModal = ui.syncModal ∨ ui'.syncModal = .none)) ∨
    (ev.type = .menu ∧ ui.state = .reader ∧ ui.syncModal = .choices ∧
      RowIntent ui.syncSelection ui'.syncAction ∧ ui'.syncModal = .feedback) ∨
    ((ui'.syncAction = .cancel ∧ ui.syncModal = .choices ∨
        ui'.syncAction = .manual ∧ ui.syncModal = .none) ∧ ui'.syncModal = .none ∧
      (ev.type = .menu ∨ ev.type = .back ∨ ev.type = .home)) := by
  cases h with
  | still => exact .inl ⟨rfl, .inl rfl⟩
  | leave => exact .inl ⟨rfl, .inl rfl⟩
  | edit => exact .inl ⟨rfl, .inl rfl⟩
  | submit =>
    left
    unfold accountSubmit
    dsimp only
    split <;> exact ⟨rfl, .inl rfl⟩
  | request => exact .inl ⟨rfl, .inl rfl⟩
  | correct => exact .inl ⟨rfl, .inl rfl⟩
  | enter => exact .inl ⟨rfl, .inl rfl⟩
  | dismiss _ hev =>
    by_cases hchoices : ui.syncModal = .choices
    · exact .inr (.inr ⟨.inl ⟨if_pos hchoices, hchoices⟩, rfl, .inr hev⟩)
    · exact .inl ⟨if_neg hchoices, .inr rfl⟩
  | select => exact .inl ⟨rfl, .inl rfl⟩
  | confirm _ hmodal hev hrow => exact .inr (.inl ⟨hev, hmodal.1, hmodal.2, hrow, rfl⟩)
  | cancel hmodal hev => exact .inr (.inr ⟨.inl ⟨rfl, hmodal.2⟩, rfl, .inl hev⟩)
  | manual _ hmodal hev => exact .inr (.inr ⟨.inr ⟨rfl, hmodal⟩, hmodal, .inl hev⟩)
  | browse => exact .inl ⟨rfl, .inl rfl⟩
  | power => exact .inl ⟨rfl, .inl rfl⟩
  | exit => exact .inl ⟨rfl, .inl rfl⟩

/-- A call other than an event leaves the intent, or clears it. -/
theorem syncAction_call (ops : ReaderOps R P) (ui : CnUi R) (call : Call R P)
    (hcall : ∀ ev now, call ≠ .handle ev now) :
    (ui.step ops call).syncAction = ui.syncAction ∨ (ui.step ops call).syncAction = .none := by
  cases call with
  | handle ev now => exact absurd rfl (hcall ev now)
  | takeSyncAction => exact .inr rfl
  | accountTakeAction => exact .inl rfl
  | accountSetResult status localState =>
    obtain ⟨_, _, _, _, _, heq, -⟩ := ui.accountSetResult_eq status localState
    rw [step, heq]
    exact .inl rfl
  | accountClearPassword => exact .inl rfl
  | accountPrefill url device =>
    rw [step, accountPrefill]
    split <;> exact .inl rfl
  | setLibrary lib => exact .inr rfl
  | setReader created => exact .inr rfl
  | showSyncConflict =>
    rw [step, showSyncConflict]
    split
    exacts [.inr rfl, .inl rfl]
  | showSyncFeedback feedback =>
    rw [step, showSyncFeedback]
    split
    exacts [.inr rfl, .inl rfl]
  | readerGotoPosition position => exact .inl rfl
  | render measure =>
    rw [step, render]
    split <;> exact .inl rfl

/-- A call that shows the choices. -/
def Shows (ops : ReaderOps R P) (ui : CnUi R) (call : Call R P) : Prop :=
  call = .showSyncConflict ∧ (ui.showSyncConflict ops).2 = true

/-- Only a call that shows the choices brings them up. -/
theorem syncModal_call (ops : ReaderOps R P) (ui : CnUi R) (call : Call R P)
    (hcall : ∀ ev now, call ≠ .handle ev now) (hshow : ¬ Shows ops ui call)
    (hmodal : ui.syncModal ≠ .choices) : (ui.step ops call).syncModal ≠ .choices := by
  cases call with
  | handle ev now => exact absurd rfl (hcall ev now)
  | takeSyncAction => exact hmodal
  | accountTakeAction => exact hmodal
  | accountSetResult status localState =>
    obtain ⟨_, _, _, _, _, heq, -⟩ := ui.accountSetResult_eq status localState
    rw [step, heq]
    exact hmodal
  | accountClearPassword => exact hmodal
  | accountPrefill url device =>
    rw [step, accountPrefill]
    split <;> exact hmodal
  | setLibrary lib => exact SyncModal.noConfusion
  | setReader created => exact SyncModal.noConfusion
  | showSyncConflict =>
    rw [step]
    unfold showSyncConflict
    split
    · -- the call that shows the choices is excluded
      rename_i hshown
      exact absurd ⟨rfl, by rw [showSyncConflict, if_pos hshown]⟩ hshow
    · exact hmodal
  | showSyncFeedback feedback =>
    rw [step, showSyncFeedback]
    split
    exacts [SyncModal.noConfusion, hmodal]
  | readerGotoPosition position => exact hmodal
  | render measure =>
    rw [step, render]
    split <;> exact hmodal

/-- No choice can be emitted before the choices are shown again. -/
structure Disarmed (ui : CnUi R) : Prop where
  modal : ui.syncModal ≠ .choices
  action : ¬ Choice ui.syncAction

theorem Disarmed.step (h : ui.Disarmed) {call : Call R P} (hshow : ¬ Shows ops ui call) :
    (ui.step ops call).Disarmed := by
  by_cases hcall : ∃ ev now, call = .handle ev now
  · obtain ⟨ev, now, rfl⟩ := hcall
    rcases (handle_move ops ui ev now).sync_cases with
      ⟨haction, hmodal⟩ | ⟨-, -, hmodal, -⟩ | ⟨haction, hmodal, -⟩
    · refine ⟨?_, fun hc => h.action (haction ▸ hc)⟩
      rcases hmodal with hmodal | hmodal
      · exact fun hc => h.modal (hmodal ▸ hc)
      · exact fun hc => absurd (hmodal.symm.trans hc) SyncModal.noConfusion
    · exact absurd hmodal h.modal
    · refine ⟨fun hc => absurd (hmodal.symm.trans hc) SyncModal.noConfusion, ?_⟩
      intro hc
      have haction : (ui.handle ops ev now).1.syncAction = .cancel ∨
          (ui.handle ops ev now).1.syncAction = .manual := haction.imp And.left And.left
      rcases hc with hc | hc <;> rcases haction with ha | ha <;>
        exact absurd (ha.symm.trans hc) SyncAction.noConfusion
  · have hcall : ∀ ev now, call ≠ .handle ev now := fun ev now heq => hcall ⟨ev, now, heq⟩
    refine ⟨syncModal_call ops ui call hcall hshow h.modal, fun hc => ?_⟩
    rcases syncAction_call ops ui call hcall with haction | haction
    · exact h.action (haction ▸ hc)
    · rw [haction] at hc
      rcases hc with hc | hc <;> cases hc

/-- While a choice is pending the choices are not shown. -/
def Guarded (ui : CnUi R) : Prop := Choice ui.syncAction → ui.syncModal ≠ .choices

theorem Guarded.step (h : ui.Guarded) (call : Call R P) : (ui.step ops call).Guarded := by
  intro hc
  by_cases hcall : ∃ ev now, call = .handle ev now
  · obtain ⟨ev, now, rfl⟩ := hcall
    rcases (handle_move ops ui ev now).sync_cases with
      ⟨haction, hmodal⟩ | ⟨-, -, -, -, hmodal⟩ | ⟨-, hmodal, -⟩
    · rcases hmodal with hmodal | hmodal
      · exact fun hm => h (haction ▸ hc) (hmodal ▸ hm)
      · exact fun hm => absurd (hmodal.symm.trans hm) SyncModal.noConfusion
    · exact fun hm => absurd (hmodal.symm.trans hm) SyncModal.noConfusion
    · exact fun hm => absurd (hmodal.symm.trans hm) SyncModal.noConfusion
  · have hcall : ∀ ev now, call ≠ .handle ev now := fun ev now heq => hcall ⟨ev, now, heq⟩
    rcases syncAction_call ops ui call hcall with haction | haction
    · by_cases hshow : Shows ops ui call
      · -- the call that shows the choices clears the intent
        obtain ⟨rfl, hshown⟩ := hshow
        rw [CnUi.step] at hc
        unfold showSyncConflict at hc hshown
        split at hc
        · rcases hc with hc | hc <;> cases hc
        · rename_i hnot
          rw [if_neg hnot] at hshown
          cases hshown
      · exact syncModal_call ops ui call hcall hshow (h (haction ▸ hc))
    · rw [haction] at hc
      rcases hc with hc | hc <;> cases hc

theorem run_guarded (ops : ReaderOps R P) (calls : List (Call R P)) : (run ops calls).Guarded :=
  run_induction (fun h => by rcases h with h | h <;> cases h) (fun _ call h => h.step call) calls

/-- After calls that do not show the choices, no choice can be emitted still. -/
theorem Disarmed.run_append (h : (run ops calls).Disarmed) (middle : List (Call R P)) :
    (run ops (calls ++ middle)).Disarmed ∨ ∃ early late, middle = early ++ .showSyncConflict :: late ∧
      ((run ops (calls ++ early)).showSyncConflict ops).2 = true := by
  induction middle using List.reverseRecOn with
  | nil => exact .inl (by rwa [List.append_nil])
  | append_singleton middle call ih =>
    rcases ih with ih | ⟨early, late, rfl, hshown⟩
    · by_cases hshow : Shows ops (run ops (calls ++ middle)) call
      · obtain ⟨rfl, hshown⟩ := hshow
        exact .inr ⟨middle, [], rfl, hshown⟩
      · left
        rw [← List.append_assoc, run_append_singleton]
        exact ih.step hshow
    · exact .inr ⟨early, late ++ [call], by simp, hshown⟩

/-- The cause of a choice: the menu key, pressed while the choices were shown with its row
selected; the choice was pending ever since. -/
def Caused (ops : ReaderOps R P) (calls : List (Call R P)) (action : SyncAction) : Prop :=
  ∃ before ev now after, calls = before ++ .handle ev now :: after ∧ ev.type = .menu ∧
    (run ops before).state = .reader ∧ (run ops before).syncModal = .choices ∧
    RowIntent (run ops before).syncSelection action ∧
    ∀ early late, after = early ++ late →
      (run ops (before ++ .handle ev now :: early)).syncAction = action

theorem caused (ops : ReaderOps R P) (calls : List (Call R P)) {action : SyncAction}
    (hchoice : Choice action) (h : (run ops calls).syncAction = action) :
    Caused ops calls action := by
  induction calls using List.reverseRecOn with
  | nil =>
    obtain rfl : SyncAction.none = action := h
    rcases hchoice with hc | hc <;> cases hc
  | append_singleton calls call ih =>
    rw [run_append_singleton] at h
    -- a choice that was pending before the last call
    have hbefore : (run ops calls).syncAction = action → Caused ops (calls ++ [call]) action := by
      intro hpending
      obtain ⟨before, ev, now, after, rfl, htype, hstate, hmodal, hrow, hsince⟩ := ih hpending
      refine ⟨before, ev, now, after ++ [call], by simp, htype, hstate, hmodal, hrow, ?_⟩
      intro early late heq
      rcases List.eq_nil_or_concat late with rfl | ⟨late, last, rfl⟩
      · rw [List.append_nil] at heq
        rw [← heq, ← List.cons_append, ← List.append_assoc, run_append_singleton]
        exact h
      · rw [List.concat_eq_append, ← List.append_assoc] at heq
        exact hsince early late (List.append_inj' heq rfl).1
    by_cases hcall : ∃ ev now, call = .handle ev now
    · obtain ⟨ev, now, rfl⟩ := hcall
      rcases (handle_move ops (run ops calls) ev now).sync_cases with
        ⟨haction, -⟩ | ⟨htype, hstate, hmodal, hrow, -⟩ | ⟨haction, -, -⟩
      · exact hbefore (haction.symm.trans h)
      · have hrow : RowIntent (run ops calls).syncSelection action := h ▸ hrow
        refine ⟨calls, ev, now, [], rfl, htype, hstate, hmodal, hrow, fun early late heq => ?_⟩
        obtain ⟨rfl, rfl⟩ := List.append_eq_nil_iff.mp heq.symm
        rw [run_append_singleton]
        exact h
      · have haction : (run ops calls |>.handle ops ev now).1.syncAction = .cancel ∨
            (run ops calls |>.handle ops ev now).1.syncAction = .manual :=
          haction.imp And.left And.left
        have h : ((run ops calls).handle ops ev now).1.syncAction = action := h
        rw [h] at haction
        rcases hchoice with rfl | rfl <;> rcases haction with ha | ha <;> cases ha
    · have hcall : ∀ ev now, call ≠ .handle ev now := fun ev now heq => hcall ⟨ev, now, heq⟩
      rcases syncAction_call ops (run ops calls) call hcall with haction | haction
      · exact hbefore (haction.symm.trans h)
      · obtain rfl : SyncAction.none = action := haction.symm.trans h
        rcases hchoice with hc | hc <;> cases hc

/-- A touch, or a page key. -/
def TouchOrPage (ev : InputEv) : Prop :=
  ev.type ∈ [InputEvent.pagePrev, .pageNext, .touchDown, .touchMove, .touchUp]

/-- An event under the overlay leaves the reader alone. -/
theorem reader_under_modal (h : ui.Coherent) (hmodal : ui.syncModal ≠ .none)
    (hmove : Move ops ui ev ui') : ui'.reader = ui.reader := by
  cases hmove with
  | submit =>
    unfold accountSubmit
    dsimp only
    split <;> rfl
  | browse _ _ _ _ _ _ _ _ _ hnone => exact absurd (hnone (h.modal hmodal)) hmodal
  | _ => rfl

/-- The choice of a conflict is a one-shot intent. -/
structure OneShot (ops : ReaderOps R P) (calls : List (Call R P)) : Prop where
  cause : ∀ action, Choice action → (run ops calls).takeSyncAction.1 = action →
    Caused ops calls action
  once : ∀ before middle, calls = before ++ .takeSyncAction :: middle →
    Choice (run ops before).takeSyncAction.1 → Choice (run ops calls).takeSyncAction.1 →
    ∃ early late, middle = early ++ .showSyncConflict :: late ∧
      ((run ops (before ++ .takeSyncAction :: early)).showSyncConflict ops).2 = true
  modal : (run ops calls).syncModal ≠ .none → ∀ ev now, TouchOrPage ev →
    ((run ops calls).handle ops ev now).1.reader = (run ops calls).reader ∧
    ((run ops calls).handle ops ev now).1.syncAction = (run ops calls).syncAction
  feedback : (run ops calls).syncModal = .feedback → ∀ call,
    ((run ops calls).step ops call).syncAction = (run ops calls).syncAction ∨
    ((run ops calls).step ops call).syncAction = .none

/-- **The choice of a conflict is one-shot.** In every run, a choice that the application takes was
caused by the menu key, pressed while the choices were shown with its row selected; between two
choices that it takes, the choices were shown again; under the overlay no touch and no page key
emits an intent or turns a page; and while feedback is shown, nothing emits an intent. -/
theorem run_oneShot (ops : ReaderOps R P) (calls : List (Call R P)) : OneShot ops calls := by
  have hcoherent : (run ops calls).Coherent :=
    run_induction coherent_init (fun _ call h => h.step call) calls
  refine ⟨fun action hchoice h => caused ops calls hchoice h, ?_, ?_, ?_⟩
  · rintro before middle rfl hfirst hsecond
    -- after a choice was taken, none is left and the choices are not shown
    have hdisarmed : (run ops (before ++ [.takeSyncAction])).Disarmed := by
      rw [run_append_singleton]
      exact ⟨run_guarded ops before hfirst, fun hc => by rcases hc with hc | hc <;> cases hc⟩
    have hsplit : before ++ .takeSyncAction :: middle = before ++ [.takeSyncAction] ++ middle := by
      simp
    rcases hdisarmed.run_append middle with hd | ⟨early, late, rfl, hshown⟩
    · rw [hsplit] at hsecond
      exact absurd hsecond hd.action
    · exact ⟨early, late, rfl, by simpa using hshown⟩
  · intro hmodal ev now hev
    have hmove := handle_move ops (run ops calls) ev now
    refine ⟨reader_under_modal hcoherent hmodal hmove, ?_⟩
    rcases hmove.sync_cases with ⟨haction, -⟩ | ⟨htype, -⟩ | ⟨-, -, htype⟩
    · exact haction
    · rw [TouchOrPage, htype] at hev
      simp at hev
    · rcases htype with htype | htype | htype <;> rw [TouchOrPage, htype] at hev <;> simp at hev
  · intro hfeedback call
    -- while feedback is shown an event emits nothing, and no other call does
    by_cases hcall : ∃ ev now, call = .handle ev now
    · obtain ⟨ev, now, rfl⟩ := hcall
      rcases (handle_move ops (run ops calls) ev now).sync_cases with
        ⟨haction, -⟩ | ⟨-, -, hmodal, -⟩ | ⟨hmodal, -, -⟩
      · exact .inl haction
      · exact absurd (hfeedback.symm.trans hmodal) SyncModal.noConfusion
      · rcases hmodal with ⟨-, hmodal⟩ | ⟨-, hmodal⟩ <;>
          exact absurd (hfeedback.symm.trans hmodal) SyncModal.noConfusion
    · exact syncAction_call ops _ call fun ev now heq => hcall ⟨ev, now, heq⟩

/-! ## Intents and their screens -/

/-- No intent is pending on a screen other than its own. -/
structure OnScreen (ui : CnUi R) : Prop where
  sync : ui.takeSyncAction.1 ≠ .none → ui.state = .reader
  account : ui.accountTakeAction.1 ≠ .none → ui.state = .accountSetup

/-- The event leaves a screen while an intent of it is pending. -/
def Abandons (ui : CnUi R) (ev : InputEv) : Prop :=
  ui.state = .reader ∧ ui.syncModal = .none ∧ ui.syncAction ≠ .none ∧
      (ev.type = .back ∨ ev.type = .home) ∨
    ui.state = .accountSetup ∧ ui.accountAction ≠ .none ∧
      (ev.type = .home ∨ ev.type = .back ∧ ui.accountKeyboardActive = false)

theorem OnScreen.noSync (h : ui.OnScreen) {screen : UiState} (hstate : ui.state = screen)
    (hscreen : screen ≠ .reader) : ui.syncAction = .none := by
  by_contra haction
  exact hscreen (hstate.symm.trans (h.sync haction))

theorem OnScreen.noAccount (h : ui.OnScreen) (hstate : ui.state ≠ .accountSetup) :
    ui.accountAction = .none := by
  by_contra haction
  exact hstate (h.account haction)

theorem OnScreen.move (h : ui.OnScreen) (hev : ¬ ui.Abandons ev) (hmove : Move ops ui ev ui') :
    ui'.OnScreen := by
  cases hmove with
  | still => exact ⟨h.sync, h.account⟩
  | leave _ hstate hleave =>
    have hnone : ui.accountAction = .none := by
      by_contra haction
      exact hev (.inr ⟨hstate, haction, hleave.resolve_left haction⟩)
    exact ⟨fun hs => absurd (h.noSync hstate (by decide)) hs, fun ha => absurd hnone ha⟩
  | edit => exact ⟨h.sync, h.account⟩
  | submit hsubmits =>
    have hstate := hsubmits.1
    have hsync := h.noSync hstate (by decide)
    unfold accountSubmit
    dsimp only
    split
    · exact ⟨fun hs => absurd hsync hs, fun _ => hstate⟩
    · exact ⟨fun hs => absurd hsync hs, fun _ => hstate⟩
  | request _ _ hstate => exact ⟨h.sync, fun _ => hstate⟩
  | correct => exact ⟨h.sync, h.account⟩
  | enter _ _ hstate =>
    exact ⟨fun hs => absurd (h.noSync hstate (by decide)) hs, fun _ => rfl⟩
  | dismiss hmodal => exact ⟨fun _ => hmodal.1, h.account⟩
  | select => exact ⟨h.sync, h.account⟩
  | confirm _ hmodal => exact ⟨fun _ => hmodal.1, h.account⟩
  | cancel hmodal => exact ⟨fun _ => hmodal.1, h.account⟩
  | manual hstate => exact ⟨fun _ => hstate, h.account⟩
  | browse state _ _ _ _ _ _ hfrom _ hmodal hleave =>
    refine ⟨fun hs => ?_, fun ha => absurd (h.noAccount hfrom) ha⟩
    by_contra hstate
    -- the reader was left with an intent pending
    have hreader := h.sync hs
    exact hev (.inl ⟨hreader, hmodal hreader, hs, hleave hreader hstate⟩)
  | power => exact ⟨h.sync, h.account⟩
  | exit => exact ⟨h.sync, h.account⟩

theorem OnScreen.step (h : ui.OnScreen) {call : Call R P}
    (hcall : ∀ ev now, call = .handle ev now → ¬ ui.Abandons ev) :
    (ui.step ops call).OnScreen := by
  cases call with
  | handle ev now => exact h.move (hcall ev now rfl) (handle_move ops ui ev now)
  | takeSyncAction => exact ⟨fun hs => absurd rfl hs, h.account⟩
  | accountTakeAction => exact ⟨h.sync, fun ha => absurd rfl ha⟩
  | accountSetResult status localState =>
    obtain ⟨_, _, _, _, _, heq, -⟩ := ui.accountSetResult_eq status localState
    rw [CnUi.step, heq]
    exact ⟨h.sync, h.account⟩
  | accountClearPassword => exact ⟨h.sync, h.account⟩
  | accountPrefill url device =>
    rw [CnUi.step, CnUi.accountPrefill]
    split
    exacts [h, ⟨h.sync, h.account⟩]
  | setLibrary lib => exact ⟨fun hs => absurd rfl hs, h.account⟩
  | setReader created => exact ⟨fun hs => absurd rfl hs, h.account⟩
  | showSyncConflict =>
    rw [CnUi.step, CnUi.showSyncConflict]
    split
    exacts [⟨fun hs => absurd rfl hs, h.account⟩, h]
  | showSyncFeedback feedback =>
    rw [CnUi.step, CnUi.showSyncFeedback]
    split
    exacts [⟨fun hs => absurd rfl hs, h.account⟩, h]
  | readerGotoPosition position => exact ⟨h.sync, h.account⟩
  | render measure =>
    rw [CnUi.step, CnUi.render]
    split
    exacts [⟨h.sync, h.account⟩, h]

/-- Leaving a screen with an intent pending carries the intent to another screen. -/
theorem Abandons.not_onScreen (h : ui.Abandons ev) (ops : ReaderOps R P) (now : ℤ) :
    ¬ (ui.handle ops ev now).1.OnScreen := by
  intro hon
  rcases h with ⟨hstate, hmodal, haction, hev⟩ | ⟨hstate, haction, hev⟩
  · have hscreen : ui.handle ops ev now = ui.handleScreen ops ev now := by
      unfold handle
      rw [if_neg (by simp [hstate]), if_neg (by simp [hmodal])]
    rw [hscreen] at hon
    unfold handleScreen at hon
    rcases hev with hev | hev
    · rw [hev] at hon
      simp only [hstate] at hon
      exact UiState.noConfusion (hon.sync haction)
    · rw [hev] at hon
      simp only [hstate] at hon
      exact UiState.noConfusion (hon.sync haction)
  · have haccount : ui.handle ops ev now = (ui.accountLeave, true) := by
      unfold handle
      rw [if_pos ⟨hstate, by rcases hev with hev | ⟨hev, -⟩ <;> simp [hev],
        by rcases hev with hev | ⟨hev, -⟩ <;> simp [hev]⟩]
      unfold handleAccount
      rcases hev with hev | ⟨hev, hkeyboard⟩
      · rw [if_neg (by simp [hev]), if_pos hev]
      · rw [if_pos hev, if_neg (by simp [hkeyboard])]
    rw [haccount] at hon
    exact UiState.noConfusion (hon.account haction)

/-- **When intents do not outlive their screens.** In every state of a run every pending intent is
one of the screen shown, exactly if no event of the run leaves a screen while an intent of it is
pending. -/
theorem onScreen_iff (ops : ReaderOps R P) (calls : List (Call R P)) :
    (∀ early late, calls = early ++ late → (run ops early).OnScreen) ↔
      ∀ early ev now late, calls = early ++ .handle ev now :: late →
        ¬ (run ops early).Abandons ev := by
  constructor
  · intro h early ev now late hcalls habandons
    have hsplit : calls = (early ++ [.handle ev now]) ++ late := by simp [hcalls]
    have hon := h _ late hsplit
    rw [run_append_singleton] at hon
    exact habandons.not_onScreen ops now hon
  · intro h early late hcalls
    induction early using List.reverseRecOn generalizing late with
    | nil => exact ⟨fun hs => absurd rfl hs, fun ha => absurd rfl ha⟩
    | append_singleton early call ih =>
      have hsplit : calls = early ++ call :: late := by simp [hcalls]
      rw [run_append_singleton]
      refine (ih (call :: late) hsplit).step fun ev now hcall => ?_
      exact h early ev now late (hcall ▸ hsplit)

/-- A book opened and a synchronization requested; then the reader is left. -/
def manualThenBack : List (Call Unit Unit) :=
  [.setLibrary (some ⟨[⟨some [], .epub⟩]⟩), .setReader (some ()), .handle ⟨.touchUp, 100, 320⟩ 0,
    .handle ⟨.touchUp, 100, 170⟩ 0, key .menu, key .back]

/-- The request for a synchronization is taken from the library, and the inspection of the account
from the home screen. -/
theorem onScreen_fails :
    ((run .onePage manualThenBack).takeSyncAction.1 = .manual ∧
      (run .onePage manualThenBack).state = .library) ∧
    (run .onePage [key .menu, key .back]).accountTakeAction.1 = .inspect ∧
      (run .onePage [key .menu, key .back]).state = .home := by
  decide +kernel

end CnUi
