import CrossNook.UI.Invariant

/-!
# Replacing a saved account

The request to replace a saved account destroys what is saved. It is emitted only after the user
chose to correct the account and activated the form's button twice.

## Main definitions

* `CnUi.Confirmed`: how often the button was activated since the correction was chosen
* `CnUi.Emitted`: the activation that emitted the pending request

## Main results

* `CnUi.replaceDisabled_confirmed`: every request to replace was confirmed twice
-/

namespace CnUi

variable {R P : Type} {ops : ReaderOps R P} {ui ui' : CnUi R} {ev : InputEv}
  {calls : List (Call R P)} {call : Call R P}

/-- The call leaves the account screen. -/
def Leaves (ops : ReaderOps R P) (ui : CnUi R) (call : Call R P) : Prop :=
  ui.state = .accountSetup ∧ (ui.step ops call).state ≠ .accountSetup

/-- The call sets a result. -/
def SetsResult (call : Call R P) : Prop :=
  ∃ status localState, call = .accountSetResult status localState

/-- The history ends `n` activations of the button after the correction of a saved account was
chosen while a complete account was disabled, or after a result that restarted the correction, with
no leave of the screen and no other result in between. -/
inductive Confirmed (ops : ReaderOps R P) : ℕ → List (Call R P) → Prop
  | choose (calls : List (Call R P)) (ev : InputEv) (now : ℤ) (hev : (run ops calls).Corrects ev)
      (hlocal : (run ops calls).accountLocalState = .completeDisabled) :
      Confirmed ops 0 (calls ++ [.handle ev now])
  | restart (n : ℕ) (calls : List (Call R P)) (localState : AccountLocal)
      (h : Confirmed ops n calls) :
      Confirmed ops 0 (calls ++ [.accountSetResult .invalidInput localState])
  | wait (n : ℕ) (calls : List (Call R P)) (call : Call R P) (h : Confirmed ops n calls)
      (hleave : ¬ Leaves ops (run ops calls) call) (hresult : ¬ SetsResult call) :
      Confirmed ops n (calls ++ [call])
  | submit (n : ℕ) (calls : List (Call R P)) (ev : InputEv) (now : ℤ) (h : Confirmed ops n calls)
      (hev : (run ops calls).Submits ev) : Confirmed ops (n + 1) (calls ++ [.handle ev now])

/-- The request that is pending was emitted by an activation of the button, at least the second
since the correction was chosen; before it no action was pending, and since it the request was. -/
def Emitted (ops : ReaderOps R P) (calls : List (Call R P)) : Prop :=
  ∃ n early ev now late, calls = early ++ .handle ev now :: late ∧ (run ops early).Submits ev ∧
    (run ops early).accountAction = .none ∧
    Confirmed ops n (early ++ [.handle ev now]) ∧ 2 ≤ n ∧
    ∀ middle rest, late = middle ++ rest →
      (run ops (early ++ .handle ev now :: middle)).accountAction = .replaceDisabled

/-- A request that stays pending. -/
theorem Emitted.append_singleton (h : Emitted ops calls)
    (haction : ((run ops calls).step ops call).accountAction = .replaceDisabled) :
    Emitted ops (calls ++ [call]) := by
  obtain ⟨n, early, ev, now, late, rfl, hsubmits, hnone, hconfirmed, hn, hsince⟩ := h
  refine ⟨n, early, ev, now, late ++ [call], by simp, hsubmits, hnone, hconfirmed, hn, ?_⟩
  intro middle rest heq
  rcases List.eq_nil_or_concat rest with rfl | ⟨rest, last, rfl⟩
  · rw [List.append_nil] at heq
    rw [← heq, ← List.cons_append, ← List.append_assoc, run_append_singleton]
    exact haction
  · rw [List.concat_eq_append, ← List.append_assoc] at heq
    exact hsince middle rest (List.append_inj' heq rfl).1

/-- What the counter of the confirmation tells of the history. -/
structure Accounted (ops : ReaderOps R P) (calls : List (Call R P)) : Prop where
  counter : (run ops calls).accountCorrectionConfirm ≠ 0 → ∃ n, Confirmed ops n calls ∧
    ((run ops calls).accountCorrectionConfirm = 2 → 1 ≤ n)
  action : (run ops calls).accountAction = .replaceDisabled → Emitted ops calls

/-- What an event does to the counter and to the action. -/
theorem Move.confirm_cases (h : Move ops ui ev ui') :
    (ui'.accountCorrectionConfirm = 0 ∧ ui'.accountAction = ui.accountAction) ∨
    (ui.Submits ev ∧ ui' = ui.accountSubmit) ∨
    (ui.Corrects ev ∧ ui'.accountCorrectionConfirm = 1 ∧
      ui'.accountAction = ui.accountAction) ∨
    (ui'.accountCorrectionConfirm = ui.accountCorrectionConfirm ∧
      (ui'.accountAction = ui.accountAction ∨ ui'.accountAction ≠ .replaceDisabled) ∧
      (ui.state = .accountSetup → ui'.state = .accountSetup)) := by
  cases h with
  | still => exact .inr (.inr (.inr ⟨rfl, .inl rfl, id⟩))
  | leave => exact .inl ⟨rfl, rfl⟩
  | edit => exact .inr (.inr (.inr ⟨rfl, .inl rfl, id⟩))
  | submit hsubmits => exact .inr (.inl ⟨hsubmits, rfl⟩)
  | request _ _ _ haction =>
    refine .inr (.inr (.inr ⟨rfl, .inr ?_, id⟩))
    rcases haction with rfl | rfl <;> exact fun h => AccountAction.noConfusion h
  | correct _ hcorrects => exact .inr (.inr (.inl ⟨hcorrects, rfl, rfl⟩))
  | enter => exact .inr (.inr (.inr ⟨rfl, .inr (by simp [enterAccount]), fun _ => rfl⟩))
  | dismiss => exact .inr (.inr (.inr ⟨rfl, .inl rfl, id⟩))
  | select => exact .inr (.inr (.inr ⟨rfl, .inl rfl, id⟩))
  | confirm => exact .inr (.inr (.inr ⟨rfl, .inl rfl, id⟩))
  | cancel => exact .inr (.inr (.inr ⟨rfl, .inl rfl, id⟩))
  | manual => exact .inr (.inr (.inr ⟨rfl, .inl rfl, id⟩))
  | browse _ _ _ _ _ _ _ hfrom =>
    exact .inr (.inr (.inr ⟨rfl, .inl rfl, fun h => absurd h hfrom⟩))
  | power => exact .inr (.inr (.inr ⟨rfl, .inl rfl, id⟩))
  | exit => exact .inr (.inr (.inr ⟨rfl, .inl rfl, id⟩))

/-- A call that leaves the counter and the screen alone, and requests no replacement. -/
theorem Accounted.wait (h : Accounted ops calls)
    (hcounter : ((run ops calls).step ops call).accountCorrectionConfirm =
      (run ops calls).accountCorrectionConfirm)
    (haction : ((run ops calls).step ops call).accountAction = (run ops calls).accountAction ∨
      ((run ops calls).step ops call).accountAction ≠ .replaceDisabled)
    (hstate : (run ops calls).state = .accountSetup →
      ((run ops calls).step ops call).state = .accountSetup)
    (hresult : ¬ SetsResult call) : Accounted ops (calls ++ [call]) := by
  refine ⟨fun hc => ?_, fun ha => ?_⟩
  · rw [run_append_singleton, hcounter] at hc ⊢
    obtain ⟨n, hn, htwo⟩ := h.counter hc
    exact ⟨n, .wait n calls call hn (fun hl => hl.2 (hstate hl.1)) hresult, htwo⟩
  · rw [run_append_singleton] at ha
    rcases haction with heq | hne
    · exact (h.action (heq ▸ ha)).append_singleton ha
    · exact absurd ha hne

/-- The activation of the button counts. -/
theorem Accounted.submit (h : Accounted ops calls) (now : ℤ)
    (hev : (run ops calls).Submits ev)
    (hstep : (run ops calls).step ops (.handle ev now) = (run ops calls).accountSubmit) :
    Accounted ops (calls ++ [.handle ev now]) := by
  -- the activation is one confirmation more
  have hcount : (run ops calls).accountCorrectionConfirm ≠ 0 → ∃ n,
      Confirmed ops (n + 1) (calls ++ [.handle ev now]) ∧
      ((run ops calls).accountCorrectionConfirm = 2 → 1 ≤ n) := by
    intro hc
    obtain ⟨n, hn, htwo⟩ := h.counter hc
    exact ⟨n, .submit n calls ev now hn hev, htwo⟩
  -- at one it only counts; at two it submits as well
  by_cases hone : (run ops calls).accountCorrectionConfirm = 1
  · have hsubmit : (run ops calls).accountSubmit.accountAction = (run ops calls).accountAction := by
      rw [accountSubmit, if_pos hone]
    refine ⟨fun _ => ?_, fun ha => ?_⟩
    · obtain ⟨n, hn, -⟩ := hcount (by rw [hone]; decide)
      exact ⟨n + 1, hn, fun _ => Nat.le_add_left 1 n⟩
    · rw [run_append_singleton, hstep, hsubmit, hev.2.1] at ha
      cases ha
  · have hcounter : (run ops calls).accountSubmit.accountCorrectionConfirm =
        (run ops calls).accountCorrectionConfirm := by
      rw [accountSubmit, if_neg hone]
    refine ⟨fun hc => ?_, fun ha => ?_⟩
    · rw [run_append_singleton, hstep, hcounter] at hc
      obtain ⟨n, hn, -⟩ := hcount hc
      exact ⟨n + 1, hn, fun _ => Nat.le_add_left 1 n⟩
    · have hpending := ha
      rw [run_append_singleton, hstep, accountSubmit, if_neg hone] at ha
      dsimp only at ha
      split at ha
      · rename_i htwo
        obtain ⟨n, hn, hle⟩ := hcount (by rw [htwo]; decide)
        have hn1 := hle htwo
        refine ⟨n + 1, calls, ev, now, [], rfl, hev, hev.2.1, hn, by omega, ?_⟩
        intro middle rest heq
        obtain ⟨rfl, rfl⟩ := List.append_eq_nil_iff.mp heq.symm
        exact hpending
      · cases ha

theorem Accounted.handle (h : Accounted ops calls) (ev : InputEv) (now : ℤ) :
    Accounted ops (calls ++ [.handle ev now]) := by
  have hresult : ¬ SetsResult (.handle ev now : Call R P) := by
    rintro ⟨_, _, hcall⟩
    cases hcall
  rcases (handle_move ops (run ops calls) ev now).confirm_cases with
    ⟨hzero, haction⟩ | ⟨hev, hstep⟩ | ⟨hev, hone, haction⟩ | ⟨hcounter, haction, hstate⟩
  · refine ⟨fun hc => ?_, fun ha => ?_⟩
    · rw [run_append_singleton] at hc
      exact absurd hzero hc
    · rw [run_append_singleton] at ha
      exact (h.action (haction.symm.trans ha)).append_singleton ha
  · exact h.submit now hev hstep
  · refine ⟨fun hc => ⟨0, .choose calls ev now hev hev.completeDisabled, fun htwo => ?_⟩,
      fun ha => ?_⟩
    · rw [run_append_singleton, step, hone] at htwo
      cases htwo
    · rw [run_append_singleton, step, haction, hev.2.1] at ha
      cases ha
  · exact h.wait hcounter haction hstate hresult

/-- A result ends a correction, or starts it again. -/
theorem Accounted.accountSetResult (h : Accounted ops calls) (status : AccountResult)
    (localState : AccountLocal) :
    Accounted ops (calls ++ [.accountSetResult status localState]) := by
  obtain ⟨fields, length, message, editing, confirm, heq, hconfirm, -, -⟩ :=
    (run ops calls).accountSetResult_eq status localState
  refine ⟨fun hc => ?_, fun ha => ?_⟩
  · rw [run_append_singleton, step, heq] at hc ⊢
    obtain ⟨hone, rfl, hcounter, -, -⟩ := hconfirm hc
    obtain ⟨n, hn, -⟩ := h.counter hcounter
    refine ⟨0, .restart n calls localState hn, fun htwo => ?_⟩
    exact absurd (hone.symm.trans htwo) (by decide)
  · rw [run_append_singleton] at ha
    refine (h.action ?_).append_singleton ha
    rw [step, heq] at ha
    exact ha

theorem Accounted.snoc (h : Accounted ops calls) (call : Call R P) :
    Accounted ops (calls ++ [call]) := by
  have hresult : (∀ status localState, call ≠ .accountSetResult status localState) →
      ¬ SetsResult call := by
    rintro hne ⟨status, localState, rfl⟩
    exact hne status localState rfl
  cases call with
  | handle ev now => exact h.handle ev now
  | accountSetResult status localState => exact h.accountSetResult status localState
  | takeSyncAction => exact h.wait rfl (.inl rfl) id (hresult (by simp))
  | accountTakeAction =>
    exact h.wait rfl (.inr (by simp [step, accountTakeAction])) id (hresult (by simp))
  | accountClearPassword => exact h.wait rfl (.inl rfl) id (hresult (by simp))
  | accountPrefill url device =>
    refine h.wait ?_ (.inl ?_) ?_ (hresult (by simp)) <;> rw [step, accountPrefill] <;> split <;>
      first | rfl | exact id
  | setLibrary lib => exact h.wait rfl (.inl rfl) id (hresult (by simp))
  | setReader created => exact h.wait rfl (.inl rfl) id (hresult (by simp))
  | showSyncConflict =>
    refine h.wait ?_ (.inl ?_) ?_ (hresult (by simp)) <;> rw [step, showSyncConflict] <;> split <;>
      first | rfl | exact id
  | showSyncFeedback feedback =>
    refine h.wait ?_ (.inl ?_) ?_ (hresult (by simp)) <;> rw [step, showSyncFeedback] <;> split <;>
      first | rfl | exact id
  | readerGotoPosition position => exact h.wait rfl (.inl rfl) id (hresult (by simp))
  | render measure =>
    refine h.wait ?_ (.inl ?_) ?_ (hresult (by simp)) <;> rw [step, render] <;> split <;>
      first | rfl | exact id

theorem accounted (ops : ReaderOps R P) (calls : List (Call R P)) : Accounted ops calls := by
  induction calls using List.reverseRecOn with
  | nil => exact ⟨fun h => absurd rfl h, fun h => absurd h (by simp [init])⟩
  | append_singleton calls call ih => exact ih.snoc call

/-- **Every request to replace a saved account was confirmed twice.** Whenever the application
takes such a request, it was emitted by an activation of the form's button, when no action was
pending, and was pending ever since; that activation was at least the second after the correction
was chosen, while a complete account was disabled, or after an invalid input restarted the
correction, with no leave of the screen and no other result in between. -/
theorem replaceDisabled_confirmed (ops : ReaderOps R P) (calls : List (Call R P))
    (h : (run ops calls).accountTakeAction.1 = .replaceDisabled) : Emitted ops calls :=
  (accounted ops calls).action h

/-- A key. -/
def key (type : InputEvent) : Call Unit Unit := .handle ⟨type, 0, 0⟩ 0

/-- The correction of a saved account chosen, and the button activated twice. -/
def correctOnce : List (Call Unit Unit) :=
  [.accountSetResult .precondition .completeDisabled, key .pageNext, key .menu, key .pagePrev,
    key .menu, key .menu]

/-- The account screen entered, and a saved account replaced twice: the second request was
confirmed on its own. -/
def correctTwice : List (Call Unit Unit) :=
  [key .menu, .accountTakeAction] ++ correctOnce ++ [.accountTakeAction] ++ correctOnce

theorem replaceDisabled_confirmed_correctTwice : Emitted .onePage correctTwice :=
  replaceDisabled_confirmed .onePage correctTwice (by decide +kernel)

end CnUi
