import CrossNook.Account.Lifecycle
import CrossNook.Platform.StorageVerify
import CrossNook.UI.Ui

/-!
# The application of the account screen

The application carries out what the account screen asks for (`app/account_setup_ui.c`): it takes
the action, verifies the storage again, calls the controller and puts the report on the screen. The
state of the account that the screen shows is the one from before the call, unless the report says
that the account is enabled.

## Main definitions

* `AccountSetupUi.process`: `cn_account_setup_ui_process`
* `AccountSetupUi.Handled`: a call that carried out an action

## Main results

* `AccountSetupUi.reflects_iff`: when the screen shows the state that the account is in
* `AccountSetupUi.shows_old_state`: a new account that is stored and not shown
-/

namespace AccountSetupUi

open Bytes (ascii)
open Crash Kosync Posix
open Account (View view)
open AccountSetup
open StorageLayout (Layout)
open SyncActivation (Runtime)
open StorageVerify (Candidate Verified Source verifyWithSource)

/-- `cn_account_setup_ui`. -/
structure App where
  candidate : Candidate
  verified : Verified
  layout : Layout
  runtime : Runtime
  prepared : Bool

/-- `ui_local`. -/
def uiLocal : LocalState → AccountLocal
  | .noAccount => .noAccount
  | .partialDisabled => .partialDisabled
  | .orphanCredentials => .orphanCredentials
  | .completeDisabled => .completeDisabled
  | .enabled => .enabled
  | .corruptOrUnsupported => .corrupt
  | .unreadable => .unreadable
  | .unknown => .unknown

/-- `ui_result`. -/
def uiResult : Status → AccountResult
  | .activated => .activated
  | .alreadyEnabled => .alreadyEnabled
  | .invalidInput => .invalidInput
  | .precondition => .precondition
  | .incompleteState => .incomplete
  | .corruptOrUnsupportedState => .corrupt
  | .bootstrapFailed => .bootstrapFailed
  | .bootstrapDurabilityUncertain => .bootstrapUncertain
  | .identityFailed => .identityFailed
  | .identityDurabilityUncertain => .identityUncertain
  | .authRejected => .authRejected
  | .infrastructureOrServiceFailed => .infrastructureFailed
  | .activationSaveFailed => .saveFailed
  | .activationDurabilityUncertain => .activationUncertain
  | .enabledProfileUnavailable => .profileUnavailable
  | .activationFailed => .activationFailed

section Process

variable {R : Type}

/-- `apply_report`, of the status and the state in a report. -/
def applyReport (ui : CnUi R) (status : Status) (localState : LocalState) : CnUi R :=
  ui.accountSetResult (uiResult status) (uiLocal localState)

/-- `verify_again`. -/
def verifyAgain (app : App) (source : Source) : Bool :=
  match verifyWithSource app.candidate source with
  | .error _ => false
  | .ok now => now = app.verified

/-- `prefill_partial`. -/
def prefillPartial (app : App) (ui : CnUi R) : Env (CnUi R) :=
  match StorageLayout.path app.layout .config StorageLayout.pathCapacity with
  | .error _ => return ui
  | .ok config => do
    let w ← Prog.get
    match ← sys (SettingsStore.init (some config) w.pid) with
    | .error _ => return ui
    | .ok store => do
      let loaded ← sys (SettingsStore.load store w.pid)
      if loaded.result ≠ .ok then return ui
      else
        return ui.accountPrefill (some loaded.settings.kosyncBaseUrl)
          (some loaded.settings.kosyncDeviceName)

/-- The input of the screen for the controller. -/
def setupInput (input : CnUi.AccountInput) : Input where
  baseUrl := some input.baseUrl
  deviceName := some input.deviceName
  username := some input.username
  password := some input.password

/-- `cn_account_setup_ui_process` with an action that submits. -/
def processSubmit (app : App) (entropy : Option (Fin 16 → UInt8)) (intent : Intent) (ui : CnUi R) :
    Env (ℤ × CnUi R) :=
  match ui.accountGetInput with
  | none => return (-1, ui)
  | some input => do
    let report ← submit app.layout (some (setupInput input)) intent (some app.runtime) entropy
    return (1, applyReport ui.accountWipe report.status report.localState)

/-- `cn_account_setup_ui_process`. -/
def process (app : App) (source : Source) (entropy : Option (Fin 16 → UInt8)) (ui : CnUi R) :
    Env (ℤ × CnUi R) :=
  let (action, ui) := ui.accountTakeAction
  if action = .none then return (0, ui)
  -- the storage may have been changed since the application was set up
  else if ¬ app.prepared ∨ ¬ verifyAgain app source then
    return (1, applyReport ui .precondition .unreadable)
  else
    match action with
    | .inspect | .recheck => do
      let report ← inspect app.layout
      let ui := applyReport ui report.status report.localState
      -- what is stored of an account that is not complete is shown in its fields
      if report.localState = .partialDisabled then do
        let ui ← prefillPartial app ui
        return (1, ui)
      else return (1, ui)
    | .activateExisting => do
      let report ← activateExisting app.layout (some app.runtime) entropy
      return (1, applyReport ui report.status report.localState)
    | .submitNewOrResume => processSubmit app entropy .newOrResume ui
    | .replaceDisabled => processSubmit app entropy .replaceDisabled ui
    | .none => return (0, ui)

end Process

/-! ## The state after a call -/

section After

variable {layout : Layout} {pid : ℕ} {v v' : View} {w w' : World}

/-- The files of an account can be reached. -/
structure Reachable (layout : Layout) (pid : ℕ) (v : View) : Prop where
  valid : StorageLayout.layoutValid layout = true
  settings : ¬ SettingsStore.Blocked (v.lookSettings layout pid)
  credentials : ¬ CredentialStore.Blocked (v.lookCredentials layout)

/-- The directories of an account are kept. -/
def SameDirectories (v v' : View) : Prop := v'.config = v.config ∧ v'.state = v.state

theorem Reachable.enabled (h : Reachable layout pid v) (hdirs : SameDirectories v v')
    {settings : Settings} (hs : v'.storedSettings = .ok settings)
    (henabled : settings.kosyncEnabled ≠ 0) : classify layout pid v' = .enabled := by
  have hstate : settingsState .ok settings = some .enabled := by
    simp [settingsState, resultIsCorruptSettings, henabled]
  rw [classify, if_neg (not_not.mpr h.valid), View.lookSettings_eq h.settings hdirs.1, hs,
    SettingsStore.answer]
  dsimp only
  rw [hstate]

theorem Reachable.classify_disabled (h : Reachable layout pid v) (hdirs : SameDirectories v v')
    {settings : Settings} (hs : v'.storedSettings = .ok settings)
    (hdisabled : settings.kosyncEnabled = 0) :
    classify layout pid v' =
      credentialState false (CredentialStore.answer v'.storedCredentials).1 := by
  have hstate : settingsState .ok settings = none := by
    simp [settingsState, resultIsCorruptSettings, hdisabled]
  rw [classify, if_neg (not_not.mpr h.valid), View.lookSettings_eq h.settings hdirs.1,
    View.lookCredentials_eq h.credentials hdirs.2, hs, SettingsStore.answer]
  dsimp only
  rw [hstate]
  rfl

theorem Reachable.complete (h : Reachable layout pid v) (hdirs : SameDirectories v v')
    {settings : Settings} {credentials : Credentials} (hs : v'.storedSettings = .ok settings)
    (hdisabled : settings.kosyncEnabled = 0) (hc : v'.storedCredentials = .ok credentials) :
    classify layout pid v' = .completeDisabled := by
  rw [h.classify_disabled hdirs hs hdisabled, hc]
  rfl

/-- The files of an account without a file in error can be reached. -/
theorem reachable_of_classify {files : Path → Option Node} {localState : LocalState}
    (h : classify layout pid (view layout files) = localState)
    (hstate : localState = .noAccount ∨ localState = .partialDisabled ∨
      localState = .completeDisabled) : Reachable layout pid (view layout files) := by
  have hvalid : StorageLayout.layoutValid layout = true := by
    by_contra hvalid
    rw [classify, if_pos hvalid] at h
    subst h
    simp at hstate
  have hfound := found layout pid files
  rw [h] at hfound
  -- records that are read or missing do not block the way to their directories
  have hsettings : ∀ {settings : Settings},
      (view layout files).lookSettings layout pid = .ok settings →
      ¬ SettingsStore.Blocked ((view layout files).lookSettings layout pid) := by
    rintro settings hs ⟨result, he, -⟩
    rw [hs] at he
    cases he
  have hmissing : (view layout files).lookCredentials layout = .error .missing →
      ¬ CredentialStore.Blocked ((view layout files).lookCredentials layout) := by
    rintro hc ⟨result, he, -, hne, -⟩
    rw [hc] at he
    cases he
    exact hne rfl
  -- in each of the three states the records are such
  rcases hstate with rfl | rfl | rfl <;> cases hfound
  · refine ⟨hvalid, ?_, hmissing ‹_›⟩
    rintro ⟨result, he, -, hne, -⟩
    rename_i hs hc
    rw [hs] at he
    cases he
    exact hne rfl
  · exact ⟨hvalid, hsettings ‹_›, hmissing ‹_›⟩
  · refine ⟨hvalid, hsettings ‹_›, ?_⟩
    rintro ⟨result, he, -⟩
    rename_i hs hdisabled hc
    rw [hc] at he
    cases he

theorem enabled_of_classify {files : Path → Option Node}
    (h : classify layout pid (view layout files) = .enabled) : (view layout files).Enabled := by
  have hfound := found layout pid files
  rw [h] at hfound
  cases hfound with
  | enabled hs henabled => exact ⟨_, View.lookSettings_stored hs, henabled⟩

theorem sameDirectories_of_wrote {settings : Settings} {credentials : Credentials} {a b : Bool}
    (h : AccountBootstrap.Wrote settings credentials a b v v') : SameDirectories v v' := by
  cases h.written with
  | neither => exact ⟨rfl, rfl⟩
  | settings hsaved =>
    obtain ⟨node, -, rfl⟩ := hsaved
    exact ⟨rfl, rfl⟩
  | credentials hsaved =>
    obtain ⟨node, -, rfl⟩ := hsaved
    exact ⟨rfl, rfl⟩
  | both hsaved hsaved' =>
    obtain ⟨node, -, rfl⟩ := hsaved
    obtain ⟨node', -, rfl⟩ := hsaved'
    exact ⟨rfl, rfl⟩

/-- The state that the screen shows for a report. -/
def shown (status : Status) (localState : LocalState) : LocalState :=
  if status = .activated ∨ status = .alreadyEnabled ∨ status = .enabledProfileUnavailable then
    .enabled
  else localState

theorem resultLocal_uiResult (status : Status) (localState : LocalState) :
    CnUi.resultLocal (uiResult status) (uiLocal localState) = uiLocal (shown status localState) := by
  cases status <;> rfl

theorem uiLocal_injective : Function.Injective uiLocal := by
  intro a b h
  cases a <;> cases b <;> first | rfl | cases h

theorem shown_of_activated {status : Status} (h : Activated status) (localState : LocalState) :
    shown status localState = .enabled := by
  rcases h with rfl | rfl <;> rfl

/-- A report whose durability is known. -/
def Certain (status : Status) : Prop := ¬ CnUi.Uncertain (uiResult status)

/-- What a preparation and an activation leave of a complete account: it is enabled and shown so,
or it is complete and the report does not say otherwise. -/
theorem shown_of_prepares {status : Status} (h : Prepares layout w (some status) w')
    (hcertain : Certain status) (hreach : Reachable layout pid (view layout w.files))
    {settings : Settings} {credentials : Credentials}
    (hs : (view layout w.files).storedSettings = .ok settings) (hdisabled : settings.kosyncEnabled = 0)
    (hc : (view layout w.files).storedCredentials = .ok credentials) :
    Activated status ∧ classify layout pid (view layout w'.files) = .enabled ∨
      (∀ localState, shown status localState = localState) ∧
        classify layout pid (view layout w'.files) = .completeDisabled := by
  have hcomplete : ∀ {v : View}, SameDirectories (view layout w.files) v →
      v.storedSettings = (view layout w.files).storedSettings →
      v.storedCredentials = (view layout w.files).storedCredentials →
      classify layout pid v = .completeDisabled := fun hdirs hs' hc' =>
    hreach.complete hdirs (hs'.trans hs) hdisabled (hc'.trans hc)
  have hnot : ¬ (view layout w.files).Enabled := by
    rintro ⟨settings', hs', henabled⟩
    obtain rfl := Except.ok.inj (hs.symm.trans hs')
    exact henabled hdisabled
  cases h with
  -- nothing was asked of the activation: the files are as they were
  | stopped hr hview =>
    refine .inr ⟨fun localState => ?_, ?_⟩
    · cases status <;> first | exact hr.elim | rfl
    · rw [hview]
      exact hcomplete ⟨rfl, rfl⟩ rfl rfl
  -- otherwise its own report tells whether the account is enabled
  | @activated w₁ w₂ _ identity status' hview hevents h hfiles hafter hr =>
    rw [hfiles]
    have hquiet : view layout w₂.files = view layout w₁.files →
        classify layout pid (view layout w₂.files) = .completeDisabled := by
      intro hkept
      rw [hkept, hview]
      exact hcomplete ⟨rfl, rfl⟩ rfl rfl
    -- a report that may not enable shows what the storage holds
    have hkeeps : ∀ {status' : Option SyncActivation.Status}, SyncActivation.MayNotEnable status' →
        status' ≠ some .alreadyEnabled → Reports status' (some status) →
        ∀ localState, shown status localState = localState := by
      intro status' hmay hne hr localState
      rcases status' with _ | status'
      · cases hr
      · cases status' <;> first | exact hmay.elim | exact absurd rfl hne | (cases hr; rfl)
    cases h with
    | quiet hmay hkept _ henabled =>
      refine .inr ⟨hkeeps hmay (fun he => hnot ?_) hr, hquiet hkept⟩
      have := henabled he
      rw [hview] at this
      exact this
    | asked hmay hne _ _ hkept => exact .inr ⟨hkeeps hmay hne hr, hquiet hkept⟩
    | enabled hmay hready _ _ hsaved =>
      left
      constructor
      · rcases status' with _ | status'
        · cases hr
        · cases status' <;> first | exact hmay.elim | skip
          · rcases hr with hr | hr | hr <;> cases hr
            exacts [.inl rfl, .inr rfl]
          · cases hr
            exact absurd (.inr (.inr rfl)) hcertain
      · have hdirs : SameDirectories (view layout w.files) (view layout w₂.files) := by
          obtain ⟨node, -, hnode⟩ := hsaved
          rw [hnode, hview]
          exact ⟨rfl, rfl⟩
        exact hreach.enabled hdirs hsaved.stored (by simp)

/-- When a report shows the state after a call: it is the state before, and a call for a new
account either leaves that state or enables the account. -/
def Fits (fresh : Prop) (before after localState : LocalState) (status : Status) : Prop :=
  shown status localState = after ↔
    localState = before ∧ (fresh → after = before ∨ after = .enabled)

theorem fits_of_kept {fresh : Prop} {before after localState : LocalState} {status : Status}
    (hleaves : LeavesFiles (some status))
    (henabled : some status = some Status.alreadyEnabled → localState = .enabled)
    (hafter : after = before) : Fits fresh before after localState status := by
  subst hafter
  have hshown : shown status localState = localState := by
    cases status <;> first | exact hleaves.elim | rfl | skip
    rw [henabled rfl]
    rfl
  rw [Fits, hshown]
  exact ⟨fun h => ⟨h, fun _ => .inl rfl⟩, And.left⟩

/-- A call for a new account that does not enable it. -/
theorem fits_of_new {fresh : Prop} {before after localState : LocalState} {status : Status}
    (hshown : shown status localState = localState) (hlocal : localState = before) (hfresh : fresh)
    (hafter : after ≠ .enabled) : Fits fresh before after localState status := by
  rw [Fits, hshown, hlocal]
  exact ⟨fun h => ⟨rfl, fun _ => .inl h.symm⟩, fun h => ((h.2 hfresh).resolve_right hafter).symm⟩

/-- A call after which the report shows the state. -/
theorem fits_of_shown {fresh : Prop} {before after localState : LocalState} {status : Status}
    (hshown : shown status localState = after) (hlocal : localState = before)
    (hafter : after = before ∨ after = .enabled) : Fits fresh before after localState status :=
  ⟨fun _ => ⟨hlocal, fun _ => hafter⟩, fun _ => hshown⟩

/-- **A submission.** -/
theorem fits_of_submitted {input : Option Input} {intent : Intent} {localState : LocalState}
    {status : Status} (h : Submitted layout pid input intent w localState (some status) w')
    (hcertain : Certain status) :
    Fits (intent = .newOrResume) (classify layout pid (view layout w.files))
      (classify layout pid (view layout w'.files)) localState status := by
  cases h with
  | refused hleaves hview _ henabled => exact fits_of_kept hleaves henabled (by rw [hview])
  | stopped _ hproceeds hdesired hwrote _ hr =>
    have hshown : shown status localState = localState := by
      cases status <;> first | exact hr.elim | rfl
    have hnot : ¬ (view layout w'.files).Enabled :=
      not_enabled_of_wrote hwrote hdesired.disabled hproceeds.not_enabled
    have hafter : classify layout pid (view layout w'.files) ≠ .enabled :=
      fun h => hnot (enabled_of_classify h)
    obtain ⟨hlocal, ⟨hintent, -⟩ | ⟨-, hstate⟩⟩ := hproceeds
    · exact fits_of_new hshown hlocal hintent hafter
    -- a complete account stays complete, whichever of its records are saved
    have hbefore := hlocal.symm.trans hstate
    have hreach := reachable_of_classify hbefore (.inr (.inr rfl))
    have hfound := found layout pid w.files
    rw [hbefore] at hfound
    have hcomplete : classify layout pid (view layout w'.files) = .completeDisabled := by
      cases hfound with
      | completeDisabled hs hdisabled hc =>
        have hdirs := sameDirectories_of_wrote hwrote
        have hordered := hwrote.ordered
        have hwritten := hwrote.written
        generalize view layout w'.files = v' at hdirs hordered hwritten ⊢
        cases hwritten with
        | neither => exact hbefore
        | settings hsaved =>
          have hkept := View.lookCredentials_stored hc
          rw [View.storedCredentials, ← hsaved.credentials_eq] at hkept
          exact hreach.complete hdirs hsaved.stored hdesired.disabled hkept
        | credentials hsaved =>
          exact hreach.complete hdirs (hordered rfl) hdesired.disabled hsaved.stored
        | both _ hsaved =>
          exact hreach.complete hdirs (hordered rfl) hdesired.disabled hsaved.stored
    exact fits_of_shown (hshown.trans (hstate.trans hcomplete.symm)) hlocal
      (.inl (hcomplete.trans hbefore.symm))
  -- both records are stored: the account is complete, and the activation decides
  | stored _ hproceeds hdesired hwrote _ hs hc h =>
    obtain ⟨hlocal, hwhy⟩ := hproceeds
    have hreach := reachable_of_classify hlocal.symm (by
      rcases hwhy with ⟨-, hstate | ⟨hstate, -⟩⟩ | ⟨-, hstate⟩
      exacts [.inl hstate, .inr (.inl hstate), .inr (.inr hstate)])
    have hdirs := sameDirectories_of_wrote hwrote
    have hreach₁ := reachable_of_classify (hreach.complete hdirs hs hdesired.disabled hc)
      (.inr (.inr rfl))
    rcases shown_of_prepares h hcertain hreach₁ hs hdesired.disabled hc with
      ⟨hshown, hafter⟩ | ⟨hshown, hafter⟩
    · exact fits_of_shown ((shown_of_activated hshown localState).trans hafter.symm) hlocal
        (.inr hafter)
    · rcases hwhy with ⟨hintent, -⟩ | ⟨-, hstate⟩
      · exact fits_of_new (hshown localState) hlocal hintent (by rw [hafter]; simp)
      · exact fits_of_shown ((hshown localState).trans (hstate.trans hafter.symm)) hlocal
          (.inl (hafter.trans (hstate.symm.trans hlocal)))

/-- **The activation of an account that is stored.** -/
theorem fits_of_activatedExisting {localState : LocalState} {status : Status}
    (h : ActivatedExisting layout pid w localState (some status) w') (hcertain : Certain status) :
    Fits False (classify layout pid (view layout w.files))
      (classify layout pid (view layout w'.files)) localState status := by
  cases h with
  | refused hleaves hview _ henabled => exact fits_of_kept hleaves henabled (by rw [hview])
  | prepared hstate hlocal h =>
    have hreach := reachable_of_classify hstate (.inr (.inr rfl))
    have hfound := found layout pid w.files
    rw [hstate] at hfound
    cases hfound with
    | completeDisabled hs hdisabled hc =>
      rcases shown_of_prepares h hcertain hreach (View.lookSettings_stored hs) hdisabled
          (View.lookCredentials_stored hc) with ⟨hshown, hafter⟩ | ⟨hshown, hafter⟩
      · exact fits_of_shown ((shown_of_activated hshown localState).trans hafter.symm)
          (hlocal.trans hstate.symm) (.inr hafter)
      · exact fits_of_shown ((hshown localState).trans (hlocal.trans hafter.symm))
          (hlocal.trans hstate.symm) (.inl (hafter.trans hstate.symm))

/-! ### A submission that stops half way -/

/-- The state of an account is another one now, and not enabled. -/
def Strays (before after : LocalState) : Prop := after ≠ before ∧ after ≠ .enabled

theorem not_strays_of_eq {before after : LocalState} (h : after = before) : ¬ Strays before after :=
  fun hs => hs.1 h

/-- The state where the settings are stored and the credentials are still missing. -/
theorem Reachable.settingsOnly (h : Reachable layout pid v) (hdirs : SameDirectories v v')
    {settings : Settings} (hs : v'.storedSettings = .ok settings)
    (hdisabled : settings.kosyncEnabled = 0) (hc : v.lookCredentials layout = .error .missing)
    (hkept : v'.credentials = v.credentials) : classify layout pid v' = .partialDisabled := by
  have hmissing : v'.storedCredentials = .error .missing := by
    rw [View.storedCredentials, hkept, ← View.storedCredentials, ← hc]
    exact (View.lookCredentials_eq h.credentials rfl).symm
  rw [h.classify_disabled hdirs hs hdisabled, hmissing]
  rfl

theorem savedCredentials_missing {files : Path → Option Node}
    (h : classify layout pid (view layout files) = .noAccount ∨
      classify layout pid (view layout files) = .partialDisabled) :
    (view layout files).lookCredentials layout = .error .missing := by
  have hfound := found layout pid files
  rcases h with h | h <;> rw [h] at hfound <;> cases hfound <;> assumption

/-- What a submission of an accepted input has stored strays from the state before, exactly where
it stops half way. -/
theorem ends_storeInput_halfWay {report : AccountSetup.Report} {input : Input}
    (runtime : Option Runtime) (entropy : Option (Fin 16 → UInt8)) {before : LocalState}
    (hroot : StorageLayout.ValidRoot layout) (hfiles : w'.files = w.files)
    (hbefore : classify layout w.pid (view layout w.files) = before)
    (hstate : before = .noAccount ∨ before = .partialDisabled) :
    Ends (storeInput report layout input runtime entropy) w'
      (fun r w'' => Certain r.status →
        (AccountBootstrap.Reaches layout input.baseUrl input.deviceName input.username input.password
          w'.pid w'.sequence (fun saved m =>
            AccountBootstrap.savedResult saved = .credentialsWriteFailed ∧ before = .noAccount ∨
              AccountBootstrap.savedResult saved = .ok ∧
                ¬ Activates layout runtime entropy { w' with machine := m }) w'.machine ↔
          Strays before (classify layout w.pid (view layout w''.files))))
      fun _ => True := by
  have hreach := reachable_of_classify hbefore (hstate.imp_right .inl)
  have hmissing := @savedCredentials_missing layout w.pid w.files (by rwa [hbefore])
  have hnot : ¬ (view layout w.files).Enabled := by
    have hfound := found layout w.pid w.files
    rw [hbefore] at hfound
    rcases hstate with rfl | rfl <;> cases hfound
    exacts [not_enabled_of_look (.inl ‹_›), not_enabled_of_look (.inr ⟨_, ‹_›, ‹_›⟩)]
  have hreaches := @AccountBootstrap.returns_bootstrap w'.pid w'.sequence w'.machine layout
    input.baseUrl input.deviceName input.username input.password
    (fun result m => result = .credentialsWriteFailed ∧ before = .noAccount ∨
      result = .ok ∧ ¬ Activates layout runtime entropy { w' with machine := m })
    fun result m h => h.symm.imp And.left And.left
  unfold storeInput
  rw [ends_bind, ends_get, ends_bind, ends_sys]
  refine ((ends_run _ _).and (AccountBootstrap.ends_bootstrap layout _ _ _ _ w'.pid w'.sequence
    w'.machine)).mono ?_ fun _ _ => trivial
  rintro ⟨bootstrap, e⟩ machine ⟨hrun, hended⟩
  have hiff := hreaches.symm.trans (returns_of_eq hrun)
  rw [show w'.machine.files = w.files from hfiles] at hended
  -- a bootstrap that ends before its saves leaves the files
  have hleft : bootstrap.result.BeforeSaves → machine.files = w.files → ∀ r : AccountSetup.Report,
      Certain r.status → (AccountBootstrap.Reaches layout input.baseUrl input.deviceName
          input.username input.password w'.pid w'.sequence (fun saved m =>
            AccountBootstrap.savedResult saved = .credentialsWriteFailed ∧ before = .noAccount ∨
              AccountBootstrap.savedResult saved = .ok ∧
                ¬ Activates layout runtime entropy { w' with machine := m }) w'.machine ↔
        Strays before (classify layout w.pid (view layout machine.files))) := by
    intro hresult hf _ _
    rw [hiff]
    refine iff_of_false ?_ (not_strays_of_eq (by rw [hf, hbefore]))
    rintro (⟨hr, -⟩ | ⟨hr, -⟩) <;> rw [hr] at hresult <;> exact hresult
  dsimp only
  rcases hended with ⟨hf, -, -, -, hresult, hactive⟩ |
    ⟨settings, credentials, -, hdesired, hattempted⟩
  · have hne : bootstrap.result ≠ .ok := by
      intro hok
      rw [hok] at hresult
      exact hresult
    rw [if_pos hne]
    exact hleft hresult hf _
  have hdisabled := (AccountBootstrap.desired_of_eq hdesired).disabled
  have hactive : bootstrap.result ≠ .existingActive := fun h => hnot (hattempted.did.active h)
  by_cases hok : bootstrap.result = .ok
  · -- both records are stored: the account is complete, and its activation decides
    rw [if_neg (not_not.mpr hok)]
    obtain ⟨hs, hc⟩ := hattempted.did.ok hok
    have hdirs := sameDirectories_of_wrote hattempted.did.wrote
    have hreach' := reachable_of_classify (hreach.complete hdirs hs hdisabled hc) (.inr (.inr rfl))
    refine ((ends_prepareAndActivate hroot _ runtime entropy _).and
      (ends_prepareAndActivate_activated _ layout runtime entropy _)).mono ?_ fun _ _ => trivial
    rintro r w'' ⟨⟨-, hprepares⟩, hactivated⟩ hcertain
    rw [hiff, ← hactivated]
    rcases shown_of_prepares hprepares hcertain hreach' hs hdisabled hc with
      ⟨hshown, hafter⟩ | ⟨hshown, hafter⟩
    · refine iff_of_false ?_ fun h => h.2 hafter
      rintro (⟨hr, -⟩ | ⟨-, hnone⟩)
      · rw [hok] at hr
        cases hr
      · exact hnone hshown
    · refine iff_of_true (.inr ⟨hok, fun h => ?_⟩) ⟨?_, by rw [hafter]; simp⟩
      · have hboth := (hshown .noAccount).symm.trans (shown_of_activated h .noAccount)
        cases hboth
      · rw [hafter]
        rcases hstate with rfl | rfl <;> simp
  · rw [if_pos hok, if_neg hactive]
    by_cases hresult : bootstrap.result.BeforeSaves
    · exact hleft hresult (hattempted.refused hresult) _
    intro hcertain
    rw [hiff]
    cases hcase : bootstrap.result with
    | settingsWriteFailed =>
      have hkept : view layout machine.files = view layout w.files :=
        hattempted.did.settingsFailed hcase
      refine iff_of_false (by simp) (not_strays_of_eq ?_)
      exact (congrArg (classify layout w.pid) hkept).trans hbefore
    | credentialsWriteFailed =>
      -- the settings are stored now, and the credentials are missing still
      obtain ⟨hs, hkept⟩ := hattempted.did.credentialsFailed hcase
      have hafter : classify layout w.pid (view layout machine.files) = .partialDisabled :=
        hreach.settingsOnly (sameDirectories_of_wrote hattempted.did.wrote) hs hdisabled hmissing hkept
      change _ ↔ Strays before (classify layout w.pid (view layout machine.files))
      rw [hafter, Strays]
      rcases hstate with rfl | rfl <;> simp
    | durabilityUncertain =>
      refine absurd hcertain ?_
      rw [Certain, bootstrapStatus, if_pos hcase, not_not]
      exact .inl rfl
    | ok => exact absurd hcase hok
    | existingActive => exact absurd hcase hactive
    | _ =>
      rw [hcase] at hresult
      exact absurd trivial hresult

/-- An input that is accepted is not refused, where the state was observed. -/
theorem refusal_eq_none_iff {input : Input} {observation : Observation} {H : Prop}
    (hobserved : Observed H layout pid v observation)
    (hlocal : observation.localState = classify layout pid v)
    (hfound : Found layout pid v (classify layout pid v))
    (horphan : observation.localState ≠ .orphanCredentials)
    (henabled : observation.localState ≠ .enabled) (hresult : observation.localState.result = .ok) :
    refusal (initialReport.observed observation) (some input) .newOrResume observation.settings =
      none ↔ Accepts layout pid input v := by
  have hsame : (initialReport.observed observation).localState = classify layout pid v := hlocal
  unfold refusal Accepts
  rw [hsame]
  rw [hlocal] at horphan henabled hresult
  by_cases hvalid : setupInputBasicValid (some input) = true
  swap
  · refine iff_of_false ?_ fun h => hvalid h.1
    split_ifs <;> simp
  cases hstate : classify layout pid v with
  | noAccount => simp [hvalid]
  | partialDisabled =>
    have hlook := hobserved.settings_eq (hlocal.trans hstate)
    simp [hvalid, hlook]
  | completeDisabled => simp
  | orphanCredentials => exact absurd hstate horphan
  | enabled => exact absurd hstate henabled
  | corruptOrUnsupported | unreadable =>
    rw [hstate] at hresult
    cases hresult
  | unknown =>
    rw [hstate] at hfound
    cases hfound

/-- **A submission of a new account strays** from the state before exactly where its input is
accepted and it stops half way. -/
theorem ends_submit_halfWay (layout : Layout) (input : Input) (runtime : Option Runtime)
    (entropy : Option (Fin 16 → UInt8)) (w : World) :
    Ends (submit layout (some input) .newOrResume runtime entropy) w
      (fun r w' => r.localState = classify layout w.pid (view layout w.files) → Certain r.status →
        (Accepts layout w.pid input (view layout w.files) ∧
            StopsHalfWay layout input runtime entropy w ↔
          Strays (classify layout w.pid (view layout w.files))
            (classify layout w.pid (view layout w'.files))))
      fun _ => True := by
  unfold submit
  rw [ends_bind, ends_get, ends_bind, ends_sys]
  refine ((ends_run _ _).and (ends_observeState layout w.pid id)).mono ?_ fun _ _ => trivial
  rintro observation machine ⟨hrun, hf, hobserved⟩
  -- what is refused is not accepted, and leaves the files
  have hrefused : ∀ r : AccountSetup.Report, (observation.localState = classify layout w.pid
      (view layout w.files) → ¬ Accepts layout w.pid input (view layout w.files)) →
      observation.localState = classify layout w.pid (view layout w.files) → Certain r.status →
        (Accepts layout w.pid input (view layout w.files) ∧
            StopsHalfWay layout input runtime entropy w ↔
          Strays (classify layout w.pid (view layout w.files))
            (classify layout w.pid (view layout machine.files))) := by
    intro r hnot hlocal _
    exact iff_of_false (fun h => hnot hlocal h.1) (not_strays_of_eq (by rw [hf]))
  have hstate : Accepts layout w.pid input (view layout w.files) →
      classify layout w.pid (view layout w.files) = .noAccount ∨
        classify layout w.pid (view layout w.files) = .partialDisabled :=
    fun h => h.2.imp id And.left
  dsimp only
  by_cases hresult : observation.result = .ok
  swap
  · rw [if_pos hresult]
    refine hrefused _ fun hlocal h => hresult ?_
    rw [hobserved.result_eq, hlocal]
    rcases hstate h with h | h <;> rw [h] <;> rfl
  rw [if_neg (not_not.mpr hresult)]
  have hsame : (initialReport.observed observation).localState = observation.localState := rfl
  by_cases horphan : observation.localState = .orphanCredentials
  · rw [if_pos (hsame.trans horphan)]
    refine hrefused _ fun hlocal h => ?_
    rcases hstate h with h | h <;> rw [← hlocal, horphan] at h <;> cases h
  rw [if_neg (fun h => horphan (hsame.symm.trans h))]
  by_cases henabled : observation.localState = .enabled
  · rw [if_pos (hsame.trans henabled)]
    refine hrefused _ fun hlocal h => ?_
    rcases hstate h with h | h <;> rw [← hlocal, henabled] at h <;> cases h
  rw [if_neg (fun h => henabled (hsame.symm.trans h))]
  rw [hobserved.result_eq] at hresult
  have haccepts : observation.localState = classify layout w.pid (view layout w.files) →
      (refusal (initialReport.observed observation) (some input) .newOrResume observation.settings =
        none ↔ Accepts layout w.pid input (view layout w.files)) := fun hlocal =>
    refusal_eq_none_iff hobserved hlocal (found layout w.pid w.files) horphan henabled hresult
  unfold runSetup
  cases hrefusal : refusal (initialReport.observed observation) (some input) .newOrResume
      observation.settings with
  | some status =>
    refine hrefused _ fun hlocal h => ?_
    rw [(haccepts hlocal).mpr h] at hrefusal
    cases hrefusal
  | none =>
    have hlocal : observation.localState = classify layout w.pid (view layout w.files) :=
      hobserved.localState_eq.resolve_right fun h => (LocalState.result_eq_ok hresult).2 h.2
    have h := (haccepts hlocal).mp hrefusal
    have hstops : StopsHalfWay layout input runtime entropy w ↔ _ := returns_of_eq hrun
    rw [hstops, and_iff_right h]
    refine (ends_storeInput_halfWay (w := w) runtime entropy
      (validRoot_of_observed hobserved hresult) hf rfl (hstate h)).mono ?_ fun _ _ => trivial
    exact fun r w'' hstrays _ hcertain => hstrays hcertain

end After

/-! ## What the screen shows -/

section Shows

variable {R : Type} {app : App} {source : Source} {entropy : Option (Fin 16 → UInt8)} {ui : CnUi R}
  {w w' : World}

/-- A call that carried out an action, with the storage verified and a report whose durability is
known. -/
structure Handled (app : App) (source : Source) (entropy : Option (Fin 16 → UInt8)) (ui ui' : CnUi R)
    (w w' : World) : Prop where
  run : process app source entropy ui w = (some (1, ui'), w')
  prepared : app.prepared = true
  verified : verifyAgain app source = true
  certain : ¬ CnUi.Uncertain ui'.accountStatus

/-- The form submits a new account and stops half way: the input is accepted, and either the
credentials cannot be saved behind the settings of a new account, or both records are stored and
the account is not activated. -/
def HalfWay (app : App) (entropy : Option (Fin 16 → UInt8)) (ui : CnUi R) (w : World) : Prop :=
  ui.accountAction = .submitNewOrResume ∧ ∃ input, ui.accountGetInput = some input ∧
    Accepts app.layout w.pid (setupInput input) (view app.layout w.files) ∧
    StopsHalfWay app.layout (setupInput input) (some app.runtime) entropy w

/-- The report that the screen shows. -/
structure Shows (app : App) (entropy : Option (Fin 16 → UInt8)) (ui ui' : CnUi R) (w w' : World)
    (status : Status) (localState : LocalState) : Prop where
  status_eq : ui'.accountStatus = uiResult status
  localState_eq : ui'.accountLocalState = uiLocal (shown status localState)
  observes : Observes app.layout w localState
  fits : Certain status → Fits (ui.accountAction = .submitNewOrResume)
    (classify app.layout w.pid (view app.layout w.files))
    (classify app.layout w.pid (view app.layout w'.files)) localState status
  submits : ui.accountAction = .submitNewOrResume →
    localState = classify app.layout w.pid (view app.layout w.files) → Certain status →
      (HalfWay app entropy ui w ↔ Strays (classify app.layout w.pid (view app.layout w.files))
        (classify app.layout w.pid (view app.layout w'.files)))

theorem applyReport_localState (ui : CnUi R) (status : Status) (localState : LocalState) :
    (applyReport ui status localState).accountLocalState = uiLocal (shown status localState) :=
  resultLocal_uiResult status localState

theorem Fits.of_not {fresh : Prop} {before after localState : LocalState} {status : Status}
    (h : Fits False before after localState status) (hfresh : ¬ fresh) :
    Fits fresh before after localState status := by
  rw [Fits, iff_false_intro hfresh]
  exact h

/-- The form of a partial account is filled in, and what the screen shows stays. -/
theorem ends_prefillPartial (app : App) (ui : CnUi R) (w : World) :
    Ends (prefillPartial app ui) w
      (fun ui' w' => w'.files = w.files ∧ ui'.accountStatus = ui.accountStatus ∧
        ui'.accountLocalState = ui.accountLocalState) fun _ => True := by
  unfold prefillPartial
  by_cases hroot : StorageLayout.ValidRoot app.layout
  swap
  · rw [StorageLayout.path_of_not_valid hroot]
    exact ⟨rfl, rfl, rfl⟩
  rw [(StorageLayout.path_of_valid hroot).1]
  dsimp only
  rw [ends_bind, ends_get, ends_bind, ends_sys]
  refine (Account.ends_initSettings (H := False) app.layout w.pid False.elim).mono ?_
    fun _ _ => trivial
  rintro r machine ⟨hf, -, -⟩
  rcases r with _ | store
  · exact ⟨hf, rfl, rfl⟩
  dsimp only
  rw [ends_bind, ends_sys]
  refine (SettingsStore.ends_load_told (H := False) store w.pid False.elim).mono ?_
    fun _ _ => trivial
  rintro loaded machine' ⟨hf', -⟩
  have hfiles : machine'.files = w.files := hf'.trans hf
  split_ifs
  · exact ⟨hfiles, rfl, rfl⟩
  · unfold CnUi.accountPrefill
    split_ifs <;> exact ⟨hfiles, rfl, rfl⟩

/-- A submission puts its report on the screen. -/
theorem ends_processSubmit (intent : Intent) (ui : CnUi R) (w : World) :
    Ends (processSubmit app entropy intent ui) w
      (fun r w' => r.1 = 1 → ∃ status localState, r.2.accountStatus = uiResult status ∧
        r.2.accountLocalState = uiLocal (shown status localState) ∧
        Observes app.layout w localState ∧ (Certain status → Fits (intent = .newOrResume)
          (classify app.layout w.pid (view app.layout w.files))
          (classify app.layout w.pid (view app.layout w'.files)) localState status) ∧
        ∃ input, ui.accountGetInput = some input ∧ (intent = .newOrResume →
          localState = classify app.layout w.pid (view app.layout w.files) → Certain status →
            (Accepts app.layout w.pid (setupInput input) (view app.layout w.files) ∧
                StopsHalfWay app.layout (setupInput input) (some app.runtime) entropy w ↔
              Strays (classify app.layout w.pid (view app.layout w.files))
                (classify app.layout w.pid (view app.layout w'.files)))))
      fun _ => True := by
  unfold processSubmit
  cases ui.accountGetInput with
  | none => exact fun h => by cases h
  | some input =>
    dsimp only
    rw [ends_bind]
    have hstrays : Ends (submit app.layout (some (setupInput input)) intent (some app.runtime)
        entropy) w (fun r w' => intent = .newOrResume →
          r.localState = classify app.layout w.pid (view app.layout w.files) → Certain r.status →
            (Accepts app.layout w.pid (setupInput input) (view app.layout w.files) ∧
                StopsHalfWay app.layout (setupInput input) (some app.runtime) entropy w ↔
              Strays (classify app.layout w.pid (view app.layout w.files))
                (classify app.layout w.pid (view app.layout w'.files)))) fun _ => True := by
      by_cases hintent : intent = .newOrResume
      · rw [hintent]
        exact (ends_submit_halfWay app.layout _ _ entropy w).mono (fun _ _ h _ => h) fun _ h => h
      · exact (ends_run _ _).mono (fun _ _ _ h => absurd h hintent) fun _ _ => trivial
    refine (hstrays.and (ends_submit app.layout _ intent _ entropy w)).mono ?_ fun _ _ => trivial
    rintro report w' ⟨hstrays, hobserves, hsubmitted⟩
    exact fun _ => ⟨report.status, report.localState, rfl, applyReport_localState _ _ _, hobserves,
      fits_of_submitted hsubmitted, input, rfl, hstrays⟩

/-- **What a call shows.** -/
theorem ends_process (hprepared : app.prepared = true) (hverified : verifyAgain app source = true) :
    Ends (process app source entropy ui) w
      (fun r w' => r.1 = 1 → ∃ status localState, Shows app entropy ui r.2 w w' status localState)
      fun _ => True := by
  unfold process CnUi.accountTakeAction
  dsimp only
  by_cases hnone : ui.accountAction = .none
  · rw [if_pos hnone]
    exact fun h => by cases h
  have hready : ¬ (¬ app.prepared = true ∨ ¬ verifyAgain app source = true) := by
    simp [hprepared, hverified]
  rw [if_neg hnone, if_neg hready]
  generalize hui : ({ ui with accountAction := .none } : CnUi R) = taken
  -- an inspection, asked for in either way, keeps the files
  have hinspect : ui.accountAction ≠ .submitNewOrResume →
      Ends (do
        let report ← inspect app.layout
        let ui := applyReport taken report.status report.localState
        if report.localState = .partialDisabled then do
          let ui ← prefillPartial app ui
          return (1, ui)
        else return (1, ui)) w
      (fun r w' => (r : ℤ × CnUi R).1 = 1 →
        ∃ status localState, Shows app entropy ui r.2 w w' status localState) fun _ => True := by
    intro haction
    rw [ends_bind]
    refine (ends_inspect app.layout w).mono ?_ fun _ _ => trivial
    rintro report w₁ ⟨hf, -, hobserves, hleaves, henabled⟩
    have hfits : ∀ {w' : World}, w'.files = w.files → Certain report.status →
        Fits (ui.accountAction = .submitNewOrResume)
          (classify app.layout w.pid (view app.layout w.files))
          (classify app.layout w.pid (view app.layout w'.files)) report.localState report.status := by
      intro w' hf' _
      exact fits_of_kept hleaves (fun h => henabled (Option.some.inj h)) (by rw [hf'])
    dsimp only
    split_ifs
    · rw [ends_bind]
      refine (ends_prefillPartial app _ w₁).mono ?_ fun _ _ => trivial
      rintro ui' w' ⟨hf', hstatus, hlocal⟩ -
      exact ⟨report.status, report.localState, hstatus,
        hlocal.trans (applyReport_localState _ _ _), hobserves, hfits (hf'.trans hf),
        fun h => absurd h haction⟩
    · exact fun _ => ⟨report.status, report.localState, rfl, applyReport_localState _ _ _,
        hobserves, hfits hf, fun h => absurd h haction⟩
  -- each action by the specification of its own operation
  cases haction : ui.accountAction with
  | none => exact absurd haction hnone
  | inspect => exact hinspect (by simp [haction])
  | recheck => exact hinspect (by simp [haction])
  | activateExisting =>
    rw [ends_bind]
    refine (ends_activateExisting app.layout _ entropy w).mono ?_ fun _ _ => trivial
    rintro report w' ⟨hobserves, hactivated⟩ -
    exact ⟨report.status, report.localState, rfl, applyReport_localState _ _ _, hobserves,
      fun hcertain => (fits_of_activatedExisting hactivated hcertain).of_not (by simp [haction]),
      fun h => absurd (haction.symm.trans h) (by simp)⟩
  | submitNewOrResume =>
    refine (ends_processSubmit .newOrResume taken w).mono ?_ fun _ _ => trivial
    intro r w' h hr
    obtain ⟨status, localState, hstatus, hlocal, hobserves, hfits, input, hinput, hstrays⟩ := h hr
    have hinput' : ui.accountGetInput = some input := by
      rw [← hui] at hinput
      exact hinput
    refine ⟨status, localState, hstatus, hlocal, hobserves, by simpa [haction] using hfits,
      fun _ htold hcertain => ?_⟩
    rw [← hstrays rfl htold hcertain, HalfWay, hinput']
    simp [haction]
  | replaceDisabled =>
    refine (ends_processSubmit .replaceDisabled taken w).mono ?_ fun _ _ => trivial
    intro r w' h hr
    obtain ⟨status, localState, hstatus, hlocal, hobserves, hfits, -⟩ := h hr
    exact ⟨status, localState, hstatus, hlocal, hobserves, by simpa [haction] using hfits,
      fun h => absurd (haction.symm.trans h) (by simp)⟩

/-- An observation that tells the state that the account is in. -/
def Told (layout : Layout) (w : World) : Prop :=
  Observes layout w (classify layout w.pid (view layout w.files))

/-- **What the screen shows** is the state that the account is in now, if and only if the state was
observed before the call and the call does not stop half way. An inspection reports this state. -/
theorem reflects_iff (app : App) (source : Source) (entropy : Option (Fin 16 → UInt8)) :
    (∀ w, Healthy w.machine → Ends (inspect app.layout) w
      (fun report _ => report.localState = classify app.layout w.pid (view app.layout w.files))
      fun _ => True) ∧
    ∀ (ui ui' : CnUi R) (w w' : World), Handled app source entropy ui ui' w w' →
      (ui'.accountLocalState = uiLocal (classify app.layout w.pid (view app.layout w'.files)) ↔
        Told app.layout w ∧ ¬ HalfWay app entropy ui w) := by
  constructor
  · intro w hm
    refine (ends_inspect app.layout w).mono ?_ fun _ _ => trivial
    exact fun report w' h => h.2.2.1.eq_or.resolve_right fun hor => hor.1 hm
  · intro ui ui' w w' h
    obtain ⟨status, localState, hshows⟩ :=
      (ends_process h.prepared h.verified).of_eq h.run rfl
    have hcertain : Certain status := by
      rw [Certain, ← hshows.status_eq]
      exact h.certain
    -- the state that is shown is the one that was observed before the call
    have htold : localState = classify app.layout w.pid (view app.layout w.files) ↔
        Told app.layout w := by
      constructor
      · intro he
        rw [Told, ← he]
        exact hshows.observes
      · exact fun he => Option.some.inj (hshows.observes.symm.trans he)
    have hfits := hshows.fits hcertain
    rw [Fits, htold] at hfits
    rw [hshows.localState_eq, uiLocal_injective.eq_iff, hfits]
    -- so it is true of the world after it where the call has kept that state
    refine and_congr_right fun hobserves => ?_
    have hlocal := htold.mpr hobserves
    constructor
    · intro hkept hhalf
      have hstrays := (hshows.submits hhalf.1 hlocal hcertain).mp hhalf
      exact (hkept hhalf.1).elim hstrays.1 hstrays.2
    · intro hnot haction
      by_contra hkept
      exact hnot ((hshows.submits haction hlocal hcertain).mpr (not_or.mp hkept))

end Shows

/-! ## A new account that is not shown -/

/-- An application on the mount point of a verified storage. -/
def exampleApp : App where
  candidate := ⟨some (ascii "/m"), some (ascii "/m"), 179, 9⟩
  verified := ⟨ascii "/m", ascii "/m", 179, 9⟩
  layout := ⟨ascii "/m", 2⟩
  runtime := ⟨some ⟨[some (ascii "1.1.1.1")]⟩, some ⟨some (ascii "/ca"), false⟩, .establish, true⟩
  prepared := true

/-- The storage is still mounted. -/
def exampleSource : Source where
  readMountinfo := .ok (ascii "1 1 179:2 / / ro - ext4 /dev/root ro\n2 1 179:9 / /m rw - vfat /dev/sd rw\n")
  lstatPath _ := .ok ⟨.directory, StorageVerify.makedev 179 9, 0⟩
  statPath _ := .ok ⟨.block, 5, StorageVerify.makedev 179 9⟩

/-- The texts of a form. -/
def exampleTexts : Fin 4 → List UInt8
  | 0 => ascii "https://a"
  | 1 => ascii "d"
  | 2 => ascii "u"
  | 3 => ascii "p"

/-- A screen whose form is submitted. -/
def exampleUi : CnUi Unit :=
  { (CnUi.init : CnUi Unit) with
    state := .accountSetup
    accountAction := .submitNewOrResume
    accountFields := fun i => CnUi.prefill (CnUi.blankFields i) (some (exampleTexts i))
    accountPasswordLength := 1 }

/-- A world without an account, where the time server does not answer. -/
def exampleWorld : World where
  machine := { AccountBootstrap.exampleMachine with script := List.replicate 100 (.succeed 4096) }
  pid := 7
  sequence := 0
  times := [.timeout]
  resolutions := []
  wires := []
  heaps := []
  events := []

/-- **A new account that is not shown**: it is stored, the activation fails, and the screen shows
that there is no account. -/
theorem shows_old_state : ¬ ∀ (app : App) (source : Source) (entropy : Option (Fin 16 → UInt8))
    (ui ui' : CnUi Unit) (w w' : World), Handled app source entropy ui ui' w w' →
      ui'.accountLocalState = uiLocal (classify app.layout w.pid (view app.layout w'.files)) := by
  intro h
  have hshown : (process exampleApp exampleSource (some fun _ => 7) exampleUi exampleWorld).1.map
      (fun r => (r.1, r.2.accountLocalState, r.2.accountStatus)) =
        some (1, .noAccount, .infrastructureFailed) := by
    decide +kernel
  have hdisk : classify exampleApp.layout exampleWorld.pid (view exampleApp.layout
      (process exampleApp exampleSource (some fun _ => 7) exampleUi exampleWorld).2.files) =
        .completeDisabled := by
    decide +kernel
  rcases hrun : process exampleApp exampleSource (some fun _ => 7) exampleUi exampleWorld with
    ⟨r, w'⟩
  rw [hrun] at hshown hdisk
  cases r with
  | none => cases hshown
  | some r =>
    obtain ⟨handled, ui'⟩ := r
    obtain ⟨rfl, hlocal, hstatus⟩ : handled = 1 ∧ ui'.accountLocalState = .noAccount ∧
        ui'.accountStatus = .infrastructureFailed := by
      simpa using hshown
    have hhandled : Handled exampleApp exampleSource (some fun _ => 7) exampleUi ui' exampleWorld w' :=
      ⟨hrun, rfl, by decide +kernel, by rw [hstatus]; decide⟩
    have hreflects := h _ _ _ _ _ _ _ hhandled
    rw [hlocal, hdisk] at hreflects
    exact absurd hreflects (by decide)

end AccountSetupUi
