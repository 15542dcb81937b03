import CrossNook.Account.AccountBootstrap
import CrossNook.Account.SyncActivation

/-!
# The controller of an account setup

What the account screen asks for (`account/account_setup_controller.c`): the state of the account
is observed, and depending on it an input is stored and activated, or an account that is stored
already is activated.

## Main definitions

* `AccountSetup.observeState`: `observe_state`
* `AccountSetup.submit`, `AccountSetup.activateExisting`, `AccountSetup.inspect`: the functions of
  these names
* `AccountSetup.classify`: the state that an account on the disk is in
* `AccountSetup.Prepares`, `AccountSetup.Submitted`: what the operations do to the files and whom
  they ask
* `AccountSetup.Activates`: the storage and the answers with which a stored account is activated
* `AccountSetup.StopsHalfWay`: those with which an input is stored in part, or not activated

## Main results

* `AccountSetup.ends_observeState`: what is observed is the state, unless a call fails
* `AccountSetup.ends_submit`, `AccountSetup.ends_activateExisting`: how the operations end
-/

namespace AccountSetup

open Crash Kosync Posix
open Account (View view)
open StorageLayout (Layout ValidRoot)
open SyncActivation (Runtime Activation)

/-- `cn_account_setup_input`. -/
structure Input where
  baseUrl : Option (List UInt8)
  deviceName : Option (List UInt8)
  username : Option (List UInt8)
  password : Option (List UInt8)

/-- `cn_account_setup_intent`; `other` stands for the values that it does not name. -/
inductive Intent
  | newOrResume
  | replaceDisabled
  | other
  deriving DecidableEq, Repr

/-- `cn_account_setup_stage`. -/
inductive Stage
  | none
  | preflight
  | bootstrap
  | identity
  | activation
  | profileCheck
  deriving DecidableEq, Repr

/-- `cn_account_setup_local_state`. -/
inductive LocalState
  | unknown
  | noAccount
  | partialDisabled
  | orphanCredentials
  | completeDisabled
  | enabled
  | corruptOrUnsupported
  | unreadable
  deriving DecidableEq, Repr

/-- `cn_account_setup_status`. -/
inductive Status
  | activated
  | alreadyEnabled
  | invalidInput
  | precondition
  | incompleteState
  | corruptOrUnsupportedState
  | bootstrapFailed
  | bootstrapDurabilityUncertain
  | identityFailed
  | identityDurabilityUncertain
  | authRejected
  | infrastructureOrServiceFailed
  | activationSaveFailed
  | activationDurabilityUncertain
  | enabledProfileUnavailable
  | activationFailed
  deriving DecidableEq, Repr

/-- `cn_account_setup_report`. -/
structure Report where
  status : Status
  stage : Stage
  localState : LocalState
  bootstrapAttempted : Bool
  bootstrap : AccountBootstrap.Report
  identityAttempted : Bool
  identityResult : DeviceIdentity.Result
  activationAttempted : Bool
  activation : SyncActivation.Report
  profileCheckAttempted : Bool
  profile : PersistedSyncProfile.Report
  systemErrno : Option Errno
  deriving DecidableEq

/-- `initial_report`. -/
def initialReport : Report where
  status := .invalidInput
  stage := .none
  localState := .unknown
  bootstrapAttempted := false
  bootstrap := AccountBootstrap.initialReport
  identityAttempted := false
  identityResult := .invalidArgument
  activationAttempted := false
  activation := SyncActivation.initialReport
  profileCheckAttempted := false
  profile := PersistedSyncProfile.initialReport
  systemErrno := none

/-! ## Checks -/

/-- `bounded_text`. -/
def boundedText (text : Option (List UInt8)) (capacity : ℕ) (required : Bool) : Bool :=
  match text with
  | none => false
  | some text => text.length < capacity ∧ (required → text ≠ [])

/-- `setup_input_basic_valid`. -/
def setupInputBasicValid (input : Option Input) : Bool :=
  match input with
  | none => false
  | some input =>
    match input.baseUrl, input.deviceName, input.username, input.password with
    | some _, some _, some _, some password =>
      password.length ≠ 0 ∧ password.length ≤ KosyncUserkey.passwordMax ∧
        boundedText input.baseUrl SettingsStore.kosyncUrlCapacity true ∧
        boundedText input.deviceName SettingsStore.deviceNameCapacity true ∧
        boundedText input.username (CredentialStore.usernameMax + 1) true
    | _, _, _, _ => false

/-- `result_is_corrupt_settings`. -/
def resultIsCorruptSettings (result : SettingsStore.Result) : Bool :=
  result = .corrupt ∨ result = .unsupportedVersion

/-- `result_is_corrupt_credentials`. -/
def resultIsCorruptCredentials (result : CredentialStore.Result) : Bool :=
  result = .corrupt ∨ result = .unsupportedVersion

/-- `result_is_corrupt_identity`. -/
def resultIsCorruptIdentity (result : DeviceIdentity.Result) : Bool :=
  result = .malformed ∨ result = .unsupportedVersion ∨ result = .badChecksum

/-- `input_matches_disabled_settings`. -/
def inputMatchesDisabledSettings (input : Option Input) (settings : Settings) : Bool :=
  match input with
  | none => false
  | some input =>
    input.baseUrl = some settings.kosyncBaseUrl ∧ input.deviceName = some settings.kosyncDeviceName

/-! ## The state of the account -/

/-- `observation_result`. -/
inductive ObservationResult
  | ok
  | corrupt
  | unreadable
  deriving DecidableEq, Repr

/-- What `observe_state` returns, and what it leaves in the local state, the settings and
`system_errno`. -/
structure Observation where
  result : ObservationResult
  localState : LocalState
  settings : Settings
  systemErrno : Option Errno

/-- The local state by the load of the credentials. -/
def credentialState (settingsMissing : Bool) (result : CredentialStore.Result) : LocalState :=
  if resultIsCorruptCredentials result then .corruptOrUnsupported
  else if result = .missing then if settingsMissing then .noAccount else .partialDisabled
  else if result ≠ .ok then .unreadable
  else if settingsMissing then .orphanCredentials
  else .completeDisabled

/-- The local state by the load of the settings, where this is decided without the credentials. -/
def settingsState (result : SettingsStore.Result) (settings : Settings) : Option LocalState :=
  if resultIsCorruptSettings result then some .corruptOrUnsupported
  else if result ≠ .ok ∧ result ≠ .missing then some .unreadable
  else if result ≠ .missing ∧ settings.kosyncEnabled ≠ 0 then some .enabled
  else none

/-- The result that goes with a local state. -/
def LocalState.result : LocalState → ObservationResult
  | .corruptOrUnsupported => .corrupt
  | .unreadable => .unreadable
  | _ => .ok

/-- What `observe_state` leaves when it ends in a local state. -/
def observation (localState : LocalState) (settings : Settings) (systemErrno : Option Errno) :
    Observation where
  result := localState.result
  localState := localState
  settings := settings
  systemErrno := systemErrno

/-- `observe_state` after the settings. -/
def observeCredentials (state : Path) (settingsMissing : Bool) (settings : Settings) :
    Sys Observation := do
  match ← CredentialStore.init (some state) with
  | .error (_, systemErrno) => return observation .unreadable settings systemErrno
  | .ok store => do
    let loaded ← CredentialStore.load store CredentialStore.cleared
    return observation (credentialState settingsMissing loaded.result) settings loaded.systemErrno

/-- The settings before `observe_state` loads them. -/
def clearedSettings : Settings := ⟨0, [], []⟩

/-- `observe_state` in the process `pid`. -/
def observeState (layout : Layout) (pid : ℕ) : Sys Observation :=
  match StorageLayout.path layout .config StorageLayout.pathCapacity,
    StorageLayout.stateDirectory layout StorageLayout.pathCapacity with
  | .ok config, some state => do
    match ← SettingsStore.init (some config) pid with
    | .error (_, systemErrno) => return observation .unreadable clearedSettings systemErrno
    | .ok store => do
      let loaded ← SettingsStore.load store pid
      match settingsState loaded.result loaded.settings with
      | some localState => return observation localState loaded.settings loaded.systemErrno
      | none => observeCredentials state (loaded.result = .missing) loaded.settings
  | _, _ => return observation .unreadable clearedSettings none

/-! ## The operations -/

/-- `bootstrap_status`. -/
def bootstrapStatus (bootstrap : AccountBootstrap.Report) : Status :=
  if bootstrap.result = .durabilityUncertain then .bootstrapDurabilityUncertain
  else if bootstrap.result = .invalidInput ∨ bootstrap.result = .invalidArgument ∨
      bootstrap.result = .derivationFailed then
    .invalidInput
  else .bootstrapFailed

/-- `activation_status`. -/
def activationStatus : SyncActivation.Status → Status
  | .alreadyEnabled => .alreadyEnabled
  | .ok => .activated
  | .authRejected => .authRejected
  | .trustedTimeFailed | .dnsFailed | .httpsFailed | .serviceFailed =>
    .infrastructureOrServiceFailed
  | .settingsSaveFailed => .activationSaveFailed
  | .durabilityUncertain => .activationDurabilityUncertain
  | .settingsFailed | .credentialsFailed | .identityFailed => .corruptOrUnsupportedState
  | .configFailed => .precondition
  | .invalidArgument | .noMemory => .activationFailed

/-- `finish_activation` after the account was activated. -/
def checkProfile (report : Report) (layout : Layout) : Env Report := do
  let w ← Prog.get
  let (profile, _) ← sys (PersistedSyncProfile.load layout w.pid)
  let report := { report with
    stage := .profileCheck
    profileCheckAttempted := true
    profile
    systemErrno := profile.systemErrno <|> report.systemErrno }
  if profile.status ≠ .ready then return { report with status := .enabledProfileUnavailable }
  else return { report with status := .activated }

/-- `finish_activation`. -/
def finishActivation (report : Report) (layout : Layout) (runtime : Option Runtime) :
    Env Report := do
  let activation ← SyncActivation.activate layout runtime
  let report := { report with
    stage := .activation
    activationAttempted := true
    activation
    systemErrno := activation.systemErrno <|> report.systemErrno }
  let status := activationStatus activation.status
  if status ≠ .activated then return { report with status }
  else checkProfile report layout

/-- The status where the identity could not be had. -/
def identityStatus (result : DeviceIdentity.Result) : Status :=
  if resultIsCorruptIdentity result then .corruptOrUnsupportedState else .identityFailed

/-- The identity, which is created where there is none. -/
def identify (store : DeviceIdentity.Store) (entropy : Option (Fin 16 → UInt8)) :
    Env DeviceIdentity.Answer := do
  let loaded ← sys (DeviceIdentity.loadNow store)
  if loaded.result = .notFound then sys (DeviceIdentity.loadOrCreateNow store entropy)
  else return loaded

/-- `prepare_and_activate`, where the random bytes are `entropy`. -/
def prepareAndActivate (report : Report) (layout : Layout) (runtime : Option Runtime)
    (entropy : Option (Fin 16 → UInt8)) : Env Report := do
  let report := { report with stage := .identity, identityAttempted := true }
  match ← sys (DeviceIdentity.init layout) with
  | .error identityResult =>
    return { report with identityResult, status := identityStatus identityResult }
  | .ok store => do
    let answer ← identify store entropy
    let report := { report with
      identityResult := answer.result, systemErrno := answer.systemErrno }
    if answer.result = .durabilityUncertain then
      return { report with status := .identityDurabilityUncertain }
    else if answer.result ≠ .ok ∧ answer.result ≠ .created then
      return { report with status := identityStatus answer.result }
    else finishActivation report layout runtime

/-- Why `run_setup` refuses an input, before it stores it. -/
def refusal (report : Report) (input : Option Input) (intent : Intent) (settings : Settings) :
    Option Status :=
  if intent = .newOrResume ∧ report.localState = .completeDisabled then some .precondition
  else if intent = .replaceDisabled ∧ report.localState ≠ .completeDisabled then some .precondition
  else if intent ≠ .newOrResume ∧ intent ≠ .replaceDisabled then some .invalidInput
  else if ¬ setupInputBasicValid input then some .invalidInput
  else if report.localState = .partialDisabled ∧ ¬ inputMatchesDisabledSettings input settings then
    some .precondition
  else none

/-- `run_setup` once the input is accepted. -/
def storeInput (report : Report) (layout : Layout) (input : Input) (runtime : Option Runtime)
    (entropy : Option (Fin 16 → UInt8)) : Env Report := do
  let w ← Prog.get
  let (bootstrap, systemErrno) ← sys (AccountBootstrap.bootstrap layout input.baseUrl
    input.deviceName input.username input.password w.pid w.sequence)
  let report := { report with
    stage := .bootstrap, bootstrapAttempted := true, bootstrap, systemErrno }
  if bootstrap.result ≠ .ok then
    return { report with
      status :=
        if bootstrap.result = .existingActive then .alreadyEnabled else bootstrapStatus bootstrap }
  else prepareAndActivate report layout runtime entropy

/-- `run_setup`. -/
def runSetup (report : Report) (layout : Layout) (input : Option Input) (intent : Intent)
    (runtime : Option Runtime) (entropy : Option (Fin 16 → UInt8)) (settings : Settings) :
    Env Report :=
  match refusal report input intent settings, input with
  | some status, _ => return { report with status }
  | none, some input => storeInput report layout input runtime entropy
  | none, none => return { report with status := .invalidInput }

/-- The report after the preflight. -/
def Report.observed (report : Report) (observation : Observation) : Report :=
  { report with
    stage := .preflight
    localState := observation.localState
    systemErrno := observation.systemErrno }

/-- `cn_account_setup_submit`. -/
def submit (layout : Layout) (input : Option Input) (intent : Intent) (runtime : Option Runtime)
    (entropy : Option (Fin 16 → UInt8)) : Env Report := do
  let w ← Prog.get
  let observation ← sys (observeState layout w.pid)
  let report := initialReport.observed observation
  if observation.result ≠ .ok then
    return { report with
      status :=
        if observation.result = .corrupt then .corruptOrUnsupportedState else .precondition }
  else if report.localState = .orphanCredentials then
    return { report with status := .incompleteState }
  else if report.localState = .enabled then return { report with status := .alreadyEnabled }
  else runSetup report layout input intent runtime entropy observation.settings

/-- `cn_account_setup_activate_existing`. -/
def activateExisting (layout : Layout) (runtime : Option Runtime)
    (entropy : Option (Fin 16 → UInt8)) : Env Report := do
  let w ← Prog.get
  let observation ← sys (observeState layout w.pid)
  let report := initialReport.observed observation
  if observation.result = .corrupt then
    return { report with status := .corruptOrUnsupportedState }
  else if observation.result = .unreadable then return { report with status := .precondition }
  else if report.localState = .enabled then return { report with status := .alreadyEnabled }
  else if report.localState ≠ .completeDisabled then
    return { report with status := .incompleteState }
  else prepareAndActivate report layout runtime entropy

/-- `cn_account_setup_inspect`. -/
def inspect (layout : Layout) : Env Report := do
  let w ← Prog.get
  let observation ← sys (observeState layout w.pid)
  let report := initialReport.observed observation
  if observation.result = .corrupt then
    return { report with status := .corruptOrUnsupportedState }
  else if observation.result = .unreadable then return { report with status := .precondition }
  else if report.localState = .enabled then return { report with status := .alreadyEnabled }
  else if report.localState = .orphanCredentials then
    return { report with status := .incompleteState }
  else return { report with status := .precondition }

/-! ## What is observed -/

/-- **The state of the account on the disk**, as the process `pid` finds it. -/
def classify (layout : Layout) (pid : ℕ) (v : View) : LocalState :=
  if ¬ StorageLayout.layoutValid layout then .unreadable
  else
    let (result, settings) := SettingsStore.answer (v.lookSettings layout pid)
    match settingsState result settings with
    | some localState => localState
    | none =>
      credentialState (result = .missing) (CredentialStore.answer (v.lookCredentials layout)).1

section Observe

variable {layout : Layout} {pid : ℕ} {v v' : View} {H : Prop} {m : Machine}

theorem settingsState_of_blocked {result : SettingsStore.Result} (settings : Settings)
    (h : SettingsStore.Blocked (.error result)) :
    settingsState result settings = some .unreadable := by
  obtain ⟨_, he, hok, hmissing, hcorrupt, hversion⟩ := h
  cases he
  have hnot : resultIsCorruptSettings result = false := by
    simp [resultIsCorruptSettings, hcorrupt, hversion]
  rw [settingsState, hnot, if_neg (by decide), if_pos ⟨hok, hmissing⟩]

theorem credentialState_of_blocked {result : CredentialStore.Result} (settingsMissing : Bool)
    (h : CredentialStore.Blocked (.error result)) :
    credentialState settingsMissing result = .unreadable := by
  obtain ⟨_, he, hok, hmissing, hcorrupt, hversion⟩ := h
  cases he
  have hnot : resultIsCorruptCredentials result = false := by
    simp [resultIsCorruptCredentials, hcorrupt, hversion]
  rw [credentialState, hnot, if_neg (by decide), if_neg hmissing, if_pos hok]

theorem credentialState_missing_ne (result : CredentialStore.Result) :
    credentialState true result ≠ .partialDisabled := by
  unfold credentialState
  split_ifs <;> simp_all

theorem ends_observeCredentials (hroot : ValidRoot layout) (hm : H → Healthy m)
    (settingsMissing : Bool) (settings : Settings) :
    Ends (observeCredentials layout.state settingsMissing settings) m
      (fun r m' => m'.files = m.files ∧ r.settings = settings ∧ r.result = r.localState.result ∧
        (r.localState = credentialState settingsMissing
            (CredentialStore.answer ((view layout m.files).lookCredentials layout)).1 ∨
          ¬ H ∧ r.localState = .unreadable))
      fun m' => m'.files = m.files := by
  unfold observeCredentials
  rw [ends_bind]
  refine (Account.ends_initCredentials hroot hm).mono ?_ fun _ h => h
  rintro r m₁ ⟨hf₁, hm₁, rfl | ⟨⟨result, e⟩, rfl, -, hwhy⟩⟩
  swap
  · refine ⟨hf₁, rfl, rfl, ?_⟩
    rcases hwhy with hH | hblocked
    · exact .inr ⟨hH, rfl⟩
    · obtain ⟨result', hlook, hrest⟩ := id hblocked
      rw [hlook] at hblocked ⊢
      exact .inl (credentialState_of_blocked _ hblocked).symm
  dsimp only
  rw [ends_bind]
  refine (CredentialStore.ends_load_told _ _ hm₁).mono ?_ fun _ h => h.trans hf₁
  rintro loaded m₂ ⟨hf₂, -, htold⟩
  refine ⟨hf₂.trans hf₁, rfl, rfl, ?_⟩
  rw [hf₁, ← Account.lookCredentials_view] at htold
  cases htold with
  | found e => exact .inl rfl
  | fault hH e =>
    exact .inr ⟨hH, credentialState_of_blocked _ (CredentialStore.blocked_failure e)⟩

theorem settingsState_eq_none {result : SettingsStore.Result} {settings : Settings}
    (h : settingsState result settings = none) :
    result = .missing ∨ result = .ok ∧ settings.kosyncEnabled = 0 := by
  unfold settingsState at h
  split_ifs at h with hcorrupt hfound henabled
  simp only [not_and_or, not_not] at hfound henabled
  by_cases hmissing : result = .missing
  · exact .inl hmissing
  · exact .inr ⟨hfound.resolve_right hmissing, henabled.resolve_left hmissing⟩

theorem lookSettings_ne_ok (files : Path → Option Node) :
    (view layout files).lookSettings layout pid ≠ .error .ok := by
  intro h
  rw [Account.lookSettings_view] at h
  rcases (Account.settingsStore layout).look_cases pid files with hlook | ⟨_, he, hok, -⟩
  · exact SettingsStore.stored_ne_ok (hlook.symm.trans h)
  · rw [h] at he
    cases he
    exact hok rfl

theorem lookCredentials_ne_ok (files : Path → Option Node) :
    (view layout files).lookCredentials layout ≠ .error .ok := by
  intro h
  rw [Account.lookCredentials_view] at h
  rcases (Account.credentialStore layout).look_cases files with hlook | ⟨_, he, hok, -⟩
  · exact CredentialStore.stored_ne_ok (hlook.symm.trans h)
  · rw [h] at he
    cases he
    exact hok rfl

/-- What an observation tells: the state of the account, unless a call of it fails on its own. -/
structure Observed (H : Prop) (layout : Layout) (pid : ℕ) (v : View) (r : Observation) : Prop where
  result_eq : r.result = r.localState.result
  localState_eq : r.localState = classify layout pid v ∨ ¬ H ∧ r.localState = .unreadable
  settings_eq : r.localState = .partialDisabled → v.lookSettings layout pid = .ok r.settings

theorem observed_unreadable {settings : Settings} {e : Option Errno}
    (h : classify layout pid v = .unreadable ∨ ¬ H) :
    Observed H layout pid v (observation .unreadable settings e) where
  result_eq := rfl
  localState_eq := h.elim (fun h => .inl h.symm) fun h => .inr ⟨h, rfl⟩
  settings_eq h := by cases h

theorem classify_of_blocked (h : SettingsStore.Blocked (v.lookSettings layout pid)) :
    classify layout pid v = .unreadable := by
  obtain ⟨result, hlook, -⟩ := id h
  rw [hlook] at h
  unfold classify
  split_ifs
  · rw [hlook, SettingsStore.answer]
    dsimp only
    rw [settingsState_of_blocked _ h]
  · rfl

/-- **What is observed is the state of the account**, unless a call fails on its own. -/
theorem ends_observeState (layout : Layout) (pid : ℕ) (hm : H → Healthy m) :
    Ends (observeState layout pid) m
      (fun r m' => m'.files = m.files ∧ Observed H layout pid (view layout m.files) r)
      fun m' => m'.files = m.files := by
  unfold observeState
  -- the checks follow the order in which `classify` asks for them
  by_cases hroot : ValidRoot layout
  swap
  · rw [StorageLayout.path_of_not_valid hroot]
    refine ⟨rfl, observed_unreadable (.inl ?_)⟩
    rw [classify, if_pos (StorageLayout.layoutValid_iff.not.mpr hroot)]
  have hvalid : ¬ ¬ StorageLayout.layoutValid layout = true :=
    not_not.mpr (StorageLayout.layoutValid_iff.mpr hroot)
  rw [(StorageLayout.path_of_valid hroot).1, StorageLayout.stateDirectory_of_valid hroot]
  dsimp only
  rw [ends_bind]
  refine (Account.ends_initSettings layout pid hm).mono ?_ fun _ h => h
  rintro r m₁ ⟨hf₁, hm₁, rfl | ⟨⟨result, e⟩, rfl, -, hwhy⟩⟩
  swap
  · exact ⟨hf₁, observed_unreadable (hwhy.symm.imp_left classify_of_blocked)⟩
  dsimp only
  rw [ends_bind]
  refine (SettingsStore.ends_load_told _ pid hm₁).mono ?_ fun _ h => h.trans hf₁
  rintro loaded m₂ ⟨hf₂, hm₂, htold⟩
  rw [hf₁, ← Account.lookSettings_view] at htold
  have hfiles : m₂.files = m.files := hf₂.trans hf₁
  -- the settings alone decide, or the credentials are observed too
  cases htold with
  | fault hH e =>
    have hstate := settingsState_of_blocked SettingsStore.defaults (SettingsStore.blocked_failure e)
    rw [SettingsStore.failed, hstate]
    exact ⟨hfiles, observed_unreadable (.inr hH)⟩
  | found e =>
    dsimp only
    cases hstate : settingsState (SettingsStore.answer ((view layout m.files).lookSettings layout pid)).1
      (SettingsStore.answer ((view layout m.files).lookSettings layout pid)).2 with
    | some localState =>
      refine ⟨hfiles, rfl, .inl ?_, fun h => ?_⟩
      · rw [classify, if_neg hvalid]
        dsimp only
        rw [hstate]
        rfl
      · obtain rfl : localState = .partialDisabled := h
        unfold settingsState at hstate
        split_ifs at hstate <;> cases hstate
    | none =>
      refine (ends_observeCredentials hroot hm₂ _ _).mono ?_ fun _ h => h.trans hfiles
      rintro r m₃ ⟨hf₃, hsettings, hresult, hlocal⟩
      rw [hfiles] at hlocal
      refine ⟨hf₃.trans hfiles, hresult, ?_, fun h => ?_⟩
      · rw [classify, if_neg hvalid]
        dsimp only
        rw [hstate]
        exact hlocal
      · rw [hsettings]
        rcases settingsState_eq_none hstate with hmissing | ⟨hok, -⟩
        · rw [hmissing] at hlocal
          rcases hlocal with hlocal | ⟨-, hlocal⟩ <;> rw [h] at hlocal
          · exact absurd hlocal.symm (credentialState_missing_ne _)
          · cases hlocal
        · cases hlook : (view layout m.files).lookSettings layout pid with
          | ok settings => rfl
          | error result =>
            rw [hlook] at hok
            obtain rfl : result = .ok := hok
            exact absurd hlook (lookSettings_ne_ok m.files)

/-- What is found on the disk in each state. -/
inductive Found (layout : Layout) (pid : ℕ) (v : View) : LocalState → Prop
  | noAccount (hs : v.lookSettings layout pid = .error .missing)
    (hc : v.lookCredentials layout = .error .missing) : Found layout pid v .noAccount
  | partialDisabled {settings : Settings} (hs : v.lookSettings layout pid = .ok settings)
    (hdisabled : settings.kosyncEnabled = 0) (hc : v.lookCredentials layout = .error .missing) :
    Found layout pid v .partialDisabled
  | orphanCredentials {credentials : Credentials} (hs : v.lookSettings layout pid = .error .missing)
    (hc : v.lookCredentials layout = .ok credentials) : Found layout pid v .orphanCredentials
  | completeDisabled {settings : Settings} {credentials : Credentials}
    (hs : v.lookSettings layout pid = .ok settings) (hdisabled : settings.kosyncEnabled = 0)
    (hc : v.lookCredentials layout = .ok credentials) : Found layout pid v .completeDisabled
  | enabled {settings : Settings} (hs : v.lookSettings layout pid = .ok settings)
    (henabled : settings.kosyncEnabled ≠ 0) : Found layout pid v .enabled
  | corruptOrUnsupported : Found layout pid v .corruptOrUnsupported
  | unreadable : Found layout pid v .unreadable

theorem found_credentialState {files : Path → Option Node}
    (hs : (view layout files).lookSettings layout pid = .error .missing ∨
      ∃ settings, (view layout files).lookSettings layout pid = .ok settings ∧
        settings.kosyncEnabled = 0) {settingsMissing : Bool}
    (hmissing : settingsMissing = true ↔
      (view layout files).lookSettings layout pid = .error .missing) :
    Found layout pid (view layout files) (credentialState settingsMissing
      (CredentialStore.answer ((view layout files).lookCredentials layout)).1) := by
  have hpresent : settingsMissing = false → ∃ settings,
      (view layout files).lookSettings layout pid = .ok settings ∧ settings.kosyncEnabled = 0 :=
    fun h => hs.resolve_left fun he => by simp [hmissing.mpr he] at h
  cases hc : (view layout files).lookCredentials layout with
  | ok credentials =>
    cases settingsMissing with
    | true => exact .orphanCredentials (hmissing.mp rfl) hc
    | false =>
      obtain ⟨settings, hs, hdisabled⟩ := hpresent rfl
      exact .completeDisabled hs hdisabled hc
  | error result =>
    rw [CredentialStore.answer]
    unfold credentialState
    dsimp only
    split_ifs with hcorrupt hgone hmiss hok hmiss
    · exact .corruptOrUnsupported
    · exact .noAccount (hmissing.mp hmiss) (by rw [hc, hgone])
    · obtain ⟨settings, hs, hdisabled⟩ := hpresent (by simpa using hmiss)
      exact .partialDisabled hs hdisabled (by rw [hc, hgone])
    · exact .unreadable
    all_goals exact absurd (by rw [hc, not_not.mp hok]) (lookCredentials_ne_ok files)

/-- **What is on the disk by its state.** -/
theorem found (layout : Layout) (pid : ℕ) (files : Path → Option Node) :
    Found layout pid (view layout files) (classify layout pid (view layout files)) := by
  unfold classify
  split_ifs
  swap
  · exact .unreadable
  -- the settings are looked at before the credentials
  cases hs : (view layout files).lookSettings layout pid with
  | ok settings =>
    by_cases hdisabled : settings.kosyncEnabled = 0
    · have hstate : settingsState .ok settings = none := by
        simp [settingsState, resultIsCorruptSettings, hdisabled]
      rw [SettingsStore.answer]
      dsimp only
      rw [hstate]
      exact found_credentialState (.inr ⟨settings, hs, hdisabled⟩) (by simp [hs])
    · have hstate : settingsState .ok settings = some .enabled := by
        simp [settingsState, resultIsCorruptSettings, hdisabled]
      rw [SettingsStore.answer]
      dsimp only
      rw [hstate]
      exact .enabled hs hdisabled
  | error result =>
    rw [SettingsStore.answer]
    dsimp only
    cases hstate : settingsState result SettingsStore.defaults with
    | some localState =>
      have hor : localState = .corruptOrUnsupported ∨ localState = .unreadable := by
        unfold settingsState at hstate
        split_ifs at hstate with _ _ henabled
        · exact .inl (Option.some.inj hstate).symm
        · exact .inr (Option.some.inj hstate).symm
        · exact absurd rfl henabled.2
      rcases hor with rfl | rfl
      exacts [.corruptOrUnsupported, .unreadable]
    | none =>
      -- only settings that are missing lead on to the credentials
      have hmissing : result = .missing := by
        refine (settingsState_eq_none hstate).resolve_right fun h => ?_
        rw [h.1] at hs
        exact lookSettings_ne_ok files hs
      rw [hmissing] at hs ⊢
      exact found_credentialState (.inl hs) (by simp [hs])

/-- The settings that are found are those that are stored. -/
theorem storedSettings_of_look (hs : v.lookSettings layout pid = .error .missing ∨
      ∃ settings, v.lookSettings layout pid = .ok settings) :
    v.storedSettings = v.lookSettings layout pid := by
  refine (View.lookSettings_eq ?_ rfl).symm
  rintro ⟨result, he, hok, hmissing, -⟩
  rcases hs with hs | ⟨settings, hs⟩ <;> rw [hs] at he <;> cases he
  exact hmissing rfl

theorem not_enabled_of_look (hs : v.lookSettings layout pid = .error .missing ∨
      ∃ settings, v.lookSettings layout pid = .ok settings ∧ settings.kosyncEnabled = 0) :
    ¬ v.Enabled := by
  rintro ⟨settings, hstored, henabled⟩
  rw [storedSettings_of_look (hs.imp_right fun ⟨settings, h, _⟩ => ⟨settings, h⟩)] at hstored
  rcases hs with hs | ⟨_, hs, hdisabled⟩ <;> rw [hs] at hstored <;> cases hstored
  exact henabled hdisabled

end Observe

/-! ## What the operations do -/

/-- The status of a report by that of the activation; a process that is killed has none. -/
def Reports : Option SyncActivation.Status → Option Status → Prop
  | none, r => r = none
  | some .ok, r => r = none ∨ r = some .activated ∨ r = some .enabledProfileUnavailable
  | some status, r => r = some (activationStatus status)

/-- The statuses where the identity is not ready. -/
def NotIdentified : Option Status → Prop
  | none | some .identityFailed | some .identityDurabilityUncertain
  | some .corruptOrUnsupportedState => True
  | _ => False

/-- **What the preparation and the activation do**: at most the identity changes, and then the
account is activated. -/
inductive Prepares (layout : Layout) (w : World) : Option Status → World → Prop
  | stopped {r : Option Status} {w' : World} {identity : Option Node} (hr : NotIdentified r)
    (hview : view layout w'.files = { view layout w.files with identity })
    (hevents : w'.events = w.events) : Prepares layout w r w'
  | activated {r : Option Status} {w₁ w₂ w' : World} {identity : Option Node}
    {status : Option SyncActivation.Status}
    (hview : view layout w₁.files = { view layout w.files with identity })
    (hevents : w₁.events = w.events) (h : Activation layout w₁ status w₂)
    (hfiles : w'.files = w₂.files) (hafter : w'.events = w₂.events) (hr : Reports status r) :
    Prepares layout w r w'

/-- Why an operation goes on with an input. -/
def Proceeds (layout : Layout) (pid : ℕ) (input : Input) (intent : Intent) (v : View)
    (localState : LocalState) : Prop :=
  localState = classify layout pid v ∧
    (intent = .newOrResume ∧
        (localState = .noAccount ∨ localState = .partialDisabled ∧
          ∃ settings, v.lookSettings layout pid = .ok settings ∧
            inputMatchesDisabledSettings (some input) settings = true) ∨
      intent = .replaceDisabled ∧ localState = .completeDisabled)

/-- The texts of an input ask for these records. -/
abbrev Input.Desired (input : Input) (settings : Settings) (credentials : Credentials) : Prop :=
  AccountBootstrap.Desired input.baseUrl input.deviceName input.username input.password settings
    credentials

/-- The statuses with which nothing is changed. -/
def LeavesFiles : Option Status → Prop
  | none | some .alreadyEnabled | some .invalidInput | some .precondition | some .incompleteState
  | some .corruptOrUnsupportedState | some .bootstrapFailed => True
  | _ => False

/-- The statuses with which a bootstrap ends that was begun. -/
def BootstrapStopped : Option Status → Prop
  | none | some .bootstrapFailed | some .bootstrapDurabilityUncertain => True
  | _ => False

/-- **What a submission does**: it leaves the files, its bootstrap ends before both records are
stored, or they are stored and the account is activated. -/
inductive Submitted (layout : Layout) (pid : ℕ) (input : Option Input) (intent : Intent) (w : World)
    (localState : LocalState) : Option Status → World → Prop
  | refused {r : Option Status} {w' : World} (hr : LeavesFiles r)
    (hview : view layout w'.files = view layout w.files) (hevents : w'.events = w.events)
    (henabled : r = some .alreadyEnabled → localState = .enabled) :
    Submitted layout pid input intent w localState r w'
  | stopped {r : Option Status} {w' : World} {i : Input} {settings : Settings}
    {credentials : Credentials} {a b : Bool} (hinput : input = some i)
    (hproceeds : Proceeds layout pid i intent (view layout w.files) localState)
    (hdesired : i.Desired settings credentials)
    (hwrote : AccountBootstrap.Wrote settings credentials a b (view layout w.files)
      (view layout w'.files)) (hevents : w'.events = w.events) (hr : BootstrapStopped r) :
    Submitted layout pid input intent w localState r w'
  | stored {r : Option Status} {w₁ w' : World} {i : Input} {settings : Settings}
    {credentials : Credentials} {a b : Bool} (hinput : input = some i)
    (hproceeds : Proceeds layout pid i intent (view layout w.files) localState)
    (hdesired : i.Desired settings credentials)
    (hwrote : AccountBootstrap.Wrote settings credentials a b (view layout w.files)
      (view layout w₁.files)) (hevents : w₁.events = w.events)
    (hs : (view layout w₁.files).storedSettings = .ok settings)
    (hc : (view layout w₁.files).storedCredentials = .ok credentials)
    (h : Prepares layout w₁ r w') : Submitted layout pid input intent w localState r w'

/-- **What the activation of an account that is stored does.** -/
inductive ActivatedExisting (layout : Layout) (pid : ℕ) (w : World) (localState : LocalState) :
    Option Status → World → Prop
  | refused {r : Option Status} {w' : World} (hr : LeavesFiles r)
    (hview : view layout w'.files = view layout w.files) (hevents : w'.events = w.events)
    (henabled : r = some .alreadyEnabled → localState = .enabled) :
    ActivatedExisting layout pid w localState r w'
  | prepared {r : Option Status} {w' : World}
    (hstate : classify layout pid (view layout w.files) = .completeDisabled)
    (hlocal : localState = .completeDisabled) (h : Prepares layout w r w') :
    ActivatedExisting layout pid w localState r w'

section Operations

variable {layout : Layout} {w w₀ : World} {report : Report}

theorem Prepares.of_eq {r : Option Status} {w' : World} (h : Prepares layout w r w')
    (hfiles : w.files = w₀.files) (hevents : w.events = w₀.events) : Prepares layout w₀ r w' := by
  cases h with
  | stopped hr hview he => exact .stopped hr (by rw [hview, hfiles]) (he.trans hevents)
  | activated hview he h hf hafter hr =>
    exact .activated (by rw [hview, hfiles]) (he.trans hevents) h hf hafter hr

theorem Reports.eq_or_enabling {status : SyncActivation.Status}
    (h : activationStatus status ≠ .activated) :
    Reports (some status) (some (activationStatus status)) := by
  cases status <;> first | exact absurd rfl h | exact rfl

/-- How the activation and the check of the profile end. -/
theorem ends_finishActivation (report : Report) (layout : Layout) (runtime : Option Runtime)
    (w : World) :
    Ends (finishActivation report layout runtime) w
      (fun r w' => r.localState = report.localState ∧ ∃ status w₂, Activation layout w status w₂ ∧
        w'.files = w₂.files ∧ w'.events = w₂.events ∧ Reports status (some r.status))
      fun w' => ∃ status w₂, Activation layout w status w₂ ∧ w'.files = w₂.files ∧
        w'.events = w₂.events ∧ Reports status none := by
  unfold finishActivation
  rw [ends_bind]
  refine (SyncActivation.ends_activate layout runtime w).mono ?_
    fun w' h => ⟨none, w', h, rfl, rfl, rfl⟩
  intro activation w₁ hactivation
  dsimp only
  by_cases hne : activationStatus activation.status ≠ .activated
  · rw [if_pos hne]
    exact ⟨rfl, _, w₁, hactivation, rfl, rfl, .eq_or_enabling hne⟩
  rw [if_neg hne]
  -- only `ok` is reported as an activation
  have hok : activation.status = .ok := by
    cases hstatus : activation.status <;> rw [hstatus] at hne <;>
      first | rfl | exact absurd (by simp [activationStatus]) hne
  rw [hok] at hactivation
  unfold checkProfile
  rw [ends_bind, ends_get, ends_bind, ends_sys]
  refine (PersistedSyncProfile.ends_load layout w₁.pid w₁.machine).mono ?_
    fun machine hf => ⟨_, w₁, hactivation, hf, rfl, .inl rfl⟩
  rintro ⟨profile, loaded⟩ machine ⟨hf, -⟩
  dsimp only
  split_ifs
  · exact ⟨rfl, _, w₁, hactivation, hf, rfl, .inr (.inr rfl)⟩
  · exact ⟨rfl, _, w₁, hactivation, hf, rfl, .inr (.inl rfl)⟩

theorem notIdentified_identityStatus (result : DeviceIdentity.Result) :
    NotIdentified (some (identityStatus result)) := by
  unfold identityStatus
  split_ifs <;> exact trivial

/-- The identity is all that changes where it is looked for. -/
theorem ends_identify (entropy : Option (Fin 16 → UInt8)) (w : World) :
    Ends (identify (Account.identityStore layout) entropy) w
      (fun _ w' => w'.events = w.events ∧
        ∃ identity, view layout w'.files = { view layout w.files with identity })
      fun w' => w'.events = w.events ∧
        ∃ identity, view layout w'.files = { view layout w.files with identity } := by
  have hsame : ∀ {files : Path → Option Node}, files = w.files →
      ∃ identity, view layout files = { view layout w.files with identity } := by
    rintro files rfl
    exact ⟨(view layout w.files).identity, rfl⟩
  unfold identify
  rw [ends_bind, ends_sys]
  refine (DeviceIdentity.ends_loadNow _ _).mono ?_ fun _ hf => ⟨rfl, hsame hf⟩
  rintro loaded machine ⟨hf, -⟩
  split_ifs
  · rw [ends_sys]
    refine (Account.ends_loadOrCreate entropy machine).mono ?_ ?_
    · rintro _ machine' ⟨identity, hview⟩
      refine ⟨rfl, identity, ?_⟩
      rw [hf] at hview
      exact hview
    · rintro machine' ⟨identity, hview⟩
      refine ⟨rfl, identity, ?_⟩
      rw [hf] at hview
      exact hview
  · exact ⟨rfl, hsame hf⟩

/-- **How the preparation and the activation end.** -/
theorem ends_prepareAndActivate (hroot : ValidRoot layout) (report : Report)
    (runtime : Option Runtime) (entropy : Option (Fin 16 → UInt8)) (w : World) :
    Ends (prepareAndActivate report layout runtime entropy) w
      (fun r w' => r.localState = report.localState ∧ Prepares layout w (some r.status) w')
      fun w' => Prepares layout w none w' := by
  -- before the identity is asked for, the files are those at the beginning
  have hkept : ∀ {machine : Machine} {r : Option Status}, NotIdentified r →
      machine.files = w.files → Prepares layout w r { w with machine } := by
    intro machine r hr hf
    exact .stopped hr (show view layout machine.files = _ by rw [hf]) rfl
  unfold prepareAndActivate
  dsimp only
  rw [ends_bind, ends_sys]
  refine (Account.ends_initIdentity hroot w.machine).mono ?_ fun _ hf => hkept trivial hf
  rintro r machine ⟨hf, hstore⟩
  cases r with
  | error result => exact ⟨rfl, hkept (notIdentified_identityStatus result) hf⟩
  | ok store =>
    obtain rfl := hstore store rfl
    have hsame : World.files { w with machine } = w.files := hf
    dsimp only
    rw [ends_bind]
    refine (ends_identify entropy _).mono ?_ ?_
    swap
    · rintro w₁ ⟨he, identity, hview⟩
      rw [hsame] at hview
      exact .stopped trivial hview he
    rintro answer w₁ ⟨he, identity, hview₁⟩
    rw [hsame] at hview₁
    split_ifs
    · exact ⟨rfl, .stopped trivial hview₁ he⟩
    · exact ⟨rfl, .stopped (notIdentified_identityStatus _) hview₁ he⟩
    · -- only an identity that is there leads on to the activation
      refine (ends_finishActivation _ layout runtime w₁).mono ?_ ?_
      · rintro r w' ⟨hlocal, status, w₂, hactivation, hfiles, hafter, hr⟩
        exact ⟨hlocal, .activated hview₁ he hactivation hfiles hafter hr⟩
      · rintro w' ⟨status, w₂, hactivation, hfiles, hafter, hr⟩
        exact .activated hview₁ he hactivation hfiles hafter hr

/-- **The storage and the answers with which a stored account is activated**: the identity is loaded
or created, and the activation enables the account. -/
def Activates (layout : Layout) (runtime : Option Runtime) (entropy : Option (Fin 16 → UInt8))
    (w : World) : Prop :=
  Returns (DeviceIdentity.init layout) w.machine fun r m => ∃ store, r = .ok store ∧
    Returns (identify store entropy) { w with machine := m } fun answer w' =>
      (answer.result = .ok ∨ answer.result = .created) ∧ SyncActivation.Enables layout runtime w'

/-- The statuses of an activation that enabled the account. -/
def Activated (status : Status) : Prop := status = .activated ∨ status = .enabledProfileUnavailable

theorem not_activated_identityStatus (result : DeviceIdentity.Result) :
    ¬ Activated (identityStatus result) := by
  unfold identityStatus Activated
  split_ifs <;> simp

theorem not_activated_activationStatus {status : SyncActivation.Status}
    (h : activationStatus status ≠ .activated) :
    ¬ Activated (activationStatus status) ∧ status ≠ .ok := by
  cases status <;> simp_all [activationStatus, Activated]

/-- An activation that returns has enabled the account exactly where it could be enabled. -/
theorem ends_finishActivation_activated (report : Report) (layout : Layout)
    (runtime : Option Runtime) (w : World) :
    Ends (finishActivation report layout runtime) w
      (fun r _ => Activated r.status ↔ SyncActivation.Enables layout runtime w) fun _ => True := by
  unfold finishActivation
  rw [ends_bind]
  refine (ends_run _ _).mono ?_ fun _ _ => trivial
  intro activation w₁ hrun
  have henables : activation.status = .ok ↔ SyncActivation.Enables layout runtime w :=
    (returns_of_eq hrun).symm.trans (SyncActivation.returns_activate layout runtime w)
  rw [← henables]
  dsimp only
  by_cases hne : activationStatus activation.status ≠ .activated
  · rw [if_pos hne]
    obtain ⟨hnot, hok⟩ := not_activated_activationStatus hne
    exact iff_of_false hnot hok
  rw [if_neg hne]
  have hok : activation.status = .ok := by
    cases hstatus : activation.status <;> rw [hstatus] at hne <;>
      first | rfl | exact absurd (by simp [activationStatus]) hne
  unfold checkProfile
  rw [ends_bind, ends_get, ends_bind, ends_sys]
  refine (ends_run _ _).mono ?_ fun _ _ => trivial
  rintro ⟨profile, loaded⟩ machine -
  dsimp only
  split_ifs
  · exact iff_of_true (.inr rfl) hok
  · exact iff_of_true (.inl rfl) hok

/-- **A preparation that returns** has activated the account exactly where it could be activated. -/
theorem ends_prepareAndActivate_activated (report : Report) (layout : Layout)
    (runtime : Option Runtime) (entropy : Option (Fin 16 → UInt8)) (w : World) :
    Ends (prepareAndActivate report layout runtime entropy) w
      (fun r _ => Activated r.status ↔ Activates layout runtime entropy w) fun _ => True := by
  unfold prepareAndActivate Activates
  dsimp only
  rw [ends_bind, ends_sys]
  refine (ends_run _ _).mono ?_ fun _ _ => trivial
  intro r machine hinit
  rw [returns_of_eq hinit]
  cases r with
  | error result =>
    exact iff_of_false (not_activated_identityStatus result) (by simp)
  | ok store =>
    simp only [Except.ok.injEq, exists_eq_left']
    rw [ends_bind]
    refine (ends_run _ _).mono ?_ fun _ _ => trivial
    intro answer w₁ hidentify
    rw [returns_of_eq hidentify]
    split_ifs with huncertain hfailed
    · exact iff_of_false (by simp [Activated]) (by simp [huncertain])
    · exact iff_of_false (not_activated_identityStatus _) (by simp [hfailed])
    · have hok : answer.result = .ok ∨ answer.result = .created := by
        by_contra hnot
        exact hfailed (not_or.mp hnot)
      rw [iff_true_intro hok, true_and]
      exact ends_finishActivation_activated _ layout runtime w₁

/-- An input that a submission of a new account accepts: the texts are valid, and there is no
account or a part of one with the same settings. -/
def Accepts (layout : Layout) (pid : ℕ) (input : Input) (v : View) : Prop :=
  setupInputBasicValid (some input) = true ∧
    (classify layout pid v = .noAccount ∨ classify layout pid v = .partialDisabled ∧
      ∃ settings, v.lookSettings layout pid = .ok settings ∧
        inputMatchesDisabledSettings (some input) settings = true)

/-- **The storage and the answers with which an accepted input is stored in part, or stored and not
activated**: the settings of a new account are saved and the save of its credentials fails, or both
records are stored and the account is not activated. -/
def StopsHalfWay (layout : Layout) (input : Input) (runtime : Option Runtime)
    (entropy : Option (Fin 16 → UInt8)) (w : World) : Prop :=
  Returns (observeState layout w.pid) w.machine fun _ m =>
    AccountBootstrap.Reaches layout input.baseUrl input.deviceName input.username input.password
      w.pid w.sequence (fun saved m =>
        AccountBootstrap.savedResult saved = .credentialsWriteFailed ∧
            classify layout w.pid (view layout w.files) = .noAccount ∨
          AccountBootstrap.savedResult saved = .ok ∧
            ¬ Activates layout runtime entropy { w with machine := m }) m

theorem LocalState.result_eq_ok {localState : LocalState} (h : localState.result = .ok) :
    localState ≠ .corruptOrUnsupported ∧ localState ≠ .unreadable := by
  constructor <;> rintro rfl <;> cases h

/-- What a refusal leaves to an input. -/
theorem proceeds_of_refusal {pid : ℕ} {observation : Observation} {input : Input} {intent : Intent}
    {H : Prop} (hobserved : Observed H layout pid (view layout w.files) observation)
    (hresult : observation.localState.result = .ok)
    (horphan : observation.localState ≠ .orphanCredentials)
    (henabled : observation.localState ≠ .enabled)
    (hrefusal : refusal (report.observed observation) (some input) intent observation.settings =
      none) :
    Proceeds layout pid input intent (view layout w.files) observation.localState := by
  obtain ⟨hcorrupt, hunreadable⟩ := LocalState.result_eq_ok hresult
  have hlocal : observation.localState = classify layout pid (view layout w.files) :=
    hobserved.localState_eq.resolve_right fun h => hunreadable h.2
  refine ⟨hlocal, ?_⟩
  unfold refusal at hrefusal
  split_ifs at hrefusal with hnew hreplace hother hvalid hmatch
  have hstate : (report.observed observation).localState = observation.localState := rfl
  rw [hstate] at hnew hreplace hmatch
  simp only [not_and, not_not] at hnew hreplace hother hmatch
  by_cases hintent : intent = .newOrResume
  · refine .inl ⟨hintent, ?_⟩
    have hfound := found layout pid w.files
    rw [← hlocal] at hfound
    cases hcase : observation.localState <;> rw [hcase] at hfound hnew <;>
      first
        | exact .inl rfl
        | exact .inr ⟨rfl, _, hobserved.settings_eq hcase, hmatch hcase⟩
        | exact absurd rfl (hnew hintent)
        | exact absurd hcase ‹_›
        | cases hfound
  · exact .inr ⟨hother hintent, hreplace (hother hintent)⟩

theorem Proceeds.not_enabled {pid : ℕ} {input : Input} {intent : Intent} {localState : LocalState}
    (h : Proceeds layout pid input intent (view layout w.files) localState) :
    ¬ (view layout w.files).Enabled := by
  obtain ⟨hlocal, hwhy⟩ := h
  have hfound := found layout pid w.files
  rw [← hlocal] at hfound
  rcases hwhy with ⟨-, rfl | ⟨rfl, -⟩⟩ | ⟨-, rfl⟩ <;> cases hfound
  · exact not_enabled_of_look (.inl ‹_›)
  · exact not_enabled_of_look (.inr ⟨_, ‹_›, ‹_›⟩)
  · exact not_enabled_of_look (.inr ⟨_, ‹_›, ‹_›⟩)

theorem leavesFiles_bootstrapStatus {bootstrap : AccountBootstrap.Report}
    (h : bootstrap.result.BeforeSaves) : LeavesFiles (some (bootstrapStatus bootstrap)) := by
  unfold bootstrapStatus
  split_ifs with huncertain
  · rw [huncertain] at h
    exact h.elim
  · exact trivial
  · exact trivial

theorem bootstrapStatus_ne (bootstrap : AccountBootstrap.Report) :
    some (bootstrapStatus bootstrap) ≠ some .alreadyEnabled := by
  unfold bootstrapStatus
  split_ifs <;> simp

theorem bootstrapStopped_bootstrapStatus {bootstrap : AccountBootstrap.Report}
    (h : ¬ bootstrap.result.BeforeSaves) : BootstrapStopped (some (bootstrapStatus bootstrap)) := by
  unfold bootstrapStatus
  split_ifs with huncertain hinvalid
  · exact trivial
  · exact absurd (by rcases hinvalid with h | h | h <;> rw [h] <;> exact trivial) h
  · exact trivial

/-- **How the storing of an input ends.** -/
theorem ends_storeInput (hroot : ValidRoot layout) {input : Input} {intent : Intent} {pid : ℕ}
    (hproceeds : Proceeds layout pid input intent (view layout w₀.files) report.localState)
    (runtime : Option Runtime) (entropy : Option (Fin 16 → UInt8)) (hfiles : w.files = w₀.files)
    (hevents : w.events = w₀.events) :
    Ends (storeInput report layout input runtime entropy) w
      (fun r w' => r.localState = report.localState ∧
        Submitted layout pid (some input) intent w₀ report.localState (some r.status) w')
      fun w' => Submitted layout pid (some input) intent w₀ report.localState none w' := by
  have hnot := hproceeds.not_enabled
  unfold storeInput
  rw [ends_bind, ends_get, ends_bind, ends_sys]
  -- the bootstrap, with the crash in it
  refine (AccountBootstrap.ends_bootstrap layout _ _ _ _ w.pid w.sequence w.machine).mono ?_ ?_
  swap
  · rintro machine (hview | ⟨settings, credentials, a, b, hdesired, hwrote⟩)
    · rw [show w.machine.files = w₀.files from hfiles] at hview
      exact .refused trivial hview hevents fun h => by cases h
    · rw [show w.machine.files = w₀.files from hfiles] at hwrote
      exact .stopped rfl hproceeds (AccountBootstrap.desired_of_eq hdesired) hwrote hevents trivial
  -- it is refused before the saves, it stops in them, or both records are stored
  rintro ⟨bootstrap, e⟩ machine hended
  rw [show w.machine.files = w₀.files from hfiles] at hended
  dsimp only
  rcases hended with ⟨hf, -, -, -, hbefore, hactive⟩ | ⟨settings, credentials, -, hdesired, hattempted⟩
  · have hne : bootstrap.result ≠ .ok := by
      intro hok
      rw [hok] at hbefore
      exact hbefore
    rw [if_pos hne, if_neg hactive]
    exact ⟨rfl, .refused (leavesFiles_bootstrapStatus hbefore)
      (show view layout machine.files = _ by rw [hf]) hevents
      fun h => absurd h (bootstrapStatus_ne bootstrap)⟩
  have hactive : bootstrap.result ≠ .existingActive := fun h => hnot (hattempted.did.active h)
  have hdesired' := AccountBootstrap.desired_of_eq hdesired
  by_cases hok : bootstrap.result = .ok
  · rw [if_neg (not_not.mpr hok)]
    obtain ⟨hs, hc⟩ := hattempted.did.ok hok
    have hstored : ∀ {r : Option Status} {w' : World}, Prepares layout { w with machine } r w' →
        Submitted layout pid (some input) intent w₀ report.localState r w' := by
      intro r w' hprepares
      exact @Submitted.stored layout pid (some input) intent w₀ report.localState r
        { w with machine } w' input settings credentials _ _ rfl hproceeds hdesired'
        hattempted.did.wrote hevents hs hc hprepares
    refine (ends_prepareAndActivate hroot _ runtime entropy _).mono ?_ fun _ h => hstored h
    rintro r w' ⟨hlocal, hprepares⟩
    exact ⟨hlocal, hstored hprepares⟩
  · rw [if_pos hok, if_neg hactive]
    by_cases hbefore : bootstrap.result.BeforeSaves
    · exact ⟨rfl, .refused (leavesFiles_bootstrapStatus hbefore)
        (show view layout machine.files = _ by rw [hattempted.refused hbefore]) hevents
        fun h => absurd h (bootstrapStatus_ne bootstrap)⟩
    · exact ⟨rfl, .stopped rfl hproceeds hdesired' hattempted.did.wrote hevents
        (bootstrapStopped_bootstrapStatus hbefore)⟩

theorem validRoot_of_observed {pid : ℕ} {v : View} {H : Prop} {observation : Observation}
    (h : Observed H layout pid v observation) (hresult : observation.localState.result = .ok) :
    ValidRoot layout := by
  have hunreadable := (LocalState.result_eq_ok hresult).2
  have hlocal := h.localState_eq.resolve_right fun h => hunreadable h.2
  by_contra hroot
  refine hunreadable (hlocal.trans ?_)
  rw [classify, if_pos (StorageLayout.layoutValid_iff.not.mpr hroot)]

/-- What an operation observes first. -/
def Observes (layout : Layout) (w : World) (localState : LocalState) : Prop :=
  (observeState layout w.pid w.machine).1.map Observation.localState = some localState

theorem observes_of_eq {observation : Observation} {machine : Machine}
    (h : observeState layout w.pid w.machine = (some observation, machine)) :
    Observes layout w observation.localState := by
  rw [Observes, h]
  rfl

/-- What is observed is the state of the account, unless a call fails on its own. -/
theorem Observes.eq_or {localState : LocalState} (h : Observes layout w localState) :
    localState = classify layout w.pid (view layout w.files) ∨
      ¬ Healthy w.machine ∧ localState = .unreadable := by
  obtain ⟨observation, hrun, rfl⟩ := Option.map_eq_some_iff.mp h
  exact ((ends_observeState layout w.pid id).of_eq (Prod.ext hrun rfl)).2.localState_eq

/-- **How a submission ends.** -/
theorem ends_submit (layout : Layout) (input : Option Input) (intent : Intent)
    (runtime : Option Runtime) (entropy : Option (Fin 16 → UInt8)) (w : World) :
    Ends (submit layout input intent runtime entropy) w
      (fun r w' => Observes layout w r.localState ∧
        Submitted layout w.pid input intent w r.localState (some r.status) w')
      fun w' => ∃ localState, Submitted layout w.pid input intent w localState none w' := by
  unfold submit
  rw [ends_bind, ends_get, ends_bind, ends_sys]
  refine ((ends_run _ _).and (ends_observeState layout w.pid id)).mono ?_ ?_
  swap
  · rintro machine ⟨-, hf⟩
    exact ⟨.unknown, .refused trivial (show view layout machine.files = _ by rw [hf]) rfl
      fun h => by cases h⟩
  -- the observation changes no file, so a refusal leaves everything as it was
  rintro observation machine ⟨hrun, hf, hobserved⟩
  have hview : view layout (World.files { w with machine }) = view layout w.files :=
    show view layout machine.files = _ by rw [hf]
  have hlocal := observes_of_eq hrun
  dsimp only
  by_cases hresult : observation.result = .ok
  swap
  · rw [if_pos hresult]
    refine ⟨hlocal, .refused ?_ hview rfl ?_⟩
    · split_ifs <;> exact trivial
    · split_ifs <;> exact fun h => by cases h
  rw [if_neg (not_not.mpr hresult)]
  rw [hobserved.result_eq] at hresult
  by_cases horphan : observation.localState = .orphanCredentials
  · rw [if_pos (show (initialReport.observed observation).localState = _ from horphan)]
    exact ⟨hlocal, .refused trivial hview rfl fun h => by cases h⟩
  rw [if_neg (show ¬ (initialReport.observed observation).localState = _ from horphan)]
  by_cases henabled : observation.localState = .enabled
  · rw [if_pos (show (initialReport.observed observation).localState = _ from henabled)]
    exact ⟨hlocal, .refused trivial hview rfl fun _ => henabled⟩
  rw [if_neg (show ¬ (initialReport.observed observation).localState = _ from henabled)]
  unfold runSetup
  -- what is not refused proceeds to the saves
  cases hrefusal : refusal (initialReport.observed observation) input intent
      observation.settings with
  | some status =>
    have hleaves : LeavesFiles (some status) ∧ some status ≠ some .alreadyEnabled := by
      unfold refusal at hrefusal
      split_ifs at hrefusal <;> cases hrefusal <;> exact ⟨trivial, by simp⟩
    exact ⟨hlocal, .refused hleaves.1 hview rfl fun h => absurd h hleaves.2⟩
  | none =>
    cases input with
    | none => exact ⟨hlocal, .refused trivial hview rfl fun h => by cases h⟩
    | some input =>
      have hproceeds := proceeds_of_refusal hobserved hresult horphan henabled hrefusal
      have hfiles : World.files { w with machine } = w.files := hf
      refine (ends_storeInput (validRoot_of_observed hobserved hresult) hproceeds runtime entropy
        hfiles rfl).mono ?_ fun w' h => ⟨_, h⟩
      rintro r w' ⟨hsame, hsubmitted⟩
      have hr : r.localState = observation.localState := hsame
      rw [hr]
      exact ⟨hlocal, hsubmitted⟩

/-- **How the activation of an account that is stored ends.** -/
theorem ends_activateExisting (layout : Layout) (runtime : Option Runtime)
    (entropy : Option (Fin 16 → UInt8)) (w : World) :
    Ends (activateExisting layout runtime entropy) w
      (fun r w' => Observes layout w r.localState ∧
        ActivatedExisting layout w.pid w r.localState (some r.status) w')
      fun w' => ∃ localState, ActivatedExisting layout w.pid w localState none w' := by
  unfold activateExisting
  rw [ends_bind, ends_get, ends_bind, ends_sys]
  refine ((ends_run _ _).and (ends_observeState layout w.pid id)).mono ?_ ?_
  swap
  · rintro machine ⟨-, hf⟩
    exact ⟨.unknown, .refused trivial (show view layout machine.files = _ by rw [hf]) rfl
      fun h => by cases h⟩
  rintro observation machine ⟨hrun, hf, hobserved⟩
  have hview : view layout (World.files { w with machine }) = view layout w.files :=
    show view layout machine.files = _ by rw [hf]
  have hlocal := observes_of_eq hrun
  dsimp only
  -- only a complete account that is disabled goes past the observation
  by_cases hcorrupt : observation.result = .corrupt
  · rw [if_pos hcorrupt]
    exact ⟨hlocal, .refused trivial hview rfl fun h => by cases h⟩
  rw [if_neg hcorrupt]
  by_cases hunreadable : observation.result = .unreadable
  · rw [if_pos hunreadable]
    exact ⟨hlocal, .refused trivial hview rfl fun h => by cases h⟩
  rw [if_neg hunreadable]
  have hresult : observation.localState.result = .ok := by
    rw [← hobserved.result_eq]
    cases hcase : observation.result <;> first | rfl | contradiction
  by_cases henabled : observation.localState = .enabled
  · rw [if_pos (show (initialReport.observed observation).localState = _ from henabled)]
    exact ⟨hlocal, .refused trivial hview rfl fun _ => henabled⟩
  rw [if_neg (show ¬ (initialReport.observed observation).localState = _ from henabled)]
  by_cases hcomplete : observation.localState = .completeDisabled
  swap
  · rw [if_pos (show (initialReport.observed observation).localState ≠ _ from hcomplete)]
    exact ⟨hlocal, .refused trivial hview rfl fun h => by cases h⟩
  rw [if_neg (show ¬ (initialReport.observed observation).localState ≠ _ from
    not_not.mpr hcomplete)]
  -- what was observed is what is stored
  have hstate : classify layout w.pid (view layout w.files) = .completeDisabled := by
    have htrue := hobserved.localState_eq.resolve_right fun h => by
      rw [hcomplete] at h
      cases h.2
    rw [← htrue, hcomplete]
  refine (ends_prepareAndActivate (validRoot_of_observed hobserved hresult) _ runtime entropy
    _).mono ?_ ?_
  · rintro r w' ⟨hsame, hprepares⟩
    have hr : r.localState = observation.localState := hsame
    rw [hr]
    exact ⟨hlocal, .prepared hstate hcomplete (hprepares.of_eq hf rfl)⟩
  · intro w' hprepares
    exact ⟨_, .prepared hstate hcomplete (hprepares.of_eq hf rfl)⟩

/-- **An inspection** tells the state of the account and changes nothing. -/
theorem ends_inspect (layout : Layout) (w : World) :
    Ends (inspect layout) w
      (fun r w' => w'.files = w.files ∧ w'.events = w.events ∧
        Observes layout w r.localState ∧ LeavesFiles (some r.status) ∧
        (r.status = .alreadyEnabled → r.localState = .enabled))
      fun w' => w'.files = w.files ∧ w'.events = w.events := by
  unfold inspect
  rw [ends_bind, ends_get, ends_bind, ends_sys]
  refine ((ends_run _ _).and (ends_observeState layout w.pid id)).mono ?_
    fun _ ⟨_, hf⟩ => ⟨hf, rfl⟩
  rintro observation machine ⟨hrun, hf, -⟩
  have hlocal := observes_of_eq hrun
  dsimp only
  split_ifs with hcorrupt hunreadable henabled
  · exact ⟨hf, rfl, hlocal, trivial, fun h => by cases h⟩
  · exact ⟨hf, rfl, hlocal, trivial, fun h => by cases h⟩
  · exact ⟨hf, rfl, hlocal, trivial, fun _ => henabled⟩
  · exact ⟨hf, rfl, hlocal, trivial, fun h => by cases h⟩
  · exact ⟨hf, rfl, hlocal, trivial, fun h => by cases h⟩

end Operations

end AccountSetup
