import CrossNook.Account.AccountFiles

/-!
# The persisted sync profile

The account of the device, put together from its three files (`sync/persisted_sync_profile.c`):
the settings, the credentials and the device identity of a storage layout.

## Main definitions

* `PersistedSyncProfile.Profile`: `cn_persisted_sync_profile`
* `PersistedSyncProfile.load`: `cn_persisted_sync_profile_load`
* `PersistedSyncProfile.Stored`: the profile that the files hold

## Main results

* `PersistedSyncProfile.ends_load`: a profile that is loaded is stored
-/

namespace PersistedSyncProfile

open Bytes (ascii)
open Crash Posix
open StorageLayout (Layout ValidRoot)

/-- `cn_persisted_sync_profile`. -/
structure Profile where
  baseUrl : List UInt8
  username : List UInt8
  userkey : List UInt8
  deviceId : List UInt8
  deviceName : List UInt8
  deriving DecidableEq, Repr

/-- `cn_persisted_sync_profile_clear`. -/
def cleared : Profile := ⟨[], [], [], [], []⟩

/-- `cn_persisted_sync_profile_status`. -/
inductive Status
  | invalidArgument
  | disabled
  | ready
  | settingsFailed
  | credentialsFailed
  | identityFailed
  | validationFailed
  deriving DecidableEq, Repr

/-- `cn_persisted_sync_profile_report`. -/
structure Report where
  status : Status
  settingsResult : SettingsStore.Result
  credentialResult : CredentialStore.Result
  identityResult : DeviceIdentity.Result
  settingsAttempted : Bool
  credentialsAttempted : Bool
  identityAttempted : Bool
  systemErrno : Option Errno
  deriving DecidableEq, Repr

/-- `initial_report`. -/
def initialReport : Report where
  status := .invalidArgument
  settingsResult := .invalidArgument
  credentialResult := .invalid
  identityResult := .invalidArgument
  settingsAttempted := false
  credentialsAttempted := false
  identityAttempted := false
  systemErrno := none

/-- `bounded_text`. -/
def boundedText (text : List UInt8) (capacity : ℕ) (requireValue : Bool) : Bool :=
  text.length < capacity ∧ (requireValue → text ≠ [])

/-- The check of a profile that is put together. -/
def Profile.bounded (profile : Profile) : Bool :=
  boundedText profile.baseUrl SettingsStore.kosyncUrlCapacity true ∧
    boundedText profile.username (CredentialStore.usernameMax + 1) true ∧
    boundedText profile.userkey (CredentialStore.userkeyMax + 1) true ∧
    boundedText profile.deviceId DeviceIdentity.textCapacity true ∧
    boundedText profile.deviceName SettingsStore.deviceNameCapacity true

/-- `state_path`. -/
def statePath (layout : Layout) (capacity : ℕ) : Option Path :=
  let written := layout.root ++ ascii "/state"
  if written.length < capacity then some written else none

/-- The fields that a profile copies. -/
def assemble (settings : Settings) (credentials : Credentials) (deviceId : List UInt8) :
    Profile where
  baseUrl := settings.kosyncBaseUrl
  username := credentials.username
  userkey := credentials.userkey
  deviceId := deviceId
  deviceName := settings.kosyncDeviceName

/-- A load that ends without a profile. -/
def refused (report : Report) (status : Status) : Report × Profile :=
  ({ report with status }, cleared)

/-- The part of `cn_persisted_sync_profile_load` after the credentials. -/
def loadIdentity (layout : Layout) (settings : Settings) (credentials : Credentials)
    (report : Report) : Sys (Report × Profile) := do
  let report := { report with identityAttempted := true }
  match ← DeviceIdentity.init layout with
  | .error identityResult => return refused { report with identityResult } .identityFailed
  | .ok store => do
    let loaded ← DeviceIdentity.loadNow store
    let report := { report with
      identityResult := loaded.result, systemErrno := loaded.systemErrno }
    if loaded.result ≠ .ok then return refused report .identityFailed
    else
      let profile := assemble settings credentials loaded.output
      if ¬ profile.bounded then return refused report .validationFailed
      else return ({ report with status := .ready }, profile)

/-- The part of `cn_persisted_sync_profile_load` after the settings. -/
def loadCredentials (layout : Layout) (settings : Settings) (report : Report) :
    Sys (Report × Profile) := do
  let report := { report with credentialsAttempted := true }
  match statePath layout StorageLayout.pathCapacity with
  | none => return refused { report with credentialResult := .pathTooLong } .credentialsFailed
  | some path =>
    match ← CredentialStore.init (some path) with
    | .error (credentialResult, systemErrno) =>
      return refused { report with credentialResult, systemErrno } .credentialsFailed
    | .ok store => do
      let loaded ← CredentialStore.load store CredentialStore.cleared
      let report := { report with
        credentialResult := loaded.result, systemErrno := loaded.systemErrno }
      if loaded.result ≠ .ok then return refused report .credentialsFailed
      else loadIdentity layout settings loaded.credentials report

/-- `cn_persisted_sync_profile_load` in the process `pid`. -/
def load (layout : Layout) (pid : ℕ) : Sys (Report × Profile) := do
  let report := { initialReport with settingsAttempted := true }
  match StorageLayout.path layout .config StorageLayout.pathCapacity with
  | .error _ => return refused report .settingsFailed
  | .ok config =>
    match ← SettingsStore.init (some config) pid with
    | .error (settingsResult, systemErrno) =>
      return refused { report with settingsResult, systemErrno } .settingsFailed
    | .ok store => do
      let loaded ← SettingsStore.load store pid
      let report := { report with
        settingsResult := loaded.result, systemErrno := loaded.systemErrno }
      -- without settings the synchronization is off, as with settings that say so
      if loaded.result = .missing ∨ (loaded.result = .ok ∧ loaded.settings.kosyncEnabled = 0) then
        return refused report .disabled
      else if loaded.result ≠ .ok then return refused report .settingsFailed
      else loadCredentials layout loaded.settings report

/-! ## What a load returns -/

section Load

variable {layout : Layout} {pid : ℕ} {files : Path → Option Node} {m : Machine}

/-- The settings in the files are switched off: there are none, or they say so. -/
def SwitchedOff (layout : Layout) (pid : ℕ) (files : Path → Option Node) : Prop :=
  (Account.settingsStore layout).look pid files = .error .missing ∨
    ∃ settings, (Account.settingsStore layout).look pid files = .ok settings ∧
      settings.kosyncEnabled = 0

/-- The profile that the files of a layout hold. -/
structure Stored (layout : Layout) (pid : ℕ) (files : Path → Option Node) (profile : Profile) :
    Prop where
  exists_files : ∃ settings credentials,
    (Account.settingsStore layout).look pid files = .ok settings ∧ settings.kosyncEnabled ≠ 0 ∧
      (Account.credentialStore layout).look files = .ok credentials ∧
      profile = assemble settings credentials profile.deviceId
  identity : ∃ store : DeviceIdentity.Store, store.stored files = some profile.deviceId
  bounded : profile.bounded = true

/-- What the load of a profile promises. -/
structure Loads (layout : Layout) (pid : ℕ) (files : Path → Option Node) (report : Report)
    (profile : Profile) : Prop where
  ready : report.status = .ready → Stored layout pid files profile
  disabled : report.status = .disabled → SwitchedOff layout pid files
  refused : report.status ≠ .ready → profile = cleared

theorem loads_refused {report : Report} {status : Status} (hready : status ≠ .ready)
    (hdisabled : status = .disabled → SwitchedOff layout pid files) :
    Loads layout pid files (refused report status).1 (refused report status).2 :=
  ⟨fun h => absurd h hready, hdisabled, fun _ => rfl⟩

theorem loads_failed {report : Report} {status : Status} (hready : status ≠ .ready)
    (hdisabled : status ≠ .disabled) :
    Loads layout pid files (refused report status).1 (refused report status).2 :=
  loads_refused hready fun h => absurd h hdisabled

/-- What the settings store finds where a load tells of it. -/
theorem look_of_toldSettings {store : SettingsStore.Store} {r : SettingsStore.Loaded}
    (h : SettingsStore.Told False (store.look pid files) r) :
    (r.result = .ok → store.look pid files = .ok r.settings) ∧
      (r.result = .missing → store.look pid files = .error .missing) := by
  have hloads := h.loads
  have hlook : r.result = .ok ∨ r.result = .missing →
      store.look pid files = store.stored files := fun hr =>
    (store.look_cases pid files).resolve_right (h.not_blocked hr)
  constructor
  · intro hr
    rw [hlook (.inl hr)]
    exact hloads.ok hr
  · intro hr
    rw [hlook (.inr hr)]
    exact SettingsStore.stored_eq_missing.mpr (hloads.missing hr)

theorem look_of_toldCredentials {store : CredentialStore.Store} {r : CredentialStore.Loaded}
    (h : CredentialStore.Told False (store.look files) r) (hr : r.result = .ok) :
    store.look files = .ok r.credentials := by
  rw [(store.look_cases files).resolve_right (h.not_blocked (.inl hr))]
  exact h.loads.ok hr

theorem statePath_of_valid (h : ValidRoot layout) :
    statePath layout StorageLayout.pathCapacity = some layout.state := by
  have hle := h.le
  have hcapacity : StorageLayout.pathCapacity = 4096 := rfl
  have hlength : (layout.root ++ ascii "/state").length = layout.root.length + 6 := by
    rw [List.length_append]
    rfl
  unfold statePath
  dsimp only
  rw [if_pos (by omega)]
  rfl

theorem ends_loadIdentity {settings : Settings} {credentials : Credentials} (report : Report)
    (hsettings : (Account.settingsStore layout).look pid files = .ok settings)
    (henabled : settings.kosyncEnabled ≠ 0)
    (hcredentials : (Account.credentialStore layout).look files = .ok credentials)
    (hf : m.files = files) :
    Ends (loadIdentity layout settings credentials report) m
      (fun r m' => m'.files = files ∧ Loads layout pid files r.1 r.2) fun m' => m'.files = files := by
  unfold loadIdentity
  dsimp only
  rw [ends_bind]
  refine ((DeviceIdentity.keepsFiles_init layout).ends m).mono ?_ fun _ h => h.trans hf
  intro r m₁ hf₁
  cases r with
  | error result => exact ⟨hf₁.trans hf, loads_failed (by decide) (by decide)⟩
  | ok store =>
  dsimp only
  rw [ends_bind]
  refine (DeviceIdentity.ends_loadNow store m₁).mono ?_ fun _ h => h.trans (hf₁.trans hf)
  rintro loaded m₂ ⟨hf₂, hloads⟩
  have hfiles : m₂.files = files := hf₂.trans (hf₁.trans hf)
  by_cases hok : loaded.result = .ok
  swap
  · rw [if_pos hok]
    exact ⟨hfiles, loads_failed (by decide) (by decide)⟩
  rw [if_neg (not_not.mpr hok)]
  by_cases hbounded : (assemble settings credentials loaded.output).bounded = true
  swap
  · rw [if_pos hbounded]
    exact ⟨hfiles, loads_failed (by decide) (by decide)⟩
  rw [if_neg (not_not.mpr hbounded)]
  refine ⟨hfiles, fun _ => ?_, (fun h => nomatch h), fun h => absurd rfl h⟩
  refine ⟨⟨settings, credentials, hsettings, henabled, hcredentials, rfl⟩, ⟨store, ?_⟩, hbounded⟩
  rw [← hf, ← hf₁]
  exact hloads hok

theorem ends_loadCredentials (hroot : ValidRoot layout) {settings : Settings} (report : Report)
    (hsettings : (Account.settingsStore layout).look pid files = .ok settings)
    (henabled : settings.kosyncEnabled ≠ 0) (hf : m.files = files) :
    Ends (loadCredentials layout settings report) m
      (fun r m' => m'.files = files ∧ Loads layout pid files r.1 r.2) fun m' => m'.files = files := by
  unfold loadCredentials
  dsimp only
  rw [statePath_of_valid hroot]
  dsimp only
  rw [ends_bind]
  refine (Account.ends_initCredentials (H := False) hroot False.elim).mono ?_
    fun _ h => h.trans hf
  rintro r m₁ ⟨hf₁, -, rfl | ⟨status, rfl, -⟩⟩
  swap
  · exact ⟨hf₁.trans hf, loads_failed (by decide) (by decide)⟩
  dsimp only
  rw [ends_bind]
  refine (CredentialStore.ends_load_told (H := False) _ _ False.elim).mono ?_
    fun _ h => h.trans (hf₁.trans hf)
  rintro loaded m₂ ⟨hf₂, -, htold⟩
  rw [hf₁, hf] at htold
  by_cases hok : loaded.result = .ok
  swap
  · rw [if_pos hok]
    exact ⟨hf₂.trans (hf₁.trans hf), loads_failed (by decide) (by decide)⟩
  rw [if_neg (not_not.mpr hok)]
  exact ends_loadIdentity _ hsettings henabled (look_of_toldCredentials htold hok)
    (hf₂.trans (hf₁.trans hf))

/-- **A profile that is loaded is stored**, and where the load says that sync is off it is. -/
theorem ends_load (layout : Layout) (pid : ℕ) (m : Machine) :
    Ends (load layout pid) m
      (fun r m' => m'.files = m.files ∧ Loads layout pid m.files r.1 r.2)
      fun m' => m'.files = m.files := by
  unfold load
  by_cases hroot : ValidRoot layout
  swap
  · rw [StorageLayout.path_of_not_valid hroot]
    exact ⟨rfl, loads_failed (by decide) (by decide)⟩
  rw [(StorageLayout.path_of_valid hroot).1]
  dsimp only
  rw [ends_bind]
  refine (Account.ends_initSettings (H := False) layout pid False.elim).mono ?_ fun _ h => h
  rintro r m₁ ⟨hf₁, -, rfl | ⟨status, rfl, -⟩⟩
  swap
  · exact ⟨hf₁, loads_failed (by decide) (by decide)⟩
  dsimp only
  rw [ends_bind]
  refine (SettingsStore.ends_load_told (H := False) _ pid False.elim).mono ?_ fun _ h => h.trans hf₁
  rintro loaded m₂ ⟨hf₂, -, htold⟩
  rw [hf₁] at htold
  obtain ⟨hlook, hmissing⟩ := look_of_toldSettings htold
  have hfiles : m₂.files = m.files := hf₂.trans hf₁
  -- the settings alone tell that the synchronization is off
  by_cases hdisabled : loaded.result = .missing ∨
      (loaded.result = .ok ∧ loaded.settings.kosyncEnabled = 0)
  · rw [if_pos hdisabled]
    refine ⟨hfiles, loads_refused (by decide) fun _ => ?_⟩
    rcases hdisabled with h | ⟨h, h0⟩
    · exact .inl (hmissing h)
    · exact .inr ⟨_, hlook h, h0⟩
  rw [if_neg hdisabled]
  by_cases hok : loaded.result = .ok
  swap
  · rw [if_pos hok]
    exact ⟨hfiles, loads_failed (by decide) (by decide)⟩
  rw [if_neg (not_not.mpr hok)]
  exact ends_loadCredentials hroot _ (hlook hok) (fun h0 => hdisabled (.inr ⟨hok, h0⟩)) hfiles

end Load

end PersistedSyncProfile
