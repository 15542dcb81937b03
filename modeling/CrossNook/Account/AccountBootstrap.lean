import CrossNook.Account.AccountFiles
import CrossNook.Book.Md5

/-!
# Account bootstrap

The local part of an account setup (`account/account_bootstrap.c`, `account/kosync_userkey.c`): the
input is checked, the key of the user is derived from the password, and the settings and then the
credentials are saved, with the account disabled.

## Main definitions

* `KosyncUserkey.fromPassword`: `cn_kosync_userkey_from_password`
* `AccountBootstrap.bootstrap`: `cn_account_bootstrap`
* `AccountBootstrap.Wrote`, `AccountBootstrap.Bootstrapped`: what a bootstrap does to the files

## Main results

* `AccountBootstrap.ends_bootstrap`: how a bootstrap ends
* `AccountBootstrap.bootstrap_ordered`: a bootstrap is ordered, fails closed and can be repeated
-/

namespace KosyncUserkey

/-- `CN_ACCOUNT_PASSWORD_MAX`. -/
def passwordMax : ℕ := 1024

/-- `CN_ACCOUNT_USERKEY_TEXT_CAPACITY`. -/
def textCapacity : ℕ := 33

/-- `cn_kosync_userkey_result`. -/
inductive Result
  | ok
  | invalidArgument
  | passwordEmpty
  | passwordTooLong
  | outputTooSmall
  deriving DecidableEq, Repr

/-- `cn_kosync_userkey_from_password`: the result and the text in an output of the given
capacity. -/
def fromPassword (password : Option (List UInt8)) (outputCapacity : ℕ) : Result × List UInt8 :=
  match password with
  | none => (.invalidArgument, [])
  | some password =>
    if password.length = 0 then (.passwordEmpty, [])
    else if passwordMax < password.length then (.passwordTooLong, [])
    else if outputCapacity < textCapacity then (.outputTooSmall, [])
    else (.ok, Md5.hex (Md5.digest password))

theorem fromPassword_eq_ok {password : List UInt8} {outputCapacity : ℕ}
    (h : (fromPassword (some password) outputCapacity).1 = .ok) :
    (fromPassword (some password) outputCapacity).2 = Md5.hex (Md5.digest password) := by
  simp only [fromPassword] at h ⊢
  split_ifs at h ⊢
  rfl

end KosyncUserkey

namespace AccountBootstrap

open Bytes (ascii)
open Crash Posix
open StorageLayout (Layout ValidRoot)
open Account (View view)

/-- `cn_account_bootstrap_stage`. -/
inductive Stage
  | none
  | preflight
  | settings
  | credentials
  deriving DecidableEq, Repr

/-- `cn_account_bootstrap_result`. -/
inductive Result
  | ok
  | invalidArgument
  | invalidInput
  | existingActive
  | existingSettingsFailed
  | existingCredentialsFailed
  | derivationFailed
  | settingsWriteFailed
  | credentialsWriteFailed
  | durabilityUncertain
  deriving DecidableEq, Repr

/-- `cn_account_bootstrap_report`. -/
structure Report where
  result : Result
  stage : Stage
  settingsResult : SettingsStore.Result
  credentialResult : CredentialStore.Result
  userkeyResult : KosyncUserkey.Result
  settingsWritten : Bool
  credentialsWritten : Bool
  deriving DecidableEq

/-- `initial_report`. -/
def initialReport : Report where
  result := .invalidArgument
  stage := .none
  settingsResult := .invalidArgument
  credentialResult := .invalid
  userkeyResult := .invalidArgument
  settingsWritten := false
  credentialsWritten := false

/-! ## The desired records -/

/-- `copy_bounded` into a buffer of `capacity` bytes. -/
def copyBounded (capacity : ℕ) (input : List UInt8) : Option (List UInt8) :=
  if input.length = 0 ∨ capacity ≤ input.length then none else some input

/-- `credential_text_valid`. -/
def credentialTextValid (text : List UInt8) : Bool :=
  if text.length = 0 ∨ CredentialStore.usernameMax < text.length then false
  else text.all fun c => ¬ (c < 0x20 ∨ c = 0x7f)

/-- `settings_equal`. -/
def settingsEqual (left right : Settings) : Bool :=
  left.kosyncEnabled = right.kosyncEnabled ∧ left.kosyncBaseUrl = right.kosyncBaseUrl ∧
    left.kosyncDeviceName = right.kosyncDeviceName

/-- `credentials_equal`. -/
def credentialsEqual (left right : Credentials) : Bool :=
  left.username = right.username ∧ left.userkey = right.userkey

/-- The settings that a bootstrap is to store. -/
def desiredSettings (baseUrl deviceName : List UInt8) : Settings :=
  { SettingsStore.defaults with
    kosyncBaseUrl := baseUrl, kosyncDeviceName := deviceName, kosyncEnabled := 0 }

/-- The part of `cn_account_bootstrap` before it looks for files: the records that it is to
store. -/
def desiredRecords (report : Report) (baseUrl deviceName username password : Option (List UInt8)) :
    Report × Option (Settings × Credentials) :=
  match baseUrl, deviceName, username, password with
  | some baseUrl, some deviceName, some username, some password =>
    if password.length = 0 ∨ KosyncUserkey.passwordMax < password.length ∨
        ¬ credentialTextValid username then
      ({ report with result := .invalidInput }, none)
    else
      match copyBounded SettingsStore.kosyncUrlCapacity baseUrl,
        copyBounded SettingsStore.deviceNameCapacity deviceName with
      | some url, some device =>
        let settings := desiredSettings url device
        -- the result of the settings is reported also where they are refused
        let report := { report with settingsResult := SettingsStore.validate settings }
        if SettingsStore.validate settings ≠ .ok ∨ baseUrl = [] then
          ({ report with result := .invalidInput }, none)
        else
          let (userkeyResult, userkey) :=
            KosyncUserkey.fromPassword (some password) KosyncUserkey.textCapacity
          let report := { report with userkeyResult }
          if userkeyResult ≠ .ok then ({ report with result := .derivationFailed }, none)
          else (report, some (settings, ⟨username, userkey⟩))
      | _, _ => ({ report with result := .invalidInput }, none)
  | _, _, _, _ => ({ report with result := .invalidInput }, none)

/-- The records that a bootstrap with these texts is to store. -/
def desired (baseUrl deviceName username password : Option (List UInt8)) :
    Option (Settings × Credentials) :=
  (desiredRecords { initialReport with stage := .preflight } baseUrl deviceName username password).2

/-- The directories of the settings and of the credentials. -/
def directories (layout : Layout) : Option (Path × Path) :=
  match StorageLayout.path layout .config StorageLayout.pathCapacity with
  | .error _ => none
  | .ok config =>
    match StorageLayout.path layout .progress StorageLayout.pathCapacity with
    | .error _ => none
    | .ok progress =>
      let length := progress.length - StorageLayout.progressName.length
      if progress.length ≤ StorageLayout.progressName.length ∨
          progress.drop length ≠ StorageLayout.progressName then
        none
      else if StorageLayout.pathCapacity < length + (StorageLayout.stateSuffix.length + 1) then none
      else some (config, progress.take length)

/-! ## The files -/

/-- The last part of `cn_account_bootstrap`: the credentials are saved. -/
def saveCredentials (store : CredentialStore.Store) (credentials : Credentials) (pid : ℕ)
    (sequence : UInt32) (report : Report) : Sys (Report × Option Errno) := do
  let (credentialResult, e) ← CredentialStore.save store credentials pid sequence
  let report := { report with
    stage := .credentials
    credentialResult
    credentialsWritten :=
      decide (credentialResult = CredentialStore.Result.ok ∨
        credentialResult = CredentialStore.Result.durabilityUncertain) }
  if credentialResult = .durabilityUncertain then
    return ({ report with result := .durabilityUncertain }, e)
  else if credentialResult ≠ .ok then return ({ report with result := .credentialsWriteFailed }, e)
  else return ({ report with result := .ok }, e)

/-- The part of `cn_account_bootstrap` that saves the settings. -/
def saveSettings (store : SettingsStore.Store) (settings : Settings) (pid : ℕ) (report : Report) :
    Sys (Report × Option Errno) := do
  let (settingsResult, e) ← SettingsStore.save store settings pid
  let report := { report with
    stage := .settings
    settingsResult
    settingsWritten :=
      decide (settingsResult = SettingsStore.Result.ok ∨
        settingsResult = SettingsStore.Result.durabilityUncertain) }
  if settingsResult = .durabilityUncertain then
    return ({ report with result := .durabilityUncertain }, e)
  else if settingsResult ≠ .ok then return ({ report with result := .settingsWriteFailed }, e)
  else return ({ report with result := .ok }, e)

/-- The part of `cn_account_bootstrap` that saves the settings where they have to be saved. -/
def saveNeededSettings (store : SettingsStore.Store) (settings : Settings) (needsSettings : Bool)
    (pid : ℕ) (report : Report) (e : Option Errno) : Sys (Report × Option Errno) :=
  if needsSettings then saveSettings store settings pid report
  else return ({ report with result := .ok }, e)

/-- The part of `cn_account_bootstrap` after both files are loaded. -/
def saveRecords (settingsStore : SettingsStore.Store) (credentialStore : CredentialStore.Store)
    (settings : Settings) (credentials : Credentials) (needsSettings needsCredentials : Bool)
    (pid : ℕ) (sequence : UInt32) (report : Report) (e : Option Errno) :
    Sys (Report × Option Errno) := do
  let (report, e) ← saveNeededSettings settingsStore settings needsSettings pid report e
  if report.result ≠ .ok then return (report, e)
  else if needsCredentials then saveCredentials credentialStore credentials pid sequence report
  else return (report, e)

/-- The part of `cn_account_bootstrap` after the stores are initialized. -/
def storeRecords (settingsStore : SettingsStore.Store) (credentialStore : CredentialStore.Store)
    (settings : Settings) (credentials : Credentials) (pid : ℕ) (sequence : UInt32)
    (report : Report) : Sys (Report × Option Errno) := do
  let existing ← SettingsStore.load settingsStore pid
  let report := { report with settingsResult := existing.result }
  if existing.result ≠ .ok ∧ existing.result ≠ .missing then
    return ({ report with result := .existingSettingsFailed }, existing.systemErrno)
  -- an account that is enabled is never overwritten
  else if existing.result = .ok ∧ existing.settings.kosyncEnabled ≠ 0 then
    return ({ report with result := .existingActive }, existing.systemErrno)
  else do
    let existing' ← CredentialStore.load credentialStore CredentialStore.cleared
    let report := { report with credentialResult := existing'.result }
    if existing'.result ≠ .ok ∧ existing'.result ≠ .missing then
      return ({ report with result := .existingCredentialsFailed }, existing'.systemErrno)
    else
      saveRecords settingsStore credentialStore settings credentials
        -- only what differs from the records that are there is saved
        (existing.result = .missing ∨ ¬ settingsEqual existing.settings settings)
        (existing'.result = .missing ∨ ¬ credentialsEqual existing'.credentials credentials)
        pid sequence report existing'.systemErrno

/-- `cn_account_bootstrap` in the process `pid`, where the counter of the temporary files of the
credentials stands at `sequence`: the report and `system_errno`. -/
def bootstrap (layout : Layout) (baseUrl deviceName username password : Option (List UInt8))
    (pid : ℕ) (sequence : UInt32) : Sys (Report × Option Errno) :=
  match desiredRecords { initialReport with stage := .preflight } baseUrl deviceName username
    password with
  | (report, none) => return (report, none)
  -- both stores are initialized before anything is stored
  | (report, some (settings, credentials)) =>
    match directories layout with
    | none => return ({ report with result := .invalidArgument }, none)
    | some (config, state) => do
      match ← SettingsStore.init (some config) pid with
      | .error (settingsResult, e) =>
        return ({ report with settingsResult, result := .existingSettingsFailed }, e)
      | .ok settingsStore =>
        let report := { report with settingsResult := .ok }
        match ← CredentialStore.init (some state) with
        | .error (credentialResult, e) =>
          return ({ report with credentialResult, result := .existingCredentialsFailed }, e)
        | .ok credentialStore =>
          storeRecords settingsStore credentialStore settings credentials pid sequence
            { report with credentialResult := .ok }

/-! ## When a bootstrap reaches its second save -/

/-- The result after the save of the credentials, with `none` where they are not saved. -/
def savedResult : Option CredentialStore.Result → Result
  | none | some .ok => .ok
  | some .durabilityUncertain => .durabilityUncertain
  | some _ => .credentialsWriteFailed

/-- The save of the credentials, where they have to be saved, ends with `Q`. -/
def SecondSave (store : CredentialStore.Store) (credentials : Credentials)
    (needsCredentials : Prop) (pid : ℕ) (sequence : UInt32)
    (Q : Option CredentialStore.Result → Machine → Prop) (m : Machine) : Prop :=
  (needsCredentials → Returns (CredentialStore.save store credentials pid sequence) m
    fun status m => Q (some status.1) m) ∧ (¬ needsCredentials → Q none m)

/-- The save of the settings, where they have to be saved, succeeds and leads to `Q`. -/
def FirstSaved (store : SettingsStore.Store) (settings : Settings) (needsSettings : Prop) (pid : ℕ)
    (Q : Machine → Prop) (m : Machine) : Prop :=
  (needsSettings → Returns (SettingsStore.save store settings pid) m
    fun status m => status.1 = .ok ∧ Q m) ∧ (¬ needsSettings → Q m)

/-- **The storage on which a bootstrap reaches its second save**, and what this ends with: the
texts are accepted, both files are loaded or missing and not enabled, the settings that have to be
saved are saved, and then `Q` holds of the save of the credentials. -/
def Reaches (layout : Layout) (baseUrl deviceName username password : Option (List UInt8))
    (pid : ℕ) (sequence : UInt32) (Q : Option CredentialStore.Result → Machine → Prop)
    (m : Machine) : Prop :=
  ∃ settings credentials config state,
    desired baseUrl deviceName username password = some (settings, credentials) ∧
    directories layout = some (config, state) ∧
    Returns (SettingsStore.init (some config) pid) m fun r m => ∃ settingsStore, r = .ok settingsStore ∧
    Returns (CredentialStore.init (some state)) m fun r m => ∃ credentialStore, r = .ok credentialStore ∧
    Returns (SettingsStore.load settingsStore pid) m fun existing m =>
      (existing.result = .ok ∨ existing.result = .missing) ∧
      ¬ (existing.result = .ok ∧ existing.settings.kosyncEnabled ≠ 0) ∧
    Returns (CredentialStore.load credentialStore CredentialStore.cleared) m fun existing' m =>
      (existing'.result = .ok ∨ existing'.result = .missing) ∧
      FirstSaved settingsStore settings
        (existing.result = .missing ∨ ¬ settingsEqual existing.settings settings) pid
        (SecondSave credentialStore credentials
          (existing'.result = .missing ∨ ¬ credentialsEqual existing'.credentials credentials) pid
          sequence Q) m

section Reaches

variable {settingsStore : SettingsStore.Store} {credentialStore : CredentialStore.Store}
  {settings : Settings} {credentials : Credentials} {pid : ℕ} {sequence : UInt32} {report : Report}
  {m : Machine} {P : Result → Machine → Prop}

theorem returns_saveCredentials :
    Returns (saveCredentials credentialStore credentials pid sequence report) m
        (fun r m => P r.1.result m) ↔
      Returns (CredentialStore.save credentialStore credentials pid sequence) m
        fun status m => P (savedResult (some status.1)) m := by
  unfold saveCredentials
  rw [returns_bind]
  refine returns_congr fun status m _ => ?_
  obtain ⟨result, e⟩ := status
  dsimp only
  cases result <;> simp [savedResult]

theorem returns_saveRecords (hP : ∀ result m, P result m → result = .ok ∨ result = .credentialsWriteFailed)
    {needsSettings needsCredentials : Bool} {e : Option Errno} :
    Returns (saveRecords settingsStore credentialStore settings credentials needsSettings
        needsCredentials pid sequence report e) m (fun r m => P r.1.result m) ↔
      FirstSaved settingsStore settings (needsSettings = true) pid
        (SecondSave credentialStore credentials (needsCredentials = true) pid sequence
          fun saved m => P (savedResult saved) m) m := by
  -- the second save, after the first one went well
  have hsecond : ∀ (report : Report) (e : Option Errno) m, report.result = .ok →
      (Returns (if report.result ≠ .ok then return (report, e)
          else if needsCredentials then
            saveCredentials credentialStore credentials pid sequence report
          else return (report, e)) m (fun r m => P r.1.result m) ↔
        SecondSave credentialStore credentials (needsCredentials = true) pid sequence
          (fun saved m => P (savedResult saved) m) m) := by
    intro report e m hok
    rw [if_neg (not_not.mpr hok)]
    unfold SecondSave
    cases needsCredentials with
    | true => simpa using returns_saveCredentials
    | false => simp [hok, savedResult]
  unfold saveRecords saveNeededSettings FirstSaved
  rw [returns_bind]
  cases needsSettings with
  | false => simpa using hsecond { report with result := .ok } e m rfl
  | true =>
    simp only [if_true, forall_const, not_true_eq_false, false_implies, and_true]
    unfold saveSettings
    rw [returns_bind]
    refine returns_congr fun status m _ => ?_
    obtain ⟨result, e⟩ := status
    dsimp only
    by_cases hok : result = .ok
    · subst hok
      simpa using hsecond { report with
        stage := .settings, settingsResult := .ok, settingsWritten := true, result := .ok } e m rfl
    -- a first save that failed, or is uncertain, is the end
    have hno : ∀ r, r = .durabilityUncertain ∨ r = .settingsWriteFailed → ¬ P r m := by
      rintro r hr h
      rcases hP r m h with rfl | rfl <;> simp at hr
    by_cases huncertain : result = .durabilityUncertain
    · simp [huncertain, hno]
    · simp [hok, huncertain, hno]

theorem returns_storeRecords
    (hP : ∀ result m, P result m → result = .ok ∨ result = .credentialsWriteFailed) :
    Returns (storeRecords settingsStore credentialStore settings credentials pid sequence report) m
        (fun r m => P r.1.result m) ↔
      Returns (SettingsStore.load settingsStore pid) m fun existing m =>
        (existing.result = .ok ∨ existing.result = .missing) ∧
        ¬ (existing.result = .ok ∧ existing.settings.kosyncEnabled ≠ 0) ∧
      Returns (CredentialStore.load credentialStore CredentialStore.cleared) m fun existing' m =>
        (existing'.result = .ok ∨ existing'.result = .missing) ∧
        FirstSaved settingsStore settings
          (existing.result = .missing ∨ ¬ settingsEqual existing.settings settings) pid
          (SecondSave credentialStore credentials
            (existing'.result = .missing ∨ ¬ credentialsEqual existing'.credentials credentials) pid
            sequence fun saved m => P (savedResult saved) m) m := by
  have hno : ∀ r m, r ≠ .ok → r ≠ .credentialsWriteFailed → ¬ P r m :=
    fun r m hok hfailed h => (hP r m h).elim hok hfailed
  unfold storeRecords
  rw [returns_bind]
  refine returns_congr fun existing m _ => ?_
  by_cases hload : existing.result ≠ .ok ∧ existing.result ≠ .missing
  · rw [if_pos hload, returns_pure]
    simp [hload.1, hload.2, hno]
  have hloaded : existing.result = .ok ∨ existing.result = .missing := by
    by_contra hne
    exact hload (not_or.mp hne)
  rw [if_neg hload]
  by_cases hactive : existing.result = .ok ∧ existing.settings.kosyncEnabled ≠ 0
  · rw [if_pos hactive, returns_pure]
    refine iff_of_false (hno _ _ (by simp) (by simp)) fun h => h.2.1 hactive
  rw [if_neg hactive, returns_bind, iff_true_intro hloaded, iff_true_intro hactive, true_and, true_and]
  refine returns_congr fun existing' m _ => ?_
  by_cases hload' : existing'.result ≠ .ok ∧ existing'.result ≠ .missing
  · rw [if_pos hload', returns_pure]
    simp [hload'.1, hload'.2, hno]
  have hloaded' : existing'.result = .ok ∨ existing'.result = .missing := by
    by_contra hne
    exact hload' (not_or.mp hne)
  rw [if_neg hload', returns_saveRecords hP, iff_true_intro hloaded', true_and]
  simp only [decide_eq_true_eq]

end Reaches

/-! ## What a bootstrap does to the files -/

/-- The saves of a bootstrap that took place. -/
inductive Written (settings : Settings) (credentials : Credentials) : Bool → Bool → View → View → Prop
  | neither {v : View} : Written settings credentials false false v v
  | settings {v v' : View} (h : View.SavedSettings settings v v') :
    Written settings credentials true false v v'
  | credentials {v v' : View} (h : View.SavedCredentials credentials v v') :
    Written settings credentials false true v v'
  | both {v v' v'' : View} (h : View.SavedSettings settings v v')
    (h' : View.SavedCredentials credentials v' v'') : Written settings credentials true true v v''

theorem Written.credentials_eq {settings : Settings} {credentials : Credentials} {a : Bool}
    {v v' : View} (h : Written settings credentials a false v v') :
    v'.credentials = v.credentials := by
  generalize hb : false = b at h
  cases h with
  | neither => rfl
  | settings h => exact h.credentials_eq
  | credentials | both => cases hb

/-- What a bootstrap wrote: the credentials after the settings, and nothing where an account is
enabled. -/
structure Wrote (settings : Settings) (credentials : Credentials)
    (settingsWritten credentialsWritten : Bool) (v v' : View) : Prop where
  written : Written settings credentials settingsWritten credentialsWritten v v'
  ordered : credentialsWritten = true → v'.storedSettings = .ok settings
  disabled : settingsWritten = true ∨ credentialsWritten = true → ¬ v.Enabled

/-- The results of a bootstrap that ends before it saves. -/
def Result.BeforeSaves : Result → Prop
  | .invalidArgument | .invalidInput | .derivationFailed | .existingActive
  | .existingSettingsFailed | .existingCredentialsFailed => True
  | _ => False

/-- A file that is there could not be loaded. -/
def Result.CannotLoad : Result → Prop
  | .existingSettingsFailed | .existingCredentialsFailed => True
  | _ => False

/-- What a bootstrap that ends did. -/
structure Bootstrapped (settings : Settings) (credentials : Credentials) (report : Report)
    (v v' : View) : Prop where
  wrote : Wrote settings credentials report.settingsWritten report.credentialsWritten v v'
  ok : report.result = .ok →
    v'.storedSettings = .ok settings ∧ v'.storedCredentials = .ok credentials
  settingsFailed : report.result = .settingsWriteFailed → v' = v
  credentialsFailed : report.result = .credentialsWriteFailed →
    v'.storedSettings = .ok settings ∧ v'.credentials = v.credentials
  active : report.result = .existingActive → v.Enabled
  stage : report.credentialsWritten = true → report.stage = .credentials
  attempted : report.stage = .credentials →
    report.settingsResult = .ok ∧ v'.storedSettings = .ok settings

section Files

variable {layout : Layout} {settings : Settings} {credentials : Credentials} {report : Report}
  {pid : ℕ} {sequence : UInt32} {m : Machine}

theorem wrote_neither {v : View} : Wrote settings credentials false false v v :=
  ⟨.neither, by simp, by simp⟩

/-- A bootstrap that ends before it saves. -/
theorem bootstrapped_refused {v : View} (hsettings : report.settingsWritten = false)
    (hcredentials : report.credentialsWritten = false) (hstage : report.stage ≠ .credentials)
    (hresult : report.result.BeforeSaves)
    (hactive : report.result = .existingActive → v.Enabled) :
    Bootstrapped settings credentials report v v where
  wrote := by
    rw [hsettings, hcredentials]
    exact wrote_neither
  ok h := by simp [h, Result.BeforeSaves] at hresult
  settingsFailed _ := rfl
  credentialsFailed h := by simp [h, Result.BeforeSaves] at hresult
  active := hactive
  stage h := by simp [hcredentials] at h
  attempted h := absurd h hstage

theorem ends_saveSettings :
    Ends (saveSettings (Account.settingsStore layout) settings pid report) m
      (fun r m' => r.1.credentialsWritten = report.credentialsWritten ∧ r.1.stage = .settings ∧
        (r.1.result = .ok → r.1.settingsResult = .ok) ∧
        (r.1.settingsWritten = true ∧ (r.1.result = .ok ∨ r.1.result = .durabilityUncertain) ∧
            View.SavedSettings settings (view layout m.files) (view layout m'.files) ∨
          r.1.settingsWritten = false ∧ r.1.result = .settingsWriteFailed ∧
            view layout m'.files = view layout m.files))
      fun m' => view layout m'.files = view layout m.files ∨
        View.SavedSettings settings (view layout m.files) (view layout m'.files) := by
  refine (ends_bind _).mpr ((Account.ends_saveSettings settings pid m).mono ?_ fun _ h => h)
  rintro ⟨result, e⟩ m' (⟨hvisible, hsaved⟩ | ⟨hnot, hkept⟩)
  · rcases hvisible with rfl | rfl
    · exact ⟨rfl, rfl, fun _ => rfl, .inl ⟨rfl, .inl rfl, hsaved⟩⟩
    · exact ⟨rfl, rfl, by simp, .inl ⟨rfl, .inr rfl, hsaved⟩⟩
  · simp only [SettingsStore.Visible, not_or] at hnot
    dsimp only
    rw [if_neg hnot.2, if_pos hnot.1]
    exact ⟨rfl, rfl, by simp, .inr ⟨by simp [hnot.1, hnot.2], rfl, hkept⟩⟩

theorem ends_saveCredentials :
    Ends (saveCredentials (Account.credentialStore layout) credentials pid sequence report) m
      (fun r m' => r.1.settingsWritten = report.settingsWritten ∧ r.1.stage = .credentials ∧
        r.1.settingsResult = report.settingsResult ∧
        (r.1.credentialsWritten = true ∧ (r.1.result = .ok ∨ r.1.result = .durabilityUncertain) ∧
            View.SavedCredentials credentials (view layout m.files) (view layout m'.files) ∨
          r.1.credentialsWritten = false ∧ r.1.result = .credentialsWriteFailed ∧
            view layout m'.files = view layout m.files))
      fun m' => view layout m'.files = view layout m.files ∨
        View.SavedCredentials credentials (view layout m.files) (view layout m'.files) := by
  refine (ends_bind _).mpr
    ((Account.ends_saveCredentials credentials pid sequence m).mono ?_ fun _ h => h)
  rintro ⟨result, e⟩ m' (⟨hvisible, hsaved⟩ | ⟨hnot, hkept⟩)
  · rcases hvisible with rfl | rfl
    · exact ⟨rfl, rfl, rfl, .inl ⟨rfl, .inl rfl, hsaved⟩⟩
    · exact ⟨rfl, rfl, rfl, .inl ⟨rfl, .inr rfl, hsaved⟩⟩
  · simp only [CredentialStore.Visible, not_or] at hnot
    dsimp only
    rw [if_neg hnot.2, if_pos hnot.1]
    exact ⟨rfl, rfl, rfl, .inr ⟨by simp [hnot.1, hnot.2], rfl, hkept⟩⟩

/-- What the first save leaves for the second one. -/
inductive FirstSave (settings : Settings) (v : View) : Report → View → Prop
  | stored {report : Report} (hresult : report.result = .ok) (hstage : report.stage ≠ .credentials)
    (hok : report.settingsResult = .ok) (hwritten : report.settingsWritten = false)
    (hcredentials : report.credentialsWritten = false) (h : v.storedSettings = .ok settings) :
    FirstSave settings v report v
  | saved {report : Report} {v' : View} (hresult : report.result = .ok ∨
      report.result = .durabilityUncertain) (hstage : report.stage ≠ .credentials)
    (hok : report.result = .ok → report.settingsResult = .ok) (hwritten : report.settingsWritten = true)
    (hcredentials : report.credentialsWritten = false) (h : View.SavedSettings settings v v') :
    FirstSave settings v report v'
  | failed {report : Report} (hresult : report.result = .settingsWriteFailed)
    (hstage : report.stage ≠ .credentials)
    (hwritten : report.settingsWritten = false) (hcredentials : report.credentialsWritten = false) :
    FirstSave settings v report v

theorem ends_firstSave (credentials : Credentials) {needsSettings : Bool} {e : Option Errno}
    (hdisabled : ¬ (view layout m.files).Enabled)
    (hneeds : needsSettings = false →
      report.settingsResult = .ok ∧ (view layout m.files).storedSettings = .ok settings)
    (hstage : report.stage ≠ .credentials) (hsettings : report.settingsWritten = false)
    (hcredentials : report.credentialsWritten = false) :
    Ends (saveNeededSettings (Account.settingsStore layout) settings needsSettings pid report e) m
      (fun r m' => FirstSave settings (view layout m.files) r.1 (view layout m'.files))
      fun m' => ∃ written, Wrote settings credentials written false (view layout m.files)
        (view layout m'.files) := by
  unfold saveNeededSettings
  by_cases hs : needsSettings = true
  · rw [if_pos hs]
    refine ends_saveSettings.mono ?_ ?_
    · rintro r m' ⟨hc, hs, hok, ⟨hwritten, hresult, hsaved⟩ | ⟨hwritten, hresult, hkept⟩⟩
      · exact .saved hresult (by simp [hs]) hok hwritten (hc.trans hcredentials) hsaved
      · rw [hkept]
        exact .failed hresult (by simp [hs]) hwritten (hc.trans hcredentials)
    · rintro m' (hkept | hsaved)
      · exact ⟨false, hkept ▸ wrote_neither⟩
      · exact ⟨true, .settings hsaved, by simp, fun _ => hdisabled⟩
  · rw [if_neg hs]
    obtain ⟨hok, hstored⟩ := hneeds (by simpa using hs)
    exact .stored rfl hstage hok hsettings hcredentials hstored

theorem bootstrapped_settingsFailed {v : View} (hresult : report.result = .settingsWriteFailed)
    (hstage : report.stage ≠ .credentials) (hsettings : report.settingsWritten = false)
    (hcredentials : report.credentialsWritten = false) :
    Bootstrapped settings credentials report v v where
  wrote := by
    rw [hsettings, hcredentials]
    exact wrote_neither
  ok h := by simp [h] at hresult
  settingsFailed _ := rfl
  credentialsFailed h := by simp [h] at hresult
  active h := by simp [h] at hresult
  stage h := by simp [hcredentials] at h
  attempted h := absurd h hstage

/-- The second save, after the settings are stored. -/
theorem ends_secondSave {needsCredentials written : Bool} {v v₁ : View} {e : Option Errno}
    (hv₁ : view layout m.files = v₁) (hresult : report.result = .ok)
    (hstage : report.stage ≠ .credentials) (hok : report.settingsResult = .ok)
    (hwritten : report.settingsWritten = written) (hcredentials : report.credentialsWritten = false)
    (hwrote : Wrote settings credentials written false v v₁)
    (hdisabled : ¬ v.Enabled) (hstored : v₁.storedSettings = .ok settings)
    (hneeds : needsCredentials = false → v₁.storedCredentials = .ok credentials) :
    Ends (if needsCredentials then
          saveCredentials (Account.credentialStore layout) credentials pid sequence report
        else return (report, e)) m
      (fun r m' => ¬ r.1.result.BeforeSaves ∧
        Bootstrapped settings credentials r.1 v (view layout m'.files))
      fun m' => ∃ a b, Wrote settings credentials a b v (view layout m'.files) := by
  -- the credentials are saved behind settings that are stored
  have hboth : ∀ {v₂ : View}, View.SavedCredentials credentials v₁ v₂ →
      Wrote settings credentials written true v v₂ := by
    intro v₂ hsaved
    refine ⟨?_, fun _ => ?_, fun _ => hdisabled⟩
    · generalize hb : false = b at hwrote
      obtain ⟨hw, -, -⟩ := hwrote
      cases hw with
      | neither => exact .credentials hsaved
      | settings h => exact .both h hsaved
      | credentials | both => cases hb
    · rw [View.storedSettings, hsaved.settings_eq]
      exact hstored
  -- nothing to save: what is stored is what is desired
  by_cases hneeds' : needsCredentials = true
  swap
  · rw [if_neg hneeds']
    refine ⟨by simp [hresult, Result.BeforeSaves], ?_, fun _ => ⟨?_, ?_⟩, ?_, ?_, ?_, ?_,
      fun h => absurd h hstage⟩
    · rw [hwritten, hcredentials, hv₁]
      exact hwrote
    · exact hv₁ ▸ hstored
    · exact hv₁ ▸ hneeds (by simpa using hneeds')
    all_goals simp [hresult, hcredentials]
  rw [if_pos hneeds']
  refine ends_saveCredentials.mono ?_ ?_
  · rintro r m' ⟨hs, hstage', hsettingsResult, ⟨hc, hresult', hsaved⟩ | ⟨hc, hresult', hkept⟩⟩
    · rw [hv₁] at hsaved
      have hwrote' := hboth hsaved
      refine ⟨?_, ?_, fun _ => ⟨hwrote'.ordered rfl, hsaved.stored⟩, ?_, ?_, ?_, fun _ => hstage',
        fun _ => ⟨hsettingsResult.trans hok, hwrote'.ordered rfl⟩⟩
      · rcases hresult' with h | h <;> simp [h, Result.BeforeSaves]
      · rw [hs, hwritten, hc]
        exact hwrote'
      all_goals rcases hresult' with h | h <;> simp [h]
    · rw [hv₁] at hkept
      rw [hkept]
      refine ⟨by simp [hresult', Result.BeforeSaves], ?_, ?_, ?_, fun _ => ⟨hstored, ?_⟩, ?_,
        fun _ => hstage', fun _ => ⟨hsettingsResult.trans hok, hstored⟩⟩
      · rw [hs, hwritten, hc]
        exact hwrote
      · simp [hresult']
      · simp [hresult']
      · exact hwrote.written.credentials_eq
      · simp [hresult']
  · rintro m' (hkept | hsaved)
    · exact ⟨written, false, by rw [hkept, hv₁]; exact hwrote⟩
    · exact ⟨written, true, hboth (hv₁ ▸ hsaved)⟩

/-- **What the saves of a bootstrap do.** -/
theorem ends_saveRecords {needsSettings needsCredentials : Bool} {e : Option Errno}
    (hdisabled : ¬ (view layout m.files).Enabled)
    (hneeds : needsSettings = false →
      report.settingsResult = .ok ∧ (view layout m.files).storedSettings = .ok settings)
    (hneeds' : needsCredentials = false →
      (view layout m.files).storedCredentials = .ok credentials)
    (hstage : report.stage ≠ .credentials) (hsettings : report.settingsWritten = false)
    (hcredentials : report.credentialsWritten = false) :
    Ends (saveRecords (Account.settingsStore layout) (Account.credentialStore layout) settings
        credentials needsSettings needsCredentials pid sequence report e) m
      (fun r m' => ¬ r.1.result.BeforeSaves ∧
        Bootstrapped settings credentials r.1 (view layout m.files) (view layout m'.files))
      fun m' => ∃ a b, Wrote settings credentials a b (view layout m.files) (view layout m'.files) := by
  refine (ends_bind _).mpr ((ends_firstSave credentials hdisabled hneeds hstage hsettings
    hcredentials).mono ?_ ?_)
  swap
  · rintro m' ⟨written, h⟩
    exact ⟨written, false, h⟩
  rintro ⟨report₁, e₁⟩ m₁ hfirst
  dsimp only at hfirst ⊢
  -- from here on only the views before and after the first save matter
  generalize hv : view layout m.files = v at hfirst hdisabled hneeds' ⊢
  generalize hv₁ : view layout m₁.files = v₁ at hfirst ⊢
  -- how the first save ended decides whether the second is tried
  cases hfirst with
  | failed hresult hstage hwritten hcredentials =>
    rw [if_pos (by simp [hresult])]
    refine ⟨by simp [hresult, Result.BeforeSaves], ?_⟩
    exact hv₁.symm ▸ bootstrapped_settingsFailed hresult hstage hwritten hcredentials
  | saved hresult hstage hsettingsOk hwritten hcredentials hsaved =>
    have hwrote : Wrote settings credentials true false v v₁ :=
      ⟨.settings hsaved, by simp, fun _ => hdisabled⟩
    by_cases hok : report₁.result = .ok
    swap
    · rw [if_pos hok]
      -- the settings were written but not synced: the second save is left out
      have huncertain := hresult.resolve_left hok
      refine ⟨by simp [huncertain, Result.BeforeSaves], ?_, fun h => absurd h hok, ?_, ?_, ?_, ?_,
        fun h => absurd h hstage⟩
      · rw [hwritten, hcredentials, hv₁]
        exact hwrote
      all_goals simp [huncertain, hcredentials]
    rw [if_neg (not_not.mpr hok)]
    refine ends_secondSave hv₁ hok hstage (hsettingsOk hok) hwritten hcredentials hwrote hdisabled
      hsaved.stored ?_
    intro hneeds
    rw [View.storedCredentials, hsaved.credentials_eq]
    exact hneeds' hneeds
  | stored hresult hstage hsettingsOk hwritten hcredentials hstored =>
    rw [if_neg (not_not.mpr hresult)]
    exact ends_secondSave hv₁ hresult hstage hsettingsOk hwritten hcredentials wrote_neither
      hdisabled hstored hneeds'

/-- What a bootstrap that has its records did to the file system. -/
structure Attempted (layout : Layout) (pid : ℕ) (settings : Settings) (credentials : Credentials)
    (report : Report) (files files' : Path → Option Node) : Prop where
  did : Bootstrapped settings credentials report (view layout files) (view layout files')
  refused : report.result.BeforeSaves → files' = files
  look : report.result = .ok → (view layout files').lookSettings layout pid = .ok settings ∧
    (view layout files').lookCredentials layout = .ok credentials

theorem attempted_refused {files : Path → Option Node} (hsettings : report.settingsWritten = false)
    (hcredentials : report.credentialsWritten = false) (hstage : report.stage ≠ .credentials)
    (hresult : report.result.BeforeSaves)
    (hactive : report.result = .existingActive → (view layout files).Enabled) :
    Attempted layout pid settings credentials report files files where
  did := bootstrapped_refused hsettings hcredentials hstage hresult hactive
  refused _ := rfl
  look h := by simp [h, Result.BeforeSaves] at hresult

theorem Written.directories_eq {a b : Bool} {v v' : View} (h : Written settings credentials a b v v') :
    v'.config = v.config ∧ v'.state = v.state := by
  cases h with
  | neither => exact ⟨rfl, rfl⟩
  | settings h =>
    obtain ⟨node, -, rfl⟩ := h
    exact ⟨rfl, rfl⟩
  | credentials h =>
    obtain ⟨node, -, rfl⟩ := h
    exact ⟨rfl, rfl⟩
  | both h h' =>
    obtain ⟨node, -, rfl⟩ := h
    obtain ⟨node', -, rfl⟩ := h'
    exact ⟨rfl, rfl⟩

theorem eq_of_settingsEqual {left right : Settings} (h : settingsEqual left right = true) :
    left = right := by
  obtain ⟨h1, h2, h3⟩ := of_decide_eq_true h
  cases left
  cases right
  simp_all

theorem eq_of_credentialsEqual {left right : Credentials} (h : credentialsEqual left right = true) :
    left = right := by
  obtain ⟨h1, h2⟩ := of_decide_eq_true h
  cases left
  cases right
  simp_all

/-- **What a bootstrap does once its stores are initialized.** -/
theorem ends_storeRecords (hstage : report.stage ≠ .credentials)
    (hsettings : report.settingsWritten = false) (hcredentials : report.credentialsWritten = false) :
    Ends (storeRecords (Account.settingsStore layout) (Account.credentialStore layout) settings
        credentials pid sequence report) m
      (fun r m' => Attempted layout pid settings credentials r.1 m.files m'.files)
      fun m' => ∃ a b, Wrote settings credentials a b (view layout m.files) (view layout m'.files) := by
  have hcrash : ∀ {m' : Machine}, m'.files = m.files → ∃ a b, Wrote settings credentials a b
      (view layout m.files) (view layout m'.files) := by
    intro m' h
    exact ⟨false, false, h ▸ wrote_neither⟩
  unfold storeRecords
  rw [ends_bind]
  -- the settings are read first: a failure, or a sync that is on, refuses the bootstrap
  refine (SettingsStore.ends_load_told (H := False) _ pid False.elim).mono ?_ fun _ => hcrash
  rintro existing m₁ ⟨hf₁, -, htold⟩
  have hloads := htold.loads
  dsimp only
  by_cases hfailed : existing.result ≠ .ok ∧ existing.result ≠ .missing
  · rw [if_pos hfailed, ends_pure, hf₁]
    exact attempted_refused hsettings hcredentials hstage trivial (by simp)
  rw [if_neg hfailed]
  have hfound : existing.result = .ok ∨ existing.result = .missing := by
    by_contra h
    exact hfailed (not_or.mp h)
  by_cases hactive : existing.result = .ok ∧ existing.settings.kosyncEnabled ≠ 0
  · rw [if_pos hactive, ends_pure, hf₁]
    exact attempted_refused hsettings hcredentials hstage trivial
      fun _ => ⟨_, hloads.ok hactive.1, hactive.2⟩
  rw [if_neg hactive, ends_bind]
  have hdisabled : ¬ (view layout m.files).Enabled := by
    rintro ⟨stored, hstored, henabled⟩
    rw [Account.storedSettings_view] at hstored
    rcases hfound with hok | hmissing
    · obtain rfl := Except.ok.inj ((hloads.ok hok).symm.trans hstored)
      exact hactive ⟨hok, henabled⟩
    · rw [SettingsStore.stored_eq_missing.mpr (hloads.missing hmissing)] at hstored
      cases hstored
  -- then the credentials
  refine (CredentialStore.ends_load_told (H := False) (m := m₁) _ _ False.elim).mono ?_
    fun _ h => hcrash (h.trans hf₁)
  rintro existing' m₂ ⟨hf₂, -, htold'⟩
  rw [hf₁] at hf₂ htold'
  have hloads' := htold'.loads
  by_cases hfailed' : existing'.result ≠ .ok ∧ existing'.result ≠ .missing
  · rw [if_pos hfailed', ends_pure, hf₂]
    exact attempted_refused hsettings hcredentials hstage trivial (by simp)
  rw [if_neg hfailed']
  have hfound' : existing'.result = .ok ∨ existing'.result = .missing := by
    by_contra h
    exact hfailed' (not_or.mp h)
  rw [← hf₂] at hdisabled
  -- what is already stored as it should be is not written again
  refine (ends_saveRecords hdisabled ?_ ?_ ?_ ?_ ?_).mono ?_ ?_
  · intro hneeds
    simp only [decide_eq_false_iff_not, not_or, not_not] at hneeds
    have hok := hfound.resolve_right hneeds.1
    refine ⟨hok, ?_⟩
    rw [hf₂, ← eq_of_settingsEqual hneeds.2]
    exact hloads.ok hok
  · intro hneeds
    simp only [decide_eq_false_iff_not, not_or, not_not] at hneeds
    rw [hf₂, ← eq_of_credentialsEqual hneeds.2]
    exact hloads'.ok (hfound'.resolve_right hneeds.1)
  · exact hstage
  · exact hsettings
  · exact hcredentials
  · rintro r m₃ ⟨hnot, hdid⟩
    rw [hf₂] at hdid
    obtain ⟨hconfig, hstate⟩ := hdid.wrote.written.directories_eq
    refine ⟨hdid, fun h => absurd h hnot, fun hok => ?_⟩
    obtain ⟨hs, hc⟩ := hdid.ok hok
    -- a save that reports success is found by a load
    have hreach : ¬ SettingsStore.Blocked ((view layout m.files).lookSettings layout pid) :=
      htold.not_blocked hfound
    have hreach' : ¬ CredentialStore.Blocked ((view layout m.files).lookCredentials layout) :=
      htold'.not_blocked hfound'
    rw [View.lookSettings_eq hreach hconfig, View.lookCredentials_eq hreach' hstate]
    exact ⟨hs, hc⟩
  · rintro m₃ h
    rwa [hf₂] at h

/-! ## Whole bootstraps -/

theorem directories_of_valid (h : ValidRoot layout) :
    directories layout = some (layout.config, layout.state) := by
  have hle := h.le
  have hname : StorageLayout.progressName.length = 9 := rfl
  have hsuffix : StorageLayout.stateSuffix.length = 6 := rfl
  have hprogress : layout.root ++ StorageLayout.progressSuffix =
      layout.state ++ StorageLayout.progressName := by
    rw [Layout.state, List.append_assoc]
    rfl
  have hstate : layout.state.length = layout.root.length + 6 := by
    rw [Layout.state, List.length_append]
    rfl
  have hlen : (layout.state ++ StorageLayout.progressName).length -
      StorageLayout.progressName.length = layout.state.length := by
    simp
  unfold directories
  rw [(StorageLayout.path_of_valid h).1, (StorageLayout.path_of_valid h).2, hprogress]
  dsimp only
  rw [hlen, List.drop_left' rfl, List.take_left' rfl, if_neg, if_neg]
  · rw [hstate, hsuffix, StorageLayout.pathCapacity]
    omega
  · rw [List.length_append, hname, hstate, not_or, not_not]
    exact ⟨by omega, rfl⟩

theorem directories_of_not_valid (h : ¬ ValidRoot layout) : directories layout = none := by
  unfold directories
  rw [StorageLayout.path_of_not_valid h]

/-- The account records that the texts of a bootstrap ask for. -/
structure Desired (baseUrl deviceName username password : Option (List UInt8))
    (settings : Settings) (credentials : Credentials) : Prop where
  baseUrl_eq : baseUrl = some settings.kosyncBaseUrl
  deviceName_eq : deviceName = some settings.kosyncDeviceName
  disabled : settings.kosyncEnabled = 0
  username_eq : username = some credentials.username
  userkey : ∃ text, password = some text ∧ credentials.userkey = Md5.hex (Md5.digest text)
  url_ne : settings.kosyncBaseUrl ≠ []
  valid : SettingsStore.validate settings = .ok

theorem copyBounded_eq_some {capacity : ℕ} {input text : List UInt8}
    (h : copyBounded capacity input = some text) : input = text ∧ text ≠ [] := by
  unfold copyBounded at h
  split_ifs at h with hlen
  obtain rfl := Option.some.inj h
  exact ⟨rfl, fun h0 => hlen (.inl (by rw [h0]; rfl))⟩

/-- The records of a bootstrap, or its refusal of the texts. -/
theorem desiredRecords_cases (report : Report)
    (baseUrl deviceName username password : Option (List UInt8)) :
    (∃ report', desiredRecords report baseUrl deviceName username password = (report', none) ∧
      (report'.result = .invalidInput ∨ report'.result = .derivationFailed) ∧
      report'.stage = report.stage ∧ report'.settingsWritten = report.settingsWritten ∧
      report'.credentialsWritten = report.credentialsWritten) ∨
    ∃ report' settings credentials,
      desiredRecords report baseUrl deviceName username password =
        (report', some (settings, credentials)) ∧
      Desired baseUrl deviceName username password settings credentials ∧
      report'.stage = report.stage ∧ report'.settingsWritten = report.settingsWritten ∧
      report'.credentialsWritten = report.credentialsWritten := by
  unfold desiredRecords
  -- the checks on the texts, in their order
  split
  swap
  · exact .inl ⟨_, rfl, .inl rfl, rfl, rfl, rfl⟩
  rename_i url device user pass
  split_ifs with hinput
  · exact .inl ⟨_, rfl, .inl rfl, rfl, rfl, rfl⟩
  split
  swap
  · exact .inl ⟨_, rfl, .inl rfl, rfl, rfl, rfl⟩
  rename_i url' device' hurl hdevice
  dsimp only
  split_ifs with hvalid hderive
  · exact .inl ⟨_, rfl, .inl rfl, rfl, rfl, rfl⟩
  · exact .inl ⟨_, rfl, .inr rfl, rfl, rfl, rfl⟩
  · refine .inr ⟨_, _, _, rfl, ?_, rfl, rfl, rfl⟩
    -- a copy that is not cut is the text itself
    obtain ⟨rfl, hne⟩ := copyBounded_eq_some hurl
    obtain ⟨rfl, -⟩ := copyBounded_eq_some hdevice
    simp only [not_or, not_not] at hvalid
    refine ⟨rfl, rfl, rfl, rfl, ⟨pass, rfl, ?_⟩, hne, hvalid.1⟩
    exact KosyncUserkey.fromPassword_eq_ok (not_not.mp hderive)

/-- **A bootstrap stores its records, or cannot save the credentials**, exactly on the storage on
which it reaches its second save. -/
theorem returns_bootstrap (layout : Layout)
    (baseUrl deviceName username password : Option (List UInt8)) {P : Result → Machine → Prop}
    (hP : ∀ result m, P result m → result = .ok ∨ result = .credentialsWriteFailed) :
    Returns (bootstrap layout baseUrl deviceName username password pid sequence) m
        (fun r m => P r.1.result m) ↔
      Reaches layout baseUrl deviceName username password pid sequence
        (fun saved m => P (savedResult saved) m) m := by
  have hno : ∀ r m, r ≠ .ok → r ≠ .credentialsWriteFailed → ¬ P r m :=
    fun r m hok hfailed h => (hP r m h).elim hok hfailed
  unfold bootstrap Reaches desired
  rcases desiredRecords_cases { initialReport with stage := .preflight } baseUrl deviceName username
    password with ⟨report, hrecords, hresult, -⟩ | ⟨report, settings, credentials, hrecords, -⟩
  · rw [hrecords]
    refine iff_of_false (fun h => ?_) (by simp)
    have h := (returns_pure _).mp h
    rcases hresult with hr | hr <;> rw [hr] at h <;> exact hno _ _ (by simp) (by simp) h
  rw [hrecords]
  cases directories layout with
  | none =>
    refine iff_of_false (fun h => ?_) (by simp)
    have h := (returns_pure _).mp h
    exact hno .invalidArgument m (by simp) (by simp) h
  | some places =>
    obtain ⟨config, state⟩ := places
    refine Iff.trans ?_ ⟨fun h => ⟨settings, credentials, config, state, rfl, rfl, h⟩, ?_⟩
    swap
    · rintro ⟨_, _, _, _, hdesired, hplaces, h⟩
      cases hdesired
      cases hplaces
      exact h
    dsimp only
    rw [returns_bind]
    refine returns_congr fun r m _ => ?_
    cases r with
    | error status => simp [hno]
    | ok settingsStore =>
      simp only [returns_bind, Except.ok.injEq, exists_eq_left']
      refine returns_congr fun r m _ => ?_
      cases r with
      | error status => simp [hno]
      | ok credentialStore =>
        simp only [Except.ok.injEq, exists_eq_left']
        exact returns_storeRecords hP

/-- What a bootstrap with these texts did: it refused them before it touched a file, or it had
records to store. -/
def Ended (layout : Layout) (pid : ℕ) (baseUrl deviceName username password : Option (List UInt8))
    (report : Report) (files files' : Path → Option Node) : Prop :=
  (files' = files ∧ report.stage = .preflight ∧ report.settingsWritten = false ∧
      report.credentialsWritten = false ∧
      report.result.BeforeSaves ∧ report.result ≠ .existingActive) ∨
    ∃ settings credentials, ValidRoot layout ∧
      desired baseUrl deviceName username password = some (settings, credentials) ∧
      Attempted layout pid settings credentials report files files'

/-- What a bootstrap with these texts has done when the process is killed. -/
def CutShort (baseUrl deviceName username password : Option (List UInt8)) (v v' : View) : Prop :=
  v' = v ∨ ∃ settings credentials a b,
    desired baseUrl deviceName username password = some (settings, credentials) ∧
    Wrote settings credentials a b v v'

/-- **What a bootstrap does to the files**, whatever calls fail. -/
theorem ends_bootstrap (layout : Layout) (baseUrl deviceName username password : Option (List UInt8))
    (pid : ℕ) (sequence : UInt32) (m : Machine) :
    Ends (bootstrap layout baseUrl deviceName username password pid sequence) m
      (fun r m' => Ended layout pid baseUrl deviceName username password r.1 m.files m'.files)
      fun m' => CutShort baseUrl deviceName username password (view layout m.files)
        (view layout m'.files) := by
  unfold bootstrap
  rcases desiredRecords_cases { initialReport with stage := .preflight } baseUrl deviceName username
    password with ⟨report, hrecords, hresult, hstage, hsettings, hcredentials⟩ |
      ⟨report, settings, credentials, hrecords, -, hstage, hsettings, hcredentials⟩ <;> rw [hrecords]
  · refine .inl ⟨rfl, hstage, hsettings, hcredentials, ?_, ?_⟩ <;>
      rcases hresult with h | h <;> simp [h, Result.BeforeSaves]
  dsimp only
  have hdesired : desired baseUrl deviceName username password = some (settings, credentials) :=
    congrArg Prod.snd hrecords
  have hkept : ∀ {m' : Machine}, m'.files = m.files →
      CutShort baseUrl deviceName username password (view layout m.files) (view layout m'.files) :=
    fun h => .inl (congrArg (view layout) h)
  -- nothing is written before both stores are initialized
  by_cases hroot : ValidRoot layout
  swap
  · rw [directories_of_not_valid hroot]
    exact .inl ⟨rfl, hstage, hsettings, hcredentials, trivial, by simp⟩
  rw [directories_of_valid hroot]
  dsimp only
  rw [ends_bind]
  refine (Account.ends_initSettings (H := False) layout pid False.elim).mono ?_ fun _ => hkept
  rintro r m₁ ⟨hf₁, -, rfl | ⟨status, rfl, -⟩⟩
  swap
  · exact .inl ⟨hf₁, hstage, hsettings, hcredentials, trivial, by simp⟩
  dsimp only
  rw [ends_bind]
  refine (Account.ends_initCredentials (H := False) hroot False.elim).mono ?_
    fun _ h => hkept (h.trans hf₁)
  rintro r m₂ ⟨hf₂, -, rfl | ⟨status, rfl, -⟩⟩
  swap
  · exact .inl ⟨hf₂.trans hf₁, hstage, hsettings, hcredentials, trivial, by simp⟩
  dsimp only
  refine (ends_storeRecords ?_ ?_ ?_).mono ?_ ?_
  · exact fun h => by simp [hstage] at h
  · exact hsettings
  · exact hcredentials
  · intro r m₃ h
    rw [hf₂, hf₁] at h
    exact .inr ⟨_, _, hroot, hdesired, h⟩
  · rintro m₃ ⟨a, b, h⟩
    rw [hf₂, hf₁] at h
    exact .inr ⟨_, _, a, b, hdesired, h⟩

/-! ## Bootstraps that find their records -/

/-- A bootstrap that finds its records saves nothing. -/
theorem ends_storeRecords_again {H : Prop} (hm : H → Healthy m) (hdisabled : settings.kosyncEnabled = 0)
    (hs : (view layout m.files).lookSettings layout pid = .ok settings)
    (hc : (view layout m.files).lookCredentials layout = .ok credentials) :
    Ends (storeRecords (Account.settingsStore layout) (Account.credentialStore layout) settings
        credentials pid sequence report) m
      (fun r m' => m'.files = m.files ∧ (r.1.result = .ok ∨ ¬ H ∧ r.1.result.CannotLoad))
      fun m' => m'.files = m.files := by
  unfold storeRecords
  rw [ends_bind]
  refine (SettingsStore.ends_load_told _ pid hm).mono ?_ fun _ h => h
  rintro existing m₁ ⟨hf₁, hm₁, htold⟩
  rw [← Account.lookSettings_view, hs] at htold
  rcases htold.of_ok with ⟨hok, hsettings⟩ | ⟨hH, hne⟩
  swap
  · rw [if_pos hne]
    exact ⟨hf₁, .inr ⟨hH, trivial⟩⟩
  rw [if_neg (fun h => h.1 hok), hok, hsettings, if_neg (fun h => h.2 hdisabled), ends_bind]
  refine (CredentialStore.ends_load_told _ _ hm₁).mono ?_ fun _ h => h.trans hf₁
  rintro existing' m₂ ⟨hf₂, -, htold'⟩
  rw [hf₁, ← Account.lookCredentials_view, hc] at htold'
  rcases htold'.of_ok with ⟨hok', hcredentials⟩ | ⟨hH, hne⟩
  swap
  · rw [if_pos hne]
    exact ⟨hf₂.trans hf₁, .inr ⟨hH, trivial⟩⟩
  have hequal : settingsEqual settings settings = true := decide_eq_true ⟨rfl, rfl, rfl⟩
  have hequal' : credentialsEqual credentials credentials = true := decide_eq_true ⟨rfl, rfl⟩
  rw [if_neg (fun h => h.1 hok'), hok', hcredentials, hequal, hequal']
  exact ⟨hf₂.trans hf₁, .inl rfl⟩

theorem desired_of_eq {baseUrl deviceName username password : Option (List UInt8)}
    (h : desired baseUrl deviceName username password = some (settings, credentials)) :
    Desired baseUrl deviceName username password settings credentials := by
  unfold desired at h
  rcases desiredRecords_cases { initialReport with stage := .preflight } baseUrl deviceName username
    password with ⟨_, hrecords, -⟩ | ⟨_, _, _, hrecords, hdesired, -⟩ <;> rw [hrecords] at h
  · cases h
  · cases h
    exact hdesired

/-- **A bootstrap that finds its records returns `ok`**, unless a call fails on its own. -/
theorem ends_bootstrap_again {H : Prop} (hm : H → Healthy m) (hroot : ValidRoot layout)
    {baseUrl deviceName username password : Option (List UInt8)}
    (hdesired : desired baseUrl deviceName username password = some (settings, credentials))
    (hs : (view layout m.files).lookSettings layout pid = .ok settings)
    (hc : (view layout m.files).lookCredentials layout = .ok credentials) :
    Ends (bootstrap layout baseUrl deviceName username password pid sequence) m
      (fun r m' => m'.files = m.files ∧ (r.1.result = .ok ∨ ¬ H ∧ r.1.result.CannotLoad))
      fun m' => m'.files = m.files := by
  have hdisabled := (desired_of_eq hdesired).disabled
  unfold bootstrap
  unfold desired at hdesired
  rcases hrecords : desiredRecords { initialReport with stage := .preflight } baseUrl deviceName
    username password with ⟨report, records⟩
  rw [hrecords] at hdesired
  dsimp only at hdesired ⊢
  rw [hdesired, directories_of_valid hroot]
  dsimp only
  rw [ends_bind]
  -- a store that is not initialized here is one that a call has failed for
  refine (Account.ends_initSettings layout pid hm).mono ?_ fun _ h => h
  rintro r m₁ ⟨hf₁, hm₁, rfl | ⟨status, rfl, -, hfault⟩⟩
  swap
  · have hH : ¬ H := hfault.resolve_right fun ⟨_, hlook, _⟩ => by
      rw [hs] at hlook
      cases hlook
    exact ⟨hf₁, .inr ⟨hH, trivial⟩⟩
  dsimp only
  rw [ends_bind]
  refine (Account.ends_initCredentials hroot hm₁).mono ?_ fun _ h => h.trans hf₁
  rintro r m₂ ⟨hf₂, hm₂, rfl | ⟨status, rfl, -, hfault⟩⟩
  swap
  · have hH : ¬ H := hfault.resolve_right fun ⟨_, hlook, _⟩ => by
      rw [hf₁, hc] at hlook
      cases hlook
    exact ⟨hf₂.trans hf₁, .inr ⟨hH, trivial⟩⟩
  dsimp only
  rw [← hf₁, ← hf₂] at hs hc
  -- nothing was changed so far, so the records are found
  refine (ends_storeRecords_again hm₂ hdisabled hs hc).mono ?_ fun _ h => h.trans (hf₂.trans hf₁)
  rintro r m₃ ⟨hf₃, hok⟩
  exact ⟨hf₃.trans (hf₂.trans hf₁), hok⟩

/-- The stores load exactly these records, unless a call of a load fails on its own. -/
def LoadsExactly (layout : Layout) (pid : ℕ) (settings : Settings) (credentials : Credentials)
    (files : Path → Option Node) : Prop :=
  ∀ (record : Credentials) (m : Machine), m.files = files → Healthy m →
    Ends (SettingsStore.load (Account.settingsStore layout) pid) m
      (fun r _ => r.result = .ok ∧ r.settings = settings) (fun _ => True) ∧
    Ends (CredentialStore.load (Account.credentialStore layout) record) m
      (fun r _ => r.result = .ok ∧ r.credentials = credentials) fun _ => True

theorem loadsExactly {files : Path → Option Node}
    (hs : (view layout files).lookSettings layout pid = .ok settings)
    (hc : (view layout files).lookCredentials layout = .ok credentials) :
    LoadsExactly layout pid settings credentials files := by
  rintro record m rfl hm
  rw [Account.lookSettings_view] at hs
  rw [Account.lookCredentials_view] at hc
  constructor
  · refine (SettingsStore.ends_load_told _ pid fun _ : True => hm).mono ?_ fun _ _ => trivial
    rintro r m' ⟨-, -, htold⟩
    rw [hs] at htold
    exact htold.of_ok.resolve_right fun h => h.1 trivial
  · refine (CredentialStore.ends_load_told _ _ fun _ : True => hm).mono ?_ fun _ _ => trivial
    rintro r m' ⟨-, -, htold⟩
    rw [hc] at htold
    exact htold.of_ok.resolve_right fun h => h.1 trivial

/-- The bootstrap with these texts writes nothing; it returns `ok`, or it could not load a file as
a call failed on its own. -/
def Idle (layout : Layout) (baseUrl deviceName username password : Option (List UInt8)) (pid : ℕ)
    (files : Path → Option Node) : Prop :=
  ∀ (m : Machine) (sequence : UInt32), m.files = files →
    Ends (bootstrap layout baseUrl deviceName username password pid sequence) m
      (fun r m' => m'.files = files ∧ (r.1.result = .ok ∨ ¬ Healthy m ∧ r.1.result.CannotLoad))
      fun m' => m'.files = files

/-- **A bootstrap is ordered, fails closed and can be repeated.** -/
theorem bootstrap_ordered (layout : Layout)
    (baseUrl deviceName username password : Option (List UInt8)) (pid : ℕ) (sequence : UInt32)
    (m : Machine) :
    Ends (bootstrap layout baseUrl deviceName username password pid sequence) m
      (fun r m' =>
        (r.1.result.BeforeSaves → m'.files = m.files) ∧
        (r.1.stage = .credentials ∨ r.1.credentialsWritten = true →
          ∃ settings credentials, Desired baseUrl deviceName username password settings credentials ∧
            r.1.settingsResult = .ok ∧ (view layout m'.files).storedSettings = .ok settings) ∧
        (r.1.result = .ok →
          (∃ settings credentials, Desired baseUrl deviceName username password settings credentials ∧
            LoadsExactly layout pid settings credentials m'.files) ∧
          Idle layout baseUrl deviceName username password pid m'.files))
      fun m' => (view layout m'.files).credentials ≠ (view layout m.files).credentials →
        ∃ settings credentials, Desired baseUrl deviceName username password settings credentials ∧
          (view layout m'.files).storedSettings = .ok settings := by
  refine (ends_bootstrap layout baseUrl deviceName username password pid sequence m).mono ?_ ?_
  · rintro r m' (⟨hf, hstage, -, hwritten, hresult, -⟩ |
      ⟨settings, credentials, hroot, hdesired, hdid, hrefused, hlook⟩)
    · refine ⟨fun _ => hf, ?_, fun hok => ?_⟩
      · simp [hstage, hwritten]
      · rw [hok] at hresult
        exact hresult.elim
    · refine ⟨hrefused, fun hwritten => ?_, fun hok => ?_⟩
      · have hstage : r.1.stage = .credentials := hwritten.elim id hdid.stage
        exact ⟨settings, credentials, desired_of_eq hdesired, hdid.attempted hstage⟩
      · obtain ⟨hs, hc⟩ := hlook hok
        refine ⟨⟨settings, credentials, desired_of_eq hdesired, loadsExactly hs hc⟩, ?_⟩
        -- a second call finds the records of the first
        intro m₂ sequence₂ hf₂
        rw [← hf₂] at hs hc ⊢
        exact ends_bootstrap_again id hroot hdesired hs hc
  · -- the program stopped: credentials are there only behind the settings
    rintro m' (hv | ⟨settings, credentials, a, b, hdesired, hwrote⟩) hne
    · rw [hv] at hne
      exact absurd rfl hne
    · refine ⟨settings, credentials, desired_of_eq hdesired, hwrote.ordered ?_⟩
      cases b with
      | true => rfl
      | false => exact absurd hwrote.written.credentials_eq hne

end Files

/-- Two empty directories below a mount point. -/
def exampleMachine : Machine where
  files path :=
    if path = ascii "/m/config" then some ⟨1, .directory⟩
    else if path = ascii "/m/state" then some ⟨2, .directory⟩
    else none
  script := List.replicate 30 (.succeed 4096)
  fresh := 3

/-- A bootstrap below this mount point. -/
def exampleBootstrap : Sys (Report × Option Errno) :=
  bootstrap ⟨ascii "/m", 2⟩ (some (ascii "https://a")) (some (ascii "d")) (some (ascii "u"))
    (some (ascii "p")) 7 0

/-- A bootstrap whose records are stored does not return `ok` where its first call fails. -/
theorem bootstrap_again_cannot_load :
    let first := exampleBootstrap exampleMachine
    let second := exampleBootstrap { first.2 with script := [.fail ⟨.eio, by decide⟩] }
    first.1.map (·.1.result) = some .ok ∧
      second.1.map (·.1.result) = some .existingSettingsFailed := by
  decide +kernel

end AccountBootstrap
