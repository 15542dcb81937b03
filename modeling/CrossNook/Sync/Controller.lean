import CrossNook.Credentials.CredentialStore
import CrossNook.Settings.SettingsStore
import CrossNook.Sync.Evidence

/-!
# The sync controller

One synchronization of the open book under the stored settings and credentials
(`sync/sync_controller.c`). The three controllers load the same two files and check the same
configuration before they run; what they share is here, the two explicit ones are in
`CrossNook.Sync.ExplicitController`.

## Main definitions

* `SyncController.Config`, `SyncController.Result`: `cn_sync_controller_config`,
  `cn_sync_controller_result`
* `SyncController.preflight`: what every controller does first
* `SyncController.syncCurrentBook`: `cn_sync_current_book`

## Main results

* `SyncController.ends_preflight`: the preflight reads only
* `SyncController.ends_syncCurrentBook`: a controller stops in the preflight, or runs one
  synchronization of the configured document and store
-/

namespace SyncController

open Crash Kosync

/-- A pointer to a progress store. -/
structure StorePointer where
  address : ℕ
  store : ProgressStore.Store

/-- `cn_sync_controller_config`, with `none` for `NULL`; of the time configuration, whether there
is one. -/
structure Config where
  settingsStore : Option SettingsStore.Store
  credentialStore : Option CredentialStore.Store
  progressStore : Option StorePointer
  documentPath : Option (List UInt8)
  deviceId : Option (List UInt8)
  dns : Option DnsConfig
  tls : Option TlsConfig
  timePolicy : TimePolicy
  time : Bool

/-- `cn_sync_resolved_config`. -/
structure ResolvedConfig where
  baseUrl : List UInt8
  deviceName : List UInt8
  username : List UInt8
  userkey : List UInt8
  deviceId : Option (List UInt8)
  progressStore : Option StorePointer
  documentPath : Option (List UInt8)
  dns : Option DnsConfig
  tls : Option TlsConfig
  timePolicy : TimePolicy
  time : Bool

/-! ## The preflight -/

/-- Where the preflight of a controller stops. -/
inductive Stop
  | invalid
  | settingsFailed
  | disabled
  | credentialsFailed
  | configFailed
  deriving DecidableEq, Repr

/-- The results of the two loads, and the configuration they give. -/
structure Preflight where
  settingsResult : SettingsStore.Result
  credentialResult : CredentialStore.Result
  resolved : Except Stop ResolvedConfig

/-- The configuration of a run. -/
def Config.resolved (config : Config) (settings : Settings) (credentials : Credentials) :
    ResolvedConfig where
  baseUrl := settings.kosyncBaseUrl
  deviceName := settings.kosyncDeviceName
  username := credentials.username
  userkey := credentials.userkey
  deviceId := config.deviceId
  progressStore := config.progressStore
  documentPath := config.documentPath
  dns := config.dns
  tls := config.tls
  timePolicy := config.timePolicy
  time := config.time

/-- The preflight after the settings are loaded and enabled. -/
def preflightCredentials (config : Config) (settings : Settings) : Env Preflight :=
  match config.credentialStore with
  | none => return ⟨.ok, .invalid, .error .configFailed⟩
  | some store => do
    let loaded ← sys (CredentialStore.load store CredentialStore.cleared)
    if loaded.result ≠ .ok then return ⟨.ok, loaded.result, .error .credentialsFailed⟩
    else if SettingsStore.validate settings ≠ .ok then return ⟨.ok, .ok, .error .configFailed⟩
    else return ⟨.ok, .ok, .ok (config.resolved settings loaded.credentials)⟩

/-- What every controller does before it runs: load the settings and the credentials. -/
def preflight (config : Option Config) : Env Preflight :=
  match config with
  | none => return ⟨.invalidArgument, .invalid, .error .invalid⟩
  | some config =>
    match config.settingsStore with
    | none => return ⟨.invalidArgument, .invalid, .error .invalid⟩
    | some store => do
      let w ← Prog.get
      let loaded ← sys (SettingsStore.load store w.pid)
      if loaded.result ≠ .ok ∧ loaded.result ≠ .missing then
        return ⟨loaded.result, .invalid, .error .settingsFailed⟩
      else if loaded.result = .missing ∨ loaded.settings.kosyncEnabled = 0 then
        return ⟨loaded.result, .invalid, .error .disabled⟩
      else preflightCredentials config loaded.settings

/-- The check of a resolved configuration that the controllers share. -/
def ResolvedConfig.accepted (config : ResolvedConfig) : Bool :=
  config.progressStore.isSome ∧ config.documentPath.getD [] ≠ [] ∧ config.dns.isSome ∧
    (config.tls.bind TlsConfig.caPath).isSome ∧
    ¬ (config.timePolicy = .establish ∧
      (¬ config.time ∨ config.tls.any TlsConfig.getTime))

/-- The client of a resolved configuration, which has to use TLS. -/
def ResolvedConfig.client (config : ResolvedConfig) : Option Client :=
  (clientInit config.baseUrl config.username config.userkey).filter Client.useTls

/-! ## The controller -/

/-- One turn of the loop of `cn_sync_valid_device_id_internal` over an identifier of `length`
bytes. -/
def deviceIdStep (length : ℕ) : List UInt8 → Option (List UInt8)
  | [] => none
  | ch :: text =>
    let i := length - text.length
    if deviceMax < i ∨ ch < 0x20 ∨ ch = 0x7f then none
    else if ch < 0x80 then some text
    else
      match utf8Lead ch with
      | none => none
      | some (value, minimum, remaining) =>
        -- the last byte of the character stands at the index `i + remaining - 1`
        if deviceMax < i + remaining then none
        else
          match utf8Tail remaining value text with
          | none => none
          | some (value, text) =>
            if value < minimum ∨ 0x10ffff < value ∨ (0xd800 ≤ value ∧ value ≤ 0xdfff) then none
            else some text

/-- `cn_sync_valid_device_id_internal`. -/
def validDeviceId (text : Option (List UInt8)) : Bool :=
  match text with
  | none => false
  | some text => text ≠ [] ∧ Utf8.validates (deviceIdStep text.length) text.length text

/-- `cn_sync_controller_stage`. -/
inductive Stage
  | invalid
  | disabled
  | settingsFailed
  | credentialsFailed
  | configFailed
  | integration
  | classificationFailed
  deriving DecidableEq, Repr

/-- `cn_sync_controller_result`. -/
structure Result where
  stage : Stage
  product : ProductResult
  settingsResult : SettingsStore.Result
  credentialResult : CredentialStore.Result
  syncStatus : SyncStatus
  decision : Decision
  localLoadResult : ProgressStore.Result
  localSaveResult : ProgressStore.Result
  timeResult : TimeResult
  dnsResult : DnsResult
  kosyncResult : Kosync.Result
  transportResult : NetSimple.Result
  localSaveAttempted : Bool
  remotePutAttempted : Bool
  localSaved : Bool
  remoteUploaded : Bool
  mutationEvidenceConservative : Bool
  deriving DecidableEq, Repr

/-- `cn_sync_controller_result_init_internal`. -/
def resultInit : Result where
  stage := .invalid
  product := ⟨.internalFailure, .explicitAction, .none, .none⟩
  settingsResult := .invalidArgument
  credentialResult := .invalid
  syncStatus := .invalid
  decision := .none
  localLoadResult := .invalid
  localSaveResult := .invalid
  timeResult := .invalid
  dnsResult := .invalid
  kosyncResult := .invalid
  transportResult := .invalid
  localSaveAttempted := false
  remotePutAttempted := false
  localSaved := false
  remoteUploaded := false
  mutationEvidenceConservative := false

/-- `preflight_failure`. -/
def preflightFailure (result : Result) (stage : Stage) (outcome : ProductOutcome) : Result :=
  { result with
    stage, product := { result.product with outcome, retry := .explicitAction } }

/-- The evidence for a write that was attempted and succeeded, or not. -/
def conservativeMutation (done attempted : Bool) : MutationState :=
  if done && attempted then .confirmed
  else if done || attempted then .possible
  else .none

/-- The result after a synchronization that the policy could not classify. -/
def Result.unclassified (result : Result) (sync : SyncResult) : Result :=
  { result with
    stage := .classificationFailed
    product :=
      { outcome := .internalFailure
        retry := .explicitAction
        localMutation := conservativeMutation sync.localSaved sync.localSaveAttempted
        remoteMutation := conservativeMutation sync.remoteUploaded sync.remotePutAttempted }
    mutationEvidenceConservative := true }

/-- The result after a synchronization. -/
def Result.integrated (result : Result) (sync : SyncResult) : Result :=
  let (classified, c) := policyClassify 1 (some sync)
  let result := { result with
    stage := .integration
    product := c.result
    syncStatus := sync.status
    decision := sync.decision
    localLoadResult := sync.localLoadResult
    localSaveResult := sync.localSaveResult
    timeResult := sync.timeResult
    dnsResult := sync.dnsResult
    kosyncResult := sync.kosyncResult
    transportResult := sync.kosyncOutcome.transportResult
    localSaveAttempted := sync.localSaveAttempted
    remotePutAttempted := sync.remotePutAttempted
    localSaved := sync.localSaved
    remoteUploaded := sync.remoteUploaded }
  if classified ≠ 0 then result.unclassified sync else result

/-- The configuration of the synchronization. -/
def ResolvedConfig.sync (config : ResolvedConfig) (client : Client) : SyncConfig where
  documentPath := config.documentPath
  progressStore := config.progressStore.map StorePointer.store
  timePolicy := config.timePolicy
  time := config.time
  dns := config.dns
  tls := config.tls
  client := some client
  device := some config.deviceName
  deviceId := config.deviceId

/-- `cn_sync_current_book_resolved`. -/
def syncCurrentBookResolved (config : ResolvedConfig) (output : Result) : Env Result :=
  if ¬ config.accepted ∨ ¬ validDeviceId config.deviceId then
    return preflightFailure output .configFailed .configurationFailure
  else
    match config.client with
    | none => return preflightFailure output .configFailed .configurationFailure
    | some client => do
      let sync ← syncOnce (config.sync client)
      return output.integrated sync

/-- The result of a controller that is switched off. -/
def disabledResult (output : Result) : Result :=
  let (classified, c) := policyClassify 0 none
  { output with
    stage := if classified ≠ 0 then .classificationFailed else .disabled
    product := c.result }

/-- The outcome for credentials that could not be loaded. -/
def credentialOutcome : CredentialStore.Result → ProductOutcome
  | .missing => .authRequired
  | .corrupt | .unsupportedVersion | .invalid => .configurationFailure
  | _ => .localFailure

/-- The result where the preflight stops. -/
def Stop.result (stop : Stop) (output : Result) : Result :=
  match stop with
  | .invalid => output
  | .settingsFailed => preflightFailure output .settingsFailed .configurationFailure
  | .disabled => disabledResult output
  | .credentialsFailed =>
    preflightFailure output .credentialsFailed (credentialOutcome output.credentialResult)
  | .configFailed => preflightFailure output .configFailed .configurationFailure

/-- `cn_sync_current_book`. -/
def syncCurrentBook (config : Option Config) : Env Result := do
  let pre ← preflight config
  let output := { resultInit with
    settingsResult := pre.settingsResult, credentialResult := pre.credentialResult }
  match pre.resolved with
  | .error stop => return stop.result output
  | .ok resolved => syncCurrentBookResolved resolved output

/-! ## How a controller ends -/

/-- A resolved configuration of a run: the document and the store are those of the caller, and the
settings and the credentials are stored. -/
structure Resolves (config : Option Config) (w : World) (resolved : ResolvedConfig) : Prop where
  exists_config : ∃ c settings credentials settingsStore credentialStore, config = some c ∧
    c.settingsStore = some settingsStore ∧ c.credentialStore = some credentialStore ∧
    settingsStore.stored w.files = .ok settings ∧ settings.kosyncEnabled ≠ 0 ∧
    SettingsStore.validate settings = .ok ∧
    credentialStore.stored w.files = .ok credentials ∧
    resolved = c.resolved settings credentials

section Runs

variable {w : World}

/-- A load of the settings. -/
theorem ends_settingsLoad (store : SettingsStore.Store) :
    Ends (do let w ← Prog.get; sys (SettingsStore.load store w.pid) : Env SettingsStore.Loaded) w
      (fun r w' => Quiet w w' ∧ w'.events = w.events ∧ SettingsStore.Loads store w.files r)
      fun w' => Quiet w w' ∧ w'.events = w.events := by
  rw [ends_bind, ends_get, ends_sys]
  exact (SettingsStore.ends_load store w.pid w.machine).mono
    (fun _ _ h => ⟨⟨h.1, fun _ h => h⟩, rfl, h.2⟩) fun _ h => ⟨⟨h, fun _ h => h⟩, rfl⟩

/-- A load of the credentials. -/
theorem ends_credentialLoad (store : CredentialStore.Store) (credentials : Credentials) :
    Ends (sys (CredentialStore.load store credentials)) w
      (fun r w' => Quiet w w' ∧ w'.events = w.events ∧ CredentialStore.Loads store w.files r)
      fun w' => Quiet w w' ∧ w'.events = w.events := by
  rw [ends_sys]
  exact (CredentialStore.ends_load store credentials w.machine).mono
    (fun _ _ h => ⟨⟨h.1, fun _ h => h⟩, rfl, h.2⟩) fun _ h => ⟨⟨h, fun _ h => h⟩, rfl⟩

/-- **The preflight reads only**, and what it resolves is stored. -/
theorem ends_preflight (config : Option Config) :
    Ends (preflight config) w
      (fun r w' => Read 0 [] w w' ∧ ∀ resolved, r.resolved = .ok resolved →
        Resolves config w resolved)
      (Read 0 [] w) := by
  unfold preflight
  rcases config with _ | config
  · exact ⟨.refl w, by simp⟩
  dsimp only
  rcases hstore : config.settingsStore with _ | store
  · exact ⟨.refl w, by simp⟩
  dsimp only
  -- the settings
  rw [ends_bind, ends_get, ends_bind]
  have hload := (ends_bind _).mp (ends_settingsLoad (w := w) store)
  rw [ends_get] at hload
  refine hload.mono ?_ fun _ h => h.1.read h.2
  rintro loaded w₁ ⟨hq, he, hsettings⟩
  have hread := hq.read he
  by_cases hfail : loaded.result ≠ .ok ∧ loaded.result ≠ .missing
  · rw [if_pos hfail]
    exact ⟨hread, by simp⟩
  rw [if_neg hfail]
  by_cases hdisabled : loaded.result = .missing ∨ loaded.settings.kosyncEnabled = 0
  · rw [if_pos hdisabled]
    exact ⟨hread, by simp⟩
  rw [if_neg hdisabled]
  simp only [not_or] at hdisabled
  have hok : loaded.result = .ok := by
    by_contra h
    exact hfail ⟨h, hdisabled.1⟩
  -- the credentials
  unfold preflightCredentials
  rcases hcredentials : config.credentialStore with _ | credentialStore
  · exact ⟨hread, by simp⟩
  dsimp only
  rw [ends_bind]
  refine (ends_credentialLoad credentialStore _).mono ?_ fun _ h => hread.trans (h.1.read h.2)
  rintro credentials w₂ ⟨hq', he', hloads⟩
  have hread₂ := hread.trans (hq'.read he')
  by_cases hfail' : credentials.result ≠ .ok
  · rw [if_pos hfail']
    exact ⟨hread₂, by simp⟩
  rw [if_neg hfail']
  by_cases hvalid : SettingsStore.validate loaded.settings ≠ .ok
  · rw [if_pos hvalid]
    exact ⟨hread₂, by simp⟩
  rw [if_neg hvalid]
  refine ⟨hread₂, fun resolved h => ⟨config, loaded.settings, credentials.credentials, store,
    credentialStore, rfl, hstore, hcredentials, hsettings.ok hok, hdisabled.2, not_not.mp hvalid,
    ?_, ?_⟩⟩
  · rw [← hq.files_eq]
    exact hloads.ok (not_not.mp hfail')
  · exact (Except.ok.inj h).symm

end Runs

/-- The runs of `syncCurrentBook`: it stops before the synchronization, or runs it. -/
inductive Ran (config : Option Config) (w : World) : Result → World → Prop
  | stopped {result : Result} {w' : World} (hread : Read 0 [] w w')
    (hd : result.decision = .none) (hs : result.stage ≠ .integration) : Ran config w result w'
  | integrated {resolved : ResolvedConfig} (hresolved : Resolves config w resolved)
    {client : Client} (hclient : resolved.client = some client) {w₁ w' : World}
    (hread : Read 0 [] w w₁) {sync : SyncResult}
    (h : syncOnce (resolved.sync client) w₁ = (some sync, w')) {output : Result}
    (hd : output.decision = .none) : Ran config w (output.integrated sync) w'

/-- The runs of `syncCurrentBook` that are killed. -/
inductive Killed (config : Option Config) (w : World) : World → Prop
  | stopped {w' : World} (hread : Read 0 [] w w') : Killed config w w'
  | integrated {resolved : ResolvedConfig} (hresolved : Resolves config w resolved)
    {client : Client} (hclient : resolved.client = some client) {w₁ w' : World}
    (hread : Read 0 [] w w₁) (h : syncOnce (resolved.sync client) w₁ = (none, w')) :
    Killed config w w'

/-- What the preflight stops with never looks like a synchronization. -/
theorem Stop.result_spec (stop : Stop) (output : Result) (hd : output.decision = .none)
    (hs : output.stage ≠ .integration) :
    (stop.result output).decision = .none ∧ (stop.result output).stage ≠ .integration := by
  cases stop with
  | invalid => exact ⟨hd, hs⟩
  | settingsFailed | credentialsFailed | configFailed =>
    exact ⟨hd, by simp [result, preflightFailure]⟩
  | disabled => exact ⟨hd, by simp [result, disabledResult, policyClassify]⟩

/-- A synchronization is always classified. -/
theorem Result.integrated_spec (output : Result) {sync : SyncResult} (h : Consistent sync) :
    (output.integrated sync).stage = .integration ∧
      (output.integrated sync).product = (policyClassify 1 (some sync)).2.result := by
  have hcode := h.understood.code
  unfold integrated
  rcases hp : policyClassify 1 (some sync) with ⟨classified, c⟩
  rw [hp] at hcode
  dsimp only at hcode ⊢
  rw [if_neg (not_not.mpr hcode)]
  exact ⟨rfl, rfl⟩

theorem Result.integrated_decision (output : Result) (sync : SyncResult) :
    (output.integrated sync).decision = sync.decision := by
  unfold integrated
  rcases policyClassify 1 (some sync) with ⟨classified, c⟩
  dsimp only
  split_ifs <;> rfl

/-- **How a controller ends.** -/
theorem ends_syncCurrentBook (config : Option Config) (w : World) :
    Ends (syncCurrentBook config) w (Ran config w) (Killed config w) := by
  unfold syncCurrentBook
  rw [ends_bind]
  refine (ends_preflight config).mono ?_ fun _ h => .stopped h
  rintro pre w₁ ⟨hread, hresolves⟩
  dsimp only
  cases hpre : pre.resolved with
  | error stop =>
    obtain ⟨hd, hs⟩ := stop.result_spec { resultInit with
      settingsResult := pre.settingsResult, credentialResult := pre.credentialResult } rfl
      (by simp [resultInit])
    exact .stopped hread hd hs
  | ok resolved =>
    dsimp only
    unfold syncCurrentBookResolved
    by_cases hconfig : ¬ resolved.accepted ∨ ¬ validDeviceId resolved.deviceId
    · rw [if_pos hconfig]
      exact .stopped hread rfl (by simp [preflightFailure])
    rw [if_neg hconfig]
    cases hclient : resolved.client with
    | none => exact .stopped hread rfl (by simp [preflightFailure])
    | some client =>
      dsimp only
      rw [ends_bind]
      refine (ends_run _ _).mono ?_ ?_
      · exact fun sync w' h => .integrated (hresolves _ hpre) hclient hread h rfl
      · exact fun w' h => .integrated (hresolves _ hpre) hclient hread h

end SyncController
