import CrossNook.Account.AccountFiles
import CrossNook.Net.DnsSimple
import CrossNook.Sync.PersistedProfile
import CrossNook.Sync.Session

/-!
# The activation of an account

An account that is stored but disabled is enabled (`account/sync_activation.c`): its files are
loaded, the server is asked to authorize it, and where it does the settings are saved with the
account enabled.

## Main definitions

* `SyncActivation.activate`: `cn_sync_activate`
* `SyncActivation.Ready`: an account on the disk that can be activated
* `SyncActivation.Authorizes`: the request that asks for the authorization of an account
* `SyncActivation.Activation`: what an activation does to the files and whom it asks
* `SyncActivation.Enables`: the storage and the answers with which every stage succeeds

## Main results

* `SyncActivation.ends_activate`: how an activation ends
* `SyncActivation.returns_activate`: it succeeds on the storage and the answers that enable
-/

namespace SyncActivation

open Bytes (ascii)
open Crash Kosync Posix
open Account (View view)
open StorageLayout (Layout ValidRoot)

/-- `cn_sync_activation_status`. -/
inductive Status
  | ok
  | alreadyEnabled
  | invalidArgument
  | settingsFailed
  | credentialsFailed
  | identityFailed
  | configFailed
  | trustedTimeFailed
  | dnsFailed
  | authRejected
  | httpsFailed
  | serviceFailed
  | settingsSaveFailed
  | durabilityUncertain
  | noMemory
  deriving DecidableEq, Repr

/-- `cn_sync_activation_report`. -/
structure Report where
  status : Status
  settingsResult : SettingsStore.Result
  credentialResult : CredentialStore.Result
  identityResult : DeviceIdentity.Result
  timeResult : TimeResult
  dnsResult : DnsResult
  kosyncResult : Result
  kosyncOutcome : Outcome
  systemErrno : Option Errno
  settingsAttempted : Bool
  credentialsAttempted : Bool
  identityAttempted : Bool
  timeAttempted : Bool
  dnsAttempted : Bool
  remoteAuthAttempted : Bool
  remoteAuthSucceeded : Bool
  settingsSaveAttempted : Bool
  settingsEnableVisiblePossible : Bool
  deriving DecidableEq

/-- `initial_report`. -/
def initialReport : Report where
  status := .invalidArgument
  settingsResult := .invalidArgument
  credentialResult := .invalid
  identityResult := .invalidArgument
  timeResult := .invalid
  dnsResult := .invalid
  kosyncResult := .invalid
  kosyncOutcome := initOutcome
  systemErrno := none
  settingsAttempted := false
  credentialsAttempted := false
  identityAttempted := false
  timeAttempted := false
  dnsAttempted := false
  remoteAuthAttempted := false
  remoteAuthSucceeded := false
  settingsSaveAttempted := false
  settingsEnableVisiblePossible := false

/-- `cn_sync_activation_runtime`, with `none` for `NULL`; of the time configuration, whether there
is one. -/
structure Runtime where
  dns : Option DnsConfig
  tls : Option TlsConfig
  timePolicy : TimePolicy
  time : Bool

/-- `valid_runtime`: the configuration of TLS of a runtime that passes. -/
def validRuntime (runtime : Option Runtime) : Option TlsConfig := do
  let runtime ← runtime
  let dns ← runtime.dns
  let tls ← runtime.tls
  if tls.caPath.getD [] = [] ∨ dns.servers.length = 0 ∨ DnsSimple.maxServers < dns.servers.length then
    none
  else if ¬ ∀ server ∈ dns.servers, server.getD [] ≠ [] then none
  else if runtime.timePolicy ≠ .establish ∨ (runtime.time ∧ ¬ tls.getTime) then some tls
  else none

/-- `map_authorization`. -/
def mapAuthorization : Result → Status
  | .authFailed => .authRejected
  | .transportError => .httpsFailed
  | .httpError | .badJson | .badProtocol => .serviceFailed
  | .noMemory => .noMemory
  | .invalid => .configFailed
  | .ok => .ok
  | .notFound => .serviceFailed

/-! ## The stages -/

/-- `cn_sync_activate` after the server authorized the account. -/
def enable (store : SettingsStore.Store) (settings : Settings) (report : Report) : Env Report := do
  let w ← Prog.get
  let (settingsResult, systemErrno) ←
    sys (SettingsStore.save store { settings with kosyncEnabled := 1 } w.pid)
  let report := { report with settingsSaveAttempted := true, settingsResult, systemErrno }
  if settingsResult = .durabilityUncertain then
    return { report with settingsEnableVisiblePossible := true, status := .durabilityUncertain }
  else if settingsResult ≠ .ok then return { report with status := .settingsSaveFailed }
  else return { report with settingsEnableVisiblePossible := true, status := .ok }

/-- `cn_sync_activate` after the client is routed. -/
def askServer (store : SettingsStore.Store) (settings : Settings) (client : Client)
    (report : Report) : Env Report := do
  let (kosyncResult, kosyncOutcome) ← authorize client
  let report := { report with
    remoteAuthAttempted := true
    kosyncResult
    kosyncOutcome
    status := mapAuthorization kosyncResult }
  if kosyncResult ≠ .ok then return report
  else enable store settings { report with remoteAuthSucceeded := true }

/-- The report after the calls that open a session. -/
def Report.opened (report : Report) (policy : TimePolicy) (session : Session) : Report :=
  { report with
    timeAttempted := policy = .establish
    dnsAttempted := session.timeResult = .ok
    timeResult := session.timeResult
    dnsResult := session.dnsResult
    kosyncResult := session.kosyncResult }

/-- The status of a session that could not be opened. -/
def sessionStatus (session : Session) : Status :=
  if session.timeResult ≠ .ok then .trustedTimeFailed
  else if session.dnsResult ≠ .ok then .dnsFailed
  else .configFailed

/-- `cn_sync_activate` after the files are loaded. -/
def connect (runtime : Option Runtime) (store : SettingsStore.Store) (settings : Settings)
    (credentials : Credentials) (report : Report) : Env Report :=
  match runtime, validRuntime runtime with
  | some runtime, some tls =>
    match clientInit settings.kosyncBaseUrl credentials.username credentials.userkey with
    | none => return { report with kosyncResult := .invalid, status := .configFailed }
    | some client =>
      if ¬ client.useTls then return { report with kosyncResult := .ok, status := .configFailed }
      else do
        let session ← openSession runtime.timePolicy tls client
        let report := report.opened runtime.timePolicy session
        match session.client with
        | none => return { report with status := sessionStatus session }
        | some client => askServer store settings client report
  | _, _ => return { report with status := .configFailed }

/-- `cn_sync_activate` after the credentials are loaded. -/
def loadIdentity (layout : Layout) (runtime : Option Runtime) (store : SettingsStore.Store)
    (settings : Settings) (credentials : Credentials) (report : Report) : Env Report := do
  let report := { report with identityAttempted := true }
  match ← sys (DeviceIdentity.init layout) with
  | .error identityResult => return { report with identityResult, status := .identityFailed }
  | .ok identityStore => do
    let loaded ← sys (DeviceIdentity.loadNow identityStore)
    let report := { report with
      identityResult := loaded.result, systemErrno := loaded.systemErrno }
    if loaded.result ≠ .ok then return { report with status := .identityFailed }
    else connect runtime store settings credentials report

/-- `cn_sync_activate` after the settings are checked. -/
def loadCredentials (layout : Layout) (runtime : Option Runtime) (store : SettingsStore.Store)
    (settings : Settings) (report : Report) : Env Report := do
  let report := { report with credentialsAttempted := true }
  match StorageLayout.stateDirectory layout StorageLayout.pathCapacity with
  | none =>
    return { report with credentialResult := .pathTooLong, status := .credentialsFailed }
  | some path =>
    match ← sys (CredentialStore.init (some path)) with
    | .error (credentialResult, systemErrno) =>
      return { report with credentialResult, systemErrno, status := .credentialsFailed }
    | .ok credentialStore => do
      let loaded ← sys (CredentialStore.load credentialStore CredentialStore.cleared)
      let report := { report with
        credentialResult := loaded.result, systemErrno := loaded.systemErrno }
      if loaded.result ≠ .ok then return { report with status := .credentialsFailed }
      else loadIdentity layout runtime store settings loaded.credentials report

/-- `cn_sync_activate` after the settings are loaded. -/
def checkSettings (layout : Layout) (runtime : Option Runtime) (store : SettingsStore.Store)
    (settings : Settings) (report : Report) : Env Report :=
  if settings.kosyncEnabled ≠ 0 then return { report with status := .alreadyEnabled }
  else if SettingsStore.validate settings ≠ .ok then
    return { report with settingsResult := .invalidSettings, status := .settingsFailed }
  else if settings.kosyncBaseUrl = [] then return { report with status := .configFailed }
  else loadCredentials layout runtime store settings report

/-- `cn_sync_activate`. -/
def activate (layout : Layout) (runtime : Option Runtime) : Env Report :=
  match StorageLayout.path layout .config StorageLayout.pathCapacity with
  | .error _ => return initialReport
  | .ok config => do
    let w ← Prog.get
    let report := { initialReport with settingsAttempted := true }
    match ← sys (SettingsStore.init (some config) w.pid) with
    | .error (settingsResult, systemErrno) =>
      return { report with settingsResult, systemErrno, status := .settingsFailed }
    | .ok store => do
      let loaded ← sys (SettingsStore.load store w.pid)
      let report := { report with
        settingsResult := loaded.result, systemErrno := loaded.systemErrno }
      if loaded.result ≠ .ok then return { report with status := .settingsFailed }
      else checkSettings layout runtime store loaded.settings report

/-! ## When an activation succeeds -/

/-- The enabling save succeeds. -/
def Saves (store : SettingsStore.Store) (settings : Settings) (pid : ℕ) (m : Machine) : Prop :=
  Returns (SettingsStore.save store { settings with kosyncEnabled := 1 } pid) m
    fun status _ => status.1 = .ok

/-- The answer of the server authorizes the routed client, and then the enabling save succeeds. -/
def Granted (store : SettingsStore.Store) (settings : Settings) (client : Client) (w : World) :
    Prop :=
  client.ready ∧ ∃ path, endpointPath client (ascii "/users/auth") = some path ∧
    Returns malloc w.machine fun allocated m => allocated = true ∧
      ∃ wire wires, w.wires = wire :: wires ∧
        (mapResponse (NetSimple.exchange (getRequest client path) NetSimple.responseMax wire)).1 =
          .ok ∧
        Saves store settings w.pid m

/-- The answers of the time server and of the name server route the client. -/
def Routes (policy : TimePolicy) (tls : TlsConfig) (client routed : Client) (w : World) : Prop :=
  (policy = .establish → ∃ times, w.times = .ok :: times) ∧
    ∃ address addresses resolutions,
      w.resolutions = (.ok, address :: addresses) :: resolutions ∧
        clientSetTls client tls (some address) = some routed

/-- The runtime and the address of the server are accepted, the server is reached and authorizes
the account, and then the enabling save succeeds. -/
def Connects (runtime : Option Runtime) (store : SettingsStore.Store) (settings : Settings)
    (credentials : Credentials) (w : World) : Prop :=
  ∃ accepted tls client routed, runtime = some accepted ∧ validRuntime runtime = some tls ∧
    clientInit settings.kosyncBaseUrl credentials.username credentials.userkey = some client ∧
    client.useTls = true ∧ Routes accepted.timePolicy tls client routed w ∧
    Granted store settings routed w

/-- The identity is loaded, and then the server is asked with success. -/
def Identifies (layout : Layout) (runtime : Option Runtime) (store : SettingsStore.Store)
    (settings : Settings) (credentials : Credentials) (w : World) : Prop :=
  Returns (DeviceIdentity.init layout) w.machine fun r m => ∃ identityStore, r = .ok identityStore ∧
    Returns (DeviceIdentity.loadNow identityStore) m fun loaded m => loaded.result = .ok ∧
      Connects runtime store settings credentials { w with machine := m }

/-- The credentials and the identity are loaded, and then the server is asked with success. -/
def Authenticates (layout : Layout) (runtime : Option Runtime) (store : SettingsStore.Store)
    (settings : Settings) (w : World) : Prop :=
  ∃ state, StorageLayout.stateDirectory layout StorageLayout.pathCapacity = some state ∧
    Returns (CredentialStore.init (some state)) w.machine fun r m =>
      ∃ credentialStore, r = .ok credentialStore ∧
        Returns (CredentialStore.load credentialStore CredentialStore.cleared) m fun loaded m =>
          loaded.result = .ok ∧
          Identifies layout runtime store settings loaded.credentials { w with machine := m }

/-- **The storage and the answers with which an activation enables the account**: the three files
are loaded, the settings are disabled, valid and name a server, the runtime is accepted, the time
and the address are had, the server authorizes the account, and the enabling save succeeds. -/
def Enables (layout : Layout) (runtime : Option Runtime) (w : World) : Prop :=
  ∃ config, StorageLayout.path layout .config StorageLayout.pathCapacity = .ok config ∧
    Returns (SettingsStore.init (some config) w.pid) w.machine fun r m =>
      ∃ store, r = .ok store ∧
        Returns (SettingsStore.load store w.pid) m fun loaded m => loaded.result = .ok ∧
          loaded.settings.kosyncEnabled = 0 ∧ SettingsStore.validate loaded.settings = .ok ∧
          loaded.settings.kosyncBaseUrl ≠ [] ∧
          Authenticates layout runtime store loaded.settings { w with machine := m }

section Succeeds

variable {layout : Layout} {runtime : Option Runtime} {store : SettingsStore.Store}
  {settings : Settings} {credentials : Credentials} {client : Client} {report : Report} {w : World}

theorem returns_enable :
    Returns (enable store settings report) w (fun r _ => r.status = .ok) ↔
      Saves store settings w.pid w.machine := by
  unfold enable Saves
  rw [returns_bind, returns_get, returns_bind, returns_sys]
  refine returns_congr fun status m _ => ?_
  dsimp only
  split_ifs with huncertain hok
  · simp [huncertain]
  · simp [hok]
  · simpa using hok

theorem mapAuthorization_eq_ok {result : Result} : mapAuthorization result = .ok ↔ result = .ok := by
  cases result <;> simp [mapAuthorization]

theorem returns_authorize {Q : ℕ → Machine → Prop} :
    Returns (authorize client) w (fun r w' => r.1 = .ok ∧ Q w'.pid w'.machine) ↔
      client.ready ∧ ∃ path, endpointPath client (ascii "/users/auth") = some path ∧
        Returns malloc w.machine fun allocated m => allocated = true ∧
          ∃ wire wires, w.wires = wire :: wires ∧
            (mapResponse
              (NetSimple.exchange (getRequest client path) NetSimple.responseMax wire)).1 = .ok ∧
            Q w.pid m := by
  unfold authorize
  by_cases hready : client.ready = true
  swap
  · simp [hready]
  rw [if_neg (not_not.mpr hready)]
  cases hpath : endpointPath client (ascii "/users/auth") with
  | none => simp
  | some path =>
    simp only [hready, true_and, Option.some.injEq, exists_eq_left']
    rw [returns_bind, returns_sys]
    refine returns_congr fun allocated m _ => ?_
    cases allocated with
    | false => simp
    | true =>
      rw [if_pos rfl, returns_bind, returns_exchange]
      simp

theorem returns_askServer :
    Returns (askServer store settings client report) w (fun r _ => r.status = .ok) ↔
      Granted store settings client w := by
  unfold askServer Granted
  rw [returns_bind]
  refine Iff.trans (returns_congr fun r w' _ => ?_) (returns_authorize (Q := Saves store settings))
  obtain ⟨result, outcome⟩ := r
  dsimp only
  split_ifs with hok
  · rw [returns_pure, iff_false_intro hok, false_and, iff_false]
    exact fun h => hok (mapAuthorization_eq_ok.mp h)
  · rw [returns_enable, not_not.mp hok]
    exact (and_iff_right rfl).symm

/-- A session is opened in the time that is established. -/
theorem openSession_eq (policy : TimePolicy) (tls : TlsConfig) (client : Client) :
    openSession policy tls client = (do
      let timeResult ← establishTime policy
      if timeResult ≠ .ok then return ⟨timeResult, .invalid, .invalid, none⟩
      else openSession .callerEstablished tls client) := by
  conv_lhs => unfold openSession
  refine congrArg (establishTime policy >>= ·) (funext fun timeResult => ?_)
  by_cases hok : timeResult ≠ .ok
  · rw [if_pos hok, if_pos hok]
  · rw [if_neg hok, if_neg hok]
    rfl

/-- The session of a client that is routed, where what follows asks for neither the time nor an
address. -/
theorem returns_openSession {policy : TimePolicy} {tls : TlsConfig} {Q : Client → World → Prop}
    (hQ : ∀ routed times resolutions events,
      Q routed { w with times, resolutions, events } ↔ Q routed w) :
    Returns (openSession policy tls client) w
        (fun session w' => ∃ routed, session.client = some routed ∧ Q routed w') ↔
      ∃ routed, Routes policy tls client routed w ∧ Q routed w := by
  -- the address, once the time is established
  have hresolve : ∀ times events,
      Returns (openSession .callerEstablished tls client) { w with times, events }
        (fun session w' => ∃ routed, session.client = some routed ∧ Q routed w') ↔
      ∃ routed, (∃ address addresses resolutions,
        w.resolutions = (.ok, address :: addresses) :: resolutions ∧
          clientSetTls client tls (some address) = some routed) ∧ Q routed w := by
    intro times events
    unfold openSession establishTime
    rw [if_neg (by decide), returns_bind, returns_pure, if_neg (not_not.mpr rfl), returns_bind,
      returns_resolveA]
    constructor
    · rintro ⟨⟨dnsResult, addresses⟩, resolutions, hres, h⟩
      dsimp only at hres h
      split_ifs at h with hok
      · obtain ⟨routed, hnone, -⟩ := (returns_pure _).mp h
        cases hnone
      · split at h
        · obtain ⟨routed, hnone, -⟩ := (returns_pure _).mp h
          cases hnone
        · rename_i address addresses
          split at h
          · obtain ⟨routed, hnone, -⟩ := (returns_pure _).mp h
            cases hnone
          · rename_i routed hrouted
            obtain ⟨_, hsome, hq⟩ := (returns_pure _).mp h
            cases hsome
            rw [not_not.mp hok] at hres
            exact ⟨routed, ⟨address, addresses, resolutions, hres, hrouted⟩,
              (hQ routed times resolutions _).mp hq⟩
    · rintro ⟨routed, ⟨address, addresses, resolutions, hres, hrouted⟩, hq⟩
      refine ⟨_, resolutions, hres, ?_⟩
      dsimp only
      rw [if_neg (not_not.mpr rfl), hrouted]
      exact (returns_pure _).mpr ⟨routed, rfl, (hQ routed times resolutions _).mpr hq⟩
  rw [openSession_eq]
  unfold establishTime Routes
  rw [returns_bind]
  by_cases hpolicy : policy = .establish
  · rw [if_pos hpolicy, returns_timesimpleSync]
    constructor
    · rintro ⟨timeResult, times, htimes, h⟩
      split_ifs at h with hok
      · obtain ⟨routed, hnone, -⟩ := (returns_pure _).mp h
        cases hnone
      · rw [not_not.mp hok] at htimes
        obtain ⟨routed, hroute, hq⟩ := (hresolve times _).mp h
        exact ⟨routed, ⟨fun _ => ⟨times, htimes⟩, hroute⟩, hq⟩
    · rintro ⟨routed, ⟨htime, hroute⟩, hq⟩
      obtain ⟨times, htimes⟩ := htime hpolicy
      refine ⟨.ok, times, htimes, ?_⟩
      rw [if_neg (not_not.mpr rfl)]
      exact (hresolve times _).mpr ⟨routed, hroute, hq⟩
  · rw [if_neg hpolicy, returns_pure, if_neg (not_not.mpr rfl)]
    refine (hresolve w.times w.events).trans (exists_congr fun routed => ?_)
    simp [hpolicy]

theorem sessionStatus_ne_ok (session : Session) : sessionStatus session ≠ .ok := by
  unfold sessionStatus
  split_ifs <;> simp

theorem returns_connect :
    Returns (connect runtime store settings credentials report) w (fun r _ => r.status = .ok) ↔
      Connects runtime store settings credentials w := by
  unfold connect Connects
  split
  swap
  · rename_i hnone
    rw [returns_pure]
    refine ⟨fun h => (by cases h), ?_⟩
    rintro ⟨accepted, tls, -, -, haccepted, htls, -⟩
    exact absurd htls (hnone accepted tls haccepted)
  rename_i accepted tls htls
  cases hclient : clientInit settings.kosyncBaseUrl credentials.username credentials.userkey with
  | none => simp
  | some client =>
    dsimp only
    by_cases htls' : client.useTls = true
    swap
    · rw [if_pos htls', returns_pure]
      refine ⟨fun h => (by cases h), ?_⟩
      rintro ⟨_, _, _, _, -, -, hclient', htls'', -⟩
      cases hclient'
      exact absurd htls'' htls'
    rw [if_neg (not_not.mpr htls'), returns_bind]
    have hsession := @returns_openSession client w accepted.timePolicy tls (Granted store settings)
      fun _ _ _ _ => Iff.rfl
    refine (Iff.trans (returns_congr fun session w' _ => ?_) hsession).trans ?_
    · cases hrouted : session.client with
      | none => simpa [hrouted] using sessionStatus_ne_ok session
      | some routed => simpa [hrouted] using returns_askServer
    · simp_all

theorem returns_loadIdentity :
    Returns (loadIdentity layout runtime store settings credentials report) w
        (fun r _ => r.status = .ok) ↔
      Identifies layout runtime store settings credentials w := by
  unfold loadIdentity Identifies
  rw [returns_bind, returns_sys]
  refine returns_congr fun r m _ => ?_
  cases r with
  | error result => simp
  | ok identityStore =>
    simp only [returns_bind, returns_sys, Except.ok.injEq, exists_eq_left']
    refine returns_congr fun loaded m _ => ?_
    split_ifs with hok
    · simp [hok]
    · rw [returns_connect]
      exact (and_iff_right (not_not.mp hok)).symm

theorem returns_loadCredentials :
    Returns (loadCredentials layout runtime store settings report) w (fun r _ => r.status = .ok) ↔
      Authenticates layout runtime store settings w := by
  unfold loadCredentials Authenticates
  cases StorageLayout.stateDirectory layout StorageLayout.pathCapacity with
  | none => simp
  | some state =>
    simp only [returns_bind, returns_sys, Option.some.injEq, exists_eq_left']
    refine returns_congr fun r m _ => ?_
    cases r with
    | error status => simp
    | ok credentialStore =>
      simp only [returns_bind, returns_sys, Except.ok.injEq, exists_eq_left']
      refine returns_congr fun loaded m _ => ?_
      split_ifs with hok
      · simp [hok]
      · rw [returns_loadIdentity]
        exact (and_iff_right (not_not.mp hok)).symm

/-- **An activation succeeds** exactly on the storage and the answers that enable the account. -/
theorem returns_activate (layout : Layout) (runtime : Option Runtime) (w : World) :
    Returns (activate layout runtime) w (fun r _ => r.status = .ok) ↔ Enables layout runtime w := by
  unfold activate Enables
  cases StorageLayout.path layout .config StorageLayout.pathCapacity with
  | error result => simp [initialReport]
  | ok config =>
    simp only [returns_bind, returns_get, returns_sys, Except.ok.injEq, exists_eq_left']
    refine returns_congr fun r m _ => ?_
    cases r with
    | error status => simp
    | ok store =>
      simp only [returns_bind, returns_sys, Except.ok.injEq, exists_eq_left']
      refine returns_congr fun loaded m _ => ?_
      split_ifs with hok
      · simp [hok]
      unfold checkSettings
      split_ifs with henabled hvalid hurl
      · simp [henabled]
      · simp [hvalid]
      · simp [hurl]
      · rw [returns_loadCredentials]
        simp_all

end Succeeds

/-! ## What an activation does -/

/-- An account on the disk that can be activated. -/
structure Ready (v : View) (settings : Settings) (credentials : Credentials) : Prop where
  settings_eq : v.storedSettings = .ok settings
  disabled : settings.kosyncEnabled = 0
  url_ne : settings.kosyncBaseUrl ≠ []
  credentials_eq : v.storedCredentials = .ok credentials
  identity : v.storedIdentity.isSome

/-- The request that asks the server at `baseUrl` to authorize a user. -/
def Authorizes (baseUrl username userkey : List UInt8) (request : NetSimple.Request) : Prop :=
  ∃ client tls address routed path,
    clientInit baseUrl username userkey = some client ∧
    clientSetTls client tls (some address) = some routed ∧
    endpointPath routed (ascii "/users/auth") = some path ∧ request = getRequest routed path

/-- The server is asked once, after the calls that open a session. -/
def Asks (settings : Settings) (credentials : Credentials) (outcome : NetSimple.Outcome)
    (w w' : World) : Prop :=
  ∃ setup request, w'.events = w.events ++ setup ++ [.exchange request outcome] ∧
    (∀ e ∈ setup, e.IsSetup) ∧
    Authorizes settings.kosyncBaseUrl credentials.username credentials.userkey request

/-- The statuses under which the account may have been enabled; a process that is killed has
none. -/
def MayEnable : Option Status → Prop
  | none | some .ok | some .durabilityUncertain => True
  | _ => False

/-- The statuses under which the account may not have been enabled. -/
def MayNotEnable : Option Status → Prop
  | some .ok | some .durabilityUncertain => False
  | _ => True

/-- **What an activation does**: it asks nobody, it asks and leaves the files, or it is authorized
and enables the account. -/
inductive Activation (layout : Layout) (w : World) : Option Status → World → Prop
  | quiet {status : Option Status} {w' : World} (hstatus : MayNotEnable status)
    (hview : view layout w'.files = view layout w.files)
    (hsetup : ∃ setup, w'.events = w.events ++ setup ∧ ∀ e ∈ setup, e.IsSetup)
    (henabled : status = some .alreadyEnabled → (view layout w.files).Enabled) :
    Activation layout w status w'
  | asked {status : Option Status} {w' : World} {settings : Settings} {credentials : Credentials}
    {outcome : NetSimple.Outcome} (hstatus : MayNotEnable status)
    (hne : status ≠ some .alreadyEnabled)
    (hready : Ready (view layout w.files) settings credentials)
    (hasks : Asks settings credentials outcome w w')
    (hview : view layout w'.files = view layout w.files) : Activation layout w status w'
  | enabled {status : Option Status} {w' : World} {settings : Settings} {credentials : Credentials}
    {outcome : NetSimple.Outcome} (hstatus : MayEnable status)
    (hready : Ready (view layout w.files) settings credentials)
    (hasks : Asks settings credentials outcome w w') (hok : (mapResponse outcome).1 = .ok)
    (hsaved : View.SavedSettings { settings with kosyncEnabled := 1 } (view layout w.files)
      (view layout w'.files)) : Activation layout w status w'

section Run

variable {layout : Layout} {settings : Settings} {credentials : Credentials} {report : Report}
  {w w₀ : World}

/-- The account that an activation started from is as it was, and the calls that open a session
are all that was observed. -/
structure Opened (layout : Layout) (w₀ w : World) : Prop where
  files_eq : w.files = w₀.files
  setup : ∃ setup, w.events = w₀.events ++ setup ∧ ∀ e ∈ setup, e.IsSetup

theorem Opened.refl (w : World) : Opened layout w w := ⟨rfl, [], (List.append_nil _).symm, by simp⟩

theorem Opened.view_eq (h : Opened layout w₀ w) : view layout w.files = view layout w₀.files := by
  rw [h.files_eq]

/-- An activation that stops without asking. -/
theorem Opened.quiet (h : Opened layout w₀ w) {status : Option Status} (hstatus : MayNotEnable status)
    (hne : status ≠ some .alreadyEnabled) : Activation layout w₀ status w :=
  .quiet hstatus h.view_eq h.setup fun he => absurd he hne

theorem Opened.of_sys (h : Opened layout w₀ w) {machine : Machine}
    (hf : machine.files = w.files) : Opened layout w₀ { w with machine } :=
  ⟨hf.trans h.files_eq, h.setup⟩

theorem Opened.of_setUp (h : Opened layout w₀ w) {w' : World} (hsetup : SetUp w w') :
    Opened layout w₀ w' := by
  obtain ⟨hq, more, hmore, hall'⟩ := hsetup
  obtain ⟨setup, he, hall⟩ := h.setup
  refine ⟨hq.files_eq.trans h.files_eq, setup ++ more, ?_, ?_⟩
  · rw [hmore, he, List.append_assoc]
  · intro e hmem
    rcases List.mem_append.mp hmem with hmem | hmem
    exacts [hall e hmem, hall' e hmem]

theorem mayNotEnable_mapAuthorization {result : Result} (h : result ≠ .ok) :
    MayNotEnable (some (mapAuthorization result)) ∧
      some (mapAuthorization result) ≠ some .alreadyEnabled := by
  cases result <;> first | exact absurd rfl h | exact ⟨trivial, by simp [mapAuthorization]⟩

/-- The save that enables the account. -/
theorem ends_enable (hready : Ready (view layout w₀.files) settings credentials)
    {outcome : NetSimple.Outcome} (hasks : Asks settings credentials outcome w₀ w)
    (hok : (mapResponse outcome).1 = .ok) (hfiles : w.files = w₀.files) :
    Ends (enable (Account.settingsStore layout) settings report) w
      (fun r w' => Activation layout w₀ (some r.status) w') fun w' => Activation layout w₀ none w' := by
  have hview : ∀ {machine : Machine}, view layout machine.files = view layout w.files →
      view layout machine.files = view layout w₀.files := fun h => h.trans (by rw [hfiles])
  have hsaved : ∀ {machine : Machine},
      View.SavedSettings { settings with kosyncEnabled := 1 } (view layout w.files)
        (view layout machine.files) →
      View.SavedSettings { settings with kosyncEnabled := 1 } (view layout w₀.files)
        (view layout machine.files) := fun h => by rwa [hfiles] at h
  unfold enable
  rw [ends_bind, ends_get, ends_bind, ends_sys]
  refine (Account.ends_saveSettings _ w.pid w.machine).mono ?_ ?_
  · rintro ⟨result, e⟩ machine hsave
    dsimp only
    -- a save whose durability is uncertain has replaced the file, so it counts as one
    rcases hsave with ⟨hvisible, hsave⟩ | ⟨hnot, hsave⟩
    · rcases hvisible with h | h
      · obtain rfl : result = .ok := h
        exact .enabled trivial hready hasks hok (hsaved hsave)
      · obtain rfl : result = .durabilityUncertain := h
        exact .enabled trivial hready hasks hok (hsaved hsave)
    · have hne : result ≠ .durabilityUncertain := fun h => hnot (.inr h)
      have hne' : result ≠ .ok := fun h => hnot (.inl h)
      rw [if_neg hne, if_pos hne']
      exact .asked trivial (by simp) hready hasks (hview hsave)
  · rintro machine (hsave | hsave)
    · exact .asked trivial (by simp) hready hasks (hview hsave)
    · exact .enabled trivial hready hasks hok (hsaved hsave)

/-- **The request for an authorization.** -/
theorem ends_authorize (client : Client) (w : World) :
    Ends (authorize client) w
      (fun r w' => (w'.files = w.files ∧ w'.events = w.events ∧ r.1 ≠ .ok) ∨
        ∃ path outcome, endpointPath client (ascii "/users/auth") = some path ∧
          w'.files = w.files ∧ w'.events = w.events ++ [.exchange (getRequest client path) outcome] ∧
          r = mapResponse outcome)
      fun w' => w'.files = w.files ∧ w'.events = w.events := by
  unfold authorize
  by_cases hready : ¬ client.ready
  · rw [if_pos hready]
    exact .inl ⟨rfl, rfl, by simp⟩
  rw [if_neg hready]
  cases hpath : endpointPath client (ascii "/users/auth") with
  | none => exact .inl ⟨rfl, rfl, by simp⟩
  | some path =>
    dsimp only
    rw [ends_bind]
    refine (ends_sys_keeps keepsFiles_malloc).mono ?_ fun _ h => ⟨h.1.files_eq, h.2⟩
    rintro allocated w₁ ⟨hq, he⟩
    cases allocated with
    | false => exact .inl ⟨hq.files_eq, he, by simp⟩
    | true =>
      rw [if_pos rfl, ends_bind]
      refine ends_exchange ⟨hq.files_eq, he⟩ fun wire wires => ?_
      refine .inr ⟨path, _, rfl, hq.files_eq, ?_, rfl⟩
      rw [he]

theorem ends_askServer (hready : Ready (view layout w₀.files) settings credentials)
    (hopened : Opened layout w₀ w) {client routed : Client} {tls : TlsConfig} {address : List UInt8}
    (hclient : clientInit settings.kosyncBaseUrl credentials.username credentials.userkey =
      some client) (hrouted : clientSetTls client tls (some address) = some routed) :
    Ends (askServer (Account.settingsStore layout) settings routed report) w
      (fun r w' => Activation layout w₀ (some r.status) w') fun w' => Activation layout w₀ none w' := by
  unfold askServer
  rw [ends_bind]
  refine (ends_authorize routed w).mono ?_ ?_
  swap
  · rintro w' ⟨hf, he⟩
    have hopened' : Opened layout w₀ w' := by
      obtain ⟨setup, hsetup, hall⟩ := hopened.setup
      exact ⟨hf.trans hopened.files_eq, setup, he.trans hsetup, hall⟩
    exact hopened'.quiet trivial (by simp)
  -- the server was not asked, or it was and has answered
  rintro ⟨result, outcome'⟩ w₁ (⟨hf, he, hne⟩ | ⟨path, outcome, hpath, hf, he, hr⟩)
  · have hopened' : Opened layout w₀ w₁ := by
      obtain ⟨setup, hsetup, hall⟩ := hopened.setup
      exact ⟨hf.trans hopened.files_eq, setup, he.trans hsetup, hall⟩
    have hstatus := mayNotEnable_mapAuthorization hne
    dsimp only
    rw [if_pos hne]
    exact hopened'.quiet hstatus.1 hstatus.2
  · -- from here on the trace has the request and its outcome
    have hasks : Asks settings credentials outcome w₀ w₁ := by
      obtain ⟨setup, hsetup, hall⟩ := hopened.setup
      refine ⟨setup, getRequest routed path, ?_, hall, client, tls, address, routed, path, hclient,
        hrouted, hpath, rfl⟩
      rw [he, hsetup]
    have hfiles : w₁.files = w₀.files := hf.trans hopened.files_eq
    dsimp only
    by_cases hok : result = .ok
    · rw [if_neg (not_not.mpr hok)]
      refine ends_enable hready hasks ?_ hfiles
      rw [← hr, hok]
    · have hstatus := mayNotEnable_mapAuthorization hok
      rw [if_pos hok]
      exact .asked hstatus.1 hstatus.2 hready hasks (by rw [hfiles])

theorem ends_connect (hready : Ready (view layout w₀.files) settings credentials)
    (hopened : Opened layout w₀ w) (runtime : Option Runtime) :
    Ends (connect runtime (Account.settingsStore layout) settings credentials report) w
      (fun r w' => Activation layout w₀ (some r.status) w') fun w' => Activation layout w₀ none w' := by
  have hfailed : ∀ {w' : World}, Opened layout w₀ w' →
      Activation layout w₀ (some .configFailed) w' := fun h => h.quiet trivial (by simp)
  unfold connect
  split
  swap
  · exact hfailed hopened
  rename_i runtime tls _
  split
  · exact hfailed hopened
  rename_i client hclient
  by_cases htls : ¬ client.useTls
  · rw [if_pos htls]
    exact hfailed hopened
  rw [if_neg htls, ends_bind]
  refine (ends_openSession runtime.timePolicy tls client w).mono ?_
    fun w' h => (hopened.of_setUp h).quiet trivial (by simp)
  rintro session w₁ ⟨hsetup, hopens⟩
  have hopened₁ := hopened.of_setUp hsetup
  have hstatus : MayNotEnable (some (sessionStatus session)) ∧
      some (sessionStatus session) ≠ some .alreadyEnabled := by
    unfold sessionStatus
    split_ifs <;> exact ⟨trivial, by simp⟩
  cases hopens with
  | time | dns | client => exact hopened₁.quiet hstatus.1 hstatus.2
  | opened hrouted => exact ends_askServer hready hopened₁ hclient hrouted

theorem ends_loadIdentity (hroot : ValidRoot layout) (hopened : Opened layout w₀ w)
    (hsettings : (view layout w₀.files).storedSettings = .ok settings)
    (hdisabled : settings.kosyncEnabled = 0) (hurl : settings.kosyncBaseUrl ≠ [])
    (hcredentials : (view layout w₀.files).storedCredentials = .ok credentials)
    (runtime : Option Runtime) :
    Ends (loadIdentity layout runtime (Account.settingsStore layout) settings credentials report) w
      (fun r w' => Activation layout w₀ (some r.status) w') fun w' => Activation layout w₀ none w' := by
  unfold loadIdentity
  dsimp only
  rw [ends_bind, ends_sys]
  refine (Account.ends_initIdentity hroot w.machine).mono ?_
    fun _ hf => (hopened.of_sys hf).quiet trivial (by simp)
  rintro r machine ⟨hf, hstore⟩
  -- the identity is read before anything is sent, so each return here is a quiet one
  have hopened₁ : Opened layout w₀ { w with machine } := hopened.of_sys hf
  cases r with
  | error result => exact hopened₁.quiet trivial (by simp)
  | ok store =>
    obtain rfl := hstore store rfl
    dsimp only
    rw [ends_bind, ends_sys]
    refine (DeviceIdentity.ends_loadNow _ _).mono ?_
      fun _ hf => (hopened₁.of_sys hf).quiet trivial (by simp)
    rintro loaded machine₂ ⟨hf₂, hloads⟩
    have hopened₂ : Opened layout w₀ { w with machine := machine₂ } := hopened₁.of_sys hf₂
    by_cases hok : loaded.result = .ok
    swap
    · rw [if_pos hok]
      exact hopened₂.quiet trivial (by simp)
    rw [if_neg (not_not.mpr hok)]
    refine ends_connect ⟨hsettings, hdisabled, hurl, hcredentials, ?_⟩ hopened₂ runtime
    -- the identity that was read is the stored one
    have hstored : (Account.identityStore layout).stored machine.files = some loaded.output :=
      hloads hok
    rw [show machine.files = w₀.files from hopened₁.files_eq, Account.storedIdentity_view] at hstored
    rw [hstored]
    rfl

theorem ends_loadCredentials (hroot : ValidRoot layout) (hopened : Opened layout w₀ w)
    (hsettings : (view layout w₀.files).storedSettings = .ok settings)
    (hdisabled : settings.kosyncEnabled = 0) (hurl : settings.kosyncBaseUrl ≠ [])
    (runtime : Option Runtime) :
    Ends (loadCredentials layout runtime (Account.settingsStore layout) settings report) w
      (fun r w' => Activation layout w₀ (some r.status) w') fun w' => Activation layout w₀ none w' := by
  unfold loadCredentials
  dsimp only
  rw [StorageLayout.stateDirectory_of_valid hroot]
  dsimp only
  rw [ends_bind, ends_sys]
  refine (Account.ends_initCredentials (H := False) hroot False.elim).mono ?_
    fun _ hf => (hopened.of_sys hf).quiet trivial (by simp)
  rintro r machine ⟨hf, -, rfl | ⟨status, rfl, -⟩⟩
  swap
  · exact (hopened.of_sys hf).quiet trivial (by simp)
  have hopened₁ : Opened layout w₀ { w with machine } := hopened.of_sys hf
  dsimp only
  rw [ends_bind, ends_sys]
  refine (CredentialStore.ends_load_told (H := False) _ _ False.elim).mono ?_
    fun _ hf => (hopened₁.of_sys hf).quiet trivial (by simp)
  rintro loaded machine₂ ⟨hf₂, -, htold⟩
  have hopened₂ : Opened layout w₀ { w with machine := machine₂ } := hopened₁.of_sys hf₂
  by_cases hok : loaded.result = .ok
  swap
  · rw [if_pos hok]
    exact hopened₂.quiet trivial (by simp)
  rw [if_neg (not_not.mpr hok)]
  refine ends_loadIdentity hroot hopened₂ hsettings hdisabled hurl ?_ runtime
  -- what was loaded is what is stored, as the files were not changed so far
  have hstored : (Account.credentialStore layout).stored machine.files = .ok loaded.credentials :=
    htold.loads.ok hok
  rwa [show machine.files = w₀.files from hopened₁.files_eq] at hstored

theorem ends_checkSettings (hroot : ValidRoot layout) (hopened : Opened layout w₀ w)
    (hsettings : (view layout w₀.files).storedSettings = .ok settings) (runtime : Option Runtime) :
    Ends (checkSettings layout runtime (Account.settingsStore layout) settings report) w
      (fun r w' => Activation layout w₀ (some r.status) w') fun w' => Activation layout w₀ none w' := by
  unfold checkSettings
  by_cases henabled : settings.kosyncEnabled = 0
  swap
  · rw [if_pos henabled]
    exact .quiet trivial hopened.view_eq hopened.setup fun _ => ⟨settings, hsettings, henabled⟩
  rw [if_neg (not_not.mpr henabled)]
  by_cases hvalid : SettingsStore.validate settings ≠ .ok
  · rw [if_pos hvalid]
    exact hopened.quiet trivial (by simp)
  rw [if_neg hvalid]
  by_cases hurl : settings.kosyncBaseUrl = []
  · rw [if_pos hurl]
    exact hopened.quiet trivial (by simp)
  rw [if_neg hurl]
  exact ends_loadCredentials hroot hopened hsettings henabled hurl runtime

/-- **How an activation ends.** -/
theorem ends_activate (layout : Layout) (runtime : Option Runtime) (w : World) :
    Ends (activate layout runtime) w
      (fun r w' => Activation layout w (some r.status) w') fun w' => Activation layout w none w' := by
  have hrefl : Opened layout w w := .refl w
  unfold activate
  by_cases hroot : ValidRoot layout
  swap
  · rw [StorageLayout.path_of_not_valid hroot]
    exact hrefl.quiet trivial (by simp [initialReport])
  rw [(StorageLayout.path_of_valid hroot).1]
  dsimp only
  rw [ends_bind, ends_get, ends_bind, ends_sys]
  -- up to the settings nothing is sent, and each return is a quiet one
  refine (Account.ends_initSettings (H := False) layout w.pid False.elim).mono ?_
    fun _ hf => (hrefl.of_sys hf).quiet trivial (by simp)
  rintro r machine ⟨hf, -, rfl | ⟨status, rfl, -⟩⟩
  swap
  · exact (hrefl.of_sys hf).quiet trivial (by simp)
  have hopened₁ : Opened layout w { w with machine } := hrefl.of_sys hf
  dsimp only
  rw [ends_bind, ends_sys]
  refine (SettingsStore.ends_load_told (H := False) _ w.pid False.elim).mono ?_
    fun _ hf => (hopened₁.of_sys hf).quiet trivial (by simp)
  rintro loaded machine₂ ⟨hf₂, -, htold⟩
  have hopened₂ : Opened layout w { w with machine := machine₂ } := hopened₁.of_sys hf₂
  by_cases hok : loaded.result = .ok
  swap
  · rw [if_pos hok]
    exact hopened₂.quiet trivial (by simp)
  rw [if_neg (not_not.mpr hok)]
  refine ends_checkSettings hroot hopened₂ ?_ runtime
  have hstored : (Account.settingsStore layout).stored machine.files = .ok loaded.settings :=
    htold.loads.ok hok
  rwa [show machine.files = w.files from hopened₁.files_eq] at hstored

end Run

end SyncActivation
