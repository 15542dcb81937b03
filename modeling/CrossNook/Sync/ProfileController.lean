import CrossNook.Net.DnsSimple
import CrossNook.Sync.ExplicitController
import CrossNook.Sync.PersistedProfile

/-!
# The controllers of a profile

The three controllers under a profile that is already loaded (`sync/profile_sync_controller.c`).
They check the profile and the runtime on their own, and run what the controllers of the stores
run. Those load the settings and the credentials each time: whatever else they do, they do as the
controllers of the profile do it.

## Main definitions

* `SyncController.syncCurrentBookWithProfile`, `SyncController.pushLocalCurrentBookWithProfile`,
  `SyncController.pullRemoteCurrentBookWithProfile`: the functions of these names
* `SyncController.Agrees`: a controller of the stores does what a controller of the profile does
* `SyncController.StaysOff`: a controller of the stores reports that sync is off

## Main results

* `SyncController.preflight_stored`: what the preflight resolves is the configuration of the profile
* `SyncController.profile_controllers_agree`: the controllers agree, and are off together
-/

namespace SyncController

open Crash Kosync Posix
open PersistedSyncProfile (Profile Stored SwitchedOff boundedText)
open StorageLayout (Layout)

/-- `cn_sync_runtime_inputs`. -/
structure RuntimeInputs where
  dns : Option DnsConfig
  tls : Option TlsConfig
  timePolicy : TimePolicy
  time : Bool

/-! ## The checks -/

/-- `nonempty_bounded`. -/
def nonemptyBounded (text : List UInt8) (capacity : ℕ) : Bool :=
  let length := min text.length capacity
  0 < length ∧ length < capacity

/-- `valid_device_name`, whose loop is that of the settings. -/
def validDeviceName (text : List UInt8) : Bool :=
  let length := min text.length SettingsStore.deviceNameCapacity
  if length = 0 ∨ SettingsStore.deviceNameCapacity ≤ length then false
  else SettingsStore.utf8DeviceNameValid (text.take length)

/-- `valid_profile`. -/
def validProfile (profile : Profile) : Bool :=
  nonemptyBounded profile.baseUrl SettingsStore.kosyncUrlCapacity ∧
    nonemptyBounded profile.username (CredentialStore.usernameMax + 1) ∧
    nonemptyBounded profile.userkey (CredentialStore.userkeyMax + 1) ∧
    nonemptyBounded profile.deviceId DeviceIdentity.textCapacity ∧
    validDeviceName profile.deviceName

/-- `valid_runtime`. -/
def validRuntime (runtime : RuntimeInputs) : Bool :=
  match runtime.dns, runtime.tls with
  | some dns, some tls =>
    tls.caPath.getD [] ≠ [] ∧ dns.servers.length ≠ 0 ∧
      dns.servers.length ≤ DnsSimple.maxServers ∧ (∀ server ∈ dns.servers, server.getD [] ≠ []) ∧
      ¬ (runtime.timePolicy = .establish ∧ (¬ runtime.time ∨ tls.getTime))
  | _, _ => false

/-- `valid_operation_inputs`. -/
def validOperationInputs (runtime : RuntimeInputs) (progressStore : Option StorePointer)
    (documentPath : Option (List UInt8)) : Bool :=
  validRuntime runtime ∧ progressStore.isSome ∧ documentPath.getD [] ≠ []

/-- `resolved_from_profile`. -/
def resolvedFromProfile (profile : Profile) (runtime : RuntimeInputs)
    (progressStore : Option StorePointer) (documentPath : Option (List UInt8)) :
    ResolvedConfig where
  baseUrl := profile.baseUrl
  deviceName := profile.deviceName
  username := profile.username
  userkey := profile.userkey
  deviceId := some profile.deviceId
  progressStore := progressStore
  documentPath := documentPath
  dns := runtime.dns
  tls := runtime.tls
  timePolicy := runtime.timePolicy
  time := runtime.time

/-! ## The controllers -/

/-- `cn_sync_current_book_with_profile`. -/
def syncCurrentBookWithProfile (profile : Profile) (runtime : RuntimeInputs)
    (progressStore : Option StorePointer) (documentPath : Option (List UInt8)) : Env Result :=
  if ¬ validProfile profile ∨ ¬ validDeviceName profile.deviceName ∨
      ¬ validDeviceId (some profile.deviceId) ∨
      ¬ validOperationInputs runtime progressStore documentPath then
    return preflightFailure resultInit .configFailed .configurationFailure
  else
    syncCurrentBookResolved (resolvedFromProfile profile runtime progressStore documentPath)
      resultInit

/-- `cn_sync_push_local_current_book_with_profile`. -/
def pushLocalCurrentBookWithProfile (profile : Profile) (runtime : RuntimeInputs)
    (progressStore : Option StorePointer) (documentPath : Option (List UInt8)) :
    Env PushResult :=
  if ¬ validProfile profile ∨ ¬ validDeviceId (some profile.deviceId) ∨
      ¬ validOperationInputs runtime progressStore documentPath then
    return { pushInit with stage := .configFailed, outcome := .failure .configurationFailure }
  else
    pushLocalCurrentBookResolved (resolvedFromProfile profile runtime progressStore documentPath)
      pushInit

/-- `cn_sync_pull_remote_current_book_with_profile`. -/
def pullRemoteCurrentBookWithProfile (profile : Profile) (runtime : RuntimeInputs)
    (progressStore : Option StorePointer) (documentPath : Option (List UInt8)) :
    Env PullResult :=
  if ¬ validProfile profile ∨ ¬ validOperationInputs runtime progressStore documentPath then
    return { pullInit with stage := .configFailed, outcome := .failure .configurationFailure }
  else
    pullRemoteCurrentBookResolved (resolvedFromProfile profile runtime progressStore documentPath)
      pullInit

/-! ## A stored profile passes the checks -/

section Checks

variable {layout : Layout} {pid : ℕ} {files : Path → Option Node} {profile : Profile}
  {runtime : RuntimeInputs} {progressStore : Option StorePointer}
  {documentPath : Option (List UInt8)}

theorem nonemptyBounded_of_boundedText {text : List UInt8} {capacity : ℕ}
    (h : boundedText text capacity true = true) : nonemptyBounded text capacity = true := by
  obtain ⟨hlength, hne⟩ := of_decide_eq_true h
  have hpos := List.length_pos_iff.mpr (hne rfl)
  exact decide_eq_true ⟨by omega, by omega⟩

/-- Settings that are found pass their own check. -/
theorem validate_of_look {store : SettingsStore.Store} {settings : Settings}
    (h : store.look pid files = .ok settings) : SettingsStore.validate settings = .ok := by
  have hstored : store.stored files = .ok settings := by
    rcases store.look_cases pid files with hlook | ⟨result, hlook, -⟩
    · rwa [← hlook]
    · rw [hlook] at h
      cases h
  unfold SettingsStore.Store.stored at hstored
  split at hstored
  · cases hstored
  unfold SettingsStore.judge at hstored
  split at hstored
  · split_ifs at hstored
    exact (SettingsStore.serializeSettings_of_parseSettings hstored).1
  · cases hstored
  · cases hstored

/-- The device name of settings that pass their check. -/
theorem validDeviceName_of_validate {settings : Settings}
    (h : SettingsStore.validate settings = .ok) :
    validDeviceName settings.kosyncDeviceName = true := by
  unfold SettingsStore.validate at h
  split at h
  · cases h
  dsimp only [SettingsStore.boundedLength] at h
  split at h
  · cases h
  rename_i htexts
  simp only [not_or, not_not] at htexts
  unfold validDeviceName
  dsimp only
  rw [if_neg (not_or.mpr ⟨htexts.2.1, htexts.2.2.1⟩)]
  exact htexts.2.2.2

/-- An identifier of printable characters is accepted by the header check. -/
theorem validDeviceId_of_printable {id : List UInt8} (hne : id ≠ []) (hlen : id.length ≤ deviceMax)
    (h : ∀ c ∈ id, 0x20 ≤ c ∧ c < 0x7f) : validDeviceId (some id) = true := by
  have hascii : ∀ text : List UInt8, (∀ c ∈ text, 0x20 ≤ c ∧ c < 0x7f) →
      Utf8.ValidWith (fun u => ∃ c, u = [c] ∧ 0x20 ≤ c ∧ c < 0x7f) text := by
    intro text htext
    induction text with
    | nil => exact .nil
    | cons c text ih =>
      obtain ⟨hc, htext⟩ := List.forall_mem_cons.mp htext
      exact .cons (u := [c]) (.one (by grind)) ⟨c, rfl, hc⟩ (ih htext)
  refine decide_eq_true ⟨hne, Utf8.validates_of_validWith ?_ (hascii id h) _ le_rfl⟩
  rintro u text - ⟨c, rfl, hlow, hhigh⟩
  change deviceIdStep id.length (c :: text) = some text
  rw [deviceIdStep, if_neg, if_pos (by grind)]
  simp only [not_or, not_lt]
  exact ⟨(Nat.sub_le _ _).trans hlen, by grind, by grind⟩

theorem validDeviceId_of_stored (h : Stored layout pid files profile) :
    validDeviceId (some profile.deviceId) = true := by
  obtain ⟨store, hstore⟩ := h.identity
  unfold DeviceIdentity.Store.stored at hstore
  split at hstore
  swap
  · cases hstore
  split at hstore
  swap
  · cases hstore
  rename_i content _ id hparse
  obtain rfl := Option.some.inj hstore
  obtain ⟨hlength, hdigits⟩ := DeviceIdentity.idDigits_of_parseIdentity hparse
  refine validDeviceId_of_printable ?_ (hlength.trans_le (by decide)) fun c hc => ?_
  · rintro h0
    rw [h0] at hlength
    exact absurd hlength (by decide)
  · have := hdigits c hc
    grind

theorem validProfile_of_stored (h : Stored layout pid files profile) :
    validProfile profile = true := by
  obtain ⟨settings, credentials, hsettings, -, -, hprofile⟩ := h.exists_files
  obtain ⟨hurl, husername, huserkey, hid, -⟩ := of_decide_eq_true h.bounded
  have hname : profile.deviceName = settings.kosyncDeviceName := by
    rw [hprofile]
    rfl
  refine decide_eq_true ⟨nonemptyBounded_of_boundedText hurl,
    nonemptyBounded_of_boundedText husername, nonemptyBounded_of_boundedText huserkey,
    nonemptyBounded_of_boundedText hid, ?_⟩
  rw [hname]
  exact validDeviceName_of_validate (validate_of_look hsettings)

end Checks

/-! ## The preflight finds the profile -/

/-- The configuration of a controller with the stores of a layout. -/
def storesConfig (layout : Layout) (deviceId : Option (List UInt8)) (runtime : RuntimeInputs)
    (progressStore : Option StorePointer) (documentPath : Option (List UInt8)) : Config where
  settingsStore := some (Account.settingsStore layout)
  credentialStore := some (Account.credentialStore layout)
  progressStore := progressStore
  documentPath := documentPath
  deviceId := deviceId
  dns := runtime.dns
  tls := runtime.tls
  timePolicy := runtime.timePolicy
  time := runtime.time

/-- What loads leave of a world: all but what is to happen to the calls that they made. -/
structure OnlyLoads (w w' : World) : Prop where
  world_eq : w' = { w with machine := w'.machine }
  files_eq : w'.files = w.files

theorem OnlyLoads.refl (w : World) : OnlyLoads w w := ⟨rfl, rfl⟩

theorem OnlyLoads.trans {w w₁ w₂ : World} (h : OnlyLoads w w₁) (h' : OnlyLoads w₁ w₂) :
    OnlyLoads w w₂ := by
  refine ⟨?_, h'.files_eq.trans h.files_eq⟩
  rw [h'.world_eq, h.world_eq]

section Preflight

variable {layout : Layout} {deviceId : Option (List UInt8)} {runtime : RuntimeInputs}
  {progressStore : Option StorePointer} {documentPath : Option (List UInt8)} {w : World}

/-- A load of the settings tells what it finds, unless one of its own calls fails on its own. -/
theorem ends_settingsLoad_told (store : SettingsStore.Store) :
    Ends (sys (SettingsStore.load store w.pid)) w
      (fun r w' => OnlyLoads w w' ∧ (∃ used, Took used w.machine w'.machine) ∧
        SettingsStore.Told (¬ Struck w.machine w'.machine) (store.look w.pid w.files) r)
      (OnlyLoads w) := by
  have hkept := SettingsStore.ends_load store w.pid w.machine
  rw [ends_sys]
  refine ((ends_run _ _).and hkept).mono ?_ fun _ h => ⟨rfl, h.2⟩
  rintro r machine ⟨hrun, hf, -⟩
  have htold := (SettingsStore.paced_load store w.pid).of_healthy
    (R := fun H files r => SettingsStore.Told H (store.look w.pid files) r)
    (fun m => (SettingsStore.ends_load_told store w.pid id).mono (fun _ _ h => h.2.2)
      fun _ _ => trivial) hrun
  exact ⟨⟨rfl, hf⟩, htold⟩

theorem ends_credentialLoad_told (store : CredentialStore.Store) (credentials : Credentials) :
    Ends (sys (CredentialStore.load store credentials)) w
      (fun r w' => OnlyLoads w w' ∧
        CredentialStore.Told (¬ Struck w.machine w'.machine) (store.look w.files) r)
      (OnlyLoads w) := by
  have hkept := CredentialStore.ends_load store credentials w.machine
  rw [ends_sys]
  refine ((ends_run _ _).and hkept).mono ?_ fun _ h => ⟨rfl, h.2⟩
  rintro r machine ⟨hrun, hf, -⟩
  have htold := (CredentialStore.paced_load store credentials).of_healthy
    (R := fun H files r => CredentialStore.Told H (store.look files) r)
    (fun m => (CredentialStore.ends_load_told store credentials id).mono (fun _ _ h => h.2.2)
      fun _ _ => trivial) hrun
  exact ⟨⟨rfl, hf⟩, htold.2⟩

/-- Where a load of a controller fails on its own. -/
def LoadFailed (stop : Stop) : Prop := stop = .settingsFailed ∨ stop = .credentialsFailed

/-- **What the preflight resolves is the configuration of the profile**, unless a call of its loads
fails on its own. -/
theorem preflight_stored {profile : Profile} (h : Stored layout w.pid w.files profile) :
    Ends (preflight (some
        (storesConfig layout (some profile.deviceId) runtime progressStore documentPath))) w
      (fun pre w' => OnlyLoads w w' ∧
        (pre = ⟨.ok, .ok, .ok (resolvedFromProfile profile runtime progressStore documentPath)⟩ ∨
          Struck w.machine w'.machine ∧ ∃ stop, pre.resolved = .error stop ∧ LoadFailed stop))
      (OnlyLoads w) := by
  obtain ⟨settings, credentials, hsettings, henabled, hcredentials, hprofile⟩ := h.exists_files
  unfold preflight storesConfig
  dsimp only
  rw [ends_bind, ends_get, ends_bind]
  refine (ends_settingsLoad_told _).mono ?_ fun _ h => h
  rintro loaded w₁ ⟨honly, ⟨used, htook⟩, htold⟩
  rw [hsettings] at htold
  rcases htold.of_ok with ⟨hok, hloaded⟩ | ⟨hfault, hnok, hnmissing⟩
  swap
  · rw [if_pos ⟨hnok, hnmissing⟩]
    exact ⟨honly, .inr ⟨not_not.mp hfault, _, rfl, .inl rfl⟩⟩
  rw [if_neg (fun h => h.1 hok), if_neg (by simp [hok, hloaded, henabled])]
  unfold preflightCredentials
  dsimp only
  rw [ends_bind]
  refine (ends_credentialLoad_told _ _).mono ?_ fun _ h => honly.trans h
  rintro loaded' w₂ ⟨honly₂, htold'⟩
  rw [honly.files_eq, hcredentials] at htold'
  have honly' := honly.trans honly₂
  rcases htold'.of_ok with ⟨hok', hloaded'⟩ | ⟨hfault, hnok, -⟩
  swap
  · rw [if_pos hnok]
    exact ⟨honly', .inr ⟨htook.struck (not_not.mp hfault), _, rfl, .inr rfl⟩⟩
  have hvalid : SettingsStore.validate loaded.settings = .ok := by
    rw [hloaded]
    exact validate_of_look hsettings
  rw [if_neg (not_not.mpr hok'), if_neg (not_not.mpr hvalid)]
  refine ⟨honly', .inl ?_⟩
  rw [hloaded, hloaded', hprofile]
  rfl

/-- **Where sync is switched off, the preflight says so**, unless a call of its load fails on its
own. -/
theorem preflight_switchedOff (h : SwitchedOff layout w.pid w.files) :
    Ends (preflight (some (storesConfig layout deviceId runtime progressStore documentPath))) w
      (fun pre w' => OnlyLoads w w' ∧
        (pre.resolved = .error .disabled ∨
          Struck w.machine w'.machine ∧ ∃ stop, pre.resolved = .error stop ∧ LoadFailed stop))
      (OnlyLoads w) := by
  unfold preflight storesConfig
  dsimp only
  rw [ends_bind, ends_get, ends_bind]
  refine (ends_settingsLoad_told _).mono ?_ fun _ h => h
  rintro loaded w₁ ⟨honly, -, htold⟩
  have hoff : (¬ (loaded.result ≠ .ok ∧ loaded.result ≠ .missing) ∧
      (loaded.result = .missing ∨ loaded.settings.kosyncEnabled = 0)) ∨
      Struck w.machine w₁.machine ∧ loaded.result ≠ .ok ∧ loaded.result ≠ .missing := by
    cases htold with
    | found e =>
      left
      rcases h with h | ⟨settings, h, h0⟩
      · rw [h]
        exact ⟨fun hne => hne.2 rfl, .inl rfl⟩
      · rw [h]
        exact ⟨fun hne => hne.1 rfl, .inr h0⟩
    | fault hH e =>
      have he := SettingsStore.filesystemError_ne e
      exact .inr ⟨not_not.mp hH, he.1, he.2.1⟩
  rcases hoff with ⟨hloaded, hdisabled⟩ | ⟨hH, hfailed⟩
  · rw [if_neg hloaded, if_pos hdisabled]
    exact ⟨honly, .inl rfl⟩
  · rw [if_pos hfailed]
    exact ⟨honly, .inr ⟨hH, _, rfl, .inl rfl⟩⟩

end Preflight

/-! ## Agreement -/

section Agreement

variable {R : Type}

/-- The world after the loads of a controller. -/
def afterLoads (config : Config) (w : World) : World := (preflight (some config) w).2

/-- From `w`, a controller of the stores only loads and then does what a controller of the profile
does, with the result `forget` leaves of its own; unless it is killed in its loads, or a call of
these loads fails on its own and it stops there. -/
structure Agrees (config : Config) (stores profile : Env R) (forget : R → R) (stopped : R → Prop)
    (w : World) : Prop where
  loads : OnlyLoads w (afterLoads config w)
  runs : (preflight (some config) w).1 = none ∧ stores w = (none, afterLoads config w) ∨
    (Struck w.machine (afterLoads config w).machine ∧
      ∃ r, stores w = (some r, afterLoads config w) ∧ stopped r) ∨
    (forget <$> stores) w = profile (afterLoads config w)

/-- From `w`, a controller of the stores loads only and reports that sync is off; unless it is
killed in its loads, or a call of these loads fails on its own. -/
structure StaysOff (config : Config) (stores : Env R) (off stopped : R → Prop) (w : World) :
    Prop where
  loads : OnlyLoads w (afterLoads config w)
  runs : (preflight (some config) w).1 = none ∧ stores w = (none, afterLoads config w) ∨
    (Struck w.machine (afterLoads config w).machine ∧
      ∃ r, stores w = (some r, afterLoads config w) ∧ stopped r) ∨
    ∃ r, stores w = (some r, afterLoads config w) ∧ off r

/-- What every controller of the stores does, given what it reports where the preflight stops and
what it runs where the preflight resolves a configuration. -/
def controller (config : Config) (report : Preflight → Stop → R)
    (run : Preflight → ResolvedConfig → Env R) : Env R := do
  let pre ← preflight (some config)
  match pre.resolved with
  | .error stop => return report pre stop
  | .ok resolved => run pre resolved

variable {config : Config} {report : Preflight → Stop → R}
  {run : Preflight → ResolvedConfig → Env R} {w : World} {stopped : R → Prop}

theorem map_apply (f : R → R) (p : Env R) (w : World) :
    (f <$> p) w = ((p w).1.map f, (p w).2) := by
  change Prog.bind p (fun a => Prog.pure (f a)) w = _
  unfold Prog.bind Prog.pure
  rcases p w with ⟨a | _, w'⟩ <;> rfl

theorem controller_of_error {pre : Preflight} {stop : Stop} {w' : World}
    (hpre : preflight (some config) w = (some pre, w')) (h : pre.resolved = .error stop) :
    controller config report run w = (some (report pre stop), w') := by
  rw [controller, bind_of_eq hpre, h]
  rfl

theorem controller_of_none {w' : World} (hpre : preflight (some config) w = (none, w')) :
    controller config report run w = (none, w') := by
  change Prog.bind (preflight (some config)) _ w = _
  rw [Prog.bind, hpre]

/-- The runs of a controller up to its loads, where `P` tells what the preflight finds. -/
theorem controller_runs {P : Preflight → Prop}
    (hpre : Ends (preflight (some config)) w
      (fun pre w' => OnlyLoads w w' ∧ (P pre ∨
        Struck w.machine w'.machine ∧ ∃ stop, pre.resolved = .error stop ∧ LoadFailed stop))
      (OnlyLoads w))
    (hstop : ∀ pre stop, LoadFailed stop → stopped (report pre stop)) :
    OnlyLoads w (afterLoads config w) ∧
      ((preflight (some config) w).1 = none ∧
          controller config report run w = (none, afterLoads config w) ∨
        (Struck w.machine (afterLoads config w).machine ∧
          ∃ r, controller config report run w = (some r, afterLoads config w) ∧ stopped r) ∨
        ∃ pre, P pre ∧ preflight (some config) w = (some pre, afterLoads config w)) := by
  unfold Ends at hpre
  unfold afterLoads
  rcases hrun : preflight (some config) w with ⟨_ | pre, w'⟩ <;> rw [hrun] at hpre <;>
    dsimp only at hpre ⊢
  · exact ⟨hpre, .inl ⟨rfl, controller_of_none hrun⟩⟩
  obtain ⟨honly, hP | ⟨hfault, stop, hresolved, hfailed⟩⟩ := hpre
  · exact ⟨honly, .inr (.inr ⟨pre, hP, rfl⟩)⟩
  · exact ⟨honly, .inr (.inl ⟨hfault, _, controller_of_error hrun hresolved, hstop _ _ hfailed⟩)⟩

/-- **A controller of the stores agrees** with what it runs on the configuration of the profile. -/
theorem agrees_controller {resolved : ResolvedConfig} {profile : Env R} {forget : R → R}
    (hpre : Ends (preflight (some config)) w
      (fun pre w' => OnlyLoads w w' ∧ (pre = ⟨.ok, .ok, .ok resolved⟩ ∨
        Struck w.machine w'.machine ∧ ∃ stop, pre.resolved = .error stop ∧ LoadFailed stop))
      (OnlyLoads w))
    (hstop : ∀ pre stop, LoadFailed stop → stopped (report pre stop))
    (hrun : forget <$> run ⟨.ok, .ok, .ok resolved⟩ resolved = profile) :
    Agrees config (controller config report run) profile forget stopped w := by
  obtain ⟨honly, hkilled | hfailed | ⟨pre, rfl, hloaded⟩⟩ := controller_runs hpre hstop
  · exact ⟨honly, .inl hkilled⟩
  · exact ⟨honly, .inr (.inl hfailed)⟩
  · refine ⟨honly, .inr (.inr ?_)⟩
    have hcontroller : controller config report run w =
        run ⟨.ok, .ok, .ok resolved⟩ resolved (afterLoads config w) := bind_of_eq hloaded
    rw [← hrun, map_apply, map_apply, hcontroller]

/-- **A controller of the stores stays off.** -/
theorem staysOff_controller {off : R → Prop}
    (hpre : Ends (preflight (some config)) w
      (fun pre w' => OnlyLoads w w' ∧ (pre.resolved = .error .disabled ∨
        Struck w.machine w'.machine ∧ ∃ stop, pre.resolved = .error stop ∧ LoadFailed stop))
      (OnlyLoads w))
    (hstop : ∀ pre stop, LoadFailed stop → stopped (report pre stop))
    (hoff : ∀ pre, off (report pre .disabled)) :
    StaysOff config (controller config report run) off stopped w := by
  obtain ⟨honly, hkilled | hfailed | ⟨pre, hresolved, hloaded⟩⟩ := controller_runs hpre hstop
  · exact ⟨honly, .inl hkilled⟩
  · exact ⟨honly, .inr (.inl hfailed)⟩
  · exact ⟨honly, .inr (.inr ⟨_, controller_of_error hloaded hresolved, hoff pre⟩)⟩

end Agreement

/-! ## The three controllers -/

/-- What a result tells apart from the loads. -/
def Result.forget (result : Result) : Result :=
  { result with settingsResult := .invalidArgument, credentialResult := .invalid }

@[inherit_doc Result.forget]
def PushResult.forget (result : PushResult) : PushResult :=
  { result with settingsResult := .invalidArgument, credentialResult := .invalid }

@[inherit_doc Result.forget]
def PullResult.forget (result : PullResult) : PullResult :=
  { result with settingsResult := .invalidArgument, credentialResult := .invalid }

/-- The stage after a load that failed. -/
def Stage.LoadFailed (stage : Stage) : Prop :=
  stage = .settingsFailed ∨ stage = .credentialsFailed

@[inherit_doc Stage.LoadFailed]
def ExplicitStage.LoadFailed (stage : ExplicitStage) : Prop :=
  stage = .settingsFailed ∨ stage = .credentialsFailed

section Controllers

variable {config : ResolvedConfig}

theorem LoadFailed.result {stop : Stop} (h : LoadFailed stop) (output : Result) :
    (stop.result output).stage.LoadFailed := by
  rcases h with rfl | rfl
  exacts [.inl rfl, .inr rfl]

theorem LoadFailed.explicit {stop : Stop} (h : LoadFailed stop)
    (credentialResult : CredentialStore.Result) :
    (stop.explicit credentialResult).1.LoadFailed := by
  rcases h with rfl | rfl
  exacts [.inl rfl, .inr rfl]

theorem forget_integrated (output : Result) (sync : SyncResult) :
    (output.integrated sync).forget = output.forget.integrated sync := by
  unfold Result.integrated
  rcases policyClassify 1 (some sync) with ⟨classified, c⟩
  dsimp only
  split_ifs <;> rfl

theorem forget_syncCurrentBookResolved (output : Result) :
    Result.forget <$> syncCurrentBookResolved config output =
      syncCurrentBookResolved config output.forget := by
  funext w
  rw [map_apply]
  unfold syncCurrentBookResolved
  by_cases hconfig : ¬ config.accepted ∨ ¬ validDeviceId config.deviceId
  · rw [if_pos hconfig, if_pos hconfig]
    rfl
  rw [if_neg hconfig, if_neg hconfig]
  cases config.client with
  | none => rfl
  | some client =>
    dsimp only
    change ((Prog.bind _ _ w).1.map _, (Prog.bind _ _ w).2) = Prog.bind _ _ w
    unfold Prog.bind
    rcases syncOnce (config.sync client) w with ⟨_ | sync, w'⟩
    · rfl
    · exact Prod.ext (congrArg some (forget_integrated output sync)) rfl

theorem forget_pushLocalCurrentBookResolved (output : PushResult) :
    PushResult.forget <$> pushLocalCurrentBookResolved config output =
      pushLocalCurrentBookResolved config output.forget := by
  funext w
  rw [map_apply]
  unfold pushLocalCurrentBookResolved
  by_cases hconfig : ¬ config.accepted ∨ config.deviceId = none
  · rw [if_pos hconfig, if_pos hconfig]
    rfl
  rw [if_neg hconfig, if_neg hconfig]
  cases config.client with
  | none => rfl
  | some client =>
    dsimp only
    change ((Prog.bind _ _ w).1.map _, (Prog.bind _ _ w).2) = Prog.bind _ _ w
    unfold Prog.bind
    rcases pushLocalOnce (config.sync client) w with ⟨_ | push, w'⟩ <;> rfl

theorem forget_pullRemoteCurrentBookResolved (output : PullResult) :
    PullResult.forget <$> pullRemoteCurrentBookResolved config output =
      pullRemoteCurrentBookResolved config output.forget := by
  funext w
  rw [map_apply]
  unfold pullRemoteCurrentBookResolved
  by_cases hconfig : ¬ config.accepted
  · rw [if_pos hconfig, if_pos hconfig]
    rfl
  rw [if_neg hconfig, if_neg hconfig]
  cases config.client with
  | none => rfl
  | some client =>
    dsimp only
    change ((Prog.bind _ _ w).1.map _, (Prog.bind _ _ w).2) = Prog.bind _ _ w
    unfold Prog.bind
    rcases pullRemoteOnce (config.pull client) w with ⟨_ | pull, w'⟩ <;> rfl

variable {layout : Layout} {profile : Profile} {runtime : RuntimeInputs} {w : World}

/-- The result of a sync that is off, for each controller. -/
def Off (result : Result) : Prop := result.stage = .disabled ∧ result.product.outcome = .disabled

@[inherit_doc Off]
def PushOff (result : PushResult) : Prop :=
  result.stage = .disabled ∧ result.outcome = .failure .disabled

@[inherit_doc Off]
def PullOff (result : PullResult) : Prop :=
  result.stage = .disabled ∧ result.outcome = .failure .disabled

/-- The controllers of the stores agree with those of a profile, in every world that has these
files and for every operation on a book. -/
structure ControllersAgree (layout : Layout) (profile : Profile) (runtime : RuntimeInputs)
    (progressStore : StorePointer) (documentPath : List UInt8) (w : World) : Prop where
  sync : Agrees
    (storesConfig layout (some profile.deviceId) runtime (some progressStore) (some documentPath))
    (syncCurrentBook (some
      (storesConfig layout (some profile.deviceId) runtime (some progressStore) (some documentPath))))
    (syncCurrentBookWithProfile profile runtime (some progressStore) (some documentPath))
    Result.forget (fun result => result.stage.LoadFailed) w
  push : Agrees
    (storesConfig layout (some profile.deviceId) runtime (some progressStore) (some documentPath))
    (pushLocalCurrentBook (some
      (storesConfig layout (some profile.deviceId) runtime (some progressStore) (some documentPath))))
    (pushLocalCurrentBookWithProfile profile runtime (some progressStore) (some documentPath))
    PushResult.forget (fun result => result.stage.LoadFailed) w
  pull : Agrees
    (storesConfig layout (some profile.deviceId) runtime (some progressStore) (some documentPath))
    (pullRemoteCurrentBook (some
      (storesConfig layout (some profile.deviceId) runtime (some progressStore) (some documentPath))))
    (pullRemoteCurrentBookWithProfile profile runtime (some progressStore) (some documentPath))
    PullResult.forget (fun result => result.stage.LoadFailed) w

/-- The controllers of the stores report that sync is off. -/
structure ControllersOff (config : Config) (w : World) : Prop where
  sync : StaysOff config (syncCurrentBook (some config)) Off
    (fun result => result.stage.LoadFailed) w
  push : StaysOff config (pushLocalCurrentBook (some config)) PushOff
    (fun result => result.stage.LoadFailed) w
  pull : StaysOff config (pullRemoteCurrentBook (some config)) PullOff
    (fun result => result.stage.LoadFailed) w

variable {progressStore : StorePointer} {documentPath : List UInt8}

theorem validOperationInputs_of (hruntime : validRuntime runtime = true)
    (hpath : documentPath ≠ []) :
    validOperationInputs runtime (some progressStore) (some documentPath) = true :=
  decide_eq_true ⟨hruntime, rfl, hpath⟩

theorem controllersAgree (h : Stored layout w.pid w.files profile)
    (hruntime : validRuntime runtime = true) (hpath : documentPath ≠ []) :
    ControllersAgree layout profile runtime progressStore documentPath w := by
  have hprofile := validProfile_of_stored h
  have hid := validDeviceId_of_stored h
  have hinputs : validOperationInputs runtime (some progressStore) (some documentPath) = true :=
    validOperationInputs_of hruntime hpath
  have hname : validDeviceName profile.deviceName = true := (of_decide_eq_true hprofile).2.2.2.2
  constructor
  · refine agrees_controller (preflight_stored h) (fun _ _ h => h.result _) ?_
    unfold syncCurrentBookWithProfile
    rw [forget_syncCurrentBookResolved, hprofile, hname, hid, hinputs, if_neg (by decide)]
    rfl
  · refine agrees_controller (preflight_stored h) (fun _ _ h => h.explicit _) ?_
    unfold pushLocalCurrentBookWithProfile
    rw [forget_pushLocalCurrentBookResolved, hprofile, hid, hinputs, if_neg (by decide)]
    rfl
  · refine agrees_controller (preflight_stored h) (fun _ _ h => h.explicit _) ?_
    unfold pullRemoteCurrentBookWithProfile
    rw [forget_pullRemoteCurrentBookResolved, hprofile, hinputs, if_neg (by decide)]
    rfl

theorem controllersOff (h : SwitchedOff layout w.pid w.files) (deviceId : Option (List UInt8))
    (runtime : RuntimeInputs) (progressStore : Option StorePointer)
    (documentPath : Option (List UInt8)) :
    ControllersOff (storesConfig layout deviceId runtime progressStore documentPath) w where
  sync := staysOff_controller (preflight_switchedOff h) (fun _ _ h => h.result _)
    fun _ => ⟨rfl, rfl⟩
  push := staysOff_controller (preflight_switchedOff h) (fun _ _ h => h.explicit _)
    fun _ => ⟨rfl, rfl⟩
  pull := staysOff_controller (preflight_switchedOff h) (fun _ _ h => h.explicit _)
    fun _ => ⟨rfl, rfl⟩

/-- **The controllers agree.** Where a profile is loaded, the controllers of the stores do what
those of the profile do, in every world of the same process that has the files of the load; and
where the load finds sync off, the controllers of the stores find it off. -/
theorem profile_controllers_agree (layout : Layout) (m : Machine) (pid : ℕ) :
    Ends (PersistedSyncProfile.load layout pid) m
      (fun r _ => ∀ w : World, w.files = m.files → w.pid = pid →
        (r.1.status = .ready → ∀ runtime progressStore documentPath,
          validRuntime runtime = true → documentPath ≠ [] →
            ControllersAgree layout r.2 runtime progressStore documentPath w) ∧
        (r.1.status = .disabled → ∀ deviceId runtime progressStore documentPath,
          ControllersOff (storesConfig layout deviceId runtime progressStore documentPath) w))
      fun _ => True := by
  refine (PersistedSyncProfile.ends_load layout pid m).mono ?_ fun _ _ => trivial
  rintro ⟨report, profile⟩ m' ⟨-, hloads⟩ w hf rfl
  rw [← hf] at hloads
  exact ⟨fun h _ _ _ => controllersAgree (hloads.ready h),
    fun h => controllersOff (hloads.disabled h)⟩

end Controllers

/-! ## A load that fails on its own -/

/-- A mount point with an account. -/
def accountMachine : Machine where
  files path :=
    if path = Bytes.ascii "/m/config" then some ⟨1, .directory⟩
    else if path = Bytes.ascii "/m/state" then some ⟨2, .directory⟩
    else if path = Bytes.ascii "/m/config/settings.conf" then
      (SettingsStore.serializeSettings ⟨1, Bytes.ascii "https://a", Bytes.ascii "d"⟩).map
        fun data => ⟨3, .regular data⟩
    else if path = Bytes.ascii "/m/state/credentials" then
      (CredentialStore.serialize ⟨Bytes.ascii "u", Bytes.ascii "k"⟩).map
        fun data => ⟨4, .regular data⟩
    else if path = Bytes.ascii "/m/config/device-id" then
      (DeviceIdentity.serialize fun _ => 7).map fun data => ⟨5, .regular data.2⟩
    else none
  script := List.replicate 60 (.succeed 4096)
  fresh := 6

/-- A world with these files, where the next call fails. -/
def faultyWorld : World where
  machine := { accountMachine with script := [.fail ⟨.eio, by decide⟩] }
  pid := 7
  sequence := 0
  times := []
  resolutions := []
  wires := []
  heaps := []
  events := []

/-- The runtime of the example. -/
def accountRuntime : RuntimeInputs where
  dns := some ⟨[some (Bytes.ascii "1.1.1.1")]⟩
  tls := some ⟨some (Bytes.ascii "/ca"), false⟩
  timePolicy := .callerEstablished
  time := false

/-- The profile of this account. -/
def accountProfile : Profile where
  baseUrl := Bytes.ascii "https://a"
  username := Bytes.ascii "u"
  userkey := Bytes.ascii "k"
  deviceId := Bytes.ascii "07070707070707070707070707070707"
  deviceName := Bytes.ascii "d"

/-- A controller of the stores stops where its own load fails, and that of the profile, which does
not load, goes on. -/
theorem stores_cannot_load :
    let layout : Layout := ⟨Bytes.ascii "/m", 2⟩
    let store : StorePointer := ⟨0, ⟨Bytes.ascii "/m/state/progress", by decide, by decide⟩⟩
    let config := storesConfig layout (some accountProfile.deviceId) accountRuntime (some store)
      (some (Bytes.ascii "/b"))
    (PersistedSyncProfile.load layout 7 accountMachine).1.map (fun r => (r.1.status, r.2)) =
        some (.ready, accountProfile) ∧
      validRuntime accountRuntime = true ∧
      (syncCurrentBook (some config) faultyWorld).1.map (fun r => r.stage) =
        some .settingsFailed ∧
      (syncCurrentBookWithProfile accountProfile accountRuntime (some store)
        (some (Bytes.ascii "/b")) faultyWorld).1.map (fun r => r.stage) = some .integration := by
  dsimp only
  refine ⟨by decide +kernel, by decide +kernel, by decide +kernel, by decide +kernel⟩

end SyncController
