import CrossNook.Credentials.CredentialStore
import CrossNook.Identity.IdentityFile
import CrossNook.Settings.SettingsStore

/-!
# The files of an account

An account consists of three files below the root of a storage layout: the settings, the
credentials and the device identity. What the operations on accounts do to a file system is what
they do to these files and to the two directories above them.

## Main definitions

* `Account.View`, `Account.view`: the files of an account in a file system
* `Account.View.storedSettings`, `Account.View.storedCredentials`, ...: what they store
* `Account.View.SavedSettings`, `Account.View.SavedCredentials`: a file is replaced

## Main results

* `Account.ends_saveSettings`, `Account.ends_saveCredentials`, `Account.ends_loadOrCreate`: what
  the writing calls of the three stores do to the files
-/

namespace Account

open Bytes (ascii)
open Crash Posix
open StorageLayout (Layout ValidRoot)

/-! ## The stores of a layout -/

/-- The store of the settings. -/
def settingsStore (layout : Layout) : SettingsStore.Store := ⟨layout.config, layout.config.length⟩

/-- The store of the credentials. -/
def credentialStore (layout : Layout) : CredentialStore.Store := ⟨layout.state, layout.state.length⟩

/-- The store of the device identity. -/
def identityStore (layout : Layout) : DeviceIdentity.Store :=
  ⟨layout.config ++ DeviceIdentity.fileSuffix,
    layout.config.length + DeviceIdentity.fileSuffix.length⟩

section Paths

variable {layout : Layout}

theorem settingsStore_path :
    (settingsStore layout).path = layout.root ++ ascii "/config/settings.conf" := by
  have hlen : layout.config.length ≠ 1 := by
    rw [Layout.config, List.length_append, show StorageLayout.configSuffix.length = 7 from rfl]
    omega
  unfold SettingsStore.Store.path settingsStore
  dsimp only
  rw [if_neg hlen, Layout.config, List.append_assoc, List.append_assoc]
  rfl

theorem credentialStore_path :
    (credentialStore layout).path = layout.root ++ ascii "/state/credentials" := by
  unfold CredentialStore.Store.path credentialStore
  dsimp only
  rw [Layout.state, List.append_assoc]
  rfl

theorem identityStore_path :
    (identityStore layout).path = layout.root ++ ascii "/config/device-id" := by
  unfold identityStore
  dsimp only
  rw [Layout.config, List.append_assoc]
  rfl

end Paths

/-! ## The files -/

/-- The two directories and the three files of an account. -/
structure View where
  config : Option Node
  state : Option Node
  settings : Option Node
  credentials : Option Node
  identity : Option Node

/-- The files of the account in a file system. -/
def view (layout : Layout) (files : Path → Option Node) : View where
  config := files layout.config
  state := files layout.state
  settings := files (settingsStore layout).path
  credentials := files (credentialStore layout).path
  identity := files (identityStore layout).path

namespace View

variable {v v' : View}

/-- The settings in the file. -/
def storedSettings (v : View) : Except SettingsStore.Result Settings :=
  match v.settings with
  | none => .error .missing
  | some node => SettingsStore.judge node

/-- The credentials in the file. -/
def storedCredentials (v : View) : Except CredentialStore.Result Credentials :=
  match v.credentials with
  | none => .error .missing
  | some node => CredentialStore.judge node

/-- The device identity in the file. -/
def storedIdentity (v : View) : Option (List UInt8) :=
  match v.identity.map Node.kind with
  | some (.regular content) =>
    match DeviceIdentity.parseIdentity content with
    | .ok id => some id
    | .error _ => none
  | _ => none

/-- The settings on disk say that the account is enabled. -/
def Enabled (v : View) : Prop := ∃ settings, v.storedSettings = .ok settings ∧ settings.kosyncEnabled ≠ 0

/-- The settings file is replaced. -/
def SavedSettings (settings : Settings) (v v' : View) : Prop :=
  ∃ node, SettingsStore.judge node = .ok settings ∧ v' = { v with settings := some node }

/-- The credentials file is replaced. -/
def SavedCredentials (credentials : Credentials) (v v' : View) : Prop :=
  ∃ node, CredentialStore.judge node = .ok credentials ∧ v' = { v with credentials := some node }

theorem SavedSettings.stored {settings : Settings} (h : SavedSettings settings v v') :
    v'.storedSettings = .ok settings := by
  obtain ⟨node, hnode, rfl⟩ := h
  exact hnode

theorem SavedSettings.credentials_eq {settings : Settings} (h : SavedSettings settings v v') :
    v'.credentials = v.credentials := by
  obtain ⟨node, -, rfl⟩ := h
  rfl

theorem SavedCredentials.stored {credentials : Credentials}
    (h : SavedCredentials credentials v v') : v'.storedCredentials = .ok credentials := by
  obtain ⟨node, hnode, rfl⟩ := h
  exact hnode

theorem SavedCredentials.settings_eq {credentials : Credentials}
    (h : SavedCredentials credentials v v') : v'.settings = v.settings := by
  obtain ⟨node, -, rfl⟩ := h
  rfl

end View

section View

variable {layout : Layout} {files files' : Path → Option Node}

theorem storedSettings_view :
    (view layout files).storedSettings = (settingsStore layout).stored files := rfl

theorem storedIdentity_view :
    (identityStore layout).stored files = (view layout files).storedIdentity := rfl

end View

/-! ## What the stores find -/

/-- What a load of the settings finds. -/
def View.lookSettings (layout : Layout) (pid : ℕ) (v : View) : Except SettingsStore.Result Settings :=
  if ¬ SettingsStore.storeValid (settingsStore layout) then .error .invalidArgument
  else
    match SettingsStore.directoryStatus (v.config.map Node.kind) with
    | (.ok, _) =>
      match SettingsStore.buildPaths (settingsStore layout) pid with
      | .error result => .error result
      | .ok _ => v.storedSettings
    | (result, _) => .error result

/-- What a load of the credentials finds. -/
def View.lookCredentials (layout : Layout) (v : View) : Except CredentialStore.Result Credentials :=
  if ¬ CredentialStore.storeValid (credentialStore layout) then .error .invalid
  else
    match CredentialStore.directoryStatus (v.state.map Node.kind) with
    | (.ok, _) => v.storedCredentials
    | (result, _) => .error result

section Find

variable {layout : Layout} {pid : ℕ} {files : Path → Option Node} {H : Prop} {m : Machine}

theorem lookSettings_view :
    (view layout files).lookSettings layout pid = (settingsStore layout).look pid files := rfl

theorem lookCredentials_view :
    (view layout files).lookCredentials layout = (credentialStore layout).look files := rfl

/-- The settings can be reached wherever the directory is the same. -/
theorem View.lookSettings_eq {v v' : View} (h : ¬ SettingsStore.Blocked (v.lookSettings layout pid))
    (hconfig : v'.config = v.config) : v'.lookSettings layout pid = v'.storedSettings := by
  unfold View.lookSettings at h ⊢
  rw [hconfig]
  by_cases hstore : SettingsStore.storeValid (settingsStore layout) = true
  swap
  · rw [if_pos hstore] at h
    exact absurd ⟨_, rfl, by simp⟩ h
  rw [if_neg (not_not.mpr hstore)] at h ⊢
  have hdirectory : v.config.map Node.kind = some .directory := by
    by_contra hne
    have hblocked := SettingsStore.blocked_directoryStatus hne
    rcases hstatus : SettingsStore.directoryStatus (v.config.map Node.kind) with ⟨result, e⟩
    rw [hstatus] at h hblocked
    obtain ⟨_, hresult, hok, -⟩ := id hblocked
    cases hresult
    cases result <;> first | exact hok rfl | exact h hblocked
  rw [hdirectory] at h ⊢
  dsimp only [SettingsStore.directoryStatus] at h ⊢
  cases hpaths : SettingsStore.buildPaths (settingsStore layout) pid with
  | ok paths => rfl
  | error result =>
    rw [hpaths] at h
    unfold SettingsStore.buildPaths at hpaths
    split_ifs at hpaths <;> cases hpaths <;> exact absurd ⟨_, rfl, by simp⟩ h

theorem View.lookSettings_stored {v : View} {settings : Settings}
    (h : v.lookSettings layout pid = .ok settings) : v.storedSettings = .ok settings := by
  rwa [← View.lookSettings_eq (by rw [h]; rintro ⟨_, he, -⟩; cases he) rfl]

/-- The credentials can be reached wherever the directory is the same. -/
theorem View.lookCredentials_eq {v v' : View}
    (h : ¬ CredentialStore.Blocked (v.lookCredentials layout)) (hstate : v'.state = v.state) :
    v'.lookCredentials layout = v'.storedCredentials := by
  unfold View.lookCredentials at h ⊢
  rw [hstate]
  by_cases hstore : CredentialStore.storeValid (credentialStore layout) = true
  swap
  · rw [if_pos hstore] at h
    exact absurd ⟨_, rfl, by simp⟩ h
  rw [if_neg (not_not.mpr hstore)] at h ⊢
  have hdirectory : v.state.map Node.kind = some .directory := by
    by_contra hne
    have hblocked := CredentialStore.blocked_directoryStatus hne
    rcases hstatus : CredentialStore.directoryStatus (v.state.map Node.kind) with ⟨result, e⟩
    rw [hstatus] at h hblocked
    obtain ⟨_, hresult, hok, -⟩ := id hblocked
    cases hresult
    cases result <;> first | exact hok rfl | exact h hblocked
  rw [hdirectory]
  rfl

theorem View.lookCredentials_stored {v : View} {credentials : Credentials}
    (h : v.lookCredentials layout = .ok credentials) : v.storedCredentials = .ok credentials := by
  rwa [← View.lookCredentials_eq (by rw [h]; rintro ⟨_, he, -⟩; cases he) rfl]

/-- Nothing is trimmed from a path whose last byte is no slash. -/
theorem trimSlashes_eq {path : Path} {c : UInt8} (hc : c ≠ 0x2f) (hlen : 1 < path.length)
    (hlast : path.getLast? = some c) : SettingsStore.trimSlashes path = path := by
  obtain ⟨b, rest, rfl⟩ := List.exists_cons_of_length_pos (Nat.zero_lt_of_lt hlen)
  have hrest : rest ≠ [] := by
    rintro rfl
    exact absurd hlen (by simp)
  have hgetLast : rest.getLast hrest = c := by
    rw [List.getLast?_eq_some_getLast (by simp), List.getLast_cons hrest] at hlast
    exact Option.some.inj hlast
  rw [SettingsStore.trimSlashes, List.rdropWhile_eq_self_iff.mpr fun hl => ?_]
  rw [hgetLast]
  simpa using hc

theorem trimSlashes_config (layout : Layout) :
    SettingsStore.trimSlashes layout.config = layout.config := by
  refine trimSlashes_eq (c := 0x67) (by decide) ?_ ?_
  · rw [Layout.config, List.length_append]
    exact Nat.lt_of_lt_of_le (by decide) (Nat.le_add_left StorageLayout.configSuffix.length _)
  · rw [Layout.config, List.getLast?_append]
    rfl

theorem trimSlashes_state (layout : Layout) :
    CredentialStore.trimSlashes layout.state = layout.state := by
  have h : CredentialStore.trimSlashes layout.state = SettingsStore.trimSlashes layout.state := by
    cases layout.state <;> rfl
  rw [h]
  refine trimSlashes_eq (c := 0x65) (by decide) ?_ ?_
  · rw [Layout.state, List.length_append]
    exact Nat.lt_of_lt_of_le (by decide) (Nat.le_add_left StorageLayout.stateSuffix.length _)
  · rw [Layout.state, List.getLast?_append]
    rfl

theorem plainComponents_state (h : ValidRoot layout) : plainComponents layout.state = true := by
  obtain ⟨c, root, hroot⟩ := List.exists_cons_of_ne_nil
    (fun h0 : layout.root = [] => absurd h.one_lt (by rw [h0]; decide))
  have hplain := h.plain
  unfold plainComponents at hplain ⊢
  have hstate : StorageLayout.stateSuffix = 0x2f :: ascii "state" := rfl
  rw [hroot, List.drop_succ_cons, List.drop_zero] at hplain
  rw [Layout.state, hroot, List.cons_append, List.drop_succ_cons, List.drop_zero, hstate,
    List.splitOn_append_cons_self, List.all_append, hplain]
  decide +kernel

/-- **The initialization of the settings store.** -/
theorem ends_initSettings (layout : Layout) (pid : ℕ) (hm : H → Healthy m) :
    Ends (SettingsStore.init (some layout.config) pid) m
      (fun r m' => m'.files = m.files ∧ (H → Healthy m') ∧
        (r = .ok (settingsStore layout) ∨
          ∃ status, r = .error status ∧ status.1 ≠ .ok ∧
            (¬ H ∨ SettingsStore.Blocked ((view layout m.files).lookSettings layout pid))))
      fun m' => m'.files = m.files :=
  SettingsStore.ends_init (trimSlashes_config layout) pid hm

/-- **The initialization of the credential store.** -/
theorem ends_initCredentials (h : ValidRoot layout) (hm : H → Healthy m) :
    Ends (CredentialStore.init (some layout.state)) m
      (fun r m' => m'.files = m.files ∧ (H → Healthy m') ∧
        (r = .ok (credentialStore layout) ∨
          ∃ status, r = .error status ∧ status.1 ≠ .ok ∧
            (¬ H ∨ CredentialStore.Blocked ((view layout m.files).lookCredentials layout))))
      fun m' => m'.files = m.files :=
  CredentialStore.ends_init (trimSlashes_state layout) (plainComponents_state h) hm

/-- **The initialization of the identity store.** -/
theorem ends_initIdentity (h : ValidRoot layout) (m : Machine) :
    Ends (DeviceIdentity.init layout) m
      (fun r m' => m'.files = m.files ∧ ∀ store, r = .ok store → store = identityStore layout)
      fun m' => m'.files = m.files := by
  unfold DeviceIdentity.init
  have hcapacity : DeviceIdentity.pathCapacity = StorageLayout.pathCapacity := rfl
  rw [hcapacity, (StorageLayout.path_of_valid h).1]
  dsimp only
  have hinspect : KeepsFiles (DeviceIdentity.inspectConfig layout.config) := by
    unfold DeviceIdentity.inspectConfig
    refine (keepsFiles_query _).bind fun r => ?_
    repeat' first | exact Keeps.pure _ | split
  rw [ends_bind]
  refine (hinspect.ends m).mono ?_ fun _ h => h
  intro result m' hf
  cases result with
  | ok =>
    dsimp only
    by_cases hlong : StorageLayout.pathCapacity ≤ layout.config.length ∨
        StorageLayout.pathCapacity < layout.config.length + (DeviceIdentity.fileSuffix.length + 1)
    · rw [if_pos hlong]
      exact ⟨hf, fun _ he => by cases he⟩
    · rw [if_neg hlong]
      refine ⟨hf, fun store he => ?_⟩
      cases he
      rfl
  | _ => exact ⟨hf, fun _ he => by cases he⟩

end Find

/-! ## What the stores write -/

/-- A path that does not begin with another one differs from all that do. -/
theorem ne_of_not_prefix {root a b : List UInt8} (h : ¬ b <+: a) (rest : List UInt8) :
    root ++ a ≠ root ++ b ++ rest := by
  intro he
  rw [List.append_assoc] at he
  exact h ⟨rest, (List.append_cancel_left he).symm⟩

section Save

variable {layout : Layout}

/-- Where nothing but the entry of one file and temporary files of its name are touched, the rest
of the account stays as it is. -/
theorem untouched {name : List UInt8} {T : Set Path} {p : Path} {files files' : Path → Option Node}
    (hp : p = layout.root ++ name) (hT : ∀ t ∈ T, ∃ rest, t = layout.root ++ name ++ rest)
    (h : ∀ x ∉ T, x ≠ p → files' x = files x) {other : List UInt8} (hother : ¬ name <+: other) :
    files' (layout.root ++ other) = files (layout.root ++ other) := by
  refine h _ (fun hmem => ?_) fun he => ?_
  · obtain ⟨rest, ht⟩ := hT _ hmem
    exact ne_of_not_prefix hother rest ht
  · exact ne_of_not_prefix hother [] (by rw [List.append_nil, ← hp, he])

theorem view_settings {T : Set Path} {files files' : Path → Option Node}
    (hT : ∀ t ∈ T, ∃ rest, t = layout.root ++ ascii "/config/settings.conf" ++ rest)
    (h : ∀ x ∉ T, x ≠ (settingsStore layout).path → files' x = files x) :
    view layout files' = { view layout files with
      settings := files' (settingsStore layout).path } := by
  have hrest := fun other => @untouched layout _ T _ files files' settingsStore_path hT h other
  unfold view
  rw [credentialStore_path, identityStore_path, Layout.config, Layout.state,
    hrest StorageLayout.configSuffix (by decide), hrest StorageLayout.stateSuffix (by decide),
    hrest (ascii "/state/credentials") (by decide), hrest (ascii "/config/device-id") (by decide)]

theorem view_credentials {T : Set Path} {files files' : Path → Option Node}
    (hT : ∀ t ∈ T, ∃ rest, t = layout.root ++ ascii "/state/credentials" ++ rest)
    (h : ∀ x ∉ T, x ≠ (credentialStore layout).path → files' x = files x) :
    view layout files' = { view layout files with
      credentials := files' (credentialStore layout).path } := by
  have hrest := fun other => @untouched layout _ T _ files files' credentialStore_path hT h other
  unfold view
  rw [settingsStore_path, identityStore_path, Layout.config, Layout.state,
    hrest StorageLayout.configSuffix (by decide), hrest StorageLayout.stateSuffix (by decide),
    hrest (ascii "/config/settings.conf") (by decide),
    hrest (ascii "/config/device-id") (by decide)]

theorem view_identity {files files' : Path → Option Node}
    (h : ∀ x ∉ ({(identityStore layout).path} : Set Path), files' x = files x) :
    view layout files' = { view layout files with
      identity := files' (identityStore layout).path } := by
  have hrest := fun other => @untouched layout _ ∅ _ files files' identityStore_path
    (fun t ht => absurd ht (Set.notMem_empty t)) (fun x _ hx => h x hx) other
  unfold view
  rw [settingsStore_path, credentialStore_path, Layout.config, Layout.state,
    hrest StorageLayout.configSuffix (by decide), hrest StorageLayout.stateSuffix (by decide),
    hrest (ascii "/config/settings.conf") (by decide),
    hrest (ascii "/state/credentials") (by decide)]

/-- **A save of the settings replaces the settings file**, or changes nothing. -/
theorem ends_saveSettings (settings : Settings) (pid : ℕ) (m : Machine) :
    Ends (SettingsStore.save (settingsStore layout) settings pid) m
      (fun r m' => (SettingsStore.Visible r ∧
          View.SavedSettings settings (view layout m.files) (view layout m'.files)) ∨
        (¬ SettingsStore.Visible r ∧ view layout m'.files = view layout m.files))
      fun m' => view layout m'.files = view layout m.files ∨
        View.SavedSettings settings (view layout m.files) (view layout m'.files) := by
  -- settings that are refused are not written
  by_cases hvalid : SettingsStore.validate settings = .ok
  swap
  · obtain ⟨status, hnot, he⟩ := @SettingsStore.save_invalid (settingsStore layout) _ pid hvalid
    rw [he]
    exact .inr ⟨hnot, rfl⟩
  cases hdata : SettingsStore.serializeSettings settings with
  | none =>
    obtain ⟨status, hnot, he⟩ :=
      @SettingsStore.save_refused (settingsStore layout) _ pid hdata
    rw [he]
    exact .inr ⟨hnot, rfl⟩
  | some data =>
  have hT : ∀ t ∈ ({SettingsStore.temporaryPath (settingsStore layout).path pid} : Set Path),
      ∃ rest, t = layout.root ++ ascii "/config/settings.conf" ++ rest := by
    rintro t rfl
    rw [SettingsStore.temporaryPath, settingsStore_path, List.append_assoc]
    exact ⟨_, rfl⟩
  have hsaved : ∀ {m' : Machine}, Holds m' (settingsStore layout).path data →
      view layout m'.files = { view layout m.files with
        settings := m'.files (settingsStore layout).path } →
      View.SavedSettings settings (view layout m.files) (view layout m'.files) := by
    rintro m' ⟨ino, hfile⟩ hview
    rw [hfile] at hview
    exact ⟨_, SettingsStore.judge_of_serialize hvalid hdata ino, hview⟩
  have hkept : ∀ {m' : Machine}, m'.files (settingsStore layout).path =
      m.files (settingsStore layout).path →
      view layout m'.files = { view layout m.files with
        settings := m'.files (settingsStore layout).path } →
      view layout m'.files = view layout m.files := by
    intro m' hfile hview
    rw [hfile] at hview
    exact hview
  -- otherwise the file is replaced, and the view follows it
  refine (SettingsStore.save_replaces (settingsStore layout) pid hdata m trivial).mono ?_ ?_
  · rintro r m' ⟨hvisible, hnot, hothers⟩
    have hview := view_settings hT hothers
    by_cases hr : SettingsStore.Visible r
    · exact .inl ⟨hr, hsaved (hvisible hr) hview⟩
    · exact .inr ⟨hr, hkept (hnot hr) hview⟩
  · rintro m' ⟨hfile, hothers⟩
    have hview := view_settings hT hothers
    exact hfile.imp (hkept · hview) (hsaved · hview)

/-- **A save of the credentials replaces the credentials file**, or changes nothing. -/
theorem ends_saveCredentials (credentials : Credentials) (pid : ℕ) (sequence : UInt32)
    (m : Machine) :
    Ends (CredentialStore.save (credentialStore layout) credentials pid sequence) m
      (fun r m' => (CredentialStore.Visible r ∧
          View.SavedCredentials credentials (view layout m.files) (view layout m'.files)) ∨
        (¬ CredentialStore.Visible r ∧ view layout m'.files = view layout m.files))
      fun m' => view layout m'.files = view layout m.files ∨
        View.SavedCredentials credentials (view layout m.files) (view layout m'.files) := by
  cases hdata : CredentialStore.serialize credentials with
  | none =>
    rw [CredentialStore.save_refused hdata]
    exact .inr ⟨by simp [CredentialStore.Visible], rfl⟩
  | some data =>
  have hT : ∀ t ∈ CredentialStore.temporaries (credentialStore layout) pid,
      ∃ rest, t = layout.root ++ ascii "/state/credentials" ++ rest := by
    rintro t ⟨number, rfl⟩
    rw [CredentialStore.Store.temporary, credentialStore_path, List.append_assoc, List.append_assoc,
      List.append_assoc]
    exact ⟨_, rfl⟩
  have hsaved : ∀ {m' : Machine}, Holds m' (credentialStore layout).path data →
      view layout m'.files = { view layout m.files with
        credentials := m'.files (credentialStore layout).path } →
      View.SavedCredentials credentials (view layout m.files) (view layout m'.files) := by
    rintro m' ⟨ino, hfile⟩ hview
    rw [hfile] at hview
    exact ⟨_, CredentialStore.judge_of_serialize hdata ino, hview⟩
  have hkept : ∀ {m' : Machine}, m'.files (credentialStore layout).path =
      m.files (credentialStore layout).path →
      view layout m'.files = { view layout m.files with
        credentials := m'.files (credentialStore layout).path } →
      view layout m'.files = view layout m.files := by
    intro m' hfile hview
    rw [hfile] at hview
    exact hview
  -- the file is replaced or kept, and the view follows it
  refine (CredentialStore.save_replaces (credentialStore layout) pid sequence hdata m trivial).mono
    ?_ ?_
  · rintro r m' ⟨hvisible, hnot, hothers⟩
    have hview := view_credentials hT hothers
    by_cases hr : CredentialStore.Visible r
    · exact .inl ⟨hr, hsaved (hvisible hr) hview⟩
    · exact .inr ⟨hr, hkept (hnot hr) hview⟩
  · rintro m' ⟨hfile, hothers⟩
    have hview := view_credentials hT hothers
    exact hfile.imp (hkept · hview) (hsaved · hview)

/-- **The creation of a device identity changes no other file.** -/
theorem ends_loadOrCreate (entropy : Option (Fin 16 → UInt8)) (m : Machine) :
    Ends (DeviceIdentity.loadOrCreateNow (identityStore layout) entropy) m
      (fun _ m' => ∃ identity, view layout m'.files = { view layout m.files with identity })
      fun m' => ∃ identity, view layout m'.files = { view layout m.files with identity } := by
  unfold DeviceIdentity.loadOrCreateNow
  rw [ends_bind, ends_get]
  refine ((DeviceIdentity.touches_execute _).ends m).mono ?_ ?_
  · intro r m' h
    exact ⟨_, view_identity (others_eq_iff.mp h)⟩
  · intro m' h
    exact ⟨_, view_identity (others_eq_iff.mp h)⟩

end Save

end Account
