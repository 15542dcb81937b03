import CrossNook.Account.AccountFiles

/-!
# The paths of the stores

Each store bounds the paths of its files on its own. The layout reserves room for its own
directories only, so that each store has a longest root of its own.

## Main definitions

* `AccountPaths.prepared`: `cn_storage_layout_init` and `cn_storage_layout_prepare`
* `AccountPaths.StoresFit`: what the stores make of a layout

## Main results

* `AccountPaths.stores_fit`: the roots with which each store can be used
-/

namespace AccountPaths

open Bytes (ascii decimal)
open Crash Posix
open StorageLayout (Layout Status ValidRoot)

/-- The layout of a root, once its directories are there. -/
def prepared (root : Option (List UInt8)) : Sys (Option (Layout × Status)) := do
  match ← StorageLayout.init root with
  | .error _ => return none
  | .ok layout => do
    let status ← StorageLayout.prepare layout
    return some (layout, status)

/-- A program returns `r` on these files, where no call fails on its own. -/
def Yields {α : Type} (p : Sys α) (files : Path → Option Node) (r : α) : Prop :=
  ∀ m : Machine, m.files = files → Healthy m → Ends p m (fun r' _ => r' = r) fun _ => True

/-- What the stores make of a layout in the process `pid`: each is initialized and has room for its
paths, or refuses the layout as too long. -/
structure StoresFit (layout : Layout) (pid : ℕ) (files : Path → Option Node) : Prop where
  settings : layout.root.length + (decimal pid).length ≤ 4069 →
    Yields (SettingsStore.init (some layout.config) pid) files (.ok (Account.settingsStore layout)) ∧
      (Account.settingsStore layout).path.length < SettingsStore.pathCapacity ∧
      (SettingsStore.temporaryPath (Account.settingsStore layout).path pid).length <
        SettingsStore.pathCapacity
  settingsTooLong : 4069 < layout.root.length + (decimal pid).length →
    Yields (SettingsStore.init (some layout.config) pid) files (.error (.pathTooLong, none))
  credentials : layout.root.length ≤ 4041 →
    Yields (CredentialStore.init (some layout.state)) files (.ok (Account.credentialStore layout)) ∧
      (Account.credentialStore layout).path.length < CredentialStore.pathCapacity ∧
      ∀ sequence, ((Account.credentialStore layout).temporary pid sequence).length <
        CredentialStore.pathCapacity
  credentialsTooLong : 4041 < layout.root.length →
    Yields (CredentialStore.init (some layout.state)) files (.error (.pathTooLong, none))
  identity : layout.root.length ≤ 4078 →
    Yields (DeviceIdentity.init layout) files (.ok (Account.identityStore layout)) ∧
      (Account.identityStore layout).path.length < DeviceIdentity.pathCapacity
  identityTooLong : 4078 < layout.root.length →
    Yields (DeviceIdentity.init layout) files (.error .pathTooLong)

/-! ## How many calls it takes -/

section Finishes

/-- A call that takes one answer only. -/
theorem finishes_syscall {α : Type} {act : ℕ → Machine → Except Errno α × Machine}
    (h : ∀ amount m, (act amount m).2.script = m.script) : Finishes 1 (syscall act) := by
  intro m hm hlen
  obtain ⟨amount, script, hs, hm', he⟩ := syscall_of_healthy act hm hlen
  have hscript := h amount { m with script }
  refine ⟨_, _, he, fun fate hf => hm' fate (hscript ▸ hf), ?_⟩
  rw [hs, hscript, List.length_cons]

theorem finishes_mkdir (p : Path) : Finishes 1 (mkdir p) := by
  unfold mkdir
  refine finishes_syscall fun _ m => ?_
  split <;> rfl

theorem finishes_inspectDirectory (path : Path) (missingIsOk : Bool) :
    Finishes 1 (StorageLayout.inspectDirectory path missingIsOk) := by
  refine Finishes.bind (k := 0) (finishes_query _) fun r => ?_
  cases r with
  | error e => exact .pure _
  | ok st =>
    dsimp only
    split <;> exact .pure _

theorem finishes_ensureDirectory (layout : Layout) (suffix : List UInt8) :
    Finishes 3 (StorageLayout.ensureDirectory layout suffix) := by
  unfold StorageLayout.ensureDirectory
  split
  · exact .pure _
  rename_i path _
  refine Finishes.bind (j := 1) (k := 2) (finishes_inspectDirectory path true) fun status => .ite (.pure _) ?_
  refine Finishes.bind (j := 1) (k := 1) (finishes_mkdir path) fun r => ?_
  cases r with
  | ok => exact .pure _
  | error e => exact .ite (.pure _) (finishes_inspectDirectory path false)

theorem finishes_prepare (layout : Layout) : Finishes 9 (StorageLayout.prepare layout) := by
  unfold StorageLayout.prepare
  refine .ite (.pure _) (Finishes.bind (j := 3) (k := 6) (finishes_ensureDirectory _ _) fun s => ?_)
  refine .ite (.pure _) (Finishes.bind (j := 3) (k := 3) (finishes_ensureDirectory _ _) fun s => ?_)
  exact .ite (.pure _) (finishes_ensureDirectory _ _)

theorem finishes_init (root : Option (List UInt8)) : Finishes 1 (StorageLayout.init root) := by
  unfold StorageLayout.init
  split
  · exact .pure _
  split
  · exact .pure _
  refine .ite (.pure _) (.ite (.pure _) ?_)
  refine Finishes.bind (k := 0) (finishes_inspectDirectory _ false) fun status => ?_
  split <;> exact .pure _

/-- **A layout is prepared** within ten calls. -/
theorem finishes_prepared (root : Option (List UInt8)) : Finishes 10 (prepared root) := by
  refine Finishes.bind (j := 1) (k := 9) (finishes_init root) fun r => ?_
  cases r with
  | error e => exact .pure _
  | ok layout => exact Finishes.bind (k := 0) (finishes_prepare layout) fun status => .pure _

end Finishes

section Fit

variable {layout : Layout} {pid : ℕ} {files : Path → Option Node}

theorem length_config : layout.config.length = layout.root.length + 7 := by
  rw [Layout.config, List.length_append]
  rfl

theorem length_state : layout.state.length = layout.root.length + 6 := by
  rw [Layout.state, List.length_append]
  rfl

theorem head_append (h : ValidRoot layout) (suffix : List UInt8) :
    (layout.root ++ suffix).head? = some 0x2f := by
  rw [List.head?_append, h.head]
  rfl

theorem length_settingsPath :
    (Account.settingsStore layout).path.length = layout.root.length + 21 := by
  rw [Account.settingsStore_path, List.length_append]
  rfl

theorem length_temporaryPath :
    (SettingsStore.temporaryPath (Account.settingsStore layout).path pid).length =
      layout.root.length + 26 + (decimal pid).length := by
  have hmark : (ascii ".tmp.").length = 5 := rfl
  rw [SettingsStore.temporaryPath, List.length_append, List.length_append, length_settingsPath, hmark]

theorem length_decimal_le {n k : ℕ} (hk : 0 < k) (h : n < 10 ^ k) : (decimal n).length ≤ k := by
  rw [decimal, List.length_map]
  exact (Nat.length_toDigits_le_iff (by decide) hk).mpr h

theorem buildPaths_eq (h : ValidRoot layout) :
    SettingsStore.buildPaths (Account.settingsStore layout) pid =
      if layout.root.length + (decimal pid).length ≤ 4069 then
        .ok ((Account.settingsStore layout).path,
          SettingsStore.temporaryPath (Account.settingsStore layout).path pid)
      else .error .pathTooLong := by
  have hle := h.le
  have hconfig : layout.config.length = layout.root.length + 7 := length_config
  have hvalid : SettingsStore.storeValid (Account.settingsStore layout) = true := by
    unfold SettingsStore.storeValid SettingsStore.boundedLength Account.settingsStore
      SettingsStore.pathCapacity
    dsimp only
    rw [if_neg (by omega)]
    exact decide_eq_true ⟨by omega, head_append h _⟩
  unfold SettingsStore.buildPaths SettingsStore.pathCapacity
  rw [if_neg (not_not.mpr hvalid), length_settingsPath, length_temporaryPath]
  split_ifs <;> first | rfl | omega

/-- A healthy inspection of a directory. -/
theorem yields_lstat {p : Path} {node : Node} (hfile : files p = some node) :
    Yields (lstat p) files (.ok node) := by
  rintro m rfl hm
  refine (show Ends (lstat p) m _ _ from ends_query fun _ : True => hm).mono ?_ fun _ _ => trivial
  rintro r m' ⟨-, -, rfl | ⟨hnot, -⟩⟩
  · rw [hfile]
  · exact absurd trivial hnot

theorem yields_pure {α : Type} (r : α) : Yields (pure r : Sys α) files r := fun _ _ _ => rfl

/-- A program that ends with an inspection. -/
theorem yields_bind_lstat {α : Type} {p : Path} {node : Node} (hfile : files p = some node)
    {f : Except Errno Node → Sys α} {r : α} (h : f (.ok node) = pure r) :
    Yields (lstat p >>= f) files r := by
  intro m hm hhealthy
  rw [ends_bind]
  refine (yields_lstat hfile m hm hhealthy).mono ?_ fun _ _ => trivial
  rintro _ m' rfl
  rw [h]
  rfl

theorem init_settings_eq (h : ValidRoot layout) :
    SettingsStore.init (some layout.config) pid =
      if layout.root.length + (decimal pid).length ≤ 4069 then do
        match ← SettingsStore.inspectConfigDirectory (Account.settingsStore layout) with
        | (.ok, _) => return .ok (Account.settingsStore layout)
        | status => return .error status
      else pure (.error (.pathTooLong, none)) := by
  have hle := h.le
  have hconfig : layout.config.length = layout.root.length + 7 := length_config
  have hhead : ¬ (layout.config.length = 0 ∨ layout.config.head? ≠ some 0x2f) := by
    rw [not_or, not_not]
    exact ⟨by omega, head_append h _⟩
  unfold SettingsStore.init SettingsStore.boundedLength SettingsStore.pathCapacity
  dsimp only
  rw [if_neg hhead, if_neg (by omega), Account.trimSlashes_config]
  have hstore : (⟨layout.config, layout.config.length⟩ : SettingsStore.Store) =
      Account.settingsStore layout := rfl
  rw [hstore, buildPaths_eq h]
  split_ifs <;> rfl

theorem yields_settings (h : ValidRoot layout)
    (hdirectory : (files layout.config).map Node.kind = some .directory) :
    Yields (SettingsStore.init (some layout.config) pid) files
      (if layout.root.length + (decimal pid).length ≤ 4069 then .ok (Account.settingsStore layout)
      else .error (.pathTooLong, none)) := by
  obtain ⟨node, hnode, hkind⟩ := Option.map_eq_some_iff.mp hdirectory
  rw [init_settings_eq h]
  by_cases hlong : layout.root.length + (decimal pid).length ≤ 4069
  swap
  · rw [if_neg hlong, if_neg hlong]
    exact yields_pure _
  rw [if_pos hlong, if_pos hlong]
  intro m hm hhealthy
  rw [ends_bind]
  refine (show Yields (SettingsStore.inspectConfigDirectory _) files (.ok, none) from
    yields_bind_lstat hnode ?_) m hm hhealthy |>.mono ?_ fun _ _ => trivial
  · dsimp only
    rw [hkind]
  · rintro _ m' rfl
    exact rfl

theorem init_settings_tooLong (h : ValidRoot layout)
    (hlong : 4069 < layout.root.length + (decimal pid).length) :
    SettingsStore.init (some layout.config) pid = pure (.error (.pathTooLong, none)) := by
  rw [init_settings_eq h, if_neg (by omega)]

theorem length_credentialsPath :
    (Account.credentialStore layout).path.length = layout.root.length + 18 := by
  rw [Account.credentialStore_path, List.length_append]
  rfl

theorem length_temporary_le (hpid : pid < 2 ^ 63) (sequence : UInt32) :
    ((Account.credentialStore layout).temporary pid sequence).length ≤ layout.root.length + 53 := by
  have hmark : (ascii ".tmp.").length = 5 := rfl
  have hdot : (ascii ".").length = 1 := rfl
  have hdigits := length_decimal_le (k := 19) (by decide) (hpid.trans (by decide))
  have hsequence := length_decimal_le (k := 10) (by decide)
    (sequence.toNat_lt.trans (by decide : 2 ^ 32 < 10 ^ 10))
  rw [CredentialStore.Store.temporary, List.length_append, List.length_append, List.length_append,
    List.length_append, length_credentialsPath, hmark, hdot]
  omega

theorem yields_credentials (h : ValidRoot layout)
    (hdirectory : (files layout.state).map Node.kind = some .directory) :
    Yields (CredentialStore.init (some layout.state)) files
      (if layout.root.length ≤ 4041 then .ok (Account.credentialStore layout)
      else .error (.pathTooLong, none)) := by
  have hle := h.le
  have hone := h.one_lt
  have hstate : layout.state.length = layout.root.length + 6 := length_state
  obtain ⟨node, hnode, hkind⟩ := Option.map_eq_some_iff.mp hdirectory
  unfold CredentialStore.init CredentialStore.boundedLength CredentialStore.pathCapacity
  dsimp only [Option.getD_some]
  by_cases hlong : layout.root.length ≤ 4041
  swap
  · rw [if_pos (by omega), if_neg hlong]
    exact yields_pure _
  have hhead : ¬ (min layout.state.length 4096 < 2 ∨ layout.state.head? ≠ some 0x2f) := by
    rw [not_or, not_not]
    exact ⟨by omega, head_append h _⟩
  rw [if_neg (by omega), if_neg hhead, Account.trimSlashes_state,
    if_neg (not_not.mpr (Account.plainComponents_state h)), if_pos hlong]
  intro m hm hhealthy
  rw [ends_bind]
  refine (show Yields (CredentialStore.inspectDirectory _) files (.ok, none) from
    yields_bind_lstat hnode ?_) m hm hhealthy |>.mono ?_ fun _ _ => trivial
  · dsimp only
    rw [hkind]
  · rintro _ m' rfl
    exact rfl

theorem yields_identity (h : ValidRoot layout)
    (hdirectory : (files layout.config).map Node.kind = some .directory) :
    Yields (DeviceIdentity.init layout) files
      (if layout.root.length ≤ 4078 then .ok (Account.identityStore layout)
      else .error .pathTooLong) := by
  have hle := h.le
  have hsuffix : DeviceIdentity.fileSuffix.length = 10 := rfl
  have hconfig : layout.config.length = layout.root.length + 7 := length_config
  obtain ⟨node, hnode, hkind⟩ := Option.map_eq_some_iff.mp hdirectory
  unfold DeviceIdentity.init
  rw [show DeviceIdentity.pathCapacity = StorageLayout.pathCapacity from rfl,
    (StorageLayout.path_of_valid h).1]
  intro m hm hhealthy
  dsimp only
  rw [ends_bind]
  refine (show Yields (DeviceIdentity.inspectConfig _) files .ok from
    yields_bind_lstat hnode ?_) m hm hhealthy |>.mono ?_ fun _ _ => trivial
  · dsimp only
    rw [hkind]
  · rintro _ m' rfl
    dsimp only
    have hcap : StorageLayout.pathCapacity = 4096 := rfl
    by_cases hlong : layout.root.length ≤ 4078
    · rw [if_pos hlong, if_neg (by omega)]
      exact rfl
    · rw [if_neg hlong, if_pos (by omega)]
      exact rfl

/-- **What the stores make of a layout that is prepared**, as it is after ten calls at most. -/
theorem stores_fit (root : Option (List UInt8)) (m : Machine) :
    Finishes 10 (prepared root) ∧
    Ends (prepared root) m
      (fun r m' => ∀ layout e, r = some (layout, .ok, e) → ∀ pid < 2 ^ 63,
        StoresFit layout pid m'.files)
      fun _ => True := by
  refine ⟨finishes_prepared root, ?_⟩
  unfold prepared
  rw [ends_bind]
  refine (StorageLayout.ends_init root).mono ?_ fun _ _ => trivial
  rintro r m₁ ⟨-, hvalid⟩
  cases r with
  | error status => exact fun _ _ h => by cases h
  | ok layout =>
  dsimp only
  rw [ends_bind]
  refine (StorageLayout.ends_prepare layout).mono ?_ fun _ _ => trivial
  rintro status m₂ hprepared layout' e h pid hpid
  obtain ⟨rfl, rfl⟩ := Prod.mk.inj (Option.some.inj h)
  -- the directories are there, so only the lengths of the paths decide
  obtain ⟨hroot, hconfig, hstate⟩ := hprepared rfl
  have hsettings : Yields (SettingsStore.init (some layout.config) pid) m₂.files _ :=
    yields_settings hroot hconfig
  have hcredentials := yields_credentials hroot hstate
  have hidentity := yields_identity hroot hconfig
  constructor
  · intro hlen
    rw [if_pos hlen] at hsettings
    rw [length_settingsPath, length_temporaryPath, SettingsStore.pathCapacity]
    exact ⟨hsettings, by omega, by omega⟩
  · intro hlen
    rwa [if_neg (by omega)] at hsettings
  · intro hlen
    rw [if_pos hlen] at hcredentials
    rw [length_credentialsPath, CredentialStore.pathCapacity]
    refine ⟨hcredentials, by omega, fun sequence => ?_⟩
    have htemporary : ((Account.credentialStore layout).temporary pid sequence).length ≤ _ :=
      length_temporary_le hpid sequence
    omega
  · intro hlen
    rwa [if_neg (by omega)] at hcredentials
  · intro hlen
    have hpath : (Account.identityStore layout).path.length = layout.root.length + 17 := by
      rw [Account.identityStore_path, List.length_append]
      rfl
    rw [if_pos hlen] at hidentity
    rw [hpath, DeviceIdentity.pathCapacity]
    exact ⟨hidentity, by omega⟩
  · intro hlen
    rwa [if_neg (by omega)] at hidentity

end Fit

/-! ## A root of the greatest length -/

section Fresh

variable {layout : Layout} {files : Path → Option Node} {script : List Fate} {n : ℕ}

theorem inspectDirectory_found {p : Path} {b : Bool}
    (h : files p = some ⟨1, .directory⟩) :
    StorageLayout.inspectDirectory p b ⟨files, .succeed 0 :: script, n⟩ =
      (some (.ok, none), ⟨files, script, n⟩) := by
  refine (bind_of_eq (show lstat p _ = (some (.ok ⟨1, .directory⟩), ⟨files, script, n⟩) from ?_)).trans
    rfl
  simp only [lstat, query, syscall, h]

theorem ensureDirectory_missing (h : ValidRoot layout) {suffix : List UInt8}
    (hs : suffix.length ≤ 15) (hmissing : files (layout.root ++ suffix) = none) :
    StorageLayout.ensureDirectory layout suffix ⟨files, .succeed 0 :: .succeed 0 :: script, n⟩ =
      (some (.ok, none), ⟨Function.update files (layout.root ++ suffix) (some ⟨n, .directory⟩),
        script, n + 1⟩) := by
  have hinspect : StorageLayout.inspectDirectory (layout.root ++ suffix) true
      ⟨files, .succeed 0 :: .succeed 0 :: script, n⟩ =
      (some (.notFound, none), ⟨files, .succeed 0 :: script, n⟩) := by
    refine (bind_of_eq (show lstat (layout.root ++ suffix) _ =
      (some (.error .ENOENT), ⟨files, .succeed 0 :: script, n⟩) from ?_)).trans rfl
    simp only [lstat, query, syscall, hmissing]
  have hmkdir : mkdir (layout.root ++ suffix) ⟨files, .succeed 0 :: script, n⟩ =
      (some (.ok ()), ⟨Function.update files (layout.root ++ suffix) (some ⟨n, .directory⟩), script,
        n + 1⟩) := by
    simp only [mkdir, syscall, hmissing, Machine.set]
  unfold StorageLayout.ensureDirectory
  rw [StorageLayout.buildPath_of_valid h hs]
  dsimp only
  rw [bind_of_eq hinspect, if_neg (not_not.mpr rfl), bind_of_eq hmkdir]
  rfl

/-- A file system with nothing but a root. -/
def freshRoot (root : Path) : Machine where
  files path := if path = root then some ⟨1, .directory⟩ else none
  script := List.replicate 7 (.succeed 0)
  fresh := 2

/-- The layout of a valid root is prepared where nothing is below the root. -/
theorem prepared_freshRoot (h : ValidRoot layout) :
    (prepared (some layout.root) (freshRoot layout.root)).1 = some (some (layout, .ok, none)) := by
  have hle := h.le
  have hone := h.one_lt
  have hlength := h.length_eq
  have htrim : StorageLayout.trimSlashes layout.root = layout.root := by
    have hroot : layout.root ≠ [] := List.ne_nil_of_length_pos (Nat.zero_lt_of_lt hone)
    have hlast := h.last
    rw [List.getLast?_eq_some_getLast hroot] at hlast
    have hsame : StorageLayout.trimSlashes layout.root =
        SettingsStore.trimSlashes layout.root := by
      cases layout.root <;> rfl
    exact hsame.trans (Account.trimSlashes_eq (fun h0 => hlast (congrArg some h0)) hone
      (List.getLast?_eq_some_getLast hroot))
  -- the root is inspected, and found
  have hinit : StorageLayout.init (some layout.root) (freshRoot layout.root) =
      (some (.ok layout), { freshRoot layout.root with script := List.replicate 6 (.succeed 0) }) := by
    have hlayout : (⟨layout.root, layout.root.length⟩ : Layout) = layout := by rw [← hlength]
    unfold StorageLayout.init StorageLayout.boundedLength StorageLayout.pathCapacity
    dsimp only
    rw [if_neg (by omega)]
    dsimp only
    have hhead : ¬ (layout.root.length = 0 ∨ layout.root.head? ≠ some 0x2f) := by
      rw [not_or, not_not]
      exact ⟨by omega, h.head⟩
    have hinspect : StorageLayout.inspectDirectory layout.root false (freshRoot layout.root) =
        (some (.ok, none), { freshRoot layout.root with script := List.replicate 6 (.succeed 0) }) :=
      inspectDirectory_found (if_pos rfl)
    rw [if_neg hhead, htrim, if_neg (not_not.mpr h.validate)]
    refine (bind_of_eq hinspect).trans ?_
    rw [hlayout]
    rfl
  -- below it there is nothing, and each directory that is made leaves the others out
  have hempty : ∀ suffix, suffix ≠ [] → (freshRoot layout.root).files (layout.root ++ suffix) = none := by
    intro suffix hsuffix
    refine if_neg fun he => hsuffix ?_
    exact List.append_cancel_left (he.trans (List.append_nil _).symm)
  have hother : ∀ {files : Path → Option Node} {suffix suffix' : List UInt8} {node : Option Node},
      suffix ≠ suffix' → Function.update files (layout.root ++ suffix') node (layout.root ++ suffix) =
        files (layout.root ++ suffix) :=
    fun hsuffix => Function.update_of_ne (fun he => hsuffix (List.append_cancel_left he)) _ _
  have hstate : ∀ script, StorageLayout.ensureDirectory layout StorageLayout.stateSuffix
      ⟨(freshRoot layout.root).files, .succeed 0 :: .succeed 0 :: script, 2⟩ = _ := fun script =>
    ensureDirectory_missing h (by decide) (hempty _ (by decide))
  have hprogress : ∀ script, StorageLayout.ensureDirectory layout StorageLayout.progressSuffix
      ⟨Function.update (freshRoot layout.root).files (layout.root ++ StorageLayout.stateSuffix)
        (some ⟨2, .directory⟩), .succeed 0 :: .succeed 0 :: script, 3⟩ = _ := fun script =>
    ensureDirectory_missing h (by decide) ((hother (by decide)).trans (hempty _ (by decide)))
  have hconfig : ∀ script, StorageLayout.ensureDirectory layout StorageLayout.configSuffix
      ⟨Function.update (Function.update (freshRoot layout.root).files
        (layout.root ++ StorageLayout.stateSuffix) (some ⟨2, .directory⟩))
        (layout.root ++ StorageLayout.progressSuffix) (some ⟨3, .directory⟩),
        .succeed 0 :: .succeed 0 :: script, 4⟩ = _ := fun script =>
    ensureDirectory_missing h (by decide)
      ((hother (by decide)).trans ((hother (by decide)).trans (hempty _ (by decide))))
  have hprepare : (StorageLayout.prepare layout
      { freshRoot layout.root with script := List.replicate 6 (.succeed 0) }).1 = some (.ok, none) := by
    unfold StorageLayout.prepare
    rw [if_neg (not_not.mpr (StorageLayout.layoutValid_iff.mpr h))]
    refine (congrArg Prod.fst (bind_of_eq (hstate _))).trans ?_
    rw [if_neg (not_not.mpr rfl)]
    refine (congrArg Prod.fst (bind_of_eq (hprogress _))).trans ?_
    rw [if_neg (not_not.mpr rfl)]
    exact congrArg Prod.fst (hconfig [])
  unfold prepared
  rw [bind_of_eq hinit]
  dsimp only
  rcases hrun : StorageLayout.prepare layout
    { freshRoot layout.root with script := List.replicate 6 (.succeed 0) } with ⟨status, m⟩
  rw [hrun] at hprepare
  obtain rfl : status = some (.ok, none) := hprepare
  exact congrArg Prod.fst (bind_of_eq hrun)

end Fresh

/-- The name of a directory. -/
def segment : List UInt8 := List.replicate 254 0x61

/-- A root with `n` directories above it. -/
def longRoot : ℕ → Path
  | 0 => 0x2f :: segment
  | n + 1 => longRoot n ++ 0x2f :: segment

theorem length_longRoot (n : ℕ) : (longRoot n).length = 255 * (n + 1) := by
  have hsegment : segment.length = 254 := List.length_replicate
  induction n with
  | zero => rw [longRoot, List.length_cons, hsegment]
  | succ n ih =>
    rw [longRoot, List.length_append, ih, List.length_cons, hsegment]
    ring

theorem head_longRoot (n : ℕ) : (longRoot n).head? = some 0x2f := by
  induction n with
  | zero => rfl
  | succ n ih =>
    rw [longRoot, List.head?_append, ih]
    rfl

theorem plainComponents_longRoot (n : ℕ) : plainComponents (longRoot n) = true := by
  induction n with
  | zero => decide +kernel
  | succ n ih =>
    obtain ⟨rest, hrest⟩ := List.head?_eq_some_iff.mp (head_longRoot n)
    unfold plainComponents at ih ⊢
    rw [hrest, List.drop_succ_cons, List.drop_zero] at ih
    rw [longRoot, hrest, List.cons_append, List.drop_succ_cons, List.drop_zero,
      List.splitOn_append_cons_self, List.all_append, ih]
    decide +kernel

theorem validRoot_longRoot {n : ℕ} (h : n ≤ 15) : ValidRoot ⟨longRoot n, 255 * (n + 1)⟩ := by
  refine ⟨(length_longRoot n).symm, ?_, head_longRoot n, ?_, plainComponents_longRoot n, ?_⟩
  · rw [length_longRoot]
    omega
  · have hlast : (longRoot n).getLast? = some 0x61 := by
      cases n with
      | zero => decide +kernel
      | succ n =>
        have hsegment : (0x2f :: segment).getLast? = some 0x61 := by decide +kernel
        rw [longRoot, List.getLast?_append, hsegment]
        rfl
    rw [hlast]
    decide
  · rw [length_longRoot]
    omega

/-- A layout of the greatest length. -/
def longestLayout : Layout := ⟨longRoot 15, 255 * 16⟩

/-- The layout accepts a root that the settings store refuses. -/
theorem longest_root_refused :
    (prepared (some longestLayout.root) (freshRoot longestLayout.root)).1 =
        some (some (longestLayout, .ok, none)) ∧
      ∀ pid, SettingsStore.init (some longestLayout.config) pid =
        pure (.error (.pathTooLong, none)) := by
  have h : ValidRoot longestLayout := validRoot_longRoot le_rfl
  refine ⟨prepared_freshRoot h, fun pid => init_settings_tooLong h ?_⟩
  rw [longestLayout, length_longRoot]
  omega

end AccountPaths
