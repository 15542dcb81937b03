import CrossNook.System.Replace
import CrossNook.Text.Lines
import CrossNook.Text.Utf8
import Mathlib.Data.List.DropRight

/-!
# The settings store

Bounded persistence of the application settings (`settings/settings_store.c`): the checks, the
file format, and the load and save of the one settings file. A C string in an array is the list of
the bytes before its terminator; an array without one is a list that fills it.

## Main definitions

* `Settings`: `cn_settings`
* `SettingsStore.validate`: `cn_settings_validate`
* `SettingsStore.serializeSettings`, `SettingsStore.parseSettings`: the file format
* `SettingsStore.load`, `SettingsStore.save`: `cn_settings_load`, `cn_settings_save`

## Main results

* `SettingsStore.parseSettings_serializeSettings`, `SettingsStore.serializeSettings_of_parseSettings`:
  the format round trips
* `SettingsStore.save_atomic`: a save replaces the file atomically
* `SettingsStore.ends_load`: what a load returns
-/

/-- `cn_settings`. -/
structure Settings where
  kosyncEnabled : ℤ
  kosyncBaseUrl : List UInt8
  kosyncDeviceName : List UInt8
  deriving DecidableEq, Repr

namespace SettingsStore

open Bytes Crash Posix

/-- `CN_SETTINGS_PATH_CAPACITY`. -/
def pathCapacity : ℕ := 4096

/-- `CN_SETTINGS_KOSYNC_URL_CAPACITY`. -/
def kosyncUrlCapacity : ℕ := 1297

/-- `CN_SETTINGS_DEVICE_NAME_CAPACITY`. -/
def deviceNameCapacity : ℕ := 256

/-- `CN_SETTINGS_FILE_MAX_BYTES`. -/
def fileMaxBytes : ℕ := 2048

/-- `CN_SETTINGS_FORMAT_VERSION`. -/
def formatVersion : ℕ := 1

/-- `SETTINGS_FILE_NAME`. -/
def settingsFileName : List UInt8 := ascii "settings.conf"

/-- `cn_settings_result`. -/
inductive Result
  | ok
  | missing
  | invalidArgument
  | invalidSettings
  | corrupt
  | unsupportedVersion
  | pathTooLong
  | notFound
  | notDirectory
  | symlink
  | nonRegular
  | permissionDenied
  | readOnly
  | noSpace
  | ioError
  | durabilityUncertain
  deriving DecidableEq, Repr

/-- A result with the value left in `system_errno`. -/
abbrev Status : Type := Result × Option Errno

/-- `filesystem_error`. -/
def filesystemError : Errno → Result
  | .ENOENT => .notFound
  | .ENOTDIR => .notDirectory
  | .ELOOP => .symlink
  | .EACCES => .permissionDenied
  | .EPERM => .permissionDenied
  | .EROFS => .readOnly
  | .ENOSPC => .noSpace
  | .EDQUOT => .noSpace
  | .ENAMETOOLONG => .pathTooLong
  | _ => .ioError

/-- The status after a failed system call. -/
def failure (e : Errno) : Status := (filesystemError e, some e)

/-! ## Checks -/

/-- `bounded_length`. -/
def boundedLength (text : Option (List UInt8)) (capacity : ℕ) : ℕ :=
  match text with
  | none => capacity
  | some text => min text.length capacity

/-- The first byte of a character: the bits it contributes, the number of bytes that follow and
the least value the character may have. -/
def deviceNameLead (first : UInt8) : Option (ℕ × ℕ × ℕ) :=
  if first < 0x80 then some (first.toNat, 0, 0)
  else if first &&& 0xe0 = 0xc0 then some (first.toNat &&& 0x1f, 1, 0x80)
  else if first &&& 0xf0 = 0xe0 then some (first.toNat &&& 0x0f, 2, 0x800)
  else if first &&& 0xf8 = 0xf0 then some (first.toNat &&& 0x07, 3, 0x10000)
  else none

/-- The inner loop of `utf8_device_name_valid` over the continuation bytes. -/
def deviceNameTail : ℕ → ℕ → List UInt8 → Option (ℕ × List UInt8)
  | 0, codepoint, text => some (codepoint, text)
  | _ + 1, _, [] => none
  | remaining + 1, codepoint, continuation :: text =>
    if continuation &&& 0xc0 ≠ 0x80 then none
    else deviceNameTail remaining (codepoint <<< 6 ||| (continuation.toNat &&& 0x3f)) text

/-- One turn of the outer loop of `utf8_device_name_valid`. -/
def deviceNameStep : List UInt8 → Option (List UInt8)
  | [] => none
  | first :: text =>
    match deviceNameLead first with
    | none => none
    | some (codepoint, remaining, minimum) =>
      if text.length < remaining then none
      else
        match deviceNameTail remaining codepoint text with
        | none => none
        | some (codepoint, text) =>
          if codepoint < minimum ∨ 0x10ffff < codepoint ∨
              (0xd800 ≤ codepoint ∧ codepoint ≤ 0xdfff) ∨ codepoint < 0x20 ∨
              (0x7f ≤ codepoint ∧ codepoint ≤ 0x9f) then none
          else some text

/-- `utf8_device_name_valid`. -/
def utf8DeviceNameValid (text : List UInt8) : Bool :=
  Utf8.validates deviceNameStep text.length text

/-- `decimal_port_valid`. -/
def decimalPortValid (text : List UInt8) : Bool :=
  if text = [] ∨ 5 < text.length then false
  else if ¬ text.all fun c => IsDigit c then false
  else 0 < natOfDigits text ∧ natOfDigits text ≤ 65535

/-- A byte that `base_url_valid` admits. -/
abbrev UrlByte (byte : UInt8) : Prop :=
  0x21 ≤ byte ∧ byte ≤ 0x7e ∧ byte ≠ 0x40 ∧ byte ≠ 0x3f ∧ byte ≠ 0x23 ∧ byte ≠ 0x5c

/-- `base_url_valid`. -/
def baseUrlValid (url : List UInt8) : Bool :=
  if url.length < 9 ∨ url.take 8 ≠ ascii "https://" then false
  else if ¬ url.all fun byte => UrlByte byte then false
  else
    let authority := scan (fun c => c ≠ 0x2f) (url.drop 8)
    let path := skip (fun c => c ≠ 0x2f) (url.drop 8)
    if 1 < authority.count 0x3a then false
    else
      let host := scan (fun c => c ≠ 0x3a) authority
      if host.length = 0 ∨ 255 < host.length then false
      else
        match skip (fun c => c ≠ 0x3a) authority with
        | [] => path.length ≤ 1024
        | _ :: port => if ¬ decimalPortValid port then false else path.length ≤ 1024

/-- `cn_settings_defaults`. -/
def defaults : Settings where
  kosyncEnabled := 0
  kosyncBaseUrl := []
  kosyncDeviceName := ascii "CrossNook"

/-- `cn_settings_validate`. -/
def validate (settings : Settings) : Result :=
  if settings.kosyncEnabled ≠ 0 ∧ settings.kosyncEnabled ≠ 1 then .invalidSettings
  else
    let urlLength := boundedLength (some settings.kosyncBaseUrl) kosyncUrlCapacity
    let deviceLength := boundedLength (some settings.kosyncDeviceName) deviceNameCapacity
    if kosyncUrlCapacity ≤ urlLength ∨ deviceLength = 0 ∨ deviceNameCapacity ≤ deviceLength ∨
        ¬ utf8DeviceNameValid (settings.kosyncDeviceName.take deviceLength) then .invalidSettings
    else if urlLength = 0 then
      if settings.kosyncEnabled ≠ 0 then .invalidSettings else .ok
    else if baseUrlValid (settings.kosyncBaseUrl.take urlLength) then .ok
    else .invalidSettings

/-! ## Paths -/

/-- `cn_settings_store`. -/
structure Store where
  configDirectory : List UInt8
  configDirectoryLength : ℕ

/-- `store_valid`. -/
def storeValid (store : Store) : Bool :=
  if store.configDirectoryLength = 0 ∨ pathCapacity ≤ store.configDirectoryLength then false
  else
    boundedLength (some store.configDirectory) pathCapacity = store.configDirectoryLength ∧
      store.configDirectory.head? = some 0x2f

/-- `inspect_config_directory`. -/
def inspectConfigDirectory (store : Store) : Sys Status := do
  match ← lstat store.configDirectory with
  | .error e => return failure e
  | .ok st =>
    match st.kind with
    | .symlink _ => return (.symlink, none)
    | .directory => return (.ok, none)
    | _ => return (.notDirectory, none)

/-- The path of the settings file. -/
def Store.path (store : Store) : Path :=
  store.configDirectory ++ (if store.configDirectoryLength = 1 then [] else [0x2f]) ++
    settingsFileName

/-- The path of the temporary file. -/
def temporaryPath (path : Path) (pid : ℕ) : Path := path ++ ascii ".tmp." ++ decimal pid

/-- `build_paths` in the process `pid`. -/
def buildPaths (store : Store) (pid : ℕ) : Except Result (Path × Path) :=
  if ¬ storeValid store then .error .invalidArgument
  else if pathCapacity ≤ store.path.length then .error .pathTooLong
  else if pathCapacity ≤ (temporaryPath store.path pid).length then .error .pathTooLong
  else .ok (store.path, temporaryPath store.path pid)

/-- The loop that drops trailing slashes, but not the first byte. -/
def trimSlashes : List UInt8 → List UInt8
  | [] => []
  | c :: text => c :: text.rdropWhile fun d => d = 0x2f

/-- `cn_settings_store_init` in the process `pid`. -/
def init (configDirectory : Option (List UInt8)) (pid : ℕ) : Sys (Except Status Store) :=
  match configDirectory with
  | none => return .error (.invalidArgument, none)
  | some directory =>
    if directory.length = 0 ∨ directory.head? ≠ some 0x2f then
      return .error (.invalidArgument, none)
    else if pathCapacity ≤ boundedLength (some directory) pathCapacity then
      return .error (.pathTooLong, none)
    else
      let candidate : Store := ⟨trimSlashes directory, (trimSlashes directory).length⟩
      -- the paths are built only to see that they fit
      match buildPaths candidate pid with
      | .error result => return .error (result, none)
      | .ok _ => do
        match ← inspectConfigDirectory candidate with
        | (.ok, _) => return .ok candidate
        | status => return .error status

/-! ## The file format -/

/-- `parse_version`. -/
def parseVersion (value : List UInt8) : Option ℕ :=
  if value.length = 0 ∨ (1 < value.length ∧ value.head? = some 0x30) then none
  else if ¬ value.all fun c => IsDigit c then none
  else some (if value = [0x31] then formatVersion else formatVersion + 1)

/-- The fields of a file whose version is known. -/
def parseFields (data : List UInt8) (lines : List (List UInt8)) : Except Result Settings :=
  match lines with
  | [_, enabledLine, urlLine, deviceLine, crcLine] =>
    match Lines.value (ascii "kosync.enabled") enabledLine with
    | none => .error .corrupt
    | some enabled =>
      if enabled ≠ ascii "true" ∧ enabled ≠ ascii "false" then .error .corrupt
      else
        match Lines.value (ascii "kosync.base_url") urlLine with
        | none => .error .corrupt
        | some url =>
          if kosyncUrlCapacity ≤ url.length then .error .corrupt
          else
            match Lines.value (ascii "kosync.device_name") deviceLine with
            | none => .error .corrupt
            | some device =>
              if deviceNameCapacity ≤ device.length then .error .corrupt
              else
                -- the checksum is of all the bytes in front of its line
                match (Lines.value (ascii "crc32") crcLine).bind Lines.ofHex8 with
                | none => .error .corrupt
                | some storedCrc =>
                  let parsed : Settings := ⟨if enabled = ascii "true" then 1 else 0, url, device⟩
                  -- and what the file says has to be what `cn_settings_validate` accepts
                  if crc32 (data.take (data.length - (crcLine.length + 1))) ≠ storedCrc ∨
                      validate parsed ≠ .ok then .error .corrupt
                  else .ok parsed
  | _ => .error .corrupt

/-- `parse_settings`. -/
def parseSettings (data : List UInt8) : Except Result Settings :=
  if data.length = 0 ∨ fileMaxBytes < data.length ∨ 0 ∈ data then .error .corrupt
  else
    match Lines.next data with
    | none => .error .corrupt
    | some (line, _) =>
      match (Lines.value (ascii "crossnook-settings") line).bind parseVersion with
      | none => .error .corrupt
      | some version =>
        if version ≠ formatVersion then .error .unsupportedVersion
        else
          match Lines.take 5 data with
          | none => .error .corrupt
          | some (lines, rest) => if rest ≠ [] then .error .corrupt else parseFields data lines

/-- `writer_append` on the bytes written so far. -/
def writerAppend (text : List UInt8) (data : List UInt8) : Option (List UInt8) :=
  if fileMaxBytes - data.length < text.length then none else some (data ++ text)

/-- The texts that `serialize_settings` appends before the checksum. -/
def writerTexts (settings : Settings) : List (List UInt8) :=
  [ascii "crossnook-settings=1\n", ascii "kosync.enabled=",
    ascii (if settings.kosyncEnabled ≠ 0 then "true\n" else "false\n"),
    ascii "kosync.base_url=", settings.kosyncBaseUrl, ascii "\n",
    ascii "kosync.device_name=", settings.kosyncDeviceName, ascii "\n"]

/-- `serialize_settings`. -/
def serializeSettings (settings : Settings) : Option (List UInt8) := do
  let data ← (writerTexts settings).foldlM (fun data text => writerAppend text data) []
  writerAppend (ascii "crc32=" ++ Lines.hex8 (crc32 data) ++ ascii "\n") data

/-! ## Load -/

/-- `inspect_settings_file`: the result where it is not `ok`, or the status of the file. -/
def inspectSettingsFile (path : Path) (missingIsSettings : Bool) : Sys (Except Status Node) := do
  match ← lstat path with
  | .error e =>
    if missingIsSettings ∧ e = .ENOENT then return .error (.missing, some e)
    else return .error (failure e)
  | .ok st =>
    match st.kind with
    | .symlink _ => return .error (.symlink, none)
    | .regular _ => return .ok st
    | _ => return .error (.nonRegular, none)

/-- A load that is over: the result, the settings left in the output and `system_errno`. -/
structure Loaded where
  result : Result
  settings : Settings
  systemErrno : Option Errno

/-- A load that failed: the output receives the defaults. -/
def failed (status : Status) : Loaded := ⟨status.1, defaults, status.2⟩

/-- The exits of `cn_settings_load` that close the file. -/
def closing (status : Status) : Sys Loaded := do
  let _ ← close
  return failed status

/-- The bytes of a regular file. -/
def size (kind : Kind) : ℕ :=
  match kind with
  | .regular content => content.length
  | _ => 0

/-- `cn_settings_load` after the file is open. -/
def loadFile (before : Node) (fd : Path) : Sys Loaded := do
  match ← fstat fd with
  | .error e => closing (failure e)
  | .ok opened =>
    match opened.kind with
    | .regular content =>
      if content.length = 0 ∨ fileMaxBytes < content.length then closing (.corrupt, none)
      -- the file that was inspected may have been replaced before it was opened
      else if opened.ino ≠ before.ino then closing (.ioError, none)
      else do
        match ← readWhole fd content.length with
        | .error e => closing (failure e)
        | .ok none => closing (.corrupt, none)
        | .ok (some data) =>
          -- a file that cannot be closed is not trusted
          match ← close with
          | .error e => return failed (failure e)
          | .ok _ =>
            match parseSettings data with
            | .error result => return failed (result, none)
            | .ok settings => return ⟨.ok, settings, none⟩
    | _ => closing (.nonRegular, none)

/-- `cn_settings_load` in the process `pid`. -/
def load (store : Store) (pid : ℕ) : Sys Loaded :=
  if ¬ storeValid store then return failed (.invalidArgument, none)
  else do
    match ← inspectConfigDirectory store with
    | (.ok, _) =>
      match buildPaths store pid with
      | .error result => return failed (result, none)
      | .ok (path, _) =>
        match ← inspectSettingsFile path true with
        | .error status => return failed status
        | .ok before =>
          if size before.kind = 0 ∨ fileMaxBytes < size before.kind then
            return failed (.corrupt, none)
          else do
            match ← openNoFollow path with
            | .error e => return failed (failure e)
            | .ok fd => loadFile before fd
    | status => return failed status

/-! ## Save -/

/-- The label `done` of `cn_settings_save` before the rename: `opened` tells whether the temporary
file is still open. -/
def discard (opened : Bool) (temporary : Path) (status : Status) : Sys Status := do
  if opened then
    let _ ← close
  match unlinkFailure (← unlink temporary) with
  | some e => return failure e
  | none => return status

/-- The synchronization of the directory after the rename. -/
def syncDirectory (store : Store) : Sys Status := do
  match ← openDirectory store.configDirectory with
  | .error e => return (.durabilityUncertain, some e)
  | .ok _ =>
    match ← fsync with
    | .error e =>
      let _ ← close
      return (.durabilityUncertain, some e)
    | .ok _ =>
      match ← close with
      | .error e => return (.durabilityUncertain, some e)
      | .ok _ => return (.ok, none)

/-- The system calls of `cn_settings_save` on the files. -/
def replaceFile (store : Store) (path temporary : Path) (data : List UInt8) : Sys Status := do
  -- a temporary file that a killed save has left is removed first
  match unlinkFailure (← unlink temporary) with
  | some e => return failure e
  | none =>
    match ← openCreate temporary with
    | .error e => return failure e
    | .ok _ =>
      match ← writeAll temporary data with
      | .error e => discard true temporary (failure e)
      | .ok _ =>
        match ← fsync with
        | .error e => discard true temporary (failure e)
        | .ok _ =>
          match ← close with
          | .error e => discard false temporary (failure e)
          | .ok _ =>
            match ← rename temporary path with
            | .error e => discard false temporary (failure e)
            -- the file is replaced: from here on only its durability is in doubt
            | .ok _ => syncDirectory store

/-- `cn_settings_save` in the process `pid`. -/
def save (store : Store) (settings : Settings) (pid : ℕ) : Sys Status :=
  if ¬ storeValid store then return (.invalidArgument, none)
  else if validate settings ≠ .ok then return (validate settings, none)
  else
    match serializeSettings settings with
    | none => return (.invalidSettings, none)
    | some data => do
      match ← inspectConfigDirectory store with
      | (.ok, _) =>
        match buildPaths store pid with
        | .error result => return (result, none)
        | .ok (path, temporary) =>
          match ← inspectSettingsFile path true with
          | .ok _ => replaceFile store path temporary data
          -- a first save finds no file
          | .error (.missing, _) => replaceFile store path temporary data
          | .error status => return status
      | status => return status

/-! ## What the checks accept -/

theorem deviceNameTail_ge {n codepoint codepoint' : ℕ} {text r : List UInt8}
    (h : deviceNameTail n codepoint text = some (codepoint', r)) :
    ∃ u, text = u ++ r ∧ ∀ b ∈ u, 0x20 ≤ b := by
  induction n generalizing codepoint text with
  | zero =>
    obtain ⟨-, rfl⟩ := Prod.mk.inj (Option.some.inj h)
    exact ⟨[], rfl, by simp⟩
  | succ n ih =>
    cases text with
    | nil => simp [deviceNameTail] at h
    | cons b text =>
      rw [deviceNameTail] at h
      split_ifs at h with hb
      obtain ⟨u, rfl, hu⟩ := ih h
      have hb' : 0x20 ≤ b := by
        have : ∀ i : Fin 256, (UInt8.ofFin i) &&& 0xc0 = 0x80 → 0x20 ≤ UInt8.ofFin i := by
          decide +kernel
        simpa using this b.toFin (by simpa using hb)
      exact ⟨b :: u, rfl, by simpa [hb'] using hu⟩

theorem deviceNameStep_ge {l r : List UInt8} (h : deviceNameStep l = some r) :
    ∃ u, l = u ++ r ∧ ∀ b ∈ u, 0x20 ≤ b := by
  cases l with
  | nil => simp [deviceNameStep] at h
  | cons first text =>
    rw [deviceNameStep] at h
    cases hl : deviceNameLead first with
    | none => simp [hl] at h
    | some lead =>
      obtain ⟨codepoint, remaining, minimum⟩ := lead
      simp only [hl] at h
      by_cases hlen : text.length < remaining
      · simp [hlen] at h
      rw [if_neg hlen] at h
      cases ht : deviceNameTail remaining codepoint text with
      | none => simp [ht] at h
      | some t =>
        obtain ⟨codepoint', rest⟩ := t
        simp only [ht] at h
        split_ifs at h with hrange
        obtain rfl := Option.some.inj h
        obtain ⟨u, rfl, hu⟩ := deviceNameTail_ge ht
        -- of the first bytes only those of one byte can be below a blank
        have hfirst : 0x20 ≤ first := by
          by_cases hf : first < 0x80
          · rw [deviceNameLead, if_pos hf] at hl
            obtain ⟨rfl, rfl, rfl⟩ := Prod.mk.inj (Option.some.inj hl) |>.imp id Prod.mk.inj
            obtain ⟨rfl, -⟩ := Prod.mk.inj (Option.some.inj ht)
            simp only [not_or, not_lt] at hrange
            exact UInt8.le_iff_toNat_le.mpr hrange.2.2.2.1
          · grind
        exact ⟨first :: u, rfl, by simpa [hfirst] using hu⟩

theorem validates_ge {n : ℕ} {l : List UInt8} (h : Utf8.validates deviceNameStep n l = true) :
    ∀ b ∈ l, 0x20 ≤ b := by
  induction n generalizing l with
  | zero => cases l <;> simp_all [Utf8.validates]
  | succ n ih =>
    cases l with
    | nil => simp
    | cons a l =>
      rw [Utf8.validates] at h
      cases hs : deviceNameStep (a :: l) with
      | none => simp [hs] at h
      | some r =>
        obtain ⟨u, he, hu⟩ := deviceNameStep_ge hs
        have hr := ih (l := r) (by simpa [hs] using h)
        intro b hb
        rw [he, List.mem_append] at hb
        exact hb.elim (hu b) (hr b)

/-- What `validate` promises about the texts. -/
structure Valid (settings : Settings) : Prop where
  enabled : settings.kosyncEnabled = 0 ∨ settings.kosyncEnabled = 1
  url_length : settings.kosyncBaseUrl.length < kosyncUrlCapacity
  url_ge : ∀ b ∈ settings.kosyncBaseUrl, 0x20 ≤ b
  url_ne_nil : settings.kosyncEnabled ≠ 0 → settings.kosyncBaseUrl ≠ []
  device_length : settings.kosyncDeviceName.length < deviceNameCapacity
  device_ge : ∀ b ∈ settings.kosyncDeviceName, 0x20 ≤ b

theorem baseUrlValid_byte {url : List UInt8} (h : baseUrlValid url = true) :
    ∀ b ∈ url, UrlByte b := by
  unfold baseUrlValid at h
  by_cases h1 : url.length < 9 ∨ url.take 8 ≠ ascii "https://"
  · simp [h1] at h
  rw [if_neg h1] at h
  by_cases h2 : (url.all fun byte => UrlByte byte) = true
  · intro b hb
    exact of_decide_eq_true (List.all_eq_true.mp h2 b hb)
  · rw [if_pos h2] at h
    simp at h

@[simp] theorem boundedLength_some (text : List UInt8) (capacity : ℕ) :
    boundedLength (some text) capacity = min text.length capacity := rfl

theorem valid_of_validate {settings : Settings} (h : validate settings = .ok) :
    Valid settings := by
  obtain ⟨enabled, url, device⟩ := settings
  unfold validate at h
  dsimp only at h
  by_cases henabled : enabled ≠ 0 ∧ enabled ≠ 1
  · rw [if_pos henabled] at h
    simp at h
  rw [if_neg henabled] at h
  have hen01 : enabled = 0 ∨ enabled = 1 := by omega
  set urlLength := boundedLength (some url) kosyncUrlCapacity with hu
  set deviceLength := boundedLength (some device) deviceNameCapacity with hd
  by_cases htexts : kosyncUrlCapacity ≤ urlLength ∨ deviceLength = 0 ∨
      deviceNameCapacity ≤ deviceLength ∨ ¬ utf8DeviceNameValid (device.take deviceLength)
  · rw [if_pos htexts] at h
    simp at h
  rw [if_neg htexts] at h
  simp only [not_or, not_le, not_not] at htexts
  obtain ⟨hurl, -, hdev, hname⟩ := htexts
  rw [boundedLength_some] at hu hd
  have hdevlen : device.length < deviceNameCapacity := by omega
  have hurllen : url.length < kosyncUrlCapacity := by omega
  rw [List.take_of_length_le (by omega)] at hname
  have hge := validates_ge hname
  -- without a URL the synchronization cannot be enabled
  by_cases h0 : urlLength = 0
  · rw [if_pos h0] at h
    obtain rfl : url = [] := List.length_eq_zero_iff.mp (by omega)
    by_cases hen : enabled ≠ 0
    · rw [if_pos hen] at h
      simp at h
    · exact ⟨hen01, hurllen, by simp, fun he => absurd he hen, hdevlen, hge⟩
  · rw [if_neg h0, List.take_of_length_le (by omega)] at h
    split_ifs at h with hv
    have hbytes := baseUrlValid_byte hv
    refine ⟨hen01, hurllen, fun b hb => ?_, fun _ => ?_, hdevlen, hge⟩
    · have := (hbytes b hb).1
      grind
    · rintro rfl
      exact absurd hv (by decide)

theorem baseUrlValid_of_validate {settings : Settings} (h : validate settings = .ok)
    (hurl : settings.kosyncBaseUrl ≠ []) : baseUrlValid settings.kosyncBaseUrl = true := by
  have hlen := (valid_of_validate h).url_length
  have hpos : settings.kosyncBaseUrl.length ≠ 0 := fun h0 => hurl (List.length_eq_zero_iff.mp h0)
  have hmin : boundedLength (some settings.kosyncBaseUrl) kosyncUrlCapacity =
      settings.kosyncBaseUrl.length := by
    rw [boundedLength_some]
    omega
  unfold validate at h
  dsimp only at h
  rw [hmin, List.take_length] at h
  split at h
  · cases h
  split at h
  · cases h
  split_ifs at h with hv
  exact hv

/-! ## The format round trip -/

theorem writerAppend_eq {text data : List UInt8}
    (h : data.length + text.length ≤ fileMaxBytes) :
    writerAppend text data = some (data ++ text) := by
  unfold writerAppend
  rw [if_neg (by omega)]

theorem foldlM_writerAppend {texts : List (List UInt8)} {data : List UInt8}
    (h : data.length + texts.flatten.length ≤ fileMaxBytes) :
    texts.foldlM (fun data text => writerAppend text data) data = some (data ++ texts.flatten) := by
  induction texts generalizing data with
  | nil => simp
  | cons text texts ih =>
    rw [List.flatten_cons, List.length_append] at h
    rw [List.foldlM_cons, writerAppend_eq (by omega), Option.bind_eq_bind, Option.bind_some,
      ih (by rw [List.length_append]; omega), List.flatten_cons, List.append_assoc]

/-- The lines of a settings file before the checksum. -/
def bodyLines (settings : Settings) : List (List UInt8) :=
  [Lines.pair (ascii "crossnook-settings") [0x31],
    Lines.pair (ascii "kosync.enabled")
      (ascii (if settings.kosyncEnabled ≠ 0 then "true" else "false")),
    Lines.pair (ascii "kosync.base_url") settings.kosyncBaseUrl,
    Lines.pair (ascii "kosync.device_name") settings.kosyncDeviceName]

theorem flatten_writerTexts (settings : Settings) :
    (writerTexts settings).flatten = Lines.text (bodyLines settings) := by
  have h1 : ascii "crossnook-settings=1\n" =
    ascii "crossnook-settings" ++ [0x3d] ++ [0x31] ++ [0x0a] := by decide
  have h2 : ascii "kosync.enabled=" = ascii "kosync.enabled" ++ [0x3d] := by decide
  have h3 : ascii "kosync.base_url=" = ascii "kosync.base_url" ++ [0x3d] := by decide
  have h4 : ascii "kosync.device_name=" = ascii "kosync.device_name" ++ [0x3d] := by decide
  have h5 : ascii "\n" = [0x0a] := by decide
  have h6 : ascii (if settings.kosyncEnabled ≠ 0 then "true\n" else "false\n") =
      ascii (if settings.kosyncEnabled ≠ 0 then "true" else "false") ++ [0x0a] := by
    split_ifs <;> decide
  simp only [writerTexts, h1, h2, h3, h4, h5, h6]
  simp [Lines.text, bodyLines, Lines.pair]

theorem length_writerTexts {settings : Settings} (h : Valid settings) :
    (writerTexts settings).flatten.length ≤ 1650 := by
  have hurl := h.url_length
  have hdev := h.device_length
  have hflag : (ascii (if settings.kosyncEnabled ≠ 0 then "true\n" else "false\n")).length ≤ 6 := by
    split_ifs <;> decide
  have h1 : (ascii "crossnook-settings=1\n").length = 21 := rfl
  have h2 : (ascii "kosync.enabled=").length = 15 := rfl
  have h3 : (ascii "kosync.base_url=").length = 16 := rfl
  have h4 : (ascii "\n").length = 1 := rfl
  have h5 : (ascii "kosync.device_name=").length = 19 := rfl
  unfold kosyncUrlCapacity at hurl
  unfold deviceNameCapacity at hdev
  simp only [writerTexts, List.flatten_cons, List.flatten_nil, List.length_append, List.length_nil,
    h1, h2, h3, h4, h5]
  omega

theorem serializeSettings_eq {settings : Settings} (h : Valid settings) :
    serializeSettings settings = some (Lines.sealText (bodyLines settings)) := by
  have hlen := length_writerTexts h
  have hcrc : (ascii "crc32=").length = 6 := rfl
  have hlf : (ascii "\n").length = 1 := rfl
  have hfold : (writerTexts settings).foldlM (fun data text => writerAppend text data) [] =
      some ([] ++ (writerTexts settings).flatten) :=
    foldlM_writerAppend (by rw [List.length_nil, fileMaxBytes]; omega)
  unfold serializeSettings
  rw [hfold, Option.bind_eq_bind, Option.bind_some, List.nil_append, writerAppend_eq]
  · rw [flatten_writerTexts]
    have hcrc' : ascii "crc32=" = ascii "crc32" ++ [0x3d] := by decide
    have hlf' : ascii "\n" = [0x0a] := by decide
    rw [hcrc', hlf']
    simp [Lines.sealText, Lines.text, Lines.crcLine, Lines.pair]
  · simp only [List.length_append, Lines.length_hex8, hcrc, hlf, fileMaxBytes]
    omega

/-- The bytes of the lines of a settings file. -/
theorem printable_bodyLines {settings : Settings} (h : Valid settings) :
    ∀ line ∈ bodyLines settings, Lines.Printable line := by
  have hkeys : ∀ key ∈ [ascii "crossnook-settings", ascii "kosync.enabled",
      ascii "kosync.base_url", ascii "kosync.device_name", ascii "true", ascii "false", [0x31]],
      key.all (fun b => 0x20 ≤ b) = true := by decide
  have hflag : Lines.Printable (ascii (if settings.kosyncEnabled ≠ 0 then "true" else "false")) := by
    split_ifs <;> exact Bytes.forall_of_all (hkeys _ (by simp))
  intro line hline
  simp only [bodyLines, List.mem_cons, List.not_mem_nil, or_false] at hline
  rcases hline with rfl | rfl | rfl | rfl
  · exact Lines.printable_pair (Bytes.forall_of_all (hkeys _ (by simp)))
      (Bytes.forall_of_all (hkeys _ (by simp)))
  · exact Lines.printable_pair (Bytes.forall_of_all (hkeys _ (by simp))) hflag
  · exact Lines.printable_pair (Bytes.forall_of_all (hkeys _ (by simp))) h.url_ge
  · exact Lines.printable_pair (Bytes.forall_of_all (hkeys _ (by simp))) h.device_ge

/-- The flag survives its text. -/
theorem enabled_text {e : ℤ} (h : e = 0 ∨ e = 1) :
    ¬ (ascii (if e ≠ 0 then "true" else "false") ≠ ascii "true" ∧
      ascii (if e ≠ 0 then "true" else "false") ≠ ascii "false") ∧
    (if ascii (if e ≠ 0 then "true" else "false") = ascii "true" then (1 : ℤ) else 0) = e := by
  rcases h with rfl | rfl <;> decide

theorem next_sealText {settings : Settings} (h : Valid settings) :
    ∃ rest, Lines.next (Lines.sealText (bodyLines settings)) =
      some (Lines.pair (ascii "crossnook-settings") [0x31], rest) := by
  have hfirst := (printable_bodyLines h (Lines.pair (ascii "crossnook-settings") [0x31])
    (by simp [bodyLines])).notMem (by decide : (0x0a : UInt8) < 0x20)
  refine ⟨_, (congrArg Lines.next ?_).trans (Lines.next_append hfirst
    (Lines.text ((bodyLines settings).tail ++ [Lines.crcLine (Lines.text (bodyLines settings))])))⟩
  simp [bodyLines, Lines.sealText, Lines.text]

/-- **Reading settings as they were written.** -/
theorem parseSettings_serializeSettings {settings : Settings} (h : validate settings = .ok)
    {data : List UInt8} (hdata : serializeSettings settings = some data) :
    parseSettings data = .ok settings := by
  have hvalid := valid_of_validate h
  have hprint := printable_bodyLines hvalid
  obtain rfl : Lines.sealText (bodyLines settings) = data := by
    rw [serializeSettings_eq hvalid] at hdata
    exact Option.some.inj hdata
  -- what the reader looks at before it splits the text
  have hlen := Lines.length_sealText (bodyLines settings)
  have hblen := length_writerTexts hvalid
  rw [flatten_writerTexts] at hblen
  have hzero := Lines.zero_notMem_sealText hprint
  have htake : Lines.take 5 (Lines.sealText (bodyLines settings)) = _ :=
    Lines.take_sealText hprint
  have hcrc := Lines.crc32_sealText (bodyLines settings)
  obtain ⟨rest, hnext⟩ := next_sealText hvalid
  have hversion : parseVersion [0x31] = some formatVersion := by decide
  obtain ⟨hflag1, hflag2⟩ := enabled_text hvalid.enabled
  have hurl : ¬ kosyncUrlCapacity ≤ settings.kosyncBaseUrl.length := not_le.mpr hvalid.url_length
  have hdevice : ¬ deviceNameCapacity ≤ settings.kosyncDeviceName.length :=
    not_le.mpr hvalid.device_length
  have hsize : ¬ ((Lines.sealText (bodyLines settings)).length = 0 ∨
      fileMaxBytes < (Lines.sealText (bodyLines settings)).length ∨
      0 ∈ Lines.sealText (bodyLines settings)) := by
    rw [fileMaxBytes]
    simp only [hzero, or_false]
    omega
  -- the checks of the reader, in its order, pass one by one
  unfold parseSettings
  rw [if_neg hsize, hnext]
  dsimp only
  rw [Lines.value_pair, Option.bind_some, hversion]
  dsimp only
  rw [if_neg (by simp), htake]
  dsimp only
  rw [if_neg (by simp)]
  -- the fields do not look at the whole text but for its checksum
  generalize Lines.sealText (bodyLines settings) = data at hcrc
  generalize Lines.text (bodyLines settings) = body at hcrc
  rw [bodyLines]
  simp only [List.cons_append, List.nil_append, parseFields, Lines.value_pair]
  rw [if_neg hflag1, if_neg hurl, if_neg hdevice, Lines.value_crcLine]
  dsimp only
  rw [hflag2, hcrc, if_neg]
  rw [not_or, not_not, not_not]
  exact ⟨rfl, h⟩

theorem eq_one_of_parseVersion {v : List UInt8} (h : parseVersion v = some formatVersion) :
    v = [0x31] := by
  unfold parseVersion at h
  by_cases hempty : v.length = 0 ∨ (1 < v.length ∧ v.head? = some 0x30)
  · rw [if_pos hempty] at h
    exact absurd h (by simp)
  rw [if_neg hempty] at h
  by_cases hdigits : (v.all fun c => IsDigit c) = true
  · rw [if_neg (not_not.mpr hdigits)] at h
    by_contra hne
    rw [if_neg hne] at h
    exact absurd h (by decide)
  · rw [if_pos hdigits] at h
    exact absurd h (by simp)

/-- The word for a flag that was read as one. -/
theorem text_enabled {enabled : List UInt8}
    (h : ¬ (enabled ≠ ascii "true" ∧ enabled ≠ ascii "false")) :
    ascii (if (if enabled = ascii "true" then (1 : ℤ) else 0) ≠ 0 then "true" else "false") =
      enabled := by
  by_cases htrue : enabled = ascii "true"
  · rw [htrue]
    decide
  · rw [if_neg htrue, if_neg (by simp)]
    exact (not_not.mp fun hfalse => h ⟨htrue, hfalse⟩).symm

/-- The lines that a successful parse has read after the first, and the settings that it makes of
them. -/
theorem parseFields_eq_ok {data : List UInt8} {lines : List (List UInt8)} {settings : Settings}
    (h : parseFields data lines = .ok settings) :
    validate settings = .ok ∧ ∃ first digits,
      lines = first :: ((bodyLines settings).tail ++ [Lines.pair (ascii "crc32") digits]) ∧
      Lines.ofHex8 digits = some (crc32
        (data.take (data.length - ((Lines.pair (ascii "crc32") digits).length + 1)))) := by
  unfold parseFields at h
  -- the fields in the order of the lines; `validate` and the checksum come last
  split at h
  swap
  · cases h
  rename_i first enabledLine urlLine deviceLine crcLine
  split at h
  · cases h
  rename_i enabled henabled
  split at h
  · cases h
  rename_i hflag
  split at h
  · cases h
  rename_i url hurl
  split at h
  · cases h
  split at h
  · cases h
  rename_i device hdevice
  split at h
  · cases h
  split at h
  · cases h
  rename_i storedCrc hcrc
  extract_lets parsed at h
  split at h
  · cases h
  rename_i hbad
  -- each line is the pair that the writer would write for the value read
  obtain ⟨hsum, hvalid⟩ := by simpa only [ne_eq, not_or, not_not] using hbad
  obtain rfl := Except.ok.inj h
  obtain ⟨digits, hdigits, hhex⟩ := Option.bind_eq_some_iff.mp hcrc
  obtain rfl := Lines.eq_pair_of_value hdigits
  refine ⟨hvalid, first, digits, ?_, hhex.trans (congrArg some hsum.symm)⟩
  rw [Lines.eq_pair_of_value henabled, Lines.eq_pair_of_value hurl,
    Lines.eq_pair_of_value hdevice, bodyLines]
  simp only [parsed, text_enabled hflag, List.tail_cons, List.cons_append, List.nil_append]

/-- **A file that parses is the one that its settings are written as.** -/
theorem serializeSettings_of_parseSettings {data : List UInt8} {settings : Settings}
    (h : parseSettings data = .ok settings) :
    validate settings = .ok ∧ serializeSettings settings = some data := by
  unfold parseSettings at h
  split at h
  · cases h
  split at h
  · cases h
  rename_i first firstRest hnext
  split at h
  · cases h
  rename_i version hversion
  split at h
  · cases h
  rename_i hformat
  split at h
  · cases h
  rename_i lines rest htake
  split at h
  · cases h
  rename_i hrest
  obtain rfl := not_not.mp hrest
  obtain rfl := not_not.mp hformat
  obtain ⟨hvalid, first', digits, rfl, hhex⟩ := parseFields_eq_ok h
  refine ⟨hvalid, ?_⟩
  rw [serializeSettings_eq (valid_of_validate hvalid)]
  have hdata := Lines.take_eq_some htake
  rw [List.append_nil] at hdata
  -- the first line is the one that was checked for the version
  obtain ⟨v, hv, hone⟩ := Option.bind_eq_some_iff.mp hversion
  obtain rfl := eq_one_of_parseVersion hone
  obtain rfl := Lines.eq_pair_of_value hv
  obtain ⟨tail, hfirst⟩ := Lines.next_of_take htake
  obtain ⟨rfl, -⟩ : Lines.pair (ascii "crossnook-settings") [0x31] = first' ∧ firstRest = tail := by
    simpa using hnext.symm.trans hfirst
  have hlines : data = Lines.text (bodyLines settings ++ [Lines.pair (ascii "crc32") digits]) :=
    hdata
  rw [← Lines.eq_sealText hlines hhex]

/-- A settings file is neither empty nor too long. -/
theorem length_serializeSettings {settings : Settings} (h : validate settings = .ok)
    {data : List UInt8} (hdata : serializeSettings settings = some data) :
    data.length ≠ 0 ∧ data.length ≤ fileMaxBytes := by
  have hvalid := valid_of_validate h
  obtain rfl : Lines.sealText (bodyLines settings) = data := by
    rw [serializeSettings_eq hvalid] at hdata
    exact Option.some.inj hdata
  have hlen := length_writerTexts hvalid
  rw [Lines.length_sealText, ← flatten_writerTexts, fileMaxBytes]
  omega

/-- **The format is a bijection** between the settings that `validate` accepts and the files that
`parseSettings` accepts. -/
theorem settings_codec :
    (∀ settings, validate settings = .ok → ∃ data, serializeSettings settings = some data ∧
      data.length ≤ fileMaxBytes ∧ parseSettings data = .ok settings) ∧
    ∀ data settings, parseSettings data = .ok settings →
      validate settings = .ok ∧ serializeSettings settings = some data := by
  refine ⟨fun settings h => ?_, fun data settings h => serializeSettings_of_parseSettings h⟩
  have hdata := serializeSettings_eq (valid_of_validate h)
  exact ⟨_, hdata, (length_serializeSettings h hdata).2, parseSettings_serializeSettings h hdata⟩

/-! ## What a save does -/

/-- The statuses after which the new file is visible. -/
def Visible (status : Status) : Prop := status.1 = .ok ∨ status.1 = .durabilityUncertain

theorem filesystemError_ne (e : Errno) :
    filesystemError e ≠ .ok ∧ filesystemError e ≠ .missing ∧
      filesystemError e ≠ .durabilityUncertain := by
  cases e <;> simp [filesystemError]

theorem failure_not_visible (e : Errno) : ¬ Visible (failure e) := by
  have h := filesystemError_ne e
  rintro (he | he)
  exacts [h.1 he, h.2.2 he]

theorem validate_eq (settings : Settings) :
    validate settings = .ok ∨ validate settings = .invalidSettings := by
  unfold validate
  dsimp only
  split_ifs <;> simp

theorem temporaryPath_ne (path : Path) (pid : ℕ) : path ≠ temporaryPath path pid := by
  intro h
  have := congrArg List.length h
  have h5 : (ascii ".tmp.").length = 5 := rfl
  simp only [temporaryPath, List.length_append, h5] at this
  omega

section Save

variable {p t : Path}

theorem discard_leaves (opened : Bool) {status : Status} (h : ¬ Visible status) :
    Leaves Visible {t} (discard opened t status) := by
  have htail : Leaves Visible {t} (do
      match unlinkFailure (← unlink t) with
      | some e => return failure e
      | none => return status) := by
    refine Leaves.bind (touches_unlink rfl) fun r => ?_
    split
    · exact Leaves.pure (failure_not_visible _)
    · exact Leaves.pure h
  cases opened with
  | false => exact htail
  | true => exact Leaves.bind ((keepsFiles_query _).touches _) fun _ => htail

theorem syncDirectory_shows (store : Store) : Shows Visible (syncDirectory store) := by
  have huncertain : ∀ e, Visible (.durabilityUncertain, e) := fun e => .inr rfl
  refine Shows.bind (keepsFiles_query _) fun r => ?_
  cases r with
  | error e => exact Shows.pure (huncertain _)
  | ok fd =>
    refine Shows.bind (keepsFiles_query _) fun r => ?_
    cases r with
    | error e => exact Shows.bind (keepsFiles_query _) fun _ => Shows.pure (huncertain _)
    | ok _ =>
      refine Shows.bind (keepsFiles_query _) fun r => ?_
      cases r with
      | error e => exact Shows.pure (huncertain _)
      | ok _ => exact Shows.pure (.inl rfl)

/-- **The system calls of a save replace the file.** -/
theorem replaceFile_replaces (store : Store) (hp : p ≠ t) (data : List UInt8) :
    Replaces Visible {t} p data (fun _ => True) (replaceFile store p t data) := by
  have hpt : p ∉ ({t} : Set Path) := hp
  have ht : t ∈ ({t} : Set Path) := rfl
  have hdiscard : ∀ opened e, Leaves Visible {t} (discard opened t (failure e)) :=
    fun opened e => discard_leaves opened (failure_not_visible e)
  unfold replaceFile
  refine Replaces.next hpt (touches_unlink ht) fun r => ?_
  split
  · exact (Leaves.pure (failure_not_visible _)).replaces hpt
  refine Replaces.create hpt ht (fun e => Leaves.pure (failure_not_visible e)) ?_
  refine Replaces.write hpt ht (fun e => hdiscard true e) ?_
  refine Replaces.after hpt (keepsFiles_query _) fun r => ?_
  cases r with
  | error e => exact (hdiscard true e).replaces hpt
  | ok u =>
    refine Replaces.after hpt (keepsFiles_query _) fun r => ?_
    cases r with
    | error e => exact (hdiscard false e).replaces hpt
    | ok u =>
      exact Replaces.rename hpt ht (fun e => hdiscard false e) (syncDirectory_shows store)

theorem keepsFiles_inspectConfigDirectory (store : Store) :
    KeepsFiles (inspectConfigDirectory store) := by
  refine (keepsFiles_lstat _).bind fun r => ?_
  split
  · exact Keeps.pure _
  · split <;> exact Keeps.pure _

theorem keepsFiles_inspectSettingsFile (path : Path) (missingIsSettings : Bool) :
    KeepsFiles (inspectSettingsFile path missingIsSettings) := by
  refine (keepsFiles_lstat _).bind fun r => ?_
  split
  · exact Keeps.ite (Keeps.pure _) (Keeps.pure _)
  · split <;> exact Keeps.pure _

/-- The directory is in order, or the status says why not. -/
theorem ends_inspectConfigDirectory (store : Store) (m : Machine) :
    Ends (inspectConfigDirectory store) m
      (fun status _ => status.1 = .ok ∨ status.1 ≠ .missing ∧ ¬ Visible status)
      fun _ => True := by
  refine (ends_bind _).mpr (((keepsFiles_lstat _).ends m).mono (fun r m' _ => ?_) fun _ _ => trivial)
  cases r with
  | error e =>
    exact .inr ⟨(filesystemError_ne e).2.1, failure_not_visible e⟩
  | ok st =>
    dsimp only
    split
    · exact .inr ⟨by simp, by simp [Visible]⟩
    · exact .inl rfl
    · exact .inr ⟨by simp, by simp [Visible]⟩

/-- What is at the path of the settings file, or the status that says why not. -/
theorem ends_inspectSettingsFile (path : Path) (m : Machine) :
    Ends (inspectSettingsFile path true) m
      (fun r m' => m'.files = m.files ∧
        ((∃ node content, r = .ok node ∧ m.files path = some node ∧
            node.kind = .regular content) ∨
          (∃ e, r = .error (.missing, e)) ∧ m.files path = none ∨
          ∃ status, r = .error status ∧ status.1 ≠ .missing ∧ ¬ Visible status))
      fun m' => m'.files = m.files := by
  refine (ends_bind _).mpr
    ((show Ends (lstat path) m _ _ from ends_query (H := False) False.elim).mono ?_ fun _ h => h)
  rintro r m' ⟨hf, -, rfl | ⟨-, f, rfl⟩⟩
  · cases hp : m.files path with
    | none => exact ⟨hf, .inr (.inl ⟨⟨_, rfl⟩, rfl⟩)⟩
    | some node =>
      obtain ⟨ino, kind⟩ := node
      cases kind with
      | regular content => exact ⟨hf, .inl ⟨_, content, rfl, rfl, rfl⟩⟩
      | symlink | directory | other =>
        exact ⟨hf, .inr (.inr ⟨_, rfl, by simp, by simp [Visible]⟩)⟩
  · dsimp only
    rw [if_neg (by simp [f.ne])]
    exact ⟨hf, .inr (.inr ⟨_, rfl, (filesystemError_ne _).2.1, failure_not_visible _⟩)⟩

/-- **A save replaces the settings file and nothing else.** -/
theorem save_replaces (store : Store) {settings : Settings} {data : List UInt8} (pid : ℕ)
    (hdata : serializeSettings settings = some data) :
    Replaces Visible {temporaryPath store.path pid} store.path data (fun _ => True)
      (save store settings pid) := by
  have hp : store.path ∉ ({temporaryPath store.path pid} : Set Path) := temporaryPath_ne _ _
  have hleave : ∀ {P : Machine → Prop} {status : Status}, ¬ Visible status →
      Replaces Visible {temporaryPath store.path pid} store.path data P (pure status) :=
    fun h => (Leaves.pure h).replaces hp
  -- nothing is written before the store, the settings and the directory have been checked
  unfold save
  by_cases hstore : storeValid store = true
  swap
  · rw [if_pos hstore]
    exact hleave (by simp [Visible])
  rw [if_neg (not_not.mpr hstore)]
  by_cases hvalid : validate settings = .ok
  swap
  · rw [if_pos hvalid]
    rcases validate_eq settings with h | h
    · exact absurd h hvalid
    · exact hleave (by simp [Visible, h])
  rw [if_neg (not_not.mpr hvalid), hdata]
  refine Replaces.bind hp ((keepsFiles_inspectConfigDirectory store).touches _)
    (fun m _ => ends_inspectConfigDirectory store m) fun status => ?_
  obtain ⟨result, e⟩ := status
  by_cases hok : result = .ok
  · subst hok
    dsimp only
    unfold buildPaths
    rw [if_neg (not_not.mpr hstore)]
    split_ifs
    · exact hleave (by simp [Visible])
    · exact hleave (by simp [Visible])
    -- a settings file that is not there is no obstacle
    refine Replaces.bind (R := fun r _ => ∀ s, r = .error s → s.1 = .missing ∨ ¬ Visible s) hp
      ((keepsFiles_inspectSettingsFile _ _).touches _) (fun m _ => ?_) fun r => ?_
    · refine (ends_inspectSettingsFile store.path m).mono ?_ fun _ _ => trivial
      rintro r m' ⟨-, ⟨_, _, rfl, -⟩ | ⟨⟨_, rfl⟩, -⟩ | ⟨status, rfl, -, hv⟩⟩ s hs
      · cases hs
      · cases hs
        exact .inl rfl
      · cases hs
        exact .inr hv
    have hreplace := replaceFile_replaces store (temporaryPath_ne store.path pid) data
    rcases r with ⟨result, e⟩ | node
    · by_cases hmissing : result = .missing
      · subst hmissing
        exact hreplace.weaken fun _ _ => trivial
      · intro m hm
        have hnot : ¬ Visible (result, e) := (hm _ rfl).resolve_left hmissing
        split
        · next h => cases h
        · next h =>
          cases h
          exact absurd rfl hmissing
        · next h =>
          cases h
          exact hleave (P := fun _ => True) hnot m trivial
    · exact hreplace.weaken fun _ _ => trivial
  · intro m hm
    have hnot : ¬ Visible (result, e) := by
      rcases hm with h | h
      · exact absurd h hok
      · exact h.2
    split
    · next h =>
      cases h
      exact absurd rfl hok
    · exact hleave (P := fun _ => True) hnot m trivial

/-- A save whose settings are refused leaves everything as it is. -/
theorem save_refused {store : Store} {settings : Settings} {pid : ℕ}
    (hdata : serializeSettings settings = none) :
    ∃ status, ¬ Visible status ∧ save store settings pid = pure status := by
  unfold save
  split_ifs with h1 h2
  · exact ⟨_, by rcases validate_eq settings with h | h <;> simp_all [Visible], rfl⟩
  · rw [hdata]
    exact ⟨_, by simp [Visible], rfl⟩
  · exact ⟨_, by simp [Visible], rfl⟩

/-- A save of settings that are not valid leaves everything as it is. -/
theorem save_invalid {store : Store} {settings : Settings} (pid : ℕ)
    (h : validate settings ≠ .ok) :
    ∃ status, ¬ Visible status ∧ save store settings pid = pure status := by
  unfold save
  rw [if_pos h]
  have hrefused : ¬ Visible (validate settings, none) := by
    rcases validate_eq settings with h' | h'
    · exact absurd h' h
    · simp [Visible, h']
  by_cases hstore : storeValid store = true
  · rw [if_neg (not_not.mpr hstore)]
    exact ⟨_, hrefused, rfl⟩
  · rw [if_pos hstore]
    exact ⟨_, by simp [Visible], rfl⟩

/-- **A save replaces the settings file atomically.** -/
theorem save_atomic (store : Store) (settings : Settings) (pid : ℕ) :
    Atomic Visible store.path (serializeSettings settings) (save store settings pid) := by
  cases hdata : serializeSettings settings with
  | some data => exact (save_replaces store pid hdata).atomic
  | none =>
    obtain ⟨status, hnot, he⟩ := @save_refused store settings pid hdata
    rw [he]
    exact fun m => ⟨fun hv => absurd hv hnot, fun _ => rfl⟩

end Save

/-! ## What a load returns -/

/-- What the checks of a load make of the file. -/
def judge (node : Node) : Except Result Settings :=
  match node.kind with
  | .regular content =>
    if content.length = 0 ∨ fileMaxBytes < content.length then .error .corrupt
    else parseSettings content
  | .symlink _ => .error .symlink
  | _ => .error .nonRegular

/-- A file that a save wrote is in order. -/
theorem judge_of_serialize {settings : Settings} (h : validate settings = .ok) {data : List UInt8}
    (hdata : serializeSettings settings = some data) (ino : ℕ) :
    judge ⟨ino, .regular data⟩ = .ok settings := by
  have hlen := length_serializeSettings h hdata
  simp only [judge]
  rw [if_neg (by omega), parseSettings_serializeSettings h hdata]

/-- What is stored. -/
def Store.stored (store : Store) (files : Path → Option Node) : Except Result Settings :=
  match files store.path with
  | none => .error .missing
  | some node => judge node

/-- The parser reports damage as such. -/
theorem parseSettings_eq_error {data : List UInt8} {result : Result}
    (h : parseSettings data = .error result) : result = .corrupt ∨ result = .unsupportedVersion := by
  have hlast : ∀ {c : Prop} [Decidable c] {parsed : Settings},
      (if c then .error .corrupt else .ok parsed : Except Result Settings) = .error result →
        result = .corrupt := by
    intro c _ parsed h
    split_ifs at h
    cases h
    rfl
  unfold parseSettings parseFields at h
  repeat' first | exact .inl (hlast h) | split at h
  all_goals cases h; simp

/-- What a load promises about the file: what it says is stored, is. -/
structure Loads (store : Store) (files : Path → Option Node) (r : Loaded) : Prop where
  ok : r.result = .ok → store.stored files = .ok r.settings
  missing : r.result = .missing → files store.path = none
  failed : r.result ≠ .ok → r.settings = defaults

section Load

variable {store : Store} {files : Path → Option Node} {H : Prop} {m : Machine}

/-- The status of a directory. -/
def directoryStatus : Option Kind → Status
  | none => failure .ENOENT
  | some (.symlink _) => (.symlink, none)
  | some .directory => (.ok, none)
  | some _ => (.notDirectory, none)

/-- What a load finds where no call fails on its own. -/
def Store.look (store : Store) (pid : ℕ) (files : Path → Option Node) : Except Result Settings :=
  if ¬ storeValid store then .error .invalidArgument
  else
    match directoryStatus ((files store.configDirectory).map Node.kind) with
    | (.ok, _) =>
      match buildPaths store pid with
      | .error result => .error result
      | .ok _ => store.stored files
    | (result, _) => .error result

/-- What a load returns of what it finds. -/
def answer : Except Result Settings → Result × Settings
  | .error result => (result, defaults)
  | .ok settings => (.ok, settings)

/-- A load tells what it finds, unless one of its calls fails on its own. -/
inductive Told (H : Prop) (look : Except Result Settings) : Loaded → Prop
  | found (e : Option Errno) : Told H look ⟨(answer look).1, (answer look).2, e⟩
  | fault (hH : ¬ H) (e : Errno) : Told H look (failed (failure e))

theorem Told.failed {result : Result} (e : Option Errno) :
    Told H (.error result) (SettingsStore.failed (result, e)) := .found e

theorem ends_closing {result : Result} {e : Option Errno} (hm : H → Healthy m) (hf : m.files = files)
    {look : Except Result Settings} (h : Told H look (failed (result, e))) :
    Ends (closing (result, e)) m
      (fun r m' => m'.files = files ∧ (H → Healthy m') ∧ Told H look r)
      fun m' => m'.files = files := by
  refine (ends_bind _).mpr ((show Ends close m _ _ from ends_query hm).mono ?_ fun _ h => h.trans hf)
  exact fun _ m' h' => ⟨h'.1.trans hf, h'.2.1, h⟩

/-- **What a load makes of an open file.** -/
theorem ends_loadFile {ino : ℕ} {content : List UInt8} {fd : Path} (hm : H → Healthy m)
    (hf : m.files = files) (hfd : files fd = some ⟨ino, .regular content⟩) :
    Ends (loadFile ⟨ino, .regular content⟩ fd) m
      (fun r m' => m'.files = files ∧ (H → Healthy m') ∧ Told H (judge ⟨ino, .regular content⟩) r)
      fun m' => m'.files = files := by
  unfold loadFile
  rw [ends_bind]
  refine (ends_fstat hm (by rw [hf, hfd])).mono ?_ fun _ h => h.trans hf
  rintro r m₁ ⟨hf₁, hm₁, rfl | ⟨hH, f, rfl⟩⟩
  swap
  · exact ends_closing hm₁ (hf₁.trans hf) (.fault hH _)
  dsimp only [judge]
  by_cases hsize : content.length = 0 ∨ fileMaxBytes < content.length
  · rw [if_pos hsize, if_pos hsize]
    exact ends_closing hm₁ (hf₁.trans hf) (.failed _)
  rw [if_neg hsize, if_neg hsize, if_neg (not_not.mpr rfl), ends_bind]
  -- the content is read as it is, or a call failed on its own
  refine (ends_readWhole hm₁ (by rw [hf₁, hf, hfd])).mono ?_ fun _ h => h.trans (hf₁.trans hf)
  rintro r m₂ ⟨hf₂, hm₂, rfl | ⟨hH, e, rfl⟩⟩
  swap
  · exact ends_closing hm₂ (hf₂.trans (hf₁.trans hf)) (.fault hH _)
  dsimp only
  rw [ends_bind]
  -- also a `close` that fails refuses what was read
  refine (show Ends close m₂ _ _ from ends_query hm₂).mono ?_
    fun _ h => h.trans (hf₂.trans (hf₁.trans hf))
  rintro r m₃ ⟨hf₃, hm₃, hr⟩
  have hfiles : m₃.files = files := hf₃.trans (hf₂.trans (hf₁.trans hf))
  rcases hr with rfl | ⟨hH, f, rfl⟩
  · dsimp only
    cases hparse : parseSettings content with
    | error result => exact ⟨hfiles, hm₃, .failed _⟩
    | ok settings => exact ⟨hfiles, hm₃, .found none⟩
  · exact ⟨hfiles, hm₃, .fault hH _⟩

theorem ends_inspectConfigDirectory_told (store : Store) (hm : H → Healthy m) :
    Ends (inspectConfigDirectory store) m
      (fun status m' => m'.files = m.files ∧ (H → Healthy m') ∧
        (status = directoryStatus ((m.files store.configDirectory).map Node.kind) ∨
          ¬ H ∧ ∃ e, status = failure e))
      fun m' => m'.files = m.files := by
  refine (ends_bind _).mpr ((show Ends (lstat _) m _ _ from ends_query hm).mono ?_ fun _ h => h)
  rintro r m' ⟨hf, hm', rfl | ⟨hH, f, rfl⟩⟩
  · rcases hfile : m.files store.configDirectory with _ | ⟨ino, kind⟩
    · exact ⟨hf, hm', .inl rfl⟩
    · cases kind <;> exact ⟨hf, hm', .inl rfl⟩
  · exact ⟨hf, hm', .inr ⟨hH, f.errno, rfl⟩⟩

/-- The status of what is at the path of the settings file. -/
theorem ends_inspectSettingsFile_told (path : Path) (hm : H → Healthy m) :
    Ends (inspectSettingsFile path true) m
      (fun r m' => m'.files = m.files ∧ (H → Healthy m') ∧
        ((m.files path = none ∧ r = .error (.missing, some .ENOENT)) ∨
          (∃ ino content, m.files path = some ⟨ino, .regular content⟩ ∧
            r = .ok ⟨ino, .regular content⟩) ∨
          (∃ node result, m.files path = some node ∧ judge node = .error result ∧
            r = .error (result, none)) ∨
          ¬ H ∧ ∃ e, r = .error (failure e)))
      fun m' => m'.files = m.files := by
  refine (ends_bind _).mpr ((show Ends (lstat _) m _ _ from ends_query hm).mono ?_ fun _ h => h)
  rintro r m' ⟨hf, hm', rfl | ⟨hH, f, rfl⟩⟩
  · rcases hfile : m.files path with _ | ⟨ino, kind⟩
    · exact ⟨hf, hm', .inl ⟨rfl, rfl⟩⟩
    · cases kind with
      | regular content => exact ⟨hf, hm', .inr (.inl ⟨ino, content, rfl, rfl⟩)⟩
      | symlink | directory | other =>
        exact ⟨hf, hm', .inr (.inr (.inl ⟨_, _, rfl, rfl, rfl⟩))⟩
  · dsimp only
    rw [if_neg (by simp [f.ne])]
    exact ⟨hf, hm', .inr (.inr (.inr ⟨hH, f.errno, rfl⟩))⟩

/-- **A load tells what it finds.** -/
theorem ends_load_told (store : Store) (pid : ℕ) (hm : H → Healthy m) :
    Ends (load store pid) m
      (fun r m' => m'.files = m.files ∧ (H → Healthy m') ∧ Told H (store.look pid m.files) r)
      fun m' => m'.files = m.files := by
  unfold load Store.look
  by_cases hstore : storeValid store = true
  swap
  · rw [if_pos hstore, if_pos hstore]
    exact ⟨rfl, hm, .failed _⟩
  rw [if_neg (not_not.mpr hstore), if_neg (not_not.mpr hstore), ends_bind]
  refine (ends_inspectConfigDirectory_told store hm).mono ?_ fun _ h => h
  rintro ⟨result, e⟩ m₁ ⟨hf₁, hm₁, hstatus⟩
  by_cases hok : result = .ok
  swap
  · -- the directory is not in order, or it could not be inspected
    rcases hstatus with hstatus | ⟨hH, e', he'⟩
    · rw [← hstatus]
      cases result <;> first | exact absurd rfl hok | exact ⟨hf₁, hm₁, .failed _⟩
    · have htold : ∀ look, Told H look (failed (result, e)) := fun look => he' ▸ .fault hH e'
      cases result <;> first | exact absurd rfl hok | exact ⟨hf₁, hm₁, htold _⟩
  subst hok
  have hdirectory : directoryStatus ((m.files store.configDirectory).map Node.kind) = (.ok, e) := by
    rcases hstatus with h | ⟨-, e', h⟩
    · exact h.symm
    · exact absurd (congrArg Prod.fst h).symm (filesystemError_ne e').1
  -- the directory is in order
  rw [hdirectory]
  dsimp only
  cases hpaths : buildPaths store pid with
  | error result => exact ⟨hf₁, hm₁, .failed _⟩
  | ok paths =>
  obtain ⟨path, temporary⟩ := paths
  obtain rfl : store.path = path := by
    unfold buildPaths at hpaths
    split_ifs at hpaths
    exact (Prod.mk.inj (Except.ok.inj hpaths)).1
  dsimp only
  rw [ends_bind]
  refine (ends_inspectSettingsFile_told store.path hm₁).mono ?_ fun _ h => h.trans hf₁
  rintro r m₂ ⟨hf₂, hm₂, ⟨hnone, rfl⟩ | ⟨ino, content, hnode, rfl⟩ | ⟨node, result, hnode, hjudge, rfl⟩ |
    ⟨hH, e, rfl⟩⟩
  · -- no settings file
    refine ⟨hf₂.trans hf₁, hm₂, ?_⟩
    rw [Store.stored, ← hf₁, hnone]
    exact .failed _
  · -- a regular file: opened and read, unless its size already rules it out
    have hstored : store.stored m.files = judge ⟨ino, .regular content⟩ := by
      rw [Store.stored, ← hf₁, hnode]
    rw [hstored]
    dsimp only
    by_cases hsize : size (Kind.regular content) = 0 ∨ fileMaxBytes < size (Kind.regular content)
    · rw [if_pos hsize]
      refine ⟨hf₂.trans hf₁, hm₂, ?_⟩
      rw [show judge ⟨ino, .regular content⟩ = .error .corrupt from if_pos hsize]
      exact .failed _
    rw [if_neg hsize, ends_bind]
    refine (show Ends (openNoFollow store.path) m₂ _ _ from ends_query hm₂).mono ?_
      fun _ h => h.trans (hf₂.trans hf₁)
    rintro r m₃ ⟨hf₃, hm₃, rfl | ⟨hH, f, rfl⟩⟩
    · have hresolve : resolve m₂.files 1 store.path = .ok store.path := by
        simp only [resolve, hf₂, hnode]
      rw [hresolve]
      exact ends_loadFile hm₃ (hf₃.trans (hf₂.trans hf₁)) (by rw [← hf₁, hnode])
    · exact ⟨hf₃.trans (hf₂.trans hf₁), hm₃, .fault hH _⟩
  · -- something else under its name
    refine ⟨hf₂.trans hf₁, hm₂, ?_⟩
    rw [Store.stored, ← hf₁, hnode]
    dsimp only
    rw [hjudge]
    exact .failed _
  · exact ⟨hf₂.trans hf₁, hm₂, .fault hH _⟩

theorem judge_eq_error {node : Node} {result : Result} (h : judge node = .error result) :
    result ≠ .ok ∧ result ≠ .missing := by
  unfold judge at h
  split at h
  · split_ifs at h
    · cases h
      simp
    · rcases parseSettings_eq_error h with rfl | rfl <;> simp
  · cases h
    simp
  · cases h
    simp

theorem stored_eq_missing : store.stored files = .error .missing ↔ files store.path = none := by
  unfold Store.stored
  cases files store.path with
  | none => simp
  | some node => simpa using fun h => (judge_eq_error h).2 rfl

theorem stored_ne_ok : store.stored files ≠ .error .ok := by
  unfold Store.stored
  split
  · simp
  · exact fun h => (judge_eq_error h).1 rfl

/-- The file cannot be reached, for a reason that is not in the file. -/
def Blocked (look : Except Result Settings) : Prop :=
  ∃ result, look = .error result ∧ result ≠ .ok ∧ result ≠ .missing ∧ result ≠ .corrupt ∧
    result ≠ .unsupportedVersion

theorem blocked_failure (e : Errno) : Blocked (.error (failure e).1) :=
  ⟨_, rfl, by cases e <;> simp [failure, filesystemError]⟩

/-- A directory that is not in order blocks what is below it. -/
theorem blocked_directoryStatus {kind : Option Kind} (h : kind ≠ some .directory) :
    Blocked (.error (directoryStatus kind).1) := by
  cases kind with
  | none => exact blocked_failure .ENOENT
  | some kind =>
    cases kind with
    | directory => exact absurd rfl h
    | regular | symlink | other => exact ⟨_, rfl, by simp [directoryStatus]⟩

/-- A load finds what is stored where the store is usable and its directory in order. -/
theorem Store.look_eq {pid : ℕ} {paths : Path × Path} (hpaths : buildPaths store pid = .ok paths)
    (hdirectory : (files store.configDirectory).map Node.kind = some .directory) :
    store.look pid files = store.stored files := by
  have hstore : storeValid store = true := by
    unfold buildPaths at hpaths
    split_ifs at hpaths with h
    exact h
  unfold Store.look
  rw [if_neg (not_not.mpr hstore), hdirectory, hpaths]
  rfl

theorem blocked_of_buildPaths {pid : ℕ} {result : Result}
    (hpaths : buildPaths store pid = .error result) : Blocked (store.look pid files) := by
  unfold Store.look
  by_cases hstore : storeValid store = true
  swap
  · rw [if_pos hstore]
    exact ⟨_, rfl, by simp⟩
  have hresult : result = .pathTooLong := by
    unfold buildPaths at hpaths
    rw [if_neg (not_not.mpr hstore)] at hpaths
    split_ifs at hpaths <;> exact (Except.error.inj hpaths).symm
  rw [if_neg (not_not.mpr hstore), hpaths, hresult]
  rcases (files store.configDirectory).map Node.kind with _ | kind
  · exact blocked_failure .ENOENT
  · cases kind <;> exact ⟨_, rfl, by simp⟩

theorem blocked_of_directory {pid : ℕ}
    (hdirectory : (files store.configDirectory).map Node.kind ≠ some .directory) :
    Blocked (store.look pid files) := by
  unfold Store.look
  by_cases hstore : storeValid store = true
  swap
  · rw [if_pos hstore]
    exact ⟨_, rfl, by simp⟩
  rw [if_neg (not_not.mpr hstore)]
  rcases hkind : (files store.configDirectory).map Node.kind with _ | kind
  · exact blocked_failure .ENOENT
  cases kind with
  | directory => exact absurd hkind hdirectory
  | regular | symlink | other => exact ⟨_, rfl, by simp⟩

/-- A load finds what is stored, or that it cannot get there. -/
theorem Store.look_cases (store : Store) (pid : ℕ) (files : Path → Option Node) :
    store.look pid files = store.stored files ∨ Blocked (store.look pid files) := by
  by_cases hdirectory : (files store.configDirectory).map Node.kind = some .directory
  · cases hpaths : buildPaths store pid with
    | ok paths => exact .inl (store.look_eq hpaths hdirectory)
    | error result => exact .inr (blocked_of_buildPaths hpaths)
  · exact .inr (blocked_of_directory hdirectory)

theorem Told.loads {pid : ℕ} {r : Loaded} (h : Told H (store.look pid files) r) :
    Loads store files r := by
  cases h with
  | fault hH e =>
    have he := filesystemError_ne e
    exact ⟨fun h => absurd h he.1, fun h => absurd h he.2.1, fun _ => rfl⟩
  | found e =>
    rcases store.look_cases pid files with h | ⟨result, h, hok, hmissing, -⟩ <;> rw [h]
    · cases hstored : store.stored files with
      | ok settings => exact ⟨fun _ => hstored, by simp [answer], by simp [answer]⟩
      | error result =>
        refine ⟨fun h => ?_, fun h => ?_, fun _ => rfl⟩
        · obtain rfl : result = .ok := h
          exact absurd hstored stored_ne_ok
        · obtain rfl : result = .missing := h
          exact stored_eq_missing.mp hstored
    · exact ⟨fun h => absurd h hok, fun h => absurd h hmissing, fun _ => rfl⟩

/-- A load that ends with `ok` or `missing` has reached the file. -/
theorem Told.not_blocked {look : Except Result Settings} {r : Loaded} (h : Told H look r)
    (hr : r.result = .ok ∨ r.result = .missing) : ¬ Blocked look := by
  rintro ⟨result, rfl, hok, hmissing, -⟩
  cases h with
  | found e => exact hr.elim hok hmissing
  | fault _ e => exact hr.elim (filesystemError_ne e).1 (filesystemError_ne e).2.1

theorem Told.of_ok {settings : Settings} {r : Loaded} (h : Told H (.ok settings) r) :
    (r.result = .ok ∧ r.settings = settings) ∨ ¬ H ∧ r.result ≠ .ok ∧ r.result ≠ .missing := by
  cases h with
  | found e => exact .inl ⟨rfl, rfl⟩
  | fault hH e => exact .inr ⟨hH, (filesystemError_ne e).1, (filesystemError_ne e).2.1⟩

/-- **What a load returns**: where it returns `ok` the settings are stored, where it returns
`missing` there is no file, and else the output holds the defaults. -/
theorem ends_load (store : Store) (pid : ℕ) (m : Machine) :
    Ends (load store pid) m (fun r m' => m'.files = m.files ∧ Loads store m.files r)
      fun m' => m'.files = m.files :=
  (ends_load_told (H := False) store pid False.elim).mono (fun _ _ h => ⟨h.1, h.2.2.loads⟩)
    fun _ h => h

theorem paced_closing (status : Status) : Paced (closing status) :=
  (paced_query _).bind fun _ => .pure _

theorem paced_loadFile (before : Node) (fd : Path) : Paced (loadFile before fd) := by
  unfold loadFile
  refine (paced_fstat fd).bind fun r => ?_
  cases r with
  | error e => exact paced_closing _
  | ok opened =>
    dsimp only
    split
    swap
    · exact paced_closing _
    refine (paced_closing _).ite ((paced_closing _).ite ((paced_readWhole _ _).bind fun r => ?_))
    rcases r with e | _ | data
    · exact paced_closing _
    · exact paced_closing _
    · refine (paced_query _).bind fun r => ?_
      cases r with
      | error e => exact .pure _
      | ok _ =>
        dsimp only
        split <;> exact .pure _

theorem paced_inspectConfigDirectory (store : Store) : Paced (inspectConfigDirectory store) := by
  refine (paced_query _).bind fun r => ?_
  cases r with
  | error e => exact .pure _
  | ok st =>
    dsimp only
    split <;> exact .pure _

theorem paced_inspectSettingsFile (path : Path) (missingIsSettings : Bool) :
    Paced (inspectSettingsFile path missingIsSettings) := by
  refine (paced_query _).bind fun r => ?_
  cases r with
  | error e => exact .ite (.pure _) (.pure _)
  | ok st =>
    dsimp only
    split <;> exact .pure _

/-- A load depends on no fate but those of its own calls. -/
theorem paced_load (store : Store) (pid : ℕ) : Paced (load store pid) := by
  refine .ite (.pure _) ((paced_inspectConfigDirectory store).bind fun status => ?_)
  split
  swap
  · exact .pure _
  split
  · exact .pure _
  refine (paced_inspectSettingsFile _ true).bind fun r => ?_
  cases r with
  | error status => exact .pure _
  | ok before =>
    refine .ite (.pure _) ((paced_query _).bind fun r => ?_)
    cases r with
    | error e => exact .pure _
    | ok fd => exact paced_loadFile before fd

/-- **What an initialization leaves**: the store of the directory, unless the file cannot be
reached or a call fails on its own. -/
theorem ends_init {directory : Path} (htrim : trimSlashes directory = directory) (pid : ℕ)
    (hm : H → Healthy m) :
    Ends (init (some directory) pid) m
      (fun r m' => m'.files = m.files ∧ (H → Healthy m') ∧
        (r = .ok ⟨directory, directory.length⟩ ∨
          ∃ status, r = .error status ∧ status.1 ≠ .ok ∧
            (¬ H ∨ Blocked ((⟨directory, directory.length⟩ : Store).look pid m.files))))
      fun m' => m'.files = m.files := by
  have hpaths_ne : ∀ {result}, buildPaths ⟨directory, directory.length⟩ pid = .error result →
      result ≠ .ok := by
    intro result h
    unfold buildPaths at h
    split_ifs at h <;> cases h <;> simp
  have hinvalid : storeValid ⟨directory, directory.length⟩ ≠ true →
      Blocked ((⟨directory, directory.length⟩ : Store).look pid m.files) :=
    fun hstore => blocked_of_buildPaths (if_pos hstore)
  unfold init
  dsimp only
  -- a directory that is refused makes a store that no load gets past
  by_cases hhead : directory.length = 0 ∨ directory.head? ≠ some 0x2f
  · rw [if_pos hhead]
    refine ⟨rfl, hm, .inr ⟨_, rfl, by simp, .inr (hinvalid fun h => ?_)⟩⟩
    unfold storeValid at h
    split_ifs at h with hlen
    rcases hhead with hnil | hhead
    · exact hlen (.inl hnil)
    · exact hhead (of_decide_eq_true h).2
  rw [if_neg hhead]
  by_cases hlong : pathCapacity ≤ boundedLength (some directory) pathCapacity
  · rw [if_pos hlong]
    refine ⟨rfl, hm, .inr ⟨_, rfl, by simp, .inr (hinvalid fun h => ?_)⟩⟩
    unfold storeValid at h
    split_ifs at h with hlen
    exact hlen (.inr (hlong.trans (min_le_left _ _)))
  rw [if_neg hlong, htrim]
  cases hpaths : buildPaths ⟨directory, directory.length⟩ pid with
  | error result =>
    exact ⟨rfl, hm, .inr ⟨_, rfl, hpaths_ne hpaths, .inr (blocked_of_buildPaths hpaths)⟩⟩
  | ok paths =>
  dsimp only
  rw [ends_bind]
  refine (ends_inspectConfigDirectory_told _ hm).mono ?_ fun _ h => h
  -- the directory is inspected, and nothing else
  rintro ⟨result, e⟩ m' ⟨hf, hm', hstatus⟩
  by_cases hok : result = .ok
  · subst hok
    exact ⟨hf, hm', .inl rfl⟩
  have hblocked : ¬ H ∨ Blocked ((⟨directory, directory.length⟩ : Store).look pid m.files) := by
    rcases hstatus with hstatus | ⟨hH, -⟩
    · refine .inr (blocked_of_directory fun hdirectory => hok ?_)
      rw [hdirectory] at hstatus
      exact congrArg Prod.fst hstatus
    · exact .inl hH
  cases result <;> first | exact absurd rfl hok | exact ⟨hf, hm', .inr ⟨_, rfl, hok, hblocked⟩⟩

end Load

end SettingsStore
