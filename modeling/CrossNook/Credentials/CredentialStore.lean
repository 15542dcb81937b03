import CrossNook.System.Replace
import CrossNook.Text.Lines
import Mathlib.Data.List.DropRight

/-!
# The credential store

Bounded persistence of the authentication material (`credentials/credential_store.c`): the file
format, and the load and save of the one credentials file.

## Main definitions

* `Credentials`: `cn_credentials`
* `CredentialStore.serialize`, `CredentialStore.parse`: the file format
* `CredentialStore.load`, `CredentialStore.save`: `cn_credential_store_load`,
  `cn_credential_store_save`

## Main results

* `CredentialStore.credentials_codec`: the format is a bijection
* `CredentialStore.save_atomic`: a save replaces the file atomically
* `CredentialStore.ends_load`: what a load returns
-/

/-- `cn_credentials`. -/
structure Credentials where
  username : List UInt8
  userkey : List UInt8
  deriving DecidableEq, Repr

namespace CredentialStore

open Bytes Crash Posix

/-- `CN_CREDENTIAL_USERNAME_MAX`. -/
def usernameMax : ℕ := 255

/-- `CN_CREDENTIAL_USERKEY_MAX`. -/
def userkeyMax : ℕ := 255

/-- `CN_CREDENTIAL_PATH_CAPACITY`. -/
def pathCapacity : ℕ := 4096

/-- `CN_CREDENTIAL_FILE_MAX_BYTES`. -/
def fileMaxBytes : ℕ := 1024

/-- `cn_credential_result`. -/
inductive Result
  | ok
  | missing
  | invalid
  | corrupt
  | unsupportedVersion
  | pathTooLong
  | notFound
  | notDirectory
  | symlink
  | nonRegular
  | permissionDenied
  | readOnly
  | noSpace
  | ioError
  | durabilityUncertain
  deriving DecidableEq, Repr

/-- A result with the value left in `system_errno`. -/
abbrev Status : Type := Result × Option Errno

/-- `fs_error`. -/
def fsError : Errno → Result
  | .ENOENT => .notFound
  | .ENOTDIR => .notDirectory
  | .ELOOP => .symlink
  | .ENAMETOOLONG => .pathTooLong
  | .EACCES => .permissionDenied
  | .EPERM => .permissionDenied
  | .EROFS => .readOnly
  | .ENOSPC => .noSpace
  | .EDQUOT => .noSpace
  | _ => .ioError

/-- The status after a failed system call. -/
def failure (e : Errno) : Status := (fsError e, some e)

/-- A record of zeros. -/
def cleared : Credentials := ⟨[], []⟩

/-- `cn_credentials_clear`, whatever the record held. -/
def clear (_ : Credentials) : Credentials := cleared

/-! ## Checks and paths -/

/-- `bounded_length`. -/
def boundedLength (text : Option (List UInt8)) (capacity : ℕ) : ℕ :=
  match text with
  | none => capacity
  | some text => min text.length capacity

/-- A byte that `valid_text` admits. -/
abbrev TextByte (c : UInt8) : Prop := ¬ (c < 0x20 ∨ c = 0x7f)

/-- `valid_text`. -/
def validText (text : List UInt8) (max : ℕ) : Bool :=
  let len := boundedLength (some text) (max + 1)
  if len = 0 ∨ max < len then false else (text.take len).all fun c => TextByte c

/-- `cn_credential_store`. -/
structure Store where
  directory : List UInt8
  directoryLength : ℕ

/-- `store_valid`. -/
def storeValid (store : Store) : Bool :=
  1 < store.directoryLength ∧ store.directoryLength < pathCapacity - 48 ∧
    boundedLength (some store.directory) pathCapacity = store.directoryLength ∧
    store.directory.head? = some 0x2f ∧ store.directory.getLast? ≠ some 0x2f

/-- `inspect_directory`. -/
def inspectDirectory (path : Path) : Sys Status := do
  match ← lstat path with
  | .error e => return failure e
  | .ok st =>
    match st.kind with
    | .symlink _ => return (.symlink, none)
    | .directory => return (.ok, none)
    | _ => return (.notDirectory, none)

/-- `final_path`. -/
def Store.path (store : Store) : Path := store.directory ++ ascii "/credentials"

/-- The loop that drops trailing slashes, but not the first byte. -/
def trimSlashes : List UInt8 → List UInt8
  | [] => []
  | c :: text => c :: text.rdropWhile fun d => d = 0x2f

/-- `cn_credential_store_init`. -/
def init (directory : Option (List UInt8)) : Sys (Except Status Store) :=
  let len := boundedLength directory pathCapacity
  let text := directory.getD []
  if pathCapacity - 48 ≤ len then return .error (.pathTooLong, none)
  else if len < 2 ∨ text.head? ≠ some 0x2f then return .error (.invalid, none)
  else if ¬ plainComponents (trimSlashes text) then return .error (.invalid, none)
  else do
    match ← inspectDirectory (trimSlashes text) with
    | (.ok, _) => return .ok ⟨trimSlashes text, (trimSlashes text).length⟩
    | status => return .error status

/-- `inspect_file`: the result where it is not `ok`, or the status of the file. -/
def inspectFile (path : Path) : Sys (Except Status Node) := do
  match ← lstat path with
  | .error e => return .error (if e = .ENOENT then (.missing, none) else failure e)
  | .ok st =>
    match st.kind with
    | .symlink _ => return .error (.symlink, none)
    | .regular _ => return .ok st
    | _ => return .error (.nonRegular, none)

/-! ## The file format -/

/-- The checks of `parse` on its four lines. -/
def parseLines (data versionLine usernameLine userkeyLine crcLine : List UInt8) :
    Except Result Credentials :=
  match Lines.value (ascii "crossnook-credentials") versionLine with
  | none => .error .corrupt
  | some version =>
    -- a version is a number without leading zeros, of which only 1 is known
    if version.length = 0 ∨ (1 < version.length ∧ version.head? = some 0x30) then .error .corrupt
    else if ¬ version.all fun c => IsDigit c then .error .corrupt
    else if version ≠ [0x31] then .error .unsupportedVersion
    else
      match Lines.value (ascii "username") usernameLine with
      | none => .error .corrupt
      | some username =>
        if username.length = 0 ∨ usernameMax < username.length then .error .corrupt
        else
          match Lines.value (ascii "userkey") userkeyLine with
          | none => .error .corrupt
          | some userkey =>
            if userkey.length = 0 ∨ userkeyMax < userkey.length then .error .corrupt
            else if ¬ validText username usernameMax ∨ ¬ validText userkey userkeyMax then
              .error .corrupt
            else
              -- the checksum is of all the bytes in front of its line
              match (Lines.value (ascii "crc32") crcLine).bind Lines.ofHex8 with
              | none => .error .corrupt
              | some actual =>
                if actual ≠ crc32 (data.take (data.length - (crcLine.length + 1))) then
                  .error .corrupt
                else .ok ⟨username, userkey⟩

/-- `parse`. -/
def parse (data : List UInt8) : Except Result Credentials :=
  if data.length = 0 ∨ fileMaxBytes < data.length ∨ 0 ∈ data then .error .corrupt
  else
    match Lines.take 4 data with
    | some ([versionLine, usernameLine, userkeyLine, crcLine], []) =>
      parseLines data versionLine usernameLine userkeyLine crcLine
    | _ => .error .corrupt

/-- `serialize`. -/
def serialize (credentials : Credentials) : Option (List UInt8) :=
  if ¬ validText credentials.username usernameMax ∨ ¬ validText credentials.userkey userkeyMax then
    none
  else
    let data := ascii "crossnook-credentials=1\nusername=" ++ credentials.username ++
      ascii "\nuserkey=" ++ credentials.userkey ++ ascii "\n"
    some (data ++ ascii "crc32=" ++ Lines.hex8 (crc32 data) ++ ascii "\n")

/-! ## Load -/

/-- A load that is over: the result, the record that the caller has then and `system_errno`. -/
structure Loaded where
  result : Result
  credentials : Credentials
  systemErrno : Option Errno

/-- A load that failed, and the record that it leaves. -/
def failed (credentials : Credentials) (status : Status) : Loaded :=
  ⟨status.1, credentials, status.2⟩

/-- The exits of `cn_credential_store_load` that close the file. -/
def closing (credentials : Credentials) (status : Status) : Sys Loaded := do
  let _ ← close
  return failed (clear credentials) status

/-- The bytes of a regular file. -/
def size (kind : Kind) : ℕ :=
  match kind with
  | .regular content => content.length
  | _ => 0

/-- `cn_credential_store_load` after the file is open. -/
def loadFile (before : Node) (fd : Path) (credentials : Credentials) : Sys Loaded := do
  match ← fstat fd with
  | .error e => closing credentials (failure e)
  | .ok opened =>
    match opened.kind with
    | .regular content =>
      if opened.ino ≠ before.ino then closing credentials (.ioError, none)
      else if content.length = 0 ∨ fileMaxBytes < content.length then
        closing credentials (.corrupt, none)
      else do
        match ← readWhole fd content.length with
        | .error e => closing credentials (failure e)
        | .ok none => closing credentials (.corrupt, none)
        | .ok (some data) =>
          match ← close with
          | .error e => return failed (clear credentials) (failure e)
          | .ok _ =>
            match parse data with
            | .error result => return failed (clear credentials) (result, none)
            | .ok parsed => return ⟨.ok, parsed, none⟩
    | _ => closing credentials (.nonRegular, none)

/-- `cn_credential_store_load` into the caller's record. -/
def load (store : Store) (credentials : Credentials) : Sys Loaded :=
  -- the record is cleared first, so the exits before the file is open leave it as it is
  let credentials := clear credentials
  if ¬ storeValid store then return failed credentials (.invalid, none)
  else do
    match ← inspectDirectory store.directory with
    | (.ok, _) =>
      match ← inspectFile store.path with
      | .error status => return failed credentials status
      | .ok before =>
        if size before.kind = 0 ∨ fileMaxBytes < size before.kind then
          return failed credentials (.corrupt, none)
        else do
          match ← openNoFollow store.path with
          | .error e => return failed credentials (failure e)
          | .ok fd => loadFile before fd credentials
    | status => return failed credentials status

/-! ## Save -/

/-- The path of a temporary file. -/
def Store.temporary (store : Store) (pid : ℕ) (sequence : UInt32) : Path :=
  store.path ++ ascii ".tmp." ++ decimal pid ++ ascii "." ++ decimal sequence.toNat

/-- The loop that creates a temporary file under a name that is not in use, trying at most as
often as the first argument says. -/
def createTemporary (store : Store) (pid : ℕ) : ℕ → UInt32 → Sys (Except Status Path)
  | 0, _ => return .error (.ioError, none)
  | tries + 1, sequence =>
    let temporary := store.temporary pid (sequence + 1)
    if pathCapacity ≤ temporary.length then return .error (.pathTooLong, none)
    else do
      match ← openCreate temporary with
      | .ok _ => return .ok temporary
      | .error e =>
        if e = .EEXIST then createTemporary store pid tries (sequence + 1)
        else return .error (failure e)

/-- The label `done` of `cn_credential_store_save` while the temporary file exists: `opened` tells
whether it is still open. -/
def discard (opened : Bool) (temporary : Path) (status : Status) : Sys Status := do
  if opened then
    let _ ← close
  match unlinkFailure (← unlink temporary) with
  | some e => return failure e
  | none => return status

/-- The exits after the rename that close the directory. -/
def uncertain (e : Option Errno) : Sys Status := do
  let _ ← close
  return (.durabilityUncertain, e)

/-- The synchronization of the directory after the rename. -/
def syncDirectory (store : Store) (dirBefore : Node) : Sys Status := do
  match ← openDirectoryNoFollow store.directory with
  | .error e => return (.durabilityUncertain, some e)
  | .ok fd =>
    match ← fstat fd with
    | .error e => uncertain (some e)
    | .ok dirOpened =>
      if dirOpened.kind ≠ .directory ∨ dirBefore.ino ≠ dirOpened.ino then uncertain none
      else do
        match ← fsync with
        | .error e => uncertain (some e)
        | .ok _ =>
          match ← close with
          | .error e => return (.durabilityUncertain, some e)
          | .ok _ => return (.ok, none)

/-- The rename of the temporary file, unless the final entry became something else. -/
def renameTemporary (store : Store) (dirBefore : Node) (temporary : Path) : Sys Status := do
  match ← rename temporary store.path with
  | .error e => discard false temporary (failure e)
  | .ok _ => syncDirectory store dirBefore

/-- `cn_credential_store_save` after the temporary file is created. -/
def replaceFile (store : Store) (dirBefore : Node) (temporary : Path) (data : List UInt8) :
    Sys Status := do
  match ← writeAll temporary data with
  | .error e => discard true temporary (failure e)
  | .ok _ =>
    match ← fsync with
    | .error e => discard true temporary (failure e)
    | .ok _ =>
      match ← close with
      | .error e => discard false temporary (failure e)
      | .ok _ =>
        match ← inspectFile store.path with
        | .ok _ => renameTemporary store dirBefore temporary
        | .error (.missing, _) => renameTemporary store dirBefore temporary
        | .error status => discard false temporary status

/-- `cn_credential_store_save` after the checks of the final entry. -/
def writeCredentials (store : Store) (dirBefore : Node) (data : List UInt8) (pid : ℕ)
    (sequence : UInt32) : Sys Status := do
  match ← createTemporary store pid 32 sequence with
  | .error status => return status
  | .ok temporary => replaceFile store dirBefore temporary data

/-- `cn_credential_store_save` in the process `pid`, whose counter stands at `sequence`. -/
def save (store : Store) (credentials : Credentials) (pid : ℕ) (sequence : UInt32) : Sys Status :=
  if ¬ storeValid store then return (.invalid, none)
  else
    match serialize credentials with
    | none => return (.invalid, none)
    | some data => do
      match ← inspectDirectory store.directory with
      | (.ok, _) =>
        match ← lstat store.directory with
        | .error e => return failure e
        | .ok dirBefore =>
          match ← inspectFile store.path with
          | .ok _ => writeCredentials store dirBefore data pid sequence
          | .error (.missing, _) => writeCredentials store dirBefore data pid sequence
          | .error status => return status
      | status => return status

/-! ## The format round trip -/

/-- Credentials that the store accepts. -/
structure Valid (credentials : Credentials) : Prop where
  username : credentials.username ≠ [] ∧ credentials.username.length ≤ usernameMax
  username_byte : ∀ c ∈ credentials.username, TextByte c
  userkey : credentials.userkey ≠ [] ∧ credentials.userkey.length ≤ userkeyMax
  userkey_byte : ∀ c ∈ credentials.userkey, TextByte c

theorem validText_iff {text : List UInt8} {max : ℕ} :
    validText text max = true ↔ text ≠ [] ∧ text.length ≤ max ∧ ∀ c ∈ text, TextByte c := by
  unfold validText boundedLength
  dsimp only
  by_cases hlen : text.length ≤ max
  · have hmin : min text.length (max + 1) = text.length := by omega
    rw [hmin, List.take_length]
    by_cases hnil : text = []
    · subst hnil
      simp
    · have hpos : text.length ≠ 0 := by simpa [List.length_eq_zero_iff] using hnil
      rw [if_neg (by omega), List.all_eq_true]
      simp only [decide_eq_true_eq]
      exact ⟨fun h => ⟨hnil, hlen, h⟩, fun h => h.2.2⟩
  · rw [if_pos (by omega)]
    simp [hlen]

theorem serialize_eq_some {credentials : Credentials} {data : List UInt8}
    (h : serialize credentials = some data) : Valid credentials := by
  unfold serialize at h
  by_cases hv : ¬ validText credentials.username usernameMax ∨
      ¬ validText credentials.userkey userkeyMax
  · rw [if_pos hv] at h
    cases h
  · rw [not_or, not_not, not_not, validText_iff, validText_iff] at hv
    obtain ⟨⟨h1, h2, h3⟩, h4, h5, h6⟩ := hv
    exact ⟨⟨h1, h2⟩, h3, ⟨h4, h5⟩, h6⟩

/-- The lines of a credentials file before the checksum. -/
def bodyLines (credentials : Credentials) : List (List UInt8) :=
  [Lines.pair (ascii "crossnook-credentials") [0x31],
    Lines.pair (ascii "username") credentials.username,
    Lines.pair (ascii "userkey") credentials.userkey]

theorem serialize_eq {credentials : Credentials} (h : Valid credentials) :
    serialize credentials = some (Lines.sealText (bodyLines credentials)) := by
  have h1 : ascii "crossnook-credentials=1\nusername=" =
    ascii "crossnook-credentials" ++ [0x3d] ++ [0x31] ++ [0x0a] ++ ascii "username" ++ [0x3d] := by
    decide
  have h2 : ascii "\nuserkey=" = [0x0a] ++ ascii "userkey" ++ [0x3d] := by decide
  have h3 : ascii "\n" = [0x0a] := by decide
  have h4 : ascii "crc32=" = ascii "crc32" ++ [0x3d] := by decide
  have hbody : ascii "crossnook-credentials=1\nusername=" ++ credentials.username ++
      ascii "\nuserkey=" ++ credentials.userkey ++ ascii "\n" =
      Lines.text (bodyLines credentials) := by
    rw [h1, h2, h3]
    simp [Lines.text, bodyLines, Lines.pair]
  unfold serialize
  rw [if_neg]
  · dsimp only
    rw [hbody, h3, h4]
    simp [Lines.sealText, Lines.text, Lines.crcLine, Lines.pair]
  · rw [not_or, not_not, not_not, validText_iff, validText_iff]
    exact ⟨⟨h.username.1, h.username.2, h.username_byte⟩,
      h.userkey.1, h.userkey.2, h.userkey_byte⟩

theorem printable_bodyLines {credentials : Credentials} (h : Valid credentials) :
    ∀ line ∈ bodyLines credentials, Lines.Printable line := by
  have hkeys : ∀ key ∈ [ascii "crossnook-credentials", ascii "username", ascii "userkey", [0x31]],
      key.all (fun b => 0x20 ≤ b) = true := by decide
  have hname : Lines.Printable credentials.username := fun b hb => by
    have := h.username_byte b hb
    grind
  have hkey : Lines.Printable credentials.userkey := fun b hb => by
    have := h.userkey_byte b hb
    grind
  intro line hline
  simp only [bodyLines, List.mem_cons, List.not_mem_nil, or_false] at hline
  rcases hline with rfl | rfl | rfl
  · exact Lines.printable_pair (Bytes.forall_of_all (hkeys _ (by simp)))
      (Bytes.forall_of_all (hkeys _ (by simp)))
  · exact Lines.printable_pair (Bytes.forall_of_all (hkeys _ (by simp))) hname
  · exact Lines.printable_pair (Bytes.forall_of_all (hkeys _ (by simp))) hkey

theorem length_text_bodyLines (credentials : Credentials) :
    (Lines.text (bodyLines credentials)).length =
      43 + credentials.username.length + credentials.userkey.length := by
  have h1 : (ascii "crossnook-credentials").length = 21 := rfl
  have h2 : (ascii "username").length = 8 := rfl
  have h3 : (ascii "userkey").length = 7 := rfl
  simp [Lines.text, bodyLines, Lines.pair, h1, h2, h3]
  omega

/-- **Reading credentials as they were written.** -/
theorem parse_of_serialize {credentials : Credentials} {data : List UInt8}
    (hdata : serialize credentials = some data) : parse data = .ok credentials := by
  have hvalid := serialize_eq_some hdata
  have hprint := printable_bodyLines hvalid
  obtain rfl : Lines.sealText (bodyLines credentials) = data := by
    rw [serialize_eq hvalid] at hdata
    exact Option.some.inj hdata
  have hlen := Lines.length_sealText (bodyLines credentials)
  rw [length_text_bodyLines] at hlen
  -- what the reader looks at before it splits the text
  have hzero := Lines.zero_notMem_sealText hprint
  have htake : Lines.take 4 (Lines.sealText (bodyLines credentials)) = _ :=
    Lines.take_sealText hprint
  have hcrc := Lines.crc32_sealText (bodyLines credentials)
  obtain ⟨hu, hu'⟩ := hvalid.username
  obtain ⟨hk, hk'⟩ := hvalid.userkey
  have hu0 : credentials.username.length ≠ 0 := by simpa [List.length_eq_zero_iff] using hu
  have hk0 : credentials.userkey.length ≠ 0 := by simpa [List.length_eq_zero_iff] using hk
  have hsize : ¬ ((Lines.sealText (bodyLines credentials)).length = 0 ∨
      fileMaxBytes < (Lines.sealText (bodyLines credentials)).length ∨
      0 ∈ Lines.sealText (bodyLines credentials)) := by
    unfold fileMaxBytes usernameMax userkeyMax at *
    simp only [hlen, hzero, or_false]
    omega
  -- its checks pass one by one
  unfold parse
  rw [if_neg hsize, htake]
  generalize Lines.sealText (bodyLines credentials) = data at hcrc
  generalize Lines.text (bodyLines credentials) = body at hcrc
  simp only [bodyLines, List.cons_append, List.nil_append]
  unfold parseLines
  simp only [Lines.value_pair]
  rw [if_neg (by simp), if_neg (by decide), if_neg (by simp), if_neg (by omega),
    if_neg (by omega), if_neg, Lines.value_crcLine]
  · dsimp only
    exact if_neg (not_not.mpr hcrc.symm)
  · rw [not_or, not_not, not_not, validText_iff, validText_iff]
    exact ⟨⟨hu, hu', hvalid.username_byte⟩, hk, hk', hvalid.userkey_byte⟩

/-- The lines that a successful parse has read, and the credentials that it makes of them. -/
theorem parseLines_eq_ok {data versionLine usernameLine userkeyLine crcLine : List UInt8}
    {credentials : Credentials}
    (h : parseLines data versionLine usernameLine userkeyLine crcLine = .ok credentials) :
    Valid credentials ∧ ∃ digits,
      [versionLine, usernameLine, userkeyLine] = bodyLines credentials ∧
      crcLine = Lines.pair (ascii "crc32") digits ∧
      Lines.ofHex8 digits = some (crc32 (data.take (data.length - (crcLine.length + 1)))) := by
  unfold parseLines at h
  -- the checks that the lines have passed, in their order
  split at h
  · cases h
  rename_i version hversion
  split at h
  · cases h
  split at h
  · cases h
  split at h
  · cases h
  rename_i hone
  obtain rfl := not_not.mp hone
  split at h
  · cases h
  rename_i username husername
  split at h
  · cases h
  split at h
  · cases h
  rename_i userkey huserkey
  split at h
  · cases h
  split at h
  · cases h
  rename_i htext
  split at h
  · cases h
  rename_i actual hcrc
  split at h
  · cases h
  rename_i hsum
  obtain rfl := Except.ok.inj h
  obtain rfl := not_not.mp hsum
  rw [not_or, not_not, not_not, validText_iff, validText_iff] at htext
  obtain ⟨⟨hu, hu', hub⟩, hk, hk', hkb⟩ := htext
  obtain ⟨digits, hdigits, hhex⟩ := Option.bind_eq_some_iff.mp hcrc
  refine ⟨⟨⟨hu, hu'⟩, hub, ⟨hk, hk'⟩, hkb⟩, digits, ?_, Lines.eq_pair_of_value hdigits, hhex⟩
  rw [Lines.eq_pair_of_value hversion, Lines.eq_pair_of_value husername,
    Lines.eq_pair_of_value huserkey, bodyLines]

/-- **A file that parses is the one that its credentials are written as.** -/
theorem serialize_of_parse {data : List UInt8} {credentials : Credentials}
    (h : parse data = .ok credentials) :
    Valid credentials ∧ serialize credentials = some data := by
  unfold parse at h
  split at h
  · cases h
  split at h
  swap
  · cases h
  rename_i versionLine usernameLine userkeyLine crcLine htake
  obtain ⟨hvalid, digits, hlines, rfl, hhex⟩ := parseLines_eq_ok h
  refine ⟨hvalid, ?_⟩
  have hdata := Lines.take_eq_some htake
  rw [List.append_nil] at hdata
  have htext : data =
      Lines.text (bodyLines credentials ++ [Lines.pair (ascii "crc32") digits]) := by
    rw [← hlines]
    exact hdata
  rw [serialize_eq hvalid, ← Lines.eq_sealText htext hhex]

theorem length_le_of_serialize {credentials : Credentials} {data : List UInt8}
    (h : serialize credentials = some data) : data.length ≤ fileMaxBytes := by
  have hvalid := serialize_eq_some h
  obtain rfl : Lines.sealText (bodyLines credentials) = data := by
    rw [serialize_eq hvalid] at h
    exact Option.some.inj h
  have hu := hvalid.username.2
  have hk := hvalid.userkey.2
  unfold usernameMax at hu
  unfold userkeyMax at hk
  rw [Lines.length_sealText, length_text_bodyLines, fileMaxBytes]
  omega

/-! ## What a save does -/

/-- The statuses after which the new file is visible. -/
def Visible (status : Status) : Prop := status.1 = .ok ∨ status.1 = .durabilityUncertain

theorem fsError_ne (e : Errno) :
    fsError e ≠ .ok ∧ fsError e ≠ .missing ∧ fsError e ≠ .durabilityUncertain := by
  cases e <;> simp [fsError]

theorem failure_not_visible (e : Errno) : ¬ Visible (failure e) := by
  have h := fsError_ne e
  rintro (he | he)
  exacts [h.1 he, h.2.2 he]

/-- The temporary files of a process. -/
def temporaries (store : Store) (pid : ℕ) : Set Path :=
  {t | ∃ sequence, t = store.temporary pid sequence}

theorem path_notMem_temporaries (store : Store) (pid : ℕ) :
    store.path ∉ temporaries store pid := by
  rintro ⟨sequence, h⟩
  have := congrArg List.length h
  have h5 : (ascii ".tmp.").length = 5 := rfl
  simp only [Store.temporary, List.length_append, h5] at this
  omega

section Save

variable {store : Store} {pid : ℕ} {t : Path} {data : List UInt8} {P : Machine → Prop}

theorem discard_leaves (ht : t ∈ temporaries store pid) (opened : Bool) {status : Status}
    (h : ¬ Visible status) :
    Leaves Visible (temporaries store pid) (discard opened t status) := by
  have htail : Leaves Visible (temporaries store pid) (do
      match unlinkFailure (← unlink t) with
      | some e => return failure e
      | none => return status) := by
    refine Leaves.bind (touches_unlink ht) fun r => ?_
    split
    · exact Leaves.pure (failure_not_visible _)
    · exact Leaves.pure h
  cases opened with
  | false => exact htail
  | true => exact Leaves.bind ((keepsFiles_query _).touches _) fun _ => htail

theorem syncDirectory_shows (store : Store) (dirBefore : Node) :
    Shows Visible (syncDirectory store dirBefore) := by
  have huncertain : ∀ e, Shows Visible (uncertain e) :=
    fun e => Shows.bind (keepsFiles_query _) fun _ => Shows.pure (.inr rfl)
  refine Shows.bind (keepsFiles_query _) fun r => ?_
  cases r with
  | error e => exact Shows.pure (.inr rfl)
  | ok fd =>
    refine Shows.bind (keepsFiles_lstat _) fun r => ?_
    cases r with
    | error e => exact huncertain _
    | ok dirOpened =>
      dsimp only
      split_ifs
      · exact huncertain _
      · refine Shows.bind (keepsFiles_query _) fun r => ?_
        cases r with
        | error e => exact huncertain _
        | ok _ =>
          refine Shows.bind (keepsFiles_query _) fun r => ?_
          cases r with
          | error e => exact Shows.pure (.inr rfl)
          | ok _ => exact Shows.pure (.inl rfl)

theorem keepsFiles_inspectDirectory (path : Path) : KeepsFiles (inspectDirectory path) := by
  refine (keepsFiles_lstat _).bind fun r => ?_
  split
  · exact Keeps.pure _
  · split <;> exact Keeps.pure _

theorem keepsFiles_inspectFile (path : Path) : KeepsFiles (inspectFile path) := by
  refine (keepsFiles_lstat _).bind fun r => ?_
  split
  · exact Keeps.pure _
  · split <;> exact Keeps.pure _

/-- The directory is in order, or the status says why not. -/
theorem ends_inspectDirectory (path : Path) (m : Machine) :
    Ends (inspectDirectory path) m
      (fun status _ => status.1 = .ok ∨ status.1 ≠ .missing ∧ ¬ Visible status)
      fun _ => True := by
  refine (ends_bind _).mpr (((keepsFiles_lstat _).ends m).mono (fun r m' _ => ?_) fun _ _ => trivial)
  cases r with
  | error e => exact .inr ⟨(fsError_ne e).2.1, failure_not_visible e⟩
  | ok st =>
    dsimp only
    split
    · exact .inr ⟨by simp, by simp [Visible]⟩
    · exact .inl rfl
    · exact .inr ⟨by simp, by simp [Visible]⟩

/-- What is at the path of the credentials file, or the status that says why not. -/
theorem ends_inspectFile (path : Path) (m : Machine) :
    Ends (inspectFile path) m
      (fun r m' => m'.files = m.files ∧
        ((∃ node content, r = .ok node ∧ m.files path = some node ∧
            node.kind = .regular content) ∨
          r = .error (.missing, none) ∧ m.files path = none ∨
          ∃ status, r = .error status ∧ status.1 ≠ .missing ∧ ¬ Visible status))
      fun m' => m'.files = m.files := by
  refine (ends_bind _).mpr
    ((show Ends (lstat path) m _ _ from ends_query (H := False) False.elim).mono ?_ fun _ h => h)
  rintro r m' ⟨hf, -, rfl | ⟨-, f, rfl⟩⟩
  · cases hp : m.files path with
    | none => exact ⟨hf, .inr (.inl ⟨rfl, rfl⟩)⟩
    | some node =>
      obtain ⟨ino, kind⟩ := node
      cases kind with
      | regular content => exact ⟨hf, .inl ⟨_, content, rfl, rfl, rfl⟩⟩
      | symlink | directory | other =>
        exact ⟨hf, .inr (.inr ⟨_, rfl, by simp, by simp [Visible]⟩)⟩
  · dsimp only
    rw [if_neg f.ne]
    exact ⟨hf, .inr (.inr ⟨_, rfl, (fsError_ne _).2.1, failure_not_visible _⟩)⟩

/-- Going on where the final entry is a regular file or missing, and giving up where not. -/
theorem inspectFile_replaces {good : Sys Status} {bad : Status → Sys Status}
    (hP : ∀ m m' : Machine, m'.files = m.files → P m → P m')
    (hgood : Replaces Visible (temporaries store pid) store.path data P good)
    (hbad : ∀ status, ¬ Visible status → Leaves Visible (temporaries store pid) (bad status)) :
    Replaces Visible (temporaries store pid) store.path data P (do
      match ← inspectFile store.path with
      | .ok _ => good
      | .error (.missing, _) => good
      | .error status => bad status) := by
  have hp := path_notMem_temporaries store pid
  refine Replaces.bind
    (R := fun r m => P m ∧ ∀ s, r = .error s → s.1 = .missing ∨ ¬ Visible s) hp
    ((keepsFiles_inspectFile _).touches _) (fun m hm => ?_) fun r => ?_
  · refine (ends_inspectFile store.path m).mono ?_ fun _ _ => trivial
    rintro r m' ⟨hf, ⟨_, _, rfl, -⟩ | ⟨rfl, -⟩ | ⟨status, rfl, -, hv⟩⟩
    · exact ⟨hP m m' hf hm, fun s hs => by cases hs⟩
    · refine ⟨hP m m' hf hm, fun s hs => ?_⟩
      cases hs
      exact .inl rfl
    · refine ⟨hP m m' hf hm, fun s hs => ?_⟩
      cases hs
      exact .inr hv
  · -- of the errors only `missing` goes on
    rcases r with ⟨result, e⟩ | node
    · by_cases hmissing : result = .missing
      · subst hmissing
        exact hgood.weaken fun _ h => h.1
      · intro m hm
        have hnot : ¬ Visible (result, e) := (hm.2 _ rfl).resolve_left hmissing
        split
        · next h => cases h
        · next h =>
          cases h
          exact absurd rfl hmissing
        · next h =>
          cases h
          exact (hbad _ hnot).replaces (P := fun _ => True) hp m trivial
    · exact hgood.weaken fun _ h => h.1

theorem touches_createTemporary (tries : ℕ) (sequence : UInt32) :
    Touches (temporaries store pid) (createTemporary store pid tries sequence) := by
  induction tries generalizing sequence with
  | zero => exact Keeps.pure _
  | succ tries ih =>
    unfold createTemporary
    have ht : store.temporary pid (sequence + 1) ∈ temporaries store pid := ⟨_, rfl⟩
    refine Keeps.ite (Keeps.pure _) ((touches_openCreate ht).bind fun r => ?_)
    cases r with
    | ok u => exact Keeps.pure _
    | error e => exact Keeps.ite (ih _) (Keeps.pure _)

/-- A created temporary file is empty. -/
theorem ends_createTemporary (tries : ℕ) (sequence : UInt32) (m : Machine) :
    Ends (createTemporary store pid tries sequence) m
      (fun r m' => (∀ t, r = .ok t → t ∈ temporaries store pid ∧ Holds m' t []) ∧
        ∀ s, r = .error s → ¬ Visible s)
      fun _ => True := by
  have hfail : ∀ {status : Status} {m' : Machine}, ¬ Visible status →
      (∀ t, (.error status : Except Status Path) = .ok t →
        t ∈ temporaries store pid ∧ Holds m' t []) ∧
      ∀ s, (.error status : Except Status Path) = .error s → ¬ Visible s := by
    refine fun h => ⟨fun t ht => ?_, fun s hs => ?_⟩
    · cases ht
    · cases hs
      exact h
  -- on the tries that are left; each has a name of its own
  induction tries generalizing sequence m with
  | zero => exact hfail (by simp [Visible])
  | succ tries ih =>
    unfold createTemporary
    dsimp only
    split_ifs
    · exact hfail (by simp [Visible])
    rw [ends_bind]
    refine ends_openCreate.mono (fun r m' h => ?_) fun _ _ => trivial
    rcases r with e | ⟨⟩
    · dsimp only
      split_ifs
      · exact ih _ _
      · exact hfail (failure_not_visible e)
    · refine ⟨fun t ht => ?_, fun s hs => ?_⟩
      · cases ht
        exact ⟨⟨_, rfl⟩, h rfl⟩
      · cases hs

/-- **The system calls of a save replace the file.** -/
theorem replaceFile_replaces (ht : t ∈ temporaries store pid) (dirBefore : Node) :
    Replaces Visible (temporaries store pid) store.path data (Holds · t [])
      (replaceFile store dirBefore t data) := by
  have hp := path_notMem_temporaries store pid
  have hdiscard : ∀ opened e,
      Leaves Visible (temporaries store pid) (discard opened t (failure e)) :=
    fun opened e => discard_leaves ht opened (failure_not_visible e)
  have hrename : Replaces Visible (temporaries store pid) store.path data (Holds · t data)
      (renameTemporary store dirBefore t) :=
    Replaces.rename hp ht (fun e => hdiscard false e) (syncDirectory_shows store dirBefore)
  unfold replaceFile
  refine Replaces.write hp ht (fun e => hdiscard true e) ?_
  refine Replaces.after hp (keepsFiles_query _) fun r => ?_
  cases r with
  | error e => exact (hdiscard true e).replaces hp
  | ok u =>
    refine Replaces.after hp (keepsFiles_query _) fun r => ?_
    cases r with
    | error e => exact (hdiscard false e).replaces hp
    | ok u =>
      refine inspectFile_replaces (fun m m' hf h => ?_) hrename
        fun status hv => discard_leaves ht false hv
      simpa only [Holds, hf] using h

theorem writeCredentials_replaces (dirBefore : Node) (sequence : UInt32) :
    Replaces Visible (temporaries store pid) store.path data (fun _ => True)
      (writeCredentials store dirBefore data pid sequence) := by
  have hp := path_notMem_temporaries store pid
  refine Replaces.bind hp (touches_createTemporary _ _)
    (fun m _ => ends_createTemporary 32 sequence m) fun r => ?_
  intro m hm
  rcases r with status | t
  · exact (Leaves.pure (hm.2 _ rfl)).replaces (P := fun _ => True) hp m trivial
  · obtain ⟨ht, hholds⟩ := hm.1 t rfl
    exact replaceFile_replaces ht dirBefore m hholds

/-- **A save replaces the credentials file and nothing else.** -/
theorem save_replaces (store : Store) {credentials : Credentials} (pid : ℕ) (sequence : UInt32)
    (hdata : serialize credentials = some data) :
    Replaces Visible (temporaries store pid) store.path data (fun _ => True)
      (save store credentials pid sequence) := by
  have hp := path_notMem_temporaries store pid
  -- each way out before the file is written leaves everything as it is
  have hleave : ∀ {P : Machine → Prop} {status : Status}, ¬ Visible status →
      Replaces Visible (temporaries store pid) store.path data P (pure status) :=
    fun h => (Leaves.pure h).replaces hp
  unfold save
  by_cases hstore : storeValid store = true
  swap
  · rw [if_pos hstore]
    exact hleave (by simp [Visible])
  rw [if_neg (not_not.mpr hstore), hdata]
  refine Replaces.bind hp ((keepsFiles_inspectDirectory _).touches _)
    (fun m _ => ends_inspectDirectory store.directory m) fun status => ?_
  obtain ⟨result, e⟩ := status
  by_cases hok : result = .ok
  · subst hok
    refine Replaces.next hp ((keepsFiles_lstat _).touches _) fun r => ?_
    cases r with
    | error e => exact hleave (failure_not_visible e)
    | ok dirBefore =>
      exact inspectFile_replaces (fun _ _ _ h => h) (writeCredentials_replaces dirBefore sequence)
        fun status hv => Leaves.pure hv
  · intro m hm
    have hnot : ¬ Visible (result, e) := (hm.resolve_left hok).2
    split
    · next h =>
      cases h
      exact absurd rfl hok
    · exact hleave (P := fun _ => True) hnot m trivial

/-- A save whose credentials are refused leaves everything as it is. -/
theorem save_refused {credentials : Credentials} {sequence : UInt32}
    (hdata : serialize credentials = none) :
    save store credentials pid sequence = pure (.invalid, none) := by
  unfold save
  rw [hdata]
  split_ifs <;> rfl

/-- **A save replaces the credentials file atomically.** -/
theorem save_atomic (store : Store) (credentials : Credentials) (pid : ℕ) (sequence : UInt32) :
    Atomic Visible store.path (serialize credentials) (save store credentials pid sequence) := by
  cases hdata : serialize credentials with
  | some data => exact (save_replaces store pid sequence hdata).atomic
  | none =>
    rw [save_refused hdata]
    exact fun m => ⟨fun hv => absurd hv (by simp [Visible]), fun _ => rfl⟩

end Save

/-! ## What a load returns -/

/-- What the checks of a load make of the file. -/
def judge (node : Node) : Except Result Credentials :=
  match node.kind with
  | .regular content =>
    if content.length = 0 ∨ fileMaxBytes < content.length then .error .corrupt else parse content
  | .symlink _ => .error .symlink
  | _ => .error .nonRegular

/-- A file that a save wrote is in order. -/
theorem judge_of_serialize {credentials : Credentials} {data : List UInt8}
    (hdata : serialize credentials = some data) (ino : ℕ) :
    judge ⟨ino, .regular data⟩ = .ok credentials := by
  have hparse := parse_of_serialize hdata
  have hlen := length_le_of_serialize hdata
  have hne : data.length ≠ 0 := by
    intro h0
    rw [List.length_eq_zero_iff.mp h0] at hparse
    exact absurd hparse (by simp [parse])
  simp only [judge]
  rw [if_neg (by omega), hparse]

/-- What is stored. -/
def Store.stored (store : Store) (files : Path → Option Node) : Except Result Credentials :=
  match files store.path with
  | none => .error .missing
  | some node => judge node

/-- The parser reports damage as such. -/
theorem parse_eq_error {data : List UInt8} {result : Result} (h : parse data = .error result) :
    result = .corrupt ∨ result = .unsupportedVersion := by
  have hlast : ∀ {c : Prop} [Decidable c] {parsed : Credentials},
      (if c then .error .corrupt else .ok parsed : Except Result Credentials) = .error result →
        result = .corrupt := by
    intro c _ parsed h
    split_ifs at h
    cases h
    rfl
  unfold parse parseLines at h
  repeat' first | exact .inl (hlast h) | split at h
  all_goals cases h; simp

/-- What a load promises about the file: what it says is stored, is. -/
structure Loads (store : Store) (files : Path → Option Node) (r : Loaded) : Prop where
  ok : r.result = .ok → store.stored files = .ok r.credentials
  missing : r.result = .missing → files store.path = none
  failed : r.result ≠ .ok → r.credentials = cleared

section Load

variable {store : Store} {files : Path → Option Node} {H : Prop} {m : Machine}

/-- The status of a directory. -/
def directoryStatus : Option Kind → Status
  | none => failure .ENOENT
  | some (.symlink _) => (.symlink, none)
  | some .directory => (.ok, none)
  | some _ => (.notDirectory, none)

/-- What a load finds where no call fails on its own. -/
def Store.look (store : Store) (files : Path → Option Node) : Except Result Credentials :=
  if ¬ storeValid store then .error .invalid
  else
    match directoryStatus ((files store.directory).map Node.kind) with
    | (.ok, _) => store.stored files
    | (result, _) => .error result

/-- What a load returns of what it finds. -/
def answer : Except Result Credentials → Result × Credentials
  | .error result => (result, cleared)
  | .ok credentials => (.ok, credentials)

/-- A load tells what it finds, unless one of its calls fails on its own. -/
inductive Told (H : Prop) (look : Except Result Credentials) : Loaded → Prop
  | found (e : Option Errno) : Told H look ⟨(answer look).1, (answer look).2, e⟩
  | fault (hH : ¬ H) (e : Errno) : Told H look (failed cleared (failure e))

theorem Told.failed {result : Result} (e : Option Errno) :
    Told H (.error result) (CredentialStore.failed cleared (result, e)) := .found e

theorem ends_closing {result : Result} {e : Option Errno} (hm : H → Healthy m) (hf : m.files = files)
    {look : Except Result Credentials} (h : Told H look (failed cleared (result, e)))
    (credentials : Credentials) :
    Ends (closing credentials (result, e)) m
      (fun r m' => m'.files = files ∧ (H → Healthy m') ∧ Told H look r)
      fun m' => m'.files = files := by
  refine (ends_bind _).mpr ((show Ends close m _ _ from ends_query hm).mono ?_ fun _ h => h.trans hf)
  exact fun _ m' h' => ⟨h'.1.trans hf, h'.2.1, h⟩

/-- **What a load makes of an open file.** -/
theorem ends_loadFile {ino : ℕ} {content : List UInt8} {fd : Path} (hm : H → Healthy m)
    (hf : m.files = files) (hfd : files fd = some ⟨ino, .regular content⟩)
    (credentials : Credentials) :
    Ends (loadFile ⟨ino, .regular content⟩ fd credentials) m
      (fun r m' => m'.files = files ∧ (H → Healthy m') ∧ Told H (judge ⟨ino, .regular content⟩) r)
      fun m' => m'.files = files := by
  unfold loadFile
  rw [ends_bind]
  refine (ends_fstat hm (by rw [hf, hfd])).mono ?_ fun _ h => h.trans hf
  rintro r m₁ ⟨hf₁, hm₁, rfl | ⟨hH, f, rfl⟩⟩
  swap
  · exact ends_closing hm₁ (hf₁.trans hf) (.fault hH _) credentials
  dsimp only [judge]
  rw [if_neg (not_not.mpr rfl)]
  by_cases hsize : content.length = 0 ∨ fileMaxBytes < content.length
  · rw [if_pos hsize, if_pos hsize]
    exact ends_closing hm₁ (hf₁.trans hf) (.failed _) credentials
  rw [if_neg hsize, if_neg hsize, ends_bind]
  -- the content is read as it is, or a call failed on its own
  refine (ends_readWhole hm₁ (by rw [hf₁, hf, hfd])).mono ?_ fun _ h => h.trans (hf₁.trans hf)
  rintro r m₂ ⟨hf₂, hm₂, rfl | ⟨hH, e, rfl⟩⟩
  swap
  · exact ends_closing hm₂ (hf₂.trans (hf₁.trans hf)) (.fault hH _) credentials
  dsimp only
  rw [ends_bind]
  -- also a `close` that fails refuses what was read
  refine (show Ends close m₂ _ _ from ends_query hm₂).mono ?_
    fun _ h => h.trans (hf₂.trans (hf₁.trans hf))
  rintro r m₃ ⟨hf₃, hm₃, hr⟩
  have hfiles : m₃.files = files := hf₃.trans (hf₂.trans (hf₁.trans hf))
  rcases hr with rfl | ⟨hH, f, rfl⟩
  · dsimp only
    cases hparse : parse content with
    | error result => exact ⟨hfiles, hm₃, .failed _⟩
    | ok parsed => exact ⟨hfiles, hm₃, .found none⟩
  · exact ⟨hfiles, hm₃, .fault hH _⟩

theorem ends_inspectDirectory_told (path : Path) (hm : H → Healthy m) :
    Ends (inspectDirectory path) m
      (fun status m' => m'.files = m.files ∧ (H → Healthy m') ∧
        (status = directoryStatus ((m.files path).map Node.kind) ∨ ¬ H ∧ ∃ e, status = failure e))
      fun m' => m'.files = m.files := by
  refine (ends_bind _).mpr ((show Ends (lstat _) m _ _ from ends_query hm).mono ?_ fun _ h => h)
  rintro r m' ⟨hf, hm', rfl | ⟨hH, f, rfl⟩⟩
  · rcases hfile : m.files path with _ | ⟨ino, kind⟩
    · exact ⟨hf, hm', .inl rfl⟩
    · cases kind <;> exact ⟨hf, hm', .inl rfl⟩
  · exact ⟨hf, hm', .inr ⟨hH, f.errno, rfl⟩⟩

/-- The status of what is at the path of the credentials file. -/
theorem ends_inspectFile_told (path : Path) (hm : H → Healthy m) :
    Ends (inspectFile path) m
      (fun r m' => m'.files = m.files ∧ (H → Healthy m') ∧
        ((m.files path = none ∧ r = .error (.missing, none)) ∨
          (∃ ino content, m.files path = some ⟨ino, .regular content⟩ ∧
            r = .ok ⟨ino, .regular content⟩) ∨
          (∃ node result, m.files path = some node ∧ judge node = .error result ∧
            r = .error (result, none)) ∨
          ¬ H ∧ ∃ e, r = .error (failure e)))
      fun m' => m'.files = m.files := by
  refine (ends_bind _).mpr ((show Ends (lstat _) m _ _ from ends_query hm).mono ?_ fun _ h => h)
  rintro r m' ⟨hf, hm', rfl | ⟨hH, f, rfl⟩⟩
  · rcases hfile : m.files path with _ | ⟨ino, kind⟩
    · exact ⟨hf, hm', .inl ⟨rfl, rfl⟩⟩
    · cases kind with
      | regular content => exact ⟨hf, hm', .inr (.inl ⟨ino, content, rfl, rfl⟩)⟩
      | symlink | directory | other =>
        exact ⟨hf, hm', .inr (.inr (.inl ⟨_, _, rfl, rfl, rfl⟩))⟩
  · dsimp only
    rw [if_neg f.ne]
    exact ⟨hf, hm', .inr (.inr (.inr ⟨hH, f.errno, rfl⟩))⟩

/-- **A load tells what it finds.** -/
theorem ends_load_told (store : Store) (credentials : Credentials) (hm : H → Healthy m) :
    Ends (load store credentials) m
      (fun r m' => m'.files = m.files ∧ (H → Healthy m') ∧ Told H (store.look m.files) r)
      fun m' => m'.files = m.files := by
  unfold load Store.look
  by_cases hstore : storeValid store = true
  swap
  · rw [if_pos hstore, if_pos hstore]
    exact ⟨rfl, hm, .failed _⟩
  rw [if_neg (not_not.mpr hstore), if_neg (not_not.mpr hstore), ends_bind]
  refine (ends_inspectDirectory_told _ hm).mono ?_ fun _ h => h
  rintro ⟨result, e⟩ m₁ ⟨hf₁, hm₁, hstatus⟩
  by_cases hok : result = .ok
  swap
  · -- the directory is not in order, or it could not be inspected
    rcases hstatus with hstatus | ⟨hH, e', he'⟩
    · rw [← hstatus]
      cases result <;> first | exact absurd rfl hok | exact ⟨hf₁, hm₁, .failed _⟩
    · have htold : ∀ look, Told H look (failed cleared (result, e)) := fun look => he' ▸ .fault hH e'
      cases result <;> first | exact absurd rfl hok | exact ⟨hf₁, hm₁, htold _⟩
  subst hok
  have hdirectory : directoryStatus ((m.files store.directory).map Node.kind) = (.ok, e) := by
    rcases hstatus with h | ⟨-, e', h⟩
    · exact h.symm
    · exact absurd (congrArg Prod.fst h).symm (fsError_ne e').1
  -- the directory is in order
  rw [hdirectory]
  dsimp only
  rw [ends_bind]
  refine (ends_inspectFile_told store.path hm₁).mono ?_ fun _ h => h.trans hf₁
  rintro r m₂ ⟨hf₂, hm₂, ⟨hnone, rfl⟩ | ⟨ino, content, hnode, rfl⟩ | ⟨node, result, hnode, hjudge, rfl⟩ |
    ⟨hH, e, rfl⟩⟩
  · -- no file
    refine ⟨hf₂.trans hf₁, hm₂, ?_⟩
    rw [Store.stored, ← hf₁, hnone]
    exact .failed _
  · -- a regular file: opened and read, unless its size already rules it out
    have hstored : store.stored m.files = judge ⟨ino, .regular content⟩ := by
      rw [Store.stored, ← hf₁, hnode]
    rw [hstored]
    dsimp only
    by_cases hsize : size (Kind.regular content) = 0 ∨ fileMaxBytes < size (Kind.regular content)
    · rw [if_pos hsize]
      refine ⟨hf₂.trans hf₁, hm₂, ?_⟩
      rw [show judge ⟨ino, .regular content⟩ = .error .corrupt from if_pos hsize]
      exact .failed _
    rw [if_neg hsize, ends_bind]
    refine (show Ends (openNoFollow store.path) m₂ _ _ from ends_query hm₂).mono ?_
      fun _ h => h.trans (hf₂.trans hf₁)
    rintro r m₃ ⟨hf₃, hm₃, rfl | ⟨hH, f, rfl⟩⟩
    · have hresolve : resolve m₂.files 1 store.path = .ok store.path := by
        simp only [resolve, hf₂, hnode]
      rw [hresolve]
      exact ends_loadFile hm₃ (hf₃.trans (hf₂.trans hf₁)) (by rw [← hf₁, hnode]) _
    · exact ⟨hf₃.trans (hf₂.trans hf₁), hm₃, .fault hH _⟩
  · -- something else under its name
    refine ⟨hf₂.trans hf₁, hm₂, ?_⟩
    rw [Store.stored, ← hf₁, hnode]
    dsimp only
    rw [hjudge]
    exact .failed _
  · exact ⟨hf₂.trans hf₁, hm₂, .fault hH _⟩

theorem judge_eq_error {node : Node} {result : Result} (h : judge node = .error result) :
    result ≠ .ok ∧ result ≠ .missing := by
  unfold judge at h
  split at h
  · split_ifs at h
    · cases h
      simp
    · rcases parse_eq_error h with rfl | rfl <;> simp
  · cases h
    simp
  · cases h
    simp

theorem stored_eq_missing : store.stored files = .error .missing ↔ files store.path = none := by
  unfold Store.stored
  cases files store.path with
  | none => simp
  | some node => simpa using fun h => (judge_eq_error h).2 rfl

theorem stored_ne_ok : store.stored files ≠ .error .ok := by
  unfold Store.stored
  split
  · simp
  · exact fun h => (judge_eq_error h).1 rfl

/-- The file cannot be reached, for a reason that is not in the file. -/
def Blocked (look : Except Result Credentials) : Prop :=
  ∃ result, look = .error result ∧ result ≠ .ok ∧ result ≠ .missing ∧ result ≠ .corrupt ∧
    result ≠ .unsupportedVersion

theorem blocked_failure (e : Errno) : Blocked (.error (failure e).1) :=
  ⟨_, rfl, by cases e <;> simp [failure, fsError]⟩

/-- A directory that is not in order blocks what is below it. -/
theorem blocked_directoryStatus {kind : Option Kind} (h : kind ≠ some .directory) :
    Blocked (.error (directoryStatus kind).1) := by
  cases kind with
  | none => exact blocked_failure .ENOENT
  | some kind =>
    cases kind with
    | directory => exact absurd rfl h
    | regular | symlink | other => exact ⟨_, rfl, by simp [directoryStatus]⟩

/-- A load finds what is stored where the store is usable and its directory in order. -/
theorem Store.look_eq (hstore : storeValid store = true)
    (hdirectory : (files store.directory).map Node.kind = some .directory) :
    store.look files = store.stored files := by
  unfold Store.look
  rw [if_neg (not_not.mpr hstore), hdirectory]
  rfl

theorem blocked_of_storeValid (hstore : storeValid store ≠ true) : Blocked (store.look files) :=
  ⟨_, if_pos hstore, by simp⟩

theorem blocked_of_directory
    (hdirectory : (files store.directory).map Node.kind ≠ some .directory) :
    Blocked (store.look files) := by
  by_cases hstore : storeValid store = true
  swap
  · exact blocked_of_storeValid hstore
  unfold Store.look
  rw [if_neg (not_not.mpr hstore)]
  rcases hkind : (files store.directory).map Node.kind with _ | kind
  · exact blocked_failure .ENOENT
  cases kind with
  | directory => exact absurd hkind hdirectory
  | regular | symlink | other => exact ⟨_, rfl, by simp⟩

/-- A load finds what is stored, or that it cannot get there. -/
theorem Store.look_cases (store : Store) (files : Path → Option Node) :
    store.look files = store.stored files ∨ Blocked (store.look files) := by
  by_cases hdirectory : (files store.directory).map Node.kind = some .directory
  · by_cases hstore : storeValid store = true
    · exact .inl (store.look_eq hstore hdirectory)
    · exact .inr (blocked_of_storeValid hstore)
  · exact .inr (blocked_of_directory hdirectory)

theorem Told.loads {r : Loaded} (h : Told H (store.look files) r) : Loads store files r := by
  cases h with
  | fault hH e =>
    have he := fsError_ne e
    exact ⟨fun h => absurd h he.1, fun h => absurd h he.2.1, fun _ => rfl⟩
  | found e =>
    rcases store.look_cases files with h | ⟨result, h, hok, hmissing, -⟩ <;> rw [h]
    · cases hstored : store.stored files with
      | ok credentials => exact ⟨fun _ => hstored, by simp [answer], by simp [answer]⟩
      | error result =>
        refine ⟨fun h => ?_, fun h => ?_, fun _ => rfl⟩
        · obtain rfl : result = .ok := h
          exact absurd hstored stored_ne_ok
        · obtain rfl : result = .missing := h
          exact stored_eq_missing.mp hstored
    · exact ⟨fun h => absurd h hok, fun h => absurd h hmissing, fun _ => rfl⟩

/-- A load that ends with `ok` or `missing` has reached the file. -/
theorem Told.not_blocked {look : Except Result Credentials} {r : Loaded} (h : Told H look r)
    (hr : r.result = .ok ∨ r.result = .missing) : ¬ Blocked look := by
  rintro ⟨result, rfl, hok, hmissing, -⟩
  cases h with
  | found e => exact hr.elim hok hmissing
  | fault _ e => exact hr.elim (fsError_ne e).1 (fsError_ne e).2.1

theorem Told.of_ok {credentials : Credentials} {r : Loaded} (h : Told H (.ok credentials) r) :
    (r.result = .ok ∧ r.credentials = credentials) ∨ ¬ H ∧ r.result ≠ .ok ∧ r.result ≠ .missing := by
  cases h with
  | found e => exact .inl ⟨rfl, rfl⟩
  | fault hH e => exact .inr ⟨hH, (fsError_ne e).1, (fsError_ne e).2.1⟩

/-- **What a load returns**: where it returns `ok` the credentials are stored, where it returns
`missing` there is no file, and else the caller's record is cleared. -/
theorem ends_load (store : Store) (credentials : Credentials) (m : Machine) :
    Ends (load store credentials) m (fun r m' => m'.files = m.files ∧ Loads store m.files r)
      fun m' => m'.files = m.files :=
  (ends_load_told (H := False) store credentials False.elim).mono (fun _ _ h => ⟨h.1, h.2.2.loads⟩)
    fun _ h => h

theorem paced_closing (credentials : Credentials) (status : Status) :
    Paced (closing credentials status) :=
  (paced_query _).bind fun _ => .pure _

theorem paced_loadFile (before : Node) (fd : Path) (credentials : Credentials) :
    Paced (loadFile before fd credentials) := by
  unfold loadFile
  refine (paced_fstat fd).bind fun r => ?_
  cases r with
  | error e => exact paced_closing _ _
  | ok opened =>
    dsimp only
    split
    swap
    · exact paced_closing _ _
    refine (paced_closing _ _).ite ((paced_closing _ _).ite ((paced_readWhole _ _).bind fun r => ?_))
    rcases r with e | _ | data
    · exact paced_closing _ _
    · exact paced_closing _ _
    · refine (paced_query _).bind fun r => ?_
      cases r with
      | error e => exact .pure _
      | ok _ =>
        dsimp only
        split <;> exact .pure _

theorem paced_inspectDirectory (path : Path) : Paced (inspectDirectory path) := by
  refine (paced_query _).bind fun r => ?_
  cases r with
  | error e => exact .pure _
  | ok st =>
    dsimp only
    split <;> exact .pure _

theorem paced_inspectFile (path : Path) : Paced (inspectFile path) := by
  refine (paced_query _).bind fun r => ?_
  cases r with
  | error e => exact .pure _
  | ok st =>
    dsimp only
    split <;> exact .pure _

/-- A load depends on no fate but those of its own calls. -/
theorem paced_load (store : Store) (credentials : Credentials) :
    Paced (load store credentials) := by
  refine .ite (.pure _) ((paced_inspectDirectory _).bind fun status => ?_)
  split
  swap
  · exact .pure _
  refine (paced_inspectFile _).bind fun r => ?_
  cases r with
  | error status => exact .pure _
  | ok before =>
    refine .ite (.pure _) ((paced_query _).bind fun r => ?_)
    cases r with
    | error e => exact .pure _
    | ok fd => exact paced_loadFile before fd _

/-- **What an initialization leaves**: the store of the directory, unless the file cannot be
reached or a call fails on its own. -/
theorem ends_init {directory : Path} (htrim : trimSlashes directory = directory)
    (hplain : plainComponents directory = true) (hm : H → Healthy m) :
    Ends (init (some directory)) m
      (fun r m' => m'.files = m.files ∧ (H → Healthy m') ∧
        (r = .ok ⟨directory, directory.length⟩ ∨
          ∃ status, r = .error status ∧ status.1 ≠ .ok ∧
            (¬ H ∨ Blocked ((⟨directory, directory.length⟩ : Store).look m.files))))
      fun m' => m'.files = m.files := by
  -- what the checks on the path refuse is no store, so nothing can be reached in it
  have hinvalid : ∀ status : Status, status.1 ≠ .ok →
      storeValid ⟨directory, directory.length⟩ ≠ true →
      ∃ status', (.error status : Except Status Store) = .error status' ∧ status'.1 ≠ .ok ∧
        (¬ H ∨ Blocked ((⟨directory, directory.length⟩ : Store).look m.files)) :=
    fun status hstatus hstore => ⟨_, rfl, hstatus, .inr (blocked_of_storeValid hstore)⟩
  unfold init boundedLength
  dsimp only [Option.getD_some]
  by_cases hlong : pathCapacity - 48 ≤ min directory.length pathCapacity
  · rw [if_pos hlong]
    refine ⟨rfl, hm, .inr (hinvalid _ (by simp) fun h => ?_)⟩
    have := (of_decide_eq_true h).2.1
    unfold pathCapacity at this hlong
    dsimp only at this
    omega
  rw [if_neg hlong]
  by_cases hhead : min directory.length pathCapacity < 2 ∨ directory.head? ≠ some 0x2f
  · rw [if_pos hhead]
    refine ⟨rfl, hm, .inr (hinvalid _ (by simp) fun h => ?_)⟩
    obtain ⟨hone, -, hlen, hslash, -⟩ := of_decide_eq_true h
    unfold boundedLength at hlen
    dsimp only at hone hlen hslash
    rcases hhead with hhead | hhead
    · omega
    · exact hhead hslash
  rw [if_neg hhead, htrim, if_neg (not_not.mpr hplain), ends_bind]
  -- past the checks on the path, only the inspection of the directory decides
  refine (ends_inspectDirectory_told _ hm).mono ?_ fun _ h => h
  rintro ⟨result, e⟩ m' ⟨hf, hm', hstatus⟩
  by_cases hok : result = .ok
  · subst hok
    exact ⟨hf, hm', .inl rfl⟩
  have hblocked : ¬ H ∨ Blocked ((⟨directory, directory.length⟩ : Store).look m.files) := by
    rcases hstatus with hstatus | ⟨hH, -⟩
    · refine .inr (blocked_of_directory fun hdirectory => hok ?_)
      rw [hdirectory] at hstatus
      exact congrArg Prod.fst hstatus
    · exact .inl hH
  cases result <;> first | exact absurd rfl hok | exact ⟨hf, hm', .inr ⟨_, rfl, hok, hblocked⟩⟩

end Load

/-! ## The codec -/

/-- The bytes of a record: its two strings in their arrays, after each of them zeros. -/
def recordBytes (credentials : Credentials) : List UInt8 :=
  credentials.username.rightpad (usernameMax + 1) 0 ++
    credentials.userkey.rightpad (userkeyMax + 1) 0

theorem recordBytes_cleared : ∀ b ∈ recordBytes cleared, b = 0 := by
  intro b hb
  simp only [recordBytes, cleared, List.rightpad, List.nil_append, List.mem_append,
    List.mem_replicate] at hb
  rcases hb with hb | hb
  · exact hb.2
  · exact hb.2

/-- **The format is a bijection** between the credentials that `valid_text` accepts and the files
that `parse` accepts, and a load that does not return `ok` leaves a record of zeros, whatever the
caller's record held. -/
theorem credentials_codec :
    (∀ credentials, validText credentials.username usernameMax →
      validText credentials.userkey userkeyMax → ∃ data, serialize credentials = some data ∧
        data.length ≤ fileMaxBytes ∧ parse data = .ok credentials) ∧
    (∀ data credentials, parse data = .ok credentials →
      validText credentials.username usernameMax ∧ validText credentials.userkey userkeyMax ∧
        serialize credentials = some data) ∧
    ∀ store record m, Ends (load store record) m
      (fun r _ => r.result ≠ .ok → ∀ b ∈ recordBytes r.credentials, b = 0) fun _ => True := by
  refine ⟨?_, ?_, ?_⟩
  · intro credentials hu hk
    obtain ⟨hu, hu', hub⟩ := validText_iff.mp hu
    obtain ⟨hk, hk', hkb⟩ := validText_iff.mp hk
    have hvalid : Valid credentials := ⟨⟨hu, hu'⟩, hub, ⟨hk, hk'⟩, hkb⟩
    have hdata := serialize_eq hvalid
    exact ⟨_, hdata, length_le_of_serialize hdata, parse_of_serialize hdata⟩
  · intro data credentials h
    obtain ⟨hvalid, hdata⟩ := serialize_of_parse h
    refine ⟨?_, ?_, hdata⟩
    · exact validText_iff.mpr ⟨hvalid.username.1, hvalid.username.2, hvalid.username_byte⟩
    · exact validText_iff.mpr ⟨hvalid.userkey.1, hvalid.userkey.2, hvalid.userkey_byte⟩
  · intro store record m
    refine (ends_load store record m).mono ?_ fun _ _ => trivial
    intro r m' h hne
    rw [h.2.failed hne]
    exact recordBytes_cleared

end CredentialStore
