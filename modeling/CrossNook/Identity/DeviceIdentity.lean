import CrossNook.Book.Md5
import CrossNook.System.Interleave
import CrossNook.System.Posix
import CrossNook.Text.Lines

/-!
# The device identity

The identifier of an installation (`identity/device_identity.c`): the format of its file, and the
two calls that read and create the file, as processes that make system calls.

## Main definitions

* `DeviceIdentity.parseIdentity`, `DeviceIdentity.serialize`: the file format
* `DeviceIdentity.loadOrCreate`: `cn_device_identity_load_or_create`
* `DeviceIdentity.load`: `cn_device_identity_load`

## Main results

* `DeviceIdentity.parseIdentity_serialize`: the format round trip
* `DeviceIdentity.eq_of_parseIdentity_prefix`: no beginning of a file is a file
-/

namespace DeviceIdentity

open Bytes Posix Interleave

/-- `CN_DEVICE_ID_TEXT_LENGTH`. -/
def textLength : ℕ := 32

/-- `CN_DEVICE_ID_TEXT_CAPACITY`. -/
def textCapacity : ℕ := textLength + 1

/-- `CN_DEVICE_ID_FILE_MAX_BYTES`. -/
def fileMaxBytes : ℕ := 128

/-- `CN_STORAGE_PATH_CAPACITY`. -/
def pathCapacity : ℕ := 4096

/-- `cn_device_identity_result`. -/
inductive Result
  | ok
  | created
  | invalidArgument
  | bufferTooSmall
  | notFound
  | malformed
  | unsupportedVersion
  | badChecksum
  | entropyFailed
  | pathTooLong
  | notDirectory
  | symlink
  | nonRegular
  | permissionDenied
  | readOnly
  | noSpace
  | ioError
  | durabilityUncertain
  deriving DecidableEq, Repr

/-- A result with the value left in `system_errno`. -/
abbrev Status : Type := Result × Option Errno

/-- `filesystem_error`. -/
def filesystemError : Errno → Result
  | .ENOENT => .notFound
  | .ENOTDIR => .notDirectory
  | .ELOOP => .symlink
  | .EACCES => .permissionDenied
  | .EPERM => .permissionDenied
  | .EROFS => .readOnly
  | .ENOSPC => .noSpace
  | .EDQUOT => .noSpace
  | .ENAMETOOLONG => .pathTooLong
  | _ => .ioError

/-- The status after a failed system call. -/
def failure (e : Errno) : Status := (filesystemError e, some e)

/-- `cn_device_identity_store`, but for its source of entropy. -/
structure Store where
  path : List UInt8
  pathLength : ℕ

/-- `store_valid`. -/
def storeValid (store : Store) : Bool :=
  1 < store.pathLength ∧ store.pathLength < pathCapacity ∧
    store.path.length = store.pathLength ∧
    store.path.head? = some 0x2f ∧ store.path.getLast? ≠ some 0x2f

/-! ## The file format -/

/-- A digit of an identifier. -/
abbrev IdDigit (c : UInt8) : Prop := (0x30 ≤ c ∧ c ≤ 0x39) ∨ (0x61 ≤ c ∧ c ≤ 0x66)

/-- The checks of `parse_identity` on its three lines. -/
def parseLines (data versionLine idLine crcLine : List UInt8) : Except Result (List UInt8) :=
  match Lines.value (ascii "crossnook-device-identity") versionLine with
  | none => .error .malformed
  | some version =>
    if version ≠ [0x31] then .error .unsupportedVersion
    else
      match Lines.value (ascii "id") idLine with
      | none => .error .malformed
      | some id =>
        if id.length ≠ textLength then .error .malformed
        else if ¬ id.all fun c => IdDigit c then .error .malformed
        else
          match (Lines.value (ascii "crc32") crcLine).bind Lines.ofHex8 with
          | none => .error .malformed
          | some expected =>
            if expected = crc32 (data.take (data.length - (crcLine.length + 1))) then .ok id
            else .error .badChecksum

/-- `parse_identity`. -/
def parseIdentity (data : List UInt8) : Except Result (List UInt8) :=
  if data.length = 0 ∨ fileMaxBytes < data.length ∨ 0 ∈ data then .error .malformed
  else
    match Lines.take 3 data with
    | some ([versionLine, idLine, crcLine], []) => parseLines data versionLine idLine crcLine
    | _ => .error .malformed

/-- `serialize`: the identifier and the file. -/
def serialize (randomBytes : Fin 16 → UInt8) : Option (List UInt8 × List UInt8) :=
  let id := Md5.hex (List.ofFn randomBytes)
  let data := ascii "crossnook-device-identity=1\n" ++ ascii "id=" ++ id ++ ascii "\n"
  if fileMaxBytes ≤ data.length + 7 + 8 then none
  else some (id, data ++ ascii "crc32=" ++ Lines.hex8 (crc32 data) ++ ascii "\n")

/-- The lines of an identity file before the checksum. -/
def bodyLines (id : List UInt8) : List (List UInt8) :=
  [Lines.pair (ascii "crossnook-device-identity") [0x31], Lines.pair (ascii "id") id]

theorem length_text_bodyLines (id : List UInt8) :
    (Lines.text (bodyLines id)).length = 32 + id.length := by
  have h1 : (ascii "crossnook-device-identity").length = 25 := rfl
  have h2 : (ascii "id").length = 2 := rfl
  simp [Lines.text, bodyLines, Lines.pair, h1, h2]
  omega

theorem printable_bodyLines {id : List UInt8} (h : ∀ c ∈ id, IdDigit c) :
    ∀ line ∈ bodyLines id, Lines.Printable line := by
  have hid : Lines.Printable id := fun c hc => by
    have := h c hc
    grind
  intro line hline
  simp only [bodyLines, List.mem_cons, List.not_mem_nil, or_false] at hline
  rcases hline with rfl | rfl
  · exact Lines.printable_pair (Bytes.forall_of_all rfl) (Bytes.forall_of_all rfl)
  · exact Lines.printable_pair (Bytes.forall_of_all rfl) hid

theorem serialize_eq (randomBytes : Fin 16 → UInt8) :
    serialize randomBytes = some (Md5.hex (List.ofFn randomBytes),
      Lines.sealText (bodyLines (Md5.hex (List.ofFn randomBytes)))) := by
  have h1 : ascii "crossnook-device-identity=1\n" =
    ascii "crossnook-device-identity" ++ [0x3d] ++ [0x31] ++ [0x0a] := by decide
  have h2 : ascii "id=" = ascii "id" ++ [0x3d] := by decide
  have h3 : ascii "\n" = [0x0a] := by decide
  have h4 : ascii "crc32=" = ascii "crc32" ++ [0x3d] := by decide
  have hid : (Md5.hex (List.ofFn randomBytes)).length = 32 := by simp [Md5.length_hex]
  unfold serialize fileMaxBytes
  dsimp only
  generalize Md5.hex (List.ofFn randomBytes) = id at hid
  have hbody : ascii "crossnook-device-identity=1\n" ++ ascii "id=" ++ id ++ ascii "\n" =
      Lines.text (bodyLines id) := by
    rw [h1, h2, h3]
    simp [Lines.text, bodyLines, Lines.pair]
  have hlength := length_text_bodyLines id
  rw [hbody, if_neg (by omega), h3, h4]
  simp [Lines.sealText, Lines.text, Lines.crcLine, Lines.pair]

/-- **Reading an identifier as it was written.** -/
theorem parseIdentity_serialize {randomBytes : Fin 16 → UInt8} {id file : List UInt8}
    (h : serialize randomBytes = some (id, file)) : parseIdentity file = .ok id := by
  have hid : (Md5.hex (List.ofFn randomBytes)).length = 32 := by simp [Md5.length_hex]
  have hdigits : ∀ c ∈ Md5.hex (List.ofFn randomBytes), IdDigit c := fun c => Md5.mem_hex
  rw [serialize_eq] at h
  obtain ⟨rfl, rfl⟩ : Md5.hex (List.ofFn randomBytes) = id ∧
      Lines.sealText (bodyLines (Md5.hex (List.ofFn randomBytes))) = file := by simpa using h
  generalize Md5.hex (List.ofFn randomBytes) = id at hid hdigits
  have hprint := printable_bodyLines hdigits
  have hlength := Lines.length_sealText (bodyLines id)
  rw [length_text_bodyLines, hid] at hlength
  have htake : Lines.take 3 (Lines.sealText (bodyLines id)) = _ := Lines.take_sealText hprint
  have hcrc := Lines.crc32_sealText (bodyLines id)
  -- what the reader looks at before it splits the text
  have hsize : ¬ ((Lines.sealText (bodyLines id)).length = 0 ∨
      fileMaxBytes < (Lines.sealText (bodyLines id)).length ∨
      0 ∈ Lines.sealText (bodyLines id)) := by
    unfold fileMaxBytes
    simp only [hlength, Lines.zero_notMem_sealText hprint, or_false]
    omega
  -- its checks pass one by one
  unfold parseIdentity
  rw [if_neg hsize, htake]
  generalize Lines.sealText (bodyLines id) = data at hcrc
  generalize Lines.text (bodyLines id) = body at hcrc
  simp only [bodyLines, List.cons_append, List.nil_append]
  unfold parseLines textLength
  simp only [Lines.value_pair]
  rw [if_neg (by simp), if_neg (by simp [hid]), if_neg, Lines.value_crcLine]
  · dsimp only
    exact if_pos hcrc.symm
  · rw [not_not, List.all_eq_true]
    exact fun c hc => decide_eq_true (hdigits c hc)

/-- An identifier that is read has 32 digits. -/
theorem idDigits_of_parseIdentity {data id : List UInt8} (h : parseIdentity data = .ok id) :
    id.length = textLength ∧ ∀ c ∈ id, IdDigit c := by
  unfold parseIdentity at h
  split_ifs at h
  split at h
  swap
  · cases h
  unfold parseLines at h
  split at h
  · cases h
  split_ifs at h
  split at h
  · cases h
  split_ifs at h with hlength hdigits
  split at h
  · cases h
  split_ifs at h
  obtain rfl := Except.ok.inj h
  exact ⟨not_not.mp hlength, fun c hc => of_decide_eq_true (List.all_eq_true.mp hdigits c hc)⟩

/-- What is read as an identity file ends in its checksum line. -/
theorem sealed_of_parseIdentity {data id : List UInt8} (h : parseIdentity data = .ok id) :
    ∃ lines, data = Lines.sealText lines := by
  unfold parseIdentity at h
  split_ifs at h
  split at h
  swap
  · cases h
  rename_i versionLine idLine crcLine htake
  have hdata := Lines.take_eq_some htake
  rw [List.append_nil] at hdata
  unfold parseLines at h
  split at h
  · cases h
  split_ifs at h
  split at h
  · cases h
  split_ifs at h
  split at h
  · cases h
  rename_i expected hexpected
  split_ifs at h with hcrc
  obtain ⟨digits, hdigits, hhex⟩ := Option.bind_eq_some_iff.mp hexpected
  obtain rfl := Lines.eq_pair_of_value hdigits
  rw [hcrc] at hhex
  exact ⟨[versionLine, idLine], Lines.eq_sealText hdata hhex⟩

/-- What is read as an identity file has three lines. -/
theorem take_of_parseIdentity {data id : List UInt8} (h : parseIdentity data = .ok id) :
    ∃ lines, Lines.take 3 data = some (lines, []) := by
  unfold parseIdentity at h
  split_ifs at h
  split at h
  · exact ⟨_, by assumption⟩
  · cases h

/-- **No beginning of an identity file is an identity file.** -/
theorem eq_of_parseIdentity_prefix {data file id id' : List UInt8} (hbegin : data <+: file)
    (h : parseIdentity data = .ok id) (h' : parseIdentity file = .ok id') : data = file := by
  obtain ⟨more, rfl⟩ := hbegin
  obtain ⟨lines, hlines⟩ := take_of_parseIdentity h
  obtain ⟨lines', hlines'⟩ := take_of_parseIdentity h'
  rw [Lines.eq_nil_of_take_append hlines hlines', List.append_nil]

/-! ## System calls -/

/-- The system calls on the identity file, on its directory and for random bytes. -/
inductive Call
  | lstat
  | openRead
  | fstat (fd : ℕ)
  | read (fd offset count : ℕ)
  | openCreate
  | write (fd : ℕ) (data : List UInt8)
  | fsync (fd : ℕ)
  | close (fd : ℕ)
  | unlink
  | entropy
  | lstatDirectory
  | openDirectory
  | fstatDirectory
  | fsyncDirectory
  | closeDirectory

/-- What a call replies. -/
def Call.Reply : Call → Type
  | lstat => Except Errno Node
  | openRead => Except Errno ℕ
  | fstat _ => Except Errno Node
  | read _ _ _ => Except Errno (List UInt8)
  | openCreate => Except Errno ℕ
  | write _ _ => Except Errno ℕ
  | fsync _ => Except Errno Unit
  | close _ => Except Errno Unit
  | unlink => Except Errno Unit
  | entropy => Option (Fin 16 → UInt8)
  | lstatDirectory => Except Errno Node
  | openDirectory => Except Errno Unit
  | fstatDirectory => Except Errno Node
  | fsyncDirectory => Except Errno Unit
  | closeDirectory => Except Errno Unit

/-- The system calls as an interface. -/
abbrev calls : Interface := ⟨Call, Call.Reply⟩

/-- Programs that make these calls. -/
abbrev Program (α : Type) : Type := Proc calls α

/-! ## Reading -/

/-- What a call of the module leaves: its result, `system_errno` and the text in the output. -/
structure Answer where
  result : Result
  systemErrno : Option Errno
  output : List UInt8
  deriving DecidableEq

/-- An answer without an identifier. -/
def failed (status : Status) : Answer := ⟨status.1, status.2, []⟩

/-- `inspect_identity_file`: the inode of the file and its content, of which the caller looks at
the size. -/
def inspectIdentityFile (errno : Option Errno) : Program (Except Status (ℕ × List UInt8)) := do
  match ← perform (I := calls) .lstat with
  | .error e => return .error (if e = .ENOENT then (.notFound, errno) else failure e)
  | .ok st =>
    match st.kind with
    | .symlink _ => return .error (.symlink, errno)
    | .regular content => return .ok (st.ino, content)
    | _ => return .error (.nonRegular, errno)

/-- The loop that reads the file, `none` where it ends early. The first argument bounds the number
of calls: a run that is longer is cut off there. -/
def readLoop (fd length : ℕ) : ℕ → List UInt8 → Program (Except Errno (Option (List UInt8)))
  | 0, _ => .killed
  | bound + 1, done =>
    if length ≤ done.length then return .ok (some done)
    else do
      match ← perform (I := calls) (.read fd done.length (length - done.length)) with
      | .error .EINTR => readLoop fd length bound done
      | .error e => return .error e
      | .ok [] => return .ok none
      | .ok (b :: bytes) => readLoop fd length bound (done ++ b :: bytes)

/-- The loop that tries to read one byte more. -/
def readExtra (fd offset : ℕ) : ℕ → Program (Except Errno (List UInt8))
  | 0 => .killed
  | bound + 1 => do
    match ← perform (I := calls) (.read fd offset 1) with
    | .error .EINTR => readExtra fd offset bound
    | r => return r

/-- The bytes of a file of the given length; `none` where it has less or more. -/
def readWhole (bound fd length : ℕ) : Program (Except Errno (Option (List UInt8))) := do
  match ← readLoop fd length bound [] with
  | .error e => return .error e
  | .ok none => return .ok none
  | .ok (some data) =>
    match ← readExtra fd length bound with
    | .error e => return .error e
    | .ok extra => return .ok (if extra = [] then some data else none)

/-- The label `done` of `read_existing`. -/
def finish (fd : ℕ) (answer : Answer) : Program Answer := do
  match ← perform (I := calls) (.close fd) with
  | .error e => return if answer.result = .ok then failed (.ioError, some e) else answer
  | .ok _ => return answer

/-- `read_existing` after the file is open; `ino` is the inode that was inspected. -/
def readFile (bound ino fd : ℕ) (errno : Option Errno) : Program Answer := do
  match ← perform (I := calls) (.fstat fd) with
  | .error e => finish fd (failed (failure e))
  | .ok opened =>
    match opened.kind with
    | .regular content =>
      -- the file that was inspected may have been replaced before it was opened
      if opened.ino ≠ ino then finish fd (failed (.ioError, errno))
      else if content.length = 0 ∨ fileMaxBytes < content.length then
        finish fd (failed (.malformed, errno))
      else do
        match ← readWhole bound fd content.length with
        | .error e => finish fd (failed (failure e))
        | .ok none => finish fd (failed (.malformed, errno))
        | .ok (some data) =>
          match parseIdentity data with
          | .error result => finish fd (failed (result, errno))
          | .ok id => finish fd ⟨.ok, errno, id⟩
    | _ => finish fd (failed (.ioError, errno))

/-- `read_existing`; `errno` is what `system_errno` holds. -/
def readExisting (bound : ℕ) (errno : Option Errno) : Program Answer := do
  match ← inspectIdentityFile errno with
  | .error status => return failed status
  | .ok (ino, content) =>
    if content.length = 0 ∨ fileMaxBytes < content.length then return failed (.malformed, errno)
    else do
      match ← perform (I := calls) .openRead with
      | .error e => return failed (failure e)
      | .ok fd => readFile bound ino fd errno

/-! ## Creation -/

/-- The loop of `write_new`. -/
def writeLoop (fd : ℕ) : ℕ → List UInt8 → Program (Except Errno Unit)
  | 0, _ => .killed
  | bound + 1, data =>
    if data = [] then return .ok ()
    else do
      match ← perform (I := calls) (.write fd data) with
      | .error .EINTR => writeLoop fd bound data
      | .error e => return .error e
      | .ok 0 => return .error .eio
      | .ok (count + 1) => writeLoop fd bound (data.drop (count + 1))

/-- The exit of `write_new` that closes the directory. -/
def uncertain (e : Option Errno) : Program Status := do
  let _ ← perform (I := calls) .closeDirectory
  return (.durabilityUncertain, e)

/-- The length of the name of the directory: what comes before the last slash. -/
def directoryLength (store : Store) : ℕ :=
  (store.path.reverse.dropWhile fun c => c ≠ 0x2f).length - 1

/-- The synchronization of the directory at the end of `write_new`. -/
def syncDirectory (store : Store) (errno : Option Errno) : Program Status :=
  if 0x2f ∉ store.path ∨ directoryLength store = 0 ∨ pathCapacity ≤ directoryLength store then
    return (.durabilityUncertain, errno)
  else do
    match ← perform (I := calls) .lstatDirectory with
    | .error e => return (.durabilityUncertain, some e)
    | .ok before =>
      match ← perform (I := calls) .openDirectory with
      | .error e => return (.durabilityUncertain, some e)
      | .ok _ =>
        match ← perform (I := calls) .fstatDirectory with
        | .error e => uncertain (some e)
        | .ok after =>
          -- no call has failed here: the error that is stored is a stale one
          if after.kind ≠ .directory ∨ before.ino ≠ after.ino then uncertain none
          else do
            match ← perform (I := calls) .fsyncDirectory with
            | .error e => uncertain (some e)
            | .ok _ =>
              match ← perform (I := calls) .closeDirectory with
              | .error e => return (.durabilityUncertain, some e)
              | .ok _ => return (.created, errno)

/-- `write_new` after the file is created. -/
def fillNew (store : Store) (bound fd : ℕ) (data : List UInt8) (errno : Option Errno) :
    Program Status := do
  match ← writeLoop fd bound data with
  | .error e =>
    let _ ← perform (I := calls) (.close fd)
    -- a file that is not complete is removed by the process that made it
    let _ ← perform (I := calls) .unlink
    return failure e
  | .ok _ =>
    match ← perform (I := calls) (.fsync fd) with
    | .error e =>
      let _ ← perform (I := calls) (.close fd)
      -- a complete one stays, whether it is durable or not
      return (.durabilityUncertain, some e)
    | .ok _ =>
      match ← perform (I := calls) (.close fd) with
      | .error e => return (.durabilityUncertain, some e)
      | .ok _ => syncDirectory store errno

/-- `write_new`. -/
def writeNew (store : Store) (bound : ℕ) (data : List UInt8) (errno : Option Errno) :
    Program Status := do
  match ← perform (I := calls) .openCreate with
  | .error e => return if e = .EEXIST then (.ioError, some e) else failure e
  | .ok fd => fillNew store bound fd data errno

/-- `cn_device_identity_load_or_create` after the file was not found. -/
def create (store : Store) (bound : ℕ) (errno : Option Errno) : Program Answer := do
  match ← perform (I := calls) .entropy with
  | none => return failed (.entropyFailed, errno)
  | some randomBytes =>
    match serialize randomBytes with
    | none => return failed (.ioError, errno)
    | some (id, file) =>
      let status ← writeNew store bound file errno
      if status.1 = .ioError ∧ status.2 = some .EEXIST then readExisting bound none
      else if status.1 ≠ .created then return failed status
      else return ⟨.created, status.2, id⟩

/-- `cn_device_identity_load_or_create`. -/
def loadOrCreate (store : Option Store) (outputCapacity : Option ℕ) (bound : ℕ) :
    Program Answer :=
  match store, outputCapacity with
  | some store, some capacity =>
    if capacity < textCapacity then return failed (.bufferTooSmall, none)
    else if ¬ storeValid store then return failed (.invalidArgument, none)
    else do
      let existing ← readExisting bound none
      if existing.result ≠ .notFound then return existing
      else create store bound existing.systemErrno
  | _, _ => return failed (.invalidArgument, none)

/-- `cn_device_identity_load`. -/
def load (store : Option Store) (outputCapacity : Option ℕ) (bound : ℕ) : Program Answer :=
  match store, outputCapacity with
  | some store, some capacity =>
    if capacity < textCapacity then return failed (.bufferTooSmall, none)
    else if ¬ storeValid store then return failed (.invalidArgument, none)
    else readExisting bound none
  | _, _ => return failed (.invalidArgument, none)

end DeviceIdentity
