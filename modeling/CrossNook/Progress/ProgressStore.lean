import CrossNook.Progress.BookIdentity
import CrossNook.System.Replace
import CrossNook.Text.Utf8
import CrossNook.Text.Words

/-!
# The progress store

Bounded local persistence of reading positions (`progress/progress_store.c`): one file for each
book, which a save replaces through a temporary file.

## Main definitions

* `ProgressStore.Record`: `cn_progress_record`
* `ProgressStore.encode`, `ProgressStore.decode`: the file format, as `save` writes and `load`
  checks it
* `ProgressStore.load`, `ProgressStore.save`: `cn_progress_store_load`, `cn_progress_store_save`

## Main results

* `ProgressStore.decode_encode`: the format round trip
* `ProgressStore.save_replaces`: a save replaces the record of its book and nothing else
* `ProgressStore.ends_load`: what a load returns
-/

namespace ProgressStore

open Bytes Crash Posix

/-- `CN_READER_POSITION_MAX_BYTES`. -/
def positionMaxBytes : ℕ := 65536

/-- `PROGRESS_HEADER_BYTES`. -/
def headerBytes : ℕ := 24

/-- `PROGRESS_CRC_BYTES`. -/
def crcBytes : ℕ := 4

/-- `PROGRESS_STATE_DIR_MAX_BYTES`. -/
def stateDirMaxBytes : ℕ := 4096

/-- `CN_PROGRESS_FORMAT_VERSION`. -/
def formatVersion : UInt32 := 1

/-- `CN_PROGRESS_FILE_SUFFIX`. -/
def fileSuffix : List UInt8 := ascii ".progress"

/-- `PROGRESS_MAGIC`. -/
def magic : List UInt8 := ascii "CNPROG\r\n"

/-- `UINT32_MAX`, the unknown progress in a file. -/
def uint32Max : UInt32 := 0xffffffff

/-- `SIZE_MAX`. -/
def sizeMax : ℕ := 2 ^ 32 - 1

/-- `cn_progress_result`. -/
inductive Result
  | ok
  | missing
  | corrupt
  | unsupported
  | ioError
  | invalid
  | noMemory
  deriving DecidableEq, Repr

/-- `cn_progress_record`: the location, a C string or `NULL`, and the progress of the position. -/
structure Record where
  location : Option (List UInt8)
  progress10000 : ℤ
  deriving DecidableEq, Repr

/-! ## Checks -/

/-- `bounded_length`. -/
def boundedLength (text : Option (List UInt8)) (maximum : ℕ) : Option ℕ :=
  match text with
  | none => none
  | some text => if text.length = 0 ∨ maximum < text.length then none else some text.length

/-- The first byte of a multi-byte character: the number of bytes that follow and the range of
the second byte. -/
def utf8Lead (c : UInt8) : Option (ℕ × UInt8 × UInt8) :=
  if 0xc2 ≤ c ∧ c ≤ 0xdf then some (1, 0x80, 0xbf)
  else if 0xe0 ≤ c ∧ c ≤ 0xef then
    some (2, if c = 0xe0 then 0xa0 else 0x80, if c = 0xed then 0x9f else 0xbf)
  else if 0xf0 ≤ c ∧ c ≤ 0xf4 then
    some (3, if c = 0xf0 then 0x90 else 0x80, if c = 0xf4 then 0x8f else 0xbf)
  else none

/-- The inner loop of `utf8_valid`, over the bytes after the second. -/
def utf8Tail : ℕ → List UInt8 → Option (List UInt8)
  | 0, text => some text
  | _ + 1, [] => none
  | continuation + 1, next :: text =>
    if next < 0x80 ∨ 0xbf < next then none else utf8Tail continuation text

/-- One turn of the outer loop of `utf8_valid`. -/
def utf8Step : List UInt8 → Option (List UInt8)
  | [] => none
  | c :: text =>
    if c = 0 then none
    else if c ≤ 0x7f then some text
    else
      match utf8Lead c with
      | none => none
      | some (continuation, minSecond, maxSecond) =>
        if text.length < continuation then none
        else
          match text with
          | [] => none
          | second :: text =>
            if second < minSecond ∨ maxSecond < second then none
            else utf8Tail (continuation - 1) text

/-- `utf8_valid`. -/
def utf8Valid (text : List UInt8) : Bool := Utf8.validates utf8Step text.length text

/-! ## Stores -/

/-- `cn_progress_store`, as `cn_progress_store_open` makes it. -/
structure Store where
  directory : List UInt8
  directory_ne_nil : directory ≠ []
  length_le : directory.length ≤ stateDirMaxBytes

theorem boundedLength_eq_some {text : Option (List UInt8)} {maximum n : ℕ}
    (h : boundedLength text maximum = some n) :
    ∃ t, text = some t ∧ t ≠ [] ∧ t.length = n ∧ n ≤ maximum := by
  cases text with
  | none => simp [boundedLength] at h
  | some t =>
    simp only [boundedLength] at h
    split_ifs at h with hn
    obtain rfl := Option.some.inj h
    rw [not_or, List.length_eq_zero_iff, not_lt] at hn
    exact ⟨t, rfl, hn.1, rfl, hn.2⟩

/-- `cn_progress_store_open`. -/
def openStore (stateDirectory : Option (List UInt8)) : Sys (Result × Option Store) :=
  match h : boundedLength stateDirectory stateDirMaxBytes with
  | none => return (.invalid, none)
  | some _ => do
    match ← stat (stateDirectory.getD []) with
    | .error _ => return (.ioError, none)
    | .ok st =>
      if st.kind ≠ .directory then return (.ioError, none)
      else do
        if ← malloc then
          if ← malloc then
            return (.ok, some
              { directory := stateDirectory.getD []
                directory_ne_nil := by
                  obtain ⟨t, rfl, hne, -, -⟩ := boundedLength_eq_some h
                  exact hne
                length_le := by
                  obtain ⟨t, rfl, -, hlen, hle⟩ := boundedLength_eq_some h
                  exact hlen.trans_le hle })
          else return (.noMemory, none)
        else return (.noMemory, none)

/-- The path that `record_path` builds. -/
def Store.path (store : Store) (token : List UInt8) : Path :=
  store.directory ++ (if store.directory.getLast? ≠ some 0x2f then [0x2f] else []) ++ token ++
    fileSuffix

/-- `record_path`. -/
def recordPath (store : Store) (identity : BookIdentity) : Sys (Option Path) :=
  match identity.token with
  | none => return none
  | some token =>
    if sizeMax - token.length - fileSuffix.length - 2 < store.directory.length then return none
    else do
      if ← malloc then return some (store.path token) else return none

/-- The path of the temporary file. -/
def temporaryPath (path : Path) (pid : ℕ) : Path := path ++ ascii ".tmp." ++ decimal pid

/-! ## The file format -/

/-- `read_u32be` at an offset. -/
def readU32be (data : List UInt8) (offset : ℕ) : UInt32 :=
  match data.drop offset with
  | a :: b :: c :: d :: _ => ofU32be a b c d
  | _ => 0

/-- The bytes of a record, as `cn_progress_store_save` lays them out. -/
def encode (token location : List UInt8) (progress10000 : ℤ) : List UInt8 :=
  let body :=
    magic ++ u32be formatVersion ++ u32be (UInt32.ofNat token.length) ++
      u32be (UInt32.ofNat location.length) ++
      u32be (if progress10000 < 0 then uint32Max else UInt32.ofNat progress10000.toNat) ++
      token ++ location
  body ++ u32be (crc32 body)

/-- The checks of `cn_progress_store_load` on the bytes of a file of at least twelve bytes, and
the record it takes from them. -/
def decode (token data : List UInt8) : Except Result Record :=
  if data.take magic.length ≠ magic then .error .corrupt
  else if readU32be data 8 ≠ formatVersion then .error .unsupported
  else if data.length < headerBytes + crcBytes then .error .corrupt
  else
    let identityLength := (readU32be data 12).toNat
    let locationLength := (readU32be data 16).toNat
    let progress := readU32be data 20
    if identityLength = 0 ∨ tokenBytes ≤ identityLength ∨ locationLength = 0 ∨
        positionMaxBytes < locationLength then .error .corrupt
    else
      let expected := headerBytes + identityLength + locationLength + crcBytes
      if expected ≠ data.length then .error .corrupt
      else if readU32be data (expected - crcBytes) ≠ crc32 (data.take (expected - crcBytes)) then
        .error .corrupt
      else if identityLength ≠ token.length ∨
          (data.drop headerBytes).take token.length ≠ token then .error .corrupt
      else if progress ≠ uint32Max ∧ 10000 < progress then .error .corrupt
      else
        let location := (data.drop (headerBytes + identityLength)).take locationLength
        if location.head? ≠ some 0x2f ∨ ¬ utf8Valid location then .error .corrupt
        else
          .ok { location := some location
                progress10000 := if progress = uint32Max then -1 else progress.toNat }

/-! ## Load -/

/-- The exits of `cn_progress_store_load` that close the file. -/
def closing (result : Result) (record : Record) : Sys (Result × Record) := do
  let _ ← close
  return (result, record)

/-- `cn_progress_store_load` after the file is open: the record that it leaves. -/
def loadFile (fd : Path) (token : List UInt8) (record : Record) : Sys (Result × Record) := do
  match ← fstat fd with
  | .error _ => closing .ioError record
  | .ok st =>
    match st.kind with
    | .regular content =>
      let size := content.length
      if size < 12 ∨ headerBytes + tokenBytes + positionMaxBytes + crcBytes < size then
        closing .corrupt record
      else do
        if ← malloc then
          match ← readAll fd size with
          | .ok (some data) =>
            -- a file that cannot be closed is not trusted
            match ← close with
            | .error _ => return (.ioError, record)
            | .ok _ =>
              match decode token data with
              | .error result => return (result, record)
              | .ok loaded => do
                -- the location is copied at the end
                if ← malloc then return (.ok, loaded) else return (.noMemory, record)
          | _ => closing .corrupt record
        else closing .noMemory record
    | _ => closing .ioError record

/-- `cn_progress_store_load`. -/
def load (store : Store) (identity : BookIdentity) (record : Record) : Sys (Result × Record) :=
  match identity.token with
  | none => return (.invalid, record)
  | some token => do
    match ← recordPath store identity with
    | none => return (.noMemory, record)
    | some path =>
      match ← openRead path with
      | .error e => return (if e = .ENOENT then .missing else .ioError, record)
      | .ok fd => loadFile fd token record

/-! ## Save -/

/-- The label `done` of `cn_progress_store_save` after a failure: `opened` tells whether the
temporary file is still open. -/
def discard (opened : Bool) (temporary : Path) : Sys Result := do
  if opened then
    let _ ← close
  let _ ← unlink temporary
  return .ioError

/-- The best-effort synchronization of the directory. -/
def syncDirectory (store : Store) : Sys Unit := do
  match ← openRead store.directory with
  | .error _ => return ()
  | .ok _ =>
    let _ ← fsync
    let _ ← close
    return ()

/-- The system calls of `cn_progress_store_save` on the files. -/
def replaceFile (store : Store) (path temporary : Path) (data : List UInt8) : Sys Result := do
  -- a temporary file that a killed save has left is removed first
  match unlinkFailure (← unlink temporary) with
  | some _ => discard false temporary
  | none =>
    match ← openCreate temporary with
    | .error _ => discard false temporary
    | .ok _ =>
      match ← writeAll temporary data with
      | .error _ => discard true temporary
      | .ok _ =>
        match ← fsync with
        | .error _ => discard true temporary
        | .ok _ =>
          match ← close with
          | .error _ => discard false temporary
          | .ok _ =>
            match ← rename temporary path with
            | .error _ => discard false temporary
            | .ok _ =>
              -- the result of this last sync is not looked at
              syncDirectory store
              return .ok

/-- The position that a save accepts, as its location and progress. -/
def validPosition (record : Record) : Option (List UInt8 × ℤ) :=
  match boundedLength record.location positionMaxBytes with
  | none => none
  | some _ =>
    let location := record.location.getD []
    if location.head? ≠ some 0x2f ∨ ¬ utf8Valid location ∨ record.progress10000 < -1 ∨
        10000 < record.progress10000 then none
    else some (location, record.progress10000)

/-- `cn_progress_store_save` in the process `pid`. -/
def save (store : Store) (identity : BookIdentity) (record : Record) (pid : ℕ) : Sys Result :=
  match identity.token with
  | none => return .invalid
  | some token =>
    match validPosition record with
    | none => return .invalid
    | some (location, progress10000) => do
      let data ← malloc
      let path ← recordPath store identity
      match data, path with
      | true, some path => do
        if ← malloc then
          replaceFile store path (temporaryPath path pid) (encode token location progress10000)
        else return .noMemory
      | _, _ => return .noMemory

/-! ## The validator -/

theorem utf8Tail_cons (n : ℕ) (b : UInt8) (text : List UInt8) :
    utf8Tail (n + 1) (b :: text) = if Utf8.Tail b then utf8Tail n text else none := by
  rw [utf8Tail]
  split_ifs <;> grind

theorem utf8Step_multi {a : UInt8} {text : List UInt8} (ha : 0x80 ≤ a) :
    utf8Step (a :: text) =
      match utf8Lead a with
      | none => none
      | some (continuation, minSecond, maxSecond) =>
        if text.length < continuation then none
        else
          match text with
          | [] => none
          | second :: text =>
            if second < minSecond ∨ maxSecond < second then none
            else utf8Tail (continuation - 1) text := by
  rw [utf8Step, if_neg (by grind), if_neg (by grind)]

/-- The first byte announces the bytes that the inner loop takes. -/
theorem utf8Lead_width {a minSecond maxSecond : UInt8} {continuation : ℕ}
    (h : utf8Lead a = some (continuation, minSecond, maxSecond)) :
    Utf8.width a = continuation + 1 := by
  unfold utf8Lead at h
  unfold Utf8.width
  by_cases htwo : 0xc2 ≤ a ∧ a ≤ 0xdf
  · rw [if_pos htwo] at h ⊢
    cases h
    rfl
  rw [if_neg htwo] at h ⊢
  by_cases hthree : 0xe0 ≤ a ∧ a ≤ 0xef
  · rw [if_pos hthree] at h ⊢
    cases h
    rfl
  rw [if_neg hthree] at h ⊢
  by_cases hfour : 0xf0 ≤ a ∧ a ≤ 0xf4
  · rw [if_pos hfour] at h ⊢
    cases h
    rfl
  · rw [if_neg hfour] at h
    cases h

theorem utf8Step_strips : Utf8.Strips utf8Step where
  nil := rfl
  one a r ha := by
    rw [utf8Step]
    split_ifs <;> grind
  two a b r h h' := by
    rw [utf8Step_multi (by grind), utf8Lead, if_pos ⟨h, h'⟩]
    simp only [List.length_cons, Nat.sub_self, utf8Tail]
    rw [if_neg (by omega)]
    split_ifs <;> grind
  three a b c r h h' := by
    rw [utf8Step_multi (by grind), utf8Lead, if_neg (by grind), if_pos ⟨h, h'⟩]
    simp only [List.length_cons, Nat.reduceSub, utf8Tail_cons, utf8Tail]
    rw [if_neg (by omega)]
    split_ifs <;> grind
  four a b c d r h h' := by
    rw [utf8Step_multi (by grind), utf8Lead, if_neg (by grind), if_neg (by grind),
      if_pos ⟨h, h'⟩]
    simp only [List.length_cons, Nat.reduceSub, utf8Tail_cons, utf8Tail]
    rw [if_neg (by omega)]
    split_ifs <;> grind
  short a r ha hw := by
    rw [utf8Step_multi ha]
    cases hlead : utf8Lead a with
    | none => rfl
    | some lead =>
      obtain ⟨continuation, minSecond, maxSecond⟩ := lead
      rw [utf8Lead_width hlead] at hw
      dsimp only
      rw [if_pos (by omega)]

/-- NUL-free UTF-8. -/
abbrev Text (l : List UInt8) : Prop := Utf8.ValidWith (· ≠ [0]) l

/-- **The validator accepts exactly the UTF-8 strings without NUL.** -/
theorem utf8Valid_iff {l : List UInt8} : utf8Valid l = true ↔ Text l :=
  Utf8.validates_iff utf8Step_strips.step_iff l

/-! ## The format round trip -/

theorem readU32be_of_eq {data : List UInt8} (before after : List UInt8) (w : UInt32)
    (h : data = before ++ (u32be w ++ after)) : readU32be data before.length = w := by
  rw [readU32be, h, List.drop_left]
  exact ofU32be_u32be w

/-- What a save accepts as a position. -/
structure IsPosition (location : List UInt8) (progress10000 : ℤ) : Prop where
  head : location.head? = some 0x2f
  length_le : location.length ≤ positionMaxBytes
  text : Text location
  progress : -1 ≤ progress10000 ∧ progress10000 ≤ 10000

theorem IsPosition.ne_nil {location : List UInt8} {progress10000 : ℤ}
    (h : IsPosition location progress10000) : location ≠ [] := by
  rintro rfl
  simpa using h.head

theorem validPosition_eq_some_iff {record : Record} {location : List UInt8} {progress10000 : ℤ} :
    validPosition record = some (location, progress10000) ↔
      record = ⟨some location, progress10000⟩ ∧ IsPosition location progress10000 := by
  obtain ⟨l, n⟩ := record
  constructor
  · intro h
    unfold validPosition at h
    cases hl : boundedLength l positionMaxBytes with
    | none => simp [hl] at h
    | some k =>
      obtain ⟨t, rfl, hne, rfl, hle⟩ := boundedLength_eq_some hl
      simp only [hl, Option.getD_some] at h
      split_ifs at h with hc
      simp only [not_or, not_not, not_lt, utf8Valid_iff] at hc
      obtain ⟨rfl, rfl⟩ := Prod.mk.inj (Option.some.inj h)
      exact ⟨rfl, hc.1, hle, hc.2.1, hc.2.2⟩
  · rintro ⟨he, h⟩
    obtain ⟨rfl, rfl⟩ := Record.mk.inj he
    have hl : boundedLength (some location) positionMaxBytes = some location.length := by
      rw [boundedLength, if_neg]
      rw [not_or, List.length_eq_zero_iff, not_lt]
      exact ⟨h.ne_nil, h.length_le⟩
    simp only [validPosition, hl, Option.getD_some]
    rw [if_neg]
    simp only [not_or, not_not, not_lt, utf8Valid_iff]
    exact ⟨h.head, h.text, h.progress⟩

theorem length_encode (token location : List UInt8) (progress10000 : ℤ) :
    (encode token location progress10000).length =
      headerBytes + token.length + location.length + crcBytes := by
  have hm : magic.length = 8 := rfl
  simp only [encode, List.length_append, length_u32be, hm, headerBytes, crcBytes]

/-- The progress survives its unsigned encoding. -/
theorem decode_progress {n : ℤ} (h : -1 ≤ n ∧ n ≤ 10000) (w : UInt32)
    (hw : w = if n < 0 then uint32Max else UInt32.ofNat n.toNat) :
    ¬ (w ≠ uint32Max ∧ 10000 < w) ∧ (if w = uint32Max then (-1 : ℤ) else (w.toNat : ℤ)) = n := by
  by_cases hn : n < 0
  · rw [if_pos hn] at hw
    refine ⟨fun hc => hc.1 hw, ?_⟩
    rw [if_pos hw]
    omega
  · rw [if_neg hn] at hw
    have hnat : w.toNat = n.toNat := by
      rw [hw, UInt32.toNat_ofNat']
      exact Nat.mod_eq_of_lt (by omega)
    have hne : w ≠ uint32Max := by
      intro h'
      rw [h'] at hnat
      simp only [uint32Max, UInt32.reduceToNat] at hnat
      omega
    refine ⟨?_, ?_⟩
    · rintro ⟨-, hlt⟩
      rw [UInt32.lt_iff_toNat_lt, hnat] at hlt
      simp only [UInt32.reduceToNat] at hlt
      omega
    · rw [if_neg hne, hnat]
      omega

/-- **Reading a record as it was written.** -/
theorem decode_encode {token location : List UInt8} {progress10000 : ℤ}
    (htoken : token.length = tokenBytes - 1) (h : IsPosition location progress10000) :
    decode token (encode token location progress10000) = .ok ⟨some location, progress10000⟩ := by
  obtain ⟨hhead, hlen, htext, hprogress⟩ := h
  have hpos : 0 < location.length := by
    rcases location with _ | ⟨c, l⟩
    · simp at hhead
    · simp
  unfold tokenBytes at htoken
  unfold positionMaxBytes at hlen
  have hlength := length_encode token location progress10000
  unfold headerBytes crcBytes at hlength
  set w : UInt32 := if progress10000 < 0 then uint32Max else UInt32.ofNat progress10000.toNat
    with hw
  set body : List UInt8 :=
    magic ++ u32be formatVersion ++ u32be (UInt32.ofNat token.length) ++
      u32be (UInt32.ofNat location.length) ++ u32be w ++ token ++ location with hbody
  have hdata : encode token location progress10000 = body ++ u32be (crc32 body) := rfl
  have hbl : body.length = 48 + location.length := by
    rw [hdata, List.length_append, length_u32be] at hlength
    omega
  set data := encode token location progress10000 with hdata'
  -- the fields of the file, where the decoder looks for them
  have hmagic : data.take magic.length = magic := by
    rw [hdata, hbody]
    simp only [List.append_assoc]
    exact List.take_left' rfl
  have h8 : readU32be data 8 = formatVersion :=
    readU32be_of_eq magic _ _ (by rw [hdata, hbody]; simp only [List.append_assoc]; rfl)
  have h12 : readU32be data 12 = UInt32.ofNat token.length :=
    readU32be_of_eq (magic ++ u32be formatVersion) _ _
      (by rw [hdata, hbody]; simp only [List.append_assoc]; rfl)
  have h16 : readU32be data 16 = UInt32.ofNat location.length :=
    readU32be_of_eq (magic ++ u32be formatVersion ++ u32be (UInt32.ofNat token.length)) _ _
      (by rw [hdata, hbody]; simp only [List.append_assoc]; rfl)
  have h20 : readU32be data 20 = w :=
    readU32be_of_eq (magic ++ u32be formatVersion ++ u32be (UInt32.ofNat token.length) ++
      u32be (UInt32.ofNat location.length)) _ _
      (by rw [hdata, hbody]; simp only [List.append_assoc]; rfl)
  have hcrc : readU32be data body.length = crc32 body :=
    readU32be_of_eq body [] _ (by rw [hdata, List.append_nil])
  have htok : (UInt32.ofNat token.length).toNat = 24 := by rw [htoken]; rfl
  have hloc : (UInt32.ofNat location.length).toNat = location.length := by
    rw [UInt32.toNat_ofNat']
    exact Nat.mod_eq_of_lt (by omega)
  have hdrop : data.drop 24 = token ++ (location ++ u32be (crc32 body)) := by
    rw [hdata, hbody]
    simp only [List.append_assoc]
    rfl
  obtain ⟨hw1, hw2⟩ := decode_progress hprogress w hw
  have hlocation : (data.drop (24 + 24)).take location.length = location := by
    rw [← List.drop_drop, hdrop, List.drop_left' htoken, List.take_left' rfl]
  -- so every check passes
  unfold decode
  rw [if_neg (not_not.mpr hmagic), if_neg (not_not.mpr h8), if_neg]
  swap
  · simp only [headerBytes, crcBytes]
    omega
  simp only [h12, h16, h20, htok, hloc, headerBytes, crcBytes, tokenBytes, positionMaxBytes]
  rw [if_neg (by omega), if_neg (by omega)]
  rw [show 24 + 24 + location.length + 4 - 4 = body.length by omega, hcrc, hdata,
    List.take_left' rfl, if_neg (not_not.mpr rfl), ← hdata, hdrop, List.take_left' rfl]
  rw [if_neg (by simp [htoken]), if_neg hw1, hlocation, if_neg, hw2]
  rw [not_or, not_not, not_not, utf8Valid_iff]
  exact ⟨hhead, htext⟩

/-! ## What a save does -/

theorem temporaryPath_ne (path : Path) (pid : ℕ) : path ≠ temporaryPath path pid := by
  intro h
  have := congrArg List.length h
  have h5 : (ascii ".tmp.").length = 5 := rfl
  simp only [temporaryPath, List.length_append, h5] at this
  omega

theorem keepsFiles_recordPath (store : Store) (identity : BookIdentity) :
    KeepsFiles (recordPath store identity) := by
  unfold recordPath
  split
  · exact Keeps.pure _
  · split_ifs
    · exact Keeps.pure _
    · refine keepsFiles_malloc.bind fun r => ?_
      exact Keeps.ite (Keeps.pure _) (Keeps.pure _)

theorem ends_recordPath {H : Prop} {m : Machine} (hm : H → Healthy m) (store : Store)
    {identity : BookIdentity} {token : List UInt8} (ht : identity.token = some token) :
    Ends (recordPath store identity) m
      (fun r m' => m'.files = m.files ∧ (H → Healthy m') ∧
        (r = some (store.path token) ∨ ¬ H ∧ r = none))
      fun m' => m'.files = m.files := by
  have hlen := BookIdentity.length_token ht
  have hsuffix : fileSuffix.length = 9 := rfl
  have hdir := store.length_le
  unfold stateDirMaxBytes at hdir
  unfold recordPath
  rw [ht]
  dsimp only
  rw [if_neg (by rw [hlen, hsuffix, sizeMax, tokenBytes]; omega), ends_bind]
  refine (ends_malloc hm).mono ?_ fun _ h => h
  rintro r m' ⟨hf, hm', hr⟩
  cases r with
  | true => exact ⟨hf, hm', .inl rfl⟩
  | false => exact ⟨hf, hm', .inr ⟨fun h => by simpa using hr h, rfl⟩⟩

section Save

variable {p t : Path} {store : Store}

theorem discard_leaves (opened : Bool) (ht : t ∈ ({t} : Set Path)) :
    Leaves (· = Result.ok) {t} (discard opened t) := by
  have htail : Leaves (· = Result.ok) {t} (do let _ ← unlink t; return .ioError) :=
    Leaves.bind (touches_unlink ht) fun _ => Leaves.pure (by simp)
  cases opened with
  | false => exact htail
  | true => exact Leaves.bind ((keepsFiles_query _).touches _) fun _ => htail

theorem keepsFiles_syncDirectory (store : Store) : KeepsFiles (syncDirectory store) := by
  refine (keepsFiles_query _).bind fun r => ?_
  cases r with
  | error e => exact Keeps.pure _
  | ok fd =>
    refine (keepsFiles_query _).bind fun _ => ?_
    exact (keepsFiles_query _).bind fun _ => Keeps.pure _

/-- **The system calls of a save replace the record.** -/
theorem replaceFile_replaces (hp : p ≠ t) (data : List UInt8) :
    Replaces (· = Result.ok) {t} p data (fun _ => True) (replaceFile store p t data) := by
  have hpt : p ∉ ({t} : Set Path) := hp
  have ht : t ∈ ({t} : Set Path) := rfl
  unfold replaceFile
  refine Replaces.next hpt (touches_unlink ht) fun r => ?_
  split
  · exact (discard_leaves false ht).replaces hpt
  refine Replaces.create hpt ht (fun e => discard_leaves false ht) ?_
  refine Replaces.write hpt ht (fun e => discard_leaves true ht) ?_
  refine Replaces.after hpt (keepsFiles_query _) fun r => ?_
  cases r with
  | error e => exact (discard_leaves true ht).replaces hpt
  | ok u =>
    refine Replaces.after hpt (keepsFiles_query _) fun r => ?_
    cases r with
    | error e => exact (discard_leaves false ht).replaces hpt
    | ok u =>
      refine Replaces.rename hpt ht (fun e => discard_leaves false ht) ?_
      exact Shows.bind (keepsFiles_syncDirectory store) fun _ => Shows.pure rfl

/-- **A save replaces the record of its book and nothing else.** -/
theorem save_replaces {identity : BookIdentity} {token location : List UInt8} {record : Record}
    {progress10000 : ℤ} (htoken : identity.token = some token)
    (hrecord : validPosition record = some (location, progress10000)) (pid : ℕ) :
    Replaces (· = Result.ok) {temporaryPath (store.path token) pid} (store.path token)
      (encode token location progress10000) (fun _ => True) (save store identity record pid) := by
  have hp : store.path token ∉ ({temporaryPath (store.path token) pid} : Set Path) :=
    temporaryPath_ne _ _
  unfold save
  rw [htoken, hrecord]
  refine Replaces.next hp (keepsFiles_malloc.touches _) fun allocated => ?_
  refine Replaces.bind (R := fun r _ => r = some (store.path token) ∨ r = none) hp
    ((keepsFiles_recordPath store identity).touches _) (fun m _ => ?_) fun path => ?_
  · refine (ends_recordPath (H := False) False.elim store htoken).mono ?_ fun _ _ => trivial
    rintro r m' ⟨-, -, h | ⟨-, h⟩⟩
    exacts [.inl h, .inr h]
  -- without memory nothing is written
  have hgiveUp : ∀ {P : Machine → Prop}, Replaces (· = Result.ok)
      {temporaryPath (store.path token) pid} (store.path token)
      (encode token location progress10000) P (pure .noMemory) :=
    (Leaves.pure (by simp)).replaces hp
  rcases allocated with _ | _ <;> rcases path with _ | path
  · exact hgiveUp
  · exact hgiveUp
  · exact hgiveUp
  · intro m hm
    obtain rfl : path = store.path token := by simpa using hm
    refine Replaces.next (P := fun _ => True) hp (keepsFiles_malloc.touches _) (fun r => ?_) m
      trivial
    cases r with
    | true => exact replaceFile_replaces (temporaryPath_ne _ _) _
    | false => exact hgiveUp

/-- A save that the checks refuse leaves everything as it is. -/
theorem save_refused {identity : BookIdentity} {record : Record} {pid : ℕ}
    (h : identity.token = none ∨ validPosition record = none) :
    save store identity record pid = pure .invalid := by
  unfold save
  rcases h with h | h
  · rw [h]
  · rw [h]
    split <;> rfl

end Save

/-! ## What a load returns -/

/-- What the checks of a load make of an open file. -/
def judge (token : List UInt8) (node : Node) : Except Result Record :=
  match node.kind with
  | .regular content =>
    if content.length < 12 ∨ headerBytes + tokenBytes + positionMaxBytes + crcBytes < content.length
    then .error .corrupt
    else decode token content
  | _ => .error .ioError

/-- What is stored for a token. -/
def Store.lookup (store : Store) (files : Path → Option Node) (token : List UInt8) :
    Except Result Record :=
  match resolve files 40 (store.path token) with
  | .error e => .error (if e = .ENOENT then .missing else .ioError)
  | .ok fd =>
    match files fd with
    | none => .error .missing
    | some node => judge token node

/-- The result and the record after a load with the given outcome. -/
def report (record : Record) : Except Result Record → Result × Record
  | .ok loaded => (.ok, loaded)
  | .error result => (result, record)

/-- A load that a failing call ends. -/
structure Failed (record : Record) (r : Result × Record) : Prop where
  ne_ok : r.1 ≠ .ok
  ne_missing : r.1 ≠ .missing
  record_eq : r.2 = record

section Load

variable {H : Prop} {m : Machine} {token : List UInt8} {record : Record}

theorem ends_closing {P : Result × Record → Prop} {files : Path → Option Node} {result : Result}
    (hf : m.files = files) (hP : P (result, record)) :
    Ends (closing result record) m (fun r m' => m'.files = files ∧ P r)
      fun m' => m'.files = files := by
  refine (ends_bind _).mpr (((keepsFiles_query _).ends m).mono ?_ fun _ h => h.trans hf)
  exact fun _ m' h => ⟨h.trans hf, hP⟩

theorem ends_loadFile {fd : Path} {node : Node} (hm : H → Healthy m)
    (hfile : m.files fd = some node) :
    Ends (loadFile fd token record) m
      (fun r m' => m'.files = m.files ∧
        (r = report record (judge token node) ∨ ¬ H ∧ Failed record r))
      fun m' => m'.files = m.files := by
  unfold loadFile
  rw [ends_bind]
  refine (ends_fstat hm hfile).mono ?_ fun _ h => h
  rintro r m₁ ⟨hf₁, hm₁, rfl | ⟨hH, f, rfl⟩⟩
  swap
  · exact ends_closing hf₁ (.inr ⟨hH, by simp, by simp, rfl⟩)
  obtain ⟨ino, kind⟩ := node
  -- only a regular file of a possible size is read
  cases kind with
  | directory | symlink | other => exact ends_closing hf₁ (.inl rfl)
  | regular content =>
  dsimp only [judge]
  rw [ends_ite]
  split_ifs with hsize
  · exact ends_closing hf₁ (.inl rfl)
  rw [ends_bind]
  refine (ends_malloc hm₁).mono ?_ fun _ h => h.trans hf₁
  rintro r m₂ ⟨hf₂, hm₂, hr⟩
  cases r with
  | false =>
    exact ends_closing (hf₂.trans hf₁)
      (.inr ⟨fun h => by simpa using hr h, by simp, by simp, rfl⟩)
  | true =>
  -- its content, as it is on the disk
  rw [if_pos rfl, ends_bind]
  have hfile₂ : m₂.files fd = some ⟨ino, .regular content⟩ := by rw [hf₂, hf₁, hfile]
  refine (ends_readAll hm₂ hfile₂ le_rfl).mono ?_ fun _ h => h.trans (hf₂.trans hf₁)
  rintro r m₃ ⟨hf₃, hm₃, rfl | ⟨hH, e, rfl⟩⟩
  swap
  · exact ends_closing (hf₃.trans (hf₂.trans hf₁)) (.inr ⟨hH, by simp, by simp, rfl⟩)
  dsimp only
  rw [List.take_length, ends_bind]
  refine (ends_query hm₃).mono ?_ fun _ h => h.trans (hf₃.trans (hf₂.trans hf₁))
  rintro r m₄ ⟨hf₄, hm₄, rfl | ⟨hH, f, rfl⟩⟩
  swap
  · exact ⟨hf₄.trans (hf₃.trans (hf₂.trans hf₁)), .inr ⟨hH, by simp, by simp, rfl⟩⟩
  have hf : m₄.files = m.files := hf₄.trans (hf₃.trans (hf₂.trans hf₁))
  -- what it decodes to
  cases decode token content with
  | error result => exact ⟨hf, .inl rfl⟩
  | ok loaded =>
    dsimp only
    rw [ends_bind]
    refine (ends_malloc hm₄).mono ?_ fun _ h => h.trans hf
    rintro r m₅ ⟨hf₅, -, hr⟩
    cases r with
    | true => exact ⟨hf₅.trans hf, .inl rfl⟩
    | false =>
      exact ⟨hf₅.trans hf, .inr ⟨fun h => by simpa using hr h, by simp, by simp, rfl⟩⟩

theorem resolve_eq_ok {files : Path → Option Node} {k : ℕ} {p q : Path}
    (h : resolve files k p = .ok q) : ∃ node, files q = some node := by
  induction k generalizing p with
  | zero => simp [resolve] at h
  | succ k ih =>
    rw [resolve] at h
    cases hp : files p with
    | none => simp [hp] at h
    | some n =>
      simp only [hp] at h
      split at h
      · exact ih h
      · obtain rfl := Except.ok.inj h
        exact ⟨n, hp⟩

/-- **What a load returns**: what is stored, or an error of a call that failed. -/
theorem ends_load (hm : H → Healthy m) (store : Store) {identity : BookIdentity}
    (ht : identity.token = some token) :
    Ends (load store identity record) m
      (fun r m' => m'.files = m.files ∧
        (r = report record (store.lookup m.files token) ∨ ¬ H ∧ Failed record r))
      fun m' => m'.files = m.files := by
  unfold load
  rw [ht]
  dsimp only
  rw [ends_bind]
  refine (ends_recordPath hm store ht).mono ?_ fun _ h => h
  rintro r m₁ ⟨hf₁, hm₁, rfl | ⟨hH, rfl⟩⟩
  swap
  · exact ⟨hf₁, .inr ⟨hH, by simp, by simp, rfl⟩⟩
  dsimp only
  rw [ends_bind]
  refine (show Ends (openRead (store.path token)) m₁ _ _ from ends_query hm₁).mono ?_
    fun _ h => h.trans hf₁
  rintro r m₂ ⟨hf₂, hm₂, rfl | ⟨hH, f, rfl⟩⟩
  swap
  · exact ⟨hf₂.trans hf₁, .inr ⟨hH, by simp [f.ne], by simp [f.ne], rfl⟩⟩
  unfold Store.lookup
  rw [hf₁]
  -- the record is looked up under the path that its links lead to
  cases hq : resolve m.files 40 (store.path token) with
  | error e => exact ⟨hf₂.trans hf₁, .inl rfl⟩
  | ok fd =>
    obtain ⟨node, hnode⟩ := resolve_eq_ok hq
    have hnode₂ : m₂.files fd = some node := by rw [hf₂, hf₁, hnode]
    simp only [hnode]
    refine (ends_loadFile hm₂ hnode₂).mono ?_ fun _ h => h.trans (hf₂.trans hf₁)
    exact fun r m' h => ⟨h.1.trans (hf₂.trans hf₁), h.2⟩

/-- The most system calls of a load. -/
def loadCalls : ℕ := headerBytes + tokenBytes + positionMaxBytes + crcBytes + 6

theorem finishes_closing (result : Result) (record : Record) : Finishes 1 (closing result record) :=
  Finishes.bind (k := 0) (finishes_query _) fun _ => Finishes.pure _

theorem finishes_loadFile (fd : Path) (token : List UInt8) (record : Record) :
    Finishes (loadCalls - 2) (loadFile fd token record) := by
  -- one call closes the file, however the load ends
  have hclosing : ∀ result k, Finishes (k + 1) (closing result record) :=
    fun result k => (finishes_closing result record).mono (Nat.le_add_left _ _)
  refine Finishes.bind (j := 1) (k := loadCalls - 3) (finishes_fstat fd) fun r => ?_
  cases r with
  | error e => exact hclosing _ _
  | ok st =>
    dsimp only
    split
    · next content _ =>
      by_cases hsize : content.length < 12 ∨
          headerBytes + tokenBytes + positionMaxBytes + crcBytes < content.length
      · rw [if_pos hsize]
        exact hclosing _ _
      rw [if_neg hsize]
      rw [not_or, not_lt, not_lt] at hsize
      refine (Finishes.bind (j := 1) (k := content.length + 2) finishes_malloc fun r => ?_).mono
        (by unfold loadCalls; omega)
      refine Finishes.ite ?_ (hclosing _ _)
      refine Finishes.bind (k := 2) (finishes_readAll _ _) fun r => ?_
      split
      · refine Finishes.bind (j := 1) (k := 1) (finishes_query _) fun r => ?_
        cases r with
        | error e => exact Finishes.pure _
        | ok _ =>
          dsimp only
          split
          · exact Finishes.pure _
          · refine Finishes.bind (k := 0) finishes_malloc fun r => ?_
            exact Finishes.ite (Finishes.pure _) (Finishes.pure _)
      · exact hclosing _ _
    · exact hclosing _ _

theorem finishes_recordPath (store : Store) (identity : BookIdentity) :
    Finishes 1 (recordPath store identity) := by
  unfold recordPath
  split
  · exact Finishes.pure _
  · refine Finishes.ite (Finishes.pure _) (Finishes.bind (k := 0) finishes_malloc fun r => ?_)
    exact Finishes.ite (Finishes.pure _) (Finishes.pure _)

/-- A load whose calls do not fail returns. -/
theorem finishes_load (store : Store) (identity : BookIdentity) (record : Record) :
    Finishes loadCalls (load store identity record) := by
  unfold load
  split
  · exact Finishes.pure _
  refine Finishes.bind (j := 1) (k := loadCalls - 1) (finishes_recordPath _ _) fun path => ?_
  cases path with
  | none => exact Finishes.pure _
  | some path =>
    refine Finishes.bind (j := 1) (k := loadCalls - 2) (finishes_query _) fun r => ?_
    cases r with
    | error e => exact Finishes.pure _
    | ok fd => exact finishes_loadFile _ _ _

end Load

/-- What is accepted behind a check has passed it. -/
theorem ite_error_eq_ok {p : Prop} [Decidable p] {result : Result} {x : Except Result Record}
    {record : Record} : (if p then .error result else x) = .ok record ↔ ¬ p ∧ x = .ok record := by
  by_cases h : p <;> simp [h]

/-- What is refused has failed a check or one behind it. -/
theorem ite_error_eq_error {p : Prop} [Decidable p] {result result' : Result}
    {x : Except Result Record} :
    (if p then .error result else x) = .error result' ↔
      p ∧ result = result' ∨ ¬ p ∧ x = .error result' := by
  by_cases h : p <;> simp [h]

/-- The checks never report success as an error, nor a missing file. -/
theorem decode_eq_error {token data : List UInt8} {result : Result}
    (h : decode token data = .error result) : result = .corrupt ∨ result = .unsupported := by
  unfold decode at h
  dsimp only at h
  -- one check after the other; the second one alone tells of another version
  rcases ite_error_eq_error.mp h with ⟨-, rfl⟩ | ⟨-, h⟩
  · exact .inl rfl
  rcases ite_error_eq_error.mp h with ⟨-, rfl⟩ | ⟨-, h⟩
  · exact .inr rfl
  iterate 7
    rcases ite_error_eq_error.mp h with ⟨-, rfl⟩ | ⟨-, h⟩
    · exact .inl rfl
  cases h

/-- What is stored at a token without a file. -/
theorem lookup_of_none {store : Store} {files : Path → Option Node} {token : List UInt8}
    (h : files (store.path token) = none) : store.lookup files token = .error .missing := by
  simp only [Store.lookup, resolve, h]
  rfl

/-- What is stored at a token after a save. -/
theorem lookup_of_encode {store : Store} {files : Path → Option Node}
    {token location : List UInt8} {progress10000 : ℤ} {ino : ℕ}
    (htoken : token.length = tokenBytes - 1) (h : IsPosition location progress10000)
    (hfile : files (store.path token) =
      some ⟨ino, .regular (encode token location progress10000)⟩) :
    store.lookup files token = .ok ⟨some location, progress10000⟩ := by
  have hsize : ¬ ((encode token location progress10000).length < 12 ∨
      headerBytes + tokenBytes + positionMaxBytes + crcBytes <
        (encode token location progress10000).length) := by
    have := h.length_le
    rw [length_encode, htoken]
    unfold headerBytes tokenBytes positionMaxBytes crcBytes at *
    omega
  have hresolve : resolve files 40 (store.path token) = .ok (store.path token) := by
    simp only [resolve, hfile]
  simp only [Store.lookup, hresolve, hfile, judge]
  rw [if_neg hsize, decode_encode htoken h]

end ProgressStore
