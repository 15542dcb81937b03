import CrossNook.System.Posix
import CrossNook.Text.Lines
import Mathlib.Data.List.DropRight

/-!
# Storage verification

The check that a storage root lies on an explicitly selected portable device that is already
mounted: the mount table is read, the longest mount point above the root is selected, and the
device and every directory on the way are inspected.

## Main definitions

* `StorageVerify.normalize`, `StorageVerify.beneath`: paths
* `StorageVerify.parseMount`: a line of the mount table, with `StorageVerify.Columns`: its columns
* `StorageVerify.observeMount`: the selection of the longest mount point, one entry at a time
* `StorageVerify.verifyWithSource`: the verification
* `StorageVerify.Sound`: what a successful verification promises

## Main results

* `StorageVerify.select_eq_ok_iff`: what the selection has seen, in whatever order
* `StorageVerify.verifyWithSource_eq_ok_iff`: when a verification succeeds
* `StorageVerify.verifyWithSource_sound`: what it promises, whatever the order of the mount table
-/

namespace StorageVerify

open Bytes

open Posix (Errno)

/-- What a verification ends in, other than success. -/
inductive Result
  | invalid
  | pathTooLong
  | mountMissing
  | wrongMount
  | wrongDevice
  | readOnly
  | rootMissing
  | notDirectory
  | symlink
  | unsupported
  | malformedMounts
  | ioError
  deriving DecidableEq, Repr

/-- A refusal, with the error of the system call behind it. -/
structure Failure where
  result : Result
  systemErrno : Option Errno
  deriving DecidableEq

/-- The type of a file, as far as it is told apart. -/
inductive FileType
  | regular
  | directory
  | symlink
  | block
  | other
  deriving DecidableEq

/-- What `lstat` and `stat` answer. -/
structure Stat where
  type : FileType
  dev : UInt64
  rdev : UInt64

/-- The storage root that the user selected. -/
structure Candidate where
  root : Option (List UInt8)
  mountpoint : Option (List UInt8)
  expectedMajor : UInt32
  expectedMinor : UInt32

/-- A verified storage root. -/
structure Verified where
  root : List UInt8
  mountpoint : List UInt8
  deviceMajor : UInt32
  deviceMinor : UInt32
  deriving DecidableEq

/-- Where the mount table and the answers about paths come from. -/
structure Source where
  readMountinfo : Except Errno (List UInt8)
  lstatPath : List UInt8 → Except Errno Stat
  statPath : List UInt8 → Except Errno Stat

def pathCapacity : ℕ := 4096

def mountinfoCapacity : ℕ := 32768

/-- Go on only under a condition. -/
def require (p : Prop) [Decidable p] (result : Result) : Except Failure Unit :=
  if p then .ok () else .error ⟨result, none⟩

@[simp] theorem require_eq_ok_iff {p : Prop} [Decidable p] {result : Result} {u : Unit} :
    require p result = .ok u ↔ p := by
  unfold require
  split <;> simp [*]

@[simp] theorem bind_eq_ok_iff {α β : Type} {x : Except Failure α} {f : α → Except Failure β}
    {b : β} : (x >>= f) = .ok b ↔ ∃ a, x = .ok a ∧ f a = .ok b := by
  cases x with
  | error e => simp [bind, Except.bind]
  | ok a => simp [bind, Except.bind]

/-! ## Paths -/

/-- A component of a path, other than the empty one, `.` and `..`. -/
abbrev PlainComponent (component : List UInt8) : Prop :=
  component ≠ [] ∧ component ≠ ascii "." ∧ component ≠ ascii ".."

/-- An absolute path of plain components, without the slashes it ends in. -/
def normalize (input : Option (List UInt8)) : Except Failure (List UInt8) :=
  match input with
  | none => .error ⟨.invalid, none⟩
  | some input =>
    if input.head? ≠ some 0x2f then .error ⟨.invalid, none⟩
    else if pathCapacity ≤ input.length then .error ⟨.pathTooLong, none⟩
    else
      let path := input.rdropWhile fun b => b = 0x2f
      if path.length ≤ 1 then .error ⟨.invalid, none⟩
      else if ((path.drop 1).splitOn 0x2f).all (fun c => decide (PlainComponent c)) then .ok path
      else .error ⟨.invalid, none⟩

/-- `path` is `mountpoint` or lies below it. -/
def beneath (path mountpoint : List UInt8) : Bool :=
  if mountpoint = ascii "/" then path.head? = some 0x2f
  else
    path.take mountpoint.length = mountpoint ∧
      (path[mountpoint.length]? = none ∨ path[mountpoint.length]? = some 0x2f)

/-! ## Device numbers -/

def makedev (major minor : UInt32) : UInt64 :=
  let x := major.toUInt64
  let y := minor.toUInt64
  (x &&& (0xfff : UInt64)) <<< (8 : UInt64) ||| (x &&& (0xfffff000 : UInt64)) <<< (32 : UInt64) |||
    (y &&& (0xff : UInt64)) ||| (y &&& (0xffffff00 : UInt64)) <<< (12 : UInt64)

def major (dev : UInt64) : UInt32 :=
  ((dev &&& (0xfff00 : UInt64)) >>> (8 : UInt64) |||
    (dev &&& (0xfffff00000000000 : UInt64)) >>> (32 : UInt64)).toUInt32

def minor (dev : UInt64) : UInt32 :=
  (dev &&& (0xff : UInt64) ||| (dev &&& (0xffffff00000 : UInt64)) >>> (12 : UInt64)).toUInt32

/-! ## The mount table -/

/-- The value of an octal digit. -/
def octalValue (b : UInt8) : Option ℕ := if 0x30 ≤ b ∧ b ≤ 0x37 then some (b.toNat - 0x30) else none

/-- A token with its octal escapes resolved. An escape from `\400` on is cut to its low byte. -/
def unescapeBytes : List UInt8 → Option (List UInt8)
  | [] => some []
  | [b] => if b = 0x5c then none else some [b]
  | [b, b₁] => if b = 0x5c then none else (unescapeBytes [b₁]).map (b :: ·)
  | [b, b₁, b₂] => if b = 0x5c then none else (unescapeBytes [b₁, b₂]).map (b :: ·)
  | b :: b₁ :: b₂ :: b₃ :: rest =>
    if b = 0x5c then do
      let x ← octalValue b₁
      let y ← octalValue b₂
      let z ← octalValue b₃
      if x * 64 + y * 8 + z = 0 then none
      else (unescapeBytes rest).map (UInt8.ofNat (x * 64 + y * 8 + z) :: ·)
    else (unescapeBytes (b₁ :: b₂ :: b₃ :: rest)).map (b :: ·)

/-- `unescape` in place: the token is a C string, which ends at a zero byte written into it. -/
def unescape (token : List UInt8) : Option (List UInt8) :=
  (unescapeBytes token).map fun text => text.takeWhile fun b => b ≠ 0

/-- The next of the tokens left on a line. The cursor is null once there are none. -/
def token : List (List UInt8) → Option (List UInt8 × List (List UInt8))
  | [] => none
  | start :: cursor => if start = [] then none else some (start, cursor)

/-- The digits of a number, read after `result`. -/
def numberFrom (result : ℕ) : List UInt8 → Option UInt32
  | [] => some (UInt32.ofNat result)
  | b :: text =>
    if IsDigit b then
      if (4294967295 - digitValue b) / 10 < result then none
      else numberFrom (result * 10 + digitValue b) text
    else none

def number (text : List UInt8) : Option UInt32 := if text = [] then none else numberFrom 0 text

/-- The two numbers around the first colon. -/
def deviceNumber (text : List UInt8) : Option (UInt32 × UInt32) :=
  match skip (fun b => b ≠ 0x3a) text with
  | [] => none
  | _ :: rest => do
    let major ← number (scan (fun b => b ≠ 0x3a) text)
    let minor ← number rest
    some (major, minor)

/-- An option of a list of options that commas separate. -/
def optionPresent (options name : List UInt8) : Bool := name ∈ options.splitOn 0x2c

/-- A line of the mount table. -/
structure MountEntry where
  root : List UInt8
  point : List UInt8
  options : List UInt8
  type : List UInt8
  device : List UInt8
  superOptions : List UInt8
  majorNumber : UInt32
  minorNumber : UInt32
  deriving DecidableEq

/-- The tokens after the optional ones, which a `-` ends. -/
def skipOptional : List (List UInt8) → Option (List (List UInt8))
  | [] => none
  | optional :: cursor =>
    if optional = [] then none
    else if optional = ascii "-" then some cursor
    else skipOptional cursor

def parseMount (line : List UInt8) : Option MountEntry := do
  let (id, cursor) ← token (line.splitOn 0x20)
  let (parent, cursor) ← token cursor
  let (numbers, cursor) ← token cursor
  -- both identifiers are read as numbers and not used
  let _ ← number id
  let _ ← number parent
  let (majorNumber, minorNumber) ← deviceNumber numbers
  let (root, cursor) ← token cursor
  let (point, cursor) ← token cursor
  let (options, cursor) ← token cursor
  if cursor = [] then none
  else do
    let root ← unescape root
    let point ← unescape point
    if root.head? ≠ some 0x2f ∨ point.head? ≠ some 0x2f then none
    else do
      -- any number of optional fields stands before the separator
      let cursor ← skipOptional cursor
      let (type, cursor) ← token cursor
      let (device, cursor) ← token cursor
      let (superOptions, cursor) ← token cursor
      if cursor ≠ [] then none
      else do
        let device ← unescape device
        some { root, point, options, type, device, superOptions, majorNumber, minorNumber }

/-! ## The columns of a line -/

/-- The entry says what stands in the columns of the line: six of them, the optional ones, and three
after a `-`. -/
def Columns (line : List UInt8) (entry : MountEntry) : Prop :=
  ∃ id parent numbers root point optional device,
    line.splitOn 0x20 = [id, parent, numbers, root, point, entry.options] ++ optional ++
      [ascii "-", entry.type, device, entry.superOptions] ∧
    ascii "-" ∉ optional ∧
    deviceNumber numbers = some (entry.majorNumber, entry.minorNumber) ∧
    unescape root = some entry.root ∧ unescape point = some entry.point ∧
    unescape device = some entry.device

theorem token_eq_some {tokens cursor : List (List UInt8)} {start : List UInt8}
    (h : token tokens = some (start, cursor)) : tokens = start :: cursor := by
  cases tokens with
  | nil => cases h
  | cons first rest =>
    rw [token] at h
    split_ifs at h
    obtain ⟨rfl, rfl⟩ := Prod.mk.inj (Option.some.inj h)
    rfl

theorem skipOptional_eq_some {tokens cursor : List (List UInt8)}
    (h : skipOptional tokens = some cursor) :
    ∃ optional, tokens = optional ++ ascii "-" :: cursor ∧ ascii "-" ∉ optional := by
  induction tokens with
  | nil => cases h
  | cons first rest ih =>
    rw [skipOptional] at h
    split_ifs at h with hnil hdash
    · obtain rfl := Option.some.inj h
      exact ⟨[], by rw [hdash]; rfl, List.not_mem_nil⟩
    · obtain ⟨optional, rfl, hoptional⟩ := ih h
      exact ⟨first :: optional, rfl, by simp [Ne.symm hdash, hoptional]⟩

theorem columns_of_parseMount {line : List UInt8} {entry : MountEntry}
    (h : parseMount line = some entry) : Columns line entry := by
  unfold parseMount at h
  obtain ⟨⟨id, c₁⟩, h₁, h⟩ := Option.bind_eq_some_iff.mp h
  obtain ⟨⟨parent, c₂⟩, h₂, h⟩ := Option.bind_eq_some_iff.mp h
  obtain ⟨⟨numbers, c₃⟩, h₃, h⟩ := Option.bind_eq_some_iff.mp h
  obtain ⟨_, -, h⟩ := Option.bind_eq_some_iff.mp h
  obtain ⟨_, -, h⟩ := Option.bind_eq_some_iff.mp h
  obtain ⟨⟨majorNumber, minorNumber⟩, hnumbers, h⟩ := Option.bind_eq_some_iff.mp h
  obtain ⟨⟨root, c₄⟩, h₄, h⟩ := Option.bind_eq_some_iff.mp h
  obtain ⟨⟨point, c₅⟩, h₅, h⟩ := Option.bind_eq_some_iff.mp h
  obtain ⟨⟨options, c₆⟩, h₆, h⟩ := Option.bind_eq_some_iff.mp h
  dsimp only at h
  split_ifs at h
  obtain ⟨root', hroot, h⟩ := Option.bind_eq_some_iff.mp h
  obtain ⟨point', hpoint, h⟩ := Option.bind_eq_some_iff.mp h
  split_ifs at h
  obtain ⟨c₇, hskip, h⟩ := Option.bind_eq_some_iff.mp h
  obtain ⟨optional, hsplit, hoptional⟩ := skipOptional_eq_some hskip
  obtain ⟨⟨type, c₈⟩, h₈, h⟩ := Option.bind_eq_some_iff.mp h
  obtain ⟨⟨device, c₉⟩, h₉, h⟩ := Option.bind_eq_some_iff.mp h
  obtain ⟨⟨superOptions, c₁₀⟩, h₁₀, h⟩ := Option.bind_eq_some_iff.mp h
  dsimp only at h
  split_ifs at h with hend
  obtain ⟨device', hdevice, h⟩ := Option.bind_eq_some_iff.mp h
  obtain rfl := Option.some.inj h
  dsimp only at h₉ h₁₀ hend
  refine ⟨id, parent, numbers, root, point, optional, device, ?_, hoptional, hnumbers, hroot, hpoint,
    hdevice⟩
  rw [token_eq_some h₁, token_eq_some h₂, token_eq_some h₃, token_eq_some h₄, token_eq_some h₅,
    token_eq_some h₆, hsplit, token_eq_some h₈, token_eq_some h₉, token_eq_some h₁₀,
    not_not.mp hend]
  rfl

/-- An entry that is mounted to be written. -/
def MountEntry.readWrite (entry : MountEntry) : Bool :=
  optionPresent entry.options (ascii "rw") && optionPresent entry.superOptions (ascii "rw") &&
    !optionPresent entry.options (ascii "ro") && !optionPresent entry.superOptions (ascii "ro")

/-- An entry of a part of a file system, or of a file system that is not supported. -/
def MountEntry.unsupported (entry : MountEntry) : Bool :=
  entry.root ≠ ascii "/" || entry.type ∉ [ascii "vfat", ascii "ext2", ascii "ext3", ascii "ext4"]

/-! ## The selection -/

/-- What the mount table has shown so far: the length of the longest mount point above the root,
what its first entry says, and how many entries with a mount point of that length came after. -/
structure Selection where
  longest : ℕ
  selected : Bool
  duplicates : ℕ
  majorNumber : UInt32
  minorNumber : UInt32
  device : List UInt8
  rw : Bool
  unsupported : Bool

/-- Nothing seen. -/
def Selection.start : Selection := ⟨0, false, 0, 0, 0, [], false, false⟩

/-- What is kept of an entry with a longer mount point than any before. -/
def Selection.of (point : List UInt8) (entry : MountEntry) : Selection where
  longest := entry.point.length
  selected := entry.point = point
  duplicates := 0
  majorNumber := entry.majorNumber
  minorNumber := entry.minorNumber
  device := entry.device
  rw := entry.readWrite
  unsupported := entry.unsupported

/-- One entry of the mount table. -/
def observeMount (root point : List UInt8) (s : Selection) (entry : MountEntry) :
    Option Selection :=
  if beneath root entry.point = false then some s
  else if s.longest < entry.point.length then
    if pathCapacity ≤ entry.device.length then none else some (.of point entry)
  else if entry.point.length = s.longest then some { s with duplicates := s.duplicates + 1 }
  else some s

/-- One line of the mount table. -/
def observeLine (root point : List UInt8) (s : Selection) (line : List UInt8) :
    Option Selection :=
  if 8192 < line.length then none
  else do
    let entry ← parseMount line
    observeMount root point s entry

/-- The lines of a text that ends in a line feed. -/
def linesOf (mounts : List UInt8) : List (List UInt8) := (mounts.splitOn 0x0a).dropLast

/-- The selection over the whole mount table. -/
def select (root point mounts : List UInt8) : Except Failure Selection :=
  if mounts = [] ∨ mountinfoCapacity < mounts.length ∨ mounts.getLast? ≠ some 0x0a ∨ 0 ∈ mounts then
    .error ⟨.malformedMounts, none⟩
  else
    match (linesOf mounts).foldlM (observeLine root point) .start with
    | none => .error ⟨.malformedMounts, none⟩
    | some s => .ok s

/-! ## The verification -/

/-- An answer of the file system, or the refusal with its error. -/
def answer {α : Type} (result : Result) (missing : Result) : Except Errno α → Except Failure α
  | .ok a => .ok a
  | .error e => .error ⟨if e = .ENOENT then missing else result, some e⟩

/-- The paths that end before a slash of `path`, or with it. -/
def components (path : List UInt8) : List (List UInt8) :=
  ((List.range' 1 path.length).filter fun i => i = path.length ∨ path[i]? = some 0x2f).map path.take

def inspectComponent (source : Source) (path : List UInt8) (expected : UInt64) (missing : Result)
    (component : List UInt8) : Except Failure Unit := do
  let st ← answer .ioError missing (source.lstatPath component)
  require (st.type ≠ .symlink) .symlink
  require (st.type = .directory) .notDirectory
  require (component = path → st.dev = expected) .wrongMount

/-- Every directory on the way to `path`, and `path` itself on the expected device. -/
def inspectComponents (source : Source) (path : List UInt8) (expected : UInt64) (missing : Result) :
    Except Failure Unit :=
  (components path).forM (inspectComponent source path expected missing)

def verifyWithSource (candidate : Candidate) (source : Source) : Except Failure Verified := do
  require (candidate.expectedMajor ≠ 0 ∨ candidate.expectedMinor ≠ 0) .invalid
  let root ← normalize candidate.root
  let point ← normalize candidate.mountpoint
  require (beneath root point = true) .wrongMount
  let mounts ← answer .ioError .ioError source.readMountinfo
  -- the longest mount point above the root decides, and only one entry may have it
  let s ← select root point mounts
  require (s.longest ≠ 0) .mountMissing
  require (s.duplicates = 0) .malformedMounts
  require (s.selected = true) (if s.longest = 1 then .mountMissing else .wrongMount)
  require (s.unsupported = false ∧ s.device.head? = some 0x2f) .unsupported
  require (s.rw = true) .readOnly
  require (s.majorNumber = candidate.expectedMajor ∧ s.minorNumber = candidate.expectedMinor)
    .wrongDevice
  -- a number that does not survive `makedev` cannot be that of a device
  let expected := makedev s.majorNumber s.minorNumber
  require (major expected = s.majorNumber ∧ minor expected = s.minorNumber) .malformedMounts
  let st ← answer .ioError .ioError (source.statPath s.device)
  require (st.type = .block ∧ major st.rdev = s.majorNumber ∧ minor st.rdev = s.minorNumber)
    .wrongDevice
  -- no component of either path leads to another device
  inspectComponents source point expected .mountMissing
  inspectComponents source root expected .rootMissing
  return ⟨root, point, s.majorNumber, s.minorNumber⟩

/-! ## What the selection has seen -/

section Select

variable {root point : List UInt8} {entries : List MountEntry} {s s' : Selection} {e : MountEntry}

/-- The selection after some entries: no mount point above the root is longer than the longest,
the first of that length is kept, and the others are counted. -/
structure Seen (root point : List UInt8) (entries : List MountEntry) (s : Selection) : Prop where
  bound : ∀ e ∈ entries, beneath root e.point = true → e.point.length ≤ s.longest
  kept : s.longest ≠ 0 → ∃ e ∈ entries, beneath root e.point = true ∧
    s = { Selection.of point e with duplicates := s.duplicates }
  count : s.longest ≠ 0 →
    entries.countP (fun e => beneath root e.point && e.point.length == s.longest) =
      s.duplicates + 1

theorem seen_start : Seen root point [] .start where
  bound _ he := absurd he List.not_mem_nil
  kept h := absurd rfl h
  count h := absurd rfl h

/-- What one entry does to the selection. -/
theorem observeMount_cases (h : observeMount root point s e = some s') :
    (s' = s ∧ (beneath root e.point = true → e.point.length < s.longest)) ∨
    (s' = Selection.of point e ∧ beneath root e.point = true ∧ s.longest < e.point.length) ∨
    (s' = { s with duplicates := s.duplicates + 1 } ∧ beneath root e.point = true ∧
      e.point.length = s.longest) := by
  unfold observeMount at h
  by_cases habove : beneath root e.point = false
  · rw [if_pos habove] at h
    cases h
    exact .inl ⟨rfl, fun ht => by simp [ht] at habove⟩
  rw [if_neg habove] at h
  have habove := Bool.eq_true_of_not_eq_false habove
  by_cases hlong : s.longest < e.point.length
  · rw [if_pos hlong] at h
    split at h
    · cases h
    · cases h
      exact .inr (.inl ⟨rfl, habove, hlong⟩)
  rw [if_neg hlong] at h
  by_cases heq : e.point.length = s.longest
  · rw [if_pos heq] at h
    cases h
    exact .inr (.inr ⟨rfl, habove, heq⟩)
  · rw [if_neg heq] at h
    cases h
    exact .inl ⟨rfl, fun _ => by omega⟩

theorem Seen.observe (h : Seen root point entries s) (hs : observeMount root point s e = some s') :
    Seen root point (entries ++ [e]) s' := by
  -- a mount point that is shorter, longer or as long as the longest one so far
  rcases observeMount_cases hs with ⟨rfl, hshort⟩ | ⟨rfl, habove, hlong⟩ | ⟨rfl, habove, heq⟩
  · refine ⟨?_, ?_, ?_⟩
    · intro e' he' ha
      rcases List.mem_append.mp he' with he' | he'
      · exact h.bound e' he' ha
      · obtain rfl := List.mem_singleton.mp he'
        exact (hshort ha).le
    · intro hne
      obtain ⟨e', he', hkept⟩ := h.kept hne
      exact ⟨e', List.mem_append_left _ he', hkept⟩
    · intro hne
      have hnone : (beneath root e.point && e.point.length == s'.longest) = false := by
        by_contra hcon
        obtain ⟨ha, hl⟩ := by simpa using hcon
        have := hshort ha
        omega
      rw [List.countP_append, h.count hne, List.countP_singleton, if_neg (by simp [hnone])]
  · refine ⟨?_, fun _ => ⟨e, by simp, habove, rfl⟩, fun _ => ?_⟩
    · intro e' he' ha
      rcases List.mem_append.mp he' with he' | he'
      · exact (h.bound e' he' ha).trans hlong.le
      · obtain rfl := List.mem_singleton.mp he'
        exact le_refl _
    · -- no entry before has a mount point that long
      have hnone : entries.countP
          (fun e' => beneath root e'.point && e'.point.length == e.point.length) = 0 := by
        rw [List.countP_eq_zero]
        intro e' he' hcon
        obtain ⟨ha, hl⟩ := by simpa using hcon
        have := h.bound e' he' ha
        omega
      have hone : (beneath root e.point && e.point.length == e.point.length) = true := by
        simp [habove]
      rw [List.countP_append, List.countP_singleton]
      exact congrArg₂ (· + ·) hnone (if_pos hone)
  · refine ⟨?_, ?_, ?_⟩
    · intro e' he' ha
      rcases List.mem_append.mp he' with he' | he'
      · exact h.bound e' he' ha
      · obtain rfl := List.mem_singleton.mp he'
        exact heq.le
    · intro hne
      obtain ⟨e', he', ha, hkept⟩ := h.kept hne
      refine ⟨e', List.mem_append_left _ he', ha, ?_⟩
      conv_lhs => rw [hkept]
    · intro hne
      have hone : (beneath root e.point && e.point.length == s.longest) = true := by
        simp [habove, heq]
      rw [List.countP_append, h.count hne, List.countP_singleton, if_pos hone]

theorem Seen.foldlM {rest : List MountEntry} (h : Seen root point entries s)
    (hs : rest.foldlM (observeMount root point) s = some s') :
    Seen root point (entries ++ rest) s' := by
  induction rest generalizing entries s with
  | nil =>
    obtain rfl : s = s' := by simpa using hs
    rwa [List.append_nil]
  | cons e rest ih =>
    rw [List.foldlM_cons] at hs
    obtain ⟨t, ht, hrest⟩ := Option.bind_eq_some_iff.mp hs
    have := ih (h.observe ht) hrest
    rwa [List.append_assoc] at this

/-- No entry is refused for the length of its source. -/
theorem exists_foldlM {rest : List MountEntry} (h : ∀ e ∈ rest, e.device.length < pathCapacity)
    (s : Selection) : ∃ s', rest.foldlM (observeMount root point) s = some s' := by
  induction rest generalizing s with
  | nil => exact ⟨s, rfl⟩
  | cons e rest ih =>
    obtain ⟨t, ht⟩ : ∃ t, observeMount root point s e = some t := by
      have hdevice := h e (by simp)
      unfold observeMount
      split_ifs with _ _ hlong
      exacts [⟨_, rfl⟩, absurd hlong (by omega), ⟨_, rfl⟩, ⟨_, rfl⟩, ⟨_, rfl⟩]
    obtain ⟨s', hs'⟩ := ih (fun e' he' => h e' (List.mem_cons_of_mem _ he')) t
    refine ⟨s', ?_⟩
    rw [List.foldlM_cons, ht]
    exact hs'

/-- `e` is the entry of the mount point `point`, and no other mount point above the root is as
long. -/
structure Only (root point : List UInt8) (entries : List MountEntry) (e : MountEntry) : Prop where
  point_eq : e.point = point
  only : entries.filter (fun e' => beneath root e'.point && decide (point.length ≤ e'.point.length)) =
    [e]

theorem Only.mem (h : Only root point entries e) : e ∈ entries ∧ beneath root e.point = true := by
  have hmem : e ∈ entries.filter
      (fun e' => beneath root e'.point && decide (point.length ≤ e'.point.length)) := by
    rw [h.only]
    exact List.mem_singleton_self e
  obtain ⟨hmem, hp⟩ := List.mem_filter.mp hmem
  exact ⟨hmem, (Bool.and_eq_true_iff.mp hp).1⟩

theorem Only.eq (h : Only root point entries e) {e' : MountEntry} (he' : e' ∈ entries)
    (ha : beneath root e'.point = true) (hlen : point.length ≤ e'.point.length) : e' = e := by
  have hmem : e' ∈ entries.filter
      (fun e' => beneath root e'.point && decide (point.length ≤ e'.point.length)) :=
    List.mem_filter.mpr ⟨he', by simp [ha, hlen]⟩
  rw [h.only] at hmem
  exact List.mem_singleton.mp hmem

theorem Only.perm {entries' : List MountEntry} (h : Only root point entries e)
    (hperm : entries'.Perm entries) : Only root point entries' e := by
  refine ⟨h.point_eq, List.perm_singleton.mp ?_⟩
  rw [← h.only]
  exact hperm.filter _

/-- Where no mount point is longer than `point`, those at least as long are those of its length. -/
theorem Seen.countP_eq (h : Seen root point entries s) (hlong : s.longest = point.length) :
    entries.countP (fun e => beneath root e.point && e.point.length == s.longest) =
      (entries.filter
        (fun e => beneath root e.point && decide (point.length ≤ e.point.length))).length := by
  rw [List.countP_eq_length_filter]
  congr 1
  refine List.filter_congr fun e he => ?_
  cases ha : beneath root e.point with
  | false => rfl
  | true =>
    have := h.bound e he ha
    grind

/-- A selection that is accepted has found the only entry. -/
theorem Seen.exists_only (h : Seen root point entries s) (hlong : s.longest ≠ 0)
    (hdup : s.duplicates = 0) (hsel : s.selected = true) :
    ∃ e, Only root point entries e ∧ s = Selection.of point e := by
  obtain ⟨e, he, ha, hkept⟩ := h.kept hlong
  rw [hdup] at hkept
  have hs : s = Selection.of point e := hkept
  have hpoint : e.point = point := by
    rw [hs] at hsel
    simpa [Selection.of] using hsel
  have hlen : s.longest = point.length := by rw [hs, ← hpoint]; rfl
  have hcount := h.count hlong
  rw [h.countP_eq hlen, hdup, Nat.zero_add, List.length_eq_one_iff] at hcount
  obtain ⟨x, hx⟩ := hcount
  have hmem : e ∈ [x] := by
    rw [← hx]
    exact List.mem_filter.mpr ⟨he, by rw [ha, hpoint]; simp⟩
  obtain rfl := List.mem_singleton.mp hmem
  exact ⟨e, ⟨hpoint, hx⟩, hs⟩

/-- The only entry is found. -/
theorem Seen.eq_of_only (h : Seen root point entries s) (hpoint : point ≠ [])
    (honly : Only root point entries e) : s = Selection.of point e := by
  obtain ⟨he, ha⟩ := honly.mem
  have hle := h.bound e he ha
  have hpos : 0 < point.length := List.length_pos_iff.mpr hpoint
  rw [honly.point_eq] at hle
  obtain ⟨e', he', ha', hkept⟩ := h.kept (by omega)
  have hlen : s.longest = e'.point.length := by rw [hkept]; rfl
  obtain rfl := honly.eq he' ha' (by omega)
  rw [honly.point_eq] at hlen
  have hcount := h.count (by omega)
  rw [h.countP_eq hlen, honly.only, List.length_singleton] at hcount
  rw [show s.duplicates = 0 by omega] at hkept
  exact hkept

end Select

/-! ## The lines of the mount table -/

section LinesOf

variable {root point mounts : List UInt8} {lines : List (List UInt8)} {s : Selection}

/-- The lines of a text and what follows its last line feed. -/
theorem exists_lines (mounts : List UInt8) :
    ∃ lines last, mounts = Lines.text lines ++ last ∧ (∀ line ∈ lines, (0x0a : UInt8) ∉ line) ∧
      (0x0a : UInt8) ∉ last := by
  induction mounts with
  | nil => exact ⟨[], [], rfl, by simp, by simp⟩
  | cons b mounts ih =>
    obtain ⟨lines, last, rfl, hlines, hlast⟩ := ih
    by_cases hb : b = 0x0a
    · refine ⟨[] :: lines, last, ?_, ?_, hlast⟩
      · rw [Lines.text_cons, hb]
        rfl
      · simpa using hlines
    cases lines with
    | nil =>
      refine ⟨[], b :: last, rfl, by simp, ?_⟩
      simp [hlast, Ne.symm hb]
    | cons line lines =>
      refine ⟨(b :: line) :: lines, last, ?_, ?_, hlast⟩
      · rw [Lines.text_cons, Lines.text_cons]
        rfl
      · intro l hl
        rcases List.mem_cons.mp hl with rfl | hl
        · simpa [Ne.symm hb] using hlines line (by simp)
        · exact hlines l (List.mem_cons_of_mem _ hl)

theorem linesOf_text (h : ∀ line ∈ lines, (0x0a : UInt8) ∉ line) :
    linesOf (Lines.text lines) = lines := by
  induction lines with
  | nil => rfl
  | cons line lines ih =>
    have htext : Lines.text (line :: lines) = line ++ 0x0a :: Lines.text lines := by
      simpa using Lines.text_cons line lines []
    have hrest := ih fun l hl => h l (List.mem_cons_of_mem _ hl)
    unfold linesOf at hrest ⊢
    rw [htext, List.splitOn_append_cons_self_of_not_mem (h line (by simp)),
      List.dropLast_cons_of_ne_nil (List.splitOn_ne_nil _ _), hrest]

/-- The texts that can be mount tables. -/
structure Tabular (mounts : List UInt8) : Prop where
  ne : mounts ≠ []
  le : mounts.length ≤ mountinfoCapacity
  last : mounts.getLast? = some 0x0a
  zero : (0 : UInt8) ∉ mounts

theorem Tabular.exists_eq_text (h : Tabular mounts) :
    ∃ lines, mounts = Lines.text lines ∧ ∀ line ∈ lines, (0x0a : UInt8) ∉ line := by
  obtain ⟨lines, last, rfl, hlines, hlast⟩ := exists_lines mounts
  have hnil : last = [] := by
    by_contra hne
    have hl := h.last
    rw [List.getLast?_append, List.getLast?_eq_some_getLast hne] at hl
    refine hlast ?_
    obtain hl : last.getLast hne = 0x0a := by simpa using hl
    rw [← hl]
    exact List.getLast_mem hne
  exact ⟨lines, by rw [hnil, List.append_nil], hlines⟩

/-- The order of the lines does not show in the form of the text. -/
theorem Tabular.perm {lines' : List (List UInt8)} (h : Tabular (Lines.text lines))
    (hperm : lines.Perm lines') : Tabular (Lines.text lines') := by
  have htext : (Lines.text lines).Perm (Lines.text lines') := hperm.flatMap_right _
  have hne : Lines.text lines' ≠ [] := fun hnil => h.ne (htext.trans (by rw [hnil])).eq_nil
  refine ⟨hne, htext.length_eq ▸ h.le, ?_, fun hm => h.zero (htext.mem_iff.mpr hm)⟩
  rw [List.getLast?_eq_some_getLast hne]
  exact congrArg some (Lines.getLast?_text (List.getLast?_eq_some_getLast hne))

/-- A line of the mount table that parses. -/
structure Parses (line : List UInt8) (entry : MountEntry) : Prop where
  short : line.length ≤ 8192
  parsed : parseMount line = some entry

theorem exists_line {entries : List MountEntry} (h : List.Forall₂ Parses lines entries)
    {e : MountEntry} (he : e ∈ entries) : ∃ line ∈ lines, Parses line e := by
  induction h with
  | nil => exact absurd he List.not_mem_nil
  | cons hp _ ih =>
    rcases List.mem_cons.mp he with rfl | he
    · exact ⟨_, List.mem_cons_self, hp⟩
    · obtain ⟨line, hl, hp⟩ := ih he
      exact ⟨line, List.mem_cons_of_mem _ hl, hp⟩

theorem observeLine_eq_some_iff {s' : Selection} {line : List UInt8} :
    observeLine root point s line = some s' ↔
      ∃ e, Parses line e ∧ observeMount root point s e = some s' := by
  unfold observeLine
  by_cases hlong : 8192 < line.length
  · rw [if_pos hlong]
    constructor
    · intro h
      cases h
    · rintro ⟨e, he, -⟩
      exact absurd he.short (by omega)
  · rw [if_neg hlong]
    constructor
    · intro h
      obtain ⟨e, he, hs⟩ := Option.bind_eq_some_iff.mp h
      exact ⟨e, ⟨by omega, he⟩, hs⟩
    · rintro ⟨e, he, hs⟩
      exact Option.bind_eq_some_iff.mpr ⟨e, he.parsed, hs⟩

theorem foldlM_observeLine {s' : Selection} :
    lines.foldlM (observeLine root point) s = some s' ↔
      ∃ entries, List.Forall₂ Parses lines entries ∧
        entries.foldlM (observeMount root point) s = some s' := by
  induction lines generalizing s with
  | nil =>
    constructor
    · intro h
      exact ⟨[], .nil, h⟩
    · rintro ⟨entries, hentries, h⟩
      cases hentries
      exact h
  | cons line lines ih =>
    rw [List.foldlM_cons]
    constructor
    · intro h
      obtain ⟨t, ht, hrest⟩ := Option.bind_eq_some_iff.mp h
      obtain ⟨e, he, het⟩ := observeLine_eq_some_iff.mp ht
      obtain ⟨entries, hentries, hs⟩ := ih.mp hrest
      refine ⟨e :: entries, .cons he hentries, ?_⟩
      rw [List.foldlM_cons]
      exact Option.bind_eq_some_iff.mpr ⟨t, het, hs⟩
    · rintro ⟨entries, hentries, h⟩
      cases hentries with
      | cons he hentries =>
        rw [List.foldlM_cons] at h
        obtain ⟨t, het, hs⟩ := Option.bind_eq_some_iff.mp h
        exact Option.bind_eq_some_iff.mpr
          ⟨t, observeLine_eq_some_iff.mpr ⟨_, he, het⟩, ih.mpr ⟨_, hentries, hs⟩⟩

/-- **When the mount table is read to its end.** -/
theorem select_eq_ok_iff : select root point mounts = .ok s ↔
    Tabular mounts ∧ ∃ entries, List.Forall₂ Parses (linesOf mounts) entries ∧
      entries.foldlM (observeMount root point) .start = some s := by
  rw [← foldlM_observeLine]
  unfold select
  by_cases hform : mounts = [] ∨ mountinfoCapacity < mounts.length ∨
      mounts.getLast? ≠ some 0x0a ∨ 0 ∈ mounts
  · rw [if_pos hform]
    constructor
    · intro h
      cases h
    · rintro ⟨ht, -⟩
      rcases hform with h | h | h | h
      exacts [absurd h ht.ne, absurd h (not_lt.mpr ht.le), absurd ht.last h, absurd h ht.zero]
  · rw [if_neg hform]
    simp only [not_or, not_lt, not_not] at hform
    obtain ⟨hne, hle, hlast, hzero⟩ := hform
    split
    · rename_i hnone
      simp [hnone]
    · rename_i t hsome
      simp [hsome, show Tabular mounts from ⟨hne, hle, hlast, hzero⟩]

end LinesOf

/-! ## Directories -/

/-- A path and those above it, other than `/`. -/
def Prefix (path p : List UInt8) : Prop :=
  p ≠ [] ∧ ∃ rest, path = p ++ rest ∧ (rest = [] ∨ rest.head? = some 0x2f)

theorem mem_components {path p : List UInt8} : p ∈ components path ↔ Prefix path p := by
  unfold components
  rw [List.mem_map]
  constructor
  · rintro ⟨i, hi, rfl⟩
    rw [List.mem_filter, List.mem_range'_1] at hi
    obtain ⟨⟨hpos, hlt⟩, hend⟩ := hi
    refine ⟨?_, path.drop i, (List.take_append_drop i path).symm, ?_⟩
    · intro hnil
      have := congrArg List.length hnil
      rw [List.length_take, List.length_nil] at this
      omega
    · rcases of_decide_eq_true hend with rfl | hslash
      · exact .inl List.drop_length
      · exact .inr (by rw [List.head?_drop, hslash])
  · rintro ⟨hne, rest, rfl, hrest⟩
    have hpos := List.length_pos_iff.mpr hne
    refine ⟨p.length, ?_, List.take_left⟩
    rw [List.mem_filter, List.mem_range'_1]
    refine ⟨⟨hpos, by rw [List.length_append]; omega⟩, decide_eq_true ?_⟩
    rcases hrest with rfl | hslash
    · exact .inl (by rw [List.append_nil])
    · refine .inr ?_
      rw [List.getElem?_append_right (le_refl _), Nat.sub_self, ← List.head?_eq_getElem?, hslash]

theorem forM_eq_ok_iff {α : Type} {l : List α} {f : α → Except Failure Unit} {u : Unit} :
    l.forM f = .ok u ↔ ∀ a ∈ l, f a = .ok u := by
  induction l with
  | nil => simp [pure, Except.pure]
  | cons a l ih =>
    have hcons : (a :: l).forM f = (f a >>= fun _ => l.forM f) := rfl
    rw [hcons, bind_eq_ok_iff, List.forall_mem_cons, ← ih]
    constructor
    · rintro ⟨_, ha, hl⟩
      exact ⟨ha, hl⟩
    · rintro ⟨ha, hl⟩
      exact ⟨_, ha, hl⟩

theorem answer_eq_ok_iff {α : Type} {result missing : Result} {x : Except Errno α} {a : α} :
    answer result missing x = .ok a ↔ x = .ok a := by
  cases x with
  | error e => simp [answer]
  | ok b => simp [answer]

/-- **What an inspection finds.** -/
theorem inspectComponents_eq_ok_iff {source : Source} {path : List UInt8} {expected : UInt64}
    {missing : Result} {u : Unit} :
    inspectComponents source path expected missing = .ok u ↔
      ∀ p, Prefix path p → ∃ st, source.lstatPath p = .ok st ∧ st.type = .directory ∧
        (p = path → st.dev = expected) := by
  unfold inspectComponents
  rw [forM_eq_ok_iff]
  simp only [mem_components, inspectComponent, bind_eq_ok_iff, require_eq_ok_iff, answer_eq_ok_iff,
    exists_const]
  refine forall₂_congr fun p hp => exists_congr fun st => ?_
  constructor
  · rintro ⟨hst, -, hdir, hdev⟩
    exact ⟨hst, hdir, hdev⟩
  · rintro ⟨hst, hdir, hdev⟩
    exact ⟨hst, by rw [hdir]; decide, hdir, hdev⟩

/-! ## What a verification promises -/

section Verify

variable {candidate : Candidate} {source : Source} {verified : Verified}

/-- The entry `entry` of the mount table is on the expected device, and can be written. -/
structure OnDevice (candidate : Candidate) (source : Source) (entry : MountEntry) : Prop where
  root : entry.root = ascii "/"
  type : entry.type ∈ [ascii "vfat", ascii "ext2", ascii "ext3", ascii "ext4"]
  readWrite : entry.readWrite = true
  majorNumber : entry.majorNumber = candidate.expectedMajor
  minorNumber : entry.minorNumber = candidate.expectedMinor
  absolute : entry.device.head? = some 0x2f
  block : ∃ st, source.statPath entry.device = .ok st ∧ st.type = .block ∧
    major st.rdev = candidate.expectedMajor ∧ minor st.rdev = candidate.expectedMinor

/-- Every directory down to `path` is one, and `path` is on the device `dev`. -/
def Directories (source : Source) (path : List UInt8) (dev : UInt64) : Prop :=
  ∀ p, Prefix path p → ∃ st, source.lstatPath p = .ok st ∧ st.type = .directory ∧
    (p = path → st.dev = dev)

/-- The checks of a verification that do not look at the mount table. -/
structure Settled (candidate : Candidate) (source : Source) (verified : Verified) : Prop where
  expected : candidate.expectedMajor ≠ 0 ∨ candidate.expectedMinor ≠ 0
  root : normalize candidate.root = .ok verified.root
  mountpoint : normalize candidate.mountpoint = .ok verified.mountpoint
  beneath : beneath verified.root verified.mountpoint = true
  deviceMajor : verified.deviceMajor = candidate.expectedMajor
  deviceMinor : verified.deviceMinor = candidate.expectedMinor
  exact : major (makedev candidate.expectedMajor candidate.expectedMinor) =
      candidate.expectedMajor ∧
    minor (makedev candidate.expectedMajor candidate.expectedMinor) = candidate.expectedMinor
  directories : Directories source verified.mountpoint
      (makedev candidate.expectedMajor candidate.expectedMinor) ∧
    Directories source verified.root (makedev candidate.expectedMajor candidate.expectedMinor)

theorem normalize_ne_nil {input : Option (List UInt8)} {path : List UInt8}
    (h : normalize input = .ok path) : path ≠ [] := by
  unfold normalize at h
  split at h
  · cases h
  · rename_i input
    by_cases hslash : input.head? ≠ some 0x2f
    · rw [if_pos hslash] at h
      cases h
    rw [if_neg hslash] at h
    by_cases hlong : pathCapacity ≤ input.length
    · rw [if_pos hlong] at h
      cases h
    rw [if_neg hlong] at h
    dsimp only at h
    by_cases hshort : (input.rdropWhile fun b => b = 0x2f).length ≤ 1
    · rw [if_pos hshort] at h
      cases h
    rw [if_neg hshort] at h
    split_ifs at h
    cases h
    rintro hnil
    rw [hnil] at hshort
    exact hshort (Nat.zero_le 1)

/-- The checks on a selection. -/
structure Accepted (candidate : Candidate) (source : Source) (s : Selection) : Prop where
  longest : s.longest ≠ 0
  duplicates : s.duplicates = 0
  selected : s.selected = true
  supported : s.unsupported = false ∧ s.device.head? = some 0x2f
  rw : s.rw = true
  device : s.majorNumber = candidate.expectedMajor ∧ s.minorNumber = candidate.expectedMinor
  block : ∃ st, source.statPath s.device = .ok st ∧ st.type = .block ∧
    major st.rdev = s.majorNumber ∧ minor st.rdev = s.minorNumber

theorem accepted_of_iff {point : List UInt8} {e : MountEntry} (hpoint : point ≠ [])
    (he : e.point = point) :
    Accepted candidate source (.of point e) ↔ OnDevice candidate source e := by
  have hlong : e.point.length ≠ 0 := by
    rw [he]
    exact fun h => hpoint (List.length_eq_zero_iff.mp h)
  constructor
  · rintro ⟨-, -, -, ⟨hsupported, habsolute⟩, hrw, ⟨hmajor, hminor⟩, st, hst, hblock, hM, hm⟩
    have hsup : e.unsupported = false := hsupported
    unfold MountEntry.unsupported at hsup
    simp only [Bool.or_eq_false_iff, decide_eq_false_iff_not, not_not] at hsup
    exact ⟨hsup.1, hsup.2, hrw, hmajor, hminor, habsolute, st, hst, hblock, hM.trans hmajor,
      hm.trans hminor⟩
  · rintro ⟨hroot, htype, hrw, hmajor, hminor, habsolute, st, hst, hblock, hM, hm⟩
    have hsup : e.unsupported = false := by
      unfold MountEntry.unsupported
      simp only [Bool.or_eq_false_iff, decide_eq_false_iff_not, not_not]
      exact ⟨hroot, htype⟩
    exact ⟨hlong, rfl, decide_eq_true he, ⟨hsup, habsolute⟩, hrw, ⟨hmajor, hminor⟩, st, hst,
      hblock, hM.trans hmajor.symm, hm.trans hminor.symm⟩

/-- The verification, check by check. -/
theorem verifyWithSource_eq_ok_iff_accepted : verifyWithSource candidate source = .ok verified ↔
    Settled candidate source verified ∧ ∃ mounts s, source.readMountinfo = .ok mounts ∧
      select verified.root verified.mountpoint mounts = .ok s ∧ Accepted candidate source s := by
  unfold verifyWithSource
  simp only [bind_eq_ok_iff, require_eq_ok_iff, answer_eq_ok_iff, exists_const,
    inspectComponents_eq_ok_iff, pure, Except.pure, Except.ok.injEq]
  constructor
  · rintro ⟨hexpected, root, hroot, point, hpoint, hbeneath, mounts, hmounts, s, hs, hlong, hdup,
      hsel, hsup, hrw, ⟨hmajor, hminor⟩, hexact, st, hst, hblock, hdirs, hdirs', rfl⟩
    rw [hmajor, hminor] at hexact hdirs hdirs'
    exact ⟨⟨hexpected, hroot, hpoint, hbeneath, hmajor, hminor, hexact, hdirs, hdirs'⟩, mounts, s,
      hmounts, hs, hlong, hdup, hsel, hsup, hrw, ⟨hmajor, hminor⟩, st, hst, hblock⟩
  · rintro ⟨⟨hexpected, hroot, hpoint, hbeneath, hdM, hdm, hexact, hdirs, hdirs'⟩, mounts, s,
      hmounts, hs, hlong, hdup, hsel, hsup, hrw, ⟨hmajor, hminor⟩, st, hst, hblock⟩
    rw [← hmajor, ← hminor] at hexact hdirs hdirs'
    refine ⟨hexpected, _, hroot, _, hpoint, hbeneath, mounts, hmounts, s, hs, hlong, hdup,
      hsel, hsup, hrw, ⟨hmajor, hminor⟩, hexact, st, hst, hblock, hdirs, hdirs', ?_⟩
    rw [hmajor, hminor, ← hdM, ← hdm]

/-- **When a verification succeeds**, in terms of the entries of the mount table and not of their
order: the table is read to its end, and the only entry of the mount point is on the device. -/
theorem verifyWithSource_eq_ok_iff : verifyWithSource candidate source = .ok verified ↔
    Settled candidate source verified ∧ ∃ mounts entries e, source.readMountinfo = .ok mounts ∧
      Tabular mounts ∧ List.Forall₂ Parses (linesOf mounts) entries ∧
      (∃ s, entries.foldlM (observeMount verified.root verified.mountpoint) .start = some s) ∧
      Only verified.root verified.mountpoint entries e ∧ OnDevice candidate source e := by
  rw [verifyWithSource_eq_ok_iff_accepted]
  refine and_congr_right fun hsettled => exists_congr fun mounts => ?_
  have hpoint := normalize_ne_nil hsettled.mountpoint
  constructor
  · rintro ⟨s, hmounts, hs, ha⟩
    obtain ⟨htab, entries, hentries, hfold⟩ := select_eq_ok_iff.mp hs
    obtain ⟨e, honly, rfl⟩ := (seen_start.foldlM hfold).exists_only ha.longest ha.duplicates
      ha.selected
    exact ⟨entries, e, hmounts, htab, hentries, ⟨_, hfold⟩, honly,
      (accepted_of_iff hpoint honly.point_eq).mp ha⟩
  · rintro ⟨entries, e, hmounts, htab, hentries, ⟨s, hfold⟩, honly, hdevice⟩
    obtain rfl := (seen_start.foldlM hfold).eq_of_only hpoint honly
    exact ⟨_, hmounts, select_eq_ok_iff.mpr ⟨htab, entries, hentries, hfold⟩,
      (accepted_of_iff hpoint honly.point_eq).mpr hdevice⟩

/-- What a successful verification promises. Every line of the mount table parsed, into what stands
in its columns; the mount point has exactly one entry, every other mount point above the root is shorter, and the entry is on the
expected device; and the directories down to the mount point and to the root are directories, the
last of them on that device. -/
structure Sound (candidate : Candidate) (source : Source) (verified : Verified) : Prop where
  root : normalize candidate.root = .ok verified.root
  mountpoint : normalize candidate.mountpoint = .ok verified.mountpoint
  device : verified.deviceMajor = candidate.expectedMajor ∧
    verified.deviceMinor = candidate.expectedMinor
  mounted : ∃ lines entries e, source.readMountinfo = .ok (Lines.text lines) ∧
    (∀ line ∈ lines, (0x0a : UInt8) ∉ line) ∧
    List.Forall₂ (fun line entry => parseMount line = some entry ∧ Columns line entry) lines
      entries ∧
    entries.filter (fun e' => e'.point = verified.mountpoint) = [e] ∧
    beneath verified.root verified.mountpoint = true ∧
    (∀ e' ∈ entries, beneath verified.root e'.point = true → e'.point ≠ verified.mountpoint →
      e'.point.length < verified.mountpoint.length) ∧
    OnDevice candidate source e
  directories : Directories source verified.mountpoint
      (makedev candidate.expectedMajor candidate.expectedMinor) ∧
    Directories source verified.root (makedev candidate.expectedMajor candidate.expectedMinor)

theorem Only.filter_eq {root point : List UInt8} {entries : List MountEntry} {e : MountEntry}
    (h : Only root point entries e) : entries.filter (fun e' => e'.point = point) = [e] := by
  have ha := h.mem.2
  have hfilter : (entries.filter (fun e' => beneath root e'.point &&
      decide (point.length ≤ e'.point.length))).filter (fun e' => e'.point = point) = [e] := by
    rw [h.only]
    simp [h.point_eq]
  rw [List.filter_filter] at hfilter
  rw [← hfilter]
  refine List.filter_congr fun e' _ => ?_
  by_cases hpoint : e'.point = point
  · rw [hpoint, ← h.point_eq, ha]
    simp
  · simp [hpoint]

theorem sound_of_eq_ok (h : verifyWithSource candidate source = .ok verified) :
    Sound candidate source verified := by
  obtain ⟨hsettled, mounts, entries, e, hmounts, htab, hentries, -, honly, hdevice⟩ :=
    verifyWithSource_eq_ok_iff.mp h
  obtain ⟨lines, rfl, hlines⟩ := htab.exists_eq_text
  rw [linesOf_text hlines] at hentries
  refine ⟨hsettled.root, hsettled.mountpoint, ⟨hsettled.deviceMajor, hsettled.deviceMinor⟩,
    ⟨lines, entries, e, hmounts, hlines, hentries.imp fun _ _ hp => ⟨hp.parsed, columns_of_parseMount hp.parsed⟩,
      honly.filter_eq, hsettled.beneath, ?_, hdevice⟩, hsettled.directories⟩
  intro e' he' ha hne
  by_contra hlen
  obtain rfl := honly.eq he' ha (not_lt.mp hlen)
  exact hne honly.point_eq

/-- A source with another mount table. -/
def Source.withMounts (source : Source) (lines : List (List UInt8)) : Source :=
  { source with readMountinfo := .ok (Lines.text lines) }

/-- No line has a mount source that is too long to be kept. -/
def ShortDevices (lines : List (List UInt8)) : Prop :=
  ∀ line ∈ lines, ∀ entry, parseMount line = some entry → entry.device.length < pathCapacity

theorem eq_ok_of_perm {lines lines' : List (List UInt8)}
    (hlines : ∀ line ∈ lines, (0x0a : UInt8) ∉ line) (hshort : ShortDevices lines)
    (hperm : lines.Perm lines')
    (h : verifyWithSource candidate (source.withMounts lines) = .ok verified) :
    verifyWithSource candidate (source.withMounts lines') = .ok verified := by
  obtain ⟨hsettled, mounts, entries, e, hmounts, htab, hentries, -, honly, hdevice⟩ :=
    verifyWithSource_eq_ok_iff.mp h
  obtain rfl : Lines.text lines = mounts := by simpa [Source.withMounts] using hmounts
  rw [linesOf_text hlines] at hentries
  have hlines' : ∀ line ∈ lines', (0x0a : UInt8) ∉ line :=
    fun line hl => hlines line (hperm.mem_iff.mpr hl)
  -- the entries of the permuted table, in its order
  obtain ⟨entries', hentries', hperm'⟩ := List.perm_comp_forall₂ hperm.symm hentries
  have hdevices : ∀ e' ∈ entries', e'.device.length < pathCapacity := by
    intro e' he'
    obtain ⟨line, hl, hp⟩ := exists_line hentries' he'
    exact hshort line (hperm.mem_iff.mpr hl) e' hp.parsed
  refine verifyWithSource_eq_ok_iff.mpr ⟨⟨hsettled.expected, hsettled.root, hsettled.mountpoint,
    hsettled.beneath, hsettled.deviceMajor, hsettled.deviceMinor, hsettled.exact,
    hsettled.directories⟩, _, entries', e, rfl, htab.perm hperm, ?_, exists_foldlM hdevices _,
    honly.perm hperm', ?_⟩
  · rwa [linesOf_text hlines']
  · exact ⟨hdevice.root, hdevice.type, hdevice.readWrite, hdevice.majorNumber, hdevice.minorNumber,
      hdevice.absolute, hdevice.block⟩

end Verify

/-- **A verification that succeeds is sound, and blind to the order of the mount table.** Whatever
the mount table says and the file system answers, success promises `Sound`; and where no mount
source is too long to be kept, putting the lines of the table in another order does not change
whether a root is verified, nor as what. -/
theorem verifyWithSource_sound (candidate : Candidate) (source : Source) (verified : Verified) :
    (verifyWithSource candidate source = .ok verified → Sound candidate source verified) ∧
    ∀ lines lines' : List (List UInt8), (∀ line ∈ lines, (0x0a : UInt8) ∉ line) →
      ShortDevices lines → lines.Perm lines' →
      (verifyWithSource candidate (source.withMounts lines) = .ok verified ↔
        verifyWithSource candidate (source.withMounts lines') = .ok verified) := by
  refine ⟨sound_of_eq_ok, fun lines lines' hlines hshort hperm => ?_⟩
  constructor
  · exact eq_ok_of_perm hlines hshort hperm
  · refine eq_ok_of_perm (fun line hl => hlines line (hperm.mem_iff.mpr hl)) ?_ hperm.symm
    exact fun line hl => hshort line (hperm.mem_iff.mpr hl)

/-- The root file system and the card. -/
def sampleMounts : List (List UInt8) :=
  [ascii "1 1 179:2 / / ro - ext4 /dev/root ro", ascii "2 1 179:9 / /mnt/sd rw - vfat /dev/sd rw"]

/-- A directory on the card. -/
def sampleCandidate : Candidate := ⟨some (ascii "/mnt/sd/Books/"), some (ascii "/mnt/sd"), 179, 9⟩

/-- The answers for it. -/
def sampleSource : Source where
  readMountinfo := .error .eio
  lstatPath _ := .ok ⟨.directory, makedev 179 9, 0⟩
  statPath _ := .ok ⟨.block, 5, makedev 179 9⟩

/-- The directory is verified, in whatever order the two are mounted. -/
theorem verifyWithSource_sound_card :
    Sound sampleCandidate (sampleSource.withMounts sampleMounts)
        ⟨ascii "/mnt/sd/Books", ascii "/mnt/sd", 179, 9⟩ ∧
      verifyWithSource sampleCandidate (sampleSource.withMounts sampleMounts.reverse) =
        .ok ⟨ascii "/mnt/sd/Books", ascii "/mnt/sd", 179, 9⟩ := by
  have hverified : verifyWithSource sampleCandidate (sampleSource.withMounts sampleMounts) =
      .ok ⟨ascii "/mnt/sd/Books", ascii "/mnt/sd", 179, 9⟩ := by decide +kernel
  obtain ⟨hsound, horder⟩ := verifyWithSource_sound sampleCandidate
    (sampleSource.withMounts sampleMounts) ⟨ascii "/mnt/sd/Books", ascii "/mnt/sd", 179, 9⟩
  refine ⟨hsound hverified, ?_⟩
  have hlines : ∀ line ∈ sampleMounts, (0x0a : UInt8) ∉ line := by decide +kernel
  have hdevices : ∀ line ∈ sampleMounts,
      (parseMount line).all fun entry => entry.device.length < pathCapacity := by decide +kernel
  have hshort : ShortDevices sampleMounts := by
    intro line hline entry hentry
    have hdevice := hdevices line hline
    rw [hentry] at hdevice
    exact of_decide_eq_true hdevice
  exact (horder sampleMounts sampleMounts.reverse hlines hshort (List.reverse_perm _).symm).mp
    hverified

end StorageVerify
