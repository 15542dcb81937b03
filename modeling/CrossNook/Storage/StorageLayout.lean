import CrossNook.System.Posix
import CrossNook.Text.Bytes
import Mathlib.Data.List.DropRight

/-!
# The storage layout

The directories of the application below a root that the caller names
(`storage/storage_layout.c`).

## Main definitions

* `StorageLayout.Layout`: `cn_storage_layout`
* `StorageLayout.init`, `StorageLayout.prepare`: `cn_storage_layout_init` and
  `cn_storage_layout_prepare`
* `StorageLayout.path`: `cn_storage_layout_path`
* `StorageLayout.stateDirectory`: the directory above that of the progress

## Main results

* `StorageLayout.path_of_valid`, `StorageLayout.stateDirectory_of_valid`: the directories of a
  layout that is valid
* `StorageLayout.ends_init`, `StorageLayout.ends_prepare`: a layout that is prepared is valid, and
  its directories exist
-/

namespace StorageLayout

open Bytes (ascii)
open Crash Posix

/-- `CN_STORAGE_PATH_CAPACITY`. -/
def pathCapacity : ℕ := 4096

/-- `CN_STORAGE_PATH_MAX_BYTES`. -/
def pathMaxBytes : ℕ := pathCapacity - 1

/-- `CONFIG_SUFFIX`. -/
def configSuffix : List UInt8 := ascii "/config"

/-- `STATE_SUFFIX`. -/
def stateSuffix : List UInt8 := ascii "/state"

/-- `PROGRESS_SUFFIX`. -/
def progressSuffix : List UInt8 := ascii "/state/progress"

/-- `cn_storage_result`. -/
inductive Result
  | ok
  | invalid
  | pathTooLong
  | bufferTooSmall
  | notFound
  | notDirectory
  | symlink
  | permissionDenied
  | readOnly
  | createFailed
  | ioError
  deriving DecidableEq, Repr

/-- A result with the value left in `system_errno`. -/
abbrev Status : Type := Result × Option Errno

/-- `cn_storage_location`. -/
inductive Location
  | config
  | progress
  deriving DecidableEq, Repr

/-- `cn_storage_layout`. -/
structure Layout where
  root : List UInt8
  rootLength : ℕ
  deriving DecidableEq

/-- `bounded_length`. -/
def boundedLength (text : List UInt8) : Except Result ℕ :=
  if pathCapacity ≤ text.length then .error .pathTooLong else .ok text.length

/-- `validate_normalized_root`. -/
def validateNormalizedRoot (root : List UInt8) : Result :=
  if root.length ≤ 1 ∨ root.head? ≠ some 0x2f ∨ root.getLast? = some 0x2f then .invalid
  else if ¬ plainComponents root then .invalid
  else if pathMaxBytes - progressSuffix.length < root.length then .pathTooLong
  else .ok

/-- `layout_valid`. -/
def layoutValid (layout : Layout) : Bool :=
  if layout.rootLength = 0 ∨ pathCapacity ≤ layout.rootLength then false
  else
    match boundedLength layout.root with
    | .error _ => false
    | .ok length =>
      length = layout.rootLength ∧ validateNormalizedRoot (layout.root.take length) = .ok

/-- `build_path`. -/
def buildPath (layout : Layout) (suffix : List UInt8) (capacity : ℕ) : Except Result Path :=
  if ¬ layoutValid layout then .error .invalid
  else if capacity < layout.rootLength + suffix.length + 1 then .error .bufferTooSmall
  else .ok (layout.root ++ suffix)

/-- `cn_storage_layout_path`. -/
def path (layout : Layout) (location : Location) (capacity : ℕ) : Except Result Path :=
  buildPath layout (if location = .config then configSuffix else progressSuffix) capacity

/-- The suffix that `state_directory` and `state_path` drop. -/
def progressName : List UInt8 := ascii "/progress"

/-- The directory above that of the progress, in a buffer of `capacity` bytes. -/
def stateDirectory (layout : Layout) (capacity : ℕ) : Option Path :=
  match path layout .progress pathCapacity with
  | .error _ => none
  | .ok progress =>
    let length := progress.length - progressName.length
    if progress.length ≤ progressName.length ∨ progress.drop length ≠ progressName then none
    else if capacity < length + 1 then none
    else some (progress.take length)

/-! ## The directories -/

/-- The directory of the settings and of the device identity. -/
def Layout.config (layout : Layout) : Path := layout.root ++ configSuffix

/-- The directory of the credentials. -/
def Layout.state (layout : Layout) : Path := layout.root ++ stateSuffix

variable {layout : Layout}

/-- A root that is valid. -/
structure ValidRoot (layout : Layout) : Prop where
  length_eq : layout.rootLength = layout.root.length
  one_lt : 1 < layout.root.length
  head : layout.root.head? = some 0x2f
  last : layout.root.getLast? ≠ some 0x2f
  plain : plainComponents layout.root = true
  le : layout.root.length ≤ 4080

theorem ValidRoot.validate (h : ValidRoot layout) : validateNormalizedRoot layout.root = .ok := by
  have hsuffix : progressSuffix.length = 15 := rfl
  have hone := h.one_lt
  have hle := h.le
  unfold validateNormalizedRoot pathMaxBytes pathCapacity
  rw [if_neg (by simp only [not_or, not_not]; exact ⟨by omega, h.head, h.last⟩),
    if_neg (not_not.mpr h.plain), if_neg (by rw [hsuffix]; omega)]

theorem layoutValid_iff : layoutValid layout = true ↔ ValidRoot layout := by
  have hsuffix : progressSuffix.length = 15 := rfl
  constructor
  · intro h
    unfold layoutValid boundedLength at h
    split_ifs at h with hlength hlong
    obtain ⟨hlen, hroot⟩ := of_decide_eq_true h
    rw [List.take_length] at hroot
    unfold validateNormalizedRoot pathMaxBytes pathCapacity at hroot
    rw [hsuffix] at hroot
    split_ifs at hroot with hshape hplain hle
    simp only [not_or, not_not] at hshape hplain
    exact ⟨hlen.symm, by omega, hshape.2.1, hshape.2.2, hplain, by omega⟩
  · intro h
    have hone := h.one_lt
    have hle := h.le
    have hlen := h.length_eq
    unfold layoutValid boundedLength pathCapacity
    rw [if_neg (by omega), if_neg (by omega)]
    exact decide_eq_true ⟨hlen.symm, by rw [List.take_length]; exact h.validate⟩

/-- Every directory of a valid layout fits a path buffer. -/
theorem buildPath_of_valid (h : ValidRoot layout) {suffix : List UInt8} (hs : suffix.length ≤ 15) :
    buildPath layout suffix pathCapacity = .ok (layout.root ++ suffix) := by
  have hle := h.le
  have hlen := h.length_eq
  unfold buildPath pathCapacity
  rw [if_neg (not_not.mpr (layoutValid_iff.mpr h)), if_neg (by omega)]

theorem path_of_valid (h : ValidRoot layout) :
    path layout .config pathCapacity = .ok layout.config ∧
      path layout .progress pathCapacity = .ok (layout.root ++ progressSuffix) :=
  ⟨buildPath_of_valid h (by decide), buildPath_of_valid h (by decide)⟩

theorem stateDirectory_of_valid (h : ValidRoot layout) :
    stateDirectory layout pathCapacity = some layout.state := by
  have hle := h.le
  have hname : progressName.length = 9 := rfl
  have hprogress : layout.root ++ progressSuffix = layout.state ++ progressName := by
    rw [Layout.state, List.append_assoc]
    rfl
  have hstate : layout.state.length = layout.root.length + 6 := by
    rw [Layout.state, List.length_append]
    rfl
  unfold stateDirectory
  rw [(path_of_valid h).2, hprogress]
  dsimp only
  have hlen : (layout.state ++ progressName).length - progressName.length = layout.state.length := by
    simp
  rw [hlen, List.drop_left' rfl, List.take_left' rfl, if_neg, if_neg]
  · unfold pathCapacity
    omega
  · rw [List.length_append, hname, not_or, not_not]
    exact ⟨by omega, rfl⟩

/-- A layout without a valid root has no directories. -/
theorem path_of_not_valid (h : ¬ ValidRoot layout) (location : Location) (capacity : ℕ) :
    path layout location capacity = .error .invalid := by
  rw [← layoutValid_iff] at h
  exact if_pos h

/-! ## Preparing the directories -/

/-- `inspection_error`. -/
def inspectionError : Errno → Result
  | .ENOENT => .notFound
  | .ENOTDIR => .notDirectory
  | .EACCES | .EPERM => .permissionDenied
  | .ENAMETOOLONG => .pathTooLong
  | _ => .ioError

/-- `creation_error`. -/
def creationError : Errno → Result
  | .ENOTDIR => .notDirectory
  | .EACCES | .EPERM => .permissionDenied
  | .EROFS => .readOnly
  | .ENAMETOOLONG => .pathTooLong
  | _ => .createFailed

/-- `inspect_directory`. -/
def inspectDirectory (path : Path) (missingIsOk : Bool) : Sys Status := do
  match ← lstat path with
  | .error e =>
    return if missingIsOk ∧ e = .ENOENT then (.notFound, none) else (inspectionError e, some e)
  | .ok st =>
    match st.kind with
    | .symlink _ => return (.symlink, none)
    | .directory => return (.ok, none)
    | _ => return (.notDirectory, none)

/-- `ensure_directory`. -/
def ensureDirectory (layout : Layout) (suffix : List UInt8) : Sys Status :=
  match buildPath layout suffix pathCapacity with
  | .error result => return (result, none)
  | .ok path => do
    let status ← inspectDirectory path true
    if status.1 ≠ .notFound then return status
    else
      match ← mkdir path with
      | .ok _ => return (.ok, none)
      | .error e =>
        if e ≠ .EEXIST then return (creationError e, some e)
        else inspectDirectory path false

/-- The loop that drops trailing slashes, but not the first byte. -/
def trimSlashes : List UInt8 → List UInt8
  | [] => []
  | c :: text => c :: text.rdropWhile fun d => d = 0x2f

/-- `cn_storage_layout_init`. -/
def init (root : Option (List UInt8)) : Sys (Except Status Layout) :=
  match root with
  | none => return .error (.invalid, none)
  | some root =>
    match boundedLength root with
    | .error result => return .error (result, none)
    | .ok length =>
      if length = 0 ∨ root.head? ≠ some 0x2f then return .error (.invalid, none)
      else if validateNormalizedRoot (trimSlashes root) ≠ .ok then
        return .error (validateNormalizedRoot (trimSlashes root), none)
      else do
        match ← inspectDirectory (trimSlashes root) false with
        | (.ok, _) => return .ok ⟨trimSlashes root, (trimSlashes root).length⟩
        | status => return .error status

/-- `cn_storage_layout_prepare`. -/
def prepare (layout : Layout) : Sys Status :=
  if ¬ layoutValid layout then return (.invalid, none)
  else do
    let status ← ensureDirectory layout stateSuffix
    if status.1 ≠ .ok then return status
    else do
      let status ← ensureDirectory layout progressSuffix
      if status.1 ≠ .ok then return status
      else ensureDirectory layout configSuffix

section Prepare

variable {m : Machine}

theorem validRoot_of_validate {root : List UInt8} (h : validateNormalizedRoot root = .ok) :
    ValidRoot ⟨root, root.length⟩ := by
  refine layoutValid_iff.mp ?_
  have hle : root.length ≤ 4080 := by
    unfold validateNormalizedRoot at h
    split_ifs at h with h1 h2 h3
    exact not_lt.mp h3
  have hone : 1 < root.length := by
    unfold validateNormalizedRoot at h
    split_ifs at h with h1 h2 h3
    exact not_le.mp fun h0 => h1 (.inl h0)
  unfold layoutValid boundedLength pathCapacity
  dsimp only
  rw [if_neg (by omega), if_neg (by omega)]
  exact decide_eq_true ⟨rfl, by rwa [List.take_length]⟩

theorem inspectionError_ne_ok (e : Errno) : inspectionError e ≠ .ok := by
  cases e <;> simp [inspectionError]

theorem creationError_ne_ok (e : Errno) : creationError e ≠ .ok := by
  cases e <;> simp [creationError]

theorem ends_inspectDirectory (path : Path) (missingIsOk : Bool) :
    Ends (inspectDirectory path missingIsOk) m
      (fun r m' => m'.files = m.files ∧
        (r.1 = .ok → (m.files path).map Node.kind = some .directory))
      fun m' => m'.files = m.files := by
  refine (ends_bind _).mpr ((show Ends (lstat path) m _ _ from
    ends_query (H := False) False.elim).mono ?_ fun _ h => h)
  rintro r m' ⟨hf, -, rfl | ⟨-, f, rfl⟩⟩
  · rcases hfile : m.files path with _ | ⟨ino, kind⟩
    · dsimp only
      split_ifs <;> exact ⟨hf, by simp [inspectionError]⟩
    · cases kind with
      | directory => exact ⟨hf, fun _ => rfl⟩
      | regular | symlink | other => exact ⟨hf, fun h => by cases h⟩
  · dsimp only
    rw [if_neg (fun h => f.ne h.2)]
    exact ⟨hf, fun h => absurd h (inspectionError_ne_ok _)⟩

/-- **A root that is accepted is valid.** -/
theorem ends_init (root : Option (List UInt8)) :
    Ends (init root) m (fun r m' => m'.files = m.files ∧ ∀ layout, r = .ok layout → ValidRoot layout)
      fun m' => m'.files = m.files := by
  have hrefused : ∀ status : Status, ∀ layout, (.error status : Except Status Layout) = .ok layout →
      ValidRoot layout := fun _ _ h => by cases h
  unfold init
  cases root with
  | none => exact ⟨rfl, hrefused _⟩
  | some root =>
    dsimp only
    cases boundedLength root with
    | error result => exact ⟨rfl, hrefused _⟩
    | ok length =>
      dsimp only
      by_cases hhead : length = 0 ∨ root.head? ≠ some 0x2f
      · rw [if_pos hhead]
        exact ⟨rfl, hrefused _⟩
      rw [if_neg hhead]
      by_cases hvalid : validateNormalizedRoot (trimSlashes root) = .ok
      swap
      · rw [if_pos hvalid]
        exact ⟨rfl, hrefused _⟩
      rw [if_neg (not_not.mpr hvalid), ends_bind]
      refine (ends_inspectDirectory _ _).mono ?_ fun _ h => h
      rintro ⟨result, e⟩ m' ⟨hf, -⟩
      cases result
      case ok => exact ⟨hf, fun _ h => by cases h; exact validRoot_of_validate hvalid⟩
      all_goals exact ⟨hf, hrefused _⟩

theorem ends_ensureDirectory {layout : Layout} (h : ValidRoot layout) {suffix : List UInt8}
    (hs : suffix.length ≤ 15) :
    Ends (ensureDirectory layout suffix) m
      (fun r m' => (∀ q, q ≠ layout.root ++ suffix → m'.files q = m.files q) ∧
        (r.1 = .ok → (m'.files (layout.root ++ suffix)).map Node.kind = some .directory))
      fun _ => True := by
  unfold ensureDirectory
  rw [buildPath_of_valid h hs]
  dsimp only
  rw [ends_bind]
  refine (ends_inspectDirectory _ _).mono ?_ fun _ _ => trivial
  rintro status m₁ ⟨hf₁, hok⟩
  by_cases hmissing : status.1 ≠ .notFound
  · rw [if_pos hmissing]
    exact ⟨fun q _ => congrFun hf₁ q, fun h => by rw [hf₁]; exact hok h⟩
  rw [if_neg hmissing, ends_bind]
  refine ends_mkdir.mono ?_ fun _ _ => trivial
  rintro r m₂ ⟨hothers, hmade, hkept⟩
  cases r with
  | ok _ => exact ⟨fun q hq => (hothers q hq).trans (congrFun hf₁ q), fun _ => hmade rfl⟩
  | error e =>
    have hf₂ : m₂.files = m.files := (hkept (by simp)).trans hf₁
    dsimp only
    by_cases hexists : e ≠ .EEXIST
    · rw [if_pos hexists]
      exact ⟨fun q _ => congrFun hf₂ q, fun h => absurd h (creationError_ne_ok e)⟩
    · -- another process may have made the directory meanwhile
      rw [if_neg hexists]
      refine (ends_inspectDirectory _ _).mono ?_ fun _ _ => trivial
      rintro status' m₃ ⟨hf₃, hok'⟩
      exact ⟨fun q _ => congrFun (hf₃.trans hf₂) q, fun h => by rw [hf₃]; exact hok' h⟩

/-- **The directories of a layout that is prepared exist.** -/
theorem ends_prepare (layout : Layout) :
    Ends (prepare layout) m
      (fun r m' => r.1 = .ok → ValidRoot layout ∧
        (m'.files layout.config).map Node.kind = some .directory ∧
        (m'.files layout.state).map Node.kind = some .directory)
      fun _ => True := by
  unfold prepare
  by_cases hvalid : layoutValid layout = true
  swap
  · rw [if_pos hvalid]
    exact fun h => by cases h
  rw [if_neg (not_not.mpr hvalid), ends_bind]
  have hroot := layoutValid_iff.mp hvalid
  refine (ends_ensureDirectory hroot (by decide)).mono ?_ fun _ _ => trivial
  rintro status₁ m₁ ⟨-, hstate⟩
  by_cases hok : status₁.1 = .ok
  swap
  · rw [if_pos hok]
    exact fun h => absurd h hok
  rw [if_neg (not_not.mpr hok), ends_bind]
  refine (ends_ensureDirectory hroot (by decide)).mono ?_ fun _ _ => trivial
  rintro status₂ m₂ ⟨hothers₂, -⟩
  by_cases hok₂ : status₂.1 = .ok
  swap
  · rw [if_pos hok₂]
    exact fun h => absurd h hok₂
  rw [if_neg (not_not.mpr hok₂)]
  refine (ends_ensureDirectory hroot (by decide)).mono ?_ fun _ _ => trivial
  rintro status₃ m₃ ⟨hothers₃, hconfig⟩ hok₃
  refine ⟨hroot, hconfig hok₃, ?_⟩
  -- the directory of the state is no other, so the later calls keep it
  have hne : ∀ suffix, suffix ≠ stateSuffix → layout.state ≠ layout.root ++ suffix := by
    intro suffix hne he
    exact hne (List.append_cancel_left he).symm
  rw [hothers₃ _ (hne _ (by decide)), hothers₂ _ (hne _ (by decide))]
  exact hstate hok

end Prepare

end StorageLayout
