import CrossNook.Identity.DeviceIdentity
import CrossNook.Storage.StorageLayout

/-!
# The device identity as a file

The calls of the device identity made by one process alone, on the files of a storage layout.

## Main definitions

* `DeviceIdentity.init`: `cn_device_identity_store_init`
* `DeviceIdentity.execute`: a process of the device identity as a program of system calls
* `DeviceIdentity.Store.stored`: the identifier in the file

## Main results

* `DeviceIdentity.touches_execute`: such a program touches the identity file only
* `DeviceIdentity.ends_loadNow`: an identifier that is loaded is stored
-/

namespace DeviceIdentity

open Bytes (ascii)
open Crash Posix Interleave
open StorageLayout (Layout)

/-! ## The store of a layout -/

/-- `DEVICE_ID_FILE_SUFFIX`. -/
def fileSuffix : List UInt8 := ascii "/device-id"

/-- `inspect_config`. -/
def inspectConfig (path : Path) : Sys Result := do
  match ← lstat path with
  | .error e => return filesystemError e
  | .ok st =>
    match st.kind with
    | .symlink _ => return .symlink
    | .directory => return .ok
    | _ => return .notDirectory

/-- `cn_device_identity_store_init`. -/
def init (layout : Layout) : Sys (Except Result Store) :=
  match StorageLayout.path layout .config pathCapacity with
  | .error result =>
    return .error (if result = .bufferTooSmall then .pathTooLong else .invalidArgument)
  | .ok config => do
    match ← inspectConfig config with
    | .ok =>
      if pathCapacity ≤ config.length ∨ pathCapacity < config.length + (fileSuffix.length + 1) then
        return .error .pathTooLong
      else return .ok ⟨config ++ fileSuffix, config.length + fileSuffix.length⟩
    | result => return .error result

theorem keepsFiles_init (layout : Layout) : KeepsFiles (init layout) := by
  unfold init inspectConfig
  split
  · exact .pure _
  refine .bind (.bind (keepsFiles_query _) fun r => ?_) fun result => ?_
  · split
    · exact .pure _
    · split <;> exact .pure _
  · split
    · exact .ite (.pure _) (.pure _)
    · exact .pure _

/-! ## The processes as programs -/

/-- The directory of the identity file. -/
def Store.directory (store : Store) : Path := store.path.take (directoryLength store)

/-- A call on the files, where the random bytes are `entropy`. A process has one file open at a
time. -/
def onFiles (store : Store) (entropy : Option (Fin 16 → UInt8)) : (c : Call) → Sys c.Reply
  | .lstat => Posix.lstat store.path
  | .openRead => do
    match ← openNoFollow store.path with
    | .error e => return .error e
    | .ok _ => return .ok 0
  | .fstat _ => Posix.fstat store.path
  | .read _ offset count => Posix.read store.path offset count
  | .openCreate => do
    match ← Posix.openCreate store.path with
    | .error e => return .error e
    | .ok _ => return .ok 0
  | .write _ data => Posix.write store.path data
  | .fsync _ => Posix.fsync
  | .close _ => Posix.close
  | .unlink => Posix.unlink store.path
  | .entropy => return entropy
  | .lstatDirectory => Posix.lstat store.directory
  | .openDirectory => do
    match ← openDirectoryNoFollow store.directory with
    | .error e => return .error e
    | .ok _ => return .ok ()
  | .fstatDirectory => Posix.fstat store.directory
  | .fsyncDirectory => Posix.fsync
  | .closeDirectory => Posix.close

/-- A process as a program. -/
def execute (store : Store) (entropy : Option (Fin 16 → UInt8)) {α : Type} : Program α → Sys α
  | .done a => pure a
  | .call c next => onFiles store entropy c >>= fun r => execute store entropy (next r)
  | .killed => Prog.kill

/-- A call of `cn_device_identity_load`; no run makes more calls than its script has fates. -/
def loadNow (store : Store) : Sys Answer := do
  let m ← Prog.get
  execute store none (load (some store) (some textCapacity) (m.script.length + 1))

/-- A call of `cn_device_identity_load_or_create`. -/
def loadOrCreateNow (store : Store) (entropy : Option (Fin 16 → UInt8)) : Sys Answer := do
  let m ← Prog.get
  execute store entropy (loadOrCreate (some store) (some textCapacity) (m.script.length + 1))

section Execute

variable {store : Store} {entropy : Option (Fin 16 → UInt8)} {α β : Type}

@[simp] theorem execute_pure (a : α) :
    execute store entropy (pure a : Program α) = (pure a : Sys α) := rfl

@[simp] theorem execute_killed : execute store entropy (.killed : Program α) = Prog.kill := rfl

theorem bind_assoc_sys {γ : Type} (p : Sys α) (f : α → Sys β) (g : β → Sys γ) :
    p >>= f >>= g = p >>= fun a => f a >>= g := by
  funext m
  change Prog.bind (Prog.bind p f) g m = Prog.bind p (fun a => Prog.bind (f a) g) m
  unfold Prog.bind
  rcases p m with ⟨a | _, m'⟩ <;> rfl

@[simp] theorem execute_bind (p : Program α) (f : α → Program β) :
    execute store entropy (p >>= f) =
      execute store entropy p >>= fun a => execute store entropy (f a) := by
  change execute store entropy (p.bind f) = _
  induction p with
  | done a => rfl
  | killed => rfl
  | call c next ih =>
    simp only [Proc.bind, execute, bind_assoc_sys]
    exact congrArg (onFiles store entropy c >>= ·) (funext fun r => ih r)

theorem execute_perform (c : Call) :
    execute store entropy (perform (I := calls) c) = onFiles store entropy c := by
  funext m
  change Prog.bind (onFiles store entropy c) (fun r => pure r) m = _
  unfold Prog.bind
  rcases onFiles store entropy c m with ⟨r | _, m'⟩ <;> rfl

/-- **A process of the device identity touches the identity file only.** -/
theorem touches_execute (p : Program α) : Touches {store.path} (execute store entropy p) := by
  have hpath : store.path ∈ ({store.path} : Set Path) := rfl
  have hquery : ∀ {γ : Type} (answer : (Path → Option Node) → Except Errno γ),
      Touches {store.path} (query answer) := fun answer => (keepsFiles_query answer).touches _
  induction p with
  | done a => exact Keeps.pure a
  | killed => exact Keeps.kill
  | call c next ih =>
    refine Keeps.bind ?_ ih
    cases c with
    | lstat | fstat | fsync | close | lstatDirectory | fstatDirectory | fsyncDirectory |
      closeDirectory => exact hquery _
    | read fd offset count => exact (keepsFiles_read _ _ _).touches _
    | write fd data => exact touches_write hpath data
    | unlink => exact touches_unlink hpath
    | entropy => exact Keeps.pure _
    | openRead | openDirectory =>
      refine Keeps.bind (hquery _) fun r => ?_
      cases r <;> exact Keeps.pure _
    | openCreate =>
      refine Keeps.bind (touches_openCreate hpath) fun r => ?_
      cases r <;> exact Keeps.pure _

theorem execute_readLoop (fd length bound : ℕ) (done : List UInt8) :
    execute store entropy (readLoop fd length bound done) =
      Posix.readLoop store.path length bound done := by
  induction bound generalizing done with
  | zero => rfl
  | succ bound ih =>
    unfold readLoop Posix.readLoop
    by_cases hend : length ≤ done.length
    · rw [if_pos hend, if_pos hend]
      rfl
    rw [if_neg hend, if_neg hend, execute_bind, execute_perform]
    refine congrArg (Posix.read store.path done.length (length - done.length) >>= ·) ?_
    funext r
    rcases r with e | _ | ⟨b, bytes⟩
    · cases e <;> first | exact ih done | rfl
    · rfl
    · exact ih _

theorem execute_readExtra (fd offset bound : ℕ) :
    execute store entropy (readExtra fd offset bound) =
      retryLoop (Posix.read store.path offset 1) bound := by
  induction bound with
  | zero => rfl
  | succ bound ih =>
    unfold readExtra retryLoop
    rw [execute_bind, execute_perform]
    refine congrArg (Posix.read store.path offset 1 >>= ·) ?_
    funext r
    rcases r with e | data
    · cases e <;> first | exact ih | rfl
    · rfl

end Execute

/-! ## What a load returns -/

/-- The identifier in the file. -/
def Store.stored (store : Store) (files : Path → Option Node) : Option (List UInt8) :=
  match (files store.path).map Node.kind with
  | some (.regular content) =>
    match parseIdentity content with
    | .ok id => some id
    | .error _ => none
  | _ => none

/-- What a load promises: the identifier that it returns is stored. -/
def Loads (store : Store) (files : Path → Option Node) (r : Answer) : Prop :=
  r.result = .ok → store.stored files = some r.output

section Load

variable {store : Store} {files : Path → Option Node} {entropy : Option (Fin 16 → UInt8)}
  {m : Machine}

theorem loads_of_ne {r : Answer} (h : r.result ≠ .ok) : Loads store files r := fun hok => absurd hok h

theorem filesystemError_ne_ok (e : Errno) : filesystemError e ≠ .ok := by
  cases e <;> simp [filesystemError]

theorem loads_failure (e : Errno) : Loads store files (failed (failure e)) :=
  loads_of_ne (filesystemError_ne_ok e)

theorem ends_finish {fd : ℕ} {answer : Answer} (hf : m.files = files)
    (h : Loads store files answer) :
    Ends (execute store entropy (finish fd answer)) m
      (fun r m' => m'.files = files ∧ Loads store files r) fun m' => m'.files = files := by
  unfold finish
  rw [execute_bind, execute_perform, ends_bind]
  refine (show Ends Posix.close m _ _ from (keepsFiles_query _).ends m).mono ?_ fun _ h => h.trans hf
  rintro r m' hf'
  cases r with
  | ok _ => exact ⟨hf'.trans hf, h⟩
  | error e =>
    refine ⟨hf'.trans hf, ?_⟩
    split_ifs with hok
    · exact loads_of_ne (by simp [failed])
    · exact h

theorem parseIdentity_ne_ok {data : List UInt8} : parseIdentity data ≠ .error .ok := by
  unfold parseIdentity
  split_ifs
  · simp
  split
  · unfold parseLines
    repeat' first | simp; done | split
  · simp

/-- A file that is open is read as a whole. -/
theorem ends_readFile {bound ino fd : ℕ} {content : List UInt8} {errno : Option Errno}
    (hf : m.files = files) (hfile : files store.path = some ⟨ino, .regular content⟩) :
    Ends (execute store entropy (readFile bound ino fd errno)) m
      (fun r m' => m'.files = files ∧ Loads store files r) fun m' => m'.files = files := by
  have hstored : ∀ id, parseIdentity content = .ok id → store.stored files = some id := by
    intro id hid
    simp only [Store.stored, hfile, Option.map_some, hid]
  unfold readFile
  rw [execute_bind, execute_perform, ends_bind]
  -- `fstat` tells the size of the content
  refine (show Ends (Posix.fstat store.path) m _ _ from
    ends_fstat (H := False) False.elim (by rw [hf, hfile])).mono ?_ fun _ h => h.trans hf
  rintro r m₁ ⟨hf₁, -, rfl | ⟨-, f, rfl⟩⟩
  swap
  · exact ends_finish (hf₁.trans hf) (loads_failure _)
  dsimp only
  rw [if_neg (not_not.mpr rfl)]
  by_cases hsize : content.length = 0 ∨ fileMaxBytes < content.length
  · rw [if_pos hsize]
    exact ends_finish (hf₁.trans hf) (loads_of_ne (by simp [failed]))
  rw [if_neg hsize, execute_bind, ends_bind]
  unfold readWhole
  rw [execute_bind, execute_readLoop, ends_bind]
  -- the loop reads the content to its end
  refine (ends_readLoop (H := False) bound False.elim (by rw [hf₁, hf, hfile]) le_rfl
    (Nat.zero_le _)).mono ?_ fun _ h => h.trans (hf₁.trans hf)
  rintro r m₂ ⟨hf₂, -, rfl | ⟨-, e, rfl⟩⟩
  swap
  · exact ends_finish (hf₂.trans (hf₁.trans hf)) (loads_failure _)
  dsimp only
  rw [execute_bind, execute_readExtra, ends_bind]
  -- and one read more finds nothing behind it
  refine (ends_retryLoop_read (H := False) bound False.elim (by rw [hf₂, hf₁, hf, hfile])).mono ?_
    fun _ h => h.trans (hf₂.trans (hf₁.trans hf))
  rintro r m₃ ⟨hf₃, -, ⟨n, -, -, rfl⟩ | ⟨-, e, rfl⟩⟩
  swap
  · exact ends_finish (hf₃.trans (hf₂.trans (hf₁.trans hf))) (loads_failure _)
  have hfiles : m₃.files = files := hf₃.trans (hf₂.trans (hf₁.trans hf))
  dsimp only
  rw [List.drop_length, List.take_nil, if_pos rfl, List.take_length, execute_pure, ends_pure]
  dsimp only
  cases hparse : parseIdentity content with
  | error result =>
    exact ends_finish hfiles (loads_of_ne fun h => parseIdentity_ne_ok (hparse.trans (congrArg _ h)))
  | ok id => exact ends_finish hfiles fun _ => hstored id hparse

theorem ends_readExisting (store : Store) (bound : ℕ) (errno : Option Errno) (m : Machine) :
    Ends (execute store entropy (readExisting bound errno)) m
      (fun r m' => m'.files = m.files ∧ Loads store m.files r) fun m' => m'.files = m.files := by
  unfold readExisting inspectIdentityFile
  rw [execute_bind, execute_bind, execute_perform, ends_bind, ends_bind]
  refine (show Ends (Posix.lstat store.path) m _ _ from
    ends_query (H := False) False.elim).mono ?_ fun _ h => h
  rintro r m₁ ⟨hf₁, -, rfl | ⟨-, f, rfl⟩⟩
  swap
  · dsimp only
    rw [if_neg f.ne]
    exact ⟨hf₁, loads_failure _⟩
  rcases hfile : m.files store.path with _ | ⟨ino, kind⟩
  · exact ⟨hf₁, loads_of_ne (by simp [failed])⟩
  -- only a regular file is opened
  cases kind with
  | directory | symlink | other => exact ⟨hf₁, loads_of_ne (by simp [failed])⟩
  | regular content =>
  dsimp only
  rw [execute_pure, ends_pure]
  dsimp only
  by_cases hsize : content.length = 0 ∨ fileMaxBytes < content.length
  · rw [if_pos hsize]
    exact ⟨hf₁, loads_of_ne (by simp [failed])⟩
  rw [if_neg hsize, execute_bind, execute_perform, ends_bind]
  refine (show Ends (onFiles store entropy .openRead) m₁ (fun _ m' => m'.files = m.files)
    (fun m' => m'.files = m.files) from ?_).mono ?_ fun _ h => h
  · refine (ends_bind _).mpr (((keepsFiles_query _).ends m₁).mono ?_ fun _ h => h.trans hf₁)
    intro r m₂ hf₂
    cases r <;> exact hf₂.trans hf₁
  · intro r m₂ hf₂
    cases r with
    | error e => exact ⟨hf₂, loads_failure _⟩
    | ok fd => exact ends_readFile hf₂ hfile

/-- **What a load returns**: an identifier that is stored, or a failure. -/
theorem ends_loadNow (store : Store) (m : Machine) :
    Ends (loadNow store) m
      (fun r m' => m'.files = m.files ∧ Loads store m.files r) fun m' => m'.files = m.files := by
  unfold loadNow load
  rw [ends_bind, ends_get]
  dsimp only
  rw [if_neg (lt_irrefl _)]
  by_cases hstore : storeValid store = true
  · rw [if_neg (not_not.mpr hstore)]
    exact ends_readExisting store _ _ m
  · rw [if_pos hstore]
    exact ⟨rfl, loads_of_ne (by simp [failed])⟩

end Load

end DeviceIdentity
