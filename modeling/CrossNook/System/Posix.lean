import CrossNook.System.Crash

/-!
# System calls

The file-system calls of POSIX as programs that may be killed. What happens to the calls of a run
is a script: each call takes the next fate from it, to succeed (for a transfer, with a bound on
the bytes moved) or to fail with an error; where the script ends the process is killed. Errors
that the state of the file system decides (a missing entry, an entry that is in the way) are
truthful, every other error may strike any call, and a call that fails changes nothing. Other
processes do not touch the file system.

## Main definitions

* `Posix.Machine`: the directory entries, the script and the next inode number
* `Posix.unlink`, `Posix.openCreate`, `Posix.write`, `Posix.rename`, ...: the calls
* `Posix.writeAll`, `Posix.readAll`: the loops around `write` and `read`
* `Posix.others T`: the entries outside `T`
* `Posix.Paced`: what a program does depends on no fate but those that it takes
* `Posix.Struck`: a call of a run failed on its own

## Main results

* `Posix.ends_syscall`: the rule of a system call
* `Posix.ends_writeAll`, `Posix.ends_readAll`: what the loops transfer
* `Posix.touches_writeAll` and its siblings: what each call leaves alone
* `Posix.Paced.of_healthy`: what holds of the healthy machines holds of the runs that are not struck
-/

namespace Posix

open Crash

/-- A path: the bytes of its name. -/
abbrev Path := List UInt8

/-- The components of an absolute path are neither empty nor `.` nor `..`. -/
def plainComponents (p : Path) : Bool :=
  ((p.drop 1).splitOn 0x2f).all fun c => c ≠ [] ∧ c ≠ [0x2e] ∧ c ≠ [0x2e, 0x2e]

/-- The error numbers that the callers tell apart; `eio` is `EIO`. -/
inductive Errno
  | ENOENT
  | ENOTDIR
  | ELOOP
  | EACCES
  | EPERM
  | EROFS
  | ENOSPC
  | EDQUOT
  | ENAMETOOLONG
  | EINTR
  | EEXIST
  | EISDIR
  | eio
  | other (n : ℕ)
  deriving DecidableEq, Repr

/-- An error that may strike any call. A missing entry is reported only where there is none. -/
structure Fault where
  errno : Errno
  ne : errno ≠ .ENOENT

/-- What a directory entry is. -/
inductive Kind
  | regular (content : List UInt8)
  | directory
  | symlink (target : Path)
  | other
  deriving DecidableEq, Repr

/-- An inode, as `stat` shows it. -/
structure Node where
  ino : ℕ
  kind : Kind
  deriving DecidableEq, Repr

/-- What happens to a call: it succeeds, moving at most `amount` bytes if it is a transfer, or it
fails. -/
inductive Fate
  | succeed (amount : ℕ)
  | fail (fault : Fault)

/-- The file system and what will happen to the calls of the process. -/
structure Machine where
  files : Path → Option Node
  script : List Fate
  fresh : ℕ

/-- Programs that make system calls. -/
abbrev Sys := Prog Machine

/-- Bind the entry at `p`. -/
def Machine.set (m : Machine) (p : Path) (n : Option Node) : Machine :=
  { m with files := Function.update m.files p n }

@[simp] theorem Machine.set_files (m : Machine) (p : Path) (n : Option Node) :
    (m.set p n).files = Function.update m.files p n := rfl

@[simp] theorem Machine.set_script (m : Machine) (p : Path) (n : Option Node) :
    (m.set p n).script = m.script := rfl

/-- A system call with the effect `act`, which is given the bound of a transfer. -/
def syscall {α : Type} (act : ℕ → Machine → Except Errno α × Machine) : Sys (Except Errno α) :=
  fun m =>
    match m.script with
    | [] => (none, m)
    | .fail f :: script => (some (.error f.errno), { m with script })
    | .succeed amount :: script =>
      let (r, m') := act amount { m with script }
      (some r, m')

/-- A system call that changes nothing: its answer is read from the directory entries. -/
def query {α : Type} (answer : (Path → Option Node) → Except Errno α) : Sys (Except Errno α) :=
  syscall fun _ m => (answer m.files, m)

/-- `malloc` and its like. -/
def malloc : Sys Bool := do
  match ← query fun _ => .ok () with
  | .ok _ => return true
  | .error _ => return false

/-! ## The calls -/

/-- `lstat`. -/
def lstat (p : Path) : Sys (Except Errno Node) :=
  query fun files =>
    match files p with
    | none => .error .ENOENT
    | some n => .ok n

/-- Follow the symbolic links at `p`, as many as the first argument allows. -/
def resolve (files : Path → Option Node) : ℕ → Path → Except Errno Path
  | 0, _ => .error .ELOOP
  | k + 1, p =>
    match files p with
    | none => .error .ENOENT
    | some n =>
      match n.kind with
      | .symlink target => resolve files k target
      | _ => .ok p

/-- `stat`. -/
def stat (p : Path) : Sys (Except Errno Node) :=
  query fun files =>
    match resolve files 40 p with
    | .error e => .error e
    | .ok q =>
      match files q with
      | none => .error .ENOENT
      | some n => .ok n

/-- `open` for reading. A descriptor is the path of the file it refers to: no process renames or
removes a file that it has open for reading. -/
def openRead (p : Path) : Sys (Except Errno Path) := query fun files => resolve files 40 p

/-- `open` for reading with `O_NOFOLLOW`. -/
def openNoFollow (p : Path) : Sys (Except Errno Path) := query fun files => resolve files 1 p

/-- `open` with `O_DIRECTORY`. -/
def openDirectory (p : Path) : Sys (Except Errno Path) :=
  query fun files =>
    match resolve files 40 p with
    | .error e => .error e
    | .ok q => if (files q).map Node.kind = some .directory then .ok q else .error .ENOTDIR

/-- `open` with `O_DIRECTORY` and `O_NOFOLLOW`. -/
def openDirectoryNoFollow (p : Path) : Sys (Except Errno Path) :=
  query fun files =>
    if (files p).map Node.kind = some .directory then .ok p else .error .ENOTDIR

/-- `fstat`. -/
def fstat (fd : Path) : Sys (Except Errno Node) := lstat fd

/-- `read` of at most `count` bytes after the first `offset` ones, which the process has read: at
least one byte, unless none is left. -/
def read (fd : Path) (offset count : ℕ) : Sys (Except Errno (List UInt8)) :=
  syscall fun amount m =>
    match (m.files fd).map Node.kind with
    | some (.regular content) => (.ok ((content.drop offset).take (min count (max amount 1))), m)
    | _ => (.error .EISDIR, m)

/-- `open` with `O_WRONLY`, `O_CREAT` and `O_EXCL`. -/
def openCreate (p : Path) : Sys (Except Errno Unit) :=
  syscall fun _ m =>
    match m.files p with
    | some _ => (.error .EEXIST, m)
    | none => (.ok (), { m.set p (some ⟨m.fresh, .regular []⟩) with fresh := m.fresh + 1 })

/-- `mkdir`. -/
def mkdir (p : Path) : Sys (Except Errno Unit) :=
  syscall fun _ m =>
    match m.files p with
    | some _ => (.error .EEXIST, m)
    | none => (.ok (), { m.set p (some ⟨m.fresh, .directory⟩) with fresh := m.fresh + 1 })

/-- `write` at the end of the file, perhaps short: the number of bytes written. -/
def write (fd : Path) (data : List UInt8) : Sys (Except Errno ℕ) :=
  syscall fun amount m =>
    match m.files fd with
    | some ⟨ino, .regular content⟩ =>
      let count := min amount data.length
      (.ok count, m.set fd (some ⟨ino, .regular (content ++ data.take count)⟩))
    | _ => (.error .eio, m)

/-- `fsync`. -/
def fsync : Sys (Except Errno Unit) := query fun _ => .ok ()

/-- `close`. -/
def close : Sys (Except Errno Unit) := query fun _ => .ok ()

/-- `unlink`. -/
def unlink (p : Path) : Sys (Except Errno Unit) :=
  syscall fun _ m =>
    match m.files p with
    | none => (.error .ENOENT, m)
    | some n => if n.kind = .directory then (.error .EISDIR, m) else (.ok (), m.set p none)

/-- The error of an `unlink`, where a missing entry is none. -/
def unlinkFailure : Except Errno Unit → Option Errno
  | .ok _ => none
  | .error e => if e = .ENOENT then none else some e

/-- `rename`, which replaces what is at the new path atomically. -/
def rename (old new : Path) : Sys (Except Errno Unit) :=
  syscall fun _ m =>
    match m.files old with
    | none => (.error .ENOENT, m)
    | some n =>
      if (m.files new).map Node.kind = some .directory then (.error .EISDIR, m)
      else (.ok (), (m.set old none).set new (some n))

/-! ## Loops -/

/-- Write all of `data`. An interrupted call is repeated; a call that writes nothing is an
input/output error. The first argument bounds the number of calls. -/
def writeLoop (fd : Path) : ℕ → List UInt8 → Sys (Except Errno Unit)
  | 0, _ => Prog.kill
  | calls + 1, data =>
    if data = [] then return .ok ()
    else do
      match ← write fd data with
      | .error .EINTR => writeLoop fd calls data
      | .error e => return .error e
      | .ok 0 => return .error .eio
      | .ok (count + 1) => writeLoop fd calls (data.drop (count + 1))

/-- The loop of `write_all`. A run makes no more calls than its script has fates. -/
def writeAll (fd : Path) (data : List UInt8) : Sys (Except Errno Unit) := do
  let m ← Prog.get
  writeLoop fd (m.script.length + 1) data

/-- Read up to `length` bytes after the ones in `done`; `none` is an early end of the file. -/
def readLoop (fd : Path) (length : ℕ) : ℕ → List UInt8 → Sys (Except Errno (Option (List UInt8)))
  | 0, _ => Prog.kill
  | calls + 1, done =>
    if length ≤ done.length then return .ok (some done)
    else do
      match ← read fd done.length (length - done.length) with
      | .error .EINTR => readLoop fd length calls done
      | .error e => return .error e
      | .ok [] => return .ok none
      | .ok (b :: bytes) => readLoop fd length calls (done ++ b :: bytes)

/-- The loop of `read_all`: exactly `length` bytes from the start of the file. -/
def readAll (fd : Path) (length : ℕ) : Sys (Except Errno (Option (List UInt8))) := do
  let m ← Prog.get
  readLoop fd length (m.script.length + 1) []

/-- Repeat a call while it is interrupted. -/
def retryLoop {α : Type} (call : Sys (Except Errno α)) : ℕ → Sys (Except Errno α)
  | 0 => Prog.kill
  | calls + 1 => do
    match ← call with
    | .error .EINTR => retryLoop call calls
    | r => return r

/-- `do { ... } while (interrupted)`. -/
def retry {α : Type} (call : Sys (Except Errno α)) : Sys (Except Errno α) := do
  let m ← Prog.get
  retryLoop call (m.script.length + 1)

/-- The loop that reads a file of `length` bytes and then tries to read one more; `none` where
the file has less or more. -/
def readWhole (fd : Path) (length : ℕ) : Sys (Except Errno (Option (List UInt8))) := do
  match ← readAll fd length with
  | .error e => return .error e
  | .ok none => return .ok none
  | .ok (some data) =>
    match ← retry (read fd length 1) with
    | .error e => return .error e
    | .ok extra => return .ok (if extra = [] then some data else none)

/-! ## Rules -/

/-- No call of the run will fail on its own. -/
def Healthy (m : Machine) : Prop := ∀ fate ∈ m.script, ∃ amount, fate = .succeed amount

/-- The entries outside `T`. -/
def outside (T : Set Path) (files : Path → Option Node) : {q : Path // q ∉ T} → Option Node :=
  fun q => files q

theorem outside_update {T : Set Path} {t : Path} (ht : t ∈ T) (files : Path → Option Node)
    (n : Option Node) : outside T (Function.update files t n) = outside T files := by
  funext ⟨q, hq⟩
  have hne : q ≠ t := by
    rintro rfl
    exact hq ht
  exact Function.update_of_ne hne _ _

/-- The entries outside `T` of a machine. -/
def others (T : Set Path) (m : Machine) : {q : Path // q ∉ T} → Option Node := outside T m.files

theorem others_eq_iff {T : Set Path} {m m' : Machine} :
    others T m' = others T m ↔ ∀ q ∉ T, m'.files q = m.files q :=
  ⟨fun h q hq => congrFun h ⟨q, hq⟩, fun h => funext fun q => h q q.2⟩

section Rules

variable {α : Type} {act : ℕ → Machine → Except Errno α × Machine} {m : Machine}

/-- **The rule of a system call.** `H` stands for the assumption that no call fails on its own. -/
theorem ends_syscall {Q : Except Errno α → Machine → Prop} {C : Machine → Prop} {H : Prop}
    (hm : H → Healthy m) (hC : C m)
    (hfail : ¬ H → ∀ (f : Fault) script, Q (.error f.errno) { m with script })
    (hact : ∀ amount script, (H → Healthy { m with script }) →
      Q (act amount { m with script }).1 (act amount { m with script }).2) :
    Ends (syscall act) m Q C := by
  unfold Ends syscall
  unfold Healthy at *
  rcases hs : m.script with _ | ⟨f | f, script⟩
  · exact hC
  · exact hact f script fun h fate hf => hm h fate (by simp [hs, hf])
  · refine hfail (fun h => ?_) f script
    obtain ⟨amount, he⟩ := hm h (.fail f) (by simp [hs])
    cases he

/-- A view of the entries is kept by a call whose effect keeps it. -/
theorem keeps_syscall {ι : Type} (view : (Path → Option Node) → ι)
    (hact : ∀ amount m, view (act amount m).2.files = view m.files) :
    Keeps (fun m => view m.files) (syscall act) := by
  intro m
  unfold syscall
  rcases m.script with _ | ⟨f | f, script⟩
  · rfl
  · exact hact f _
  · rfl

end Rules

/-! ### What the calls take from the script -/

/-- The machine with another script. -/
def Machine.withScript (m : Machine) (script : List Fate) : Machine := { m with script }

@[simp] theorem Machine.withScript_files (m : Machine) (script : List Fate) :
    (m.withScript script).files = m.files := rfl

@[simp] theorem Machine.withScript_script (m : Machine) (script : List Fate) :
    (m.withScript script).script = script := rfl

@[simp] theorem Machine.withScript_withScript (m : Machine) (script script' : List Fate) :
    (m.withScript script).withScript script' = m.withScript script' := rfl

/-- From `m` to `m'` the fates `used` are taken. -/
def Took (used : List Fate) (m m' : Machine) : Prop := m.script = used ++ m'.script

/-- A run of the program from `m` to `m'` is the same whatever comes after the fates it takes. -/
def RunsOn {α : Type} (p : Sys α) (m : Machine) (a : α) (used : List Fate) (m' : Machine) : Prop :=
  ∀ rest, p (m.withScript (used ++ rest)) = (some a, m'.withScript rest)

/-- What a program does before it returns depends on no fate but those that it takes. -/
def Paced {α : Type} (p : Sys α) : Prop :=
  ∀ m a m', p m = (some a, m') → ∃ used, Took used m m' ∧ RunsOn p m a used m'

/-- A loop with a bound on its calls is paced, and its bound is none where it returns. -/
def PacedLoop {α : Type} (p : ℕ → Sys α) : Prop :=
  ∀ calls m a m', p calls m = (some a, m') → ∃ used : List Fate, Took used m m' ∧
    ∀ calls', used.length < calls' → RunsOn (p calls') m a used m'

/-- A call between the two machines failed on its own. -/
def Struck (m m' : Machine) : Prop := ∃ used, Took used m m' ∧ ∃ fault, Fate.fail fault ∈ used

theorem Took.nil (m : Machine) : Took [] m m := rfl

theorem Took.append {used used' : List Fate} {m m₁ m₂ : Machine} (h : Took used m m₁)
    (h' : Took used' m₁ m₂) : Took (used ++ used') m m₂ := by
  rw [Took, List.append_assoc, ← h']
  exact h

theorem Took.struck {used : List Fate} {m m₁ m₂ : Machine} (h : Took used m m₁)
    (h' : Struck m₁ m₂) : Struck m m₂ := by
  obtain ⟨used', htook, fault, hmem⟩ := h'
  exact ⟨used ++ used', h.append htook, fault, List.mem_append_right _ hmem⟩

section Paced

variable {α β : Type} {m : Machine}

theorem Paced.pure (a : α) : Paced (Pure.pure a : Sys α) := by
  rintro m _ _ ⟨⟩
  exact ⟨[], .nil m, fun rest => rfl⟩

theorem Paced.bind {p : Sys α} {f : α → Sys β} (h : Paced p) (hf : ∀ a, Paced (f a)) :
    Paced (p >>= f) := by
  intro m b m₂ hrun
  obtain ⟨a, m₁, hp, hrest⟩ := (returns_bind (Q := fun b' m' => b' = b ∧ m' = m₂) f).mp
    ⟨b, m₂, hrun, rfl, rfl⟩
  obtain ⟨_, _, hfa, rfl, rfl⟩ := hrest
  obtain ⟨used, htook, hsame⟩ := h m a m₁ hp
  obtain ⟨used', htook', hsame'⟩ := hf a m₁ _ _ hfa
  refine ⟨used ++ used', htook.append htook', fun rest => ?_⟩
  rw [List.append_assoc, bind_of_eq (hsame (used' ++ rest))]
  exact hsame' rest

theorem Paced.ite {c : Prop} [Decidable c] {p q : Sys α} (h : Paced p) (h' : Paced q) :
    Paced (if c then p else q) := by
  split_ifs
  exacts [h, h']

/-- A call whose effect does not look at the script takes one fate. -/
theorem syscall_takes {act : ℕ → Machine → Except Errno α × Machine}
    (hact : ∀ amount m script, act amount (m.withScript script) =
      ((act amount m).1, (act amount m).2.withScript script))
    {a : Except Errno α} {m' : Machine} (h : syscall act m = (some a, m')) :
    ∃ fate, Took [fate] m m' ∧ RunsOn (syscall act) m a [fate] m' := by
  unfold syscall at h
  split at h
  · cases h
  · rename_i f script hscript
    cases h
    exact ⟨.fail f, hscript, fun rest => rfl⟩
  · rename_i amount script hscript
    have heffect := hact amount m script
    have hsame : ∀ rest, act amount (m.withScript rest) = (a, m'.withScript rest) := by
      intro rest
      rw [show ({ m with script } : Machine) = m.withScript script from rfl, heffect] at h
      cases h
      exact hact amount m rest
    refine ⟨.succeed amount, ?_, fun rest => ?_⟩
    · rw [show ({ m with script } : Machine) = m.withScript script from rfl, heffect] at h
      cases h
      exact hscript
    · unfold syscall
      change (let (r, m'') := act amount (m.withScript rest); (some r, m'')) = _
      rw [hsame rest]

theorem paced_syscall {act : ℕ → Machine → Except Errno α × Machine}
    (hact : ∀ amount m script, act amount (m.withScript script) =
      ((act amount m).1, (act amount m).2.withScript script)) : Paced (syscall act) := by
  intro m a m' h
  obtain ⟨fate, htook, hsame⟩ := syscall_takes hact h
  exact ⟨[fate], htook, hsame⟩

theorem paced_query (answer : (Path → Option Node) → Except Errno α) : Paced (query answer) :=
  paced_syscall fun _ _ _ => rfl

theorem paced_lstat (p : Path) : Paced (lstat p) := paced_query _

theorem paced_fstat (fd : Path) : Paced (fstat fd) := paced_lstat fd

theorem read_takes {fd : Path} {offset count : ℕ} {a : Except Errno (List UInt8)} {m' : Machine}
    (h : read fd offset count m = (some a, m')) :
    ∃ fate, Took [fate] m m' ∧ RunsOn (read fd offset count) m a [fate] m' := by
  refine syscall_takes (fun amount m script => ?_) h
  dsimp only [Machine.withScript_files]
  split <;> rfl

/-- A loop whose bound is more than the fates of the script. -/
theorem PacedLoop.paced {p : ℕ → Sys α} (h : PacedLoop p) :
    Paced (do
      let m ← Prog.get
      p (m.script.length + 1)) := by
  intro m a m' hrun
  obtain ⟨used, htook, hsame⟩ := h _ m a m' hrun
  refine ⟨used, htook, fun rest => ?_⟩
  exact hsame ((used ++ rest).length + 1) (by simp) rest

/-- One turn of a loop: a call, and then what its answer leads to. -/
theorem PacedLoop.turn {call : Sys α} {next : ℕ → α → Sys β} {m m₁ m₂ : Machine} {a : α} {b : β}
    {fate : Fate} {used : List Fate} (htook : Took [fate] m m₁) (hcall : RunsOn call m a [fate] m₁)
    (htook' : Took used m₁ m₂)
    (hnext : ∀ calls, used.length < calls → RunsOn (next calls a) m₁ b used m₂) {p : ℕ → Sys β}
    (hp : ∀ calls, p (calls + 1) = call >>= next calls) :
    ∃ used, Took used m m₂ ∧ ∀ calls, used.length < calls → RunsOn (p calls) m b used m₂ := by
  refine ⟨fate :: used, htook.append htook', fun calls hcalls rest => ?_⟩
  obtain ⟨calls, rfl⟩ := Nat.exists_eq_succ_of_ne_zero (Nat.ne_zero_of_lt hcalls)
  rw [hp, List.cons_append, ← List.singleton_append, bind_of_eq (hcall (used ++ rest))]
  exact hnext calls (Nat.lt_of_succ_lt_succ hcalls) rest

/-- A loop that ends without a call. -/
theorem PacedLoop.stop {p : ℕ → Sys α} {a b : α} {m' : Machine}
    (hp : ∀ calls, p (calls + 1) = Pure.pure a) (h : (Pure.pure a : Sys α) m = (some b, m')) :
    ∃ used : List Fate, Took used m m' ∧
      ∀ calls, used.length < calls → RunsOn (p calls) m b used m' := by
  cases h
  refine ⟨[], .nil m, fun calls hcalls rest => ?_⟩
  obtain ⟨calls, rfl⟩ := Nat.exists_eq_succ_of_ne_zero (Nat.ne_zero_of_lt hcalls)
  rw [hp calls]
  rfl

/-- What `readLoop` does after a `read`. -/
def afterRead (fd : Path) (length : ℕ) (done : List UInt8) (calls : ℕ)
    (r : Except Errno (List UInt8)) : Sys (Except Errno (Option (List UInt8))) :=
  match r with
  | .error .EINTR => readLoop fd length calls done
  | .error e => return .error e
  | .ok [] => return .ok none
  | .ok (b :: bytes) => readLoop fd length calls (done ++ b :: bytes)

theorem readLoop_succ {length : ℕ} {done : List UInt8} (h : ¬ length ≤ done.length) (fd : Path)
    (calls : ℕ) : readLoop fd length (calls + 1) done =
      read fd done.length (length - done.length) >>= afterRead fd length done calls :=
  if_neg h

theorem pacedLoop_readLoop (fd : Path) (length : ℕ) (done : List UInt8) :
    PacedLoop fun calls => readLoop fd length calls done := by
  intro calls
  induction calls generalizing done with
  | zero =>
    intro m a m' h
    cases h
  | succ calls ih =>
    intro m a m' h
    by_cases hend : length ≤ done.length
    · have hstop : ∀ calls, readLoop fd length (calls + 1) done = pure (.ok (some done)) :=
        fun calls => if_pos hend
      exact PacedLoop.stop hstop ((congrFun (hstop calls) m).symm.trans h)
    dsimp only at h
    rw [readLoop_succ hend] at h
    obtain ⟨r, m₁, hread, a', m₂, hnext, rfl, rfl⟩ :=
      (returns_bind (Q := fun a' m'' => a' = a ∧ m'' = m') _).mp ⟨a, m', h, rfl, rfl⟩
    obtain ⟨fate, htook, hcall⟩ := read_takes hread
    have hafter : ∃ used : List Fate, Took used m₁ m₂ ∧ ∀ calls, used.length < calls →
        RunsOn (afterRead fd length done calls r) m₁ a' used m₂ := by
      rcases r with e | _ | ⟨b, bytes⟩
      · by_cases he : e = .EINTR
        · subst he
          exact ih done m₁ _ _ hnext
        · have hstop : ∀ calls, afterRead fd length done calls (.error e) = pure (.error e) := by
            intro calls
            cases e <;> first | exact absurd rfl he | rfl
          exact PacedLoop.stop (fun calls => hstop (calls + 1))
            ((congrFun (hstop calls) m₁).symm.trans hnext)
      · cases hnext
        exact ⟨[], .nil _, fun _ _ _ => rfl⟩
      · exact ih _ m₁ _ _ hnext
    obtain ⟨used, htook', hrest⟩ := hafter
    exact PacedLoop.turn htook hcall htook' hrest (readLoop_succ hend fd)

theorem paced_readAll (fd : Path) (length : ℕ) : Paced (readAll fd length) :=
  (pacedLoop_readLoop fd length []).paced

/-- What `retryLoop` does after a call. -/
def afterCall (call : Sys (Except Errno α)) (calls : ℕ) (r : Except Errno α) :
    Sys (Except Errno α) :=
  match r with
  | .error .EINTR => retryLoop call calls
  | r => return r

theorem paced_retry {call : Sys (Except Errno α)}
    (hcall : ∀ m a m', call m = (some a, m') → ∃ fate, Took [fate] m m' ∧ RunsOn call m a [fate] m') :
    Paced (retry call) := by
  have hloop : PacedLoop (retryLoop call) := by
    intro calls
    induction calls with
    | zero =>
      intro m a m' h
      cases h
    | succ calls ih =>
      intro m a m' h
      obtain ⟨r, m₁, hr, a', m₂, hnext, rfl, rfl⟩ :=
        (returns_bind (Q := fun a' m'' => a' = a ∧ m'' = m') (afterCall call calls)).mp
          ⟨a, m', h, rfl, rfl⟩
      obtain ⟨fate, htook, hsame⟩ := hcall m r m₁ hr
      have hafter : ∃ used : List Fate, Took used m₁ m₂ ∧ ∀ calls, used.length < calls →
          RunsOn (afterCall call calls r) m₁ a' used m₂ := by
        by_cases he : r = .error .EINTR
        · subst he
          exact ih m₁ _ _ hnext
        · have hstop : ∀ calls, afterCall call calls r = pure r := by
            intro calls
            rcases r with e | b
            · cases e <;> first | exact absurd rfl he | rfl
            · rfl
          exact PacedLoop.stop (fun calls => hstop (calls + 1))
            ((congrFun (hstop calls) m₁).symm.trans hnext)
      obtain ⟨used, htook', hrest⟩ := hafter
      exact PacedLoop.turn htook hsame htook' hrest fun _ => rfl
  exact hloop.paced

theorem paced_readWhole (fd : Path) (length : ℕ) : Paced (readWhole fd length) := by
  refine (paced_readAll fd length).bind fun r => ?_
  rcases r with e | _ | data
  · exact .pure _
  · exact .pure _
  · refine (paced_retry fun _ _ _ => read_takes).bind fun r => ?_
    cases r <;> exact .pure _

/-- A run is healthy where no call between its machines failed on its own. -/
theorem Took.healthy_iff {used : List Fate} {m' : Machine} (h : Took used m m') :
    Healthy (m.withScript used) ↔ ¬ Struck m m' := by
  constructor
  · rintro hhealthy ⟨used', htook, fault, hmem⟩
    obtain rfl : used = used' := List.append_cancel_right (h.symm.trans htook)
    obtain ⟨amount, he⟩ := hhealthy _ hmem
    cases he
  · intro hnot fate hmem
    cases fate with
    | succeed amount => exact ⟨amount, rfl⟩
    | fail fault => exact absurd ⟨used, h, fault, hmem⟩ hnot

/-- **What a paced program does on a healthy machine** it does wherever none of its own calls
fails on its own. -/
theorem Paced.of_healthy {p : Sys α} (hp : Paced p) {R : Prop → (Path → Option Node) → α → Prop}
    (h : ∀ m, Ends p m (fun a _ => R (Healthy m) m.files a) fun _ => True) {a : α} {m' : Machine}
    (hrun : p m = (some a, m')) : (∃ used, Took used m m') ∧ R (¬ Struck m m') m.files a := by
  obtain ⟨used, htook, hsame⟩ := hp m a m' hrun
  have hR := (h (m.withScript used)).of_eq ((congrArg p (congrArg _ (List.append_nil _).symm)).trans
    (hsame []))
  rw [propext htook.healthy_iff] at hR
  exact ⟨⟨used, htook⟩, hR⟩

end Paced

/-! ### What the calls leave alone -/

/-- A program that leaves all entries alone. -/
abbrev KeepsFiles {α : Type} (p : Sys α) : Prop := Keeps Machine.files p

/-- A program that touches entries in `T` only. -/
abbrev Touches {α : Type} (T : Set Path) (p : Sys α) : Prop := Keeps (others T) p

theorem KeepsFiles.touches {α : Type} {p : Sys α} (h : KeepsFiles p) (T : Set Path) :
    Touches T p := by
  intro m
  rw [others, h m]
  rfl

theorem keepsFiles_query {α : Type} (answer : (Path → Option Node) → Except Errno α) :
    KeepsFiles (query answer) :=
  keeps_syscall id fun _ _ => rfl

theorem keepsFiles_lstat (p : Path) : KeepsFiles (lstat p) := keepsFiles_query _

theorem keepsFiles_read (fd : Path) (offset count : ℕ) : KeepsFiles (read fd offset count) :=
  keeps_syscall id fun _ m => by
    split <;> rfl

theorem keepsFiles_malloc : KeepsFiles malloc := by
  refine (keepsFiles_query _).bind fun r => ?_
  cases r <;> exact Keeps.pure _

section Touches

variable {T : Set Path} {t : Path}

theorem touches_openCreate (ht : t ∈ T) : Touches T (openCreate t) :=
  keeps_syscall (outside T) fun _ m => by
    split
    · rfl
    · exact outside_update ht _ _

theorem touches_write (ht : t ∈ T) (data : List UInt8) : Touches T (write t data) :=
  keeps_syscall (outside T) fun _ m => by
    split
    · exact outside_update ht _ _
    · rfl

theorem touches_unlink (ht : t ∈ T) : Touches T (unlink t) :=
  keeps_syscall (outside T) fun _ m => by
    split
    · rfl
    · split_ifs
      · rfl
      · exact outside_update ht _ _

theorem touches_writeAll (ht : t ∈ T) (data : List UInt8) : Touches T (writeAll t data) := by
  refine Keeps.get.bind fun m => ?_
  generalize m.script.length + 1 = calls
  induction calls generalizing data with
  | zero => exact Keeps.kill
  | succ calls ih =>
    unfold writeLoop
    refine Keeps.ite (Keeps.pure _) ((touches_write ht data).bind fun r => ?_)
    split
    · exact ih data
    · exact Keeps.pure _
    · exact Keeps.pure _
    · exact ih _

end Touches

/-! ### What the loops transfer -/

section Reads

variable {H : Prop} {m : Machine}

/-- **The rule of a query.** -/
theorem ends_query {α : Type} {answer : (Path → Option Node) → Except Errno α}
    (hm : H → Healthy m) :
    Ends (query answer) m
      (fun r m' => m'.files = m.files ∧ (H → Healthy m') ∧
        (r = answer m.files ∨ ¬ H ∧ ∃ f : Fault, r = .error f.errno))
      fun m' => m'.files = m.files :=
  ends_syscall hm rfl (fun hH f _ => ⟨rfl, fun h => absurd h hH, .inr ⟨hH, f, rfl⟩⟩)
    fun _ _ h => ⟨rfl, h, .inl rfl⟩

theorem ends_fstat {fd : Path} {n : Node} (hm : H → Healthy m) (hfile : m.files fd = some n) :
    Ends (fstat fd) m
      (fun r m' => m'.files = m.files ∧ (H → Healthy m') ∧
        (r = .ok n ∨ ¬ H ∧ ∃ f : Fault, r = .error f.errno))
      fun m' => m'.files = m.files := by
  refine (show Ends (lstat fd) m _ _ from ends_query hm).mono ?_ fun _ h => h
  simp only [hfile]
  exact fun _ _ h => h

theorem ends_malloc (hm : H → Healthy m) :
    Ends malloc m (fun r m' => m'.files = m.files ∧ (H → Healthy m') ∧ (H → r = true))
      fun m' => m'.files = m.files := by
  refine (ends_bind _).mpr ((ends_query hm).mono ?_ fun _ h => h)
  rintro r m' ⟨hf, hm', rfl | ⟨hH, f, rfl⟩⟩
  · exact ⟨hf, hm', fun _ => rfl⟩
  · exact ⟨hf, hm', fun h => absurd h hH⟩

theorem ends_read {fd : Path} {offset count ino : ℕ} {content : List UInt8} (hm : H → Healthy m)
    (hfile : m.files fd = some ⟨ino, .regular content⟩) :
    Ends (read fd offset count) m
      (fun r m' => m'.files = m.files ∧ (H → Healthy m') ∧
        ((∃ n ≤ count, (0 < count → 0 < n) ∧ r = .ok ((content.drop offset).take n)) ∨
          ¬ H ∧ ∃ e, r = .error e))
      fun m' => m'.files = m.files := by
  refine ends_syscall hm rfl (fun hH f _ => ⟨rfl, fun h => absurd h hH, .inr ⟨hH, _, rfl⟩⟩)
    fun amount script h => ?_
  simp only [hfile, Option.map_some]
  exact ⟨trivial, h, .inl ⟨min count (max amount 1), min_le_left _ _, by omega, rfl⟩⟩

/-- The loop of `readAll` after the bytes that it has read: they are a prefix of the content. -/
theorem ends_readLoop {fd : Path} {length ino : ℕ} {content : List UInt8} (calls : ℕ)
    (hm : H → Healthy m) (hfile : m.files fd = some ⟨ino, .regular content⟩)
    (hlen : length ≤ content.length) {done : ℕ} (hdone : done ≤ length) :
    Ends (readLoop fd length calls (content.take done)) m
      (fun r m' => m'.files = m.files ∧ (H → Healthy m') ∧
        (r = .ok (some (content.take length)) ∨ ¬ H ∧ ∃ e, r = .error e))
      fun m' => m'.files = m.files := by
  induction calls generalizing m done with
  | zero => exact rfl
  | succ calls ih =>
    have htake : (content.take done).length = done := by
      rw [List.length_take]
      omega
    unfold readLoop
    rw [ends_ite, htake]
    split_ifs with hend
    · rw [ends_pure, Nat.le_antisymm hdone hend]
      exact ⟨rfl, hm, .inl rfl⟩
    rw [ends_bind]
    refine (ends_read hm hfile).mono ?_ fun _ h => h
    rintro r m' ⟨hfiles, hm', ⟨n, hn, hpos, rfl⟩ | ⟨hH, e, rfl⟩⟩
    · have hpos := hpos (by omega)
      have hdata : ((content.drop done).take n).length = n := by
        rw [List.length_take, List.length_drop]
        omega
      have hnext : content.take done ++ (content.drop done).take n = content.take (done + n) := by
        rw [List.take_add]
      rcases hd : (content.drop done).take n with _ | ⟨b, bytes⟩
      · rw [hd] at hdata
        simp only [List.length_nil] at hdata
        omega
      · dsimp only
        rw [← hd, hnext]
        have hle : done + n ≤ length := by omega
        refine (ih hm' (by rw [hfiles, hfile]) hle).mono ?_ ?_
        · rintro r m'' ⟨h, h'⟩
          exact ⟨h.trans hfiles, h'⟩
        · exact fun m'' h => h.trans hfiles
    · have hrest : ∀ e, Ends (pure (.error e) : Sys (Except Errno (Option (List UInt8)))) m'
          (fun r m' => m'.files = m.files ∧ (H → Healthy m') ∧
            (r = .ok (some (content.take length)) ∨ ¬ H ∧ ∃ e, r = .error e))
          fun m' => m'.files = m.files :=
        fun e => ⟨hfiles, hm', .inr ⟨hH, e, rfl⟩⟩
      -- only an interrupted call is tried again
      by_cases he : e = .EINTR
      · subst he
        refine (ih hm' (by rw [hfiles, hfile]) hdone).mono ?_ ?_
        · rintro r m'' ⟨h, h'⟩
          exact ⟨h.trans hfiles, h'⟩
        · exact fun m'' h => h.trans hfiles
      · cases e <;> first | exact absurd rfl he | exact hrest _

/-- **What `readAll` reads.** Of a file that is long enough it reads the first bytes, and it does
where no call fails. -/
theorem ends_readAll {fd : Path} {length ino : ℕ} {content : List UInt8} (hm : H → Healthy m)
    (hfile : m.files fd = some ⟨ino, .regular content⟩) (hlen : length ≤ content.length) :
    Ends (readAll fd length) m
      (fun r m' => m'.files = m.files ∧ (H → Healthy m') ∧
        (r = .ok (some (content.take length)) ∨ ¬ H ∧ ∃ e, r = .error e))
      fun m' => m'.files = m.files := by
  simp only [readAll, ends_bind, ends_get]
  exact ends_readLoop (m.script.length + 1) hm hfile hlen (Nat.zero_le _)

/-- Repeating a read reads as the read does. -/
theorem ends_retryLoop_read {fd : Path} {offset count ino : ℕ} {content : List UInt8} (calls : ℕ)
    (hm : H → Healthy m) (hfile : m.files fd = some ⟨ino, .regular content⟩) :
    Ends (retryLoop (read fd offset count) calls) m
      (fun r m' => m'.files = m.files ∧ (H → Healthy m') ∧
        ((∃ n ≤ count, (0 < count → 0 < n) ∧ r = .ok ((content.drop offset).take n)) ∨
          ¬ H ∧ ∃ e, r = .error e))
      fun m' => m'.files = m.files := by
  induction calls generalizing m with
  | zero => exact rfl
  | succ calls ih =>
    unfold retryLoop
    rw [ends_bind]
    refine (ends_read hm hfile).mono ?_ fun _ h => h
    rintro r m' ⟨hf, hm', hr⟩
    split
    · refine (ih hm' (by rw [hf, hfile])).mono (fun _ _ h => ?_) fun _ h => h.trans hf
      exact ⟨h.1.trans hf, h.2⟩
    · exact ⟨hf, hm', hr⟩

theorem ends_retry_read {fd : Path} {offset count ino : ℕ} {content : List UInt8}
    (hm : H → Healthy m) (hfile : m.files fd = some ⟨ino, .regular content⟩) :
    Ends (retry (read fd offset count)) m
      (fun r m' => m'.files = m.files ∧ (H → Healthy m') ∧
        ((∃ n ≤ count, (0 < count → 0 < n) ∧ r = .ok ((content.drop offset).take n)) ∨
          ¬ H ∧ ∃ e, r = .error e))
      fun m' => m'.files = m.files := by
  simp only [retry, ends_bind, ends_get]
  exact ends_retryLoop_read (m.script.length + 1) hm hfile

/-- **What `readWhole` reads**: the whole file. -/
theorem ends_readWhole {fd : Path} {ino : ℕ} {content : List UInt8} (hm : H → Healthy m)
    (hfile : m.files fd = some ⟨ino, .regular content⟩) :
    Ends (readWhole fd content.length) m
      (fun r m' => m'.files = m.files ∧ (H → Healthy m') ∧
        (r = .ok (some content) ∨ ¬ H ∧ ∃ e, r = .error e))
      fun m' => m'.files = m.files := by
  unfold readWhole
  rw [ends_bind]
  refine (ends_readAll hm hfile le_rfl).mono ?_ fun _ h => h
  rintro r m₁ ⟨hf₁, hm₁, rfl | ⟨hH, e, rfl⟩⟩
  swap
  · exact ⟨hf₁, hm₁, .inr ⟨hH, e, rfl⟩⟩
  dsimp only
  rw [ends_bind, List.take_length]
  refine (ends_retry_read hm₁ (by rw [hf₁, hfile])).mono ?_ fun _ h => h.trans hf₁
  rintro r m₂ ⟨hf₂, hm₂, ⟨n, -, -, rfl⟩ | ⟨hH, e, rfl⟩⟩
  · dsimp only
    rw [List.drop_length, List.take_nil, if_pos rfl]
    exact ⟨hf₂.trans hf₁, hm₂, .inl rfl⟩
  · exact ⟨hf₂.trans hf₁, hm₂, .inr ⟨hH, e, rfl⟩⟩

end Reads

/-! ### Programs that return -/

/-- Where no call fails on its own, the program returns after at most `k` calls. -/
def Finishes {α : Type} (k : ℕ) (p : Sys α) : Prop :=
  ∀ m, Healthy m → k ≤ m.script.length →
    ∃ a m', p m = (some a, m') ∧ Healthy m' ∧ m.script.length ≤ m'.script.length + k

section Finishes

variable {α β : Type} {p q : Sys α} {j k : ℕ}

theorem Finishes.pure (a : α) : Finishes k (Pure.pure a : Sys α) :=
  fun m hm _ => ⟨a, m, rfl, hm, Nat.le_add_right _ _⟩

theorem Finishes.bind {f : α → Sys β} (hp : Finishes j p) (hf : ∀ a, Finishes k (f a)) :
    Finishes (j + k) (p >>= f) := by
  intro m hm hk
  obtain ⟨a, m', hpm, hm', hj⟩ := hp m hm (by omega)
  obtain ⟨b, m'', hfm, hm'', hk'⟩ := hf a m' hm' (by omega)
  exact ⟨b, m'', (bind_of_eq hpm).trans hfm, hm'', by omega⟩

theorem Finishes.ite {c : Prop} [Decidable c] (hp : Finishes k p) (hq : Finishes k q) :
    Finishes k (if c then p else q) := by
  split_ifs
  exacts [hp, hq]

theorem Finishes.mono (hp : Finishes j p) (hjk : j ≤ k) : Finishes k p := by
  intro m hm hk
  obtain ⟨a, m', hpm, hm', hj⟩ := hp m hm (by omega)
  exact ⟨a, m', hpm, hm', by omega⟩

/-- A call that does not fail on its own has its effect. -/
theorem syscall_of_healthy (act : ℕ → Machine → Except Errno α × Machine) {m : Machine}
    (hm : Healthy m) (hlen : 0 < m.script.length) :
    ∃ amount script, m.script = .succeed amount :: script ∧ Healthy { m with script } ∧
      syscall act m =
        (some (act amount { m with script }).1, (act amount { m with script }).2) := by
  unfold Healthy syscall at *
  rcases hs : m.script with _ | ⟨fate, script⟩
  · simp [hs] at hlen
  · obtain ⟨amount, rfl⟩ := hm fate (by simp [hs])
    exact ⟨amount, script, rfl, fun f hf => hm f (by simp [hs, hf]), rfl⟩

theorem finishes_query (answer : (Path → Option Node) → Except Errno α) :
    Finishes 1 (query answer) := by
  intro m hm hlen
  obtain ⟨amount, script, hs, hm', he⟩ := syscall_of_healthy
    (fun _ m => (answer m.files, m)) hm hlen
  exact ⟨_, _, he, hm', by simp [hs]⟩

theorem finishes_fstat (fd : Path) : Finishes 1 (fstat fd) := by
  unfold fstat lstat
  exact finishes_query _

theorem finishes_malloc : Finishes 1 malloc := by
  refine Finishes.bind (k := 0) (finishes_query _) fun r => ?_
  cases r <;> exact Finishes.pure _

theorem read_of_healthy {m : Machine} (fd : Path) (offset count : ℕ) (hm : Healthy m)
    (hlen : 0 < m.script.length) :
    ∃ r m', read fd offset count m = (some r, m') ∧ Healthy m' ∧
      m'.script.length + 1 = m.script.length ∧ r ≠ .error .EINTR := by
  unfold read
  obtain ⟨amount, script, hs, hm', he⟩ := syscall_of_healthy
    (fun amount m =>
      match (m.files fd).map Node.kind with
      | some (.regular content) =>
        (.ok ((content.drop offset).take (min count (max amount 1))), m)
      | _ => (.error .EISDIR, m)) hm hlen
  refine ⟨_, _, he, ?_⟩
  split <;> exact ⟨hm', by simp [hs], by simp⟩

theorem finishes_readAll (fd : Path) (length : ℕ) : Finishes length (readAll fd length) := by
  intro m hm hlen
  change ∃ a m', readLoop fd length (m.script.length + 1) [] m = (some a, m') ∧ _
  -- every call reads a byte, unless it is the last one
  suffices h : ∀ calls done (m : Machine), Healthy m → length - done.length ≤ m.script.length →
      length - done.length < calls →
      ∃ a m', readLoop fd length calls done m = (some a, m') ∧ Healthy m' ∧
        m.script.length ≤ m'.script.length + (length - done.length) by
    simpa using h (m.script.length + 1) [] m hm (by simpa using hlen) (by simp; omega)
  intro calls
  induction calls with
  | zero => exact fun _ _ _ _ h => absurd h (Nat.not_lt_zero _)
  | succ calls ih =>
    intro done m hm hlen hcalls
    unfold readLoop
    by_cases hend : length ≤ done.length
    · rw [if_pos hend]
      exact ⟨_, m, rfl, hm, by omega⟩
    rw [if_neg hend]
    obtain ⟨r, m', hread, hm', hlen', hr⟩ :=
      read_of_healthy fd done.length (length - done.length) hm (by omega)
    rw [bind_of_eq hread]
    rcases r with e | _ | ⟨b, bytes⟩
    · cases e <;> first | exact absurd rfl hr | exact ⟨_, m', rfl, hm', by omega⟩
    · exact ⟨_, m', rfl, hm', by omega⟩
    · obtain ⟨a, m'', hloop, hm'', hle⟩ := ih (done ++ b :: bytes) m' hm'
        (by simp only [List.length_append, List.length_cons]; omega)
        (by simp only [List.length_append, List.length_cons]; omega)
      simp only [List.length_append, List.length_cons] at hle
      exact ⟨a, m'', hloop, hm'', by omega⟩

end Finishes

theorem ends_write {fd : Path} {data content : List UInt8} {ino : ℕ} {m : Machine}
    (hfile : m.files fd = some ⟨ino, .regular content⟩) :
    Ends (write fd data) m
      (fun r m' => ∃ count ≤ data.length,
        m'.files fd = some ⟨ino, .regular (content ++ data.take count)⟩ ∧
          (r = .ok count ∨ ∃ e, r = .error e ∧ count = 0))
      fun _ => True := by
  refine ends_syscall (H := False) False.elim trivial (fun _ f script => ?_)
    fun amount script _ => ?_
  · exact ⟨0, Nat.zero_le _, by simpa using hfile, .inr ⟨f.errno, rfl, rfl⟩⟩
  · refine ⟨min amount data.length, min_le_right _ _, ?_⟩
    simp [hfile]

/-- **What `writeAll` writes.** Where it succeeds, the file has grown by all of `data`. -/
theorem ends_writeAll {fd : Path} {data content : List UInt8} {ino : ℕ} {m : Machine}
    (hfile : m.files fd = some ⟨ino, .regular content⟩) :
    Ends (writeAll fd data) m
      (fun r m' => r = .ok () → m'.files fd = some ⟨ino, .regular (content ++ data)⟩)
      fun _ => True := by
  simp only [writeAll, ends_bind, ends_get]
  generalize m.script.length + 1 = calls
  -- on the bound of the loop; what was written so far is part of the content
  induction calls generalizing data content m with
  | zero => trivial
  | succ calls ih =>
    unfold writeLoop
    rw [ends_ite]
    split_ifs with hnil
    · subst hnil
      rw [ends_pure]
      exact fun _ => by simpa using hfile
    · rw [ends_bind]
      refine (ends_write hfile).mono ?_ fun _ h => h
      rintro r m' ⟨count, hle, hfile', rfl | ⟨e, rfl, rfl⟩⟩
      · cases count with
        | zero =>
          rw [ends_pure]
          exact fun h => by cases h
        | succ count =>
          refine (ih hfile').mono (fun r m'' h hr => ?_) fun _ h => h
          rw [h hr, List.append_assoc, List.take_append_drop]
      · -- a call that failed has written nothing; an interrupted one is tried again
        have hfile'' : m'.files fd = some ⟨ino, .regular content⟩ := by simpa using hfile'
        split
        · exact ih hfile''
        · rw [ends_pure]
          exact fun h => by cases h
        · simp_all
        · simp_all

theorem ends_openCreate {t : Path} {m : Machine} :
    Ends (openCreate t) m
      (fun r m' => r = .ok () → ∃ ino, m'.files t = some ⟨ino, .regular []⟩) fun _ => True := by
  refine ends_syscall (H := False) False.elim trivial (fun _ f script => ?_)
    fun amount script _ => ?_
  · exact fun h => by cases h
  · dsimp only
    split
    · exact fun h => by cases h
    · exact fun _ => ⟨m.fresh, by simp⟩

theorem ends_mkdir {p : Path} {m : Machine} :
    Ends (mkdir p) m
      (fun r m' => (∀ q, q ≠ p → m'.files q = m.files q) ∧
        (r = .ok () → (m'.files p).map Node.kind = some .directory) ∧
        (r ≠ .ok () → m'.files = m.files))
      fun m' => m'.files = m.files := by
  refine ends_syscall (H := False) False.elim rfl (fun _ f script => ?_) fun amount script _ => ?_
  · exact ⟨fun _ _ => rfl, fun h => (by cases h), fun _ => rfl⟩
  · dsimp only
    split
    · exact ⟨fun _ _ => rfl, fun h => (by cases h), fun _ => rfl⟩
    · exact ⟨fun q hq => Function.update_of_ne hq _ _, fun _ => by simp, fun h => absurd rfl h⟩

/-- **`rename` replaces the entry at the new path or changes nothing.** -/
theorem ends_rename {t p : Path} (hne : p ≠ t) {n : Node} {m : Machine}
    (hfile : m.files t = some n) :
    Ends (rename t p) m
      (fun r m' => (r = .ok () ∧ m'.files p = some n ∧ m'.files t = none ∧
          ∀ q, q ≠ t → q ≠ p → m'.files q = m.files q) ∨
        ((∃ e, r = .error e) ∧ m'.files = m.files))
      fun m' => m'.files = m.files := by
  refine ends_syscall (H := False) False.elim rfl (fun _ f script => .inr ⟨⟨_, rfl⟩, rfl⟩)
    fun amount script _ => ?_
  dsimp only
  rw [hfile]
  dsimp only
  split_ifs
  · exact .inr ⟨⟨_, rfl⟩, rfl⟩
  · refine .inl ⟨rfl, by simp, ?_, fun q hqt hqp => ?_⟩
    · simp [Function.update_of_ne hne.symm]
    · simp [Function.update_of_ne hqp, Function.update_of_ne hqt]

end Posix
