import CrossNook.Identity.DeviceIdentity

/-!
# Agreement on the device identity

Processes that load and create the device identity of one store, in any interleaving of their
system calls. The file is created in place and filled afterwards, so a process may see any
beginning of it, and a process that fails to fill it removes it again.

## Main definitions

* `DeviceIdentity.Shared`: the files that the processes share
* `DeviceIdentity.effect`: what the system calls do to them
* `DeviceIdentity.contract`: the invariant, and what each process may do to the files

## Main results

* `DeviceIdentity.processes_agree`: all identifiers that the processes return are the one of the
  file
-/

namespace DeviceIdentity

open Posix Interleave

/-! ## The shared files -/

/-- A file and the process that created it, which no system call can see. -/
structure Inode (ι : Type) where
  node : Node
  creator : Option ι

/-- The files, of which a process may have any open, and the one that is at the path of the store.
A descriptor is the place of its file in the list. -/
structure Shared (ι : Type) where
  inodes : List (Inode ι)
  entry : Option ℕ

/-- What the environment decides at a call: its fate, the inode number of a new file, what is known
of the directory, and the random bytes. -/
structure Choice where
  fate : Fate
  ino : ℕ
  directory : Except Errno Node
  entropy : Option (Fin 16 → UInt8)

/-- A call that changes nothing. -/
def Choice.answer {α : Type} (choice : Choice) (reply : ℕ → Except Errno α) : Except Errno α :=
  match choice.fate with
  | .fail f => .error f.errno
  | .succeed amount => reply amount

/-- A call that changes the files where it succeeds. -/
def Choice.change {ι α : Type} (choice : Choice) (s : Shared ι)
    (act : ℕ → Except Errno α × Shared ι) : Except Errno α × Shared ι :=
  match choice.fate with
  | .fail f => (.error f.errno, s)
  | .succeed amount => act amount

variable {ι : Type}

/-- An open file. -/
def Shared.node (s : Shared ι) (fd : ℕ) : Except Errno Node :=
  match s.inodes[fd]? with
  | none => .error .eio
  | some inode => .ok inode.node

/-- The file at the path of the store. -/
def Shared.atPath (s : Shared ι) : Except Errno (ℕ × Node) :=
  match s.entry with
  | none => .error .ENOENT
  | some fd => (s.node fd).map fun node => (fd, node)

/-- `open` for reading with `O_NOFOLLOW`. -/
def Shared.openRead (s : Shared ι) : Except Errno ℕ :=
  match s.atPath with
  | .error e => .error e
  | .ok (_, ⟨_, .symlink _⟩) => .error .ELOOP
  | .ok (fd, _) => .ok fd

/-- `read` of at most `count` bytes after the first `offset` ones: at least one byte, unless none
is left. -/
def Shared.read (s : Shared ι) (fd offset count amount : ℕ) : Except Errno (List UInt8) :=
  match s.node fd with
  | .ok ⟨_, .regular content⟩ => .ok ((content.drop offset).take (min count (max amount 1)))
  | _ => .error .EISDIR

/-- `open` with `O_WRONLY`, `O_CREAT` and `O_EXCL`, by the process `i`. -/
def Shared.openCreate (s : Shared ι) (i : ι) (ino : ℕ) : Except Errno ℕ × Shared ι :=
  match s.entry with
  | some _ => (.error .EEXIST, s)
  | none => (.ok s.inodes.length,
      ⟨s.inodes ++ [⟨⟨ino, .regular []⟩, some i⟩], some s.inodes.length⟩)

/-- `write` at the end of the file, perhaps short. -/
def Shared.write (s : Shared ι) (fd : ℕ) (data : List UInt8) (amount : ℕ) :
    Except Errno ℕ × Shared ι :=
  match s.inodes[fd]? with
  | some ⟨⟨ino, .regular content⟩, creator⟩ =>
    let count := min amount data.length
    (.ok count, { s with
      inodes := s.inodes.set fd ⟨⟨ino, .regular (content ++ data.take count)⟩, creator⟩ })
  | _ => (.error .eio, s)

/-- `unlink`. -/
def Shared.unlink (s : Shared ι) : Except Errno Unit × Shared ι :=
  match s.atPath with
  | .error e => (.error e, s)
  | .ok (_, ⟨_, .directory⟩) => (.error .EISDIR, s)
  | .ok _ => (.ok (), { s with entry := none })

/-- What the system calls of the process `i` do. -/
def effect : Effects calls ι (Shared ι) Choice
  | _, choice, .lstat, s => (choice.answer fun _ => s.atPath.map Prod.snd, s)
  | _, choice, .openRead, s => (choice.answer fun _ => s.openRead, s)
  | _, choice, .fstat fd, s => (choice.answer fun _ => s.node fd, s)
  | _, choice, .read fd offset count, s => (choice.answer (s.read fd offset count), s)
  | i, choice, .openCreate, s => choice.change s fun _ => s.openCreate i choice.ino
  | _, choice, .write fd data, s => choice.change s (s.write fd data)
  | _, choice, .fsync _, s => (choice.answer fun _ => .ok (), s)
  | _, choice, .close _, s => (choice.answer fun _ => .ok (), s)
  | _, choice, .unlink, s => choice.change s fun _ => s.unlink
  | _, choice, .entropy, s => (choice.entropy, s)
  | _, choice, .lstatDirectory, s => (choice.directory, s)
  | _, choice, .openDirectory, s => (choice.directory.map fun _ => (), s)
  | _, choice, .fstatDirectory, s => (choice.directory, s)
  | _, choice, .fsyncDirectory, s => (choice.answer fun _ => .ok (), s)
  | _, choice, .closeDirectory, s => (choice.answer fun _ => .ok (), s)

/-- A call that changes nothing. -/
class Quiet (c : Call) : Prop where
  unchanged : ∀ {ι : Type} (i : ι) choice s, (effect i choice c s).2 = s

instance : Quiet .lstat := ⟨fun _ _ _ => rfl⟩
instance : Quiet .openRead := ⟨fun _ _ _ => rfl⟩
instance (fd : ℕ) : Quiet (.fstat fd) := ⟨fun _ _ _ => rfl⟩
instance (fd offset count : ℕ) : Quiet (.read fd offset count) := ⟨fun _ _ _ => rfl⟩
instance (fd : ℕ) : Quiet (.fsync fd) := ⟨fun _ _ _ => rfl⟩
instance (fd : ℕ) : Quiet (.close fd) := ⟨fun _ _ _ => rfl⟩
instance : Quiet .entropy := ⟨fun _ _ _ => rfl⟩
instance : Quiet .lstatDirectory := ⟨fun _ _ _ => rfl⟩
instance : Quiet .openDirectory := ⟨fun _ _ _ => rfl⟩
instance : Quiet .fstatDirectory := ⟨fun _ _ _ => rfl⟩
instance : Quiet .fsyncDirectory := ⟨fun _ _ _ => rfl⟩
instance : Quiet .closeDirectory := ⟨fun _ _ _ => rfl⟩

/-! ## The contract -/

/-- The file is a regular one with the given content. -/
def Shared.File (s : Shared ι) (fd : ℕ) (content : List UInt8) : Prop :=
  ∃ ino creator, s.inodes[fd]? = some ⟨⟨ino, .regular content⟩, creator⟩

/-- The file is a complete identity file. -/
def Shared.Complete (s : Shared ι) (fd : ℕ) (id : List UInt8) : Prop :=
  ∃ content, s.File fd content ∧ parseIdentity content = .ok id

/-- A complete identity file is at the path of the store. -/
def Shared.Stores (s : Shared ι) (id : List UInt8) : Prop :=
  ∃ fd, s.entry = some fd ∧ s.Complete fd id

/-- The process `i` has created the file at the path of the store. -/
def Shared.Owns (s : Shared ι) (i : ι) (fd : ℕ) (content : List UInt8) : Prop :=
  (∃ ino, s.inodes[fd]? = some ⟨⟨ino, .regular content⟩, some i⟩) ∧ s.entry = some fd

/-- Bytes that have been read of a file. -/
def Shared.Begins (s : Shared ι) (fd : ℕ) (data : List UInt8) : Prop :=
  ∃ content, s.File fd content ∧ data <+: content

/-- A complete file is the one at the path of the store. -/
structure Inv (s : Shared ι) : Prop where
  entry_lt : ∀ fd, s.entry = some fd → fd < s.inodes.length
  entry_of_complete : ∀ fd id, s.Complete fd id → s.entry = some fd

/-- What a process may do: files only grow, the files of others stay as and where they are, and so
do the complete ones. -/
structure Guar (i : ι) (s s' : Shared ι) : Prop where
  grows : ∀ fd content, s.File fd content → ∃ content', s'.File fd content' ∧ content <+: content'
  spares : ∀ fd inode, s.inodes[fd]? = some inode → inode.creator ≠ some i →
    s'.inodes[fd]? = some inode ∧ (s.entry = some fd → s'.entry = some fd)
  keeps : ∀ fd id, s.Complete fd id → s'.inodes[fd]? = s.inodes[fd]? ∧ s'.entry = s.entry

/-- The contract between the processes. -/
def contract : Contract ι (Shared ι) := ⟨Inv, Guar⟩

theorem Guar.refl (i : ι) (s : Shared ι) : Guar i s s :=
  ⟨fun _ content h => ⟨content, h, List.prefix_rfl⟩, fun _ _ h _ => ⟨h, id⟩,
    fun _ _ _ => ⟨rfl, rfl⟩⟩

section Contract

variable {s s' : Shared ι} {i j : ι} {fd : ℕ} {content id id' : List UInt8}

theorem Shared.Owns.file (h : s.Owns i fd content) : s.File fd content := by
  obtain ⟨⟨ino, h⟩, -⟩ := h
  exact ⟨ino, some i, h⟩

theorem Shared.File.unique {content' : List UInt8} (h : s.File fd content)
    (h' : s.File fd content') : content = content' := by
  obtain ⟨ino, creator, h⟩ := h
  obtain ⟨ino', creator', h'⟩ := h'
  rw [h] at h'
  cases h'
  rfl

/-- There is one identifier. -/
theorem Shared.Stores.unique (h : s.Stores id) (h' : s.Stores id') : id = id' := by
  obtain ⟨fd, hentry, content, hfile, hid⟩ := h
  obtain ⟨fd', hentry', content', hfile', hid'⟩ := h'
  rw [hentry] at hentry'
  cases hentry'
  rw [hfile.unique hfile', hid'] at hid
  cases hid
  rfl

theorem Guar.file (h : Guar i s s') (hcomplete : s.Complete fd id) (hfile : s.File fd content) :
    s'.File fd content := by
  obtain ⟨ino, creator, hino⟩ := hfile
  exact ⟨ino, creator, by rw [(h.keeps fd id hcomplete).1, hino]⟩

theorem Guar.stores (h : Guar i s s') (hs : s.Stores id) : s'.Stores id := by
  obtain ⟨fd, hentry, content, hfile, hid⟩ := hs
  have hcomplete : s.Complete fd id := ⟨content, hfile, hid⟩
  exact ⟨fd, by rw [(h.keeps fd id hcomplete).2, hentry], content, h.file hcomplete hfile, hid⟩

theorem stable_stores (i : ι) (id : List UInt8) :
    (contract (ι := ι)).Stable i fun s => s.Stores id :=
  fun _ _ _ _ hg _ hs => Guar.stores hg hs

theorem stable_begins (i : ι) (fd : ℕ) (data : List UInt8) :
    (contract (ι := ι)).Stable i fun s => s.Begins fd data := by
  rintro j - s s' hg - ⟨content, hfile, hdata⟩
  obtain ⟨content', hfile', hgrows⟩ := Guar.grows hg fd content hfile
  exact ⟨content', hfile', hdata.trans hgrows⟩

theorem stable_owns (i : ι) (fd : ℕ) (content : List UInt8) :
    (contract (ι := ι)).Stable i fun s => s.Owns i fd content := by
  rintro j hj s s' hg - ⟨⟨ino, hino⟩, hentry⟩
  obtain ⟨hino', hentry'⟩ := Guar.spares hg fd _ hino (by simpa using Ne.symm hj)
  exact ⟨⟨ino, hino'⟩, hentry' hentry⟩

end Contract

/-! ## What the calls do -/

/-- Content that is not, or not yet, an identity file. -/
def Unfinished (content : List UInt8) : Prop := ∀ id, parseIdentity content ≠ .ok id

section Effects

variable {s : Shared ι} {i : ι} {fd : ℕ} {content : List UInt8}

theorem Shared.Complete.lt {id : List UInt8} (h : s.Complete fd id) : fd < s.inodes.length := by
  obtain ⟨_, ⟨_, _, h⟩, _⟩ := h
  exact (List.getElem?_eq_some_iff.mp h).1

theorem Shared.Owns.not_complete (howns : s.Owns i fd content) (hcontent : Unfinished content)
    (id : List UInt8) : ¬ s.Complete fd id := by
  rintro ⟨content', hfile, hid⟩
  rw [← howns.file.unique hfile] at hid
  exact hcontent id hid

/-- While a process owns an unfinished file no file is complete. -/
theorem Inv.not_complete (hs : Inv s) (howns : s.Owns i fd content)
    (hcontent : Unfinished content) (fd' : ℕ) (id : List UInt8) : ¬ s.Complete fd' id := by
  intro h
  have hentry := hs.entry_of_complete fd' id h
  rw [howns.2] at hentry
  cases hentry
  exact howns.not_complete hcontent id h

/-- **The owner of an unfinished file extends it.** -/
theorem guar_extend (hs : Inv s) {ino : ℕ}
    (hino : s.inodes[fd]? = some ⟨⟨ino, .regular content⟩, some i⟩) (hentry : s.entry = some fd)
    (hcontent : Unfinished content) (data : List UInt8) :
    let s' : Shared ι :=
      { s with inodes := s.inodes.set fd ⟨⟨ino, .regular (content ++ data)⟩, some i⟩ }
    Guar i s s' ∧ Inv s' ∧ s'.Owns i fd (content ++ data) := by
  have howns : s.Owns i fd content := ⟨⟨ino, hino⟩, hentry⟩
  have hlt : fd < s.inodes.length := (List.getElem?_eq_some_iff.mp hino).1
  intro s'
  -- the write changes this file and no other
  have hself : s'.inodes[fd]? = some ⟨⟨ino, .regular (content ++ data)⟩, some i⟩ :=
    List.getElem?_set_self hlt
  have hother : ∀ fd', fd' ≠ fd → s'.inodes[fd']? = s.inodes[fd']? :=
    fun fd' h => List.getElem?_set_ne (Ne.symm h)
  refine ⟨⟨?_, ?_, ?_⟩, ⟨?_, ?_⟩, ⟨ino, hself⟩, hentry⟩
  · rintro fd' content' hfile
    by_cases h : fd' = fd
    · subst h
      rw [← howns.file.unique hfile]
      exact ⟨content ++ data, ⟨ino, some i, hself⟩, List.prefix_append _ _⟩
    · obtain ⟨ino', creator', hino'⟩ := hfile
      exact ⟨content', ⟨ino', creator', (hother fd' h).trans hino'⟩, List.prefix_rfl⟩
  · rintro fd' inode hinode hcreator
    have h : fd' ≠ fd := by
      rintro rfl
      rw [hino] at hinode
      cases hinode
      exact hcreator rfl
    exact ⟨(hother fd' h).trans hinode, fun h => h⟩
  · -- an unfinished file has the name, so no other is complete
    exact fun fd' id h => absurd h (hs.not_complete howns hcontent fd' id)
  · intro fd' h
    rw [List.length_set]
    exact hs.entry_lt fd' h
  · rintro fd' id ⟨content', ⟨ino', creator', hino'⟩, hid⟩
    by_cases h : fd' = fd
    · rw [h]
      exact hentry
    · rw [hother fd' h] at hino'
      exact hs.entry_of_complete fd' id ⟨content', ⟨ino', creator', hino'⟩, hid⟩

/-- **A process creates the file.** -/
theorem guar_openCreate (i : ι) (choice : Choice) (hs : Inv s) :
    Guar i s (effect i choice .openCreate s).2 ∧ Inv (effect i choice .openCreate s).2 ∧
      ∀ fd, (effect i choice .openCreate s).1 = .ok fd →
        (effect i choice .openCreate s).2.Owns i fd [] := by
  change Guar i s (choice.change s _).2 ∧ Inv (choice.change s _).2 ∧
    ∀ fd, (choice.change s _).1 = .ok fd → (choice.change s _).2.Owns i fd []
  unfold Choice.change
  split
  · exact ⟨Guar.refl i s, hs, fun fd h => by cases h⟩
  unfold Shared.openCreate
  split
  · exact ⟨Guar.refl i s, hs, fun fd h => by cases h⟩
  rename_i hentry
  -- the name is free, so no file under it is complete
  have hnone : ∀ fd id, ¬ s.Complete fd id := fun fd id h => by
    have := hs.entry_of_complete fd id h
    rw [hentry] at this
    cases this
  -- the file is added behind the others, which stay where they are
  have hold : ∀ (fd : ℕ) inode, s.inodes[fd]? = some inode →
      (s.inodes ++ [⟨⟨choice.ino, .regular []⟩, some i⟩])[fd]? = some inode := by
    intro fd inode h
    rw [List.getElem?_append_left (List.getElem?_eq_some_iff.mp h).1, h]
  have hnew : (s.inodes ++ [⟨⟨choice.ino, .regular []⟩, some i⟩])[s.inodes.length]? =
      some ⟨⟨choice.ino, .regular []⟩, some i⟩ := by
    simp
  refine ⟨⟨?_, ?_, ?_⟩, ⟨?_, ?_⟩, ?_⟩
  · rintro fd content ⟨ino, creator, h⟩
    exact ⟨content, ⟨ino, creator, hold fd _ h⟩, List.prefix_rfl⟩
  · exact fun fd inode h _ => ⟨hold fd inode h, fun h' => by rw [hentry] at h'; cases h'⟩
  · exact fun fd id h => absurd h (hnone fd id)
  · rintro fd h
    cases h
    simp
  · rintro fd id ⟨content, ⟨ino, creator, h⟩, hid⟩
    rcases lt_trichotomy fd s.inodes.length with hlt | rfl | hgt
    · rw [List.getElem?_append_left hlt] at h
      exact absurd ⟨content, ⟨ino, creator, h⟩, hid⟩ (hnone fd id)
    · rfl
    · rw [List.getElem?_eq_none (by simp; omega)] at h
      cases h
  · rintro fd h
    cases h
    exact ⟨⟨choice.ino, hnew⟩, rfl⟩

/-- **The owner of an unfinished file writes to it.** -/
theorem guar_write (choice : Choice) (data : List UInt8) (hs : Inv s)
    (howns : s.Owns i fd content) (hcontent : Unfinished content) :
    Guar i s (effect i choice (.write fd data) s).2 ∧ Inv (effect i choice (.write fd data) s).2 ∧
      ((∃ e, (effect i choice (.write fd data) s).1 = .error e ∧
          (effect i choice (.write fd data) s).2.Owns i fd content) ∨
        ∃ count ≤ data.length, (effect i choice (.write fd data) s).1 = .ok count ∧
          (effect i choice (.write fd data) s).2.Owns i fd (content ++ data.take count)) := by
  obtain ⟨⟨ino, hino⟩, hentry⟩ := howns
  change Guar i s (choice.change s (s.write fd data)).2 ∧ Inv (choice.change s (s.write fd data)).2 ∧
    ((∃ e, (choice.change s (s.write fd data)).1 = .error e ∧
        (choice.change s (s.write fd data)).2.Owns i fd content) ∨
      ∃ count ≤ data.length, (choice.change s (s.write fd data)).1 = .ok count ∧
        (choice.change s (s.write fd data)).2.Owns i fd (content ++ data.take count))
  unfold Choice.change
  split
  · exact ⟨Guar.refl i s, hs, .inl ⟨_, rfl, ⟨ino, hino⟩, hentry⟩⟩
  rename_i amount _
  unfold Shared.write
  rw [hino]
  dsimp only
  obtain ⟨hguar, hinv, howns⟩ :=
    guar_extend hs hino hentry hcontent (data.take (min amount data.length))
  exact ⟨hguar, hinv, .inr ⟨_, min_le_right _ _, rfl, howns⟩⟩

/-- **The owner of an unfinished file removes it.** -/
theorem guar_unlink (choice : Choice) (hs : Inv s) (howns : s.Owns i fd content)
    (hcontent : Unfinished content) :
    Guar i s (effect i choice .unlink s).2 ∧ Inv (effect i choice .unlink s).2 := by
  have hnone := hs.not_complete howns hcontent
  change Guar i s (choice.change s fun _ => s.unlink).2 ∧ Inv (choice.change s fun _ => s.unlink).2
  unfold Choice.change
  split
  · exact ⟨Guar.refl i s, hs⟩
  unfold Shared.unlink
  split
  · exact ⟨Guar.refl i s, hs⟩
  · exact ⟨Guar.refl i s, hs⟩
  refine ⟨⟨?_, ?_, ?_⟩, ⟨?_, ?_⟩⟩
  · exact fun fd' content' h => ⟨content', h, List.prefix_rfl⟩
  · refine fun fd' inode hinode hcreator => ⟨hinode, fun h => ?_⟩
    -- the file that is removed is the one of the process
    obtain ⟨⟨ino, hino⟩, hentry⟩ := howns
    rw [hentry] at h
    cases h
    rw [hino] at hinode
    cases hinode
    exact absurd rfl hcreator
  · exact fun fd' id h => absurd h (hnone fd' id)
  · exact fun fd' h => by cases h
  · exact fun fd' id h => absurd h (hnone fd' id)

end Effects

/-! ## What each process does -/

/-- An answer with an identifier. -/
def Answer.Identifies (answer : Answer) : Prop := answer.result = .ok ∨ answer.result = .created

/-- The identifier of an answer is the one of the file. -/
def Established (answer : Answer) (s : Shared ι) : Prop :=
  answer.Identifies → s.Stores answer.output

/-- A program of the process `i` that keeps the contract. -/
abbrev Keeps {α : Type} (i : ι) (Q : α → Shared ι → Prop) (p : Program α) (s : Shared ι) : Prop :=
  Safe effect contract i Q p s

section Programs

variable {i : ι} {s : Shared ι} {α : Type} {Q : α → Shared ι → Prop} {P : Shared ι → Prop}

theorem stable_established (i : ι) (answer : Answer) :
    (contract (ι := ι)).Stable i (Established answer) :=
  fun j hj s s' hg hinv h hid => stable_stores i _ j hj s s' hg hinv (h hid)

theorem established_failed {status : Status} (hok : status.1 ≠ .ok) (hcreated : status.1 ≠ .created) :
    Established (failed status) s := by
  rintro (h | h)
  exacts [absurd h hok, absurd h hcreated]

theorem filesystemError_ne (e : Errno) :
    filesystemError e ≠ .ok ∧ filesystemError e ≠ .created := by
  cases e <;> simp [filesystemError]

theorem established_failure (e : Errno) : Established (failed (failure e)) s :=
  established_failed (filesystemError_ne e).1 (filesystemError_ne e).2

/-- **The rule of a call that changes nothing.** -/
theorem keeps_query {c : Call} [Quiet c] {f : calls.Reply c → Program α}
    (hP : contract.Stable i P) (hp : P s)
    (h : ∀ s₁, P s₁ → Inv s₁ → ∀ choice, Keeps i Q (f (effect i choice c s₁).1) s₁) :
    Keeps i Q (perform (I := calls) c >>= f) s :=
  Safe.query (Guar.refl i) (fun choice s => Quiet.unchanged i choice s) hP hp h

/-- The rule of a call that changes nothing and whose reply does not matter. -/
theorem keeps_any {c : Call} [Quiet c] {f : calls.Reply c → Program α}
    (h : ∀ r s₁, Inv s₁ → Keeps i Q (f r) s₁) :
    Keeps i Q (perform (I := calls) c >>= f) s :=
  keeps_query Contract.stable_true trivial fun s₁ _ hinv _ => h _ s₁ hinv

/-! ### Reading -/

variable {fd length : ℕ} {data : List UInt8}

/-- **What a read adds.** Where it adds nothing all of the file has been read. -/
theorem Shared.Begins.read (h : s.Begins fd data) {count : ℕ} {choice : Choice}
    {bytes : List UInt8} (hr : choice.answer (s.read fd data.length count) = .ok bytes) :
    s.Begins fd (data ++ bytes) ∧ bytes.length ≤ count ∧
      (0 < count → bytes = [] → s.File fd data) := by
  obtain ⟨content, ⟨ino, creator, hino⟩, more, rfl⟩ := h
  unfold Choice.answer at hr
  split at hr
  · cases hr
  rename_i amount _
  -- a read returns at least one byte, if any is left
  have hread : s.read fd data.length count amount =
      .ok (more.take (min count (max amount 1))) := by
    unfold Shared.read Shared.node
    rw [hino]
    dsimp only
    rw [List.drop_left]
  rw [hread] at hr
  cases hr
  refine ⟨⟨_, ⟨ino, creator, hino⟩, ?_⟩, ?_, ?_⟩
  · exact (List.prefix_append_right_inj data).mpr (List.take_prefix _ _)
  · rw [List.length_take]
    omega
  · intro hcount hnil
    rw [List.take_eq_nil_iff] at hnil
    have hmore : more = [] := by
      rcases hnil with h | h
      · omega
      · exact h
    rw [hmore, List.append_nil] at hino
    exact ⟨ino, creator, hino⟩

theorem Choice.answer_eq_ok {β : Type} {choice : Choice} {reply : ℕ → Except Errno β} {b : β}
    (h : choice.answer reply = .ok b) : ∃ amount, reply amount = .ok b := by
  unfold Choice.answer at h
  split at h
  · cases h
  · exact ⟨_, h⟩

theorem Shared.node_eq_ok {node : Node} (h : s.node fd = .ok node) :
    ∃ creator, s.inodes[fd]? = some ⟨node, creator⟩ := by
  unfold Shared.node at h
  split at h
  · cases h
  · rename_i inode hinode
    cases h
    exact ⟨inode.creator, hinode⟩

theorem keeps_readLoop {bound : ℕ} (hbegins : s.Begins fd data) (hlength : data.length ≤ length) :
    Keeps i (fun r s => ∀ data, r = .ok (some data) → s.Begins fd data ∧ data.length = length)
      (readLoop fd length bound data) s := by
  induction bound generalizing data s with
  | zero => trivial
  | succ bound ih =>
    unfold readLoop
    by_cases hend : length ≤ data.length
    · rw [if_pos hend]
      refine safe_pure.mpr ?_
      rintro _ ⟨⟩
      exact ⟨hbegins, le_antisymm hlength hend⟩
    rw [if_neg hend]
    refine keeps_query (stable_begins i fd data) hbegins fun s₁ hs₁ _ choice => ?_
    cases hr : (effect i choice (.read fd data.length (length - data.length)) s₁).1 with
    | error e =>
      cases e with
      | EINTR => exact ih hs₁ hlength
      | _ => exact fun _ h => by cases h
    | ok bytes =>
      obtain ⟨hmore, hcount, -⟩ := hs₁.read hr
      cases bytes with
      | nil => exact fun _ h => by cases h
      | cons b bytes =>
        refine ih hmore ?_
        rw [List.length_append]
        omega

/-- Nothing more is read of a file that has been read. -/
theorem keeps_readExtra {bound : ℕ} (hbegins : s.Begins fd data) :
    Keeps i (fun r s => r = .ok [] → ∀ id, parseIdentity data = .ok id → s.Stores id)
      (readExtra fd data.length bound) s := by
  induction bound generalizing s with
  | zero => trivial
  | succ bound ih =>
    unfold readExtra
    refine keeps_query (stable_begins i fd data) hbegins fun s₁ hs₁ hinv choice => ?_
    cases hr : (effect i choice (.read fd data.length 1) s₁).1 with
    | error e =>
      cases e with
      | EINTR => exact ih hs₁
      | _ => exact fun h => by cases h
    | ok bytes =>
      obtain ⟨-, -, hend⟩ := hs₁.read hr
      -- a file that has been read to its end and is complete is the one at the path
      rintro ⟨⟩ id hid
      have hcomplete : s₁.Complete fd id := ⟨data, hend Nat.one_pos rfl, hid⟩
      exact ⟨fd, hinv.entry_of_complete fd id hcomplete, hcomplete⟩

/-- **A complete file that was read is the one of the store.** -/
theorem keeps_readWhole {bound : ℕ} (hbegins : s.Begins fd []) :
    Keeps i
      (fun r s => ∀ data, r = .ok (some data) → ∀ id, parseIdentity data = .ok id → s.Stores id)
      (readWhole bound fd length) s := by
  unfold readWhole
  refine Safe.bind ((keeps_readLoop hbegins (Nat.zero_le _)).mono fun r s₁ hr => ?_)
  rcases r with e | _ | data
  · exact fun _ h => by cases h
  · exact fun _ h => by cases h
  obtain ⟨hbegins₁, rfl⟩ := hr data rfl
  refine Safe.bind ((keeps_readExtra hbegins₁).mono fun r s₂ hr => ?_)
  rcases r with e | extra
  · exact fun _ h => by cases h
  refine safe_pure.mpr fun data' h => ?_
  split_ifs at h with hextra
  · cases h
    exact hr (by rw [hextra])
  · cases h

theorem keeps_finish {answer : Answer} (h : Established answer s) :
    Keeps i Established (finish fd answer) s := by
  unfold finish
  refine keeps_query (stable_established i answer) h fun s₁ hs₁ _ choice => ?_
  cases (effect i choice (.close fd) s₁).1 with
  | error e =>
    refine safe_pure.mpr ?_
    split_ifs
    · exact established_failed (by simp) (by simp)
    · exact hs₁
  | ok _ => exact hs₁

theorem parseIdentity_ne {result : Result} (h : parseIdentity data = .error result) :
    result ≠ .ok ∧ result ≠ .created := by
  unfold parseIdentity parseLines at h
  repeat' split at h
  all_goals cases h <;> simp

theorem keeps_readFile {bound ino : ℕ} {errno : Option Errno} :
    Keeps i Established (readFile bound ino fd errno) s := by
  unfold readFile
  refine keeps_query Contract.stable_true trivial fun s₁ _ _ choice => ?_
  cases hr : (effect i choice (.fstat fd) s₁).1 with
  | error e => exact keeps_finish (established_failure e)
  | ok opened =>
    obtain ⟨ino', kind⟩ := opened
    cases kind with
    | directory | symlink | other =>
      exact keeps_finish (established_failed (by simp) (by simp))
    | regular content =>
    dsimp only
    split_ifs
    · exact keeps_finish (established_failed (by simp) (by simp))
    · exact keeps_finish (established_failed (by simp) (by simp))
    have hbegins : s₁.Begins fd [] := by
      obtain ⟨creator, hino⟩ := Shared.node_eq_ok (Choice.answer_eq_ok hr).choose_spec
      exact ⟨content, ⟨ino', creator, hino⟩, List.nil_prefix⟩
    refine Safe.bind ((keeps_readWhole hbegins).mono fun r s₂ hr => ?_)
    rcases r with e | _ | data
    · exact keeps_finish (established_failure e)
    · exact keeps_finish (established_failed (by simp) (by simp))
    dsimp only
    cases hparse : parseIdentity data with
    | error result =>
      obtain ⟨hok, hcreated⟩ := parseIdentity_ne hparse
      exact keeps_finish (established_failed hok hcreated)
    | ok id => exact keeps_finish fun _ => hr data rfl id hparse

theorem keeps_inspectIdentityFile {errno : Option Errno} :
    Keeps i (fun r _ => ∀ status, r = .error status → status.1 ≠ .ok ∧ status.1 ≠ .created)
      (inspectIdentityFile errno) s := by
  unfold inspectIdentityFile
  refine keeps_any fun r s₁ _ => ?_
  rcases r with e | ⟨ino, kind⟩
  · rintro status ⟨⟩
    split_ifs
    · simp
    · exact filesystemError_ne e
  · cases kind with
    | regular content => exact fun _ h => by cases h
    | directory | symlink | other =>
      rintro status ⟨⟩
      simp

/-- **What a process reads is the identifier of the file.** -/
theorem keeps_readExisting {bound : ℕ} {errno : Option Errno} :
    Keeps i Established (readExisting bound errno) s := by
  unfold readExisting
  refine Safe.bind (keeps_inspectIdentityFile.mono fun r s₁ hr => ?_)
  rcases r with status | ⟨ino, content⟩
  · obtain ⟨hok, hcreated⟩ := hr status rfl
    exact established_failed hok hcreated
  dsimp only
  split_ifs
  · exact established_failed (by simp) (by simp)
  refine keeps_any fun r s₂ _ => ?_
  cases r with
  | error e => exact established_failure e
  | ok fd => exact keeps_readFile

/-! ### Creation -/

variable {store : Store} {bound : ℕ} {errno : Option Errno} {content file id : List UInt8}

/-- A new file that is reported as created has the identifier. -/
def Filed (id : List UInt8) (status : Status) (s : Shared ι) : Prop :=
  status.1 ≠ .ok ∧ (status.1 = .created → s.Stores id)

theorem filed_uncertain (e : Option Errno) : Filed id (.durabilityUncertain, e) s :=
  ⟨by simp, fun h => by cases h⟩

theorem filed_failure (e : Errno) : Filed id (failure e) s :=
  ⟨(filesystemError_ne e).1, fun h => absurd h (filesystemError_ne e).2⟩

theorem unfinished_of_append (hfile : parseIdentity (content ++ data) = .ok id) (h : data ≠ []) :
    Unfinished content := by
  intro id' hid'
  have := eq_of_parseIdentity_prefix (List.prefix_append content data) hid' hfile
  exact h (by simpa using this)

/-- **The file is filled by its owner.** Until it is complete it is no identity file. -/
theorem keeps_writeLoop (hfile : parseIdentity (content ++ data) = .ok id)
    (howns : s.Owns i fd content) :
    Keeps i
      (fun r s => match r with
        | .ok _ => s.Owns i fd (content ++ data)
        | .error _ => ∃ content, s.Owns i fd content ∧ Unfinished content)
      (writeLoop fd bound data) s := by
  -- on the bound of the loop; in every turn the owner's content is a part of the data
  induction bound generalizing content data s with
  | zero => trivial
  | succ bound ih =>
    unfold writeLoop
    by_cases hdata : data = []
    · rw [if_pos hdata]
      refine safe_pure.mpr ?_
      dsimp only
      rwa [hdata, List.append_nil]
    rw [if_neg hdata]
    -- as long as data is left the file is unfinished, also where the loop gives up
    have hcontent := unfinished_of_append hfile hdata
    refine Safe.perform (stable_owns i fd content) howns fun s₁ hs₁ hinv choice => ?_
    obtain ⟨hguar, hinv', hreply⟩ := guar_write choice data hinv hs₁ hcontent
    refine ⟨hguar, hinv', ?_⟩
    rcases hreply with ⟨e, he, howns'⟩ | ⟨count, hcount, he, howns'⟩
    · rw [he]
      cases e with
      | EINTR => exact ih hfile howns'
      | _ => exact ⟨content, howns', hcontent⟩
    · rw [he]
      cases count with
      | zero =>
        rw [List.take_zero, List.append_nil] at howns'
        exact ⟨content, howns', hcontent⟩
      | succ count =>
        have happend : content ++ data.take (count + 1) ++ data.drop (count + 1) =
            content ++ data := by
          rw [List.append_assoc, List.take_append_drop]
        rw [← happend]
        exact ih (by rwa [happend]) howns'

theorem keeps_uncertain (e : Option Errno) : Keeps i (Filed id) (uncertain e) s :=
  keeps_any fun _ _ _ => filed_uncertain e

theorem keeps_syncDirectory (hs : s.Stores id) :
    Keeps i (Filed id) (syncDirectory store errno) s := by
  unfold syncDirectory
  split_ifs
  · exact filed_uncertain errno
  refine keeps_query (stable_stores i id) hs fun s₁ hs₁ _ choice => ?_
  cases (effect i choice .lstatDirectory s₁).1 with
  | error e => exact filed_uncertain _
  | ok before =>
  refine keeps_query (stable_stores i id) hs₁ fun s₂ hs₂ _ choice => ?_
  cases (effect i choice .openDirectory s₂).1 with
  | error e => exact filed_uncertain _
  | ok _ =>
  refine keeps_query (stable_stores i id) hs₂ fun s₃ hs₃ _ choice => ?_
  cases (effect i choice .fstatDirectory s₃).1 with
  | error e => exact keeps_uncertain _
  | ok after =>
  dsimp only
  split_ifs
  · exact keeps_uncertain _
  refine keeps_query (stable_stores i id) hs₃ fun s₄ hs₄ _ choice => ?_
  cases (effect i choice .fsyncDirectory s₄).1 with
  | error e => exact keeps_uncertain _
  | ok _ =>
  refine keeps_query (stable_stores i id) hs₄ fun s₅ hs₅ _ choice => ?_
  cases (effect i choice .closeDirectory s₅).1 with
  | error e => exact filed_uncertain _
  | ok _ => exact ⟨by simp, fun _ => hs₅⟩

/-- **The creator fills its file, or removes what it has written.** -/
theorem keeps_fillNew (hfile : parseIdentity file = .ok id) (howns : s.Owns i fd []) :
    Keeps i (Filed id) (fillNew store bound fd file errno) s := by
  unfold fillNew
  have hwhole : parseIdentity ([] ++ file) = .ok id := hfile
  refine Safe.bind ((keeps_writeLoop hwhole howns).mono fun r s₁ hr => ?_)
  cases r with
  | error e =>
    obtain ⟨content, hs₁, hcontent⟩ := hr
    refine keeps_query (stable_owns i fd content) hs₁ fun s₂ hs₂ _ _ => ?_
    refine Safe.perform (stable_owns i fd content) hs₂ fun s₃ hs₃ hinv choice => ?_
    obtain ⟨hguar, hinv'⟩ := guar_unlink choice hinv hs₃ hcontent
    exact ⟨hguar, hinv', filed_failure e⟩
  | ok _ =>
  have hstores : s₁.Stores id := ⟨fd, hr.2, file, Shared.Owns.file hr, hfile⟩
  refine keeps_query (stable_stores i id) hstores fun s₂ hs₂ _ choice => ?_
  cases (effect i choice (.fsync fd) s₂).1 with
  | error e => exact keeps_any fun _ _ _ => filed_uncertain _
  | ok _ =>
  refine keeps_query (stable_stores i id) hs₂ fun s₃ hs₃ _ choice => ?_
  cases (effect i choice (.close fd) s₃).1 with
  | error e => exact filed_uncertain _
  | ok _ => exact keeps_syncDirectory hs₃

theorem keeps_writeNew (hfile : parseIdentity file = .ok id) :
    Keeps i (Filed id) (writeNew store bound file errno) s := by
  unfold writeNew
  refine Safe.perform Contract.stable_true trivial fun s₁ _ hinv choice => ?_
  obtain ⟨hguar, hinv', howns⟩ := guar_openCreate i choice hinv
  refine ⟨hguar, hinv', ?_⟩
  cases hr : (effect i choice .openCreate s₁).1 with
  | error e =>
    refine safe_pure.mpr ?_
    split_ifs
    · exact ⟨by simp, fun h => by cases h⟩
    · exact filed_failure e
  | ok fd => exact keeps_fillNew hfile (howns fd hr)

theorem keeps_create : Keeps i Established (create store bound errno) s := by
  unfold create
  refine keeps_any fun r s₁ _ => ?_
  cases r with
  | none => exact established_failed (by simp) (by simp)
  | some randomBytes =>
  dsimp only
  cases hserialize : serialize randomBytes with
  | none => exact established_failed (by simp) (by simp)
  | some file =>
  obtain ⟨id, file⟩ := file
  refine Safe.bind ((keeps_writeNew (parseIdentity_serialize hserialize)).mono fun status s₂ h => ?_)
  obtain ⟨hok, hcreated⟩ := h
  split_ifs with hexists hstatus
  · exact keeps_readExisting
  · exact established_failed hok hstatus
  · exact fun _ => hcreated (not_not.mp hstatus)

/-- **`cn_device_identity_load` returns the identifier of the file.** -/
theorem keeps_load (store : Option Store) (outputCapacity : Option ℕ) (bound : ℕ) :
    Keeps i Established (load store outputCapacity bound) s := by
  unfold load
  split
  · split_ifs
    · exact established_failed (by simp) (by simp)
    · exact keeps_readExisting
    · exact established_failed (by simp) (by simp)
  · exact established_failed (by simp) (by simp)

/-- **`cn_device_identity_load_or_create` returns the identifier of the file.** -/
theorem keeps_loadOrCreate (store : Option Store) (outputCapacity : Option ℕ) (bound : ℕ) :
    Keeps i Established (loadOrCreate store outputCapacity bound) s := by
  unfold loadOrCreate
  split
  · split_ifs
    · exact established_failed (by simp) (by simp)
    · refine Safe.bind (keeps_readExisting.mono fun existing s₁ h => ?_)
      split_ifs
      · exact h
      · exact keeps_create
    · exact established_failed (by simp) (by simp)
  · exact established_failed (by simp) (by simp)

end Programs

/-! ## Processes together -/

/-- A call of the module, with the capacity of its output. -/
inductive Task
  | load (outputCapacity : Option ℕ)
  | loadOrCreate (outputCapacity : Option ℕ)

/-- The program of a task. Its loops end after `bound` calls, which is no loss for a schedule of
at most as many turns. -/
def Task.program (store : Store) (bound : ℕ) : Task → Program Answer
  | load capacity => DeviceIdentity.load (some store) capacity bound
  | loadOrCreate capacity => DeviceIdentity.loadOrCreate (some store) capacity bound

/-- The files before any process runs: what is at the path of the store is of unknown origin. -/
def initial (file : Option Node) : Shared ι :=
  match file with
  | none => ⟨[], none⟩
  | some node => ⟨[⟨node, none⟩], some 0⟩

/-- The processes at the start of their tasks. -/
def start (store : Store) (bound : ℕ) (file : Option Node) (tasks : ι → Task) :
    Shared ι × (ι → Program Answer) :=
  (initial file, fun i => (tasks i).program store bound)

/-- Whatever identifiers were returned are equal, and they are the one of the file. -/
structure Agrees (config : Shared ι × (ι → Program Answer)) : Prop where
  stored : ∀ i answer, config.2 i = .done answer → answer.Identifies →
    config.1.Stores answer.output
  equal : ∀ i j answer answer', config.2 i = .done answer → answer.Identifies →
    config.2 j = .done answer' → answer'.Identifies → answer.output = answer'.output

/-- A complete identity file is neither overwritten nor removed. -/
def Preserves (s s' : Shared ι) : Prop :=
  ∀ fd id, s.Complete fd id →
    s'.entry = some fd ∧ s'.inodes[fd]? = s.inodes[fd]? ∧ s'.Complete fd id

theorem inv_initial (file : Option Node) : Inv (initial (ι := ι) file) := by
  cases file with
  | none =>
    refine ⟨fun fd h => ?_, fun fd id h => ?_⟩
    · cases h
    · exact absurd h.lt (Nat.not_lt_zero fd)
  | some node =>
    refine ⟨fun fd h => ?_, fun fd id h => ?_⟩
    · cases h
      exact Nat.one_pos
    · have hlt : fd < 1 := h.lt
      obtain rfl : fd = 0 := by omega
      rfl

/-- At the start all processes are safe. -/
theorem allSafe_start (store : Store) (bound : ℕ) (file : Option Node) (tasks : ι → Task) :
    AllSafe effect contract (fun _ => Established) (start store bound file tasks) := by
  refine ⟨inv_initial file, fun i => ?_⟩
  change Keeps i Established ((tasks i).program store bound) (initial file)
  cases tasks i with
  | load capacity => exact keeps_load _ _ _
  | loadOrCreate capacity => exact keeps_loadOrCreate _ _ _

theorem agrees_of_allSafe {config : Shared ι × (ι → Program Answer)}
    (h : AllSafe effect contract (fun _ => Established) config) : Agrees config := by
  have hstored : ∀ i answer, config.2 i = .done answer → answer.Identifies →
      config.1.Stores answer.output := by
    intro i answer hdone
    have := h.safe i
    rw [hdone] at this
    exact this
  exact ⟨hstored, fun i j answer answer' hi hid hj hid' =>
    (hstored i answer hi hid).unique (hstored j answer' hj hid')⟩

theorem Guar.preserves {s s' : Shared ι} {i : ι} (h : Guar i s s') (hs : Inv s) :
    Preserves s s' := by
  intro fd id hcomplete
  obtain ⟨hino, hentry⟩ := h.keeps fd id hcomplete
  obtain ⟨content, hfile, hid⟩ := hcomplete
  have hcomplete : s.Complete fd id := ⟨content, hfile, hid⟩
  exact ⟨hentry.trans (hs.entry_of_complete fd id hcomplete), hino, content,
    h.file hcomplete hfile, hid⟩

theorem Preserves.trans {s s' s'' : Shared ι} (h : Preserves s s') (h' : Preserves s' s'') :
    Preserves s s'' := by
  intro fd id hcomplete
  obtain ⟨-, hino, hcomplete'⟩ := h fd id hcomplete
  obtain ⟨hentry, hino', hcomplete''⟩ := h' fd id hcomplete'
  exact ⟨hentry, hino'.trans hino, hcomplete''⟩

/-- **What a run preserves**: a complete file, from the turn that completes it on. -/
theorem preserves_run [DecidableEq ι] {config : Shared ι × (ι → Program Answer)}
    (h : AllSafe effect contract (fun _ => Established) config) (schedule : List (ι × Choice)) :
    Preserves config.1 (run effect config schedule).1 := by
  induction schedule generalizing config with
  | nil => exact fun fd id hcomplete => ⟨h.inv.entry_of_complete fd id hcomplete, rfl, hcomplete⟩
  | cons turn schedule ih =>
    obtain ⟨hnext, hguar⟩ := h.step Guar.refl (fun i => stable_established i) turn
    exact (Guar.preserves hguar h.inv).trans (ih hnext)

/-- **Agreement on the device identity.** Processes load and create the identity of one store, in
any number and any interleaving of their system calls, whatever is at the path at first and
whatever calls fail or transfer less than they could. All identifiers that were returned with `ok`
or `created` are then equal and the one of the complete file at the path; and no turn of the run
overwrites or removes a complete file. -/
theorem processes_agree [DecidableEq ι] (store : Store) (bound : ℕ) (file : Option Node)
    (tasks : ι → Task) (past future : List (ι × Choice)) :
    Agrees (run effect (start store bound file tasks) past) ∧
      Preserves (run effect (start store bound file tasks) past).1
        (run effect (start store bound file tasks) (past ++ future)).1 := by
  have hsafe := safe_run Guar.refl (fun i => stable_established i)
    (allSafe_start store bound file tasks) past
  refine ⟨agrees_of_allSafe hsafe, ?_⟩
  have hrun : run effect (start store bound file tasks) (past ++ future) =
      run effect (run effect (start store bound file tasks) past) future :=
    List.foldl_append ..
  rw [hrun]
  exact preserves_run hsafe future

-- one process creates the file, then another reads it
example :
    let turn : Choice := ⟨.succeed 40, 7, .ok ⟨1, .directory⟩, some fun _ => 0xab⟩
    let tasks : Fin 2 → Task := fun _ => .loadOrCreate (some 33)
    let config := run effect (start ⟨Bytes.ascii "/c/device-id", 12⟩ 9 none tasks)
      (List.replicate 20 (0, turn) ++ List.replicate 20 (1, turn))
    (config.2 0 matches .done ⟨.created, _, _⟩) ∧ (config.2 1 matches .done ⟨.ok, _, _⟩) := by
  decide +kernel

end DeviceIdentity
