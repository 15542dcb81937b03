import CrossNook.Sync.Evidence
import CrossNook.Sync.Pull

/-!
# The stored record under the sync operations

What a save, a load, a synchronization and a pull make of the record that is stored for a book.

## Main definitions

* `Kosync.Stored`: the record that is stored for a book
* `Kosync.Kept`: the files are as they were, but for a temporary file of a save

## Main results

* `Kosync.saveRecord_stored`, `Kosync.saveRecord_kept`: a save stores its record or changes nothing
* `Kosync.syncOnce_of_stored`: a synchronization of a book with a stored record changes no file
* `Kosync.Pulled.kept`: a pull that does not report success changes nothing
-/

namespace Kosync

open Crash Posix
open ProgressStore (Record temporaryPath lookup_of_encode save_replaces save_refused)

variable {store : ProgressStore.Store} {identity : BookIdentity} {record : Record}

/-- The record that is stored for a book. -/
def Stored (store : ProgressStore.Store) (identity : BookIdentity) (files : Path → Option Node)
    (record : Record) : Prop :=
  ∃ token, identity.token = some token ∧ store.lookup files token = .ok record

/-- The files are as they were, but for a temporary file of a save of the book. -/
def Kept (store : ProgressStore.Store) (identity : BookIdentity) (files files' : Path → Option Node) :
    Prop :=
  ∀ path, (∀ token pid, identity.token = some token →
    path ≠ temporaryPath (store.path token) pid) → files' path = files path

theorem Stored.unique {files : Path → Option Node} {record' : Record}
    (h : Stored store identity files record) (h' : Stored store identity files record') :
    record' = record := by
  obtain ⟨token, ht, hlookup⟩ := h
  obtain ⟨token', ht', hlookup'⟩ := h'
  obtain rfl : token' = token := Option.some.inj (ht'.symm.trans ht)
  exact Except.ok.inj (hlookup'.symm.trans hlookup)

/-- A stored record has a file. -/
theorem Stored.exists_file {files : Path → Option Node} (h : Stored store identity files record) :
    ∃ token node, identity.token = some token ∧ files (store.path token) = some node := by
  obtain ⟨token, ht, hlookup⟩ := h
  cases hfile : files (store.path token) with
  | none =>
    rw [ProgressStore.lookup_of_none hfile] at hlookup
    cases hlookup
  | some node => exact ⟨token, node, ht, hfile⟩

theorem Kept.of_eq {files files' : Path → Option Node} (h : files' = files) :
    Kept store identity files files' := fun _ _ => by rw [h]

/-- A record in a file of its own is stored as long as its file is. -/
theorem Kept.stored {files files' : Path → Option Node} {token : List UInt8} {node : Node}
    (h : Kept store identity files files') (ht : identity.token = some token)
    (hfile : files (store.path token) = some node) (hlink : ∀ target, node.kind ≠ .symlink target)
    (hstored : Stored store identity files record) : Stored store identity files' record := by
  obtain ⟨token', ht', hlookup⟩ := hstored
  obtain rfl : token' = token := Option.some.inj (ht'.symm.trans ht)
  have hfile' : files' (store.path token') = some node := by
    rw [h _ fun t pid hid => ?_, hfile]
    obtain rfl : t = token' := Option.some.inj (hid.symm.trans ht)
    exact ProgressStore.temporaryPath_ne _ _
  have hresolve : ∀ fs : Path → Option Node, fs (store.path token') = some node →
      resolve fs 40 (store.path token') = .ok (store.path token') := by
    intro fs hfs
    obtain ⟨ino, kind⟩ := node
    cases kind with
    | symlink target => exact absurd rfl (hlink target)
    | regular content => simp only [resolve, hfs]
    | directory => simp only [resolve, hfs]
    | other => simp only [resolve, hfs]
  refine ⟨token', ht, ?_⟩
  rw [← hlookup]
  simp only [ProgressStore.Store.lookup, hresolve _ hfile, hresolve _ hfile', hfile, hfile']

/-! ## Saves and loads -/

section Records

variable {w w' : World}

theorem saveRecord_eq {saved : ProgressStore.Result}
    (h : saveRecord store identity record w = (some saved, w')) :
    ∃ m : Machine, m.files = w.files ∧
      ProgressStore.save store identity record w.pid m = (some saved, w'.machine) := by
  have hends : Ends (saveRecord store identity record) w
      (fun saved w' => ProgressStore.save store identity record w.pid w.machine =
        (some saved, w'.machine)) fun _ => True := by
    unfold saveRecord
    rw [ends_bind, ends_log, ends_bind, ends_get, ends_sys]
    exact (ends_run _ _).mono (fun _ _ h => h) fun _ _ => trivial
  exact ⟨w.machine, rfl, hends.of_eq h⟩

/-- **A save that succeeds stores its record.** -/
theorem saveRecord_stored (h : saveRecord store identity record w = (some .ok, w')) :
    Stored store identity w'.files record := by
  obtain ⟨m, -, hsave⟩ := saveRecord_eq h
  cases ht : identity.token with
  | none =>
    rw [save_refused (.inl ht)] at hsave
    cases hsave
  | some token =>
    cases hr : ProgressStore.validPosition record with
    | none =>
      rw [save_refused (.inr hr)] at hsave
      cases hsave
    | some position =>
      obtain ⟨location, progress10000⟩ := position
      obtain ⟨rfl, hposition⟩ := ProgressStore.validPosition_eq_some_iff.mp hr
      obtain ⟨ino, hfile⟩ := ((save_replaces ht hr w.pid m trivial).of_eq hsave).1 rfl
      exact ⟨token, ht, lookup_of_encode (BookIdentity.length_token ht) hposition hfile⟩

/-- **A save that fails changes nothing** but its temporary file. -/
theorem saveRecord_kept {saved : ProgressStore.Result}
    (h : saveRecord store identity record w = (some saved, w')) (hfail : saved ≠ .ok) :
    Kept store identity w.files w'.files := by
  obtain ⟨m, hm, hsave⟩ := saveRecord_eq h
  cases ht : identity.token with
  | none =>
    rw [save_refused (.inl ht)] at hsave
    obtain ⟨-, rfl⟩ := Prod.mk.inj hsave
    exact .of_eq hm
  | some token =>
    cases hr : ProgressStore.validPosition record with
    | none =>
      rw [save_refused (.inr hr)] at hsave
      obtain ⟨-, rfl⟩ := Prod.mk.inj hsave
      exact .of_eq hm
    | some position =>
      obtain ⟨-, hp, ho⟩ := (save_replaces ht hr w.pid m trivial).of_eq hsave
      intro path htemp
      rw [← hm]
      by_cases hpath : path = store.path token
      · rw [hpath]
        exact hp hfail
      · exact ho path (htemp token w.pid ht) hpath

/-- **A load of a book with a stored record** returns it, or an error that is not `missing`. -/
theorem Loads.of_stored {files : Path → Option Node} {r : ProgressStore.Result × Record}
    (hstored : Stored store identity files record) (h : Loads store identity files r) :
    r = (.ok, record) ∨ (r.1 ≠ .ok ∧ r.1 ≠ .missing) := by
  obtain ⟨token, ht, hlookup⟩ := hstored
  obtain ⟨m, m', hm, hload⟩ := h
  rcases ((ProgressStore.ends_load (H := False) False.elim store ht).of_eq hload).2 with
    rfl | ⟨-, hfailed⟩
  · rw [hm, hlookup]
    exact .inl rfl
  · exact .inr ⟨hfailed.ne_ok, hfailed.ne_missing⟩

/-- Success is never reported as an error. -/
theorem lookup_ne_error_ok {files : Path → Option Node} {token : List UInt8} :
    store.lookup files token ≠ .error .ok := by
  unfold ProgressStore.Store.lookup
  cases resolve files 40 (store.path token) with
  | error e =>
    dsimp only
    split_ifs <;> simp
  | ok fd =>
    dsimp only
    cases files fd with
    | none => simp
    | some node =>
      obtain ⟨ino, kind⟩ := node
      cases kind with
      | directory | symlink | other => simp [ProgressStore.judge]
      | regular content =>
        dsimp only [ProgressStore.judge]
        split_ifs
        · simp
        · intro h
          rcases ProgressStore.decode_eq_error h with h | h <;> cases h

/-- **What a load returns with success is stored.** -/
theorem Loads.stored {files : Path → Option Node} (h : Loads store identity files (.ok, record)) :
    Stored store identity files record := by
  obtain ⟨m, m', hm, hload⟩ := h
  cases ht : identity.token with
  | none =>
    unfold ProgressStore.load at hload
    rw [ht] at hload
    cases hload
  | some token =>
    refine ⟨token, ht, ?_⟩
    rcases ((ProgressStore.ends_load (H := False) False.elim store ht).of_eq hload).2 with
      h | ⟨-, hfailed⟩
    · rw [hm] at h
      cases hlookup : store.lookup files token with
      | ok loaded =>
        rw [hlookup] at h
        rw [(Prod.mk.inj h).2]
      | error result =>
        -- nothing is reported as stored without a record
        rw [hlookup] at h
        obtain ⟨hok, -⟩ := Prod.mk.inj h
        exact absurd hlookup (hok ▸ lookup_ne_error_ok)
    · exact absurd rfl hfailed.ne_ok

/-! ## Synchronizations -/

theorem accepted_store {config : SyncConfig} {setup : SyncSetup}
    (h : config.accepted = some setup) : config.progressStore = some setup.store := by
  unfold SyncConfig.accepted at h
  cases hstore : config.progressStore <;> simp [hstore, Option.bind_eq_some_iff] at h
  obtain ⟨_, -, _, -, _, -, _, -, _, -, _, -, -, rfl⟩ := h
  rfl

theorem putProgress_files {client : Client} {upload : Progress}
    {answer : Result × Option ℤ × Outcome}
    (h : putProgress client upload w = (some answer, w')) : w'.files = w.files := by
  rcases (ends_putProgress client upload).of_eq h with ⟨hq, -⟩ | ⟨_, _, _, _, -, -, ⟨hq, -⟩, -⟩
  · exact hq.files_eq
  · exact hq.files_eq

/-- Where the local side has a record, a reconciliation changes no file and does not import. -/
theorem Reconciled.of_local {setup : SyncSetup} {client : Client} {documentId : List UInt8}
    {result final : SyncResult}
    (h : Reconciled setup client identity documentId record result w final w')
    (hl : result.localPresent = true) :
    w'.files = w.files ∧ final.decision ≠ .remoteSelected := by
  cases h with
  | noState hl' | imported hl' => simp [hl] at hl'
  | unsupported => exact ⟨rfl, by simp⟩
  | unset _ _ _ hq => exact ⟨hq.files_eq, by simp⟩
  | @put _ _ _ _ hq _ _ _ _ answer hput =>
    refine ⟨(putProgress_files hput).trans hq.files_eq, ?_⟩
    unfold SyncResult.uploaded
    dsimp only
    split_ifs <;> simp
  | compared =>
    refine ⟨rfl, ?_⟩
    unfold SyncResult.compared
    dsimp only
    split_ifs <;> simp

/-- A synchronization of a book with a stored record decides with it. -/
theorem Stage.Ready.of_stored {config : SyncConfig} {stage : Stage} (h : stage.Ready config w)
    (hstore : config.progressStore = some store)
    (hidentity : BookIdentity.fromPath config.documentPath = some identity)
    (hstored : Stored store identity w.files record) :
    stage.loaded = .ok ∧ stage.record = record := by
  have heq : stage.setup.store = store := by
    have := accepted_store h.accepted
    rw [hstore] at this
    exact (Option.some.inj this).symm
  have hid : stage.identity = identity := Option.some.inj (h.identity_eq.symm.trans hidentity)
  have hloads := h.loads
  rw [heq, hid] at hloads
  rcases hloads.of_stored hstored with hl | ⟨hok, hmissing⟩
  · exact Prod.mk.inj hl
  · exact absurd h.loaded (not_or.mpr ⟨hok, hmissing⟩)

/-- **A synchronization of a book with a stored record changes no file** and never imports: its
load returns the record, or an error that ends it. -/
theorem syncOnce_of_stored {config : SyncConfig} {sync : SyncResult}
    (hstore : config.progressStore = some store)
    (hidentity : BookIdentity.fromPath config.documentPath = some identity)
    (hstored : Stored store identity w.files record)
    (h : syncOnce config w = (some sync, w')) :
    w'.files = w.files ∧ sync.decision ≠ .remoteSelected := by
  obtain ⟨-, hfinished⟩ := (ends_syncOnce_finished config w).of_eq h
  cases hfinished with
  | early hread _ hd => exact ⟨hread.1.files_eq, by simp [hd]⟩
  | @decided stage hready _ _ hreconciled =>
    obtain ⟨events, hread⟩ := hready.read
    obtain ⟨hloaded, -⟩ := hready.of_stored hstore hidentity hstored
    obtain ⟨hfiles, hd⟩ := hreconciled.of_local (hready.localPresent.trans (by simp [hloaded]))
    exact ⟨hfiles.trans hread.1.files_eq, hd⟩

/-! ## Pulls -/

/-- **A pull that does not report success changes nothing** but its temporary file. -/
theorem Pulled.kept {config : PullConfig} {pull : PullResult} (h : Pulled config w pull w')
    (hstore : config.progressStore = some store)
    (hidentity : BookIdentity.fromPath config.documentPath = some identity)
    (hs : pull.status ≠ .persisted) : Kept store identity w.files w'.files := by
  cases h with
  | early hread => exact .of_eq hread.1.files_eq
  | @saved setup hc identity' hid documentId answer hfound events w₁ _ hread result saved hsave =>
    obtain rfl : store = setup.store := by
      rw [PullConfig.accepted_store hc] at hstore
      exact (Option.some.inj hstore).symm
    obtain rfl : identity' = identity := Option.some.inj (hid.symm.trans hidentity)
    have hfail : saved ≠ .ok := by
      rintro rfl
      exact hs rfl
    intro path hpath
    rw [saveRecord_kept hsave hfail path hpath, hread.1.files_eq]

end Records

end Kosync
