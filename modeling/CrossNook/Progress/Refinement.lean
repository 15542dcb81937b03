import CrossNook.Progress.ProgressStore

/-!
# The progress store as a map

Over any run of saves, each of which may fail at any of its system calls, the store behaves as the
map from tokens to the records last saved.

## Main definitions

* `ProgressStore.Call`: a call of `cn_progress_store_save` with what happens to it
* `ProgressStore.Store.run`: a run of saves
* `ProgressStore.lastSaved`: the map
* `ProgressStore.Represents`: the files hold what the map says

## Main results

* `ProgressStore.Represents.save`: a save keeps the relation
* `ProgressStore.load_run`: loads after a run of saves
-/

namespace ProgressStore

open Bytes Crash Posix

/-- A call of `cn_progress_store_save`: its arguments, its process and the fates of its system
calls. -/
structure Call where
  identity : BookIdentity
  record : Record
  pid : ℕ
  script : List Fate

/-- The call as a program. -/
def Call.save (store : Store) (call : Call) : Sys Result :=
  ProgressStore.save store call.identity call.record call.pid

/-- A run of saves that return: their results and the machine they leave. -/
def Store.run (store : Store) : List Call → Machine → Option (List Result × Machine)
  | [], m => some ([], m)
  | call :: calls, m =>
    match call.save store { m with script := call.script } with
    | (none, _) => none
    | (some result, m') =>
      match store.run calls m' with
      | none => none
      | some (results, m'') => some (result :: results, m'')

/-- The record of the last successful save for a token. -/
def lastSaved (history : List (Call × Result)) (token : List UInt8) : Option Record :=
  ((history.filter fun c => c.2 = .ok ∧ c.1.identity.token = some token).getLast?).map
    fun c => c.1.record

theorem lastSaved_append (history : List (Call × Result)) (call : Call) (result : Result)
    (token : List UInt8) :
    lastSaved (history ++ [(call, result)]) token =
      if result = .ok ∧ call.identity.token = some token then some call.record
      else lastSaved history token := by
  unfold lastSaved
  split_ifs with h <;> simp [List.filter_append, h]

/-- The files hold what the map says: no file, or the encoding of the record. -/
def Represents (store : Store) (files : Path → Option Node) (map : List UInt8 → Option Record) :
    Prop :=
  ∀ (identity : BookIdentity) (token : List UInt8), identity.token = some token →
    match map token with
    | none => files (store.path token) = none
    | some record => ∃ location progress10000 ino, record = ⟨some location, progress10000⟩ ∧
        IsPosition location progress10000 ∧
        files (store.path token) = some ⟨ino, .regular (encode token location progress10000)⟩

variable {store : Store}

/-! ## Paths -/

theorem path_injective {t t' : List UInt8} (h : store.path t = store.path t') : t = t' := by
  simpa [Store.path] using h

/-- No temporary file is the record of a token. -/
theorem path_ne_temporaryPath {t t' : List UInt8} (h : t.length = t'.length) (pid : ℕ) :
    store.path t' ≠ temporaryPath (store.path t) pid := by
  intro he
  have h5 : (ascii ".tmp.").length = 5 := rfl
  have := congrArg List.length he
  simp only [temporaryPath, Store.path, List.length_append, h, h5] at this
  omega

/-! ## Saves -/

/-- **A save touches the record of its own token only.** -/
theorem save_frame (call : Call) (m : Machine) {identity : BookIdentity} {token : List UInt8}
    (ht : identity.token = some token) (hne : call.identity.token ≠ some token) :
    Ends (call.save store) m (fun _ m' => m'.files (store.path token) = m.files (store.path token))
      fun m' => m'.files (store.path token) = m.files (store.path token) := by
  cases hc : call.identity.token with
  | none =>
    unfold Call.save
    rw [save_refused (.inl hc)]
    rfl
  | some t =>
    cases hr : validPosition call.record with
    | none =>
      unfold Call.save
      rw [save_refused (.inr hr)]
      rfl
    | some position =>
      obtain ⟨location, progress10000⟩ := position
      have htt : t ≠ token := by
        rintro rfl
        exact hne hc
      have hlen : t.length = token.length := by
        rw [BookIdentity.length_token hc, BookIdentity.length_token ht]
      have hpath : store.path token ≠ store.path t := fun h => htt (path_injective h).symm
      have htemp : store.path token ∉ ({temporaryPath (store.path t) call.pid} : Set Path) :=
        path_ne_temporaryPath hlen _
      refine (save_replaces hc hr call.pid m trivial).mono ?_ ?_
      · exact fun _ _ h => h.2.2 _ htemp hpath
      · exact fun _ h => h.2 _ htemp hpath

/-- **A save keeps the relation between the files and the map**: where it succeeds the map is
updated, where it fails it is not. -/
theorem Represents.save {history : List (Call × Result)} {m : Machine}
    (h : Represents store m.files (lastSaved history)) (call : Call) :
    Ends (call.save store) m
      (fun result m' => Represents store m'.files (lastSaved (history ++ [(call, result)])))
      fun _ => True := by
  rw [ends_iff]
  refine ⟨fun result m' he identity token ht => ?_, fun _ _ => trivial⟩
  rw [lastSaved_append]
  have hm := h identity token ht
  by_cases htoken : call.identity.token = some token
  · cases hr : validPosition call.record with
    | none =>
      rw [Call.save, save_refused (.inr hr)] at he
      obtain ⟨hres, rfl⟩ := Prod.mk.inj he
      obtain rfl := Option.some.inj hres
      simpa using hm
    | some position =>
      obtain ⟨location, progress10000⟩ := position
      obtain ⟨hrecord, hposition⟩ := validPosition_eq_some_iff.mp hr
      have hsave := (save_replaces htoken hr call.pid m trivial).of_eq he
      by_cases hok : result = .ok
      · rw [if_pos ⟨hok, htoken⟩]
        obtain ⟨ino, hfile⟩ := hsave.1 hok
        exact ⟨location, progress10000, ino, hrecord, hposition, hfile⟩
      · rw [if_neg fun hc => hok hc.1]
        simpa only [hsave.2.1 hok] using hm
  · -- a save of another book keeps the record of this one
    rw [if_neg fun hc => htoken hc.2]
    have hframe := (save_frame call m ht htoken).of_eq he
    simpa only [hframe] using hm

/-- **A run of saves keeps the relation.** -/
theorem Represents.run {calls : List Call} {history : List (Call × Result)} {m m' : Machine}
    {results : List Result} (h : Represents store m.files (lastSaved history))
    (hrun : store.run calls m = some (results, m')) :
    Represents store m'.files (lastSaved (history ++ calls.zip results)) := by
  induction calls generalizing history m results with
  | nil =>
    obtain ⟨rfl, rfl⟩ := Prod.mk.inj (Option.some.inj hrun)
    simpa using h
  | cons call calls ih =>
    rw [Store.run] at hrun
    cases hcall : call.save store { m with script := call.script } with
    | mk r m₁ =>
      cases r with
      | none => simp [hcall] at hrun
      | some result =>
        rw [hcall] at hrun
        dsimp only at hrun
        cases hrest : store.run calls m₁ with
        | none => simp [hrest] at hrun
        | some out =>
          obtain ⟨rest, m₂⟩ := out
          rw [hrest] at hrun
          obtain ⟨rfl, rfl⟩ := Prod.mk.inj (Option.some.inj hrun)
          have h₁ : Represents store m₁.files (lastSaved (history ++ [(call, result)])) :=
            (Represents.save (m := { m with script := call.script }) h call).of_eq hcall
          simpa using ih h₁ hrest

/-! ## Loads -/

/-- What is stored, where the files hold what the map says. -/
theorem Represents.lookup {files : Path → Option Node} {map : List UInt8 → Option Record}
    (h : Represents store files map) {identity : BookIdentity} {token : List UInt8}
    (ht : identity.token = some token) :
    store.lookup files token = match map token with
      | none => .error .missing
      | some record => .ok record := by
  have hm := h identity token ht
  cases hmap : map token with
  | none =>
    rw [hmap] at hm
    exact lookup_of_none hm
  | some record =>
    rw [hmap] at hm
    obtain ⟨location, progress10000, ino, rfl, hposition, hfile⟩ := hm
    exact lookup_of_encode (BookIdentity.length_token ht) hposition hfile

/-- A load that does not return `ok` leaves the record of the caller as it is. -/
theorem load_record_eq (identity : BookIdentity) (record : Record) (m : Machine) :
    Ends (load store identity record) m (fun r _ => r.1 ≠ .ok → r.2 = record) fun _ => True := by
  cases ht : identity.token with
  | none =>
    unfold load
    rw [ht]
    exact fun _ => rfl
  | some token =>
    refine (ends_load (H := False) False.elim store ht).mono ?_ fun _ _ => trivial
    rintro r m' ⟨-, rfl | ⟨-, hfailed⟩⟩ hr
    · cases hl : store.lookup m.files token with
      | ok loaded => simp [hl, report] at hr
      | error result => rfl
    · exact hfailed.record_eq

/-- **The store is the map of the records last saved.** After any run of saves from a store
without records, each failing or not at any of its system calls, a load that returns `ok` returns
the record last saved, a load that returns `missing` finds that none was, and a load whose own
calls do not fail returns one of the two; a load changes no file, and one that does not return `ok`
leaves the record of the caller as it is. A save leaves the records of all other books as they
are, even where it is killed. -/
theorem load_run (store : Store) :
    (∀ (m : Machine) (calls : List Call) (results : List Result) (m' : Machine),
      (∀ (identity : BookIdentity) (token : List UInt8), identity.token = some token →
        m.files (store.path token) = none) →
      store.run calls m = some (results, m') →
      ∀ (identity : BookIdentity) (token : List UInt8), identity.token = some token →
      ∀ (record : Record) (script : List Fate),
        Ends (load store identity record) { m' with script }
          (fun r m'' => m''.files = m'.files ∧
            (r.1 = .ok → lastSaved (calls.zip results) token = some r.2) ∧
            (r.1 = .missing → lastSaved (calls.zip results) token = none) ∧
            (r.1 ≠ .ok → r.2 = record))
          (fun m'' => m''.files = m'.files) ∧
        (Healthy { m' with script } → loadCalls ≤ script.length →
          (load store identity record { m' with script }).1 =
            some (match lastSaved (calls.zip results) token with
              | some saved => (.ok, saved)
              | none => (.missing, record)))) ∧
    (∀ (call : Call) (m : Machine) (identity : BookIdentity) (token : List UInt8),
      identity.token = some token → call.identity.token ≠ some token →
      Ends (call.save store) m
        (fun _ m' => m'.files (store.path token) = m.files (store.path token))
        fun m' => m'.files (store.path token) = m.files (store.path token)) ∧
    ∀ (identity : BookIdentity) (record : Record) (m : Machine),
      Ends (load store identity record) m (fun r _ => r.1 ≠ .ok → r.2 = record) fun _ => True := by
  refine ⟨?_, fun call m identity token ht hne => save_frame call m ht hne, load_record_eq⟩
  intro m calls results m' hempty hrun identity token ht record script
  -- the simulation along the run
  have hrep : Represents store m'.files (lastSaved (calls.zip results)) := by
    have h₀ : Represents store m.files (lastSaved []) := fun i t hi => hempty i t hi
    simpa using h₀.run hrun
  have hlookup := hrep.lookup ht
  constructor
  · -- a load that may fail answers with what it finds, or fails
    refine ((ends_load (H := False) False.elim store ht).and
      (load_record_eq identity record _)).mono ?_ fun _ h => h.1
    rintro r m'' ⟨⟨hf, hr⟩, hrecord⟩
    refine ⟨hf, fun hok => ?_, fun hmissing => ?_, hrecord⟩
    · rcases hr with rfl | ⟨-, hfailed⟩
      · rw [hlookup] at hok ⊢
        cases hl : lastSaved (calls.zip results) token <;> simp_all [report]
      · exact absurd hok hfailed.ne_ok
    · rcases hr with rfl | ⟨-, hfailed⟩
      · rw [hlookup] at hmissing
        cases hl : lastSaved (calls.zip results) token <;> simp_all [report]
      · exact absurd hmissing hfailed.ne_missing
  · -- a load whose calls do not fail cannot take that way out
    intro hhealthy hlen
    obtain ⟨r, m'', he, -, -⟩ := finishes_load store identity record _ hhealthy hlen
    have hr := ((ends_load (H := True) (fun _ => hhealthy) store ht).of_eq he).2
    rw [he]
    rcases hr with rfl | ⟨hH, -⟩
    · rw [hlookup]
      cases lastSaved (calls.zip results) token <;> rfl
    · exact absurd trivial hH

/-- A store in the directory `/s`. -/
def sampleStore : Store := ⟨ascii "/s", by decide, by decide⟩

/-- A save of a position of a book. -/
def sampleCall (book : UInt64) (location : List UInt8) (script : List Fate) : Call where
  identity := .ofHash book
  record := ⟨some location, 5⟩
  pid := 7
  script := script

theorem eio_ne_enoent : Errno.eio ≠ .ENOENT := by decide

/-- Saves of two books, the last of which fails. -/
def sampleCalls : List Call :=
  [sampleCall 1 (ascii "/a") (List.replicate 12 (.succeed 100)),
    sampleCall 2 (ascii "/b") (List.replicate 12 (.succeed 100)),
    sampleCall 1 (ascii "/c")
      (List.replicate 5 (.succeed 100) ++ List.replicate 12 (.fail ⟨.eio, eio_ne_enoent⟩))]

theorem load_run_sample :
    ∃ m', sampleStore.run sampleCalls ⟨fun _ => none, [], 0⟩ = some ([.ok, .ok, .ioError], m') ∧
      (load sampleStore (.ofHash 1) ⟨none, -1⟩
          { m' with script := List.replicate 70000 (.succeed 100) }).1 =
        some (.ok, ⟨some (ascii "/a"), 5⟩) := by
  have hresults : (sampleStore.run sampleCalls ⟨fun _ => none, [], 0⟩).map Prod.fst =
      some [.ok, .ok, .ioError] := by decide +kernel
  obtain ⟨⟨results, m'⟩, hrun, rfl⟩ := Option.map_eq_some_iff.mp hresults
  have htoken : (BookIdentity.ofHash 1).token = some (ascii "path-v1-0000000000000001") :=
    (BookIdentity.token_ofHash 1).trans (by decide +kernel)
  refine ⟨m', hrun, ?_⟩
  refine (((load_run sampleStore).1 _ _ _ m' (fun _ _ _ => rfl) hrun _ _ htoken ⟨none, -1⟩
    (List.replicate 70000 (.succeed 100))).2 ?_ ?_).trans (by decide +kernel)
  · intro fate hf
    exact ⟨100, List.eq_of_mem_replicate hf⟩
  · rw [List.length_replicate]
    decide

end ProgressStore
