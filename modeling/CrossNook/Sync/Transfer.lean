import CrossNook.Sync.Convergence
import CrossNook.Sync.OneSided

/-!
# What an operation carries over

The part of an operation that other clients of the server can see, killed or not: a synchronization,
a push or a pull carries at most one record, between the file of a book and the server's record of
the document. What it carries is what it has read on the other side: the position and the percentage
together, for the document of the book.

## Main definitions

* `Kosync.Place`: a position with its percentage, as a record, a request and a body have it
* `Kosync.Transfer`: the events of an operation and the files behind it

## Main results

* `Kosync.ends_syncOnce_transfer`, `Kosync.ends_pushLocalOnce_transfer`,
  `Kosync.ends_pullRemoteOnce_transfer`: what the operations carry over
-/

namespace Kosync

open Binary64 (nearest)
open Crash Posix
open ProgressStore (Record temporaryPath encode save_replaces save_refused)

/-! ## Places -/

/-- A position in a document with its percentage. -/
abbrev Place : Type := Option (List UInt8) × ℤ

/-- The place of a local record. -/
def recordPlace (record : Record) : Place := (record.location, record.progress10000)

/-- The place of a record of the server. -/
def Progress.place (progress : Progress) : Place :=
  (progress.logicalPosition, progress.progress10000)

@[simp] theorem recordPlace_remoteRecord (remote : Progress) :
    recordPlace (remoteRecord remote) = remote.place := rfl

theorem SameFields.place_eq {p q : Progress} (h : SameFields p q) : p.place = q.place :=
  Prod.ext (h .progress (by decide)) (h .percentage (by decide))

/-- A PUT of the place of a document. -/
def Sends (documentId : List UInt8) (place : Place) (request : NetSimple.Request) : Prop :=
  request.method = .put ∧ ∃ json q, request.body = some json ∧
    parseProgress nearest (fun _ => true) json progressInit = (.ok, q) ∧ q.documentId = documentId ∧
    q.place = place

/-- A GET of a document. -/
structure Asks (documentId : List UInt8) (request : NetSimple.Request) : Prop where
  method : request.method = .get
  proper : IsDocumentId documentId
  path : Bytes.ascii "/syncs/progress/" ++ documentId <:+ request.path

/-- The answer of a GET has the place. -/
def Tells (place : Place) (outcome : NetSimple.Outcome) : Prop :=
  Delivered outcome ∧ ∃ q, parseProgress nearest (fun _ => true) (responseBody outcome) progressInit =
    (.ok, q) ∧ q.place = place

/-- A GET of the document was answered with the place. -/
def Told (documentId : List UInt8) (place : Place) (events : List Event) : Prop :=
  ∃ request outcome, .exchange request outcome ∈ events ∧ Asks documentId request ∧
    Tells place outcome

/-- A GET of the document was answered with no record. -/
def ToldMissing (documentId : List UInt8) (events : List Event) : Prop :=
  ∃ request outcome alloc, .exchange request outcome ∈ events ∧ Asks documentId request ∧
    (getAnswer alloc documentId progressInit outcome).1 = .notFound

/-- What an answer that is accepted tells. -/
theorem tells_of_getAnswer {alloc : ℕ → Bool} {documentId : List UInt8}
    {outcome : NetSimple.Outcome}
    (h : (getAnswer alloc documentId progressInit outcome).1 = .ok) :
    Tells (getAnswer alloc documentId progressInit outcome).2.1.place outcome := by
  have hdelivered : Delivered outcome := by
    by_contra hne
    rw [getAnswer_of_failure hne] at h
    exact hne h
  rw [getAnswer_of_ok hdelivered] at h ⊢
  dsimp only at h ⊢
  split_ifs at h ⊢ with hother
  obtain ⟨hlen, ms, htext, hdenotes⟩ := parseProgress_sound (Prod.ext h rfl)
  exact ⟨hdelivered, _, parseProgress_complete hlen htext hdenotes progressInit, rfl⟩

/-! ## The save -/

/-- The files after a save, or a part of one: the file of the book is as it was or has the record,
and apart from a temporary file of the book no other entry has changed. -/
structure Saves (store : ProgressStore.Store) (token : List UInt8) (record : Record)
    (files files' : Path → Option Node) : Prop where
  own : files' (store.path token) = files (store.path token) ∨
    ∃ ino location, record.location = some location ∧
      ProgressStore.IsPosition location record.progress10000 ∧ files' (store.path token) =
        some ⟨ino, .regular (encode token location record.progress10000)⟩
  others : ∀ path, path ≠ store.path token →
    (∀ pid, path ≠ temporaryPath (store.path token) pid) → files' path = files path

/-- Where the book has a token, the save of its record replaces its file; otherwise nothing
happens. -/
def Replaced (store : ProgressStore.Store) (identity : BookIdentity) (record : Record)
    (files files' : Path → Option Node) : Prop :=
  files' = files ∨ ∃ token, identity.token = some token ∧ Saves store token record files files'

theorem ends_save_replaced (store : ProgressStore.Store) (identity : BookIdentity)
    (record : Record) (pid : ℕ) (m : Machine) :
    Ends (ProgressStore.save store identity record pid) m
      (fun _ m' => Replaced store identity record m.files m'.files)
      (fun m' => Replaced store identity record m.files m'.files) := by
  cases ht : identity.token with
  | none =>
    rw [save_refused (.inl ht)]
    exact .inl rfl
  | some token =>
    cases hr : ProgressStore.validPosition record with
    | none =>
      rw [save_refused (.inr hr)]
      exact .inl rfl
    | some position =>
      obtain ⟨location, progress10000⟩ := position
      obtain ⟨rfl, hposition⟩ := ProgressStore.validPosition_eq_some_iff.mp hr
      -- the file is old or new, wherever the save stops
      have hsaves : ∀ m' : Machine,
          (m'.files (store.path token) = m.files (store.path token) ∨
            Holds m' (store.path token) (encode token location progress10000)) →
          (∀ x ∉ ({temporaryPath (store.path token) pid} : Set Path), x ≠ store.path token →
            m'.files x = m.files x) →
          Replaced store identity ⟨some location, progress10000⟩ m.files m'.files := by
        intro m' hown hothers
        refine .inr ⟨token, ht, ?_, fun path hpath htemp => hothers path (htemp pid) hpath⟩
        rcases hown with hown | ⟨ino, hown⟩
        · exact .inl hown
        · exact .inr ⟨ino, location, rfl, hposition, hown⟩
      refine (save_replaces ht hr pid m trivial).mono ?_ ?_
      · rintro result m' ⟨hok, hfail, hothers⟩
        refine hsaves m' ?_ hothers
        by_cases hresult : result = .ok
        · exact .inr (hok hresult)
        · exact .inl (hfail hresult)
      · rintro m' ⟨hown, hothers⟩
        exact hsaves m' hown hothers

/-- **A save, killed or not.** -/
theorem ends_saveRecord_replaced (store : ProgressStore.Store) (identity : BookIdentity)
    (record : Record) (w : World) :
    Ends (saveRecord store identity record) w
      (fun _ w' => w'.events = w.events ++ [.save identity record] ∧
        Replaced store identity record w.files w'.files)
      (fun w' => w'.events = w.events ++ [.save identity record] ∧
        Replaced store identity record w.files w'.files) := by
  unfold saveRecord
  rw [ends_bind, ends_log, ends_bind, ends_get, ends_sys]
  refine (ends_save_replaced store identity record _ _).mono ?_ ?_
  · intro _ m' h
    exact ⟨rfl, h⟩
  · intro m' h
    exact ⟨rfl, h⟩

/-! ## The operations -/

/-- The events of an operation, or of a part of one, and the files behind it. It writes nothing, or
it ends with the PUT of the stored record or with the save of a record that it was told; where it
is `guarded`, it sends only what the server was said not to have. -/
inductive Transfer (guarded : Prop) (documentPath : Option (List UInt8))
    (progressStore : Option ProgressStore.Store) (w : World) :
    List Event → (Path → Option Node) → Prop
  | quiet {events : List Event} (h : events.countP Event.isPut = 0) :
    Transfer guarded documentPath progressStore w events w.files
  | uploads {store : ProgressStore.Store} {identity : BookIdentity} {documentId : List UInt8}
    {record : Record} {events : List Event} {request : NetSimple.Request}
    (hstore : progressStore = some store) (hid : Identifies documentPath w identity documentId)
    (hstored : Stored store identity w.files record) (h : events.countP Event.isPut = 0)
    (hguard : guarded → ToldMissing documentId events)
    (hsends : Sends documentId (recordPlace record) request) (outcome : NetSimple.Outcome) :
    Transfer guarded documentPath progressStore w (events ++ [.exchange request outcome]) w.files
  | downloads {store : ProgressStore.Store} {identity : BookIdentity} {documentId : List UInt8}
    {record : Record} {events : List Event} {files : Path → Option Node}
    (hstore : progressStore = some store) (hid : Identifies documentPath w identity documentId)
    (h : events.countP Event.isPut = 0) (htold : Told documentId (recordPlace record) events)
    (hfiles : Replaced store identity record w.files files) :
    Transfer guarded documentPath progressStore w (events ++ [.save identity record]) files

/-- The world after an operation, or a part of one. -/
def Transferred (guarded : Prop) (documentPath : Option (List UInt8))
    (progressStore : Option ProgressStore.Store) (w w' : World) : Prop :=
  ∃ events, w'.events = w.events ++ events ∧
    Transfer guarded documentPath progressStore w events w'.files

theorem Identifies.proper {documentPath : Option (List UInt8)} {w : World}
    {identity : BookIdentity} {documentId : List UInt8}
    (h : Identifies documentPath w identity documentId) : IsDocumentId documentId := by
  obtain ⟨path, document, w', -, hid, hids⟩ := h
  exact identify_isDocumentId hid _ hids

section Operations

variable {guarded : Prop} {documentPath : Option (List UInt8)}
  {progressStore : Option ProgressStore.Store} {store : ProgressStore.Store}
  {identity : BookIdentity} {documentId : List UInt8} {record : Record} {events : List Event}
  {n : ℕ} {w w₀ : World}

theorem Read.transferred (h : Read n events w₀ w) :
    Transferred guarded documentPath progressStore w₀ w := by
  refine ⟨events, h.2.1, ?_⟩
  rw [h.1.files_eq]
  exact .quiet h.2.2.puts

/-- The save of what was told. -/
theorem ends_saveRecord_transfer (hstore : progressStore = some store)
    (hid : Identifies documentPath w₀ identity documentId) (hread : Read n events w₀ w)
    (htold : Told documentId (recordPlace record) events) :
    Ends (saveRecord store identity record) w
      (fun _ w' => Transferred guarded documentPath progressStore w₀ w')
      (Transferred guarded documentPath progressStore w₀) := by
  have hsaved : ∀ w', w'.events = w.events ++ [.save identity record] ∧
      Replaced store identity record w.files w'.files →
        Transferred guarded documentPath progressStore w₀ w' := by
    rintro w' ⟨he, hfiles⟩
    refine ⟨events ++ [.save identity record], ?_, ?_⟩
    · rw [he, hread.2.1, List.append_assoc]
    · rw [hread.1.files_eq] at hfiles
      exact .downloads hstore hid hread.2.2.puts htold hfiles
  exact (ends_saveRecord_replaced store identity record w).mono (fun _ w' h => hsaved w' h) hsaved

/-! ### The GET -/

/-- A GET and what it tells, after events that write nothing. -/
theorem ends_asked {α : Type} {f : Result × Progress × Outcome → Env α}
    (hid : Identifies documentPath w₀ identity documentId) (client : Client)
    (hread : Read 0 events w₀ w)
    (hf : ∀ answer more w', Read 1 more w₀ w' →
      (answer.1 = .ok → Told documentId (recordPlace (remoteRecord answer.2.1)) more) →
      (answer.1 = .notFound → ToldMissing documentId more) →
      Ends (f answer) w' (fun _ w' => Transferred guarded documentPath progressStore w₀ w')
        (Transferred guarded documentPath progressStore w₀)) :
    Ends (observed (fun r => .got documentId r.1) (getProgress client documentId progressInit) >>= f)
      w (fun _ w' => Transferred guarded documentPath progressStore w₀ w')
      (Transferred guarded documentPath progressStore w₀) := by
  rw [ends_bind, ends_observed]
  refine ((ends_run _ _).and (ends_getProgress client documentId progressInit)).mono ?_ ?_
  · rintro answer w₁ ⟨hrun, hget⟩
    obtain ⟨asked, hasked, -⟩ := getProgress_read hrun
    have hread₁ : Read 1 (events ++ asked ++ [.got documentId answer.1]) w₀
        (w₁.seen (.got documentId answer.1)) := by
      have := (hread.trans hasked).seen documentId answer.1
      rwa [Nat.zero_add] at this
    -- a GET that was not exchanged tells nothing
    rcases hget with ⟨-, -, -, hi⟩ | ⟨path, wire, alloc, -, hpath, ⟨-, he⟩, hanswer⟩
    · refine hf answer _ _ hread₁ ?_ ?_
      · intro hok
        rcases hi with hi | hi <;> rw [hok] at hi <;> cases hi
      · intro hnone
        rcases hi with hi | hi <;> rw [hnone] at hi <;> cases hi
    · obtain rfl : asked = [_] := List.append_cancel_left (hasked.2.1.symm.trans he)
      have hasks : Asks documentId (getRequest client path) :=
        ⟨rfl, hid.proper, endpointPath_suffix hpath⟩
      refine hf answer _ _ hread₁ ?_ ?_
      · intro hok
        rw [hanswer] at hok ⊢
        exact ⟨_, _, by simp, hasks, tells_of_getAnswer hok⟩
      · intro hnone
        rw [hanswer] at hnone
        exact ⟨_, _, alloc, by simp, hasks, hnone⟩
  · -- the program stopped in the GET
    rintro w₁ ⟨-, h⟩
    obtain ⟨asked, hasked⟩ := h.read fun request hr => by
      obtain ⟨path, -, rfl⟩ := hr
      rfl
    exact (hread.trans hasked).transferred

/-! ### Synchronizations -/

theorem ends_uploadLocal_transfer {setup : SyncSetup} {client : Client} {result : SyncResult}
    (hstore : progressStore = some store) (hid : Identifies documentPath w₀ identity documentId)
    (hstored : Stored store identity w₀.files record) (hread : Read n events w₀ w)
    (hmissing : ToldMissing documentId events) :
    Ends (uploadLocal setup client documentId record result) w
      (fun _ w' => Transferred guarded documentPath progressStore w₀ w')
      (Transferred guarded documentPath progressStore w₀) := by
  unfold uploadLocal
  dsimp only
  by_cases hneg : record.progress10000 < 0
  · rw [if_pos hneg]
    exact hread.transferred
  rw [if_neg hneg, ends_bind]
  refine (ends_sys_keeps keepsFiles_malloc).mono ?_
    fun w' h => (hread.trans (h.1.read h.2)).transferred
  rintro alloc w₁ ⟨hq, he⟩
  have hread₁ : Read n events w₀ w₁ := by
    have := hread.trans (hq.read he)
    rwa [Nat.add_zero, List.append_nil] at this
  rcases progressSet_cases alloc progressInit documentId record.location record.progress10000
    setup.device setup.deviceId with ⟨upload, hset⟩ | ⟨kosyncResult, hk, hset⟩
  · rw [hset]
    dsimp only
    rw [ends_bind]
    -- what is sent encodes the record
    have hput : ∀ w₂, AtMostOne (fun request => ∃ path json,
        serializeProgress upload (jsonMax + 1) = (.ok, some json) ∧
          request = putRequest client path json) w₁ w₂ →
        Transferred guarded documentPath progressStore w₀ w₂ := by
      rintro w₂ ⟨hq₂, he₂ | ⟨request, outcome, ⟨path, json, hjson, rfl⟩, he₂⟩⟩
      · exact (hread₁.trans (hq₂.read he₂)).transferred
      · obtain ⟨q, hq, hdoc, hlocation, hprogress, -⟩ :=
          parses_of_serialize Binary64.converts_nearest hset hjson progressInit
        have hsends : Sends documentId (recordPlace record) (putRequest client path json) :=
          ⟨rfl, json, q, rfl, hq, hdoc, Prod.ext hlocation hprogress⟩
        refine ⟨events ++ [.exchange (putRequest client path json) outcome], ?_, ?_⟩
        · rw [he₂, hread₁.2.1, List.append_assoc]
        · rw [hq₂.files_eq, hread₁.1.files_eq]
          exact .uploads hstore hid hstored hread.2.2.puts (fun _ => hmissing) hsends outcome
    refine (ends_putProgress client upload).mono ?_ hput
    intro answer w₂ h
    rcases h with ⟨hq₂, he₂, -⟩ | ⟨path, json, wire, alloc', -, hjson, ⟨hq₂, he₂⟩, -⟩
    · exact hput w₂ ⟨hq₂, .inl he₂⟩
    · exact hput w₂ ⟨hq₂, .inr ⟨_, _, ⟨path, json, hjson, rfl⟩, he₂⟩⟩
  · rw [hset]
    rcases hk with rfl | rfl <;> exact hread₁.transferred

theorem ends_reconcile_transfer {setup : SyncSetup} {client : Client} {result : SyncResult}
    (hstore : progressStore = some setup.store)
    (hid : Identifies documentPath w₀ identity documentId) (hread : Read n events w₀ w)
    (hlocal : result.localPresent = true → Stored setup.store identity w₀.files record)
    (hremote : result.remotePresent = true →
      Told documentId (recordPlace (remoteRecord result.remoteProgress)) events)
    (hmissing : result.remotePresent = false → ToldMissing documentId events) :
    Ends (reconcile setup client identity documentId record result) w
      (fun _ w' => Transferred guarded documentPath progressStore w₀ w')
      (Transferred guarded documentPath progressStore w₀) := by
  unfold reconcile
  by_cases hneither : ¬ result.localPresent ∧ ¬ result.remotePresent
  · rw [if_pos hneither]
    exact hread.transferred
  rw [if_neg hneither]
  by_cases hl : ¬ result.localPresent
  · -- only the remote side
    have hr : result.remotePresent = true := by
      by_contra h
      exact hneither ⟨hl, h⟩
    rw [if_pos hl, ends_bind]
    refine (ends_saveRecord_transfer hstore hid hread (hremote hr)).mono ?_ fun _ h => h
    intro saved w' h
    exact h
  rw [if_neg hl]
  by_cases hr : ¬ result.remotePresent
  · -- only the local side
    rw [if_pos hr]
    exact ends_uploadLocal_transfer hstore hid (hlocal (not_not.mp hl)) hread
      (hmissing (Bool.eq_false_iff.mpr hr))
  · rw [if_neg hr]
    exact hread.transferred

theorem ends_askRemote_transfer {setup : SyncSetup} {client : Client} {result : SyncResult}
    (hstore : progressStore = some setup.store)
    (hid : Identifies documentPath w₀ identity documentId) (hread : Read 0 events w₀ w)
    (hlocal : result.localPresent = true → Stored setup.store identity w₀.files record) :
    Ends (askRemote setup client identity documentId record result) w
      (fun _ w' => Transferred guarded documentPath progressStore w₀ w')
      (Transferred guarded documentPath progressStore w₀) := by
  unfold askRemote
  refine ends_asked hid client hread ?_
  intro answer more w' hmore htold hmissing
  dsimp only
  by_cases hfail : answer.1 ≠ .ok ∧ answer.1 ≠ .notFound
  · rw [if_pos hfail]
    exact hmore.transferred
  rw [if_neg hfail]
  refine ends_reconcile_transfer hstore hid hmore hlocal ?_ ?_
  · intro hpresent
    exact htold (of_decide_eq_true hpresent)
  · intro hpresent
    have hne : answer.1 ≠ .ok := of_decide_eq_false hpresent
    refine hmissing ?_
    by_contra hnone
    exact hfail ⟨hne, hnone⟩

theorem ends_syncDocument_transfer {setup : SyncSetup} {result : SyncResult}
    (hstore : progressStore = some setup.store)
    (hid : Identifies documentPath w₀ identity documentId) (hread : Read 0 events w₀ w) :
    Ends (syncDocument setup identity documentId result) w
      (fun _ w' => Transferred guarded documentPath progressStore w₀ w')
      (Transferred guarded documentPath progressStore w₀) := by
  unfold syncDocument
  rw [ends_bind]
  refine (ends_loadRecord _ _).mono ?_ fun _ h => (hread.trans h).transferred
  rintro ⟨loaded, record⟩ w₁ ⟨hload, hloads⟩
  have hread₁ := hread.trans hload
  dsimp only
  by_cases hfail : loaded ≠ .ok ∧ loaded ≠ .missing
  · rw [if_pos hfail]
    exact hread₁.transferred
  rw [if_neg hfail, ends_bind]
  refine (ends_openSession _ _ _ _).mono ?_ ?_
  · rintro session w₂ ⟨hsetup, -⟩
    obtain ⟨setupEvents, hopen⟩ := hsetup.read
    have hread₂ := hread₁.trans hopen
    cases session.client with
    | none => exact hread₂.transferred
    | some client =>
      refine ends_askRemote_transfer hstore hid hread₂ ?_
      -- a record that is present was loaded
      intro hpresent
      obtain rfl : loaded = .ok := of_decide_eq_true hpresent
      rw [← hread.1.files_eq]
      exact hloads.stored
  · intro w₂ hsetup
    obtain ⟨setupEvents, hopen⟩ := hsetup.read
    exact (hread₁.trans hopen).transferred

/-- **What a synchronization carries over**, killed or not. -/
theorem ends_syncOnce_transfer (config : SyncConfig) (w : World) :
    Ends (syncOnce config) w
      (fun _ w' => Transferred True config.documentPath config.progressStore w w')
      (Transferred True config.documentPath config.progressStore w) := by
  unfold syncOnce
  cases hc : config.accepted with
  | none => exact (Read.refl w).transferred
  | some setup =>
    dsimp only
    rw [ends_bind]
    refine ((ends_run _ _).and (ends_identify _)).mono ?_
      fun _ h => (h.2.1.read h.2.2).transferred
    rintro document w₁ ⟨hid, hq, he, -⟩
    have hread := hq.read he
    cases hids : document.ids with
    | none => exact hread.transferred
    | some ids =>
      exact ends_syncDocument_transfer (accepted_store hc)
        ⟨_, document, w₁, accepted_documentPath hc, hid, hids⟩ hread

/-! ### Pulls and pushes -/

theorem ends_pullRecord_transfer {setup : PullSetup} {result : PullResult}
    (hstore : progressStore = some setup.store)
    (hid : Identifies documentPath w₀ identity documentId) (client : Client)
    (hread : Read 0 events w₀ w) :
    Ends (pullRecord setup client identity documentId result) w
      (fun _ w' => Transferred guarded documentPath progressStore w₀ w')
      (Transferred guarded documentPath progressStore w₀) := by
  unfold pullRecord
  refine ends_asked hid client hread ?_
  intro answer more w' hmore htold hmissing
  dsimp only
  split_ifs with hok
  · rw [ends_bind]
    refine (ends_saveRecord_transfer hstore hid hmore (htold hok)).mono ?_ fun _ h => h
    intro saved w'' h
    exact h
  · exact hmore.transferred

/-- **What a pull carries over**, killed or not. -/
theorem ends_pullRemoteOnce_transfer (config : PullConfig) (w : World) :
    Ends (pullRemoteOnce config) w
      (fun _ w' => Transferred guarded config.documentPath config.progressStore w w')
      (Transferred guarded config.documentPath config.progressStore w) := by
  unfold pullRemoteOnce
  cases hc : config.accepted with
  | none => exact (Read.refl w).transferred
  | some setup =>
    dsimp only
    rw [ends_bind]
    refine ((ends_run _ _).and (ends_identify _)).mono ?_
      fun _ h => (h.2.1.read h.2.2).transferred
    rintro document w₁ ⟨hid, hq, he, -⟩
    have hread := hq.read he
    cases hids : document.ids with
    | none => exact hread.transferred
    | some ids =>
      have hidentifies : Identifies config.documentPath w ids.1 ids.2 :=
        ⟨_, document, w₁, PullConfig.accepted_documentPath hc, hid, hids⟩
      unfold pullDocument
      dsimp only
      rw [ends_bind]
      refine (ends_openSession _ _ _ _).mono ?_ ?_
      · rintro session w₂ ⟨hsetup, -⟩
        obtain ⟨setupEvents, hopen⟩ := hsetup.read
        have hread₂ := hread.trans hopen
        cases session.client with
        | none => exact hread₂.transferred
        | some client =>
          exact ends_pullRecord_transfer (PullConfig.accepted_store hc) hidentifies client hread₂
      · intro w₂ hsetup
        obtain ⟨setupEvents, hopen⟩ := hsetup.read
        exact (hread.trans hopen).transferred

/-- A push carries the place of its record. -/
theorem Carries.sends {config : PushConfig} {request : NetSimple.Request}
    (h : Carries config record documentId request) :
    Sends documentId (recordPlace record) request := by
  obtain ⟨hmethod, json, hbody, hparse⟩ := h
  obtain ⟨q, hq, hdoc, hlocation, hprogress, -⟩ := hparse progressInit
  exact ⟨hmethod, json, q, hbody, hq, hdoc, Prod.ext hlocation hprogress⟩

/-- **What a push carries over**, killed or not. -/
theorem ends_pushLocalOnce_transfer (config : PushConfig) (w : World) :
    Ends (pushLocalOnce config) w
      (fun _ w' => Transferred False config.documentPath config.progressStore w w')
      (Transferred False config.documentPath config.progressStore w) := by
  have htransfer : ∀ w', PushLeft config w w' →
      Transferred False config.documentPath config.progressStore w w' := by
    rintro w' ⟨hfiles, events, he, htrail⟩
    refine ⟨events, he, ?_⟩
    rw [hfiles]
    cases htrail with
    | idle => exact .quiet rfl
    | loaded identity result => exact .quiet rfl
    | opened hvalid hsetup => exact .quiet (by simp [(counts_setup hsetup).2.1, Event.isPut])
    | @sent identity record upload hvalid setup hsetup request hcarries outcome =>
      obtain ⟨store, hstore, hstored⟩ := hvalid.stored
      have hquiet : (.load identity .ok :: setup).countP Event.isPut = 0 := by
        simp [(counts_setup hsetup).2.1, Event.isPut]
      exact .uploads hstore hvalid.identifies hstored hquiet False.elim hcarries.sends outcome
  exact (ends_pushLocalOnce_left config w).mono (fun _ w' h => htransfer w' h) htransfer

end Operations

end Kosync
