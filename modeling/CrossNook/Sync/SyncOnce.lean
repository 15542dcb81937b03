import CrossNook.Book.KoreaderIdentity
import CrossNook.Sync.Session

/-!
# One synchronization

The one-shot synchronization of a document (`sync/kosync_sync.c`): it loads the local record, gets
the remote one and writes at most one of the two.

## Main definitions

* `Kosync.SyncConfig`, `Kosync.SyncResult`: `cn_kosync_sync_config`, `cn_kosync_sync_result`
* `Kosync.syncOnce`: `cn_kosync_sync_once`
* `Kosync.Guarded`: what a synchronization may do to the two records

## Main results

* `Kosync.ends_syncOnce`: how a synchronization can end
* `Kosync.syncOnce_guarded`: a synchronization writes at most one record, and only where the
  other side has shown that it has the only copy
-/

namespace Kosync

open Crash Posix

/-- `cn_kosync_sync_status`. -/
inductive SyncStatus
  | ok
  | invalid
  | identityFailed
  | localFailed
  | localUnsupported
  | trustedTimeFailed
  | dnsFailed
  | authFailed
  | httpsFailed
  | protocolFailed
  | noMemory
  deriving DecidableEq, Repr

/-- `cn_kosync_sync_decision`. -/
inductive Decision
  | none
  | noState
  | localSelected
  | remoteSelected
  | noChange
  | ambiguous
  deriving DecidableEq, Repr

/-- `cn_kosync_sync_config`, with `none` for `NULL`; of the time configuration, whether there is
one. -/
structure SyncConfig where
  documentPath : Option (List UInt8)
  progressStore : Option ProgressStore.Store
  timePolicy : TimePolicy
  time : Bool
  dns : Option DnsConfig
  tls : Option TlsConfig
  client : Option Client
  device : Option (List UInt8)
  deviceId : Option (List UInt8)

/-- `cn_kosync_sync_result`; `documentId` is the text of the identity. -/
structure SyncResult where
  status : SyncStatus
  decision : Decision
  localPresent : Bool
  remotePresent : Bool
  localSaveAttempted : Bool
  remotePutAttempted : Bool
  localSaved : Bool
  remoteUploaded : Bool
  documentId : List UInt8
  remoteProgress : Progress
  localIdentityOk : Bool
  identityResult : KoreaderIdentity.Result
  localLoadResult : ProgressStore.Result
  localSaveResult : ProgressStore.Result
  timeResult : TimeResult
  dnsResult : DnsResult
  kosyncResult : Result
  kosyncOutcome : Outcome
  putTimestamp : ℤ
  hasPutTimestamp : Bool
  deriving DecidableEq, Repr

/-- `cn_kosync_sync_result_init`. -/
def syncResultInit : SyncResult where
  status := .invalid
  decision := .none
  localPresent := false
  remotePresent := false
  localSaveAttempted := false
  remotePutAttempted := false
  localSaved := false
  remoteUploaded := false
  documentId := []
  remoteProgress := progressInit
  localIdentityOk := false
  identityResult := .invalid
  localLoadResult := .invalid
  localSaveResult := .invalid
  timeResult := .invalid
  dnsResult := .invalid
  kosyncResult := .invalid
  kosyncOutcome := initOutcome
  putTimestamp := 0
  hasPutTimestamp := false

/-- `map_kosync`. -/
def mapKosync : Result → SyncStatus
  | .authFailed => .authFailed
  | .transportError => .httpsFailed
  | .httpError | .badJson | .badProtocol => .protocolFailed
  | .noMemory => .noMemory
  | .ok | .notFound | .invalid => .invalid

/-! ## The records -/

/-- `cn_progress_record_init`. -/
def recordInit : ProgressStore.Record := ⟨none, -1⟩

/-- The local record of a remote one: its position alone. -/
def remoteRecord (remote : Progress) : ProgressStore.Record :=
  ⟨remote.logicalPosition, remote.progress10000⟩

/-- A call of `cn_progress_store_load`. -/
def loadRecord (store : ProgressStore.Store) (identity : BookIdentity) :
    Env (ProgressStore.Result × ProgressStore.Record) :=
  observed (fun r => .load identity r.1) (sys (ProgressStore.load store identity recordInit))

/-- A call of `cn_progress_store_save`. -/
def saveRecord (store : ProgressStore.Store) (identity : BookIdentity)
    (record : ProgressStore.Record) : Env ProgressStore.Result := do
  log (.save identity record)
  let w ← Prog.get
  sys (ProgressStore.save store identity record w.pid)

/-! ## The stages -/

/-- A configuration that passed the check of `cn_kosync_sync_once`. -/
structure SyncSetup where
  documentPath : List UInt8
  store : ProgressStore.Store
  timePolicy : TimePolicy
  tls : TlsConfig
  client : Client
  device : List UInt8
  deviceId : List UInt8

/-- The check of `cn_kosync_sync_once`. -/
def SyncConfig.accepted (config : SyncConfig) : Option SyncSetup := do
  let documentPath ← config.documentPath
  let store ← config.progressStore
  let _ ← config.dns
  let tls ← config.tls
  let client ← config.client
  let device ← config.device
  let deviceId ← config.deviceId
  if ¬ client.useTls ∨ (config.timePolicy = .establish ∧ (¬ config.time ∨ tls.getTime)) then none
  else
    some { documentPath, store, timePolicy := config.timePolicy, tls, client, device, deviceId }

/-- The results of the calls that identify a document; `ids` are its two identities where all
succeeded. -/
structure Document where
  localIdentityOk : Bool
  identityResult : KoreaderIdentity.Result
  documentId : List UInt8
  ids : Option (BookIdentity × List UInt8)

/-- The calls that identify a document. -/
def identify (documentPath : List UInt8) : Env Document :=
  match BookIdentity.fromPath (some documentPath) with
  | none => return ⟨false, .invalid, [], none⟩
  | some identity => do
    let (identityResult, documentId) ← sys (KoreaderIdentity.koreaderBinary documentPath)
    if identityResult ≠ .ok then return ⟨true, identityResult, documentId, none⟩
    else
      return ⟨true, .ok, documentId, (KoreaderIdentity.documentIdText documentId).map (identity, ·)⟩

/-- The result after a save. -/
def SyncResult.imported (result : SyncResult) (saved : ProgressStore.Result) : SyncResult :=
  let result := { result with
    decision := .remoteSelected, localSaveAttempted := true, localSaveResult := saved }
  if saved ≠ .ok then
    { result with status := if saved = .noMemory then .noMemory else .localFailed }
  else { result with localSaved := true, status := .ok }

/-- The result after a PUT. -/
def SyncResult.uploaded (result : SyncResult) (answer : Result × Option ℤ × Outcome) :
    SyncResult :=
  let (kosyncResult, timestamp, kosyncOutcome) := answer
  let result := { result with remotePutAttempted := true, kosyncResult, kosyncOutcome }
  if kosyncResult ≠ .ok then { result with status := mapKosync kosyncResult }
  else
    { result with
      remoteUploaded := true
      putTimestamp := timestamp.getD result.putTimestamp
      hasPutTimestamp := true
      status := .ok }

/-- The result where both sides have a record. -/
def SyncResult.compared (result : SyncResult) (record : ProgressStore.Record) : SyncResult :=
  { result with
    decision :=
      if record.location = result.remoteProgress.logicalPosition then .noChange else .ambiguous
    status := .ok }

/-- `cn_kosync_sync_once` where only the local side has a record. -/
def uploadLocal (setup : SyncSetup) (client : Client) (documentId : List UInt8)
    (record : ProgressStore.Record) (result : SyncResult) : Env SyncResult :=
  let result := { result with decision := .localSelected }
  if record.progress10000 < 0 then return { result with status := .localUnsupported }
  else do
    let alloc ← sys malloc
    match progressSet alloc progressInit documentId record.location record.progress10000
      setup.device setup.deviceId with
    | (.ok, upload) => do
      let answer ← putProgress client upload
      return result.uploaded answer
    | (kosyncResult, _) => return { result with kosyncResult, status := mapKosync kosyncResult }

/-- `cn_kosync_sync_once` after both records are known to be there or not. -/
def reconcile (setup : SyncSetup) (client : Client) (identity : BookIdentity)
    (documentId : List UInt8) (record : ProgressStore.Record) (result : SyncResult) :
    Env SyncResult :=
  if ¬ result.localPresent ∧ ¬ result.remotePresent then
    return { result with decision := .noState, status := .ok }
  else if ¬ result.localPresent then do
    let saved ← saveRecord setup.store identity (remoteRecord result.remoteProgress)
    return result.imported saved
  else if ¬ result.remotePresent then uploadLocal setup client documentId record result
  else return result.compared record

/-- The result after the GET. -/
def SyncResult.asked (result : SyncResult) (answer : Result × Progress × Outcome) : SyncResult :=
  let (kosyncResult, remoteProgress, kosyncOutcome) := answer
  { result with kosyncResult, remoteProgress, kosyncOutcome, remotePresent := kosyncResult = .ok }

/-- `cn_kosync_sync_once` after the client is routed. -/
def askRemote (setup : SyncSetup) (client : Client) (identity : BookIdentity)
    (documentId : List UInt8) (record : ProgressStore.Record) (result : SyncResult) :
    Env SyncResult := do
  let answer ← observed (fun r => .got documentId r.1) (getProgress client documentId progressInit)
  let result := result.asked answer
  if answer.1 ≠ .ok ∧ answer.1 ≠ .notFound then
    return { result with status := mapKosync answer.1 }
  else reconcile setup client identity documentId record result

/-- The status of a session that could not be opened. -/
def Session.status (session : Session) : SyncStatus :=
  if session.timeResult ≠ .ok then .trustedTimeFailed
  else if session.dnsResult ≠ .ok then .dnsFailed
  else mapKosync session.kosyncResult

/-- The result after the calls that open a session. -/
def SyncResult.opened (result : SyncResult) (session : Session) : SyncResult :=
  { result with
    timeResult := session.timeResult
    dnsResult := session.dnsResult
    kosyncResult := session.kosyncResult }

/-- The result after the load. -/
def SyncResult.loaded (result : SyncResult) (loaded : ProgressStore.Result) : SyncResult :=
  { result with localLoadResult := loaded, localPresent := loaded = .ok }

/-- `cn_kosync_sync_once` after the document is identified. -/
def syncDocument (setup : SyncSetup) (identity : BookIdentity) (documentId : List UInt8)
    (result : SyncResult) : Env SyncResult := do
  let (loaded, record) ← loadRecord setup.store identity
  let result := result.loaded loaded
  if loaded ≠ .ok ∧ loaded ≠ .missing then
    return { result with status := if loaded = .noMemory then .noMemory else .localFailed }
  else do
    let session ← openSession setup.timePolicy setup.tls setup.client
    let result := result.opened session
    match session.client with
    | none => return { result with status := session.status }
    | some client => askRemote setup client identity documentId record result

/-- The result after the calls that identify a document. -/
def SyncResult.identified (result : SyncResult) (document : Document) : SyncResult :=
  { result with
    localIdentityOk := document.localIdentityOk
    identityResult := document.identityResult
    documentId := document.documentId }

/-- `cn_kosync_sync_once` on a result that is initialized. -/
def syncOnce (config : SyncConfig) : Env SyncResult :=
  match config.accepted with
  | none => return { syncResultInit with status := .invalid }
  | some setup => do
    let document ← identify setup.documentPath
    let result := syncResultInit.identified document
    match document.ids with
    | none => return { result with status := .identityFailed }
    | some (identity, documentId) => syncDocument setup identity documentId result

/-! ## How a synchronization ends -/

/-- The world after the event of a GET. -/
def World.seen (w : World) (event : Event) : World := { w with events := w.events ++ [event] }

@[simp] theorem World.seen_files (w : World) (event : Event) : (w.seen event).files = w.files := rfl

@[simp] theorem World.seen_heaps (w : World) (event : Event) : (w.seen event).heaps = w.heaps := rfl

@[simp] theorem World.seen_events (w : World) (event : Event) :
    (w.seen event).events = w.events ++ [event] := rfl

/-- The runs of `reconcile`. -/
inductive Reconciled (setup : SyncSetup) (client : Client) (identity : BookIdentity)
    (documentId : List UInt8) (record : ProgressStore.Record) (result : SyncResult) (w : World) :
    SyncResult → World → Prop
  | noState (hl : result.localPresent = false) (hr : result.remotePresent = false) :
    Reconciled setup client identity documentId record result w
      { result with decision := .noState, status := .ok } w
  | imported (hl : result.localPresent = false) (hr : result.remotePresent = true)
    {saved : ProgressStore.Result} {w' : World}
    (h : saveRecord setup.store identity (remoteRecord result.remoteProgress) w = (some saved, w')) :
    Reconciled setup client identity documentId record result w (result.imported saved) w'
  | unsupported (hl : result.localPresent = true) (hr : result.remotePresent = false)
    (h : record.progress10000 < 0) :
    Reconciled setup client identity documentId record result w
      { result with decision := .localSelected, status := .localUnsupported } w
  | unset (hl : result.localPresent = true) (hr : result.remotePresent = false)
    (h : 0 ≤ record.progress10000) {w' : World} (hq : Quiet w w') (he : w'.events = w.events)
    {kosyncResult : Result} (hk : kosyncResult = .invalid ∨ kosyncResult = .noMemory) :
    Reconciled setup client identity documentId record result w
      { result with decision := .localSelected, kosyncResult, status := mapKosync kosyncResult } w'
  | put (hl : result.localPresent = true) (hr : result.remotePresent = false)
    {w₁ w' : World} (hq : Quiet w w₁) (he : w₁.events = w.events) {alloc : Bool} {upload : Progress}
    (hset : progressSet alloc progressInit documentId record.location record.progress10000
      setup.device setup.deviceId = (.ok, upload))
    {answer : Result × Option ℤ × Outcome} (h : putProgress client upload w₁ = (some answer, w')) :
    Reconciled setup client identity documentId record result w
      ({ result with decision := .localSelected }.uploaded answer) w'
  | compared (hl : result.localPresent = true) (hr : result.remotePresent = true) :
    Reconciled setup client identity documentId record result w (result.compared record) w

/-- The runs of `askRemote`. -/
inductive Asked (setup : SyncSetup) (client : Client) (identity : BookIdentity)
    (documentId : List UInt8) (record : ProgressStore.Record) (result : SyncResult) (w : World) :
    SyncResult → World → Prop
  | failed {answer : Result × Progress × Outcome} {w₁ : World}
    (hget : getProgress client documentId progressInit w = (some answer, w₁))
    (hok : answer.1 ≠ .ok) (hnf : answer.1 ≠ .notFound) :
    Asked setup client identity documentId record result w
      { result.asked answer with status := mapKosync answer.1 } (w₁.seen (.got documentId answer.1))
  | reconciled {answer : Result × Progress × Outcome} {w₁ : World}
    (hget : getProgress client documentId progressInit w = (some answer, w₁))
    (hr : answer.1 = .ok ∨ answer.1 = .notFound) {final : SyncResult} {w' : World}
    (h : Reconciled setup client identity documentId record (result.asked answer)
      (w₁.seen (.got documentId answer.1)) final w') :
    Asked setup client identity documentId record result w final w'

/-- The runs of `syncDocument`. -/
inductive Synced (setup : SyncSetup) (identity : BookIdentity) (documentId : List UInt8)
    (result : SyncResult) (w : World) : SyncResult → World → Prop
  | failed {loaded : ProgressStore.Result} {record : ProgressStore.Record} {w' : World}
    (hload : loadRecord setup.store identity w = (some (loaded, record), w'))
    (hok : loaded ≠ .ok) (hmissing : loaded ≠ .missing) :
    Synced setup identity documentId result w
      { result.loaded loaded with
        status := if loaded = .noMemory then .noMemory else .localFailed } w'
  | unopened {loaded : ProgressStore.Result} {record : ProgressStore.Record} {w₁ w' : World}
    (hload : loadRecord setup.store identity w = (some (loaded, record), w₁))
    (hl : loaded = .ok ∨ loaded = .missing) {session : Session}
    (hopen : openSession setup.timePolicy setup.tls setup.client w₁ = (some session, w'))
    (hc : session.client = none) :
    Synced setup identity documentId result w
      { (result.loaded loaded).opened session with status := session.status } w'
  | asked {loaded : ProgressStore.Result} {record : ProgressStore.Record} {w₁ w₂ w' : World}
    (hload : loadRecord setup.store identity w = (some (loaded, record), w₁))
    (hl : loaded = .ok ∨ loaded = .missing) {session : Session} {client : Client}
    (hopen : openSession setup.timePolicy setup.tls setup.client w₁ = (some session, w₂))
    (hc : session.client = some client) {final : SyncResult}
    (h : Asked setup client identity documentId record ((result.loaded loaded).opened session) w₂
      final w') :
    Synced setup identity documentId result w final w'

/-- The runs of `syncOnce`. -/
inductive Completed (config : SyncConfig) (w : World) : SyncResult → World → Prop
  | rejected (h : config.accepted = none) :
    Completed config w { syncResultInit with status := .invalid } w
  | unidentified {setup : SyncSetup} (hc : config.accepted = some setup) {document : Document}
    {w' : World} (hid : identify setup.documentPath w = (some document, w'))
    (hids : document.ids = none) :
    Completed config w { syncResultInit.identified document with status := .identityFailed } w'
  | synced {setup : SyncSetup} (hc : config.accepted = some setup) {document : Document}
    {w₁ w' : World} (hid : identify setup.documentPath w = (some document, w₁))
    {identity : BookIdentity} {documentId : List UInt8}
    (hids : document.ids = some (identity, documentId)) {final : SyncResult}
    (h : Synced setup identity documentId (syncResultInit.identified document) w₁ final w') :
    Completed config w final w'

/-! ## The traces of a synchronization -/

/-- An exchange of a GET. -/
def Event.isGet : Event → Bool
  | .exchange request _ => request.method = .get
  | _ => false

/-- An exchange of a PUT. -/
def Event.isPut : Event → Bool
  | .exchange request _ => request.method = .put
  | _ => false

/-- A save of a local record. -/
def Event.isSave : Event → Bool
  | .save _ _ => true
  | _ => false

/-- The events write nothing and ask at most `n` times. -/
structure ReadOnly (n : ℕ) (events : List Event) : Prop where
  gets : events.countP Event.isGet ≤ n
  puts : events.countP Event.isPut = 0
  saves : events.countP Event.isSave = 0

theorem ReadOnly.append {m n : ℕ} {a b : List Event} (ha : ReadOnly m a) (hb : ReadOnly n b) :
    ReadOnly (m + n) (a ++ b) where
  gets := by
    rw [List.countP_append]
    exact Nat.add_le_add ha.gets hb.gets
  puts := by rw [List.countP_append, ha.puts, hb.puts]
  saves := by rw [List.countP_append, ha.saves, hb.saves]

theorem ReadOnly.nil : ReadOnly 0 [] := ⟨le_rfl, rfl, rfl⟩

theorem readOnly_setup {events : List Event} (h : ∀ e ∈ events, e.IsSetup) : ReadOnly 0 events := by
  have hnone : ∀ p : Event → Bool, (∀ e, e.IsSetup → p e = false) → events.countP p = 0 :=
    fun p hp => List.countP_eq_zero.mpr fun e he => by simp [hp e (h e he)]
  refine ⟨(hnone _ ?_).le, hnone _ ?_, hnone _ ?_⟩ <;>
  · rintro (_ | _ | _ | _ | _ | _) he <;> first | rfl | cases he

theorem ReadOnly.not_exchange {events : List Event} (h : ReadOnly 0 events)
    {request : NetSimple.Request} {outcome : NetSimple.Outcome} :
    .exchange request outcome ∉ events := by
  intro hmem
  have hget := List.countP_eq_zero.mp (Nat.le_zero.mp h.gets) _ hmem
  have hput := List.countP_eq_zero.mp h.puts _ hmem
  simp only [Event.isGet, Event.isPut, decide_eq_true_eq] at hget hput
  cases hm : request.method <;> simp [hm] at hget hput

/-- The world after events that write nothing. -/
def Read (n : ℕ) (events : List Event) (w w' : World) : Prop :=
  Quiet w w' ∧ w'.events = w.events ++ events ∧ ReadOnly n events

theorem Read.refl (w : World) : Read 0 [] w w := ⟨.refl w, (List.append_nil _).symm, .nil⟩

theorem Read.trans {m n : ℕ} {a b : List Event} {w w' w'' : World} (h : Read m a w w')
    (h' : Read n b w' w'') : Read (m + n) (a ++ b) w w'' :=
  ⟨h.1.trans h'.1, by rw [h'.2.1, h.2.1, List.append_assoc], h.2.2.append h'.2.2⟩

theorem Read.le {m n : ℕ} {events : List Event} {w w' : World} (h : Read m events w w')
    (hmn : m ≤ n) : Read n events w w' :=
  ⟨h.1, h.2.1, h.2.2.gets.trans hmn, h.2.2.puts, h.2.2.saves⟩

theorem Quiet.read {w w' : World} (h : Quiet w w') (he : w'.events = w.events) : Read 0 [] w w' :=
  ⟨h, he.trans (List.append_nil _).symm, .nil⟩

theorem SetUp.read {w w' : World} (h : SetUp w w') : ∃ events, Read 0 events w w' := by
  obtain ⟨hq, events, he, hall⟩ := h
  exact ⟨events, hq, he, readOnly_setup hall⟩

theorem AtMostOne.read {P : NetSimple.Request → Prop} {w w' : World} (h : AtMostOne P w w')
    (hP : ∀ request, P request → request.method = .get) : ∃ events, Read 1 events w w' := by
  obtain ⟨hq, he | ⟨request, outcome, hr, he⟩⟩ := h
  · exact ⟨[], hq, by simp [he], Nat.zero_le _, rfl, rfl⟩
  · have hget := hP request hr
    refine ⟨[.exchange request outcome], hq, he, ?_, ?_, rfl⟩
    · exact List.countP_le_length
    · simp [Event.isPut, hget]

/-- The request carries a record of the document. -/
def Puts (documentId : List UInt8) (request : NetSimple.Request) : Prop :=
  request.method = .put ∧ ∃ progress json, progress.documentId = documentId ∧
    serializeProgress progress (jsonMax + 1) = (.ok, some json) ∧ request.body = some json

/-- The exchanges were answered with the given result of a GET. -/
def Answered (documentId : List UInt8) (got : Result) (events : List Event) : Prop :=
  ∀ request outcome, .exchange request outcome ∈ events →
    ∃ alloc, (getAnswer alloc documentId progressInit outcome).1 = got

/-- The events of a synchronization: it reads, and then it may write the side that has shown that
it has no record. -/
inductive Trace (identity : BookIdentity) (documentId : List UInt8) : List Event → Prop
  | reads {events : List Event} (h : ReadOnly 1 events) : Trace identity documentId events
  | saved {events : List Event} (h : ReadOnly 1 events)
    (hload : .load identity .missing ∈ events) (hget : .got documentId .ok ∈ events)
    (hanswer : Answered documentId .ok events) (record : ProgressStore.Record) :
    Trace identity documentId (events ++ [.save identity record])
  | put {events : List Event} (h : ReadOnly 1 events)
    (hload : .load identity .ok ∈ events) (hget : .got documentId .notFound ∈ events)
    (hanswer : Answered documentId .notFound events) {request : NetSimple.Request}
    (hput : Puts documentId request) (outcome : NetSimple.Outcome) :
    Trace identity documentId (events ++ [.exchange request outcome])

/-- The world after a part of a synchronization. -/
def Traced (identity : BookIdentity) (documentId : List UInt8) (w w' : World) : Prop :=
  ∃ events, w'.events = w.events ++ events ∧ Trace identity documentId events ∧
    (events.countP Event.isSave = 0 → w'.files = w.files)

theorem Read.traced {identity : BookIdentity} {documentId : List UInt8} {n : ℕ}
    {events : List Event} {w w' : World} (h : Read n events w w') (hn : n ≤ 1) :
    Traced identity documentId w w' :=
  ⟨events, h.2.1, .reads ⟨h.2.2.gets.trans hn, h.2.2.puts, h.2.2.saves⟩, fun _ => h.1.files_eq⟩

/-- The world after the write of a reconciliation, for the results of the load and of the GET. -/
inductive Wrote (identity : BookIdentity) (documentId : List UInt8)
    (loaded : ProgressStore.Result) (got : Result) (w : World) : World → Prop
  | nothing {w' : World} (hf : w'.files = w.files) (he : w'.events = w.events) :
    Wrote identity documentId loaded got w w'
  | saved {w' : World} (hl : loaded = .missing) (hg : got = .ok) (record : ProgressStore.Record)
    (he : w'.events = w.events ++ [.save identity record]) :
    Wrote identity documentId loaded got w w'
  | put {w' : World} (hl : loaded = .ok) (hg : got = .notFound) (hf : w'.files = w.files)
    {request : NetSimple.Request} (hp : Puts documentId request) (outcome : NetSimple.Outcome)
    (he : w'.events = w.events ++ [.exchange request outcome]) :
    Wrote identity documentId loaded got w w'

theorem Wrote.traced {identity : BookIdentity} {documentId : List UInt8}
    {loaded : ProgressStore.Result} {got : Result} {events : List Event} {w w₁ w' : World}
    (h : Wrote identity documentId loaded got w₁ w') (hr : Read 1 events w w₁)
    (hload : .load identity loaded ∈ events) (hget : .got documentId got ∈ events)
    (hanswer : Answered documentId got events) : Traced identity documentId w w' := by
  obtain ⟨hq₁, he₁, ho⟩ := hr
  have hf₁ := hq₁.files_eq
  cases h with
  | nothing hf he => exact ⟨events, he.trans he₁, .reads ho, fun _ => hf.trans hf₁⟩
  | saved hl hg record he =>
    subst hl hg
    refine ⟨events ++ [.save identity record], ?_, .saved ho hload hget hanswer record, fun h => ?_⟩
    · rw [he, he₁, List.append_assoc]
    · simp [Event.isSave] at h
  | put hl hg hf hp outcome he =>
    subst hl hg
    refine ⟨events ++ [.exchange _ outcome], ?_, .put ho hload hget hanswer hp outcome, fun _ => ?_⟩
    · rw [he, he₁, List.append_assoc]
    · exact hf.trans hf₁

/-! ## The runs of the stages -/

section Runs

variable {setup : SyncSetup} {client : Client} {identity : BookIdentity} {documentId : List UInt8}
  {record : ProgressStore.Record} {result : SyncResult} {w : World}

/-- A save logs itself before its first call. -/
theorem ends_saveRecord (store : ProgressStore.Store) (identity : BookIdentity)
    (record : ProgressStore.Record) :
    Ends (saveRecord store identity record) w
      (fun _ w' => w'.events = w.events ++ [.save identity record])
      fun w' => w'.events = w.events ++ [.save identity record] := by
  unfold saveRecord
  rw [ends_bind, ends_log, ends_bind, ends_get, ends_sys]
  exact (ends_run _ _).mono (fun _ _ _ => rfl) fun _ _ => rfl

theorem ends_uploadLocal (hl : result.localPresent = true) (hr : result.remotePresent = false) :
    Ends (uploadLocal setup client documentId record result) w
      (fun r w' => Reconciled setup client identity documentId record result w r w' ∧
        Wrote identity documentId .ok .notFound w w')
      (Wrote identity documentId .ok .notFound w) := by
  unfold uploadLocal
  dsimp only
  by_cases hneg : record.progress10000 < 0
  · rw [if_pos hneg]
    exact ⟨.unsupported hl hr hneg, .nothing rfl rfl⟩
  rw [if_neg hneg, ends_bind]
  refine (ends_sys_keeps keepsFiles_malloc).mono ?_ fun w' h => .nothing h.1.files_eq h.2
  rintro alloc w₁ ⟨hq, he⟩
  rcases progressSet_cases alloc progressInit documentId record.location record.progress10000
    setup.device setup.deviceId with ⟨upload, hset⟩ | ⟨kosyncResult, hk, hset⟩
  · rw [hset]
    dsimp only
    rw [ends_bind]
    -- whatever is sent is the record of the document
    have hputs : ∀ {path json : List UInt8},
        serializeProgress upload (jsonMax + 1) = (.ok, some json) →
          Puts documentId (putRequest client path json) := fun hjson =>
      ⟨rfl, upload, _, by rw [(progressSet_eq_ok hset).1], hjson, rfl⟩
    refine ((ends_run _ _).and (ends_putProgress client upload)).mono ?_ ?_
    · rintro answer w₂ ⟨hrun, h⟩
      refine ⟨.put hl hr hq he hset hrun, ?_⟩
      rcases h with ⟨hq', he', -⟩ | ⟨path, json, wire, alloc, -, hjson, ⟨hq', he'⟩, -⟩
      · exact .nothing (hq.trans hq').files_eq (he'.trans he)
      · exact .put rfl rfl (hq.trans hq').files_eq (hputs hjson) _ (he'.trans (by rw [he]))
    · -- the program stopped in the PUT: it was sent, or it was not
      rintro w₂ ⟨-, hq', he' | ⟨request, outcome, ⟨path, json, hjson, rfl⟩, he'⟩⟩
      · exact .nothing (hq.trans hq').files_eq (he'.trans he)
      · exact .put rfl rfl (hq.trans hq').files_eq (hputs hjson) outcome (he'.trans (by rw [he]))
  · rw [hset]
    have hfinal : Reconciled setup client identity documentId record result w
        { result with decision := .localSelected, kosyncResult, status := mapKosync kosyncResult } w₁ :=
      .unset hl hr (not_lt.mp hneg) hq he hk
    rcases hk with rfl | rfl <;> exact ⟨hfinal, .nothing hq.files_eq he⟩

theorem ends_reconcile {loaded : ProgressStore.Result} {got : Result}
    (hloaded : loaded = .ok ∨ loaded = .missing) (hl : result.localPresent = decide (loaded = .ok))
    (hgot : got = .ok ∨ got = .notFound) (hr : result.remotePresent = decide (got = .ok)) :
    Ends (reconcile setup client identity documentId record result) w
      (fun r w' => Reconciled setup client identity documentId record result w r w' ∧
        Wrote identity documentId loaded got w w')
      (Wrote identity documentId loaded got w) := by
  unfold reconcile
  rcases hloaded with rfl | rfl <;> rcases hgot with rfl | rfl <;>
    simp only [decide_true, decide_false, reduceCtorEq] at hl hr
  · -- both sides have a record
    rw [if_neg (by simp [hl]), if_neg (by simp [hl]), if_neg (by simp [hr])]
    exact ⟨.compared hl hr, .nothing rfl rfl⟩
  · -- only the local side
    rw [if_neg (by simp [hl]), if_neg (by simp [hl]), if_pos (by simp [hr])]
    exact ends_uploadLocal hl hr
  · -- only the remote side
    rw [if_neg (by simp [hr]), if_pos (by simp [hl]), ends_bind]
    refine ((ends_run _ _).and (ends_saveRecord _ _ _)).mono ?_ ?_
    · rintro saved w' ⟨hrun, he⟩
      exact ⟨.imported hl hr hrun, .saved rfl rfl _ he⟩
    · rintro w' ⟨-, he⟩
      exact .saved rfl rfl _ he
  · -- neither side
    rw [if_pos (by simp [hl, hr])]
    exact ⟨.noState hl hr, .nothing rfl rfl⟩

/-- The events of a GET, whose exchange is answered with its result. -/
theorem getProgress_read {answer : Result × Progress × Outcome} {w' : World}
    (h : getProgress client documentId progressInit w = (some answer, w')) :
    ∃ events, Read 1 events w w' ∧ Answered documentId answer.1 events := by
  rcases (ends_getProgress _ _ _).of_eq h with ⟨hq, he, -⟩ |
    ⟨path, wire, alloc, -, -, ⟨hq, he⟩, rfl⟩
  · exact ⟨[], (hq.read he).le zero_le_one, fun _ _ h => by cases h⟩
  · refine ⟨_, ⟨hq, he, List.countP_le_length, by simp [Event.isPut, getRequest], rfl⟩, ?_⟩
    intro request outcome hmem
    obtain ⟨rfl, rfl⟩ : request = _ ∧ outcome = _ := by simpa using hmem
    exact ⟨alloc, rfl⟩

/-- The stages from the GET on, after events that include the load. -/
theorem ends_askRemote {loaded : ProgressStore.Result} {events : List Event} {w₀ : World}
    (hloaded : loaded = .ok ∨ loaded = .missing) (hl : result.localPresent = decide (loaded = .ok))
    (hread : Read 0 events w₀ w) (hload : .load identity loaded ∈ events) :
    Ends (askRemote setup client identity documentId record result) w
      (fun r w' => Asked setup client identity documentId record result w r w' ∧
        Traced identity documentId w₀ w')
      (Traced identity documentId w₀) := by
  unfold askRemote
  rw [ends_bind, ends_observed]
  refine ((ends_run _ _).and (ends_getProgress client documentId progressInit)).mono ?_ ?_
  · rintro answer w₁ ⟨hrun, -⟩
    obtain ⟨asked, hasked, hanswer⟩ := getProgress_read hrun
    -- the trace now has the answer of the GET at its end
    have hgot : Read 1 (events ++ asked ++ [.got documentId answer.1]) w₀
        (w₁.seen (.got documentId answer.1)) :=
      (hread.trans hasked).trans (n := 0) ⟨⟨rfl, fun _ h => h⟩, rfl, ⟨le_rfl, rfl, rfl⟩⟩
    have hanswered : Answered documentId answer.1 (events ++ asked ++ [.got documentId answer.1]) := by
      intro request outcome hmem
      simp only [List.mem_append, List.mem_singleton, reduceCtorEq, or_false] at hmem
      rcases hmem with hmem | hmem
      · exact absurd hmem hread.2.2.not_exchange
      · exact hanswer request outcome hmem
    -- an answer that is neither a record nor `notFound` ends the call
    by_cases hfail : answer.1 ≠ .ok ∧ answer.1 ≠ .notFound
    · rw [if_pos hfail]
      exact ⟨.failed hrun hfail.1 hfail.2, hgot.traced le_rfl⟩
    rw [if_neg hfail]
    have hr : answer.1 = .ok ∨ answer.1 = .notFound := by
      by_contra h
      exact hfail (not_or.mp h)
    have hl' : (result.asked answer).localPresent = decide (loaded = .ok) := hl
    -- the stages behind it read only what is in the trace
    refine (ends_reconcile hloaded hl' hr rfl).mono ?_ ?_
    · rintro r w' ⟨h, hw⟩
      exact ⟨.reconciled hrun hr h, hw.traced hgot (by simp [hload]) (by simp) hanswered⟩
    · exact fun w' hw => hw.traced hgot (by simp [hload]) (by simp) hanswered
  · rintro w₁ ⟨-, h⟩
    obtain ⟨asked, hasked⟩ := h.read fun request hr => by
      obtain ⟨path, -, rfl⟩ := hr
      rfl
    exact (hread.trans hasked).traced le_rfl

/-- What a load makes of the files. -/
def Loads (store : ProgressStore.Store) (identity : BookIdentity) (files : Path → Option Node)
    (r : ProgressStore.Result × ProgressStore.Record) : Prop :=
  ∃ m m' : Machine, m.files = files ∧ ProgressStore.load store identity recordInit m = (some r, m')

/-- **A load of a record.** -/
theorem ends_loadRecord (store : ProgressStore.Store) (identity : BookIdentity) :
    Ends (loadRecord store identity) w
      (fun r w' => Read 0 [.load identity r.1] w w' ∧ Loads store identity w.files r)
      (Read 0 [] w) := by
  unfold loadRecord
  rw [ends_observed, ends_sys]
  have hload : Ends (ProgressStore.load store identity recordInit) w.machine
      (fun _ m => m.files = w.files) fun m => m.files = w.files := by
    cases htoken : identity.token with
    | none =>
      unfold ProgressStore.load
      rw [htoken]
      exact rfl
    | some token =>
      exact (ProgressStore.ends_load (H := False) False.elim store htoken).mono (fun _ _ h => h.1)
        fun _ h => h
  refine ((ends_run _ _).and hload).mono ?_ ?_
  · rintro r m ⟨hrun, h⟩
    exact ⟨⟨⟨h, fun _ h => h⟩, rfl, ⟨le_rfl, rfl, rfl⟩⟩, w.machine, m, rfl, hrun⟩
  · rintro m ⟨-, h⟩
    exact ⟨⟨h, fun _ h => h⟩, (List.append_nil _).symm, .nil⟩

theorem ends_syncDocument (setup : SyncSetup) (identity : BookIdentity) (documentId : List UInt8)
    (result : SyncResult) :
    Ends (syncDocument setup identity documentId result) w
      (fun r w' => Synced setup identity documentId result w r w' ∧
        Traced identity documentId w w')
      (Traced identity documentId w) := by
  unfold syncDocument
  rw [ends_bind]
  -- the load comes first; one that fails leaves the server unasked
  refine ((ends_run _ _).and (ends_loadRecord _ _)).mono ?_ fun _ h => h.2.traced zero_le_one
  rintro ⟨loaded, record⟩ w₁ ⟨hload, hread, -⟩
  dsimp only at hread ⊢
  by_cases hfail : loaded ≠ .ok ∧ loaded ≠ .missing
  · rw [if_pos hfail]
    exact ⟨.failed hload hfail.1 hfail.2, hread.traced zero_le_one⟩
  rw [if_neg hfail, ends_bind]
  have hl : loaded = .ok ∨ loaded = .missing := by
    by_contra h
    exact hfail (not_or.mp h)
  refine ((ends_run _ _).and (ends_openSession _ _ _ _)).mono ?_ ?_
  · rintro session w₂ ⟨hopen, hsetup, -⟩
    obtain ⟨events, hread'⟩ := hsetup.read
    have hread₂ := hread.trans hread'
    cases hc : session.client with
    | none => exact ⟨.unopened hload hl hopen hc, hread₂.traced zero_le_one⟩
    | some client =>
      refine (ends_askRemote hl ?_ hread₂ (by simp)).mono ?_ fun _ h => h
      · rfl
      · rintro r w' ⟨h, ht⟩
        exact ⟨.asked hload hl hopen hc h, ht⟩
  · rintro w₂ ⟨-, hsetup⟩
    obtain ⟨events, hread'⟩ := hsetup.read
    exact (hread.trans hread').traced zero_le_one

/-- **Identifying a document** reads only, and its first identity is that of the path. -/
theorem ends_identify (documentPath : List UInt8) :
    Ends (identify documentPath) w
      (fun document w' => Quiet w w' ∧ w'.events = w.events ∧
        ∀ ids ∈ document.ids, BookIdentity.fromPath (some documentPath) = some ids.1)
      fun w' => Quiet w w' ∧ w'.events = w.events := by
  unfold identify
  cases hpath : BookIdentity.fromPath (some documentPath) with
  | none => exact ⟨.refl w, rfl, by simp⟩
  | some identity =>
    dsimp only
    rw [ends_bind]
    refine (ends_sys_keeps (KoreaderIdentity.keepsFiles_koreaderBinary _)).mono ?_ fun _ h => h
    rintro ⟨identityResult, documentId⟩ w' ⟨hq, he⟩
    dsimp only
    by_cases hfail : identityResult ≠ .ok
    · rw [if_pos hfail]
      exact ⟨hq, he, by simp⟩
    · rw [if_neg hfail]
      refine ⟨hq, he, fun ids hids => ?_⟩
      obtain ⟨text, -, rfl⟩ := Option.map_eq_some_iff.mp hids
      rfl

end Runs

theorem accepted_documentPath {config : SyncConfig} {setup : SyncSetup}
    (h : config.accepted = some setup) : config.documentPath = some setup.documentPath := by
  unfold SyncConfig.accepted at h
  cases hpath : config.documentPath <;> simp [hpath, Option.bind_eq_some_iff] at h
  obtain ⟨_, -, _, -, _, -, _, -, _, -, _, -, -, -, rfl⟩ := h
  rfl

/-- **How a synchronization ends.** -/
theorem ends_syncOnce (config : SyncConfig) (w : World) :
    Ends (syncOnce config) w
      (fun r w' => Completed config w r w' ∧ (Read 0 [] w w' ∨ ∃ identity documentId,
        BookIdentity.fromPath config.documentPath = some identity ∧
          Traced identity documentId w w'))
      (fun w' => Read 0 [] w w' ∨ ∃ identity documentId,
        BookIdentity.fromPath config.documentPath = some identity ∧
          Traced identity documentId w w') := by
  unfold syncOnce
  cases hc : config.accepted with
  | none => exact ⟨.rejected hc, .inl (.refl w)⟩
  | some setup =>
    have hpath : config.documentPath = some setup.documentPath := accepted_documentPath hc
    dsimp only
    rw [ends_bind]
    refine ((ends_run _ _).and (ends_identify _)).mono ?_ fun _ h => .inl (h.2.1.read h.2.2)
    rintro document w₁ ⟨hid, hq, he, hfirst⟩
    cases hids : document.ids with
    | none => exact ⟨.unidentified hc hid hids, .inl (hq.read he)⟩
    | some ids =>
      obtain ⟨identity, documentId⟩ := ids
      have hidentity : BookIdentity.fromPath config.documentPath = some identity := by
        rw [hpath]
        exact hfirst _ hids
      -- identifying the document leaves no events
      have htraced : ∀ {w'}, Traced identity documentId w₁ w' → Traced identity documentId w w' := by
        rintro w' ⟨events, he', ht, hf⟩
        exact ⟨events, by rw [he', he], ht, fun hn => (hf hn).trans hq.files_eq⟩
      refine (ends_syncDocument setup identity documentId _).mono ?_ ?_
      · rintro r w' ⟨h, ht⟩
        exact ⟨.synced hc hid hids h, .inr ⟨identity, documentId, hidentity, htraced ht⟩⟩
      · exact fun w' ht => .inr ⟨identity, documentId, hidentity, htraced ht⟩

/-! ## What a synchronization writes -/

/-- What a synchronization may do: one GET, and one write of the side that has no record, as its
last step. -/
structure Guarded (config : SyncConfig) (events : List Event) : Prop where
  gets : events.countP Event.isGet ≤ 1
  puts : events.countP Event.isPut ≤ 1
  saves : events.countP Event.isSave ≤ 1
  exclusive : events.countP Event.isPut = 0 ∨ events.countP Event.isSave = 0
  put_of : ∀ request outcome, .exchange request outcome ∈ events → request.method = .put →
    ∃ before identity documentId, events = before ++ [.exchange request outcome] ∧
      BookIdentity.fromPath config.documentPath = some identity ∧
      .load identity .ok ∈ before ∧ .got documentId .notFound ∈ before ∧
      Answered documentId .notFound before ∧ Puts documentId request
  save_of : ∀ identity record, .save identity record ∈ events →
    ∃ before documentId, events = before ++ [.save identity record] ∧
      BookIdentity.fromPath config.documentPath = some identity ∧
      .load identity .missing ∈ before ∧ .got documentId .ok ∈ before ∧
      Answered documentId .ok before

theorem ReadOnly.not_put {n : ℕ} {events : List Event} (h : ReadOnly n events)
    {request : NetSimple.Request} {outcome : NetSimple.Outcome}
    (hmem : .exchange request outcome ∈ events) : request.method ≠ .put := by
  have := List.countP_eq_zero.mp h.puts _ hmem
  simpa [Event.isPut] using this

theorem ReadOnly.not_save {n : ℕ} {events : List Event} (h : ReadOnly n events)
    {identity : BookIdentity} {record : ProgressStore.Record} :
    .save identity record ∉ events := by
  intro hmem
  have := List.countP_eq_zero.mp h.saves _ hmem
  simp [Event.isSave] at this

theorem ReadOnly.guarded {config : SyncConfig} {events : List Event} (h : ReadOnly 1 events) :
    Guarded config events where
  gets := h.gets
  puts := by rw [h.puts]; exact zero_le_one
  saves := by rw [h.saves]; exact zero_le_one
  exclusive := .inl h.puts
  put_of := fun _ _ hmem hput => absurd hput (h.not_put hmem)
  save_of := fun _ _ hmem => absurd hmem h.not_save

theorem Trace.guarded {config : SyncConfig} {identity : BookIdentity} {documentId : List UInt8}
    {events : List Event} (h : Trace identity documentId events)
    (hidentity : BookIdentity.fromPath config.documentPath = some identity) :
    Guarded config events := by
  -- at most one event changes something, and it is the last
  cases h with
  | reads h => exact h.guarded
  | saved h hload hget hanswer record =>
    constructor
    · simpa [Event.isGet] using h.gets
    · simp [h.puts, Event.isPut]
    · simp [h.saves, Event.isSave]
    · exact .inl (by simp [h.puts, Event.isPut])
    · intro request outcome hmem hput
      rcases List.mem_append.mp hmem with hmem | hmem
      · exact absurd hput (h.not_put hmem)
      · simp at hmem
    · intro identity' record' hmem
      rcases List.mem_append.mp hmem with hmem | hmem
      · exact absurd hmem h.not_save
      · obtain ⟨rfl, rfl⟩ : identity' = identity ∧ record' = record := by simpa using hmem
        exact ⟨_, documentId, rfl, hidentity, hload, hget, hanswer⟩
  | put h hload hget hanswer hp outcome =>
    rename_i events request
    constructor
    · simpa [Event.isGet, hp.1] using h.gets
    · simp [h.puts, Event.isPut, hp.1]
    · simp [h.saves, Event.isSave]
    · exact .inr (by simp [h.saves, Event.isSave])
    · intro request' outcome' hmem hput
      rcases List.mem_append.mp hmem with hmem | hmem
      · exact absurd hput (h.not_put hmem)
      · obtain ⟨rfl, rfl⟩ : request' = request ∧ outcome' = outcome := by simpa using hmem
        exact ⟨_, identity, documentId, rfl, hidentity, hload, hget, hanswer, hp⟩
    · intro identity' record' hmem
      rcases List.mem_append.mp hmem with hmem | hmem
      · exact absurd hmem h.not_save
      · simp at hmem

/-- The world after a synchronization, or a part of one. -/
def Safe (config : SyncConfig) (w w' : World) : Prop :=
  ∃ events, w'.events = w.events ++ events ∧ Guarded config events ∧
    (events.countP Event.isSave = 0 → w'.files = w.files)

/-- **A synchronization overwrites neither side.** Whatever the four components answer, and
wherever it is killed, it makes at most one GET, one PUT and one save, and not both of the latter;
it uploads only where the local record was loaded and the GET of the same document was answered with
none, and it saves only where the load found none and the GET was answered with a record. In every
other run no file changes and no PUT is made. -/
theorem syncOnce_guarded (config : SyncConfig) (w : World) :
    Ends (syncOnce config) w (fun _ w' => Safe config w w') (Safe config w) := by
  have hsafe : ∀ w', (Read 0 [] w w' ∨ ∃ identity documentId,
      BookIdentity.fromPath config.documentPath = some identity ∧
        Traced identity documentId w w') → Safe config w w' := by
    rintro w' (h | ⟨identity, documentId, hidentity, events, he, ht, hf⟩)
    · exact ⟨[], h.2.1, ReadOnly.guarded ⟨zero_le_one, rfl, rfl⟩, fun _ => h.1.files_eq⟩
    · exact ⟨events, he, ht.guarded hidentity, hf⟩
  exact (ends_syncOnce config w).mono (fun _ w' h => hsafe w' h.2) hsafe

end Kosync
