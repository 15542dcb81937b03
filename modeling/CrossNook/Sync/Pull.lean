import CrossNook.Sync.Policy

/-!
# The explicit pull

The overwrite of the local record by the remote one that the user asks for
(`sync/kosync_pull.c`): one GET, and a save where it succeeded.

## Main definitions

* `Kosync.PullConfig`, `Kosync.PullResult`: `cn_kosync_pull_config`, `cn_kosync_pull_result`
* `Kosync.pullRemoteOnce`: `cn_kosync_pull_remote_once`

## Main results

* `Kosync.ends_pullRemoteOnce`: a pull makes at most one exchange, a GET, and its only write is a
  save of the record that the GET found
-/

namespace Kosync

open Crash Posix

/-- `cn_kosync_pull_status`. -/
inductive PullStatus
  | invalid
  | remoteMissing
  | persisted
  | identityFailed
  | trustedTimeFailed
  | dnsFailed
  | authFailed
  | httpsFailed
  | protocolFailed
  | localFailed
  | noMemory
  deriving DecidableEq, Repr

/-- `cn_kosync_pull_config`, with `none` for `NULL`; of the time configuration, whether there is
one. -/
structure PullConfig where
  documentPath : Option (List UInt8)
  progressStore : Option ProgressStore.Store
  timePolicy : TimePolicy
  time : Bool
  dns : Option DnsConfig
  tls : Option TlsConfig
  client : Option Client

/-- `cn_kosync_pull_result`. -/
structure PullResult where
  status : PullStatus
  identityResult : KoreaderIdentity.Result
  timeResult : TimeResult
  dnsResult : DnsResult
  kosyncResult : Result
  kosyncOutcome : Outcome
  localSaveResult : ProgressStore.Result
  getAttempted : Bool
  localSaveAttempted : Bool
  localSaved : Bool
  deriving DecidableEq, Repr

/-- `cn_kosync_pull_result_init`. -/
def pullResultInit : PullResult where
  status := .invalid
  identityResult := .invalid
  timeResult := .invalid
  dnsResult := .invalid
  kosyncResult := .invalid
  kosyncOutcome := initOutcome
  localSaveResult := .invalid
  getAttempted := false
  localSaveAttempted := false
  localSaved := false

/-- A configuration that passed the check of `cn_kosync_pull_remote_once`. -/
structure PullSetup where
  documentPath : List UInt8
  store : ProgressStore.Store
  timePolicy : TimePolicy
  tls : TlsConfig
  client : Client

/-- The check of `cn_kosync_pull_remote_once`. -/
def PullConfig.accepted (config : PullConfig) : Option PullSetup := do
  let documentPath ← config.documentPath
  let store ← config.progressStore
  let _ ← config.dns
  let tls ← config.tls
  let client ← config.client
  if tls.caPath = none ∨ ¬ client.useTls ∨
      (config.timePolicy = .establish ∧ (¬ config.time ∨ tls.getTime)) then none
  else some { documentPath, store, timePolicy := config.timePolicy, tls, client }

/-- The status of a pull whose GET failed. -/
def pullFailure : Result → PullStatus
  | .notFound => .remoteMissing
  | .authFailed => .authFailed
  | .transportError => .httpsFailed
  | .noMemory => .noMemory
  | .invalid => .invalid
  | .ok | .httpError | .badJson | .badProtocol => .protocolFailed

/-- The status of a pull whose session could not be opened. -/
def Session.pullStatus (session : Session) : PullStatus :=
  if session.timeResult ≠ .ok then .trustedTimeFailed
  else if session.dnsResult ≠ .ok then .dnsFailed
  else .invalid

/-- The result after the calls that open a session. -/
def PullResult.opened (result : PullResult) (session : Session) : PullResult :=
  { result with
    timeResult := session.timeResult
    dnsResult := session.dnsResult
    kosyncResult := session.kosyncResult }

/-- The result after the GET. -/
def PullResult.asked (result : PullResult) (answer : Result × Progress × Outcome) : PullResult :=
  let (kosyncResult, _, kosyncOutcome) := answer
  { result with getAttempted := true, kosyncResult, kosyncOutcome }

/-- The result after the save. -/
def PullResult.pulled (result : PullResult) (saved : ProgressStore.Result) : PullResult :=
  let result := { result with localSaveAttempted := true, localSaveResult := saved }
  if saved = .ok then { result with localSaved := true, status := .persisted }
  else { result with status := .localFailed }

/-- `cn_kosync_pull_remote_once` after the client is routed. -/
def pullRecord (setup : PullSetup) (client : Client) (identity : BookIdentity)
    (documentId : List UInt8) (result : PullResult) : Env PullResult := do
  let answer ← observed (fun r => .got documentId r.1) (getProgress client documentId progressInit)
  let result := result.asked answer
  if answer.1 = .ok then
    let saved ← saveRecord setup.store identity (remoteRecord answer.2.1)
    return result.pulled saved
  else return { result with status := pullFailure answer.1 }

/-- `cn_kosync_pull_remote_once` after the document is identified. -/
def pullDocument (setup : PullSetup) (identity : BookIdentity) (documentId : List UInt8)
    (result : PullResult) : Env PullResult := do
  let session ← openSession setup.timePolicy setup.tls setup.client
  let result := result.opened session
  match session.client with
  | none => return { result with status := session.pullStatus }
  | some client => pullRecord setup client identity documentId result

/-- `cn_kosync_pull_remote_once` on a result. -/
def pullRemoteOnce (config : PullConfig) : Env PullResult :=
  match config.accepted with
  | none => return pullResultInit
  | some setup => do
    let document ← identify setup.documentPath
    let result := { pullResultInit with identityResult := document.identityResult }
    match document.ids with
    | none => return { result with status := .identityFailed }
    | some (identity, documentId) => pullDocument setup identity documentId result

/-! ## How a pull ends -/

/-- The answer of a GET that succeeded, as it came over the wire. -/
def Found (heaps : List (ℕ → Bool)) (documentId : List UInt8)
    (answer : Result × Progress × Outcome) : Prop :=
  answer.1 = .ok ∧ ∃ client path wire, ∃ alloc ∈ heaps,
    endpointPath client (Bytes.ascii "/syncs/progress/" ++ documentId) = some path ∧
    answer = getAnswer alloc documentId progressInit
      (NetSimple.exchange (getRequest client path) responseCap wire)

/-- The runs of `pullRemoteOnce`: it ends before the save, or with it. -/
inductive Pulled (config : PullConfig) (w : World) : PullResult → World → Prop
  | early {result : PullResult} {events : List Event} {w' : World} (hread : Read 1 events w w')
    (ha : result.localSaveAttempted = false) (hs : result.status ≠ .persisted) :
    Pulled config w result w'
  | saved {setup : PullSetup} (hc : config.accepted = some setup) {identity : BookIdentity}
    (hidentity : BookIdentity.fromPath config.documentPath = some identity)
    {documentId : List UInt8} {answer : Result × Progress × Outcome}
    (hfound : Found w.heaps documentId answer)
    {events : List Event} {w₁ w' : World} (hread : Read 1 events w w₁) {result : PullResult}
    {saved : ProgressStore.Result}
    (h : saveRecord setup.store identity (remoteRecord answer.2.1) w₁ = (some saved, w')) :
    Pulled config w (result.pulled saved) w'

/-- A pull that is about to save the record that it found. -/
structure Download where
  setup : PullSetup
  client : Client
  identity : BookIdentity
  documentId : List UInt8
  answer : Result × Progress × Outcome
  world : World

/-- How a pull got there: a GET that succeeded, and nothing written. -/
structure Download.Ready (config : PullConfig) (w : World) (download : Download) : Prop where
  accepted : config.accepted = some download.setup
  identity_eq : BookIdentity.fromPath config.documentPath = some download.identity
  document : ∃ document w₁, identify download.setup.documentPath w = (some document, w₁) ∧
    document.ids = some (download.identity, download.documentId)
  ok : download.answer.1 = .ok
  exchanged : ∃ path wire alloc events, alloc ∈ w.heaps ∧
    endpointPath download.client (Bytes.ascii "/syncs/progress/" ++ download.documentId) =
      some path ∧
    Read 1 events w download.world ∧
    .exchange (getRequest download.client path)
      (NetSimple.exchange (getRequest download.client path) responseCap wire) ∈ events ∧
    download.answer = getAnswer alloc download.documentId progressInit
      (NetSimple.exchange (getRequest download.client path) responseCap wire)

/-- The runs of `pullRemoteOnce`, with the record that they save. -/
inductive Downloads (config : PullConfig) (w : World) : PullResult → World → Prop
  | early {result : PullResult} {events : List Event} {w' : World} (hread : Read 1 events w w')
    (ha : result.localSaveAttempted = false) (hs : result.status ≠ .persisted) :
    Downloads config w result w'
  | saved {download : Download} (hready : download.Ready config w) {result : PullResult}
    {saved : ProgressStore.Result} {w' : World}
    (h : saveRecord download.setup.store download.identity (remoteRecord download.answer.2.1)
      download.world = (some saved, w')) :
    Downloads config w (result.pulled saved) w'

theorem Downloads.pulled {config : PullConfig} {w w' : World} {result : PullResult}
    (h : Downloads config w result w') : Pulled config w result w' := by
  cases h with
  | early hread ha hs => exact .early hread ha hs
  | saved hready h =>
    obtain ⟨path, wire, alloc, events, halloc, hpath, hread, -, hanswer⟩ := hready.exchanged
    exact .saved hready.accepted hready.identity_eq
      ⟨hready.ok, _, path, wire, alloc, halloc, hpath, hanswer⟩ hread h

/-- The world after a pull, or a part of one: at most one GET and one save, and no PUT. -/
def PullTrace (w w' : World) : Prop :=
  ∃ events, w'.events = w.events ++ events ∧ events.countP Event.isGet ≤ 1 ∧
    events.countP Event.isPut = 0 ∧ events.countP Event.isSave ≤ 1 ∧
    (events.countP Event.isSave = 0 → w'.files = w.files)

theorem Read.pullTrace {n : ℕ} {events : List Event} {w w' : World} (h : Read n events w w')
    (hn : n ≤ 1) : PullTrace w w' :=
  ⟨events, h.2.1, h.2.2.gets.trans hn, h.2.2.puts, h.2.2.saves ▸ zero_le_one,
    fun _ => h.1.files_eq⟩

theorem PullTrace.of_save {identity : BookIdentity} {record : ProgressStore.Record}
    {events : List Event} {w w₁ w' : World} (hread : Read 1 events w w₁)
    (h : w'.events = w₁.events ++ [.save identity record]) : PullTrace w w' := by
  obtain ⟨-, he, hgets, hputs, hsaves⟩ := hread
  refine ⟨events ++ [.save identity record], ?_, ?_, ?_, ?_, fun h0 => ?_⟩
  · rw [h, he, List.append_assoc]
  · simpa [Event.isGet] using hgets
  · simp [Event.isPut, hputs]
  · simp [Event.isSave, hsaves]
  · simp [Event.isSave] at h0

theorem pullFailure_ne (result : Result) : pullFailure result ≠ .persisted := by
  cases result <;> decide

theorem Session.pullStatus_ne (session : Session) : session.pullStatus ≠ .persisted := by
  unfold Session.pullStatus
  split_ifs <;> decide

section Runs

variable {config : PullConfig} {setup : PullSetup} {identity : BookIdentity}
  {documentId : List UInt8} {result : PullResult} {events : List Event} {w w₀ : World}

theorem ends_pullRecord (hc : config.accepted = some setup)
    (hidentity : BookIdentity.fromPath config.documentPath = some identity)
    (hdocument : ∃ document w₁, identify setup.documentPath w₀ = (some document, w₁) ∧
      document.ids = some (identity, documentId)) (client : Client)
    (hread : Read 0 events w₀ w) (ha : result.localSaveAttempted = false) :
    Ends (pullRecord setup client identity documentId result) w
      (fun r w' => Downloads config w₀ r w' ∧ PullTrace w₀ w') (PullTrace w₀) := by
  unfold pullRecord
  rw [ends_bind, ends_observed]
  refine ((ends_run _ _).and (ends_getProgress client documentId progressInit)).mono ?_ ?_
  · rintro answer w₁ ⟨hrun, hget⟩
    obtain ⟨asked, hasked, -⟩ := getProgress_read hrun
    have hread₁ : Read 1 (events ++ asked ++ [.got documentId answer.1]) w₀
        (w₁.seen (.got documentId answer.1)) :=
      (hread.trans hasked).trans (n := 0) ⟨⟨rfl, fun _ h => h⟩, rfl, ⟨le_rfl, rfl, rfl⟩⟩
    dsimp only
    by_cases hok : answer.1 = .ok
    swap
    · rw [if_neg hok]
      exact ⟨.early hread₁ ha (pullFailure_ne _), hread₁.pullTrace le_rfl⟩
    rw [if_pos hok, ends_bind]
    have hready : Download.Ready config w₀
        ⟨setup, client, identity, documentId, answer, w₁.seen (.got documentId answer.1)⟩ := by
      refine ⟨hc, hidentity, hdocument, hok, ?_⟩
      -- a GET that succeeded was exchanged
      rcases hget with ⟨-, -, -, hi⟩ | ⟨path, wire, alloc, halloc, hpath, ⟨-, he⟩, hanswer⟩
      · rcases hi with hi | hi <;> rw [hok] at hi <;> cases hi
      · obtain rfl : asked = [_] := List.append_cancel_left (hasked.2.1.symm.trans he)
        exact ⟨path, wire, alloc, _, hread.1.heaps_subset halloc, hpath, hread₁, by simp, hanswer⟩
    refine ((ends_run _ _).and (ends_saveRecord _ _ _)).mono ?_ ?_
    · rintro saved w' ⟨hsave, he⟩
      exact ⟨.saved hready hsave, .of_save hread₁ he⟩
    · rintro w' ⟨-, he⟩
      exact .of_save hread₁ he
  · rintro w₁ ⟨-, h⟩
    obtain ⟨asked, hasked⟩ := h.read fun request hr => by
      obtain ⟨path, -, rfl⟩ := hr
      rfl
    exact (hread.trans hasked).pullTrace le_rfl

theorem ends_pullDocument (hc : config.accepted = some setup)
    (hidentity : BookIdentity.fromPath config.documentPath = some identity)
    (hdocument : ∃ document w₁, identify setup.documentPath w₀ = (some document, w₁) ∧
      document.ids = some (identity, documentId))
    (hread : Read 0 events w₀ w) (ha : result.localSaveAttempted = false) :
    Ends (pullDocument setup identity documentId result) w
      (fun r w' => Downloads config w₀ r w' ∧ PullTrace w₀ w') (PullTrace w₀) := by
  unfold pullDocument
  rw [ends_bind]
  refine (ends_openSession _ _ _ _).mono ?_ ?_
  · rintro session w₁ ⟨hsetup, -⟩
    obtain ⟨setupEvents, hread'⟩ := hsetup.read
    have hread₁ := hread.trans hread'
    dsimp only
    cases session.client with
    | none =>
      exact ⟨.early (hread₁.le zero_le_one) ha session.pullStatus_ne, hread₁.pullTrace zero_le_one⟩
    | some client => exact ends_pullRecord hc hidentity hdocument client hread₁ ha
  · intro w₁ hsetup
    obtain ⟨setupEvents, hread'⟩ := hsetup.read
    exact (hread.trans hread').pullTrace zero_le_one

end Runs

theorem PullConfig.accepted_documentPath {config : PullConfig} {setup : PullSetup}
    (h : config.accepted = some setup) : config.documentPath = some setup.documentPath := by
  unfold PullConfig.accepted at h
  cases hpath : config.documentPath <;> simp [hpath, Option.bind_eq_some_iff] at h
  obtain ⟨_, -, _, -, _, -, _, -, -, rfl⟩ := h
  rfl

theorem PullConfig.accepted_store {config : PullConfig} {setup : PullSetup}
    (h : config.accepted = some setup) : config.progressStore = some setup.store := by
  unfold PullConfig.accepted at h
  cases hstore : config.progressStore <;> simp [hstore, Option.bind_eq_some_iff] at h
  obtain ⟨_, -, _, -, _, -, _, -, -, rfl⟩ := h
  rfl

/-- How a pull ends, with the record that it saves. -/
theorem ends_pullRemoteOnce_downloads (config : PullConfig) (w : World) :
    Ends (pullRemoteOnce config) w (fun r w' => Downloads config w r w' ∧ PullTrace w w')
      (PullTrace w) := by
  unfold pullRemoteOnce
  cases hc : config.accepted with
  | none =>
    have hread := Read.refl w
    exact ⟨.early (hread.le zero_le_one) rfl (by decide), hread.pullTrace zero_le_one⟩
  | some setup =>
    dsimp only
    rw [ends_bind]
    refine ((ends_run _ _).and (ends_identify _)).mono ?_ fun _ h => (h.2.1.read h.2.2).pullTrace
      zero_le_one
    rintro document w₁ ⟨hid, hq, he, hfirst⟩
    have hread := hq.read he
    cases hids : document.ids with
    | none =>
      exact ⟨.early (hread.le zero_le_one) rfl (by simp), hread.pullTrace zero_le_one⟩
    | some ids =>
      have hidentity : BookIdentity.fromPath config.documentPath = some ids.1 := by
        rw [PullConfig.accepted_documentPath hc]
        exact hfirst _ hids
      exact ends_pullDocument hc hidentity ⟨document, w₁, hid, hids⟩ hread rfl

/-- **How a pull ends.** -/
theorem ends_pullRemoteOnce (config : PullConfig) (w : World) :
    Ends (pullRemoteOnce config) w (fun r w' => Pulled config w r w' ∧ PullTrace w w')
      (PullTrace w) :=
  (ends_pullRemoteOnce_downloads config w).mono (fun _ _ h => ⟨h.1.pulled, h.2⟩) fun _ h => h

end Kosync
