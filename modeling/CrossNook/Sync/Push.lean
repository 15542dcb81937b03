import CrossNook.Sync.Policy

/-!
# The explicit push

The upload of the local record that the user asks for (`sync/kosync_push.c`): it makes no GET and
reports what it knows about the record of the server.

## Main definitions

* `Kosync.PushResult`: `cn_kosync_push_result`
* `Kosync.pushLocalOnce`: `cn_kosync_push_local_once`

## Main results

* `Kosync.ends_pushLocalOnce`: a push makes at most one exchange, a PUT, and changes no file
-/

namespace Kosync

open Crash Posix

/-- `cn_kosync_push_status`. -/
inductive PushStatus
  | invalid
  | uploaded
  | identityFailed
  | localMissing
  | localFailed
  | localUnsupported
  | trustedTimeFailed
  | dnsFailed
  | authFailed
  | httpsFailed
  | protocolFailed
  | noMemory
  deriving DecidableEq, Repr

/-- `cn_kosync_push_config`, which has the fields of `cn_kosync_sync_config`. -/
abbrev PushConfig := SyncConfig

/-- `cn_kosync_push_result`. -/
structure PushResult where
  status : PushStatus
  identityResult : KoreaderIdentity.Result
  localLoadResult : ProgressStore.Result
  timeResult : TimeResult
  dnsResult : DnsResult
  kosyncResult : Result
  kosyncOutcome : Outcome
  putInvoked : Bool
  remoteUploaded : Bool
  localMutation : MutationState
  remoteMutation : MutationState
  deriving DecidableEq, Repr

/-- `cn_kosync_push_result_init`. -/
def pushResultInit : PushResult where
  status := .invalid
  identityResult := .invalid
  localLoadResult := .invalid
  timeResult := .invalid
  dnsResult := .invalid
  kosyncResult := .invalid
  kosyncOutcome := initOutcome
  putInvoked := false
  remoteUploaded := false
  localMutation := .none
  remoteMutation := .none

/-- `proven_pre_send`. -/
def provenPreSend : NetSimple.Result → Bool
  | .resolveError | .connectRefused | .networkUnreachable | .hostUnreachable | .connectTimeout
  | .connectError | .tlsEntropyFailed | .tlsInvalidCa | .tlsHandshakeFailed | .tlsHandshakeTimeout
  | .tlsTrustFailed | .tlsHostnameMismatch | .tlsCertTimeFailed | .tlsCertInvalid => true
  | _ => false

/-- The check of `cn_kosync_push_local_once`. -/
def pushAccepted (config : PushConfig) : Option SyncSetup := do
  let setup ← config.accepted
  if setup.tls.caPath = none then none else some setup

/-- The status of a push whose PUT failed. -/
def pushFailure : Result → PushStatus
  | .authFailed => .authFailed
  | .transportError => .httpsFailed
  | .noMemory => .noMemory
  | .invalid => .invalid
  | .ok | .notFound | .httpError | .badJson | .badProtocol => .protocolFailed

/-- The result after the PUT. -/
def PushResult.pushed (result : PushResult) (answer : Result × Option ℤ × Outcome) : PushResult :=
  let (kosyncResult, _, kosyncOutcome) := answer
  let result := { result with putInvoked := true, kosyncResult, kosyncOutcome }
  if kosyncResult = .ok then
    { result with remoteUploaded := true, remoteMutation := .confirmed, status := .uploaded }
  else
    { result with
      remoteMutation :=
        if kosyncResult = .transportError ∧ provenPreSend kosyncOutcome.transportResult then .none
        else .possible
      status := pushFailure kosyncResult }

/-- The result after the calls that open a session; the result of the client stands where they
did not reach it. -/
def PushResult.opened (result : PushResult) (session : Session) : PushResult :=
  { result with
    timeResult := session.timeResult
    dnsResult := session.dnsResult
    kosyncResult := if session.dnsResult = .ok then session.kosyncResult else result.kosyncResult }

/-- The status of a push whose session could not be opened. -/
def Session.pushStatus (session : Session) : PushStatus :=
  if session.timeResult ≠ .ok then .trustedTimeFailed
  else if session.dnsResult ≠ .ok then .dnsFailed
  else .invalid

/-- `cn_kosync_push_local_once` after the record is converted. -/
def pushUpload (setup : SyncSetup) (upload : Progress) (result : PushResult) : Env PushResult := do
  let session ← openSession setup.timePolicy setup.tls setup.client
  let result := result.opened session
  match session.client with
  | none => return { result with status := session.pushStatus }
  | some client => do
    let answer ← putProgress client upload
    return result.pushed answer

/-- `cn_kosync_push_local_once` after the document is identified. -/
def pushDocument (setup : SyncSetup) (identity : BookIdentity) (documentId : List UInt8)
    (result : PushResult) : Env PushResult := do
  let (loaded, record) ← loadRecord setup.store identity
  let result := { result with localLoadResult := loaded }
  if loaded ≠ .ok then
    return { result with
      status :=
        if loaded = .missing then .localMissing
        else if loaded = .noMemory then .noMemory
        else .localFailed }
  -- a position without a percentage cannot be sent
  else if record.progress10000 < 0 then return { result with status := .localUnsupported }
  else do
    let alloc ← sys malloc
    match progressSet alloc progressInit documentId record.location record.progress10000
      setup.device setup.deviceId with
    | (.ok, upload) => pushUpload setup upload { result with kosyncResult := .ok }
    | (kosyncResult, _) =>
      return { result with
        kosyncResult
        status := if kosyncResult = .noMemory then .noMemory else .invalid }

/-- `cn_kosync_push_local_once` on a result. -/
def pushLocalOnce (config : PushConfig) : Env PushResult :=
  match pushAccepted config with
  | none => return pushResultInit
  | some setup => do
    let document ← identify setup.documentPath
    let result := { pushResultInit with identityResult := document.identityResult }
    match document.ids with
    | none => return { result with status := .identityFailed }
    | some (identity, documentId) => pushDocument setup identity documentId result

/-! ## How a push ends -/

/-- The runs of `pushLocalOnce`: it ends before the PUT, or with it. -/
inductive Pushed (w : World) : PushResult → World → Prop
  | early {result : PushResult} {events : List Event} {w' : World} (hread : Read 0 events w w')
    (hi : result.putInvoked = false) (hm : result.remoteMutation = .none) :
    Pushed w result w'
  | put {result : PushResult} {events : List Event} {w₁ w' : World} (hread : Read 0 events w w₁)
    {client : Client} {upload : Progress} {answer : Result × Option ℤ × Outcome}
    (h : putProgress client upload w₁ = (some answer, w')) :
    Pushed w (result.pushed answer) w'

/-- The world after a push, or a part of one: no file changed, and at most one PUT was made. -/
def PushTrace (w w' : World) : Prop :=
  w'.files = w.files ∧ ∃ events, w'.events = w.events ++ events ∧
    events.countP Event.isGet = 0 ∧ events.countP Event.isPut ≤ 1 ∧
    events.countP Event.isSave = 0

/-- A push that is about to upload the record of a book. -/
structure Upload where
  setup : SyncSetup
  client : Client
  identity : BookIdentity
  documentId : List UInt8
  record : ProgressStore.Record
  progress : Progress
  world : World

/-- How a push got there: the load of the record, and nothing exchanged. -/
structure Upload.Ready (config : PushConfig) (w : World) (upload : Upload) : Prop where
  accepted : config.accepted = some upload.setup
  identity_eq : BookIdentity.fromPath config.documentPath = some upload.identity
  document : ∃ document w₁, identify upload.setup.documentPath w = (some document, w₁) ∧
    document.ids = some (upload.identity, upload.documentId)
  loads : Loads upload.setup.store upload.identity w.files (.ok, upload.record)
  set : ∃ alloc, progressSet alloc progressInit upload.documentId upload.record.location
    upload.record.progress10000 upload.setup.device upload.setup.deviceId = (.ok, upload.progress)
  read : ∃ events, Read 0 events w upload.world

/-- The runs of `pushLocalOnce`, with the record that they upload. -/
inductive Uploads (config : PushConfig) (w : World) : PushResult → World → Prop
  | early {result : PushResult} {events : List Event} {w' : World} (hread : Read 0 events w w')
    (hi : result.putInvoked = false) (hm : result.remoteMutation = .none)
    (hs : result.status ≠ .uploaded) : Uploads config w result w'
  | put {upload : Upload} (hready : upload.Ready config w) {result : PushResult} {w' : World}
    {answer : Result × Option ℤ × Outcome}
    (h : putProgress upload.client upload.progress upload.world = (some answer, w')) :
    Uploads config w (result.pushed answer) w'

theorem Uploads.pushed {config : PushConfig} {w w' : World} {result : PushResult}
    (h : Uploads config w result w') : Pushed w result w' := by
  cases h with
  | early hread hi hm _ => exact .early hread hi hm
  | put hready h =>
    obtain ⟨events, hread⟩ := hready.read
    exact .put hread h

theorem Session.pushStatus_ne (session : Session) : session.pushStatus ≠ .uploaded := by
  unfold Session.pushStatus
  split_ifs <;> decide

theorem Read.pushTrace {events : List Event} {w w' : World} (h : Read 0 events w w') :
    PushTrace w w' :=
  ⟨h.1.files_eq, events, h.2.1, Nat.le_zero.mp h.2.2.gets, h.2.2.puts ▸ zero_le_one, h.2.2.saves⟩

theorem AtMostOne.pushTrace {P : NetSimple.Request → Prop} {events : List Event} {w w₁ w' : World}
    (hread : Read 0 events w w₁) (h : AtMostOne P w₁ w')
    (hP : ∀ request, P request → request.method = .put) : PushTrace w w' := by
  obtain ⟨hq, he | ⟨request, outcome, hr, he⟩⟩ := h
  · exact (hread.trans (hq.read he)).pushTrace
  · obtain ⟨hq₁, he₁, hgets, hputs, hsaves⟩ := hread
    refine ⟨(hq₁.trans hq).files_eq, events ++ [.exchange request outcome], ?_, ?_, ?_, ?_⟩
    · rw [he, he₁, List.append_assoc]
    · simp [Event.isGet, hP request hr, Nat.le_zero.mp hgets]
    · simp [Event.isPut, hP request hr, hputs]
    · simp [Event.isSave, hsaves]

section Runs

variable {config : PushConfig} {setup : SyncSetup} {identity : BookIdentity}
  {documentId : List UInt8} {w w₀ : World} {events : List Event}

theorem ends_pushUpload {record : ProgressStore.Record} {result : PushResult} (upload : Progress)
    (hready : ∀ client w₁, (∃ events, Read 0 events w₀ w₁) →
      Upload.Ready config w₀ ⟨setup, client, identity, documentId, record, upload, w₁⟩)
    (hread : Read 0 events w₀ w) (hi : result.putInvoked = false)
    (hm : result.remoteMutation = .none) :
    Ends (pushUpload setup upload result) w
      (fun r w' => Uploads config w₀ r w' ∧ PushTrace w₀ w') (PushTrace w₀) := by
  unfold pushUpload
  rw [ends_bind]
  refine (ends_openSession _ _ _ _).mono ?_ ?_
  · rintro session w₁ ⟨hsetup, -⟩
    obtain ⟨setupEvents, hread'⟩ := hsetup.read
    have hread₁ := hread.trans hread'
    dsimp only
    cases session.client with
    | none => exact ⟨.early hread₁ hi hm session.pushStatus_ne, hread₁.pushTrace⟩
    | some client =>
      -- the one request that can be sent is a PUT of the upload
      have hput : ∀ request, (∃ path json, serializeProgress upload (jsonMax + 1) =
          (.ok, some json) ∧ request = putRequest client path json) → request.method = .put := by
        rintro _ ⟨path, json, -, rfl⟩
        rfl
      dsimp only
      rw [ends_bind]
      refine ((ends_run _ _).and (ends_putProgress client upload)).mono ?_ ?_
      · rintro answer w₂ ⟨hrun, h⟩
        refine ⟨.put (hready client w₁ ⟨_, hread₁⟩) hrun, AtMostOne.pushTrace hread₁ ?_ hput⟩
        rcases h with ⟨hq, he, -⟩ | ⟨path, json, wire, alloc, -, hjson, ⟨hq, he⟩, -⟩
        · exact ⟨hq, .inl he⟩
        · exact ⟨hq, .inr ⟨_, _, ⟨path, json, hjson, rfl⟩, he⟩⟩
      · exact fun w₂ h => AtMostOne.pushTrace hread₁ h.2 hput
  · intro w₁ hsetup
    obtain ⟨setupEvents, hread'⟩ := hsetup.read
    exact (hread.trans hread').pushTrace

theorem ends_pushDocument {result : PushResult} (hc : config.accepted = some setup)
    (hidentity : BookIdentity.fromPath config.documentPath = some identity)
    (hdocument : ∃ document w₁, identify setup.documentPath w₀ = (some document, w₁) ∧
      document.ids = some (identity, documentId))
    (hread : Read 0 events w₀ w) (hi : result.putInvoked = false)
    (hm : result.remoteMutation = .none) :
    Ends (pushDocument setup identity documentId result) w
      (fun r w' => Uploads config w₀ r w' ∧ PushTrace w₀ w') (PushTrace w₀) := by
  unfold pushDocument
  rw [ends_bind]
  refine (ends_loadRecord _ _).mono ?_ fun _ h => (hread.trans h).pushTrace
  rintro ⟨loaded, record⟩ w₁ ⟨hload, hloads⟩
  rw [hread.1.files_eq] at hloads
  replace hread := hread.trans hload
  dsimp only at hread ⊢
  -- without a record there is nothing to be sent
  by_cases hloaded : loaded ≠ .ok
  · rw [if_pos hloaded]
    refine ⟨.early hread hi hm ?_, hread.pushTrace⟩
    dsimp only
    split_ifs <;> decide
  rw [if_neg hloaded]
  obtain rfl : loaded = .ok := not_not.mp hloaded
  by_cases hneg : record.progress10000 < 0
  · rw [if_pos hneg]
    exact ⟨.early hread hi hm (by simp), hread.pushTrace⟩
  rw [if_neg hneg, ends_bind]
  refine (ends_sys_keeps keepsFiles_malloc).mono ?_ fun _ h =>
    (hread.trans (h.1.read h.2)).pushTrace
  rintro alloc w₂ ⟨hq, he⟩
  have hread₂ := hread.trans (hq.read he)
  -- the record is the upload, or it is refused before the session
  rcases progressSet_cases alloc progressInit documentId record.location record.progress10000
    setup.device setup.deviceId with ⟨upload, hset⟩ | ⟨kosyncResult, hk, hset⟩
  · rw [hset]
    exact ends_pushUpload upload
      (fun client w₁ hread => ⟨hc, hidentity, hdocument, hloads, ⟨alloc, hset⟩, hread⟩) hread₂ hi hm
  · rw [hset]
    rcases hk with rfl | rfl <;> exact ⟨.early hread₂ hi hm (by simp), hread₂.pushTrace⟩

theorem pushAccepted_accepted (h : pushAccepted config = some setup) :
    config.accepted = some setup := by
  obtain ⟨setup', hc, h⟩ := Option.bind_eq_some_iff.mp h
  split_ifs at h
  cases h
  exact hc

/-- How a push ends, with the record that it uploads. -/
theorem ends_pushLocalOnce_uploads (config : PushConfig) (w : World) :
    Ends (pushLocalOnce config) w (fun r w' => Uploads config w r w' ∧ PushTrace w w')
      (PushTrace w) := by
  unfold pushLocalOnce
  cases hc : pushAccepted config with
  | none => exact ⟨.early (.refl w) rfl rfl (by decide), (Read.refl w).pushTrace⟩
  | some setup =>
    dsimp only
    rw [ends_bind]
    refine ((ends_run _ _).and (ends_identify _)).mono ?_ fun _ h => (h.2.1.read h.2.2).pushTrace
    rintro document w₁ ⟨hid, hq, he, hfirst⟩
    have hread := hq.read he
    cases hids : document.ids with
    | none => exact ⟨.early hread rfl rfl (by simp), hread.pushTrace⟩
    | some ids =>
      have haccepted := pushAccepted_accepted hc
      have hidentity : BookIdentity.fromPath config.documentPath = some ids.1 := by
        rw [accepted_documentPath haccepted]
        exact hfirst _ hids
      exact ends_pushDocument haccepted hidentity ⟨document, w₁, hid, hids⟩ hread rfl rfl

/-- **How a push ends.** -/
theorem ends_pushLocalOnce (config : PushConfig) (w : World) :
    Ends (pushLocalOnce config) w (fun r w' => Pushed w r w' ∧ PushTrace w w') (PushTrace w) :=
  (ends_pushLocalOnce_uploads config w).mono (fun _ _ h => ⟨h.1.pushed, h.2⟩) fun _ h => h

end Runs

end Kosync
