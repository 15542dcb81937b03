import CrossNook.Sync.World
import CrossNook.Sync.Writer

/-!
# The protocol client

The client of the progress-sync protocol (`sync/kosync.c`): the address that a base URL stands
for, the three requests, and what the client makes of the answers.

## Main definitions

* `Kosync.Client`, `Kosync.clientInit`, `Kosync.clientSetTls`: `cn_kosync_client` and its setup
* `Kosync.authorize`, `Kosync.putProgress`, `Kosync.getProgress`: the requests
* `Kosync.putAnswer`, `Kosync.getAnswer`: what the client makes of an exchange

## Main results

* `Kosync.ends_putProgress`, `Kosync.ends_getProgress`: each request
  makes at most one exchange and changes no file
-/

/-- `cn_tls_config`: the path of the trust anchors and whether there is a clock of the caller. -/
structure TlsConfig where
  caPath : Option (List UInt8)
  getTime : Bool
  deriving DecidableEq, Repr

/-- `cn_dns_config`: the first `server_count` servers. -/
structure DnsConfig where
  servers : List (Option (List UInt8))
  deriving DecidableEq, Repr

namespace Kosync

open Binary64 (nearest)
open Bytes (ascii)
open Crash Posix
open NetSimple (Request Header)

/-- `CN_KOSYNC_USERNAME_MAX`. -/
def usernameMax : ℕ := 255

/-- `CN_KOSYNC_USERKEY_MAX`. -/
def userkeyMax : ℕ := 255

/-- `CN_KOSYNC_BASE_PATH_MAX`. -/
def basePathMax : ℕ := 1024

/-- `KOSYNC_ACCEPT`. -/
def accept : List UInt8 := ascii "application/vnd.koreader.v1+json"

/-- `KOSYNC_CONTENT_TYPE`. -/
def contentType : List UInt8 := ascii "application/json"

/-- `cn_kosync_client`. -/
structure Client where
  host : List UInt8
  port : List UInt8
  basePath : List UInt8
  username : List UInt8
  userkey : List UInt8
  connectHost : List UInt8
  tls : Option TlsConfig
  useTls : Bool
  deriving DecidableEq, Repr

/-- `cn_kosync_outcome`. -/
structure Outcome where
  httpStatus : ℕ
  transportResult : NetSimple.Result
  deriving DecidableEq, Repr

/-- `init_outcome`. -/
def initOutcome : Outcome := ⟨0, .invalid⟩

/-! ## Setup -/

/-- `copy_url_part` into a buffer of `cap` bytes. -/
def copyUrlPart (cap : ℕ) (part : List UInt8) : Option (List UInt8) :=
  if part.length = 0 ∨ cap ≤ part.length then none else some part

/-- The scheme of a base URL: whether it asks for TLS, and the rest. -/
def urlScheme (baseUrl : List UInt8) : Option (Bool × List UInt8) :=
  if ascii "http://" <+: baseUrl then some (false, baseUrl.drop 7)
  else if ascii "https://" <+: baseUrl then some (true, baseUrl.drop 8)
  else none

/-- The host and the port of an authority. -/
def urlHostPort (useTls : Bool) (authority : List UInt8) : Option (List UInt8 × List UInt8) :=
  if 0x3a ∈ authority then do
    let name := Bytes.scan (· ≠ 0x3a) authority
    let host ← copyUrlPart (NetSimple.hostMax + 1) name
    let port ← copyUrlPart (NetSimple.portMaxText + 1) (authority.drop (name.length + 1))
    return (host, port)
  else do
    let host ← copyUrlPart (NetSimple.hostMax + 1) authority
    return (host, if useTls then ascii "443" else ascii "80")

/-- A path without the slashes at its end. -/
def trimSlashes (path : List UInt8) : List UInt8 := (path.reverse.dropWhile (· = 0x2f)).reverse

/-- `cn_kosync_client_init`; `none` is `CN_KOSYNC_INVALID`. -/
def clientInit (baseUrl username userkey : List UInt8) : Option Client :=
  if ¬ headerTextOk username usernameMax false ∨ ¬ headerTextOk userkey userkeyMax false then none
  else
    match urlScheme baseUrl with
    | none => none
    | some (useTls, rest) =>
      -- user information, a query and a fragment are not supported
      let authority := Bytes.scan (· ≠ 0x2f) rest
      if 0x40 ∈ authority ∨ 0x3f ∈ authority ∨ 0x23 ∈ authority ∨ authority = [] then none
      else
        match urlHostPort useTls authority with
        | none => none
        | some (host, port) =>
          let path := rest.drop authority.length
          let basePath := trimSlashes path
          if NetSimple.parsePort port = none ∨ 0x3f ∈ path ∨ 0x23 ∈ path ∨
              basePathMax < path.length ∨
              ¬ NetSimple.validate host port (if basePath ≠ [] then basePath else ascii "/") then none
          else
            some { host, port, basePath, username, userkey, connectHost := [], tls := none, useTls }

/-- `cn_kosync_client_set_tls` on a copy of the client. -/
def clientSetTls (client : Client) (tls : TlsConfig) (connectHost : Option (List UInt8)) :
    Option Client :=
  if ¬ client.useTls ∨ tls.caPath = none then none
  else
    match connectHost with
    | none => some { client with tls := some tls }
    | some connectHost =>
      let length := boundedLength (some connectHost) NetSimple.hostMax
      if length = 0 ∨ NetSimple.hostMax < length ∨
          ¬ NetSimple.validate connectHost client.port (ascii "/") then none
      else some { client with connectHost, tls := some tls }

/-- `endpoint_path` into a buffer of `CN_NETSIMPLE_PATH_MAX + 1` bytes. -/
def endpointPath (client : Client) (suffix : List UInt8) : Option (List UInt8) :=
  let path := client.basePath ++ suffix
  if NetSimple.pathMax + 1 ≤ path.length then none else some path

/-! ## Requests -/

/-- The headers of every request. -/
def requestHeaders (client : Client) : List Header :=
  [⟨ascii "Accept", accept⟩, ⟨ascii "x-auth-user", client.username⟩,
    ⟨ascii "x-auth-key", client.userkey⟩]

/-- A GET request of the client. -/
def getRequest (client : Client) (path : List UInt8) : Request where
  method := .get
  host := client.host
  connectHost := if client.connectHost ≠ [] then some client.connectHost else none
  port := client.port
  path := path
  headers := requestHeaders client
  contentType := none
  body := none
  tls := client.useTls && client.tls.isSome

/-- A PUT request of the client. -/
def putRequest (client : Client) (path json : List UInt8) : Request :=
  { getRequest client path with method := .put, contentType := some contentType, body := some json }

/-- `response_cap`. -/
def responseCap : ℕ := jsonMax + NetSimple.requestMax

/-- `map_response`. -/
def mapResponse (outcome : NetSimple.Outcome) : Result × Outcome :=
  let status := outcome.response.status
  (if outcome.result ≠ .ok then .transportError
    else if status = 401 then .authFailed
    else if status ≠ 200 then .httpError
    else .ok,
    ⟨if outcome.result = .ok then status else 0, outcome.result⟩)

/-- The body of a response. -/
def responseBody (outcome : NetSimple.Outcome) : List UInt8 :=
  (outcome.buffer.drop outcome.response.headerBytes).take outcome.response.bodyBytes

/-- The checks that every request makes first. -/
def Client.ready (client : Client) : Bool := ¬ (client.useTls ∧ client.tls = none)

/-- `cn_kosync_authorize`. -/
def authorize (client : Client) : Env (Result × Outcome) :=
  if ¬ client.ready then return (.invalid, initOutcome)
  else
    match endpointPath client (ascii "/users/auth") with
    | none => return (.invalid, initOutcome)
    | some path => do
      if ← sys malloc then
        let outcome ← exchange (getRequest client path) NetSimple.responseMax
        return mapResponse outcome
      else return (.noMemory, initOutcome)

/-- What `cn_kosync_put_progress` makes of the acknowledgement: the result and the timestamp of
the server. -/
def checkAck (alloc : ℕ → Bool) (documentId body : List UInt8) : Result × Option ℤ :=
  match parseObject nearest alloc body with
  | .error e => (e, none)
  | .ok ack =>
    if ¬ {Field.document, Field.timestamp} ⊆ ack.fields ∨ ack.progress.documentId ≠ documentId then
      (.badProtocol, none)
    else (.ok, some ack.progress.timestamp)

/-- What `cn_kosync_put_progress` makes of an exchange. -/
def putAnswer (alloc : ℕ → Bool) (documentId : List UInt8) (outcome : NetSimple.Outcome) :
    Result × Option ℤ × Outcome :=
  let (result, kosyncOutcome) := mapResponse outcome
  if result ≠ .ok then (result, none, kosyncOutcome)
  else
    let (result, timestamp) := checkAck alloc documentId (responseBody outcome)
    (result, timestamp, kosyncOutcome)

/-- `cn_kosync_put_progress`. -/
def putProgress (client : Client) (progress : Progress) : Env (Result × Option ℤ × Outcome) :=
  if ¬ client.ready then return (.invalid, none, initOutcome)
  else do
    -- both buffers are allocated before the record is written into the first
    let json ← sys malloc
    let buffer ← sys malloc
    if ¬ json ∨ ¬ buffer then return (.noMemory, none, initOutcome)
    else
      match serializeProgress progress (jsonMax + 1) with
      | (.ok, some json) =>
        match endpointPath client (ascii "/syncs/progress") with
        | none => return (.invalid, none, initOutcome)
        | some path => do
          let outcome ← exchange (putRequest client path json) responseCap
          let alloc ← heap
          return putAnswer alloc progress.documentId outcome
      | (result, _) => return (result, none, initOutcome)

/-- What `cn_kosync_get_progress` makes of an exchange, for the record `progress`. -/
def getAnswer (alloc : ℕ → Bool) (documentId : List UInt8) (progress : Progress)
    (outcome : NetSimple.Outcome) : Result × Progress × Outcome :=
  let (result, kosyncOutcome) := mapResponse outcome
  if result ≠ .ok then (result, progress, kosyncOutcome)
  else
    let (result, progress) := parseProgress nearest alloc (responseBody outcome) progress
    if result = .ok ∧ progress.documentId ≠ documentId then
      (.badProtocol, progressInit, kosyncOutcome)
    else (result, progress, kosyncOutcome)

/-- `cn_kosync_get_progress` for the record `progress`. -/
def getProgress (client : Client) (documentId : List UInt8) (progress : Progress) :
    Env (Result × Progress × Outcome) :=
  if ¬ documentIdOk documentId ∨ ¬ client.ready then return (.invalid, progress, initOutcome)
  else
    let suffix := ascii "/syncs/progress/" ++ documentId
    match endpointPath client suffix with
    | none => return (.invalid, progress, initOutcome)
    | some path =>
      if 64 ≤ suffix.length then return (.invalid, progress, initOutcome)
      else do
        if ← sys malloc then
          let outcome ← exchange (getRequest client path) responseCap
          let alloc ← heap
          return getAnswer alloc documentId progress outcome
        else return (.noMemory, progress, initOutcome)

/-! ## What an answer says -/

section Answers

variable {alloc : ℕ → Bool} {documentId : List UInt8} {progress : Progress}
  {outcome : NetSimple.Outcome}

theorem mapResponse_eq_ok :
    (mapResponse outcome).1 = .ok ↔ outcome.result = .ok ∧ outcome.response.status = 200 := by
  unfold mapResponse
  dsimp only
  split_ifs with h h' h'' <;> simp_all

theorem mapResponse_eq_authFailed :
    (mapResponse outcome).1 = .authFailed ↔
      outcome.result = .ok ∧ outcome.response.status = 401 := by
  unfold mapResponse
  dsimp only
  split_ifs with h h' h'' <;> simp_all

theorem mapResponse_eq_transportError :
    (mapResponse outcome).1 = .transportError ↔ outcome.result ≠ .ok := by
  unfold mapResponse
  dsimp only
  split_ifs with h h' h'' <;> simp_all

/-- A response with status 200 is judged by its body, any other one by its status. -/
theorem putAnswer_eq : putAnswer alloc documentId outcome =
    if (mapResponse outcome).1 ≠ .ok then
      ((mapResponse outcome).1, none, (mapResponse outcome).2)
    else
      ((checkAck alloc documentId (responseBody outcome)).1,
        (checkAck alloc documentId (responseBody outcome)).2, (mapResponse outcome).2) := rfl

theorem getAnswer_of_failure (h : (mapResponse outcome).1 ≠ .ok) :
    getAnswer alloc documentId progress outcome =
      ((mapResponse outcome).1, progress, (mapResponse outcome).2) :=
  if_pos h

theorem getAnswer_of_ok (h : (mapResponse outcome).1 = .ok) :
    getAnswer alloc documentId progress outcome =
      let parsed := parseProgress nearest alloc (responseBody outcome) progress
      if parsed.1 = .ok ∧ parsed.2.documentId ≠ documentId then
        (.badProtocol, progressInit, (mapResponse outcome).2)
      else (parsed.1, parsed.2, (mapResponse outcome).2) :=
  if_neg (not_not.mpr h)

theorem checkAck_cases (alloc : ℕ → Bool) (documentId body : List UInt8) :
    (∃ ack, parseObject nearest alloc body = .ok ack ∧ {Field.document, Field.timestamp} ⊆ ack.fields ∧
        ack.progress.documentId = documentId ∧
        checkAck alloc documentId body = (.ok, some ack.progress.timestamp)) ∨
      ∃ e, (e = .badProtocol ∨ ParseError alloc e) ∧ checkAck alloc documentId body = (e, none) := by
  unfold checkAck
  cases hparse : parseObject nearest alloc body with
  | error e => exact .inr ⟨e, .inr (parseObject_error hparse), rfl⟩
  | ok ack =>
    dsimp only
    by_cases h : ¬ {Field.document, Field.timestamp} ⊆ ack.fields ∨
        ack.progress.documentId ≠ documentId
    · rw [if_pos h]
      exact .inr ⟨_, .inl rfl, rfl⟩
    · rw [if_neg h]
      simp only [not_or, not_not] at h
      exact .inl ⟨ack, rfl, h.1, h.2, rfl⟩

theorem parseProgress_cases (alloc : ℕ → Bool) (json : List UInt8) (old : Progress) :
    (parseProgress nearest alloc json old).1 = .ok ∨ (parseProgress nearest alloc json old).1 = .notFound ∨
      (parseProgress nearest alloc json old).1 = .badProtocol ∨
      ParseError alloc (parseProgress nearest alloc json old).1 := by
  unfold parseProgress
  cases hparse : parseObject nearest alloc json with
  | error e => exact .inr (.inr (.inr (parseObject_error hparse)))
  | ok parsed =>
    dsimp only
    split_ifs
    · exact .inr (.inl rfl)
    · exact .inr (.inr (.inl rfl))
    · exact .inl rfl

/-- A transport error of a PUT names the failure of the exchange. -/
theorem putAnswer_transport (h : (putAnswer alloc documentId outcome).1 = .transportError) :
    (putAnswer alloc documentId outcome).2.2.transportResult = outcome.result ∧
      outcome.result ≠ .ok := by
  rw [putAnswer_eq] at h ⊢
  by_cases hok : (mapResponse outcome).1 ≠ .ok
  · rw [if_pos hok] at h ⊢
    exact ⟨rfl, mapResponse_eq_transportError.mp h⟩
  · rw [if_neg hok] at h
    rcases checkAck_cases alloc documentId (responseBody outcome) with
      ⟨ack, -, -, -, hack⟩ | ⟨e, he, hack⟩ <;> rw [hack] at h
    · cases h
    · rcases he with rfl | rfl | ⟨rfl, -⟩ <;> cases h

/-- A transport error of a GET names the failure of the exchange. -/
theorem getAnswer_transport
    (h : (getAnswer alloc documentId progress outcome).1 = .transportError) :
    (getAnswer alloc documentId progress outcome).2.2.transportResult = outcome.result ∧
      outcome.result ≠ .ok := by
  by_cases hok : (mapResponse outcome).1 = .ok
  · rw [getAnswer_of_ok hok] at h
    dsimp only at h
    have hcases := parseProgress_cases alloc (responseBody outcome) progress
    split_ifs at h
    rw [h] at hcases
    rcases hcases with hc | hc | hc | hc | ⟨hc, -⟩ <;> cases hc
  · rw [getAnswer_of_failure hok] at h ⊢
    exact ⟨rfl, mapResponse_eq_transportError.mp h⟩

end Answers

/-! ## What a request does -/

/-- The files are as they were, and no answer of a heap is new. -/
structure Quiet (w w' : World) : Prop where
  files_eq : w'.files = w.files
  heaps_subset : w'.heaps ⊆ w.heaps

theorem Quiet.refl (w : World) : Quiet w w := ⟨rfl, fun _ h => h⟩

theorem Quiet.trans {w w' w'' : World} (h : Quiet w w') (h' : Quiet w' w'') : Quiet w w'' :=
  ⟨h'.files_eq.trans h.files_eq, fun _ ha => h.heaps_subset (h'.heaps_subset ha)⟩

/-- The world after a program that makes at most one exchange, with a request that satisfies
`P`. -/
def AtMostOne (P : Request → Prop) (w w' : World) : Prop :=
  Quiet w w' ∧ (w'.events = w.events ∨
    ∃ request outcome, P request ∧ w'.events = w.events ++ [.exchange request outcome])

/-- The world after an exchange over `wire`. -/
def Exchanged (request : Request) (bufferCap : ℕ) (wire : NetSimple.Wire) (w w' : World) : Prop :=
  Quiet w w' ∧
    w'.events = w.events ++ [.exchange request (NetSimple.exchange request bufferCap wire)]

theorem serializeProgress_cases (progress : Progress) (jsonCap : ℕ) :
    serializeProgress progress jsonCap = (.invalid, none) ∨
      ∃ json, serializeProgress progress jsonCap = (.ok, some json) := by
  unfold serializeProgress
  dsimp only
  split_ifs
  · exact .inl rfl
  · exact .inl rfl
  · split
    exacts [.inl rfl, .inr ⟨_, rfl⟩]

section Rules

variable {w : World}

theorem ends_sys_keeps {α : Type} {p : Sys α} (hp : KeepsFiles p) :
    Ends (sys p) w (fun _ w' => Quiet w w' ∧ w'.events = w.events)
      fun w' => Quiet w w' ∧ w'.events = w.events :=
  ends_sys.mpr ((hp.ends w.machine).mono (fun _ _ h => ⟨⟨h, fun _ h => h⟩, rfl⟩)
    fun _ h => ⟨⟨h, fun _ h => h⟩, rfl⟩)

/-- The end of a request: an exchange, and what is made of it with a heap. -/
theorem ends_exchange_heap {α : Type} {P : Request → Prop} {request : Request} (hP : P request)
    {bufferCap : ℕ} (answer : (ℕ → Bool) → NetSimple.Outcome → α) :
    Ends (do
        let outcome ← exchange request bufferCap
        let alloc ← heap
        return answer alloc outcome : Env α) w
      (fun r w' => ∃ wire, ∃ alloc ∈ w.heaps, Exchanged request bufferCap wire w w' ∧
        r = answer alloc (NetSimple.exchange request bufferCap wire))
      (AtMostOne P w) := by
  rw [ends_bind]
  refine ends_exchange ⟨.refl w, .inl rfl⟩ fun wire wires => ?_
  rw [ends_bind]
  refine ends_heap ⟨⟨rfl, fun _ h => h⟩, .inr ⟨_, _, hP, rfl⟩⟩ fun alloc halloc heaps hheaps => ?_
  exact ⟨wire, alloc, halloc, ⟨⟨rfl, hheaps⟩, rfl⟩, rfl⟩

/-- **A GET of the progress of a document.** -/
theorem ends_getProgress (client : Client) (documentId : List UInt8) (progress : Progress) :
    Ends (getProgress client documentId progress) w
      (fun r w' =>
        (Quiet w w' ∧ w'.events = w.events ∧ r.2 = (progress, initOutcome) ∧
          (r.1 = .invalid ∨ r.1 = .noMemory)) ∨
        ∃ path wire, ∃ alloc ∈ w.heaps,
          endpointPath client (ascii "/syncs/progress/" ++ documentId) = some path ∧
          Exchanged (getRequest client path) responseCap wire w w' ∧
          r = getAnswer alloc documentId progress
            (NetSimple.exchange (getRequest client path) responseCap wire))
      (AtMostOne (fun request => ∃ path,
        endpointPath client (ascii "/syncs/progress/" ++ documentId) = some path ∧
          request = getRequest client path) w) := by
  unfold getProgress
  by_cases hready : ¬ documentIdOk documentId ∨ ¬ client.ready
  · rw [if_pos hready]
    exact .inl ⟨.refl w, rfl, rfl, .inl rfl⟩
  rw [if_neg hready]
  dsimp only
  cases hpath : endpointPath client (ascii "/syncs/progress/" ++ documentId) with
  | none => exact .inl ⟨.refl w, rfl, rfl, .inl rfl⟩
  | some path =>
    dsimp only
    by_cases hlong : 64 ≤ (ascii "/syncs/progress/" ++ documentId).length
    · rw [if_pos hlong]
      exact .inl ⟨.refl w, rfl, rfl, .inl rfl⟩
    rw [if_neg hlong, ends_bind]
    refine (ends_sys_keeps keepsFiles_malloc).mono ?_ fun w' h => ⟨h.1, .inl h.2⟩
    rintro allocated w₁ ⟨hq, he⟩
    cases allocated with
    | false => exact .inl ⟨hq, he, rfl, .inr rfl⟩
    | true =>
      refine (ends_exchange_heap (P := fun request => ∃ path',
        some path = some path' ∧ request = getRequest client path') ⟨path, rfl, rfl⟩ _).mono ?_ ?_
      · rintro r w₂ ⟨wire, alloc, halloc, ⟨hq', he'⟩, hr⟩
        exact .inr ⟨path, wire, alloc, hq.heaps_subset halloc, rfl,
          ⟨hq.trans hq', by rw [he', he]⟩, hr⟩
      · rintro w₂ ⟨hq', h⟩
        exact ⟨hq.trans hq', by rwa [he] at h⟩

/-- **A PUT of a record.** -/
theorem ends_putProgress (client : Client) (progress : Progress) :
    Ends (putProgress client progress) w
      (fun r w' =>
        (Quiet w w' ∧ w'.events = w.events ∧ r.2 = (none, initOutcome) ∧
          (r.1 = .invalid ∨ r.1 = .noMemory)) ∨
        ∃ path json wire, ∃ alloc ∈ w.heaps,
          serializeProgress progress (jsonMax + 1) = (.ok, some json) ∧
          Exchanged (putRequest client path json) responseCap wire w w' ∧
          r = putAnswer alloc progress.documentId
            (NetSimple.exchange (putRequest client path json) responseCap wire))
      (AtMostOne (fun request => ∃ path json,
        serializeProgress progress (jsonMax + 1) = (.ok, some json) ∧
          request = putRequest client path json) w) := by
  unfold putProgress
  by_cases hready : ¬ client.ready
  · rw [if_pos hready]
    exact .inl ⟨.refl w, rfl, rfl, .inl rfl⟩
  rw [if_neg hready, ends_bind]
  refine (ends_sys_keeps keepsFiles_malloc).mono ?_ fun w' h => ⟨h.1, .inl h.2⟩
  rintro j w₁ ⟨hq₁, he₁⟩
  rw [ends_bind]
  refine (ends_sys_keeps keepsFiles_malloc).mono ?_
    fun w' h => ⟨hq₁.trans h.1, .inl (h.2.trans he₁)⟩
  rintro b w₂ ⟨hq₂, he₂⟩
  have hq := hq₁.trans hq₂
  have he := he₂.trans he₁
  -- no buffer, no request
  by_cases hmem : ¬ j ∨ ¬ b
  · rw [if_pos hmem]
    exact .inl ⟨hq, he, rfl, .inr rfl⟩
  rw [if_neg hmem]
  -- nor is there one for a record that cannot be written
  rcases serializeProgress_cases progress (jsonMax + 1) with hjson | ⟨json, hjson⟩ <;> rw [hjson]
  · exact .inl ⟨hq, he, rfl, .inl rfl⟩
  dsimp only
  cases endpointPath client (ascii "/syncs/progress") with
  | none => exact .inl ⟨hq, he, rfl, .inl rfl⟩
  | some path =>
    -- the one request of the call
    refine (ends_exchange_heap (P := fun request => ∃ path json',
      (Result.ok, some json) = (Result.ok, some json') ∧ request = putRequest client path json')
      ⟨path, json, rfl, rfl⟩ _).mono ?_ ?_
    · rintro r w₃ ⟨wire, alloc, halloc, ⟨hq', he'⟩, hr⟩
      exact .inr ⟨path, json, wire, alloc, hq.heaps_subset halloc, rfl,
        ⟨hq.trans hq', by rw [he', he]⟩, hr⟩
    · rintro w₃ ⟨hq', h⟩
      exact ⟨hq.trans hq', by rwa [he] at h⟩

end Rules

end Kosync
