import CrossNook.Sync.Records

/-!
# One side at a time

An explicit push leaves the local records alone and sends what it has validated; an explicit pull
sends no record and stores what it was told.

## Main definitions

* `Kosync.Validated`, `Kosync.Carries`: what a push has validated, and the request that carries it
* `Kosync.Fetched`: what a pull was told before its save
* `Kosync.PushTrail`, `Kosync.PullTrail`: the events of a push and of a pull, killed or not

## Main results

* `Kosync.explicit_one_sided`: push and pull touch one side each
-/

namespace Kosync

open Binary64 (nearest)
open Crash Posix

/-- A use of the clock, the resolver or the network. -/
def Event.IsRemote : Event → Prop
  | .time _ | .dns _ _ | .exchange _ _ => True
  | _ => False

/-- The calls identify the configured document. -/
def Identifies (documentPath : Option (List UInt8)) (w : World) (identity : BookIdentity)
    (documentId : List UInt8) : Prop :=
  ∃ path document w', documentPath = some path ∧ identify path w = (some document, w') ∧
    document.ids = some (identity, documentId)

/-! ## The events of a push -/

/-- The stored record of the document, and what it and the configured device fields were converted
to. -/
structure Validated (config : PushConfig) (w : World) (identity : BookIdentity)
    (record : ProgressStore.Record) (upload : Progress) : Prop where
  identifies : Identifies config.documentPath w identity upload.documentId
  stored : ∃ store, config.progressStore = some store ∧ Stored store identity w.files record
  converted : ∃ alloc device deviceId, config.device = some device ∧
    config.deviceId = some deviceId ∧ progressSet alloc progressInit upload.documentId
      record.location record.progress10000 device deviceId = (.ok, upload)

/-- A PUT whose body encodes the record and the configured device fields. -/
def Carries (config : PushConfig) (record : ProgressStore.Record) (documentId : List UInt8)
    (request : NetSimple.Request) : Prop :=
  request.method = .put ∧ ∃ json, request.body = some json ∧
    ∀ old, ∃ q, parseProgress nearest (fun _ => true) json old = (.ok, q) ∧ q.documentId = documentId ∧
      q.logicalPosition = record.location ∧ q.progress10000 = record.progress10000 ∧
      config.device = some q.device ∧ config.deviceId = some q.deviceId

/-- The events of a push: a load, a session only for a validated record, and then one PUT. -/
inductive PushTrail (config : PushConfig) (w : World) : List Event → Prop
  | idle : PushTrail config w []
  | loaded (identity : BookIdentity) (result : ProgressStore.Result) :
    PushTrail config w [.load identity result]
  | opened {identity : BookIdentity} {record : ProgressStore.Record} {upload : Progress}
    (hvalid : Validated config w identity record upload) {setup : List Event}
    (hsetup : ∀ e ∈ setup, e.IsSetup) : PushTrail config w (.load identity .ok :: setup)
  | sent {identity : BookIdentity} {record : ProgressStore.Record} {upload : Progress}
    (hvalid : Validated config w identity record upload) {setup : List Event}
    (hsetup : ∀ e ∈ setup, e.IsSetup) {request : NetSimple.Request}
    (hcarries : Carries config record upload.documentId request) (outcome : NetSimple.Outcome) :
    PushTrail config w (.load identity .ok :: (setup ++ [.exchange request outcome]))

/-- The world after a push, or a part of one. -/
def PushLeft (config : PushConfig) (w w' : World) : Prop :=
  w'.files = w.files ∧ ∃ events, w'.events = w.events ++ events ∧ PushTrail config w events

theorem accepted_device {config : SyncConfig} {setup : SyncSetup}
    (h : config.accepted = some setup) :
    config.device = some setup.device ∧ config.deviceId = some setup.deviceId := by
  unfold SyncConfig.accepted at h
  obtain ⟨_, -, h⟩ := Option.bind_eq_some_iff.mp h
  obtain ⟨_, -, h⟩ := Option.bind_eq_some_iff.mp h
  obtain ⟨_, -, h⟩ := Option.bind_eq_some_iff.mp h
  obtain ⟨_, -, h⟩ := Option.bind_eq_some_iff.mp h
  obtain ⟨_, -, h⟩ := Option.bind_eq_some_iff.mp h
  obtain ⟨device, hdevice, h⟩ := Option.bind_eq_some_iff.mp h
  obtain ⟨deviceId, hdeviceId, h⟩ := Option.bind_eq_some_iff.mp h
  split_ifs at h
  cases h
  exact ⟨hdevice, hdeviceId⟩

section Push

variable {config : PushConfig} {w : World} {identity : BookIdentity}
  {record : ProgressStore.Record} {upload : Progress} {events before after : List Event}

/-- The body of the PUT of a validated record. -/
theorem Validated.carries (h : Validated config w identity record upload) (client : Client)
    (path : List UInt8) {json : List UInt8}
    (hjson : serializeProgress upload (jsonMax + 1) = (.ok, some json)) :
    Carries config record upload.documentId (putRequest client path json) := by
  obtain ⟨alloc, device, deviceId, hdevice, hdeviceId, hset⟩ := h.converted
  refine ⟨rfl, json, rfl, fun old => ?_⟩
  obtain ⟨q, hq, hdocument, hlocation, hprogress, hqdevice, hqdeviceId⟩ :=
    parses_of_serialize Binary64.converts_nearest hset hjson old
  exact ⟨q, hq, hdocument, hlocation, hprogress, by rw [hqdevice, hdevice],
    by rw [hqdeviceId, hdeviceId]⟩

theorem counts_setup {setup : List Event} (h : ∀ e ∈ setup, e.IsSetup) :
    setup.countP Event.isGet = 0 ∧ setup.countP Event.isPut = 0 ∧ setup.countP Event.isSave = 0 :=
  ⟨Nat.le_zero.mp (readOnly_setup h).gets, (readOnly_setup h).puts, (readOnly_setup h).saves⟩

/-- A push makes at most one exchange, and saves nothing. -/
theorem PushTrail.counts (h : PushTrail config w events) :
    events.countP Event.isGet = 0 ∧ events.countP Event.isPut ≤ 1 ∧
      events.countP Event.isSave = 0 := by
  cases h with
  | idle => simp
  | loaded identity result => simp [Event.isGet, Event.isPut, Event.isSave]
  | opened hvalid hsetup =>
    obtain ⟨hget, hput, hsave⟩ := counts_setup hsetup
    simp [hget, hput, hsave, Event.isGet, Event.isPut, Event.isSave]
  | sent hvalid hsetup hcarries outcome =>
    obtain ⟨hget, hput, hsave⟩ := counts_setup hsetup
    simp [List.countP_append, hget, hput, hsave, Event.isGet, Event.isPut, Event.isSave,
      hcarries.1]

/-- **What a push sends.** -/
theorem PushTrail.carries (h : PushTrail config w events) {request : NetSimple.Request}
    {outcome : NetSimple.Outcome} (hmem : .exchange request outcome ∈ events) :
    ∃ identity record upload, Validated config w identity record upload ∧
      Carries config record upload.documentId request := by
  have hnot : ∀ {setup : List Event}, (∀ e ∈ setup, e.IsSetup) →
      Event.exchange request outcome ∉ setup := fun hsetup hmem => hsetup _ hmem
  cases h with
  | idle => cases hmem
  | loaded identity result => simp at hmem
  | opened hvalid hsetup =>
    rcases List.mem_cons.mp hmem with heq | hmem
    · cases heq
    · exact absurd hmem (hnot hsetup)
  | @sent identity record upload hvalid setup hsetup request' hcarries outcome' =>
    rcases List.mem_cons.mp hmem with heq | hmem
    · cases heq
    rcases List.mem_append.mp hmem with hmem | hmem
    · exact absurd hmem (hnot hsetup)
    · obtain ⟨rfl, -⟩ : request = request' ∧ outcome = outcome' := by simpa using hmem
      exact ⟨identity, record, upload, hvalid, hcarries⟩

/-- **Before a push uses the clock, the resolver or the network**, it has loaded a record and
validated it with the device fields. -/
theorem PushTrail.validated {e : Event} (h : PushTrail config w (before ++ e :: after))
    (he : e.IsRemote) : ∃ identity record upload, Validated config w identity record upload ∧
      .load identity .ok ∈ before := by
  have hfirst : ∀ {identity : BookIdentity} {result : ProgressStore.Result} {rest : List Event},
      before ++ e :: after = .load identity result :: rest → .load identity result ∈ before := by
    intro identity result rest heq
    cases before with
    | nil =>
      -- the load is not such an event
      obtain ⟨rfl, -⟩ := List.cons_eq_cons.mp heq
      cases he
    | cons first before =>
      obtain ⟨rfl, -⟩ := List.cons_eq_cons.mp heq
      exact List.mem_cons_self
  generalize hevents : before ++ e :: after = events at h
  cases h with
  | idle => simp at hevents
  | loaded identity result =>
    have hlen := congrArg List.length hevents
    have hmem := hfirst hevents
    have hpos := List.length_pos_of_mem hmem
    simp only [List.length_append, List.length_cons, List.length_nil] at hlen
    omega
  | opened hvalid hsetup => exact ⟨_, _, _, hvalid, hfirst hevents⟩
  | sent hvalid hsetup hcarries outcome => exact ⟨_, _, _, hvalid, hfirst hevents⟩

/-! ### The stages of a push -/

variable {setup : SyncSetup} {documentId : List UInt8} {w₀ : World} {result : PushResult}

theorem ends_pushUpload_left (hfiles : w.files = w₀.files)
    (hevents : w.events = w₀.events ++ [.load identity .ok])
    (hvalid : Validated config w₀ identity record upload) :
    Ends (pushUpload setup upload result) w (fun _ w' => PushLeft config w₀ w')
      (PushLeft config w₀) := by
  -- the setup of the session leaves the load and its own events
  have hopened : ∀ w₁, SetUp w w₁ → PushLeft config w₀ w₁ := by
    rintro w₁ ⟨hq, setup, he, hsetup⟩
    refine ⟨hq.files_eq.trans hfiles, _, ?_, .opened hvalid hsetup⟩
    rw [he, hevents, List.append_assoc, List.singleton_append]
  unfold pushUpload
  rw [ends_bind]
  refine (ends_openSession _ _ _ _).mono ?_ hopened
  rintro session w₁ ⟨hsetup, -⟩
  dsimp only
  cases session.client with
  | none => exact hopened w₁ hsetup
  | some client =>
    -- the PUT was not sent, or the record that it carries was validated
    have hput : ∀ w₂, AtMostOne (fun request => ∃ path json,
        serializeProgress upload (jsonMax + 1) = (.ok, some json) ∧
          request = putRequest client path json) w₁ w₂ → PushLeft config w₀ w₂ := by
      rintro w₂ ⟨hq₂, he₂ | ⟨request, outcome, ⟨path, json, hjson, rfl⟩, he₂⟩⟩
      · obtain ⟨hf, events, he, htrail⟩ := hopened w₁ hsetup
        exact ⟨hq₂.files_eq.trans hf, events, he₂.trans he, htrail⟩
      · obtain ⟨hq, setup, he, hall⟩ := hsetup
        refine ⟨hq₂.files_eq.trans (hq.files_eq.trans hfiles), _, ?_,
          .sent hvalid hall (hvalid.carries client path hjson) outcome⟩
        rw [he₂, he, hevents]
        simp
    dsimp only
    rw [ends_bind]
    refine (ends_putProgress client upload).mono ?_ hput
    intro answer w₂ h
    rcases h with ⟨hq, he, -⟩ | ⟨path, json, wire, alloc, -, hjson, ⟨hq, he⟩, -⟩
    · exact hput w₂ ⟨hq, .inl he⟩
    · exact hput w₂ ⟨hq, .inr ⟨_, _, ⟨path, json, hjson, rfl⟩, he⟩⟩

theorem ends_pushDocument_left (hc : config.accepted = some setup)
    (hidentifies : Identifies config.documentPath w₀ identity documentId)
    (hfiles : w.files = w₀.files) (hevents : w.events = w₀.events) :
    Ends (pushDocument setup identity documentId result) w (fun _ w' => PushLeft config w₀ w')
      (PushLeft config w₀) := by
  unfold pushDocument
  rw [ends_bind]
  refine (ends_loadRecord _ _).mono ?_ ?_
  swap
  · intro w' h
    exact ⟨h.1.files_eq.trans hfiles, [], by rw [h.2.1, hevents, List.append_nil], .idle⟩
  rintro ⟨loaded, record⟩ w₁ ⟨hload, hloads⟩
  have hfiles₁ : w₁.files = w₀.files := hload.1.files_eq.trans hfiles
  have hevents₁ : w₁.events = w₀.events ++ [.load identity loaded] := by
    rw [hload.2.1, hevents]
  have hleft : PushLeft config w₀ w₁ := ⟨hfiles₁, _, hevents₁, .loaded identity loaded⟩
  dsimp only
  by_cases hloaded : loaded ≠ .ok
  · rw [if_pos hloaded]
    exact hleft
  rw [if_neg hloaded]
  obtain rfl : loaded = .ok := not_not.mp hloaded
  by_cases hneg : record.progress10000 < 0
  · rw [if_pos hneg]
    exact hleft
  rw [if_neg hneg, ends_bind]
  -- an early return behind the load leaves the trace of the load only
  have hquiet : ∀ w₂, Quiet w₁ w₂ → w₂.events = w₁.events → PushLeft config w₀ w₂ := fun w₂ hq he =>
    ⟨hq.files_eq.trans hfiles₁, _, he.trans hevents₁, .loaded identity .ok⟩
  refine (ends_sys_keeps keepsFiles_malloc).mono ?_ fun w₂ h => hquiet w₂ h.1 h.2
  rintro alloc w₂ ⟨hq, he⟩
  -- an upload that was built is validated, and only such a one is sent
  rcases progressSet_cases alloc progressInit documentId record.location record.progress10000
    setup.device setup.deviceId with ⟨upload, hset⟩ | ⟨kosyncResult, hk, hset⟩
  · rw [hset]
    have hid : upload.documentId = documentId := by rw [(progressSet_eq_ok hset).1]
    have hdevices := accepted_device hc
    have hvalid : Validated config w₀ identity record upload := by
      refine ⟨?_, ⟨setup.store, accepted_store hc, ?_⟩, ?_⟩
      · rwa [hid]
      · rw [← hfiles]
        exact hloads.stored
      · exact ⟨alloc, _, _, hdevices.1, hdevices.2, by rwa [hid]⟩
    exact ends_pushUpload_left (hq.files_eq.trans hfiles₁) (he.trans hevents₁) hvalid
  · rw [hset]
    rcases hk with rfl | rfl <;> exact hquiet w₂ hq he

/-- **What a push does**, killed or not. -/
theorem ends_pushLocalOnce_left (config : PushConfig) (w : World) :
    Ends (pushLocalOnce config) w (fun _ w' => PushLeft config w w') (PushLeft config w) := by
  have hidle : ∀ w', w'.files = w.files → w'.events = w.events → PushLeft config w w' :=
    fun w' hf he => ⟨hf, [], by rw [he, List.append_nil], .idle⟩
  unfold pushLocalOnce
  cases hc : pushAccepted config with
  | none => exact hidle w rfl rfl
  | some setup =>
    dsimp only
    rw [ends_bind]
    refine ((ends_run _ _).and (ends_identify _)).mono ?_
      fun w' h => hidle w' h.2.1.files_eq h.2.2
    rintro document w₁ ⟨hid, hq, he, -⟩
    cases hids : document.ids with
    | none => exact hidle w₁ hq.files_eq he
    | some ids =>
      have haccepted := pushAccepted_accepted hc
      exact ends_pushDocument_left haccepted
        ⟨_, document, w₁, accepted_documentPath haccepted, hid, hids⟩ hq.files_eq he

end Push

/-! ## The events of a pull -/

/-- The server answered a GET of the document with a record that has the position and the progress
of `record`. -/
def Fetched (config : PullConfig) (w : World) (identity : BookIdentity)
    (record : ProgressStore.Record) (events : List Event) : Prop :=
  ∃ documentId client path outcome q, Identifies config.documentPath w identity documentId ∧
    endpointPath client (Bytes.ascii "/syncs/progress/" ++ documentId) = some path ∧
    .exchange (getRequest client path) outcome ∈ events ∧ .got documentId .ok ∈ events ∧
    (mapResponse outcome).1 = .ok ∧
    parseProgress nearest (fun _ => true) (responseBody outcome) progressInit = (.ok, q) ∧
    q.documentId = documentId ∧ record.location = q.logicalPosition ∧
    record.progress10000 = q.progress10000

/-- The events of a pull: it asks once, and what it saves it was told. -/
structure PullTrail (config : PullConfig) (w : World) (events : List Event) : Prop where
  gets : events.countP Event.isGet ≤ 1
  puts : events.countP Event.isPut = 0
  fetched : ∀ before identity record after, events = before ++ .save identity record :: after →
    after = [] ∧ Fetched config w identity record before

/-- The world after a pull, or a part of one. -/
def PullLeft (config : PullConfig) (w w' : World) : Prop :=
  ∃ events, w'.events = w.events ++ events ∧ PullTrail config w events ∧
    (events.countP Event.isSave = 0 → w'.files = w.files)

section Pull

variable {config : PullConfig} {w w' w₀ : World} {setup : PullSetup} {identity : BookIdentity}
  {record : ProgressStore.Record} {documentId : List UInt8} {events : List Event}
  {result : PullResult}

theorem Read.pullLeft (h : Read 1 events w w') : PullLeft config w w' := by
  obtain ⟨hq, he, hgets, hputs, hsaves⟩ := h
  refine ⟨events, he, ⟨hgets, hputs, ?_⟩, fun _ => hq.files_eq⟩
  rintro before identity record after rfl
  simp [Event.isSave] at hsaves

/-- The save of what was fetched. -/
theorem Fetched.pullLeft {w₁ : World} (hread : Read 1 events w w₁)
    (h : Fetched config w identity record events)
    (he : w'.events = w₁.events ++ [.save identity record]) : PullLeft config w w' := by
  obtain ⟨-, he₁, hgets, hputs, hsaves⟩ := hread
  refine ⟨events ++ [.save identity record], ?_, ⟨?_, ?_, ?_⟩, fun h0 => ?_⟩
  · rw [he, he₁, List.append_assoc]
  · simpa [Event.isGet] using hgets
  · simp [Event.isPut, hputs]
  · intro before identity' record' after heq
    -- the reading before the save has no other one
    have hnot : ∀ i r, Event.save i r ∉ events := fun i r hmem => by
      have := List.countP_eq_zero.mp hsaves _ hmem
      simp [Event.isSave] at this
    rcases List.append_eq_append_iff.mp heq with ⟨more, hbefore, hrest⟩ | ⟨more, hevents, hrest⟩
    · cases more with
      | nil =>
        obtain ⟨heq', rfl⟩ := List.cons_eq_cons.mp hrest
        cases heq'
        rw [List.append_nil] at hbefore
        rw [hbefore]
        exact ⟨rfl, h⟩
      | cons e more =>
        have hlen := congrArg List.length hrest
        simp only [List.length_cons, List.length_nil, List.length_append] at hlen
        omega
    · cases more with
      | nil =>
        obtain ⟨heq', rfl⟩ := List.cons_eq_cons.mp hrest
        cases heq'
        rw [List.append_nil] at hevents
        rw [← hevents]
        exact ⟨rfl, h⟩
      | cons e more =>
        obtain ⟨rfl, -⟩ := List.cons_eq_cons.mp hrest
        exact absurd (by rw [hevents]; simp) (hnot identity' record')
  · simp [Event.isSave] at h0

/-- What a GET that succeeded has fetched. -/
theorem fetched_of_getAnswer {client : Client} {path : List UInt8} {alloc : ℕ → Bool}
    {outcome : NetSimple.Outcome} {answer : Result × Progress × Outcome}
    (hidentifies : Identifies config.documentPath w identity documentId)
    (hpath : endpointPath client (Bytes.ascii "/syncs/progress/" ++ documentId) = some path)
    (hmem : .exchange (getRequest client path) outcome ∈ events) (hgot : .got documentId .ok ∈ events)
    (hanswer : answer = getAnswer alloc documentId progressInit outcome) (hok : answer.1 = .ok) :
    Fetched config w identity (remoteRecord answer.2.1) events := by
  have hresponse : (mapResponse outcome).1 = .ok := by
    by_contra hne
    rw [hanswer, getAnswer_of_failure hne] at hok
    exact hne hok
  rw [getAnswer_of_ok hresponse] at hanswer
  dsimp only at hanswer
  split_ifs at hanswer with hother
  · rw [hanswer] at hok
    cases hok
  rw [hanswer] at hok
  have hdocument : (parseProgress nearest alloc (responseBody outcome) progressInit).2.documentId =
      documentId := by
    by_contra hne
    exact hother ⟨hok, hne⟩
  obtain ⟨hlen, ms, htext, hdenotes⟩ := parseProgress_sound (Prod.ext hok rfl)
  refine ⟨documentId, client, path, outcome, _, hidentifies, hpath, hmem, hgot, hresponse,
    parseProgress_complete hlen htext hdenotes progressInit, hdocument, ?_, ?_⟩
  · rw [hanswer]
    rfl
  · rw [hanswer]
    rfl

/-! ### The stages of a pull -/

theorem ends_pullRecord_left
    (hidentifies : Identifies config.documentPath w₀ identity documentId) (client : Client)
    (hread : Read 0 events w₀ w) :
    Ends (pullRecord setup client identity documentId result) w
      (fun _ w' => PullLeft config w₀ w') (PullLeft config w₀) := by
  unfold pullRecord
  rw [ends_bind, ends_observed]
  refine ((ends_run _ _).and (ends_getProgress client documentId progressInit)).mono ?_ ?_
  · rintro answer w₁ ⟨hrun, hget⟩
    obtain ⟨asked, hasked, -⟩ := getProgress_read hrun
    -- only the GET was sent so far
    have hread₁ : Read 1 (events ++ asked ++ [.got documentId answer.1]) w₀
        (w₁.seen (.got documentId answer.1)) := by
      have := (hread.trans hasked).seen documentId answer.1
      rwa [Nat.zero_add] at this
    dsimp only
    by_cases hok : answer.1 = .ok
    swap
    · rw [if_neg hok]
      exact hread₁.pullLeft
    rw [if_pos hok, ends_bind]
    -- a record that was accepted is the one of the answer
    have hfetched : Fetched config w₀ identity (remoteRecord answer.2.1)
        (events ++ asked ++ [.got documentId answer.1]) := by
      rcases hget with ⟨-, -, -, hi⟩ | ⟨path, wire, alloc, -, hpath, ⟨-, he⟩, hanswer⟩
      · rcases hi with hi | hi <;> rw [hok] at hi <;> cases hi
      · obtain rfl : asked = [_] := List.append_cancel_left (hasked.2.1.symm.trans he)
        exact fetched_of_getAnswer hidentifies hpath (by simp) (by simp [hok]) hanswer hok
    refine (ends_saveRecord _ _ _).mono ?_ ?_
    · intro saved w' he
      exact hfetched.pullLeft hread₁ he
    · intro w' he
      exact hfetched.pullLeft hread₁ he
  · -- the program stopped in the GET
    rintro w₁ ⟨-, h⟩
    obtain ⟨asked, hasked⟩ := h.read fun request hr => by
      obtain ⟨path, -, rfl⟩ := hr
      rfl
    have hread₁ := hread.trans hasked
    rw [Nat.zero_add] at hread₁
    exact hread₁.pullLeft

theorem ends_pullDocument_left
    (hidentifies : Identifies config.documentPath w₀ identity documentId)
    (hread : Read 0 events w₀ w) :
    Ends (pullDocument setup identity documentId result) w
      (fun _ w' => PullLeft config w₀ w') (PullLeft config w₀) := by
  unfold pullDocument
  rw [ends_bind]
  refine (ends_openSession _ _ _ _).mono ?_ ?_
  · rintro session w₁ ⟨hsetup, -⟩
    obtain ⟨setupEvents, hread'⟩ := hsetup.read
    have hread₁ := hread.trans hread'
    dsimp only
    cases session.client with
    | none => exact (hread₁.le zero_le_one).pullLeft
    | some client => exact ends_pullRecord_left hidentifies client hread₁
  · intro w₁ hsetup
    obtain ⟨setupEvents, hread'⟩ := hsetup.read
    exact ((hread.trans hread').le zero_le_one).pullLeft

/-- **What a pull does**, killed or not. -/
theorem ends_pullRemoteOnce_left (config : PullConfig) (w : World) :
    Ends (pullRemoteOnce config) w (fun _ w' => PullLeft config w w') (PullLeft config w) := by
  unfold pullRemoteOnce
  cases hc : config.accepted with
  | none => exact ((Read.refl w).le zero_le_one).pullLeft
  | some setup =>
    dsimp only
    rw [ends_bind]
    refine ((ends_run _ _).and (ends_identify _)).mono ?_
      fun _ h => ((h.2.1.read h.2.2).le zero_le_one).pullLeft
    rintro document w₁ ⟨hid, hq, he, -⟩
    have hread := hq.read he
    cases hids : document.ids with
    | none => exact (hread.le zero_le_one).pullLeft
    | some ids =>
      exact ends_pullDocument_left
        ⟨_, document, w₁, PullConfig.accepted_documentPath hc, hid, hids⟩ hread

end Pull

/-! ## One side at a time -/

/-- A push, or a part of one, changed no file; it made at most one PUT, which carries the stored
record and the configured device fields, and nothing remote happened before these were
validated. -/
structure PushOneSided (config : PushConfig) (w w' : World) : Prop where
  files_eq : w'.files = w.files
  sends : ∃ events, w'.events = w.events ++ events ∧ events.countP Event.isPut ≤ 1 ∧
    (∀ request outcome, .exchange request outcome ∈ events → ∃ identity record upload,
      Validated config w identity record upload ∧
        Carries config record upload.documentId request) ∧
    ∀ before e after, events = before ++ e :: after → e.IsRemote →
      ∃ identity record upload, Validated config w identity record upload ∧
        .load identity .ok ∈ before

/-- A pull that returned stored the record that it fetched, or left the record as it was. -/
structure PullOneSided (config : PullConfig) (w : World) (result : PullResult) (w' : World) :
    Prop where
  left : PullLeft config w w'
  persisted : result.status = .persisted → ∃ store identity record before,
    config.progressStore = some store ∧
    BookIdentity.fromPath config.documentPath = some identity ∧
    w'.events = w.events ++ (before ++ [.save identity record]) ∧
    Fetched config w identity record before ∧ Stored store identity w'.files record
  kept : result.status ≠ .persisted → ∀ store identity, config.progressStore = some store →
    BookIdentity.fromPath config.documentPath = some identity →
      Kept store identity w.files w'.files

theorem PushLeft.oneSided {config : PushConfig} {w w' : World} (h : PushLeft config w w') :
    PushOneSided config w w' := by
  obtain ⟨hfiles, events, he, htrail⟩ := h
  refine ⟨hfiles, events, he, htrail.counts.2.1, fun _ _ hmem => htrail.carries hmem, ?_⟩
  rintro before e after rfl hremote
  exact htrail.validated hremote

/-- **A pull that reports success stored what it was told.** -/
theorem PullLeft.persisted {config : PullConfig} {w w' : World} {result : PullResult}
    (hleft : PullLeft config w w') (h : Downloads config w result w')
    (hstatus : result.status = .persisted) : ∃ store identity record before,
    config.progressStore = some store ∧
    BookIdentity.fromPath config.documentPath = some identity ∧
    w'.events = w.events ++ (before ++ [.save identity record]) ∧
    Fetched config w identity record before ∧ Stored store identity w'.files record := by
  cases h with
  | early hread ha hs => exact absurd hstatus hs
  | @saved download hready result' saved _ hsave =>
    have hok : saved = .ok := by
      by_contra hne
      unfold PullResult.pulled at hstatus
      dsimp only at hstatus
      rw [if_neg hne] at hstatus
      cases hstatus
    subst hok
    obtain ⟨path, wire, alloc, before, -, -, hread, -, -⟩ := hready.exchanged
    obtain ⟨events, he, htrail, -⟩ := hleft
    have hevents : w'.events = w.events ++
        (before ++ [.save download.identity (remoteRecord download.answer.2.1)]) := by
      rw [(ends_saveRecord _ _ _).of_eq hsave, hread.2.1, List.append_assoc]
    have hsplit := List.append_cancel_left (he.symm.trans hevents)
    exact ⟨_, _, _, before, PullConfig.accepted_store hready.accepted, hready.identity_eq, hevents,
      (htrail.fetched before _ _ [] hsplit).2, saveRecord_stored hsave⟩

/-- **Explicit push and pull touch one side only.** A push changes no file, sends at most one PUT,
which encodes the stored record and the configured device fields, and uses the clock, the resolver
or the network only after it has validated both. A pull sends no PUT and saves only what a GET of
the same document was answered with `ok`; where it reports success that record is stored, and
every other status leaves the record as it was. -/
theorem explicit_one_sided (w : World) :
    (∀ config : PushConfig, Ends (pushLocalOnce config) w (fun _ w' => PushOneSided config w w')
      (PushOneSided config w)) ∧
    ∀ config : PullConfig, Ends (pullRemoteOnce config) w (PullOneSided config w)
      (PullLeft config w) := by
  constructor
  · intro config
    exact (ends_pushLocalOnce_left config w).mono (fun _ _ h => h.oneSided) fun _ h => h.oneSided
  · intro config
    refine ((ends_pullRemoteOnce_left config w).and
      (ends_pullRemoteOnce_downloads config w)).mono ?_ fun _ h => h.1
    rintro result w' ⟨hleft, hdownloads, -⟩
    refine ⟨hleft, hleft.persisted hdownloads, ?_⟩
    intro hstatus store identity hstore hidentity
    exact hdownloads.pulled.kept hstore hidentity hstatus

end Kosync
