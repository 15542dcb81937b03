import CrossNook.Sync.Push

/-!
# Evidence about the server

What the reports of a synchronization and of a push say about the record of the server, compared
with what was handed to the connection and what came back.

## Main definitions

* `Kosync.Acknowledged`, `Kosync.Refused`: the answers that settle a PUT
* `Kosync.Evidence`: a report that is sound
* `Kosync.Finished`: the runs of a synchronization, up to its decision and from there on

## Main results

* `Kosync.ends_syncOnce_finished`: every run of a synchronization is of this form
* `Kosync.mutation_evidence`: the reports of both operations are sound
-/

namespace Kosync

open Binary64 (nearest)
open Crash Posix

/-! ## The answers that settle a PUT -/

/-- The server acknowledged the record of the document, with a timestamp. -/
def Acknowledged (documentId : List UInt8) (outcome : NetSimple.Outcome) : Prop :=
  outcome.result = .ok ∧ outcome.response.status = 200 ∧
    ∃ ack, parseObject nearest (fun _ => true) (responseBody outcome) = .ok ack ∧
      {Field.document, Field.timestamp} ⊆ ack.fields ∧ ack.progress.documentId = documentId

/-- The server refused the credentials. -/
def Refused (outcome : NetSimple.Outcome) : Prop :=
  outcome.result = .ok ∧ outcome.response.status = 401

/-- What the caller knows after a PUT that made an exchange. -/
structure Settled (documentId : List UInt8) (memory : Prop) (outcome : NetSimple.Outcome)
    (answer : Result × Option ℤ × Outcome) : Prop where
  ok : answer.1 = .ok → Acknowledged documentId outcome
  of_acknowledged : memory → Acknowledged documentId outcome → answer.1 = .ok
  authFailed : answer.1 = .authFailed → Refused outcome
  ne_invalid : answer.1 ≠ .invalid
  ne_notFound : answer.1 ≠ .notFound
  transport : answer.1 = .transportError → answer.2.2.transportResult = outcome.result
  handed : outcome.handed ≠ [] → NetSimple.AfterSend outcome.result

theorem parseObject_of_alloc {alloc : ℕ → Bool} {json : List UInt8} {out : ParsedObject}
    (h : parseObject nearest alloc json = .ok out) : parseObject nearest (fun _ => true) json = .ok out := by
  obtain ⟨hlen, ms, htext, hreads⟩ := parseObject_sound h
  exact parseObject_complete hlen htext hreads

theorem putAnswer_settled {alloc : ℕ → Bool} {documentId : List UInt8}
    {request : NetSimple.Request} {bufferCap : ℕ} {wire : NetSimple.Wire} :
    Settled documentId (alloc = fun _ => true) (NetSimple.exchange request bufferCap wire)
      (putAnswer alloc documentId (NetSimple.exchange request bufferCap wire)) := by
  generalize hout : NetSimple.exchange request bufferCap wire = outcome
  have hhanded : outcome.handed ≠ [] → NetSimple.AfterSend outcome.result := by
    rw [← hout]
    exact NetSimple.exchange_handed
  have htransport := @putAnswer_transport alloc documentId outcome
  by_cases hok : (mapResponse outcome).1 = .ok
  · -- the acknowledgement decides
    obtain ⟨hres, hstatus⟩ := mapResponse_eq_ok.mp hok
    have heq : (putAnswer alloc documentId outcome).1 =
        (checkAck alloc documentId (responseBody outcome)).1 := by
      rw [putAnswer_eq, if_neg (not_not.mpr hok)]
    rcases checkAck_cases alloc documentId (responseBody outcome) with
      ⟨ack, hparse, hfields, hdoc, hack⟩ | ⟨e, he, hack⟩ <;> rw [hack] at heq
    · refine ⟨fun _ => ⟨hres, hstatus, ack, parseObject_of_alloc hparse, hfields, hdoc⟩,
        fun _ _ => heq, ?_, ?_, ?_, fun h => (htransport h).1, hhanded⟩ <;> simp [heq]
    · have he' : e = .badProtocol ∨ e = .badJson ∨ e = .noMemory := by
        rcases he with h | h | ⟨h, -⟩
        exacts [.inl h, .inr (.inl h), .inr (.inr h)]
      refine ⟨?_, ?_, ?_, ?_, ?_, fun h => (htransport h).1, hhanded⟩
      · rcases he' with rfl | rfl | rfl <;> simp [heq]
      · rintro rfl ⟨-, -, ack, hparse, hfields, hdoc⟩
        -- with memory, an acknowledgement that is parsed is accepted
        unfold checkAck at hack
        rw [hparse] at hack
        dsimp only at hack
        rw [if_neg (by simp [hfields, hdoc])] at hack
        cases hack
      all_goals rcases he' with rfl | rfl | rfl <;> simp [heq]
  · have heq : putAnswer alloc documentId outcome =
        ((mapResponse outcome).1, none, (mapResponse outcome).2) := by
      rw [putAnswer_eq, if_pos hok]
    rw [heq] at htransport ⊢
    refine ⟨fun h => absurd h hok, fun _ ⟨h, h', _⟩ => absurd (mapResponse_eq_ok.mpr ⟨h, h'⟩) hok,
      fun h => mapResponse_eq_authFailed.mp h, ?_, ?_, fun h => (htransport h).1, hhanded⟩
    all_goals
      unfold mapResponse
      dsimp only
      split_ifs <;> simp

/-- **What a PUT leaves.** -/
theorem putProgress_settled {client : Client} {upload : Progress} {w w' : World}
    {answer : Result × Option ℤ × Outcome}
    (h : putProgress client upload w = (some answer, w')) :
    (w'.events = w.events ∧ (answer.1 = .invalid ∨ answer.1 = .noMemory)) ∨
      ∃ request outcome, w'.events = w.events ++ [.exchange request outcome] ∧
        Puts upload.documentId request ∧
        Settled upload.documentId (∀ alloc ∈ w.heaps, alloc = fun _ => true) outcome answer := by
  rcases (ends_putProgress _ _).of_eq h with ⟨-, he, -, hr⟩ |
    ⟨path, json, wire, alloc, halloc, hjson, ⟨-, he⟩, rfl⟩
  · exact .inl ⟨he, hr⟩
  · refine .inr ⟨_, _, he, ⟨rfl, upload, json, rfl, hjson, rfl⟩, ?_⟩
    have hs := @putAnswer_settled alloc upload.documentId (putRequest client path json) responseCap
      wire
    exact { hs with of_acknowledged := fun hmem => hs.of_acknowledged (hmem alloc halloc) }

/-! ## Sound reports -/

/-- A report about the record of the server that is sound for the events of a run. -/
structure Evidence (documentId : List UInt8) (memory : Prop) (mutation : MutationState)
    (events : List Event) : Prop where
  puts : ∀ request outcome, .exchange request outcome ∈ events → request.method = .put →
    Puts documentId request
  none : mutation = .none → ∀ request outcome, .exchange request outcome ∈ events →
    request.method = .put → outcome.handed = [] ∨ Refused outcome
  confirmed : memory → (mutation = .confirmed ↔ ∃ request outcome,
    .exchange request outcome ∈ events ∧ request.method = .put ∧ Acknowledged documentId outcome)
  possible : ∀ request outcome, .exchange request outcome ∈ events → request.method = .put →
    outcome.handed ≠ [] → ¬ Acknowledged documentId outcome → ¬ Refused outcome →
      mutation = .possible

theorem Evidence.of_no_put {documentId : List UInt8} {memory : Prop} {events : List Event}
    {mutation : MutationState} (h : events.countP Event.isPut = 0) (hm : mutation ≠ .confirmed) :
    Evidence documentId memory mutation events := by
  have hno : ∀ request outcome, .exchange request outcome ∈ events → request.method ≠ .put := by
    intro request outcome hmem
    simpa [Event.isPut] using List.countP_eq_zero.mp h _ hmem
  refine ⟨?_, ?_, fun _ => ⟨fun h => absurd h hm, ?_⟩, ?_⟩
  · exact fun request outcome hmem hput => absurd hput (hno request outcome hmem)
  · exact fun _ request outcome hmem hput => absurd hput (hno request outcome hmem)
  · rintro ⟨request, outcome, hmem, hput, -⟩
    exact absurd hput (hno request outcome hmem)
  · exact fun request outcome hmem hput => absurd hput (hno request outcome hmem)

/-- How a caller has to report on the answer of a PUT. -/
structure Reports (answer : Result × Option ℤ × Outcome) (mutation : MutationState) : Prop where
  confirmed : mutation = .confirmed ↔ answer.1 = .ok
  none : mutation = .none → answer.1 = .authFailed ∨ answer.1 = .invalid ∨
    answer.1 = .notFound ∨
    (answer.1 = .transportError ∧ ¬ NetSimple.AfterSend answer.2.2.transportResult)

/-- **A report on a PUT is sound**, after events without one. -/
theorem Reports.evidence {client : Client} {upload : Progress} {w w' : World}
    {answer : Result × Option ℤ × Outcome} {mutation : MutationState} {events : List Event}
    (hreports : Reports answer mutation)
    (h : putProgress client upload w = (some answer, w'))
    (hno : events.countP Event.isPut = 0) :
    ∃ more, w'.events = w.events ++ more ∧
      Evidence upload.documentId (∀ alloc ∈ w.heaps, alloc = fun _ => true) mutation
        (events ++ more) := by
  rcases putProgress_settled h with ⟨he, hr⟩ | ⟨request, outcome, he, hputs, hs⟩
  · -- no PUT was sent
    refine ⟨[], by simp [he], .of_no_put (by simpa using hno) fun hm => ?_⟩
    have hok := hreports.confirmed.mp hm
    rcases hr with hr | hr <;> rw [hr] at hok <;> cases hok
  · -- the one that was sent is the only one of the events
    have honly : ∀ request' outcome', .exchange request' outcome' ∈
        events ++ [Event.exchange request outcome] → request'.method = .put →
          request' = request ∧ outcome' = outcome := by
      intro request' outcome' hmem hput
      rcases List.mem_append.mp hmem with hmem | hmem
      · have := List.countP_eq_zero.mp hno _ hmem
        simp [Event.isPut, hput] at this
      · simpa using hmem
    have hnone : mutation = .none → outcome.handed = [] ∨ Refused outcome := by
      intro hm
      rcases hreports.none hm with ha | hi | hn | ⟨ht, hafter⟩
      · exact .inr (hs.authFailed ha)
      · exact absurd hi hs.ne_invalid
      · exact absurd hn hs.ne_notFound
      · -- a result of the connection phase: nothing was handed over
        rw [hs.transport ht] at hafter
        exact .inl (by_contra fun hh => hafter (hs.handed hh))
    refine ⟨_, he, ?_, ?_, fun hmem => ⟨fun hm => ?_, ?_⟩, ?_⟩
    · intro request' outcome' hmem hput
      rw [(honly _ _ hmem hput).1]
      exact hputs
    · intro hm request' outcome' hmem hput
      rw [(honly _ _ hmem hput).2]
      exact hnone hm
    · exact ⟨request, outcome, by simp, hputs.1, hs.ok (hreports.confirmed.mp hm)⟩
    · rintro ⟨request', outcome', hmem', hput, hack⟩
      rw [(honly _ _ hmem' hput).2] at hack
      exact hreports.confirmed.mpr (hs.of_acknowledged hmem hack)
    · intro request' outcome' hmem hput hhanded hack hrefused
      rw [(honly _ _ hmem hput).2] at hhanded hack hrefused
      cases hm : mutation with
      | possible => rfl
      | confirmed => exact absurd (hs.ok (hreports.confirmed.mp hm)) hack
      | none => exact ((hnone hm).elim hhanded hrefused).elim

/-! ## The report of a push -/

theorem not_afterSend_of_provenPreSend {result : NetSimple.Result} (h : provenPreSend result = true) :
    ¬ NetSimple.AfterSend result := by
  rintro (_ | _ | _ | _ | _ | _ | _ | _ | _) <;> cases h

theorem not_afterSend_of_prePut {result : NetSimple.Result} (h : transportIsPrePut result = true) :
    ¬ NetSimple.AfterSend result := by
  rintro (_ | _ | _ | _ | _ | _ | _ | _ | _) <;> cases h

theorem pushed_reports (result : PushResult) (answer : Result × Option ℤ × Outcome) :
    Reports answer (result.pushed answer).remoteMutation := by
  obtain ⟨kosyncResult, timestamp, kosyncOutcome⟩ := answer
  unfold PushResult.pushed
  dsimp only
  by_cases hok : kosyncResult = .ok
  · rw [if_pos hok]
    exact ⟨by simp [hok], by simp⟩
  · rw [if_neg hok]
    dsimp only
    split_ifs with hpre
    · exact ⟨by simp [hok], fun _ => .inr (.inr (.inr
        ⟨hpre.1, not_afterSend_of_provenPreSend hpre.2⟩))⟩
    · exact ⟨by simp [hok], by simp⟩

/-! ## The runs of a synchronization -/

/-- A synchronization that knows both sides and is about to decide. -/
structure Stage where
  setup : SyncSetup
  client : Client
  identity : BookIdentity
  documentId : List UInt8
  loaded : ProgressStore.Result
  record : ProgressStore.Record
  answer : Result × Progress × Outcome
  result : SyncResult
  world : World

/-- How a synchronization got there: the load and the GET, and nothing written. -/
structure Stage.Ready (config : SyncConfig) (w : World) (stage : Stage) : Prop where
  accepted : config.accepted = some stage.setup
  identity_eq : BookIdentity.fromPath config.documentPath = some stage.identity
  loads : Loads stage.setup.store stage.identity w.files (stage.loaded, stage.record)
  loaded : stage.loaded = .ok ∨ stage.loaded = .missing
  answered : stage.answer.1 = .ok ∨ stage.answer.1 = .notFound
  asked : ∃ path wire, ∃ alloc ∈ w.heaps,
    endpointPath stage.client (Bytes.ascii "/syncs/progress/" ++ stage.documentId) = some path ∧
    stage.answer = getAnswer alloc stage.documentId progressInit
      (NetSimple.exchange (getRequest stage.client path) responseCap wire)
  read : ∃ events, Read 1 events w stage.world
  localPresent : stage.result.localPresent = decide (stage.loaded = .ok)
  remotePresent : stage.result.remotePresent = decide (stage.answer.1 = .ok)
  remoteProgress : stage.result.remoteProgress = stage.answer.2.1
  fresh : Fresh stage.result

/-- The runs of `syncOnce`: it ends before a decision, or with one. -/
inductive Finished (config : SyncConfig) (w : World) : SyncResult → World → Prop
  | early {result : SyncResult} {events : List Event} {w' : World} (hread : Read 1 events w w')
    (hfresh : Fresh result) (hd : result.decision = .none) (hs : result.status ≠ .ok) :
    Finished config w result w'
  | decided {stage : Stage} (hready : stage.Ready config w) {final : SyncResult} {w' : World}
    (h : Reconciled stage.setup stage.client stage.identity stage.documentId stage.record
      stage.result stage.world final w') :
    Finished config w final w'

theorem mapKosync_ne_ok (result : Result) : mapKosync result ≠ .ok := by cases result <;> decide

theorem Session.status_ne_ok (session : Session) : session.status ≠ .ok := by
  unfold Session.status
  split_ifs
  exacts [by decide, by decide, mapKosync_ne_ok _]

theorem Read.seen {n : ℕ} {events : List Event} {w w' : World} (h : Read n events w w')
    (documentId : List UInt8) (got : Result) :
    Read n (events ++ [.got documentId got]) w (w'.seen (.got documentId got)) :=
  h.trans (n := 0) ⟨⟨rfl, fun _ h => h⟩, rfl, le_rfl, rfl, rfl⟩

/-- A stage with its origin: the calls that identified the document, and the exchange of the GET
among the events. -/
structure Stage.Asked (config : SyncConfig) (w : World) (stage : Stage) : Prop
    extends Stage.Ready config w stage where
  document : ∃ document w₁, identify stage.setup.documentPath w = (some document, w₁) ∧
    document.ids = some (stage.identity, stage.documentId)
  exchanged : ∃ path wire alloc events,
    endpointPath stage.client (Bytes.ascii "/syncs/progress/" ++ stage.documentId) = some path ∧
    Read 1 events w stage.world ∧
    .exchange (getRequest stage.client path)
      (NetSimple.exchange (getRequest stage.client path) responseCap wire) ∈ events ∧
    stage.answer = getAnswer alloc stage.documentId progressInit
      (NetSimple.exchange (getRequest stage.client path) responseCap wire)

/-- **Every run of a synchronization ends before a decision or with one.** -/
theorem Completed.asked {config : SyncConfig} {w w' : World} {final : SyncResult}
    (h : Completed config w final w') :
    (∃ events, Read 1 events w w' ∧ Fresh final ∧ final.decision = .none ∧ final.status ≠ .ok) ∨
      ∃ stage : Stage, stage.Asked config w ∧
        Reconciled stage.setup stage.client stage.identity stage.documentId stage.record
          stage.result stage.world final w' := by
  cases h with
  -- without a valid configuration nothing is done
  | rejected h =>
    exact .inl ⟨_, (Read.refl w).le zero_le_one, fresh_init.of_eq rfl rfl rfl rfl rfl, rfl,
      by simp⟩
  -- nor without an identity of the book
  | @unidentified _ hc document _ hid hids =>
    obtain ⟨hq, he, -⟩ := (ends_identify _).of_eq hid
    exact .inl ⟨_, (hq.read he).le zero_le_one, fresh_init.of_eq rfl rfl rfl rfl rfl, rfl,
      by simp⟩
  | @synced setup hc document w₁ _ hid identity documentId hids _ h =>
    obtain ⟨hq, he, hfirst⟩ := (ends_identify _).of_eq hid
    have hread₁ := hq.read he
    have hidentity : BookIdentity.fromPath config.documentPath = some identity := by
      rw [accepted_documentPath hc]
      exact hfirst _ hids
    cases h with
    -- the record cannot be loaded
    | @failed loaded record _ hload hok hmissing =>
      have hread := hread₁.trans ((ends_loadRecord _ _).of_eq hload).1
      refine .inl ⟨_, hread.le zero_le_one, fresh_init.of_eq rfl rfl rfl rfl rfl, rfl, ?_⟩
      dsimp only
      split_ifs <;> decide
    -- the session does not open
    | @unopened loaded record w₂ _ hload hl session hopen hnone =>
      have hread₂ := hread₁.trans ((ends_loadRecord _ _).of_eq hload).1
      obtain ⟨events, hsetup⟩ := ((ends_openSession _ _ _ _).of_eq hopen).1.read
      exact .inl ⟨_, (hread₂.trans hsetup).le zero_le_one, fresh_init.of_eq rfl rfl rfl rfl rfl,
        rfl, session.status_ne_ok⟩
    | @asked loaded record w₂ w₃ _ hload hl session client hopen hclient _ h =>
      obtain ⟨hread, hloads⟩ := (ends_loadRecord _ _).of_eq hload
      have hread₂ := hread₁.trans hread
      obtain ⟨events, hsetup⟩ := ((ends_openSession _ _ _ _).of_eq hopen).1.read
      have hread₃ := hread₂.trans hsetup
      cases h with
      | @failed answer w₄ hget hok hnf =>
        obtain ⟨asked, hasked, -⟩ := getProgress_read hget
        exact .inl ⟨_, (hread₃.trans hasked).seen _ _, fresh_init.of_eq rfl rfl rfl rfl rfl, rfl,
          mapKosync_ne_ok _⟩
      | @reconciled answer w₄ hget hr _ _ h =>
        -- a GET that is answered was exchanged
        rcases (ends_getProgress _ _ _).of_eq hget with ⟨-, -, -, hi⟩ |
          ⟨path, wire, alloc, halloc, hpath, ⟨hq₄, he₄⟩, hanswer⟩
        · rcases hr with hr | hr <;> rcases hi with hi | hi <;> rw [hr] at hi <;> cases hi
        have hasked : Read 1 [_] w₃ w₄ := ⟨hq₄, he₄, List.countP_le_length,
          by simp [Event.isPut, getRequest], rfl⟩
        have hread₄ := (hread₃.trans hasked).seen documentId answer.1
        refine .inr ⟨⟨setup, client, identity, documentId, loaded, record, answer, _, _⟩,
          ⟨⟨hc, hidentity, ?_, hl, hr, ?_, ⟨_, hread₄⟩, rfl, rfl, rfl, ?_⟩, ?_, ?_⟩, h⟩
        · rwa [← hq.files_eq]
        · exact ⟨path, wire, alloc, hread₃.1.heaps_subset halloc, hpath, hanswer⟩
        · exact fresh_init.of_eq rfl rfl rfl rfl rfl
        · exact ⟨document, w₁, hid, hids⟩
        · exact ⟨path, wire, alloc, _, hpath, hread₄, by simp, hanswer⟩

theorem Completed.finished {config : SyncConfig} {w w' : World} {final : SyncResult}
    (h : Completed config w final w') : Finished config w final w' := by
  rcases h.asked with ⟨events, hread, hfresh, hd, hs⟩ | ⟨stage, hasked, hreconciled⟩
  · exact .early hread hfresh hd hs
  · exact .decided hasked.toReady hreconciled

theorem ends_syncOnce_finished (config : SyncConfig) (w : World) :
    Ends (syncOnce config) w (fun r w' => Completed config w r w' ∧ Finished config w r w')
      fun _ => True :=
  (ends_syncOnce config w).mono (fun _ _ h => ⟨h.1, h.1.finished⟩) fun _ _ => trivial

/-! ## The report of a synchronization -/

theorem uploaded_reports {result : SyncResult} (hfresh : Fresh result)
    (answer : Result × Option ℤ × Outcome) :
    Reports answer (remoteMutation (result.uploaded answer)) := by
  obtain ⟨kosyncResult, timestamp, kosyncOutcome⟩ := answer
  by_cases hok : kosyncResult = .ok
  · subst hok
    exact ⟨⟨fun _ => rfl, fun _ => rfl⟩, fun h => by cases h⟩
  · have hfailed : result.uploaded (kosyncResult, timestamp, kosyncOutcome) =
        { result with
          remotePutAttempted := true, kosyncResult, kosyncOutcome
          status := mapKosync kosyncResult } := if_pos hok
    rw [hfailed]
    unfold remoteMutation
    rw [if_neg (by simp [hfresh.uploaded]), if_neg (by simp)]
    have hstatus : mapKosync kosyncResult = .authFailed ∨ mapKosync kosyncResult = .invalid →
        kosyncResult = .authFailed ∨ kosyncResult = .invalid ∨ kosyncResult = .notFound := by
      cases kosyncResult <;> simp [mapKosync] at hok ⊢
    have hhttps : mapKosync kosyncResult = .httpsFailed → kosyncResult = .transportError := by
      cases kosyncResult <;> simp [mapKosync]
    split_ifs with hknown hpre
    · refine ⟨by simp [hok], fun _ => ?_⟩
      rcases hstatus hknown with h | h | h
      exacts [.inl h, .inr (.inl h), .inr (.inr (.inl h))]
    · exact ⟨by simp [hok], fun _ => .inr (.inr (.inr
        ⟨hhttps hpre.1, not_afterSend_of_prePut hpre.2⟩))⟩
    · exact ⟨by simp [hok], by simp⟩

/-- A report that is sound for what was done between two worlds. -/
def SoundReport (mutation : MutationState) (w w' : World) : Prop :=
  ∃ documentId events, w'.events = w.events ++ events ∧
    Evidence documentId (∀ alloc ∈ w.heaps, alloc = fun _ => true) mutation events

theorem Fresh.remoteMutation_eq {sync : SyncResult} (h : Fresh sync) :
    remoteMutation sync = .none := by
  unfold remoteMutation
  rw [if_neg (by simp [h.uploaded]), if_pos (by simp [h.put_attempted])]

theorem Evidence.of_heaps {documentId : List UInt8} {mutation : MutationState}
    {events : List Event} {w w₁ : World}
    (h : Evidence documentId (∀ alloc ∈ w₁.heaps, alloc = fun _ => true) mutation events)
    (hheaps : w₁.heaps ⊆ w.heaps) :
    Evidence documentId (∀ alloc ∈ w.heaps, alloc = fun _ => true) mutation events :=
  { h with confirmed := fun hmem => h.confirmed fun alloc ha => hmem alloc (hheaps ha) }

theorem SoundReport.of_no_put {events : List Event} {mutation : MutationState} {w w' : World}
    (he : w'.events = w.events ++ events) (hno : events.countP Event.isPut = 0)
    (hm : mutation ≠ .confirmed) : SoundReport mutation w w' :=
  ⟨[], events, he, .of_no_put hno hm⟩

theorem SoundReport.of_put {client : Client} {upload : Progress} {w w₁ w' : World}
    {answer : Result × Option ℤ × Outcome} {mutation : MutationState} {n : ℕ}
    {events : List Event} (hread : Read n events w w₁) (hreports : Reports answer mutation)
    (h : putProgress client upload w₁ = (some answer, w')) : SoundReport mutation w w' := by
  obtain ⟨more, he, hev⟩ := hreports.evidence h hread.2.2.puts
  refine ⟨_, events ++ more, ?_, hev.of_heaps hread.1.heaps_subset⟩
  rw [he, hread.2.1, List.append_assoc]

theorem Reconciled.soundReport {stage : Stage} {config : SyncConfig} {w w' : World}
    {final : SyncResult} (hready : stage.Ready config w)
    (h : Reconciled stage.setup stage.client stage.identity stage.documentId stage.record
      stage.result stage.world final w') : SoundReport (remoteMutation final) w w' := by
  obtain ⟨events, hread⟩ := hready.read
  have hfresh := hready.fresh
  -- a result without a PUT does not claim a confirmed one
  have hnone : ∀ {sync : SyncResult}, Fresh sync → remoteMutation sync ≠ .confirmed := by
    intro sync h
    rw [h.remoteMutation_eq]
    decide
  cases h with
  | noState hl hr =>
    exact .of_no_put hread.2.1 hread.2.2.puts (hnone (hfresh.of_eq rfl rfl rfl rfl rfl))
  | @imported hl hr saved _ h =>
    have he := (ends_saveRecord _ _ _).of_eq h
    refine @SoundReport.of_no_put
      (events ++ [.save stage.identity (remoteRecord stage.result.remoteProgress)]) _ _ _ ?_ ?_ ?_
    · rw [he, hread.2.1, List.append_assoc]
    · simp [hread.2.2.puts, Event.isPut]
    · unfold remoteMutation SyncResult.imported
      dsimp only
      split_ifs <;> simp_all [hfresh.uploaded, hfresh.put_attempted]
  | unsupported hl hr h =>
    exact .of_no_put hread.2.1 hread.2.2.puts (hnone (hfresh.of_eq rfl rfl rfl rfl rfl))
  | unset hl hr h hq he hk =>
    exact .of_no_put (he.trans hread.2.1) hread.2.2.puts
      (hnone (hfresh.of_eq rfl rfl rfl rfl rfl))
  | put hl hr hq he hset h =>
    have hselected : Fresh { stage.result with decision := .localSelected } :=
      hfresh.of_eq rfl rfl rfl rfl rfl
    exact .of_put (hread.trans (hq.read he)) (uploaded_reports hselected _) h
  | compared hl hr =>
    exact .of_no_put hread.2.1 hread.2.2.puts (hnone (hfresh.of_eq rfl rfl rfl rfl rfl))

/-- **The evidence about the server is sound.** Where the report of a synchronization or of a push
denies that the record of the server changed, no byte of a PUT was handed over or the server
refused the credentials; it is confirmed exactly where the server acknowledged the record that was
sent; and after a byte was handed over and nothing of this came back, a change is reported as
possible. -/
theorem mutation_evidence (w : World) :
    (∀ config : SyncConfig, Ends (syncOnce config) w
      (fun r w' => SoundReport (policyClassify 1 (some r)).2.result.remoteMutation w w')
      fun _ => True) ∧
    ∀ config : PushConfig, Ends (pushLocalOnce config) w
      (fun r w' => SoundReport r.remoteMutation w w') fun _ => True := by
  refine ⟨fun config => ?_, fun config => ?_⟩
  · refine (ends_syncOnce_finished config w).mono ?_ fun _ _ => trivial
    rintro r w' ⟨hcompleted, hfinished⟩
    rw [hcompleted.consistent.remoteMutation_eq]
    cases hfinished with
    | early hread hfresh hd hs =>
      refine .of_no_put hread.2.1 hread.2.2.puts ?_
      rw [hfresh.remoteMutation_eq]
      decide
    | decided hready h => exact h.soundReport hready
  · refine (ends_pushLocalOnce config w).mono ?_ fun _ _ => trivial
    rintro r w' ⟨hpushed, -⟩
    cases hpushed with
    | early hread hi hm =>
      refine .of_no_put hread.2.1 hread.2.2.puts ?_
      rw [hm]
      decide
    | put hread h => exact .of_put hread (pushed_reports _ _) h

end Kosync
