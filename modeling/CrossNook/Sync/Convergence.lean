import CrossNook.Sync.NotFound
import CrossNook.Sync.Records

/-!
# Convergence

Synchronizations against a server that stores what it acknowledged and shows what it stores, where
nobody else writes on either side. Once an operation has carried a record over, both sides have
the same position and later synchronizations find nothing to do.

## Main definitions

* `Kosync.Server`, `Kosync.Serves`: what a server stores, and its part in an exchange
* `Kosync.Turn`: an operation between two states of both sides
* `Kosync.Converged`: both sides have the same position

## Main results

* `Kosync.Turn.converged`: what each operation preserves
* `Kosync.sync_converges`: after an upload or an import all synchronizations report no change
-/

namespace Kosync

open Binary64 (nearest)
open Crash Posix
open Json (FlatObjectText)
open ProgressStore (Record)

/-! ## The server -/

/-- Two records have the same values of the fields that a PUT carries. -/
def SameFields (p q : Progress) : Prop := ∀ f ≠ Field.timestamp, Agree f p q

/-- The record that a server stores for each document. -/
abbrev Server : Type := List UInt8 → Option Progress

/-- A body that shows what the server stores for a document: any JSON text of a record with the
same fields, or a text of no record. -/
def Server.Shows (server : Server) (documentId body : List UInt8) : Prop :=
  match server documentId with
  | none => ∀ ms q, FlatObjectText body ms → ¬ Denotes nearest ms q
  | some p => ∃ ms q, FlatObjectText body ms ∧ Denotes nearest ms q ∧ SameFields q p

/-- A response with status 200 came back. -/
abbrev Delivered (outcome : NetSimple.Outcome) : Prop := (mapResponse outcome).1 = .ok

/-- The part of the server in an exchange: what it stores before and after. A PUT that it
acknowledged is stored; one whose answer was lost may be. -/
inductive Serves (server : Server) (request : NetSimple.Request) (outcome : NetSimple.Outcome) :
    Server → Prop
  | get (hm : request.method = .get)
    (h : Delivered outcome → ∀ documentId, IsDocumentId documentId →
      Bytes.ascii "/syncs/progress/" ++ documentId <:+ request.path →
      server.Shows documentId (responseBody outcome)) : Serves server request outcome server
  | stored (hm : request.method = .put) {json : List UInt8} (hbody : request.body = some json)
    {ms : List Json.Member} {p : Progress} (htext : FlatObjectText json ms) (h : Denotes nearest ms p) :
    Serves server request outcome (Function.update server p.documentId (some p))
  | lost (hm : request.method = .put) (h : ¬ Delivered outcome) :
    Serves server request outcome server

/-- The server through the events of a run. -/
inductive ServesAll : Server → List Event → Server → Prop
  | nil (server : Server) : ServesAll server [] server
  | exchange {server server₁ server₂ : Server} {request : NetSimple.Request}
    {outcome : NetSimple.Outcome} {events : List Event} (h : Serves server request outcome server₁)
    (hs : ServesAll server₁ events server₂) :
    ServesAll server (.exchange request outcome :: events) server₂
  | other {server server' : Server} {event : Event} {events : List Event}
    (h : ∀ request outcome, event ≠ .exchange request outcome)
    (hs : ServesAll server events server') : ServesAll server (event :: events) server'

section Server

variable {server server' : Server} {documentId body : List UInt8} {alloc : ℕ → Bool}
  {p q : Progress} {request : NetSimple.Request} {outcome : NetSimple.Outcome}
  {events more : List Event}

theorem ServesAll.split (h : ServesAll server (events ++ more) server') :
    ∃ mid, ServesAll server events mid ∧ ServesAll mid more server' := by
  induction events generalizing server with
  | nil => exact ⟨server, .nil server, h⟩
  | cons event events ih =>
    cases h with
    | exchange h hs =>
      obtain ⟨mid, hevents, hmore⟩ := ih hs
      exact ⟨mid, .exchange h hevents, hmore⟩
    | other h hs =>
      obtain ⟨mid, hevents, hmore⟩ := ih hs
      exact ⟨mid, .other h hevents, hmore⟩

/-- **Without a PUT the server stores what it stored**, and its answers show it. -/
theorem ServesAll.of_no_put (h : ServesAll server events server')
    (hno : events.countP Event.isPut = 0) :
    server' = server ∧
      ∀ request outcome, .exchange request outcome ∈ events →
        Serves server request outcome server := by
  induction h with
  | nil => exact ⟨rfl, by simp⟩
  | @exchange server server₁ _ request outcome events h hs ih =>
    rw [List.countP_cons] at hno
    have hget : request.method ≠ .put := by
      intro hput
      simp [Event.isPut, hput] at hno
    -- only a PUT changes what the server stores
    obtain rfl : server₁ = server := by
      cases h with
      | get => rfl
      | stored hm => exact absurd hm hget
      | lost hm => rfl
    obtain ⟨rfl, hall⟩ := ih (by omega)
    refine ⟨rfl, fun request' outcome' hmem => ?_⟩
    rcases List.mem_cons.mp hmem with heq | hmem
    · cases heq
      exact h
    · exact hall request' outcome' hmem
  | other hevent hs ih =>
    rw [List.countP_cons] at hno
    obtain ⟨rfl, hall⟩ := ih (by omega)
    refine ⟨rfl, fun request' outcome' hmem => ?_⟩
    rcases List.mem_cons.mp hmem with heq | hmem
    · exact absurd heq.symm (hevent request' outcome')
    · exact hall request' outcome' hmem

/-- A record that is parsed is the one of the server. -/
theorem Server.Shows.of_ok (h : server.Shows documentId body) {old : Progress}
    (hparse : parseProgress nearest alloc body old = (.ok, q)) :
    ∃ p, server documentId = some p ∧ SameFields q p := by
  obtain ⟨hlen, ms, htext, hdenotes⟩ := parseProgress_sound hparse
  unfold Server.Shows at h
  split at h
  · exact absurd hdenotes (h ms q htext)
  rename_i p hp
  obtain ⟨ms', q', htext', hdenotes', hsame⟩ := h
  have heq : (Result.ok, q) = (Result.ok, q') :=
    (parseProgress_complete hlen htext hdenotes old).symm.trans
      (parseProgress_complete hlen htext' hdenotes' old)
  rw [(Prod.mk.inj heq).2]
  exact ⟨p, hp, hsame⟩

/-- Where the server has a record none is reported missing. -/
theorem Server.Shows.ne_notFound (h : server.Shows documentId body)
    (hp : server documentId = some p) (old : Progress) :
    (parseProgress nearest alloc body old).1 ≠ .notFound := by
  intro hparse
  obtain ⟨hlen, ms, htext, hms⟩ := parseProgress_notFound hparse
  have hnone := parseProgress_of_unknowns old hlen htext hms
  unfold Server.Shows at h
  rw [hp] at h
  obtain ⟨ms', q, htext', hdenotes, -⟩ := h
  rw [parseProgress_complete hlen htext' hdenotes old] at hnone
  cases hnone

/-- A GET changes nothing and is answered truthfully. -/
theorem Serves.of_get (hs : Serves server request outcome server') (hm : request.method = .get) :
    server' = server ∧ (Delivered outcome → ∀ documentId, IsDocumentId documentId →
      Bytes.ascii "/syncs/progress/" ++ documentId <:+ request.path →
      server.Shows documentId (responseBody outcome)) := by
  cases hs with
  | get _ h => exact ⟨rfl, h⟩
  | stored hput | lost hput =>
    rw [hm] at hput
    cases hput

/-- **What a GET says about the server.** -/
theorem Serves.of_getAnswer (alloc : ℕ → Bool) (hs : Serves server request outcome server')
    (hm : request.method = .get) (hid : IsDocumentId documentId)
    (hpath : Bytes.ascii "/syncs/progress/" ++ documentId <:+ request.path) :
    ((getAnswer alloc documentId progressInit outcome).1 = .ok →
      ∃ p, server documentId = some p ∧
        SameFields (getAnswer alloc documentId progressInit outcome).2.1 p) ∧
    ((getAnswer alloc documentId progressInit outcome).1 = .notFound →
      server documentId = none) := by
  by_cases hdelivered : Delivered outcome
  swap
  · rw [getAnswer_of_failure hdelivered]
    refine ⟨fun h => absurd h hdelivered, fun h => ?_⟩
    unfold mapResponse at h
    dsimp only at h
    split_ifs at h
  have hshows := (hs.of_get hm).2 hdelivered documentId hid hpath
  rw [getAnswer_of_ok hdelivered]
  dsimp only
  split_ifs with hother
  · exact ⟨nofun, nofun⟩
  refine ⟨fun hok => hshows.of_ok (Prod.ext hok rfl), fun hnone => ?_⟩
  cases hp : server documentId with
  | none => rfl
  | some p => exact absurd hnone (hshows.ne_notFound hp progressInit)

/-- **What a PUT leaves on the server**: where it was acknowledged, the position that was sent. -/
theorem Serves.of_putRequest {client : Client} {path json : List UInt8} {upload : Progress}
    {allocated : Bool} {position : Option (List UInt8)} {progress10000 : ℤ}
    {device deviceId : List UInt8}
    (hset : progressSet allocated progressInit documentId position progress10000 device deviceId =
      (.ok, upload))
    (hjson : serializeProgress upload (jsonMax + 1) = (.ok, some json))
    (hs : Serves server (putRequest client path json) outcome server') :
    (server' = server ∧ ¬ Delivered outcome) ∨
      ∃ p, server' = Function.update server documentId (some p) ∧ p.logicalPosition = position := by
  cases hs with
  | get hm => cases hm
  | lost _ h => exact .inl ⟨rfl, h⟩
  | @stored _ json' hbody ms p htext hdenotes =>
    obtain rfl : json = json' := by simpa [putRequest] using hbody
    obtain ⟨q, hq, hdoc, hposition, -⟩ :=
      parses_of_serialize Binary64.converts_nearest hset hjson progressInit
    have hp := parseProgress_complete (parseProgress_sound hq).1 htext hdenotes progressInit
    obtain rfl : q = p := (Prod.mk.inj (hq.symm.trans hp)).2
    exact .inr ⟨q, by rw [hdoc], hposition⟩

theorem delivered_of_putAnswer (h : (putAnswer alloc documentId outcome).1 = .ok) :
    Delivered outcome := by
  by_contra hdelivered
  rw [putAnswer_eq, if_pos hdelivered] at h
  exact hdelivered h

end Server

/-! ## Operations on both sides -/

/-- The two sides: the files and what the server stores. -/
structure Sides where
  files : Path → Option Node
  server : Server

/-- The operations with what they returned. -/
inductive Report
  | sync (result : SyncResult)
  | push (result : PushResult)
  | pull (result : PullResult)

/-- The configuration of a pull with the fields of that of a synchronization. -/
def SyncConfig.pull (config : SyncConfig) : PullConfig where
  documentPath := config.documentPath
  progressStore := config.progressStore
  timePolicy := config.timePolicy
  time := config.time
  dns := config.dns
  tls := config.tls
  client := config.client

/-- The operation runs and returns. -/
def Performs (config : SyncConfig) (w : World) (report : Report) (w' : World) : Prop :=
  match report with
  | .sync result => syncOnce config w = (some result, w')
  | .push result => pushLocalOnce config w = (some result, w')
  | .pull result => pullRemoteOnce config.pull w = (some result, w')

/-- The operation carried a record over. -/
def Report.Settles : Report → Prop
  | .sync result => result.status = .ok ∧
      (result.decision = .localSelected ∨ result.decision = .remoteSelected)
  | .push result => result.status = .uploaded
  | .pull result => result.status = .persisted

/-- The document at the path is the given one. -/
def SameDocument (config : SyncConfig) (documentId : List UInt8) (w : World) : Prop :=
  ∀ path document w', config.documentPath = some path → identify path w = (some document, w') →
    ∀ ids ∈ document.ids, ids.2 = documentId

/-- The record of the book is not behind a symbolic link. -/
def SyncConfig.Plain (config : SyncConfig) (files : Path → Option Node) : Prop :=
  ∀ store identity token node, config.progressStore = some store →
    BookIdentity.fromPath config.documentPath = some identity → identity.token = some token →
    files (store.path token) = some node → ∀ target, node.kind ≠ .symlink target

/-- An operation on the document, between two states of the two sides; nobody else writes on
either. -/
inductive Turn (config : SyncConfig) (documentId : List UInt8) (report : Report)
    (events : List Event) : Sides → Sides → Prop
  | intro {w w' : World} {server server' : Server} (hperforms : Performs config w report w')
    (hevents : w'.events = w.events ++ events) (hserves : ServesAll server events server')
    (hdocument : SameDocument config documentId w)
    (hplain : ∀ result, report = .pull result → config.Plain w.files) :
    Turn config documentId report events ⟨w.files, server⟩ ⟨w'.files, server'⟩

/-- Both sides have the same position of the book. -/
def Converged (config : SyncConfig) (documentId : List UInt8) (sides : Sides) : Prop :=
  ∃ store identity record progress, config.progressStore = some store ∧
    BookIdentity.fromPath config.documentPath = some identity ∧
    Stored store identity sides.files record ∧ sides.server documentId = some progress ∧
    progress.logicalPosition = record.location

section Operations

variable {config : SyncConfig} {documentId : List UInt8} {w w' : World} {server server' : Server}
  {events : List Event}

/-- A document that is identified has a proper id. -/
theorem identify_isDocumentId {path : List UInt8} {document : Document}
    (h : identify path w = (some document, w')) : ∀ ids ∈ document.ids, IsDocumentId ids.2 := by
  have hends : Ends (identify path) w (fun document _ => ∀ ids ∈ document.ids, IsDocumentId ids.2)
      fun _ => True := by
    unfold identify
    cases BookIdentity.fromPath (some path) with
    | none => exact fun ids h => by cases h
    | some identity =>
      dsimp only
      rw [ends_bind]
      refine (ends_run _ _).mono ?_ fun _ _ => trivial
      rintro ⟨identityResult, text⟩ w₁ -
      dsimp only
      by_cases hfail : identityResult ≠ .ok
      · rw [if_pos hfail]
        exact fun ids h => by cases h
      rw [if_neg hfail]
      intro ids hids
      obtain ⟨text', htext, rfl⟩ := Option.map_eq_some_iff.mp hids
      unfold KoreaderIdentity.documentIdText at htext
      split_ifs at htext with hhex
      cases htext
      exact hhex
  exact hends.of_eq h

theorem endpointPath_suffix {client : Client} {suffix path : List UInt8}
    (h : endpointPath client suffix = some path) : suffix <:+ path := by
  unfold endpointPath at h
  dsimp only at h
  split_ifs at h
  cases h
  exact List.suffix_append _ _

/-- The events before a point of a run. -/
theorem serves_before {w₁ : World} {n : ℕ} {seen more : List Event} (hread : Read n seen w w₁)
    (hmore : w'.events = w₁.events ++ more) (hevents : w'.events = w.events ++ events)
    (hserves : ServesAll server events server') :
    events = seen ++ more ∧ ServesAll server more server' ∧
      ∀ request outcome, .exchange request outcome ∈ seen →
        Serves server request outcome server := by
  obtain rfl : events = seen ++ more := by
    rw [hevents, hread.2.1, List.append_assoc] at hmore
    exact List.append_cancel_left hmore
  obtain ⟨mid, hseen, hrest⟩ := hserves.split
  obtain ⟨rfl, hall⟩ := hseen.of_no_put hread.2.2.puts
  exact ⟨rfl, hrest, hall⟩

theorem Reconciled.exists_events {setup : SyncSetup} {client : Client} {identity : BookIdentity}
    {record : Record} {result final : SyncResult}
    (h : Reconciled setup client identity documentId record result w final w') :
    ∃ more, w'.events = w.events ++ more := by
  cases h with
  | noState | unsupported | compared => exact ⟨[], (List.append_nil _).symm⟩
  | imported _ _ h => exact ⟨_, (ends_saveRecord _ _ _).of_eq h⟩
  | unset _ _ _ _ he => exact ⟨[], he.trans (List.append_nil _).symm⟩
  | put _ _ _ he _ h =>
    rcases (ends_putProgress _ _).of_eq h with ⟨-, he', -⟩ | ⟨_, _, _, _, -, -, ⟨-, he'⟩, -⟩
    · exact ⟨[], (he'.trans he).trans (List.append_nil _).symm⟩
    · exact ⟨_, he'.trans (by rw [he])⟩

/-- What a synchronization has learned of the server when it decides. -/
structure Stage.Learned (stage : Stage) (server : Server) (documentId : List UInt8) : Prop where
  documentId_eq : stage.documentId = documentId
  of_ok : stage.answer.1 = .ok →
    ∃ p, server documentId = some p ∧ SameFields stage.answer.2.1 p
  of_notFound : stage.answer.1 = .notFound → server documentId = none

theorem Stage.Asked.learned {stage : Stage} (h : stage.Asked config w) {more : List Event}
    (hmore : w'.events = stage.world.events ++ more) (hevents : w'.events = w.events ++ events)
    (hserves : ServesAll server events server') (hdocument : SameDocument config documentId w) :
    stage.Learned server documentId ∧ ServesAll server more server' ∧
      ∃ seen, events = seen ++ more ∧ ReadOnly 1 seen := by
  obtain ⟨document, w₁, hid, hids⟩ := h.document
  have hdoc : stage.documentId = documentId :=
    hdocument _ _ _ (accepted_documentPath h.accepted) hid _ hids
  have hproper : IsDocumentId stage.documentId := identify_isDocumentId hid _ hids
  obtain ⟨path, wire, alloc, seen, hpath, hread, hmem, hanswer⟩ := h.exchanged
  obtain ⟨hsplit, hrest, hall⟩ := serves_before hread hmore hevents hserves
  have hget := (hall _ _ hmem).of_getAnswer alloc rfl hproper
    (endpointPath_suffix hpath)
  rw [← hanswer, hdoc] at hget
  exact ⟨⟨hdoc, hget.1, hget.2⟩, hrest, seen, hsplit, hread.2.2⟩

/-- **A synchronization of two sides that agree** writes on neither, and reports no change where
it succeeds. -/
theorem Converged.sync {result : SyncResult} (h : Converged config documentId ⟨w.files, server⟩)
    (hsync : syncOnce config w = (some result, w')) (hevents : w'.events = w.events ++ events)
    (hserves : ServesAll server events server') (hdocument : SameDocument config documentId w) :
    w'.files = w.files ∧ server' = server ∧ events.countP Event.isPut = 0 ∧
      events.countP Event.isSave = 0 ∧ (result.status = .ok → result.decision = .noChange) := by
  obtain ⟨store, identity, record, p, hstore, hidentity, hstored, hp, hposition⟩ := h
  dsimp only at hstored hp
  have hsilent : ∀ {n : ℕ} {seen : List Event} {w₁ : World}, Read n seen w w₁ → w' = w₁ →
      w'.files = w.files ∧ server' = server ∧ events.countP Event.isPut = 0 ∧
        events.countP Event.isSave = 0 := by
    rintro n seen w₁ hread rfl
    obtain ⟨hsplit, hrest, -⟩ :=
      serves_before hread (List.append_nil _).symm hevents hserves
    rw [List.append_nil] at hsplit
    cases hrest
    exact ⟨hread.1.files_eq, rfl, by rw [hsplit, hread.2.2.puts], by rw [hsplit, hread.2.2.saves]⟩
  obtain ⟨hcompleted, -⟩ := (ends_syncOnce_finished config w).of_eq hsync
  rcases hcompleted.asked with ⟨seen, hread, -, -, hs⟩ | ⟨stage, hasked, hreconciled⟩
  · obtain ⟨hfiles, hserver, hputs, hsaves⟩ := hsilent hread rfl
    exact ⟨hfiles, hserver, hputs, hsaves, fun h => absurd h hs⟩
  obtain ⟨hloaded, hrecord⟩ := hasked.of_stored hstore hidentity hstored
  obtain ⟨more, hmore⟩ := hreconciled.exists_events
  obtain ⟨hlearned, -, -⟩ := hasked.learned hmore hevents hserves hdocument
  -- the server has a record, so the GET found it
  have hok : stage.answer.1 = .ok := by
    rcases hasked.answered with h | h
    · exact h
    · rw [hlearned.of_notFound h] at hp
      cases hp
  have hlocal := hasked.localPresent
  have hremote := hasked.remotePresent
  rw [hloaded] at hlocal
  rw [hok] at hremote
  obtain ⟨seen, hread⟩ := hasked.read
  cases hreconciled with
  | noState hl | imported hl => simp [hl] at hlocal
  | unsupported _ hr | unset _ hr | put _ hr => simp [hr] at hremote
  | compared =>
    obtain ⟨hfiles, hserver, hputs, hsaves⟩ := hsilent hread rfl
    refine ⟨hfiles, hserver, hputs, hsaves, fun _ => if_pos ?_⟩
    obtain ⟨p', hp', hsame⟩ := hlearned.of_ok hok
    rw [hp] at hp'
    cases hp'
    rw [hrecord, hasked.remoteProgress, ← hposition]
    exact (hsame .progress (by decide)).symm

/-- **What the server stores after a PUT.** -/
theorem putProgress_serves {client : Client} {upload : Progress} {allocated : Bool}
    {position : Option (List UInt8)} {progress10000 : ℤ} {device deviceId : List UInt8}
    {answer : Result × Option ℤ × Outcome}
    (hset : progressSet allocated progressInit documentId position progress10000 device deviceId =
      (.ok, upload))
    (h : putProgress client upload w = (some answer, w'))
    (hevents : w'.events = w.events ++ events) (hserves : ServesAll server events server') :
    (server' = server ∧ answer.1 ≠ .ok) ∨
      ∃ p, server' = Function.update server documentId (some p) ∧ p.logicalPosition = position := by
  rcases (ends_putProgress _ _).of_eq h with ⟨-, he, -, hfailed⟩ |
    ⟨path, json, wire, alloc, -, hjson, ⟨-, he⟩, rfl⟩
  · obtain rfl : events = [] := List.self_eq_append_right.mp (he.symm.trans hevents)
    cases hserves
    refine .inl ⟨rfl, ?_⟩
    rcases hfailed with hf | hf <;> rw [hf] <;> simp
  · obtain rfl : events = [_] := List.append_cancel_left (hevents.symm.trans he)
    cases hserves with
    | other hother => exact absurd rfl (hother _ _)
    | exchange hexchange hs =>
      cases hs
      rcases hexchange.of_putRequest hset hjson with ⟨hserver, hlost⟩ | hstored
      · exact .inl ⟨hserver, fun hok => hlost (delivered_of_putAnswer hok)⟩
      · exact .inr hstored

/-- **A synchronization that carried a record over.** -/
theorem sync_settles {result : SyncResult} (hsync : syncOnce config w = (some result, w'))
    (hevents : w'.events = w.events ++ events) (hserves : ServesAll server events server')
    (hdocument : SameDocument config documentId w) (hsettles : (Report.sync result).Settles) :
    Converged config documentId ⟨w'.files, server'⟩ := by
  obtain ⟨hstatus, hdecision⟩ := hsettles
  obtain ⟨hcompleted, -⟩ := (ends_syncOnce_finished config w).of_eq hsync
  rcases hcompleted.asked with ⟨seen, hread, -, -, hs⟩ | ⟨stage, hasked, hreconciled⟩
  · exact absurd hstatus hs
  have hstore := accepted_store hasked.accepted
  obtain ⟨more, hmore⟩ := hreconciled.exists_events
  obtain ⟨hlearned, hrest, -⟩ := hasked.learned hmore hevents hserves hdocument
  -- a decision that carries a record over is an import or a put
  cases hreconciled with
  | noState => simp at hdecision
  | @imported hl hr saved _ hsave =>
    -- an import that succeeded was saved
    have hsaved : saved = .ok := by
      by_contra hfail
      unfold SyncResult.imported at hstatus
      dsimp only at hstatus
      rw [if_pos hfail] at hstatus
      dsimp only at hstatus
      split_ifs at hstatus
    subst hsaved
    have hok : stage.answer.1 = .ok := by
      have := hasked.remotePresent
      rw [hr] at this
      exact of_decide_eq_true this.symm
    obtain ⟨p, hp, hsame⟩ := hlearned.of_ok hok
    obtain rfl : more = [_] :=
      List.append_cancel_left (hmore.symm.trans ((ends_saveRecord _ _ _).of_eq hsave))
    obtain ⟨rfl, -⟩ := hrest.of_no_put (by simp [Event.isPut])
    refine ⟨_, _, _, p, hstore, hasked.identity_eq, saveRecord_stored hsave, hp, ?_⟩
    rw [hasked.remoteProgress]
    exact (hsame .progress (by decide)).symm
  | unsupported => cases hstatus
  | unset => exact absurd hstatus (mapKosync_ne_ok _)
  | @put hl _ w₁ _ hq he alloc upload hset answer hput =>
    -- a put that succeeded stores on the server what the store holds
    have hloaded : stage.loaded = .ok := by
      have := hasked.localPresent
      rw [hl] at this
      exact of_decide_eq_true this.symm
    have hloads := hasked.loads
    rw [hloaded] at hloads
    obtain ⟨seen, hread⟩ := hasked.read
    have hfiles : w'.files = w.files :=
      (putProgress_files hput).trans (hq.files_eq.trans hread.1.files_eq)
    rw [hlearned.documentId_eq] at hset
    rcases putProgress_serves hset hput (by rw [hmore, he]) hrest with ⟨-, hfail⟩ | ⟨p, rfl, hp⟩
    · unfold SyncResult.uploaded at hstatus
      dsimp only at hstatus
      rw [if_pos hfail] at hstatus
      exact absurd hstatus (mapKosync_ne_ok _)
    · exact ⟨_, _, _, p, hstore, hasked.identity_eq, hfiles ▸ hloads.stored,
        Function.update_self .., hp⟩
  | compared =>
    unfold SyncResult.compared at hdecision
    dsimp only at hdecision
    split_ifs at hdecision <;> simp at hdecision

theorem pushFailure_ne (result : Result) : pushFailure result ≠ .uploaded := by
  cases result <;> decide

/-- **A push** leaves the server as it is or with the position of the local record. -/
theorem push_serves {result : PushResult} (hpush : pushLocalOnce config w = (some result, w'))
    (hevents : w'.events = w.events ++ events) (hserves : ServesAll server events server')
    (hdocument : SameDocument config documentId w) :
    w'.files = w.files ∧ ((server' = server ∧ result.status ≠ .uploaded) ∨
      Converged config documentId ⟨w'.files, server'⟩) := by
  obtain ⟨huploads, hfiles, -⟩ := (ends_pushLocalOnce_uploads config w).of_eq hpush
  refine ⟨hfiles, ?_⟩
  cases huploads with
  | early hread _ _ hs =>
    obtain ⟨-, hrest, -⟩ := serves_before hread (List.append_nil _).symm hevents hserves
    cases hrest
    exact .inl ⟨rfl, hs⟩
  | @put upload hready result _ answer hput =>
    obtain ⟨document, w₁, hid, hids⟩ := hready.document
    have hdoc : upload.documentId = documentId :=
      hdocument _ _ _ (accepted_documentPath hready.accepted) hid _ hids
    obtain ⟨allocated, hset⟩ := hready.set
    rw [hdoc] at hset
    obtain ⟨seen, hread⟩ := hready.read
    obtain ⟨more, hmore⟩ : ∃ more, w'.events = upload.world.events ++ more := by
      rcases (ends_putProgress _ _).of_eq hput with ⟨-, he, -⟩ | ⟨_, _, _, _, -, -, ⟨-, he⟩, -⟩
      · exact ⟨[], he.trans (List.append_nil _).symm⟩
      · exact ⟨_, he⟩
    obtain ⟨-, hrest, -⟩ := serves_before hread hmore hevents hserves
    -- the server has stored the record, or the PUT has failed
    rcases putProgress_serves hset hput hmore hrest with ⟨hserver, hfail⟩ | ⟨p, rfl, hp⟩
    · refine .inl ⟨hserver, ?_⟩
      unfold PushResult.pushed
      dsimp only
      rw [if_neg hfail]
      exact pushFailure_ne _
    · exact .inr ⟨_, _, _, p, accepted_store hready.accepted, hready.identity_eq,
        hfiles ▸ hready.loads.stored, Function.update_self .., hp⟩

/-- **A pull** leaves the server as it is, and stores its position where it succeeds. -/
theorem pull_serves {result : PullResult} (hpull : pullRemoteOnce config.pull w = (some result, w'))
    (hevents : w'.events = w.events ++ events) (hserves : ServesAll server events server')
    (hdocument : SameDocument config documentId w) :
    server' = server ∧
      (result.status = .persisted → Converged config documentId ⟨w'.files, server'⟩) := by
  obtain ⟨hdownloads, -⟩ := (ends_pullRemoteOnce_downloads config.pull w).of_eq hpull
  cases hdownloads with
  | early hread _ hs =>
    obtain ⟨-, hrest, -⟩ := serves_before hread (List.append_nil _).symm hevents hserves
    cases hrest
    exact ⟨rfl, fun h => absurd h hs⟩
  | @saved download hready result saved _ hsave =>
    obtain ⟨document, w₁, hid, hids⟩ := hready.document
    have hpath : config.documentPath = some download.setup.documentPath :=
      PullConfig.accepted_documentPath hready.accepted
    -- the download is one of the document
    have hdoc : download.documentId = documentId := hdocument _ _ _ hpath hid _ hids
    have hproper : IsDocumentId download.documentId := identify_isDocumentId hid _ hids
    obtain ⟨path, wire, alloc, seen, -, hendpoint, hread, hmem, hanswer⟩ := hready.exchanged
    obtain ⟨-, hrest, hall⟩ :=
      serves_before hread ((ends_saveRecord _ _ _).of_eq hsave) hevents hserves
    obtain ⟨rfl, -⟩ := hrest.of_no_put (by simp [Event.isPut])
    refine ⟨rfl, fun hstatus => ?_⟩
    have hsaved : saved = .ok := by
      by_contra hfail
      unfold PullResult.pulled at hstatus
      dsimp only at hstatus
      rw [if_neg hfail] at hstatus
      cases hstatus
    subst hsaved
    -- the server told the position that it has, since no PUT came before
    have hget := ((hall _ _ hmem).of_getAnswer alloc rfl hproper
      (endpointPath_suffix hendpoint)).1
    rw [← hanswer, hdoc] at hget
    obtain ⟨p, hp, hsame⟩ := hget hready.ok
    exact ⟨_, _, _, p, PullConfig.accepted_store hready.accepted, hready.identity_eq,
      saveRecord_stored hsave, hp, (hsame .progress (by decide)).symm⟩

end Operations

/-! ## Convergence -/

section Convergence

variable {config : SyncConfig} {documentId : List UInt8} {report : Report} {events : List Event}
  {sides sides' : Sides}

/-- **What each operation preserves**: two sides that agree go on agreeing. -/
theorem Turn.converged (h : Turn config documentId report events sides sides')
    (hc : Converged config documentId sides) : Converged config documentId sides' := by
  obtain ⟨hperforms, hevents, hserves, hdocument, hplain⟩ := h
  rename_i w w' server server'
  cases report with
  | sync result =>
    obtain ⟨hfiles, rfl, -⟩ := hc.sync hperforms hevents hserves hdocument
    rwa [hfiles]
  | push result =>
    obtain ⟨hfiles, ⟨rfl, -⟩ | hdone⟩ := push_serves hperforms hevents hserves hdocument
    · rwa [hfiles]
    · exact hdone
  | pull result =>
    obtain ⟨rfl, hdone⟩ := pull_serves hperforms hevents hserves hdocument
    by_cases hs : result.status = .persisted
    · exact hdone hs
    -- a pull that failed has touched its temporary file only
    obtain ⟨store, identity, record, p, hstore, hidentity, hstored, hp, hposition⟩ := hc
    have hpulled := ((ends_pullRemoteOnce config.pull w).of_eq hperforms).1
    have hkept := hpulled.kept hstore hidentity hs
    obtain ⟨token, node, ht, hfile⟩ := hstored.exists_file
    have hlink := hplain result rfl store identity token node hstore hidentity ht hfile
    exact ⟨store, identity, record, p, hstore, hidentity, hkept.stored ht hfile hlink hstored, hp,
      hposition⟩

/-- **An operation that carried a record over** makes both sides agree. -/
theorem Turn.settles (h : Turn config documentId report events sides sides')
    (hsettles : report.Settles) : Converged config documentId sides' := by
  obtain ⟨hperforms, hevents, hserves, hdocument, -⟩ := h
  cases report with
  | sync result => exact sync_settles hperforms hevents hserves hdocument hsettles
  | push result =>
    obtain ⟨-, ⟨-, hs⟩ | hdone⟩ := push_serves hperforms hevents hserves hdocument
    · exact absurd hsettles hs
    · exact hdone
  | pull result => exact (pull_serves hperforms hevents hserves hdocument).2 hsettles

/-- Operations one after the other. -/
abbrev Run (config : SyncConfig) (documentId : List UInt8) : Sides → Sides → Prop :=
  Relation.ReflTransGen fun sides sides' => ∃ report events,
    Turn config documentId report events sides sides'

/-- **What a run preserves.** -/
theorem Run.converged (h : Run config documentId sides sides')
    (hc : Converged config documentId sides) : Converged config documentId sides' := by
  induction h with
  | refl => exact hc
  | tail _ hturn ih =>
    obtain ⟨report, events, hturn⟩ := hturn
    exact hturn.converged ih

end Convergence

/-- From here on synchronizations find nothing to do: one that succeeds reports no change, and none
writes on either side. -/
structure Quiescent (config : SyncConfig) (documentId : List UInt8) (sides : Sides) : Prop where
  noChange : ∀ sides₁ sides₂ result events, Run config documentId sides sides₁ →
    Turn config documentId (.sync result) events sides₁ sides₂ → result.status = .ok →
      result.decision = .noChange
  silent : ∀ sides₁ sides₂ result events, Run config documentId sides sides₁ →
    Turn config documentId (.sync result) events sides₁ sides₂ →
      sides₂ = sides₁ ∧ events.countP Event.isPut = 0 ∧ events.countP Event.isSave = 0

/-- The synchronizations of a document converge. -/
structure Converges (config : SyncConfig) (documentId : List UInt8) : Prop where
  quiescent : ∀ report events sides sides', Turn config documentId report events sides sides' →
    report.Settles → Quiescent config documentId sides'

/-- **Convergence.** Against a server that stores what it acknowledged and shows what it stores,
after a synchronization that carried a record over, a push that uploaded or a pull that persisted,
every later synchronization that succeeds reports no change, and none writes on either side,
whatever other operations of this configuration come between. -/
theorem sync_converges (config : SyncConfig) (documentId : List UInt8) :
    Converges config documentId := by
  refine ⟨fun report events sides sides' hturn hsettles => ?_⟩
  have hc := hturn.settles hsettles
  refine ⟨?_, ?_⟩
  · rintro sides₁ sides₂ result events' hrun ⟨hperforms, hevents, hserves, hdocument, -⟩ hok
    exact ((hrun.converged hc).sync hperforms hevents hserves hdocument).2.2.2.2 hok
  · rintro sides₁ sides₂ result events' hrun ⟨hperforms, hevents, hserves, hdocument, -⟩
    obtain ⟨hfiles, hserver, hputs, hsaves, -⟩ :=
      (hrun.converged hc).sync hperforms hevents hserves hdocument
    exact ⟨by rw [hfiles, hserver], hputs, hsaves⟩

/-- A synchronization that returns and is served is a turn. -/
theorem Turn.of_sync {config : SyncConfig} {documentId : List UInt8} {w w' : World}
    {result : SyncResult} {events : List Event} {server server' : Server}
    (hreturns : syncOnce config w = (some result, w')) (hevents : w'.events = w.events ++ events)
    (hserves : ServesAll server events server') (hdocument : SameDocument config documentId w) :
    Turn config documentId (.sync result) events ⟨w.files, server⟩ ⟨w'.files, server'⟩ :=
  .intro hreturns hevents hserves hdocument fun _ h => by cases h

/-- A synchronization that saves nothing changes no file. -/
theorem syncOnce_files {config : SyncConfig} {w w' : World} {result : SyncResult}
    {events : List Event} (hreturns : syncOnce config w = (some result, w'))
    (hevents : w'.events = w.events ++ events) (hsaves : events.countP Event.isSave = 0) :
    w'.files = w.files := by
  obtain ⟨-, hread | ⟨-, -, -, made, hmade, -, hfiles⟩⟩ := (ends_syncOnce config w).of_eq hreturns
  · exact hread.1.files_eq
  · obtain rfl := List.append_cancel_left (hmade.symm.trans hevents)
    exact hfiles hsaves

/-! ## A book of one byte -/

section Sample

open Bytes (ascii)

deriving instance DecidableEq for BookIdentity, Event

/-- The document id of a file `x`. -/
@[irreducible] def sampleDocumentId : List UInt8 := ascii "9dd4e461268c8034f5c8564e155c67a6"

/-- The book at `/b`. -/
def sampleIdentity : BookIdentity := .ofHash (BookIdentity.hash (ascii "/b"))

/-- The book, and a directory for the records. -/
def sampleBooks : Path → Option Node := fun path =>
  if path = ascii "/b" then some ⟨1, .regular (ascii "x")⟩
  else if path = ascii "/s" then some ⟨2, .directory⟩
  else none

theorem sampleDirectory_ne_nil : ascii "/s" ≠ [] := by decide

theorem length_sampleDirectory : (ascii "/s").length ≤ ProgressStore.stateDirMaxBytes := by decide

/-- The records are in `/s`. -/
def sampleStore : ProgressStore.Store :=
  ⟨ascii "/s", sampleDirectory_ne_nil, length_sampleDirectory⟩

/-- The files after the reader has saved a record of the book. -/
@[irreducible] def sampleRead (record : Record) : Path → Option Node :=
  (ProgressStore.save sampleStore sampleIdentity record 7
    ⟨sampleBooks, List.replicate 12 (.succeed 100), 0⟩).2.files

/-- The client, for the resolved address. -/
def sampleRouted : Client :=
  { host := ascii "h", port := ascii "443", basePath := [], username := ascii "u"
    userkey := ascii "k", connectHost := ascii "10.0.0.1", tls := some ⟨some (ascii "/ca"), false⟩
    useTls := true }

/-- An operation on the book. -/
def sampleConfig : SyncConfig where
  documentPath := some (ascii "/b")
  progressStore := some sampleStore
  timePolicy := .callerEstablished
  time := false
  dns := some ⟨[some (ascii "1.1.1.1")]⟩
  tls := some ⟨some (ascii "/ca"), false⟩
  client := some { sampleRouted with connectHost := [], tls := none }
  device := some (ascii "d")
  deviceId := some (ascii "i")

/-- A response with the body. -/
@[irreducible] def sampleResponse (body : List UInt8) : List UInt8 :=
  ascii "HTTP/1.0 200 OK\r\nContent-Length: " ++ ascii (toString body.length) ++
    ascii "\r\n\r\n" ++ body

/-- A connection on which everything goes through, with the response. -/
@[irreducible] def sampleReply (body : List UInt8) : NetSimple.Wire :=
  { direct := ⟨true, true, none, true, [], none⟩
    resolved := none, nonblocking := true, tlsOpen := .ok, tlsRequest := .done, tlsBody := .done
    tlsTurns := [⟨sampleResponse body, .ok, false⟩], sendTurns := [], bodyTurns := []
    restored := true, recvTurns := [] }

/-- A world in which the server responds with the bodies. -/
def sampleWorld (files : Path → Option Node) (bodies : List (List UInt8)) : World where
  machine := ⟨files, List.replicate 200 (.succeed 4096), 10⟩
  pid := 7
  sequence := 0
  times := []
  resolutions := [(.ok, [ascii "10.0.0.1"]), (.ok, [ascii "10.0.0.1"])]
  wires := bodies.map sampleReply
  heaps := bodies.map fun _ => fun _ => true
  events := []

/-- The record of a reader at the position `/a`. -/
def sampleRecord : Record := ⟨some (ascii "/a"), 5⟩

/-- The body of the PUT of `sampleRecord`. -/
@[irreducible] def sampleJson : List UInt8 :=
  ascii "\x7b\"document\":\"9dd4e461268c8034f5c8564e155c67a6\",\"progress\":\"/a\"," ++
    ascii "\"percentage\":0.0005,\"device\":\"d\",\"device_id\":\"i\"\x7d"

/-- The acknowledgement of a PUT. -/
@[irreducible] def sampleAck : List UInt8 :=
  ascii "\x7b\"document\":\"9dd4e461268c8034f5c8564e155c67a6\",\"timestamp\":10\x7d"

/-- What the server stores of `sampleJson`. -/
@[irreducible] def sampleStored : Progress := (parseProgress nearest (fun _ => true) sampleJson progressInit).2

/-- The server with `sampleStored`. -/
def sampleServer : Server :=
  Function.update (fun _ => none) sampleStored.documentId (some sampleStored)

/-- The GET of the record of the book. -/
def sampleGet : NetSimple.Request :=
  getRequest sampleRouted (ascii "/syncs/progress/" ++ sampleDocumentId)

/-- The PUT of `sampleRecord`. -/
def samplePut : NetSimple.Request :=
  putRequest sampleRouted (ascii "/syncs/progress") sampleJson

/-- The outcome of a request with the response that has the body. -/
@[irreducible] def sampleOutcome (request : NetSimple.Request) (body : List UInt8) :
    NetSimple.Outcome :=
  NetSimple.exchange request responseCap (sampleReply body)

/-- The empty object is no record, and the body of the PUT is one of the book. -/
theorem sample_parses :
    (parseProgress nearest (fun _ => true) (ascii "\x7b\x7d") progressInit).1 = .notFound ∧
      parseProgress nearest (fun _ => true) sampleJson progressInit = (.ok, sampleStored) ∧
      sampleStored.documentId = sampleDocumentId := by
  decide +kernel

theorem sampleStored_parsed :
    parseProgress nearest (fun _ => true) sampleJson progressInit = (.ok, sampleStored) :=
  sample_parses.2.1

/-- The bodies reach the client. -/
theorem sampleOutcome_body :
    responseBody (sampleOutcome sampleGet (ascii "\x7b\x7d")) = ascii "\x7b\x7d" ∧
      responseBody (sampleOutcome sampleGet sampleJson) = sampleJson := by
  decide +kernel

theorem length_sampleDocumentId : sampleDocumentId.length = 32 := by
  unfold sampleDocumentId
  rfl

/-- A GET of the book asks for no other one. -/
theorem sampleGet_documentId {documentId : List UInt8} (hproper : IsDocumentId documentId)
    (hpath : ascii "/syncs/progress/" ++ documentId <:+ sampleGet.path) :
    documentId = sampleDocumentId := by
  have heq : ascii "/syncs/progress/" ++ documentId = ascii "/syncs/progress/" ++ sampleDocumentId :=
    hpath.eq_of_length (by
      change _ = (ascii "/syncs/progress/" ++ sampleDocumentId).length
      rw [List.length_append, List.length_append, hproper.1, length_sampleDocumentId]
      rfl)
  exact List.append_cancel_left heq

/-- The empty server shows no record. -/
theorem serves_sampleGet_none :
    Serves (fun _ => none) sampleGet (sampleOutcome sampleGet (ascii "\x7b\x7d"))
      (fun _ => none) := by
  refine .get rfl fun _ documentId _ _ ms q htext hdenotes => ?_
  rw [sampleOutcome_body.1] at htext
  have hparse := parseProgress_complete (by decide) htext hdenotes progressInit
  have hnone := sample_parses.1
  rw [hparse] at hnone
  cases hnone

/-- The server stores the PUT. -/
theorem serves_samplePut (server : Server) :
    Serves server samplePut (sampleOutcome samplePut sampleAck)
      (Function.update server sampleStored.documentId (some sampleStored)) := by
  obtain ⟨-, ms, htext, hdenotes⟩ := parseProgress_sound sampleStored_parsed
  exact .stored rfl rfl htext hdenotes

theorem stored_documentId {server : Server} {p : Progress} {documentId : List UInt8}
    (h : p.documentId = documentId) :
    Function.update server p.documentId (some p) documentId = some p := by
  rw [h, Function.update_self]

theorem Server.shows_of_stored {server : Server} {p : Progress} {documentId json body : List UInt8}
    (hbody : body = json) (hserver : server documentId = some p)
    (hparse : parseProgress nearest (fun _ => true) json progressInit = (.ok, p)) :
    server.Shows documentId body := by
  obtain ⟨-, ms, htext, hdenotes⟩ := parseProgress_sound hparse
  subst hbody
  simp only [Server.Shows, hserver]
  refine ⟨ms, p, htext, hdenotes, fun f hne => ?_⟩
  cases f <;> first | rfl | exact absurd rfl hne

theorem sampleServer_documentId : sampleServer sampleDocumentId = some sampleStored :=
  stored_documentId sample_parses.2.2

/-- The server shows what it has stored. -/
theorem serves_sampleGet_stored :
    Serves sampleServer sampleGet (sampleOutcome sampleGet sampleJson) sampleServer := by
  refine .get rfl fun _ documentId hproper hpath => ?_
  obtain rfl := sampleGet_documentId hproper hpath
  exact Server.shows_of_stored sampleOutcome_body.2 sampleServer_documentId sampleStored_parsed

/-- The document id that `identify` finds for the book. -/
def sampleFound (w : World) : Option (Option (List UInt8)) :=
  (identify (ascii "/b") w).1.map fun document => document.ids.map Prod.snd

theorem sample_sameDocument {w : World} (h : sampleFound w = some (some sampleDocumentId)) :
    SameDocument sampleConfig sampleDocumentId w := by
  intro path document w' hpath hid ids hids
  obtain rfl := Option.some.inj hpath
  rw [sampleFound, hid] at h
  have hsnd : document.ids.map Prod.snd = some sampleDocumentId := Option.some.inj h
  rw [hids] at hsnd
  exact Option.some.inj hsnd

/-- What a synchronization of the book returns. -/
def sampleReturns (w : World) : Option (SyncStatus × Decision) :=
  (syncOnce sampleConfig w).1.map fun result => (result.status, result.decision)

/-- A synchronization of the book that saves nothing. -/
theorem sample_turn {w : World} {status : SyncStatus} {decision : Decision} {events : List Event}
    {server server' : Server} (hfound : sampleFound w = some (some sampleDocumentId))
    (hreturns : sampleReturns w = some (status, decision)) (hstart : w.events = [])
    (hevents : (syncOnce sampleConfig w).2.events = events)
    (hquiet : events.countP Event.isSave = 0) (hserves : ServesAll server events server') :
    ∃ result, Turn sampleConfig sampleDocumentId (.sync result) events ⟨w.files, server⟩
      ⟨w.files, server'⟩ ∧ result.status = status ∧ result.decision = decision := by
  obtain ⟨result, hresult, hvalue⟩ := Option.map_eq_some_iff.mp hreturns
  obtain ⟨hstatus, hdecision⟩ := Prod.mk.inj hvalue
  have hsync : syncOnce sampleConfig w = (some result, (syncOnce sampleConfig w).2) :=
    Prod.ext hresult rfl
  have happend : (syncOnce sampleConfig w).2.events = w.events ++ events := by
    rw [hevents, hstart, List.nil_append]
  have hturn := Turn.of_sync hsync happend hserves (sample_sameDocument hfound)
  rw [syncOnce_files hsync happend hquiet] at hturn
  exact ⟨result, hturn, hstatus, hdecision⟩

/-- The world of an upload of `sampleRecord`. -/
def sampleUpload : World :=
  sampleWorld (sampleRead sampleRecord) [ascii "\x7b\x7d", sampleAck]

/-- The events of an upload. -/
def sampleUploadEvents : List Event :=
  [.load sampleIdentity .ok, .dns (ascii "h") .ok,
    .exchange sampleGet (sampleOutcome sampleGet (ascii "\x7b\x7d")),
    .got sampleDocumentId .notFound, .exchange samplePut (sampleOutcome samplePut sampleAck)]

theorem sampleUpload_runs : sampleFound sampleUpload = some (some sampleDocumentId) ∧
    sampleReturns sampleUpload = some (.ok, .localSelected) ∧
    (syncOnce sampleConfig sampleUpload).2.events = sampleUploadEvents := by
  decide +kernel

theorem sampleUpload_serves : ServesAll (fun _ => none) sampleUploadEvents sampleServer := by
  refine .other nofun (.other nofun (.exchange serves_sampleGet_none (.other nofun ?_)))
  exact .exchange (serves_samplePut _) (.nil _)

/-- A synchronization that finds its own record. -/
def sampleAgain : World := sampleWorld (sampleRead sampleRecord) [sampleJson]

def sampleAgainEvents : List Event :=
  [.load sampleIdentity .ok, .dns (ascii "h") .ok,
    .exchange sampleGet (sampleOutcome sampleGet sampleJson), .got sampleDocumentId .ok]

theorem sampleAgain_runs : sampleFound sampleAgain = some (some sampleDocumentId) ∧
    sampleReturns sampleAgain = some (.ok, .noChange) ∧
    (syncOnce sampleConfig sampleAgain).2.events = sampleAgainEvents := by
  decide +kernel

theorem sampleAgain_serves : ServesAll sampleServer sampleAgainEvents sampleServer :=
  .other nofun (.other nofun (.exchange serves_sampleGet_stored (.other nofun (.nil _))))

/-- A book is uploaded, and from then on nothing changes. -/
theorem sync_converges_upload : ∃ uploaded unchanged sides,
    Turn sampleConfig sampleDocumentId (.sync uploaded) sampleUploadEvents
      ⟨sampleUpload.files, fun _ => none⟩ sides ∧
    uploaded.status = .ok ∧ uploaded.decision = .localSelected ∧
    sides.server sampleDocumentId = some sampleStored ∧
    Turn sampleConfig sampleDocumentId (.sync unchanged) sampleAgainEvents sides sides ∧
    unchanged.status = .ok ∧ unchanged.decision = .noChange := by
  obtain ⟨hfound, hreturns, hevents⟩ := sampleUpload_runs
  obtain ⟨uploaded, hupload, hok, hdecision⟩ :=
    sample_turn hfound hreturns rfl hevents rfl sampleUpload_serves
  obtain ⟨hfound', hreturns', hevents'⟩ := sampleAgain_runs
  obtain ⟨unchanged, hagain, hok', -⟩ :=
    sample_turn hfound' hreturns' rfl hevents' rfl sampleAgain_serves
  have hquiescent := (sync_converges sampleConfig sampleDocumentId).quiescent _ _ _ _ hupload
    ⟨hok, .inl hdecision⟩
  exact ⟨uploaded, unchanged, _, hupload, hok, hdecision, sampleServer_documentId, hagain,
    hok', hquiescent.noChange _ _ _ _ .refl hagain hok'⟩

end Sample

end Kosync
