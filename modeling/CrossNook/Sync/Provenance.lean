import CrossNook.Progress.Refinement
import CrossNook.Sync.Transfer
import CrossNook.System.Fleet

/-!
# Devices that share a server

Any number of devices with books of their own, which read, synchronize, push and pull against one
server, overlap in any order, are killed anywhere and lose answers.

## Main definitions

* `Kosync.Device`: where a device keeps its records, and which document each of its books is
* `Kosync.fleet`: the devices and the server as clients of a shared store
* `Kosync.Sound`: all records are at places that a reader of the same document has been at

## Main results

* `Kosync.places_have_origin`: no place is made up, torn or taken over from another document
* `Kosync.server_record_stable`: without a push a record of the server is never overwritten
-/

namespace Kosync

open Crash Posix
open ProgressStore (Record temporaryPath)

/-! ## The system -/

/-- A device: the store of its records, and the document of each of its books by the token of the
book. -/
structure Device where
  store : ProgressStore.Store
  shelf : List UInt8 → List UInt8

/-- The files of a device. -/
abbrev Files : Type := Path → Option Node

/-- A request with what came of it. -/
abbrev Message : Type := NetSimple.Request × NetSimple.Outcome

/-- The messages among the events. -/
def messages (events : List Event) : List Message :=
  events.filterMap fun event =>
    match event with
    | .exchange request outcome => some (request, outcome)
    | _ => none

/-- The operations. -/
inductive Kind
  | sync
  | push
  | pull
  deriving DecidableEq, Repr

/-- The world that an operation leaves, killed or not. -/
def performed (kind : Kind) (config : SyncConfig) (w : World) : World :=
  match kind with
  | .sync => (syncOnce config w).2
  | .push => (pushLocalOnce config w).2
  | .pull => (pullRemoteOnce config.pull w).2

/-- An operation of a device on one of its books: the files before, the messages, and the files
that it leaves. -/
inductive Operates (kinds : Set Kind) (device : Device) : Files → List Message → Files → Prop
  | intro {kind : Kind} {config : SyncConfig} {w : World} {events : List Event}
    (hkind : kind ∈ kinds) (hstore : config.progressStore = some device.store)
    (hshelf : ∀ identity token, BookIdentity.fromPath config.documentPath = some identity →
      identity.token = some token → SameDocument config (device.shelf token) w)
    (hevents : (performed kind config w).events = w.events ++ events) :
    Operates kinds device w.files (messages events) (performed kind config w).files

/-- The reader saves a place where its user has been, killed or not. -/
inductive Visits (written : List UInt8 → Set Place) (device : Device) : Files → Files → Prop
  | intro {identity : BookIdentity} {token : List UInt8} {record : Record}
    (htoken : identity.token = some token)
    (hwritten : recordPlace record ∈ written (device.shelf token)) (pid : ℕ) (m : Machine) :
    Visits written device m.files
      (ProgressStore.save device.store identity record pid m).2.files

/-- The devices, the server that they share, and the places that the users of each document have
been at. -/
def fleet {ι : Type} (kinds : Set Kind) (devices : ι → Device)
    (written : List UInt8 → Set Place) : Fleet.System ι Server Message Files where
  operates i := Operates kinds (devices i)
  serves server message := Serves server message.1 message.2
  changes i := Visits written (devices i)

section Messages

theorem mem_messages {events : List Event} {message : Message} :
    message ∈ messages events ↔ .exchange message.1 message.2 ∈ events := by
  unfold messages
  rw [List.mem_filterMap]
  constructor
  · rintro ⟨event, hmem, hmessage⟩
    cases event with
    | exchange request outcome =>
      obtain rfl := Option.some.inj hmessage
      exact hmem
    | time | dns | load | save | got => cases hmessage
  · intro hmem
    exact ⟨_, hmem, rfl⟩

theorem messages_append (events more : List Event) :
    messages (events ++ more) = messages events ++ messages more :=
  List.filterMap_append

theorem messages_exchange (request : NetSimple.Request) (outcome : NetSimple.Outcome) :
    messages [.exchange request outcome] = [(request, outcome)] := rfl

/-- A save is no message. -/
theorem messages_save (events : List Event) (identity : BookIdentity) (record : Record) :
    messages (events ++ [.save identity record]) = messages events := by
  rw [messages_append]
  exact List.append_nil _

theorem not_put_of_messages {events : List Event} (h : events.countP Event.isPut = 0)
    {message : Message} (hmem : message ∈ messages events) : message.1.method ≠ .put := by
  have hnot := List.countP_eq_zero.mp h _ (mem_messages.mp hmem)
  simpa [Event.isPut] using hnot

/-- What an operation of a device carries over. -/
theorem performed_transferred (kind : Kind) (config : SyncConfig) (w : World) :
    Transferred (kind ≠ .push) config.documentPath config.progressStore w
      (performed kind config w) := by
  cases kind with
  | sync =>
    have h := (ends_syncOnce_transfer config w).final
    simpa [performed] using h
  | push =>
    have h := (ends_pushLocalOnce_transfer config w).final
    simpa [performed] using h
  | pull =>
    have h := (@ends_pullRemoteOnce_transfer (Kind.pull ≠ .push) config.pull w).final
    exact h

end Messages

/-! ## Stored records under a save -/

/-- No record is behind a symbolic link. -/
def Plain (store : ProgressStore.Store) (files : Files) : Prop :=
  ∀ token node, token.length = tokenBytes - 1 →
    files (store.path token) = some node → ∀ target, node.kind ≠ .symlink target

section Stored

variable {store : ProgressStore.Store} {identity identity' : BookIdentity} {record record' : Record}
  {token : List UInt8} {files files' : Files}

/-- What is stored in a file that is no link. -/
theorem lookup_of_file {node : Node} (hfile : files (store.path token) = some node)
    (hlink : ∀ target, node.kind ≠ .symlink target) :
    store.lookup files token = ProgressStore.judge token node := by
  obtain ⟨ino, kind⟩ := node
  have hresolve : resolve files 40 (store.path token) = .ok (store.path token) := by
    cases kind with
    | symlink target => exact absurd rfl (hlink target)
    | regular content => simp only [resolve, hfile]
    | directory => simp only [resolve, hfile]
    | other => simp only [resolve, hfile]
  simp only [ProgressStore.Store.lookup, hresolve, hfile]

/-- A record whose file is the same was stored before. -/
theorem Stored.of_eq (hplain : Plain store files) (htoken : identity.token = some token)
    (hfile : files' (store.path token) = files (store.path token))
    (h : Stored store identity files' record) : Stored store identity files record := by
  obtain ⟨token', ht', hlookup⟩ := h
  obtain rfl : token' = token := Option.some.inj (ht'.symm.trans htoken)
  refine ⟨token', htoken, ?_⟩
  cases hold : files (store.path token') with
  | none =>
    rw [hold] at hfile
    rw [ProgressStore.lookup_of_none hfile] at hlookup
    cases hlookup
  | some node =>
    have hlink := hplain token' node (BookIdentity.length_token htoken) hold
    rw [hold] at hfile
    rw [lookup_of_file hold hlink]
    rwa [lookup_of_file hfile hlink] at hlookup

/-- The file of another book under a save. -/
theorem Saves.frame (h : Saves store token record files files') {token' : List UInt8}
    (hlen : token.length = token'.length) (hne : token' ≠ token) :
    files' (store.path token') = files (store.path token') := by
  refine h.others _ ?_ ?_
  · intro hpath
    exact hne (ProgressStore.path_injective hpath)
  · intro pid
    exact ProgressStore.path_ne_temporaryPath hlen pid

theorem Replaced.plain (h : Replaced store identity record files files')
    (hplain : Plain store files) : Plain store files' := by
  rcases h with rfl | ⟨token, htoken, hsaves⟩
  · exact hplain
  intro token' node hlen hfile target
  by_cases hne : token' = token
  · subst hne
    rcases hsaves.own with hown | ⟨ino, location, -, -, hown⟩
    · rw [hown] at hfile
      exact hplain token' node hlen hfile target
    · -- the new file is a regular one
      obtain rfl := Option.some.inj (hown.symm.trans hfile)
      simp
  · rw [hsaves.frame ((BookIdentity.length_token htoken).trans hlen.symm) hne] at hfile
    exact hplain token' node hlen hfile target

/-- **What is stored after a save** was stored before or has been saved for the same book. -/
theorem Replaced.stored (h : Replaced store identity record files files')
    (hplain : Plain store files) (hstored : Stored store identity' files' record') :
    Stored store identity' files record' ∨
      (identity'.token = identity.token ∧ record' = record) := by
  rcases h with rfl | ⟨token, htoken, hsaves⟩
  · exact .inl hstored
  obtain ⟨token', htoken', hlookup⟩ := id hstored
  by_cases hne : token' = token
  · subst hne
    rcases hsaves.own with hown | ⟨ino, location, hlocation, hposition, hown⟩
    · exact .inl (hstored.of_eq hplain htoken' hown)
    · refine .inr ⟨htoken'.trans htoken.symm, ?_⟩
      rw [ProgressStore.lookup_of_encode (BookIdentity.length_token htoken) hposition hown]
        at hlookup
      rw [← Except.ok.inj hlookup, ← hlocation]
  · refine .inl (hstored.of_eq hplain htoken' (hsaves.frame ?_ hne))
    rw [BookIdentity.length_token htoken, BookIdentity.length_token htoken']

end Stored

/-! ## Places -/

/-- All records, on the devices and on the server, are at places that a user of the same document
has been at. -/
structure Sound {ι : Type} (devices : ι → Device) (written : List UInt8 → Set Place)
    (server : Server) (clients : ι → Files) : Prop where
  plain : ∀ i, Plain (devices i).store (clients i)
  stored : ∀ i identity token record, identity.token = some token →
    Stored (devices i).store identity (clients i) record →
      recordPlace record ∈ written ((devices i).shelf token)
  served : ∀ documentId progress, server documentId = some progress →
    progress.place ∈ written documentId

/-- The answers told places of the document that was asked for. -/
def Truthful (written : List UInt8 → Set Place) (ms : List Message) : Prop :=
  ∀ message ∈ ms, ∀ documentId place, Asks documentId message.1 → Tells place message.2 →
    place ∈ written documentId

/-- The device keeps its records in files, at places that its users have been at. -/
structure SoundFiles (device : Device) (written : List UInt8 → Set Place) (files : Files) :
    Prop where
  plain : Plain device.store files
  stored : ∀ identity token record, identity.token = some token →
    Stored device.store identity files record → recordPlace record ∈ written (device.shelf token)

/-- What is left of an operation: it sends such places, and if it is told such places it keeps
them. -/
structure SoundJob (device : Device) (written : List UInt8 → Set Place) (ms : List Message)
    (final : Files) : Prop where
  sends : ∀ message ∈ ms, message.1.method = .put →
    ∃ documentId, ∃ place ∈ written documentId, Sends documentId place message.1
  keeps : Truthful written ms → SoundFiles device written final

/-- The contract of the places. -/
def placeContract {ι : Type} (devices : ι → Device) (written : List UInt8 → Set Place) :
    Fleet.Contract ι Server Message Files where
  store server := ∀ documentId progress, server documentId = some progress →
    progress.place ∈ written documentId
  client i := SoundFiles (devices i) written
  job i := SoundJob (devices i) written

section Places

variable {ι : Type} {devices : ι → Device} {device : Device} {written : List UInt8 → Set Place}
  {files files' : Files} {server server' : Server} {message : Message} {rest : List Message}

/-- The configured document is the one of the book. -/
theorem Identifies.documentId_eq {config : SyncConfig} {w : World} {identity : BookIdentity}
    {documentId token : List UInt8}
    (h : Identifies config.documentPath w identity documentId)
    (htoken : identity.token = some token)
    (hshelf : ∀ identity token, BookIdentity.fromPath config.documentPath = some identity →
      identity.token = some token → SameDocument config (device.shelf token) w) :
    documentId = device.shelf token := by
  obtain ⟨path, document, w', hpath, hid, hids⟩ := h
  have hidentity : BookIdentity.fromPath config.documentPath = some identity := by
    rw [hpath]
    exact ((ends_identify path).of_eq hid).2.2 _ hids
  exact hshelf identity token hidentity htoken path document w' hpath hid _ hids

theorem SoundFiles.replaced (h : SoundFiles device written files) {identity : BookIdentity}
    {record : Record} (hfiles : Replaced device.store identity record files files')
    (hplace : ∀ token, identity.token = some token →
      recordPlace record ∈ written (device.shelf token)) : SoundFiles device written files' := by
  refine ⟨hfiles.plain h.plain, ?_⟩
  intro identity' token record' htoken hstored
  rcases hfiles.stored h.plain hstored with hold | ⟨hsame, rfl⟩
  · exact h.stored identity' token record' htoken hold
  · exact hplace token (hsame ▸ htoken)

/-- **An operation of a device in order**. -/
theorem SoundFiles.operates {kinds : Set Kind} {ms : List Message}
    (h : SoundFiles device written files) (hop : Operates kinds device files ms files') :
    SoundJob device written ms files' := by
  obtain ⟨hkind, hstore, hshelf, hevents⟩ := hop
  rename_i kind config w events
  obtain ⟨events', he, htransfer⟩ := performed_transferred kind config w
  obtain rfl : events' = events := List.append_cancel_left (he.symm.trans hevents)
  clear he hevents
  generalize (performed kind config w).files = final at htransfer ⊢
  cases htransfer with
  | quiet hquiet =>
    refine ⟨?_, fun _ => h⟩
    intro message hmem hput
    exact absurd hput (not_put_of_messages hquiet hmem)
  | @uploads store identity documentId record events request hstore' hid hstored hquiet _ hsends
      outcome =>
    obtain rfl : device.store = store := Option.some.inj (hstore.symm.trans hstore')
    refine ⟨?_, fun _ => h⟩
    intro message hmem hput
    rw [messages_append, messages_exchange, List.mem_append, List.mem_singleton] at hmem
    rcases hmem with hmem | rfl
    · exact absurd hput (not_put_of_messages hquiet hmem)
    · -- it sends the stored record of the book for its document
      obtain ⟨token, htoken, -⟩ := id hstored
      refine ⟨documentId, recordPlace record, ?_, hsends⟩
      rw [hid.documentId_eq htoken hshelf]
      exact h.stored identity token record htoken hstored
  | @downloads store identity documentId record events _ hstore' hid hquiet htold hfiles =>
    obtain rfl : device.store = store := Option.some.inj (hstore.symm.trans hstore')
    rw [messages_save]
    refine ⟨?_, ?_⟩
    · intro message hmem hput
      exact absurd hput (not_put_of_messages hquiet hmem)
    · intro htruthful
      refine h.replaced hfiles ?_
      intro token htoken
      obtain ⟨request, outcome, hmem, hasks, htells⟩ := htold
      rw [← hid.documentId_eq htoken hshelf]
      exact htruthful (request, outcome) (mem_messages.mpr hmem) documentId _ hasks htells

/-- A server with such places tells such places. -/
theorem Serves.tells (hserved : ∀ documentId progress, server documentId = some progress →
      progress.place ∈ written documentId)
    (hserves : Serves server message.1 message.2 server') {documentId : List UInt8}
    {place : Place} (hasks : Asks documentId message.1) (htells : Tells place message.2) :
    place ∈ written documentId := by
  obtain ⟨hdelivered, q, hparse, rfl⟩ := htells
  have hshows := (hserves.of_get hasks.method).2 hdelivered documentId hasks.proper hasks.path
  obtain ⟨progress, hprogress, hsame⟩ := hshows.of_ok hparse
  rw [hsame.place_eq]
  exact hserved documentId progress hprogress

/-- What the server stores of a PUT. -/
theorem Serves.of_sends {documentId : List UInt8} {place : Place}
    (hsends : Sends documentId place message.1)
    (hserves : Serves server message.1 message.2 server') :
    server' = server ∨ ∃ progress, progress.documentId = documentId ∧ progress.place = place ∧
      server' = Function.update server documentId (some progress) := by
  obtain ⟨hput, json, q, hbody, hparse, rfl, rfl⟩ := hsends
  cases hserves with
  | get hget => exact .inl rfl
  | lost => exact .inl rfl
  | @stored _ json' hbody' ms p htext hdenotes =>
    obtain rfl : json' = json := Option.some.inj (hbody'.symm.trans hbody)
    have hp := parseProgress_complete (parseProgress_sound hparse).1 htext hdenotes progressInit
    obtain rfl : q = p := (Prod.mk.inj (hparse.symm.trans hp)).2
    exact .inr ⟨q, rfl, rfl, rfl⟩

theorem placeContract_kept (kinds : Set Kind) (devices : ι → Device)
    (written : List UInt8 → Set Place) :
    (placeContract devices written).Kept (fleet kinds devices written) where
  operates := fun _ _ _ _ hclient hop => hclient.operates hop
  serves := by
    intro i server message rest final server' hserved hjob hserves
    refine ⟨?_, fun m hm => hjob.sends m (List.mem_cons_of_mem _ hm), ?_⟩
    · by_cases hput : message.1.method = .put
      · obtain ⟨documentId, place, hplace, hsends⟩ := hjob.sends message List.mem_cons_self hput
        rcases Serves.of_sends hsends hserves with rfl | ⟨progress, hdoc, rfl, rfl⟩
        · exact hserved
        · intro documentId' progress' hprogress
          by_cases hsame : documentId' = documentId
          · subst hsame
            rw [Function.update_self] at hprogress
            obtain rfl := Option.some.inj hprogress
            exact hplace
          · rw [Function.update_of_ne hsame] at hprogress
            exact hserved documentId' progress' hprogress
      · -- only a PUT changes what is stored
        have hserver : server' = server := by
          cases hserves with
          | get => rfl
          | stored hm => exact absurd hm hput
          | lost hm => rfl
        rw [hserver]
        exact hserved
    · intro htruthful
      refine hjob.keeps ?_
      intro m hm documentId place hasks htells
      rcases List.mem_cons.mp hm with rfl | hm
      · exact Serves.tells hserved hserves hasks htells
      · exact htruthful m hm documentId place hasks htells
  finishes := by
    intro i final hjob
    exact hjob.keeps fun m hm => absurd hm List.not_mem_nil
  changes := by
    rintro i _ _ hclient ⟨htoken, hwritten, pid, m⟩
    rename_i identity token record
    refine hclient.replaced (ends_save_replaced _ identity record pid m).final ?_
    intro token' htoken'
    obtain rfl : token' = token := Option.some.inj (htoken'.symm.trans htoken)
    exact hwritten

variable [DecidableEq ι] {kinds : Set Kind} {s t : Fleet.State ι Server Message Files}

/-- **Every place has an origin.** Where all records are at places that users of the same document
have been at, they are so after any operations of any devices, in any interleaving, wherever
programs are killed and answers are lost: no place is made up, no percentage is paired with another
position, and none is carried over to another document. -/
theorem places_have_origin (hidle : s.Idle) (h : Sound devices written s.store s.clients)
    (hrun : Fleet.Run (fleet kinds devices written) s t) :
    Sound devices written t.store t.clients := by
  have hstart : (placeContract devices written).Holds s :=
    Fleet.Contract.holds_of_idle hidle h.served fun i => ⟨h.plain i, h.stored i⟩
  have hend := (placeContract_kept kinds devices written).run hrun hstart
  exact ⟨fun i => (hend.client i).plain, fun i => (hend.client i).stored, hend.store⟩

end Places

section Sample

open Bytes (ascii)

/-- A device with the sample book. -/
def sampleDevice : Device := ⟨sampleStore, fun _ => sampleDocumentId⟩

/-- The places of a record of the sample book. -/
def samplePlaces (record : Record) (documentId : List UInt8) : Set Place :=
  {place | documentId = sampleDocumentId ∧ place = recordPlace record}

theorem sampleRead_visits (record : Record) :
    Visits (samplePlaces record) sampleDevice sampleBooks (sampleRead record) := by
  have htoken := BookIdentity.token_ofHash (BookIdentity.hash (ascii "/b"))
  have hplace : recordPlace record ∈ samplePlaces record sampleDocumentId := ⟨rfl, rfl⟩
  unfold sampleRead
  exact .intro htoken hplace 7 ⟨sampleBooks, _, 0⟩

/-- An operation on the sample book is one of its device. -/
theorem Operates.sample {kinds : Set Kind} {kind : Kind} {w : World} {events : List Event}
    (hkind : kind ∈ kinds) (hdocument : SameDocument sampleConfig sampleDocumentId w)
    (hevents : (performed kind sampleConfig w).events = w.events ++ events) :
    Operates kinds sampleDevice w.files (messages events)
      (performed kind sampleConfig w).files :=
  .intro hkind rfl (fun _ _ _ _ => hdocument) hevents

/-- The pull of a device that has no record. -/
def samplePull : World := sampleWorld sampleBooks [sampleJson]

def samplePullEvents : List Event :=
  [.dns (ascii "h") .ok, .exchange sampleGet (sampleOutcome sampleGet sampleJson),
    .got sampleDocumentId .ok, .save sampleIdentity sampleRecord]

theorem samplePull_runs : sampleFound samplePull = some (some sampleDocumentId) ∧
    (performed .pull sampleConfig samplePull).events = samplePullEvents := by
  decide +kernel

/-- The pull keeps the record of the server. -/
theorem samplePull_stored :
    Stored sampleStore sampleIdentity (performed .pull sampleConfig samplePull).files
      sampleRecord := by
  refine ⟨_, BookIdentity.token_ofHash (BookIdentity.hash (ascii "/b")), ?_⟩
  decide +kernel

theorem length_samplePath {token : List UInt8} (h : token.length = tokenBytes - 1) :
    (sampleStore.path token).length = 3 + (tokenBytes - 1) + ProgressStore.fileSuffix.length := by
  have hdirectory : (sampleStore.directory ++
      (if sampleStore.directory.getLast? ≠ some 0x2f then [0x2f] else [])).length = 3 := rfl
  unfold ProgressStore.Store.path
  rw [List.length_append, List.length_append, hdirectory, h]

/-- Neither device has a record, and the server has none. -/
theorem sample_sound (record : Record) :
    Sound (fun _ : Bool => sampleDevice) (samplePlaces record) (fun _ => none)
      fun _ => sampleBooks := by
  have hnone : ∀ token, token.length = tokenBytes - 1 →
      sampleBooks (sampleDevice.store.path token) = none := by
    intro token hlen
    have hpath := length_samplePath hlen
    unfold sampleBooks
    rw [if_neg fun h => ?_, if_neg fun h => ?_] <;>
      · rw [show sampleDevice.store = sampleStore from rfl] at h
        rw [h] at hpath
        cases hpath
  refine ⟨?_, ?_, nofun⟩
  · intro i token node hlen hfile
    rw [hnone token hlen] at hfile
    cases hfile
  · intro i identity token record' htoken hstored
    obtain ⟨token', node, htoken', hfile⟩ := hstored.exists_file
    rw [hnone token' (BookIdentity.length_token htoken')] at hfile
    cases hfile

/-- The first device uploads while the second one, which has started to pull, waits for its
answer. -/
theorem exists_run_upload_pull {σ μ τ : Type} {system : Fleet.System Bool σ μ τ} {start stored : σ}
    {clients : Bool → τ} {read sent got : τ} {ask send asked : μ}
    (hchange : system.changes true (clients true) read)
    (hsync : system.operates true read [ask, send] sent)
    (hpull : system.operates false (clients false) [asked] got)
    (hask : system.serves start ask start) (hsend : system.serves start send stored)
    (hasked : system.serves stored asked stored) :
    ∃ t, Fleet.Run system ⟨start, clients, fun _ => none⟩ t ∧ t.store = stored ∧
      t.clients true = sent ∧ t.clients false = got := by
  have hread : Fleet.Run system ⟨start, clients, fun _ => none⟩ _ :=
    .single (@Fleet.Step.change _ _ _ _ _ _ _ true _ rfl hchange)
  have hstarted := (hread.tail (@Fleet.Step.start _ _ _ _ _ _ _ true _ _ rfl hsync)).tail
    (@Fleet.Step.start _ _ _ _ _ _ _ false _ _ rfl hpull)
  have huploaded := (hstarted.tail (@Fleet.Step.serve _ _ _ _ _ _ _ true _ _ _ _ rfl hask)).tail
    (@Fleet.Step.serve _ _ _ _ _ _ _ true _ _ _ _ rfl hsend)
  have hserved := huploaded.tail (@Fleet.Step.serve _ _ _ _ _ _ _ false _ _ _ _ rfl hasked)
  have hdone := (hserved.tail (@Fleet.Step.finish _ _ _ _ _ _ _ false _ rfl)).tail
    (@Fleet.Step.finish _ _ _ _ _ _ _ true _ rfl)
  exact ⟨_, hdone, rfl, rfl, rfl⟩

/-- One device uploads the place of its reader while another one pulls it. -/
theorem places_have_origin_exchange : ∃ t,
    Fleet.Run (fleet Set.univ (fun _ : Bool => sampleDevice) (samplePlaces sampleRecord))
      ⟨fun _ => none, fun _ => sampleBooks, fun _ => none⟩ t ∧
    t.store sampleDocumentId = some sampleStored ∧
    Stored sampleStore sampleIdentity (t.clients false) sampleRecord ∧
    Sound (fun _ : Bool => sampleDevice) (samplePlaces sampleRecord) t.store t.clients := by
  have hupload : Operates Set.univ sampleDevice (sampleRead sampleRecord)
      (messages sampleUploadEvents) (performed .sync sampleConfig sampleUpload).files :=
    .sample (Set.mem_univ _) (sample_sameDocument sampleUpload_runs.1) sampleUpload_runs.2.2
  have hpull : Operates Set.univ sampleDevice sampleBooks
      (messages samplePullEvents) (performed .pull sampleConfig samplePull).files :=
    .sample (Set.mem_univ _) (sample_sameDocument samplePull_runs.1) samplePull_runs.2
  obtain ⟨t, hrun, hstore, -, hpulled⟩ := @exists_run_upload_pull Server Message Files
    (fleet Set.univ (fun _ : Bool => sampleDevice) (samplePlaces sampleRecord)) _ _
    (fun _ => sampleBooks) _ _ _ _ _ _ (sampleRead_visits sampleRecord) hupload hpull
    serves_sampleGet_none (serves_samplePut _) serves_sampleGet_stored
  refine ⟨t, hrun, ?_, ?_, places_have_origin (fun _ => rfl) (sample_sound sampleRecord) hrun⟩
  · rw [hstore]
    exact sampleServer_documentId
  · rw [hpulled]
    exact samplePull_stored

end Sample

/-! ## The records of the server -/

/-- A PUT of some document, which is the given one only under a condition. -/
def SendsOnly (documentId : List UInt8) (condition : Prop) (message : Message) : Prop :=
  ∃ documentId' place, Sends documentId' place message.1 ∧ (documentId' = documentId → condition)

/-- A GET of the document among the messages was answered with no record. -/
def SaidMissing (documentId : List UInt8) (ms : List Message) : Prop :=
  ∃ message ∈ ms, Asks documentId message.1 ∧
    ∃ alloc, (getAnswer alloc documentId progressInit message.2).1 = .notFound

/-- The contract of a record of the server: an operation under way sends a record of the document
only behind a GET that still has to be answered with no record. -/
def recordContract (ι : Type) (documentId : List UInt8) (progress : Progress) :
    Fleet.Contract ι Server Message Files where
  store server := server documentId = some progress
  client _ _ := True
  job _ ms _ := ∀ before message after, ms = before ++ message :: after →
    message.1.method = .put → SendsOnly documentId (SaidMissing documentId before) message

section Record

variable {ι : Type} {devices : ι → Device} {device : Device} {written : List UInt8 → Set Place}
  {kinds : Set Kind} {documentId : List UInt8} {progress : Progress}

/-- **A synchronization uploads behind a GET** that found no record, and a pull never. -/
theorem Operates.guarded {files files' : Files} {ms : List Message}
    (hkinds : .push ∉ kinds) (hop : Operates kinds device files ms files') :
    ∀ before message after, ms = before ++ message :: after → message.1.method = .put →
      SendsOnly documentId (SaidMissing documentId before) message := by
  obtain ⟨hkind, -, -, hevents⟩ := hop
  rename_i kind config w events
  obtain ⟨events', he, htransfer⟩ := performed_transferred kind config w
  obtain rfl : events' = events := List.append_cancel_left (he.symm.trans hevents)
  clear he hevents
  have hnopush : kind ≠ .push := by
    rintro rfl
    exact hkinds hkind
  generalize (performed kind config w).files = final at htransfer
  intro before message after hsplit hput
  have hmem : message ∈ messages events' := by simp [hsplit]
  cases htransfer with
  | quiet hquiet => exact absurd hput (not_put_of_messages hquiet hmem)
  | @uploads store identity documentId' record events request _ _ _ hquiet hguard hsends outcome =>
    rw [messages_append, messages_exchange] at hsplit hmem
    have hlast : before = messages events ∧ message = (request, outcome) := by
      rcases List.mem_append.mp hmem with hold | hnew
      · exact absurd hput (not_put_of_messages hquiet hold)
      obtain rfl := List.mem_singleton.mp hnew
      cases hafter : after using List.reverseRecOn with
      | nil =>
        rw [hafter] at hsplit
        exact ⟨(List.append_inj_left' hsplit rfl).symm, rfl⟩
      | append_singleton after last =>
        rw [hafter, ← List.cons_append, ← List.append_assoc] at hsplit
        have hevents := List.append_inj_left' hsplit rfl
        have : (request, outcome) ∈ messages events := by simp [hevents]
        exact absurd hput (not_put_of_messages hquiet this)
    obtain ⟨rfl, rfl⟩ := hlast
    refine ⟨documentId', recordPlace record, hsends, ?_⟩
    rintro rfl
    obtain ⟨request', outcome', alloc, hmem', hasks, hnone⟩ := hguard hnopush
    exact ⟨(request', outcome'), mem_messages.mpr hmem', hasks, alloc, hnone⟩
  | @downloads _ _ _ _ events _ _ _ hquiet _ _ =>
    rw [messages_save] at hmem
    exact absurd hput (not_put_of_messages hquiet hmem)

theorem recordContract_kept (devices : ι → Device) (written : List UInt8 → Set Place)
    (hkinds : .push ∉ kinds) (documentId : List UInt8) (progress : Progress) :
    (recordContract ι documentId progress).Kept (fleet kinds devices written) where
  operates := fun _ _ _ _ _ hop => hop.guarded hkinds
  serves := by
    intro i server message rest final server' hserved hjob hserves
    have hserved : server documentId = some progress := hserved
    constructor
    · by_cases hput : message.1.method = .put
      · -- nothing has been said before the first message
        obtain ⟨documentId', place, hsends, hguard⟩ := hjob [] message rest rfl hput
        have hother : documentId ≠ documentId' := by
          rintro rfl
          obtain ⟨m, hm, -⟩ := hguard rfl
          cases hm
        rcases Serves.of_sends hsends hserves with rfl | ⟨progress', -, -, rfl⟩
        · exact hserved
        · exact (Function.update_of_ne hother _ _).trans hserved
      · cases hserves with
        | get => exact hserved
        | stored hm => exact absurd hm hput
        | lost hm => exact hserved
    · intro before m after hsplit hput
      obtain ⟨documentId', place, hsends, hguard⟩ :=
        hjob (message :: before) m after (by rw [hsplit]; rfl) hput
      refine ⟨documentId', place, hsends, fun hsame => ?_⟩
      obtain ⟨asked, hasked, hasks, alloc, hnone⟩ := hguard hsame
      rcases List.mem_cons.mp hasked with rfl | hasked
      · -- the server has a record, so that it does not say that there is none
        have hmissing := (hserves.of_getAnswer alloc hasks.method hasks.proper hasks.path).2 hnone
        rw [hserved] at hmissing
        cases hmissing
      · exact ⟨asked, hasked, hasks, alloc, hnone⟩
  finishes := fun _ _ _ => trivial
  changes := fun _ _ _ _ _ => trivial

variable [DecidableEq ι] {s t : Fleet.State ι Server Message Files}

/-- **A record of the server is overwritten by pushes only.** Where the server has a record of a
document and no operation under way still has an upload to make, synchronizations, pulls and
readers on any number of devices leave it as it is, in any interleaving. -/
theorem server_record_stable (hkinds : .push ∉ kinds)
    (hjobs : ∀ i ms final, s.jobs i = some (ms, final) → ∀ m ∈ ms, m.1.method ≠ .put)
    (hprogress : s.store documentId = some progress)
    (hrun : Fleet.Run (fleet kinds devices written) s t) :
    t.store documentId = some progress := by
  have hstart : (recordContract ι documentId progress).Holds s := by
    refine ⟨hprogress, fun _ => trivial, ?_⟩
    intro i ms final hjob before message after hsplit hput
    exact absurd hput (hjobs i ms final hjob message (by simp [hsplit]))
  exact ((recordContract_kept devices written hkinds documentId progress).run hrun hstart).store

end Record

section Sample

open Bytes (ascii)

/-- The synchronization of a device whose reader is at `/c`. -/
def sampleCompare : World := sampleWorld (sampleRead ⟨some (ascii "/c"), 9⟩) [sampleJson]

theorem sampleCompare_runs : sampleFound sampleCompare = some (some sampleDocumentId) ∧
    (performed .sync sampleConfig sampleCompare).events = sampleAgainEvents := by
  decide +kernel

/-- The second device finds a record of the server while the first one reads on and waits for its
answer. -/
theorem exists_run_compare {σ μ τ : Type} {system : Fleet.System Bool σ μ τ} {stored : σ}
    {clients : Bool → τ} {read final got : τ} {asked compared : μ}
    (hchange : system.changes false (clients false) read)
    (hsync : system.operates false read [compared] final)
    (hasked : system.serves stored asked stored)
    (hcompared : system.serves stored compared stored) :
    ∃ t, Fleet.Run system
        ⟨stored, clients, Function.update (fun _ => none) true (some ([asked], got))⟩ t ∧
      t.store = stored ∧ t.clients true = got ∧ t.clients false = final := by
  have hread : Fleet.Run system
      ⟨stored, clients, Function.update (fun _ => none) true (some ([asked], got))⟩ _ :=
    .single (@Fleet.Step.change _ _ _ _ _ _ _ false _ rfl hchange)
  have hstarted := hread.tail (@Fleet.Step.start _ _ _ _ _ _ _ false _ _ rfl hsync)
  have hserved := (hstarted.tail (@Fleet.Step.serve _ _ _ _ _ _ _ false _ _ _ _ rfl hcompared)).tail
    (@Fleet.Step.serve _ _ _ _ _ _ _ true _ _ _ _ rfl hasked)
  have hdone := (hserved.tail (@Fleet.Step.finish _ _ _ _ _ _ _ false _ rfl)).tail
    (@Fleet.Step.finish _ _ _ _ _ _ _ true _ rfl)
  exact ⟨_, hdone, rfl, rfl, rfl⟩

/-- A device whose reader is elsewhere synchronizes while another one pulls. -/
theorem server_record_stable_compare : ∃ t,
    Fleet.Run (fleet {.sync, .pull} (fun _ : Bool => sampleDevice)
        (samplePlaces ⟨some (ascii "/c"), 9⟩))
      ⟨sampleServer, fun _ => sampleBooks, Function.update (fun _ => none) true
        (some (messages samplePullEvents, (performed .pull sampleConfig samplePull).files))⟩ t ∧
    Stored sampleStore sampleIdentity (t.clients true) sampleRecord ∧
    t.clients false = (performed .sync sampleConfig sampleCompare).files ∧
    t.store sampleDocumentId = some sampleStored := by
  have hcompare : Operates {.sync, .pull} sampleDevice (sampleRead ⟨some (ascii "/c"), 9⟩)
      (messages sampleAgainEvents) (performed .sync sampleConfig sampleCompare).files :=
    .sample (by simp) (sample_sameDocument sampleCompare_runs.1) sampleCompare_runs.2
  obtain ⟨t, hrun, -, hpulled, hkept⟩ := @exists_run_compare Server Message Files
    (fleet {Kind.sync, Kind.pull} (fun _ : Bool => sampleDevice)
      (samplePlaces ⟨some (ascii "/c"), 9⟩)) sampleServer (fun _ => sampleBooks) _ _
    (performed .pull sampleConfig samplePull).files
    (sampleGet, sampleOutcome sampleGet sampleJson) _
    (sampleRead_visits _) hcompare serves_sampleGet_stored serves_sampleGet_stored
  refine ⟨t, hrun, hpulled ▸ samplePull_stored, hkept, ?_⟩
  refine server_record_stable (by simp) ?_ sampleServer_documentId hrun
  intro i ms final hjob m hm
  cases i with
  | false => cases hjob
  | true =>
    obtain ⟨rfl, -⟩ := Prod.mk.inj (Option.some.inj hjob)
    obtain rfl := List.mem_singleton.mp hm
    exact nofun

end Sample

end Kosync
