import CrossNook.App.ReaderSync
import CrossNook.Sync.ExplicitController

/-!
# The resolution of a conflict

What a user may choose after a manual sync that found two different positions
(`app/reader_conflict.c`): to push the local record, to pull the remote one, or neither. The
choice is refused unless the Reader and the stored record are as they were when it was offered.

## Main definitions

* `ReaderConflict.isConflict`: `cn_reader_sync_is_conflict`
* `ReaderConflict.resolveConflict`: `cn_reader_sync_resolve_conflict`
* `ReaderConflict.Guard`: the state in which a choice is carried out

## Main results

* `ReaderConflict.resolveConflict_safe`: what each choice may do
-/

namespace ReaderConflict

open Crash Kosync
open ProgressStore (Record)
open ReaderSync (Config openBook mismatched controllerFor applyRecord applyPersisted emptyResult
  IsNetwork)
open SyncController (StorePointer pushLocalCurrentBook pullRemoteCurrentBook)

/-- `cn_reader_conflict_choice`; `other` stands for the values without a name. -/
inductive Choice
  | cancel
  | useLocal
  | useRemote
  | other
  deriving DecidableEq, Repr

/-- `cn_reader_conflict_phase`. -/
inductive Phase
  | invalid
  | cancelled
  | stale
  | localComplete
  | remoteComplete
  | remoteApplied
  | remoteApplyFailed
  deriving DecidableEq, Repr

/-- `cn_reader_conflict_result`. -/
structure Result where
  phase : Phase
  localCheckResult : ProgressStore.Result
  push : SyncController.PushResult
  pull : SyncController.PullResult
  readerApply : ReaderSync.Result
  pushInvoked : Bool
  pullInvoked : Bool
  redrawNeeded : Bool
  diskReaderMismatchPossible : Bool
  deriving DecidableEq, Repr

/-! ## The result before a choice: all bytes are zero but for five fields -/

/-- The outcome of a request in a result that is zero. -/
def zeroOutcome : Outcome := ⟨0, .ok⟩

/-- `push` of the result. -/
def emptyPush : SyncController.PushResult where
  stage := .invalid
  outcome := .failure .internalFailure
  settingsResult := .ok
  credentialResult := .ok
  push :=
    { status := .invalid
      identityResult := .ok
      localLoadResult := .ok
      timeResult := .ok
      dnsResult := .ok
      kosyncResult := .ok
      kosyncOutcome := zeroOutcome
      putInvoked := false
      remoteUploaded := false
      localMutation := .none
      remoteMutation := .none }
  localMutation := .none
  remoteMutation := .none

/-- `pull` of the result. -/
def emptyPull : SyncController.PullResult where
  stage := .invalid
  outcome := .failure .internalFailure
  settingsResult := .ok
  credentialResult := .ok
  pull :=
    { status := .invalid
      identityResult := .ok
      timeResult := .ok
      dnsResult := .ok
      kosyncResult := .ok
      kosyncOutcome := zeroOutcome
      localSaveResult := .ok
      getAttempted := false
      localSaveAttempted := false
      localSaved := false }
  localMutation := .none
  remoteMutation := .none

/-- `reader_apply` of the result. -/
def emptyApply : ReaderSync.Result :=
  { emptyResult with
    preSaveResult := .ok
    importReloadResult := .ok
    controller := { emptyResult.controller with product := ⟨.disabled, .none, .none, .none⟩ } }

/-- The result before a choice. -/
def resultInit : Result where
  phase := .invalid
  localCheckResult := .invalid
  push := emptyPush
  pull := emptyPull
  readerApply := emptyApply
  pushInvoked := false
  pullInvoked := false
  redrawNeeded := false
  diskReaderMismatchPossible := false

/-! ## The resolution -/

variable {D P : Type} (E : Reader.Engine D P)

/-- `cn_reader_sync_is_conflict`. -/
def isConflict (original : Option ReaderSync.Result) : Bool :=
  match original with
  | none => false
  | some original =>
    original.phase = .controllerComplete ∧ original.preSaveAttempted ∧
      original.preSaveResult = .ok ∧ original.controllerInvoked ∧
      original.controller.stage = .integration ∧ original.controller.syncStatus = .ok ∧
      original.controller.decision = .ambiguous ∧
      original.controller.product.outcome = .conflict

/-- The branch `CN_READER_CONFLICT_USE_LOCAL`. -/
def useLocal (controller : SyncController.Config) (ui : Ui D) (result : Result) :
    Env (Result × Ui D) := do
  let push ← pushLocalCurrentBook (some controller)
  return ({ result with pushInvoked := true, push, phase := .localComplete }, ui)

/-- The branch `CN_READER_CONFLICT_USE_REMOTE`. -/
def useRemote (controller : SyncController.Config) (ui : Ui D) (store : StorePointer)
    (result : Result) : Env (Result × Ui D) := do
  let pull ← pullRemoteCurrentBook (some controller)
  let result := { result with pullInvoked := true, pull, phase := .remoteComplete }
  if pull.stage ≠ .executed ∨ pull.outcome ≠ .persisted then return (result, ui)
  else do
    let (readerApply, applied) ← applyPersisted E (some ui) (some store.store)
    let ui := applied.getD ui
    let result := { result with readerApply }
    if readerApply.phase ≠ .importApplied then
      return ({ result with phase := .remoteApplyFailed, diskReaderMismatchPossible := true }, ui)
    else
      return ({ result with
        phase := .remoteApplied, redrawNeeded := readerApply.redrawNeeded }, ui)

/-- `cn_reader_sync_resolve_conflict` after the book is checked. -/
def resolveBook (choice : Choice) (ui : Ui D) (store : StorePointer)
    (controller : SyncController.Config) (expected : Record) (path : List UInt8)
    (identity : BookIdentity) : Env (Result × Ui D) := do
  let (code, current) ← ui.readerGetPosition E recordInit
  if code ≠ 0 ∨ current ≠ expected then return ({ resultInit with phase := .stale }, ui)
  else do
    let (localCheckResult, stored) ← loadRecord store.store identity
    let result := { resultInit with localCheckResult }
    if localCheckResult ≠ .ok ∨ stored ≠ expected then
      return ({ result with phase := .stale }, ui)
    else if choice = .useLocal then useLocal (controllerFor controller path store) ui result
    else useRemote E (controllerFor controller path store) ui store result

/-- `cn_reader_sync_resolve_conflict` after the arguments are checked. -/
def resolveOpen (choice : Choice) (ui : Ui D) (store : StorePointer)
    (controller : SyncController.Config) (expected : Record) (path : List UInt8) :
    Env (Result × Ui D) :=
  if ui.state ≠ .reader ∨ ui.readerPages < 1 ∨ ui.selectedBook ≠ some ⟨some path, .epub⟩ ∨
      mismatched controller path store then
    return ({ resultInit with phase := .stale }, ui)
  else
    match BookIdentity.fromPath (some path) with
    | none => return ({ resultInit with phase := .stale }, ui)
    | some identity => resolveBook E choice ui store controller expected path identity

/-- The arguments of a choice that passed the first check. -/
def accepted (config : Option (Config D)) (original : Option ReaderSync.Result)
    (expectedPosition : Option Record) (expectedBookPath : Option (List UInt8)) :
    Option (Ui D × StorePointer × SyncController.Config × Record × List UInt8) := do
  let config ← config
  let ui ← config.ui
  let store ← config.progressStore
  let controller ← config.controller
  let expected ← expectedPosition
  let _ ← expected.location
  let path ← expectedBookPath
  if ¬ isConflict original ∨ path = [] then none
  else some (ui, store, controller, expected, path)

/-- `cn_reader_sync_resolve_conflict`, with the user interface that it leaves. -/
def resolveConflict (config : Option (Config D)) (original : Option ReaderSync.Result)
    (expectedPosition : Option Record) (expectedBookPath : Option (List UInt8)) (choice : Choice) :
    Env (Result × Option (Ui D)) :=
  let ui := config.bind Config.ui
  if choice = .cancel then return ({ resultInit with phase := .cancelled }, ui)
  else if choice = .other then return (resultInit, ui)
  else
    match accepted config original expectedPosition expectedBookPath with
    | none => return (resultInit, ui)
    | some (ui, store, controller, expected, path) => do
      let (result, ui) ← resolveOpen E choice ui store controller expected path
      return (result, some ui)

/-! ## What a choice may do -/

/-- What a choice is about: the open book, its stores, and the position that it was offered for. -/
structure Offer (D : Type) where
  ui : Ui D
  store : StorePointer
  controller : SyncController.Config
  expected : Record
  path : List UInt8
  identity : BookIdentity

/-- The state in which a choice is carried out: it was offered for a conflict, the same book is
open, and the position of the Reader and the stored record both equal the expected position. -/
structure Guard (config : Option (Config D)) (original : Option ReaderSync.Result)
    (expectedPosition : Option Record) (expectedBookPath : Option (List UInt8)) (w : World)
    (offer : Offer D) : Prop where
  config_eq : config = some ⟨some offer.ui, some offer.store, some offer.controller⟩
  conflict : isConflict original = true
  position_eq : expectedPosition = some offer.expected
  path_eq : expectedBookPath = some offer.path
  open_eq : openBook offer.ui = some offer.path
  identity_eq : BookIdentity.fromPath (some offer.path) = some offer.identity
  reader : ∃ w', offer.ui.readerGetPosition E recordInit w = (some (0, offer.expected), w')
  stored : Stored offer.store.store offer.identity w.files offer.expected

/-- The world after a program that neither wrote nor used the network. -/
def Idle (w w' : World) : Prop :=
  w'.files = w.files ∧
    ∃ events, w'.events = w.events ++ events ∧ ∀ e ∈ events, ¬ IsNetwork e ∧ e.isSave = false

/-- The stored record is as it was: its file is, and where no symbolic link stands for the file,
what it says. -/
structure Unchanged (offer : Offer D) (w w' : World) : Prop where
  kept : Kosync.Kept offer.store.store offer.identity w.files w'.files
  stored : (∀ token node, offer.identity.token = some token →
      w.files (offer.store.store.path token) = some node → ∀ target, node.kind ≠ .symlink target) →
    Stored offer.store.store offer.identity w'.files offer.expected

/-- The Reader was moved to exactly the stored position. -/
structure Applied (offer : Offer D) (r : Result × Option (Ui D)) (w' : World) : Prop where
  phase : r.1.phase = .remoteApplied
  moved : ∃ loaded ui', Stored offer.store.store offer.identity w'.files loaded ∧
    offer.ui.readerGotoPosition E loaded = (0, ui') ∧ r.2 = some ui'

/-- What a choice that returns may have done. -/
structure Safe (config : Option (Config D)) (original : Option ReaderSync.Result)
    (expectedPosition : Option Record) (expectedBookPath : Option (List UInt8)) (choice : Choice)
    (w : World) (r : Result × Option (Ui D)) (w' : World) : Prop where
  exclusive : ¬ (r.1.pushInvoked = true ∧ r.1.pullInvoked = true)
  pushed : r.1.pushInvoked = true → choice = .useLocal ∧
    ∃ offer, Guard E config original expectedPosition expectedBookPath w offer
  pulled : r.1.pullInvoked = true → choice = .useRemote ∧
    ∃ offer, Guard E config original expectedPosition expectedBookPath w offer ∧
      (Unchanged offer w w' ∨ Applied E offer r w' ∨ r.1.diskReaderMismatchPossible = true)
  cancelled : choice = .cancel → r.1.phase = .cancelled
  idle : r.1.phase ∈ [Phase.invalid, .cancelled, .stale] →
    Idle w w' ∧ r.1.pushInvoked = false ∧ r.1.pullInvoked = false
  useLocal : choice = .useLocal → w'.files = w.files ∧ r.2 = config.bind Config.ui
  useRemote : choice = .useRemote → PullTrace w w'
  moved : r.1.phase ≠ .remoteApplied → r.2 = config.bind Config.ui

/-- What a choice that is killed may have done. -/
inductive Killed (config : Option (Config D)) (original : Option ReaderSync.Result)
    (expectedPosition : Option Record) (expectedBookPath : Option (List UInt8)) (choice : Choice)
    (w : World) : World → Prop
  | idle {w' : World} (h : Idle w w') :
    Killed config original expectedPosition expectedBookPath choice w w'
  | pushed {offer : Offer D} {w' : World} (hchoice : choice = .useLocal)
    (hguard : Guard E config original expectedPosition expectedBookPath w offer)
    (h : PushTrace w w') : Killed config original expectedPosition expectedBookPath choice w w'
  | pulled {offer : Offer D} {w' : World} (hchoice : choice = .useRemote)
    (hguard : Guard E config original expectedPosition expectedBookPath w offer)
    (h : PullTrace w w') : Killed config original expectedPosition expectedBookPath choice w w'

theorem Idle.refl (w : World) : Idle w w := ⟨rfl, [], by simp, by simp⟩

theorem idle_of_quiet {w w' : World} (h : Quiet w w') (he : w'.events = w.events) : Idle w w' :=
  ⟨h.files_eq, [], by simp [he], by simp⟩

theorem idle_of_load {w w' : World} {identity : BookIdentity} {result : ProgressStore.Result}
    (h : Read 0 [.load identity result] w w') : Idle w w' :=
  ⟨h.1.files_eq, _, h.2.1, by simp [IsNetwork, Event.isSave]⟩

theorem Idle.trans {w w' w'' : World} (h : Idle w w') (h' : Idle w' w'') : Idle w w'' := by
  obtain ⟨hf, events, he, hall⟩ := h
  obtain ⟨hf', events', he', hall'⟩ := h'
  refine ⟨hf'.trans hf, events ++ events', by rw [he', he, List.append_assoc], ?_⟩
  intro e hmem
  rcases List.mem_append.mp hmem with hmem | hmem
  exacts [hall e hmem, hall' e hmem]

/-- **What an already persisted record does to the Reader**: it is moved to exactly the stored
position, or it is not moved. -/
theorem ends_applyPersisted {ui : Ui D} {store : ProgressStore.Store} {path : List UInt8}
    {identity : BookIdentity} {w : World} (hopen : openBook ui = some path)
    (hidentity : BookIdentity.fromPath (some path) = some identity) :
    Ends (applyPersisted E (some ui) (some store)) w
      (fun r w' => (∃ result, Read 0 [.load identity result] w w') ∧
        ((r.1.phase = .importApplied ∧ ∃ loaded ui', Stored store identity w.files loaded ∧
            ui.readerGotoPosition E loaded = (0, ui') ∧ r.2 = some ui') ∨
          (r.1.phase ≠ .importApplied ∧ r.2 = some ui)))
      (Read 0 [] w) := by
  unfold applyPersisted
  dsimp only
  rw [hopen]
  dsimp only
  rw [hidentity]
  dsimp only
  unfold applyRecord
  rw [ends_bind, ends_bind]
  refine (ends_loadRecord store identity).mono ?_ fun _ h => h
  rintro ⟨importReloadResult, loaded⟩ w' ⟨hread, hloads⟩
  dsimp only
  by_cases hok : importReloadResult ≠ .ok
  · rw [if_pos hok]
    exact ⟨⟨_, hread⟩, .inr ⟨by simp, rfl⟩⟩
  rw [if_neg hok]
  obtain rfl := not_not.mp hok
  have hstored := hloads.stored
  -- a move that fails leaves the Reader where it is
  have hfailed : (ui.readerGotoPosition E loaded).1 ≠ 0 → (ui.readerGotoPosition E loaded).2 = ui :=
    Ui.readerGotoPosition_of_failed E
  rcases hgoto : ui.readerGotoPosition E loaded with ⟨code, ui'⟩
  rw [hgoto] at hfailed
  dsimp only at hfailed ⊢
  by_cases hcode : code ≠ 0
  · rw [if_pos hcode]
    exact ⟨⟨_, hread⟩, .inr ⟨by simp, congrArg some (hfailed hcode)⟩⟩
  · rw [if_neg hcode]
    obtain rfl := not_not.mp hcode
    exact ⟨⟨_, hread⟩, .inl ⟨rfl, loaded, ui', hstored, hgoto, rfl⟩⟩

theorem accepted_eq_some {config : Option (Config D)} {original : Option ReaderSync.Result}
    {expectedPosition : Option Record} {expectedBookPath : Option (List UInt8)} {ui : Ui D}
    {store : StorePointer} {controller : SyncController.Config} {expected : Record}
    {path : List UInt8} (h : accepted config original expectedPosition expectedBookPath =
      some (ui, store, controller, expected, path)) :
    config = some ⟨some ui, some store, some controller⟩ ∧ isConflict original = true ∧
      expectedPosition = some expected ∧ expectedBookPath = some path ∧ path ≠ [] := by
  unfold accepted at h
  simp only [Option.bind_eq_bind, Option.bind_eq_some_iff] at h
  obtain ⟨⟨_, _, _⟩, rfl, _, rfl, _, rfl, _, rfl, _, rfl, _, -, _, rfl, h⟩ := h
  split_ifs at h with hfail
  obtain ⟨rfl, rfl, rfl, rfl, rfl⟩ := by simpa using h
  simp only [not_or, not_not] at hfail
  exact ⟨rfl, hfail.1, rfl, rfl, hfail.2⟩

/-- The check of the book is that of a manual sync. -/
theorem openBook_of_selected {ui : Ui D} {path : List UInt8} (hne : path ≠ [])
    (hstate : ¬ (ui.state ≠ .reader ∨ ui.readerPages < 1))
    (hselected : ui.selectedBook = some ⟨some path, .epub⟩) : openBook ui = some path := by
  unfold openBook
  rw [if_neg hstate, hselected]
  exact if_pos hne

section Runs

variable {config : Option (Config D)} {original : Option ReaderSync.Result}
  {expectedPosition : Option Record} {expectedBookPath : Option (List UInt8)} {choice : Choice}
  {offer : Offer D} {result : Result} {w₀ w : World}

/-- The push of the local record. -/
theorem ends_useLocal (hchoice : choice = .useLocal)
    (hguard : Guard E config original expectedPosition expectedBookPath w₀ offer)
    (hpull : result.pullInvoked = false) (controller : SyncController.Config)
    {events : List Event} (hread : Read 0 events w₀ w) :
    Ends (useLocal controller offer.ui result) w
      (fun r w' =>
        Safe E config original expectedPosition expectedBookPath choice w₀ (r.1, some r.2) w')
      (Killed E config original expectedPosition expectedBookPath choice w₀) := by
  unfold useLocal
  have hui : config.bind Config.ui = some offer.ui := by
    rw [hguard.config_eq]
    rfl
  rw [ends_bind]
  refine (SyncController.ends_pushLocalCurrentBook _ _).mono ?_
    fun w' h => .pushed hchoice hguard (SyncController.pushTrace_after hread h)
  intro push w' htrace
  exact
    { exclusive := by simp [hpull]
      pushed := fun _ => ⟨hchoice, offer, hguard⟩
      pulled := by simp [hpull]
      cancelled := by simp [hchoice]
      idle := by simp
      useLocal := fun _ => ⟨(SyncController.pushTrace_after hread htrace).1, hui.symm⟩
      useRemote := by simp [hchoice]
      moved := fun _ => hui.symm }

/-- A pull that did not persist a record leaves the stored one as it is. -/
theorem unchanged_of_pull (hstored : Stored offer.store.store offer.identity w₀.files offer.expected)
    (hidentity : BookIdentity.fromPath (some offer.path) = some offer.identity)
    (hfiles : w.files = w₀.files) {w' : World} {pull : SyncController.PullResult}
    (h : SyncController.PullRan
      (some (controllerFor offer.controller offer.path offer.store)) w pull w')
    (hfail : pull.stage ≠ .executed ∨ pull.outcome ≠ .persisted) : Unchanged offer w₀ w' := by
  have hkept : Kosync.Kept offer.store.store offer.identity w₀.files w'.files := by
    cases h with
    | stopped hread => exact .of_eq (hread.1.files_eq.trans hfiles)
    | @executed resolved hresolved client hclient w₁ _ hread pull hpulled output =>
      obtain ⟨c, settings, credentials, _, _, hc, -, -, -, -, -, -, rfl⟩ := hresolved.exists_config
      obtain rfl := Option.some.inj hc
      have hs : pull.status ≠ .persisted := by
        intro hpersisted
        rcases hfail with hfail | hfail
        · exact hfail rfl
        · exact hfail (by simp [SyncController.PullResult.executed, SyncController.classifyPull,
            hpersisted])
      intro path hpath
      rw [hpulled.kept rfl hidentity hs path hpath, hread.1.files_eq, hfiles]
  refine ⟨hkept, fun hlink => ?_⟩
  obtain ⟨token, node, ht, hfile⟩ := hstored.exists_file
  exact hkept.stored ht hfile (hlink token node ht hfile) hstored

/-- The pull of the remote record. -/
theorem ends_useRemote (hchoice : choice = .useRemote)
    (hguard : Guard E config original expectedPosition expectedBookPath w₀ offer)
    (hpush : result.pushInvoked = false) {events : List Event} (hread : Read 0 events w₀ w) :
    Ends (useRemote E (controllerFor offer.controller offer.path offer.store) offer.ui offer.store
        result) w
      (fun r w' =>
        Safe E config original expectedPosition expectedBookPath choice w₀ (r.1, some r.2) w')
      (Killed E config original expectedPosition expectedBookPath choice w₀) := by
  unfold useRemote
  rw [ends_bind]
  refine (SyncController.ends_pullRemoteCurrentBook _ _).mono ?_
    fun w' h => .pulled hchoice hguard (SyncController.pullTrace_after hread h)
  rintro pull w₁ ⟨hran, htrace⟩
  replace htrace := SyncController.pullTrace_after hread htrace
  have hui : config.bind Config.ui = some offer.ui := by
    rw [hguard.config_eq]
    rfl
  dsimp only
  -- a pull that did not persist leaves the position
  by_cases hfail : pull.stage ≠ .executed ∨ pull.outcome ≠ .persisted
  · rw [if_pos hfail]
    have hunchanged := unchanged_of_pull hguard.stored hguard.identity_eq hread.1.files_eq hran hfail
    exact
      { exclusive := by simp [hpush]
        pushed := by simp [hpush]
        pulled := fun _ => ⟨hchoice, offer, hguard, .inl hunchanged⟩
        cancelled := by simp [hchoice]
        idle := by simp
        useLocal := by simp [hchoice]
        useRemote := fun _ => htrace
        moved := fun _ => hui.symm }
  -- what was persisted is loaded again, and the reader goes there or not
  rw [if_neg hfail, ends_bind]
  refine (ends_applyPersisted E hguard.open_eq hguard.identity_eq).mono ?_
    fun w' h => .pulled hchoice hguard (SyncController.pullTrace_before htrace h)
  rintro ⟨readerApply, applied⟩ w₂ ⟨⟨loaded, hload⟩, happly⟩
  have htrace₂ := SyncController.pullTrace_before htrace hload
  dsimp only at happly ⊢
  rcases happly with ⟨hphase, loaded, ui', hstored, hgoto, rfl⟩ | ⟨hphase, rfl⟩
  · rw [if_neg (not_not.mpr hphase)]
    refine
      { exclusive := by simp [hpush]
        pushed := by simp [hpush]
        pulled := fun _ => ⟨hchoice, offer, hguard, .inr (.inl ⟨rfl, loaded, ui', ?_, hgoto, rfl⟩)⟩
        cancelled := by simp [hchoice]
        idle := by simp
        useLocal := by simp [hchoice]
        useRemote := fun _ => htrace₂
        moved := by simp }
    rwa [hload.1.files_eq]
  · rw [if_pos hphase]
    exact
      { exclusive := by simp [hpush]
        pushed := by simp [hpush]
        pulled := fun _ => ⟨hchoice, offer, hguard, .inr (.inr rfl)⟩
        cancelled := by simp [hchoice]
        idle := by simp
        useLocal := by simp [hchoice]
        useRemote := fun _ => htrace₂
        moved := fun _ => hui.symm }

/-- The choices that are refused do nothing. -/
theorem safe_idle {r : Result} {w' : World} (hphase : choice = .cancel → r.phase = .cancelled)
    (hidle : Idle w₀ w') (hpush : r.pushInvoked = false) (hpull : r.pullInvoked = false)
    (hremote : choice = .useRemote → PullTrace w₀ w') :
    Safe E config original expectedPosition expectedBookPath choice w₀
      (r, config.bind Config.ui) w' where
  exclusive := by simp [hpush]
  pushed := by simp [hpush]
  pulled := by simp [hpull]
  cancelled := hphase
  idle := fun _ => ⟨hidle, hpush, hpull⟩
  useLocal := fun _ => ⟨hidle.1, rfl⟩
  useRemote := hremote
  moved := fun _ => rfl

theorem ends_resolveBook (offer : Offer D) (hchoice : choice = .useLocal ∨ choice = .useRemote)
    (haccepted : accepted config original expectedPosition expectedBookPath =
      some (offer.ui, offer.store, offer.controller, offer.expected, offer.path))
    (hopen : openBook offer.ui = some offer.path)
    (hidentity : BookIdentity.fromPath (some offer.path) = some offer.identity) :
    Ends (resolveBook E choice offer.ui offer.store offer.controller offer.expected offer.path
        offer.identity) w
      (fun r w' =>
        Safe E config original expectedPosition expectedBookPath choice w (r.1, some r.2) w')
      (Killed E config original expectedPosition expectedBookPath choice w) := by
  obtain ⟨hconfig, hconflict, hposition, hpath, -⟩ := accepted_eq_some haccepted
  have hui : some offer.ui = config.bind Config.ui := by
    rw [hconfig]
    rfl
  have hcancel : choice ≠ .cancel := by rcases hchoice with rfl | rfl <;> decide
  unfold resolveBook
  rw [ends_bind]
  refine ((ends_run _ _).and (offer.ui.ends_readerGetPosition E recordInit w)).mono ?_
    fun w' h => .idle (idle_of_quiet h.2.1 h.2.2)
  rintro ⟨code, current⟩ w₁ ⟨hget, hq, he⟩
  have hread := hq.read he
  have hidle := idle_of_quiet hq he
  dsimp only
  -- the position of the Reader is the expected one
  by_cases hreader : code ≠ 0 ∨ current ≠ offer.expected
  · rw [if_pos hreader, ends_pure, hui]
    exact safe_idle E (fun h => absurd h hcancel) hidle rfl rfl
      fun _ => hread.pullTrace zero_le_one
  rw [if_neg hreader, ends_bind]
  simp only [not_or, not_not] at hreader
  obtain ⟨rfl, rfl⟩ := hreader
  refine (ends_loadRecord offer.store.store offer.identity).mono ?_
    fun w' h => .idle (hidle.trans (idle_of_quiet h.1 (by simpa using h.2.1)))
  rintro ⟨localCheckResult, stored⟩ w₂ ⟨hload, hloads⟩
  have hread₂ := hread.trans hload
  dsimp only at hload hloads hread₂ ⊢
  -- and so is the stored record
  by_cases hlocal : localCheckResult ≠ .ok ∨ stored ≠ offer.expected
  · rw [if_pos hlocal, ends_pure, hui]
    exact safe_idle E (fun h => absurd h hcancel) (hidle.trans (idle_of_load hload)) rfl rfl
      fun _ => hread₂.pullTrace zero_le_one
  rw [if_neg hlocal]
  simp only [not_or, not_not] at hlocal
  obtain ⟨rfl, rfl⟩ := hlocal
  have hstored : Stored offer.store.store offer.identity w.files offer.expected := by
    rw [← hq.files_eq]
    exact hloads.stored
  -- nothing has changed since the choice was offered
  have hguard : Guard E config original expectedPosition expectedBookPath w offer :=
    ⟨hconfig, hconflict, hposition, hpath, hopen, hidentity, ⟨w₁, hget⟩, hstored⟩
  rcases hchoice with rfl | rfl
  · rw [if_pos rfl]
    exact ends_useLocal E rfl hguard rfl _ hread₂
  · rw [if_neg (by decide)]
    exact ends_useRemote E rfl hguard rfl hread₂

end Runs

/-- **A choice is safe.** It runs at most one of the push and the pull, and only for a conflict,
with the same book open and the position of the Reader and the stored record both as they were
when the choice was offered. A choice that is cancelled, invalid or stale does nothing but read.
The local choice changes neither the record nor the Reader, the remote one makes no PUT: where
the stored record is no longer the expected one, the Reader was moved to exactly the stored
position, or the result says that the two may differ. -/
theorem resolveConflict_safe (config : Option (Config D)) (original : Option ReaderSync.Result)
    (expectedPosition : Option Record) (expectedBookPath : Option (List UInt8)) (choice : Choice)
    (w : World) :
    Ends (resolveConflict E config original expectedPosition expectedBookPath choice) w
      (Safe E config original expectedPosition expectedBookPath choice w)
      (Killed E config original expectedPosition expectedBookPath choice w) := by
  have htrace := (Read.refl w).pullTrace zero_le_one
  unfold resolveConflict
  dsimp only
  -- what is refused before the offer is looked at only reads
  by_cases hcancel : choice = .cancel
  · rw [if_pos hcancel]
    exact safe_idle E (fun _ => rfl) (.refl w) rfl rfl fun _ => htrace
  rw [if_neg hcancel]
  by_cases hother : choice = .other
  · rw [if_pos hother]
    exact safe_idle E (fun h => absurd h hcancel) (.refl w) rfl rfl fun _ => htrace
  rw [if_neg hother]
  have hchoice : choice = .useLocal ∨ choice = .useRemote := by
    cases choice with
    | cancel => exact absurd rfl hcancel
    | useLocal => exact .inl rfl
    | useRemote => exact .inr rfl
    | other => exact absurd rfl hother
  cases haccepted : accepted config original expectedPosition expectedBookPath with
  | none => exact safe_idle E (fun h => absurd h hcancel) (.refl w) rfl rfl fun _ => htrace
  | some arguments =>
    obtain ⟨ui, store, controller, expected, path⟩ := arguments
    obtain ⟨hconfig, -, -, -, hne⟩ := accepted_eq_some haccepted
    -- an offer that is out of date ends in the same way
    have hstale : Safe E config original expectedPosition expectedBookPath choice w
        ({ resultInit with phase := .stale }, config.bind Config.ui) w :=
      safe_idle E (fun h => absurd h hcancel) (.refl w) rfl rfl fun _ => htrace
    have hui : config.bind Config.ui = some ui := by
      rw [hconfig]
      rfl
    rw [hui] at hstale
    dsimp only
    rw [ends_bind]
    unfold resolveOpen
    by_cases hbook : ui.state ≠ .reader ∨ ui.readerPages < 1 ∨
        ui.selectedBook ≠ some ⟨some path, .epub⟩ ∨ mismatched controller path store
    · rw [if_pos hbook]
      exact hstale
    rw [if_neg hbook]
    simp only [not_or, not_not] at hbook
    have hopen : openBook ui = some path :=
      openBook_of_selected hne (by simp only [not_or, not_not]; exact ⟨hbook.1, hbook.2.1⟩)
        hbook.2.2.1
    cases hidentity : BookIdentity.fromPath (some path) with
    | none => exact hstale
    | some identity =>
      exact ends_resolveBook E ⟨ui, store, controller, expected, path, identity⟩ hchoice haccepted
        hopen hidentity

end ReaderConflict
