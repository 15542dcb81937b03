import CrossNook.App.Reader
import CrossNook.Sync.Controller
import CrossNook.Sync.Records

/-!
# The manual sync of the Reader

The synchronization that a user asks for from an open book (`app/reader_sync.c`): the position of
the Reader is captured and saved before the controller runs, and an imported record would be
applied to the Reader after it.

## Main definitions

* `ReaderSync.Config`, `ReaderSync.Result`: `cn_reader_sync_config`, `cn_reader_sync_result`
* `ReaderSync.manualOnce`: `cn_reader_sync_manual_once`
* `ReaderSync.applyPersisted`: `cn_reader_sync_apply_persisted`

## Main results

* `ReaderSync.manualOnce_keeps_position`: the controller runs after the position is stored, and
  the position stays stored
-/

namespace ReaderSync

open Crash Kosync
open SyncController (StorePointer syncCurrentBook)

/-- `cn_reader_sync_phase`. -/
inductive Phase
  | invalid
  | notOpen
  | configMismatch
  | identityFailed
  | captureFailed
  | preSaveFailed
  | controllerComplete
  | importReloadFailed
  | importApplyFailed
  | importApplied
  deriving DecidableEq, Repr

/-- `cn_reader_sync_config`, with `none` for `NULL`. -/
structure Config (D : Type) where
  ui : Option (Ui D)
  progressStore : Option StorePointer
  controller : Option SyncController.Config

/-- `cn_reader_sync_result`. -/
structure Result where
  phase : Phase
  preSaveResult : ProgressStore.Result
  importReloadResult : ProgressStore.Result
  controller : SyncController.Result
  preSaveAttempted : Bool
  controllerInvoked : Bool
  redrawNeeded : Bool
  movementPossible : Bool
  diskReaderMismatchPossible : Bool
  deriving DecidableEq, Repr

/-- The controller result of `empty_result`: all bytes are zero but for three fields. -/
def emptyController : SyncController.Result where
  stage := .invalid
  product := ⟨.internalFailure, .explicitAction, .none, .none⟩
  settingsResult := .ok
  credentialResult := .ok
  syncStatus := .ok
  decision := .none
  localLoadResult := .ok
  localSaveResult := .ok
  timeResult := .ok
  dnsResult := .ok
  kosyncResult := .ok
  transportResult := .ok
  localSaveAttempted := false
  remotePutAttempted := false
  localSaved := false
  remoteUploaded := false
  mutationEvidenceConservative := false

/-- `empty_result`. -/
def emptyResult : Result where
  phase := .invalid
  preSaveResult := .invalid
  importReloadResult := .invalid
  controller := emptyController
  preSaveAttempted := false
  controllerInvoked := false
  redrawNeeded := false
  movementPossible := false
  diskReaderMismatchPossible := false

variable {D P : Type} (E : Reader.Engine D P)

/-- `open_book`: the path of the EPUB that the Reader shows. -/
def openBook (ui : Ui D) : Option (List UInt8) :=
  if ui.state ≠ .reader ∨ ui.readerPages < 1 then none
  else
    match ui.selectedBook with
    | some ⟨some path, .epub⟩ => if path ≠ [] then some path else none
    | _ => none

/-- `apply_record`, on the result of the caller; with the user interface that it leaves. -/
def applyRecord (result : Result) (ui : Ui D) (store : ProgressStore.Store)
    (identity : BookIdentity) : Env (Result × Ui D) := do
  let (importReloadResult, loaded) ← loadRecord store identity
  let result := { result with importReloadResult }
  if importReloadResult ≠ .ok then
    return ({ result with phase := .importReloadFailed, diskReaderMismatchPossible := true }, ui)
  else
    let (code, ui) := ui.readerGotoPosition E loaded
    if code ≠ 0 then
      return ({ result with phase := .importApplyFailed, diskReaderMismatchPossible := true }, ui)
    else
      return ({ result with phase := .importApplied, movementPossible := true,
                            redrawNeeded := true }, ui)

/-- `cn_reader_sync_apply_persisted`. -/
def applyPersisted (ui : Option (Ui D)) (store : Option ProgressStore.Store) :
    Env (Result × Option (Ui D)) :=
  match ui with
  | none => return ({ emptyResult with phase := .notOpen }, none)
  | some ui =>
    match openBook ui with
    | none => return ({ emptyResult with phase := .notOpen }, some ui)
    | some path =>
      match store, BookIdentity.fromPath (some path) with
      | none, _ => return (emptyResult, some ui)
      | some _, none => return ({ emptyResult with phase := .identityFailed }, some ui)
      | some store, some identity => do
        let (result, ui) ← applyRecord E emptyResult ui store identity
        return (result, some ui)

/-- The controller is configured for another book or another store. -/
def mismatched (controller : SyncController.Config) (path : List UInt8) (store : StorePointer) :
    Bool :=
  controller.documentPath.any (· ≠ path) || controller.progressStore.any (·.address ≠ store.address)

/-- The copy of the controller configuration for the open book. -/
def controllerFor (controller : SyncController.Config) (path : List UInt8) (store : StorePointer) :
    SyncController.Config :=
  { controller with documentPath := some path, progressStore := some store }

/-- `cn_reader_sync_manual_once` after the position is captured. -/
def syncCaptured (ui : Ui D) (store : StorePointer) (controller : SyncController.Config)
    (path : List UInt8) (identity : BookIdentity) (captured : ProgressStore.Record) :
    Env (Result × Ui D) := do
  let saved ← saveRecord store.store identity captured
  let result := { emptyResult with preSaveAttempted := true, preSaveResult := saved }
  if saved ≠ .ok then return ({ result with phase := .preSaveFailed }, ui)
  else do
    let controller ← syncCurrentBook (some (controllerFor controller path store))
    let result := { result with
      controllerInvoked := true, controller, phase := .controllerComplete }
    if controller.stage = .integration ∧ controller.product.outcome = .imported then
      applyRecord E result ui store.store identity
    else return (result, ui)

/-- `cn_reader_sync_manual_once` with a user interface, a store and a controller. -/
def manualOpen (ui : Ui D) (store : StorePointer) (controller : SyncController.Config) :
    Env (Result × Ui D) :=
  match openBook ui with
  | none => return ({ emptyResult with phase := .notOpen }, ui)
  | some path =>
    if mismatched controller path store then
      return ({ emptyResult with phase := .configMismatch }, ui)
    else
      match BookIdentity.fromPath (some path) with
      | none => return ({ emptyResult with phase := .identityFailed }, ui)
      | some identity => do
        let (code, captured) ← ui.readerGetPosition E recordInit
        if code ≠ 0 then return ({ emptyResult with phase := .captureFailed }, ui)
        else syncCaptured E ui store controller path identity captured

/-- `cn_reader_sync_manual_once`, with the user interface that it leaves. -/
def manualOnce (config : Option (Config D)) : Env (Result × Option (Ui D)) :=
  match config with
  | some ⟨some ui, some store, some controller⟩ => do
    let (result, ui) ← manualOpen E ui store controller
    return (result, some ui)
  | config => return (emptyResult, config.bind Config.ui)

/-! ## The position that is kept -/

/-- The phases before the controller. -/
def Phase.BeforeController (phase : Phase) : Prop :=
  phase ∈ [.invalid, .notOpen, .configMismatch, .identityFailed, .captureFailed, .preSaveFailed]

/-- An event of the network. -/
def IsNetwork : Event → Prop
  | .time _ | .dns _ _ | .exchange _ _ => True
  | _ => False

/-- The world after a program that used no network. -/
def Offline (w w' : World) : Prop :=
  ∃ events, w'.events = w.events ++ events ∧ ∀ e ∈ events, ¬ IsNetwork e

theorem Offline.of_eq {w w' : World} (h : w'.events = w.events) : Offline w w' :=
  ⟨[], by rw [h, List.append_nil], fun _ h => by cases h⟩

/-- A position of the open book that was captured and stored, from the world `w` to `w'`. -/
structure Captured (config : Option (Config D)) (w : World) (ui : Ui D) (store : StorePointer)
    (controller : SyncController.Config) (path : List UInt8) (identity : BookIdentity)
    (position : ProgressStore.Record) (w' : World) : Prop where
  config_eq : config = some ⟨some ui, some store, some controller⟩
  open_eq : openBook ui = some path
  identity_eq : BookIdentity.fromPath (some path) = some identity
  saved : ∃ w₁, ui.readerGetPosition E recordInit w = (some (0, position), w₁) ∧
    saveRecord store.store identity position w₁ = (some .ok, w')

/-- A manual sync that returns: where the controller ran, it ran from a world where the position of
the Reader was stored, and the position still is. -/
structure Kept (config : Option (Config D)) (w : World) (r : Result × Option (Ui D))
    (w' : World) : Prop where
  invoked : r.1.controllerInvoked = true → ∃ ui store controller path identity position w₁,
    Captured E config w ui store controller path identity position w₁ ∧
      syncCurrentBook (some (controllerFor controller path store)) w₁ =
        (some r.1.controller, w') ∧
      Stored store.store identity w'.files position ∧ r.1.phase = .controllerComplete
  not_imported : r.1.controller.decision ≠ .remoteSelected
  before : r.1.controllerInvoked = false → r.1.phase.BeforeController
  offline : r.1.phase.BeforeController → Offline w w'
  ui_eq : r.2 = config.bind Config.ui

/-- A manual sync that is killed: before the controller, or in it after the position of the Reader
was stored. -/
inductive Killed (config : Option (Config D)) (w : World) : World → Prop
  | before {w' : World} (h : Offline w w') : Killed config w w'
  | invoked {ui : Ui D} {store : StorePointer} {controller : SyncController.Config}
    {path : List UInt8} {identity : BookIdentity} {position : ProgressStore.Record} {w₁ w' : World}
    (hcaptured : Captured E config w ui store controller path identity position w₁)
    (h : syncCurrentBook (some (controllerFor controller path store)) w₁ = (none, w')) :
    Killed config w w'

/-- **The controller does not change a stored record** and imports none. -/
theorem ran_of_stored {controller : SyncController.Config} {path : List UInt8}
    {store : StorePointer} {identity : BookIdentity} {position : ProgressStore.Record}
    {result : SyncController.Result} {w w' : World}
    (h : SyncController.Ran (some (controllerFor controller path store)) w result w')
    (hidentity : BookIdentity.fromPath (some path) = some identity)
    (hstored : Stored store.store identity w.files position) :
    w'.files = w.files ∧ result.decision ≠ .remoteSelected ∧
      ¬ (result.stage = .integration ∧ result.product.outcome = .imported) := by
  cases h with
  | stopped hread hd hs =>
    exact ⟨hread.1.files_eq, by simp [hd], fun h => hs h.1⟩
  | @integrated resolved hresolved client hclient w₁ _ hread sync hsync output hd =>
    obtain ⟨c, settings, credentials, _, _, hc, -, -, -, -, -, -, rfl⟩ := hresolved.exists_config
    obtain rfl := Option.some.inj hc
    have hstored₁ : Stored store.store identity w₁.files position := by
      rwa [hread.1.files_eq]
    obtain ⟨hfiles, hdecision⟩ := syncOnce_of_stored rfl hidentity hstored₁ hsync
    have hconsistent := (ends_syncOnce_consistent _ _).of_eq hsync
    refine ⟨hfiles.trans hread.1.files_eq, by rwa [output.integrated_decision], ?_⟩
    rintro ⟨-, hproduct⟩
    rw [(output.integrated_spec hconsistent).2] at hproduct
    exact hdecision (hconsistent.understood.verdict.imported.mp hproduct).2

section Runs

variable {ui : Ui D} {store : StorePointer} {controller : SyncController.Config}
  {path : List UInt8} {identity : BookIdentity} {position : ProgressStore.Record} {w w₁ : World}

theorem ends_syncCaptured (hopen : openBook ui = some path)
    (hidentity : BookIdentity.fromPath (some path) = some identity)
    (hget : ui.readerGetPosition E recordInit w = (some (0, position), w₁))
    (he : w₁.events = w.events) :
    Ends (syncCaptured E ui store controller path identity position) w₁
      (fun r w' => Kept E (some ⟨some ui, some store, some controller⟩) w (r.1, some r.2) w')
      (Killed E (some ⟨some ui, some store, some controller⟩) w) := by
  unfold syncCaptured
  rw [ends_bind]
  have hoffline : ∀ w₂ : World, w₂.events = w₁.events ++ [.save identity position] →
      Offline w w₂ := by
    intro w₂ h
    refine ⟨[.save identity position], by rw [h, he], ?_⟩
    simp [IsNetwork]
  refine ((ends_run _ _).and (ends_saveRecord store.store identity position)).mono ?_
    fun w₂ h => .before (hoffline w₂ h.2)
  rintro saved w₂ ⟨hsave, hsaved⟩
  dsimp only
  by_cases hok : saved ≠ .ok
  · rw [if_pos hok]
    exact ⟨by simp [emptyResult], by simp [emptyResult, emptyController],
      fun _ => by simp [Phase.BeforeController], fun _ => hoffline w₂ hsaved, rfl⟩
  rw [if_neg hok, ends_bind]
  obtain rfl := not_not.mp hok
  have hcaptured : Captured E (some ⟨some ui, some store, some controller⟩) w ui store controller
      path identity position w₂ := ⟨rfl, hopen, hidentity, w₁, hget, hsave⟩
  have hstored : Stored store.store identity w₂.files position := saveRecord_stored hsave
  refine ((ends_run _ _).and (SyncController.ends_syncCurrentBook _ _)).mono ?_
    fun w₃ h => .invoked hcaptured h.1
  rintro result w₃ ⟨hrun, hran⟩
  obtain ⟨hfiles, hdecision, himport⟩ := ran_of_stored hran hidentity hstored
  -- the branch that applies an imported record is never taken
  rw [if_neg himport]
  refine ⟨fun _ => ⟨ui, store, controller, path, identity, position, w₂, hcaptured, hrun, ?_, rfl⟩,
    hdecision, by simp, ?_, rfl⟩
  · rwa [hfiles]
  · intro h
    simp [Phase.BeforeController] at h

theorem ends_manualOpen (ui : Ui D) (store : StorePointer) (controller : SyncController.Config)
    (w : World) :
    Ends (manualOpen E ui store controller) w
      (fun r w' => Kept E (some ⟨some ui, some store, some controller⟩) w (r.1, some r.2) w')
      (Killed E (some ⟨some ui, some store, some controller⟩) w) := by
  -- an early return has neither sent anything nor called the controller
  have hearly : ∀ (phase : Phase) (w' : World), phase.BeforeController → w'.events = w.events →
      Kept E (some ⟨some ui, some store, some controller⟩) w
        ({ emptyResult with phase }, some ui) w' := by
    intro phase w' hphase he
    exact ⟨by simp [emptyResult], by simp [emptyResult, emptyController], fun _ => hphase,
      fun _ => .of_eq he, rfl⟩
  unfold manualOpen
  cases hopen : openBook ui with
  | none => exact hearly _ _ (by simp [Phase.BeforeController]) rfl
  | some path =>
    dsimp only
    by_cases hmismatch : mismatched controller path store
    · rw [if_pos hmismatch]
      exact hearly _ _ (by simp [Phase.BeforeController]) rfl
    rw [if_neg hmismatch]
    cases hidentity : BookIdentity.fromPath (some path) with
    | none => exact hearly _ _ (by simp [Phase.BeforeController]) rfl
    | some identity =>
      dsimp only
      rw [ends_bind]
      refine ((ends_run _ _).and (ui.ends_readerGetPosition E recordInit w)).mono ?_
        fun w' h => .before (.of_eq h.2.2)
      rintro ⟨code, captured⟩ w₁ ⟨hget, -, he⟩
      dsimp only
      by_cases hcode : code ≠ 0
      · rw [if_pos hcode]
        exact hearly _ _ (by simp [Phase.BeforeController]) he
      rw [if_neg hcode]
      obtain rfl := not_not.mp hcode
      exact ends_syncCaptured E hopen hidentity hget he

end Runs

/-- **A manual sync never loses the position of the Reader.** The controller is invoked only after
the position that was captured from the open book was saved with success under the identity of
that book; when the call returns, that position is stored, nothing was imported and the Reader was
not moved. A call that ends before the controller, or is killed before it, made no request. -/
theorem manualOnce_keeps_position (config : Option (Config D)) (w : World) :
    Ends (manualOnce E config) w (Kept E config w) (Killed E config w) := by
  have hempty : Kept E config w (emptyResult, config.bind Config.ui) w :=
    ⟨by simp [emptyResult], by simp [emptyResult, emptyController],
      fun _ => by simp [Phase.BeforeController, emptyResult], fun _ => .of_eq rfl, rfl⟩
  unfold manualOnce
  split
  · next ui store controller =>
    rw [ends_bind]
    exact ends_manualOpen E ui store controller w
  · exact hempty

end ReaderSync
