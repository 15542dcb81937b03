import CrossNook.Sync.SyncOnce

/-!
# The product policy

What the product makes of a synchronization (`sync/kosync_policy.c`): an outcome, whether to try
again, and the evidence about the two records.

## Main definitions

* `Kosync.policyClassify`: `cn_kosync_policy_classify`, which counts the runs of `fail_closed`
* `Kosync.Consistent`: what the classifier relies on

## Main results

* `Kosync.ends_syncOnce_consistent`: every result of a synchronization is consistent
* `Kosync.policy_total`: the classifier understands every result of a synchronization
-/

namespace Kosync

open Crash

/-- `cn_kosync_product_outcome`. -/
inductive ProductOutcome
  | disabled
  | unchanged
  | uploaded
  | imported
  | noState
  | conflict
  | authRequired
  | trustedTimeUnavailable
  | connectivityFailure
  | securityFailure
  | serviceFailure
  | localUnsupported
  | localFailure
  | configurationFailure
  | internalFailure
  deriving DecidableEq, Repr

/-- `cn_kosync_retry_policy`. -/
inductive RetryPolicy
  | none
  | automaticLater
  | explicitAction
  deriving DecidableEq, Repr

/-- `cn_kosync_mutation_state`. -/
inductive MutationState
  | none
  | confirmed
  | possible
  deriving DecidableEq, Repr

/-- `cn_kosync_product_result`. -/
structure ProductResult where
  outcome : ProductOutcome
  retry : RetryPolicy
  localMutation : MutationState
  remoteMutation : MutationState
  deriving DecidableEq, Repr

/-! ## The classifier -/

/-- The product result under construction, and how often `fail_closed` was run on it. -/
structure Classified where
  result : ProductResult
  failures : ℕ
  deriving DecidableEq, Repr

/-- `fail_closed`. -/
def failClosed (failures : ℕ) : Classified :=
  ⟨⟨.internalFailure, .explicitAction, .none, .none⟩, failures + 1⟩

/-- Set the outcome and the retry. -/
def Classified.set (c : Classified) (outcome : ProductOutcome) (retry : RetryPolicy) :
    Classified :=
  { c with result := { c.result with outcome, retry } }

/-- `transport_is_pre_put`. -/
def transportIsPrePut : NetSimple.Result → Bool
  | .invalid | .resolveError | .connectRefused | .networkUnreachable | .hostUnreachable
  | .connectTimeout | .connectError | .tlsEntropyFailed | .tlsInvalidCa | .tlsHandshakeFailed
  | .tlsHandshakeTimeout | .tlsTrustFailed | .tlsHostnameMismatch | .tlsCertTimeFailed
  | .tlsCertInvalid | .tlsInternal => true
  | _ => false

/-- `remote_mutation`. -/
def remoteMutation (sync : SyncResult) : MutationState :=
  if sync.remoteUploaded then .confirmed
  else if ¬ sync.remotePutAttempted then .none
  else if sync.status = .authFailed ∨ sync.status = .invalid then .none
  else if sync.status = .httpsFailed ∧ transportIsPrePut sync.kosyncOutcome.transportResult then
    .none
  else .possible

/-- `success_invariants_hold`. -/
def successInvariantsHold (sync : SyncResult) : Bool :=
  if sync.localSaved ∧ ¬ sync.localSaveAttempted then false
  else if sync.remoteUploaded ∧ ¬ sync.remotePutAttempted then false
  else
    -- which of the two sides may be there, and what may have been written
    match sync.decision with
    | .noState =>
      ¬ sync.localPresent ∧ ¬ sync.remotePresent ∧ ¬ sync.localSaveAttempted ∧
        ¬ sync.remotePutAttempted ∧ ¬ sync.localSaved ∧ ¬ sync.remoteUploaded
    | .localSelected =>
      sync.localPresent ∧ ¬ sync.remotePresent ∧ ¬ sync.localSaveAttempted ∧
        sync.remotePutAttempted ∧ ¬ sync.localSaved ∧ sync.remoteUploaded
    | .remoteSelected =>
      ¬ sync.localPresent ∧ sync.remotePresent ∧ sync.localSaveAttempted ∧
        ¬ sync.remotePutAttempted ∧ sync.localSaved ∧ ¬ sync.remoteUploaded
    | .noChange | .ambiguous =>
      sync.localPresent ∧ sync.remotePresent ∧ ¬ sync.localSaveAttempted ∧
        ¬ sync.remotePutAttempted ∧ ¬ sync.localSaved ∧ ¬ sync.remoteUploaded
    | .none => false

/-- `classify_success`. -/
def classifySuccess (sync : SyncResult) (c : Classified) : Classified :=
  if ¬ successInvariantsHold sync then failClosed c.failures
  else
    match sync.decision with
    | .noState => c.set .noState .none
    | .localSelected => c.set .uploaded .none
    | .remoteSelected => c.set .imported .none
    | .noChange => c.set .unchanged .none
    | .ambiguous => c.set .conflict .explicitAction
    | .none => failClosed c.failures

/-- `classify_time`. -/
def classifyTime (sync : SyncResult) (c : Classified) : Classified :=
  if sync.timeResult = .ok then failClosed c.failures
  else
    match sync.timeResult with
    | .socketFailed | .sendFailed | .timeout | .recvFailed =>
      c.set .trustedTimeUnavailable .automaticLater
    | _ => c.set .trustedTimeUnavailable .explicitAction

/-- `classify_dns`. -/
def classifyDns (sync : SyncResult) (c : Classified) : Classified :=
  match sync.dnsResult with
  | .ok => failClosed c.failures
  | .socketFailed | .networkFailed | .timeout | .serverFailure =>
    c.set .connectivityFailure .automaticLater
  | .invalid | .invalidHostname => c.set .configurationFailure .explicitAction
  | .entropyFailed => c.set .internalFailure .explicitAction
  | .packetSize | .malformedResponse | .truncatedResponse | .nxdomain | .noAddress
  | .unsupportedCname => c.set .serviceFailure .explicitAction

/-- `classify_https`. -/
def classifyHttps (sync : SyncResult) (c : Classified) : Classified :=
  match sync.kosyncOutcome.transportResult with
  | .ok => failClosed c.failures
  | .resolveError | .connectRefused | .networkUnreachable | .hostUnreachable | .connectTimeout
  | .connectError | .sendError | .recvError | .recvTimeout | .sendTimeout
  | .tlsHandshakeTimeout | .tlsRecvTimeout => c.set .connectivityFailure .automaticLater
  | .tlsInvalidCa | .tlsTrustFailed | .tlsHostnameMismatch | .tlsCertTimeFailed
  | .tlsCertInvalid => c.set .securityFailure .explicitAction
  | .truncated | .badResponse | .tlsHandshakeFailed | .tlsProtocolFailed =>
    c.set .serviceFailure .explicitAction
  | .invalid => c.set .configurationFailure .explicitAction
  | .tlsEntropyFailed | .tlsInternal => c.set .internalFailure .explicitAction

/-- `classify_protocol`. -/
def classifyProtocol (sync : SyncResult) (c : Classified) : Classified :=
  let status := sync.kosyncOutcome.httpStatus
  if sync.kosyncResult = .httpError ∧
      (status = 408 ∨ status = 429 ∨ (500 ≤ status ∧ status ≤ 599)) then
    c.set .serviceFailure .automaticLater
  else if sync.kosyncResult ≠ .httpError ∧ sync.kosyncResult ≠ .badJson ∧
      sync.kosyncResult ≠ .badProtocol then
    failClosed c.failures
  else c.set .serviceFailure .explicitAction

/-- The switch of `cn_kosync_policy_classify` over the status. -/
def classifyStatus (sync : SyncResult) (c : Classified) : Classified :=
  match sync.status with
  | .ok => classifySuccess sync c
  | .invalid => c.set .configurationFailure .explicitAction
  | .identityFailed | .localFailed => c.set .localFailure .explicitAction
  | .localUnsupported => c.set .localUnsupported .explicitAction
  | .trustedTimeFailed => classifyTime sync c
  | .dnsFailed => classifyDns sync c
  | .authFailed => c.set .authRequired .explicitAction
  | .httpsFailed => classifyHttps sync c
  | .protocolFailed => classifyProtocol sync c
  | .noMemory => c.set .internalFailure .explicitAction

/-- `cn_kosync_policy_classify`: its return value and the product result that it leaves. -/
def policyClassify (enabled : ℤ) (sync : Option SyncResult) : ℤ × Classified :=
  let c := failClosed 0
  if enabled ≠ 0 ∧ enabled ≠ 1 then (-1, c)
  else if enabled = 0 then (0, c.set .disabled .none)
  else
    match sync with
    | none => (-1, c)
    | some sync =>
      let localMutation : MutationState :=
        if sync.localSaved then .confirmed
        else if sync.localSaveAttempted then .possible
        else .none
      let c := { c with
        result := { c.result with localMutation, remoteMutation := remoteMutation sync } }
      -- flags that contradict one another are not interpreted
      if (sync.localSaved ∧ ¬ sync.localSaveAttempted) ∨
          (sync.remoteUploaded ∧ ¬ sync.remotePutAttempted) ∨
          (sync.status ≠ .ok ∧ (sync.localSaved ∨ sync.remoteUploaded)) then
        (0, failClosed c.failures)
      else (0, classifyStatus sync c)

/-! ## What the classifier relies on -/

/-- The fields of a result agree with its status. -/
structure Consistent (sync : SyncResult) : Prop where
  saved : sync.localSaved = decide (sync.localSaveResult = .ok)
  save_attempted : sync.localSaved = true → sync.localSaveAttempted = true ∧ sync.status = .ok
  put_attempted : sync.remoteUploaded = true → sync.remotePutAttempted = true ∧ sync.status = .ok
  success : sync.status = .ok → successInvariantsHold sync = true
  time : sync.status = .trustedTimeFailed → sync.timeResult ≠ .ok
  dns : sync.status = .dnsFailed → sync.dnsResult ≠ .ok
  https : sync.status = .httpsFailed → sync.kosyncOutcome.transportResult ≠ .ok
  protocol : sync.status = .protocolFailed → sync.kosyncResult = .httpError ∨
    sync.kosyncResult = .badJson ∨ sync.kosyncResult = .badProtocol

/-- Nothing is confirmed yet. -/
structure Unconfirmed (sync : SyncResult) : Prop where
  saved : sync.localSaved = false
  uploaded : sync.remoteUploaded = false
  result : sync.localSaveResult ≠ .ok

/-- Nothing is attempted yet. -/
structure Fresh (sync : SyncResult) : Prop extends Unconfirmed sync where
  save_attempted : sync.localSaveAttempted = false
  put_attempted : sync.remotePutAttempted = false

theorem fresh_init : Fresh syncResultInit := ⟨⟨rfl, rfl, by decide⟩, rfl, rfl⟩

theorem Fresh.of_eq {sync sync' : SyncResult} (h : Fresh sync)
    (hs : sync'.localSaved = sync.localSaved) (hu : sync'.remoteUploaded = sync.remoteUploaded)
    (hr : sync'.localSaveResult = sync.localSaveResult)
    (hsa : sync'.localSaveAttempted = sync.localSaveAttempted)
    (hpa : sync'.remotePutAttempted = sync.remotePutAttempted) : Fresh sync' :=
  ⟨⟨hs.trans h.saved, hu.trans h.uploaded, hr ▸ h.result⟩, hsa.trans h.save_attempted,
    hpa.trans h.put_attempted⟩

theorem Unconfirmed.consistent {sync : SyncResult} (h : Unconfirmed sync)
    (success : sync.status = .ok → successInvariantsHold sync = true)
    (time : sync.status = .trustedTimeFailed → sync.timeResult ≠ .ok)
    (dns : sync.status = .dnsFailed → sync.dnsResult ≠ .ok)
    (https : sync.status = .httpsFailed → sync.kosyncOutcome.transportResult ≠ .ok)
    (protocol : sync.status = .protocolFailed → sync.kosyncResult = .httpError ∨
      sync.kosyncResult = .badJson ∨ sync.kosyncResult = .badProtocol) : Consistent sync where
  saved := by rw [h.saved, decide_eq_false h.result]
  save_attempted := fun hs => by simp [h.saved] at hs
  put_attempted := fun hu => by simp [h.uploaded] at hu
  success := success
  time := time
  dns := dns
  https := https
  protocol := protocol

/-- A status that says nothing about other fields. -/
def SyncStatus.Plain (status : SyncStatus) : Prop :=
  status = .invalid ∨ status = .identityFailed ∨ status = .localFailed ∨
    status = .localUnsupported ∨ status = .noMemory

theorem Unconfirmed.plain {sync : SyncResult} (h : Unconfirmed sync) (hs : sync.status.Plain) :
    Consistent sync := by
  refine h.consistent ?_ ?_ ?_ ?_ ?_ <;> intro hstatus <;> rw [hstatus] at hs <;>
    simp [SyncStatus.Plain] at hs

theorem Unconfirmed.mapKosync {sync : SyncResult} (h : Unconfirmed sync)
    (hs : sync.status = mapKosync sync.kosyncResult)
    (ht : sync.kosyncResult = .transportError → sync.kosyncOutcome.transportResult ≠ .ok) :
    Consistent sync := by
  cases hk : sync.kosyncResult <;> rw [hk] at hs <;>
    refine h.consistent ?_ ?_ ?_ ?_ ?_ <;> intro hstatus <;>
    first
      | exact absurd (hs.symm.trans hstatus) (by decide)
      | exact ht hk
      | simp [hk]

/-! ## What a synchronization leaves -/

section Results

variable {setup : SyncSetup} {client : Client} {identity : BookIdentity} {documentId : List UInt8}
  {record : ProgressStore.Record} {result final : SyncResult} {w w' : World}

theorem Fresh.consistent_imported (h : Fresh result) {saved : ProgressStore.Result}
    (hl : result.localPresent = false) (hr : result.remotePresent = true) :
    Consistent (result.imported saved) := by
  unfold SyncResult.imported
  dsimp only
  by_cases hs : saved ≠ .ok
  · rw [if_pos hs]
    have hu : Unconfirmed { result with
        decision := .remoteSelected
        localSaveAttempted := true
        localSaveResult := saved
        status := if saved = .noMemory then .noMemory else .localFailed } :=
      ⟨h.saved, h.uploaded, hs⟩
    refine hu.plain ?_
    dsimp only
    split_ifs <;> simp [SyncStatus.Plain]
  · rw [if_neg hs]
    obtain rfl := not_not.mp hs
    constructor <;>
      simp [successInvariantsHold, hl, hr, h.uploaded, h.put_attempted]

theorem Fresh.consistent_uploaded (h : Fresh result) {answer : Result × Option ℤ × Outcome}
    (hd : result.decision = .localSelected) (hl : result.localPresent = true)
    (hr : result.remotePresent = false)
    (ht : answer.1 = .transportError → answer.2.2.transportResult ≠ .ok) :
    Consistent (result.uploaded answer) := by
  obtain ⟨kosyncResult, timestamp, kosyncOutcome⟩ := answer
  unfold SyncResult.uploaded
  dsimp only at ht ⊢
  by_cases hk : kosyncResult ≠ .ok
  · rw [if_pos hk]
    exact Unconfirmed.mapKosync ⟨h.saved, h.uploaded, h.result⟩ rfl ht
  · rw [if_neg hk]
    constructor <;>
      simp [successInvariantsHold, hd, hl, hr, h.saved, h.save_attempted, h.result]

theorem Reconciled.consistent (hfresh : Fresh result)
    (h : Reconciled setup client identity documentId record result w final w') :
    Consistent final := by
  -- one case for each decision; only an import and a PUT can succeed with an effect
  cases h with
  | noState hl hr =>
    refine Unconfirmed.consistent ⟨hfresh.saved, hfresh.uploaded, hfresh.result⟩ (fun _ => ?_)
      ?_ ?_ ?_ ?_
    · simp [successInvariantsHold, hl, hr, hfresh.saved, hfresh.uploaded,
        hfresh.save_attempted, hfresh.put_attempted]
    all_goals simp
  | imported hl hr h => exact hfresh.consistent_imported hl hr
  | unsupported hl hr h =>
    exact Unconfirmed.plain ⟨hfresh.saved, hfresh.uploaded, hfresh.result⟩
      (by simp [SyncStatus.Plain])
  | unset hl hr h hq he hk =>
    refine Unconfirmed.mapKosync ⟨hfresh.saved, hfresh.uploaded, hfresh.result⟩ rfl ?_
    rcases hk with rfl | rfl <;> simp
  | put hl hr hq he hset h =>
    have hselected : Fresh { result with decision := .localSelected } :=
      hfresh.of_eq rfl rfl rfl rfl rfl
    refine hselected.consistent_uploaded rfl hl hr ?_
    rcases (ends_putProgress _ _).of_eq h with ⟨-, -, -, hr⟩ | ⟨_, _, _, _, _, -, -, rfl⟩
    · intro ht
      rcases hr with hr | hr <;> rw [hr] at ht <;> cases ht
    · intro ht
      rw [(putAnswer_transport ht).1]
      exact (putAnswer_transport ht).2
  | compared hl hr =>
    refine Unconfirmed.consistent ⟨hfresh.saved, hfresh.uploaded, hfresh.result⟩
      (fun _ => ?_) ?_ ?_ ?_ ?_
    · unfold SyncResult.compared successInvariantsHold
      by_cases hloc : record.location = result.remoteProgress.logicalPosition <;>
        simp [hloc, hl, hr, hfresh.saved, hfresh.uploaded, hfresh.save_attempted,
          hfresh.put_attempted]
    all_goals simp [SyncResult.compared]

theorem Asked.consistent (hfresh : Fresh result)
    (h : Asked setup client identity documentId record result w final w') : Consistent final := by
  cases h with
  | failed hget hok hnf =>
    refine Unconfirmed.mapKosync ⟨hfresh.saved, hfresh.uploaded, hfresh.result⟩ rfl ?_
    intro ht
    rcases (ends_getProgress _ _ _).of_eq hget with ⟨-, -, -, hr⟩ | ⟨_, _, _, _, -, -, rfl⟩
    · rcases hr with hr | hr <;> rw [show (SyncResult.asked result _).kosyncResult = _ from hr] at ht <;>
        cases ht
    · have h := getAnswer_transport ht
      exact fun hok => h.2 (h.1.symm.trans hok)
  | @reconciled answer w₁ hget hr _ _ h =>
    have hasked : Fresh (result.asked answer) := hfresh.of_eq rfl rfl rfl rfl rfl
    exact h.consistent hasked

theorem Session.status_eq {tls : TlsConfig} {session : Session}
    (h : Opens client tls session) (hc : session.client = none) :
    (session.status = .trustedTimeFailed ∧ session.timeResult ≠ .ok) ∨
      (session.status = .dnsFailed ∧ session.dnsResult ≠ .ok) ∨ session.status = .invalid := by
  cases h with
  | time h => exact .inl ⟨by simp [Session.status, h], h⟩
  | dns h => exact .inr (.inl ⟨by simp [Session.status, h], h⟩)
  | client => exact .inr (.inr rfl)
  | opened h => cases hc

theorem Synced.consistent (hfresh : Fresh result)
    (h : Synced setup identity documentId result w final w') : Consistent final := by
  cases h with
  | failed hload hok hmissing =>
    refine Unconfirmed.plain ⟨hfresh.saved, hfresh.uploaded, hfresh.result⟩ ?_
    dsimp only
    split_ifs <;> simp [SyncStatus.Plain]
  | unopened hload hl hopen hc =>
    have hopens := ((ends_openSession _ _ _ _).of_eq hopen).2
    refine Unconfirmed.consistent ⟨hfresh.saved, hfresh.uploaded, hfresh.result⟩
      ?_ ?_ ?_ ?_ ?_ <;> intro hs <;> dsimp only at hs <;>
      rcases Session.status_eq hopens hc with ⟨h, hne⟩ | ⟨h, hne⟩ | h <;> rw [h] at hs <;>
      first
        | exact hne
        | cases hs
  | @asked loaded record w₁ w₂ _ hload hl session client hopen hc _ h =>
    have hopened : Fresh ((result.loaded loaded).opened session) :=
      hfresh.of_eq rfl rfl rfl rfl rfl
    exact h.consistent hopened

theorem Completed.consistent {config : SyncConfig} (h : Completed config w final w') :
    Consistent final := by
  cases h with
  | rejected h => exact Unconfirmed.plain ⟨rfl, rfl, by decide⟩ (.inl rfl)
  | unidentified hc hid hids =>
    exact Unconfirmed.plain ⟨rfl, rfl, fresh_init.result⟩ (.inr (.inl rfl))
  | @synced _ hc document _ _ hid _ _ hids _ h =>
    have hidentified : Fresh (syncResultInit.identified document) :=
      fresh_init.of_eq rfl rfl rfl rfl rfl
    exact h.consistent hidentified

end Results

/-- **Every result that a synchronization leaves is consistent.** -/
theorem ends_syncOnce_consistent (config : SyncConfig) (w : World) :
    Ends (syncOnce config) w (fun result _ => Consistent result) fun _ => True :=
  (ends_syncOnce config w).mono (fun _ _ h => h.1.consistent) fun _ _ => trivial

/-! ## What the classifier makes of it -/

/-- The failures that are reported as internal. -/
def InternalFailure (sync : SyncResult) : Prop :=
  sync.status = .noMemory ∨ (sync.status = .dnsFailed ∧ sync.dnsResult = .entropyFailed) ∨
    (sync.status = .httpsFailed ∧ (sync.kosyncOutcome.transportResult = .tlsEntropyFailed ∨
      sync.kosyncOutcome.transportResult = .tlsInternal))

/-- An outcome and a retry that say what a synchronization did. -/
structure Verdict (sync : SyncResult) (outcome : ProductOutcome) (retry : RetryPolicy) : Prop where
  uploaded : outcome = .uploaded ↔ sync.status = .ok ∧ sync.decision = .localSelected
  imported : outcome = .imported ↔ sync.status = .ok ∧ sync.decision = .remoteSelected
  unchanged : outcome = .unchanged ↔ sync.status = .ok ∧ sync.decision = .noChange
  conflict : outcome = .conflict ↔ sync.status = .ok ∧ sync.decision = .ambiguous
  noState : outcome = .noState ↔ sync.status = .ok ∧ sync.decision = .noState
  internal : outcome = .internalFailure ↔ InternalFailure sync
  retry : outcome = .conflict ∨ outcome = .authRequired ∨ outcome = .securityFailure →
    retry ≠ .automaticLater

/-- The outcomes of a synchronization that succeeded. -/
def ProductOutcome.IsSuccess : ProductOutcome → Prop
  | .uploaded | .imported | .unchanged | .conflict | .noState => True
  | _ => False

theorem Verdict.of_failure {sync : SyncResult} {outcome : ProductOutcome} {retry : RetryPolicy}
    (hs : sync.status ≠ .ok) (ho : ¬ outcome.IsSuccess)
    (hi : outcome = .internalFailure ↔ InternalFailure sync)
    (hr : retry = .automaticLater → outcome ≠ .authRequired ∧ outcome ≠ .securityFailure) :
    Verdict sync outcome retry := by
  have hne : ∀ o : ProductOutcome, o.IsSuccess → ∀ d,
      (outcome = o ↔ sync.status = .ok ∧ sync.decision = d) := fun o hsuccess d =>
    ⟨fun h => absurd (h ▸ hsuccess) ho, fun h => absurd h.1 hs⟩
  refine ⟨hne .uploaded trivial _, hne .imported trivial _, hne .unchanged trivial _,
    hne .conflict trivial _, hne .noState trivial _, hi, ?_⟩
  rintro (h | h | h) hlater
  · exact ho (h ▸ trivial)
  · exact (hr hlater).1 h
  · exact (hr hlater).2 h

/-- A branch of the switch reaches a verdict without `fail_closed`. -/
def Reaches (sync : SyncResult) (c c' : Classified) : Prop :=
  ∃ outcome retry, c' = c.set outcome retry ∧ Verdict sync outcome retry

section Branches

variable {sync : SyncResult} (c : Classified)

theorem classifySuccess_reaches (hs : sync.status = .ok) (h : successInvariantsHold sync = true) :
    Reaches sync c (classifySuccess sync c) := by
  unfold classifySuccess
  rw [if_neg (not_not.mpr h)]
  have hi : ¬ InternalFailure sync := by simp [InternalFailure, hs]
  cases hd : sync.decision with
  | none => simp [successInvariantsHold, hd] at h
  | noState | localSelected | remoteSelected | noChange | ambiguous =>
    exact ⟨_, _, rfl, by constructor <;> simp [hs, hd, hi]⟩

theorem classifyTime_reaches (hs : sync.status = .trustedTimeFailed) (h : sync.timeResult ≠ .ok) :
    Reaches sync c (classifyTime sync c) := by
  unfold classifyTime
  rw [if_neg h]
  have hi : ¬ InternalFailure sync := by simp [InternalFailure, hs]
  split <;> exact ⟨_, _, rfl, .of_failure (by simp [hs]) id (by simp [hi]) (by simp)⟩

theorem classifyDns_reaches (hs : sync.status = .dnsFailed) (h : sync.dnsResult ≠ .ok) :
    Reaches sync c (classifyDns sync c) := by
  have hi : InternalFailure sync ↔ sync.dnsResult = .entropyFailed := by simp [InternalFailure, hs]
  unfold classifyDns
  cases hd : sync.dnsResult <;> rw [hd] at hi <;>
    first
      | exact absurd hd h
      | exact ⟨_, _, rfl, .of_failure (by simp [hs]) id (by simp [hi]) (by simp)⟩

theorem classifyHttps_reaches (hs : sync.status = .httpsFailed)
    (h : sync.kosyncOutcome.transportResult ≠ .ok) : Reaches sync c (classifyHttps sync c) := by
  have hi : InternalFailure sync ↔ sync.kosyncOutcome.transportResult = .tlsEntropyFailed ∨
      sync.kosyncOutcome.transportResult = .tlsInternal := by simp [InternalFailure, hs]
  unfold classifyHttps
  cases ht : sync.kosyncOutcome.transportResult <;> rw [ht] at hi <;>
    first
      | exact absurd ht h
      | exact ⟨_, _, rfl, .of_failure (by simp [hs]) id (by simp [hi]) (by simp)⟩

theorem classifyProtocol_reaches (hs : sync.status = .protocolFailed)
    (h : sync.kosyncResult = .httpError ∨ sync.kosyncResult = .badJson ∨
      sync.kosyncResult = .badProtocol) : Reaches sync c (classifyProtocol sync c) := by
  have hi : ¬ InternalFailure sync := by simp [InternalFailure, hs]
  have hverdict : ∀ retry, Verdict sync .serviceFailure retry := fun retry =>
    .of_failure (by simp [hs]) id (by simp [hi]) (by simp)
  unfold classifyProtocol
  dsimp only
  split_ifs with hlater hother
  · exact ⟨_, _, rfl, hverdict _⟩
  · rcases h with h | h | h <;> simp [h] at hother
  · exact ⟨_, _, rfl, hverdict _⟩

theorem Consistent.reaches (h : Consistent sync) : Reaches sync c (classifyStatus sync c) := by
  unfold classifyStatus
  cases hs : sync.status with
  | ok => exact classifySuccess_reaches c hs (h.success hs)
  | trustedTimeFailed => exact classifyTime_reaches c hs (h.time hs)
  | dnsFailed => exact classifyDns_reaches c hs (h.dns hs)
  | httpsFailed => exact classifyHttps_reaches c hs (h.https hs)
  | protocolFailed => exact classifyProtocol_reaches c hs (h.protocol hs)
  | invalid | identityFailed | localFailed | localUnsupported | authFailed | noMemory =>
    exact ⟨_, _, rfl, .of_failure (by simp [hs]) id (by simp [InternalFailure, hs]) (by simp)⟩

end Branches

/-- The classifier understands a result: it returns 0, it never runs `fail_closed` after the first
time, its verdict says what was done, and it confirms a local mutation that took place. -/
structure Understood (sync : SyncResult) (code : ℤ) (c : Classified) : Prop where
  code : code = 0
  failures : c.failures = 1
  verdict : Verdict sync c.result.outcome c.result.retry
  local_confirmed : c.result.localMutation = .confirmed ↔ sync.localSaveResult = .ok

theorem Consistent.no_contradiction {sync : SyncResult} (h : Consistent sync) :
    ¬ ((sync.localSaved ∧ ¬ sync.localSaveAttempted) ∨
      (sync.remoteUploaded ∧ ¬ sync.remotePutAttempted) ∨
      (sync.status ≠ .ok ∧ (sync.localSaved ∨ sync.remoteUploaded))) := by
  rintro (⟨hs, ha⟩ | ⟨hu, ha⟩ | ⟨hne, hs | hu⟩)
  · exact ha (h.save_attempted hs).1
  · exact ha (h.put_attempted hu).1
  · exact hne (h.save_attempted hs).2
  · exact hne (h.put_attempted hu).2

/-- The report about the server is that of `remote_mutation`. -/
theorem Consistent.remoteMutation_eq {sync : SyncResult} (h : Consistent sync) :
    (policyClassify 1 (some sync)).2.result.remoteMutation = remoteMutation sync := by
  unfold policyClassify
  dsimp only
  rw [if_neg (by decide), if_neg (by decide), if_neg h.no_contradiction]
  obtain ⟨outcome, retry, hset, -⟩ := h.reaches _
  rw [hset]
  rfl

theorem Consistent.understood {sync : SyncResult} (h : Consistent sync) :
    Understood sync (policyClassify 1 (some sync)).1 (policyClassify 1 (some sync)).2 := by
  unfold policyClassify
  dsimp only
  rw [if_neg (by decide), if_neg (by decide), if_neg h.no_contradiction]
  obtain ⟨outcome, retry, hset, hverdict⟩ := h.reaches _
  rw [hset]
  refine ⟨rfl, rfl, hverdict, ?_⟩
  have hsaved := h.saved
  change (if sync.localSaved then _ else _ : MutationState) = _ ↔ _
  by_cases hs : sync.localSaveResult = .ok
  · simp [hsaved, hs]
  · cases sync.localSaveAttempted <;> simp [hsaved, hs]

/-- **The policy is total.** Whatever a synchronization leaves behind, the classifier returns 0
and does not fall back to `fail_closed`; the outcome names the decision of a success and the kind
of a failure, a local mutation is confirmed where the save succeeded, and neither a conflict nor a
failure of authentication or security is retried on its own. -/
theorem policy_total (config : SyncConfig) (w : World) :
    Ends (syncOnce config) w
      (fun sync _ =>
        Understood sync (policyClassify 1 (some sync)).1 (policyClassify 1 (some sync)).2)
      fun _ => True :=
  (ends_syncOnce_consistent config w).mono (fun _ _ h => h.understood) fun _ _ => trivial

end Kosync
