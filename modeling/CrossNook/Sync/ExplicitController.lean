import CrossNook.Sync.Controller
import CrossNook.Sync.Pull

/-!
# The explicit controllers

The pull and the push that the user asks for under the stored settings and credentials
(`sync/sync_pull_controller.c`, `sync/sync_push_controller.c`). The two files spell out the same
tables with enumerators of their own.

## Main definitions

* `SyncController.pullRemoteCurrentBook`: `cn_sync_pull_remote_current_book`
* `SyncController.pushLocalCurrentBook`: `cn_sync_push_local_current_book`

## Main results

* `SyncController.ends_pullRemoteCurrentBook`: a pull makes no PUT, and its only write is a save
* `SyncController.ends_pushLocalCurrentBook`: a push makes no GET and changes no file
-/

namespace SyncController

open Crash Kosync

/-- `cn_sync_pull_stage` and `cn_sync_push_stage`. -/
inductive ExplicitStage
  | invalid
  | disabled
  | settingsFailed
  | credentialsFailed
  | configFailed
  | executed
  deriving DecidableEq, Repr

/-- The failures that `cn_sync_pull_outcome` and `cn_sync_push_outcome` both name. -/
inductive Failure
  | internalFailure
  | disabled
  | localFailure
  | authRequired
  | trustedTimeUnavailable
  | connectivityFailure
  | securityFailure
  | serviceFailure
  | configurationFailure
  deriving DecidableEq, Repr

/-- `dns_failure`. -/
def dnsFailure : DnsResult → Failure
  | .socketFailed | .networkFailed | .timeout | .serverFailure => .connectivityFailure
  | .invalid | .invalidHostname => .configurationFailure
  | .entropyFailed => .internalFailure
  | _ => .serviceFailure

/-- `transport_failure`. -/
def transportFailure : NetSimple.Result → Failure
  | .resolveError | .connectRefused | .networkUnreachable | .hostUnreachable | .connectTimeout
  | .connectError | .sendError | .recvError | .recvTimeout | .sendTimeout
  | .tlsHandshakeTimeout | .tlsRecvTimeout => .connectivityFailure
  | .tlsInvalidCa | .tlsTrustFailed | .tlsHostnameMismatch | .tlsCertTimeFailed
  | .tlsCertInvalid => .securityFailure
  | .invalid => .configurationFailure
  | .tlsEntropyFailed | .tlsInternal => .internalFailure
  | _ => .serviceFailure

/-- The failure for credentials that could not be loaded. -/
def credentialFailure : CredentialStore.Result → Failure
  | .missing => .authRequired
  | .corrupt | .unsupportedVersion | .invalid => .configurationFailure
  | _ => .localFailure

/-- The stage and the failure where the preflight stops. -/
def Stop.explicit (stop : Stop) (credentialResult : CredentialStore.Result) :
    ExplicitStage × Failure :=
  match stop with
  | .invalid => (.invalid, .internalFailure)
  | .settingsFailed => (.settingsFailed, .configurationFailure)
  | .disabled => (.disabled, .disabled)
  | .credentialsFailed => (.credentialsFailed, credentialFailure credentialResult)
  | .configFailed => (.configFailed, .configurationFailure)

theorem Stop.explicit_ne (stop : Stop) (credentialResult : CredentialStore.Result) :
    (stop.explicit credentialResult).1 ≠ .executed := by
  cases stop <;> simp [explicit]

/-! ## Pull -/

/-- `cn_sync_pull_outcome`. -/
inductive PullOutcome
  | remoteMissing
  | persisted
  | failure (failure : Failure)
  deriving DecidableEq, Repr

/-- `cn_sync_pull_result`. -/
structure PullResult where
  stage : ExplicitStage
  outcome : PullOutcome
  settingsResult : SettingsStore.Result
  credentialResult : CredentialStore.Result
  pull : Kosync.PullResult
  localMutation : MutationState
  remoteMutation : MutationState
  deriving DecidableEq, Repr

/-- `cn_sync_pull_result_init_internal`. -/
def pullInit : PullResult where
  stage := .invalid
  outcome := .failure .internalFailure
  settingsResult := .invalidArgument
  credentialResult := .invalid
  pull := pullResultInit
  localMutation := .none
  remoteMutation := .none

/-- `classify_pull`. -/
def classifyPull (pull : Kosync.PullResult) : PullOutcome :=
  match pull.status with
  | .remoteMissing => .remoteMissing
  | .persisted => .persisted
  | .authFailed => .failure .authRequired
  | .trustedTimeFailed => .failure .trustedTimeUnavailable
  | .dnsFailed => .failure (dnsFailure pull.dnsResult)
  | .httpsFailed => .failure (transportFailure pull.kosyncOutcome.transportResult)
  | .protocolFailed => .failure .serviceFailure
  | .localFailed | .identityFailed => .failure .localFailure
  | .invalid => .failure .configurationFailure
  | .noMemory => .failure .internalFailure

/-- The configuration of the pull. -/
def ResolvedConfig.pull (config : ResolvedConfig) (client : Client) : PullConfig where
  documentPath := config.documentPath
  progressStore := config.progressStore.map StorePointer.store
  timePolicy := config.timePolicy
  time := config.time
  dns := config.dns
  tls := config.tls
  client := some client

/-- The result after a pull. -/
def PullResult.executed (result : PullResult) (pull : Kosync.PullResult) : PullResult :=
  { result with
    stage := .executed
    outcome := classifyPull pull
    pull
    localMutation :=
      if pull.localSaved then .confirmed
      else if pull.localSaveAttempted then .possible
      else .none }

/-- `cn_sync_pull_remote_current_book_resolved`. -/
def pullRemoteCurrentBookResolved (config : ResolvedConfig) (output : PullResult) :
    Env PullResult :=
  if ¬ config.accepted then
    return { output with stage := .configFailed, outcome := .failure .configurationFailure }
  else
    match config.client with
    | none =>
      return { output with stage := .configFailed, outcome := .failure .configurationFailure }
    | some client => do
      let pull ← pullRemoteOnce (config.pull client)
      return output.executed pull

/-- `cn_sync_pull_remote_current_book`. -/
def pullRemoteCurrentBook (config : Option Config) : Env PullResult := do
  let pre ← preflight config
  let output := { pullInit with
    settingsResult := pre.settingsResult, credentialResult := pre.credentialResult }
  match pre.resolved with
  | .error stop =>
    let (stage, failure) := stop.explicit pre.credentialResult
    return { output with stage, outcome := .failure failure }
  | .ok resolved => pullRemoteCurrentBookResolved resolved output

/-! ## Push -/

/-- `cn_sync_push_outcome`. -/
inductive PushOutcome
  | uploaded
  | localMissing
  | localUnsupported
  | failure (failure : Failure)
  deriving DecidableEq, Repr

/-- `cn_sync_push_result`. -/
structure PushResult where
  stage : ExplicitStage
  outcome : PushOutcome
  settingsResult : SettingsStore.Result
  credentialResult : CredentialStore.Result
  push : Kosync.PushResult
  localMutation : MutationState
  remoteMutation : MutationState
  deriving DecidableEq, Repr

/-- `cn_sync_push_result_init_internal`. -/
def pushInit : PushResult where
  stage := .invalid
  outcome := .failure .internalFailure
  settingsResult := .invalidArgument
  credentialResult := .invalid
  push := pushResultInit
  localMutation := .none
  remoteMutation := .none

/-- `classify_push`. -/
def classifyPush (push : Kosync.PushResult) : PushOutcome :=
  match push.status with
  | .uploaded => .uploaded
  | .localMissing => .localMissing
  | .localUnsupported => .localUnsupported
  | .localFailed | .identityFailed => .failure .localFailure
  | .authFailed => .failure .authRequired
  | .trustedTimeFailed => .failure .trustedTimeUnavailable
  | .dnsFailed => .failure (dnsFailure push.dnsResult)
  | .httpsFailed => .failure (transportFailure push.kosyncOutcome.transportResult)
  | .protocolFailed => .failure .serviceFailure
  | .invalid => .failure .configurationFailure
  | .noMemory => .failure .internalFailure

/-- The result after a push. -/
def PushResult.executed (result : PushResult) (push : Kosync.PushResult) : PushResult :=
  { result with
    stage := .executed
    outcome := classifyPush push
    push
    remoteMutation := push.remoteMutation }

/-- `cn_sync_push_local_current_book_resolved`. -/
def pushLocalCurrentBookResolved (config : ResolvedConfig) (output : PushResult) :
    Env PushResult :=
  if ¬ config.accepted ∨ config.deviceId = none then
    return { output with stage := .configFailed, outcome := .failure .configurationFailure }
  else
    match config.client with
    | none =>
      return { output with stage := .configFailed, outcome := .failure .configurationFailure }
    | some client => do
      let push ← pushLocalOnce (config.sync client)
      return output.executed push

/-- `cn_sync_push_local_current_book`. -/
def pushLocalCurrentBook (config : Option Config) : Env PushResult := do
  let pre ← preflight config
  let output := { pushInit with
    settingsResult := pre.settingsResult, credentialResult := pre.credentialResult }
  match pre.resolved with
  | .error stop =>
    let (stage, failure) := stop.explicit pre.credentialResult
    return { output with stage, outcome := .failure failure }
  | .ok resolved => pushLocalCurrentBookResolved resolved output

/-! ## How the explicit controllers end -/

/-- The runs of `pullRemoteCurrentBook`: it stops before the pull, or runs it. -/
inductive PullRan (config : Option Config) (w : World) : PullResult → World → Prop
  | stopped {result : PullResult} {w' : World} (hread : Read 0 [] w w')
    (hs : result.stage ≠ .executed) : PullRan config w result w'
  | executed {resolved : ResolvedConfig} (hresolved : Resolves config w resolved)
    {client : Client} (hclient : resolved.client = some client) {w₁ w' : World}
    (hread : Read 0 [] w w₁) {pull : Kosync.PullResult}
    (h : Pulled (resolved.pull client) w₁ pull w') {output : PullResult} :
    PullRan config w (output.executed pull) w'

theorem pullTrace_after {events : List Event} {w w₁ w' : World} (hread : Read 0 events w w₁)
    (h : PullTrace w₁ w') : PullTrace w w' := by
  obtain ⟨events', he, hgets, hputs, hsaves, hf⟩ := h
  obtain ⟨hq, he', hgets', hputs', hsaves'⟩ := hread
  refine ⟨events ++ events', ?_, ?_, ?_, ?_, fun h0 => ?_⟩
  · rw [he, he', List.append_assoc]
  · rw [List.countP_append, Nat.le_zero.mp hgets', Nat.zero_add]
    exact hgets
  · rw [List.countP_append, hputs', hputs]
  · rw [List.countP_append, hsaves', Nat.zero_add]
    exact hsaves
  · rw [List.countP_append] at h0
    exact (hf (Nat.eq_zero_of_add_eq_zero_left h0)).trans hq.files_eq

theorem pullTrace_before {events : List Event} {w w₁ w' : World} (h : PullTrace w w₁)
    (hread : Read 0 events w₁ w') : PullTrace w w' := by
  obtain ⟨events', he, hgets, hputs, hsaves, hf⟩ := h
  obtain ⟨hq, he', hgets', hputs', hsaves'⟩ := hread
  refine ⟨events' ++ events, ?_, ?_, ?_, ?_, fun h0 => ?_⟩
  · rw [he', he, List.append_assoc]
  · rw [List.countP_append, Nat.le_zero.mp hgets']
    exact hgets
  · rw [List.countP_append, hputs', hputs]
  · rw [List.countP_append, hsaves']
    exact hsaves
  · rw [List.countP_append] at h0
    exact hq.files_eq.trans (hf (Nat.eq_zero_of_add_eq_zero_right h0))

theorem pushTrace_after {events : List Event} {w w₁ w' : World} (hread : Read 0 events w w₁)
    (h : PushTrace w₁ w') : PushTrace w w' := by
  obtain ⟨hf, events', he, hgets, hputs, hsaves⟩ := h
  obtain ⟨hq, he', hgets', hputs', hsaves'⟩ := hread
  refine ⟨hf.trans hq.files_eq, events ++ events', ?_, ?_, ?_, ?_⟩
  · rw [he, he', List.append_assoc]
  · rw [List.countP_append, Nat.le_zero.mp hgets', hgets]
  · rw [List.countP_append, hputs', Nat.zero_add]
    exact hputs
  · rw [List.countP_append, hsaves', hsaves]

/-- **How the controller of a pull ends.** -/
theorem ends_pullRemoteCurrentBook (config : Option Config) (w : World) :
    Ends (pullRemoteCurrentBook config) w (fun r w' => PullRan config w r w' ∧ PullTrace w w')
      (PullTrace w) := by
  unfold pullRemoteCurrentBook
  rw [ends_bind]
  refine (ends_preflight config).mono ?_ fun _ h => h.pullTrace zero_le_one
  rintro pre w₁ ⟨hread, hresolves⟩
  have htrace := hread.pullTrace zero_le_one
  dsimp only
  cases hpre : pre.resolved with
  | error stop => exact ⟨.stopped hread (stop.explicit_ne _), htrace⟩
  | ok resolved =>
    dsimp only
    unfold pullRemoteCurrentBookResolved
    by_cases hconfig : ¬ resolved.accepted
    · rw [if_pos hconfig]
      exact ⟨.stopped hread (by simp), htrace⟩
    rw [if_neg hconfig]
    cases hclient : resolved.client with
    | none => exact ⟨.stopped hread (by simp), htrace⟩
    | some client =>
      dsimp only
      rw [ends_bind]
      refine (ends_pullRemoteOnce _ _).mono ?_ fun _ h => pullTrace_after hread h
      rintro pull w' ⟨hpulled, ht⟩
      exact ⟨.executed (hresolves _ hpre) hclient hread hpulled, pullTrace_after hread ht⟩

/-- **How the controller of a push ends**: it changes no file and makes no GET. -/
theorem ends_pushLocalCurrentBook (config : Option Config) (w : World) :
    Ends (pushLocalCurrentBook config) w (fun _ w' => PushTrace w w') (PushTrace w) := by
  unfold pushLocalCurrentBook
  rw [ends_bind]
  refine (ends_preflight config).mono ?_ fun _ h => h.pushTrace
  rintro pre w₁ ⟨hread, -⟩
  dsimp only
  cases pre.resolved with
  | error stop => exact hread.pushTrace
  | ok resolved =>
    dsimp only
    unfold pushLocalCurrentBookResolved
    by_cases hconfig : ¬ resolved.accepted ∨ resolved.deviceId = none
    · rw [if_pos hconfig]
      exact hread.pushTrace
    rw [if_neg hconfig]
    cases resolved.client with
    | none => exact hread.pushTrace
    | some client =>
      dsimp only
      rw [ends_bind]
      exact (ends_pushLocalOnce _ _).mono (fun _ _ h => pushTrace_after hread h.2)
        fun _ h => pushTrace_after hread h

end SyncController
