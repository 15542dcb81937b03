import CrossNook.Sync.Client

/-!
# Sessions

What the sync operations and the activation of an account do before their request: establish the
time, resolve the host and route the client to the first address. The operations spell these
calls out one by one.

## Main definitions

* `Kosync.openSession`: the calls of `cn_timesimple_sync`, `cn_dnssimple_resolve_a` and
  `cn_kosync_client_set_tls`

## Main results

* `Kosync.ends_openSession`: a session exchanges nothing and changes no file
-/

namespace Kosync

open Crash Posix

/-- `cn_kosync_sync_time_policy`. -/
inductive TimePolicy
  | establish
  | callerEstablished
  deriving DecidableEq, Repr

/-- The results of the calls that open a session, and the client where all succeeded. A result
that was not reached stands at its initial value. -/
structure Session where
  timeResult : TimeResult
  dnsResult : DnsResult
  kosyncResult : Result
  client : Option Client
  deriving DecidableEq, Repr

/-- The call that establishes the time, where the policy asks for it. -/
def establishTime (policy : TimePolicy) : Env TimeResult :=
  if policy = .establish then timesimpleSync else return .ok

/-- The calls that route a copy of the client to the address of its host. -/
def openSession (policy : TimePolicy) (tls : TlsConfig) (client : Client) : Env Session := do
  let timeResult ← establishTime policy
  if timeResult ≠ .ok then return ⟨timeResult, .invalid, .invalid, none⟩
  else do
    let (dnsResult, addresses) ← resolveA client.host
    if dnsResult ≠ .ok then return ⟨.ok, dnsResult, .invalid, none⟩
    else
      match addresses with
      | [] => return ⟨.ok, .noAddress, .invalid, none⟩
      | address :: _ =>
        match clientSetTls client tls (some address) with
        | none => return ⟨.ok, .ok, .invalid, none⟩
        | some client => return ⟨.ok, .ok, .ok, some client⟩

/-- The events of opening a session. -/
def Event.IsSetup : Event → Prop
  | .time _ | .dns _ _ => True
  | _ => False

/-- The session of a client: all calls succeeded and the client is routed, or one failed. -/
inductive Opens (client : Client) (tls : TlsConfig) : Session → Prop
  | time {timeResult : TimeResult} (h : timeResult ≠ .ok) :
    Opens client tls ⟨timeResult, .invalid, .invalid, none⟩
  | dns {dnsResult : DnsResult} (h : dnsResult ≠ .ok) :
    Opens client tls ⟨.ok, dnsResult, .invalid, none⟩
  | client : Opens client tls ⟨.ok, .ok, .invalid, none⟩
  | opened {routed : Client} {address : List UInt8}
    (h : clientSetTls client tls (some address) = some routed) :
    Opens client tls ⟨.ok, .ok, .ok, some routed⟩

/-- The world after the calls that open a session. -/
def SetUp (w w' : World) : Prop :=
  Quiet w w' ∧ ∃ events, w'.events = w.events ++ events ∧ ∀ e ∈ events, e.IsSetup

/-- **Opening a session.** -/
theorem ends_openSession (policy : TimePolicy) (tls : TlsConfig) (client : Client) (w : World) :
    Ends (openSession policy tls client) w (fun session w' => SetUp w w' ∧ Opens client tls session)
      (SetUp w) := by
  have hrefl : SetUp w w := ⟨.refl w, [], (List.append_nil _).symm, fun _ h => by cases h⟩
  -- only the policy `establish` asks for the time
  have htime : Ends (establishTime policy) w (fun _ w' => SetUp w w') (SetUp w) := by
    unfold establishTime
    by_cases hpolicy : policy = .establish
    · rw [if_pos hpolicy]
      exact ends_timesimpleSync hrefl fun result times =>
        ⟨⟨rfl, fun _ h => h⟩, [.time result], rfl, by simp [Event.IsSetup]⟩
    · rw [if_neg hpolicy]
      exact hrefl
  unfold openSession
  rw [ends_bind]
  refine htime.mono ?_ fun _ h => h
  rintro timeResult w' hw'
  by_cases htime : timeResult ≠ .ok
  · rw [if_pos htime]
    exact ⟨hw', .time htime⟩
  rw [if_neg htime, ends_bind]
  refine ends_resolveA hw' fun answer resolutions => ?_
  -- the name was looked up, and nothing else was done
  have hw'' : SetUp w { w' with resolutions, events := w'.events ++ [.dns client.host answer.1] } := by
    obtain ⟨hq, events, he, hall⟩ := hw'
    refine ⟨⟨hq.files_eq, hq.heaps_subset⟩, events ++ [.dns client.host answer.1], ?_, ?_⟩
    · simp [he]
    · simpa [or_imp, forall_and] using ⟨hall, trivial⟩
  obtain ⟨dnsResult, addresses⟩ := answer
  dsimp only at hw'' ⊢
  by_cases hdns : dnsResult ≠ .ok
  · rw [if_pos hdns]
    exact ⟨hw'', .dns hdns⟩
  rw [if_neg hdns]
  cases addresses with
  | nil => exact ⟨hw'', .dns (by simp)⟩
  | cons address addresses =>
    dsimp only
    cases h : clientSetTls client tls (some address) with
    | none => exact ⟨hw'', .client⟩
    | some routed => exact ⟨hw'', .opened h⟩

end Kosync
