import CrossNook.Account.Lifecycle

/-!
# Whom a key is sent to

The base URL of an account is in one file, its user and key in another one. A request for an
authorization takes both from the disk, and the two need not have been entered together: where a
correction replaces the settings and its save of the credentials fails, an activation of what is
stored sends the key of one server to another one.

## Main definitions

* `AccountSetup.Entered`: the base URL, the user and the key of one submission
* `AccountSetup.Paired`: what is on the disk was entered together
* `AccountSetup.SentPaired`: what was sent was entered together

## Main results

* `AccountSetup.sends_paired`: what holds where only paired accounts are activated
* `AccountSetup.key_sent_elsewhere`: a run that sends a key to another server
-/

namespace AccountSetup

open Bytes (ascii)
open Crash Kosync Posix
open Account (View view)
open StorageLayout (Layout)
open SyncActivation (Runtime Activation Authorizes)

/-! ## What was entered -/

/-- The base URL, the user and the key belong to one submission among the calls. -/
def Entered (ops : List Op) (baseUrl username userkey : List UInt8) : Prop :=
  ∃ input intent runtime entropy, Op.submit (some input) intent runtime entropy ∈ ops ∧
    input.baseUrl = some baseUrl ∧ input.username = some username ∧
    ∃ password, input.password = some password ∧ userkey = Md5.hex (Md5.digest password)

/-- The base URL and the credentials on the disk belong to one submission. -/
def Paired (ops : List Op) (v : View) : Prop :=
  ∀ settings credentials, v.storedSettings = .ok settings → v.storedCredentials = .ok credentials →
    Entered ops settings.kosyncBaseUrl credentials.username credentials.userkey

/-- Every request for an authorization is made of what belongs to one submission. -/
def SentPaired (ops : List Op) (events : List Event) : Prop :=
  ∀ request outcome, Event.exchange request outcome ∈ events → ∃ baseUrl username userkey,
    Entered ops baseUrl username userkey ∧ Authorizes baseUrl username userkey request

/-- An account that is stored is activated only if it was entered together. -/
def PairedCalls (ops : List Op) (v : View) (op : Op) : Prop :=
  ∀ runtime entropy, op = .activateExisting runtime entropy → Paired ops v

theorem Entered.mono {ops ops' : List Op} {baseUrl username userkey : List UInt8}
    (h : Entered ops baseUrl username userkey) (hsub : ops ⊆ ops') :
    Entered ops' baseUrl username userkey := by
  obtain ⟨input, intent, runtime, entropy, hmem, hrest⟩ := h
  exact ⟨input, intent, runtime, entropy, hsub hmem, hrest⟩

/-- The records of a submission are entered by it. -/
theorem entered_of_desired {ops : List Op} {input : Input} {intent : Intent}
    {runtime : Option Runtime} {entropy : Option (Fin 16 → UInt8)} {settings : Settings}
    {credentials : Credentials} (hmem : Op.submit (some input) intent runtime entropy ∈ ops)
    (h : input.Desired settings credentials) :
    Entered ops settings.kosyncBaseUrl credentials.username credentials.userkey := by
  obtain ⟨password, hpassword, hkey⟩ := h.userkey
  exact ⟨input, intent, runtime, entropy, hmem, h.baseUrl_eq, h.username_eq, password, hpassword,
    hkey⟩

theorem Paired.mono {ops ops' : List Op} {v : View} (h : Paired ops v) (hsub : ops ⊆ ops') :
    Paired ops' v :=
  fun settings credentials hs hc => (h settings credentials hs hc).mono hsub

/-! ## What is sent -/

/-- What is sent besides what had been sent is made of the account `v`. -/
def SendsFor (v : View) (w w' : World) : Prop :=
  ∀ request outcome, Event.exchange request outcome ∈ w'.events →
    Event.exchange request outcome ∈ w.events ∨ ∃ settings credentials,
      v.storedSettings = .ok settings ∧ v.storedCredentials = .ok credentials ∧
      Authorizes settings.kosyncBaseUrl credentials.username credentials.userkey request

/-- The base URL and the credentials are those that were there. -/
def SameAccount (v v' : View) : Prop :=
  ∀ settings' credentials, v'.storedSettings = .ok settings' →
    v'.storedCredentials = .ok credentials → v.storedCredentials = .ok credentials ∧
      ∃ settings, v.storedSettings = .ok settings ∧ settings.kosyncBaseUrl = settings'.kosyncBaseUrl

theorem SameAccount.refl (v : View) : SameAccount v v :=
  fun settings' _ hs hc => ⟨hc, settings', hs, rfl⟩

theorem SameAccount.paired {ops : List Op} {v v' : View} (h : SameAccount v v')
    (hpaired : Paired ops v) : Paired ops v' := by
  intro settings' credentials hs' hc'
  obtain ⟨hc, settings, hs, hurl⟩ := h settings' credentials hs' hc'
  rw [← hurl]
  exact hpaired settings credentials hs hc

section Calls

variable {layout : Layout} {w w' : World}

theorem sendsFor_of_events {v : View} (h : w'.events = w.events) : SendsFor v w w' := by
  intro request outcome hmem
  rw [h] at hmem
  exact .inl hmem

/-- An activation asks for the account on the disk. -/
theorem sendsFor_of_activation {status : Option SyncActivation.Status}
    (h : Activation layout w status w') : SendsFor (view layout w.files) w w' := by
  have hsetup : ∀ {setup : List Event} {request outcome}, (∀ e ∈ setup, e.IsSetup) →
      Event.exchange request outcome ∉ setup := fun hall hmem => hall _ hmem
  have hasks : ∀ {settings : Settings} {credentials : Credentials} {outcome : NetSimple.Outcome},
      SyncActivation.Ready (view layout w.files) settings credentials →
      SyncActivation.Asks settings credentials outcome w w' →
      SendsFor (view layout w.files) w w' := by
    rintro settings credentials outcome hready ⟨setup, request, hevents, hall, hauthorizes⟩
      request' outcome' hmem
    rw [hevents, List.mem_append, List.mem_append, List.mem_singleton] at hmem
    rcases hmem with (hmem | hmem) | hmem
    · exact .inl hmem
    · exact absurd hmem (hsetup hall)
    · cases hmem
      exact .inr ⟨settings, credentials, hready.settings_eq, hready.credentials_eq, hauthorizes⟩
  cases h with
  | quiet _ _ hquiet =>
    obtain ⟨setup, hevents, hall⟩ := hquiet
    intro request outcome hmem
    rw [hevents, List.mem_append] at hmem
    exact hmem.imp_right fun h => absurd h (hsetup hall)
  | asked _ _ hready h => exact hasks hready h
  | enabled _ hready h => exact hasks hready h

/-- An activation keeps the base URL and the credentials. -/
theorem sameAccount_of_activation {status : Option SyncActivation.Status}
    (h : Activation layout w status w') :
    SameAccount (view layout w.files) (view layout w'.files) := by
  cases h with
  | quiet _ hview =>
    rw [hview]
    exact .refl _
  | asked _ _ _ _ hview =>
    rw [hview]
    exact .refl _
  | enabled _ hready _ _ hsaved =>
    intro settings' credentials hs' hc'
    rw [hsaved.stored] at hs'
    cases hs'
    rw [View.storedCredentials, hsaved.credentials_eq] at hc'
    exact ⟨hc', _, hready.settings_eq, rfl⟩

theorem prepares_spec {r : Option Status} (h : Prepares layout w r w') :
    SendsFor (view layout w.files) w w' ∧
      SameAccount (view layout w.files) (view layout w'.files) := by
  cases h with
  | stopped _ hview hevents =>
    rw [hview]
    exact ⟨sendsFor_of_events hevents, .refl _⟩
  | activated hview hevents h hfiles hafter =>
    have hsends := sendsFor_of_activation h
    have hsame := sameAccount_of_activation h
    rw [hview] at hsends hsame
    refine ⟨fun request outcome hmem => ?_, ?_⟩
    · rw [hafter] at hmem
      rw [← hevents]
      exact hsends request outcome hmem
    · rw [hfiles]
      exact hsame

/-- What a call sends: a submission sends what was entered with it, and an activation of what is
stored sends that. -/
theorem op_sends (ops : List Op) (op : Op) (w : World) (request : NetSimple.Request)
    (outcome : NetSimple.Outcome)
    (hmem : Event.exchange request outcome ∈ (Op.run layout op w).2.events) :
    Event.exchange request outcome ∈ w.events ∨
      (∃ baseUrl username userkey, Entered (ops ++ [op]) baseUrl username userkey ∧
        Authorizes baseUrl username userkey request) ∨
      ∃ runtime entropy, op = .activateExisting runtime entropy ∧ ∃ settings credentials,
        (view layout w.files).storedSettings = .ok settings ∧
        (view layout w.files).storedCredentials = .ok credentials ∧
        Authorizes settings.kosyncBaseUrl credentials.username credentials.userkey request := by
  revert hmem
  cases op with
  | inspect =>
    have hevents : (Op.run layout .inspect w).2.events = w.events := by
      refine of_ends (P := fun w' => w'.events = w.events) ?_
      exact (ends_inspect layout w).mono (fun _ _ h => h.2.1) fun _ h => h.2
    rw [hevents]
    exact .inl
  -- an activation authorizes with what was stored before the call
  | activateExisting runtime entropy =>
    have hsends : SendsFor (view layout w.files) w
        (Op.run layout (.activateExisting runtime entropy) w).2 := by
      have hcall : ∀ {w' : World} {localState : LocalState} {r : Option Status},
          ActivatedExisting layout w.pid w localState r w' →
          SendsFor (view layout w.files) w w' := by
        intro w' localState r h
        cases h with
        | refused _ _ hevents => exact sendsFor_of_events hevents
        | prepared _ _ h => exact (prepares_spec h).1
      refine of_ends ?_
      exact (ends_activateExisting layout runtime entropy w).mono
        (fun _ _ h => hcall h.2) fun _ ⟨_, h⟩ => hcall h
    exact fun hmem => (hsends request outcome hmem).imp_right fun h =>
      .inr ⟨runtime, entropy, rfl, h⟩
  -- a submission stores what was entered first, and authorizes with it then
  | submit input intent runtime entropy =>
    have hcall : ∀ {w' : World} {localState : LocalState} {r : Option Status},
        Submitted layout w.pid input intent w localState r w' →
        Event.exchange request outcome ∈ w'.events → Event.exchange request outcome ∈ w.events ∨
          ∃ baseUrl username userkey,
            Entered (ops ++ [.submit input intent runtime entropy]) baseUrl username userkey ∧
            Authorizes baseUrl username userkey request := by
      intro w' localState r h hmem
      cases h with
      | refused _ _ hevents =>
        rw [hevents] at hmem
        exact .inl hmem
      | stopped _ _ _ _ hevents =>
        rw [hevents] at hmem
        exact .inl hmem
      | stored hinput _ hdesired _ hevents hs hc h =>
        subst hinput
        rw [← hevents]
        refine ((prepares_spec h).1 request outcome hmem).imp_right ?_
        -- what is on the disk now is what this submission stored
        rintro ⟨settings, credentials, hs', hc', hauthorizes⟩
        obtain rfl := Except.ok.inj (hs.symm.trans hs')
        obtain rfl := Except.ok.inj (hc.symm.trans hc')
        exact ⟨_, _, _, entered_of_desired (List.mem_append_right _ (List.mem_singleton.mpr rfl))
          hdesired, hauthorizes⟩
    intro hmem
    refine or_assoc.mp (.inl ?_)
    refine of_ends (P := fun w' => Event.exchange request outcome ∈ w'.events → _) ?_ hmem
    exact (ends_submit layout input intent runtime entropy w).mono
      (fun _ _ h => hcall h.2) fun _ ⟨_, h⟩ => hcall h

/-- **Where only paired accounts are activated**, all that was sent was entered together. -/
theorem sentPaired_of_runs {ops : List Op} {files : Path → Option Node} {events : List Event}
    (h : Runs layout PairedCalls ops files events) : SentPaired ops events := by
  induction h with
  | start => exact fun _ _ hmem => absurd hmem List.not_mem_nil
  | @call ops files events hruns op w hcondition hfiles hevents ih =>
    subst hfiles hevents
    have hsub : ops ⊆ ops ++ [op] := List.subset_append_left _ _
    intro request outcome hmem
    rcases op_sends ops op w request outcome hmem with hmem | hentered | hstored
    · obtain ⟨baseUrl, username, userkey, hentered, hauthorizes⟩ := ih request outcome hmem
      exact ⟨baseUrl, username, userkey, hentered.mono hsub, hauthorizes⟩
    · exact hentered
    · obtain ⟨runtime, entropy, hop, settings, credentials, hs, hc, hauthorizes⟩ := hstored
      exact ⟨_, _, _, (hcondition runtime entropy hop settings credentials hs hc).mono hsub,
        hauthorizes⟩

/-! ## How an account comes apart -/

/-- A correction comes apart: it asks for another base URL, its settings are stored, and the
credentials are those that were there and not those that it asks for. -/
def Splits (op : Op) (v v' : View) : Prop :=
  ∃ input runtime entropy settings credentials old,
    op = .submit (some input) .replaceDisabled runtime entropy ∧
    input.Desired settings credentials ∧ v.storedSettings = .ok old ∧
    old.kosyncBaseUrl ≠ settings.kosyncBaseUrl ∧ v'.storedSettings = .ok settings ∧
    v'.credentials = v.credentials ∧ v.storedCredentials ≠ .ok credentials

theorem storedCredentials_of_look {pid : ℕ} {localState : LocalState} {v : View}
    (h : Found layout pid v localState)
    (hstate : localState = .noAccount ∨ localState = .partialDisabled) :
    v.storedCredentials = .error .missing := by
  have hmissing : v.lookCredentials layout = .error .missing := by
    rcases hstate with rfl | rfl <;> cases h <;> assumption
  rw [← hmissing]
  refine (View.lookCredentials_eq ?_ rfl).symm
  rintro ⟨result, he, -, hne, -⟩
  rw [hmissing] at he
  cases he
  exact hne rfl

/-- The records that a bootstrap stored are paired, unless it comes apart. -/
theorem paired_of_wrote {ops : List Op} {pid : ℕ} {input : Input} {intent : Intent}
    {runtime : Option Runtime} {entropy : Option (Fin 16 → UInt8)} {localState : LocalState}
    {settings : Settings} {credentials : Credentials} {a b : Bool}
    (hproceeds : Proceeds layout pid input intent (view layout w.files) localState)
    (hdesired : input.Desired settings credentials)
    (hwrote : AccountBootstrap.Wrote settings credentials a b (view layout w.files)
      (view layout w'.files)) (hpaired : Paired ops (view layout w.files)) :
    Paired (ops ++ [.submit (some input) intent runtime entropy]) (view layout w'.files) ∨
      Splits (.submit (some input) intent runtime entropy) (view layout w.files)
        (view layout w'.files) := by
  have hmem : Op.submit (some input) intent runtime entropy ∈
      ops ++ [.submit (some input) intent runtime entropy] :=
    List.mem_append_right _ (List.mem_singleton.mpr rfl)
  have hentered := entered_of_desired hmem hdesired
  have hall : ∀ {v : View}, v.storedSettings = .ok settings → v.storedCredentials = .ok credentials →
      Paired (ops ++ [.submit (some input) intent runtime entropy]) v := by
    intro v hs hc settings' credentials' hs' hc'
    obtain rfl := Except.ok.inj (hs.symm.trans hs')
    obtain rfl := Except.ok.inj (hc.symm.trans hc')
    exact hentered
  obtain ⟨hlocal, hwhy⟩ := hproceeds
  have hfound := found layout pid w.files
  rw [← hlocal] at hfound
  generalize view layout w'.files = v' at hwrote ⊢
  -- by what was written: with both records stored the pair is that of this submission
  cases hwrote.written with
  | neither => exact .inl (hpaired.mono (List.subset_append_left _ _))
  | credentials hsaved => exact .inl (hall (hwrote.ordered rfl) hsaved.stored)
  | both _ hsaved => exact .inl (hall (hwrote.ordered rfl) hsaved.stored)
  | settings hsaved =>
    have hkept : v'.storedCredentials = (view layout w.files).storedCredentials := by
      rw [View.storedCredentials, View.storedCredentials, hsaved.credentials_eq]
    -- new settings beside credentials that stay
    by_cases hc : (view layout w.files).storedCredentials = .ok credentials
    · exact .inl (hall hsaved.stored (hkept.trans hc))
    rcases hwhy with ⟨-, hstate⟩ | ⟨rfl, rfl⟩
    · -- there are no credentials that could belong to another submission
      have hnone := storedCredentials_of_look hfound (hstate.imp_right And.left)
      refine .inl fun _ credentials' _ hc' => ?_
      rw [hkept, hnone] at hc'
      cases hc'
    · cases hfound with
      | @completeDisabled old _ hs hdisabled _ =>
        have hold : (view layout w.files).storedSettings = .ok old :=
          (storedSettings_of_look (.inr ⟨old, hs⟩)).trans hs
        by_cases hurl : old.kosyncBaseUrl = settings.kosyncBaseUrl
        · have hsame : SameAccount (view layout w.files) v' := by
            intro settings' credentials' hs' hc'
            obtain rfl := Except.ok.inj (hsaved.stored.symm.trans hs')
            exact ⟨hkept.symm.trans hc', old, hold, hurl⟩
          exact .inl ((hsame.paired hpaired).mono (List.subset_append_left _ _))
        · exact .inr ⟨input, runtime, entropy, settings, credentials, old, rfl, hdesired, hold, hurl,
            hsaved.stored, hsaved.credentials_eq, hc⟩

/-- **A paired account stays paired**, unless a correction comes apart. -/
theorem paired_or_splits {ops : List Op} (op : Op) (w : World)
    (hpaired : Paired ops (view layout w.files)) :
    Paired (ops ++ [op]) (view layout (op.run layout w).2.files) ∨
      Splits op (view layout w.files) (view layout (op.run layout w).2.files) := by
  have hkept : ∀ {op : Op} {v : View}, SameAccount (view layout w.files) v →
      Paired (ops ++ [op]) v := fun hsame => (hsame.paired hpaired).mono (List.subset_append_left _ _)
  have hsame : ∀ {v : View}, v = view layout w.files → SameAccount (view layout w.files) v := by
    rintro v rfl
    exact .refl _
  refine of_ends (P := fun w' => Paired (ops ++ [op]) (view layout w'.files) ∨
    Splits op (view layout w.files) (view layout w'.files)) ?_
  cases op with
  | inspect =>
    exact (ends_inspect layout w).mono
      (fun _ _ h => .inl (hkept (hsame (by rw [h.1])))) fun _ h => .inl (hkept (hsame (by rw [h.1])))
  | activateExisting runtime entropy =>
    have hcall : ∀ {w' : World} {localState : LocalState} {r : Option Status},
        ActivatedExisting layout w.pid w localState r w' →
        SameAccount (view layout w.files) (view layout w'.files) := by
      intro w' localState r h
      cases h with
      | refused _ hview => exact hsame hview
      | prepared _ _ h => exact (prepares_spec h).2
    exact (ends_activateExisting layout runtime entropy w).mono
      (fun _ _ h => .inl (hkept (hcall h.2))) fun _ ⟨_, h⟩ => .inl (hkept (hcall h))
  | submit input intent runtime entropy =>
    have hcall : ∀ {w' : World} {localState : LocalState} {r : Option Status},
        Submitted layout w.pid input intent w localState r w' →
        Paired (ops ++ [.submit input intent runtime entropy]) (view layout w'.files) ∨
          Splits (.submit input intent runtime entropy) (view layout w.files)
            (view layout w'.files) := by
      intro w' localState r h
      cases h with
      | refused _ hview => exact .inl (hkept (hsame hview))
      | stopped hinput hproceeds hdesired hwrote =>
        subst hinput
        exact paired_of_wrote hproceeds hdesired hwrote hpaired
      | stored hinput hproceeds hdesired hwrote _ hs hc h =>
        subst hinput
        -- both records are on the disk, and the activation keeps what pairs them
        refine .inl ((prepares_spec h).2.paired ?_)
        intro settings' credentials' hs' hc'
        obtain rfl := Except.ok.inj (hs.symm.trans hs')
        obtain rfl := Except.ok.inj (hc.symm.trans hc')
        exact entered_of_desired (List.mem_append_right _ (List.mem_singleton.mpr rfl)) hdesired
    exact (ends_submit layout input intent runtime entropy w).mono
      (fun _ _ h => hcall h.2) fun _ ⟨_, h⟩ => hcall h

end Calls

/-- The runs in which no correction comes apart. -/
inductive Unsplit (layout : Layout) : List Op → (Path → Option Node) → List Event → Prop
  | start {files : Path → Option Node} (h : EmptyPrepared (view layout files)) :
    Unsplit layout [] files []
  | call {ops : List Op} {files : Path → Option Node} {events : List Event}
    (h : Unsplit layout ops files events) (op : Op) (w : World)
    (hwhole : ¬ Splits op (view layout files) (view layout (op.run layout w).2.files))
    (hfiles : w.files = files) (hevents : w.events = events) :
    Unsplit layout (ops ++ [op]) (op.run layout w).2.files (op.run layout w).2.events

/-- **In a run in which no correction comes apart** the account stays paired, whenever it is
activated. -/
theorem Unsplit.paired {layout : Layout} {ops : List Op} {files : Path → Option Node}
    {events : List Event} (h : Unsplit layout ops files events) :
    Runs layout PairedCalls ops files events ∧ Paired ops (view layout files) := by
  induction h with
  | start h =>
    refine ⟨.start h, ?_⟩
    intro settings credentials hsettings
    rw [View.storedSettings, h.settings] at hsettings
    cases hsettings
  | call _ op w hwhole hfiles hevents ih =>
    obtain ⟨hruns, hpaired⟩ := ih
    subst hfiles
    exact ⟨hruns.call op w (fun _ _ _ => hpaired) rfl hevents,
      (paired_or_splits op w hpaired).resolve_right hwhole⟩

/-- **Whom a key is sent to.** Where an account is activated only while it is paired, all that is
sent was entered together; what is stored stays paired unless a correction to another server
stores its settings and not its credentials; and so it is in every run without such a correction. -/
theorem sends_paired (layout : Layout) :
    (∀ ops files events, Runs layout PairedCalls ops files events → SentPaired ops events) ∧
    (∀ ops op w, Paired ops (view layout w.files) →
      Paired (ops ++ [op]) (view layout (Op.run layout op w).2.files) ∨
        Splits op (view layout w.files) (view layout (Op.run layout op w).2.files)) ∧
    ∀ ops files events, Unsplit layout ops files events →
      Paired ops (view layout files) ∧ SentPaired ops events :=
  ⟨fun _ _ _ h => sentPaired_of_runs h, fun _ op w hpaired => paired_or_splits op w hpaired,
    fun _ _ _ h => ⟨h.paired.2, sentPaired_of_runs h.paired.1⟩⟩

/-! ## A key that is sent to another server -/

/-- What a request for an authorization carries. -/
theorem Authorizes.carries {baseUrl username userkey : List UInt8} {request : NetSimple.Request}
    (h : Authorizes baseUrl username userkey request) : ∃ client,
      clientInit baseUrl username userkey = some client ∧ request.host = client.host ∧
        request.headers = requestHeaders client := by
  obtain ⟨client, tls, address, routed, path, hinit, htls, -, rfl⟩ := h
  refine ⟨client, hinit, ?_⟩
  unfold clientSetTls at htls
  dsimp only at htls
  split_ifs at htls
  cases htls
  exact ⟨rfl, rfl⟩

/-- A request that carries a key to a host. -/
def sentTo (host userkey : List UInt8) : Event → Bool
  | .exchange request _ => request.host = host ∧ ⟨ascii "x-auth-key", userkey⟩ ∈ request.headers
  | _ => false

/-- A runtime whose caller established the time. -/
def exampleRuntime : Runtime where
  dns := some ⟨[some (ascii "1.1.1.1")]⟩
  tls := some ⟨some (ascii "/ca"), false⟩
  timePolicy := .callerEstablished
  time := false

/-- What is entered for a server. -/
def exampleInput (baseUrl username password : List UInt8) : Input :=
  ⟨some baseUrl, some (ascii "d"), some username, some password⟩

/-- A submission of it. -/
def exampleSubmit (baseUrl username password : List UInt8) (intent : Intent) : Op :=
  .submit (some (exampleInput baseUrl username password)) intent (some exampleRuntime)
    (some fun _ => 7)

/-- A server that is reached and answers. -/
def exampleWire : NetSimple.Wire where
  direct := ⟨true, true, none, true, [], none⟩
  resolved := none
  nonblocking := true
  tlsOpen := .ok
  tlsRequest := .done
  tlsBody := .done
  tlsTurns := [⟨ascii "HTTP/1.1 200 OK\r\nContent-Length: 0\r\n\r\n", .ok, false⟩, ⟨[], .ok, true⟩]
  sendTurns := []
  bodyTurns := []
  restored := true
  recvTurns := []

/-- A world for a call after another one. -/
def exampleWorld (w : World) (script : List Fate)
    (resolution : DnsResult × List (List UInt8)) (wires : List NetSimple.Wire) : World :=
  { w with machine := { w.machine with script }, resolutions := [resolution], wires }

theorem exampleWorld_files (w : World) (script : List Fate)
    (resolution : DnsResult × List (List UInt8)) (wires : List NetSimple.Wire) :
    (exampleWorld w script resolution wires).files = w.files := rfl

theorem exampleWorld_events (w : World) (script : List Fate)
    (resolution : DnsResult × List (List UInt8)) (wires : List NetSimple.Wire) :
    (exampleWorld w script resolution wires).events = w.events := rfl

/-- The world before the first call. -/
def emptyWorld : World where
  machine := AccountBootstrap.exampleMachine
  pid := 7
  sequence := 0
  times := []
  resolutions := []
  wires := []
  heaps := []
  events := []

/-- An account for one server, entered where no server can be resolved. -/
def firstServer : Op :=
  exampleSubmit (ascii "https://a") (ascii "u") (ascii "p") .newOrResume

/-- Its correction to another server. -/
def secondServer : Op :=
  exampleSubmit (ascii "https://b") (ascii "v") (ascii "q") .replaceDisabled

theorem eio_ne : Errno.eio ≠ .ENOENT := by decide

/-- The worlds of the three calls: the save of the credentials fails in the second one, and the
server of the third one answers. -/
def world₁ : World :=
  exampleWorld emptyWorld (List.replicate 100 (.succeed 4096)) (.timeout, []) []

@[inherit_doc world₁]
def world₂ : World :=
  exampleWorld (firstServer.run ⟨ascii "/m", 2⟩ world₁).2
    (List.replicate 43 (.succeed 4096) ++ .fail ⟨.eio, eio_ne⟩ :: List.replicate 60 (.succeed 4096))
    (.timeout, []) []

@[inherit_doc world₁]
def world₃ : World :=
  exampleWorld (secondServer.run ⟨ascii "/m", 2⟩ world₂).2 (List.replicate 100 (.succeed 4096))
    (.ok, [ascii "10.0.0.2"]) [exampleWire]

/-- **A key is sent to another server**: the settings of the second server are stored, the
credentials are those of the first one, and an activation of what is stored sends these. -/
theorem key_sent_elsewhere : ¬ ∀ layout ops files events, Runs layout AnyCall ops files events →
    SentPaired ops events := by
  intro h
  have hempty : EmptyPrepared (view ⟨ascii "/m", 2⟩ world₁.files) := by
    constructor <;> decide +kernel
  have hstart : Runs ⟨ascii "/m", 2⟩ AnyCall [] world₁.files [] := .start hempty
  have hfirst := hstart.call firstServer world₁ trivial rfl rfl
  have hsecond := hfirst.call secondServer world₂ trivial
    (by rw [world₂, exampleWorld_files]) (by rw [world₂, exampleWorld_events])
  -- both servers were entered, the second one only with its settings
  have hruns := hsecond.call (.activateExisting (some exampleRuntime) (some fun _ => 7)) world₃ trivial
    (by rw [world₃, exampleWorld_files]) (by rw [world₃, exampleWorld_events])
  -- the activation sends the key of the first to the second
  have hsent : ((Op.activateExisting (some exampleRuntime) (some fun _ => 7)).run ⟨ascii "/m", 2⟩
      world₃).2.events.any (sentTo (ascii "b") (Md5.hex (Md5.digest (ascii "p")))) = true := by
    decide +kernel
  obtain ⟨event, hmem, hevent⟩ := List.any_eq_true.mp hsent
  cases event with
  | exchange request outcome =>
    obtain ⟨baseUrl, username, userkey, hentered, hauthorizes⟩ :=
      h _ _ _ _ hruns request outcome hmem
    obtain ⟨input, intent, runtime, entropy, hop, hurl, huser, password, hpassword, hkey⟩ := hentered
    obtain ⟨client, hinit, hhost, hheaders⟩ := Authorizes.carries hauthorizes
    rw [sentTo, decide_eq_true_iff, hhost, hheaders] at hevent
    -- no pair of the two entered ones authorizes such a request
    have hclient : (clientInit baseUrl username userkey).any (fun client =>
        client.host = ascii "b" ∧ ⟨ascii "x-auth-key", Md5.hex (Md5.digest (ascii "p"))⟩ ∈
          requestHeaders client) = true := by
      rw [hinit]
      exact decide_eq_true hevent
    have hops : Op.submit (some input) intent runtime entropy = firstServer ∨
        Op.submit (some input) intent runtime entropy = secondServer := by
      simpa using hop
    rcases hops with hop | hop <;> cases hop <;> cases hurl <;> cases huser <;> cases hpassword <;>
      rw [hkey] at hclient <;> exact absurd hclient (by decide +kernel)
  | _ => cases hevent

end AccountSetup
