import CrossNook.Net.TlsMachine

/-!
# How long a TLS connection waits

Every call of a connection has a deadline of its own: `cn_tls_open` that of its argument, the calls of
the application theirs, and `cn_tls_close` one of 200 ms behind its first reading of the clock.

## Main definitions

* `TlsSimple.limit`: the deadline in force behind a list of events

## Main results

* `TlsSimple.waits_in_time`: every poll begins by its deadline and waits for no longer than is left
-/

namespace TlsSimple

open DnsExchange (Direction)
open EventMachine (run)

/-- The deadline in force, and whether `cn_tls_close` is still to set it. -/
structure Limit where
  deadline : ℤ
  closing : Bool
  deriving DecidableEq

/-- What an event does to the deadline in force. -/
def Limit.after (l : Limit) : Event → Limit
  | .call (.sendAll _ deadline) => ⟨deadline, false⟩
  | .call (.recvSome _ deadline) => ⟨deadline, false⟩
  | .call .close => ⟨l.deadline, true⟩
  | .io (.monotonic now) => if l.closing then ⟨now + 200, false⟩ else l
  | _ => l

/-- The deadline in force behind a list of events. -/
def limit (config : Config) (events : List Event) : Limit :=
  events.foldl Limit.after ⟨config.deadline, false⟩

theorem limit_snoc (config : Config) (events : List Event) (e : Event) :
    limit config (events ++ [e]) = (limit config events).after e := by
  unfold limit
  rw [List.foldl_append]
  rfl

/-- The last event has read the clock by the deadline, and the timeout is what is left. -/
def Waits (reading : ℤ → Event) (events : List Event) (deadline timeout : ℤ) : Prop :=
  ∃ earlier now, events = earlier ++ [reading now] ∧ now ≤ deadline ∧
    timeout = min (deadline - now) DnsExchange.intMax

/-- What holds in a loop over the engine. -/
def PumpTimed (config : Config) (events : List Event) (job : Job) : Pump → Prop
  | .shutdown => (limit config events).closing = true
  | .flushPoll _ timeout => limit config events = ⟨job.deadline, false⟩ ∧
    Waits (fun now => .io (.monotonic now)) events job.deadline timeout
  | .ingestPoll _ timeout => limit config events = ⟨job.deadline, false⟩ ∧
    Waits (fun now => .io (.monotonic now)) events job.deadline timeout
  | _ => limit config events = ⟨job.deadline, false⟩

/-- What holds in `cn_tls_open` before its handshake. -/
def SetupTimed (config : Config) (events : List Event) : SetupPoint → Prop
  | .readyPoll _ timeout => limit config events = ⟨config.deadline, false⟩ ∧
    Waits (fun now => .setup (.monotonic now)) events config.deadline timeout
  | .entropyPoll _ timeout => limit config events = ⟨config.deadline, false⟩ ∧
    Waits (fun now => .setup (.monotonic now)) events config.deadline timeout
  | _ => limit config events = ⟨config.deadline, false⟩

/-- What holds at a point of the connection. -/
def PointTimed (config : Config) (events : List Event) : Point → Prop
  | .setup point => SetupTimed config events point
  | .pump job pump => PumpTimed config events job pump
  | _ => True

section Timed

variable {config : Config} {events : List Event} {job : Job} {pump : Pump} {s t : State}

theorem waits_pollIntervalMs {reading : ℤ → Event} {deadline now : ℤ}
    (h : ¬pollIntervalMs deadline now < 0) :
    Waits reading (events ++ [reading now]) deadline (pollIntervalMs deadline now) := by
  have hmax : DnsExchange.intMax = 2 ^ 31 - 1 := rfl
  refine ⟨events, now, rfl, ?_⟩
  unfold pollIntervalMs at h ⊢
  split_ifs at h ⊢ <;> omega

/-- An outcome in time. -/
def OutcomeTimed (config : Config) (events : List Event) : Outcome → Prop
  | .goOn job pump => PumpTimed config events job pump
  | .ends _ _ => True

/-- A place that asks for the deadline only. -/
def Pump.Free : Pump → Prop
  | .shutdown => False
  | .flushPoll _ _ => False
  | .ingestPoll _ _ => False
  | _ => True

/-- A call that leaves the deadline and the places with a timeout alone. -/
def Outcome.Free (deadline : ℤ) : Outcome → Prop
  | .goOn job pump => job.deadline = deadline ∧ pump.Free
  | .ends _ _ => True

theorem OutcomeTimed.of_free {outcome : Outcome} (h : limit config events = ⟨job.deadline, false⟩)
    (hfree : outcome.Free job.deadline) : OutcomeTimed config events outcome := by
  cases outcome with
  | ends result got => trivial
  | goOn job' pump' =>
    obtain ⟨hdeadline, hpump⟩ := hfree
    have hlimit : limit config events = ⟨job'.deadline, false⟩ := by
      rw [hdeadline]
      exact h
    cases pump' <;> first | exact hpump.elim | exact hlimit

theorem free_dispatch (job : Job) (flags : Flags) : (dispatch job flags).Free job.deadline := by
  obtain ⟨task, deadline⟩ := job
  unfold dispatch
  by_cases hclosed : flags.closed
  · rw [if_pos hclosed]
    exact ⟨rfl, trivial⟩
  · rw [if_neg hclosed]
    cases task with
    | shutdown => trivial
    | _ =>
      dsimp only
      split_ifs <;> trivial

theorem deadline_advance (job : Job) (chunk : List UInt8) :
    (job.advance chunk).deadline = job.deadline := by
  unfold Job.advance
  split <;> rfl

/-- **A call in a loop over the engine.** -/
theorem PumpTimed.step {phase : ℕ} {e : IoEvent} {outcome : Outcome}
    (h : PumpTimed config events job pump) (hstep : PumpStep phase job pump e outcome) :
    OutcomeTimed config (events ++ [.io e]) outcome := by
  have hsnoc := limit_snoc config events (.io e)
  cases hstep with
  | head flags => exact .of_free (hsnoc.trans h) (free_dispatch job flags)
  | classify error => trivial
  | sendApp room =>
    refine .of_free (hsnoc.trans h) ?_
    unfold afterSendappBuf
    split
    · split_ifs <;> trivial
    · trivial
  | sendAppAck chunk => exact .of_free (hsnoc.trans h) ⟨deadline_advance job chunk, trivial⟩
  | recvApp available =>
    refine .of_free (hsnoc.trans h) ?_
    unfold afterRecvappBuf
    split
    · split_ifs <;> trivial
    · trivial
  | recvAppAck got => trivial
  | flush records =>
    refine .of_free (hsnoc.trans h) ?_
    unfold flushed
    split_ifs <;> trivial
  | flushClock records now =>
    replace h : limit config events = ⟨job.deadline, false⟩ := h
    rw [h] at hsnoc
    split_ifs with hlate
    · trivial
    · exact ⟨hsnoc, waits_pollIntervalMs hlate⟩
  | flushPoll records timeout polled =>
    refine .of_free (hsnoc.trans h.1) ?_
    cases polled with
    | revents wanted hangup invalid =>
      unfold afterFlushPoll
      dsimp only
      split_ifs <;> trivial
    | interrupted => exact ⟨rfl, trivial⟩
    | _ => trivial
  | flushSend records sent hsent =>
    refine .of_free (hsnoc.trans h) ?_
    cases sent with
    | took n =>
      obtain ⟨-, hsent⟩ := of_ite_none hsent
      split_ifs at hsent
      · exact Option.some.inj hsent ▸ trivial
      · exact Option.some.inj hsent ▸ ⟨rfl, trivial⟩
    | again => exact Option.some.inj hsent ▸ ⟨rfl, trivial⟩
    | failed => exact Option.some.inj hsent ▸ trivial
  | flushAck records taken => exact .of_free (hsnoc.trans h) ⟨rfl, trivial⟩
  | ingest room =>
    refine .of_free (hsnoc.trans h) ?_
    split_ifs <;> exact ⟨rfl, trivial⟩
  | ingestClock room now =>
    replace h : limit config events = ⟨job.deadline, false⟩ := h
    rw [h] at hsnoc
    split_ifs with hlate
    · trivial
    · exact ⟨hsnoc, waits_pollIntervalMs hlate⟩
  | ingestPoll room timeout polled =>
    refine .of_free (hsnoc.trans h.1) ?_
    cases polled with
    | revents wanted hangup invalid =>
      unfold afterIngestPoll
      dsimp only
      split_ifs <;> trivial
    | interrupted => exact ⟨rfl, trivial⟩
    | _ => trivial
  | ingestRecv room received hreceived =>
    refine .of_free (hsnoc.trans h) ?_
    cases received with
    | bytes got =>
      obtain ⟨-, hreceived⟩ := of_ite_none hreceived
      split_ifs at hreceived
      · exact Option.some.inj hreceived ▸ trivial
      · exact Option.some.inj hreceived ▸ ⟨rfl, trivial⟩
    | again => exact Option.some.inj hreceived ▸ ⟨rfl, trivial⟩
    | failed => exact Option.some.inj hreceived ▸ trivial
  | ingestAck records => exact .of_free (hsnoc.trans h) ⟨rfl, trivial⟩
  | shutdown now =>
    -- `cn_tls_close` sets its deadline
    have hclosing : (limit config events).closing = true := h
    have hlimit : (limit config events).after (.io (.monotonic now)) = ⟨now + 200, false⟩ :=
      if_pos hclosing
    exact hsnoc.trans hlimit

/-- What holds behind a call of `cn_tls_open` before its handshake. -/
def SetupOutcomeTimed (config : Config) (events : List Event) : SetupOutcome → Prop
  | .goOn point => SetupTimed config events point
  | _ => limit config events = ⟨config.deadline, false⟩

/-- A place without a timeout. -/
def SetupPoint.Free : SetupPoint → Prop
  | .readyPoll _ _ => False
  | .entropyPoll _ _ => False
  | _ => True

/-- An outcome without a timeout. -/
def SetupOutcome.Free : SetupOutcome → Prop
  | .goOn point => point.Free
  | _ => True

theorem SetupOutcomeTimed.of_free {outcome : SetupOutcome}
    (h : limit config events = ⟨config.deadline, false⟩) (hfree : outcome.Free) :
    SetupOutcomeTimed config events outcome := by
  cases outcome with
  | goOn point => cases point <;> first | exact hfree.elim | exact h
  | _ => exact h

theorem SetupTimed.limit_eq {point : SetupPoint} (h : SetupTimed config events point) :
    limit config events = ⟨config.deadline, false⟩ := by
  cases point with
  | readyPoll settings timeout => exact h.1
  | entropyPoll settings timeout => exact h.1
  | _ => exact h

theorem free_afterPem (p : Pem) : (afterPem p).Free := by
  unfold afterPem
  split_ifs <;> trivial

theorem free_afterPush (p : Pem) (event : PemEvent) : (afterPush p event).Free := by
  cases event with
  | none => exact free_afterPem p
  | beginObj name => exact free_afterPem _
  | endObj =>
    unfold afterPush afterObject
    dsimp only
    split_ifs
    · trivial
    · trivial
    · exact free_afterPem _
  | error => trivial

theorem free_afterRead {got : List UInt8} {read : FileRead} {outcome : SetupOutcome}
    (h : afterRead got read = some outcome) : outcome.Free := by
  cases read with
  | bytes new =>
    obtain ⟨-, hsome⟩ := of_ite_none h
    split_ifs at hsome <;> obtain rfl := Option.some.inj hsome
    · exact free_afterPem _
    · trivial
    · trivial
  | _ =>
    obtain rfl := Option.some.inj h
    trivial

theorem free_afterExtra {got : List UInt8} {read : FileRead} {outcome : SetupOutcome}
    (h : afterExtra got read = some outcome) : outcome.Free := by
  cases read with
  | bytes new =>
    cases new with
    | nil =>
      obtain rfl := Option.some.inj h
      exact free_afterPem _
    | cons b new =>
      obtain rfl := Option.some.inj h
      trivial
  | _ =>
    obtain rfl := Option.some.inj h
    trivial

theorem free_afterEntropy {settings : Settings} {read : FileRead} {outcome : SetupOutcome}
    (h : afterEntropy config settings read = some outcome) : outcome.Free := by
  cases read with
  | bytes got =>
    obtain ⟨-, hsome⟩ := of_ite_none h
    dsimp only at hsome
    split_ifs at hsome <;> obtain rfl := Option.some.inj hsome <;> trivial
  | _ =>
    obtain rfl := Option.some.inj h
    trivial

/-- A reading of the clock, and the wait that it allows. -/
theorem timed_afterEntropyClock {now : ℤ} {poll : ℤ → SetupPoint}
    (hlimit : limit config (events ++ [.setup (.monotonic now)]) = ⟨config.deadline, false⟩)
    (hpoll : ∀ timeout, Waits (fun now => .setup (.monotonic now))
      (events ++ [.setup (.monotonic now)]) config.deadline timeout →
        SetupTimed config (events ++ [.setup (.monotonic now)]) (poll timeout)) :
    SetupOutcomeTimed config (events ++ [.setup (.monotonic now)])
      (afterEntropyClock config now poll) := by
  unfold afterEntropyClock
  split_ifs with hlate
  · exact hlimit
  · exact hpoll _ (waits_pollIntervalMs hlate)

/-- **A call of `cn_tls_open` before its handshake.** -/
theorem SetupTimed.step {point : SetupPoint} {e : SetupEvent} {outcome : SetupOutcome}
    (h : SetupTimed config events point) (hstep : nextSetup config point e = some outcome) :
    SetupOutcomeTimed config (events ++ [.setup e]) outcome := by
  have hlimit : limit config (events ++ [.setup e]) = ⟨config.deadline, false⟩ :=
    (limit_snoc config events _).trans h.limit_eq
  unfold nextSetup at hstep
  split at hstep
  case h_10 settings now =>
    obtain rfl := Option.some.inj hstep
    exact timed_afterEntropyClock hlimit fun timeout hwaits => ⟨hlimit, hwaits⟩
  case h_14 settings now =>
    obtain rfl := Option.some.inj hstep
    exact timed_afterEntropyClock hlimit fun timeout hwaits => ⟨hlimit, hwaits⟩
  case h_18 => cases hstep
  case h_1 ok =>
    obtain rfl := Option.some.inj hstep
    refine .of_free hlimit ?_
    split_ifs <;> trivial
  case h_2 ok =>
    obtain rfl := Option.some.inj hstep
    refine .of_free hlimit ?_
    unfold afterSetFlags
    split
    · trivial
    · split_ifs <;> trivial
  case h_3 path path' opened =>
    obtain ⟨-, hsome⟩ := of_ite_none hstep
    obtain rfl := Option.some.inj hsome
    refine .of_free hlimit ?_
    split_ifs <;> trivial
  case h_4 got room read =>
    obtain ⟨-, hsome⟩ := of_ite_none hstep
    exact .of_free hlimit (free_afterRead hsome)
  case h_5 got room read =>
    obtain ⟨-, hsome⟩ := of_ite_none hstep
    exact .of_free hlimit (free_afterExtra hsome)
  case h_6 p input consumed decoded event =>
    obtain ⟨-, hsome⟩ := of_ite_none hstep
    obtain rfl := Option.some.inj hsome
    exact .of_free hlimit (free_afterPush _ event)
  case h_7 p der answer =>
    obtain ⟨-, hsome⟩ := of_ite_none hstep
    obtain rfl := Option.some.inj hsome
    refine .of_free hlimit ?_
    unfold afterDecode
    split
    · trivial
    · exact free_afterPem _
  case h_8 anchors seconds =>
    obtain rfl := Option.some.inj hstep
    refine .of_free hlimit ?_
    unfold afterWall beforeEntropy
    split_ifs
    · trivial
    · cases config.entropyPath <;> trivial
  case h_9 settings opened =>
    obtain rfl := Option.some.inj hstep
    refine .of_free hlimit ?_
    split_ifs <;> trivial
  case h_11 settings timeout timeout' polled =>
    obtain ⟨-, hsome⟩ := of_ite_none hstep
    obtain rfl := Option.some.inj hsome
    refine .of_free hlimit ?_
    unfold afterReadyPoll
    split <;> trivial
  case h_12 settings path path' opened =>
    obtain ⟨-, hsome⟩ := of_ite_none hstep
    obtain rfl := Option.some.inj hsome
    refine .of_free hlimit ?_
    split_ifs <;> trivial
  case h_13 settings room read =>
    obtain ⟨-, hsome⟩ := of_ite_none hstep
    exact .of_free hlimit (free_afterEntropy hsome)
  case h_15 settings timeout timeout' polled =>
    obtain ⟨-, hsome⟩ := of_ite_none hstep
    obtain rfl := Option.some.inj hsome
    refine .of_free hlimit ?_
    unfold afterEntropyPoll
    split <;> trivial
  case h_16 settings settings' ok =>
    obtain ⟨-, hsome⟩ := of_ite_none hstep
    obtain rfl := Option.some.inj hsome
    refine .of_free hlimit ?_
    split_ifs <;> trivial
  case h_17 error =>
    obtain rfl := Option.some.inj hstep
    exact hlimit

/-- **A call of the connection.** -/
theorem PointTimed.step {e : Event} (h : PointTimed config events s.point)
    (hstep : Step config s e t) : PointTimed config (events ++ [e]) t.point := by
  cases hstep with
  | @setup point e outcome hpoint hnext =>
    rw [hpoint] at h
    have houtcome := SetupTimed.step h hnext
    cases outcome with
    | goOn point' => exact houtcome
    | fails result => trivial
    | shakes => exact houtcome
  | @io job pump e outcome hpoint hpump =>
    rw [hpoint] at h
    have houtcome := PumpTimed.step h hpump
    cases outcome with
    | goOn job' pump' => exact houtcome
    | ends result got =>
      unfold State.afterPump State.ends
      dsimp only
      split
      · split_ifs <;> trivial
      · trivial
      · trivial
  | call hpoint c =>
    have hsnoc := limit_snoc config events (.call c)
    unfold State.called
    cases c with
    | sendAll data deadline =>
      dsimp only
      split_ifs
      · exact hsnoc
      · trivial
    | recvSome cap deadline =>
      dsimp only
      split_ifs
      · trivial
      · exact hsnoc
    | close =>
      dsimp only
      split_ifs
      · trivial
      · exact congrArg Limit.closing hsnoc
      · trivial
  | refuse hpoint => trivial
  | shut hpoint => trivial
  | returns hpoint => trivial
  | refused hpoint => trivial

theorem pointTimed_run (h : run (next config) (.start config) events = some s) :
    PointTimed config events s.point := by
  refine EventMachine.run_induct (I := fun events s => PointTimed config events s.point) ?_ ?_ h
  · unfold State.start
    split_ifs
    · rfl
    · trivial
  · intro events s t e hinv hnext
    exact hinv.step (step_of_next hnext)

/-- **Every wait is in time.** In every run each poll of the socket comes right after a reading of the
clock that is not behind the deadline in force, and waits for no longer than is left; so does each
poll of the entropy source, by the deadline of `cn_tls_open`. -/
theorem waits_in_time (h : run (next config) (.start config) events = some s) :
    (∀ before direction timeout polled after,
      events = before ++ .io (.poll direction timeout polled) :: after →
      Waits (fun now => .io (.monotonic now)) before (limit config before).deadline timeout) ∧
    ∀ before timeout polled after, events = before ++ .setup (.poll timeout polled) :: after →
      Waits (fun now => .setup (.monotonic now)) before config.deadline timeout := by
  refine ⟨?_, ?_⟩
  · intro before direction timeout polled after hevents
    subst hevents
    obtain ⟨s₁, s₂, hbefore, hnext, -⟩ := EventMachine.run_split h
    have htimed := pointTimed_run hbefore
    cases step_of_next hnext with
    | io hpoint hpump =>
      rw [hpoint] at htimed
      cases hpump with
      | flushPoll records =>
        rw [htimed.1]
        exact htimed.2
      | ingestPoll room =>
        rw [htimed.1]
        exact htimed.2
  · intro before timeout polled after hevents
    subst hevents
    obtain ⟨s₁, s₂, hbefore, hnext, -⟩ := EventMachine.run_split h
    have htimed := pointTimed_run hbefore
    cases step_of_next hnext with
    | @setup point _ outcome hpoint hsetup =>
      rw [hpoint] at htimed
      cases point with
      | readyPoll settings timeout' =>
        obtain ⟨htimeout, -⟩ := of_ite_none hsetup
        obtain rfl := not_not.mp htimeout
        exact htimed.2
      | entropyPoll settings timeout' =>
        obtain ⟨htimeout, -⟩ := of_ite_none hsetup
        obtain rfl := not_not.mp htimeout
        exact htimed.2
      | _ => cases hsetup

theorem waits_in_time_sample :
    Waits (fun now => .io (.monotonic now)) (sampleRun.take 15) 1000 1000 :=
  (waits_in_time run_sampleRun).1 (sampleRun.take 15) .output 1000 (.revents true false false)
    (sampleRun.drop 16) (by decide +kernel)

end Timed

end TlsSimple
