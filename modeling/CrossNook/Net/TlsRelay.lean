import CrossNook.Net.TlsMachine
import CrossNook.System.Relay

/-!
# What a TLS connection carries

The program stands between the application, the engine and the socket. In every run of a connection,
wherever the socket takes few bytes, brings few, interrupts or fails, the bytes on their way are
those that the one side offered, in order and once.

## Main definitions

* `TlsSimple.OffersRecords`, `TlsSimple.OffersData`: the streams that the engine offers
* `TlsSimple.Carries`: what holds between two calls

## Main results

* `TlsSimple.relays_exactly`: records, data and deliveries of every run
-/

namespace TlsSimple

open EventMachine (run)
open DnsExchange (Direction)
open Relay (Offers total)
open NetSimple (TlsResult)

/-! ## What is carried -/

/-- The bytes that the socket has taken. -/
def Event.sent : Event → List UInt8
  | .io (.send records (.took n)) => records.take n
  | _ => []

/-- The bytes that the socket has brought. -/
def Event.arrived : Event → List UInt8
  | .io (.recv _ (.bytes got)) => got
  | _ => []

/-- The bytes that the engine has been fed. -/
def Event.fed : Event → List UInt8
  | .io (.recvrecAck records) => records
  | _ => []

/-- The bytes that the engine has accepted from the application. -/
def Event.accepted : Event → List UInt8
  | .io (.sendappAck chunk) => chunk
  | _ => []

/-- The bytes that the application has been given. -/
def Event.delivered : Event → List UInt8
  | .returns _ got => got
  | _ => []

/-- The records that the engine offers. -/
def Event.recordsOffered : Event → Option (List UInt8)
  | .io (.sendrecBuf records) => some records
  | _ => none

/-- How many bytes of its records are taken from the engine. -/
def Event.recordsTaken : Event → ℕ
  | .io (.sendrecAck taken) => taken
  | _ => 0

/-- The decrypted bytes that the engine offers. -/
def Event.dataOffered : Event → Option (List UInt8)
  | .io (.recvappBuf available) => some available
  | _ => none

/-- How many decrypted bytes are taken from the engine. -/
def Event.dataTaken : Event → ℕ
  | .io (.recvappAck taken) => taken
  | _ => 0

/-- The records that the engine offers are those of a stream. -/
abbrev OffersRecords (stream : List UInt8) (events : List Event) : Prop :=
  Offers Event.recordsOffered Event.recordsTaken stream events

/-- The data that the engine offers are those of a stream. -/
abbrev OffersData (stream : List UInt8) (events : List Event) : Prop :=
  Offers Event.dataOffered Event.dataTaken stream events

/-- An event that carries nothing in any direction. -/
structure Event.Silent (e : Event) : Prop where
  sent : e.sent = []
  arrived : e.arrived = []
  fed : e.fed = []
  delivered : e.delivered = []
  recordsTaken : e.recordsTaken = 0
  dataTaken : e.dataTaken = 0

/-! ## Between the calls -/

/-- **What the connection has carried**: the socket has taken the records of the engine but for `n`
bytes that are still to be acknowledged, the engine has been fed what the socket brought but for
`records`, and the application has been given the data of the engine but for `got`. -/
structure Carries (out data : List UInt8) (events : List Event) (n : ℕ) (records got : List UInt8) :
    Prop where
  sent : collect Event.sent events = out.take (total Event.recordsTaken events + n)
  arrived : collect Event.arrived events = collect Event.fed events ++ records
  delivered : collect Event.delivered events ++ got = data.take (total Event.dataTaken events)

/-- What holds in front of a call in a loop over the engine. -/
def PumpCarries (out data : List UInt8) (events : List Event) : Pump → Prop
  | .flushClock records => Carries out data events 0 [] [] ∧
    records <+: out.drop (total Event.recordsTaken events)
  | .flushPoll records _ => Carries out data events 0 [] [] ∧
    records <+: out.drop (total Event.recordsTaken events)
  | .flushSend records => Carries out data events 0 [] [] ∧
    records <+: out.drop (total Event.recordsTaken events)
  | .flushAck _ taken => Carries out data events taken [] []
  | .ingestAck records => Carries out data events 0 records []
  | .recvAppAck got => Carries out data events 0 [] [] ∧
    got <+: data.drop (total Event.dataTaken events)
  | _ => Carries out data events 0 [] []

/-- What holds behind a call in a loop over the engine. -/
def OutcomeCarries (out data : List UInt8) (events : List Event) : Outcome → Prop
  | .goOn _ pump => PumpCarries out data events pump
  | .ends _ got => Carries out data events 0 [] got

/-- What holds at a point of the connection. -/
def PointCarries (out data : List UInt8) (events : List Event) : Point → Prop
  | .pump job pump => pump.Fits job.task ∧ PumpCarries out data events pump
  | .returning _ got => Carries out data events 0 [] got
  | _ => Carries out data events 0 [] []

/-- A place in a loop where nothing is held back. -/
def Pump.Plain : Pump → Prop
  | .recvAppAck _ | .flushClock _ | .flushPoll _ _ | .flushSend _ | .flushAck _ _ |
    .ingestAck _ => False
  | _ => True

/-- A call behind which nothing is held back. -/
def Outcome.Plain : Outcome → Prop
  | .goOn _ pump => pump.Plain
  | .ends _ got => got = []

section Carries

variable {out data records got : List UInt8} {events : List Event} {n phase : ℕ} {job : Job}
  {pump : Pump} {e : Event}

theorem carries_nil : Carries out data [] 0 [] [] := ⟨rfl, rfl, rfl⟩

/-- A silent event changes nothing. -/
theorem Carries.silent (h : Carries out data events n records got) (he : e.Silent) :
    Carries out data (events ++ [e]) n records got := by
  refine ⟨?_, ?_, ?_⟩
  · rw [collect_snoc, he.sent, List.append_nil, Relay.total_append, Relay.total_singleton,
      he.recordsTaken, Nat.add_zero]
    exact h.sent
  · rw [collect_snoc, collect_snoc, he.arrived, he.fed, List.append_nil, List.append_nil]
    exact h.arrived
  · rw [collect_snoc, he.delivered, List.append_nil, Relay.total_append, Relay.total_singleton,
      he.dataTaken, Nat.add_zero]
    exact h.delivered

/-- The engine and the socket have made no progress. -/
theorem Event.Silent.totals (he : e.Silent) :
    total Event.recordsTaken (events ++ [e]) = total Event.recordsTaken events ∧
      total Event.dataTaken (events ++ [e]) = total Event.dataTaken events := by
  simp [he.recordsTaken, he.dataTaken]

theorem PumpCarries.of_plain (h : Carries out data events 0 [] []) (hplain : pump.Plain) :
    PumpCarries out data events pump := by
  cases pump <;> first | exact h | exact hplain.elim

theorem OutcomeCarries.of_plain {outcome : Outcome} (h : Carries out data events 0 [] [])
    (hplain : outcome.Plain) : OutcomeCarries out data events outcome := by
  cases outcome with
  | goOn job' pump => exact PumpCarries.of_plain h hplain
  | ends result got =>
    obtain rfl : got = [] := hplain
    exact h

theorem plain_dispatch (job : Job) (flags : Flags) : (dispatch job flags).Plain := by
  obtain ⟨task, deadline⟩ := job
  unfold dispatch
  by_cases hclosed : flags.closed
  · rw [if_pos hclosed]
    trivial
  · rw [if_neg hclosed]
    cases task with
    | shutdown => rfl
    | _ =>
      dsimp only
      split_ifs <;> trivial

theorem plain_flushed (job : Job) : (flushed job).Plain := by
  unfold flushed
  split_ifs <;> trivial

theorem plain_afterSendappBuf (job : Job) (room : ℕ) : (afterSendappBuf job room).Plain := by
  unfold afterSendappBuf
  split
  · split_ifs <;> trivial
  · rfl

theorem plain_afterIngestPoll (phase : ℕ) (job : Job) (room : ℕ) (polled : Polled) :
    (afterIngestPoll phase job room polled).Plain := by
  cases polled with
  | revents wanted hangup invalid => cases invalid <;> trivial
  | _ => trivial

/-! ## One call -/

/-- The data that the engine is told about is what the caller is given. -/
theorem PumpCarries.recvAppAck {got : List UInt8} (h : PumpCarries out data events (.recvAppAck got)) :
    OutcomeCarries out data (events ++ [.io (.recvappAck got.length)]) (.ends .ok got) := by
  obtain ⟨hcarries, hgot⟩ := h
  refine ⟨?_, ?_, ?_⟩
  · simpa [collect_snoc, Event.sent, Event.recordsTaken] using hcarries.sent
  · simpa [collect_snoc, Event.arrived, Event.fed] using hcarries.arrived
  · have htake := Relay.take_append_take hgot le_rfl
    rw [List.take_length] at htake
    have hdelivered := hcarries.delivered
    rw [List.append_nil] at hdelivered
    rw [collect_snoc, Relay.total_append, Relay.total_singleton, hdelivered]
    simpa [Event.delivered, Event.dataTaken] using htake

/-- A wait for room in the socket keeps the records that are to be sent. -/
theorem PumpCarries.flushPoll {records : List UInt8} {timeout : ℤ} (polled : Polled)
    (h : PumpCarries out data events (.flushPoll records timeout)) :
    OutcomeCarries out data (events ++ [.io (.poll .output timeout polled)])
      (afterFlushPoll phase job records polled) := by
  obtain ⟨hcarries, hprefix⟩ := h
  have hsilent : Event.Silent (.io (.poll .output timeout polled)) := ⟨rfl, rfl, rfl, rfl, rfl, rfl⟩
  cases polled with
  | revents wanted hangup invalid =>
    unfold afterFlushPoll
    dsimp only
    split_ifs
    · exact .of_plain (hcarries.silent hsilent) rfl
    · refine ⟨hcarries.silent hsilent, ?_⟩
      rw [hsilent.totals.1]
      exact hprefix
  | timedOut => exact .of_plain (hcarries.silent hsilent) rfl
  | interrupted => exact .of_plain (hcarries.silent hsilent) trivial
  | failed => exact .of_plain (hcarries.silent hsilent) rfl

/-- The socket takes records from the front of those of the engine. -/
theorem PumpCarries.flushSend {records : List UInt8} {sent : Sent} {outcome : Outcome}
    (h : PumpCarries out data events (.flushSend records))
    (hsent : afterSend job records sent = some outcome) :
    OutcomeCarries out data (events ++ [.io (.send records sent)]) outcome := by
  obtain ⟨hcarries, hprefix⟩ := h
  cases sent with
  | took n =>
    obtain ⟨hn, hsent⟩ := of_ite_none hsent
    split_ifs at hsent with hzero
    · obtain rfl := Option.some.inj hsent
      exact .of_plain (hcarries.silent ⟨by simp [Event.sent, hzero], rfl, rfl, rfl, rfl, rfl⟩) rfl
    · obtain rfl := Option.some.inj hsent
      refine ⟨?_, ?_, ?_⟩
      · have htake := Relay.take_append_take hprefix (not_lt.mp hn)
        have hbefore := hcarries.sent
        rw [Nat.add_zero] at hbefore
        rw [collect_snoc, hbefore, Relay.total_append, Relay.total_singleton]
        simpa [Event.sent, Event.recordsTaken] using htake
      · simpa [collect_snoc, Event.arrived, Event.fed] using hcarries.arrived
      · simpa [collect_snoc, Event.delivered, Event.dataTaken] using hcarries.delivered
  | again =>
    obtain rfl := Option.some.inj hsent
    exact .of_plain (hcarries.silent ⟨rfl, rfl, rfl, rfl, rfl, rfl⟩) trivial
  | failed =>
    obtain rfl := Option.some.inj hsent
    exact .of_plain (hcarries.silent ⟨rfl, rfl, rfl, rfl, rfl, rfl⟩) rfl

/-- What arrives is kept for the engine. -/
theorem PumpCarries.ingestRecv {room : ℕ} {received : Received} {outcome : Outcome}
    (h : PumpCarries out data events (.ingestRecv room))
    (hreceived : afterRecv job room received = some outcome) :
    OutcomeCarries out data (events ++ [.io (.recv room received)]) outcome := by
  cases received with
  | bytes got =>
    obtain ⟨-, hreceived⟩ := of_ite_none hreceived
    split_ifs at hreceived with hnil
    · obtain rfl := Option.some.inj hreceived
      exact .of_plain (h.silent ⟨rfl, hnil, rfl, rfl, rfl, rfl⟩) rfl
    · obtain rfl := Option.some.inj hreceived
      refine ⟨?_, ?_, ?_⟩
      · simpa [collect_snoc, Event.sent, Event.recordsTaken] using Carries.sent h
      · simpa [collect_snoc, Event.arrived, Event.fed] using Carries.arrived h
      · simpa [collect_snoc, Event.delivered, Event.dataTaken] using Carries.delivered h
  | again =>
    obtain rfl := Option.some.inj hreceived
    exact .of_plain (h.silent ⟨rfl, rfl, rfl, rfl, rfl, rfl⟩) trivial
  | failed =>
    obtain rfl := Option.some.inj hreceived
    exact .of_plain (h.silent ⟨rfl, rfl, rfl, rfl, rfl, rfl⟩) rfl

/-- A call that moves bytes out of the engine or into it. -/
theorem PumpCarries.step {e : IoEvent} {outcome : Outcome}
    (h : PumpCarries out data events pump) (hstep : PumpStep phase job pump e outcome)
    (hrecords : OffersRecords out (events ++ [.io e])) (hdata : OffersData data (events ++ [.io e])) :
    OutcomeCarries out data (events ++ [.io e]) outcome := by
  cases hstep with
  | head flags => exact .of_plain (h.silent ⟨rfl, rfl, rfl, rfl, rfl, rfl⟩) (plain_dispatch job flags)
  | classify error => exact .of_plain (h.silent ⟨rfl, rfl, rfl, rfl, rfl, rfl⟩) rfl
  | sendApp room =>
    exact .of_plain (h.silent ⟨rfl, rfl, rfl, rfl, rfl, rfl⟩) (plain_afterSendappBuf job room)
  | sendAppAck chunk => exact .of_plain (h.silent ⟨rfl, rfl, rfl, rfl, rfl, rfl⟩) trivial
  | recvApp available =>
    have hoffered := hdata.shows rfl
    have hsilent : Event.Silent (.io (.recvappBuf available)) := ⟨rfl, rfl, rfl, rfl, rfl, rfl⟩
    have hcarries := Carries.silent h hsilent
    unfold afterRecvappBuf
    split
    · rename_i cap htask
      split_ifs
      · exact .of_plain hcarries rfl
      · refine ⟨hcarries, ?_⟩
        rw [hsilent.totals.2]
        exact (List.take_prefix cap available).trans hoffered
    · exact .of_plain hcarries rfl
  | recvAppAck got => exact PumpCarries.recvAppAck h
  | flush records =>
    have hoffered := hrecords.shows rfl
    have hsilent : Event.Silent (.io (.sendrecBuf records)) := ⟨rfl, rfl, rfl, rfl, rfl, rfl⟩
    have hcarries := Carries.silent h hsilent
    split_ifs
    · exact .of_plain hcarries (plain_flushed job)
    · refine ⟨hcarries, ?_⟩
      rw [hsilent.totals.1]
      exact hoffered
  | flushClock records now =>
    obtain ⟨hcarries, hprefix⟩ := h
    have hsilent : Event.Silent (.io (.monotonic now)) := ⟨rfl, rfl, rfl, rfl, rfl, rfl⟩
    split_ifs
    · exact .of_plain (hcarries.silent hsilent) rfl
    · refine ⟨hcarries.silent hsilent, ?_⟩
      rw [hsilent.totals.1]
      exact hprefix
  | flushPoll records timeout polled => exact PumpCarries.flushPoll polled h
  | flushSend records sent hsent => exact PumpCarries.flushSend h hsent
  | flushAck records taken =>
    refine .of_plain ⟨?_, ?_, ?_⟩ trivial
    · simpa [collect_snoc, Event.sent, Event.recordsTaken] using Carries.sent h
    · simpa [collect_snoc, Event.arrived, Event.fed] using Carries.arrived h
    · simpa [collect_snoc, Event.delivered, Event.dataTaken] using Carries.delivered h
  | ingest room =>
    refine .of_plain (h.silent ⟨rfl, rfl, rfl, rfl, rfl, rfl⟩) ?_
    split_ifs <;> trivial
  | ingestClock room now =>
    refine .of_plain (h.silent ⟨rfl, rfl, rfl, rfl, rfl, rfl⟩) ?_
    split_ifs <;> trivial
  | ingestPoll room timeout polled =>
    exact .of_plain (h.silent ⟨rfl, rfl, rfl, rfl, rfl, rfl⟩)
      (plain_afterIngestPoll phase job room polled)
  | ingestRecv room received hreceived => exact PumpCarries.ingestRecv h hreceived
  | ingestAck records =>
    refine .of_plain ⟨?_, ?_, ?_⟩ trivial
    · simpa [collect_snoc, Event.sent, Event.recordsTaken] using Carries.sent h
    · simpa [collect_snoc, Event.arrived, Event.fed] using Carries.arrived h
    · simpa [collect_snoc, Event.delivered, Event.dataTaken] using Carries.delivered h
  | shutdown now => exact .of_plain (h.silent ⟨rfl, rfl, rfl, rfl, rfl, rfl⟩) trivial

theorem OutcomeCarries.afterPump {s : State} {outcome : Outcome} (hfits : outcome.Fits job.task)
    (h : OutcomeCarries out data events outcome) :
    PointCarries out data events (s.afterPump job outcome).point := by
  cases outcome with
  | goOn job' pump => exact ⟨hfits.1, h⟩
  | ends result got =>
    unfold State.afterPump State.ends
    rcases hfits with rfl | ⟨cap, htask⟩
    · dsimp only
      split
      · split_ifs <;> exact h
      · exact h
      · exact h
    · dsimp only
      rw [htask]
      exact h

theorem PointCarries.called {s : State} (h : Carries out data events 0 [] []) (c : Call) :
    PointCarries out data events (s.called c).point := by
  unfold State.called
  cases c with
  | sendAll bytes deadline =>
    dsimp only
    split_ifs
    · exact ⟨trivial, h⟩
    · exact h
  | recvSome cap deadline =>
    dsimp only
    split_ifs
    · exact h
    · exact ⟨trivial, h⟩
  | close =>
    dsimp only
    split_ifs
    · exact h
    · exact ⟨rfl, h⟩
    · exact h

/-- **A call of the connection.** -/
theorem PointCarries.step {config : Config} {s t : State}
    (h : PointCarries out data events s.point) (hstep : Step config s e t)
    (hrecords : OffersRecords out (events ++ [e])) (hdata : OffersData data (events ++ [e])) :
    PointCarries out data (events ++ [e]) t.point := by
  cases hstep with
  | refuse hpoint =>
    rw [hpoint] at h
    exact Carries.silent h ⟨rfl, rfl, rfl, rfl, rfl, rfl⟩
  | @setup point e outcome hpoint =>
    rw [hpoint] at h
    have hcarries := Carries.silent (e := .setup e) h ⟨rfl, rfl, rfl, rfl, rfl, rfl⟩
    cases outcome with
    | shakes => exact ⟨trivial, hcarries⟩
    | _ => exact hcarries
  | io hpoint hpump =>
    rw [hpoint] at h
    obtain ⟨hfits, hcarries⟩ := h
    exact (PumpCarries.step hcarries hpump hrecords hdata).afterPump (hpump.fits hfits)
  | shut hpoint =>
    rw [hpoint] at h
    exact Carries.silent h ⟨rfl, rfl, rfl, rfl, rfl, rfl⟩
  | returns hpoint =>
    rw [hpoint] at h
    refine ⟨?_, ?_, ?_⟩
    · simpa [collect_snoc, Event.sent, Event.recordsTaken] using Carries.sent h
    · simpa [collect_snoc, Event.arrived, Event.fed] using Carries.arrived h
    · simpa [collect_snoc, Event.delivered, Event.dataTaken] using Carries.delivered h
  | refused hpoint =>
    rw [hpoint] at h
    exact Carries.silent h ⟨rfl, rfl, rfl, rfl, rfl, rfl⟩
  | call hpoint c =>
    rw [hpoint] at h
    exact PointCarries.called (Carries.silent h ⟨rfl, rfl, rfl, rfl, rfl, rfl⟩) c

end Carries

/-! ## One call of `cn_tls_send_all` -/

/-- The last call has looked at the engine, which was open and had no records left to send. -/
def Drained (during : List Event) : Prop :=
  ∃ earlier flags, during = earlier ++ [.io (.currentState flags)] ∧ flags.closed = false ∧
    flags.sendRec = false

/-- The tasks of `cn_tls_send_all`, with what is left to send. -/
inductive Task.Sends : Task → List UInt8 → Prop
  | sendAll (left : List UInt8) : Task.Sends (.sendAll left) left
  | drain : Task.Sends .drain []

/-- What holds in the loops of `cn_tls_send_all`: what the engine has accepted and what is left are
the data of the caller. -/
def Sending (bytes : List UInt8) (during : List Event) (job : Job) : Prop :=
  ∃ left, job.task.Sends left ∧ collect Event.accepted during ++ left = bytes

/-- What holds behind a call in the loops of `cn_tls_send_all`. -/
def OutcomeSends (bytes : List UInt8) (during : List Event) : Outcome → Prop
  | .goOn job _ => Sending bytes during job
  | .ends result _ => collect Event.accepted during <+: bytes ∧
    (result = .ok → collect Event.accepted during = bytes ∧ Drained during)

/-- What holds at a point of a call of `cn_tls_send_all`. -/
def PointSends (bytes : List UInt8) (during : List Event) : Point → Prop
  | .pump job pump => pump.Fits job.task ∧ Sending bytes during job
  | .returning result _ => collect Event.accepted during <+: bytes ∧
    (result = .ok → collect Event.accepted during = bytes ∧ Drained during)
  | _ => False

section Sends

variable {bytes : List UInt8} {during : List Event} {job : Job} {pump : Pump} {phase : ℕ}
  {e : IoEvent}

theorem sends_sending (left : List UInt8) : (Task.sending left).Sends left := by
  unfold Task.sending
  split_ifs with h
  · subst h
    exact .drain
  · exact .sendAll left

/-- The loop goes on with another call. -/
theorem Sending.goOn (h : Sending bytes during job) (he : Event.accepted (.io e) = []) :
    Sending bytes (during ++ [.io e]) job := by
  obtain ⟨left, htask, hleft⟩ := h
  refine ⟨left, htask, ?_⟩
  rw [collect_snoc, he, List.append_nil]
  exact hleft

/-- The loop ends without success. -/
theorem Sending.fails (h : Sending bytes during job) (he : Event.accepted (.io e) = [])
    {result : TlsResult} (hresult : result ≠ .ok) :
    OutcomeSends bytes (during ++ [.io e]) (.ends result []) := by
  obtain ⟨left, -, hleft⟩ := h
  refine ⟨?_, ?_⟩
  · rw [collect_snoc, he, List.append_nil]
    exact ⟨left, hleft⟩
  · intro hok
    exact absurd hok hresult

/-- What the loops of `cn_tls_send_all` do about the state of the engine. -/
theorem Sending.dispatch (h : Sending bytes during job) (flags : Flags) :
    OutcomeSends bytes (during ++ [.io (.currentState flags)]) (dispatch job flags) := by
  have hsends := h
  obtain ⟨left, htask, hleft⟩ := h
  obtain ⟨task, deadline⟩ := job
  unfold TlsSimple.dispatch
  by_cases hclosed : flags.closed
  · rw [if_pos hclosed]
    exact hsends.goOn rfl
  rw [if_neg hclosed]
  cases htask with
  | sendAll =>
    dsimp only
    split_ifs
    · exact hsends.goOn rfl
    · exact hsends.goOn rfl
    · exact hsends.fails rfl (by decide)
    · exact hsends.goOn rfl
    · exact hsends.fails rfl (by decide)
  | drain =>
    dsimp only
    split_ifs with hflush
    · exact hsends.goOn rfl
    · -- nothing is left to accept and nothing to send
      rw [List.append_nil] at hleft
      have hall : collect Event.accepted (during ++ [.io (.currentState flags)]) = bytes := by
        rw [collect_snoc, hleft]
        exact List.append_nil bytes
      refine ⟨?_, ?_⟩
      · rw [hall]
      · intro _
        exact ⟨hall, during, flags, rfl, Bool.eq_false_iff.mpr hclosed,
          Bool.eq_false_iff.mpr hflush⟩

theorem Sending.flushPoll (h : Sending bytes during job) (records : List UInt8) (timeout : ℤ)
    (polled : Polled) :
    OutcomeSends bytes (during ++ [.io (.poll .output timeout polled)])
      (afterFlushPoll phase job records polled) := by
  cases polled with
  | timedOut => exact h.fails rfl (ioTimeout_ne_ok phase .output)
  | interrupted => exact h.goOn rfl
  | failed => exact h.fails rfl (by decide)
  | revents wanted hangup invalid =>
    unfold afterFlushPoll
    dsimp only
    split_ifs
    · exact h.fails rfl (by decide)
    · exact h.goOn rfl

theorem Sending.ingestPoll (h : Sending bytes during job) (room : ℕ) (timeout : ℤ)
    (polled : Polled) :
    OutcomeSends bytes (during ++ [.io (.poll .input timeout polled)])
      (afterIngestPoll phase job room polled) := by
  cases polled with
  | timedOut => exact h.fails rfl (ioTimeout_ne_ok phase .input)
  | interrupted => exact h.goOn rfl
  | failed => exact h.fails rfl (by decide)
  | revents wanted hangup invalid =>
    unfold afterIngestPoll
    dsimp only
    split_ifs
    · exact h.fails rfl (by decide)
    · exact h.goOn rfl

theorem Sending.flushSend {records : List UInt8} {sent : Sent} {outcome : Outcome}
    (h : Sending bytes during job) (hsent : afterSend job records sent = some outcome) :
    OutcomeSends bytes (during ++ [.io (.send records sent)]) outcome := by
  cases sent with
  | took n =>
    obtain ⟨-, hsent⟩ := of_ite_none hsent
    split_ifs at hsent
    · obtain rfl := Option.some.inj hsent
      exact h.fails rfl (by decide)
    · obtain rfl := Option.some.inj hsent
      exact h.goOn rfl
  | again =>
    obtain rfl := Option.some.inj hsent
    exact h.goOn rfl
  | failed =>
    obtain rfl := Option.some.inj hsent
    exact h.fails rfl (by decide)

theorem Sending.ingestRecv {room : ℕ} {received : Received} {outcome : Outcome}
    (h : Sending bytes during job) (hreceived : afterRecv job room received = some outcome) :
    OutcomeSends bytes (during ++ [.io (.recv room received)]) outcome := by
  cases received with
  | bytes got =>
    obtain ⟨-, hreceived⟩ := of_ite_none hreceived
    split_ifs at hreceived
    · obtain rfl := Option.some.inj hreceived
      exact h.fails rfl (by decide)
    · obtain rfl := Option.some.inj hreceived
      exact h.goOn rfl
  | again =>
    obtain rfl := Option.some.inj hreceived
    exact h.goOn rfl
  | failed =>
    obtain rfl := Option.some.inj hreceived
    exact h.fails rfl (by decide)

/-- **A call in the loops of `cn_tls_send_all`.** -/
theorem Sending.step {outcome : Outcome} (h : Sending bytes during job)
    (hfits : pump.Fits job.task) (hstep : PumpStep phase job pump e outcome) :
    OutcomeSends bytes (during ++ [.io e]) outcome := by
  cases hstep with
  | head flags => exact h.dispatch flags
  | classify error => exact h.fails rfl (classifyEngine_ne_ok phase error)
  | sendApp room =>
    unfold afterSendappBuf
    split
    · split_ifs
      · exact h.fails rfl (by decide)
      · exact h.goOn rfl
    · exact h.fails rfl (by decide)
  | sendAppAck chunk =>
    obtain ⟨left, htask, hleft⟩ := h
    obtain ⟨left', htask', rest, hrest⟩ := hfits
    obtain ⟨task, deadline⟩ := job
    dsimp only at htask htask'
    subst htask'
    cases htask
    subst hrest
    refine ⟨rest, ?_, ?_⟩
    · unfold Job.advance
      dsimp only
      rw [List.drop_left]
      exact sends_sending rest
    · rw [collect_snoc, List.append_assoc]
      exact hleft
  | recvApp available =>
    obtain ⟨cap, htask⟩ := hfits
    obtain ⟨left, hsends, -⟩ := h
    rw [htask] at hsends
    cases hsends
  | recvAppAck got =>
    obtain ⟨cap, htask⟩ := hfits
    obtain ⟨left, hsends, -⟩ := h
    rw [htask] at hsends
    cases hsends
  | flush records =>
    split_ifs
    · unfold flushed
      split_ifs with htask
      · obtain ⟨left, hsends, -⟩ := h
        rw [htask] at hsends
        cases hsends
      · exact h.goOn rfl
    · exact h.goOn rfl
  | flushClock records now =>
    split_ifs
    · exact h.fails rfl (ioTimeout_ne_ok phase .output)
    · exact h.goOn rfl
  | flushPoll records timeout polled => exact h.flushPoll records timeout polled
  | flushSend records sent hsent => exact h.flushSend hsent
  | flushAck records taken => exact h.goOn rfl
  | ingest room => split_ifs <;> exact h.goOn rfl
  | ingestClock room now =>
    split_ifs
    · exact h.fails rfl (ioTimeout_ne_ok phase .input)
    · exact h.goOn rfl
  | ingestPoll room timeout polled => exact h.ingestPoll room timeout polled
  | ingestRecv room received hreceived => exact h.ingestRecv hreceived
  | ingestAck records => exact h.goOn rfl
  | shutdown now =>
    obtain ⟨left, hsends, -⟩ := h
    rw [show job.task = .shutdown from hfits] at hsends
    cases hsends

theorem OutcomeSends.afterPump {s : State} {outcome : Outcome} (hfits : outcome.Fits job.task)
    (hjob : Sending bytes during job) {more : List Event} (h : OutcomeSends bytes more outcome) :
    PointSends bytes more (s.afterPump job outcome).point := by
  cases outcome with
  | goOn job' pump => exact ⟨hfits.1, h⟩
  | ends result got =>
    obtain ⟨left, htask, -⟩ := hjob
    obtain ⟨task, deadline⟩ := job
    cases htask with
    | sendAll => exact h
    | drain => exact h

/-- **A call of the connection in a call of `cn_tls_send_all`.** -/
theorem PointSends.step {config : Config} {s t : State} {e : Event}
    (h : PointSends bytes during s.point) (hstep : Step config s e t)
    (he : ∀ result got, e ≠ .returns result got) : PointSends bytes (during ++ [e]) t.point := by
  cases hstep with
  | io hpoint hpump =>
    rw [hpoint] at h
    obtain ⟨hfits, hjob⟩ := h
    exact (hjob.step hfits hpump).afterPump (hpump.fits hfits) hjob
  | @returns result got hpoint => exact absurd rfl (he result got)
  | refuse hpoint =>
    rw [hpoint] at h
    exact h.elim
  | setup hpoint hnext =>
    rw [hpoint] at h
    exact h.elim
  | shut hpoint =>
    rw [hpoint] at h
    exact h.elim
  | refused hpoint =>
    rw [hpoint] at h
    exact h.elim
  | call hpoint c =>
    rw [hpoint] at h
    exact h.elim

/-- The start of a call of `cn_tls_send_all`. -/
theorem pointSends_called (s : State) (bytes : List UInt8) (deadline : ℤ) :
    PointSends bytes [] (s.called (.sendAll bytes deadline)).point := by
  unfold State.called
  dsimp only
  split_ifs
  · exact ⟨trivial, bytes, sends_sending bytes, rfl⟩
  · exact ⟨List.nil_prefix, by simp⟩

/-- **A call of `cn_tls_send_all`, as far as it has come.** -/
theorem pointSends_run {config : Config} {s t : State} {during : List Event}
    (h : run (next config) s during = some t) (hs : PointSends bytes [] s.point)
    (hduring : ∀ e ∈ during, ∀ result got, e ≠ .returns result got) :
    PointSends bytes during t.point := by
  have hrun := EventMachine.run_induct
    (I := fun events t => (∀ e ∈ events, ∀ result got, e ≠ .returns result got) →
      PointSends bytes events t.point) (fun _ => hs)
    (by
      intro events s t e ih hnext hevents
      have hbefore := ih fun e' he' => hevents e' (List.mem_append_left _ he')
      exact hbefore.step (step_of_next hnext)
        (hevents e (List.mem_append_right _ List.mem_cons_self))) h
  exact hrun hduring

end Sends

/-! ## Every run -/

section Run

variable {config : Config} {s : State} {events : List Event} {out data : List UInt8}

theorem pointCarries_run (h : run (next config) (.start config) events = some s)
    (hrecords : OffersRecords out events) (hdata : OffersData data events) :
    PointCarries out data events s.point := by
  have hstart : PointCarries out data [] (State.start config).point := by
    unfold State.start
    split_ifs <;> exact carries_nil
  have hrun := EventMachine.run_induct
    (I := fun events s => OffersRecords out events → OffersData data events →
      PointCarries out data events s.point) (fun _ _ => hstart)
    (by
      intro events s t e ih hnext hrecords hdata
      have hbefore := ih (Offers.append_iff.mp hrecords).1 (Offers.append_iff.mp hdata).1
      exact hbefore.step (step_of_next hnext) hrecords hdata) h
  exact hrun hrecords hdata

theorem PointCarries.carries {point : Point} (h : PointCarries out data events point) :
    ∃ n records got, Carries out data events n records got := by
  cases point with
  | pump job pump =>
    replace h := h.2
    cases pump with
    | flushClock records => exact ⟨0, [], [], h.1⟩
    | flushPoll records timeout => exact ⟨0, [], [], h.1⟩
    | flushSend records => exact ⟨0, [], [], h.1⟩
    | flushAck records taken => exact ⟨taken, [], [], h⟩
    | ingestAck records => exact ⟨0, records, [], h⟩
    | recvAppAck got => exact ⟨0, [], [], h.1⟩
    | _ => exact ⟨0, [], [], h⟩
  | returning result got => exact ⟨0, [], got, h⟩
  | _ => exact ⟨0, [], [], h⟩

/-- The state in which the application is told a result. -/
theorem of_next_returns {t : State} {result : TlsResult} {got : List UInt8}
    (h : next config s (.returns result got) = some t) :
    s.point = .returning result got ∨ s.point = .refused ∧ got = [] := by
  cases step_of_next h with
  | returns hpoint => exact .inl hpoint
  | refused hpoint => exact .inr ⟨hpoint, rfl⟩

/-- **What a TLS connection carries.** Where the engine offers one stream of records and one of data,
the socket is given the first in order and once, the engine is fed what the socket brings in order
and once, and the application is given the second in order and once, however few bytes the socket
takes or brings and wherever it fails; at every return nothing is held back. Of the data of a call of
`cn_tls_send_all` the engine accepts a beginning, and after success all of it, with no records left
to send. -/
theorem relays_exactly (h : run (next config) (.start config) events = some s)
    (hrecords : OffersRecords out events) (hdata : OffersData data events) :
    (collect Event.sent events <+: out ∧
      collect Event.fed events <+: collect Event.arrived events ∧
      collect Event.delivered events <+: data) ∧
    (∀ before result got after, events = before ++ .returns result got :: after →
      collect Event.sent before = out.take (total Event.recordsTaken before) ∧
      collect Event.fed before = collect Event.arrived before ∧
      collect Event.delivered before ++ got = data.take (total Event.dataTaken before)) ∧
    ∀ before bytes deadline during result got after,
      events = before ++ .call (.sendAll bytes deadline) :: (during ++ .returns result got :: after) →
      (∀ e ∈ during, ∀ result got, e ≠ .returns result got) →
      collect Event.accepted during <+: bytes ∧
        (result = .ok → collect Event.accepted during = bytes ∧ Drained during) := by
  refine ⟨?_, ?_, ?_⟩
  · obtain ⟨n, records, got, hcarries⟩ := (pointCarries_run h hrecords hdata).carries
    refine ⟨?_, ?_, ?_⟩
    · rw [hcarries.sent]
      exact List.take_prefix _ out
    · rw [hcarries.arrived]
      exact List.prefix_append _ records
    · exact (List.prefix_append _ got).trans (hcarries.delivered ▸ List.take_prefix _ data)
  · intro before result got after hevents
    subst hevents
    obtain ⟨s₁, s₂, hbefore, hnext, -⟩ := EventMachine.run_split h
    have hpoint := pointCarries_run hbefore (Offers.append_iff.mp hrecords).1
      (Offers.append_iff.mp hdata).1
    have hcarries : Carries out data before 0 [] got := by
      rcases of_next_returns hnext with hreturning | ⟨hrefused, rfl⟩
      · rw [hreturning] at hpoint
        exact hpoint
      · rw [hrefused] at hpoint
        exact hpoint
    have harrived := hcarries.arrived
    rw [List.append_nil] at harrived
    exact ⟨hcarries.sent, harrived.symm, hcarries.delivered⟩
  · intro before bytes deadline during result got after hevents hduring
    subst hevents
    obtain ⟨s₁, s₂, -, hcall, hrest⟩ := EventMachine.run_split h
    obtain ⟨s₃, s₄, hrun, hnext, -⟩ := EventMachine.run_split hrest
    have hstart : PointSends bytes [] s₂.point := by
      cases step_of_next hcall
      exact pointSends_called s₁ bytes deadline
    have hsends := pointSends_run hrun hstart hduring
    rcases of_next_returns hnext with hreturning | ⟨hrefused, -⟩
    · rw [hreturning] at hsends
      exact hsends
    · rw [hrefused] at hsends
      exact hsends.elim

theorem relays_exactly_sample :
    (collect Event.sent sampleRun <+: [22, 23, 24] ∧
      collect Event.fed sampleRun <+: collect Event.arrived sampleRun ∧
      collect Event.delivered sampleRun <+: [5, 6]) ∧
    collect Event.sent sampleRun = [22, 23, 24] ∧ collect Event.delivered sampleRun = [5, 6] :=
  ⟨(relays_exactly run_sampleRun
    (by simp [OffersRecords, Offers, sampleRun, Event.recordsOffered, Event.recordsTaken])
    (by simp [OffersData, Offers, sampleRun, Event.dataOffered, Event.dataTaken])).1,
    by decide +kernel, by decide +kernel⟩

end Run

end TlsSimple
