import CrossNook.Net.DnsResponse

/-!
# The exchange with a server

`query_server` (`net/dnssimple.c`) sends a query to one server and waits for the response, and
`cn_dnssimple_resolve_a` asks the servers in turn. Every call into the system is an event: it
carries what the program passes and what the system answers, so a run is a list of events, for every
sequence of clock readings, send results, poll results and datagrams.

## Main definitions

* `DnsExchange.next`: what `query_server` does next, and what it makes of the answer
* `DnsExchange.Run`: a run of `query_server` from its first send on
* `DnsExchange.queryServer`, `DnsExchange.resolveA`: `query_server`, `cn_dnssimple_resolve_a`

## Main results

* `DnsExchange.exchange_disciplined`: what holds of every run of `query_server`
* `DnsExchange.answer_selection`: what an accepted packet answers, and what a failed resolution
  leaves
* `DnsExchange.resolveA_refines`: a resolution over sockets is one of `DnsSimple.resolveA`
-/

namespace DnsExchange

open DnsSimple

/-! ## The system -/

/-- An IPv4 address and a port. -/
structure Endpoint where
  address : UInt32
  port : ℕ
  deriving DecidableEq, Repr

/-- How `sendto` returns: it has taken all bytes, `EINTR`, `EAGAIN` or `EWOULDBLOCK`, or another
error or fewer bytes. -/
inductive Sent
  | all
  | interrupted
  | wouldBlock
  | failed
  deriving DecidableEq, Repr

/-- What `poll` waits for: `POLLOUT` or `POLLIN`. -/
inductive Direction
  | output
  | input
  deriving DecidableEq, Repr

/-- How `poll` returns; `revents` tells whether what it waited for is among the events and whether
`POLLERR`, `POLLHUP` or `POLLNVAL` is. -/
inductive Polled
  | timedOut
  | interrupted
  | failed
  | revents (events errors : Bool)
  deriving DecidableEq, Repr

/-- How `recvfrom` returns. A datagram carries the endpoint it comes from, if that is one of IPv4,
and its payload, of which the response buffer takes the first 513 bytes. -/
inductive Received
  | interrupted
  | wouldBlock
  | failed
  | datagram (peer : Option Endpoint) (payload : List UInt8)
  deriving DecidableEq, Repr

/-- A call with its answer. A call of `parse_response` is an event as well. -/
inductive Event
  | clock (now : Option ℤ)
  | send (bytes : List UInt8) (peer : Endpoint) (sent : Sent)
  | poll (direction : Direction) (timeout : ℤ) (polled : Polled)
  | receive (received : Received)
  | parse (packet : List UInt8)
  deriving DecidableEq, Repr

/-! ## Waiting -/

/-- `INT_MAX`. -/
def intMax : ℤ := 2 ^ 31 - 1

/-- `poll_timeout_ms` after its reading of the clock. -/
def pollTimeoutMs (deadline : ℤ) : Option ℤ → ℤ
  | none => -2
  | some now =>
    if deadline - now ≤ 0 then -1
    else if intMax < (deadline - now + 999999) / 1000000 then intMax
    else (deadline - now + 999999) / 1000000

/-- The result of `wait_for_socket`: `1`, `0` or `-1`. -/
inductive Ready
  | ready
  | expired
  | failed
  deriving DecidableEq, Repr

/-- Where `wait_for_socket` is: before its reading of the clock, before `poll`, and before the
reading after `poll`. -/
inductive Waiting
  | enter
  | polling (timeout : ℤ)
  | confirm
  deriving DecidableEq, Repr

/-- One call in `wait_for_socket`: it goes on or returns. Another call is not its next one. -/
def waitForSocket (direction : Direction) (deadline : ℤ) :
    Waiting → Event → Option (Waiting ⊕ Ready)
  | .enter, .clock now =>
    let timeout := pollTimeoutMs deadline now
    if timeout = -2 then some (.inr .failed)
    else if timeout < 0 then some (.inr .expired)
    else some (.inl (.polling timeout))
  | .polling timeout, .poll direction' timeout' polled =>
    if direction' ≠ direction ∨ timeout' ≠ timeout then none
    else
      -- an interrupted poll, and one without a reason, start again with the clock
      match polled with
      | .timedOut => some (.inr .expired)
      | .interrupted => some (.inl .enter)
      | .failed => some (.inr .failed)
      | .revents true _ => some (.inl .confirm)
      | .revents false true => some (.inr .failed)
      | .revents false false => some (.inl .enter)
  -- a socket that is ready too late counts as expired
  | .confirm, .clock now =>
    let timeout := pollTimeoutMs deadline now
    if timeout = -2 then some (.inr .failed)
    else some (.inr (if timeout < 0 then .expired else .ready))
  | _, _ => none

/-! ## `query_server` -/

/-- What `query_server` has set up before its loop. -/
structure Query where
  address : Endpoint
  query : List UInt8
  transactionId : UInt16
  hostname : List UInt8
  start : ℤ
  timeoutNs : ℕ
  deriving DecidableEq, Repr

/-- `deadline`. -/
def Query.deadline (q : Query) : ℤ := q.start + q.timeoutNs

/-- `wait_deadline` after a number of sends: the elements of `retransmit_deadlines` come first. -/
def Query.waitDeadline (q : Query) (sends : ℕ) : ℤ :=
  if sends < 3 then
    if sends = 1 then q.start + (q.timeoutNs / 4 : ℕ) else q.start + (q.timeoutNs / 2 : ℕ)
  else q.deadline

/-- Where `query_server` is: before the reading of the clock that precedes a send, before `sendto`,
in `wait_for_socket`, before the reading after an expired wait, before `recvfrom`, before
`parse_response`, and after its return. -/
inductive Phase
  | beforeSend
  | send
  | wait (direction : Direction) (waiting : Waiting)
  | expired
  | receive
  | parse (packet : List UInt8)
  | done (result : DnsResult) (answer : Answer)
  deriving DecidableEq, Repr

/-- The state of `query_server`: the sends that it has completed, and where it is. -/
structure State where
  sends : ℕ
  phase : Phase
  deriving DecidableEq, Repr

/-- The state before the loop. -/
def State.start : State := ⟨0, .beforeSend⟩

/-- The deadline of a wait. -/
def Query.deadlineOf (q : Query) (sends : ℕ) : Direction → ℤ
  | .output => q.deadline
  | .input => q.waitDeadline sends

/-- What follows a wait. -/
def afterWait (sends : ℕ) : Direction → Ready → Phase
  | _, .failed => .done .networkFailed .zero
  | .output, .ready => .beforeSend
  | .output, .expired => .done .timeout .zero
  | .input, .ready => .receive
  | .input, .expired => if sends < 3 then .expired else .done .timeout .zero

/-- The part of a payload that `recvfrom` stores in the response buffer. -/
def stored (payload : List UInt8) : List UInt8 := payload.take (packetMax + 1)

/-- What follows `recvfrom`. -/
def afterReceive (q : Query) : Received → Phase
  | .interrupted => .wait .input .enter
  | .wouldBlock => .wait .input .enter
  | .failed => .done .networkFailed .zero
  | .datagram peer payload =>
    if peer ≠ some q.address then .wait .input .enter
    else if (stored payload).length < 2 ∨ u16At (stored payload) 0 ≠ some q.transactionId then
      .wait .input .enter
    else if packetMax < (stored payload).length then .done .packetSize .zero
    else .parse (stored payload)

/-- **What `query_server` does next**, and what it makes of the answer; another call is not its next
one. The caller has cleared the answer. -/
def next (q : Query) (s : State) (event : Event) : Option State :=
  match s.phase, event with
  | .beforeSend, .clock now =>
    let remaining := pollTimeoutMs q.deadline now
    -- -2 is a clock that could not be read
    if remaining = -2 then some { s with phase := .done .networkFailed .zero }
    else if remaining < 0 then some { s with phase := .done .timeout .zero }
    else some { s with phase := .send }
  | .send, .send bytes peer sent =>
    if bytes ≠ q.query ∨ peer ≠ q.address then none
    else
      -- an interrupted send is tried again without a wait
      match sent with
      | .all => some ⟨s.sends + 1, .wait .input .enter⟩
      | .interrupted => some { s with phase := .beforeSend }
      | .wouldBlock => some { s with phase := .wait .output .enter }
      | .failed => some { s with phase := .done .networkFailed .zero }
  | .wait direction waiting, event =>
    match waitForSocket direction (q.deadlineOf s.sends direction) waiting event with
    | none => none
    | some (.inl waiting) => some { s with phase := .wait direction waiting }
    | some (.inr outcome) => some { s with phase := afterWait s.sends direction outcome }
  -- the time of this attempt is over, that of the query may not be
  | .expired, .clock now =>
    let remaining := pollTimeoutMs q.deadline now
    if remaining = -2 then some { s with phase := .done .networkFailed .zero }
    else if 0 ≤ remaining then some { s with phase := .beforeSend }
    else some { s with phase := .done .timeout .zero }
  | .receive, .receive received => some { s with phase := afterReceive q received }
  | .parse packet, .parse packet' =>
    if packet' ≠ packet then none
    else
      let (result, answer) := parseResponse packet q.transactionId q.hostname .zero
      some { s with phase := .done result answer }
  | _, _ => none

/-- The state after a list of events. -/
def run (q : Query) (events : List Event) : Option State := events.foldlM (next q) .start

/-- A run of `query_server` from its first send on, which may go on. -/
structure Run (q : Query) where
  events : List Event
  state : State
  steps : run q events = some state

/-! ## Steps -/

/-- The result of a run that no datagram has decided. -/
def Failure (result : DnsResult) : Prop := result = .networkFailed ∨ result = .timeout

/-- The timeout of a poll after a reading of the clock. -/
def timeoutAt (deadline now : ℤ) : ℤ := min intMax ((deadline - now + 999999) / 1000000)

/-- One step of `query_server`, by the call that it makes. -/
inductive Step (q : Query) : State → Event → State → Prop
  | proceed {n : ℕ} {now : ℤ} : Step q ⟨n, .beforeSend⟩ (.clock (some now)) ⟨n, .send⟩
  | giveUp {n : ℕ} {phase : Phase} {now : Option ℤ} {result : DnsResult}
      (hphase : phase = .beforeSend ∨ phase = .expired) (hresult : Failure result) :
      Step q ⟨n, phase⟩ (.clock now) ⟨n, .done result .zero⟩
  | sent {n : ℕ} : Step q ⟨n, .send⟩ (.send q.query q.address .all) ⟨n + 1, .wait .input .enter⟩
  | notSent {n : ℕ} {sent : Sent} {phase : Phase} (hsent : sent ≠ .all)
      (hphase : phase = .beforeSend ∨ phase = .wait .output .enter ∨
        phase = .done .networkFailed .zero) :
      Step q ⟨n, .send⟩ (.send q.query q.address sent) ⟨n, phase⟩
  | enter {n : ℕ} {direction : Direction} {now : ℤ} (hnow : now < q.deadlineOf n direction) :
      Step q ⟨n, .wait direction .enter⟩ (.clock (some now))
        ⟨n, .wait direction (.polling (timeoutAt (q.deadlineOf n direction) now))⟩
  | polled {n : ℕ} {direction : Direction} {timeout : ℤ} {polled : Polled} {waiting : Waiting}
      (hwaiting : waiting = .enter ∨ waiting = .confirm) :
      Step q ⟨n, .wait direction (.polling timeout)⟩ (.poll direction timeout polled)
        ⟨n, .wait direction waiting⟩
  | confirm {n : ℕ} {direction : Direction} {now : ℤ} (hnow : now < q.deadlineOf n direction) :
      Step q ⟨n, .wait direction .confirm⟩ (.clock (some now)) ⟨n, afterWait n direction .ready⟩
  | late {n : ℕ} {direction : Direction} {waiting : Waiting} {now : Option ℤ} {outcome : Ready}
      (hlate : outcome ≠ .ready) :
      Step q ⟨n, .wait direction waiting⟩ (.clock now) ⟨n, afterWait n direction outcome⟩
  | unpolled {n : ℕ} {direction : Direction} {timeout : ℤ} {polled : Polled} {outcome : Ready}
      (hlate : outcome ≠ .ready) :
      Step q ⟨n, .wait direction (.polling timeout)⟩ (.poll direction timeout polled)
        ⟨n, afterWait n direction outcome⟩
  | retransmit {n : ℕ} {now : ℤ} : Step q ⟨n, .expired⟩ (.clock (some now)) ⟨n, .beforeSend⟩
  | receive {n : ℕ} {received : Received} :
      Step q ⟨n, .receive⟩ (.receive received) ⟨n, afterReceive q received⟩
  | parse {n : ℕ} {packet : List UInt8} :
      Step q ⟨n, .parse packet⟩ (.parse packet)
        ⟨n, .done (parseResponse packet q.transactionId q.hostname .zero).1
          (parseResponse packet q.transactionId q.hostname .zero).2⟩

/-- What `poll_timeout_ms` tells its caller. -/
theorem pollTimeoutMs_cases (deadline : ℤ) (reading : Option ℤ) :
    (reading = none ∧ pollTimeoutMs deadline reading = -2) ∨
    (pollTimeoutMs deadline reading = -1) ∨
    ∃ now, reading = some now ∧ now < deadline ∧
      pollTimeoutMs deadline reading = timeoutAt deadline now ∧
      0 < pollTimeoutMs deadline reading := by
  cases reading with
  | none => exact .inl ⟨rfl, rfl⟩
  | some now =>
    right
    rw [pollTimeoutMs]
    by_cases hle : deadline - now ≤ 0
    · exact .inl (if_pos hle)
    · refine .inr ⟨now, rfl, by omega, ?_, ?_⟩ <;> rw [if_neg hle]
      · unfold timeoutAt
        split_ifs <;> omega
      · unfold intMax
        split_ifs <;> omega

/-- A call in a wait. -/
theorem step_of_wait {q : Query} {n : ℕ} {direction : Direction} {waiting : Waiting}
    {event : Event} {s' : State} (h : next q ⟨n, .wait direction waiting⟩ event = some s') :
    Step q ⟨n, .wait direction waiting⟩ event s' := by
  cases waiting with
  | enter =>
    cases event with
    | clock now =>
      -- the time for a poll, or the end of the wait
      simp only [next, waitForSocket] at h
      rcases pollTimeoutMs_cases (q.deadlineOf n direction) now with
        (⟨-, hpoll⟩ | hpoll | ⟨now, rfl, hnow, htimeout, hpos⟩)
      · rw [hpoll] at h
        obtain rfl := Option.some.inj h
        exact .late (by simp)
      · rw [hpoll] at h
        obtain rfl := Option.some.inj h
        exact .late (by simp)
      · rw [if_neg (by omega), if_neg (by omega), htimeout] at h
        obtain rfl := Option.some.inj h
        exact .enter hnow
    | send | poll | receive | parse => simp [next, waitForSocket] at h
  | polling timeout =>
    cases event with
    | poll direction' timeout' polled =>
      simp only [next, waitForSocket] at h
      by_cases hcall : direction' ≠ direction ∨ timeout' ≠ timeout
      · rw [if_pos hcall] at h
        exact absurd h (by simp)
      · rw [if_neg hcall] at h
        simp only [not_or, not_not] at hcall
        obtain ⟨rfl, rfl⟩ := hcall
        -- a poll that is interrupted, or that reports something, is judged by the clock again
        cases polled with
        | timedOut =>
          obtain rfl := Option.some.inj h
          exact .unpolled (by simp)
        | interrupted =>
          obtain rfl := Option.some.inj h
          exact .polled (.inl rfl)
        | failed =>
          obtain rfl := Option.some.inj h
          exact .unpolled (by simp)
        | revents events errors =>
          cases events with
          | true =>
            obtain rfl := Option.some.inj h
            exact .polled (.inr rfl)
          | false =>
            cases errors with
            | true =>
              obtain rfl := Option.some.inj h
              exact .unpolled (by simp)
            | false =>
              obtain rfl := Option.some.inj h
              exact .polled (.inl rfl)
    | clock | send | receive | parse => simp [next, waitForSocket] at h
  -- after a poll the clock decides whether it came in time
  | confirm =>
    cases event with
    | clock now =>
      simp only [next, waitForSocket] at h
      rcases pollTimeoutMs_cases (q.deadlineOf n direction) now with
        (⟨-, hpoll⟩ | hpoll | ⟨now, rfl, hnow, htimeout, hpos⟩)
      · rw [hpoll] at h
        obtain rfl := Option.some.inj h
        exact .late (by simp)
      · rw [hpoll] at h
        obtain rfl := Option.some.inj h
        exact .late (by simp)
      · rw [if_neg (by omega), if_neg (by omega)] at h
        obtain rfl := Option.some.inj h
        exact .confirm hnow
    | send | poll | receive | parse => simp [next, waitForSocket] at h

/-- **What a step can do.** -/
theorem step_of_next {q : Query} {s s' : State} {event : Event} (h : next q s event = some s') :
    Step q s event s' := by
  obtain ⟨n, phase⟩ := s
  -- one case for each phase, and in it only the event that the phase calls for
  cases phase with
  | beforeSend =>
    cases event with
    | clock now =>
      simp only [next] at h
      -- a clock that fails, or that has passed the deadline, ends the exchange
      rcases pollTimeoutMs_cases q.deadline now with
        (⟨-, hpoll⟩ | hpoll | ⟨now, rfl, hnow, htimeout, hpos⟩)
      · rw [hpoll] at h
        obtain rfl := Option.some.inj h
        exact .giveUp (.inl rfl) (.inl rfl)
      · rw [hpoll] at h
        obtain rfl := Option.some.inj h
        exact .giveUp (.inl rfl) (.inr rfl)
      · rw [if_neg (by omega), if_neg (by omega)] at h
        obtain rfl := Option.some.inj h
        exact .proceed
    | send | poll | receive | parse => simp [next] at h
  | send =>
    cases event with
    | send bytes peer sent =>
      simp only [next] at h
      -- a call with other arguments is not one of the run
      by_cases hcall : bytes ≠ q.query ∨ peer ≠ q.address
      · rw [if_pos hcall] at h
        exact absurd h (by simp)
      · rw [if_neg hcall] at h
        simp only [not_or, not_not] at hcall
        obtain ⟨rfl, rfl⟩ := hcall
        cases sent with
        | all =>
          obtain rfl := Option.some.inj h
          exact .sent
        | interrupted =>
          obtain rfl := Option.some.inj h
          exact .notSent (by simp) (.inl rfl)
        | wouldBlock =>
          obtain rfl := Option.some.inj h
          exact .notSent (by simp) (.inr (.inl rfl))
        | failed =>
          obtain rfl := Option.some.inj h
          exact .notSent (by simp) (.inr (.inr rfl))
    | clock | poll | receive | parse => simp [next] at h
  | wait direction waiting => exact step_of_wait h
  | expired =>
    cases event with
    | clock now =>
      simp only [next] at h
      rcases pollTimeoutMs_cases q.deadline now with
        (⟨-, hpoll⟩ | hpoll | ⟨now, rfl, hnow, htimeout, hpos⟩)
      · rw [hpoll] at h
        obtain rfl := Option.some.inj h
        exact .giveUp (.inr rfl) (.inl rfl)
      · rw [hpoll] at h
        obtain rfl := Option.some.inj h
        exact .giveUp (.inr rfl) (.inr rfl)
      · rw [if_neg (by omega), if_pos (by omega)] at h
        obtain rfl := Option.some.inj h
        exact .retransmit
    | send | poll | receive | parse => simp [next] at h
  | receive =>
    cases event with
    | receive received =>
      simp only [next] at h
      obtain rfl := Option.some.inj h
      exact .receive
    | clock | send | poll | parse => simp [next] at h
  | parse packet =>
    cases event with
    | parse packet' =>
      simp only [next] at h
      by_cases hcall : packet' ≠ packet
      · rw [if_pos hcall] at h
        exact absurd h (by simp)
      · rw [if_neg hcall] at h
        obtain rfl := not_not.mp hcall
        obtain rfl := Option.some.inj h
        exact .parse
    | clock | send | poll | receive => simp [next] at h
  | done result answer => cases event <;> simp [next] at h

/-! ## Datagrams -/

/-- The payload of a genuine datagram: one from the configured address and port that carries the
transaction id of the query. -/
def Query.genuine (q : Query) : Event → Option (List UInt8)
  | .receive (.datagram peer payload) =>
    if peer = some q.address ∧ u16At payload 0 = some q.transactionId then some payload else none
  | _ => none

theorem u16At_stored (payload : List UInt8) : u16At (stored payload) 0 = u16At payload 0 := by
  unfold u16At stored
  rw [List.getElem?_take_of_lt (by decide), List.getElem?_take_of_lt (by decide)]

theorem two_le_of_u16At {packet : List UInt8} {p : ℕ} {value : UInt16}
    (h : u16At packet p = some value) : p + 2 ≤ packet.length := by
  unfold u16At at h
  cases hlow : packet[p + 1]? with
  | none =>
    rw [hlow] at h
    split at h <;> simp_all
  | some low => exact (List.getElem?_eq_some_iff.mp hlow).1

/-- **What a genuine datagram decides.** -/
theorem afterReceive_genuine {q : Query} {received : Received} {payload : List UInt8}
    (h : q.genuine (.receive received) = some payload) :
    afterReceive q received =
      if packetMax < payload.length then .done .packetSize .zero else .parse payload := by
  cases received with
  | datagram peer payload' =>
    rw [Query.genuine] at h
    split_ifs at h with hgenuine
    obtain rfl := Option.some.inj h
    obtain ⟨rfl, hid⟩ := hgenuine
    have hlen := two_le_of_u16At hid
    have hstored : (stored payload').length = min (packetMax + 1) payload'.length := by
      rw [stored, List.length_take]
    have hmax : packetMax = 512 := rfl
    rw [afterReceive, if_neg (not_not.mpr rfl), if_neg]
    · by_cases hlong : packetMax < payload'.length
      · rw [if_pos (by omega), if_pos hlong]
      · rw [if_neg (by omega), if_neg hlong, stored, List.take_of_length_le (by omega)]
    · rw [u16At_stored, hid]
      simp only [ne_eq, not_true_eq_false, or_false]
      omega
  | interrupted => simp [Query.genuine] at h
  | wouldBlock => simp [Query.genuine] at h
  | failed => simp [Query.genuine] at h

/-- **Every other datagram is ignored**: the wait starts again with the same deadline. -/
theorem afterReceive_stray {q : Query} {peer : Option Endpoint} {payload : List UInt8}
    (h : q.genuine (.receive (.datagram peer payload)) = none) :
    afterReceive q (.datagram peer payload) = .wait .input .enter := by
  rw [Query.genuine] at h
  split_ifs at h with hgenuine
  rw [afterReceive]
  by_cases hpeer : peer ≠ some q.address
  · rw [if_pos hpeer]
  · rw [if_neg hpeer, if_pos]
    right
    rw [u16At_stored]
    exact fun hid => hgenuine ⟨not_not.mp hpeer, hid⟩

/-! ## What every run keeps -/

/-- A `sendto` that has taken all bytes. -/
def Event.completesSend : Event → Bool
  | .send _ _ .all => true
  | _ => false

/-- The sends that a run has completed. -/
def completed (events : List Event) : ℕ := events.countP Event.completesSend

/-- No datagram of a run was genuine. -/
def Unanswered (q : Query) (events : List Event) : Prop := ∀ event ∈ events, q.genuine event = none

/-- The last call of a run read the clock, before a deadline. -/
def ReadBefore (deadline : ℤ) (events : List Event) : Prop :=
  ∃ before now, events = before ++ [.clock (some now)] ∧ now < deadline

/-- A poll is about to start with the time that the last reading of the clock leaves. -/
def Polling (deadline : ℤ) (events : List Event) (timeout : ℤ) : Prop :=
  ∃ before now, events = before ++ [.clock (some now)] ∧ now < deadline ∧
    timeout = timeoutAt deadline now

/-- The only genuine datagram of a run was its last event. -/
def Answered (q : Query) (events : List Event) (payload : List UInt8) : Prop :=
  ∃ before event, events = before ++ [event] ∧ Unanswered q before ∧ q.genuine event = some payload

/-- What decides the result of a run: the first genuine datagram, or a failure. -/
inductive Decided (q : Query) : List Event → DnsResult → Answer → Prop
  | failed {events : List Event} {result : DnsResult} (hresult : Failure result)
      (hunanswered : Unanswered q events) : Decided q events result .zero
  | tooLong {events : List Event} {payload : List UInt8} (hanswered : Answered q events payload)
      (hlong : packetMax < payload.length) : Decided q events .packetSize .zero
  | parsed {events : List Event} {payload : List UInt8} (hanswered : Answered q events payload)
      (hshort : payload.length ≤ packetMax) :
      Decided q (events ++ [.parse payload])
        (parseResponse payload q.transactionId q.hostname .zero).1
        (parseResponse payload q.transactionId q.hostname .zero).2

/-- What holds in a phase, after a number of sends. A phase from which the query can be sent again
leaves room for that. -/
def PhaseInv (q : Query) (events : List Event) (sends : ℕ) : Phase → Prop
  | .beforeSend => sends ≤ 2 ∧ Unanswered q events
  | .send => sends ≤ 2 ∧ Unanswered q events
  | .expired => sends ≤ 2 ∧ Unanswered q events
  | .wait direction waiting =>
    (direction = .output → sends ≤ 2) ∧ sends ≤ 3 ∧ Unanswered q events ∧
      ∀ timeout, waiting = .polling timeout →
        Polling (q.deadlineOf sends direction) events timeout
  | .receive => sends ≤ 3 ∧ Unanswered q events ∧ ReadBefore (q.waitDeadline sends) events
  | .parse packet => sends ≤ 3 ∧ Answered q events packet ∧ packet.length ≤ packetMax
  | .done result answer => sends ≤ 3 ∧ Decided q events result answer

/-- What holds after every run. -/
structure Inv (q : Query) (events : List Event) (s : State) : Prop where
  sends : s.sends = completed events
  phase : PhaseInv q events s.sends s.phase

theorem completed_concat (events : List Event) (event : Event) :
    completed (events ++ [event]) = completed events + if event.completesSend then 1 else 0 := by
  rw [completed, completed, List.countP_append, List.countP_singleton]

/-- An event that is no complete send leaves the count as it is. -/
theorem completed_concat_of_not {events : List Event} {event : Event}
    (h : event.completesSend = false) : completed (events ++ [event]) = completed events := by
  rw [completed_concat, h]
  rfl

theorem Unanswered.concat {q : Query} {events : List Event} (h : Unanswered q events)
    {event : Event} (hevent : q.genuine event = none) : Unanswered q (events ++ [event]) := by
  intro e he
  rcases List.mem_append.mp he with (he | he)
  · exact h e he
  · rw [List.mem_singleton.mp he, hevent]

theorem inv_start (q : Query) : Inv q [] .start := ⟨rfl, Nat.zero_le _, by simp [Unanswered]⟩

/-- What follows a wait that is over. -/
theorem phaseInv_afterWait {q : Query} {events : List Event} {n : ℕ} {direction : Direction}
    {outcome : Ready} (hroom : direction = .output → n ≤ 2) (hn : n ≤ 3)
    (hunanswered : Unanswered q events)
    (hready : outcome = .ready → ReadBefore (q.deadlineOf n direction) events) :
    PhaseInv q events n (afterWait n direction outcome) := by
  cases outcome with
  | failed => exact ⟨hn, .failed (.inl rfl) hunanswered⟩
  | ready =>
    cases direction with
    | output => exact ⟨hroom rfl, hunanswered⟩
    | input => exact ⟨hn, hunanswered, hready rfl⟩
  | expired =>
    cases direction with
    | output => exact ⟨hn, .failed (.inr rfl) hunanswered⟩
    | input =>
      rw [afterWait]
      split_ifs with hroom
      · exact ⟨by omega, hunanswered⟩
      · exact ⟨hn, .failed (.inr rfl) hunanswered⟩

/-- **Every step keeps the invariant.** -/
theorem Inv.step {q : Query} {events : List Event} {s s' : State} {event : Event}
    (h : Inv q events s) (hstep : Step q s event s') : Inv q (events ++ [event]) s' := by
  obtain ⟨hsends, hphase⟩ := h
  cases hstep with
  | proceed =>
    exact ⟨hsends.trans (completed_concat_of_not rfl).symm, hphase.1, hphase.2.concat rfl⟩
  | giveUp hbefore hresult =>
    rcases hbefore with (rfl | rfl)
    · exact ⟨hsends.trans (completed_concat_of_not rfl).symm, Nat.le_succ_of_le hphase.1,
        .failed hresult (hphase.2.concat rfl)⟩
    · exact ⟨hsends.trans (completed_concat_of_not rfl).symm, Nat.le_succ_of_le hphase.1,
        .failed hresult (hphase.2.concat rfl)⟩
  | sent =>
    refine ⟨by rw [completed_concat]; exact congrArg (· + 1) hsends, by simp, ?_,
      hphase.2.concat rfl, by simp⟩
    have := hphase.1
    dsimp only at this ⊢
    omega
  -- an interrupted send is tried again, one that would block waits, any other ends it
  | @notSent n sent phase hsent hbefore =>
    have hcount : n = completed (events ++ [.send q.query q.address sent]) := by
      rw [completed_concat]
      cases sent with
      | all => exact absurd rfl hsent
      | interrupted | wouldBlock | failed => exact hsends
    have hn : n ≤ 2 := hphase.1
    rcases hbefore with (rfl | rfl | rfl)
    · exact ⟨hcount, hn, hphase.2.concat rfl⟩
    · exact ⟨hcount, fun _ => hn, Nat.le_succ_of_le hn, hphase.2.concat rfl, by simp⟩
    · exact ⟨hcount, Nat.le_succ_of_le hn, .failed (.inl rfl) (hphase.2.concat rfl)⟩
  | enter hnow =>
    obtain ⟨hroom, hn, hunanswered, -⟩ := hphase
    refine ⟨hsends.trans (completed_concat_of_not rfl).symm, hroom, hn, hunanswered.concat rfl, ?_⟩
    intro timeout htimeout
    obtain rfl := Waiting.polling.inj htimeout
    exact ⟨events, _, rfl, hnow, rfl⟩
  | polled hwaiting =>
    obtain ⟨hroom, hn, hunanswered, -⟩ := hphase
    refine ⟨hsends.trans (completed_concat_of_not rfl).symm, hroom, hn, hunanswered.concat rfl, ?_⟩
    rintro timeout rfl
    rcases hwaiting with (hwaiting | hwaiting) <;> exact absurd hwaiting (by simp)
  | confirm hnow =>
    obtain ⟨hroom, hn, hunanswered, -⟩ := hphase
    exact ⟨hsends.trans (completed_concat_of_not rfl).symm,
      phaseInv_afterWait hroom hn (hunanswered.concat rfl) fun _ => ⟨events, _, rfl, hnow⟩⟩
  | late hlate =>
    obtain ⟨hroom, hn, hunanswered, -⟩ := hphase
    exact ⟨hsends.trans (completed_concat_of_not rfl).symm,
      phaseInv_afterWait hroom hn (hunanswered.concat rfl) fun h => absurd h hlate⟩
  | unpolled hlate =>
    obtain ⟨hroom, hn, hunanswered, -⟩ := hphase
    exact ⟨hsends.trans (completed_concat_of_not rfl).symm,
      phaseInv_afterWait hroom hn (hunanswered.concat rfl) fun h => absurd h hlate⟩
  | retransmit =>
    exact ⟨hsends.trans (completed_concat_of_not rfl).symm, hphase.1, hphase.2.concat rfl⟩
  | @receive n received =>
    obtain ⟨hn, hunanswered, -⟩ := hphase
    refine ⟨hsends.trans (completed_concat_of_not rfl).symm, ?_⟩
    dsimp only at hn ⊢
    -- only a genuine datagram is an answer
    cases hgenuine : q.genuine (.receive received) with
    | none =>
      have hstays : Unanswered q (events ++ [.receive received]) := hunanswered.concat hgenuine
      have hagain : PhaseInv q (events ++ [.receive received]) n (.wait .input .enter) :=
        ⟨by simp, hn, hstays, by simp⟩
      cases received with
      | interrupted => exact hagain
      | wouldBlock => exact hagain
      | failed => exact ⟨hn, .failed (.inl rfl) hstays⟩
      | datagram peer payload =>
        rw [afterReceive_stray hgenuine]
        exact hagain
    | some payload =>
      have hanswered : Answered q (events ++ [.receive received]) payload :=
        ⟨events, _, rfl, hunanswered, hgenuine⟩
      rw [afterReceive_genuine hgenuine]
      split_ifs with hlong
      · exact ⟨hn, .tooLong hanswered hlong⟩
      · exact ⟨hn, hanswered, not_lt.mp hlong⟩
  | parse =>
    obtain ⟨hn, hanswered, hshort⟩ := hphase
    exact ⟨hsends.trans (completed_concat_of_not rfl).symm, hn, .parsed hanswered hshort⟩

theorem run_concat (q : Query) (events : List Event) (event : Event) :
    run q (events ++ [event]) = (run q events).bind fun s => next q s event := by
  rw [run, List.foldlM_append]
  cases hrun : events.foldlM (next q) .start with
  | none => simp [run, hrun]
  | some s => simp [run, hrun]

/-- **Every run keeps the invariant.** -/
theorem inv_run {q : Query} {events : List Event} {s : State} (h : run q events = some s) :
    Inv q events s := by
  induction events using List.reverseRecOn generalizing s with
  | nil =>
    obtain rfl := Option.some.inj h
    exact inv_start q
  | append_singleton events event ih =>
    rw [run_concat] at h
    obtain ⟨s₁, hrun, hnext⟩ := Option.bind_eq_some_iff.mp h
    exact (ih hrun).step (step_of_next hnext)

/-! ## The discipline of an exchange -/

/-- A run in the middle: what it has done before an event, that event, and what it does after. -/
theorem run_split {q : Query} {before after : List Event} {event : Event} {s : State}
    (h : run q (before ++ event :: after) = some s) :
    ∃ s₁ s₂, Inv q before s₁ ∧ run q (before ++ [event]) = some s₂ ∧ Step q s₁ event s₂ ∧
      Inv q (before ++ [event]) s₂ ∧ after.foldlM (next q) s₂ = some s := by
  have hsplit : run q (before ++ event :: after) =
      (run q (before ++ [event])).bind fun s₂ => after.foldlM (next q) s₂ := by
    have happend : before ++ event :: after = before ++ [event] ++ after := by simp
    rw [happend, run, List.foldlM_append]
    rfl
  rw [hsplit] at h
  obtain ⟨s₂, hrun₂, hafter⟩ := Option.bind_eq_some_iff.mp h
  have hrun := hrun₂
  rw [run_concat] at hrun
  obtain ⟨s₁, hrun₁, hnext⟩ := Option.bind_eq_some_iff.mp hrun
  exact ⟨s₁, s₂, inv_run hrun₁, hrun₂, step_of_next hnext, inv_run hrun₂, hafter⟩

/-- A returned call does nothing more. -/
theorem eq_nil_of_done {q : Query} {n : ℕ} {result : DnsResult} {answer : Answer} {s : State}
    {events : List Event} (h : events.foldlM (next q) ⟨n, .done result answer⟩ = some s) :
    events = [] ∧ s = ⟨n, .done result answer⟩ := by
  cases events with
  | nil => exact ⟨rfl, (Option.some.inj h).symm⟩
  | cons event events =>
    rw [List.foldlM_cons] at h
    obtain ⟨s', hnext, -⟩ := Option.bind_eq_some_iff.mp h
    exact nomatch step_of_next hnext

theorem deadlineOf_le (q : Query) (sends : ℕ) (direction : Direction) :
    q.deadlineOf sends direction ≤ q.deadline := by
  have h4 := Nat.div_le_self q.timeoutNs 4
  have h2 := Nat.div_le_self q.timeoutNs 2
  cases direction with
  | output => exact le_rfl
  | input =>
    change q.waitDeadline sends ≤ q.deadline
    unfold Query.waitDeadline Query.deadline
    split_ifs <;> omega

/-- What a run does about its first genuine datagram. One that is too long decides at once, and one
of at most 512 bytes is parsed. -/
def Decides (q : Query) (payload : List UInt8) (after : List Event) (phase : Phase) : Prop :=
  if packetMax < payload.length then after = [] ∧ phase = .done .packetSize .zero
  else (after = [] ∧ phase = .parse payload) ∨
    (after = [.parse payload] ∧
      phase = .done (parseResponse payload q.transactionId q.hostname .zero).1
        (parseResponse payload q.transactionId q.hostname .zero).2)

/-- What holds of a run of `query_server`, wherever it has got to. -/
structure Disciplined (q : Query) (r : Run q) : Prop where
  /-- At most three sends are completed. -/
  sends : completed r.events ≤ 3
  /-- Every send is one of the query to the configured address. -/
  sent : ∀ bytes peer sent, .send bytes peer sent ∈ r.events → bytes = q.query ∧ peer = q.address
  /-- A poll starts right after a reading of the clock, with the time that is left until a deadline
  that depends only on the sends so far, and never with more than is left of the whole timeout. -/
  polls : ∀ before direction timeout polled after,
    r.events = before ++ .poll direction timeout polled :: after →
      ∃ earlier now, before = earlier ++ [.clock (some now)] ∧
        timeout = timeoutAt (q.deadlineOf (completed before) direction) now ∧
        now < q.start + q.timeoutNs ∧
        timeout ≤ (q.start + q.timeoutNs - now + 999999) / 1000000
  /-- A datagram is received only in time. -/
  inTime : ∀ before received after, r.events = before ++ .receive received :: after →
    ReadBefore (q.waitDeadline (completed before)) before
  /-- The first genuine datagram decides. -/
  decides : ∀ before event after payload, r.events = before ++ event :: after →
    q.genuine event = some payload → Unanswered q before ∧ Decides q payload after r.state.phase
  /-- Every other datagram leaves everything as it was before the wait. -/
  ignored : ∀ before peer payload after,
    r.events = before ++ .receive (.datagram peer payload) :: after →
      q.genuine (.receive (.datagram peer payload)) = none →
      run q (before ++ [.receive (.datagram peer payload)]) =
        some ⟨completed before, .wait .input .enter⟩
  /-- Only the genuine datagram is parsed, all of its bytes, and only if they are at most 512. -/
  parsed : ∀ before packet after, r.events = before ++ .parse packet :: after →
    Answered q before packet ∧ packet.length ≤ packetMax ∧ after = []
  /-- Without a genuine datagram there is no answer. -/
  failed : ∀ result answer, r.state.phase = .done result answer → Unanswered q r.events →
    Failure result ∧ answer = .zero

theorem Inv.sends_le {q : Query} {events : List Event} {s : State} (h : Inv q events s) :
    s.sends ≤ 3 := by
  obtain ⟨sends, phase⟩ := s
  have hphase := h.phase
  cases phase with
  | beforeSend | send | expired => exact Nat.le_succ_of_le hphase.1
  | wait => exact hphase.2.1
  | receive | parse | done => exact hphase.1

/-- **The discipline of an exchange** with a server, for every sequence of clock readings, send
results, poll results and datagrams. -/
theorem exchange_disciplined (q : Query) (r : Run q) : Disciplined q r := by
  obtain ⟨events, s, hrun⟩ := r
  refine ⟨?_, ?_, ?_, ?_, ?_, ?_, ?_, ?_⟩ <;> dsimp only
  · -- at most three complete sends
    have hinv := inv_run hrun
    rw [← hinv.sends]
    exact hinv.sends_le
  · -- each of the query, to the server
    intro bytes peer sent hmem
    obtain ⟨before, after, rfl⟩ := List.append_of_mem hmem
    obtain ⟨s₁, s₂, -, -, hstep, -⟩ := run_split hrun
    cases hstep <;> exact ⟨rfl, rfl⟩
  · rintro before direction timeout polled after rfl
    obtain ⟨s₁, s₂, hinv, -, hstep, -⟩ := run_split hrun
    -- the poll belongs to a wait, and the wait has read the clock
    have hwait : s₁.phase = .wait direction (.polling timeout) := by cases hstep <;> rfl
    obtain ⟨n, phase⟩ := s₁
    dsimp only at hwait
    subst hwait
    obtain ⟨earlier, now, hbefore, hnow, htimeout⟩ := hinv.phase.2.2.2 timeout rfl
    have hsends := hinv.sends
    dsimp only at hsends hnow htimeout
    have hle := deadlineOf_le q n direction
    rw [Query.deadline] at hle
    refine ⟨earlier, now, hbefore, hsends ▸ htimeout, by omega, ?_⟩
    rw [htimeout, timeoutAt]
    refine (min_le_right _ _).trans ?_
    omega
  · -- a datagram is received after a send, before the last deadline
    rintro before received after rfl
    obtain ⟨s₁, s₂, hinv, -, hstep, -⟩ := run_split hrun
    cases hstep
    have hsends := hinv.sends
    dsimp only at hsends
    exact hsends ▸ hinv.phase.2.2
  · -- the first genuine datagram decides
    rintro before event after payload rfl hgenuine
    obtain ⟨s₁, s₂, hinv, -, hstep, -, hafter⟩ := run_split hrun
    have hreceive : ∃ received, event = .receive received := by
      cases event with
      | receive received => exact ⟨received, rfl⟩
      | clock | send | poll | parse => simp [Query.genuine] at hgenuine
    obtain ⟨received, rfl⟩ := hreceive
    cases hstep
    refine ⟨hinv.phase.2.1, ?_⟩
    rw [afterReceive_genuine hgenuine] at hafter
    unfold Decides
    by_cases hlong : packetMax < payload.length
    · rw [if_pos hlong] at hafter ⊢
      obtain ⟨rfl, rfl⟩ := eq_nil_of_done hafter
      exact ⟨rfl, rfl⟩
    · rw [if_neg hlong] at hafter ⊢
      cases after with
      | nil =>
        obtain rfl := Option.some.inj hafter
        exact .inl ⟨rfl, rfl⟩
      | cons event after =>
        rw [List.foldlM_cons] at hafter
        obtain ⟨s₃, hnext, hrest⟩ := Option.bind_eq_some_iff.mp hafter
        cases step_of_next hnext with
        | giveUp hphase => rcases hphase with (hphase | hphase) <;> exact absurd hphase (by simp)
        | parse =>
          obtain ⟨rfl, rfl⟩ := eq_nil_of_done hrest
          exact .inr ⟨rfl, rfl⟩
  · -- a stray one changes nothing
    rintro before peer payload after rfl hstray
    obtain ⟨s₁, s₂, hinv, hrun₂, hstep, -⟩ := run_split hrun
    cases hstep
    have hsends := hinv.sends
    dsimp only at hsends
    rw [hrun₂, afterReceive_stray hstray, hsends]
  · -- what is parsed is the genuine datagram, and nothing follows
    rintro before packet after rfl
    obtain ⟨s₁, s₂, hinv, -, hstep, -, hafter⟩ := run_split hrun
    cases hstep
    obtain ⟨rfl, -⟩ := eq_nil_of_done hafter
    exact ⟨hinv.phase.2.1, hinv.phase.2.2, rfl⟩
  · -- without a genuine datagram there is no answer
    intro result answer hdone hunanswered
    obtain ⟨n, phase⟩ := s
    dsimp only at hdone
    subst hdone
    have hnone : ∀ {events payload}, Unanswered q events → ¬ Answered q events payload := by
      rintro events payload h ⟨before, event, rfl, -, hgenuine⟩
      rw [h event (by simp)] at hgenuine
      exact absurd hgenuine (by simp)
    cases (inv_run hrun).phase.2 with
    | failed hresult _ => exact ⟨hresult, rfl⟩
    | tooLong hanswered _ => exact absurd hanswered (hnone hunanswered)
    | parsed hanswered _ =>
      refine absurd hanswered (hnone fun event he => hunanswered event ?_)
      exact List.mem_append_left _ he

/-- **Until it returns** a run can go on. -/
theorem Run.exists_next {q : Query} (r : Run q)
    (h : ∀ result answer, r.state.phase ≠ .done result answer) :
    ∃ (event : Event) (r' : Run q), r'.events = r.events ++ [event] := by
  obtain ⟨events, ⟨sends, phase⟩, hrun⟩ := r
  suffices hgoes : ∃ event s', next q ⟨sends, phase⟩ event = some s' by
    obtain ⟨event, s', hnext⟩ := hgoes
    refine ⟨event, ⟨events ++ [event], s', ?_⟩, rfl⟩
    rw [run_concat, hrun]
    exact hnext
  cases phase with
  | beforeSend => exact ⟨.clock none, _, rfl⟩
  | send =>
    exact ⟨.send q.query q.address .failed, ⟨sends, .done .networkFailed .zero⟩, by simp [next]⟩
  | wait direction waiting =>
    cases waiting with
    | enter => exact ⟨.clock none, _, rfl⟩
    | polling timeout =>
      exact ⟨.poll direction timeout .failed, ⟨sends, afterWait sends direction .failed⟩,
        by simp [next, waitForSocket]⟩
    | confirm => exact ⟨.clock none, _, rfl⟩
  | expired => exact ⟨.clock none, _, rfl⟩
  | receive => exact ⟨.receive .failed, _, rfl⟩
  | parse packet =>
    rcases hparsed : parseResponse packet q.transactionId q.hostname .zero with ⟨result, answer⟩
    exact ⟨.parse packet, ⟨sends, .done result answer⟩, by simp [next, hparsed]⟩
  | done result answer => exact absurd rfl (h result answer)

/-- A query for the host `h`. -/
def sampleQuery : Query where
  address := ⟨1, 53⟩
  query := [1, 2]
  transactionId := 0x0102
  hostname := [0x68]
  start := 0
  timeoutNs := 2000000000

/-- The first wait expires; after the second send a stray datagram is ignored, and the one of the
server is parsed. -/
def sampleRun : Run sampleQuery where
  events :=
    [.clock (some 0), .send [1, 2] ⟨1, 53⟩ .all,
      .clock (some 1000000), .poll .input 499 .timedOut, .clock (some 500000000),
      .clock (some 500000000), .send [1, 2] ⟨1, 53⟩ .all,
      .clock (some 500000000), .poll .input 500 (.revents true false), .clock (some 600000000),
      .receive (.datagram (some ⟨2, 53⟩) [1, 2]),
      .clock (some 600000000), .poll .input 400 (.revents true false), .clock (some 700000000),
      .receive (.datagram (some ⟨1, 53⟩) [1, 2]), .parse [1, 2]]
  state := ⟨2, .done .malformedResponse .zero⟩
  steps := by decide +kernel

theorem exchange_disciplined_sample : Disciplined sampleQuery sampleRun :=
  exchange_disciplined sampleQuery sampleRun

/-! ## One server, and the servers in turn -/

/-- `CN_DNS_DEFAULT_TIMEOUT_MS`. -/
def defaultTimeoutMs : ℕ := 2000

/-- What one call of `query_server` meets: the address that `inet_pton` makes of the text of the
server, what `/dev/urandom` yields, the reading of the clock, whether there is a socket and whether
it can be set non-blocking, and the events of the loop. -/
structure Meets where
  address : Option UInt32
  transactionId : Option UInt16
  start : Option ℤ
  socket : Bool
  nonblocking : Bool
  events : List Event
  deriving DecidableEq, Repr

/-- `query_server` up to its loop. -/
def setUp (server : Option (List UInt8)) (port timeoutMs : ℕ) (hostname : List UInt8)
    (meets : Meets) : Except DnsResult Query :=
  match server, meets.address with
  | some _, some address =>
    match buildQuery meets.transactionId hostname with
    | .error result => .error result
    | .ok query =>
      -- the clock is read before the socket is made
      match meets.start with
      | none => .error .networkFailed
      | some start =>
        if ¬ meets.socket then .error .socketFailed
        else if ¬ meets.nonblocking then .error .socketFailed
        else .ok
          { address := ⟨address, port⟩
            query := query
            transactionId := meets.transactionId.getD 0
            hostname := hostname
            start := start
            timeoutNs := timeoutMs * 1000000 }
  | _, _ => .error .invalid

/-- `query_server`, whose caller has cleared the answer; `none` while it has not returned. -/
def queryServer (server : Option (List UInt8)) (port timeoutMs : ℕ) (hostname : List UInt8)
    (meets : Meets) : Option (DnsResult × Answer) :=
  match setUp server port timeoutMs hostname meets with
  | .error result => some (result, .zero)
  | .ok q =>
    match run q meets.events with
    | some ⟨_, .done result answer⟩ => some (result, answer)
    | _ => none

/-- The loop of `cn_dnssimple_resolve_a` from the `i`-th server on; the call for it meets
`meets i`. -/
def queryServers (port timeoutMs : ℕ) (hostname : List UInt8) (meets : ℕ → Meets)
    (last : DnsResult) (i : ℕ) : List (Option (List UInt8)) → Option (DnsResult × Answer)
  | [] => some (last, .zero)
  | server :: servers =>
    match queryServer server port timeoutMs hostname (meets i) with
    | none => none
    | some (result, answer) =>
      if result = .ok then some (.ok, { answer with serverIndex := i })
      else if result = .nxdomain ∨ result = .noAddress ∨ result = .unsupportedCname ∨
          result = .entropyFailed ∨ result = .invalid ∨ result = .invalidHostname then
        some (result, answer)
      else queryServers port timeoutMs hostname meets result (i + 1) servers

/-- `cn_dnssimple_resolve_a` with the configured port and timeout, zero for the default ones. -/
def resolveA (config : DnsConfig) (port timeoutMs : ℕ) (hostname : List UInt8) (answer : Answer)
    (meets : ℕ → Meets) : Option (DnsResult × Answer) :=
  if config.servers.length = 0 ∨ maxServers < config.servers.length then some (.invalid, answer)
  else if ¬ hostnameOk hostname then some (.invalidHostname, answer)
  else
    let port := if port = 0 then defaultPort else port
    let timeoutMs := if timeoutMs = 0 then defaultTimeoutMs else timeoutMs
    if 65535 < port then some (.invalid, answer)
    else queryServers port timeoutMs hostname meets .invalid 0 config.servers

/-- The arguments pass the checks of `cn_dnssimple_resolve_a`. -/
structure ValidArguments (config : DnsConfig) (port : ℕ) (hostname : List UInt8) : Prop where
  servers_ne : config.servers.length ≠ 0
  servers_le : config.servers.length ≤ maxServers
  hostname : hostnameOk hostname = true
  port : (if port = 0 then defaultPort else port) ≤ 65535

/-! ## What a resolution leaves -/

/-- The results after a query has been built. -/
theorem exists_reply {result : DnsResult}
    (h : result ∈ [DnsResult.ok, .socketFailed, .networkFailed, .timeout, .packetSize,
      .malformedResponse, .truncatedResponse, .nxdomain, .serverFailure, .noAddress,
      .unsupportedCname]) : ∃ reply : Reply, reply.result = result := by
  cases result with
  | ok => exact ⟨.ok, rfl⟩
  | socketFailed => exact ⟨.socketFailed, rfl⟩
  | networkFailed => exact ⟨.networkFailed, rfl⟩
  | timeout => exact ⟨.timeout, rfl⟩
  | packetSize => exact ⟨.packetSize, rfl⟩
  | malformedResponse => exact ⟨.malformedResponse, rfl⟩
  | truncatedResponse => exact ⟨.truncatedResponse, rfl⟩
  | nxdomain => exact ⟨.nxdomain, rfl⟩
  | serverFailure => exact ⟨.serverFailure, rfl⟩
  | noAddress => exact ⟨.noAddress, rfl⟩
  | unsupportedCname => exact ⟨.unsupportedCname, rfl⟩
  | invalid | invalidHostname | entropyFailed => simp at h

/-- What a run that has returned leaves: a reply, and addresses only with success or after a
malformed response. -/
theorem Decided.leaves {q : Query} {events : List Event} {result : DnsResult} {answer : Answer}
    (h : Decided q events result answer) :
    (∃ reply : Reply, reply.result = result) ∧
      (result ≠ .ok → result ≠ .malformedResponse → answer = .zero) := by
  cases h with
  | failed hresult _ =>
    refine ⟨exists_reply ?_, fun _ _ => rfl⟩
    rcases hresult with (rfl | rfl) <;> decide
  | tooLong => exact ⟨⟨.packetSize, rfl⟩, fun _ _ => rfl⟩
  | @parsed events payload _ hshort =>
    by_cases hok : (parseResponse payload q.transactionId q.hostname .zero).1 = .ok
    · exact ⟨⟨.ok, hok.symm⟩, fun hne => absurd hok hne⟩
    · rcases parseResponse_ne_ok hshort hok with (hbad | ⟨hzero, hmem⟩)
      · exact ⟨⟨.malformedResponse, hbad.symm⟩, fun _ hne => absurd hbad hne⟩
      · refine ⟨exists_reply ?_, fun _ _ => hzero⟩
        generalize (parseResponse payload q.transactionId q.hostname .zero).1 = result at hmem
        revert hmem
        cases result <;> decide

/-- A call of `query_server` as the resolver of `DnsSimple` sees it. -/
def attempt (meets : Meets) (result : DnsResult × Answer) (reply : Reply) : Attempt :=
  { address := meets.address.isSome
    transactionId := meets.transactionId
    reply := reply
    addresses := result.2.ipv4 }

/-- **A call of `query_server`** that has returned: the resolver of `DnsSimple` sees the same
result, and addresses only with success or after a malformed response. -/
theorem queryServer_returns {server : Option (List UInt8)} {port timeoutMs : ℕ}
    {hostname : List UInt8} {meets : Meets} {result : DnsResult × Answer}
    (h : queryServer server port timeoutMs hostname meets = some result) :
    (result.1 ≠ .ok → result.1 ≠ .malformedResponse → result.2 = .zero) ∧
    ∃ reply, DnsSimple.queryServer server hostname (attempt meets result reply) =
      (result.1, if result.1 = .ok then result.2.ipv4 else []) := by
  unfold queryServer setUp at h
  -- each way out of the call, in its order
  cases server with
  | none =>
    obtain rfl := Option.some.inj h
    exact ⟨fun _ _ => rfl, .ok, rfl⟩
  | some server =>
    cases haddress : meets.address with
    | none =>
      rw [haddress] at h
      obtain rfl := Option.some.inj h
      refine ⟨fun _ _ => rfl, .ok, ?_⟩
      simp [DnsSimple.queryServer, attempt, haddress]
    | some address =>
      simp only [haddress] at h
      cases hquery : buildQuery meets.transactionId hostname with
      | error failure =>
        simp only [hquery] at h
        obtain rfl := Option.some.inj h
        refine ⟨fun _ _ => rfl, .ok, ?_⟩
        simp [DnsSimple.queryServer, attempt, haddress, hquery, Answer.zero]
      | ok query =>
        simp only [hquery] at h
        -- past the query the resolver only looks at the reply
        have hsees : (∃ reply : Reply, reply.result = result.1) →
            ∃ reply, DnsSimple.queryServer (some server) hostname (attempt meets result reply) =
              (result.1, if result.1 = .ok then result.2.ipv4 else []) := by
          rintro ⟨reply, hreply⟩
          refine ⟨reply, ?_⟩
          have hok : reply = .ok ↔ reply.result = .ok := by cases reply <;> simp [Reply.result]
          simp only [DnsSimple.queryServer, attempt, haddress, hquery, hok, hreply]
          simp
        cases hstart : meets.start with
        | none =>
          simp only [hstart] at h
          obtain rfl := Option.some.inj h
          exact ⟨fun _ _ => rfl, hsees ⟨.networkFailed, rfl⟩⟩
        | some start =>
          simp only [hstart] at h
          by_cases hsocket : ¬ meets.socket
          · rw [if_pos hsocket] at h
            obtain rfl := Option.some.inj h
            exact ⟨fun _ _ => rfl, hsees ⟨.socketFailed, rfl⟩⟩
          rw [if_neg hsocket] at h
          by_cases hnonblocking : ¬ meets.nonblocking
          · rw [if_pos hnonblocking] at h
            obtain rfl := Option.some.inj h
            exact ⟨fun _ _ => rfl, hsees ⟨.socketFailed, rfl⟩⟩
          rw [if_neg hnonblocking] at h
          dsimp only at h
          split at h
          · -- the exchange has run
            rename_i sends outcome answer hrun
            obtain rfl := Option.some.inj h
            obtain ⟨hreply, hzero⟩ := (inv_run hrun).phase.2.leaves
            exact ⟨hzero, hsees hreply⟩
          · exact absurd h (by simp)

/-- The last result stands when no server is left, and the answer is empty. -/
theorem queryServers_ne_ok {port timeoutMs : ℕ} {hostname : List UInt8} {meets : ℕ → Meets}
    {servers : List (Option (List UInt8))} {last : DnsResult} {i : ℕ}
    {result : DnsResult × Answer}
    (h : queryServers port timeoutMs hostname meets last i servers = some result)
    (hresult : result.1 ≠ .ok) : result.2 = .zero := by
  induction servers generalizing last i with
  | nil =>
    obtain rfl := Option.some.inj h
    rfl
  | cons server servers ih =>
    rw [queryServers] at h
    cases hcall : queryServer server port timeoutMs hostname (meets i) with
    | none => simp [hcall] at h
    | some returned =>
      obtain ⟨outcome, answer⟩ := returned
      simp only [hcall] at h
      split_ifs at h with hok hfinal
      · obtain rfl := Option.some.inj h
        exact absurd rfl hresult
      · -- a result that ends the search is no malformed response
        obtain rfl := Option.some.inj h
        refine (queryServer_returns hcall).1 hresult ?_
        rintro rfl
        simp at hfinal
      · exact ih h

/-- **Answer selection.** A packet of at most 512 bytes that is taken answers the query, with the
first four distinct addresses of the host name in its answer section; and a resolution that gets
past its arguments leaves an empty answer with every other result. -/
theorem answer_selection :
    (∀ (packet : Packet) (id : UInt16) (hostname : List UInt8) (answer : Answer),
      parseResponse packet.val id hostname .zero = (.ok, answer) →
        ∃ addresses, Answers packet.val id hostname addresses ∧
          answer = ⟨addresses.map ipv4Text, 0⟩) ∧
    ∀ (config : DnsConfig) (port timeoutMs : ℕ) (hostname : List UInt8) (answer answer' : Answer)
      (meets : ℕ → Meets) (result : DnsResult), ValidArguments config port hostname →
      resolveA config port timeoutMs hostname answer meets = some (result, answer') →
        result ≠ .ok → answer' = .zero := by
  constructor
  · intro packet id hostname answer h
    exact parseResponse_ok packet.property h
  · intro config port timeoutMs hostname answer answer' meets result hvalid h hresult
    have hne := hvalid.servers_ne
    have hle := hvalid.servers_le
    have hport := hvalid.port
    rw [resolveA, if_neg (by omega), if_neg (not_not.mpr hvalid.hostname)] at h
    dsimp only at h
    rw [if_neg (by omega)] at h
    exact queryServers_ne_ok h hresult

/-! ## The resolver over sockets -/

theorem queryServers_refines {port timeoutMs : ℕ} {hostname : List UInt8} {meets : ℕ → Meets}
    {servers : List (Option (List UInt8))} {last : DnsResult} {i : ℕ}
    {result : DnsResult × Answer}
    (h : queryServers port timeoutMs hostname meets last i servers = some result) :
    ∃ attempts : ℕ → Attempt, DnsSimple.queryServers hostname last
      ((servers.zipIdx i).map fun (server, j) => (server, attempts j)) =
        (result.1, result.2.ipv4) := by
  induction servers generalizing last i with
  | nil =>
    obtain rfl := Option.some.inj h
    exact ⟨fun _ => ⟨false, none, .ok, []⟩, rfl⟩
  | cons server servers ih =>
    rw [queryServers] at h
    cases hcall : queryServer server port timeoutMs hostname (meets i) with
    | none => simp [hcall] at h
    | some returned =>
      obtain ⟨outcome, answer⟩ := returned
      simp only [hcall] at h
      obtain ⟨hzero, reply, hsees⟩ := queryServer_returns hcall
      dsimp only at hzero hsees
      -- what the resolver does with the first server, if its attempt is what the call met
      have hfirst : ∀ attempts : ℕ → Attempt, attempts i = attempt (meets i) (outcome, answer) reply →
          DnsSimple.queryServers hostname last
            (((server :: servers).zipIdx i).map fun (server, j) => (server, attempts j)) =
          if final outcome then (outcome, if outcome = .ok then answer.ipv4 else [])
          else DnsSimple.queryServers hostname outcome
            ((servers.zipIdx (i + 1)).map fun (server, j) => (server, attempts j)) := by
        intro attempts hattempt
        rw [List.zipIdx_cons, List.map_cons, DnsSimple.queryServers, hattempt, hsees]
      -- an answer or a final result ends the loop
      by_cases hok : outcome = .ok
      · subst hok
        rw [if_pos rfl] at h
        obtain rfl := Option.some.inj h
        refine ⟨fun _ => attempt (meets i) (.ok, answer) reply, ?_⟩
        exact hfirst (fun _ => attempt (meets i) (.ok, answer) reply) rfl
      · rw [if_neg hok] at h
        by_cases hfinal : outcome = .nxdomain ∨ outcome = .noAddress ∨
            outcome = .unsupportedCname ∨ outcome = .entropyFailed ∨ outcome = .invalid ∨
            outcome = .invalidHostname
        · rw [if_pos hfinal] at h
          obtain rfl := Option.some.inj h
          refine ⟨fun _ => attempt (meets i) (outcome, answer) reply, ?_⟩
          have hmalformed : outcome ≠ .malformedResponse := by
            rintro rfl
            simp at hfinal
          refine (hfirst (fun _ => attempt (meets i) (outcome, answer) reply) rfl).trans ?_
          have hlast : final outcome = true := decide_eq_true (.inr hfinal)
          rw [if_pos hlast, if_neg hok, hzero hok hmalformed]
          rfl
        · rw [if_neg hfinal] at h
          obtain ⟨attempts, hrest⟩ := ih h
          -- the calls for the later servers meet what they met
          refine ⟨Function.update attempts i (attempt (meets i) (outcome, answer) reply), ?_⟩
          have hnotFinal : final outcome = false := by
            rw [final, decide_eq_false_iff_not]
            rintro (h | h)
            exacts [hok h, hfinal h]
          rw [hfirst _ (Function.update_self ..), hnotFinal, if_neg (by simp), ← hrest]
          congr 1
          refine List.map_congr_left ?_
          rintro ⟨server, j⟩ hmem
          have hj := List.le_snd_of_mem_zipIdx hmem
          dsimp only at hj ⊢
          rw [Function.update_of_ne (by omega)]

/-- **A resolution over sockets is one of the resolver.** -/
theorem resolveA_refines {config : DnsConfig} {port timeoutMs : ℕ} {hostname : List UInt8}
    {meets : ℕ → Meets} {result : DnsResult × Answer}
    (h : resolveA config port timeoutMs hostname .zero meets = some result) :
    ∃ attempts, DnsSimple.resolveA config port hostname attempts =
      (result.1, result.2.ipv4) := by
  unfold resolveA at h
  by_cases hservers : config.servers.length = 0 ∨ maxServers < config.servers.length
  · rw [if_pos hservers] at h
    obtain rfl := Option.some.inj h
    exact ⟨fun _ => ⟨false, none, .ok, []⟩, if_pos hservers⟩
  rw [if_neg hservers] at h
  by_cases hhost : ¬ hostnameOk hostname
  · rw [if_pos hhost] at h
    obtain rfl := Option.some.inj h
    refine ⟨fun _ => ⟨false, none, .ok, []⟩, ?_⟩
    rw [DnsSimple.resolveA, if_neg hservers, if_pos hhost]
    rfl
  rw [if_neg hhost] at h
  dsimp only at h
  by_cases hport : 65535 < (if port = 0 then defaultPort else port)
  · rw [if_pos hport] at h
    obtain rfl := Option.some.inj h
    refine ⟨fun _ => ⟨false, none, .ok, []⟩, ?_⟩
    rw [DnsSimple.resolveA, if_neg hservers, if_neg hhost, if_pos hport]
    rfl
  rw [if_neg hport] at h
  obtain ⟨attempts, hattempts⟩ := queryServers_refines h
  refine ⟨attempts, ?_⟩
  rw [DnsSimple.resolveA, if_neg hservers, if_neg hhost, if_neg hport]
  exact hattempts

end DnsExchange
