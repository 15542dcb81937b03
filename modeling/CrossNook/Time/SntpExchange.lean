import CrossNook.Net.DnsExchange
import CrossNook.System.EventMachine
import CrossNook.Time.TimeSimple

/-!
# Setting the clock

`cn_timesimple_sync` (`time/timesimple.c`) asks the configured SNTP servers in turn and sets the
clock by the first response that it accepts. Every call into the system is an event that carries what
the program passes and what the system answers, so a run is a list of events: readings of the two
clocks, random bytes, sends, polls, datagrams, and the one call that sets the clock. The calls of
`close`, whose results are not looked at, are no events.

## Main definitions

* `TimeSimple.buildRequest`: `build_request`
* `TimeSimple.next`: what the client does next, and what it makes of the answer
* `TimeSimple.Answered`: an attempt whose response is accepted
* `TimeSimple.Divides`: the division of a run into its attempts, one for each server that is asked

## Main results

* `TimeSimple.clock_set_from_answer`: the clock is set at most once, at the end, and by the response
  of a configured server to the request of the same attempt
* `TimeSimple.sync_disciplined`: what every run sends, and how long it waits
-/

namespace TimeSimple

open DnsExchange (Endpoint Sent Direction Polled Received Ready timeoutAt)
open EventMachine (run)
open Bytes (u32be)

/-- `CN_SNTP_RESPONSE_CAP`. -/
def sntpResponseCap : ℕ := sntpPacketBytes + 1

/-- `CN_TIME_MAX_SERVERS`. -/
def timeMaxServers : ℕ := 4

/-- `CN_TIME_DEFAULT_PORT`. -/
def timeDefaultPort : ℕ := 123

/-- `CN_TIME_DEFAULT_TIMEOUT_MS`. -/
def timeDefaultTimeoutMs : ℕ := 3000

/-- `cn_time_config`. A server is what `inet_pton` makes of its text: `none` for `NULL` and for a
text that is no address. -/
structure Config where
  servers : List (Option UInt32)
  port : ℕ
  timeoutMs : ℕ
  deriving DecidableEq

/-- `port` in `cn_timesimple_query`. -/
def Config.effectivePort (config : Config) : ℕ :=
  if config.port ≠ 0 then config.port else timeDefaultPort

/-- `timeout_ms` in `cn_timesimple_query`. -/
def Config.effectiveTimeoutMs (config : Config) : ℕ :=
  if config.timeoutMs ≠ 0 then config.timeoutMs else timeDefaultTimeoutMs

/-- How `read` on `/dev/urandom` returns: some bytes, none at the end of the file. -/
inductive RandomRead
  | bytes (got : List UInt8)
  | interrupted
  | failed
  deriving DecidableEq

/-- A call with its answer. -/
inductive Event
  | realtime (wall : Option ℤ)
  | openRandom (opened : Bool)
  | readRandom (read : RandomRead)
  | monotonic (now : Option ℤ)
  | socket (opened : Bool)
  | getFlags (ok : Bool)
  | setFlags (ok : Bool)
  | send (bytes : List UInt8) (peer : Endpoint) (sent : Sent)
  | poll (direction : Direction) (timeout : ℤ) (polled : Polled)
  | receive (received : Received)
  | setRealtime (seconds nanoseconds : ℤ) (ok : Bool)
  deriving DecidableEq

/-! ## The request -/

/-- `build_request`, with the wall clock and the random bytes: leap indicator 0, version 4 and mode 3
in the first byte, the transmit timestamp in the last eight, and zeros. -/
def buildRequest (wall : ℤ) (fraction : List UInt8) : List UInt8 :=
  [0x23] ++ List.replicate 39 0 ++ u32be (ntpSeconds wall) ++ fraction

/-! ## Waiting -/

/-- `poll_timeout_ms` after its reading of the clock. -/
def pollTimeoutMs (deadline : ℤ) (now : Option ℤ) : ℤ := DnsExchange.pollTimeoutMs deadline now

/-- Where `wait_for_socket` is: before its reading of the clock, and before `poll`. -/
inductive Waiting
  | enter
  | polling (timeout : ℤ)
  deriving DecidableEq

/-- One call in `wait_for_socket`: it goes on or returns. Unlike that of the resolver it does not
look at the clock again after `poll`. -/
def waitForSocket (direction : Direction) (deadline : ℤ) :
    Waiting → Event → Option (Waiting ⊕ Ready)
  | .enter, .monotonic now =>
    let timeout := pollTimeoutMs deadline now
    if timeout = -2 then some (.inr .failed)
    else if timeout < 0 then some (.inr .expired)
    else some (.inl (.polling timeout))
  | .polling timeout, .poll direction' timeout' polled =>
    if direction' ≠ direction ∨ timeout' ≠ timeout then none
    else
      match polled with
      | .timedOut => some (.inr .expired)
      | .interrupted => some (.inl .enter)
      | .failed => some (.inr .failed)
      | .revents true _ => some (.inr .ready)
      | .revents false true => some (.inr .failed)
      | .revents false false => some (.inl .enter)
  | _, _ => none

/-! ## The client -/

/-- What `query_server` has set up before its loops. -/
structure Attempt where
  request : List UInt8
  deadline : ℤ
  deriving DecidableEq

/-- Where `query_server` is, for one server: before each of its calls; then before the clock is set,
and after the return. -/
inductive Phase
  | realtime
  | openRandom (wall : ℤ)
  | readRandom (wall : ℤ) (got : List UInt8)
  | start (request : List UInt8)
  | socket (a : Attempt)
  | getFlags (a : Attempt)
  | setFlags (a : Attempt)
  | beforeSend (a : Attempt)
  | send (a : Attempt) (sendTime : ℤ)
  | waitOutput (a : Attempt) (waiting : Waiting)
  | waitInput (a : Attempt) (sendTime : ℤ) (waiting : Waiting)
  | receive (a : Attempt) (sendTime : ℤ)
  | received (a : Attempt) (sendTime : ℤ) (payload : List UInt8)
  | setRealtime (sample : Sample)
  | done (result : TimeResult)
  deriving DecidableEq

/-- The state of `cn_timesimple_sync`: the server that is asked, its address, the servers behind it,
and where `query_server` is. -/
structure State where
  index : ℕ
  address : UInt32
  rest : List (Option UInt32)
  phase : Phase
  deriving DecidableEq

/-- The loop over the servers, from one on. A server without an address is passed over, with a result
of its own. -/
def askFrom (index : ℕ) (last : TimeResult) : List (Option UInt32) → State
  | [] => ⟨index, 0, [], .done last⟩
  | none :: rest => askFrom (index + 1) .invalid rest
  | some address :: rest => ⟨index, address, rest, .realtime⟩

/-- `cn_timesimple_query` before its loop. -/
def State.start (config : Config) : State :=
  if config.servers.length = 0 ∨ timeMaxServers < config.servers.length ∨
      65535 < config.effectivePort then
    ⟨0, 0, [], .done .invalid⟩
  else askFrom 0 .invalid config.servers

/-- `query_server` has failed: the next server, unless it is the client itself that cannot go on. -/
def State.giveUp (s : State) (result : TimeResult) : State :=
  if result = .entropyFailed ∨ result = .internal then { s with phase := .done result }
  else askFrom (s.index + 1) result s.rest

/-- The server that is asked. -/
def Config.peer (config : Config) (s : State) : Endpoint := ⟨s.address, config.effectivePort⟩

/-- The loop of `read_fraction_entropy`. A read returns no more than it was asked for. -/
def afterRandom (s : State) (wall : ℤ) (got : List UInt8) : RandomRead → Option State
  | .interrupted => some { s with phase := .readRandom wall got }
  | .failed => some (s.giveUp .entropyFailed)
  | .bytes new =>
    if 4 < got.length + new.length then none
    else if new = [] then some (s.giveUp .entropyFailed)
    else if (got ++ new).length < 4 then some { s with phase := .readRandom wall (got ++ new) }
    else some { s with phase := .start (buildRequest wall (got ++ new)) }

/-- What follows `recvfrom`. -/
def afterReceive (config : Config) (s : State) (a : Attempt) (sendTime : ℤ) : Received → State
  | .interrupted => { s with phase := .waitInput a sendTime .enter }
  | .wouldBlock => { s with phase := .waitInput a sendTime .enter }
  | .failed => s.giveUp .recvFailed
  | .datagram peer payload =>
    if peer ≠ some (config.peer s) then s.giveUp .peerMismatch
    else { s with phase := .received a sendTime (payload.take sntpResponseCap) }

/-- What follows `sendto`. -/
def afterSend (config : Config) (s : State) (a : Attempt) (sendTime : ℤ) (bytes : List UInt8)
    (peer : Endpoint) (sent : Sent) : Option State :=
  if bytes ≠ a.request ∨ peer ≠ config.peer s then none
  else
    match sent with
    | .all => some { s with phase := .waitInput a sendTime .enter }
    | .interrupted => some { s with phase := .beforeSend a }
    | .wouldBlock => some { s with phase := .waitOutput a .enter }
    | .failed => some (s.giveUp .sendFailed)

/-- What follows a call in `wait_for_socket`. -/
def afterWait (s : State) (again : Waiting → Phase) (ready : Phase) (failure : TimeResult) :
    Waiting ⊕ Ready → State
  | .inl waiting => { s with phase := again waiting }
  | .inr .ready => { s with phase := ready }
  | .inr .expired => s.giveUp .timeout
  | .inr .failed => s.giveUp failure

/-- What follows `validate_response`. -/
def afterResponse (s : State) : TimeResult × Option Sample → State
  | (.ok, some sample) => { s with phase := .setRealtime sample }
  | (result, _) => s.giveUp result

/-- What follows `clock_settime`. -/
def afterSet (s : State) (sample : Sample) (seconds nanoseconds : ℤ) (ok : Bool) : Option State :=
  if seconds ≠ sample.unixSeconds ∨ nanoseconds ≠ sample.nanoseconds then none
  else some { s with phase := .done (if ok then .ok else .clockSetFailed) }

/-- **What the client does next**, and what it makes of the answer; another call is not its next
one. -/
def next (config : Config) (s : State) (event : Event) : Option State :=
  match s.phase, event with
  | .realtime, .realtime (some wall) => some { s with phase := .openRandom wall }
  | .realtime, .realtime none => some (s.giveUp .internal)
  | .openRandom wall, .openRandom opened =>
    if opened then some { s with phase := .readRandom wall [] } else some (s.giveUp .entropyFailed)
  | .readRandom wall got, .readRandom read => afterRandom s wall got read
  | .start request, .monotonic (some now) =>
    some { s with phase := .socket ⟨request, now + config.effectiveTimeoutMs * 1000000⟩ }
  | .start _, .monotonic none => some (s.giveUp .internal)
  | .socket a, .socket opened =>
    if opened then some { s with phase := .getFlags a } else some (s.giveUp .socketFailed)
  | .getFlags a, .getFlags ok =>
    if ok then some { s with phase := .setFlags a } else some (s.giveUp .socketFailed)
  | .setFlags a, .setFlags ok =>
    if ok then some { s with phase := .beforeSend a } else some (s.giveUp .socketFailed)
  | .beforeSend a, .monotonic (some now) => some { s with phase := .send a now }
  | .beforeSend _, .monotonic none => some (s.giveUp .internal)
  | .send a sendTime, .send bytes peer sent => afterSend config s a sendTime bytes peer sent
  | .waitOutput a waiting, event =>
    (waitForSocket .output a.deadline waiting event).map
      (afterWait s (.waitOutput a) (.beforeSend a) .sendFailed)
  | .waitInput a sendTime waiting, event =>
    (waitForSocket .input a.deadline waiting event).map
      (afterWait s (.waitInput a sendTime) (.receive a sendTime) .recvFailed)
  | .receive a sendTime, .receive received => some (afterReceive config s a sendTime received)
  | .received a sendTime payload, .monotonic (some now) =>
    (validateResponse payload a.request (Int64.ofInt (now - sendTime))).map (afterResponse s)
  | .received _ _ _, .monotonic none => some (s.giveUp .internal)
  | .setRealtime sample, .setRealtime seconds nanoseconds ok =>
    afterSet s sample seconds nanoseconds ok
  | _, _ => none

/-! ## What an attempt has done -/

/-- A `sendto` that has taken the whole request. -/
def Event.completesSend : Event → Bool
  | .send _ _ .all => true
  | _ => false

/-- A call of `clock_settime`. -/
def Event.setsClock : Event → Bool
  | .setRealtime _ _ _ => true
  | _ => false

/-- The requests that have been sent. -/
def completed (events : List Event) : ℕ := events.countP Event.completesSend

/-- The clock has not been touched. -/
def Untouched (events : List Event) : Prop := ∀ e ∈ events, e.setsClock = false

/-- The bytes of a read. -/
def Event.randomBytes : Event → List UInt8
  | .readRandom (.bytes got) => got
  | _ => []

/-- The bytes that have been read from `/dev/urandom`. -/
def randomBytes (events : List Event) : List UInt8 := events.flatMap Event.randomBytes

/-- The request of an attempt: from the wall clock that the attempt read first, and the four random
bytes that it read then. -/
def Built (attempt : List Event) (request : List UInt8) : Prop :=
  ∃ wall reads, .realtime (some wall) :: reads <+: attempt ∧ (randomBytes reads).length = 4 ∧
    request = buildRequest wall (randomBytes reads)

/-- The clock has not been read. -/
def Unread (attempt : List Event) : Prop := ∀ now, .monotonic now ∉ attempt

/-- The first reading of the clock. -/
def FirstReading (attempt : List Event) (start : ℤ) : Prop :=
  ∃ head rest, attempt = head ++ .monotonic (some start) :: rest ∧ Unread head

/-- The request is built, and the deadline is as far from the first reading of the clock in the
attempt as the configuration says. -/
structure Started (config : Config) (attempt : List Event) (a : Attempt) : Prop where
  built : Built attempt a.request
  deadline : ∃ start, FirstReading attempt start ∧
    a.deadline = start + config.effectiveTimeoutMs * 1000000

/-- The request has gone to the server, right after a reading of the clock. -/
def SentAt (peer : Endpoint) (attempt : List Event) (a : Attempt) (sendTime : ℤ) : Prop :=
  ∃ before after, attempt =
    before ++ [.monotonic (some sendTime), .send a.request peer .all] ++ after

/-- The last call has read the clock before the deadline, and the timeout is what is left. -/
def Polling (attempt : List Event) (deadline timeout : ℤ) : Prop :=
  ∃ before now, attempt = before ++ [.monotonic (some now)] ∧ now < deadline ∧
    timeout = timeoutAt deadline now

/-- What holds in `wait_for_socket`. -/
def WaitInv (attempt : List Event) (deadline : ℤ) : Waiting → Prop
  | .enter => True
  | .polling timeout => Polling attempt deadline timeout

/-- **An attempt whose response is accepted**: the request has gone to the server, the server's
datagram came in, the clock was read, and `validate_response` made the sample of the datagram, the
request and the time between the two readings. -/
def Answered (config : Config) (peer : Endpoint) (attempt : List Event) (sample : Sample) : Prop :=
  ∃ body a payload sendTime receiveTime,
    attempt = body ++ [.receive (.datagram (some peer) payload), .monotonic (some receiveTime)] ∧
    Started config body a ∧ SentAt peer body a sendTime ∧
    validateResponse (payload.take sntpResponseCap) a.request
      (Int64.ofInt (receiveTime - sendTime)) = some (.ok, some sample)

/-- What holds in a phase, about the events of the attempt. -/
def PhaseInv (config : Config) (peer : Endpoint) (attempt : List Event) : Phase → Prop
  | .realtime => attempt = []
  | .openRandom wall => attempt = [.realtime (some wall)]
  | .readRandom wall got => completed attempt = 0 ∧ Unread attempt ∧ got.length < 4 ∧
    ∃ reads, attempt = .realtime (some wall) :: reads ∧ randomBytes reads = got
  | .start request => completed attempt = 0 ∧ Unread attempt ∧ Built attempt request
  | .socket a => completed attempt = 0 ∧ Started config attempt a
  | .getFlags a => completed attempt = 0 ∧ Started config attempt a
  | .setFlags a => completed attempt = 0 ∧ Started config attempt a
  | .beforeSend a => completed attempt = 0 ∧ Started config attempt a
  | .send a sendTime => completed attempt = 0 ∧ Started config attempt a ∧
    ∃ before, attempt = before ++ [.monotonic (some sendTime)]
  | .waitOutput a waiting => completed attempt = 0 ∧ Started config attempt a ∧
    WaitInv attempt a.deadline waiting
  | .waitInput a sendTime waiting => completed attempt = 1 ∧ Started config attempt a ∧
    SentAt peer attempt a sendTime ∧ WaitInv attempt a.deadline waiting
  | .receive a sendTime => completed attempt = 1 ∧ Started config attempt a ∧
    SentAt peer attempt a sendTime
  | .received a sendTime payload => completed attempt = 1 ∧ ∃ body whole,
    attempt = body ++ [.receive (.datagram (some peer) whole)] ∧
    payload = whole.take sntpResponseCap ∧ Started config body a ∧ SentAt peer body a sendTime
  | .setRealtime sample => completed attempt = 1 ∧ Answered config peer attempt sample
  | .done _ => False

/-- The request may be sent to the peer after these calls of an attempt: it is built from them, and
it has not gone out before. -/
def MaySend (config : Config) (address : UInt32) (before : List Event) (bytes : List UInt8)
    (peer : Endpoint) : Prop :=
  peer = ⟨address, config.effectivePort⟩ ∧ completed before = 0 ∧ Built before bytes

/-- `poll` may be called with the timeout after these calls of an attempt: the last one has read the
clock before the deadline, which is the configured time behind the first reading of the attempt, and
the timeout is what is left until then. -/
def MayPoll (config : Config) (before : List Event) (timeout : ℤ) : Prop :=
  ∃ head start now, before = head ++ [.monotonic (some now)] ∧ FirstReading before start ∧
    now < start + config.effectiveTimeoutMs * 1000000 ∧
    timeout = timeoutAt (start + config.effectiveTimeoutMs * 1000000) now

/-- **The attempt to ask a server.** It begins with the one reading of the wall clock; what it sends
and how long it waits is as it may be. -/
structure Disciplined (config : Config) (address : UInt32) (attempt : List Event) : Prop where
  begins : attempt = [] ∨ ∃ wall rest, attempt = .realtime wall :: rest ∧
    ∀ wall', .realtime wall' ∉ rest
  sends : ∀ before bytes peer sent after, attempt = before ++ .send bytes peer sent :: after →
    MaySend config address before bytes peer
  polls : ∀ before direction timeout polled after,
    attempt = before ++ .poll direction timeout polled :: after → MayPoll config before timeout

/-- **A run divided into its attempts**, each with the place of its server in the configuration:
they follow the configuration, so that none of its places is asked twice. -/
structure Divides (config : Config) (attempts : List (ℕ × List Event)) (events : List Event) :
    Prop where
  events_eq : events = (attempts.map Prod.snd).flatten
  increasing : (attempts.map Prod.fst).Pairwise (· < ·)
  few : ∀ p ∈ attempts, p.1 < timeMaxServers
  attempt : ∀ p ∈ attempts, ∃ address, config.servers[p.1]? = some (some address) ∧
    Disciplined config address p.2

/-- The run is divided, with places before `index`. -/
def DividedBefore (config : Config) (events : List Event) (index : ℕ) : Prop :=
  ∃ attempts, Divides config attempts events ∧ ∀ p ∈ attempts, p.1 < index

/-- A run that is asking a server: behind the attempts for the servers before it stands its own. -/
structure Asking (config : Config) (events : List Event) (s : State) : Prop where
  few : config.servers.length ≤ timeMaxServers
  server : config.servers[s.index]? = some (some s.address)
  rest_eq : s.rest = config.servers.drop (s.index + 1)
  untouched : Untouched events
  attempt : ∃ earlier attempt, events = earlier ++ attempt ∧ DividedBefore config earlier s.index ∧
    Disciplined config s.address attempt ∧ PhaseInv config (config.peer s) attempt s.phase

/-- Some configured server has been asked and its response accepted. -/
def Accepted (config : Config) (events : List Event) (sample : Sample) : Prop :=
  ∃ (i : ℕ) (address : UInt32) (earlier attempt : List Event),
    config.servers[i]? = some (some address) ∧ events = earlier ++ attempt ∧
    Answered config ⟨address, config.effectivePort⟩ attempt sample

/-- A run that has returned. Either it has not touched the clock and does not report success, or its
last call is the one that sets the clock, by an accepted response. -/
structure Ended (config : Config) (events : List Event) (result : TimeResult) : Prop where
  divided : ∃ attempts, Divides config attempts events
  outcome : (Untouched events ∧ result ≠ .ok) ∨
    ∃ before sample ok, Untouched before ∧ Accepted config before sample ∧
      events = before ++ [.setRealtime sample.unixSeconds sample.nanoseconds ok] ∧
      result = if ok then .ok else .clockSetFailed

/-- What holds after every run. -/
def Inv (config : Config) (events : List Event) (s : State) : Prop :=
  Asking config events s ∨ ∃ result, s.phase = .done result ∧ Ended config events result

/-! ## One call more -/

theorem completed_concat (events : List Event) (e : Event) :
    completed (events ++ [e]) = completed events + if e.completesSend then 1 else 0 := by
  rw [completed, completed, List.countP_append, List.countP_singleton]

theorem completed_append (events events' : List Event) :
    completed (events ++ events') = completed events + completed events' :=
  List.countP_append

/-- A call that sends nothing leaves the count as it is. -/
theorem completed_concat_of_not {events : List Event} {e : Event} (he : e.completesSend = false) :
    completed (events ++ [e]) = completed events := by
  rw [completed_concat, he]
  rfl

theorem Untouched.concat {events : List Event} (h : Untouched events) {e : Event}
    (he : e.setsClock = false) : Untouched (events ++ [e]) := by
  intro e' hmem
  rcases List.mem_append.mp hmem with hmem | hmem
  · exact h e' hmem
  · rw [List.mem_singleton.mp hmem, he]

theorem randomBytes_concat (events : List Event) (e : Event) :
    randomBytes (events ++ [e]) = randomBytes events ++ e.randomBytes := by
  rw [randomBytes, List.flatMap_append, List.flatMap_singleton]
  rfl

section More

variable {config : Config} {peer : Endpoint} {attempt : List Event} {a : Attempt}

theorem Built.append {request : List UInt8} (h : Built attempt request) (more : List Event) :
    Built (attempt ++ more) request := by
  obtain ⟨wall, reads, hprefix, hlength, hrequest⟩ := h
  exact ⟨wall, reads, hprefix.trans (List.prefix_append attempt more), hlength, hrequest⟩

theorem Unread.concat (h : Unread attempt) {e : Event} (he : ∀ now, e ≠ .monotonic now) :
    Unread (attempt ++ [e]) := by
  intro now hmem
  rcases List.mem_append.mp hmem with hmem | hmem
  · exact h now hmem
  · exact he now (List.mem_singleton.mp hmem).symm

theorem FirstReading.append {start : ℤ} (h : FirstReading attempt start) (more : List Event) :
    FirstReading (attempt ++ more) start := by
  obtain ⟨head, rest, rfl, hunread⟩ := h
  exact ⟨head, rest ++ more, by simp, hunread⟩

theorem Started.append (h : Started config attempt a) (more : List Event) :
    Started config (attempt ++ more) a := by
  obtain ⟨hbuilt, start, hstart, hdeadline⟩ := h
  exact ⟨hbuilt.append more, start, hstart.append more, hdeadline⟩

theorem SentAt.append {sendTime : ℤ} (h : SentAt peer attempt a sendTime) (more : List Event) :
    SentAt peer (attempt ++ more) a sendTime := by
  obtain ⟨before, after, rfl⟩ := h
  exact ⟨before, after ++ more, by simp⟩

theorem Built.ne_nil {request : List UInt8} (h : Built attempt request) : attempt ≠ [] := by
  obtain ⟨wall, reads, hprefix, -⟩ := h
  rintro rfl
  exact absurd (List.prefix_nil.mp hprefix) (List.cons_ne_nil _ _)

/-- Only at its beginning an attempt has made no call. -/
theorem PhaseInv.ne_nil {phase : Phase} (h : PhaseInv config peer attempt phase)
    (hphase : phase ≠ .realtime) : attempt ≠ [] := by
  cases phase with
  | realtime => exact absurd rfl hphase
  | openRandom wall =>
    rw [h]
    exact List.cons_ne_nil _ _
  | readRandom wall got =>
    obtain ⟨-, -, -, reads, rfl, -⟩ := h
    exact List.cons_ne_nil _ _
  | start request => exact h.2.2.ne_nil
  | socket | getFlags | setFlags | beforeSend => exact h.2.built.ne_nil
  | send | waitOutput | waitInput | receive => exact h.2.1.built.ne_nil
  | received a sendTime payload =>
    obtain ⟨-, body, whole, rfl, -⟩ := h
    simp
  | setRealtime sample =>
    obtain ⟨-, body, a, payload, sendTime, receiveTime, rfl, -⟩ := h
    simp
  | done result => exact h.elim

/-- A call that an attempt may make. -/
def MayCall (config : Config) (address : UInt32) (attempt : List Event) : Event → Prop
  | .realtime _ => attempt = []
  | .send bytes peer _ => attempt ≠ [] ∧ MaySend config address attempt bytes peer
  | .poll _ timeout _ => attempt ≠ [] ∧ MayPoll config attempt timeout
  | _ => attempt ≠ []

/-- One call more in an attempt. -/
theorem Disciplined.concat {address : UInt32} {e : Event} (h : Disciplined config address attempt)
    (he : MayCall config address attempt e) : Disciplined config address (attempt ++ [e]) := by
  have hsplit : ∀ {before after : List Event} {e' : Event},
      attempt ++ [e] = before ++ e' :: after → (∃ more, attempt = before ++ e' :: more) ∨
        attempt = before ∧ e = e' := by
    intro before after e' heq
    rcases List.eq_nil_or_concat after with rfl | ⟨after, last, rfl⟩
    · obtain ⟨hbefore, hlast⟩ := List.append_inj' heq rfl
      exact .inr ⟨hbefore, List.singleton_inj.mp hlast⟩
    · rw [List.concat_eq_append, ← List.cons_append, ← List.append_assoc] at heq
      exact .inl ⟨after, (List.append_inj' heq rfl).1⟩
  constructor
  · by_cases hnil : attempt = []
    · subst hnil
      cases e with
      | realtime wall => exact .inr ⟨wall, [], rfl, fun _ hmem => absurd hmem List.not_mem_nil⟩
      | send | poll => exact absurd rfl he.1
      | _ => exact absurd rfl he
    · obtain ⟨wall, rest, rfl, hrest⟩ := h.begins.resolve_left hnil
      refine .inr ⟨wall, rest ++ [e], rfl, fun wall' hmem => ?_⟩
      rcases List.mem_append.mp hmem with hmem | hmem
      · exact hrest wall' hmem
      · obtain rfl := List.mem_singleton.mp hmem
        exact hnil he
  · intro before bytes peer sent after heq
    rcases hsplit heq with ⟨more, hmore⟩ | ⟨rfl, rfl⟩
    · exact h.sends before bytes peer sent more hmore
    · exact he.2
  · intro before direction timeout polled after heq
    rcases hsplit heq with ⟨more, hmore⟩ | ⟨rfl, rfl⟩
    · exact h.polls before direction timeout polled more hmore
    · exact he.2

theorem disciplined_nil (config : Config) (address : UInt32) : Disciplined config address [] where
  begins := .inl rfl
  sends before bytes peer sent after h := by simp at h
  polls before direction timeout polled after h := by simp at h

/-- The attempt of the next place. -/
theorem DividedBefore.concat {events : List Event} {index : ℕ} {address : UInt32}
    (h : DividedBefore config events index) (hfew : index < timeMaxServers)
    (hserver : config.servers[index]? = some (some address))
    (hattempt : Disciplined config address attempt) :
    DividedBefore config (events ++ attempt) (index + 1) := by
  obtain ⟨attempts, ⟨rfl, hincreasing, hplaces, hattempts⟩, hbefore⟩ := h
  refine ⟨attempts ++ [(index, attempt)], ⟨by simp, ?_, ?_, ?_⟩, ?_⟩
  · rw [List.map_append, List.pairwise_append]
    refine ⟨hincreasing, List.pairwise_singleton _ _, ?_⟩
    intro i hi j hj
    obtain ⟨p, hp, rfl⟩ := List.mem_map.mp hi
    rw [List.map_singleton, List.mem_singleton] at hj
    rw [hj]
    exact hbefore p hp
  · simpa [or_imp, forall_and, hfew] using hplaces
  · intro p hp
    rcases List.mem_append.mp hp with hp | hp
    · exact hattempts p hp
    · rw [List.mem_singleton.mp hp]
      exact ⟨address, hserver, hattempt⟩
  · intro p hp
    rcases List.mem_append.mp hp with hp | hp
    · exact (hbefore p hp).trans (Nat.lt_succ_self index)
    · rw [List.mem_singleton.mp hp]
      exact Nat.lt_succ_self index

theorem dividedBefore_nil (config : Config) (index : ℕ) : DividedBefore config [] index :=
  ⟨[], ⟨rfl, .nil, by simp, by simp⟩, by simp⟩

theorem DividedBefore.mono {events : List Event} {index index' : ℕ}
    (h : DividedBefore config events index) (hle : index ≤ index') :
    DividedBefore config events index' :=
  h.imp fun _ h => ⟨h.1, fun p hp => (h.2 p hp).trans_le hle⟩

end More

/-! ## The samples of accepted responses -/

/-- Only the two words of a timestamp are decoded. -/
theorem decodeTransmitTime_loaded (p : List UInt8) (rttNs : Int64) :
    decodeTransmitTime (timestamp (loadU32 p) (loadU32 (p.drop 4))) rttNs =
      decodeTransmitTime p rttNs := by
  unfold decodeTransmitTime
  rw [loadU32_seconds, loadU32_fraction]

/-- The sample of a timestamp that is taken: the second of the interval that it names, its fraction,
and half of the round trip. -/
theorem sample_of_decode {p : List UInt8} {rttNs : Int64} {sample : Option Sample}
    (h : decodeTransmitTime p rttNs = some (.ok, sample)) :
    ∃ taken unix, sample = some taken ∧ InRange unix ∧ ntpSeconds unix = loadU32 p ∧
      0 ≤ rttNs.toInt ∧
      taken.unixSeconds * 10 ^ 9 + taken.nanoseconds =
        exactTime unix (loadU32 (p.drop 4)) rttNs ∧
      0 ≤ taken.nanoseconds ∧ taken.nanoseconds < 10 ^ 9 ∧ InRange taken.unixSeconds := by
  have hdecode := h
  rw [← decodeTransmitTime_loaded, decodeTransmitTime_eq] at hdecode
  dsimp only at hdecode
  obtain ⟨hcheck, -⟩ := of_check_eq_ok (by decide) hdecode
  obtain ⟨hfound, hrtt⟩ := not_or.mp hcheck
  obtain ⟨unix, hrange, hunix⟩ := eraCandidate_found (not_not.mp hfound)
  rw [← decodeTransmitTime_loaded, ← hunix, decodeTransmitTime_of_second hrange _ (not_lt.mp hrtt),
    sampleAt_eq hrange (not_lt.mp hrtt)] at h
  dsimp only at h
  obtain ⟨hlate, hsample⟩ := of_check_eq_ok (by decide) h
  have hsome := (congrArg Prod.snd (Option.some.inj hsample)).symm
  refine ⟨_, unix, hsome, hrange, hunix, not_lt.mp hrtt, Int.ediv_mul_add_emod _ _,
    Int.emod_nonneg _ (by norm_num), Int.emod_lt_of_pos _ (by norm_num), ?_, not_lt.mp hlate⟩
  -- the fraction and the round trip only add to the second
  have hmin := hrange.1
  have hnonneg : 0 ≤ rttNs.toInt / 2 := by omega
  dsimp only
  unfold exactTime
  omega

/-! ## Steps -/

section Step

variable {config : Config} {events : List Event} {s s' : State} {e : Event}

/-- The loop over the servers asks one of those that are left, or returns what the last one left. -/
theorem inv_askFrom (hfew : config.servers.length ≤ timeMaxServers) (huntouched : Untouched events)
    {index : ℕ} {last : TimeResult} (hlast : last ≠ .ok) (hindex : index ≤ config.servers.length)
    (hdivided : DividedBefore config events index) {servers : List (Option UInt32)}
    (hservers : servers = config.servers.drop index) :
    Inv config events (askFrom index last servers) := by
  induction servers generalizing index last with
  | nil =>
    exact .inr ⟨last, rfl, hdivided.imp fun _ h => h.1, .inl ⟨huntouched, hlast⟩⟩
  | cons server servers ih =>
    have hget : config.servers[index]? = some server := by
      rw [← List.head?_drop, ← hservers]
      rfl
    have hlt : index < config.servers.length := (List.getElem?_eq_some_iff.mp hget).1
    have htail : servers = config.servers.drop (index + 1) := by
      rw [← List.tail_drop, ← hservers]
      rfl
    cases server with
    | none => exact ih (by decide) hlt (hdivided.mono (Nat.le_succ index)) htail
    | some address =>
      exact .inl ⟨hfew, hget, htail, huntouched, events, [], (List.append_nil events).symm, hdivided,
        disciplined_nil config address, rfl⟩

theorem inv_start (config : Config) : Inv config [] (.start config) := by
  rw [State.start]
  by_cases h : config.servers.length = 0 ∨ timeMaxServers < config.servers.length ∨
      65535 < config.effectivePort
  · rw [if_pos h]
    exact .inr ⟨.invalid, rfl, (dividedBefore_nil config 0).imp fun _ h => h.1,
      .inl ⟨fun e he => absurd he List.not_mem_nil, by decide⟩⟩
  · rw [if_neg h]
    exact inv_askFrom (by omega) (fun e he => absurd he List.not_mem_nil) (by decide)
      (Nat.zero_le _) (dividedBefore_nil config 0) rfl

/-- The state in which the request is sent. -/
theorem of_next_send {bytes : List UInt8} {peer : Endpoint} {sent : Sent}
    (h : next config s (.send bytes peer sent) = some s') :
    ∃ a sendTime, s.phase = .send a sendTime ∧ bytes = a.request ∧ peer = config.peer s := by
  obtain ⟨index, address, rest, phase⟩ := s
  cases phase with
  | send a sendTime =>
    change afterSend config _ a sendTime bytes peer sent = some s' at h
    unfold afterSend at h
    by_cases hcall : bytes ≠ a.request ∨ peer ≠ config.peer ⟨index, address, rest, .send a sendTime⟩
    · rw [if_pos hcall] at h
      cases h
    · obtain ⟨hbytes, hpeer⟩ := not_or.mp hcall
      exact ⟨a, sendTime, rfl, not_not.mp hbytes, not_not.mp hpeer⟩
  | waitOutput a waiting => cases waiting <;> cases h
  | waitInput a sendTime waiting => cases waiting <;> cases h
  | realtime | openRandom | readRandom | start | socket | getFlags | setFlags | beforeSend | receive
    | received | setRealtime | done => cases h

/-- The state in which `poll` is called. -/
theorem of_next_poll {direction : Direction} {timeout : ℤ} {polled : Polled}
    (h : next config s (.poll direction timeout polled) = some s') :
    (∃ a, s.phase = .waitOutput a (.polling timeout)) ∨
      ∃ a sendTime, s.phase = .waitInput a sendTime (.polling timeout) := by
  obtain ⟨index, address, rest, phase⟩ := s
  -- `wait_for_socket` passes the timeout that it has worked out
  have hwait : ∀ (expected : Direction) (deadline : ℤ) (waiting : Waiting),
      waitForSocket expected deadline waiting (.poll direction timeout polled) ≠ none →
      waiting = .polling timeout := by
    intro expected deadline waiting hsome
    cases waiting with
    | enter => exact absurd rfl hsome
    | polling timeout' =>
      simp only [waitForSocket] at hsome
      by_cases hcall : direction ≠ expected ∨ timeout ≠ timeout'
      · rw [if_pos hcall] at hsome
        exact absurd rfl hsome
      · rw [not_not.mp (not_or.mp hcall).2]
  cases phase with
  | waitOutput a waiting =>
    refine .inl ⟨a, ?_⟩
    obtain ⟨outcome, hsome, -⟩ := Option.map_eq_some_iff.mp h
    rw [hwait .output a.deadline waiting]
    rw [hsome]
    exact Option.some_ne_none outcome
  | waitInput a sendTime waiting =>
    refine .inr ⟨a, sendTime, ?_⟩
    obtain ⟨outcome, hsome, -⟩ := Option.map_eq_some_iff.mp h
    rw [hwait .input a.deadline waiting]
    rw [hsome]
    exact Option.some_ne_none outcome
  | realtime | openRandom | readRandom | start | socket | getFlags | setFlags | beforeSend | send
    | receive | received | setRealtime | done => cases h

/-- The state in which the clock is set, and what follows. -/
theorem of_next_setRealtime {seconds nanoseconds : ℤ} {ok : Bool}
    (h : next config s (.setRealtime seconds nanoseconds ok) = some s') :
    (∃ sample, s.phase = .setRealtime sample ∧ seconds = sample.unixSeconds ∧
      nanoseconds = sample.nanoseconds) ∧
      s'.phase = .done (if ok then .ok else .clockSetFailed) := by
  obtain ⟨index, address, rest, phase⟩ := s
  cases phase with
  | setRealtime sample =>
    change afterSet _ sample seconds nanoseconds ok = some s' at h
    unfold afterSet at h
    by_cases hcall : seconds ≠ sample.unixSeconds ∨ nanoseconds ≠ sample.nanoseconds
    · rw [if_pos hcall] at h
      cases h
    · rw [if_neg hcall] at h
      obtain rfl := Option.some.inj h
      obtain ⟨hseconds, hnanoseconds⟩ := not_or.mp hcall
      exact ⟨⟨sample, rfl, not_not.mp hseconds, not_not.mp hnanoseconds⟩, rfl⟩
  | waitOutput a waiting => cases waiting <;> cases h
  | waitInput a sendTime waiting => cases waiting <;> cases h
  | realtime | openRandom | readRandom | start | socket | getFlags | setFlags | beforeSend | send
    | receive | received | done => cases h

/-- A call that has returned makes no more calls. -/
theorem next_done {result : TimeResult} (h : s.phase = .done result) (e : Event) :
    next config s e = none := by
  obtain ⟨index, address, rest, phase⟩ := s
  dsimp only at h
  subst h
  cases e with
  | _ => rfl

/-- An attempt calls what it may call. -/
theorem PhaseInv.mayCall {attempt : List Event}
    (h : PhaseInv config (config.peer s) attempt s.phase) (hnext : next config s e = some s') :
    MayCall config s.address attempt e := by
  have hne : (∀ wall, e ≠ .realtime wall) → attempt ≠ [] := by
    refine fun he => h.ne_nil fun hphase => ?_
    obtain ⟨index, address, rest, phase⟩ := s
    dsimp only at hphase
    subst hphase
    cases e with
    | realtime wall => exact he wall rfl
    | _ => cases hnext
  cases e with
  | realtime wall =>
    obtain ⟨index, address, rest, phase⟩ := s
    cases phase with
    | realtime => exact h
    | waitOutput a waiting => cases waiting <;> cases hnext
    | waitInput a sendTime waiting => cases waiting <;> cases hnext
    | _ => cases hnext
  | send bytes peer sent =>
    obtain ⟨a, sendTime, hphase, rfl, rfl⟩ := of_next_send hnext
    rw [hphase] at h
    exact ⟨hne (by simp), rfl, h.1, h.2.1.built⟩
  | poll direction timeout polled =>
    have hpolling : ∃ a, Started config attempt a ∧ Polling attempt a.deadline timeout := by
      rcases of_next_poll hnext with ⟨a, hphase⟩ | ⟨a, sendTime, hphase⟩
      · rw [hphase] at h
        exact ⟨a, h.2.1, h.2.2⟩
      · rw [hphase] at h
        exact ⟨a, h.2.1, h.2.2.2⟩
    obtain ⟨a, ⟨-, start, hstart, hdeadline⟩, before, now, hbefore, hnow, htimeout⟩ := hpolling
    rw [hdeadline] at hnow htimeout
    exact ⟨hne (by simp), before, start, now, hbefore, hstart, hnow, htimeout⟩
  | _ => exact hne (by simp)

/-- A run that is asking a server, and its next call. -/
structure Calling (config : Config) (events : List Event) (s : State) (e : Event) : Prop where
  asking : Asking config events s
  call : ∀ attempt, PhaseInv config (config.peer s) attempt s.phase →
    MayCall config s.address attempt e

/-- The attempt goes on. -/
theorem Calling.stay (h : Calling config events s e) (he : e.setsClock = false) {phase : Phase}
    (hphase : ∀ attempt, PhaseInv config (config.peer s) attempt s.phase →
      PhaseInv config (config.peer s) (attempt ++ [e]) phase) :
    Inv config (events ++ [e]) { s with phase := phase } := by
  obtain ⟨⟨hfew, hserver, hrest, huntouched, earlier, attempt, rfl, hearlier, hdisciplined,
    hattempt⟩, hcall⟩ := h
  exact .inl ⟨hfew, hserver, hrest, huntouched.concat he, earlier, attempt ++ [e],
    List.append_assoc _ _ _, hearlier, hdisciplined.concat (hcall attempt hattempt),
    hphase attempt hattempt⟩

/-- The run with the call, when this is the last one of the attempt. -/
theorem Calling.divided (h : Calling config events s e) :
    DividedBefore config (events ++ [e]) (s.index + 1) := by
  obtain ⟨⟨hfew, hserver, -, -, earlier, attempt, rfl, hearlier, hdisciplined, hattempt⟩, hcall⟩ := h
  have hlt : s.index < config.servers.length := (List.getElem?_eq_some_iff.mp hserver).1
  rw [List.append_assoc]
  exact hearlier.concat (hlt.trans_le hfew) hserver (hdisciplined.concat (hcall attempt hattempt))

/-- The attempt fails. -/
theorem Calling.leave (h : Calling config events s e) (he : e.setsClock = false)
    {result : TimeResult} (hresult : result ≠ .ok) :
    Inv config (events ++ [e]) (s.giveUp result) := by
  have hdivided := h.divided
  obtain ⟨⟨hfew, hserver, hrest, huntouched, -⟩, -⟩ := h
  have hlt : s.index < config.servers.length := (List.getElem?_eq_some_iff.mp hserver).1
  rw [State.giveUp]
  by_cases hown : result = .entropyFailed ∨ result = .internal
  · rw [if_pos hown]
    exact .inr ⟨result, rfl, hdivided.imp fun _ h => h.1, .inl ⟨huntouched.concat he, hresult⟩⟩
  · rw [if_neg hown]
    exact inv_askFrom hfew (huntouched.concat he) hresult hlt hdivided hrest

/-- A call that leaves what the attempt has started as it is. -/
theorem started_concat {attempt : List Event} {a : Attempt} (he : e.completesSend = false)
    (h : completed attempt = 0 ∧ Started config attempt a) :
    completed (attempt ++ [e]) = 0 ∧ Started config (attempt ++ [e]) a :=
  ⟨(completed_concat_of_not he).trans h.1, h.2.append [e]⟩

/-- What `poll_timeout_ms` tells its caller. -/
theorem pollTimeoutMs_cases (deadline : ℤ) (reading : Option ℤ) :
    pollTimeoutMs deadline reading = -2 ∨ pollTimeoutMs deadline reading = -1 ∨
      ∃ now, reading = some now ∧ now < deadline ∧
        pollTimeoutMs deadline reading = timeoutAt deadline now ∧
        0 < pollTimeoutMs deadline reading := by
  rcases DnsExchange.pollTimeoutMs_cases deadline reading with ⟨-, hpoll⟩ | hpoll | hpoll
  · exact .inl hpoll
  · exact .inr (.inl hpoll)
  · exact .inr (.inr hpoll)

/-- What `wait_for_socket` can do. -/
theorem waitForSocket_cases {direction : Direction} {deadline : ℤ} {waiting : Waiting}
    {outcome : Waiting ⊕ Ready} (h : waitForSocket direction deadline waiting e = some outcome) :
    e.setsClock = false ∧ e.completesSend = false ∧
      ∀ attempt waiting', outcome = .inl waiting' → WaitInv (attempt ++ [e]) deadline waiting' := by
  cases waiting with
  | enter =>
    cases e with
    | monotonic now =>
      refine ⟨rfl, rfl, ?_⟩
      intro attempt waiting' houtcome
      subst houtcome
      simp only [waitForSocket] at h
      rcases pollTimeoutMs_cases deadline now with
        hpoll | hpoll | ⟨now, rfl, hnow, htimeout, hpos⟩
      · rw [hpoll] at h
        cases h
      · rw [hpoll] at h
        cases h
      · rw [if_neg (by omega), if_neg (by omega)] at h
        cases h
        exact ⟨attempt, now, rfl, hnow, htimeout⟩
    | realtime | openRandom | readRandom | socket | getFlags | setFlags | send | poll | receive
      | setRealtime => simp [waitForSocket] at h
  | polling timeout =>
    cases e with
    | poll direction' timeout' polled =>
      refine ⟨rfl, rfl, ?_⟩
      intro attempt waiting' houtcome
      subst houtcome
      simp only [waitForSocket] at h
      by_cases hcall : direction' ≠ direction ∨ timeout' ≠ timeout
      · rw [if_pos hcall] at h
        cases h
      · rw [if_neg hcall] at h
        cases polled with
        | timedOut | failed => cases h
        | interrupted =>
          cases h
          trivial
        | revents ready errors =>
          cases ready with
          | true => cases h
          | false =>
            cases errors with
            | true => cases h
            | false =>
              cases h
              trivial
    | realtime | openRandom | readRandom | monotonic | socket | getFlags | setFlags | send | receive
      | setRealtime => simp [waitForSocket] at h

/-- A response that is not accepted. -/
theorem afterResponse_of_ne {result : TimeResult} {sample : Option Sample} (h : result ≠ .ok) :
    afterResponse s (result, sample) = s.giveUp result := by
  cases result with
  | ok => exact absurd rfl h
  | _ => rfl

/-- The calls that build the request. -/
theorem step_building (h : Calling config events s e) (hnext : next config s e = some s')
    (hphase : s.phase = .realtime ∨ (∃ wall, s.phase = .openRandom wall) ∨
      ∃ wall got, s.phase = .readRandom wall got) : Inv config (events ++ [e]) s' := by
  obtain ⟨index, address, rest, phase⟩ := s
  dsimp only at hphase
  rcases hphase with rfl | ⟨wall, rfl⟩ | ⟨wall, got, rfl⟩
  · cases e with
    | realtime wall =>
      cases wall with
      | none =>
        obtain rfl := Option.some.inj hnext
        exact h.leave rfl (by decide)
      | some wall =>
        obtain rfl := Option.some.inj hnext
        refine h.stay rfl fun attempt hattempt => ?_
        obtain rfl := hattempt
        rfl
    | openRandom | readRandom | monotonic | socket | getFlags | setFlags | send | poll | receive
      | setRealtime => cases hnext
  · cases e with
    | openRandom opened =>
      cases opened with
      | false =>
        obtain rfl := Option.some.inj hnext
        exact h.leave rfl (by decide)
      | true =>
        obtain rfl := Option.some.inj hnext
        refine h.stay rfl fun attempt hattempt => ?_
        obtain rfl := hattempt
        exact ⟨rfl, by simp [Unread], by decide, [.openRandom true], rfl, rfl⟩
    | realtime | readRandom | monotonic | socket | getFlags | setFlags | send | poll | receive
      | setRealtime => cases hnext
  · cases e with
    | readRandom read =>
      change afterRandom _ wall got read = some s' at hnext
      cases read with
      | interrupted =>
        obtain rfl := Option.some.inj hnext
        refine h.stay rfl fun attempt hattempt => ?_
        obtain ⟨hcount, hunread, hlt, reads, rfl, hbytes⟩ := hattempt
        refine ⟨(completed_concat_of_not rfl).trans hcount, hunread.concat (by simp), hlt,
          reads ++ [_], rfl, ?_⟩
        rw [randomBytes_concat, hbytes]
        exact List.append_nil got
      | failed =>
        obtain rfl := Option.some.inj hnext
        exact h.leave rfl (by decide)
      | bytes new =>
        rw [afterRandom] at hnext
        by_cases hlong : 4 < got.length + new.length
        · rw [if_pos hlong] at hnext
          cases hnext
        rw [if_neg hlong] at hnext
        by_cases hnil : new = []
        · rw [if_pos hnil] at hnext
          obtain rfl := Option.some.inj hnext
          exact h.leave rfl (by decide)
        rw [if_neg hnil] at hnext
        -- all four bytes are there, or the loop goes on
        by_cases hshort : (got ++ new).length < 4
        · rw [if_pos hshort] at hnext
          obtain rfl := Option.some.inj hnext
          refine h.stay rfl fun attempt hattempt => ?_
          obtain ⟨hcount, hunread, -, reads, rfl, hbytes⟩ := hattempt
          refine ⟨(completed_concat_of_not rfl).trans hcount, hunread.concat (by simp), hshort,
            reads ++ [_], rfl, ?_⟩
          rw [randomBytes_concat, hbytes]
          rfl
        · rw [if_neg hshort] at hnext
          obtain rfl := Option.some.inj hnext
          refine h.stay rfl fun attempt hattempt => ?_
          obtain ⟨hcount, hunread, -, reads, rfl, hbytes⟩ := hattempt
          have hall : randomBytes (reads ++ [.readRandom (.bytes new)]) = got ++ new := by
            rw [randomBytes_concat, hbytes]
            rfl
          refine ⟨(completed_concat_of_not rfl).trans hcount, hunread.concat (by simp), wall,
            reads ++ [_], List.prefix_rfl, ?_, ?_⟩
          · rw [hall]
            rw [List.length_append] at hshort ⊢
            omega
          · rw [hall]
    | realtime | openRandom | monotonic | socket | getFlags | setFlags | send | poll | receive
      | setRealtime => cases hnext

/-- The calls that set up the socket. -/
theorem step_opening (h : Calling config events s e) (hnext : next config s e = some s')
    (hphase : (∃ request, s.phase = .start request) ∨
      ∃ a, s.phase = .socket a ∨ s.phase = .getFlags a ∨ s.phase = .setFlags a) :
    Inv config (events ++ [e]) s' := by
  obtain ⟨index, address, rest, phase⟩ := s
  dsimp only at hphase
  rcases hphase with ⟨request, rfl⟩ | ⟨a, rfl | rfl | rfl⟩
  · cases e with
    | monotonic now =>
      cases now with
      | none =>
        obtain rfl := Option.some.inj hnext
        exact h.leave rfl (by decide)
      | some now =>
        obtain rfl := Option.some.inj hnext
        refine h.stay rfl fun attempt hattempt => ?_
        obtain ⟨hcount, hunread, hbuilt⟩ := hattempt
        exact ⟨(completed_concat_of_not rfl).trans hcount, hbuilt.append _, now,
          ⟨attempt, [], rfl, hunread⟩, rfl⟩
    | realtime | openRandom | readRandom | socket | getFlags | setFlags | send | poll | receive
      | setRealtime => cases hnext
  · cases e with
    | socket opened =>
      cases opened with
      | false =>
        obtain rfl := Option.some.inj hnext
        exact h.leave rfl (by decide)
      | true =>
        obtain rfl := Option.some.inj hnext
        exact h.stay rfl fun attempt => started_concat rfl
    | realtime | openRandom | readRandom | monotonic | getFlags | setFlags | send | poll | receive
      | setRealtime => cases hnext
  · cases e with
    | getFlags ok =>
      cases ok with
      | false =>
        obtain rfl := Option.some.inj hnext
        exact h.leave rfl (by decide)
      | true =>
        obtain rfl := Option.some.inj hnext
        exact h.stay rfl fun attempt => started_concat rfl
    | realtime | openRandom | readRandom | monotonic | socket | setFlags | send | poll | receive
      | setRealtime => cases hnext
  · cases e with
    | setFlags ok =>
      cases ok with
      | false =>
        obtain rfl := Option.some.inj hnext
        exact h.leave rfl (by decide)
      | true =>
        obtain rfl := Option.some.inj hnext
        exact h.stay rfl fun attempt => started_concat rfl
    | realtime | openRandom | readRandom | monotonic | socket | getFlags | send | poll | receive
      | setRealtime => cases hnext

/-- The loop that sends the request. -/
theorem step_sending (h : Calling config events s e) (hnext : next config s e = some s')
    (hphase : (∃ a, s.phase = .beforeSend a) ∨ (∃ a sendTime, s.phase = .send a sendTime) ∨
      ∃ a waiting, s.phase = .waitOutput a waiting) : Inv config (events ++ [e]) s' := by
  obtain ⟨index, address, rest, phase⟩ := s
  dsimp only at hphase
  rcases hphase with ⟨a, rfl⟩ | ⟨a, sendTime, rfl⟩ | ⟨a, waiting, rfl⟩
  · cases e with
    | monotonic now =>
      cases now with
      | none =>
        obtain rfl := Option.some.inj hnext
        exact h.leave rfl (by decide)
      | some now =>
        obtain rfl := Option.some.inj hnext
        refine h.stay rfl fun attempt hattempt => ?_
        obtain ⟨hcount, hstarted⟩ := started_concat (e := .monotonic (some now)) rfl hattempt
        exact ⟨hcount, hstarted, attempt, rfl⟩
    | realtime | openRandom | readRandom | socket | getFlags | setFlags | send | poll | receive
      | setRealtime => cases hnext
  · cases e with
    | send bytes peer sent =>
      change afterSend config _ a sendTime bytes peer sent = some s' at hnext
      unfold afterSend at hnext
      by_cases hcall : bytes ≠ a.request ∨ peer ≠ config.peer ⟨index, address, rest, .send a sendTime⟩
      · rw [if_pos hcall] at hnext
        cases hnext
      rw [if_neg hcall] at hnext
      obtain ⟨hbytes, hpeer⟩ := not_or.mp hcall
      obtain rfl := not_not.mp hbytes
      obtain rfl := not_not.mp hpeer
      cases sent with
      | all =>
        obtain rfl := Option.some.inj hnext
        refine h.stay rfl fun attempt hattempt => ?_
        obtain ⟨hcount, hstarted, before, rfl⟩ := hattempt
        refine ⟨?_, hstarted.append _, ⟨before, [], by simp⟩, trivial⟩
        rw [completed_concat, hcount]
        rfl
      | interrupted =>
        obtain rfl := Option.some.inj hnext
        exact h.stay rfl fun attempt hattempt => started_concat rfl ⟨hattempt.1, hattempt.2.1⟩
      | wouldBlock =>
        obtain rfl := Option.some.inj hnext
        refine h.stay rfl fun attempt hattempt => ?_
        obtain ⟨hcount, hstarted⟩ := started_concat (e := .send a.request _ .wouldBlock) rfl
          ⟨hattempt.1, hattempt.2.1⟩
        exact ⟨hcount, hstarted, trivial⟩
      | failed =>
        obtain rfl := Option.some.inj hnext
        exact h.leave rfl (by decide)
    | realtime | openRandom | readRandom | monotonic | socket | getFlags | setFlags | poll | receive
      | setRealtime => cases hnext
  · obtain ⟨outcome, hwait, rfl⟩ := Option.map_eq_some_iff.mp hnext
    obtain ⟨hclock, hsend, hpolling⟩ := waitForSocket_cases hwait
    cases outcome with
    | inl waiting' =>
      refine h.stay hclock fun attempt hattempt => ?_
      obtain ⟨hcount, hstarted⟩ := started_concat hsend ⟨hattempt.1, hattempt.2.1⟩
      exact ⟨hcount, hstarted, hpolling attempt waiting' rfl⟩
    | inr verdict =>
      cases verdict with
      | ready =>
        exact h.stay hclock fun attempt hattempt =>
          started_concat hsend ⟨hattempt.1, hattempt.2.1⟩
      | expired =>
        exact h.leave hclock (by decide)
      | failed =>
        exact h.leave hclock (by decide)

/-- The loop that waits for the response. -/
theorem step_receiving (h : Calling config events s e) (hnext : next config s e = some s')
    (hphase : (∃ a sendTime waiting, s.phase = .waitInput a sendTime waiting) ∨
      ∃ a sendTime, s.phase = .receive a sendTime) : Inv config (events ++ [e]) s' := by
  obtain ⟨index, address, rest, phase⟩ := s
  dsimp only at hphase
  rcases hphase with ⟨a, sendTime, waiting, rfl⟩ | ⟨a, sendTime, rfl⟩
  · obtain ⟨outcome, hwait, rfl⟩ := Option.map_eq_some_iff.mp hnext
    obtain ⟨hclock, hsend, hpolling⟩ := waitForSocket_cases hwait
    cases outcome with
    | inl waiting' =>
      refine h.stay hclock fun attempt hattempt => ?_
      obtain ⟨hcount, hstarted, hsent, -⟩ := hattempt
      exact ⟨(completed_concat_of_not hsend).trans hcount, hstarted.append _, hsent.append _,
        hpolling attempt waiting' rfl⟩
    | inr verdict =>
      cases verdict with
      | ready =>
        refine h.stay hclock fun attempt hattempt => ?_
        obtain ⟨hcount, hstarted, hsent, -⟩ := hattempt
        exact ⟨(completed_concat_of_not hsend).trans hcount, hstarted.append _, hsent.append _⟩
      | expired =>
        exact h.leave hclock (by decide)
      | failed =>
        exact h.leave hclock (by decide)
  · cases e with
    | receive received =>
      change some (afterReceive config _ a sendTime received) = some s' at hnext
      have hagain : Inv config (events ++ [.receive received])
          ⟨index, address, rest, .waitInput a sendTime .enter⟩ := by
        refine h.stay rfl fun attempt hattempt => ?_
        obtain ⟨hcount, hstarted, hsent⟩ := hattempt
        exact ⟨(completed_concat_of_not rfl).trans hcount, hstarted.append _, hsent.append _,
          trivial⟩
      cases received with
      | interrupted =>
        obtain rfl := Option.some.inj hnext
        exact hagain
      | wouldBlock =>
        obtain rfl := Option.some.inj hnext
        exact hagain
      | failed =>
        obtain rfl := Option.some.inj hnext
        exact h.leave rfl (by decide)
      | datagram peer payload =>
        rw [afterReceive] at hnext
        by_cases hpeer : peer ≠ some (config.peer ⟨index, address, rest, .receive a sendTime⟩)
        · rw [if_pos hpeer] at hnext
          obtain rfl := Option.some.inj hnext
          exact h.leave rfl (by decide)
        rw [if_neg hpeer] at hnext
        obtain rfl := not_not.mp hpeer
        obtain rfl := Option.some.inj hnext
        refine h.stay rfl fun attempt hattempt => ?_
        obtain ⟨hcount, hstarted, hsent⟩ := hattempt
        exact ⟨(completed_concat_of_not rfl).trans hcount, attempt, payload, rfl, rfl, hstarted,
          hsent⟩
    | realtime | openRandom | readRandom | monotonic | socket | getFlags | setFlags | send | poll
      | setRealtime => cases hnext

/-- The calls behind the response. -/
theorem step_accepting (h : Calling config events s e) (hnext : next config s e = some s')
    (hphase : (∃ a sendTime payload, s.phase = .received a sendTime payload) ∨
      ∃ sample, s.phase = .setRealtime sample) : Inv config (events ++ [e]) s' := by
  obtain ⟨index, address, rest, phase⟩ := s
  dsimp only at hphase
  rcases hphase with ⟨a, sendTime, payload, rfl⟩ | ⟨sample, rfl⟩
  · cases e with
    | monotonic now =>
      cases now with
      | none =>
        obtain rfl := Option.some.inj hnext
        exact h.leave rfl (by decide)
      | some now =>
        obtain ⟨outcome, hvalid, rfl⟩ := Option.map_eq_some_iff.mp hnext
        obtain ⟨result, sample⟩ := outcome
        by_cases hok : result = .ok
        · subst hok
          obtain ⟨-, -, hdecode⟩ := validateResponse_eq_ok hvalid
          obtain ⟨taken, -, rfl, -⟩ := sample_of_decode hdecode
          refine h.stay rfl fun attempt hattempt => ?_
          obtain ⟨hcount, body, whole, rfl, rfl, hstarted, hsent⟩ := hattempt
          exact ⟨(completed_concat_of_not rfl).trans hcount, body, a, whole, sendTime, now,
            List.append_assoc _ _ _, hstarted, hsent, hvalid⟩
        · rw [afterResponse_of_ne hok]
          exact h.leave rfl hok
    | realtime | openRandom | readRandom | socket | getFlags | setFlags | send | poll | receive
      | setRealtime => cases hnext
  · cases e with
    | setRealtime seconds nanoseconds ok =>
      change afterSet _ sample seconds nanoseconds ok = some s' at hnext
      unfold afterSet at hnext
      by_cases hcall : seconds ≠ sample.unixSeconds ∨ nanoseconds ≠ sample.nanoseconds
      · rw [if_pos hcall] at hnext
        cases hnext
      rw [if_neg hcall] at hnext
      obtain ⟨hseconds, hnanoseconds⟩ := not_or.mp hcall
      obtain rfl := not_not.mp hseconds
      obtain rfl := not_not.mp hnanoseconds
      obtain rfl := Option.some.inj hnext
      have hdivided := h.divided
      obtain ⟨⟨hfew, hserver, hrest, huntouched, earlier, attempt, rfl, hearlier, -, hcount,
        hanswered⟩, -⟩ := h
      exact .inr ⟨_, rfl, hdivided.imp fun _ h => h.1, .inr ⟨_, sample, ok, huntouched,
        ⟨index, address, earlier, attempt, hserver, rfl, hanswered⟩, rfl, rfl⟩⟩
    | realtime | openRandom | readRandom | monotonic | socket | getFlags | setFlags | send | poll
      | receive => cases hnext

/-- **Every call keeps the invariant.** -/
theorem Inv.step (h : Inv config events s) (hnext : next config s e = some s') :
    Inv config (events ++ [e]) s' := by
  rcases h with h | ⟨result, hdone, -⟩
  · have h : Calling config events s e := ⟨h, fun attempt hattempt => hattempt.mayCall hnext⟩
    cases hphase : s.phase with
    | realtime => exact step_building h hnext (.inl hphase)
    | openRandom wall => exact step_building h hnext (.inr (.inl ⟨wall, hphase⟩))
    | readRandom wall got => exact step_building h hnext (.inr (.inr ⟨wall, got, hphase⟩))
    | start request => exact step_opening h hnext (.inl ⟨request, hphase⟩)
    | socket a => exact step_opening h hnext (.inr ⟨a, .inl hphase⟩)
    | getFlags a => exact step_opening h hnext (.inr ⟨a, .inr (.inl hphase)⟩)
    | setFlags a => exact step_opening h hnext (.inr ⟨a, .inr (.inr hphase)⟩)
    | beforeSend a => exact step_sending h hnext (.inl ⟨a, hphase⟩)
    | send a sendTime => exact step_sending h hnext (.inr (.inl ⟨a, sendTime, hphase⟩))
    | waitOutput a waiting => exact step_sending h hnext (.inr (.inr ⟨a, waiting, hphase⟩))
    | waitInput a sendTime waiting =>
      exact step_receiving h hnext (.inl ⟨a, sendTime, waiting, hphase⟩)
    | receive a sendTime => exact step_receiving h hnext (.inr ⟨a, sendTime, hphase⟩)
    | received a sendTime payload =>
      exact step_accepting h hnext (.inl ⟨a, sendTime, payload, hphase⟩)
    | setRealtime sample => exact step_accepting h hnext (.inr ⟨sample, hphase⟩)
    | done result =>
      obtain ⟨⟨-, -, -, -, earlier, attempt, -, -, -, hattempt⟩, -⟩ := h
      rw [hphase] at hattempt
      exact hattempt.elim
  · obtain ⟨index, address, rest, phase⟩ := s
    dsimp only at hdone
    subst hdone
    cases e with
    | _ => cases hnext

/-- **Every run keeps the invariant.** -/
theorem inv_run (h : run (next config) (.start config) events = some s) : Inv config events s :=
  EventMachine.run_induct (I := Inv config) (inv_start config)
    (fun _ _ _ _ hinv hnext => hinv.step hnext) h

/-- **Where the clock comes from.** In every run `clock_settime` is called at most once, as the last
call; what it sets comes from the attempt to ask one configured server: the one request of the attempt
went to that server, its datagram of 48 bytes repeats the transmit timestamp of the request, and the
time is that of the datagram with half of the time between the two readings of the clock around the
exchange, between the release of the program and the end of the kernel's clock. Success is reported
exactly when the clock has been set. -/
theorem clock_set_from_answer (h : run (next config) (.start config) events = some s) :
    (∀ before seconds nanoseconds ok after,
      events = before ++ .setRealtime seconds nanoseconds ok :: after →
      after = [] ∧ s.phase = .done (if ok then .ok else .clockSetFailed) ∧
      ∃ (i : ℕ) (address : UInt32) (earlier attempt body : List Event) (a : Attempt)
        (payload : List UInt8) (sendTime receiveTime unix : ℤ),
        config.servers[i]? = some (some address) ∧ before = earlier ++ attempt ∧
        Disciplined config address attempt ∧ completed body = 1 ∧
        attempt = body ++ [.receive (.datagram (some ⟨address, config.effectivePort⟩) payload),
          .monotonic (some receiveTime)] ∧
        Built body a.request ∧ SentAt ⟨address, config.effectivePort⟩ body a sendTime ∧
        payload.length = 48 ∧ (payload.drop 24).take 8 = (a.request.drop 40).take 8 ∧
        InRange unix ∧ ntpSeconds unix = loadU32 (payload.drop 40) ∧
        seconds * 10 ^ 9 + nanoseconds = exactTime unix (loadU32 (payload.drop 44))
          (Int64.ofInt (receiveTime - sendTime)) ∧
        0 ≤ nanoseconds ∧ nanoseconds < 10 ^ 9 ∧ InRange seconds) ∧
    ∀ result, s.phase = .done result →
      (result = .ok ↔ ∃ seconds nanoseconds, .setRealtime seconds nanoseconds true ∈ events) := by
  constructor
  · rintro before seconds nanoseconds ok after rfl
    obtain ⟨s₁, s₂, hbefore, hnext, hafter⟩ := EventMachine.run_split h
    obtain ⟨⟨sample, hphase, rfl, rfl⟩, hdone⟩ := of_next_setRealtime hnext
    obtain ⟨rfl, rfl⟩ := EventMachine.run_of_final (next_done hdone) hafter
    refine ⟨rfl, hdone, ?_⟩
    rcases inv_run hbefore with hasking | ⟨result, hresult, -⟩
    · obtain ⟨-, hserver, -, -, earlier, attempt, rfl, -, hdisciplined, hattempt⟩ := hasking
      rw [hphase] at hattempt
      obtain ⟨hcount, body, a, payload, sendTime, receiveTime, rfl, hstarted, hsent, hvalid⟩ :=
        hattempt
      have hcount' : completed body = 1 := by
        rwa [completed_append] at hcount
      obtain ⟨hlength, horiginate, hdecode⟩ := validateResponse_eq_ok hvalid
      -- a response of 48 bytes has not been cut
      have hlength' : payload.length = 48 := by
        rw [List.length_take, sntpResponseCap, sntpPacketBytes] at hlength
        omega
      have htake : payload.take sntpResponseCap = payload :=
        List.take_of_length_le (by rw [hlength']; decide)
      rw [htake] at horiginate hdecode
      obtain ⟨taken, unix, htaken, hrange, hunix, -, htime, hlow, hhigh, hrange'⟩ :=
        sample_of_decode hdecode
      obtain rfl := Option.some.inj htaken
      rw [List.drop_drop] at htime
      exact ⟨s₁.index, s₁.address, earlier, _, body, a, payload, sendTime, receiveTime, unix,
        hserver, rfl, hdisciplined, hcount', rfl, hstarted.built, hsent, hlength', horiginate,
        hrange, hunix, htime, hlow, hhigh, hrange'⟩
    · rw [hresult] at hphase
      cases hphase
  · intro result hresult
    rcases inv_run h with hasking | ⟨result', hresult', -, hended⟩
    · obtain ⟨-, -, -, -, earlier, attempt, -, -, -, hattempt⟩ := hasking
      rw [hresult] at hattempt
      exact hattempt.elim
    · obtain rfl := Phase.done.inj (hresult'.symm.trans hresult)
      rcases hended with ⟨huntouched, hne⟩ | ⟨before, sample, ok, huntouched, -, rfl, rfl⟩
      · refine ⟨fun hok => absurd hok hne, ?_⟩
        rintro ⟨seconds, nanoseconds, hmem⟩
        cases huntouched _ hmem
      · cases ok with
        | true =>
          exact ⟨fun _ => ⟨_, _, List.mem_append_right _ List.mem_cons_self⟩, fun _ => rfl⟩
        | false =>
          refine ⟨fun hok => absurd hok (by decide), ?_⟩
          rintro ⟨seconds, nanoseconds, hmem⟩
          rcases List.mem_append.mp hmem with hmem | hmem
          · cases huntouched _ hmem
          · rw [List.mem_singleton] at hmem
            cases hmem

/-- One server, with the default port and timeout. -/
def oneServer : Config := ⟨[some 0x0a000001], 0, 0⟩

/-- A run in which it answers after two microseconds. -/
def oneRun : List Event :=
  let request := buildRequest 1800000000 [1, 2, 3, 4]
  let second := timestamp (ntpSeconds 1800000000) 0
  let response := [0x24, 1] ++ List.replicate 22 0 ++ request.drop 40 ++ second ++ second
  [.realtime (some 1800000000), .openRandom true, .readRandom (.bytes [1, 2, 3, 4]),
    .monotonic (some 1000), .socket true, .getFlags true, .setFlags true, .monotonic (some 2000),
    .send request ⟨0x0a000001, 123⟩ .all, .monotonic (some 3000),
    .poll .input 3000 (.revents true false),
    .receive (.datagram (some ⟨0x0a000001, 123⟩) response), .monotonic (some 4000),
    .setRealtime 1800000000 1000 true]

theorem run_oneRun :
    run (next oneServer) (.start oneServer) oneRun = some ⟨0, 0x0a000001, [], .done .ok⟩ := by
  decide +kernel

/-- The run sets the clock. -/
theorem clock_set_from_answer_once :
    ∃ seconds nanoseconds, .setRealtime seconds nanoseconds true ∈ oneRun :=
  ((clock_set_from_answer run_oneRun).2 .ok rfl).mp rfl

/-- Places that increase below a bound are no more than the bound. -/
theorem length_le_of_increasing {places : List ℕ} {bound : ℕ} (h : places.Pairwise (· < ·))
    (hbound : ∀ i ∈ places, i < bound) : places.length ≤ bound := by
  have hnodup : places.Nodup := h.imp ne_of_lt
  have hsub : places ⊆ List.range bound := fun i hi => List.mem_range.mpr (hbound i hi)
  simpa using (hnodup.subperm hsub).length_le

/-- An attempt sends its request at most once. -/
theorem Disciplined.completed_le {address : UInt32} {attempt : List Event}
    (h : Disciplined config address attempt) : completed attempt ≤ 1 := by
  induction attempt using List.reverseRecOn with
  | nil => exact Nat.zero_le 1
  | append_singleton attempt e ih =>
    cases hsend : e.completesSend with
    | false =>
      rw [completed_concat_of_not hsend]
      refine ih ⟨?_, fun before bytes peer sent after heq => ?_,
        fun before direction timeout polled after heq => ?_⟩
      · rcases h.begins with hnil | ⟨wall, rest, heq, hrest⟩
        · simp at hnil
        rcases attempt with _ | ⟨first, attempt⟩
        · exact .inl rfl
        · obtain ⟨rfl, rfl⟩ := List.cons.inj heq
          exact .inr ⟨wall, attempt, rfl, fun wall' hmem =>
            hrest wall' (List.mem_append_left _ hmem)⟩
      · exact h.sends before bytes peer sent (after ++ [e]) (by rw [heq]; simp)
      · exact h.polls before direction timeout polled (after ++ [e]) (by rw [heq]; simp)
    | true =>
      -- the request goes out once, as nothing has been sent before
      cases e with
      | send bytes peer sent =>
        have hzero := (h.sends attempt bytes peer sent [] rfl).2.1
        rw [completed_concat, hzero, hsend]
        exact le_rfl
      | _ => cases hsend

/-- **What every run sends and how long it waits.** A run divides into the attempts for places of the
configuration that increase, at most four. An attempt begins with the one reading of the wall clock;
it sends to its server only, on the configured port, a request built from this reading and four bytes
of `/dev/urandom` that it has read, until that has gone out once; every poll comes right after a
reading of the clock, before the deadline, and waits for what is left until then, where the deadline
is the configured time behind the first reading of the attempt. -/
theorem sync_disciplined (h : run (next config) (.start config) events = some s) :
    ∃ attempts, Divides config attempts events ∧ attempts.length ≤ timeMaxServers ∧
      ∀ p ∈ attempts, completed p.2 ≤ 1 := by
  have hdivided : ∃ attempts, Divides config attempts events := by
    rcases inv_run h with hasking | ⟨result, -, hended⟩
    · obtain ⟨hfew, hserver, -, -, earlier, attempt, rfl, hearlier, hdisciplined, -⟩ := hasking
      have hlt : s.index < config.servers.length := (List.getElem?_eq_some_iff.mp hserver).1
      exact (hearlier.concat (hlt.trans_le hfew) hserver hdisciplined).imp fun _ h => h.1
    · exact hended.divided
  obtain ⟨attempts, hdivides⟩ := hdivided
  refine ⟨attempts, hdivides, ?_, fun p hp => ?_⟩
  · have hplaces : ∀ i ∈ attempts.map Prod.fst, i < timeMaxServers := by
      intro i hi
      obtain ⟨p, hp, rfl⟩ := List.mem_map.mp hi
      exact hdivides.few p hp
    simpa using length_le_of_increasing hdivides.increasing hplaces
  · obtain ⟨address, -, hdisciplined⟩ := hdivides.attempt p hp
    exact hdisciplined.completed_le

/-- Two servers behind one without an address. -/
def twoServers : Config := ⟨[none, some 0x0a000001, some 0x0a000002], 0, 5⟩

/-- A run in which the first send is interrupted, the first server does not answer in time, and the
second one answers. -/
def twoRun : List Event :=
  let request := buildRequest 1800000000 [1, 2, 3, 4]
  let second := timestamp (ntpSeconds 1800000000) 0
  let response := [0x24, 1] ++ List.replicate 22 0 ++ request.drop 40 ++ second ++ second
  [.realtime (some 1799999999), .openRandom true, .readRandom (.bytes [9]), .readRandom .interrupted,
    .readRandom (.bytes [8, 7, 6]), .monotonic (some 1000), .socket true, .getFlags true,
    .setFlags true, .monotonic (some 1500),
    .send (buildRequest 1799999999 [9, 8, 7, 6]) ⟨0x0a000001, 123⟩ .interrupted,
    .monotonic (some 2000), .send (buildRequest 1799999999 [9, 8, 7, 6]) ⟨0x0a000001, 123⟩ .all,
    .monotonic (some 3000), .poll .input 5 .interrupted, .monotonic (some 4001000),
    .poll .input 1 .timedOut,
    .realtime (some 1800000000), .openRandom true, .readRandom (.bytes [1, 2, 3, 4]),
    .monotonic (some 6000000), .socket true, .getFlags true, .setFlags true,
    .monotonic (some 6000100), .send request ⟨0x0a000002, 123⟩ .all, .monotonic (some 6000200),
    .poll .input 5 (.revents true false),
    .receive (.datagram (some ⟨0x0a000002, 123⟩) response), .monotonic (some 6000300),
    .setRealtime 1800000000 100 true]

theorem run_twoRun :
    run (next twoServers) (.start twoServers) twoRun = some ⟨2, 0x0a000002, [], .done .ok⟩ := by
  decide +kernel

/-- The run sends two requests, and polls three times. -/
theorem sync_disciplined_twice :
    completed twoRun = 2 ∧ ∃ attempts, Divides twoServers attempts twoRun ∧
      attempts.length ≤ timeMaxServers ∧ ∀ p ∈ attempts, completed p.2 ≤ 1 :=
  ⟨by decide, sync_disciplined run_twoRun⟩

end Step

end TimeSimple
