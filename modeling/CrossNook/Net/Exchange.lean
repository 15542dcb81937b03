import CrossNook.Net.Message

/-!
# One exchange with a server

`cn_netsimple_exchange` (`net/netsimple.c`): connect, hand the request to the connection, plain or
through the TLS layer, receive the response and parse it. What the sockets, the resolver, the
clock and the TLS layer answer is recorded in a `Wire`, which the exchange reads turn by turn;
where a list of turns ends the deadline has passed.

## Main definitions

* `NetSimple.Wire`: the answers of the network to one exchange
* `NetSimple.exchange`: `cn_netsimple_exchange`, with the bytes that it handed to the connection

## Main results

* `NetSimple.exchange_handed`: once a byte has been handed over, only some results are possible
-/

namespace NetSimple

/-- The error numbers of sockets that the callers tell apart. -/
inductive SocketError
  | ECONNREFUSED
  | ENETUNREACH
  | EHOSTUNREACH
  | ETIMEDOUT
  | EINPROGRESS
  | other (n : ℕ)
  deriving DecidableEq, Repr

/-- `cn_tls_result`. -/
inductive TlsResult
  | ok
  | invalid
  | internal
  | entropyFailed
  | invalidCa
  | handshakeFailed
  | handshakeTimeout
  | trustFailed
  | hostnameMismatch
  | certTimeFailed
  | certInvalid
  | protocolFailed
  | closed
  | recvTimeout
  | sendTimeout
  deriving DecidableEq, Repr

/-- One `poll` for a connection: it is established, nothing happened in time, a signal came or the
call failed. -/
inductive ConnectTurn
  | ready
  | timeout
  | interrupted
  | failed
  deriving DecidableEq, Repr

/-- The answers to `socket` and to the calls of `connect_with_timeout`: whether the descriptor was
made non-blocking, the error of `connect`, whether its flags were restored, the polls, and the
pending error of the socket where it can be read. -/
structure Connecting where
  socket : Bool
  nonblocking : Bool
  error : Option SocketError
  restored : Bool
  polls : List ConnectTurn
  pending : Option (Option SocketError)

/-- One turn of the loop of `send_buffer`: how the `poll` ends, or what `send` does. -/
inductive SendTurn
  | timeout
  | interrupted
  | pollFailed
  | readable
  | broken
  | sent (count : ℕ)
  | again
  | sendFailed
  deriving DecidableEq, Repr

/-- One call of `recv`. -/
inductive Received
  | bytes (data : List UInt8)
  | closed
  | interrupted
  | again
  | failed
  deriving DecidableEq, Repr

/-- One turn of the plain receive loop: how the `poll` ends, or what `recv` does. -/
inductive RecvTurn
  | timeout
  | interrupted
  | pollFailed
  | invalid
  | hangup (rest : List Received)
  | received (call : Received)
  deriving DecidableEq, Repr

/-- A call of `cn_tls_send_all`: everything went to the TLS engine, or it failed after some
bytes. -/
inductive TlsSend
  | done
  | failed (count : ℕ) (result : TlsResult)
  deriving DecidableEq, Repr

/-- A call of `cn_tls_recv_some`: the bytes, the result and the closing flag. -/
structure TlsRecv where
  data : List UInt8
  result : TlsResult
  closed : Bool
  deriving DecidableEq, Repr

/-- What the network answers to one exchange. `resolved` are the entries of `getaddrinfo`, each
with its family, and `none` where it fails. -/
structure Wire where
  direct : Connecting
  resolved : Option (List (Bool × Connecting))
  nonblocking : Bool
  tlsOpen : TlsResult
  tlsRequest : TlsSend
  tlsBody : TlsSend
  tlsTurns : List TlsRecv
  sendTurns : List SendTurn
  bodyTurns : List SendTurn
  restored : Bool
  recvTurns : List RecvTurn

/-- What an exchange leaves: the result, the response, the bytes in the caller's buffer and the
bytes that it handed to the connection. -/
structure Outcome where
  result : Result
  response : Response
  buffer : List UInt8
  handed : List UInt8
  deriving DecidableEq, Repr

/-! ## Connecting -/

/-- `cn_netsimple_connect_error`. -/
def connectErrorResult : SocketError → Result
  | .ECONNREFUSED => .connectRefused
  | .ENETUNREACH => .networkUnreachable
  | .EHOSTUNREACH => .hostUnreachable
  | .ETIMEDOUT => .connectTimeout
  | .EINPROGRESS => .connectTimeout
  | .other _ => .connectError

/-- The loop of `connect_with_timeout`; `none` goes on after the connection is established. -/
def connectPolls : List ConnectTurn → Option Result
  | [] => some .connectTimeout
  | .ready :: _ => none
  | .timeout :: _ => some .connectTimeout
  | .interrupted :: turns => connectPolls turns
  | .failed :: _ => some .connectError

/-- `connect_with_timeout`. -/
def connectWithTimeout (run : Connecting) : Result :=
  if ¬ run.nonblocking then .connectError
  else
    match run.error with
    | none => if run.restored then .ok else .connectError
    | some error =>
      if error ≠ .EINPROGRESS then connectErrorResult error
      else
        match connectPolls run.polls with
        | some result => result
        | none =>
          match run.pending with
          | none => .connectError
          | some none => .ok
          | some (some error) => connectErrorResult error

/-- `socket` and `connect_with_timeout`. -/
def openSocket (run : Connecting) : Result :=
  if run.socket then connectWithTimeout run else .connectError

/-- The loop over the entries of `getaddrinfo`, from the result so far: the result and whether a
connection is open. -/
def connectEntries (result : Result) : List (Bool × Connecting) → Result × Bool
  | [] => (result, false)
  | (inet, run) :: entries =>
    if ¬ inet then connectEntries result entries
    else
      match openSocket run with
      | .ok => (.ok, true)
      | result => connectEntries result entries

/-- The connection of an exchange, after its request has been built. -/
def connect (spec : Request) (wire : Wire) : Result × Bool :=
  if (parseIpv4 (spec.connectHost.getD spec.host)).isSome then
    (openSocket wire.direct, openSocket wire.direct = .ok)
  else
    match wire.resolved with
    | none => (.resolveError, false)
    | some [] => (.resolveError, false)
    | some entries => connectEntries .ok entries

/-! ## Sending -/

/-- What a send leaves: the result, the bytes handed over and whether a response came early. -/
structure Sending where
  result : Result
  handed : List UInt8
  early : Bool

/-- `send_buffer`, after the bytes `handed`. -/
def sendBuffer (handed : List UInt8) (data : List UInt8) : List SendTurn → Sending
  | [] => if data = [] then ⟨.ok, handed, false⟩ else ⟨.sendTimeout, handed, false⟩
  | turn :: turns =>
    if data = [] then ⟨.ok, handed, false⟩
    else
      match turn with
      | .timeout => ⟨.sendTimeout, handed, false⟩
      | .interrupted => sendBuffer handed data turns
      | .pollFailed => ⟨.sendError, handed, false⟩
      -- the server answers before it has all bytes: the rest is not sent
      | .readable => ⟨.ok, handed, true⟩
      | .broken => ⟨.sendError, handed, false⟩
      | .sent 0 => ⟨.sendError, handed, false⟩
      | .sent (count + 1) =>
        sendBuffer (handed ++ data.take (count + 1)) (data.drop (count + 1)) turns
      | .again => sendBuffer handed data turns
      | .sendFailed => ⟨.sendError, handed, false⟩

/-- The request and the body through `send_buffer`. -/
def sendPlain (request body : List UInt8) (wire : Wire) : Sending :=
  let sent := sendBuffer [] request wire.sendTurns
  let sent :=
    if sent.result = .ok ∧ ¬ sent.early ∧ body ≠ [] then
      sendBuffer sent.handed body wire.bodyTurns
    else sent
  if ¬ wire.restored ∧ sent.result = .ok then { sent with result := .sendError } else sent

/-- The bytes of a `cn_tls_send_all` that reach the engine, and its result. -/
def tlsSendAll (data : List UInt8) : TlsSend → TlsResult × List UInt8
  | .done => (.ok, data)
  | .failed count result => (result, data.take count)

/-- The request and the body through the TLS layer. -/
def sendTls (request body : List UInt8) (wire : Wire) : Result × List UInt8 :=
  let (first, handed) := tlsSendAll request wire.tlsRequest
  let (result, handed) :=
    if first = .ok ∧ body ≠ [] then
      let (second, more) := tlsSendAll body wire.tlsBody
      (second, handed ++ more)
    else (first, handed)
  if result ≠ .ok then (if result = .sendTimeout then .sendTimeout else .sendError, handed)
  else (.ok, handed)

/-! ## Receiving -/

/-- How a receive loop ends: the exchange fails, or it goes on to `recv_done`. -/
inductive Receiving
  | failed (result : Result) (buffer : List UInt8)
  | done (buffer : List UInt8) (truncated : Bool)

/-- The receive loop over TLS. -/
def receiveTls (bufferCap : ℕ) (buffer : List UInt8) : List TlsRecv → Receiving
  | [] => if bufferCap ≤ buffer.length then .done buffer true else .failed .tlsRecvTimeout buffer
  | call :: calls =>
    if bufferCap ≤ buffer.length then .done buffer true
    else
      -- the bytes that came with the call are counted before its result is looked at
      let got := call.data.take (bufferCap - buffer.length)
      let buffer := buffer ++ got
      let framing := responseContentLength buffer
      match framing with
      | .malformed => .failed .badResponse buffer
      | .framed expected =>
        -- with a declared length, a close before its end truncates the response
        if expected < buffer.length then .failed .badResponse buffer
        else if buffer.length = expected then .done buffer false
        -- without one, only a close ends the body, and the headers must be complete
        else if call.result = .closed then .failed .truncated buffer
        else if call.result ≠ .ok then
          .failed (if call.result = .recvTimeout then .tlsRecvTimeout else .tlsProtocolFailed)
            buffer
        else if call.closed ∨ got = [] then .done buffer false
        else receiveTls bufferCap buffer calls
      | framing =>
        if call.result = .closed then
          if framing = .incomplete then .failed .truncated buffer else .done buffer false
        else if call.result ≠ .ok then
          .failed (if call.result = .recvTimeout then .tlsRecvTimeout else .tlsProtocolFailed)
            buffer
        else if call.closed ∨ got = [] then .done buffer false
        else receiveTls bufferCap buffer calls

/-- The inner loop after a hangup. -/
def receiveRest (bufferCap : ℕ) (buffer : List UInt8) : List Received → Receiving
  | [] => .done buffer (bufferCap ≤ buffer.length)
  | call :: calls =>
    if bufferCap ≤ buffer.length then .done buffer true
    else
      match call with
      | .bytes data => receiveRest bufferCap (buffer ++ data.take (bufferCap - buffer.length)) calls
      | .closed => .done buffer false
      | .interrupted => receiveRest bufferCap buffer calls
      | .again => .done buffer false
      | .failed => .failed .recvError buffer

/-- The plain receive loop. -/
def receivePlain (bufferCap : ℕ) (buffer : List UInt8) : List RecvTurn → Receiving
  -- a full buffer ends the loop before the next call
  | [] => if bufferCap ≤ buffer.length then .done buffer true else .failed .recvTimeout buffer
  | turn :: turns =>
    if bufferCap ≤ buffer.length then .done buffer true
    else
      match turn with
      | .timeout => .failed .recvTimeout buffer
      | .interrupted => receivePlain bufferCap buffer turns
      | .pollFailed => .failed .recvError buffer
      | .invalid => .failed .recvError buffer
      -- what the peer has sent before it hung up is still read
      | .hangup rest => receiveRest bufferCap buffer rest
      | .received call =>
        match call with
        | .bytes data =>
          receivePlain bufferCap (buffer ++ data.take (bufferCap - buffer.length)) turns
        | .closed => .done buffer false
        | .interrupted => receivePlain bufferCap buffer turns
        | .again => receivePlain bufferCap buffer turns
        | .failed => .failed .recvError buffer

/-- The label `recv_done`. -/
def receiveDone (handed buffer : List UInt8) (truncated : Bool) : Outcome :=
  match parseStatus buffer with
  | none => ⟨if truncated then .truncated else .badResponse, .zero, buffer, handed⟩
  | some parsed => ⟨if truncated then .truncated else .ok, parsed, buffer, handed⟩

/-- The end of an exchange after a receive loop. -/
def Receiving.outcome (handed : List UInt8) : Receiving → Outcome
  | .failed result buffer => ⟨result, .zero, buffer, handed⟩
  | .done buffer truncated => receiveDone handed buffer truncated

/-! ## The exchange -/

/-- `cn_tls_map`. -/
def tlsMap : TlsResult → Result
  | .ok => .ok
  | .invalid => .invalid
  | .internal => .tlsInternal
  | .entropyFailed => .tlsEntropyFailed
  | .invalidCa => .tlsInvalidCa
  | .handshakeFailed => .tlsHandshakeFailed
  | .handshakeTimeout => .tlsHandshakeTimeout
  | .trustFailed => .tlsTrustFailed
  | .hostnameMismatch => .tlsHostnameMismatch
  | .certTimeFailed => .tlsCertTimeFailed
  | .certInvalid => .tlsCertInvalid
  | .protocolFailed => .tlsProtocolFailed
  -- a close that was not expected breaks the protocol
  | .closed => .tlsProtocolFailed
  | .recvTimeout => .tlsRecvTimeout
  | .sendTimeout => .sendTimeout

/-- An exchange that fails without a response. -/
def Outcome.failed (result : Result) (handed : List UInt8) : Outcome := ⟨result, .zero, [], handed⟩

/-- `cn_netsimple_exchange` over TLS, on a connected descriptor. -/
def exchangeTls (request body : List UInt8) (bufferCap : ℕ) (wire : Wire) : Outcome :=
  if wire.tlsOpen ≠ .ok then .failed (tlsMap wire.tlsOpen) []
  else
    let (result, handed) := sendTls request body wire
    if result ≠ .ok then .failed result handed
    else (receiveTls bufferCap [] wire.tlsTurns).outcome handed

/-- `cn_netsimple_exchange` without TLS, on a connected descriptor. -/
def exchangePlain (request body : List UInt8) (bufferCap : ℕ) (wire : Wire) : Outcome :=
  let sent := sendPlain request body wire
  if sent.result ≠ .ok then .failed sent.result sent.handed
  else (receivePlain bufferCap [] wire.recvTurns).outcome sent.handed

/-- `cn_netsimple_exchange` with a buffer of `bufferCap` bytes. -/
def exchange (spec : Request) (bufferCap : ℕ) (wire : Wire) : Outcome :=
  if bufferCap = 0 then .failed .invalid []
  else
    match buildExchangeRequest spec requestMax with
    | none => .failed .invalid []
    | some request =>
      match connect spec wire with
      | (result, false) => .failed result []
      | (_, true) =>
        if ¬ wire.nonblocking then .failed .sendError []
        else if spec.tls then exchangeTls request (spec.body.getD []) bufferCap wire
        else exchangePlain request (spec.body.getD []) bufferCap wire

/-! ## What the results tell -/

/-- The results that are possible after a byte of the request has been handed over. -/
inductive AfterSend : Result → Prop
  | ok : AfterSend .ok
  | sendError : AfterSend .sendError
  | sendTimeout : AfterSend .sendTimeout
  | recvError : AfterSend .recvError
  | recvTimeout : AfterSend .recvTimeout
  | truncated : AfterSend .truncated
  | badResponse : AfterSend .badResponse
  | tlsProtocolFailed : AfterSend .tlsProtocolFailed
  | tlsRecvTimeout : AfterSend .tlsRecvTimeout

theorem afterSend_sendBuffer (handed data : List UInt8) (turns : List SendTurn) :
    AfterSend (sendBuffer handed data turns).result := by
  induction turns generalizing handed data with
  | nil =>
    unfold sendBuffer
    split_ifs <;> constructor
  | cons turn turns ih =>
    unfold sendBuffer
    split_ifs
    · constructor
    · split <;> first | exact ih _ _ | constructor

theorem afterSend_sendPlain (request body : List UInt8) (wire : Wire) :
    AfterSend (sendPlain request body wire).result := by
  unfold sendPlain
  dsimp only
  split_ifs <;> first | exact afterSend_sendBuffer _ _ _ | constructor

theorem afterSend_sendTls (request body : List UInt8) (wire : Wire) :
    AfterSend (sendTls request body wire).1 := by
  unfold sendTls
  dsimp only
  split_ifs <;> constructor

/-- A receive loop fails with a result that is possible after a send. -/
def Receiving.Fails : Receiving → Prop
  | .failed result _ => AfterSend result ∧ result ≠ .ok
  | .done _ _ => True

theorem fails_receiveTls (bufferCap : ℕ) (buffer : List UInt8) (calls : List TlsRecv) :
    (receiveTls bufferCap buffer calls).Fails := by
  induction calls generalizing buffer with
  | nil =>
    unfold receiveTls
    split_ifs
    exacts [trivial, ⟨.tlsRecvTimeout, by simp⟩]
  | cons call calls ih =>
    have hfail : ∀ buffer, (Receiving.failed
        (if call.result = .recvTimeout then .tlsRecvTimeout else .tlsProtocolFailed)
        buffer).Fails := by
      intro buffer
      split_ifs
      exacts [⟨.tlsRecvTimeout, by simp⟩, ⟨.tlsProtocolFailed, by simp⟩]
    unfold receiveTls
    dsimp only
    by_cases hcap : bufferCap ≤ buffer.length
    · rw [if_pos hcap]
      trivial
    rw [if_neg hcap]
    split
    · exact ⟨.badResponse, by simp⟩
    · split_ifs <;>
        first | trivial | exact ih _ | exact ⟨.badResponse, by simp⟩ |
          exact ⟨.truncated, by simp⟩ | exact hfail _ | simpa [*] using hfail _
    · split_ifs <;>
        first | trivial | exact ih _ | exact ⟨.truncated, by simp⟩ | exact hfail _ |
          simpa [*] using hfail _

theorem fails_receiveRest (bufferCap : ℕ) (buffer : List UInt8) (calls : List Received) :
    (receiveRest bufferCap buffer calls).Fails := by
  induction calls generalizing buffer with
  | nil => trivial
  | cons call calls ih =>
    unfold receiveRest
    split_ifs
    · trivial
    · cases call <;> first | exact ih _ | trivial | exact ⟨.recvError, by simp⟩

theorem fails_receivePlain (bufferCap : ℕ) (buffer : List UInt8) (turns : List RecvTurn) :
    (receivePlain bufferCap buffer turns).Fails := by
  induction turns generalizing buffer with
  | nil =>
    unfold receivePlain
    split_ifs
    exacts [trivial, ⟨.recvTimeout, by simp⟩]
  | cons turn turns ih =>
    unfold receivePlain
    split_ifs
    · trivial
    · cases turn with
      | timeout => exact ⟨.recvTimeout, by simp⟩
      | interrupted => exact ih _
      | pollFailed => exact ⟨.recvError, by simp⟩
      | invalid => exact ⟨.recvError, by simp⟩
      | hangup rest => exact fails_receiveRest _ _ _
      | received call =>
        cases call <;> first | exact ih _ | trivial | exact ⟨.recvError, by simp⟩

theorem Receiving.afterSend {r : Receiving} (h : r.Fails) (handed : List UInt8) :
    AfterSend (r.outcome handed).result := by
  cases r with
  | failed result buffer => exact h.1
  | done buffer truncated =>
    unfold outcome receiveDone
    dsimp only
    split <;> dsimp only <;> split_ifs <;> constructor

theorem exchangeTls_handed {request body : List UInt8} {bufferCap : ℕ} {wire : Wire}
    (h : (exchangeTls request body bufferCap wire).handed ≠ []) :
    AfterSend (exchangeTls request body bufferCap wire).result := by
  unfold exchangeTls at *
  by_cases hopen : wire.tlsOpen ≠ .ok
  · rw [if_pos hopen] at h
    exact absurd rfl h
  rw [if_neg hopen]
  dsimp only
  split_ifs
  · exact afterSend_sendTls _ _ _
  · exact Receiving.afterSend (fails_receiveTls _ _ _) _

theorem afterSend_exchangePlain (request body : List UInt8) (bufferCap : ℕ) (wire : Wire) :
    AfterSend (exchangePlain request body bufferCap wire).result := by
  unfold exchangePlain
  dsimp only
  split_ifs
  · exact afterSend_sendPlain _ _ _
  · exact Receiving.afterSend (fails_receivePlain _ _ _) _

/-- **What an exchange reports after it has handed a byte to the connection.** -/
theorem exchange_handed {spec : Request} {bufferCap : ℕ} {wire : Wire}
    (h : (exchange spec bufferCap wire).handed ≠ []) :
    AfterSend (exchange spec bufferCap wire).result := by
  unfold exchange at *
  by_cases hcap : bufferCap = 0
  · rw [if_pos hcap] at h
    exact absurd rfl h
  rw [if_neg hcap] at *
  cases hb : buildExchangeRequest spec requestMax with
  | none =>
    rw [hb] at h
    exact absurd rfl h
  | some request =>
    rw [hb] at h
    dsimp only at *
    rcases hc : connect spec wire with ⟨result, _ | _⟩
    · rw [hc] at h
      exact absurd rfl h
    rw [hc] at h
    dsimp only at *
    by_cases hn : ¬ wire.nonblocking
    · rw [if_pos hn] at h
      exact absurd rfl h
    rw [if_neg hn] at *
    by_cases ht : spec.tls
    · rw [if_pos ht] at *
      exact exchangeTls_handed h
    · rw [if_neg ht] at *
      exact afterSend_exchangePlain _ _ _ _

end NetSimple
