import CrossNook.Net.Exchange

/-!
# Receiving over TLS

`cn_tls_recv_some` (`net/tlssimple.c`) on top of the TLS engine: the states in which the loop finds
the engine, and the socket calls that it makes for it, are read turn by turn.

## Main definitions

* `TlsSimple.EngineTurn`: the state of the engine at one turn of the loop
* `TlsSimple.recvSome`: `cn_tls_recv_some`, with the turns that it leaves

## Main results

* `TlsSimple.answered_recvSome`: a success brings bytes, the closing result is the clean closure of
  the engine, and every other answer is a failure without bytes
-/

namespace TlsSimple

open NetSimple (TlsResult TlsRecv)

/-- The last error of the engine, as far as `classify_engine` tells the codes apart. -/
inductive EngineError
  | ok
  | noRandom
  | x509NotTrusted
  | x509BadServerName
  | x509Expired
  | x509TimeUnknown
  | x509Other
  | other
  deriving DecidableEq, Repr

/-- `classify_engine`. -/
def classifyEngine (phase : ℕ) : EngineError → TlsResult
  | .ok => .closed
  | .noRandom => .entropyFailed
  | .x509NotTrusted => .trustFailed
  | .x509BadServerName => .hostnameMismatch
  | .x509Expired => .certTimeFailed
  | .x509TimeUnknown => .certTimeFailed
  | .x509Other => .certInvalid
  | .other => if phase = 0 then .handshakeFailed else .protocolFailed

/-- One turn of `io_flush_out` or `io_ingest_in`: the engine has nothing to move, or how the `poll`
and the socket call end. -/
inductive IoTurn
  | idle
  | timeout
  | interrupted
  | pollFailed
  | broken
  | again
  | moved
  | failed
  deriving DecidableEq, Repr

/-- `io_flush_out`. -/
def ioFlushOut (phase : ℕ) : List IoTurn → TlsResult
  | [] => if phase = 0 then .handshakeTimeout else .sendTimeout
  | .idle :: _ => .ok
  | .timeout :: _ => if phase = 0 then .handshakeTimeout else .sendTimeout
  | .interrupted :: turns => ioFlushOut phase turns
  | .pollFailed :: _ => .internal
  | .broken :: _ => .protocolFailed
  | .again :: turns => ioFlushOut phase turns
  | .moved :: turns => ioFlushOut phase turns
  | .failed :: _ => .protocolFailed

/-- `io_ingest_in`. The end of the TCP stream is a failure of its `recv`. -/
def ioIngestIn (phase : ℕ) : List IoTurn → TlsResult
  | [] => if phase = 0 then .handshakeTimeout else .recvTimeout
  | .idle :: _ => .ok
  | .timeout :: _ => if phase = 0 then .handshakeTimeout else .recvTimeout
  | .interrupted :: turns => ioIngestIn phase turns
  | .pollFailed :: _ => .internal
  | .broken :: _ => .protocolFailed
  | .again :: turns => ioIngestIn phase turns
  | .moved :: _ => .ok
  | .failed :: _ => .protocolFailed

/-- The state of the engine at one turn of the loop of `cn_tls_recv_some`: closed with an error,
decrypted bytes at hand, records to send, room for records, or none of these. -/
inductive EngineTurn
  | closed (error : EngineError)
  | recvApp (available : List UInt8)
  | sendRec (flush : List IoTurn)
  | recvRec (ingest : List IoTurn)
  | stuck
  deriving DecidableEq, Repr

/-- A call that brings no bytes. -/
def failed (result : TlsResult) : TlsRecv := ⟨[], result, false⟩

/-- `cn_tls_recv_some` into a buffer of `cap` bytes, with the turns that it leaves. Bytes that do
not fit stay at hand. -/
def recvSome (phase cap : ℕ) : List EngineTurn → TlsRecv × List EngineTurn
  | [] => (failed .recvTimeout, [])
  | .closed error :: turns =>
    (⟨[], classifyEngine phase error, classifyEngine phase error = .closed⟩, turns)
  | .recvApp available :: turns =>
    -- the caller has room, so there would be no bytes
    if available.take cap = [] then (failed .internal, turns)
    else
      (⟨available.take cap, .ok, false⟩,
        if available.drop cap = [] then turns else .recvApp (available.drop cap) :: turns)
  | .sendRec flush :: turns =>
    match ioFlushOut phase flush with
    | .ok => recvSome phase cap turns
    | result => (failed result, turns)
  | .recvRec ingest :: turns =>
    match ioIngestIn phase ingest with
    | .ok => recvSome phase cap turns
    | result => (failed result, turns)
  | .stuck :: turns => (failed .internal, turns)

theorem ioFlushOut_ne_closed (phase : ℕ) (turns : List IoTurn) :
    ioFlushOut phase turns ≠ .closed := by
  induction turns with
  | nil =>
    rw [ioFlushOut]
    split_ifs <;> simp
  | cons turn turns ih =>
    cases turn <;> simp only [ioFlushOut] <;> first | exact ih | split_ifs <;> simp | simp

theorem ioIngestIn_ne_closed (phase : ℕ) (turns : List IoTurn) :
    ioIngestIn phase turns ≠ .closed := by
  induction turns with
  | nil =>
    rw [ioIngestIn]
    split_ifs <;> simp
  | cons turn turns ih =>
    cases turn <;> simp only [ioIngestIn] <;> first | exact ih | split_ifs <;> simp | simp

/-- The engine was closed without an error, after socket calls only. -/
def CleanlyClosed (turns : List EngineTurn) : Prop :=
  ∃ passed rest, turns = passed ++ .closed .ok :: rest ∧
    ∀ turn ∈ passed, ∃ io, turn = .sendRec io ∨ turn = .recvRec io

theorem CleanlyClosed.cons {turns : List EngineTurn} (h : CleanlyClosed turns) {turn : EngineTurn}
    (ht : ∃ io, turn = .sendRec io ∨ turn = .recvRec io) : CleanlyClosed (turn :: turns) := by
  obtain ⟨passed, rest, rfl, hpassed⟩ := h
  exact ⟨turn :: passed, rest, rfl, List.forall_mem_cons.mpr ⟨ht, hpassed⟩⟩

/-- What a call of `cn_tls_recv_some` may answer: bytes, the clean closure or a failure. -/
inductive Answered (turns : List EngineTurn) : TlsRecv → Prop
  | bytes {data : List UInt8} (h : data ≠ []) : Answered turns ⟨data, .ok, false⟩
  | closed (h : CleanlyClosed turns) : Answered turns ⟨[], .closed, true⟩
  | failed {result : TlsResult} (ok : result ≠ .ok) (closed : result ≠ .closed) :
    Answered turns (failed result)

theorem Answered.cons {turns : List EngineTurn} {call : TlsRecv} (h : Answered turns call)
    {turn : EngineTurn} (ht : ∃ io, turn = .sendRec io ∨ turn = .recvRec io) :
    Answered (turn :: turns) call := by
  cases h with
  | bytes h => exact .bytes h
  | closed h => exact .closed (h.cons ht)
  | failed h1 h2 => exact .failed h1 h2

/-- **The answers of `cn_tls_recv_some`.** -/
theorem answered_recvSome (phase cap : ℕ) (turns : List EngineTurn) :
    Answered turns (recvSome phase cap turns).1 := by
  induction turns with
  | nil => exact .failed (by simp) (by simp)
  | cons turn turns ih =>
    cases turn with
    | closed error =>
      cases error with
      | ok => exact .closed ⟨[], turns, rfl, by simp⟩
      | other =>
        -- the phase decides between the two failures, none of which is the closure
        rw [recvSome, classifyEngine]
        split_ifs <;> exact .failed (by simp) (by simp)
      | _ => exact .failed (by simp [classifyEngine]) (by simp [classifyEngine])
    | recvApp available =>
      rw [recvSome]
      by_cases h : available.take cap = []
      · rw [if_pos h]
        exact .failed (by simp) (by simp)
      · rw [if_neg h]
        exact .bytes h
    | sendRec flush =>
      rw [recvSome]
      split
      · exact ih.cons ⟨flush, .inl rfl⟩
      · rename_i hr
        exact .failed hr (ioFlushOut_ne_closed phase flush)
    | recvRec ingest =>
      rw [recvSome]
      split
      · exact ih.cons ⟨ingest, .inr rfl⟩
      · rename_i hr
        exact .failed hr (ioIngestIn_ne_closed phase ingest)
    | stuck => exact .failed (by simp) (by simp)

end TlsSimple
