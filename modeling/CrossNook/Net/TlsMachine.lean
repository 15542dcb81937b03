import CrossNook.Net.DnsExchange
import CrossNook.Net.TlsSimple
import CrossNook.System.EventMachine

/-!
# A TLS connection, call by call

`cn_tls_open`, `cn_tls_send_all`, `cn_tls_recv_some` and `cn_tls_close` (`net/tlssimple.c`). Every
call into the system and into BearSSL is an event that carries what the program passes and what is
answered, and so are the calls of the application and the returns to it; a run is a list of events. A
buffer of BearSSL that the program reads or fills is a call with its bytes. The calls of `close` for the files that are read
are no events; the one for the socket is.

## Main definitions

* `TlsSimple.Settings`: what BearSSL is told before the handshake
* `TlsSimple.nextSetup`: `cn_tls_open` before its handshake
* `TlsSimple.nextPump`: the loops over the engine
* `TlsSimple.next`: the connection

## Main results

* `TlsSimple.pumpStep_of_nextPump`: what one call in a loop over the engine can be
* `TlsSimple.step_of_next`: what one call of a connection can be
* `TlsSimple.PumpStep.fits`: a loop keeps to its task
* `TlsSimple.recvSome_of_run`: the calls of `cn_tls_recv_some` make up turns of `recvSome`
-/

namespace TlsSimple

open DnsExchange (Direction)
open NetSimple (TlsResult)

/-! ## Answers of the system and of BearSSL -/

/-- The bits of `br_ssl_engine_current_state`. -/
structure Flags where
  closed : Bool
  sendRec : Bool
  recvRec : Bool
  sendApp : Bool
  recvApp : Bool
  deriving DecidableEq

/-- How `read` on a file returns: some bytes, none at the end of the file. -/
inductive FileRead
  | bytes (got : List UInt8)
  | interrupted
  | wouldBlock
  | failed
  deriving DecidableEq

/-- How `poll` returns; `revents` tells whether what it waited for is among the events, whether
`POLLERR` or `POLLHUP` is, and whether `POLLNVAL` is. -/
inductive Polled
  | timedOut
  | interrupted
  | failed
  | revents (wanted hangup invalid : Bool)
  deriving DecidableEq

/-- How `send` returns; `again` is for `EINTR`, `EAGAIN` and `EWOULDBLOCK`. -/
inductive Sent
  | took (n : ℕ)
  | again
  | failed
  deriving DecidableEq

/-- How `recv` returns. There are no bytes at the end of the stream. -/
inductive Received
  | bytes (got : List UInt8)
  | again
  | failed
  deriving DecidableEq

/-- The event of the PEM decoder after a push. -/
inductive PemEvent
  | none
  | beginObj (name : List UInt8)
  | endObj
  | error
  deriving DecidableEq

/-- A public key of the X.509 decoder. -/
inductive PublicKey
  | rsa (n e : List UInt8)
  | ec (curve : ℕ) (q : List UInt8)
  | other
  deriving DecidableEq

/-- What the X.509 decoder makes of a certificate: its last error, the distinguished name in the
chunks in which it is reported, the key and the CA flag. -/
structure Certificate where
  lastError : ℕ
  dn : List (List UInt8)
  pkey : Option PublicKey
  isCA : Bool
  deriving DecidableEq

/-! ## Trust anchors -/

/-- `CN_TLS_CA_MAX_BYTES`. -/
def caMaxBytes : ℕ := 65536

/-- `CN_TLS_MAX_ANCHORS`. -/
def maxAnchors : ℕ := 8

/-- `CN_TLS_CA_DN_MAX`. -/
def caDnMax : ℕ := 512

/-- `CN_TLS_CA_KEY_MAX`. -/
def caKeyMax : ℕ := 1024

/-- `CN_TLS_ENTROPY_MIN_BYTES`. -/
def entropyMinBytes : ℕ := 32

/-- `CN_TLS_ENTROPY_PATH_DEFAULT`. -/
def entropyPathDefault : List UInt8 := Bytes.ascii "/dev/urandom"

/-- `cn_blob`, without its buffer's capacity. -/
structure Blob where
  bytes : List UInt8
  overflow : Bool
  deriving DecidableEq

/-- `blob_append`. What does not fit is dropped. -/
def blobAppend (cap : ℕ) (b : Blob) (data : List UInt8) : Blob :=
  if cap < b.bytes.length ∨ cap - b.bytes.length < data.length then { b with overflow := true }
  else { b with bytes := b.bytes ++ data }

/-- The chunks that a decoder hands over. -/
def blobAppendAll (cap : ℕ) (b : Blob) (chunks : List (List UInt8)) : Blob :=
  chunks.foldl (blobAppend cap) b

/-- A trust anchor (`cn_tls_ta`). -/
structure Anchor where
  dn : List UInt8
  isCA : Bool
  key : PublicKey
  deriving DecidableEq

/-- The key of `decode_anchor` fits its buffer. -/
def keyFits : PublicKey → Bool
  | .rsa n e => n.length ≠ 0 ∧ n.length ≤ caKeyMax / 2 ∧ e.length ≠ 0 ∧ e.length ≤ caKeyMax / 2
  | .ec _ q => q.length ≠ 0 ∧ q.length ≤ caKeyMax
  | .other => false

/-- `decode_anchor`, with what the X.509 decoder makes of the certificate. -/
def decodeAnchor (der : List UInt8) (answer : Certificate) : Option Anchor :=
  let dn := blobAppendAll caDnMax ⟨[], false⟩ answer.dn
  if der = [] ∨ answer.lastError ≠ 0 ∨ dn.overflow then none
  else
    match answer.pkey with
    | none => none
    | some key => if keyFits key then some ⟨dn.bytes, answer.isCA, key⟩ else none

/-- `is_pem_certificate`. -/
def isPemCertificate (name : List UInt8) : Bool :=
  (Bytes.ascii "CERTIFICATE").isPrefixOf name ∧
    (name.drop (Bytes.ascii "CERTIFICATE").length).all (· = 0x2d)

/-- A byte of a server name: no space, no control, no slash and no backslash. -/
def serverNameByte (c : UInt8) : Bool := ¬(c ≤ 0x20 ∨ c = 0x7f ∨ c = 0x2f ∨ c = 0x5c)

/-- `valid_server_name`. -/
def validServerName (name : List UInt8) : Bool :=
  name ≠ [] ∧ name.length ≤ 255 ∧ name.all serverNameByte

/-- The locals of the PEM loop of `load_anchors`: what is left to push, whether the newline behind the
file is still to come, the receiver `der`, and whether the decoder has one. -/
structure Pem where
  buf : List UInt8
  extraNl : Bool
  der : Blob
  dest : Bool
  inobj : Bool
  isCert : Bool
  anchors : List Anchor
  deriving DecidableEq

/-- The locals at the start of the loop. -/
def Pem.start (file : List UInt8) : Pem := ⟨file, true, ⟨[], false⟩, false, false, false, []⟩

/-- What the turn pushes: a newline once the file is through. -/
def Pem.input (p : Pem) : List UInt8 := if p.buf = [] then [0x0a] else p.buf

/-- The loop is left. -/
def Pem.finished (p : Pem) : Bool := p.buf = [] ∧ p.extraNl = false

/-- The locals after a push, before its event. -/
def Pem.pushed (p : Pem) (consumed : ℕ) (decoded : List (List UInt8)) : Pem :=
  { p with
    buf := p.input.drop consumed
    extraNl := if p.buf = [] then false else p.extraNl
    der := if p.dest then blobAppendAll caMaxBytes p.der decoded else p.der }

/-- A begin-object event. -/
def Pem.began (p : Pem) (name : List UInt8) : Pem :=
  { p with
    inobj := true
    der := ⟨[], false⟩
    isCert := isPemCertificate name
    dest := isPemCertificate name || p.dest }

/-! ## The configuration -/

/-- The arguments of `cn_tls_open`, without the socket. -/
structure Config where
  caPath : Option (List UInt8)
  entropyPath : Option (List UInt8)
  serverName : List UInt8
  deadline : ℤ
  deriving DecidableEq

/-- What BearSSL has been told when the handshake begins: the anchors, the time of the validation,
the seed, and the name of the server. The suites, the TLS version, the flag against renegotiation and
the least RSA modulus are constants. -/
structure Settings where
  anchors : List Anchor
  days : UInt32
  seconds : UInt32
  entropy : List UInt8
  serverName : List UInt8
  deriving DecidableEq

/-- The clock of the validation. -/
def Settings.ofWall (anchors : List Anchor) (wall : ℕ) : Settings :=
  ⟨anchors, UInt32.ofNat (wall / 86400) + 719528, UInt32.ofNat (wall % 86400), [], []⟩

/-! ## Opening -/

/-- A call of `cn_tls_open` before its handshake. -/
inductive SetupEvent
  | getFlags (ok : Bool)
  | setFlags (ok : Bool)
  | openCa (path : List UInt8) (opened : Bool)
  | readCa (room : ℕ) (read : FileRead)
  | pemPush (input : List UInt8) (consumed : ℕ) (decoded : List (List UInt8)) (event : PemEvent)
  | decode (der : List UInt8) (answer : Certificate)
  | wall (seconds : ℤ)
  | openReady (opened : Bool)
  | monotonic (now : ℤ)
  | poll (timeout : ℤ) (polled : Polled)
  | openEntropy (path : List UInt8) (opened : Bool)
  | readEntropy (room : ℕ) (read : FileRead)
  | reset (settings : Settings) (ok : Bool)
  | lastError (error : EngineError)
  deriving DecidableEq

/-- Where `cn_tls_open` is before its handshake. -/
inductive SetupPoint
  | getFlags
  | setFlags
  | openCa (path : List UInt8)
  | readCa (got : List UInt8)
  | readExtra (got : List UInt8)
  | pem (p : Pem)
  | decode (p : Pem)
  | wall (anchors : List Anchor)
  | openReady (settings : Settings)
  | readyClock (settings : Settings)
  | readyPoll (settings : Settings) (timeout : ℤ)
  | openEntropy (settings : Settings) (path : List UInt8)
  | readEntropy (settings : Settings)
  | entropyClock (settings : Settings)
  | entropyPoll (settings : Settings) (timeout : ℤ)
  | reset (settings : Settings)
  | classify
  deriving DecidableEq

/-- What follows a call of `cn_tls_open` before its handshake. -/
inductive SetupOutcome
  | goOn (point : SetupPoint)
  | fails (result : TlsResult)
  | shakes
  deriving DecidableEq

/-- `tls_poll_interval_ms` after its reading of the clock. -/
def pollIntervalMs (deadline now : ℤ) : ℤ :=
  if deadline - now < 0 then -1
  else if DnsExchange.intMax < deadline - now then DnsExchange.intMax
  else deadline - now

/-- The PEM loop: another turn, or what follows it. -/
def afterPem (p : Pem) : SetupOutcome :=
  if p.finished then
    if p.inobj ∨ p.anchors = [] then .fails .invalidCa else .goOn (.wall p.anchors)
  else .goOn (.pem p)

/-- The end of an object. -/
def afterObject (p : Pem) : SetupOutcome :=
  if p.inobj && p.isCert then
    if maxAnchors ≤ p.anchors.length ∨ p.der.overflow ∨ p.der.bytes = [] then .fails .invalidCa
    else .goOn (.decode p)
  else afterPem { p with inobj := false }

/-- The event after a push. -/
def afterPush (p : Pem) : PemEvent → SetupOutcome
  | .none => afterPem p
  | .beginObj name => afterPem (p.began name)
  | .endObj => afterObject p
  | .error => .fails .invalidCa

/-- `read_entropy` before the source is opened. -/
def beforeEntropy (config : Config) (settings : Settings) : SetupPoint :=
  match config.entropyPath with
  | none => .openReady settings
  | some path => .openEntropy settings path

/-- The loop of `read_entropy` after a read. A read returns no more than it was asked for. -/
def afterEntropy (config : Config) (settings : Settings) : FileRead → Option SetupOutcome
  | .bytes got =>
    if entropyMinBytes < settings.entropy.length + got.length then none
    else if got = [] then some (.fails .entropyFailed)
    else
      let settings := { settings with entropy := settings.entropy ++ got }
      if settings.entropy.length < entropyMinBytes then some (.goOn (.readEntropy settings))
      else some (.goOn (.reset { settings with serverName := config.serverName }))
  | .interrupted => some (.goOn (.readEntropy settings))
  | .wouldBlock => some (.goOn (.entropyClock settings))
  | .failed => some (.fails .entropyFailed)

/-- `read_bounded_file` after a read: another one, the one behind a full buffer, or the end of the
file. -/
def afterRead (got : List UInt8) : FileRead → Option SetupOutcome
  | .bytes new =>
    if caMaxBytes < got.length + new.length then none
    else if new = [] then some (afterPem (.start got))
    else if (got ++ new).length < caMaxBytes then some (.goOn (.readCa (got ++ new)))
    else some (.goOn (.readExtra (got ++ new)))
  | .interrupted => some (.goOn (.readCa got))
  | _ => some (.fails .invalidCa)

/-- `read_bounded_file` behind a full buffer. -/
def afterExtra (got : List UInt8) : FileRead → Option SetupOutcome
  | .bytes [] => some (afterPem (.start got))
  | .bytes _ => some (.fails .invalidCa)
  | .interrupted => some (.goOn (.readExtra got))
  | _ => some (.fails .invalidCa)

/-- Behind the second `fcntl` the anchors are loaded. -/
def afterSetFlags (config : Config) (ok : Bool) : SetupOutcome :=
  match config.caPath with
  | none => .fails (if ok then .invalidCa else .internal)
  | some path => if ok then .goOn (.openCa path) else .fails .internal

/-- The PEM loop behind `decode_anchor`. -/
def afterDecode (p : Pem) : Option Anchor → SetupOutcome
  | none => .fails .invalidCa
  | some anchor => afterPem { p with anchors := p.anchors ++ [anchor], inobj := false }

/-- Behind the reading of the wall clock. -/
def afterWall (config : Config) (anchors : List Anchor) (seconds : ℤ) : SetupOutcome :=
  if seconds < 0 then .fails .internal
  else .goOn (beforeEntropy config (.ofWall anchors seconds.toNat))

/-- `wait_for_entropy_ready` behind its `poll`. -/
def afterReadyPoll (settings : Settings) : Polled → SetupOutcome
  | .revents true _ _ => .goOn (.openEntropy settings entropyPathDefault)
  | .interrupted => .goOn (.readyClock settings)
  | _ => .fails .entropyFailed

/-- `read_entropy` behind its `poll`. A signal ends it. -/
def afterEntropyPoll (settings : Settings) : Polled → SetupOutcome
  | .revents _ _ _ => .goOn (.readEntropy settings)
  | _ => .fails .entropyFailed

/-- Behind a reading of the clock in `read_entropy`. -/
def afterEntropyClock (config : Config) (now : ℤ) (poll : ℤ → SetupPoint) : SetupOutcome :=
  if pollIntervalMs config.deadline now < 0 then .fails .entropyFailed
  else .goOn (poll (pollIntervalMs config.deadline now))

/-- One call of `cn_tls_open` before its handshake, and what follows it. -/
def nextSetup (config : Config) : SetupPoint → SetupEvent → Option SetupOutcome
  | .getFlags, .getFlags ok => some (if ok then .goOn .setFlags else .fails .internal)
  | .setFlags, .setFlags ok => some (afterSetFlags config ok)
  | .openCa path, .openCa path' opened =>
    if path' ≠ path then none
    else some (if opened then .goOn (.readCa []) else .fails .invalidCa)
  | .readCa got, .readCa room read =>
    if room ≠ caMaxBytes - got.length then none else afterRead got read
  | .readExtra got, .readCa room read => if room ≠ 1 then none else afterExtra got read
  | .pem p, .pemPush input consumed decoded event =>
    if input ≠ p.input ∨ input.length < consumed then none
    else some (afterPush (p.pushed consumed decoded) event)
  | .decode p, .decode der answer =>
    if der ≠ p.der.bytes then none else some (afterDecode p (decodeAnchor der answer))
  | .wall anchors, .wall seconds => some (afterWall config anchors seconds)
  | .openReady settings, .openReady opened =>
    some (if opened then .goOn (.readyClock settings) else .fails .entropyFailed)
  | .readyClock settings, .monotonic now => some (afterEntropyClock config now (.readyPoll settings))
  | .readyPoll settings timeout, .poll timeout' polled =>
    if timeout' ≠ timeout then none else some (afterReadyPoll settings polled)
  | .openEntropy settings path, .openEntropy path' opened =>
    if path' ≠ path then none
    else some (if opened then .goOn (.readEntropy settings) else .fails .entropyFailed)
  | .readEntropy settings, .readEntropy room read =>
    if room ≠ entropyMinBytes - settings.entropy.length then none
    else afterEntropy config settings read
  | .entropyClock settings, .monotonic now =>
    some (afterEntropyClock config now (.entropyPoll settings))
  | .entropyPoll settings timeout, .poll timeout' polled =>
    if timeout' ≠ timeout then none else some (afterEntropyPoll settings polled)
  | .reset settings, .reset settings' ok =>
    if settings' ≠ settings then none
    else some (if ok then .shakes else .goOn .classify)
  | .classify, .lastError error => some (.fails (classifyEngine 0 error))
  | _, _ => none

/-! ## The loops over the engine -/

/-- A call in a loop over the engine. `sendappAck` stands for the copying, `br_ssl_engine_sendapp_ack`
and the flush, `recvrecAck` for `br_ssl_engine_recvrec_ack` with the bytes in the buffer. -/
inductive IoEvent
  | currentState (flags : Flags)
  | lastError (error : EngineError)
  | sendappBuf (room : ℕ)
  | sendappAck (chunk : List UInt8)
  | recvappBuf (available : List UInt8)
  | recvappAck (taken : ℕ)
  | sendrecBuf (records : List UInt8)
  | sendrecAck (taken : ℕ)
  | recvrecBuf (room : ℕ)
  | recvrecAck (records : List UInt8)
  | monotonic (now : ℤ)
  | poll (direction : Direction) (timeout : ℤ) (polled : Polled)
  | send (records : List UInt8) (sent : Sent)
  | recv (room : ℕ) (received : Received)
  deriving DecidableEq

/-- What a loop is for: `tls_handshake`, the two loops of `cn_tls_send_all`, the loop of
`cn_tls_recv_some`, and `cn_tls_close`. -/
inductive Task
  | handshake
  | sendAll (left : List UInt8)
  | drain
  | recvSome (cap : ℕ)
  | shutdown
  deriving DecidableEq

/-- A loop with its deadline. -/
structure Job where
  task : Task
  deadline : ℤ
  deriving DecidableEq

/-- Where a loop is: at its head, or in front of a call of what it does there. -/
inductive Pump
  | head
  | classify
  | sendApp
  | sendAppAck (chunk : List UInt8)
  | recvApp
  | recvAppAck (got : List UInt8)
  | flush
  | flushClock (records : List UInt8)
  | flushPoll (records : List UInt8) (timeout : ℤ)
  | flushSend (records : List UInt8)
  | flushAck (records : List UInt8) (taken : ℕ)
  | ingest
  | ingestClock (room : ℕ)
  | ingestPoll (room : ℕ) (timeout : ℤ)
  | ingestRecv (room : ℕ)
  | ingestAck (records : List UInt8)
  | shutdown
  deriving DecidableEq

/-- What follows a call in a loop: another call, or the return with the bytes for the caller. -/
inductive Outcome
  | goOn (job : Job) (pump : Pump)
  | ends (result : TlsResult) (got : List UInt8)
  deriving DecidableEq

/-- The loop of `cn_tls_send_all` is left when all has been taken. -/
def Task.sending (left : List UInt8) : Task := if left = [] then .drain else .sendAll left

/-- What a loop does about the state of the engine. -/
def dispatch (job : Job) (flags : Flags) : Outcome :=
  if flags.closed then .goOn job .classify
  else
    match job.task with
    | .handshake =>
      if flags.sendRec then .goOn job .flush
      else if flags.sendApp || flags.recvApp then .ends .ok []
      else if flags.recvRec then .goOn job .ingest
      else .ends .internal []
    | .sendAll _ =>
      if flags.sendApp then .goOn job .sendApp
      else if flags.sendRec then .goOn job .flush
      else if flags.recvApp then .ends .protocolFailed []
      else if flags.recvRec then .goOn job .ingest
      else .ends .internal []
    | .drain => if flags.sendRec then .goOn job .flush else .ends .ok []
    | .recvSome _ =>
      if flags.recvApp then .goOn job .recvApp
      else if flags.sendRec then .goOn job .flush
      else if flags.recvRec then .goOn job .ingest
      else .ends .internal []
    | .shutdown => .ends .internal []

/-- The deadline has passed in `io_flush_out` or `io_ingest_in`. -/
def ioTimeout (phase : ℕ) : Direction → TlsResult
  | .output => if phase = 0 then .handshakeTimeout else .sendTimeout
  | .input => if phase = 0 then .handshakeTimeout else .recvTimeout

/-- `io_flush_out` has nothing more to send. -/
def flushed (job : Job) : Outcome :=
  if job.task = .shutdown then .ends .ok [] else .goOn job .head

/-- After the poll of `io_flush_out`. -/
def afterFlushPoll (phase : ℕ) (job : Job) (records : List UInt8) : Polled → Outcome
  | .timedOut => .ends (ioTimeout phase .output) []
  | .interrupted => .goOn job .flush
  | .failed => .ends .internal []
  | .revents _ hangup invalid =>
    if hangup || invalid then .ends .protocolFailed [] else .goOn job (.flushSend records)

/-- After the poll of `io_ingest_in`. -/
def afterIngestPoll (phase : ℕ) (job : Job) (room : ℕ) : Polled → Outcome
  | .timedOut => .ends (ioTimeout phase .input) []
  | .interrupted => .goOn job .ingest
  | .failed => .ends .internal []
  | .revents _ _ invalid =>
    if invalid then .ends .protocolFailed [] else .goOn job (.ingestRecv room)

/-- After `send`, which takes no more than it is given. -/
def afterSend (job : Job) (records : List UInt8) : Sent → Option Outcome
  | .took n =>
    if records.length < n then none
    else if n = 0 then some (.ends .protocolFailed [])
    else some (.goOn job (.flushAck records n))
  | .again => some (.goOn job .flush)
  | .failed => some (.ends .protocolFailed [])

/-- After `recv`, which brings no more than there is room for. -/
def afterRecv (job : Job) (room : ℕ) : Received → Option Outcome
  | .bytes got =>
    if room < got.length then none
    else if got = [] then some (.ends .protocolFailed [])
    else some (.goOn job (.ingestAck got))
  | .again => some (.goOn job .ingest)
  | .failed => some (.ends .protocolFailed [])

/-- What `cn_tls_send_all` copies into the engine. -/
def afterSendappBuf (job : Job) (room : ℕ) : Outcome :=
  match job.task with
  | .sendAll left =>
    if left.take room = [] then .ends .internal [] else .goOn job (.sendAppAck (left.take room))
  | _ => .ends .internal []

/-- `cn_tls_send_all` goes on behind what it has copied. -/
def Job.advance (job : Job) (chunk : List UInt8) : Job :=
  match job.task with
  | .sendAll left => { job with task := .sending (left.drop chunk.length) }
  | _ => job

/-- What `cn_tls_recv_some` copies out of the engine. -/
def afterRecvappBuf (job : Job) (available : List UInt8) : Outcome :=
  match job.task with
  | .recvSome cap =>
    if available.take cap = [] then .ends .internal []
    else .goOn job (.recvAppAck (available.take cap))
  | _ => .ends .internal []

/-- One call in a loop over the engine, and what follows it. -/
def nextPump (phase : ℕ) (job : Job) : Pump → IoEvent → Option Outcome
  | .head, .currentState flags => some (dispatch job flags)
  | .classify, .lastError error => some (.ends (classifyEngine phase error) [])
  | .sendApp, .sendappBuf room => some (afterSendappBuf job room)
  | .sendAppAck chunk, .sendappAck chunk' =>
    if chunk' ≠ chunk then none else some (.goOn (job.advance chunk) .head)
  | .recvApp, .recvappBuf available => some (afterRecvappBuf job available)
  | .recvAppAck got, .recvappAck taken =>
    if taken ≠ got.length then none else some (.ends .ok got)
  | .flush, .sendrecBuf records =>
    some (if records = [] then flushed job else .goOn job (.flushClock records))
  | .flushClock records, .monotonic now =>
    some (if pollIntervalMs job.deadline now < 0 then .ends (ioTimeout phase .output) []
      else .goOn job (.flushPoll records (pollIntervalMs job.deadline now)))
  | .flushPoll records timeout, .poll direction timeout' polled =>
    if direction ≠ .output ∨ timeout' ≠ timeout then none
    else some (afterFlushPoll phase job records polled)
  | .flushSend records, .send records' sent =>
    if records' ≠ records then none else afterSend job records sent
  | .flushAck _ taken, .sendrecAck taken' =>
    if taken' ≠ taken then none else some (.goOn job .flush)
  | .ingest, .recvrecBuf room =>
    some (if room = 0 then .goOn job .head else .goOn job (.ingestClock room))
  | .ingestClock room, .monotonic now =>
    some (if pollIntervalMs job.deadline now < 0 then .ends (ioTimeout phase .input) []
      else .goOn job (.ingestPoll room (pollIntervalMs job.deadline now)))
  | .ingestPoll room timeout, .poll direction timeout' polled =>
    if direction ≠ .input ∨ timeout' ≠ timeout then none
    else some (afterIngestPoll phase job room polled)
  | .ingestRecv room, .recv room' received =>
    if room' ≠ room then none else afterRecv job room received
  | .ingestAck records, .recvrecAck records' =>
    if records' ≠ records then none else some (.goOn job .head)
  | .shutdown, .monotonic now => some (.goOn { job with deadline := now + 200 } .flush)
  | _, _ => none

/-! ## The connection -/

/-- A call of the application. -/
inductive Call
  | sendAll (data : List UInt8) (deadline : ℤ)
  | recvSome (cap : ℕ) (deadline : ℤ)
  | close
  deriving DecidableEq

/-- An event of a connection. -/
inductive Event
  | setup (e : SetupEvent)
  | io (e : IoEvent)
  | closeSocket
  | call (c : Call)
  | returns (result : TlsResult) (got : List UInt8)
  deriving DecidableEq

/-- Where the connection is: in `cn_tls_open` before its handshake, in a loop over the engine, before
the socket is closed, before a return, or with the application. A connection that was refused for
its name has not been written to and is not used again. -/
inductive Point
  | refusing
  | refused
  | gone
  | setup (point : SetupPoint)
  | pump (job : Job) (pump : Pump)
  | shut (result : TlsResult)
  | returning (result : TlsResult) (got : List UInt8)
  | idle
  deriving DecidableEq

/-- `cn_tls_conn`, as far as the program looks at it: `phase`, and whether `fd` is a descriptor. -/
structure State where
  phase : ℕ
  isOpen : Bool
  point : Point
  deriving DecidableEq

/-- `cn_tls_open` at its start: a refused name closes the socket at once. -/
def State.start (config : Config) : State :=
  if validServerName config.serverName then ⟨0, true, .setup .getFlags⟩
  else ⟨0, true, .refusing⟩

/-- What follows a call of `cn_tls_open` before its handshake. -/
def State.afterSetup (config : Config) (s : State) : SetupOutcome → State
  | .goOn point => { s with point := .setup point }
  | .fails result => { s with point := .shut result }
  | .shakes => { s with point := .pump ⟨.handshake, config.deadline⟩ .head }

/-- The end of a loop over the engine. -/
def State.ends (s : State) (task : Task) (result : TlsResult) (got : List UInt8) : State :=
  match task with
  | .handshake =>
    if result = .ok then { s with phase := 1, point := .returning .ok [] }
    else { s with point := .shut result }
  | .shutdown => { s with point := .shut .ok }
  | _ => { s with point := .returning result got }

/-- What follows a call in a loop over the engine. -/
def State.afterPump (s : State) (job : Job) : Outcome → State
  | .goOn job pump => { s with point := .pump job pump }
  | .ends result got => s.ends job.task result got

/-- A call of the application. -/
def State.called (s : State) : Call → State
  | .sendAll data deadline =>
    if s.isOpen then { s with point := .pump ⟨.sending data, deadline⟩ .head }
    else { s with point := .returning .invalid [] }
  | .recvSome cap deadline =>
    if s.isOpen = false ∨ cap = 0 then { s with point := .returning .invalid [] }
    else { s with point := .pump ⟨.recvSome cap, deadline⟩ .head }
  | .close =>
    if s.isOpen = false then { s with point := .returning .ok [] }
    else if s.phase = 1 then { s with point := .pump ⟨.shutdown, 0⟩ .shutdown }
    else { s with point := .shut .ok }

/-- **What the connection does next**, and what it makes of the answer; another call is not its next
one. -/
def next (config : Config) (s : State) (event : Event) : Option State :=
  match s.point, event with
  | .refusing, .closeSocket => some { s with isOpen := false, point := .refused }
  | .setup point, .setup e => (nextSetup config point e).map (s.afterSetup config)
  | .pump job pump, .io e => (nextPump s.phase job pump e).map (s.afterPump job)
  | .shut result, .closeSocket => some { s with isOpen := false, point := .returning result [] }
  | .returning result got, .returns result' got' =>
    if result' ≠ result ∨ got' ≠ got then none else some { s with point := .idle }
  | .refused, .returns result' got' =>
    if result' ≠ .invalid ∨ got' ≠ [] then none else some { s with point := .gone }
  | .idle, .call c => some (s.called c)
  | _, _ => none

/-! ## The calls, one by one -/

/-- A call in a loop over the engine with what follows it. -/
inductive PumpStep (phase : ℕ) (job : Job) : Pump → IoEvent → Outcome → Prop
  | head (flags : Flags) : PumpStep phase job .head (.currentState flags) (dispatch job flags)
  | classify (error : EngineError) :
    PumpStep phase job .classify (.lastError error) (.ends (classifyEngine phase error) [])
  | sendApp (room : ℕ) : PumpStep phase job .sendApp (.sendappBuf room) (afterSendappBuf job room)
  | sendAppAck (chunk : List UInt8) :
    PumpStep phase job (.sendAppAck chunk) (.sendappAck chunk) (.goOn (job.advance chunk) .head)
  | recvApp (available : List UInt8) :
    PumpStep phase job .recvApp (.recvappBuf available) (afterRecvappBuf job available)
  | recvAppAck (got : List UInt8) :
    PumpStep phase job (.recvAppAck got) (.recvappAck got.length) (.ends .ok got)
  | flush (records : List UInt8) :
    PumpStep phase job .flush (.sendrecBuf records)
      (if records = [] then flushed job else .goOn job (.flushClock records))
  | flushClock (records : List UInt8) (now : ℤ) :
    PumpStep phase job (.flushClock records) (.monotonic now)
      (if pollIntervalMs job.deadline now < 0 then .ends (ioTimeout phase .output) []
        else .goOn job (.flushPoll records (pollIntervalMs job.deadline now)))
  | flushPoll (records : List UInt8) (timeout : ℤ) (polled : Polled) :
    PumpStep phase job (.flushPoll records timeout) (.poll .output timeout polled)
      (afterFlushPoll phase job records polled)
  | flushSend (records : List UInt8) (sent : Sent) {outcome : Outcome}
    (h : afterSend job records sent = some outcome) :
    PumpStep phase job (.flushSend records) (.send records sent) outcome
  | flushAck (records : List UInt8) (taken : ℕ) :
    PumpStep phase job (.flushAck records taken) (.sendrecAck taken) (.goOn job .flush)
  | ingest (room : ℕ) :
    PumpStep phase job .ingest (.recvrecBuf room)
      (if room = 0 then .goOn job .head else .goOn job (.ingestClock room))
  | ingestClock (room : ℕ) (now : ℤ) :
    PumpStep phase job (.ingestClock room) (.monotonic now)
      (if pollIntervalMs job.deadline now < 0 then .ends (ioTimeout phase .input) []
        else .goOn job (.ingestPoll room (pollIntervalMs job.deadline now)))
  | ingestPoll (room : ℕ) (timeout : ℤ) (polled : Polled) :
    PumpStep phase job (.ingestPoll room timeout) (.poll .input timeout polled)
      (afterIngestPoll phase job room polled)
  | ingestRecv (room : ℕ) (received : Received) {outcome : Outcome}
    (h : afterRecv job room received = some outcome) :
    PumpStep phase job (.ingestRecv room) (.recv room received) outcome
  | ingestAck (records : List UInt8) :
    PumpStep phase job (.ingestAck records) (.recvrecAck records) (.goOn job .head)
  | shutdown (now : ℤ) :
    PumpStep phase job .shutdown (.monotonic now)
      (.goOn { job with deadline := now + 200 } .flush)

/-- What `if` refuses is no call. -/
theorem of_ite_none {p : Prop} [Decidable p] {α : Type*} {x : Option α} {y : α}
    (h : (if p then none else x) = some y) : ¬p ∧ x = some y := by
  by_cases hp : p
  · rw [if_pos hp] at h
    cases h
  · rw [if_neg hp] at h
    exact ⟨hp, h⟩

theorem pumpStep_of_nextPump {phase : ℕ} {job : Job} {pump : Pump} {e : IoEvent}
    {outcome : Outcome} (h : nextPump phase job pump e = some outcome) :
    PumpStep phase job pump e outcome := by
  unfold nextPump at h
  split at h
  case h_1 flags => exact Option.some.inj h ▸ .head flags
  case h_2 error => exact Option.some.inj h ▸ .classify error
  case h_3 room => exact Option.some.inj h ▸ .sendApp room
  case h_4 chunk chunk' =>
    obtain ⟨hchunk, hsome⟩ := of_ite_none h
    obtain rfl := not_not.mp hchunk
    exact Option.some.inj hsome ▸ .sendAppAck chunk'
  case h_5 available => exact Option.some.inj h ▸ .recvApp available
  case h_6 got taken =>
    obtain ⟨htaken, hsome⟩ := of_ite_none h
    obtain rfl := not_not.mp htaken
    exact Option.some.inj hsome ▸ .recvAppAck got
  case h_7 records => exact Option.some.inj h ▸ .flush records
  case h_8 records now => exact Option.some.inj h ▸ .flushClock records now
  case h_9 records timeout direction timeout' polled =>
    obtain ⟨hpoll, hsome⟩ := of_ite_none h
    obtain ⟨hdirection, htimeout⟩ := not_or.mp hpoll
    obtain rfl := not_not.mp hdirection
    obtain rfl := not_not.mp htimeout
    exact Option.some.inj hsome ▸ .flushPoll records timeout' polled
  case h_10 records records' sent =>
    obtain ⟨hrecords, hsome⟩ := of_ite_none h
    obtain rfl := not_not.mp hrecords
    exact .flushSend records' sent hsome
  case h_11 records taken taken' =>
    obtain ⟨htaken, hsome⟩ := of_ite_none h
    obtain rfl := not_not.mp htaken
    exact Option.some.inj hsome ▸ .flushAck records taken'
  case h_12 room => exact Option.some.inj h ▸ .ingest room
  case h_13 room now => exact Option.some.inj h ▸ .ingestClock room now
  case h_14 room timeout direction timeout' polled =>
    obtain ⟨hpoll, hsome⟩ := of_ite_none h
    obtain ⟨hdirection, htimeout⟩ := not_or.mp hpoll
    obtain rfl := not_not.mp hdirection
    obtain rfl := not_not.mp htimeout
    exact Option.some.inj hsome ▸ .ingestPoll room timeout' polled
  case h_15 room room' received =>
    obtain ⟨hroom, hsome⟩ := of_ite_none h
    obtain rfl := not_not.mp hroom
    exact .ingestRecv room' received hsome
  case h_16 records records' =>
    obtain ⟨hrecords, hsome⟩ := of_ite_none h
    obtain rfl := not_not.mp hrecords
    exact Option.some.inj hsome ▸ .ingestAck records'
  case h_17 now => exact Option.some.inj h ▸ .shutdown now
  case h_18 => cases h

/-- A call of a connection with the state behind it. -/
inductive Step (config : Config) (s : State) : Event → State → Prop
  | refuse (h : s.point = .refusing) :
    Step config s .closeSocket { s with isOpen := false, point := .refused }
  | setup {point : SetupPoint} {e : SetupEvent} {outcome : SetupOutcome}
    (h : s.point = .setup point) (hstep : nextSetup config point e = some outcome) :
    Step config s (.setup e) (s.afterSetup config outcome)
  | io {job : Job} {pump : Pump} {e : IoEvent} {outcome : Outcome} (h : s.point = .pump job pump)
    (hstep : PumpStep s.phase job pump e outcome) :
    Step config s (.io e) (s.afterPump job outcome)
  | shut {result : TlsResult} (h : s.point = .shut result) :
    Step config s .closeSocket { s with isOpen := false, point := .returning result [] }
  | returns {result : TlsResult} {got : List UInt8} (h : s.point = .returning result got) :
    Step config s (.returns result got) { s with point := .idle }
  | refused (h : s.point = .refused) :
    Step config s (.returns .invalid []) { s with point := .gone }
  | call (h : s.point = .idle) (c : Call) : Step config s (.call c) (s.called c)

theorem step_of_next {config : Config} {s t : State} {e : Event} (h : next config s e = some t) :
    Step config s e t := by
  unfold next at h
  split at h
  case h_1 hpoint => exact Option.some.inj h ▸ .refuse hpoint
  case h_2 point e hpoint =>
    obtain ⟨outcome, hstep, rfl⟩ := Option.map_eq_some_iff.mp h
    exact .setup hpoint hstep
  case h_3 job pump e hpoint =>
    obtain ⟨outcome, hstep, rfl⟩ := Option.map_eq_some_iff.mp h
    exact .io hpoint (pumpStep_of_nextPump hstep)
  case h_4 result hpoint => exact Option.some.inj h ▸ .shut hpoint
  case h_5 result got result' got' hpoint =>
    obtain ⟨hreturn, hsome⟩ := of_ite_none h
    obtain ⟨hresult, hgot⟩ := not_or.mp hreturn
    obtain rfl := not_not.mp hresult
    obtain rfl := not_not.mp hgot
    exact Option.some.inj hsome ▸ .returns hpoint
  case h_6 result' got' hpoint =>
    obtain ⟨hreturn, hsome⟩ := of_ite_none h
    obtain ⟨hresult, hgot⟩ := not_or.mp hreturn
    obtain rfl := not_not.mp hresult
    obtain rfl := not_not.mp hgot
    exact Option.some.inj hsome ▸ .refused hpoint
  case h_7 c hpoint => exact Option.some.inj h ▸ .call hpoint c
  case h_8 => cases h

/-! ## Failures -/

theorem classifyEngine_ne_ok (phase : ℕ) (error : EngineError) :
    classifyEngine phase error ≠ .ok := by
  cases error with
  | other =>
    unfold classifyEngine
    split_ifs <;> decide
  | _ => simp [classifyEngine]

theorem ioTimeout_ne_ok (phase : ℕ) (direction : Direction) : ioTimeout phase direction ≠ .ok := by
  cases direction <;> unfold ioTimeout <;> split_ifs <;> decide

/-! ## Places and tasks -/

/-- The places of a loop that belong to one task only. -/
def Pump.Fits (task : Task) : Pump → Prop
  | .sendApp => ∃ left, task = .sendAll left
  | .sendAppAck chunk => ∃ left, task = .sendAll left ∧ chunk <+: left
  | .recvApp => ∃ cap, task = .recvSome cap
  | .recvAppAck _ => ∃ cap, task = .recvSome cap
  | .shutdown => task = .shutdown
  | _ => True

/-- The place behind a call belongs to its task, a handshake stays one and nothing else becomes one,
and only `cn_tls_recv_some` brings bytes. -/
def Outcome.Fits (task : Task) : Outcome → Prop
  | .goOn job pump => pump.Fits job.task ∧ (job.task = .handshake ↔ task = .handshake)
  | .ends _ got => got = [] ∨ ∃ cap, task = .recvSome cap

theorem fits_dispatch (job : Job) (flags : Flags) : (dispatch job flags).Fits job.task := by
  obtain ⟨task, deadline⟩ := job
  unfold dispatch
  by_cases hclosed : flags.closed
  · rw [if_pos hclosed]
    trivial
  · rw [if_neg hclosed]
    cases task with
    | shutdown => exact .inl rfl
    | sendAll left =>
      dsimp only
      split_ifs
      · exact ⟨⟨left, rfl⟩, Iff.rfl⟩
      · exact ⟨trivial, Iff.rfl⟩
      · exact .inl rfl
      · exact ⟨trivial, Iff.rfl⟩
      · exact .inl rfl
    | recvSome cap =>
      dsimp only
      split_ifs
      · exact ⟨⟨cap, rfl⟩, Iff.rfl⟩
      · exact ⟨trivial, Iff.rfl⟩
      · exact ⟨trivial, Iff.rfl⟩
      · exact .inl rfl
    | _ =>
      dsimp only
      split_ifs <;> first | exact ⟨trivial, Iff.rfl⟩ | exact .inl rfl

/-- **A call keeps to its task.** -/
theorem PumpStep.fits {phase : ℕ} {job : Job} {pump : Pump} {e : IoEvent} {outcome : Outcome}
    (h : PumpStep phase job pump e outcome) (hfits : pump.Fits job.task) :
    outcome.Fits job.task := by
  cases h with
  | head flags => exact fits_dispatch job flags
  | classify error => exact .inl rfl
  | sendApp room =>
    unfold afterSendappBuf
    split
    · rename_i left htask
      split_ifs
      · exact .inl rfl
      · exact ⟨⟨left, htask, List.take_prefix room left⟩, Iff.rfl⟩
    · exact .inl rfl
  | sendAppAck chunk =>
    obtain ⟨left, htask, -⟩ := hfits
    refine ⟨trivial, ?_⟩
    unfold Job.advance Task.sending
    rw [htask]
    dsimp only
    split_ifs <;> simp
  | recvApp available =>
    unfold afterRecvappBuf
    split
    · rename_i cap htask
      split_ifs
      · exact .inl rfl
      · exact ⟨⟨cap, htask⟩, Iff.rfl⟩
    · exact .inl rfl
  | recvAppAck got => exact .inr hfits
  | flush records =>
    unfold flushed
    split_ifs <;> first | exact ⟨trivial, Iff.rfl⟩ | exact .inl rfl
  | flushClock records now => split_ifs <;> first | exact ⟨trivial, Iff.rfl⟩ | exact .inl rfl
  | flushPoll records timeout polled =>
    cases polled with
    | revents wanted hangup invalid =>
      unfold afterFlushPoll
      dsimp only
      split_ifs <;> first | exact ⟨trivial, Iff.rfl⟩ | exact .inl rfl
    | interrupted => exact ⟨trivial, Iff.rfl⟩
    | _ => exact .inl rfl
  | flushSend records sent hsent =>
    cases sent with
    | took n =>
      obtain ⟨-, hsent⟩ := of_ite_none hsent
      split_ifs at hsent
      · exact Option.some.inj hsent ▸ .inl rfl
      · exact Option.some.inj hsent ▸ ⟨trivial, Iff.rfl⟩
    | again => exact Option.some.inj hsent ▸ ⟨trivial, Iff.rfl⟩
    | failed => exact Option.some.inj hsent ▸ .inl rfl
  | flushAck records taken => exact ⟨trivial, Iff.rfl⟩
  | ingest room => split_ifs <;> exact ⟨trivial, Iff.rfl⟩
  | ingestClock room now => split_ifs <;> first | exact ⟨trivial, Iff.rfl⟩ | exact .inl rfl
  | ingestPoll room timeout polled =>
    cases polled with
    | revents wanted hangup invalid =>
      unfold afterIngestPoll
      dsimp only
      split_ifs <;> first | exact ⟨trivial, Iff.rfl⟩ | exact .inl rfl
    | interrupted => exact ⟨trivial, Iff.rfl⟩
    | _ => exact .inl rfl
  | ingestRecv room received hreceived =>
    cases received with
    | bytes got =>
      obtain ⟨-, hreceived⟩ := of_ite_none hreceived
      split_ifs at hreceived
      · exact Option.some.inj hreceived ▸ .inl rfl
      · exact Option.some.inj hreceived ▸ ⟨trivial, Iff.rfl⟩
    | again => exact Option.some.inj hreceived ▸ ⟨trivial, Iff.rfl⟩
    | failed => exact Option.some.inj hreceived ▸ .inl rfl
  | ingestAck records => exact ⟨trivial, Iff.rfl⟩
  | shutdown now => exact ⟨trivial, Iff.rfl⟩

/-! ## Receiving, turn by turn -/

section Receiving

variable {phase cap : ℕ} {result : TlsResult} {got : List UInt8}

/-- `recvSome` gives this answer in these turns. -/
def Gives (phase cap : ℕ) (result : TlsResult) (got : List UInt8) (turns : List EngineTurn) : Prop :=
  (recvSome phase cap turns).1 = ⟨got, result, result = .closed⟩

/-- From this place of the loop there are turns with the answer: a place in `io_flush_out` or in
`io_ingest_in` is in the middle of one. Places of other tasks are not reached. -/
def Pump.Gathers (phase cap : ℕ) (result : TlsResult) (got : List UInt8) : Pump → Prop
  | .head | .ingestAck _ => ∃ turns, Gives phase cap result got turns
  | .classify => ∃ error, Gives phase cap result got [.closed error]
  | .recvApp => ∃ available, Gives phase cap result got [.recvApp available]
  | .recvAppAck taken => result = .ok ∧ got = taken
  | .flush | .flushClock _ | .flushPoll _ _ | .flushSend _ | .flushAck _ _ =>
    ∃ flush turns, Gives phase cap result got (.sendRec flush :: turns)
  | .ingest | .ingestClock _ | .ingestPoll _ _ | .ingestRecv _ =>
    ∃ ingest turns, Gives phase cap result got (.recvRec ingest :: turns)
  | .sendApp | .sendAppAck _ | .shutdown => True

/-- The same behind a call. -/
def Outcome.Gathers (phase cap : ℕ) (result : TlsResult) (got : List UInt8) : Outcome → Prop
  | .goOn job pump =>
    ∀ deadline, job = ⟨.recvSome cap, deadline⟩ → pump.Gathers phase cap result got
  | .ends result' got' => result = result' ∧ got = got'

theorem gives_recvApp {available : List UInt8} (h : available.take cap ≠ []) :
    Gives phase cap .ok (available.take cap) [.recvApp available] := by
  unfold Gives
  rw [recvSome, if_neg h]
  rfl

theorem gives_noRoom {available : List UInt8} (h : available.take cap = []) :
    Gives phase cap .internal [] [.recvApp available] := by
  unfold Gives
  rw [recvSome, if_pos h]
  rfl

theorem gives_flush (flush : List IoTurn) (hok : ioFlushOut phase flush ≠ .ok) :
    Gives phase cap (ioFlushOut phase flush) [] [.sendRec flush] := by
  have hclosed := ioFlushOut_ne_closed phase flush
  unfold Gives
  rw [recvSome]
  split
  · exact absurd ‹_› hok
  · simp [failed, hclosed]

theorem gives_ingest (ingest : List IoTurn) (hok : ioIngestIn phase ingest ≠ .ok) :
    Gives phase cap (ioIngestIn phase ingest) [] [.recvRec ingest] := by
  have hclosed := ioIngestIn_ne_closed phase ingest
  unfold Gives
  rw [recvSome]
  split
  · exact absurd ‹_› hok
  · simp [failed, hclosed]

theorem gathers_dispatch {deadline : ℤ} {flags : Flags}
    (h : (dispatch ⟨.recvSome cap, deadline⟩ flags).Gathers phase cap result got) :
    ∃ turns, Gives phase cap result got turns := by
  unfold dispatch at h
  by_cases hclosed : flags.closed = true
  · rw [if_pos hclosed] at h
    obtain ⟨error, hgives⟩ := h deadline rfl
    exact ⟨_, hgives⟩
  rw [if_neg hclosed] at h
  dsimp only at h
  split_ifs at h
  · obtain ⟨available, hgives⟩ := h deadline rfl
    exact ⟨_, hgives⟩
  · obtain ⟨flush, turns, hgives⟩ := h deadline rfl
    exact ⟨_, hgives⟩
  · obtain ⟨ingest, turns, hgives⟩ := h deadline rfl
    exact ⟨_, hgives⟩
  · obtain ⟨rfl, rfl⟩ := h
    exact ⟨[.stuck], rfl⟩

theorem gathers_flushPoll {deadline : ℤ} {records : List UInt8} {polled : Polled}
    (h : (afterFlushPoll phase ⟨.recvSome cap, deadline⟩ records polled).Gathers phase cap result got) :
    ∃ flush turns, Gives phase cap result got (.sendRec flush :: turns) := by
  cases polled with
  | timedOut =>
    obtain ⟨rfl, rfl⟩ := h
    exact ⟨_, _, gives_flush [.timeout] (ioTimeout_ne_ok phase .output)⟩
  | interrupted =>
    obtain ⟨flush, turns, hgives⟩ := h deadline rfl
    exact ⟨.interrupted :: flush, turns, hgives⟩
  | failed =>
    obtain ⟨rfl, rfl⟩ := h
    exact ⟨_, _, gives_flush [.pollFailed] nofun⟩
  | revents wanted hangup invalid =>
    unfold afterFlushPoll at h
    dsimp only at h
    split_ifs at h
    · obtain ⟨rfl, rfl⟩ := h
      exact ⟨_, _, gives_flush [.broken] nofun⟩
    · exact h deadline rfl

theorem gathers_flushSend {deadline : ℤ} {records : List UInt8} {sent : Sent} {outcome : Outcome}
    (hsent : afterSend ⟨.recvSome cap, deadline⟩ records sent = some outcome)
    (h : outcome.Gathers phase cap result got) :
    ∃ flush turns, Gives phase cap result got (.sendRec flush :: turns) := by
  cases sent with
  | took n =>
    obtain ⟨-, hsent⟩ := of_ite_none hsent
    split_ifs at hsent
    · obtain rfl := Option.some.inj hsent
      obtain ⟨rfl, rfl⟩ := h
      exact ⟨_, _, gives_flush [.failed] nofun⟩
    · obtain rfl := Option.some.inj hsent
      exact h deadline rfl
  | again =>
    obtain rfl := Option.some.inj hsent
    obtain ⟨flush, turns, hgives⟩ := h deadline rfl
    exact ⟨.again :: flush, turns, hgives⟩
  | failed =>
    obtain rfl := Option.some.inj hsent
    obtain ⟨rfl, rfl⟩ := h
    exact ⟨_, _, gives_flush [.failed] nofun⟩

theorem gathers_ingestPoll {deadline : ℤ} {room : ℕ} {polled : Polled}
    (h : (afterIngestPoll phase ⟨.recvSome cap, deadline⟩ room polled).Gathers phase cap result got) :
    ∃ ingest turns, Gives phase cap result got (.recvRec ingest :: turns) := by
  cases polled with
  | timedOut =>
    obtain ⟨rfl, rfl⟩ := h
    exact ⟨_, _, gives_ingest [.timeout] (ioTimeout_ne_ok phase .input)⟩
  | interrupted =>
    obtain ⟨ingest, turns, hgives⟩ := h deadline rfl
    exact ⟨.interrupted :: ingest, turns, hgives⟩
  | failed =>
    obtain ⟨rfl, rfl⟩ := h
    exact ⟨_, _, gives_ingest [.pollFailed] nofun⟩
  | revents wanted hangup invalid =>
    unfold afterIngestPoll at h
    dsimp only at h
    split_ifs at h
    · obtain ⟨rfl, rfl⟩ := h
      exact ⟨_, _, gives_ingest [.broken] nofun⟩
    · exact h deadline rfl

theorem gathers_ingestRecv {deadline : ℤ} {room : ℕ} {received : Received} {outcome : Outcome}
    (hreceived : afterRecv ⟨.recvSome cap, deadline⟩ room received = some outcome)
    (h : outcome.Gathers phase cap result got) :
    ∃ ingest turns, Gives phase cap result got (.recvRec ingest :: turns) := by
  cases received with
  | bytes bytes =>
    obtain ⟨-, hreceived⟩ := of_ite_none hreceived
    split_ifs at hreceived
    · obtain rfl := Option.some.inj hreceived
      obtain ⟨rfl, rfl⟩ := h
      exact ⟨_, _, gives_ingest [.failed] nofun⟩
    · obtain rfl := Option.some.inj hreceived
      obtain ⟨turns, hgives⟩ := h deadline rfl
      exact ⟨[.moved], turns, hgives⟩
  | again =>
    obtain rfl := Option.some.inj hreceived
    obtain ⟨ingest, turns, hgives⟩ := h deadline rfl
    exact ⟨.again :: ingest, turns, hgives⟩
  | failed =>
    obtain rfl := Option.some.inj hreceived
    obtain ⟨rfl, rfl⟩ := h
    exact ⟨_, _, gives_ingest [.failed] nofun⟩

/-- A call of `cn_tls_recv_some` belongs to a turn. -/
theorem PumpStep.gathers {deadline : ℤ} {pump : Pump} {e : IoEvent} {outcome : Outcome}
    (h : PumpStep phase ⟨.recvSome cap, deadline⟩ pump e outcome)
    (hrest : outcome.Gathers phase cap result got) : pump.Gathers phase cap result got := by
  cases h with
  | head flags => exact gathers_dispatch hrest
  | classify error =>
    obtain ⟨rfl, rfl⟩ := hrest
    exact ⟨error, rfl⟩
  | sendApp | sendAppAck | shutdown => trivial
  | recvApp available =>
    unfold afterRecvappBuf at hrest
    dsimp only at hrest
    split_ifs at hrest with hnone
    · obtain ⟨rfl, rfl⟩ := hrest
      exact ⟨available, gives_noRoom hnone⟩
    · obtain ⟨rfl, rfl⟩ := hrest deadline rfl
      exact ⟨available, gives_recvApp hnone⟩
  | recvAppAck taken => exact hrest
  | flush records =>
    split_ifs at hrest
    · obtain ⟨turns, hgives⟩ := hrest deadline rfl
      exact ⟨[.idle], turns, hgives⟩
    · exact hrest deadline rfl
  | flushClock records now =>
    split_ifs at hrest
    · obtain ⟨rfl, rfl⟩ := hrest
      exact ⟨_, _, gives_flush [.timeout] (ioTimeout_ne_ok phase .output)⟩
    · exact hrest deadline rfl
  | flushPoll records timeout polled => exact gathers_flushPoll hrest
  | flushSend records sent hsent => exact gathers_flushSend hsent hrest
  | flushAck records taken =>
    obtain ⟨flush, turns, hgives⟩ := hrest deadline rfl
    exact ⟨.moved :: flush, turns, hgives⟩
  | ingest room =>
    split_ifs at hrest
    · obtain ⟨turns, hgives⟩ := hrest deadline rfl
      exact ⟨[.idle], turns, hgives⟩
    · exact hrest deadline rfl
  | ingestClock room now =>
    split_ifs at hrest
    · obtain ⟨rfl, rfl⟩ := hrest
      exact ⟨_, _, gives_ingest [.timeout] (ioTimeout_ne_ok phase .input)⟩
    · exact hrest deadline rfl
  | ingestPoll room timeout polled => exact gathers_ingestPoll hrest
  | ingestRecv room received hreceived => exact gathers_ingestRecv hreceived hrest
  | ingestAck records => exact hrest deadline rfl

/-- The calls of `cn_tls_recv_some` from a place of its loop on. -/
theorem gathers_of_run {config : Config} {s t : State} {pump : Pump} {deadline : ℤ}
    (hs : s.point = .pump ⟨.recvSome cap, deadline⟩ pump) {events : List IoEvent}
    (hrun : EventMachine.run (next config) s (events.map .io) = some t)
    (ht : t.point = .returning result got) : pump.Gathers s.phase cap result got := by
  induction events generalizing s pump deadline with
  | nil =>
    obtain rfl := Option.some.inj hrun
    rw [hs] at ht
    cases ht
  | cons e events ih =>
    obtain ⟨s', hnext, hrest⟩ := EventMachine.run_cons_eq_some hrun
    cases step_of_next hnext with
    | io hpoint hstep =>
      rename_i job pump' outcome
      obtain ⟨rfl, rfl⟩ := Point.pump.inj (hs.symm.trans hpoint)
      refine hstep.gathers ?_
      cases outcome with
      | goOn job' pump' =>
        rintro deadline' rfl
        exact ih (s := { s with point := .pump ⟨.recvSome cap, deadline'⟩ pump' }) rfl hrest
      | ends result' got' =>
        -- no call of the loop follows its return
        cases events with
        | nil =>
          obtain rfl := Option.some.inj hrest
          obtain ⟨rfl, rfl⟩ := Point.returning.inj ht
          exact ⟨rfl, rfl⟩
        | cons e' events =>
          obtain ⟨_, hnone, -⟩ := EventMachine.run_cons_eq_some hrest
          cases hnone

/-- **The loop of `cn_tls_recv_some` is `recvSome`**: what it returns after its calls, `recvSome`
returns in some turns. -/
theorem recvSome_of_run {config : Config} {s t : State} {deadline : ℤ}
    (hs : s.point = .pump ⟨.recvSome cap, deadline⟩ .head) {events : List IoEvent}
    (hrun : EventMachine.run (next config) s (events.map .io) = some t)
    (ht : t.point = .returning result got) :
    ∃ turns, (recvSome s.phase cap turns).1 = ⟨got, result, result = .closed⟩ :=
  gathers_of_run hs hrun ht

end Receiving

/-! ## What the events carry -/

/-- What a list of events carries. -/
abbrev collect {α : Type} (carried : Event → List α) (events : List Event) : List α :=
  events.flatMap carried

theorem collect_snoc {α : Type} (carried : Event → List α) (events : List Event) (e : Event) :
    collect carried (events ++ [e]) = collect carried events ++ carried e := by
  unfold collect
  rw [List.flatMap_append, List.flatMap_singleton]

/-! ## A run -/

/-- A configuration. -/
def sampleConfig : Config := ⟨some [0x2f], some [0x2f], [0x61], 1000⟩

/-- The anchor of the one certificate in the file. -/
def sampleAnchor : Anchor := ⟨[9], true, .ec 23 [4]⟩

/-- The engine is ready for data. -/
def sampleReady : Flags := ⟨false, false, false, true, false⟩

/-- A connection that is opened, sends two bytes in two pieces, receives two and is closed. -/
def sampleRun : List Event := [
  .setup (.getFlags true), .setup (.setFlags true), .setup (.openCa [0x2f] true),
  .setup (.readCa 65536 (.bytes [1])), .setup (.readCa 65535 (.bytes [])),
  .setup (.pemPush [1] 1 [] (.beginObj (Bytes.ascii "CERTIFICATE"))),
  .setup (.pemPush [0x0a] 1 [[7]] .endObj),
  .setup (.decode [7] ⟨0, [[9]], some (.ec 23 [4]), true⟩), .setup (.wall 86401),
  .setup (.openEntropy [0x2f] true),
  .setup (.readEntropy 32 (.bytes (List.replicate 32 5))),
  .setup (.reset ⟨[sampleAnchor], 719529, 1, List.replicate 32 5, [0x61]⟩ true),
  .io (.currentState ⟨false, true, false, false, false⟩), .io (.sendrecBuf [22]),
  .io (.monotonic 0), .io (.poll .output 1000 (.revents true false false)),
  .io (.send [22] (.took 1)), .io (.sendrecAck 1), .io (.sendrecBuf []),
  .io (.currentState ⟨false, false, true, false, false⟩), .io (.recvrecBuf 5),
  .io (.monotonic 1), .io (.poll .input 999 (.revents true false false)),
  .io (.recv 5 (.bytes [22, 3])), .io (.recvrecAck [22, 3]), .io (.currentState sampleReady),
  .returns .ok [],
  .call (.sendAll [1, 2] 1000), .io (.currentState sampleReady), .io (.sendappBuf 1),
  .io (.sendappAck [1]), .io (.currentState sampleReady), .io (.sendappBuf 1),
  .io (.sendappAck [2]), .io (.currentState ⟨false, true, false, true, false⟩),
  .io (.sendrecBuf [23, 24]), .io (.monotonic 2),
  .io (.poll .output 998 (.revents true false false)), .io (.send [23, 24] (.took 1)),
  .io (.sendrecAck 1), .io (.sendrecBuf [24]), .io (.monotonic 3),
  .io (.poll .output 997 (.revents true false false)), .io (.send [24] (.took 1)),
  .io (.sendrecAck 1), .io (.sendrecBuf []), .io (.currentState sampleReady), .returns .ok [],
  .call (.recvSome 4 1000), .io (.currentState ⟨false, false, false, false, true⟩),
  .io (.recvappBuf [5, 6]), .io (.recvappAck 2), .returns .ok [5, 6],
  .call .close, .io (.monotonic 4), .io (.sendrecBuf []), .closeSocket, .returns .ok []]

theorem run_sampleRun : EventMachine.run (next sampleConfig) (.start sampleConfig) sampleRun =
    some ⟨1, false, .idle⟩ := by
  decide +kernel

end TlsSimple
