import CrossNook.Text.Lines

/-!
# HTTP messages

The texts of the bounded HTTP/1.0 client (`net/netsimple.c`): the request it builds, the status
line and the header block of a response, and the framing of a response by `Content-Length`. The
arguments that every caller takes from a buffer of its own are never `NULL` here.

## Main definitions

* `NetSimple.Request`: `cn_netsimple_request`
* `NetSimple.buildExchangeRequest`: `cn_netsimple_build_exchange_request`
* `NetSimple.parseStatus`: `cn_netsimple_parse_status`
* `NetSimple.responseContentLength`: `response_content_length`
-/

namespace NetSimple

open Bytes (ascii IsDigit digitValue decimal)

/-- `CN_NETSIMPLE_HOST_MAX`. -/
def hostMax : ℕ := 255

/-- `CN_NETSIMPLE_PORT_MAX_TEXT`. -/
def portMaxText : ℕ := 8

/-- `CN_NETSIMPLE_PATH_MAX`. -/
def pathMax : ℕ := 2048

/-- `CN_NETSIMPLE_REQUEST_MAX`. -/
def requestMax : ℕ := 4096

/-- `CN_NETSIMPLE_RESPONSE_MAX`. -/
def responseMax : ℕ := 65536

/-- `CN_NETSIMPLE_HEADER_MAX`. -/
def headerMax : ℕ := 8

/-- `SIZE_MAX`. -/
def sizeMax : ℕ := 2 ^ 32 - 1

/-- `cn_netsimple_method`. -/
inductive Method
  | get
  | put
  deriving DecidableEq, Repr

/-- `cn_netsimple_result`. -/
inductive Result
  | ok
  | invalid
  | resolveError
  | connectRefused
  | networkUnreachable
  | hostUnreachable
  | connectTimeout
  | connectError
  | sendError
  | recvError
  | recvTimeout
  | truncated
  | badResponse
  | sendTimeout
  | tlsEntropyFailed
  | tlsInvalidCa
  | tlsHandshakeFailed
  | tlsHandshakeTimeout
  | tlsTrustFailed
  | tlsHostnameMismatch
  | tlsCertTimeFailed
  | tlsCertInvalid
  | tlsProtocolFailed
  | tlsInternal
  | tlsRecvTimeout
  deriving DecidableEq, Repr

/-- `cn_netsimple_header`. -/
structure Header where
  name : List UInt8
  value : List UInt8
  deriving DecidableEq, Repr

/-- `cn_netsimple_request`; `tls` tells whether a TLS configuration is given. -/
structure Request where
  method : Method
  host : List UInt8
  connectHost : Option (List UInt8)
  port : List UInt8
  path : List UInt8
  headers : List Header
  contentType : Option (List UInt8)
  body : Option (List UInt8)
  tls : Bool
  deriving DecidableEq, Repr

/-- `cn_netsimple_response`. -/
structure Response where
  status : ℕ
  headerBytes : ℕ
  bodyBytes : ℕ
  totalBytes : ℕ
  statusText : List UInt8
  deriving DecidableEq, Repr

/-- The response that `memset` leaves. -/
def Response.zero : Response := ⟨0, 0, 0, 0, []⟩

/-! ## Requests -/

/-- The loop of `cn_netsimple_parse_ipv4`: the octets before the current one, its value and
whether it has a digit. -/
def parseIpv4Loop (octets : List ℕ) (current : ℕ) (started : Bool) :
    List UInt8 → Option (List ℕ)
  | [] => if octets.length ≠ 3 ∨ ¬ started then none else some (octets ++ [current])
  | c :: text =>
    if IsDigit c then
      if 255 < current ∨ 255 < current * 10 + digitValue c then none
      else parseIpv4Loop octets (current * 10 + digitValue c) true text
    else if c = 0x2e ∧ octets.length < 3 ∧ started then
      parseIpv4Loop (octets ++ [current]) 0 false text
    else none

/-- `cn_netsimple_parse_ipv4`. -/
def parseIpv4 (text : List UInt8) : Option (List ℕ) := parseIpv4Loop [] 0 false text

/-- The loop of `cn_netsimple_parse_port`. -/
def parsePortLoop (digits value : ℕ) : List UInt8 → Option (ℕ × ℕ)
  | [] => some (digits, value)
  | c :: text =>
    if ¬ IsDigit c ∨ portMaxText ≤ digits ∨ 65535 < value * 10 + digitValue c then none
    else parsePortLoop (digits + 1) (value * 10 + digitValue c) text

/-- `cn_netsimple_parse_port`. -/
def parsePort (text : List UInt8) : Option ℕ :=
  match parsePortLoop 0 0 text with
  | none => none
  | some (digits, value) => if digits = 0 ∨ value < 1 then none else some value

/-- `host_text_ok`. -/
def hostTextOk (host : List UInt8) : Bool :=
  host ≠ [] ∧ host.length ≤ hostMax ∧
    ∀ c ∈ host, ¬ (c ≤ 0x20 ∨ c = 0x7f ∨ c = 0x2f ∨ c = 0x5c)

/-- `cn_netsimple_validate`. -/
def validate (host port path : List UInt8) : Bool :=
  hostTextOk host ∧ (parsePort port).isSome ∧ path.head? = some 0x2f ∧ path.length ≤ pathMax ∧
    ∀ c ∈ path, ¬ (c ≤ 0x20 ∨ c = 0x7f ∨ c = 0x5c)

/-- `header_name_ok`. -/
def headerNameOk (name : List UInt8) : Bool :=
  name ≠ [] ∧ name.length ≤ 63 ∧
    ∀ c ∈ name, (0x61 ≤ c ∧ c ≤ 0x7a) ∨ (0x41 ≤ c ∧ c ≤ 0x5a) ∨ (0x30 ≤ c ∧ c ≤ 0x39) ∨ c = 0x2d

/-- `header_value_ok`. -/
def headerValueOk (value : List UInt8) : Bool :=
  value.length ≤ 2048 ∧ ∀ c ∈ value, ¬ (c < 0x20 ∨ c = 0x7f)

/-- `append_text` on a buffer of `cap` bytes. -/
def appendText (cap : ℕ) (request text : List UInt8) : Option (List UInt8) :=
  if cap ≤ request.length ∨ cap - request.length ≤ text.length then none
  else some (request ++ text)

/-- A chain of `append_text` calls. -/
def appendTexts (cap : ℕ) (request : List UInt8) (texts : List (List UInt8)) :
    Option (List UInt8) :=
  texts.foldlM (appendText cap) request

/-- The name of a method in the request line. -/
def Method.text : Method → List UInt8
  | .get => ascii "GET"
  | .put => ascii "PUT"

/-- The checks of `cn_netsimple_build_exchange_request` on the body and its type. -/
def bodyOk (spec : Request) : Bool :=
  match spec.method with
  | .get => spec.body = none ∧ spec.contentType = none
  | .put =>
    match spec.body, spec.contentType with
    | some _, some contentType => headerValueOk contentType
    | _, _ => false

/-- The texts of the header block in the order in which they are appended. -/
def requestTexts (spec : Request) : List (List UInt8) :=
  [spec.method.text, ascii " ", spec.path, ascii " HTTP/1.0\r\nHost: ", spec.host] ++
    (if (spec.tls ∧ spec.port ≠ ascii "443") ∨ (¬ spec.tls ∧ spec.port ≠ ascii "80") then
      [ascii ":", spec.port] else []) ++
    [ascii "\r\n"] ++
    spec.headers.flatMap (fun header => [header.name, ascii ": ", header.value, ascii "\r\n"]) ++
    (if spec.method = .put then
      [ascii "Content-Type: ", spec.contentType.getD [], ascii "\r\n",
        ascii "Content-Length: " ++ decimal (spec.body.getD []).length ++ ascii "\r\n"]
    else []) ++
    [ascii "\r\n"]

/-- `cn_netsimple_build_exchange_request`; `none` is `CN_NETSIMPLE_INVALID`. -/
def buildExchangeRequest (spec : Request) (requestCap : ℕ) : Option (List UInt8) :=
  if requestCap = 0 ∨ ¬ validate spec.host spec.port spec.path ∨
      (∃ host ∈ spec.connectHost, ¬ hostTextOk host) ∨ headerMax < spec.headers.length ∨
      ¬ bodyOk spec ∨
      ¬ (∀ header ∈ spec.headers, headerNameOk header.name ∧ headerValueOk header.value) then none
  else appendTexts requestCap [] (requestTexts spec)

/-! ## Responses -/

/-- A blank of a status line. -/
abbrev IsBlank (c : UInt8) : Prop := c = 0x20 ∨ c = 0x09

/-- The index of the first place where `pattern` starts. -/
def indexOf (pattern : List UInt8) : List UInt8 → Option ℕ
  | [] => if pattern = [] then some 0 else none
  | c :: text =>
    if pattern <+: c :: text then some 0 else (indexOf pattern text).map (· + 1)

/-- `parse_code` on the text from `*pos`: the code and the text after it. -/
def parseCode (text : List UInt8) : Option (ℕ × List UInt8) :=
  match Bytes.skip IsBlank text with
  | a :: b :: c :: rest =>
    if IsDigit a ∧ IsDigit b ∧ IsDigit c then
      some (digitValue a * 100 + digitValue b * 10 + digitValue c, Bytes.skip IsBlank rest)
    else none
  | _ => none

/-- The version in the status line, after `HTTP/`: the text after it. -/
def parseVersion : List UInt8 → Option (List UInt8)
  | major :: dot :: minor :: rest =>
    if IsDigit major ∧ dot = 0x2e ∧ IsDigit minor then
      let rest :=
        match rest with
        | c :: rest' => if IsDigit c then rest' else rest
        | [] => []
      if rest.head? = some 0x20 ∨ rest.head? = some 0x09 ∨ rest.head? = some 0x0d then some rest
      else none
    else none
  | _ => none

/-- The number of bytes up to the end of the header block of `buf`. -/
def headerBlock (buf : List UInt8) : ℕ :=
  let crlfcrlf := (indexOf (ascii "\r\n\r\n") buf).getD buf.length
  let lflf := (indexOf (ascii "\n\n") buf).getD buf.length
  let headerBytes :=
    if crlfcrlf = buf.length ∧ lflf = buf.length then buf.length
    else if crlfcrlf ≤ lflf then crlfcrlf + 4
    else lflf + 2
  min headerBytes buf.length

/-- `cn_netsimple_parse_status`; `none` is `CN_NETSIMPLE_BAD_RESPONSE`. -/
def parseStatus (buf : List UInt8) : Option Response :=
  -- line breaks in front of the status line are passed over
  let text := Bytes.skip (fun c => c = 0x0d ∨ c = 0x0a) buf
  if ¬ ascii "HTTP/" <+: text then none
  else
    match parseVersion (text.drop 5) with
    | none => none
    | some rest =>
      match parseCode rest with
      | none => none
      | some (code, codeText) =>
        some
          { status := code
            headerBytes := headerBlock buf
            bodyBytes := buf.length - headerBlock buf
            totalBytes := buf.length
            statusText := Bytes.scan (fun c => c ≠ 0x0d ∧ c ≠ 0x0a) codeText }

/-- What `response_content_length` reports: a malformed length, incomplete headers, complete
headers without a length, or the size of the response. -/
inductive Framing
  | malformed
  | incomplete
  | unframed
  | framed (expected : ℕ)
  deriving DecidableEq, Repr

/-- An ASCII letter in lower case. -/
def toLower (c : UInt8) : UInt8 := if 0x41 ≤ c ∧ c ≤ 0x5a then c - 0x41 + 0x61 else c

/-- The digits of a length in the arithmetic of `size_t`: the value and the rest. -/
def lengthDigits (value : ℕ) : List UInt8 → Option (ℕ × List UInt8)
  | [] => some (value, [])
  | c :: text =>
    if IsDigit c then
      if (sizeMax - digitValue c) / 10 < value then none
      else lengthDigits ((value * 10 + digitValue c) % (sizeMax + 1)) text
    else some (value, c :: text)

/-- One header line in the loop of `response_content_length`, after the length that an earlier
line gave; `none` is the exit with `-1`. -/
def contentLengthLine (found : Option ℕ) (line : List UInt8) : Option (Option ℕ) :=
  let name := Bytes.scan (· ≠ 0x3a) line
  if name.map toLower = ascii "content-length" then
    let text := Bytes.skip IsBlank (line.drop (name.length + 1))
    match lengthDigits 0 text with
    | none => none
    | some (value, rest) =>
      if rest.length = text.length ∨ Bytes.skip (fun c => IsBlank c ∨ c = 0x0d) rest ≠ [] ∨
          found.isSome then none
      else some (some value)
  else some found

/-- The lines of a header block without their line feeds. -/
def headerLines : List UInt8 → List (List UInt8)
  | [] => []
  | c :: text =>
    if c = 0x0a then [] :: headerLines text
    else
      match headerLines text with
      | [] => [[c]]
      | line :: lines => (c :: line) :: lines

/-- `response_content_length`. The first line is the status line. -/
def responseContentLength (buf : List UInt8) : Framing :=
  match indexOf (ascii "\r\n\r\n") buf with
  | none => .incomplete
  | some 0 => .incomplete
  | some (headerEnd + 1) =>
    match (headerLines (buf.take (headerEnd + 1))).tail.foldlM contentLengthLine none with
    | none => .malformed
    | some none => .unframed
    | some (some contentLength) =>
      let bodyOffset := headerEnd + 1 + 4
      if sizeMax - bodyOffset < contentLength then .malformed
      else .framed ((bodyOffset + contentLength) % (sizeMax + 1))

end NetSimple
