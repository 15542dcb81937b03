import CrossNook.Net.Message

/-!
# The lines of a request

What `cn_netsimple_build_exchange_request` writes, said line by line. The texts of a request pass
through three validators and are appended one after another to a bounded buffer; together these
leave no room for a line break of the caller's.

## Main definitions

* `NetSimple.buildExchangeRequestIn`: `cn_netsimple_build_exchange_request` on its buffer
* `NetSimple.requestLines spec`: the lines of a request
* `NetSimple.Wrote spec buffer result`: a buffer holds exactly the lines of a request

## Main results

* `NetSimple.buildExchangeRequestIn_eq`: the buffer holds the request of `buildExchangeRequest`
* `NetSimple.exchangeRequest_lines`: an accepted request is its lines, and nothing else is accepted
-/

namespace NetSimple

open Bytes (ascii IsDigit digitValue decimal)

/-! ## Appending in a buffer -/

/-- `append_text` in the buffer `request` of which `used` bytes are used. -/
def appendTextIn (state : List UInt8 × ℕ) (text : List UInt8) : Option (List UInt8 × ℕ) :=
  let (request, used) := state
  if request.length ≤ used ∨ request.length - used ≤ text.length then none
  else some (request.take used ++ text ++ 0 :: request.drop (used + text.length + 1),
    used + text.length)

/-- `cn_netsimple_build_exchange_request` in the buffer `request`: the buffer it leaves and
`*request_len`. -/
def buildExchangeRequestIn (spec : Request) (request : List UInt8) : Option (List UInt8 × ℕ) :=
  if request.length = 0 ∨ ¬ validate spec.host spec.port spec.path ∨
      (∃ host ∈ spec.connectHost, ¬ hostTextOk host) ∨ headerMax < spec.headers.length ∨
      ¬ bodyOk spec ∨
      ¬ (∀ header ∈ spec.headers, headerNameOk header.name ∧ headerValueOk header.value) then none
  else (requestTexts spec).foldlM appendTextIn (request.set 0 0, 0)

/-- A buffer that holds a text and its terminator. -/
def held (buffer text : List UInt8) : List UInt8 × ℕ :=
  (text ++ 0 :: buffer.drop (text.length + 1), text.length)

theorem length_held {buffer text : List UInt8} (h : text.length < buffer.length) :
    (held buffer text).1.length = buffer.length := by
  rw [held, List.length_append, List.length_cons, List.length_drop]
  omega

/-- A text is appended in the buffer as it is appended to the text in the buffer. -/
theorem appendTextIn_held {buffer used : List UInt8} (h : used.length < buffer.length)
    (text : List UInt8) :
    appendTextIn (held buffer used) text = (appendText buffer.length used text).map (held buffer) := by
  have hlen := length_held h
  unfold appendTextIn appendText
  simp only [hlen, show (held buffer used).2 = used.length from rfl]
  by_cases hfull : buffer.length ≤ used.length ∨ buffer.length - used.length ≤ text.length
  · rw [if_pos hfull, if_pos hfull, Option.map_none]
  · rw [if_neg hfull, if_neg hfull, Option.map_some, held, held, List.take_left' rfl,
      Nat.add_assoc used.length, List.drop_length_add_append, List.drop_succ_cons, List.drop_drop,
      List.length_append]
    have hsum : used.length + 1 + text.length = used.length + text.length + 1 := by omega
    rw [hsum]

/-- **Appending keeps to the buffer**: the texts that fit are appended, and others are refused. -/
theorem appendTexts_eq {cap : ℕ} {request : List UInt8} (h : request.length < cap)
    (texts : List (List UInt8)) :
    appendTexts cap request texts =
      if (request ++ texts.flatten).length < cap then some (request ++ texts.flatten)
      else none := by
  unfold appendTexts
  induction texts generalizing request with
  | nil => simp [h]
  | cons text texts ih =>
    rw [List.foldlM_cons, List.flatten_cons, ← List.append_assoc, appendText]
    have hlen : (request ++ text).length = request.length + text.length := List.length_append
    by_cases hfull : cap ≤ request.length ∨ cap - request.length ≤ text.length
    · -- what is appended later does not shorten the text
      have hlonger : ¬ (request ++ text ++ texts.flatten).length < cap := by
        rw [List.length_append, hlen]
        omega
      rw [if_pos hfull, if_neg hlonger]
      rfl
    · rw [if_neg hfull]
      exact ih (by omega)

theorem foldlM_appendTextIn {buffer used : List UInt8} (h : used.length < buffer.length)
    (texts : List (List UInt8)) :
    texts.foldlM appendTextIn (held buffer used) =
      (appendTexts buffer.length used texts).map (held buffer) := by
  unfold appendTexts
  induction texts generalizing used with
  | nil => rfl
  | cons text texts ih =>
    rw [List.foldlM_cons, List.foldlM_cons, appendTextIn_held h]
    cases happend : appendText buffer.length used text with
    | none => rfl
    | some used' =>
      have hfits : used'.length < buffer.length := by
        rw [appendText] at happend
        split_ifs at happend with hfull
        obtain rfl := Option.some.inj happend
        rw [List.length_append]
        omega
      exact ih hfits

/-- **The buffer holds the request** that is built, with its terminator behind it and the rest of
the buffer as it was. -/
theorem buildExchangeRequestIn_eq (spec : Request) (request : List UInt8) :
    buildExchangeRequestIn spec request =
      (buildExchangeRequest spec request.length).map (held request) := by
  unfold buildExchangeRequestIn buildExchangeRequest
  split_ifs with hbad
  · rfl
  · have hpos : 0 < request.length := by
      simp only [not_or] at hbad
      omega
    obtain ⟨c, rest, rfl⟩ := List.exists_cons_of_ne_nil (List.ne_nil_of_length_pos hpos)
    have hempty : ([] : List UInt8).length < (c :: rest).length := hpos
    exact foldlM_appendTextIn hempty (requestTexts spec)

/-! ## The lines -/

/-- `CR LF`. -/
def crlf : List UInt8 := ascii "\r\n"

/-- The port in the `Host` line, which the default port leaves out. -/
def portSuffix (spec : Request) : List UInt8 :=
  if (spec.tls ∧ spec.port = ascii "443") ∨ (¬ spec.tls ∧ spec.port = ascii "80") then []
  else ascii ":" ++ spec.port

/-- The lines of a request. -/
def requestLines (spec : Request) : List (List UInt8) :=
  [spec.method.text ++ ascii " " ++ spec.path ++ ascii " HTTP/1.0",
    ascii "Host: " ++ spec.host ++ portSuffix spec] ++
  spec.headers.map (fun header => header.name ++ ascii ": " ++ header.value) ++
  if spec.method = .put then
    [ascii "Content-Type: " ++ spec.contentType.getD [],
      ascii "Content-Length: " ++ decimal (spec.body.getD []).length]
  else []

/-- A request: its lines, each with its line break, and an empty line. -/
def requestText (spec : Request) : List UInt8 :=
  (requestLines spec).flatMap (· ++ crlf) ++ crlf

/-- The texts that are appended are the lines of the request. -/
theorem flatten_requestTexts (spec : Request) : (requestTexts spec).flatten = requestText spec := by
  have hheaders : (spec.headers.flatMap fun header =>
      [header.name, ascii ": ", header.value, ascii "\r\n"]).flatten =
      (spec.headers.map fun header => header.name ++ ascii ": " ++ header.value).flatMap
        (· ++ crlf) := by
    induction spec.headers with
    | nil => rfl
    | cons header headers ih =>
      rw [List.flatMap_cons, List.flatten_append, ih, List.map_cons, List.flatMap_cons]
      simp [crlf]
  have hport : (if (spec.tls ∧ spec.port ≠ ascii "443") ∨ (¬ spec.tls ∧ spec.port ≠ ascii "80") then
      [ascii ":", spec.port] else []).flatten = portSuffix spec := by
    unfold portSuffix
    cases spec.tls with
    | false => by_cases h : spec.port = ascii "80" <;> simp [h]
    | true => by_cases h : spec.port = ascii "443" <;> simp [h]
  have hhost : ascii " HTTP/1.0\r\nHost: " = ascii " HTTP/1.0" ++ crlf ++ ascii "Host: " := by decide
  unfold requestTexts requestText requestLines
  rw [List.flatten_append, List.flatten_append, List.flatten_append, List.flatten_append,
    List.flatten_append, hheaders, hport, hhost]
  split_ifs <;> simp [crlf]

/-! ## No line break of the caller's -/

theorem isDigit_decimal (n : ℕ) : ∀ c ∈ decimal n, IsDigit c := by
  intro c hc
  obtain ⟨d, hd, rfl⟩ := List.mem_map.mp hc
  have hdigit := Nat.isDigit_of_mem_toDigits (by decide) (by decide) hd
  obtain ⟨hlow, hhigh⟩ : 48 ≤ d.toNat ∧ d.toNat ≤ 57 := by
    simpa [Char.isDigit, UInt32.le_iff_toNat_le] using hdigit
  have hbyte : (UInt8.ofNat d.toNat).toNat = d.toNat := by
    rw [UInt8.toNat_ofNat']
    omega
  constructor <;> rw [UInt8.le_iff_toNat_le, hbyte]
  · exact hlow
  · exact hhigh

theorem isDigit_of_parsePortLoop {text : List UInt8} {digits value : ℕ} {result : ℕ × ℕ}
    (h : parsePortLoop digits value text = some result) : ∀ c ∈ text, IsDigit c := by
  induction text generalizing digits value with
  | nil => simp
  | cons c text ih =>
    rw [parsePortLoop] at h
    split_ifs at h with hbad
    simp only [not_or, not_not] at hbad
    exact List.forall_mem_cons.mpr ⟨hbad.1, ih h⟩

/-- The text of a port that is taken has digits only. -/
theorem isDigit_of_parsePort {port : List UInt8} (h : (parsePort port).isSome) :
    ∀ c ∈ port, IsDigit c := by
  unfold parsePort at h
  cases hloop : parsePortLoop 0 0 port with
  | none => simp [hloop] at h
  | some result => exact isDigit_of_parsePortLoop hloop

theorem printable_of_isDigit {text : List UInt8} (h : ∀ c ∈ text, IsDigit c) :
    Lines.Printable text := by
  intro c hc
  have := (h c hc).1
  grind

/-- What the checks of a request promise about its texts. -/
structure Accepted (spec : Request) : Prop where
  valid : validate spec.host spec.port spec.path = true
  connectHost : ∀ host ∈ spec.connectHost, hostTextOk host = true
  headers_le : spec.headers.length ≤ headerMax
  body : bodyOk spec = true
  headers : ∀ header ∈ spec.headers,
    headerNameOk header.name = true ∧ headerValueOk header.value = true

theorem printable_of_headerValueOk {value : List UInt8} (h : headerValueOk value = true) :
    Lines.Printable value := by
  intro c hc
  have hbyte := (of_decide_eq_true h).2 c hc
  grind

namespace Accepted

variable {spec : Request}

theorem host_printable (h : Accepted spec) : Lines.Printable spec.host := by
  intro c hc
  have hbyte := (of_decide_eq_true (of_decide_eq_true h.valid).1).2.2 c hc
  simp only [not_or] at hbyte
  grind

theorem path_printable (h : Accepted spec) : Lines.Printable spec.path := by
  intro c hc
  have hbyte := (of_decide_eq_true h.valid).2.2.2.2 c hc
  grind

theorem portSuffix_printable (h : Accepted spec) : Lines.Printable (portSuffix spec) := by
  have hport := printable_of_isDigit (isDigit_of_parsePort (of_decide_eq_true h.valid).2.1)
  unfold portSuffix
  split_ifs
  · exact List.forall_mem_nil _
  · exact List.forall_mem_append.mpr ⟨by decide, hport⟩

theorem header_printable (h : Accepted spec) {header : Header} (hmem : header ∈ spec.headers) :
    Lines.Printable (header.name ++ ascii ": " ++ header.value) := by
  obtain ⟨hname, hvalue⟩ := h.headers header hmem
  have hnamePrintable : Lines.Printable header.name := by
    intro c hc
    have hbyte := (of_decide_eq_true hname).2.2 c hc
    grind
  exact List.forall_mem_append.mpr
    ⟨List.forall_mem_append.mpr ⟨hnamePrintable, by decide⟩, printable_of_headerValueOk hvalue⟩

theorem contentType_printable (h : Accepted spec) : Lines.Printable (spec.contentType.getD []) := by
  have hbody := h.body
  unfold bodyOk at hbody
  cases hmethod : spec.method with
  | get =>
    simp only [hmethod, decide_eq_true_eq] at hbody
    rw [hbody.2]
    exact List.forall_mem_nil _
  | put =>
    cases hb : spec.body with
    | none => simp [hmethod, hb] at hbody
    | some body =>
      cases ht : spec.contentType with
      | none => simp [hmethod, hb, ht] at hbody
      | some contentType =>
        simp only [hmethod, hb, ht] at hbody
        exact printable_of_headerValueOk hbody

/-- **No line of a request has a control character**, and none is empty. -/
theorem lines_printable (h : Accepted spec) :
    ∀ line ∈ requestLines spec, line ≠ [] ∧ Lines.Printable line := by
  intro line hline
  have hmethod : Lines.Printable spec.method.text := by
    cases spec.method <;> decide
  simp only [requestLines, List.mem_append, List.mem_cons, List.not_mem_nil, or_false] at hline
  rcases hline with ((rfl | rfl) | hheader) | hput
  · refine ⟨by simp [ascii], ?_⟩
    simp only [List.forall_mem_append]
    exact ⟨⟨⟨hmethod, by decide⟩, h.path_printable⟩, by decide⟩
  · refine ⟨by simp [ascii], ?_⟩
    simp only [List.forall_mem_append]
    exact ⟨⟨by decide, h.host_printable⟩, h.portSuffix_printable⟩
  · obtain ⟨header, hmem, rfl⟩ := List.mem_map.mp hheader
    exact ⟨by simp [ascii], h.header_printable hmem⟩
  · split_ifs at hput with hm
    · simp only [List.mem_cons, List.not_mem_nil, or_false] at hput
      rcases hput with (rfl | rfl)
      · exact ⟨by simp [ascii], List.forall_mem_append.mpr ⟨by decide, h.contentType_printable⟩⟩
      · exact ⟨by simp [ascii], List.forall_mem_append.mpr
          ⟨by decide, printable_of_isDigit (isDigit_decimal _)⟩⟩
    · exact absurd hput (by simp)

end Accepted

/-- A request that passes the checks and fits is written. -/
theorem Accepted.build {spec : Request} (h : Accepted spec) {buffer : List UInt8}
    (hfits : (requestText spec).length < buffer.length) :
    buildExchangeRequestIn spec buffer = some (held buffer (requestText spec)) := by
  have hempty : ([] : List UInt8).length < buffer.length := by
    rw [List.length_nil]
    omega
  have hheaders := h.headers_le
  rw [buildExchangeRequestIn_eq, buildExchangeRequest, if_neg, appendTexts_eq hempty,
    flatten_requestTexts, List.nil_append, if_pos hfits, Option.map_some]
  simp only [not_or, not_not, not_exists, not_and]
  exact ⟨by omega, h.valid, h.connectHost, by omega, h.body, h.headers⟩

/-- A request that is written passes the checks and fits. -/
theorem accepted_of_build {spec : Request} {buffer : List UInt8}
    (h : (buildExchangeRequestIn spec buffer).isSome) :
    Accepted spec ∧ (requestText spec).length < buffer.length := by
  rw [buildExchangeRequestIn_eq, buildExchangeRequest] at h
  split_ifs at h with hbad
  · exact absurd h (by simp)
  · simp only [not_or, not_not, not_exists, not_and] at hbad
    obtain ⟨hpos, hvalid, hconnect, hmany, hbody, hheaders⟩ := hbad
    have hempty : ([] : List UInt8).length < buffer.length := Nat.pos_of_ne_zero hpos
    rw [appendTexts_eq hempty, flatten_requestTexts, List.nil_append] at h
    split_ifs at h with hfits
    · exact ⟨⟨hvalid, hconnect, by omega, hbody, hheaders⟩, hfits⟩
    · exact absurd h (by simp)

/-- A buffer holds exactly the lines of a request: their text, a terminator behind it inside the
buffer, and no byte of the buffer changed after that. No line is empty, and none contains a line
break or a terminator. -/
structure Wrote (spec : Request) (buffer : List UInt8) (result : List UInt8 × ℕ) : Prop where
  length : result.2 = (requestText spec).length
  fits : result.2 < buffer.length
  text : result.1 = requestText spec ++ 0 :: buffer.drop (result.2 + 1)
  lines : ∀ line ∈ requestLines spec,
    line ≠ [] ∧ (0x0d : UInt8) ∉ line ∧ (0x0a : UInt8) ∉ line ∧ (0 : UInt8) ∉ line

/-- **An accepted request is its lines.** It is accepted exactly when its parts pass the checks and
its text fits with a terminator, and then the buffer holds its lines. -/
theorem exchangeRequest_lines (spec : Request) (buffer : List UInt8) :
    ((buildExchangeRequestIn spec buffer).isSome ↔
      Accepted spec ∧ (requestText spec).length < buffer.length) ∧
    ∀ result ∈ buildExchangeRequestIn spec buffer, Wrote spec buffer result := by
  constructor
  · constructor
    · exact accepted_of_build
    · rintro ⟨h, hfits⟩
      rw [h.build hfits]
      rfl
  · intro result hresult
    obtain ⟨h, hfits⟩ := accepted_of_build (Option.isSome_of_mem hresult)
    rw [h.build hfits, Option.mem_some_iff] at hresult
    subst hresult
    refine ⟨rfl, hfits, rfl, fun line hline => ?_⟩
    obtain ⟨hne, hprintable⟩ := h.lines_printable line hline
    exact ⟨hne, hprintable.notMem (by decide), hprintable.notMem (by decide),
      hprintable.notMem (by decide)⟩

end NetSimple
