import CrossNook.Net.Framing
import CrossNook.Net.TlsSimple

/-!
# The receive loop over TLS

Which responses the loop accepts: what is complete by its framing or by the clean closure of the
connection, how the framing and the parsed header block agree, and how far the result depends on
the cuts between the records that carry the response.

## Main definitions

* `NetSimple.Completed`: how the loop accepts a response
* `NetSimple.CompletesByLength`: the loop accepts a response by its `Content-Length`
* `NetSimple.Arrives`: a stream arrives in chunks before the connection ends

## Main results

* `NetSimple.exchange_complete`: no truncated and no over-long response is accepted
* `NetSimple.parseStatus_framed_iff`: when the parsed header block is the framed one
* `NetSimple.outcome_cut_iff`: when the cuts of a stream do not matter
-/

namespace NetSimple

open Bytes (ascii)
open TlsSimple (EngineTurn Answered CleanlyClosed recvSome)

/-! ## One call -/

section Step

variable {bufferCap : ℕ} {buffer : List UInt8}

/-- The loop on a call that brings bytes: only the framing decides. -/
theorem receiveTls_bytes (hcap : buffer.length < bufferCap) {data : List UInt8} (hdata : data ≠ [])
    (calls : List TlsRecv) :
    receiveTls bufferCap buffer (⟨data, .ok, false⟩ :: calls) =
      (let now := buffer ++ data.take (bufferCap - buffer.length)
      match responseContentLength now with
      | .malformed => .failed .badResponse now
      | .framed expected =>
        if expected < now.length then .failed .badResponse now
        else if now.length = expected then .done now false
        else receiveTls bufferCap now calls
      | _ => receiveTls bufferCap now calls) := by
  have hgot : data.take (bufferCap - buffer.length) ≠ [] := by
    rw [Ne, List.take_eq_nil_iff, not_or]
    exact ⟨by omega, hdata⟩
  rw [receiveTls, if_neg (by omega)]
  dsimp only
  cases responseContentLength (buffer ++ data.take (bufferCap - buffer.length)) <;> simp [hgot]

/-- The loop on a failing call. -/
theorem receiveTls_failed (hcap : buffer.length < bufferCap) {result : TlsResult}
    (hok : result ≠ .ok) (hclosed : result ≠ .closed) (calls : List TlsRecv) {out : List UInt8}
    (h : receiveTls bufferCap buffer (TlsSimple.failed result :: calls) = .done out false) :
    responseContentLength out = .framed out.length := by
  rw [receiveTls, if_neg (by omega)] at h
  simp only [TlsSimple.failed, List.take_nil, List.append_nil, hok, hclosed, if_false, ne_eq,
    not_false_eq_true, if_true] at h
  cases hf : responseContentLength buffer with
  | framed expected =>
    simp only [hf] at h
    split_ifs at h with _ heq
    obtain rfl : buffer = out := by simpa using h
    rw [hf, heq]
  | _ =>
    rw [hf] at h
    exact absurd h (by simp)

/-- The loop on the clean closure. -/
theorem receiveTls_closed (hcap : buffer.length < bufferCap) (calls : List TlsRecv)
    {out : List UInt8}
    (h : receiveTls bufferCap buffer (⟨[], .closed, true⟩ :: calls) = .done out false) :
    responseContentLength out = .framed out.length ∨ responseContentLength out = .unframed := by
  rw [receiveTls, if_neg (by omega)] at h
  simp only [List.take_nil, List.append_nil, if_true] at h
  cases hf : responseContentLength buffer with
  | framed expected =>
    simp only [hf] at h
    split_ifs at h with _ heq
    obtain rfl : buffer = out := by simpa using h
    exact .inl (hf.trans (by rw [heq]))
  | unframed =>
    rw [hf] at h
    obtain rfl : buffer = out := by simpa using h
    exact .inr hf
  | _ =>
    rw [hf] at h
    exact absurd h (by simp)

end Step

/-! ## Complete responses -/

/-- The calls are answers of `cn_tls_recv_some` on an open connection. -/
def Answers (calls : List TlsRecv) : Prop :=
  ∀ call ∈ calls, ∃ cap turns, call = (recvSome 1 cap turns).1

/-- After calls that brought bytes, the peer closed the connection with a clean closure. -/
def PeerClosed (calls : List TlsRecv) : Prop :=
  ∃ before cap turns after, calls = before ++ (recvSome 1 cap turns).1 :: after ∧
    (∀ call ∈ before, call.result = .ok) ∧ (recvSome 1 cap turns).1.result = .closed ∧
    CleanlyClosed turns

theorem PeerClosed.cons {calls : List TlsRecv} (h : PeerClosed calls) {call : TlsRecv}
    (hok : call.result = .ok) : PeerClosed (call :: calls) := by
  obtain ⟨before, cap, turns, after, rfl, hbefore, hclosed⟩ := h
  exact ⟨call :: before, cap, turns, after, rfl, List.forall_mem_cons.mpr ⟨hok, hbefore⟩, hclosed⟩

/-- How the loop accepts a response: its framing is met, or it is unframed and the connection was
closed after it. -/
inductive Completed (buffer : List UInt8) (calls : List TlsRecv) : Prop
  | framed (h : responseContentLength buffer = .framed buffer.length)
  | unframed (h : responseContentLength buffer = .unframed) (closed : PeerClosed calls)

theorem Completed.cons {buffer : List UInt8} {calls : List TlsRecv} (h : Completed buffer calls)
    {call : TlsRecv} (hok : call.result = .ok) : Completed buffer (call :: calls) := by
  cases h with
  | framed h => exact .framed h
  | unframed h closed => exact .unframed h (closed.cons hok)

/-- **The loop accepts complete responses only.** -/
theorem completed_receiveTls {bufferCap : ℕ} {buffer : List UInt8} {calls : List TlsRecv}
    (hcalls : Answers calls) {out : List UInt8}
    (h : receiveTls bufferCap buffer calls = .done out false) : Completed out calls := by
  induction calls generalizing buffer with
  | nil =>
    rw [receiveTls] at h
    split_ifs at h
    exact absurd h (by simp)
  | cons call calls ih =>
    have hrest : Answers calls := fun c hc => hcalls c (List.mem_cons_of_mem _ hc)
    obtain ⟨cap, turns, rfl⟩ := hcalls call (by simp)
    by_cases hcap : bufferCap ≤ buffer.length
    · rw [receiveTls, if_pos hcap] at h
      exact absurd h (by simp)
    have hanswer := TlsSimple.answered_recvSome 1 cap turns
    generalize hcall : (recvSome 1 cap turns).1 = call at h hanswer
    cases hanswer with
    | bytes hdata =>
      rw [receiveTls_bytes (by omega) hdata] at h
      dsimp only at h
      -- every exit of this call but one fails
      split at h
      · exact absurd h (by simp)
      · rename_i expected hf
        split_ifs at h with _ heq
        · obtain rfl := by simpa using h
          exact .framed (hf.trans (by rw [heq]))
        · exact (ih hrest h).cons rfl
      · exact (ih hrest h).cons rfl
    | closed hclosed =>
      rcases receiveTls_closed (by omega) calls h with hf | hu
      · exact .framed hf
      · exact .unframed hu ⟨[], cap, turns, calls, by rw [hcall]; rfl, by simp, by rw [hcall],
          hclosed⟩
    | failed hok hclosed => exact .framed (receiveTls_failed (by omega) hok hclosed calls h)

theorem receiveDone_none {buffer : List UInt8} (h : parseStatus buffer = none)
    (handed : List UInt8) :
    receiveDone handed buffer false = ⟨.badResponse, .zero, buffer, handed⟩ := by
  rw [receiveDone.eq_def, h]
  rfl

theorem receiveDone_some {buffer : List UInt8} {response : Response}
    (h : parseStatus buffer = some response) (handed : List UInt8) :
    receiveDone handed buffer false = ⟨.ok, response, buffer, handed⟩ := by
  rw [receiveDone.eq_def, h]
  rfl

theorem receiveDone_buffer (handed buffer : List UInt8) (truncated : Bool) :
    (receiveDone handed buffer truncated).buffer = buffer := by
  unfold receiveDone
  cases parseStatus buffer <;> rfl

theorem receiveDone_ok {handed buffer : List UInt8} {truncated : Bool}
    (h : (receiveDone handed buffer truncated).result = .ok) : truncated = false := by
  cases truncated with
  | false => rfl
  | true =>
    unfold receiveDone at h
    cases hp : parseStatus buffer <;> simp [hp] at h

/-- `getaddrinfo` answers the hint `AF_INET` with entries of that family. -/
def HonoursHints (wire : Wire) : Prop :=
  ∀ entries ∈ wire.resolved, ∀ entry ∈ entries, entry.1 = true

theorem connectEntries_ne_ok {entries : List (Bool × Connecting)}
    (hinet : ∀ entry ∈ entries, entry.1 = true) {result : Result}
    (h : (connectEntries result entries).2 = false) (hresult : entries ≠ [] ∨ result ≠ .ok) :
    (connectEntries result entries).1 ≠ .ok := by
  induction entries generalizing result with
  | nil => exact hresult.resolve_left (by simp)
  | cons entry entries ih =>
    obtain ⟨inet, run⟩ := entry
    obtain rfl : inet = true := hinet (inet, run) (by simp)
    rw [connectEntries] at h ⊢
    simp only [not_true_eq_false, if_false] at h ⊢
    cases hr : openSocket run with
    | ok =>
      rw [hr] at h
      exact absurd h (by simp)
    | _ =>
      simp only [hr] at h ⊢
      exact ih (fun e he => hinet e (List.mem_cons_of_mem _ he)) h (.inr (by simp))

theorem connect_ne_ok {spec : Request} {wire : Wire} (hinet : HonoursHints wire)
    (h : (connect spec wire).2 = false) : (connect spec wire).1 ≠ .ok := by
  unfold connect at h ⊢
  by_cases hip : (parseIpv4 (spec.connectHost.getD spec.host)).isSome
  · rw [if_pos hip] at h ⊢
    exact of_decide_eq_false h
  rw [if_neg hip] at h ⊢
  cases hr : wire.resolved with
  | none => simp
  | some entries =>
    rw [hr] at h
    cases entries with
    | nil => simp
    | cons entry entries =>
      exact connectEntries_ne_ok (hinet (entry :: entries) hr) h (.inl (by simp))

/-- A successful exchange over TLS has gone through the loop. -/
theorem exchange_ok {spec : Request} {bufferCap : ℕ} {wire : Wire} (htls : spec.tls)
    (hinet : HonoursHints wire) (hok : (exchange spec bufferCap wire).result = .ok) :
    ∃ handed, exchange spec bufferCap wire =
      (receiveTls bufferCap [] wire.tlsTurns).outcome handed := by
  unfold exchange at hok ⊢
  -- every stage before the loop fails the exchange where it fails; so here each has succeeded
  by_cases hcap : bufferCap = 0
  · rw [if_pos hcap] at hok
    exact absurd hok (by simp [Outcome.failed])
  rw [if_neg hcap] at hok ⊢
  cases hbuild : buildExchangeRequest spec requestMax with
  | none =>
    rw [hbuild] at hok
    exact absurd hok (by simp [Outcome.failed])
  | some request =>
    rw [hbuild] at hok
    dsimp only at hok ⊢
    rcases hconnect : connect spec wire with ⟨result, _ | _⟩
    · rw [hconnect] at hok
      refine absurd hok ?_
      have := connect_ne_ok hinet (congrArg Prod.snd hconnect)
      rw [hconnect] at this
      exact this
    rw [hconnect] at hok
    dsimp only at hok ⊢
    by_cases hn : ¬ wire.nonblocking
    · rw [if_pos hn] at hok
      exact absurd hok (by simp [Outcome.failed])
    rw [if_neg hn, if_pos htls] at hok ⊢
    unfold exchangeTls at hok ⊢
    by_cases hopen : wire.tlsOpen ≠ .ok
    · rw [if_pos hopen] at hok
      refine absurd hok ?_
      cases ho : wire.tlsOpen <;> simp_all [Outcome.failed, tlsMap]
    rw [if_neg hopen] at hok ⊢
    dsimp only at hok ⊢
    by_cases hsend : (sendTls request (spec.body.getD []) wire).1 ≠ .ok
    · rw [if_pos hsend] at hok
      exact absurd hok hsend
    · rw [if_neg hsend]
      exact ⟨_, rfl⟩

/-- **No truncated and no over-long response over TLS is accepted.** A length is the number that its
digits denote, and neither it nor the size of the response wraps; a successful exchange has
received a complete header block and exactly the declared bytes after it, or it declares no length
and the peer closed the connection cleanly. -/
theorem exchange_complete {spec : Request} {bufferCap : ℕ} {wire : Wire} (htls : spec.tls)
    (hinet : HonoursHints wire) (hcalls : Answers wire.tlsTurns) :
    (∀ (buf : List UInt8) (expected : ℕ), buf.length ≤ sizeMax →
      (responseContentLength buf = .framed expected ↔ ∃ block body n, Headers buf block body ∧
        OneLength block n ∧ expected = block.length + 4 + n ∧ expected ≤ sizeMax)) ∧
    ((exchange spec bufferCap wire).result = .ok →
      ∃ block body, Headers (exchange spec bufferCap wire).buffer block body ∧
        (OneLength block body.length ∨ NoLength block ∧ PeerClosed wire.tlsTurns)) := by
  refine ⟨fun buf expected hbuf => framed_iff hbuf, fun hok => ?_⟩
  obtain ⟨handed, hexchange⟩ := exchange_ok htls hinet hok
  rw [hexchange] at hok ⊢
  cases hloop : receiveTls bufferCap [] wire.tlsTurns with
  | failed result buffer =>
    rw [hloop] at hok
    have := fails_receiveTls bufferCap [] wire.tlsTurns
    rw [hloop] at this
    exact absurd hok this.2
  | done buffer truncated =>
    rw [hloop] at hok
    obtain rfl := receiveDone_ok hok
    rw [Receiving.outcome, receiveDone_buffer]
    -- the loop ends with what the length declares, or where the peer has closed
    cases completed_receiveTls hcalls hloop with
    | framed hframed =>
      obtain ⟨block, body, n, hb, hone, hlen, -⟩ := (framed_iff (framed_le hframed)).mp hframed
      have hsize := hb.length_eq
      obtain rfl : n = body.length := by omega
      exact ⟨block, body, hb, .inl hone⟩
    | unframed hunframed hclosed =>
      obtain ⟨block, body, hb, hno⟩ := unframed_iff.mp hunframed
      exact ⟨block, body, hb, .inr ⟨hno, hclosed⟩⟩

/-- The response of the sample exchange. -/
def sampleResponse : List UInt8 := ascii "HTTP/1.0 200 OK\r\nContent-Length: 2\r\n\r\n\x7b\x7d"

/-- A request over TLS to a numeric address. -/
def sampleRequest : Request :=
  { method := .get, host := ascii "h", connectHost := some (ascii "10.0.0.1"), port := ascii "443"
    path := ascii "/", headers := [], contentType := none, body := none, tls := true }

/-- A network on which everything goes through, with the given answers of the TLS layer. -/
def sampleWire (calls : List TlsRecv) : Wire :=
  { direct := ⟨true, true, none, true, [], none⟩
    resolved := none, nonblocking := true, tlsOpen := .ok, tlsRequest := .done, tlsBody := .done
    tlsTurns := calls, sendTurns := [], bodyTurns := [], restored := true, recvTurns := [] }

/-- The sample response as it is received, framed and parsed. -/
theorem sampleResponse_read :
    (recvSome 1 64 [.recvApp sampleResponse]).1 = ⟨sampleResponse, .ok, false⟩ ∧
      responseContentLength sampleResponse = .framed 40 ∧
      parseStatus sampleResponse = some ⟨200, 38, 2, 40, ascii "OK"⟩ ∧
      indexOf (ascii "\r\n\r\n") sampleResponse = some (33 + 1) ∧
      (exchange sampleRequest 64 (sampleWire [⟨sampleResponse, .ok, false⟩])).result = .ok := by
  decide +kernel

theorem exchange_complete_sample :
    (exchange sampleRequest 64 (sampleWire [⟨sampleResponse, .ok, false⟩])).result = .ok ∧
      ∃ block body, Headers (exchange sampleRequest 64
        (sampleWire [⟨sampleResponse, .ok, false⟩])).buffer block body ∧
        (OneLength block body.length ∨
          NoLength block ∧ PeerClosed [⟨sampleResponse, .ok, false⟩]) := by
  obtain ⟨hreceived, -, -, -, hok⟩ := sampleResponse_read
  have hcalls : Answers (sampleWire [⟨sampleResponse, .ok, false⟩]).tlsTurns := by
    intro call hcall
    obtain rfl : call = ⟨sampleResponse, .ok, false⟩ := by simpa [sampleWire] using hcall
    exact ⟨64, [.recvApp sampleResponse], hreceived.symm⟩
  exact ⟨hok, (exchange_complete rfl (by simp [HonoursHints, sampleWire]) hcalls).2 hok⟩

/-! ## The framed and the parsed header block -/

/-- The loop accepts a response by its `Content-Length`. -/
def CompletesByLength (buf : List UInt8) : Prop :=
  responseContentLength buf = .framed buf.length ∧
    ∃ bufferCap calls, receiveTls bufferCap [] calls = .done buf false

/-- Two line feeds start inside the header block exactly where they lie in it. -/
theorem lineFeeds_iff {buf block body : List UInt8} (h : Headers buf block body) :
    (indexOf (ascii "\n\n") buf).getD buf.length < block.length ↔ ascii "\n\n" <:+: block := by
  have hlf : ascii "\n\n" = [0x0a, 0x0a] := rfl
  rw [hlf]
  constructor
  · intro hlt
    cases hi : indexOf [0x0a, 0x0a] buf with
    | none =>
      rw [hi] at hlt
      have := h.length_eq
      simp only [Option.getD_none] at hlt
      omega
    | some k =>
      rw [hi] at hlt
      change k < block.length at hlt
      obtain ⟨-, hpre, -⟩ := indexOf_eq_some_iff.mp hi
      rw [h.split, List.append_assoc, List.drop_append_of_le_length (by omega)] at hpre
      -- a line feed at the end of the block is followed by a carriage return
      obtain ⟨c, rest, hdrop⟩ := List.exists_cons_of_ne_nil
        (l := block.drop k) (by simpa using hlt)
      rw [hdrop] at hpre
      cases rest with
      | nil =>
        obtain ⟨-, hcr⟩ := List.cons_prefix_cons.mp hpre
        exact absurd (List.cons_prefix_cons.mp hcr).1 (by decide)
      | cons d rest =>
        obtain ⟨rfl, hnext⟩ := List.cons_prefix_cons.mp hpre
        obtain ⟨rfl, -⟩ := List.cons_prefix_cons.mp hnext
        refine ⟨block.take k, rest, ?_⟩
        rw [List.append_assoc]
        exact (congrArg (block.take k ++ ·) hdrop.symm).trans (List.take_append_drop k block)
  · rintro ⟨before, after, hblock⟩
    have hlen := congrArg List.length hblock
    simp only [List.length_append, List.length_cons, List.length_nil] at hlen
    have hbuf := h.length_eq
    have hpre : [0x0a, 0x0a] <+: buf.drop before.length := by
      rw [h.split, ← hblock]
      simp only [List.append_assoc]
      rw [List.drop_left' rfl]
      exact List.prefix_append _ _
    obtain ⟨j, hj, hi⟩ := exists_indexOf_le (by omega) hpre
    rw [hi]
    change j < block.length
    omega

theorem headerBlock_eq {buf block body : List UInt8} (h : Headers buf block body) :
    headerBlock buf =
      if (indexOf (ascii "\n\n") buf).getD buf.length < block.length then
        (indexOf (ascii "\n\n") buf).getD buf.length + 2
      else block.length + 4 := by
  have hlen := h.length_eq
  unfold headerBlock
  rw [h.indexOf_eq]
  simp only [Option.getD_some]
  rw [if_neg (by omega)]
  split_ifs <;> omega

theorem parseStatus_bytes {buf : List UInt8} {response : Response}
    (h : parseStatus buf = some response) :
    response.headerBytes = headerBlock buf ∧ response.bodyBytes = buf.length - headerBlock buf := by
  unfold parseStatus at h
  dsimp only at h
  split_ifs at h
  split at h
  · exact absurd h (by simp)
  · split at h
    · exact absurd h (by simp)
    · obtain rfl := by simpa using h
      exact ⟨rfl, rfl⟩

/-- **When the parsed header block is the framed one.** The framing looks for the first empty line
that CR LF CR LF ends, the parser also for LF LF: they agree exactly where no LF LF lies in the
framed header block. -/
theorem parseStatus_framed_iff {buf : List UInt8} (hcomplete : CompletesByLength buf)
    {response : Response} (hparse : parseStatus buf = some response) :
    (∃ block body, Headers buf block body ∧ response.headerBytes = block.length + 4 ∧
        OneLength block response.bodyBytes) ↔
      ∃ block body, Headers buf block body ∧ ¬ ascii "\n\n" <:+: block := by
  obtain ⟨hheader, hbody⟩ := parseStatus_bytes hparse
  obtain ⟨block, body, n, hb, hone, hlen, -⟩ :=
    (framed_iff (framed_le hcomplete.1)).mp hcomplete.1
  constructor
  · rintro ⟨block', body', hb', hsame, -⟩
    refine ⟨block', body', hb', fun hlf => ?_⟩
    have hlt := (lineFeeds_iff hb').mpr hlf
    rw [hheader, headerBlock_eq hb', if_pos hlt] at hsame
    omega
  · rintro ⟨block', body', hb', hlf⟩
    obtain ⟨rfl, -⟩ := hb'.unique hb
    have hsame : headerBlock buf = block'.length + 4 := by
      rw [headerBlock_eq hb, if_neg (mt (lineFeeds_iff hb).mp hlf)]
    obtain rfl : n = response.bodyBytes := by omega
    exact ⟨block', body, hb, by omega, hone⟩

/-- A response with LF LF between two header lines. -/
def lineFeedResponse : List UInt8 :=
  ascii "HTTP/1.0 200 OK\r\nX: a\n\nContent-Length: 2\r\n\r\n\x7b\x7d"

theorem completesByLength_of_framed {buf : List UInt8}
    (h : responseContentLength buf = .framed buf.length) (hne : buf ≠ []) :
    CompletesByLength buf := by
  refine ⟨h, buf.length, [⟨buf, .ok, false⟩], ?_⟩
  have hlen : 0 < buf.length := List.length_pos_of_ne_nil hne
  rw [receiveTls_bytes hlen hne]
  simp [h]

theorem parseStatus_framed_sample :
    ∃ block body, Headers sampleResponse block body ∧ 38 = block.length + 4 ∧
      OneLength block 2 := by
  obtain ⟨-, hframed, hparse, hindex, -⟩ := sampleResponse_read
  have hcomplete : CompletesByLength sampleResponse :=
    completesByLength_of_framed hframed (by decide)
  refine (parseStatus_framed_iff hcomplete hparse).mpr ?_
  exact ⟨_, _, .of_indexOf hindex, by decide +kernel⟩

/-- The body that is parsed is not the one that is framed. -/
theorem parseStatus_lineFeed :
    CompletesByLength lineFeedResponse ∧
      parseStatus lineFeedResponse = some ⟨200, 23, 23, 46, ascii "OK"⟩ ∧
      ¬ ∃ block body, Headers lineFeedResponse block body ∧ 23 = block.length + 4 ∧
        OneLength block 23 := by
  refine ⟨completesByLength_of_framed (by decide +kernel) (by decide), by decide +kernel, ?_⟩
  rintro ⟨block, body, hb, hlen, -⟩
  have hindex : indexOf (ascii "\r\n\r\n") lineFeedResponse = some 40 := by decide +kernel
  have := hb.indexOf_eq.symm.trans hindex
  simp only [Option.some.injEq] at this
  omega

/-! ## The cuts of a stream -/

/-- A stream arrives in chunks, none of them empty, and then the connection ends with `closing`. -/
def Arrives (stream : List UInt8) (closing : TlsRecv) (calls : List TlsRecv) : Prop :=
  ∃ chunks : List (List UInt8), (∀ chunk ∈ chunks, chunk ≠ []) ∧ chunks.flatten = stream ∧
    calls = chunks.map (fun chunk => ⟨chunk, .ok, false⟩) ++ [closing]

/-- Two ends of a loop with the same result code and the same parsed response. -/
def Receiving.Same (r r' : Receiving) : Prop :=
  ∀ handed, (r.outcome handed).result = (r'.outcome handed).result ∧
    (r.outcome handed).response = (r'.outcome handed).response

theorem Receiving.Same.refl (r : Receiving) : r.Same r := fun _ => ⟨rfl, rfl⟩

theorem Receiving.Same.symm {r r' : Receiving} (h : r.Same r') : r'.Same r :=
  fun handed => ⟨(h handed).1.symm, (h handed).2.symm⟩

theorem Receiving.Same.trans {r r' r'' : Receiving} (h : r.Same r') (h' : r'.Same r'') :
    r.Same r'' :=
  fun handed => ⟨(h handed).1.trans (h' handed).1, (h handed).2.trans (h' handed).2⟩

/-- The loop at the end of the stream, after a malformed length or the whole response. -/
theorem receiveTls_end {bufferCap : ℕ} {stream : List UInt8} (hcap : stream.length < bufferCap)
    {closing : TlsRecv} (hclosing : closing.data = []) :
    (responseContentLength stream = .malformed →
      receiveTls bufferCap stream [closing] = .failed .badResponse stream) ∧
    (responseContentLength stream = .framed stream.length →
      receiveTls bufferCap stream [closing] = .done stream false) := by
  constructor <;> intro h <;> rw [receiveTls, if_neg (by omega)] <;> simp [hclosing, h]

/-- Where no byte follows the framed response, the loop ends as it does on the whole stream. -/
theorem receiveTls_chunks {bufferCap : ℕ} {closing : TlsRecv} (hclosing : closing.data = [])
    {chunks : List (List UInt8)} (hchunks : ∀ chunk ∈ chunks, chunk ≠ []) {buffer : List UInt8}
    (hcap : (buffer ++ chunks.flatten).length < bufferCap)
    (hframed : ∀ expected, responseContentLength (buffer ++ chunks.flatten) = .framed expected →
      (buffer ++ chunks.flatten).length ≤ expected) :
    (receiveTls bufferCap buffer
        (chunks.map (fun chunk => ⟨chunk, .ok, false⟩) ++ [closing])).Same
      (receiveTls bufferCap (buffer ++ chunks.flatten) [closing]) := by
  induction chunks generalizing buffer with
  | nil =>
    rw [List.flatten_nil, List.append_nil]
    exact .refl _
  | cons chunk chunks ih =>
    rw [List.flatten_cons, ← List.append_assoc] at *
    have hlen : ((buffer ++ chunk) ++ chunks.flatten).length =
        buffer.length + chunk.length + chunks.flatten.length := by
      simp only [List.length_append]
    have hrest := ih (fun c hc => hchunks c (List.mem_cons_of_mem _ hc)) hcap hframed
    have htake : chunk.take (bufferCap - buffer.length) = chunk :=
      List.take_of_length_le (by omega)
    have hcap' : buffer.length < bufferCap := by omega
    have hstep := receiveTls_bytes hcap' (hchunks chunk (by simp))
      (chunks.map (fun chunk => (⟨chunk, .ok, false⟩ : TlsRecv)) ++ [closing])
    rw [htake] at hstep
    rw [List.map_cons, List.cons_append, hstep]
    dsimp only
    -- what the framing says about the bytes so far, it says about the stream
    cases hf : responseContentLength (buffer ++ chunk) with
    | incomplete => exact hrest
    | unframed => exact hrest
    | malformed =>
      have hall := responseContentLength_append (ne_of_eq_of_ne hf (by simp)) chunks.flatten
      rw [(receiveTls_end hcap hclosing).1 (hall.trans hf)]
      exact fun handed => ⟨rfl, rfl⟩
    | framed expected =>
      have hall := responseContentLength_append (ne_of_eq_of_ne hf (by simp)) chunks.flatten
      have hle := hframed expected (hall.trans hf)
      have hnow : (buffer ++ chunk).length = buffer.length + chunk.length := List.length_append
      dsimp only
      rw [if_neg (by omega)]
      by_cases heq : (buffer ++ chunk).length = expected
      · have hnil : chunks.flatten = [] := List.length_eq_zero_iff.mp (by omega)
        rw [if_pos heq, hnil, List.append_nil]
        rw [(receiveTls_end (by omega) hclosing).2 (by rw [hf, heq])]
        exact .refl _
      · rw [if_neg heq]
        exact hrest

/-- Where bytes follow the framed response, the loop either sees one of them and fails, or it ends
before them. -/
theorem receiveTls_surplus {bufferCap : ℕ} {closing : TlsRecv} (hclosing : closing.data = [])
    {chunks : List (List UInt8)} (hchunks : ∀ chunk ∈ chunks, chunk ≠ []) {buffer : List UInt8}
    (hcap : (buffer ++ chunks.flatten).length < bufferCap) {expected : ℕ}
    (hframed : responseContentLength (buffer ++ chunks.flatten) = .framed expected)
    (hlt : expected < (buffer ++ chunks.flatten).length) :
    (∃ out, receiveTls bufferCap buffer
        (chunks.map (fun chunk => ⟨chunk, .ok, false⟩) ++ [closing]) =
          .failed .badResponse out) ∨
      receiveTls bufferCap buffer (chunks.map (fun chunk => ⟨chunk, .ok, false⟩) ++ [closing]) =
        .done ((buffer ++ chunks.flatten).take expected) false := by
  induction chunks generalizing buffer with
  | nil =>
    rw [List.flatten_nil, List.append_nil] at *
    left
    refine ⟨buffer, ?_⟩
    rw [List.map_nil, List.nil_append, receiveTls, if_neg (by omega)]
    simp [hclosing, hframed, hlt]
  | cons chunk chunks ih =>
    rw [List.flatten_cons, ← List.append_assoc] at *
    have hlen : ((buffer ++ chunk) ++ chunks.flatten).length =
        buffer.length + chunk.length + chunks.flatten.length := by
      simp only [List.length_append]
    have hrest := ih (fun c hc => hchunks c (List.mem_cons_of_mem _ hc)) hcap hframed hlt
    have htake : chunk.take (bufferCap - buffer.length) = chunk :=
      List.take_of_length_le (by omega)
    have hcap' : buffer.length < bufferCap := by omega
    have hstep := receiveTls_bytes hcap' (hchunks chunk (by simp))
      (chunks.map (fun chunk => (⟨chunk, .ok, false⟩ : TlsRecv)) ++ [closing])
    rw [htake] at hstep
    rw [List.map_cons, List.cons_append, hstep]
    dsimp only
    -- the framing is that of the whole stream as soon as there is one
    cases hf : responseContentLength (buffer ++ chunk) with
    | incomplete => exact hrest
    | unframed => exact hrest
    | malformed => exact .inl ⟨_, rfl⟩
    | framed e =>
      have hall := responseContentLength_append (ne_of_eq_of_ne hf (by simp)) chunks.flatten
      obtain rfl : expected = e := by simpa [hf] using hframed.symm.trans hall
      dsimp only
      by_cases hover : expected < (buffer ++ chunk).length
      · rw [if_pos hover]
        exact .inl ⟨_, rfl⟩
      rw [if_neg hover]
      by_cases heq : (buffer ++ chunk).length = expected
      · rw [if_pos heq, List.take_left' heq]
        exact .inr rfl
      · rw [if_neg heq]
        exact hrest

theorem outcome_done_none {buffer : List UInt8} (h : parseStatus buffer = none) :
    (Receiving.done buffer false).Same (.failed .badResponse buffer) := by
  intro handed
  change (receiveDone handed buffer false).result = _ ∧ _
  rw [receiveDone_none h]
  exact ⟨rfl, congrArg Outcome.response (receiveDone_none h handed)⟩

/-- **When the cuts of a stream do not matter**: exactly when no byte follows the response that the
declared length frames, where that response has a status line. -/
theorem outcome_cut_iff {bufferCap : ℕ} (hsize : bufferCap ≤ sizeMax) {stream : List UInt8}
    (hcap : stream.length < bufferCap) {closing : TlsRecv} (hclosing : closing.data = []) :
    (∀ calls calls', Arrives stream closing calls → Arrives stream closing calls' →
      (receiveTls bufferCap [] calls).Same (receiveTls bufferCap [] calls')) ↔
      ∀ expected, responseContentLength stream = .framed expected → expected < stream.length →
        parseStatus (stream.take expected) = none := by
  constructor
  · -- cut right behind the framed response, the stream would be taken; uncut it is refused
    intro hsame expected hf hlt
    by_contra hparse
    obtain ⟨response, hresponse⟩ := Option.ne_none_iff_exists'.mp hparse
    obtain ⟨block, body, n, hb, -, hexpected, -⟩ := (framed_iff (by omega)).mp hf
    have hlen := hb.length_eq
    -- the framed response alone has the same framing
    have htake : responseContentLength (stream.take expected) = .framed expected := by
      rw [(hb.take (by omega)).framing, ← hb.framing, hf]
    have hne : stream ≠ [] := by
      intro h0
      simp [h0] at hlt
    have hprefix : (stream.take expected).length = expected := by simp; omega
    have hcut := hsame [⟨stream, .ok, false⟩, closing]
      [⟨stream.take expected, .ok, false⟩, ⟨stream.drop expected, .ok, false⟩, closing]
      ⟨[stream], by simpa using hne, by simp, rfl⟩
      ⟨[stream.take expected, stream.drop expected], by
        simp only [List.mem_cons, List.not_mem_nil, or_false, forall_eq_or_imp, forall_eq]
        refine ⟨fun h0 => ?_, fun h0 => ?_⟩
        · simp [h0] at hprefix
          omega
        · have := List.drop_eq_nil_iff.mp h0
          omega, by simp, rfl⟩ []
    have hcap0 : ([] : List UInt8).length < bufferCap := by
      rw [List.length_nil]
      omega
    have hne' : stream.take expected ≠ [] := by
      intro h0
      simp [h0] at hprefix
      omega
    rw [receiveTls_bytes hcap0 hne, receiveTls_bytes hcap0 hne'] at hcut
    simp only [List.length_nil, Nat.sub_zero, List.nil_append,
      List.take_of_length_le hcap.le, hf, if_pos hlt] at hcut
    rw [List.take_of_length_le (by omega)] at hcut
    simp only [htake, hprefix, lt_irrefl, if_false, if_true] at hcut
    have hresult : Result.badResponse = (receiveDone [] (stream.take expected) false).result :=
      hcut.1
    rw [receiveDone_some hresponse] at hresult
    exact absurd hresult (by simp)
  · intro hparse calls calls' hcalls hcalls'
    -- both runs end as one function of the stream says
    obtain ⟨end', hend⟩ : ∃ end', ∀ calls, Arrives stream closing calls →
        (receiveTls bufferCap [] calls).Same end' := by
      by_cases hover : ∃ expected, responseContentLength stream = .framed expected ∧
          expected < stream.length
      · obtain ⟨expected, hf, hlt⟩ := hover
        refine ⟨.failed .badResponse [], ?_⟩
        rintro calls ⟨chunks, hchunks, rfl, rfl⟩
        rcases @receiveTls_surplus _ _ hclosing _ hchunks [] hcap _ hf hlt with ⟨out, h⟩ | h
        · rw [h]
          exact fun handed => ⟨rfl, rfl⟩
        · rw [h]
          exact outcome_done_none (hparse expected hf hlt)
      · refine ⟨receiveTls bufferCap stream [closing], ?_⟩
        rintro calls ⟨chunks, hchunks, rfl, rfl⟩
        refine receiveTls_chunks hclosing hchunks hcap fun expected hf => ?_
        by_contra hlt
        exact hover ⟨expected, hf, by simpa using hlt⟩
    exact (hend calls hcalls).trans (hend calls' hcalls').symm

/-- The call that reports the clean closure. -/
def cleanClosure : TlsRecv := ⟨[], .closed, true⟩

theorem outcome_cut_sample :
    (receiveTls 64 [] [⟨sampleResponse, .ok, false⟩, cleanClosure]).Same
      (receiveTls 64 [] [⟨sampleResponse.take 9, .ok, false⟩, ⟨sampleResponse.drop 9, .ok, false⟩,
        cleanClosure]) := by
  have hsize : 64 ≤ sizeMax := by decide
  have hcap : sampleResponse.length < 64 := by decide
  refine (outcome_cut_iff hsize hcap rfl).mpr (fun expected hf hlt => ?_) _ _
    ⟨[sampleResponse], by decide, by decide, rfl⟩
    ⟨[sampleResponse.take 9, sampleResponse.drop 9], by decide, by decide, rfl⟩
  obtain ⟨-, hframed, -⟩ := sampleResponse_read
  obtain rfl : 40 = expected := by simpa using hframed.symm.trans hf
  exact absurd hlt (by decide)

/-- One byte after the declared body: seen with the last byte of the body it is an error, and in a
record of its own it is not read. -/
theorem outcome_cut_surplus :
    ∃ calls calls', Arrives (sampleResponse ++ [0x78]) cleanClosure calls ∧
      Arrives (sampleResponse ++ [0x78]) cleanClosure calls' ∧
      ((receiveTls 64 [] calls).outcome []).result = .badResponse ∧
      ((receiveTls 64 [] calls').outcome []).result = .ok :=
  ⟨[⟨sampleResponse ++ [0x78], .ok, false⟩, cleanClosure],
    [⟨sampleResponse, .ok, false⟩, ⟨[0x78], .ok, false⟩, cleanClosure],
    ⟨[sampleResponse ++ [0x78]], by decide, by decide, rfl⟩,
    ⟨[sampleResponse, [0x78]], by decide, by decide, rfl⟩,
    by decide +kernel, by decide +kernel⟩

end NetSimple
