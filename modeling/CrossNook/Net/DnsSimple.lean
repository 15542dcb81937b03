import CrossNook.Sync.Client

/-!
# The resolver

What `cn_dnssimple_resolve_a` (`net/dnssimple.c`) asks and which host names it takes. What happens
on the socket after the query has been built is an answer of the environment: no result of that
phase blames the host name.

## Main definitions

* `DnsSimple.hostnameOk`: `hostname_ok`
* `DnsSimple.resolveA`: `cn_dnssimple_resolve_a`
* `DnsSimple.IsHostname`: a host name, by its grammar

## Main results

* `DnsSimple.hostnameOk_iff`: the resolver takes host names and nothing else
* `DnsSimple.resolveA_invalidHostname_iff`: when a resolution blames the host name
-/

namespace DnsSimple

/-- `CN_DNS_HOST_MAX`. -/
def hostMax : ℕ := 253

/-- `CN_DNS_MAX_SERVERS`. -/
def maxServers : ℕ := 2

/-- `CN_DNS_PACKET_MAX`. -/
def packetMax : ℕ := 512

/-- `CN_DNS_DEFAULT_PORT`. -/
def defaultPort : ℕ := 53

/-- `ascii_alnum`. -/
abbrev AsciiAlnum (c : UInt8) : Prop :=
  (0x61 ≤ c ∧ c ≤ 0x7a) ∨ (0x41 ≤ c ∧ c ≤ 0x5a) ∨ (0x30 ≤ c ∧ c ≤ 0x39)

/-- `label_ok`. -/
def labelOk (label : List UInt8) : Bool :=
  if label.length = 0 ∨ 63 < label.length ∨ label.head? = some 0x2d ∨
      label.getLast? = some 0x2d then false
  else label.all fun c => AsciiAlnum c ∨ c = 0x2d

/-- `hostname_ok`. -/
def hostnameOk (hostname : List UInt8) : Bool :=
  if hostname.length = 0 ∨ hostMax < hostname.length ∨ hostname.getLast? = some 0x2e then false
  else (hostname.splitOn 0x2e).all labelOk

/-! ## The query -/

/-- One label in the loop of `build_query`. -/
def appendLabel (query label : List UInt8) : Except DnsResult (List UInt8) :=
  if packetMax ≤ query.length + 1 + label.length then .error .invalidHostname
  else .ok (query ++ UInt8.ofNat label.length :: label)

/-- The loop of `build_query`, after the bytes `label` of a label. -/
def appendLabels (query label : List UInt8) : List UInt8 → Except DnsResult (List UInt8)
  | [] => if label = [] then .ok query else appendLabel query label
  | c :: hostname =>
    if c = 0x2e then
      match appendLabel query label with
      | .error result => .error result
      | .ok query => appendLabels query [] hostname
    else appendLabels query (label ++ [c]) hostname

/-- `build_query`, with what `read_transaction_id` reads. -/
def buildQuery (transactionId : Option UInt16) (hostname : List UInt8) :
    Except DnsResult (List UInt8) :=
  match transactionId with
  | none => .error .entropyFailed
  | some id =>
    match appendLabels [(id >>> 8).toUInt8, id.toUInt8, 1, 0, 0, 1, 0, 0, 0, 0, 0, 0] []
        hostname with
    | .error result => .error result
    | .ok query => .ok (query ++ [0, 0, 1, 0, 1])

/-! ## Resolution -/

/-- The result of the part of `query_server` after the query has been built. -/
inductive Reply
  | ok
  | socketFailed
  | networkFailed
  | timeout
  | packetSize
  | malformedResponse
  | truncatedResponse
  | nxdomain
  | serverFailure
  | noAddress
  | unsupportedCname
  deriving DecidableEq, Repr

/-- A reply as a result. -/
def Reply.result : Reply → DnsResult
  | .ok => .ok
  | .socketFailed => .socketFailed
  | .networkFailed => .networkFailed
  | .timeout => .timeout
  | .packetSize => .packetSize
  | .malformedResponse => .malformedResponse
  | .truncatedResponse => .truncatedResponse
  | .nxdomain => .nxdomain
  | .serverFailure => .serverFailure
  | .noAddress => .noAddress
  | .unsupportedCname => .unsupportedCname

/-- What one call of `query_server` meets: whether `inet_pton` takes the text of the server, what
`/dev/urandom` yields, and the reply with its addresses. -/
structure Attempt where
  address : Bool
  transactionId : Option UInt16
  reply : Reply
  addresses : List (List UInt8)
  deriving DecidableEq, Repr

/-- `query_server`. -/
def queryServer (server : Option (List UInt8)) (hostname : List UInt8) (attempt : Attempt) :
    DnsResult × List (List UInt8) :=
  if server = none ∨ ¬ attempt.address then (.invalid, [])
  else
    match buildQuery attempt.transactionId hostname with
    | .error result => (result, [])
    | .ok _ => (attempt.reply.result, if attempt.reply = .ok then attempt.addresses else [])

/-- The results after which `cn_dnssimple_resolve_a` asks no other server. -/
def final (result : DnsResult) : Bool :=
  result = .ok ∨ result = .nxdomain ∨ result = .noAddress ∨ result = .unsupportedCname ∨
    result = .entropyFailed ∨ result = .invalid ∨ result = .invalidHostname

/-- The loop of `cn_dnssimple_resolve_a` over the servers, each with what its call meets. -/
def queryServers (hostname : List UInt8) (last : DnsResult) :
    List (Option (List UInt8) × Attempt) → DnsResult × List (List UInt8)
  | [] => (last, [])
  | (server, attempt) :: servers =>
    let answer := queryServer server hostname attempt
    if final answer.1 then answer else queryServers hostname answer.1 servers

/-- `cn_dnssimple_resolve_a` with the configured port, zero for the default one; the call for the
`i`-th server meets `attempts i`. -/
def resolveA (config : DnsConfig) (port : ℕ) (hostname : List UInt8) (attempts : ℕ → Attempt) :
    DnsResult × List (List UInt8) :=
  if config.servers.length = 0 ∨ maxServers < config.servers.length then (.invalid, [])
  else if ¬ hostnameOk hostname then (.invalidHostname, [])
  else if 65535 < (if port = 0 then defaultPort else port) then (.invalid, [])
  else queryServers hostname .invalid
    (config.servers.zipIdx.map fun (server, i) => (server, attempts i))

/-! ## Host names -/

/-- A label: one to 63 letters, digits and hyphens, with no hyphen at either end. -/
structure IsLabel (label : List UInt8) : Prop where
  pos : label ≠ []
  le : label.length ≤ 63
  bytes : ∀ c ∈ label, AsciiAlnum c ∨ c = 0x2d
  head : label.head? ≠ some 0x2d
  last : label.getLast? ≠ some 0x2d

/-- A host name: labels with dots between them, at most 253 bytes. -/
def IsHostname (host : List UInt8) : Prop :=
  host.length ≤ hostMax ∧ ∃ labels, labels ≠ [] ∧ (∀ label ∈ labels, IsLabel label) ∧
    host = [0x2e].intercalate labels

theorem labelOk_iff {label : List UInt8} : labelOk label = true ↔ IsLabel label := by
  unfold labelOk
  constructor
  · intro h
    split_ifs at h with hbad
    simp only [not_or] at hbad
    obtain ⟨hpos, hle, hhead, hlast⟩ := hbad
    refine ⟨fun h0 => hpos (by simp [h0]), by omega, ?_, hhead, hlast⟩
    intro c hc
    exact of_decide_eq_true (List.all_eq_true.mp h c hc)
  · intro h
    have hpos : label.length ≠ 0 := fun h0 => h.pos (List.length_eq_zero_iff.mp h0)
    have hle := h.le
    rw [if_neg (by simp only [not_or]; exact ⟨hpos, by omega, h.head, h.last⟩)]
    exact List.all_eq_true.mpr fun c hc => decide_eq_true (h.bytes c hc)

theorem IsLabel.dot_notMem {label : List UInt8} (h : IsLabel label) : (0x2e : UInt8) ∉ label := by
  intro hdot
  exact absurd (h.bytes _ hdot) (by decide)

/-- **The resolver takes host names and nothing else.** -/
theorem hostnameOk_iff {host : List UInt8} : hostnameOk host = true ↔ IsHostname host := by
  unfold hostnameOk
  constructor
  · intro h
    split_ifs at h with hbad
    simp only [not_or] at hbad
    refine ⟨by omega, host.splitOn 0x2e, List.splitOn_ne_nil _ _, fun label hlabel => ?_,
      (List.intercalate_splitOn _).symm⟩
    exact labelOk_iff.mp (List.all_eq_true.mp h label hlabel)
  · rintro ⟨hlen, labels, hne, hlabels, rfl⟩
    have hsplit := List.splitOn_intercalate 0x2e (fun l hl => (hlabels l hl).dot_notMem) hne
    have hempty : [] ∉ ([0x2e].intercalate labels : List UInt8).splitOn 0x2e := by
      rw [hsplit]
      exact fun h => (hlabels [] h).pos rfl
    generalize ([0x2e].intercalate labels : List UInt8) = host at hlen hsplit hempty
    -- an empty text and a dot at the end would make an empty label
    have hpos : host.length ≠ 0 := by
      intro h0
      rw [List.length_eq_zero_iff.mp h0, List.splitOn_nil] at hempty
      exact hempty (by simp)
    have hlast : host.getLast? ≠ some 0x2e := by
      intro hdot
      obtain ⟨before, rfl⟩ := List.getLast?_eq_some_iff.mp hdot
      rw [List.splitOn_append_cons_self, List.splitOn_nil] at hempty
      exact hempty (by simp)
    rw [if_neg (by simp only [not_or]; exact ⟨hpos, by omega, hlast⟩), hsplit]
    exact List.all_eq_true.mpr fun label hlabel => labelOk_iff.mpr (hlabels label hlabel)

/-! ## When a resolution blames the host name -/

/-- The query for a host name fits into its packet. -/
theorem exists_appendLabels {query label hostname : List UInt8}
    (h : query.length + label.length + hostname.length + 1 < packetMax) :
    ∃ out, appendLabels query label hostname = .ok out := by
  have happend : ∀ {query label : List UInt8}, query.length + 1 + label.length < packetMax →
      appendLabel query label = .ok (query ++ UInt8.ofNat label.length :: label) := by
    intro query label h
    rw [appendLabel, if_neg (by omega)]
  induction hostname generalizing query label with
  | nil =>
    rw [List.length_nil] at h
    rw [appendLabels]
    by_cases hlabel : label = []
    · rw [if_pos hlabel]
      exact ⟨query, rfl⟩
    · rw [if_neg hlabel]
      exact ⟨_, happend (by omega)⟩
  | cons c hostname ih =>
    rw [List.length_cons] at h
    rw [appendLabels]
    by_cases hdot : c = 0x2e
    · rw [if_pos hdot, happend (by omega)]
      refine ih ?_
      simp only [List.length_append, List.length_cons, List.length_nil]
      omega
    · rw [if_neg hdot]
      refine ih ?_
      rw [List.length_append, List.length_singleton]
      omega

theorem buildQuery_ne_invalidHostname {hostname : List UInt8} (h : hostname.length ≤ hostMax)
    (transactionId : Option UInt16) : buildQuery transactionId hostname ≠ .error .invalidHostname := by
  unfold buildQuery
  cases transactionId with
  | none => simp
  | some id =>
    have hfits : ([(id >>> 8).toUInt8, id.toUInt8, 1, 0, 0, 1, 0, 0, 0, 0, 0, 0] :
        List UInt8).length + ([] : List UInt8).length + hostname.length + 1 < packetMax := by
      rw [hostMax] at h
      simp only [List.length_cons, List.length_nil, packetMax]
      omega
    obtain ⟨out, hout⟩ := exists_appendLabels hfits
    simp [hout]

theorem queryServer_ne_invalidHostname {hostname : List UInt8} (h : hostname.length ≤ hostMax)
    (server : Option (List UInt8)) (attempt : Attempt) :
    (queryServer server hostname attempt).1 ≠ .invalidHostname := by
  unfold queryServer
  by_cases hserver : server = none ∨ ¬ attempt.address
  · rw [if_pos hserver]
    simp
  · rw [if_neg hserver]
    have hquery := buildQuery_ne_invalidHostname h attempt.transactionId
    cases hb : buildQuery attempt.transactionId hostname with
    | error result =>
      rw [hb] at hquery
      exact fun hr => hquery (congrArg _ hr)
    | ok query => cases attempt.reply <;> simp [Reply.result]

theorem queryServers_ne_invalidHostname {hostname : List UInt8} (h : hostname.length ≤ hostMax)
    {servers : List (Option (List UInt8) × Attempt)} {last : DnsResult}
    (hlast : last ≠ .invalidHostname) :
    (queryServers hostname last servers).1 ≠ .invalidHostname := by
  induction servers generalizing last with
  | nil => exact hlast
  | cons head servers ih =>
    obtain ⟨server, attempt⟩ := head
    have hne := queryServer_ne_invalidHostname h server attempt
    rw [queryServers]
    by_cases hfinal : final (queryServer server hostname attempt).1 = true
    · rw [if_pos hfinal]
      exact hne
    · rw [if_neg hfinal]
      exact ih hne

/-- **A resolution blames the host name** exactly when it is not one, before it asks a server. -/
theorem resolveA_invalidHostname_iff {config : DnsConfig}
    (hservers : config.servers.length ≠ 0 ∧ config.servers.length ≤ maxServers) (port : ℕ)
    (hostname : List UInt8) (attempts : ℕ → Attempt) :
    (resolveA config port hostname attempts).1 = .invalidHostname ↔ ¬ IsHostname hostname := by
  unfold resolveA
  rw [if_neg (by omega)]
  by_cases hok : hostnameOk hostname = true
  · have hhost := hostnameOk_iff.mp hok
    rw [if_neg (not_not.mpr hok)]
    constructor
    · intro h
      by_cases hport : 65535 < (if port = 0 then defaultPort else port)
      · rw [if_pos hport] at h
        exact absurd h (by simp)
      · rw [if_neg hport] at h
        exact absurd h (queryServers_ne_invalidHostname hhost.1 (by simp))
    · exact fun h => absurd hhost h
  · rw [if_pos hok]
    exact ⟨fun _ h => hok (hostnameOk_iff.mpr h), fun _ => rfl⟩

end DnsSimple
