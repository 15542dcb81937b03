import CrossNook.Credentials.CredentialStore
import CrossNook.Net.DnsSimple
import CrossNook.Net.RequestLines
import CrossNook.Settings.SettingsStore

/-!
# Stored configurations

What the settings store and the credential store accept, read by the protocol client: the address
that the client extracts from a base URL, the requests that it builds for that address, and the
host that the resolver is asked for.

## Main definitions

* `Kosync.UrlParts`: the parts of a base URL
* `Kosync.Routed`: a client with its route, as a session uses it

## Main results

* `Kosync.configured_usable`: a stored configuration gives a client whose requests are all built
* `Kosync.configured_hostname_iff`: the stored configurations whose host the resolver takes
-/

namespace Kosync

open Bytes (ascii IsDigit digitValue natOfDigits scan skip)
open NetSimple (Request Header requestMax)
open SettingsStore (UrlByte baseUrlValid decimalPortValid)

/-! ## Base URLs -/

/-- The parts of a base URL: scheme, host, port with its colon, path. -/
structure UrlParts (url host portText path : List UInt8) : Prop where
  split : url = ascii "https://" ++ (host ++ portText ++ path)
  bytes : ∀ b ∈ url, UrlByte b
  host_pos : host ≠ []
  host_le : host.length ≤ NetSimple.hostMax
  host_bytes : 0x3a ∉ host ∧ 0x2f ∉ host
  port : portText = [] ∨ ∃ port, portText = 0x3a :: port ∧ 0x2f ∉ port ∧ decimalPortValid port
  path_head : path = [] ∨ path.head? = some 0x2f
  path_le : path.length ≤ basePathMax

theorem notMem_scan {c : UInt8} (l : List UInt8) : c ∉ scan (· ≠ c) l := by
  intro h
  exact Bytes.mem_scan h rfl

theorem head_skip {c : UInt8} (l : List UInt8) :
    skip (· ≠ c) l = [] ∨ (skip (· ≠ c) l).head? = some c := by
  have hstops := Bytes.stops_skip (p := fun b => b ≠ c) l
  cases h : skip (· ≠ c) l with
  | nil => exact .inl rfl
  | cons b rest =>
    rw [h] at hstops
    right
    simpa using hstops

/-- **The parts of a base URL that the settings accept.** -/
theorem exists_urlParts {url : List UInt8} (h : baseUrlValid url = true) :
    ∃ host portText path, UrlParts url host portText path := by
  have hbytes := SettingsStore.baseUrlValid_byte h
  unfold baseUrlValid at h
  by_cases hscheme : url.length < 9 ∨ url.take 8 ≠ ascii "https://"
  · simp [hscheme] at h
  rw [if_neg hscheme] at h
  rw [if_neg (not_not.mpr (List.all_eq_true.mpr fun b hb => decide_eq_true (hbytes b hb)))] at h
  dsimp only at h
  have hurl : url = ascii "https://" ++ url.drop 8 := by
    rw [← not_not.mp (not_or.mp hscheme).2, List.take_append_drop]
  generalize url.drop 8 = rest at h hurl
  -- the rest is cut at the first slash
  have hrest := Bytes.scan_append_skip (p := fun c => c ≠ 0x2f) rest
  have hslash := notMem_scan (c := 0x2f) rest
  have hpath := head_skip (c := 0x2f) rest
  generalize scan (fun c => c ≠ 0x2f) rest = authority at h hrest hslash
  generalize skip (fun c => c ≠ 0x2f) rest = path at h hrest hpath
  split_ifs at h with hcount hhost
  -- and the authority at its first colon
  have hauthority := Bytes.scan_append_skip (p := fun c => c ≠ 0x3a) authority
  have hcolon := notMem_scan (c := 0x3a) authority
  have hport := head_skip (c := 0x3a) authority
  generalize scan (fun c => c ≠ 0x3a) authority = host at h hauthority hcolon hhost
  generalize skip (fun c => c ≠ 0x3a) authority = portText at h hauthority hport
  have hhostSlash : 0x2f ∉ host := fun hm => hslash (hauthority ▸ List.mem_append_left _ hm)
  have hle : path.length ≤ basePathMax ∧
      (portText = [] ∨ ∃ port, portText = 0x3a :: port ∧ 0x2f ∉ port ∧ decimalPortValid port) := by
    cases portText with
    | nil => exact ⟨of_decide_eq_true h, .inl rfl⟩
    | cons c port =>
      obtain rfl : c = 0x3a := by simpa using hport
      dsimp only at h
      split_ifs at h with hvalid
      refine ⟨of_decide_eq_true h, .inr ⟨port, rfl, ?_, hvalid⟩⟩
      intro hm
      exact hslash (hauthority ▸ List.mem_append_right _ (List.mem_cons_of_mem _ hm))
  refine ⟨host, portText, path, ?_, hbytes, ?_, ?_, ⟨hcolon, hhostSlash⟩, hle.2, hpath, hle.1⟩
  · rw [hauthority, hrest, ← hurl]
  · intro h0
    exact hhost (.inl (by simp [h0]))
  · rw [NetSimple.hostMax]
    omega

/-- The path of a base URL, without the slashes at its end. -/
theorem trimSlashes_spec (path : List UInt8) :
    (∃ k, path = trimSlashes path ++ List.replicate k 0x2f) ∧
      (trimSlashes path).getLast? ≠ some 0x2f := by
  have hrest : path.rdropWhile (fun c => decide (c = 0x2f)) ++
      path.rtakeWhile (fun c => decide (c = 0x2f)) = path := List.rdropWhile_append_rtakeWhile
  change (∃ k, path = path.rdropWhile (fun c => decide (c = 0x2f)) ++ List.replicate k 0x2f) ∧
    (path.rdropWhile fun c => decide (c = 0x2f)).getLast? ≠ some 0x2f
  constructor
  · refine ⟨(path.rtakeWhile fun c => decide (c = 0x2f)).length, ?_⟩
    have hslashes : path.rtakeWhile (fun c => decide (c = 0x2f)) =
        List.replicate (path.rtakeWhile fun c => decide (c = 0x2f)).length 0x2f :=
      List.eq_replicate_of_mem fun c hc => by simpa using List.mem_rtakeWhile_imp hc
    rw [← hslashes, hrest]
  · intro hlast
    have hne : path.rdropWhile (fun c => decide (c = 0x2f)) ≠ [] := by
      intro h0
      rw [h0] at hlast
      exact absurd hlast (by simp)
    have hnot := List.rdropWhile_last_not _ _ hne
    rw [List.getLast?_eq_some_getLast hne] at hlast
    exact hnot (by simpa using hlast)

theorem trimSlashes_head {path : List UInt8} (h : path = [] ∨ path.head? = some 0x2f) :
    trimSlashes path = [] ∨ (trimSlashes path).head? = some 0x2f := by
  obtain ⟨⟨k, hk⟩, -⟩ := trimSlashes_spec path
  cases ht : trimSlashes path with
  | nil => exact .inl rfl
  | cons c rest =>
    rw [ht] at hk
    rcases h with h0 | h0
    · rw [hk] at h0
      exact absurd h0 (by simp)
    · rw [hk] at h0
      exact .inr h0

/-! ## Ports -/

theorem parsePortLoop_digits {text : List UInt8} (hdigits : ∀ c ∈ text, IsDigit c) {digits value : ℕ}
    (hlen : digits + text.length ≤ NetSimple.portMaxText)
    (hvalue : value * 10 ^ text.length + natOfDigits text ≤ 65535) :
    NetSimple.parsePortLoop digits value text =
      some (digits + text.length, value * 10 ^ text.length + natOfDigits text) := by
  induction text generalizing digits value with
  | nil => simp [NetSimple.parsePortLoop]
  | cons c text ih =>
    obtain ⟨hc, htext⟩ := List.forall_mem_cons.mp hdigits
    have hsum : value * 10 ^ (c :: text).length + natOfDigits (c :: text) =
        (value * 10 + digitValue c) * 10 ^ text.length + natOfDigits text := by
      rw [Bytes.natOfDigits_cons, List.length_cons, pow_succ]
      ring
    have hpow : 0 < 10 ^ text.length := by positivity
    rw [List.length_cons] at hlen
    rw [hsum] at hvalue ⊢
    have hsmall := Nat.le_mul_of_pos_right (value * 10 + digitValue c) hpow
    rw [NetSimple.parsePortLoop, if_neg (by simp only [not_or, not_not]; exact ⟨hc, by omega, by omega⟩),
      ih htext (by omega) hvalue, List.length_cons]
    congr 2
    omega

/-- The settings and the network client agree on ports. -/
theorem parsePort_isSome {port : List UInt8} (h : decimalPortValid port = true) :
    port ≠ [] ∧ port.length ≤ 5 ∧ (NetSimple.parsePort port).isSome := by
  unfold decimalPortValid at h
  split_ifs at h with hlen hdigits
  rw [not_or, not_lt] at hlen
  have hall : ∀ c ∈ port, IsDigit c := fun c hc => of_decide_eq_true (List.all_eq_true.mp hdigits c hc)
  obtain ⟨hpos, hle⟩ := of_decide_eq_true h
  have hloop : NetSimple.parsePortLoop 0 0 port = _ :=
    parsePortLoop_digits hall (by rw [NetSimple.portMaxText]; omega) (by omega)
  have hne : port.length ≠ 0 := fun h0 => hlen.1 (List.length_eq_zero_iff.mp h0)
  refine ⟨hlen.1, hlen.2, ?_⟩
  unfold NetSimple.parsePort
  rw [hloop]
  dsimp only
  rw [if_neg (by omega)]
  rfl

/-! ## The client of a base URL -/

/-- The port of a base URL, with the default where it names none. -/
def effectivePort (portText : List UInt8) : List UInt8 :=
  if portText = [] then ascii "443" else portText.tail

/-- A byte that `cn_netsimple_validate` admits in a path. -/
abbrev PathByte (c : UInt8) : Prop := ¬ (c ≤ 0x20 ∨ c = 0x7f ∨ c = 0x5c)

theorem UrlByte.pathByte {c : UInt8} (h : UrlByte c) : PathByte c := by
  obtain ⟨h1, h2, -, -, -, h6⟩ := h
  grind

theorem validate_eq_true {host port path : List UInt8} (hhost : NetSimple.hostTextOk host = true)
    (hport : (NetSimple.parsePort port).isSome) (hhead : path.head? = some 0x2f)
    (hlen : path.length ≤ NetSimple.pathMax) (hbytes : ∀ c ∈ path, PathByte c) :
    NetSimple.validate host port path = true :=
  decide_eq_true ⟨hhost, hport, hhead, hlen, hbytes⟩

namespace UrlParts

variable {url host portText path : List UInt8}

theorem part_bytes (h : UrlParts url host portText path) :
    ∀ c ∈ host ++ portText ++ path, UrlByte c := by
  intro c hc
  refine h.bytes c ?_
  rw [h.split]
  exact List.mem_append_right _ hc

theorem host_ok (h : UrlParts url host portText path) : NetSimple.hostTextOk host = true := by
  refine decide_eq_true ⟨h.host_pos, h.host_le, fun c hc => ?_⟩
  have hurl := h.part_bytes c (List.mem_append_left _ (List.mem_append_left _ hc))
  have hslash : c ≠ 0x2f := fun h0 => h.host_bytes.2 (h0 ▸ hc)
  have hpath := UrlByte.pathByte hurl
  grind

theorem port_ok (h : UrlParts url host portText path) :
    (NetSimple.parsePort (effectivePort portText)).isSome ∧ effectivePort portText ≠ [] ∧
      (effectivePort portText).length ≤ 5 := by
  rcases h.port with rfl | ⟨port, rfl, -, hport⟩
  · decide
  · obtain ⟨hne, hlen, hsome⟩ := parsePort_isSome hport
    exact ⟨hsome, hne, hlen⟩

theorem authority_eq (h : UrlParts url host portText path) :
    scan (· ≠ 0x2f) (host ++ portText ++ path) = host ++ portText := by
  refine Bytes.scan_append (fun c hc h0 => ?_) fun c hc h0 => ?_
  · subst h0
    rcases List.mem_append.mp hc with hm | hm
    · exact h.host_bytes.2 hm
    · rcases h.port with rfl | ⟨port, rfl, hslash, -⟩
      · exact absurd hm (by simp)
      · rcases List.mem_cons.mp hm with h0 | hm
        · exact absurd h0 (by decide)
        · exact hslash hm
  · rcases h.path_head with rfl | hhead
    · exact absurd hc (by simp)
    · rw [hhead] at hc
      exact h0 (by simpa using hc.symm)

theorem urlHostPort_eq (h : UrlParts url host portText path) :
    urlHostPort true (host ++ portText) = some (host, effectivePort portText) := by
  have hlen : host.length ≠ 0 := fun h0 => h.host_pos (List.length_eq_zero_iff.mp h0)
  have hle := h.host_le
  have hhost : copyUrlPart (NetSimple.hostMax + 1) host = some host := by
    rw [copyUrlPart, if_neg (by omega)]
  unfold urlHostPort
  rcases h.port with rfl | ⟨port, rfl, -, hport⟩
  · rw [List.append_nil, if_neg h.host_bytes.1, hhost]
    rfl
  · obtain ⟨hne, hport5, -⟩ := parsePort_isSome hport
    have hname : scan (· ≠ 0x3a) (host ++ 0x3a :: port) = host :=
      Bytes.scan_append (fun c hc h0 => h.host_bytes.1 (h0 ▸ hc)) (by simp)
    have hdrop : (host ++ 0x3a :: port).drop (host.length + 1) = port := by
      rw [← List.drop_drop, List.drop_left' rfl, List.drop_succ_cons, List.drop_zero]
    have hportLen : port.length ≠ 0 := fun h0 => hne (List.length_eq_zero_iff.mp h0)
    have hportPart : copyUrlPart (NetSimple.portMaxText + 1) port = some port := by
      rw [copyUrlPart, NetSimple.portMaxText, if_neg (by omega)]
    rw [if_pos (by simp), hname]
    simp only [hhost, Option.bind_eq_bind, Option.bind_some, hdrop, hportPart]
    rfl

/-- The path of the client, with the bytes that a path may have. -/
theorem basePath_spec (h : UrlParts url host portText path) :
    (trimSlashes path).length ≤ basePathMax ∧ (∀ c ∈ trimSlashes path, PathByte c) ∧
      (trimSlashes path = [] ∨ (trimSlashes path).head? = some 0x2f) := by
  obtain ⟨⟨k, hk⟩, -⟩ := trimSlashes_spec path
  have hle := h.path_le
  rw [hk, List.length_append] at hle
  refine ⟨by omega, fun c hc => ?_, trimSlashes_head h.path_head⟩
  refine UrlByte.pathByte (h.part_bytes c (List.mem_append_right _ ?_))
  rw [hk]
  exact List.mem_append_left _ hc

/-- **The client of a base URL that the settings accept.** -/
theorem clientInit_eq (h : UrlParts url host portText path) {username userkey : List UInt8}
    (husername : headerTextOk username usernameMax false = true)
    (huserkey : headerTextOk userkey userkeyMax false = true) :
    clientInit url username userkey =
      some { host, port := effectivePort portText, basePath := trimSlashes path, username, userkey
             connectHost := [], tls := none, useTls := true } := by
  -- the separators that the client looks for are not in the parts of the URL
  have hbyte : ∀ b : UInt8, ¬ UrlByte b → b ∉ host ++ portText ∧ b ∉ path := by
    intro b hb
    exact ⟨fun hm => hb (h.part_bytes b (List.mem_append_left _ hm)),
      fun hm => hb (h.part_bytes b (List.mem_append_right _ hm))⟩
  obtain ⟨hat, -⟩ := hbyte 0x40 (by decide)
  obtain ⟨hquery, hquery'⟩ := hbyte 0x3f (by decide)
  obtain ⟨hhash, hhash'⟩ := hbyte 0x23 (by decide)
  have hscheme : urlScheme url = some (true, host ++ portText ++ path) := by
    have hhttp : ¬ ascii "http://" <+: url := by
      intro hp
      rw [h.split] at hp
      have := List.prefix_of_prefix_length_le hp (List.prefix_append _ _) (by decide)
      exact absurd this (by decide)
    unfold urlScheme
    rw [if_neg hhttp, if_pos (by rw [h.split]; exact List.prefix_append _ _), h.split]
    rfl
  obtain ⟨hport, -, -⟩ := h.port_ok
  obtain ⟨hlen, hbytes, hhead⟩ := h.basePath_spec
  have hle := h.path_le
  have hvalid : NetSimple.validate host (effectivePort portText)
      (if trimSlashes path ≠ [] then trimSlashes path else ascii "/") = true := by
    by_cases hnil : trimSlashes path = []
    · rw [if_neg (not_not.mpr hnil)]
      exact validate_eq_true h.host_ok hport rfl (by decide) (Bytes.forall_of_all rfl)
    · rw [if_pos hnil]
      rw [basePathMax] at hlen
      exact validate_eq_true h.host_ok hport (hhead.resolve_left hnil)
        (by rw [NetSimple.pathMax]; omega) hbytes
  have hauthority : host ++ portText ≠ [] := by
    intro h0
    exact h.host_pos (List.append_eq_nil_iff.mp h0).1
  have hport' : NetSimple.parsePort (effectivePort portText) ≠ none :=
    Option.isSome_iff_ne_none.mp hport
  unfold clientInit
  rw [if_neg (by simp [husername, huserkey]), hscheme]
  simp only [h.authority_eq, h.urlHostPort_eq, List.drop_left' rfl]
  rw [if_neg (by simp only [not_or]; exact ⟨hat, hquery, hhash, hauthority⟩),
    if_neg (by
      simp only [not_or, not_not]
      exact ⟨hport', hquery', hhash', by omega, hvalid⟩)]

end UrlParts

/-! ## The requests of a client -/

/-- The client itself, or with a TLS configuration and a route. -/
inductive Routed (client : Client) : Client → Prop
  | bare : Routed client client
  | tls {tls : TlsConfig} {connectHost : Option (List UInt8)} {routed : Client}
    (h : clientSetTls client tls connectHost = some routed) : Routed client routed

/-- What the client of a stored configuration has, with or without its route. -/
structure Addressable (client : Client) : Prop where
  host : NetSimple.hostTextOk client.host = true
  host_le : client.host.length ≤ NetSimple.hostMax
  port : (NetSimple.parsePort client.port).isSome
  port_le : client.port.length ≤ 5
  basePath_le : client.basePath.length ≤ basePathMax
  basePath_bytes : ∀ c ∈ client.basePath, PathByte c
  basePath_head : client.basePath = [] ∨ client.basePath.head? = some 0x2f
  username : client.username.length ≤ usernameMax ∧ ∀ c ∈ client.username, HeaderByte c
  userkey : client.userkey.length ≤ userkeyMax ∧ ∀ c ∈ client.userkey, HeaderByte c
  connectHost : client.connectHost = [] ∨ NetSimple.hostTextOk client.connectHost = true

theorem Addressable.routed {client routed : Client} (h : Addressable client)
    (hr : Routed client routed) : Addressable routed := by
  cases hr with
  | bare => exact h
  | @tls tls connectHost routed hset =>
    unfold clientSetTls at hset
    split_ifs at hset with htls
    cases connectHost with
    | none =>
      obtain rfl := by simpa using hset
      exact { h with }
    | some connectHost =>
      dsimp only at hset
      split_ifs at hset with hroute
      obtain rfl := by simpa using hset
      simp only [not_or, not_not] at hroute
      exact { h with connectHost := .inr (of_decide_eq_true hroute.2.2).1 }

namespace Addressable

variable {client : Client}

theorem headers_ok (h : Addressable client) :
    ∀ header ∈ requestHeaders client,
      NetSimple.headerNameOk header.name ∧ NetSimple.headerValueOk header.value := by
  have hvalue : ∀ {text : List UInt8}, text.length ≤ 255 → (∀ c ∈ text, HeaderByte c) →
      NetSimple.headerValueOk text = true := by
    intro text hlen hbytes
    refine decide_eq_true ⟨by omega, fun c hc => ?_⟩
    obtain ⟨h1, h2⟩ := hbytes c hc
    rintro (h3 | h3)
    exacts [absurd h3 (UInt8.not_lt.mpr h1), h2 h3]
  simp only [requestHeaders, List.mem_cons, List.not_mem_nil, or_false, forall_eq_or_imp, forall_eq]
  exact ⟨by decide +kernel, ⟨by decide +kernel, hvalue h.username.1 h.username.2⟩,
    by decide +kernel, hvalue h.userkey.1 h.userkey.2⟩

/-- The path of a request. -/
theorem endpointPath_eq (h : Addressable client) {suffix : List UInt8} (hlen : suffix.length ≤ 48)
    (hhead : suffix.head? = some 0x2f) (hbytes : ∀ c ∈ suffix, PathByte c) :
    endpointPath client suffix = some (client.basePath ++ suffix) ∧
      (client.basePath ++ suffix).length ≤ 1072 ∧
      NetSimple.validate client.host client.port (client.basePath ++ suffix) = true := by
  have hbase := h.basePath_le
  rw [basePathMax] at hbase
  have hpath : (client.basePath ++ suffix).length ≤ 1072 := by
    rw [List.length_append]
    omega
  refine ⟨?_, hpath, validate_eq_true h.host h.port ?_ (hpath.trans (by decide)) ?_⟩
  · unfold endpointPath
    rw [NetSimple.pathMax, if_neg (by omega)]
  · rcases h.basePath_head with h0 | h0
    · rw [h0]
      exact hhead
    · rw [List.head?_append, h0]
      rfl
  · intro c hc
    rcases List.mem_append.mp hc with hc | hc
    exacts [h.basePath_bytes c hc, hbytes c hc]

theorem connectHost_ok (h : Addressable client) :
    ¬ ∃ host ∈ (if client.connectHost ≠ [] then some client.connectHost else none),
      ¬ NetSimple.hostTextOk host := by
  rintro ⟨host, hmem, hnot⟩
  rcases h.connectHost with h0 | h0
  · rw [h0] at hmem
    exact absurd hmem (by simp)
  · split_ifs at hmem
    · obtain rfl : client.connectHost = host := by simpa using hmem
      exact hnot h0
    · exact absurd hmem (by simp)

/-- The bytes of the headers that every request has. -/
theorem length_headers (h : Addressable client) :
    ((requestHeaders client).flatMap fun header =>
      [header.name, ascii ": ", header.value, ascii "\r\n"]).flatten.length ≤ 585 := by
  have hname := h.username.1
  have hkey := h.userkey.1
  have hcolon : (ascii ": ").length = 2 := rfl
  have hend : (ascii "\r\n").length = 2 := rfl
  have haccept : (ascii "Accept").length = 6 := rfl
  have hvalue : accept.length = 32 := rfl
  have huser : (ascii "x-auth-user").length = 11 := rfl
  have hkeyName : (ascii "x-auth-key").length = 10 := rfl
  rw [usernameMax] at hname
  rw [userkeyMax] at hkey
  simp only [requestHeaders, List.flatMap_cons, List.flatMap_nil, List.append_nil,
    List.flatten_append, List.flatten_cons, List.flatten_nil, List.length_append, hcolon, hend,
    haccept, hvalue, huser, hkeyName]
  omega

/-- The bytes of a request. -/
theorem length_requestTexts (spec : Request) :
    (NetSimple.requestTexts spec).flatten.length ≤
      28 + spec.path.length + spec.host.length + spec.port.length +
        (spec.headers.flatMap fun header =>
          [header.name, ascii ": ", header.value, ascii "\r\n"]).flatten.length +
        (36 + (spec.contentType.getD []).length +
          (Bytes.decimal (spec.body.getD []).length).length) := by
  have hmethod : spec.method.text.length = 3 := by cases spec.method <;> rfl
  have hblank : (ascii " ").length = 1 := rfl
  have hversion : (ascii " HTTP/1.0\r\nHost: ").length = 17 := rfl
  have hcolon : (ascii ":").length = 1 := rfl
  have hend : (ascii "\r\n").length = 2 := rfl
  have htype : (ascii "Content-Type: ").length = 14 := rfl
  have hlength : (ascii "Content-Length: ").length = 16 := rfl
  unfold NetSimple.requestTexts
  split_ifs <;>
    simp only [List.flatten_append, List.flatten_cons, List.flatten_nil, List.length_append,
      List.length_nil, hmethod, hblank, hversion, hcolon, hend, htype, hlength] <;>
    omega

theorem build (h : Addressable client) {spec : Request} (hhost : spec.host = client.host)
    (hport : spec.port = client.port) (hheaders : spec.headers = requestHeaders client)
    (hroute : spec.connectHost =
      if client.connectHost ≠ [] then some client.connectHost else none)
    (hlen : spec.path.length ≤ 1072)
    (hvalid : NetSimple.validate client.host client.port spec.path = true)
    (hbody : NetSimple.bodyOk spec = true)
    (hsize : (spec.contentType.getD []).length +
      (Bytes.decimal (spec.body.getD []).length).length ≤ 1000) :
    ∃ request, NetSimple.buildExchangeRequest spec requestMax = some request ∧
      request.length < requestMax := by
  have htexts := length_requestTexts spec
  have hfields := h.length_headers
  have hhost255 := h.host_le
  have hport5 := h.port_le
  rw [NetSimple.hostMax] at hhost255
  rw [hhost, hport, hheaders] at htexts
  have htotal : ([] ++ (NetSimple.requestTexts spec).flatten).length < requestMax := by
    rw [List.nil_append, requestMax]
    omega
  refine ⟨_, ?_, htotal⟩
  unfold NetSimple.buildExchangeRequest
  rw [if_neg, NetSimple.appendTexts_eq (by decide), if_pos htotal]
  simp only [not_or, not_not, hhost, hport, hheaders, hroute]
  exact ⟨by decide, hvalid, h.connectHost_ok, by simp [requestHeaders, NetSimple.headerMax], hbody,
    h.headers_ok⟩

/-- **A GET request is built.** -/
theorem build_get (h : Addressable client) {path : List UInt8} (hlen : path.length ≤ 1072)
    (hvalid : NetSimple.validate client.host client.port path = true) :
    ∃ request, NetSimple.buildExchangeRequest (getRequest client path) requestMax = some request ∧
      request.length < requestMax :=
  h.build rfl rfl rfl rfl hlen hvalid rfl
    (show ([] : List UInt8).length + (Bytes.decimal 0).length ≤ 1000 by decide)

/-- **A PUT request is built.** -/
theorem build_put (h : Addressable client) {path json : List UInt8} (hlen : path.length ≤ 1072)
    (hvalid : NetSimple.validate client.host client.port path = true)
    (hjson : json.length ≤ jsonMax) :
    ∃ request, NetSimple.buildExchangeRequest (putRequest client path json) requestMax =
        some request ∧ request.length < requestMax := by
  have htypeOk : NetSimple.bodyOk (putRequest client path json) = true := by
    change NetSimple.headerValueOk contentType = true
    decide +kernel
  refine h.build rfl rfl rfl rfl hlen hvalid htypeOk ?_
  have htype : ((putRequest client path json).contentType.getD []).length = 16 := rfl
  have hbody : (putRequest client path json).body.getD [] = json := rfl
  have hdigits : (Bytes.decimal json.length).length ≤ 6 := by
    rw [Bytes.decimal, List.length_map, Nat.length_toDigits_le_iff (by decide) (by decide)]
    exact hjson.trans_lt (by decide)
  rw [htype, hbody]
  omega

end Addressable

/-- A serialized record fits into its buffer. -/
theorem length_serializeProgress {progress : Progress} {jsonCap : ℕ} {json : List UInt8}
    (h : serializeProgress progress jsonCap = (.ok, some json)) : json.length ≤ jsonCap - 1 := by
  have hlast : ∀ {cap : ℕ} {out r : List UInt8}, writerBytes cap out (ascii "\x7d") = some r →
      r.length ≤ cap := by
    intro cap out r hr
    have h1 : (ascii "\x7d").length = 1 := rfl
    unfold writerBytes at hr
    split_ifs at hr with hfull
    obtain rfl := by simpa using hr
    rw [List.length_append, h1]
    omega
  unfold serializeProgress at h
  dsimp only at h
  split at h
  · cases h
  split at h
  · cases h
  split at h
  · cases h
  rename_i out hout
  obtain rfl : out = json := by simpa using h
  -- the closing brace is the last text that is written
  simp only [Option.bind_eq_bind, Option.bind_eq_some_iff] at hout
  obtain ⟨_, -, _, -, _, -, _, -, _, -, _, -, _, -, _, -, _, -, _, -, hbrace⟩ := hout
  exact hlast hbrace

/-! ## Stored configurations -/

/-- The host, the port and the path of a client make up the base URL, up to slashes at its end. -/
def Reassembles (url : List UInt8) (client : Client) : Prop :=
  ∃ portText k, url = ascii "https://" ++ client.host ++ portText ++ client.basePath ++
      List.replicate k 0x2f ∧
    (portText = [] ∧ client.port = ascii "443" ∨ portText = 0x3a :: client.port) ∧
    client.basePath.getLast? ≠ some 0x2f

/-- A request of the client to the path that `suffix` extends is built. -/
def Builds (client : Client) (suffix : List UInt8) (request : List UInt8 → Request) : Prop :=
  ∃ path text, endpointPath client suffix = some path ∧
    NetSimple.buildExchangeRequest (request path) requestMax = some text ∧ text.length < requestMax

theorem UrlParts.reassembles {url host portText path : List UInt8}
    (h : UrlParts url host portText path) {client : Client} (hhost : client.host = host)
    (hport : client.port = effectivePort portText) (hpath : client.basePath = trimSlashes path) :
    Reassembles url client := by
  obtain ⟨⟨k, hk⟩, hlast⟩ := trimSlashes_spec path
  refine ⟨portText, k, ?_, ?_, by rwa [hpath]⟩
  · rw [hhost, hpath, List.append_assoc, ← hk, h.split]
    simp
  · rcases h.port with rfl | ⟨port, rfl, -⟩
    · exact .inl ⟨rfl, hport⟩
    · exact .inr (by rw [hport]; rfl)

theorem headerTextOk_of_validText {text : List UInt8} {max : ℕ}
    (h : CredentialStore.validText text max = true) : headerTextOk text max false = true := by
  obtain ⟨hne, hlen, hbytes⟩ := CredentialStore.validText_iff.mp h
  refine headerTextOk_iff.mpr ⟨hlen, fun _ => hne, fun c hc => ?_⟩
  have := hbytes c hc
  exact ⟨UInt8.not_lt.mp fun h0 => this (.inl h0), fun h0 => this (.inr h0)⟩

theorem documentId_suffix {documentId : List UInt8} (h : documentIdOk documentId = true) :
    (ascii "/syncs/progress/" ++ documentId).length ≤ 48 ∧
      ∀ c ∈ ascii "/syncs/progress/" ++ documentId, PathByte c := by
  obtain ⟨hlen, hbytes⟩ := documentIdOk_iff.mp h
  have hstem : (ascii "/syncs/progress/").length = 16 := rfl
  constructor
  · rw [List.length_append, hstem, hlen, documentIdBytes]
  · intro c hc
    rcases List.mem_append.mp hc with hc | hc
    · exact Bytes.forall_of_all (p := PathByte) rfl c hc
    · have := hbytes c hc
      grind

/-- The client that the stores configure. -/
theorem addressable_clientInit {url host portText path : List UInt8}
    (h : UrlParts url host portText path) {username userkey : List UInt8}
    (husername : headerTextOk username usernameMax false = true)
    (huserkey : headerTextOk userkey userkeyMax false = true) :
    Addressable { host, port := effectivePort portText, basePath := trimSlashes path, username
                  userkey, connectHost := [], tls := none, useTls := true } := by
  obtain ⟨hport, -, hportLen⟩ := h.port_ok
  obtain ⟨hpathLen, hpathBytes, hpathHead⟩ := h.basePath_spec
  obtain ⟨hname, -, hnameBytes⟩ := headerTextOk_iff.mp husername
  obtain ⟨hkey, -, hkeyBytes⟩ := headerTextOk_iff.mp huserkey
  exact ⟨h.host_ok, h.host_le, hport, hportLen, hpathLen, hpathBytes, hpathHead,
    ⟨hname, hnameBytes⟩, ⟨hkey, hkeyBytes⟩, .inl rfl⟩

/-- **A stored configuration can be used.** -/
theorem configured_usable {settings : Settings} {credentials : Credentials}
    (hsettings : SettingsStore.validate settings = .ok) (hurl : settings.kosyncBaseUrl ≠ [])
    (husername : CredentialStore.validText credentials.username CredentialStore.usernameMax = true)
    (huserkey : CredentialStore.validText credentials.userkey CredentialStore.userkeyMax = true) :
    ∃ client, clientInit settings.kosyncBaseUrl credentials.username credentials.userkey =
        some client ∧ client.useTls = true ∧ Reassembles settings.kosyncBaseUrl client ∧
      ∀ routed, Routed client routed →
        Builds routed (ascii "/users/auth") (getRequest routed) ∧
        (∀ documentId, documentIdOk documentId = true →
          Builds routed (ascii "/syncs/progress/" ++ documentId) (getRequest routed)) ∧
        ∀ progress json, serializeProgress progress (jsonMax + 1) = (.ok, some json) →
          Builds routed (ascii "/syncs/progress") fun path => putRequest routed path json := by
  obtain ⟨host, portText, path, hparts⟩ :=
    exists_urlParts (SettingsStore.baseUrlValid_of_validate hsettings hurl)
  have hname := headerTextOk_of_validText husername
  have hkey := headerTextOk_of_validText huserkey
  refine ⟨_, hparts.clientInit_eq hname hkey, rfl, hparts.reassembles rfl rfl rfl, ?_⟩
  intro routed hrouted
  -- every request to the client is built alike, from its host, its path and the suffix
  have haddr := (addressable_clientInit hparts hname hkey).routed hrouted
  refine ⟨?_, fun documentId hdocument => ?_, fun progress json hjson => ?_⟩
  · obtain ⟨hpath, hlen, hvalid⟩ :=
      haddr.endpointPath_eq (by decide : (ascii "/users/auth").length ≤ 48) rfl
        (Bytes.forall_of_all (p := PathByte) rfl)
    obtain ⟨text, htext, hfits⟩ := haddr.build_get hlen hvalid
    exact ⟨_, text, hpath, htext, hfits⟩
  · obtain ⟨hsuffix, hbytes⟩ := documentId_suffix hdocument
    obtain ⟨hpath, hlen, hvalid⟩ := haddr.endpointPath_eq hsuffix rfl hbytes
    obtain ⟨text, htext, hfits⟩ := haddr.build_get hlen hvalid
    exact ⟨_, text, hpath, htext, hfits⟩
  · obtain ⟨hpath, hlen, hvalid⟩ :=
      haddr.endpointPath_eq (by decide : (ascii "/syncs/progress").length ≤ 48) rfl
        (Bytes.forall_of_all (p := PathByte) rfl)
    obtain ⟨text, htext, hfits⟩ := haddr.build_put hlen hvalid (length_serializeProgress hjson)
    exact ⟨_, text, hpath, htext, hfits⟩

/-- Settings with a path and a port in the URL. -/
def sampleSettings : Settings := ⟨1, ascii "https://sync.example.test:8443/base/", ascii "Nook"⟩

/-- Credentials that the store accepts. -/
def sampleCredentials : Credentials := ⟨ascii "reader", ascii "0123456789abcdef"⟩

/-- The client of the sample configuration. -/
def sampleClient : Client :=
  { host := ascii "sync.example.test", port := ascii "8443", basePath := ascii "/base"
    username := sampleCredentials.username, userkey := sampleCredentials.userkey
    connectHost := [], tls := none, useTls := true }

theorem sampleSettings_accepted : SettingsStore.validate sampleSettings = .ok ∧
    CredentialStore.validText sampleCredentials.username CredentialStore.usernameMax = true ∧
    CredentialStore.validText sampleCredentials.userkey CredentialStore.userkeyMax = true ∧
    clientInit sampleSettings.kosyncBaseUrl sampleCredentials.username sampleCredentials.userkey =
      some sampleClient ∧
    DnsSimple.hostnameOk sampleClient.host = true := by
  decide +kernel

theorem configured_usable_sample :
    ∃ client, clientInit sampleSettings.kosyncBaseUrl sampleCredentials.username
        sampleCredentials.userkey = some client ∧ client.useTls = true ∧
      Reassembles sampleSettings.kosyncBaseUrl client :=
  have ⟨hsettings, husername, huserkey, _⟩ := sampleSettings_accepted
  have ⟨client, hclient, htls, hparts, _⟩ :=
    @configured_usable sampleSettings sampleCredentials hsettings (by decide) husername huserkey
  ⟨client, hclient, htls, hparts⟩

/-! ## The host of a stored configuration -/

/-- **The resolver takes the host of a stored configuration** exactly when it is a host name, and
no resolution of it blames the host name then. -/
theorem configured_hostname_iff {settings : Settings}
    (hsettings : SettingsStore.validate settings = .ok) (hurl : settings.kosyncBaseUrl ≠ [])
    {username userkey : List UInt8} {client : Client}
    (hclient : clientInit settings.kosyncBaseUrl username userkey = some client) {config : DnsConfig}
    (hservers : config.servers.length ≠ 0 ∧ config.servers.length ≤ DnsSimple.maxServers) :
    Reassembles settings.kosyncBaseUrl client ∧
      (DnsSimple.hostnameOk client.host = true ↔ DnsSimple.IsHostname client.host) ∧
      ∀ port attempts,
        (DnsSimple.resolveA config port client.host attempts).1 = .invalidHostname ↔
          ¬ DnsSimple.IsHostname client.host := by
  obtain ⟨host, portText, path, hparts⟩ :=
    exists_urlParts (SettingsStore.baseUrlValid_of_validate hsettings hurl)
  have htexts : headerTextOk username usernameMax false = true ∧
      headerTextOk userkey userkeyMax false = true := by
    unfold clientInit at hclient
    split_ifs at hclient with hbad
    simpa only [not_or, not_not] using hbad
  rw [hparts.clientInit_eq htexts.1 htexts.2] at hclient
  obtain rfl := by simpa using hclient
  exact ⟨hparts.reassembles rfl rfl rfl, DnsSimple.hostnameOk_iff,
    fun port attempts => DnsSimple.resolveA_invalidHostname_iff hservers port _ attempts⟩

/-- A server that answers. -/
def sampleAttempt : DnsSimple.Attempt := ⟨true, some 7, .ok, [ascii "10.0.0.1"]⟩

theorem configured_hostname_sample :
    DnsSimple.IsHostname sampleClient.host ∧
      (DnsSimple.resolveA ⟨[some (ascii "1.1.1.1")]⟩ 0 sampleClient.host
        (fun _ => sampleAttempt)).1 ≠ .invalidHostname := by
  obtain ⟨hsettings, -, -, hclient, hok⟩ := sampleSettings_accepted
  have h := @configured_hostname_iff sampleSettings hsettings (by decide) _ _ _ hclient
    ⟨[some (ascii "1.1.1.1")]⟩ (by decide)
  have hhost := h.2.1.mp hok
  exact ⟨hhost, fun hinvalid => (h.2.2 0 _).mp hinvalid hhost⟩

/-- The settings accept a host that the resolver refuses. -/
theorem configured_hostname_underscore :
    SettingsStore.validate ⟨1, ascii "https://a_b", ascii "Nook"⟩ = .ok ∧
      (∃ client, clientInit (ascii "https://a_b") (ascii "u") (ascii "k") = some client ∧
        DnsSimple.hostnameOk client.host = false ∧
        (DnsSimple.resolveA ⟨[some (ascii "1.1.1.1")]⟩ 0 client.host
          (fun _ => sampleAttempt)).1 = .invalidHostname) := by
  refine ⟨by decide +kernel, ⟨ascii "a_b", ascii "443", [], ascii "u", ascii "k", [], none, true⟩, ?_⟩
  decide +kernel

end Kosync
