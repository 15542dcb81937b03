import CrossNook.Net.DnsQuery
import CrossNook.Net.RequestLines

/-!
# Responses

`parse_response` (`net/dnssimple.c`) reads a packet that anyone may have sent. It fills the answer
record by record, before it knows whether the packet is good. Every read of a word takes a proof
that the word lies inside the packet, which the checks in front of it give.

## Main definitions

* `DnsSimple.parseResponse`: `parse_response`
* `DnsSimple.RecordsAt packet p records e`: the records from `p` to `e`
* `DnsSimple.Owned hostname record`: an address record of a host name
* `DnsSimple.Answers packet id hostname addresses`: a packet answers a query with these addresses

## Main results

* `DnsSimple.parseRecords_eq_ok`: the records that the loop has read, and what it took from them
* `DnsSimple.parseResponse_ok`: a packet that is taken answers the query
-/

namespace DnsSimple

open Bytes (decimal)

/-- `CN_DNS_HEADER_BYTES`. -/
def headerBytes : ℕ := 12

/-- `CN_DNS_RECORDS_MAX`. -/
def recordsMax : ℕ := 32

/-- `CN_DNS_MAX_IPV4`. -/
def maxIpv4 : ℕ := 4

/-- `cn_dns_answer`. -/
structure Answer where
  ipv4 : List (List UInt8)
  serverIndex : ℕ
  deriving DecidableEq, Repr

/-- The answer that `memset` leaves. -/
def Answer.zero : Answer := ⟨[], 0⟩

/-- `load_u16` inside a packet. -/
def loadAt (packet : List UInt8) (p : ℕ) (h : p + 2 ≤ packet.length) : UInt16 :=
  loadU16 (packet.get ⟨p, by omega⟩) (packet.get ⟨p + 1, by omega⟩)

theorem u16At_eq_loadAt {packet : List UInt8} {p : ℕ} (h : p + 2 ≤ packet.length) :
    u16At packet p = some (loadAt packet p h) := by
  have hhigh : packet[p]? = some (packet.get ⟨p, by omega⟩) := List.getElem?_eq_getElem _
  have hlow : packet[p + 1]? = some (packet.get ⟨p + 1, by omega⟩) := List.getElem?_eq_getElem _
  rw [u16At, hhigh, hlow]
  rfl

/-! ## Names and addresses -/

/-- A letter in the comparison of `name_equal`. -/
def asciiLower (c : UInt8) : UInt8 := if 0x41 ≤ c ∧ c ≤ 0x5a then c + (0x61 - 0x41) else c

/-- `name_equal`. -/
def nameEqual : List UInt8 → List UInt8 → Bool
  | a :: left, b :: right => if asciiLower a ≠ asciiLower b then false else nameEqual left right
  | left, right => left.head? = right.head?

/-- The same name in upper or lower case. -/
abbrev SameName (left right : List UInt8) : Prop := left.map asciiLower = right.map asciiLower

theorem nameEqual_iff {left right : List UInt8} : nameEqual left right = true ↔ SameName left right := by
  induction left generalizing right with
  | nil => cases right <;> simp [nameEqual]
  | cons a left ih =>
    cases right with
    | nil => simp [nameEqual]
    | cons b right =>
      rw [nameEqual, SameName, List.map_cons, List.map_cons, List.cons.injEq]
      by_cases hab : asciiLower a = asciiLower b
      · rw [if_neg (not_not.mpr hab), ih, and_iff_right hab]
      · rw [if_pos hab]
        simp [hab]

/-- An address as text. -/
def ipv4Text (data : List UInt8) : List UInt8 := dotted (data.map fun b => decimal b.toNat)

/-- Different addresses have different texts. -/
theorem ipv4Text_injective {data data' : List UInt8} (h : data.length = data'.length)
    (htext : ipv4Text data = ipv4Text data') : data = data' := by
  have hbyte : ∀ n : Fin 256, Bytes.natOfDigits (decimal n.val) = n.val := by decide +kernel
  have hdot : ∀ {data : List UInt8}, ∀ text ∈ data.map fun b => decimal b.toNat,
      (0x2e : UInt8) ∉ text := by
    intro data text htext
    obtain ⟨b, -, rfl⟩ := List.mem_map.mp htext
    intro hmem
    exact absurd (NetSimple.isDigit_decimal _ _ hmem) (by decide)
  have hinj : Function.Injective fun b : UInt8 => decimal b.toNat := by
    intro b b' hb
    have hvalue := congrArg Bytes.natOfDigits hb
    exact UInt8.toNat_inj.mp ((hbyte b.toFin).symm.trans (hvalue.trans (hbyte b'.toFin)))
  cases hd : data with
  | nil =>
    rw [hd] at h
    exact (List.length_eq_zero_iff.mp h.symm).symm
  | cons b rest =>
    have hne : data ≠ [] := by simp [hd]
    have hne' : data' ≠ [] := by
      rintro rfl
      simp [hd] at h
    have hsplit := congrArg (List.splitOn 0x2e) htext
    rw [ipv4Text, ipv4Text, dotted, dotted, List.splitOn_intercalate _ hdot (by simpa using hne),
      List.splitOn_intercalate _ hdot (by simpa using hne')] at hsplit
    rw [← hd]
    exact List.map_injective_iff.mpr hinj hsplit

/-! ## The parser -/

/-- `decode_name` for a caller that only asks whether it succeeds. -/
def readName (packet : List UInt8) (offset : ℕ) : Option Name :=
  match (decodeName packet offset).2 with
  | .name name => some name
  | _ => none

/-- What the loop of `parse_response` reads of a record. -/
structure Record where
  owner : Name
  type : UInt16
  classValue : UInt16
  data : List UInt8
  deriving DecidableEq, Repr

/-- `data_offset` of a record. -/
def Record.dataOffset (record : Record) : ℕ := record.owner.next + 10

/-- The offset after a record. -/
def Record.next (record : Record) : ℕ := record.dataOffset + record.data.length

/-- The reads and checks at the start of the loop of `parse_response`. -/
def readRecord (packet : List UInt8) (offset : ℕ) : Option Record :=
  match readName packet offset with
  | none => none
  | some owner =>
    if h : owner.next + 10 ≤ packet.length then
      let type := loadAt packet owner.next (by omega)
      let classValue := loadAt packet (owner.next + 2) (by omega)
      let dataLength := loadAt packet (owner.next + 8) (by omega)
      match bytesAt packet (owner.next + 10) dataLength.toNat with
      | none => none
      | some data =>
        if type = 1 ∧ classValue = 1 ∧ data.length ≠ 4 then none
        else some ⟨owner, type, classValue, data⟩
    else none

/-- `answer_contains` and the two lines after it. -/
def Answer.add (answer : Answer) (address : List UInt8) : Answer :=
  if address ∉ answer.ipv4 ∧ answer.ipv4.length < maxIpv4 then
    { answer with ipv4 := answer.ipv4 ++ [address] }
  else answer

/-- What a record changes: the answer and `saw_cname`. -/
def takeRecord (packet hostname : List UInt8) (inAnswers : Bool) (record : Record)
    (answer : Answer) (sawCname : Bool) : Option (Answer × Bool) :=
  if inAnswers ∧ record.type = 1 ∧ record.classValue = 1 ∧ record.owner.hostnameSyntax ∧
      nameEqual record.owner.text hostname then
    some (answer.add (ipv4Text record.data), sawCname)
  else if inAnswers ∧ record.type = 5 ∧ record.classValue = 1 ∧ record.owner.hostnameSyntax ∧
      nameEqual record.owner.text hostname then
    match readName packet record.dataOffset with
    | none => none
    | some cname => if cname.next ≠ record.next then none else some (answer, true)
  else some (answer, sawCname)

/-- The loop of `parse_response` from record `i` on, with `n` records to go. An error leaves the
answer as far as it is filled. -/
def parseRecords (packet hostname : List UInt8) (answerCount : ℕ) (i : ℕ) :
    ℕ → ℕ → Answer → Bool → Except Answer (ℕ × Answer × Bool)
  | 0, offset, answer, sawCname => .ok (offset, answer, sawCname)
  | n + 1, offset, answer, sawCname =>
    match readRecord packet offset with
    | none => .error answer
    | some record =>
      match takeRecord packet hostname (i < answerCount) record answer sawCname with
      | none => .error answer
      | some (answer, sawCname) =>
        parseRecords packet hostname answerCount (i + 1) n record.next answer sawCname

/-- The question in `parse_response`: the offset after it. -/
def parseQuestion (packet hostname : List UInt8) : Option ℕ :=
  match readName packet headerBytes with
  | none => none
  | some name =>
    if ¬ name.hostnameSyntax ∨ ¬ nameEqual name.text hostname then none
    else if h : name.next + 4 ≤ packet.length then
      if loadAt packet name.next (by omega) ≠ 1 ∨ loadAt packet (name.next + 2) (by omega) ≠ 1 then
        none
      else some (name.next + 4)
    else none

/-- The end of `parse_response`. -/
def answerResult (flags : UInt16) (answer : Answer) (sawCname : Bool) : DnsResult × Answer :=
  let rcode := flags &&& 0x000f
  let answer := if rcode ≠ 0 then Answer.zero else answer
  if rcode = 3 then (.nxdomain, answer)
  else if rcode ≠ 0 then (.serverFailure, answer)
  else if answer.ipv4.length ≠ 0 then (.ok, answer)
  else (if sawCname then .unsupportedCname else .noAddress, answer)

theorem header_le {packet : List UInt8} (h : headerBytes ≤ packet.length) {p : ℕ} (hp : p ≤ 10) :
    p + 2 ≤ packet.length := by
  unfold headerBytes at h
  omega

/-- `parse_response`. -/
def parseResponse (packet : List UInt8) (expectedId : UInt16) (hostname : List UInt8)
    (answer : Answer) : DnsResult × Answer :=
  if h : headerBytes ≤ packet.length then
    let flags := loadAt packet 2 (header_le h (by decide))
    -- the answer to another query is one that did not come in time
    if loadAt packet 0 (header_le h (by decide)) ≠ expectedId then (.timeout, answer)
    -- a response to a standard query, with the reserved bit clear
    else if flags &&& 0x8000 = 0 ∨ flags &&& 0x7800 ≠ 0 ∨ flags &&& 0x0040 ≠ 0 then
      (.malformedResponse, answer)
    else if loadAt packet 4 (header_le h (by decide)) ≠ 1 then (.malformedResponse, answer)
    else if flags &&& 0x0200 ≠ 0 then (.truncatedResponse, answer)
    else
      match parseQuestion packet hostname with
      | none => (.malformedResponse, answer)
      | some offset =>
        let answerCount := (loadAt packet 6 (header_le h (by decide))).toNat
        let totalRecords := answerCount + (loadAt packet 8 (header_le h (by decide))).toNat +
          (loadAt packet 10 (header_le h (by decide))).toNat
        if recordsMax < totalRecords then (.malformedResponse, answer)
        else
          match parseRecords packet hostname answerCount 0 totalRecords offset answer false with
          | .error answer => (.malformedResponse, answer)
          | .ok (offset, answer, sawCname) =>
            -- nothing may stand behind the records
            if offset ≠ packet.length then (.malformedResponse, answer)
            else answerResult flags answer sawCname
  else (.malformedResponse, answer)

/-! ## Distinct addresses -/

section Distinct

variable {α β : Type*} [BEq α] [LawfulBEq α] [BEq β] [LawfulBEq β]

theorem eraseDups_concat_of_mem {l : List α} {a : α} (ha : a ∈ l) :
    (l ++ [a]).eraseDups = l.eraseDups := by
  rw [List.eraseDups_append]
  simp [List.removeAll, ha]

theorem eraseDups_concat_of_notMem {l : List α} {a : α} (ha : a ∉ l) :
    (l ++ [a]).eraseDups = l.eraseDups ++ [a] := by
  rw [List.eraseDups_append]
  simp [List.removeAll, ha, List.eraseDups_cons]

theorem eraseDups_map {f : α → β} {l : List α}
    (hf : ∀ a ∈ l, ∀ b ∈ l, f a = f b → a = b) : (l.map f).eraseDups = l.eraseDups.map f := by
  induction l using List.reverseRecOn with
  | nil => rfl
  | append_singleton l a ih =>
    have hmem : ∀ {b}, b ∈ l → b ∈ l ++ [a] := fun hb => List.mem_append_left _ hb
    have hin : f a ∈ l.map f ↔ a ∈ l := by
      constructor
      · intro h
        obtain ⟨b, hb, hab⟩ := List.mem_map.mp h
        rw [← hf b (hmem hb) a (by simp) hab]
        exact hb
      · exact List.mem_map_of_mem
    have hl := ih fun b hb c hc => hf b (hmem hb) c (hmem hc)
    rw [List.map_append, List.map_singleton]
    by_cases ha : a ∈ l
    · rw [eraseDups_concat_of_mem (hin.mpr ha), eraseDups_concat_of_mem ha, hl]
    · rw [eraseDups_concat_of_notMem fun h => ha (hin.mp h), eraseDups_concat_of_notMem ha, hl,
        List.map_append, List.map_singleton]

end Distinct

/-- **Filling an answer** keeps the first four distinct addresses. -/
theorem ipv4_foldl_add (addresses : List (List UInt8)) :
    (addresses.foldl Answer.add .zero) = ⟨addresses.eraseDups.take maxIpv4, 0⟩ := by
  induction addresses using List.reverseRecOn with
  | nil => rfl
  | append_singleton addresses address ih =>
    rw [List.foldl_append, List.foldl_cons, List.foldl_nil, ih, Answer.add]
    dsimp only
    by_cases hmem : address ∈ addresses
    · rw [eraseDups_concat_of_mem hmem, if_neg]
      rintro ⟨hnew, hroom⟩
      rw [List.length_take] at hroom
      rw [List.take_of_length_le (by omega)] at hnew
      exact hnew (List.mem_eraseDups.mpr hmem)
    · rw [eraseDups_concat_of_notMem hmem]
      have hnew : address ∉ addresses.eraseDups.take maxIpv4 :=
        fun h => hmem (List.mem_eraseDups.mp (List.mem_of_mem_take h))
      by_cases hroom : addresses.eraseDups.length < maxIpv4
      · rw [if_pos ⟨hnew, by rw [List.length_take]; omega⟩, List.take_of_length_le (by omega),
          List.take_of_length_le (by rw [List.length_append, List.length_singleton]; omega)]
      · rw [if_neg fun h => by rw [List.length_take] at h; omega,
          List.take_append_of_le_length (by omega)]

/-! ## What a packet says -/

/-- The name at `p` is a host name, in upper or lower case; the offset after it is `next`. -/
def NamesHost (packet : List UInt8) (p : ℕ) (hostname : List UInt8) (next : ℕ) : Prop :=
  ∃ labels hops, Expands packet p labels hops ∧ (∀ label ∈ labels, IsLabel label) ∧
    SameName (dotted labels) hostname ∧ Stands packet p next

/-- The record at `p`: its owner, which is some name, its type, class and data. -/
structure RecordAt (packet : List UInt8) (p : ℕ) (record : Record) : Prop where
  owner : ∃ labels hops, NameAt packet p labels hops record.owner
  type : u16At packet record.owner.next = some record.type
  classValue : u16At packet (record.owner.next + 2) = some record.classValue
  length : ∃ length, u16At packet (record.owner.next + 8) = some length ∧
    bytesAt packet record.dataOffset length.toNat = some record.data

/-- The records from one offset to another, one directly after the other. -/
inductive RecordsAt (packet : List UInt8) : ℕ → List Record → ℕ → Prop
  | nil (p : ℕ) : RecordsAt packet p [] p
  | cons {p e : ℕ} {record : Record} {records : List Record} (h : RecordAt packet p record)
      (hrest : RecordsAt packet record.next records e) : RecordsAt packet p (record :: records) e

/-- An address record of a host name: type `A`, class `IN`, and the host name, in upper or lower
case, is the owner. -/
structure Owned (hostname : List UInt8) (record : Record) : Prop where
  type : record.type = 1
  classValue : record.classValue = 1
  owner : record.owner.hostnameSyntax = true ∧ SameName record.owner.text hostname

instance (hostname : List UInt8) (record : Record) : Decidable (Owned hostname record) :=
  decidable_of_iff (record.type = 1 ∧ record.classValue = 1 ∧
    record.owner.hostnameSyntax = true ∧ SameName record.owner.text hostname)
    ⟨fun h => ⟨h.1, h.2.1, h.2.2⟩, fun h => ⟨h.type, h.classValue, h.owner⟩⟩

/-- The owner of an address record of a host name is the host name by its labels. -/
theorem Owned.labels {packet hostname : List UInt8} {record : Record} {p hops : ℕ}
    {labels : List (List UInt8)} (h : Owned hostname record)
    (hat : NameAt packet p labels hops record.owner) :
    (∀ label ∈ labels, IsLabel label) ∧ SameName (dotted labels) hostname := by
  have hall : labels.all labelOk = true := hat.hostnameSyntax ▸ h.owner.1
  have htext := hat.text
  rw [if_pos hall] at htext
  exact ⟨fun label hl => labelOk_iff.mp (List.all_eq_true.mp hall label hl),
    htext ▸ h.owner.2⟩

/-- The header of a response to the query `id`: a response, of opcode zero, not truncated, with one
question and three numbers of records. -/
structure HeaderAt (packet : List UInt8) (id flags : UInt16)
    (answers authorities additionals : ℕ) : Prop where
  id : u16At packet 0 = some id
  flagsAt : u16At packet 2 = some flags
  response : flags &&& 0x8000 ≠ 0
  opcode : flags &&& 0x7800 = 0
  whole : flags &&& 0x0200 = 0
  questions : u16At packet 4 = some 1
  answers : ∃ n, u16At packet 6 = some n ∧ n.toNat = answers
  authorities : ∃ n, u16At packet 8 = some n ∧ n.toNat = authorities
  additionals : ∃ n, u16At packet 10 = some n ∧ n.toNat = additionals

/-- The addresses of the host name in the answer section, four bytes each. -/
def addressesOf (hostname : List UInt8) (answers : ℕ) (records : List Record) :
    List (List UInt8) :=
  ((records.take answers).filter (Owned hostname ·)).map Record.data

/-- A packet responds to the query `id` for a host name with addresses of four bytes: its one
question is the host name, its records fill it exactly, and the addresses are the first four
distinct ones of the address records of the host name in the answer section. -/
def Responds (packet : List UInt8) (id flags : UInt16) (hostname : List UInt8)
    (addresses : List (List UInt8)) : Prop :=
  ∃ answers authorities additionals next records,
    HeaderAt packet id flags answers authorities additionals ∧
    answers + authorities + additionals ≤ recordsMax ∧
    NamesHost packet headerBytes hostname next ∧
    u16At packet next = some 1 ∧ u16At packet (next + 2) = some 1 ∧
    RecordsAt packet (next + 4) records packet.length ∧
    records.length = answers + authorities + additionals ∧
    addresses = (addressesOf hostname answers records).eraseDups.take maxIpv4 ∧
    ∀ address ∈ addresses, address.length = 4

/-- A packet answers the query `id` for a host name: it responds with an address, and its return
code is zero. -/
def Answers (packet : List UInt8) (id : UInt16) (hostname : List UInt8)
    (addresses : List (List UInt8)) : Prop :=
  ∃ flags, Responds packet id flags hostname addresses ∧ flags &&& 0x000f = 0 ∧ addresses ≠ []

/-! ## What the parser has read -/

section Parser

variable {packet hostname : List UInt8}

theorem nameAt_of_readName (hp : packet.length ≤ packetMax) {offset : ℕ} {name : Name}
    (h : readName packet offset = some name) :
    ∃ labels hops, NameAt packet offset labels hops name := by
  unfold readName at h
  cases hdecode : decodeName packet offset with
  | mk hops verdict =>
    rw [hdecode] at h
    cases verdict with
    | name decoded =>
      obtain rfl := Option.some.inj h
      obtain ⟨labels, hat⟩ := (decodeName_iff hp offset hops decoded).mp hdecode
      exact ⟨labels, hops, hat⟩
    | malformed => simp at h
    | outOfBounds => simp at h
    | unfinished => simp at h

/-- A record that is read stands in the packet, and an address has four bytes. -/
theorem recordAt_of_readRecord (hp : packet.length ≤ packetMax) {offset : ℕ} {record : Record}
    (h : readRecord packet offset = some record) :
    RecordAt packet offset record ∧ (Owned hostname record → record.data.length = 4) := by
  unfold readRecord at h
  cases howner : readName packet offset with
  | none => simp [howner] at h
  | some owner =>
    simp only [howner] at h
    split_ifs at h with hfits
    cases hdata : bytesAt packet (owner.next + 10)
        (loadAt packet (owner.next + 8) (by omega)).toNat with
    | none => simp [hdata] at h
    | some data =>
      simp only [hdata] at h
      split_ifs at h with hbad
      obtain rfl := Option.some.inj h
      have hword : ∀ {k : ℕ} (hk : k ≤ 8), u16At packet (owner.next + k) =
          some (loadAt packet (owner.next + k) (by omega)) := fun hk => u16At_eq_loadAt (by omega)
      refine ⟨⟨nameAt_of_readName hp howner, hword (by decide : 0 ≤ 8), hword (by decide), _,
        hword (by decide), hdata⟩, fun howned => ?_⟩
      by_contra hlen
      exact hbad ⟨howned.type, howned.classValue, hlen⟩

/-- **Only an address record of the host name contributes**, and only in the answer section. -/
theorem takeRecord_eq_some {inAnswers : Bool} {record : Record} {answer answer' : Answer}
    {sawCname sawCname' : Bool}
    (h : takeRecord packet hostname inAnswers record answer sawCname =
      some (answer', sawCname')) :
    answer' = if inAnswers = true ∧ Owned hostname record then answer.add (ipv4Text record.data)
      else answer := by
  unfold takeRecord at h
  by_cases howned : inAnswers = true ∧ Owned hostname record
  · have hconditions : inAnswers ∧ record.type = 1 ∧ record.classValue = 1 ∧
        record.owner.hostnameSyntax ∧ nameEqual record.owner.text hostname :=
      ⟨howned.1, howned.2.type, howned.2.classValue, howned.2.owner.1,
        nameEqual_iff.mpr howned.2.owner.2⟩
    rw [if_pos hconditions, Option.some.injEq, Prod.mk.injEq] at h
    rw [if_pos howned]
    exact h.1.symm
  · have hconditions : ¬ (inAnswers ∧ record.type = 1 ∧ record.classValue = 1 ∧
        record.owner.hostnameSyntax ∧ nameEqual record.owner.text hostname) := by
      rintro ⟨hin, htype, hclass, hsyntax, hname⟩
      exact howned ⟨hin, htype, hclass, hsyntax, nameEqual_iff.mp hname⟩
    rw [if_neg hconditions] at h
    rw [if_neg howned]
    split_ifs at h with hcname
    · cases hread : readName packet record.dataOffset with
      | none => simp [hread] at h
      | some cname =>
        simp only [hread] at h
        split_ifs at h
        exact (Prod.mk.inj (Option.some.inj h)).1.symm
    · exact (Prod.mk.inj (Option.some.inj h)).1.symm

/-- **What the loop has read** when it ends: records that follow one another, and from them the
addresses of the host name in the answer section. -/
theorem parseRecords_eq_ok (hp : packet.length ≤ packetMax) {answerCount n i offset e : ℕ}
    {answer answer' : Answer} {sawCname sawCname' : Bool}
    (h : parseRecords packet hostname answerCount i n offset answer sawCname =
      .ok (e, answer', sawCname')) :
    ∃ records, RecordsAt packet offset records e ∧ records.length = n ∧
      (∀ record ∈ records, Owned hostname record → record.data.length = 4) ∧
      answer' = (((records.take (answerCount - i)).filter (Owned hostname ·)).map
        fun record => ipv4Text record.data).foldl Answer.add answer := by
  induction n generalizing i offset answer sawCname with
  | zero =>
    rw [parseRecords, Except.ok.injEq, Prod.mk.injEq, Prod.mk.injEq] at h
    obtain ⟨rfl, rfl, -⟩ := h
    exact ⟨[], .nil offset, rfl, by simp, by simp⟩
  | succ n ih =>
    rw [parseRecords] at h
    cases hread : readRecord packet offset with
    | none => simp [hread] at h
    | some record =>
      simp only [hread] at h
      cases htake : takeRecord packet hostname (i < answerCount) record answer sawCname with
      | none => simp [htake] at h
      | some pair =>
        obtain ⟨answer₁, sawCname₁⟩ := pair
        simp only [htake] at h
        obtain ⟨hrecord, hfour⟩ : RecordAt packet offset record ∧
            (Owned hostname record → record.data.length = 4) := recordAt_of_readRecord hp hread
        obtain ⟨records, hrecords, hlen, hall, hanswer⟩ := ih h
        have hanswer₁ := takeRecord_eq_some htake
        refine ⟨record :: records, .cons hrecord hrecords, by rw [List.length_cons, hlen],
          List.forall_mem_cons.mpr ⟨hfour, hall⟩, ?_⟩
        rw [hanswer, hanswer₁]
        by_cases hi : i < answerCount
        · -- one record of the answer section fewer is left
          have hcount : answerCount - i = answerCount - (i + 1) + 1 := by omega
          rw [hcount, List.take_succ_cons, List.filter_cons]
          by_cases howned : Owned hostname record
          · rw [if_pos ⟨decide_eq_true hi, howned⟩, if_pos (decide_eq_true howned), List.map_cons,
              List.foldl_cons]
          · rw [if_neg fun hin => howned hin.2, if_neg (by simpa using howned)]
        · -- behind the answer section nothing is taken any more
          have hnone : answerCount - i = 0 := by omega
          have hnone' : answerCount - (i + 1) = 0 := by omega
          rw [hnone, hnone', if_neg fun hin => hi (of_decide_eq_true hin.1), List.take_zero,
            List.take_zero]

/-- What the question says when it is taken. -/
theorem namesHost_of_parseQuestion (hp : packet.length ≤ packetMax) {offset : ℕ}
    (h : parseQuestion packet hostname = some offset) :
    ∃ next, offset = next + 4 ∧ NamesHost packet headerBytes hostname next ∧
      u16At packet next = some 1 ∧ u16At packet (next + 2) = some 1 := by
  unfold parseQuestion at h
  cases hread : readName packet headerBytes with
  | none => simp [hread] at h
  | some name =>
    simp only [hread] at h
    split_ifs at h with hname hfits hquestion
    obtain rfl := Option.some.inj h
    simp only [not_or, not_not] at hname hquestion
    obtain ⟨labels, hops, hat⟩ := nameAt_of_readName hp hread
    have hall : labels.all labelOk = true := hat.hostnameSyntax ▸ hname.1
    have htext := hat.text
    rw [if_pos hall] at htext
    refine ⟨name.next, rfl, ⟨labels, hops, hat.expands, ?_, ?_, hat.stands⟩, ?_, ?_⟩
    · exact fun label hl => labelOk_iff.mp (List.all_eq_true.mp hall label hl)
    · exact htext ▸ nameEqual_iff.mp hname.2
    · rw [u16At_eq_loadAt (by omega), hquestion.1]
    · rw [u16At_eq_loadAt (by omega), hquestion.2]

/-- The texts in the answer are those of the first four distinct addresses. -/
theorem foldl_add_addresses {records : List Record}
    (h : ∀ record ∈ records, Owned hostname record → record.data.length = 4) (answers : ℕ) :
    (((records.take answers).filter (Owned hostname ·)).map
      fun record => ipv4Text record.data).foldl Answer.add .zero =
        ⟨((addressesOf hostname answers records).eraseDups.take maxIpv4).map ipv4Text, 0⟩ ∧
    ∀ address ∈ addressesOf hostname answers records, address.length = 4 := by
  have hfour : ∀ address ∈ addressesOf hostname answers records, address.length = 4 := by
    intro address haddress
    obtain ⟨record, hrecord, rfl⟩ := List.mem_map.mp haddress
    obtain ⟨hmem, howned⟩ := List.mem_filter.mp hrecord
    exact h record (List.mem_of_mem_take hmem) (of_decide_eq_true howned)
  refine ⟨?_, hfour⟩
  have htexts : ((records.take answers).filter (Owned hostname ·)).map
      (fun record => ipv4Text record.data) = (addressesOf hostname answers records).map ipv4Text := by
    rw [addressesOf, List.map_map]
    rfl
  have hdistinct := eraseDups_map (f := ipv4Text) (l := addressesOf hostname answers records)
    fun a ha b hb => ipv4Text_injective ((hfour a ha).trans (hfour b hb).symm)
  rw [htexts, ipv4_foldl_add, hdistinct, List.map_take]

theorem answerResult_eq_ok {flags : UInt16} {answer answer' : Answer} {sawCname : Bool}
    (h : answerResult flags answer sawCname = (.ok, answer')) :
    flags &&& 0x000f = 0 ∧ answer.ipv4 ≠ [] ∧ answer' = answer := by
  unfold answerResult at h
  dsimp only at h
  by_cases hrcode : flags &&& 0x000f = 0
  · rw [if_neg (by rw [hrcode]; decide), if_neg (not_not.mpr hrcode),
      if_neg (not_not.mpr hrcode)] at h
    by_cases hcount : answer.ipv4.length ≠ 0
    · rw [if_pos hcount, Prod.mk.injEq] at h
      exact ⟨hrcode, List.ne_nil_of_length_pos (Nat.pos_of_ne_zero hcount), h.2.symm⟩
    · rw [if_neg hcount] at h
      cases sawCname <;> simp at h
  · by_cases h3 : flags &&& 0x000f = 3
    · rw [if_pos h3] at h
      exact absurd h (by simp)
    · rw [if_neg h3, if_pos hrcode] at h
      exact absurd h (by simp)

/-- **How the parser ends**: it refuses the packet, or the packet responds to the query and the
return code and the addresses decide. -/
theorem parseResponse_cases (hp : packet.length ≤ packetMax) (id : UInt16)
    (hostname : List UInt8) :
    (∃ answer, parseResponse packet id hostname .zero = (.malformedResponse, answer)) ∨
    parseResponse packet id hostname .zero = (.timeout, .zero) ∨
    parseResponse packet id hostname .zero = (.truncatedResponse, .zero) ∨
    ∃ flags addresses sawCname, Responds packet id flags hostname addresses ∧
      parseResponse packet id hostname .zero =
        answerResult flags ⟨addresses.map ipv4Text, 0⟩ sawCname := by
  by_cases hlen : headerBytes ≤ packet.length
  · have h12 : 12 ≤ packet.length := hlen
    rw [parseResponse, dif_pos hlen]
    dsimp only
    -- the header
    by_cases hid : loadAt packet 0 (by omega) ≠ id
    · exact .inr (.inl (by rw [if_pos hid]))
    rw [if_neg hid]
    by_cases hflags : loadAt packet 2 (by omega) &&& 0x8000 = 0 ∨
        loadAt packet 2 (by omega) &&& 0x7800 ≠ 0 ∨ loadAt packet 2 (by omega) &&& 0x0040 ≠ 0
    · exact .inl ⟨_, by rw [if_pos hflags]⟩
    rw [if_neg hflags]
    -- the question, and the records behind it
    by_cases hquestions : loadAt packet 4 (by omega) ≠ 1
    · exact .inl ⟨_, by rw [if_pos hquestions]⟩
    rw [if_neg hquestions]
    by_cases htruncated : loadAt packet 2 (by omega) &&& 0x0200 ≠ 0
    · exact .inr (.inr (.inl (by rw [if_pos htruncated])))
    rw [if_neg htruncated]
    cases hquestion : parseQuestion packet hostname with
    | none => exact .inl ⟨_, rfl⟩
    | some offset =>
      dsimp only
      generalize hanswers : loadAt packet 6 (by omega) = answers
      generalize hauthorities : loadAt packet 8 (by omega) = authorities
      generalize hadditionals : loadAt packet 10 (by omega) = additionals
      by_cases hmany : recordsMax < answers.toNat + authorities.toNat + additionals.toNat
      · exact .inl ⟨_, by rw [if_pos hmany]⟩
      rw [if_neg hmany]
      obtain ⟨next, rfl, hnames, htype, hclass⟩ := namesHost_of_parseQuestion hp hquestion
      cases hrecords : parseRecords packet hostname answers.toNat 0
          (answers.toNat + authorities.toNat + additionals.toNat) (next + 4) .zero false with
      | error answer => exact .inl ⟨answer, rfl⟩
      | ok result =>
        obtain ⟨offset, answer₁, sawCname⟩ := result
        dsimp only
        by_cases hend : offset ≠ packet.length
        · exact .inl ⟨_, by rw [if_pos hend]⟩
        rw [if_neg hend]
        obtain rfl := not_not.mp hend
        obtain ⟨records, hat, hlength, hfour, hanswer⟩ := parseRecords_eq_ok hp hrecords
        obtain ⟨htexts, hlen4⟩ := foldl_add_addresses hfour answers.toNat
        rw [Nat.sub_zero, htexts] at hanswer
        have hword : ∀ {k : ℕ} (hk : k ≤ 10), u16At packet k = some (loadAt packet k (by omega)) :=
          fun hk => u16At_eq_loadAt (by omega)
        refine .inr (.inr (.inr ⟨loadAt packet 2 (by omega),
          (addressesOf hostname answers.toNat records).eraseDups.take maxIpv4, sawCname,
          ⟨answers.toNat, authorities.toNat, additionals.toNat, next, records,
            ⟨?_, hword (by decide), ?_, ?_, ?_, ?_, ⟨answers, ?_, rfl⟩, ⟨authorities, ?_, rfl⟩,
              ⟨additionals, ?_, rfl⟩⟩,
            by omega, hnames, htype, hclass, hat, hlength, rfl, ?_⟩, by rw [hanswer]⟩))
        · -- the fields of the header, as `Responds` reads them
          rw [hword (by decide), not_not.mp hid]
        · exact fun h0 => hflags (.inl h0)
        · exact not_not.mp fun h0 => hflags (.inr (.inl h0))
        · exact not_not.mp htruncated
        · rw [hword (by decide), not_not.mp hquestions]
        · rw [hword (by decide), hanswers]
        · rw [hword (by decide), hauthorities]
        · rw [hword (by decide), hadditionals]
        · intro address haddress
          exact hlen4 address (List.mem_eraseDups.mp (List.mem_of_mem_take haddress))
  · exact .inl ⟨_, by rw [parseResponse, dif_neg hlen]⟩

/-- **A packet that is taken answers the query**, and the answer is the one it gives. -/
theorem parseResponse_ok (hp : packet.length ≤ packetMax) {id : UInt16} {answer : Answer}
    (h : parseResponse packet id hostname .zero = (.ok, answer)) :
    ∃ addresses, Answers packet id hostname addresses ∧ answer = ⟨addresses.map ipv4Text, 0⟩ := by
  rcases parseResponse_cases hp id hostname with (⟨_, hbad⟩ | hbad | hbad |
    ⟨flags, addresses, sawCname, hresponds, hresult⟩)
  · simp [h] at hbad
  · simp [h] at hbad
  · simp [h] at hbad
  · obtain ⟨hrcode, hne, rfl⟩ := answerResult_eq_ok (hresult.symm.trans h)
    exact ⟨addresses, ⟨flags, hresponds, hrcode, fun h0 => hne (by rw [h0]; rfl)⟩, rfl⟩

/-- A response for `a.b` whose record names its owner by a pointer. -/
example : parseResponse ([0x12, 0x34, 0x81, 0x80, 0, 1, 0, 1, 0, 0, 0, 0] ++
    [1, 0x61, 1, 0x62, 0, 0, 1, 0, 1] ++ [0xc0, 12, 0, 1, 0, 1, 0, 0, 0, 60, 0, 4, 1, 2, 3, 4])
      0x1234 (Bytes.ascii "A.b") .zero = (.ok, ⟨[Bytes.ascii "1.2.3.4"], 0⟩) := by
  decide +kernel

/-- What the return code and the addresses decide other than an answer. -/
theorem answerResult_ne_ok {flags : UInt16} {texts : List (List UInt8)} {sawCname : Bool}
    (h : (answerResult flags ⟨texts, 0⟩ sawCname).1 ≠ .ok) :
    (answerResult flags ⟨texts, 0⟩ sawCname).2 = .zero ∧
      (answerResult flags ⟨texts, 0⟩ sawCname).1 ∈
        [DnsResult.nxdomain, .serverFailure, .noAddress, .unsupportedCname] := by
  unfold answerResult at h ⊢
  dsimp only at h ⊢
  by_cases hrcode : flags &&& 0x000f = 0
  · rw [if_neg (by rw [hrcode]; decide), if_neg (not_not.mpr hrcode),
      if_neg (not_not.mpr hrcode)] at h ⊢
    by_cases hcount : texts.length ≠ 0
    · rw [if_pos hcount] at h
      exact absurd rfl h
    · rw [if_neg hcount, List.length_eq_zero_iff.mp (not_not.mp hcount)]
      cases sawCname
      · exact ⟨rfl, by decide⟩
      · exact ⟨rfl, by decide⟩
  · rw [if_pos hrcode]
    by_cases h3 : flags &&& 0x000f = 3
    · rw [if_pos h3]
      exact ⟨rfl, by decide⟩
    · rw [if_neg h3, if_pos hrcode]
      exact ⟨rfl, by decide⟩

/-- **What a refused packet leaves**: only a malformed one leaves addresses behind. -/
theorem parseResponse_ne_ok (hp : packet.length ≤ packetMax) {id : UInt16}
    (h : (parseResponse packet id hostname .zero).1 ≠ .ok) :
    (parseResponse packet id hostname .zero).1 = .malformedResponse ∨
    ((parseResponse packet id hostname .zero).2 = .zero ∧
      (parseResponse packet id hostname .zero).1 ∈ [DnsResult.timeout, .truncatedResponse,
        .nxdomain, .serverFailure, .noAddress, .unsupportedCname]) := by
  rcases parseResponse_cases hp id hostname with (⟨_, hbad⟩ | hbad | hbad |
    ⟨flags, addresses, sawCname, -, hresult⟩)
  · exact .inl (by rw [hbad])
  · exact .inr (by rw [hbad]; exact ⟨rfl, by decide⟩)
  · exact .inr (by rw [hbad]; exact ⟨rfl, by decide⟩)
  · rw [hresult] at h ⊢
    obtain ⟨hzero, hmem⟩ := answerResult_ne_ok h
    exact .inr ⟨hzero, List.mem_cons_of_mem _ (List.mem_cons_of_mem _ hmem)⟩

end Parser

end DnsSimple
