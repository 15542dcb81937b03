import CrossNook.Net.DnsName
import CrossNook.Text.Words

/-!
# Queries

The packet that `build_query` (`net/dnssimple.c`) makes of a host name, and what `decode_name` reads
from it. The text of a host name, the name on the wire and the packet have limits of their own; a
host name that the resolver takes is within all of them.

## Main definitions

* `DnsSimple.loadU16`: `load_u16`
* `DnsSimple.wireName labels`: the bytes of labels on the wire, without the root

## Main results

* `DnsSimple.buildQuery_eq`: the query for a host name, byte by byte
* `DnsSimple.nameAt_wireName`: the name that stands where such bytes do
* `DnsSimple.buildQuery_decodes`: the name in a query is the host name it was built for
-/

namespace DnsSimple

/-- `load_u16`. -/
def loadU16 (high low : UInt8) : UInt16 := (high.toUInt16 <<< 8) ||| low.toUInt16

/-- The value that `load_u16` reads at `p`, if both bytes lie inside the packet. -/
def u16At (packet : List UInt8) (p : ℕ) : Option UInt16 :=
  match packet[p]?, packet[p + 1]? with
  | some high, some low => some (loadU16 high low)
  | _, _ => none

theorem u16At_append (before packet : List UInt8) (p : ℕ) :
    u16At (before ++ packet) (before.length + p) = u16At packet p := by
  unfold u16At
  rw [Nat.add_assoc, List.getElem?_append_right (Nat.le_add_right _ _),
    List.getElem?_append_right (Nat.le_add_right _ _), Nat.add_sub_cancel_left,
    Nat.add_sub_cancel_left]

/-- **Reading a word as `store_u16` wrote it.** -/
theorem loadU16_store (value : UInt16) : loadU16 (value >>> 8).toUInt8 value.toUInt8 = value := by
  apply UInt16.toNat_inj.mp
  simp only [loadU16, UInt16.toNat_or, UInt16.toNat_shiftLeft, UInt8.toNat_toUInt16,
    UInt16.toNat_toUInt8, UInt16.toNat_shiftRight, Nat.shiftLeft_eq, Nat.shiftRight_eq_div_pow,
    UInt16.toNat_ofNat, Nat.reduceMod, Nat.reducePow]
  have h : value.toNat < 65536 := value.toNat_lt
  generalize value.toNat = n at h ⊢
  rw [Nat.mod_eq_of_lt (show n / 256 < 256 by omega), Nat.mod_eq_of_lt (by omega),
    Bytes.lor_byte 8 (k := 256) rfl (by omega)]
  omega

/-! ## Labels on the wire -/

/-- The bytes of labels on the wire, without the root. -/
def wireName (labels : List (List UInt8)) : List UInt8 :=
  labels.flatMap fun label => UInt8.ofNat label.length :: label

theorem length_wireName (labels : List (List UInt8)) :
    (wireName labels).length = labelBytes labels := by
  rw [wireName, List.length_flatMap]
  rfl

theorem wireName_cons (label : List UInt8) (labels : List (List UInt8)) :
    wireName (label :: labels) = UInt8.ofNat label.length :: (label ++ wireName labels) := rfl

/-- The text of labels is one byte shorter than they are on the wire. -/
theorem length_dotted {labels : List (List UInt8)} (h : labels ≠ []) :
    (dotted labels).length + 1 = labelBytes labels := by
  obtain ⟨label, labels, rfl⟩ := List.exists_cons_of_ne_nil h
  have hsum : (labels.flatMap (0x2e :: ·)).length = labelBytes labels := by
    rw [List.length_flatMap]
    rfl
  rw [dotted_cons, labelBytes_cons, List.length_append, hsum]
  omega

theorem appendLabels_append {label : List UInt8} (hdot : (0x2e : UInt8) ∉ label)
    (query before rest : List UInt8) :
    appendLabels query before (label ++ rest) = appendLabels query (before ++ label) rest := by
  induction label generalizing before with
  | nil => simp
  | cons c label ih =>
    simp only [List.mem_cons, not_or] at hdot
    rw [List.cons_append, appendLabels, if_neg (Ne.symm hdot.1), ih hdot.2]
    simp

/-- The loop of `build_query` writes the labels of a host name one after another. -/
theorem appendLabels_dotted {labels : List (List UInt8)} (hlabels : ∀ label ∈ labels, IsLabel label)
    (hne : labels ≠ []) (query : List UInt8) (hfits : query.length + labelBytes labels < packetMax) :
    appendLabels query [] (dotted labels) = .ok (query ++ wireName labels) := by
  have hlabel : ∀ {label query : List UInt8}, query.length + (label.length + 1) < packetMax →
      appendLabel query label = .ok (query ++ UInt8.ofNat label.length :: label) := by
    intro label query h
    rw [appendLabel, if_neg (by omega)]
  induction labels generalizing query with
  | nil => exact absurd rfl hne
  | cons label labels ih =>
    obtain ⟨hfirst, hrest⟩ := List.forall_mem_cons.mp hlabels
    rw [labelBytes_cons] at hfits
    rw [wireName_cons]
    cases labels with
    | nil =>
      have hdotted : dotted [label] = label ++ [] := by simp [dotted]
      rw [hdotted, appendLabels_append hfirst.dot_notMem, List.nil_append, appendLabels,
        if_neg hfirst.pos, hlabel (by omega)]
      simp [wireName]
    | cons label' labels =>
      have hdotted : dotted (label :: label' :: labels) =
          label ++ 0x2e :: dotted (label' :: labels) := by
        rw [dotted_cons, dotted_cons, List.flatMap_cons, List.cons_append]
      rw [hdotted, appendLabels_append hfirst.dot_notMem, List.nil_append, appendLabels, if_pos rfl,
        hlabel (by omega)]
      dsimp only
      rw [ih hrest (by simp) _ (by rw [List.length_append, List.length_cons]; omega)]
      simp

/-! ## The query -/

/-- The header of a query. -/
def queryHeader (id : UInt16) : List UInt8 :=
  [(id >>> 8).toUInt8, id.toUInt8, 1, 0, 0, 1, 0, 0, 0, 0, 0, 0]

/-- **The query for a host name, byte by byte.** -/
theorem buildQuery_eq (id : UInt16) {labels : List (List UInt8)}
    (hlabels : ∀ label ∈ labels, IsLabel label) (hne : labels ≠ [])
    (hlen : (dotted labels).length ≤ hostMax) :
    buildQuery (some id) (dotted labels) =
      .ok (queryHeader id ++ wireName labels ++ [0, 0, 1, 0, 1]) := by
  have hbytes := length_dotted hne
  rw [hostMax] at hlen
  have hfits : (queryHeader id).length + labelBytes labels < packetMax := by
    have h12 : (queryHeader id).length = 12 := rfl
    rw [h12, packetMax]
    omega
  have hloop := appendLabels_dotted hlabels hne (queryHeader id) hfits
  rw [queryHeader] at hloop
  unfold buildQuery
  dsimp only
  rw [hloop]
  rfl

/-- The name that stands where the bytes of labels and a root do. -/
theorem expands_wireName {packet : List UInt8} {labels : List (List UInt8)} {rest : List UInt8}
    (hlabels : ∀ label ∈ labels, label ≠ [] ∧ label.length ≤ 63) {p : ℕ}
    (h : packet.drop p = wireName labels ++ 0 :: rest) :
    Expands packet p labels 0 ∧ Stands packet p (p + wireLength labels) := by
  -- a length of at most 63 does not have the bits of a pointer
  have htag : ∀ n : Fin 64, UInt8.ofNat n.val &&& 0xc0 = 0 := by decide +kernel
  induction labels generalizing p with
  | nil =>
    have hroot : packet[p]? = some 0 := by
      rw [← List.head?_drop, h]
      rfl
    exact ⟨.root hroot, .root hroot⟩
  | cons label labels ih =>
    obtain ⟨⟨hne, hle⟩, hrest⟩ := List.forall_mem_cons.mp hlabels
    rw [wireName_cons, List.cons_append, List.append_assoc] at h
    have hlength : packet[p]? = some (UInt8.ofNat label.length) := by
      rw [← List.head?_drop, h]
      rfl
    have hnat : (UInt8.ofNat label.length).toNat = label.length := by
      rw [UInt8.toNat_ofNat']
      omega
    have hpos : UInt8.ofNat label.length ≠ 0 := by
      intro h0
      rw [h0] at hnat
      exact hne (List.length_eq_zero_iff.mp hnat.symm)
    have hdrop : packet.drop (p + 1) = label ++ (wireName labels ++ 0 :: rest) := by
      rw [← List.drop_drop, h, List.drop_succ_cons, List.drop_zero]
    -- the bytes behind the length are those of the label
    have hlabel : bytesAt packet (p + 1) (UInt8.ofNat label.length).toNat = some label := by
      have hlen := congrArg List.length hdrop
      rw [List.length_drop, List.length_append, List.length_append, List.length_cons] at hlen
      rw [hnat, bytesAt, if_pos (by omega), hdrop, List.take_left' rfl]
    have hnext : packet.drop (p + 1 + label.length) = wireName labels ++ 0 :: rest := by
      rw [← List.drop_drop, hdrop, List.drop_left' rfl]
    obtain ⟨hexpands, hstands⟩ := ih hrest hnext
    rw [← hnat] at hexpands hstands
    have hsum : p + 1 + (UInt8.ofNat label.length).toNat + wireLength labels =
        p + wireLength (label :: labels) := by
      rw [hnat, wireLength, wireLength, labelBytes_cons]
      omega
    rw [hsum] at hstands
    exact ⟨.label hlength (htag ⟨label.length, by omega⟩) hpos hlabel hexpands,
      .label hlength (htag ⟨label.length, by omega⟩) hpos hlabel hstands⟩

/-- What a reader makes of the labels of a host name. -/
theorem nameAt_wireName {packet : List UInt8} {labels : List (List UInt8)} {rest : List UInt8}
    (hlabels : ∀ label ∈ labels, IsLabel label) (hwire : wireLength labels ≤ nameWireMax) {p : ℕ}
    (h : packet.drop p = wireName labels ++ 0 :: rest) :
    NameAt packet p labels 0 ⟨dotted labels, true, p + wireLength labels⟩ := by
  obtain ⟨hexpands, hstands⟩ :=
    expands_wireName (fun label hl => ⟨(hlabels label hl).pos, (hlabels label hl).le⟩) h
  have hall : labels.all labelOk = true :=
    List.all_eq_true.mpr fun label hl => labelOk_iff.mpr (hlabels label hl)
  exact ⟨hexpands, Nat.zero_le _, hwire, hall.symm, by rw [if_pos hall], hstands⟩

/-- **The round trip of a host name.** For every host name that the resolver takes and every
transaction id there is a query; it carries the id and one question, and the name in it is the host
name, followed by type `A` and class `IN`. -/
theorem buildQuery_decodes (id : UInt16) {hostname : List UInt8}
    (h : hostnameOk hostname = true) :
    ∃ query, buildQuery (some id) hostname = .ok query ∧ query.length ≤ packetMax ∧
      u16At query 0 = some id ∧ u16At query 4 = some 1 ∧
      (decodeName query 12).2 = .name ⟨hostname, true, query.length - 4⟩ ∧
      u16At query (query.length - 4) = some 1 ∧ u16At query (query.length - 2) = some 1 := by
  obtain ⟨hlen, labels, hne, hlabels, rfl⟩ := hostnameOk_iff.mp h
  have hdotted : ([0x2e].intercalate labels : List UInt8) = dotted labels := rfl
  rw [hdotted] at hlen ⊢
  have hbytes := length_dotted hne
  have hwire : wireLength labels ≤ nameWireMax := by
    rw [hostMax] at hlen
    rw [wireLength, nameWireMax]
    omega
  have hquery : (queryHeader id ++ wireName labels ++ [0, 0, 1, 0, 1]).length =
      12 + wireLength labels + 4 := by
    rw [List.length_append, List.length_append, length_wireName, wireLength]
    rfl
  have hsize : (queryHeader id ++ wireName labels ++ [0, 0, 1, 0, 1]).length ≤ packetMax := by
    rw [nameWireMax] at hwire
    rw [hquery, packetMax]
    omega
  have hfront : (queryHeader id ++ wireName labels ++ [0]).length = 12 + wireLength labels := by
    rw [List.length_append, List.length_append, length_wireName]
    rfl
  have hsplit : queryHeader id ++ wireName labels ++ [0, 0, 1, 0, 1] =
      queryHeader id ++ wireName labels ++ [0] ++ [0, 1, 0, 1] := by simp
  -- the header, the name, and the two words behind it
  refine ⟨_, buildQuery_eq id hlabels hne hlen, hsize, ?_, rfl, ?_, ?_, ?_⟩
  · exact congrArg some (loadU16_store id)
  · have hdrop : (queryHeader id ++ wireName labels ++ [0, 0, 1, 0, 1]).drop 12 =
        wireName labels ++ 0 :: [0, 1, 0, 1] := by
      rw [List.append_assoc]
      exact List.drop_left' rfl
    have hname := nameAt_wireName hlabels hwire hdrop
    have hend : (queryHeader id ++ wireName labels ++ [0, 0, 1, 0, 1]).length - 4 =
        12 + wireLength labels := by omega
    rw [hend, (decodeName_iff hsize 12 0 _).mpr ⟨labels, hname⟩]
  · have hend : (queryHeader id ++ wireName labels ++ [0, 0, 1, 0, 1]).length - 4 =
        (queryHeader id ++ wireName labels ++ [0]).length + 0 := by
      rw [hquery, hfront]
      omega
    rw [hend, hsplit, u16At_append]
    rfl
  · have hend : (queryHeader id ++ wireName labels ++ [0, 0, 1, 0, 1]).length - 2 =
        (queryHeader id ++ wireName labels ++ [0]).length + 2 := by
      rw [hquery, hfront]
      omega
    rw [hend, hsplit, u16At_append]
    rfl

/-- A query for `example.com`. -/
theorem buildQuery_decodes_example :
    ∃ query, buildQuery (some 0x1234) (Bytes.ascii "example.com") = .ok query ∧
      query.length ≤ packetMax ∧ u16At query 0 = some 0x1234 ∧ u16At query 4 = some 1 ∧
      (decodeName query 12).2 = .name ⟨Bytes.ascii "example.com", true, query.length - 4⟩ ∧
      u16At query (query.length - 4) = some 1 ∧ u16At query (query.length - 2) = some 1 :=
  buildQuery_decodes 0x1234 (by decide +kernel)

end DnsSimple
