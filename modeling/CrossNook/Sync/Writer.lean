import CrossNook.Sync.ParseProgress

/-!
# The JSON writer

The writer half of `sync/kosync.c`, `writer_bytes` to `cn_kosync_serialize_progress`, and the
round trip with the reader. The state of a `json_writer` is the text written so far; a write that
does not fit fails.

## Main definitions

* `Kosync.serializeProgress`: `cn_kosync_serialize_progress`

## Main results

* `Kosync.stringBody_escape`: what the writer puts between quotes denotes the string written
* `Kosync.progressJson_denotes`: the text of a record denotes the record
* `Kosync.parse_serialize`: the reader recovers what the writer wrote
-/

namespace Kosync

open Binary64 (Converts)
open Bytes (ascii IsDigit forall_of_all)
open Json (StringBody StringChar Number Scalar Member ScalarText MemberText MembersText
  FlatObjectText ws_nil)

/-! ## The writer -/

/-- `writer_bytes`: `cap` is the room for text, without the terminator. -/
def writerBytes (cap : ℕ) (out data : List UInt8) : Option (List UInt8) :=
  if cap - out.length < data.length then none else some (out ++ data)

/-- A lowercase hexadecimal digit. -/
def hexChar (n : ℕ) : UInt8 := (ascii "0123456789abcdef").getD n 0

/-- The bytes that one turn of the loop of `writer_string` writes. -/
def writerEscape (c : UInt8) : List UInt8 :=
  if c = 0x22 then [0x5c, 0x22]
  else if c = 0x5c then [0x5c, 0x5c]
  else if c = 0x08 then [0x5c, 0x62]
  else if c = 0x0c then [0x5c, 0x66]
  else if c = 0x0a then [0x5c, 0x6e]
  else if c = 0x0d then [0x5c, 0x72]
  else if c = 0x09 then [0x5c, 0x74]
  else if c < 0x20 then
    [0x5c, 0x75, 0x30, 0x30, hexChar (c.toNat >>> 4), hexChar (c.toNat &&& 15)]
  else [c]

/-- The loop of `writer_string`. -/
def writerChars (cap : ℕ) : List UInt8 → List UInt8 → Option (List UInt8)
  | out, [] => some out
  | out, c :: text => do
    let out ← writerBytes cap out (writerEscape c)
    writerChars cap out text

/-- `writer_string`. -/
def writerString (cap : ℕ) (out text : List UInt8) : Option (List UInt8) := do
  let out ← writerBytes cap out [0x22]
  let out ← writerChars cap out text
  writerBytes cap out [0x22]

/-- The four digits of `%04d` for a number below ten thousand. -/
def fourDigits (n : ℕ) : List UInt8 :=
  [UInt8.ofNat (0x30 + n / 1000 % 10), UInt8.ofNat (0x30 + n / 100 % 10),
    UInt8.ofNat (0x30 + n / 10 % 10), UInt8.ofNat (0x30 + n % 10)]

/-- The loop of `writer_percentage`, on the reversed text: zeros at the end go while the text is
longer than two bytes. -/
def trimZeros : List UInt8 → List UInt8
  | a :: b :: c :: l => if a = 0x30 then trimZeros (b :: c :: l) else a :: b :: c :: l
  | l => l

/-- `writer_percentage`. -/
def writerPercentage (cap : ℕ) (out : List UInt8) (progress10000 : ℤ) : Option (List UInt8) :=
  if progress10000 = 10000 then writerBytes cap out [0x31]
  else if progress10000 = 0 then writerBytes cap out [0x30]
  else
    let number := [0x30, 0x2e] ++ fourDigits progress10000.toNat
    writerBytes cap out (trimZeros number.reverse).reverse

/-- `cn_kosync_serialize_progress`: the text, without the terminator that follows it. -/
def serializeProgress (progress : Progress) (jsonCap : ℕ) : Result × Option (List UInt8) :=
  let positionLength := boundedLength progress.logicalPosition positionMax
  let position := progress.logicalPosition.getD []
  if jsonCap = 0 ∨ ¬ documentIdOk progress.documentId ∨ progress.progress10000 < 0 ∨
      10000 < progress.progress10000 ∨ ¬ headerTextOk progress.device deviceMax false ∨
      ¬ headerTextOk progress.deviceId deviceMax false ∨ ¬ utf8Valid progress.device ∨
      ¬ utf8Valid progress.deviceId then
    (.invalid, none)
  else if positionLength = 0 ∨ positionMax < positionLength ∨
      ¬ utf8Valid (position.take positionLength) then
    (.invalid, none)
  else
    -- a place is kept for the terminator
    let cap := jsonCap - 1
    let json := do
      let out ← writerBytes cap [] (ascii "\x7b\"document\":")
      let out ← writerString cap out progress.documentId
      let out ← writerBytes cap out (ascii ",\"progress\":")
      let out ← writerString cap out position
      let out ← writerBytes cap out (ascii ",\"percentage\":")
      let out ← writerPercentage cap out progress.progress10000
      let out ← writerBytes cap out (ascii ",\"device\":")
      let out ← writerString cap out progress.device
      let out ← writerBytes cap out (ascii ",\"device_id\":")
      let out ← writerString cap out progress.deviceId
      writerBytes cap out (ascii "\x7d")
    match json with
    | none => (.invalid, none)
    | some json => (.ok, some json)

/-! ## What is written -/

/-- The text of a string. -/
def stringText (text : List UInt8) : List UInt8 := 0x22 :: (text.flatMap writerEscape ++ [0x22])

/-- The text of a percentage. -/
def percentageText (progress10000 : ℤ) : List UInt8 :=
  if progress10000 = 10000 then [0x31]
  else if progress10000 = 0 then [0x30]
  else (trimZeros ([0x30, 0x2e] ++ fourDigits progress10000.toNat).reverse).reverse

/-- A write appends a text where it fits. -/
def Writes (cap : ℕ) (write : List UInt8 → Option (List UInt8)) (text : List UInt8) : Prop :=
  ∀ out, (out ++ text).length ≤ cap → write out = some (out ++ text)

variable {cap : ℕ}

theorem Writes.bind {w w' : List UInt8 → Option (List UInt8)} {t t' : List UInt8}
    (h : Writes cap w t) (h' : Writes cap w' t') : Writes cap (fun out => w out >>= w') (t ++ t') := by
  intro out hout
  rw [← List.append_assoc] at hout ⊢
  have hlen : (out ++ t).length ≤ cap := by
    rw [List.length_append] at hout
    omega
  simp only [h out hlen, Option.bind_eq_bind, Option.bind_some]
  exact h' (out ++ t) hout

theorem writes_bytes (data : List UInt8) : Writes cap (writerBytes cap · data) data := by
  intro out hout
  rw [List.length_append] at hout
  exact if_neg (by omega)

theorem writes_chars (text : List UInt8) :
    Writes cap (writerChars cap · text) (text.flatMap writerEscape) := by
  induction text with
  | nil => intro out _; simp [writerChars]
  | cons c text ih => exact (writes_bytes (writerEscape c)).bind ih

theorem writes_string (text : List UInt8) : Writes cap (writerString cap · text) (stringText text) :=
  (writes_bytes [0x22]).bind ((writes_chars text).bind (writes_bytes [0x22]))

theorem writes_percentage (n : ℤ) : Writes cap (writerPercentage cap · n) (percentageText n) := by
  unfold writerPercentage percentageText
  split_ifs <;> exact writes_bytes _

/-- The text of a record. -/
def progressJson (p : Progress) : List UInt8 :=
  ascii "\x7b\"document\":" ++ (stringText p.documentId ++
    (ascii ",\"progress\":" ++ (stringText (p.logicalPosition.getD []) ++
    (ascii ",\"percentage\":" ++ (percentageText p.progress10000 ++
    (ascii ",\"device\":" ++ (stringText p.device ++
    (ascii ",\"device_id\":" ++ (stringText p.deviceId ++ ascii "\x7d")))))))))

/-- A well-formed record is serialized where its text fits. -/
theorem serializeProgress_of_wellFormed {p : Progress} (h : p.WellFormed) {jsonCap : ℕ}
    (hcap : (progressJson p).length < jsonCap) :
    serializeProgress p jsonCap = (.ok, some (progressJson p)) := by
  obtain ⟨l, hl, hne, hlen, htext⟩ := h.position
  have hmin : min l.length (positionMax + 1) = l.length := by omega
  have hdevice : headerTextOk p.device deviceMax false = true :=
    headerTextOk_iff.mpr ⟨h.device.2.1, fun _ => h.device.1, h.device_header⟩
  have hdeviceId : headerTextOk p.deviceId deviceMax false = true :=
    headerTextOk_iff.mpr ⟨h.deviceId.2.1, fun _ => h.deviceId.1, h.deviceId_header⟩
  have hp := h.progress10000
  have hwrite : Writes (jsonCap - 1) _ (progressJson p) :=
    (writes_bytes _).bind ((writes_string _).bind ((writes_bytes _).bind ((writes_string _).bind
      ((writes_bytes _).bind ((writes_percentage _).bind ((writes_bytes _).bind
      ((writes_string _).bind ((writes_bytes _).bind ((writes_string _).bind
      (writes_bytes _))))))))))
  have hjson := hwrite [] (by simpa using Nat.le_sub_one_of_lt hcap)
  unfold serializeProgress
  simp only [hl, boundedLength, hmin]
  rw [if_neg (by
      simp [documentIdOk_iff.mpr h.documentId, hdevice, hdeviceId, utf8Valid_iff.mpr h.device.2.2,
        utf8Valid_iff.mpr h.deviceId.2.2]
      omega),
    if_neg (by
      simp [utf8Valid_iff.mpr htext, hne]
      omega)]
  rw [hl] at hjson
  simp only [hjson, List.nil_append]

/-! ## What the text denotes -/

theorem hexDigit_hexChar : ∀ n < 16, Json.hexDigit (hexChar n) = some n := by decide

/-- A control character that has no letter is escaped by its code. -/
theorem escape_control {c : UInt8} (hc : c < 0x20) :
    StringChar [0x5c, 0x75, 0x30, 0x30, hexChar (c.toNat >>> 4), hexChar (c.toNat &&& 15)] [c] := by
  rw [UInt8.lt_iff_toNat_lt] at hc
  simp at hc
  have hhigh : c.toNat >>> 4 < 16 := by
    rw [Nat.shiftRight_eq_div_pow]
    omega
  have hlow : c.toNat &&& 15 = c.toNat % 16 := Nat.and_two_pow_sub_one_eq_mod c.toNat 4
  have hlow' : c.toNat &&& 15 < 16 := by omega
  have hzero : Json.hexDigit 0x30 = some 0 := by decide
  have hhex := Json.Hex4.intro hzero hzero (hexDigit_hexChar _ hhigh) (hexDigit_hexChar _ hlow')
  have hval : ((0 * 16 + 0) * 16 + c.toNat >>> 4) * 16 + (c.toNat &&& 15) = c.toNat := by
    rw [Nat.shiftRight_eq_div_pow, hlow]
    omega
  have henc : Utf8.encode c.toNat = [c] := by
    rw [Utf8.encode, if_pos (by omega)]
    simp
  rw [hval] at hhex
  exact henc ▸ .escape (.unicode hhex (by unfold Utf8.IsScalar; omega))

/-- What the writer puts for an ASCII character is read back as that character. -/
theorem escape_ascii {c : UInt8} (hc : c ≤ 0x7f) : StringChar (writerEscape c) [c] := by
  have hsimple {b : UInt8} (h : Json.simpleEscape b = some c) : StringChar [0x5c, b] [c] :=
    .escape (.simple h)
  unfold writerEscape
  split_ifs with h1 h2 h3 h4 h5 h6 h7 h8
  · exact hsimple (by subst h1; decide)
  · exact hsimple (by subst h2; decide)
  · exact hsimple (by subst h3; decide)
  · exact hsimple (by subst h4; decide)
  · exact hsimple (by subst h5; decide)
  · exact hsimple (by subst h6; decide)
  · exact hsimple (by subst h7; decide)
  · exact escape_control h8
  · exact .unescaped (.one hc) (by simpa using h8) (by simpa using h1) (by simpa using h2)

/-- The bytes of a longer character are written as they are. -/
theorem flatMap_escape_of_high {u : List UInt8} (hu : ∀ b ∈ u, 0x80 ≤ b) :
    u.flatMap writerEscape = u := by
  induction u with
  | nil => rfl
  | cons b u ih =>
    have hb : 0x80 ≤ b := hu b (by simp)
    have hb' : writerEscape b = [b] := by
      unfold writerEscape
      grind
    rw [List.flatMap_cons, hb', ih fun c hc => hu c (by simp [hc])]
    rfl

theorem escape_char {u : List UInt8} (hu : Utf8.IsChar u) :
    StringChar (u.flatMap writerEscape) u := by
  by_cases ha : ∃ a : UInt8, u = [a] ∧ a ≤ 0x7f
  · obtain ⟨a, rfl, ha⟩ := ha
    simpa using escape_ascii ha
  · have hhigh : ∀ b ∈ u, 0x80 ≤ b := by
      intro b hb
      cases hu <;> grind
    rw [flatMap_escape_of_high hhigh]
    refine .unescaped hu (fun b hb => ?_) ?_ ?_
    · have := hhigh b hb
      grind
    · rintro rfl
      exact absurd (hhigh 0x22 (by simp)) (by decide)
    · rintro rfl
      exact absurd (hhigh 0x5c (by simp)) (by decide)

/-- **What the writer puts between quotes denotes the string written.** -/
theorem stringBody_escape {s : List UInt8} (hs : Utf8.Valid s) :
    StringBody (s.flatMap writerEscape) s := by
  induction hs with
  | nil => exact .nil
  | cons hu _ _ ih =>
    rw [List.flatMap_append]
    exact .cons (escape_char hu) ih

theorem scalarText_string {s : List UInt8} (hs : Text s) : ScalarText (stringText s) (.string s) :=
  .string (stringBody_escape hs.valid)

theorem length_escape_le (c : UInt8) : (writerEscape c).length ≤ 6 := by
  unfold writerEscape
  split_ifs <;> simp

theorem length_stringText_le (s : List UInt8) : (stringText s).length ≤ 6 * s.length + 2 := by
  have h : (s.flatMap writerEscape).length ≤ 6 * s.length := by
    induction s with
    | nil => simp
    | cons c s ih =>
      have := length_escape_le c
      simp only [List.flatMap_cons, List.length_append, List.length_cons]
      omega
  simp only [stringText, List.length_cons, List.length_append]
  simp only [List.length_nil]
  omega

/-! ### Percentages -/

theorem digitValue_ofNat {d : ℕ} (hd : d < 10) : Bytes.digitValue (UInt8.ofNat (0x30 + d)) = d := by
  unfold Bytes.digitValue
  simp
  omega

theorem isDigit_ofNat {d : ℕ} (hd : d < 10) : IsDigit (UInt8.ofNat (0x30 + d)) := by
  simp only [IsDigit, UInt8.le_iff_toNat_le, UInt8.toNat_ofNat']
  constructor <;> simp <;> omega

theorem fourDigits_digits (n : ℕ) : ∀ b ∈ fourDigits n, IsDigit b := by
  unfold fourDigits
  simp only [List.mem_cons, List.not_mem_nil, or_false]
  rintro b (rfl | rfl | rfl | rfl) <;> exact isDigit_ofNat (Nat.mod_lt _ (by decide))

theorem natOfDigits_fourDigits {n : ℕ} (hn : n < 10000) :
    Bytes.natOfDigits (fourDigits n) = n := by
  unfold fourDigits
  simp only [Bytes.natOfDigits_cons, Bytes.natOfDigits_nil, List.length_cons, List.length_nil]
  repeat rw [digitValue_ofNat (Nat.mod_lt _ (by decide))]
  omega

/-- The fraction denoted by digits after the decimal point. -/
def fraction (ds : List UInt8) : ℚ := Bytes.natOfDigits ds / 10 ^ ds.length

theorem trimZeros_cons {a : UInt8} {l : List UInt8} (hl : 2 ≤ l.length) :
    trimZeros (a :: l) = if a = 0x30 then trimZeros l else a :: l := by
  match l, hl with
  | b :: c :: l, _ => rw [trimZeros]

/-- Trimming zeros keeps the fraction. -/
theorem trimZeros_fraction (ds : List UInt8) (hds : ∀ b ∈ ds, IsDigit b) :
    ∃ ds', (∀ b ∈ ds', IsDigit b) ∧ ds'.length ≤ ds.length ∧ fraction ds' = fraction ds ∧
      (trimZeros ([0x30, 0x2e] ++ ds).reverse).reverse = [0x30, 0x2e] ++ ds' := by
  induction ds using List.reverseRecOn with
  | nil => exact ⟨[], by simp, le_rfl, rfl, rfl⟩
  | append_singleton ds d ih =>
    obtain ⟨ds', hd', hlen, hfrac, htrim⟩ := ih fun b hb => hds b (by simp [hb])
    have hstep : trimZeros ([0x30, 0x2e] ++ (ds ++ [d])).reverse =
        if d = 0x30 then trimZeros ([0x30, 0x2e] ++ ds).reverse
        else d :: ([0x30, 0x2e] ++ ds).reverse := by
      rw [← List.append_assoc, List.reverse_append, List.reverse_singleton, List.singleton_append]
      exact trimZeros_cons (by simp)
    rw [hstep]
    split_ifs with hd
    · refine ⟨ds', hd', by simp; omega, ?_, htrim⟩
      rw [hfrac]
      simp only [fraction, Bytes.natOfDigits_append, hd, List.length_append, pow_add]
      simp [Bytes.natOfDigits_cons, Bytes.digitValue]
      field_simp
    · exact ⟨ds ++ [d], hds, le_rfl, rfl, by simp⟩

/-- The text of a percentage denotes it. -/
theorem scalarText_percentage {n : ℤ} (h0 : 0 ≤ n) (h1 : n ≤ 10000) :
    ∃ m : Number, m.text = percentageText n ∧ m.value = n / 10000 ∧ m.text.length ≤ 6 := by
  have hzero : Json.IsIntPart [0x30] := .inl rfl
  have hone : Json.IsIntPart [0x31] := .inr ⟨0x31, [], rfl, by decide, by simp⟩
  unfold percentageText
  -- one, zero, and a fraction of at most four digits
  split_ifs with h2 h3
  · refine ⟨⟨false, [0x31], [], none, hone, by simp⟩, rfl, ?_, by
      simp [Number.text, Number.signText, Number.fracText, Number.expText]⟩
    simp [Number.value, Number.magnitude, Bytes.natOfDigits_cons, Bytes.digitValue, h2]
  · refine ⟨⟨false, [0x30], [], none, hzero, by simp⟩, rfl, ?_, by
      simp [Number.text, Number.signText, Number.fracText, Number.expText]⟩
    simp [Number.value, Number.magnitude, Bytes.natOfDigits_cons, Bytes.digitValue, h3]
  · obtain ⟨ds, hds, hlen, hfrac, htrim⟩ :=
      trimZeros_fraction (fourDigits n.toNat) (fourDigits_digits _)
    have hn : Bytes.natOfDigits (fourDigits n.toNat) = n.toNat :=
      natOfDigits_fourDigits (by omega)
    -- the zeros that are cut off do not change the fraction
    have hfrac' : fraction ds = n / 10000 := by
      have hcast : (n.toNat : ℚ) = n := by
        rw [← Int.cast_natCast, Int.toNat_of_nonneg h0]
      rw [hfrac, fraction, hn, hcast]
      norm_num [fourDigits]
    have hne : ds ≠ [] := by
      rintro rfl
      have hz : (n : ℚ) / 10000 = 0 := by simpa [fraction] using hfrac'.symm
      have : (n : ℚ) = 0 := by simpa using hz
      exact h3 (by exact_mod_cast this)
    refine ⟨⟨false, [0x30], ds, none, hzero, hds⟩, ?_, ?_, ?_⟩
    · rw [htrim]
      simp [Number.text, Number.signText, Number.fracText, Number.expText, hne]
    · rw [← hfrac']
      simp [Number.value, Number.magnitude, fraction, Bytes.natOfDigits_cons, Bytes.digitValue]
    · have : (fourDigits n.toNat).length = 4 := rfl
      simp [Number.text, Number.signText, Number.fracText, Number.expText, hne]
      omega

/-! ## The round trip -/

theorem memberText_of {key raw t : List UInt8} {v : Scalar} (hraw : StringBody raw key)
    (ht : ScalarText t v) : MemberText (0x22 :: (raw ++ 0x22 :: 0x3a :: t)) (key, v) := by
  simpa using MemberText.intro ws_nil ws_nil ws_nil ws_nil hraw ht

/-- A text of plain ASCII stands for itself between quotes. -/
theorem stringBody_self {s : List UInt8} (hs : ∀ b ∈ s, 0x20 ≤ b ∧ b ≤ 0x7f ∧ b ≠ 0x22 ∧ b ≠ 0x5c) :
    StringBody s s := by
  have hvalid : Utf8.Valid s := Utf8.valid_of_ascii fun b hb => by
    have := hs b hb
    grind
  have hraw := (Json.RawBody.nil).bytes fun b hb => ⟨(hs b hb).1, (hs b hb).2.2⟩
  rw [List.append_nil] at hraw
  exact hraw.stringBody hvalid

/-- The members of a record as they are written. -/
def progressMembers (p : Progress) (n : Number) : List Member :=
  [(ascii "document", .string p.documentId),
    (ascii "progress", .string (p.logicalPosition.getD [])),
    (ascii "percentage", .number n), (ascii "device", .string p.device),
    (ascii "device_id", .string p.deviceId)]

theorem progressJson_text {p : Progress} (h : p.WellFormed) {n : Number}
    (hn : n.text = percentageText p.progress10000) :
    FlatObjectText (progressJson p) (progressMembers p n) := by
  obtain ⟨l, hl, -, -, htext⟩ := h.position
  have hdoc : Text p.documentId := by
    refine Utf8.validWith_ne_nul_iff.mpr ⟨Utf8.valid_of_ascii fun b hb => ?_, fun h0 => ?_⟩
    · have := h.documentId.2 b hb
      grind
    · exact absurd (h.documentId.2 0 h0) (by decide)
  -- no key and no value needs an escape
  have hmember (key : List UInt8)
      (hkey : ∀ b ∈ key, 0x20 ≤ b ∧ b ≤ 0x7f ∧ b ≠ 0x22 ∧ b ≠ 0x5c) {t : List UInt8} {v : Scalar}
      (ht : ScalarText t v) : MemberText (0x22 :: (key ++ 0x22 :: 0x3a :: t)) (key, v) :=
    memberText_of (stringBody_self hkey) ht
  have hmembers := MembersText.cons (hmember (ascii "document") (forall_of_all rfl) (scalarText_string hdoc))
    (.cons (hmember (ascii "progress") (forall_of_all rfl) (scalarText_string htext))
    (.cons (hmember (ascii "percentage") (forall_of_all rfl) (.number n))
    (.cons (hmember (ascii "device") (forall_of_all rfl) (scalarText_string h.device.2.2))
    (.one (hmember (ascii "device_id") (forall_of_all rfl) (scalarText_string h.deviceId.2.2))))))
  have hobject := FlatObjectText.members ws_nil ws_nil hmembers
  rw [progressMembers, hl, Option.getD_some]
  convert hobject using 1
  rw [progressJson, hl, hn, Option.getD_some]
  -- the writer has the keys with the punctuation between them
  have h1 : ascii "\x7b\"document\":" = 0x7b :: 0x22 :: (ascii "document" ++ [0x22, 0x3a]) := by
    decide
  have h2 : ascii ",\"progress\":" = 0x2c :: 0x22 :: (ascii "progress" ++ [0x22, 0x3a]) := by
    decide
  have h3 : ascii ",\"percentage\":" = 0x2c :: 0x22 :: (ascii "percentage" ++ [0x22, 0x3a]) := by
    decide
  have h4 : ascii ",\"device\":" = 0x2c :: 0x22 :: (ascii "device" ++ [0x22, 0x3a]) := by decide
  have h5 : ascii ",\"device_id\":" = 0x2c :: 0x22 :: (ascii "device_id" ++ [0x22, 0x3a]) := by
    decide
  have h6 : ascii "\x7d" = [0x7d] := by decide
  rw [h1, h2, h3, h4, h5, h6]
  simp

/-- **The percentage comes back**, however the text of it is converted. -/
theorem percentage_converts {toDouble : ℚ → ℚ} (hconverts : Converts toDouble) {n : ℤ}
    (h0 : 0 ≤ n) (h1 : n ≤ 10000) :
    0 ≤ toDouble (n / 10000) ∧ toDouble (n / 10000) ≤ 1 ∧ scale (toDouble (n / 10000)) = n := by
  have hn0 : (0 : ℚ) ≤ n := by exact_mod_cast h0
  have hn1 : (n : ℚ) ≤ 10000 := by exact_mod_cast h1
  have hclose := hconverts.close.bounds (show (0 : ℚ) ≤ n / 10000 by positivity)
  norm_num at hclose
  have hpos : 0 ≤ toDouble (n / 10000) := by
    rcases h0.eq_or_lt with rfl | hlt
    · rw [Int.cast_zero, zero_div, hconverts.zero]
    · have hone : (1 : ℚ) ≤ n := by exact_mod_cast (by omega : (1 : ℤ) ≤ n)
      linarith
  have hle : toDouble (n / 10000) ≤ 1 := by
    rcases h1.eq_or_lt with rfl | hlt
    · have hwhole : ((10000 : ℤ) : ℚ) / 10000 = 1 := by norm_num
      rw [hwhole, hconverts.one]
    · have hless : (n : ℚ) ≤ 9999 := by exact_mod_cast (by omega : n ≤ (9999 : ℤ))
      linarith
  refine ⟨hpos, hle, ?_⟩
  have hscaled := (scale_bounds hpos hle).2
  rw [abs_le] at hscaled
  norm_num at hscaled
  unfold scale
  rw [Int.floor_eq_iff]
  norm_num
  constructor <;> linarith

/-- **The text of a record denotes the record**, without a time stamp. -/
theorem progressJson_denotes {toDouble : ℚ → ℚ} (hconverts : Converts toDouble) {p : Progress}
    (h : p.WellFormed) (ht : p.timestamp = 0) (hhas : p.hasTimestamp = false) :
    ∃ ms, FlatObjectText (progressJson p) ms ∧ Denotes toDouble ms p := by
  obtain ⟨l, hl, hne, hlen, htext⟩ := h.position
  obtain ⟨n, hn, hv, hnlen⟩ := scalarText_percentage h.progress10000.1 h.progress10000.2
  have hnul {s : List UInt8} (hs : Text s) : (0 : UInt8) ∉ s :=
    (Utf8.validWith_ne_nul_iff.mp hs).2
  have hp0 : (0 : ℚ) ≤ p.progress10000 := by exact_mod_cast h.progress10000.1
  have hp1 : (p.progress10000 : ℚ) ≤ 10000 := by exact_mod_cast h.progress10000.2
  have honce (f : Field) : (keys (progressMembers p n)).count f.key ≤ 1 := by
    cases f <;> simp [progressMembers, Field.key] <;> decide
  refine ⟨_, progressJson_text h hn, ?_⟩
  -- the five members that are written, against the conditions of `Denotes`
  constructor
  case keys_ok =>
    intro m hm
    simp only [progressMembers, List.mem_cons, List.not_mem_nil, or_false] at hm
    rcases hm with rfl | rfl | rfl | rfl | rfl <;> dsimp only <;> decide
  case strings_ok =>
    intro k s hm
    simp only [progressMembers, List.mem_cons, Prod.mk.injEq, Scalar.string.injEq, reduceCtorEq,
      and_false, false_or, List.not_mem_nil, or_false, hl, Option.getD_some] at hm
    rcases hm with ⟨-, rfl⟩ | ⟨-, rfl⟩ | ⟨-, rfl⟩ | ⟨-, rfl⟩
    · exact fun h0 => absurd (h.documentId.2 0 h0) (by decide)
    · exact hnul htext
    · exact hnul h.device.2.2
    · exact hnul h.deviceId.2.2
  case numbers_ok =>
    intro k m hm
    obtain rfl : m = n := by
      simp [progressMembers] at hm
      exact hm.2
    refine ⟨by omega, ?_⟩
    rw [hv]
    refine not_strtodRange (by positivity) (by linarith) fun hne => ?_
    have hpos : (1 : ℚ) ≤ p.progress10000 := by
      have hnonneg := h.progress10000.1
      have : p.progress10000 ≠ 0 := fun h0 => hne (by simp [h0])
      exact_mod_cast (by omega : (1 : ℤ) ≤ p.progress10000)
    linarith
  case once => exact honce
  case document => exact ⟨by simp [progressMembers], h.documentId⟩
  case progress => exact ⟨l, by simp [progressMembers, hl], hne, hlen, hl⟩
  case percentage =>
    refine ⟨n, by simp [progressMembers], ?_, ?_, ?_⟩
    · rw [hv]
      exact (percentage_converts hconverts h.progress10000.1 h.progress10000.2).1
    · rw [hv]
      exact (percentage_converts hconverts h.progress10000.1 h.progress10000.2).2.1
    · rw [hv]
      exact (percentage_converts hconverts h.progress10000.1 h.progress10000.2).2.2.symm
  case device => exact ⟨by simp [progressMembers], h.device.1, h.device.2.1⟩
  case deviceId =>
    intro v hm
    exact ⟨value_unique (honce .deviceId) hm (by simp [progressMembers, Field.key]),
      h.deviceId.2.1⟩
  case deviceId_absent => exact fun hk => absurd (by simp [keys, progressMembers]) hk
  case timestamp =>
    intro v hm
    have hkey : ascii "timestamp" ∈ keys (progressMembers p n) := mem_keys.mpr ⟨v, hm⟩
    simp only [progressMembers, keys_cons, keys_nil] at hkey
    exact absurd hkey (by decide)
  case timestamp_absent => exact fun _ => ⟨ht, hhas⟩

/-- The text of a record fits the buffer of the protocol. -/
theorem length_progressJson_le {p : Progress} (h : p.WellFormed) :
    (progressJson p).length ≤ jsonMax := by
  obtain ⟨l, hl, -, hlen, -⟩ := h.position
  obtain ⟨n, hn, -, hnlen⟩ := scalarText_percentage h.progress10000.1 h.progress10000.2
  rw [hn] at hnlen
  have h1 := length_stringText_le p.documentId
  have h2 := length_stringText_le l
  have h3 := length_stringText_le p.device
  have h4 := length_stringText_le p.deviceId
  have hdoc := h.documentId.1
  have hdev := h.device.2.1
  have hdid := h.deviceId.2.1
  have hlit : (ascii "\x7b\"document\":").length = 12 ∧ (ascii ",\"progress\":").length = 12 ∧
      (ascii ",\"percentage\":").length = 14 ∧ (ascii ",\"device\":").length = 10 ∧
      (ascii ",\"device_id\":").length = 13 ∧ (ascii "\x7d").length = 1 := by decide
  unfold jsonMax positionMax at *
  unfold documentIdBytes deviceMax at *
  rw [progressJson, hl, Option.getD_some]
  simp only [List.length_append]
  omega

/-- What was serialized is read back, field by field. -/
theorem parses_of_serialize {toDouble : ℚ → ℚ} (hconverts : Converts toDouble) {alloc : Bool}
    {old p : Progress} {doc : List UInt8} {pos : Option (List UInt8)} {n : ℤ}
    {device deviceId json : List UInt8}
    (hset : progressSet alloc old doc pos n device deviceId = (.ok, p))
    (hjson : serializeProgress p (jsonMax + 1) = (.ok, some json)) (old' : Progress) :
    ∃ q, parseProgress toDouble (fun _ => true) json old' = (.ok, q) ∧ q.documentId = doc ∧
      q.logicalPosition = pos ∧ q.progress10000 = n ∧ q.device = device ∧
      q.deviceId = deviceId := by
  obtain ⟨rfl, hwf⟩ := progressSet_eq_ok hset
  have hlen := length_progressJson_le hwf
  rw [serializeProgress_of_wellFormed hwf (Nat.lt_succ_of_le hlen)] at hjson
  obtain rfl : progressJson _ = json := Option.some.inj (Prod.mk.inj hjson).2
  obtain ⟨ms, htext, hden⟩ := progressJson_denotes hconverts hwf rfl rfl
  exact ⟨_, parseProgress_complete hlen htext hden old', rfl, rfl, rfl, rfl, rfl⟩

/-- **Round trip.** What `progressSet` accepts is serialized within the buffer of the protocol,
and with memory available the reader recovers every field of it, whether `strtod` is exact or
rounds. -/
theorem parse_serialize {toDouble : ℚ → ℚ} (hconverts : Converts toDouble) {alloc : Bool}
    {old p : Progress} {doc : List UInt8} {pos : Option (List UInt8)} {n : ℤ}
    {device deviceId : List UInt8}
    (h : progressSet alloc old doc pos n device deviceId = (.ok, p)) :
    ∃ json, serializeProgress p (jsonMax + 1) = (.ok, some json) ∧
      ∀ old', ∃ q, parseProgress toDouble (fun _ => true) json old' = (.ok, q) ∧
        q.documentId = doc ∧ q.logicalPosition = pos ∧ q.progress10000 = n ∧ q.device = device ∧
        q.deviceId = deviceId := by
  have hwf := (progressSet_eq_ok h).2
  have hlen := length_progressJson_le hwf
  have hjson := serializeProgress_of_wellFormed hwf (Nat.lt_succ_of_le hlen)
  exact ⟨_, hjson, parses_of_serialize hconverts h hjson⟩

/-- A record with a quote, a control character and a long character in its position. -/
def sampleProgress : Progress :=
  { progressInit with
    documentId := List.replicate 32 0x61, logicalPosition := some [0x22, 0x01, 0xe2, 0x82, 0xac],
    progress10000 := 1250, device := ascii "reader", deviceId := ascii "id" }

theorem parse_serialize_sample :
    ∃ json, serializeProgress sampleProgress (jsonMax + 1) = (.ok, some json) ∧
      ∀ old', ∃ q, parseProgress Binary64.nearest (fun _ => true) json old' = (.ok, q) ∧
        q.documentId = List.replicate 32 0x61 ∧
        q.logicalPosition = some [0x22, 0x01, 0xe2, 0x82, 0xac] ∧ q.progress10000 = 1250 ∧
        q.device = ascii "reader" ∧ q.deviceId = ascii "id" := by
  have h : progressSet true progressInit (List.replicate 32 0x61)
      (some [0x22, 0x01, 0xe2, 0x82, 0xac]) 1250 (ascii "reader") (ascii "id") =
      (.ok, sampleProgress) := by
    decide +kernel
  exact parse_serialize Binary64.converts_nearest h

end Kosync
