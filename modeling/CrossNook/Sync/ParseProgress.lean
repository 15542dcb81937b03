import CrossNook.Sync.ParseObject

/-!
# What `cn_kosync_parse_progress` accepts

The parser is exact: it accepts the JSON texts of flat objects that denote a progress record, and
the record it delivers is the one denoted.

## Main definitions

* `Kosync.Denotes ms p`: the object with the members `ms` denotes the record `p`

## Main results

* `Kosync.Reads.denotes`, `Kosync.exists_reads`: reading the members one after the other agrees
  with what they denote together
* `Kosync.parseProgress_eq_ok_iff`: the parser is exact
-/

namespace Kosync

open Bytes (ascii)
open Json (Number Scalar Member FlatObjectText)

/-! ## Reading members one after the other -/

/-- The keys of the members. -/
def keys (ms : List Member) : List (List UInt8) := ms.map Prod.fst

@[simp] theorem keys_nil : keys [] = [] := rfl

@[simp] theorem keys_cons (m : Member) (ms : List Member) : keys (m :: ms) = m.1 :: keys ms := rfl

theorem mem_keys {k : List UInt8} {ms : List Member} : k ∈ keys ms ↔ ∃ v, (k, v) ∈ ms := by
  simp [keys]

/-- Two records hold the same value of a field. -/
def Agree : Field → Progress → Progress → Prop
  | .document, p, q => p.documentId = q.documentId
  | .progress, p, q => p.logicalPosition = q.logicalPosition
  | .percentage, p, q => p.progress10000 = q.progress10000
  | .device, p, q => p.device = q.device
  | .deviceId, p, q => p.deviceId = q.deviceId
  | .timestamp, p, q => p.timestamp = q.timestamp ∧ p.hasTimestamp = q.hasTimestamp

theorem Agree.refl (f : Field) (p : Progress) : Agree f p p := by
  cases f <;> simp [Agree]

theorem Agree.trans {f : Field} {p q r : Progress} (h : Agree f p q) (h' : Agree f q r) :
    Agree f p r := by
  cases f <;> simp_all [Agree]

/-- Records that agree on every field are equal. -/
theorem Agree.ext {p q : Progress} (h : ∀ f, Agree f p q) : p = q := by
  obtain ⟨h1, h2⟩ := h .timestamp
  have h3 := h .document
  have h4 := h .progress
  have h5 := h .percentage
  have h6 := h .device
  have h7 := h .deviceId
  cases p
  cases q
  simp_all [Agree]

variable {toDouble : ℚ → ℚ}

theorem agree_store_self {f : Field} {v : Scalar} (hv : FieldValueOk toDouble f v) (p q : Progress) :
    Agree f (f.store toDouble v p) (f.store toDouble v q) := by
  cases f <;> cases v <;> first | exact hv.elim | simp [Agree, Field.store]

theorem agree_store_other {f g : Field} (hne : f ≠ g) (v : Scalar) (p : Progress) :
    Agree f (g.store toDouble v p) p := by
  cases f <;> cases g <;> cases v <;> first | exact absurd rfl hne | simp [Agree, Field.store]

theorem ReadsValue.mem_fields {p p' : ParsedObject} {key : List UInt8} {v : Scalar} {f : Field}
    (h : ReadsValue toDouble p key v p') : f ∈ p'.fields ↔ f ∈ p.fields ∨ key = f.key := by
  cases h with
  | @known g =>
    simp only [ParsedObject.set, Finset.mem_insert, Field.key_injective.eq_iff]
    tauto
  | unknown hkey => simp [hkey f]

/-- A value of another key leaves a field alone. -/
theorem ReadsValue.agree_other {p p' : ParsedObject} {key : List UInt8} {v : Scalar} {f : Field}
    (h : ReadsValue toDouble p key v p') (hne : key ≠ f.key) : Agree f p'.progress p.progress := by
  cases h with
  | @known g =>
    refine agree_store_other ?_ v p.progress
    rintro rfl
    exact hne rfl
  | unknown => exact Agree.refl f _

theorem ReadsValue.agree_self {p p' : ParsedObject} {v : Scalar} {f : Field}
    (h : ReadsValue toDouble p f.key v p') :
    FieldValueOk toDouble f v ∧ f ∉ p.fields ∧ Agree f p'.progress (f.store toDouble v progressInit) := by
  generalize hk : f.key = key at h
  cases h with
  | @known g _ hok hfree =>
    obtain rfl := Field.key_injective hk
    exact ⟨hok, hfree, agree_store_self hok _ _⟩
  | unknown hkey => exact absurd hk.symm (hkey f)

/-- The fields seen are those whose keys occur. -/
theorem Reads.mem_fields {p out : ParsedObject} {ms : List Member} {f : Field}
    (h : Reads toDouble p ms out) : f ∈ out.fields ↔ f ∈ p.fields ∨ f.key ∈ keys ms := by
  induction h with
  | nil => simp
  | cons _ _ h _ ih =>
    rw [ih, h.mem_fields, keys_cons, List.mem_cons]
    simp only [eq_comm, or_assoc]

/-- A field seen keeps its value, and its key does not occur again. -/
theorem Reads.agree_of_mem {p out : ParsedObject} {ms : List Member} {f : Field}
    (h : Reads toDouble p ms out) (hf : f ∈ p.fields) :
    Agree f out.progress p.progress ∧ f.key ∉ keys ms := by
  induction h with
  | nil => exact ⟨Agree.refl f _, by simp⟩
  | @cons p p' out key v ms _ _ h _ ih =>
    have hne : key ≠ f.key := by
      rintro rfl
      exact h.agree_self.2.1 hf
    obtain ⟨hagree, hkeys⟩ := ih (h.mem_fields.mpr (.inl hf))
    exact ⟨hagree.trans (h.agree_other hne), by simp [hkeys, hne.symm]⟩

/-- A field whose key does not occur keeps its value. -/
theorem Reads.agree_of_notMem {p out : ParsedObject} {ms : List Member} {f : Field}
    (h : Reads toDouble p ms out) (hf : f.key ∉ keys ms) : Agree f out.progress p.progress := by
  induction h with
  | nil => exact Agree.refl f _
  | @cons p p' out key v ms _ _ h _ ih =>
    rw [keys_cons, List.mem_cons, not_or] at hf
    exact (ih hf.2).trans (h.agree_other (Ne.symm hf.1))

/-- A field whose key occurs holds the value of that member. -/
theorem Reads.agree_value {p out : ParsedObject} {ms : List Member} {f : Field} {v : Scalar}
    (h : Reads toDouble p ms out) (hf : (f.key, v) ∈ ms) :
    FieldValueOk toDouble f v ∧ Agree f out.progress (f.store toDouble v progressInit) := by
  induction h with
  | nil => simp at hf
  | @cons p p' out key w ms _ _ h hs ih =>
    rcases List.mem_cons.mp hf with he | hf
    · obtain ⟨rfl, rfl⟩ := Prod.mk.inj he
      obtain ⟨hok, -, hagree⟩ := h.agree_self
      exact ⟨hok, (hs.agree_of_mem (h.mem_fields.mpr (.inr rfl))).1.trans hagree⟩
    · exact ih hf

/-- No known key occurs twice. -/
theorem Reads.count_le {p out : ParsedObject} {ms : List Member} (h : Reads toDouble p ms out)
    (f : Field) : (keys ms).count f.key ≤ 1 := by
  induction h with
  | nil => simp
  | @cons p p' out key v ms _ _ h hs ih =>
    rw [keys_cons, List.count_cons]
    split_ifs with hkey
    · have hmem := h.mem_fields.mpr (.inr (by simpa using hkey))
      rw [List.count_eq_zero.mpr (hs.agree_of_mem hmem).2]
    · exact ih

/-- What holds of every member read. -/
structure MemberOk (toDouble : ℚ → ℚ) (m : Member) : Prop where
  key_length : m.1.length < keyCap
  key_text : (0 : UInt8) ∉ m.1
  known : ∀ f : Field, m.1 = f.key → FieldValueOk toDouble f m.2
  unknown : (∀ f : Field, m.1 ≠ f.key) → UnknownValueOk m.2

theorem Reads.memberOk {p out : ParsedObject} {ms : List Member} (h : Reads toDouble p ms out) :
    ∀ m ∈ ms, MemberOk toDouble m := by
  induction h with
  | nil => simp
  | @cons p p' out key v ms hlen htext h hs ih =>
    intro m hm
    rcases List.mem_cons.mp hm with rfl | hm
    · refine ⟨hlen, htext, ?_, ?_⟩
      · rintro f rfl
        exact h.agree_self.1
      · intro hkey
        cases h with
        | known => exact absurd rfl (hkey _)
        | unknown _ hok => exact hok
    · exact ih m hm

/-- Members that are all as required, no known key twice, can be read. -/
theorem exists_reads {ms : List Member} (hok : ∀ m ∈ ms, MemberOk toDouble m)
    (hcount : ∀ f : Field, (keys ms).count f.key ≤ 1) (p : ParsedObject)
    (hp : ∀ f ∈ p.fields, f.key ∉ keys ms) : ∃ out, Reads toDouble p ms out := by
  induction ms generalizing p with
  | nil => exact ⟨p, .nil⟩
  | cons m ms ih =>
    obtain ⟨key, v⟩ := m
    have hm := hok (key, v) (by simp)
    have hcount' (f : Field) : (keys ms).count f.key ≤ 1 :=
      le_trans (by rw [keys_cons, List.count_cons]; omega) (hcount f)
    have hok' : ∀ m ∈ ms, MemberOk toDouble m := fun m hm => hok m (by simp [hm])
    by_cases hknown : ∃ f : Field, key = f.key
    · obtain ⟨f, rfl⟩ := hknown
      have hfree : f ∉ p.fields := fun hf => hp f hf (by simp)
      have hnot : f.key ∉ keys ms := by
        have := hcount f
        rw [keys_cons, List.count_cons_self] at this
        exact List.count_eq_zero.mp (by omega)
      obtain ⟨out, hout⟩ := ih hok' hcount' (p.set toDouble f v) (by
        intro g hg
        rcases Finset.mem_insert.mp hg with rfl | hg
        · exact hnot
        · exact fun h => hp g hg (by simp [h]))
      exact ⟨out, .cons hm.key_length hm.key_text (.known (hm.known f rfl) hfree) hout⟩
    · push Not at hknown
      obtain ⟨out, hout⟩ := ih hok' hcount' p fun f hf h => hp f hf (by simp [h])
      exact ⟨out, .cons hm.key_length hm.key_text (.unknown hknown (hm.unknown hknown)) hout⟩

/-- A key that occurs at most once has at most one value. -/
theorem value_unique {ms : List Member} {k : List UInt8} {v w : Scalar}
    (hcount : (keys ms).count k ≤ 1) (hv : (k, v) ∈ ms) (hw : (k, w) ∈ ms) : v = w := by
  induction ms with
  | nil => simp at hv
  | cons m ms ih =>
    rw [keys_cons, List.count_cons] at hcount
    rcases List.mem_cons.mp hv with rfl | hv' <;> rcases List.mem_cons.mp hw with hw | hw'
    · exact (Prod.mk.inj hw).2.symm
    · have := List.count_pos_iff.mpr (mem_keys.mpr ⟨w, hw'⟩)
      simp at hcount
      omega
    · subst hw
      have := List.count_pos_iff.mpr (mem_keys.mpr ⟨v, hv'⟩)
      simp at hcount
      omega
    · exact ih (by omega) hv' hw'

/-! ## What an object denotes -/

/-- The object with the members `ms` denotes the record `p`, where `toDouble v` is what `strtod` makes
of a number `v`. -/
structure Denotes (toDouble : ℚ → ℚ) (ms : List Member) (p : Progress) : Prop where
  keys_ok : ∀ m ∈ ms, m.1.length ≤ 31 ∧ (0 : UInt8) ∉ m.1
  strings_ok : ∀ k s, (k, Scalar.string s) ∈ ms → (0 : UInt8) ∉ s
  numbers_ok : ∀ k n, (k, Scalar.number n) ∈ ms → n.text.length ≤ 63 ∧ ¬ strtodRange n.value
  once : ∀ f : Field, (keys ms).count f.key ≤ 1
  document : (ascii "document", Scalar.string p.documentId) ∈ ms ∧ IsDocumentId p.documentId
  progress : ∃ l, (ascii "progress", Scalar.string l) ∈ ms ∧ l ≠ [] ∧ l.length ≤ positionMax ∧
    p.logicalPosition = some l
  percentage : ∃ n, (ascii "percentage", Scalar.number n) ∈ ms ∧ 0 ≤ toDouble n.value ∧
    toDouble n.value ≤ 1 ∧ p.progress10000 = scale (toDouble n.value)
  device : (ascii "device", Scalar.string p.device) ∈ ms ∧ p.device ≠ [] ∧
    p.device.length ≤ deviceMax
  deviceId : ∀ v, (ascii "device_id", v) ∈ ms →
    v = .string p.deviceId ∧ p.deviceId.length ≤ deviceMax
  deviceId_absent : ascii "device_id" ∉ keys ms → p.deviceId = []
  timestamp : ∀ v, (ascii "timestamp", v) ∈ ms →
    ∃ n, v = .number n ∧ n.IsInteger ∧ (p.timestamp : ℚ) = n.value ∧
      0 ≤ p.timestamp ∧ p.timestamp ≤ llongMax ∧ p.hasTimestamp = true
  timestamp_absent : ascii "timestamp" ∉ keys ms → p.timestamp = 0 ∧ p.hasTimestamp = false

/-- A string that a field accepts is the whole value. -/
theorem FieldValueOk.eq_string {f : Field} {v : Scalar} (h : FieldValueOk toDouble f v)
    (hf : f ≠ .percentage) (hf' : f ≠ .timestamp) : ∃ s, v = .string s ∧ (0 : UInt8) ∉ s := by
  cases f <;> cases v <;> first | exact h.elim | exact absurd rfl hf | exact absurd rfl hf' | skip
  all_goals exact ⟨_, rfl, h.1⟩

/-- Values of ordinary size convert without a range error. -/
theorem not_strtodRange {v : ℚ} (h0 : 0 ≤ v) (hmax : v ≤ 2 ^ 64) (hmin : v ≠ 0 → (2 ^ 64)⁻¹ ≤ v) :
    ¬ strtodRange v := by
  rw [strtodRange, abs_of_nonneg h0, not_or, not_le, not_and, not_lt]
  constructor
  · have hpow : (2 : ℚ) ^ 1024 = 2 ^ 970 * 2 ^ 54 := by rw [← pow_add]
    have hle : (2 : ℚ) ^ 64 ≤ 2 ^ 970 := pow_le_pow_right₀ (by norm_num) (by norm_num)
    rw [hpow]
    generalize (2 : ℚ) ^ 970 = x at hle
    linarith
  · intro hv
    have hle : (2 : ℚ) ^ 64 ≤ 2 ^ 1022 := pow_le_pow_right₀ (by norm_num) (by norm_num)
    exact le_trans (inv_anti₀ (by positivity) hle) (hmin hv)

/-- An integer that the time stamp accepts is in the range of every double. -/
theorem not_strtodRange_of_integer {z : ℤ} (h0 : 0 ≤ z) (hmax : z ≤ llongMax) :
    ¬ strtodRange (z : ℚ) := by
  have hle : z ≤ 2 ^ 64 := hmax.trans (by decide)
  refine not_strtodRange (by exact_mod_cast h0) (by exact_mod_cast hle) fun hz => ?_
  have hz' : z ≠ 0 := by exact_mod_cast hz
  have hone : (1 : ℚ) ≤ z := by exact_mod_cast (by omega : (1 : ℤ) ≤ z)
  exact le_trans (inv_le_one_of_one_le₀ (by norm_num)) hone

/-- **What the members read one after the other denote together.** -/
theorem Reads.denotes {ms : List Member} {out : ParsedObject} (h : Reads toDouble emptyObject ms out)
    (hreq : required ⊆ out.fields) (hdoc : documentIdOk out.progress.documentId = true)
    (hdev : out.progress.device ≠ []) : Denotes toDouble ms out.progress := by
  have hmem (f : Field) : f ∈ out.fields ↔ f.key ∈ keys ms := by simp [h.mem_fields, emptyObject]
  have hvalue (f : Field) (hf : f ∈ required) : ∃ v, (f.key, v) ∈ ms :=
    mem_keys.mp ((hmem f).mp (hreq hf))
  -- the checks of every member first, then the six fields that are stored
  constructor
  case keys_ok =>
    intro m hm
    have hok := h.memberOk m hm
    exact ⟨Nat.le_of_lt_succ hok.key_length, hok.key_text⟩
  case strings_ok =>
    intro k s hm
    have hok := h.memberOk _ hm
    by_cases hknown : ∃ f : Field, k = f.key
    · obtain ⟨f, hf⟩ := hknown
      have := hok.known f hf
      cases f <;> first | exact this.1 | exact this.elim
    · exact hok.unknown (not_exists.mp hknown)
  case numbers_ok =>
    intro k n hm
    have hok := h.memberOk _ hm
    by_cases hknown : ∃ f : Field, k = f.key
    · obtain ⟨f, hf⟩ := hknown
      have hv := hok.known f hf
      cases f <;> try exact hv.elim
      case percentage => exact ⟨Nat.le_of_lt_succ hv.1.1, hv.1.2⟩
      case timestamp =>
        obtain ⟨hlen, hint, h0, hmax⟩ := hv
        rw [Number.value_of_isInteger hint] at h0 hmax ⊢
        exact ⟨Nat.le_of_lt_succ hlen,
          not_strtodRange_of_integer (by exact_mod_cast h0) (by exact_mod_cast hmax)⟩
    · have hv := hok.unknown (not_exists.mp hknown)
      exact ⟨Nat.le_of_lt_succ hv.1, hv.2⟩
  case once => exact h.count_le
  case document =>
    obtain ⟨v, hv⟩ := hvalue .document (by decide)
    obtain ⟨hok, hagree⟩ := h.agree_value hv
    obtain ⟨s, rfl, -⟩ := hok.eq_string (by decide) (by decide)
    obtain rfl : out.progress.documentId = s := hagree
    exact ⟨hv, documentIdOk_iff.mp hdoc⟩
  case progress =>
    obtain ⟨v, hv⟩ := hvalue .progress (by decide)
    obtain ⟨hok, hagree⟩ := h.agree_value hv
    obtain ⟨s, rfl, -⟩ := hok.eq_string (by decide) (by decide)
    exact ⟨s, hv, hok.2.1, hok.2.2, hagree⟩
  case percentage =>
    obtain ⟨v, hv⟩ := hvalue .percentage (by decide)
    obtain ⟨hok, hagree⟩ := h.agree_value hv
    cases v <;> try exact hok.elim
    case number n => exact ⟨n, hv, hok.2.1, hok.2.2, hagree⟩
  case device =>
    obtain ⟨v, hv⟩ := hvalue .device (by decide)
    obtain ⟨hok, hagree⟩ := h.agree_value hv
    obtain ⟨s, rfl, -⟩ := hok.eq_string (by decide) (by decide)
    obtain rfl : out.progress.device = s := hagree
    exact ⟨hv, hdev, hok.2⟩
  case deviceId =>
    intro v hv
    obtain ⟨hok, hagree⟩ := h.agree_value (f := .deviceId) hv
    obtain ⟨s, rfl, -⟩ := hok.eq_string (by decide) (by decide)
    obtain rfl : out.progress.deviceId = s := hagree
    exact ⟨rfl, hok.2⟩
  case deviceId_absent => exact fun hk => h.agree_of_notMem (f := .deviceId) hk
  case timestamp =>
    intro v hv
    obtain ⟨hok, hagree⟩ := h.agree_value (f := .timestamp) hv
    cases v <;> try exact hok.elim
    case number n =>
      obtain ⟨-, hint, h0, hmax⟩ := hok
      obtain ⟨ht, hhas⟩ := hagree
      simp only [Field.store] at ht hhas
      rw [Number.value_of_isInteger hint, Int.floor_intCast] at ht
      rw [Number.value_of_isInteger hint] at h0 hmax
      refine ⟨n, rfl, hint, ?_, ?_, ?_, hhas⟩
      · rw [ht, Number.value_of_isInteger hint]
      · rw [ht]
        exact_mod_cast h0
      · rw [ht]
        exact_mod_cast hmax
  case timestamp_absent => exact fun hk => h.agree_of_notMem (f := .timestamp) hk

/-- The members of an object that denotes a record are as the parser requires. -/
theorem Denotes.memberOk {ms : List Member} {p : Progress} (h : Denotes toDouble ms p) :
    ∀ m ∈ ms, MemberOk toDouble m := by
  rintro ⟨k, v⟩ hm
  obtain ⟨hlen, htext⟩ := h.keys_ok _ hm
  refine ⟨Nat.lt_succ_of_le hlen, htext, ?_, ?_⟩
  · rintro f rfl
    have hunique {w : Scalar} (hw : (f.key, w) ∈ ms) : v = w := value_unique (h.once f) hm hw
    -- what the record says of each field bounds its value
    cases f with
    | document =>
      obtain ⟨hw, hid⟩ := h.document
      obtain rfl := hunique hw
      exact ⟨h.strings_ok _ _ hm, hid.1.le⟩
    | progress =>
      obtain ⟨l, hw, hne, hle, -⟩ := h.progress
      obtain rfl := hunique hw
      exact ⟨h.strings_ok _ _ hm, hne, hle⟩
    | percentage =>
      obtain ⟨n, hw, h0, h1, -⟩ := h.percentage
      obtain rfl := hunique hw
      obtain ⟨hn, hrange⟩ := h.numbers_ok _ _ hm
      exact ⟨⟨Nat.lt_succ_of_le hn, hrange⟩, h0, h1⟩
    | device =>
      obtain ⟨hw, -, hle⟩ := h.device
      obtain rfl := hunique hw
      exact ⟨h.strings_ok _ _ hm, hle⟩
    | deviceId =>
      obtain ⟨rfl, hle⟩ := h.deviceId v hm
      exact ⟨h.strings_ok _ _ hm, hle⟩
    | timestamp =>
      obtain ⟨n, rfl, hint, hv, h0, hmax, -⟩ := h.timestamp v hm
      refine ⟨Nat.lt_succ_of_le (h.numbers_ok _ _ hm).1, hint, ?_, ?_⟩ <;> rw [← hv]
      · exact_mod_cast h0
      · exact_mod_cast hmax
  · -- a key of no field may have any scalar
    intro _
    cases v with
    | string s => exact h.strings_ok _ _ hm
    | number n =>
      obtain ⟨hn, hrange⟩ := h.numbers_ok _ _ hm
      exact ⟨Nat.lt_succ_of_le hn, hrange⟩
    | _ => trivial

/-- Reading an object that denotes a record leads to that record. -/
theorem Denotes.eq_progress {ms : List Member} {p : Progress} {out : ParsedObject}
    (h : Denotes toDouble ms p) (hreads : Reads toDouble emptyObject ms out) : out.progress = p := by
  -- the records are compared field by field
  refine Agree.ext fun f => ?_
  have hvalue {v : Scalar} (hv : (f.key, v) ∈ ms) := (hreads.agree_value hv).2
  by_cases hkey : f.key ∈ keys ms
  · -- a field of the object has one value only, and it is the one that was read
    obtain ⟨v, hv⟩ := mem_keys.mp hkey
    have hunique {w : Scalar} (hw : (f.key, w) ∈ ms) : v = w := value_unique (h.once f) hv hw
    have hagree := hvalue hv
    cases f with
    | document =>
      obtain rfl := hunique h.document.1
      exact hagree
    | progress =>
      obtain ⟨l, hw, -, -, hl⟩ := h.progress
      obtain rfl := hunique hw
      exact Eq.trans hagree hl.symm
    | percentage =>
      obtain ⟨n, hw, -, -, hn⟩ := h.percentage
      obtain rfl := hunique hw
      exact Eq.trans hagree hn.symm
    | device =>
      obtain rfl := hunique h.device.1
      exact hagree
    | deviceId =>
      obtain ⟨rfl, -⟩ := h.deviceId v hv
      exact hagree
    | timestamp =>
      obtain ⟨n, rfl, -, hn, -, -, hhas⟩ := h.timestamp v hv
      refine ⟨?_, hagree.2.trans hhas.symm⟩
      have := hagree.1
      simp only [Field.store] at this
      rw [this, ← hn, Int.floor_intCast]
  · -- a field that is missing keeps its default
    have hagree := hreads.agree_of_notMem hkey
    cases f with
    | document => exact absurd (mem_keys.mpr ⟨_, h.document.1⟩) hkey
    | progress => exact absurd (mem_keys.mpr ⟨_, h.progress.choose_spec.1⟩) hkey
    | percentage => exact absurd (mem_keys.mpr ⟨_, h.percentage.choose_spec.1⟩) hkey
    | device => exact absurd (mem_keys.mpr ⟨_, h.device.1⟩) hkey
    | deviceId => exact Eq.trans hagree (h.deviceId_absent hkey).symm
    | timestamp =>
      obtain ⟨ht, hhas⟩ := h.timestamp_absent hkey
      exact ⟨hagree.1.trans ht.symm, hagree.2.trans hhas.symm⟩

theorem Denotes.required_subset {ms : List Member} {p : Progress} {out : ParsedObject}
    (h : Denotes toDouble ms p) (hreads : Reads toDouble emptyObject ms out) : required ⊆ out.fields := by
  intro f hf
  rw [hreads.mem_fields]
  right
  cases f with
  | document => exact mem_keys.mpr ⟨_, h.document.1⟩
  | progress => exact mem_keys.mpr ⟨_, h.progress.choose_spec.1⟩
  | percentage => exact mem_keys.mpr ⟨_, h.percentage.choose_spec.1⟩
  | device => exact mem_keys.mpr ⟨_, h.device.1⟩
  | deviceId => exact absurd hf (by decide)
  | timestamp => exact absurd hf (by decide)

/-! ## The parser -/

/-- What a successful parse has read. -/
theorem parseProgress_sound {alloc : ℕ → Bool} {json : List UInt8} {old p : Progress}
    (h : parseProgress toDouble alloc json old = (.ok, p)) :
    json.length ≤ jsonMax ∧ ∃ ms, FlatObjectText json ms ∧ Denotes toDouble ms p := by
  unfold parseProgress at h
  cases hparse : parseObject toDouble alloc json with
  | error e =>
    obtain rfl | ⟨rfl, -⟩ := parseObject_error hparse <;> simp [hparse] at h
  | ok out =>
    simp only [hparse] at h
    split_ifs at h with h1 h2
    · simp at h
    · simp at h
    · obtain ⟨-, rfl⟩ := Prod.mk.inj h
      simp only [not_or, not_not] at h2
      obtain ⟨hlen, ms, htext, hreads⟩ := parseObject_sound hparse
      exact ⟨hlen, ms, htext, hreads.denotes h2.1 h2.2.1 h2.2.2⟩

/-- A text that denotes a record is parsed. -/
theorem parseProgress_complete {json : List UInt8} {ms : List Member} {p : Progress}
    (hlen : json.length ≤ jsonMax) (htext : FlatObjectText json ms) (h : Denotes toDouble ms p)
    (old : Progress) : parseProgress toDouble (fun _ => true) json old = (.ok, p) := by
  obtain ⟨out, hreads⟩ := exists_reads h.memberOk h.once emptyObject (by simp [emptyObject])
  have hreq := h.required_subset hreads
  have hne : out.fields ≠ ∅ := by
    intro he
    simpa [he] using hreq (show Field.document ∈ required by decide)
  obtain rfl := h.eq_progress hreads
  unfold parseProgress
  rw [parseObject_complete hlen htext hreads]
  simp only
  rw [if_neg hne, if_neg (by simp [hreq, documentIdOk_iff.mpr h.document.2, h.device.2.1])]

/-- **The parser is exact.** With memory available, it delivers a record exactly for the texts of
at most `jsonMax` bytes that are JSON text of a flat object denoting that record. -/
theorem parseProgress_eq_ok_iff (toDouble : ℚ → ℚ) (json : List UInt8) (old p : Progress) :
    parseProgress toDouble (fun _ => true) json old = (.ok, p) ↔
      json.length ≤ jsonMax ∧ ∃ ms, FlatObjectText json ms ∧ Denotes toDouble ms p :=
  ⟨parseProgress_sound, fun ⟨hlen, _, htext, h⟩ => parseProgress_complete hlen htext h old⟩

end Kosync
