import CrossNook.Sync.ReaderText

/-!
# What `parse_object` accepts

The parser runs over the members of a flat object as the grammar gives them. What one member may
be and what it does to the parsed object are stated on the grammar; the parser succeeds exactly on
the objects whose members can be read one after the other.

## Main definitions

* `Kosync.ReadsValue p key v p'`: the member `key` with the value `v` can be read and leads from
  `p` to `p'`
* `Kosync.Reads p ms out`: the members `ms` can be read in order and lead from `p` to `out`

## Main results

* `Kosync.readerValue_sound`, `Kosync.readerValue_complete`: one value
* `Kosync.parseObject_sound`, `Kosync.parseObject_complete`: the whole object
-/

namespace Kosync

open Bytes (ascii IsDigit Stops)
open Json (Ws IsWs ws_nil ws_append StringBody Number Scalar ScalarText Member MemberText MembersText
  FlatObjectText)

/-! ## Members -/

/-- The key of a field. -/
def Field.key : Field → List UInt8
  | .document => ascii "document"
  | .progress => ascii "progress"
  | .percentage => ascii "percentage"
  | .device => ascii "device"
  | .deviceId => ascii "device_id"
  | .timestamp => ascii "timestamp"

theorem Field.key_injective : Function.Injective Field.key := by
  intro f g h
  cases f <;> cases g <;> first | rfl | exact absurd h (by decide)

/-- A number that fits the token buffer and converts without a range error. -/
def NumberOk (n : Number) : Prop := n.text.length < tokenCap ∧ ¬ strtodRange n.value

/-- The values that a field accepts. -/
def FieldValueOk (toDouble : ℚ → ℚ) : Field → Scalar → Prop
  | .document, .string s => (0 : UInt8) ∉ s ∧ s.length ≤ documentIdBytes
  | .progress, .string s => (0 : UInt8) ∉ s ∧ s ≠ [] ∧ s.length ≤ positionMax
  | .percentage, .number n => NumberOk n ∧ 0 ≤ toDouble n.value ∧ toDouble n.value ≤ 1
  | .device, .string s => (0 : UInt8) ∉ s ∧ s.length ≤ deviceMax
  | .deviceId, .string s => (0 : UInt8) ∉ s ∧ s.length ≤ deviceMax
  | .timestamp, .number n =>
    n.text.length < tokenCap ∧ n.IsInteger ∧ 0 ≤ n.value ∧ n.value ≤ llongMax
  | _, _ => False

/-- The values that an unknown member may have. -/
def UnknownValueOk : Scalar → Prop
  | .string s => (0 : UInt8) ∉ s
  | .number n => NumberOk n
  | _ => True

/-- The percentage in ten-thousandths. -/
def scale (v : ℚ) : ℤ :=
  ⌊Binary64.add (Binary64.mul v 10000) (Binary64.nearest (1 / 10 ^ 9))⌋

/-- Store the value of a field in a record. -/
def Field.store (toDouble : ℚ → ℚ) : Field → Scalar → Progress → Progress
  | .document, .string s, p => { p with documentId := s }
  | .progress, .string s, p => { p with logicalPosition := some s }
  | .percentage, .number n, p => { p with progress10000 := scale (toDouble n.value) }
  | .device, .string s, p => { p with device := s }
  | .deviceId, .string s, p => { p with deviceId := s }
  | .timestamp, .number n, p => { p with timestamp := ⌊n.value⌋, hasTimestamp := true }
  | _, _, p => p

/-- What reading the value of a known field does. -/
def ParsedObject.set (toDouble : ℚ → ℚ) (p : ParsedObject) (f : Field) (v : Scalar) :
    ParsedObject :=
  { progress := f.store toDouble v p.progress, fields := insert f p.fields }

/-! ## Values -/

variable {toDouble : ℚ → ℚ}

theorem toInt_eq_floor {v : ℚ} (h : 0 ≤ v) : toInt v = ⌊v⌋ := by
  rw [toInt, Int.tdiv_eq_ediv_of_nonneg (Rat.num_nonneg.mpr h), Rat.floor_def']

/-- The product and the sum are close to the exact ones. -/
theorem scale_bounds {v : ℚ} (h0 : 0 ≤ v) (h1 : v ≤ 1) :
    0 ≤ Binary64.add (Binary64.mul v 10000) (Binary64.nearest (1 / 10 ^ 9)) ∧
      |Binary64.add (Binary64.mul v 10000) (Binary64.nearest (1 / 10 ^ 9)) -
        (v * 10000 + 1 / 10 ^ 9)| ≤ 1 / 10 ^ 11 := by
  have hmul := Binary64.close_nearest.bounds (show 0 ≤ v * 10000 by positivity)
  have hconst := Binary64.close_nearest.bounds (show (0 : ℚ) ≤ 1 / 10 ^ 9 by norm_num)
  have hmul0 : 0 ≤ Binary64.mul v 10000 := Binary64.nearest_nonneg (by positivity)
  have hconst0 : 0 ≤ Binary64.nearest (1 / 10 ^ 9) := Binary64.nearest_nonneg (by norm_num)
  have hadd := Binary64.close_nearest.bounds (add_nonneg hmul0 hconst0)
  refine ⟨Binary64.nearest_nonneg (add_nonneg hmul0 hconst0), ?_⟩
  unfold Binary64.add Binary64.mul at *
  rw [abs_le]
  norm_num at hmul hconst hadd ⊢
  constructor <;> linarith

theorem scale_range {v : ℚ} (h0 : 0 ≤ v) (h1 : v ≤ 1) : 0 ≤ scale v ∧ scale v ≤ 10000 := by
  obtain ⟨hpos, hclose⟩ := scale_bounds h0 h1
  unfold scale
  constructor
  · exact Int.floor_nonneg.mpr hpos
  · rw [← Int.lt_add_one_iff, Int.floor_lt]
    rw [abs_le] at hclose
    push_cast
    norm_num at hclose ⊢
    linarith

theorem readerPercentage_sound {r r' : List UInt8} {k : ℤ}
    (h : readerPercentage toDouble r = some (k, r')) :
    ∃ w, ∃ n : Number, Ws w ∧ r = w ++ (n.text ++ r') ∧
      FieldValueOk toDouble .percentage (.number n) ∧ k = scale (toDouble n.value) := by
  rw [readerPercentage] at h
  cases hx : numberToken tokenCap r with
  | none => simp [hx] at h
  | some x =>
    obtain ⟨t, r₁⟩ := x
    obtain ⟨w, n, hw, hr, rfl, hlen⟩ := numberToken_sound hx
    simp only [hx, strtod_text] at h
    split_ifs at h with h1 h2
    simp only [not_or, not_lt, not_not] at h1
    obtain ⟨hrange, -, h0, hle⟩ := h1
    rw [toInt_eq_floor (scale_bounds h0 hle).1] at h
    obtain ⟨rfl, rfl⟩ : scale (toDouble n.value) = k ∧ r₁ = r' := by simpa [scale] using h
    exact ⟨w, n, hw, hr, ⟨⟨hlen, hrange⟩, h0, hle⟩, rfl⟩

theorem readerPercentage_complete {w r : List UInt8} {n : Number} (hw : Ws w)
    (hn : FieldValueOk toDouble .percentage (.number n)) (hr : Stops IsNumberByte r) :
    readerPercentage toDouble (w ++ (n.text ++ r)) = some (scale (toDouble n.value), r) := by
  obtain ⟨⟨hlen, hrange⟩, h0, h1⟩ := hn
  have hscale := scale_range h0 h1
  rw [readerPercentage, numberToken_complete n hw hlen hr]
  simp only [strtod_text]
  rw [if_neg (by simp [hrange, h0, h1]), toInt_eq_floor (scale_bounds h0 h1).1,
    if_neg (by unfold scale at hscale; omega)]
  rfl

/-- The value of an integer token. -/
theorem Number.value_of_isInteger {n : Number} (hn : n.IsInteger) :
    n.value = ((strtoll n.text).1 : ℤ) := by
  obtain ⟨hfrac, hexp⟩ := hn
  rw [strtoll_text]
  simp only [Number.value, Number.magnitude, hfrac, hexp]
  cases n.minus <;> simp

theorem Number.isInteger_iff {n : Number} : n.IsInteger ↔ n.fracText ++ n.expText = [] := by
  unfold Json.Number.IsInteger Json.Number.fracText Json.Number.expText
  cases hexp : n.exp with
  | none => by_cases hf : n.frac = [] <;> simp [hf]
  | some e => simp [Json.Exponent.text]

theorem readerTimestamp_sound {r r' : List UInt8} {k : ℤ} (h : readerTimestamp r = some (k, r')) :
    ∃ w, ∃ n : Number, Ws w ∧ r = w ++ (n.text ++ r') ∧ FieldValueOk toDouble .timestamp (.number n) ∧
      k = ⌊n.value⌋ := by
  rw [readerTimestamp] at h
  cases hx : numberToken tokenCap r with
  | none => simp [hx] at h
  | some x =>
    obtain ⟨t, r₁⟩ := x
    obtain ⟨w, n, hw, hr, rfl, hlen⟩ := numberToken_sound hx
    simp only [hx] at h
    split_ifs at h with h1
    simp only [not_or, not_lt, not_not, strtollRange] at h1
    obtain ⟨⟨-, hmax⟩, hstop, h0⟩ := h1
    have hint : n.IsInteger := Number.isInteger_iff.mpr (by simpa [strtoll_text] using hstop)
    have hv := Number.value_of_isInteger hint
    obtain ⟨rfl, rfl⟩ : _ = k ∧ r₁ = r' := by simpa using h
    refine ⟨w, n, hw, hr, ⟨hlen, hint, ?_, ?_⟩, ?_⟩
    · rw [hv]
      exact_mod_cast h0
    · rw [hv]
      exact_mod_cast hmax
    · rw [hv, Int.floor_intCast]

theorem readerTimestamp_complete {w r : List UInt8} {n : Number} (hw : Ws w)
    (hn : FieldValueOk toDouble .timestamp (.number n)) (hr : Stops IsNumberByte r) :
    readerTimestamp (w ++ (n.text ++ r)) = some (⌊n.value⌋, r) := by
  obtain ⟨hlen, hint, h0, hmax⟩ := hn
  have hv := Number.value_of_isInteger hint
  rw [hv] at h0 hmax ⊢
  have h0' : 0 ≤ (strtoll n.text).1 := by exact_mod_cast h0
  have hmax' : (strtoll n.text).1 ≤ llongMax := by exact_mod_cast hmax
  have hstop : (strtoll n.text).2 = [] := by
    rw [strtoll_text]
    exact Number.isInteger_iff.mp hint
  have hrange : ¬ strtollRange (strtoll n.text).1 := by
    unfold strtollRange
    omega
  rw [readerTimestamp, numberToken_complete n hw hlen hr, Int.floor_intCast]
  simp only
  rw [if_neg (by simp [hrange, hstop, h0'])]

/-! ### Skipped values -/

theorem ascii_null : ascii "null" = [0x6e, 0x75, 0x6c, 0x6c] := by decide

theorem ascii_true : ascii "true" = [0x74, 0x72, 0x75, 0x65] := by decide

theorem ascii_false : ascii "false" = [0x66, 0x61, 0x6c, 0x73, 0x65] := by decide

theorem drop_of_isPrefix {a r : List UInt8} {n : ℕ} (h : a <+: r) (hn : a.length = n) :
    a ++ r.drop n = r := by
  obtain ⟨t, rfl⟩ := h
  simp [← hn]

theorem readerSkipScalar_sound {alloc : ℕ → Bool} {r r' : List UInt8}
    (h : readerSkipScalar alloc r = some r') :
    ∃ w t v, Ws w ∧ r = w ++ (t ++ r') ∧ ScalarText t v ∧ UnknownValueOk v := by
  obtain ⟨w, hw, hr, -⟩ := exists_readerSpace r
  simp only [readerSkipScalar] at h
  generalize readerSpace r = r₁ at h hr
  subst hr
  split_ifs at h with hnil hquote halloc hnull htrue hfalse
  · obtain ⟨⟨s, r₂⟩, hs, rfl⟩ := Option.map_eq_some_iff.mp h
    obtain ⟨w', raw, hw', rfl, hbody, h0, -⟩ := (readerString_iff (Nat.succ_pos _)).mp hs
    exact ⟨w ++ w', _, .string s, ws_append hw hw', by simp, .string hbody, h0⟩
  · obtain rfl : r₁.drop 4 = r' := by simpa using h
    exact ⟨w, _, .null, hw, by rw [drop_of_isPrefix (n := 4) hnull (by decide)], .null, trivial⟩
  · obtain rfl : r₁.drop 4 = r' := by simpa using h
    exact ⟨w, _, .true, hw, by rw [drop_of_isPrefix (n := 4) htrue (by decide)], .true, trivial⟩
  · obtain rfl : r₁.drop 5 = r' := by simpa using h
    exact ⟨w, _, .false, hw, by rw [drop_of_isPrefix (n := 5) hfalse (by decide)], .false, trivial⟩
  · cases hx : numberToken tokenCap r₁ with
    | none => simp [hx] at h
    | some x =>
      obtain ⟨t, r₂⟩ := x
      obtain ⟨w', n, hw', rfl, rfl, hlen⟩ := numberToken_sound hx
      simp only [hx, strtod_text] at h
      split_ifs at h with hbad
      obtain rfl : r₂ = r' := by simpa using h
      exact ⟨w ++ w', _, .number n, ws_append hw hw', by simp, .number n, hlen,
        fun hrange => hbad (.inl hrange)⟩

/-- A number starts with a minus sign or a digit. -/
theorem Number.exists_text_cons (n : Number) :
    ∃ c t, n.text = c :: t ∧ (c = 0x2d ∨ IsDigit c) := by
  obtain ⟨d, ds, hd, hdigit⟩ := n.exists_int_cons
  unfold Json.Number.text Json.Number.signText
  split_ifs
  · exact ⟨0x2d, _, rfl, .inl rfl⟩
  · exact ⟨d, ds ++ (n.fracText ++ n.expText), by simp [hd], .inr hdigit⟩

theorem readerSkipScalar_complete {w t r : List UInt8} {v : Scalar} (hw : Ws w)
    (ht : ScalarText t v) (hv : UnknownValueOk v) (hr : Stops IsNumberByte r) :
    readerSkipScalar (fun _ => true) (w ++ (t ++ r)) = some r := by
  -- one case for each kind of value; blanks in front of it are read over first
  cases ht with
  | @string raw s hbody =>
    have hspace : readerSpace (w ++ (0x22 :: (raw ++ [0x22]) ++ r)) =
        0x22 :: (raw ++ 0x22 :: r) := by
      rw [readerSpace_append hw (by simp)]
      simp
    have hs : readerString ((0x22 :: (raw ++ 0x22 :: r)).length + 1) (0x22 :: (raw ++ 0x22 :: r)) =
        some (s, r) := by
      refine (readerString_iff (Nat.succ_pos _)).mpr ⟨[], raw, ws_nil, rfl, hbody, hv, ?_⟩
      have := hbody.length_le
      simp
      omega
    simp only [readerSkipScalar, hspace]
    rw [hs]
    simp
  | number n =>
    obtain ⟨c, t, htext, hc⟩ := Number.exists_text_cons n
    have hspace : readerSpace (w ++ (n.text ++ r)) = n.text ++ r := by
      refine readerSpace_append hw ?_
      rw [htext, List.cons_append, Bytes.stops_cons]
      grind
    have htoken := numberToken_complete n ws_nil hv.1 hr
    rw [List.nil_append] at htoken
    simp only [readerSkipScalar, hspace, htoken, strtod_text]
    rw [htext, List.cons_append, if_neg (by simp), if_neg (by simp; grind),
      if_neg (by rw [ascii_null, List.cons_prefix_cons]; grind),
      if_neg (by rw [ascii_true, List.cons_prefix_cons]; grind),
      if_neg (by rw [ascii_false, List.cons_prefix_cons]; grind), if_neg (by simp [hv.2])]
  | true =>
    have hspace : readerSpace (w ++ (ascii "true" ++ r)) = ascii "true" ++ r :=
      readerSpace_append hw (by simp [ascii_true])
    simp only [readerSkipScalar, hspace]
    simp [ascii_true, ascii_null]
  | false =>
    have hspace : readerSpace (w ++ (ascii "false" ++ r)) = ascii "false" ++ r :=
      readerSpace_append hw (by simp [ascii_false])
    simp only [readerSkipScalar, hspace]
    simp [ascii_true, ascii_null, ascii_false]
  | null =>
    have hspace : readerSpace (w ++ (ascii "null" ++ r)) = ascii "null" ++ r :=
      readerSpace_append hw (by simp [ascii_null])
    simp only [readerSkipScalar, hspace]
    simp [ascii_null]

/-! ## One member -/

@[simp] theorem orBadJson_some {α : Type} (a : α) : orBadJson (some a) = .ok a := rfl

@[simp] theorem orBadJson_none {α : Type} : orBadJson (none : Option α) = .error .badJson := rfl

theorem orBadJson_bind_eq_ok {α β : Type} {o : Option α} {f : α → Except Result β} {b : β} :
    (orBadJson o >>= f) = .ok b ↔ ∃ a, o = some a ∧ f a = .ok b := by
  cases o <;> simp [bind, Except.bind]

theorem setOnce_eq_some {fields fields' : Finset Field} {f : Field} :
    setOnce fields f = some fields' ↔ f ∉ fields ∧ insert f fields = fields' := by
  unfold setOnce
  split_ifs with h <;> simp [h]

theorem setOnce_of_notMem {fields : Finset Field} {f : Field} (h : f ∉ fields) :
    setOnce fields f = some (insert f fields) :=
  setOnce_eq_some.mpr ⟨h, rfl⟩

/-- A string value, as text with the white space before it. -/
theorem readerString_value {cap : ℕ} {r s r' : List UInt8}
    (h : readerString (cap + 1) r = some (s, r')) :
    ∃ w t, Ws w ∧ r = w ++ (t ++ r') ∧ ScalarText t (.string s) ∧ (0 : UInt8) ∉ s ∧
      s.length ≤ cap := by
  obtain ⟨w, raw, hw, rfl, hbody, h0, hlen⟩ := (readerString_iff (Nat.succ_pos _)).mp h
  exact ⟨w, _, hw, by simp, .string hbody, h0, by omega⟩

theorem readerString_of_value {cap : ℕ} {w t s r : List UInt8} (hw : Ws w)
    (ht : ScalarText t (.string s)) (h0 : (0 : UInt8) ∉ s) (hlen : s.length ≤ cap) :
    readerString (cap + 1) (w ++ (t ++ r)) = some (s, r) := by
  cases ht with
  | @string raw s hbody =>
    exact (readerString_iff (Nat.succ_pos _)).mpr
      ⟨w, raw, hw, by simp, hbody, h0, by omega⟩

theorem keyField_eq_some {key : List UInt8} {f : Field} :
    keyField key = some f ↔ key = f.key := by
  constructor
  · intro h
    unfold keyField at h
    split_ifs at h with h1 h2 h3 h4 h5 h6 <;> cases h <;> assumption
  · rintro rfl
    cases f <;> decide

theorem keyField_eq_none {key : List UInt8} : keyField key = none ↔ ∀ f : Field, key ≠ f.key := by
  rw [Option.eq_none_iff_forall_ne_some]
  exact forall_congr' fun f => not_congr keyField_eq_some

/-- What the branch of a field does: it reads a value that the field accepts and sets it. -/
theorem readerField_sound {alloc : ℕ → Bool} {p p' : ParsedObject} {f : Field} {r r' : List UInt8}
    (h : readerField toDouble alloc p f r = .ok (p', r')) :
    ∃ w t v, Ws w ∧ r = w ++ (t ++ r') ∧ ScalarText t v ∧ FieldValueOk toDouble f v ∧ f ∉ p.fields ∧
      p' = p.set toDouble f v := by
  rw [readerField, orBadJson_bind_eq_ok] at h
  obtain ⟨fs, hfs, h⟩ := h
  obtain ⟨hfree, rfl⟩ := setOnce_eq_some.mp hfs
  -- the reader of each field returns what its type admits
  cases f with
  | document =>
    obtain ⟨⟨s, r₁⟩, hs, h⟩ := orBadJson_bind_eq_ok.mp h
    obtain ⟨w, t, hw, hr, ht, h0, hlen⟩ := readerString_value hs
    cases h
    exact ⟨w, t, _, hw, hr, ht, ⟨h0, hlen⟩, hfree, rfl⟩
  | progress =>
    simp only at h
    split_ifs at h
    obtain ⟨⟨s, r₁⟩, hs, h⟩ := orBadJson_bind_eq_ok.mp h
    obtain ⟨w, t, hw, hr, ht, h0, hlen⟩ := readerString_value hs
    simp only at h
    split_ifs at h with hne
    cases h
    exact ⟨w, t, _, hw, hr, ht, ⟨h0, mt List.length_eq_zero_iff.mpr hne, hlen⟩, hfree, rfl⟩
  | percentage =>
    obtain ⟨⟨k, r₁⟩, hk, h⟩ := orBadJson_bind_eq_ok.mp h
    obtain ⟨w, n, hw, hr, hn, rfl⟩ := readerPercentage_sound hk
    cases h
    exact ⟨w, _, _, hw, hr, .number n, hn, hfree, rfl⟩
  | device =>
    obtain ⟨⟨s, r₁⟩, hs, h⟩ := orBadJson_bind_eq_ok.mp h
    obtain ⟨w, t, hw, hr, ht, h0, hlen⟩ := readerString_value hs
    cases h
    exact ⟨w, t, _, hw, hr, ht, ⟨h0, hlen⟩, hfree, rfl⟩
  | deviceId =>
    obtain ⟨⟨s, r₁⟩, hs, h⟩ := orBadJson_bind_eq_ok.mp h
    obtain ⟨w, t, hw, hr, ht, h0, hlen⟩ := readerString_value hs
    cases h
    exact ⟨w, t, _, hw, hr, ht, ⟨h0, hlen⟩, hfree, rfl⟩
  | timestamp =>
    obtain ⟨⟨k, r₁⟩, hk, h⟩ := orBadJson_bind_eq_ok.mp h
    obtain ⟨w, n, hw, hr, hn, rfl⟩ := readerTimestamp_sound hk
    cases h
    exact ⟨w, _, _, hw, hr, .number n, hn, hfree, rfl⟩

/-- A value that a field accepts is read where the field is free. -/
theorem readerField_complete {p : ParsedObject} {f : Field} {w t r : List UInt8} {v : Scalar}
    (hw : Ws w) (ht : ScalarText t v) (hv : FieldValueOk toDouble f v) (hfree : f ∉ p.fields)
    (hr : Stops IsNumberByte r) :
    readerField toDouble (fun _ => true) p f (w ++ (t ++ r)) = .ok (p.set toDouble f v, r) := by
  rw [readerField, setOnce_of_notMem hfree]
  cases f <;> cases v <;> try exact hv.elim
  case document.string s => rw [readerString_of_value hw ht hv.1 hv.2]; rfl
  case progress.string s =>
    simp only [orBadJson_some, if_true]
    rw [readerString_of_value hw ht hv.1 hv.2.2]
    simp only [orBadJson_some, bind, Except.bind, if_neg (mt List.length_eq_zero_iff.mp hv.2.1)]
    rfl
  case percentage.number n =>
    cases ht
    rw [readerPercentage_complete hw hv hr]
    rfl
  case device.string s => rw [readerString_of_value hw ht hv.1 hv.2]; rfl
  case deviceId.string s => rw [readerString_of_value hw ht hv.1 hv.2]; rfl
  case timestamp.number n =>
    cases ht
    rw [readerTimestamp_complete hw hv hr]
    rfl

/-- What reading the value of a member does to the parsed object. -/
inductive ReadsValue (toDouble : ℚ → ℚ) (p : ParsedObject) : List UInt8 → Scalar → ParsedObject → Prop
  | known {f : Field} {v : Scalar} (hok : FieldValueOk toDouble f v) (hfree : f ∉ p.fields) :
      ReadsValue toDouble p f.key v (p.set toDouble f v)
  | unknown {key : List UInt8} {v : Scalar} (hkey : ∀ f : Field, key ≠ f.key)
      (hok : UnknownValueOk v) : ReadsValue toDouble p key v p

theorem readerValue_sound {alloc : ℕ → Bool} {p p' : ParsedObject} {key r r' : List UInt8}
    (h : readerValue toDouble alloc p key r = .ok (p', r')) :
    ∃ w t v, Ws w ∧ r = w ++ (t ++ r') ∧ ScalarText t v ∧ ReadsValue toDouble p key v p' := by
  unfold readerValue at h
  cases hk : keyField key with
  | some f =>
    rw [hk] at h
    obtain ⟨w, t, v, hw, hr, ht, hv, hfree, rfl⟩ := readerField_sound h
    obtain rfl := keyField_eq_some.mp hk
    exact ⟨w, t, v, hw, hr, ht, .known hv hfree⟩
  | none =>
    rw [hk] at h
    obtain ⟨r₁, hs, h⟩ := orBadJson_bind_eq_ok.mp h
    obtain ⟨w, t, v, hw, hr, ht, hv⟩ := readerSkipScalar_sound hs
    cases h
    exact ⟨w, t, v, hw, hr, ht, .unknown (keyField_eq_none.mp hk) hv⟩

theorem readerValue_complete {p p' : ParsedObject} {key w t r : List UInt8} {v : Scalar}
    (hw : Ws w) (ht : ScalarText t v) (h : ReadsValue toDouble p key v p') (hr : Stops IsNumberByte r) :
    readerValue toDouble (fun _ => true) p key (w ++ (t ++ r)) = .ok (p', r) := by
  unfold readerValue
  cases h with
  | known hok hfree =>
    rw [keyField_eq_some.mpr rfl]
    exact readerField_complete hw ht hok hfree hr
  | unknown hkey hok =>
    rw [keyField_eq_none.mpr hkey]
    simp only
    rw [readerSkipScalar_complete hw ht hok hr]
    rfl

/-- The members `ms` can be read in order and lead from `p` to `out`. -/
inductive Reads (toDouble : ℚ → ℚ) : ParsedObject → List Member → ParsedObject → Prop
  | nil {p : ParsedObject} : Reads toDouble p [] p
  | cons {p p' out : ParsedObject} {key : List UInt8} {v : Scalar} {ms : List Member}
      (hlen : key.length < keyCap) (htext : (0 : UInt8) ∉ key) (h : ReadsValue toDouble p key v p')
      (hs : Reads toDouble p' ms out) : Reads toDouble p ((key, v) :: ms) out

/-- What stands before a member: nothing before the first one, a comma before every other. -/
def Separator (first : Bool) (l : List UInt8) : Prop :=
  if first then l = [] else ∃ w, Ws w ∧ l = w ++ [0x2c]

theorem separator_take {first : Bool} {r r' : List UInt8} :
    (if first then some r else readerTake r 0x2c) = some r' ↔
      ∃ l, Separator first l ∧ r = l ++ r' := by
  cases first with
  | true => simp [Separator]
  | false =>
    simp only [Separator, Bool.false_eq_true, if_false]
    rw [readerTake_iff (by decide)]
    constructor
    · rintro ⟨w, hw, rfl⟩
      exact ⟨_, ⟨w, hw, rfl⟩, by simp⟩
    · rintro ⟨_, ⟨w, hw, rfl⟩, rfl⟩
      exact ⟨w, hw, by simp⟩

theorem readerMember_sound {alloc : ℕ → Bool} {first : Bool} {p p' : ParsedObject}
    {r r' : List UInt8} (h : readerMember toDouble alloc first p r = .ok (p', r')) :
    ∃ l t key v, Separator first l ∧ r = l ++ (t ++ r') ∧
      (∀ w, Ws w → MemberText (t ++ w) (key, v)) ∧ key.length < keyCap ∧ (0 : UInt8) ∉ key ∧
      ReadsValue toDouble p key v p' := by
  unfold readerMember at h
  cases h₁ : (if first then some r else readerTake r 0x2c) with
  | none => simp [h₁] at h
  | some r₁ =>
    obtain ⟨l, hl, rfl⟩ := separator_take.mp h₁
    rw [h₁] at h
    cases h₂ : readerString keyCap r₁ with
    | none => simp [h₂] at h
    | some x =>
      obtain ⟨key, r₂⟩ := x
      obtain ⟨w₀, raw, hw₀, rfl, hbody, h0, hlen⟩ := (readerString_iff (by decide)).mp h₂
      simp only [h₂] at h
      cases h₃ : readerTake r₂ 0x3a with
      | none => simp [h₃] at h
      | some r₃ =>
        obtain ⟨w₁, hw₁, rfl⟩ := (readerTake_iff (by decide)).mp h₃
        simp only [h₃] at h
        obtain ⟨w₂, t, v, hw₂, rfl, ht, hv⟩ := readerValue_sound h
        refine ⟨l, w₀ ++ 0x22 :: (raw ++ 0x22 :: (w₁ ++ 0x3a :: (w₂ ++ t))), key, v, hl, by simp,
          fun w hw => ?_, hlen, h0, hv⟩
        simpa using MemberText.intro hw₀ hw₁ hw₂ hw hbody ht

/-- The bytes that stand after a member do not continue a number. -/
theorem stops_after {w r : List UInt8} {c : UInt8} (hw : Ws w) (hc : c = 0x2c ∨ c = 0x7d) :
    Stops IsNumberByte (w ++ c :: r) := by
  cases w with
  | nil =>
    rw [List.nil_append, Bytes.stops_cons]
    grind
  | cons b w =>
    have := hw b (by simp)
    rw [List.cons_append, Bytes.stops_cons]
    grind

theorem readerMember_complete {first : Bool} {p p' : ParsedObject} {l t r key : List UInt8}
    {v : Scalar} {c : UInt8} (hl : Separator first l) (ht : MemberText t (key, v))
    (hlen : key.length < keyCap) (h0 : (0 : UInt8) ∉ key) (hv : ReadsValue toDouble p key v p')
    (hc : c = 0x2c ∨ c = 0x7d) :
    ∃ w, Ws w ∧ readerMember toDouble (fun _ => true) first p (l ++ (t ++ c :: r)) = .ok (p', w ++ c :: r) := by
  cases ht with
  | @intro w₀ w₁ w₂ w₃ raw _ tv _ hw₀ hw₁ hw₂ hw₃ hk ht =>
    refine ⟨w₃, hw₃, ?_⟩
    have h₂ : readerString keyCap (w₀ ++ 0x22 :: (raw ++ 0x22 :: (w₁ ++ 0x3a ::
        (w₂ ++ (tv ++ w₃)))) ++ c :: r) =
        some (key, w₁ ++ 0x3a :: (w₂ ++ (tv ++ (w₃ ++ c :: r)))) :=
      (readerString_iff (by decide)).mpr ⟨w₀, raw, hw₀, by simp, hk, h0, hlen⟩
    have h₃ : readerTake (w₁ ++ 0x3a :: (w₂ ++ (tv ++ (w₃ ++ c :: r)))) 0x3a =
        some (w₂ ++ (tv ++ (w₃ ++ c :: r))) :=
      (readerTake_iff (by decide)).mpr ⟨w₁, hw₁, rfl⟩
    unfold readerMember
    rw [separator_take.mpr ⟨l, hl, rfl⟩]
    simp only [h₂, h₃]
    exact readerValue_complete hw₂ ht hv (stops_after hw₃ hc)

/-! ## The object -/

theorem parseObjectTurn_shrinks (alloc : ℕ → Bool) :
    Loop.Shrinks (parseObjectTurn toDouble alloc) fun s => s.2.2.length := by
  rintro ⟨first, p, r⟩ ⟨first', p', r'⟩ h
  unfold parseObjectTurn at h
  split_ifs at h with hnil
  cases hm : readerMember toDouble alloc first p r with
  | error e => simp [hm] at h
  | ok x =>
    obtain ⟨p₁, r₁⟩ := x
    obtain ⟨l, t, key, v, -, rfl, hmember, -⟩ := readerMember_sound hm
    have ht : t ≠ [] := by simpa using (hmember [] ws_nil).ne_nil
    have := List.length_pos_iff.mpr ht
    have := readerSpace_length_le r₁
    simp only [hm] at h
    split_ifs at h
    cases h
    simp only [List.length_append]
    omega

theorem ws_of_readerSpace {r : List UInt8} (h : readerSpace r = []) : Ws r := by
  obtain ⟨w, hw, hr, -⟩ := exists_readerSpace r
  rw [h, List.append_nil] at hr
  exact hr ▸ hw

theorem exists_brace {r : List UInt8} (h : (readerSpace r).head? = some 0x7d) :
    ∃ w, Ws w ∧ r = w ++ 0x7d :: (readerSpace r).tail := by
  obtain ⟨w, hw, hr, -⟩ := exists_readerSpace r
  cases hs : readerSpace r with
  | nil => simp [hs] at h
  | cons c t =>
    obtain rfl : c = 0x7d := by simpa [hs] using h
    exact ⟨w, hw, by rw [List.tail_cons, ← hs, ← hr]⟩

/-- The loop of `parse_object` reads members up to the closing brace. -/
theorem parseObjectLoop_sound {alloc : ℕ → Bool} {first : Bool} {p out : ParsedObject}
    {r : List UInt8}
    (h : Loop.loop (parseObjectTurn toDouble alloc) (.error .badJson) (fun s => s.2.2.length)
      (first, p, r) = .ok out) :
    ∃ l t ms w, Separator first l ∧ r = l ++ (t ++ 0x7d :: w) ∧ MembersText t ms ∧ Ws w ∧
      Reads toDouble p ms out := by
  revert h
  refine Loop.loop_induction (parseObjectTurn_shrinks alloc)
    (P := fun s b => b = .ok out → ∃ l t ms w, Separator s.1 l ∧ s.2.2 = l ++ (t ++ 0x7d :: w) ∧
      MembersText t ms ∧ Ws w ∧ Reads toDouble s.2.1 ms out) ?_ ?_ (first, p, r)
  · -- the last member
    rintro ⟨first, p, r⟩ b hs rfl
    unfold parseObjectTurn at hs
    by_cases hnil : r = []
    · simp [hnil] at hs
    rw [if_neg hnil] at hs
    cases hm : readerMember toDouble alloc first p r with
    | error e => simp [hm] at hs
    | ok x =>
      obtain ⟨p₁, r₁⟩ := x
      obtain ⟨l, t, key, v, hl, rfl, hmember, hlen, h0, hv⟩ := readerMember_sound hm
      simp only [hm] at hs
      split_ifs at hs with hbrace hend
      · cases hs
        obtain ⟨w, hw, hr⟩ := exists_brace hbrace
        exact ⟨l, t ++ w, _, _, hl, by simp [← hr], .one (hmember w hw), ws_of_readerSpace hend,
          .cons hlen h0 hv .nil⟩
      · simp at hs
  · -- a member with a comma behind it
    rintro ⟨first, p, r⟩ ⟨first', p', r'⟩ b hs ih rfl
    unfold parseObjectTurn at hs
    split_ifs at hs with hnil
    cases hm : readerMember toDouble alloc first p r with
    | error e => simp [hm] at hs
    | ok x =>
      obtain ⟨p₁, r₁⟩ := x
      obtain ⟨l, t, key, v, hl, rfl, hmember, hlen, h0, hv⟩ := readerMember_sound hm
      simp only [hm] at hs
      split_ifs at hs with hbrace
      obtain ⟨w, hw, hr, -⟩ := exists_readerSpace r₁
      cases hs
      obtain ⟨_, t', ms, w', ⟨u, hu, rfl⟩, he, hms, hw', hreads⟩ := ih rfl
      refine ⟨l, (t ++ (w ++ u)) ++ 0x2c :: t', _, w', hl, ?_,
        .cons (hmember _ (ws_append hw hu)) hms, hw', .cons hlen h0 hv hreads⟩
      simp only at he
      rw [hr, he]
      simp

theorem parseObjectLoop_complete {t w : List UInt8} {ms : List Member} (ht : MembersText t ms)
    (hw : Ws w) :
    ∀ (first : Bool) (p out : ParsedObject) (l : List UInt8), Separator first l →
      Reads toDouble p ms out →
      Loop.loop (parseObjectTurn toDouble fun _ => true) (.error .badJson) (fun s => s.2.2.length)
        (first, p, l ++ (t ++ 0x7d :: w)) = .ok out := by
  -- one turn for each member; the first comes without a comma in front of it
  induction ht with
  | @one t m hm =>
    intro first p out l hl hreads
    cases hreads with
    | cons hlen h0 hv hs =>
      cases hs
      obtain ⟨w', hw', hread⟩ := readerMember_complete (r := w) hl hm hlen h0 hv (.inr rfl)
      have hspace : readerSpace (w' ++ 0x7d :: w) = 0x7d :: w :=
        readerSpace_append hw' (by simp)
      refine Loop.loop_of_done (parseObjectTurn_shrinks _) ?_
      simp only [parseObjectTurn, hread, hspace]
      rw [if_neg (by simp)]
      have hend : readerSpace w = [] := by simpa using readerSpace_append hw Bytes.stops_nil
      simp [hend]
  | @cons t ts m ms hm _ ih =>
    intro first p out l hl hreads
    cases hreads with
    | @cons _ p' _ key v _ hlen h0 hv hs =>
      obtain ⟨w', hw', hread⟩ :=
        readerMember_complete (r := ts ++ 0x7d :: w) hl hm hlen h0 hv (.inl rfl)
      have hspace : readerSpace (w' ++ 0x2c :: (ts ++ 0x7d :: w)) = 0x2c :: (ts ++ 0x7d :: w) :=
        readerSpace_append hw' (by simp)
      have hturn : parseObjectTurn toDouble (fun _ => true) (first, p, l ++ (t ++ 0x2c :: ts ++ 0x7d :: w)) =
          .next (false, p', [0x2c] ++ (ts ++ 0x7d :: w)) := by
        simp only [parseObjectTurn, List.append_assoc, List.cons_append, hread, hspace]
        rw [if_neg (by simp)]
        simp
      rw [Loop.loop_of_next (parseObjectTurn_shrinks _) hturn]
      exact ih false p' out [0x2c] ⟨[], ws_nil, rfl⟩ hs

/-- **What the parser accepts is JSON text of a flat object**, whose members it has read in
order. -/
theorem parseObject_sound {alloc : ℕ → Bool} {json : List UInt8} {out : ParsedObject}
    (h : parseObject toDouble alloc json = .ok out) :
    json.length ≤ jsonMax ∧ ∃ ms, FlatObjectText json ms ∧ Reads toDouble emptyObject ms out := by
  unfold parseObject at h
  split_ifs at h with hlen
  refine ⟨by omega, ?_⟩
  cases hb : readerTake json 0x7b with
  | none => simp [hb] at h
  | some r =>
    obtain ⟨w₀, hw₀, rfl⟩ := (readerTake_iff (by decide)).mp hb
    simp only [hb] at h
    split_ifs at h with hbrace hend
    · cases h
      obtain ⟨w, hw, hr⟩ := exists_brace hbrace
      refine ⟨[], ?_, .nil⟩
      rw [hr]
      exact .empty hw₀ hw (ws_of_readerSpace hend)
    · obtain ⟨l, t, ms, w, hl, he, ht, hw, hreads⟩ := parseObjectLoop_sound h
      obtain rfl : l = [] := hl
      obtain ⟨w', hw', hr, -⟩ := exists_readerSpace r
      refine ⟨ms, ?_, hreads⟩
      rw [hr, he, List.nil_append, ← List.append_assoc]
      exact .members hw₀ hw (ht.ws_append hw')

/-- **JSON text of a flat object is accepted** where its members can be read. -/
theorem parseObject_complete {json : List UInt8} {ms : List Member} {out : ParsedObject}
    (hlen : json.length ≤ jsonMax) (h : FlatObjectText json ms) (hreads : Reads toDouble emptyObject ms out) :
    parseObject toDouble (fun _ => true) json = .ok out := by
  have hpos : json ≠ [] := by
    cases h <;> simp
  unfold parseObject
  rw [if_neg (by simpa [hpos] using hlen)]
  cases h with
  | @empty w₀ w₁ w₂ hw₀ hw₁ hw₂ =>
    cases hreads
    have hspace : readerSpace (w₁ ++ 0x7d :: w₂) = 0x7d :: w₂ := readerSpace_append hw₁ (by simp)
    have hend : readerSpace w₂ = [] := by simpa using readerSpace_append hw₂ Bytes.stops_nil
    rw [(readerTake_iff (by decide)).mpr ⟨w₀, hw₀, rfl⟩]
    simp [hspace, hend]
  | @members w₀ w₁ t ms hw₀ hw₁ ht =>
    obtain ⟨w, r, hw, rfl, ht'⟩ := ht.exists_quote
    have hspace : readerSpace (w ++ 0x22 :: r ++ 0x7d :: w₁) = 0x22 :: (r ++ 0x7d :: w₁) := by
      rw [List.append_assoc]
      exact readerSpace_append hw (by simp)
    rw [(readerTake_iff (by decide)).mpr ⟨w₀, hw₀, rfl⟩]
    simp only [hspace]
    rw [if_neg (by simp)]
    simpa using parseObjectLoop_complete ht' hw₁ true emptyObject out [] rfl hreads

/-! ## Errors -/

/-- The errors of the parser: malformed text, or an allocation that failed. -/
def ParseError (alloc : ℕ → Bool) (e : Result) : Prop :=
  e = .badJson ∨ e = .noMemory ∧ ∃ n, alloc n = false

variable {alloc : ℕ → Bool} {e : Result}

theorem parseError_of_bind {α β : Type} {o : Option α} {f : α → Except Result β}
    (h : (orBadJson o >>= f) = .error e) (hf : ∀ a, f a = .error e → ParseError alloc e) :
    ParseError alloc e := by
  cases o with
  | none => exact .inl (by simpa [bind, Except.bind, eq_comm] using h)
  | some a => exact hf a h

theorem readerField_error {p : ParsedObject} {f : Field} {r : List UInt8}
    (h : readerField toDouble alloc p f r = .error e) : ParseError alloc e := by
  rw [readerField] at h
  refine parseError_of_bind h fun fs h => ?_
  cases f with
  | progress =>
    simp only at h
    split_ifs at h with halloc
    · refine parseError_of_bind h fun x h => ?_
      split_ifs at h
      · cases h
        exact .inl rfl
      · cases h
    · cases h
      exact .inr ⟨rfl, r.length, by simpa using halloc⟩
  | _ => exact parseError_of_bind h fun x h => by cases h

theorem readerMember_error {first : Bool} {p : ParsedObject} {r : List UInt8}
    (h : readerMember toDouble alloc first p r = .error e) : ParseError alloc e := by
  unfold readerMember at h
  split at h
  · cases h
    exact .inl rfl
  split at h
  · cases h
    exact .inl rfl
  split at h
  · cases h
    exact .inl rfl
  · unfold readerValue at h
    split at h
    · exact readerField_error h
    · exact parseError_of_bind h fun x h => by cases h

theorem parseObject_error {json : List UInt8} (h : parseObject toDouble alloc json = .error e) :
    ParseError alloc e := by
  unfold parseObject at h
  split_ifs at h with hlen
  · cases h
    exact .inl rfl
  split at h
  · cases h
    exact .inl rfl
  · rename_i r _
    simp only at h
    split_ifs at h
    · cases h
      exact .inl rfl
    revert h
    -- an error of a turn is the error of its member or one of the syntax
    refine Loop.loop_induction (parseObjectTurn_shrinks alloc)
      (P := fun s b => b = .error e → ParseError alloc e) ?_ ?_ (true, emptyObject, readerSpace r)
    · rintro ⟨first, p, r⟩ b hs rfl
      unfold parseObjectTurn at hs
      split_ifs at hs
      · cases hs
        exact .inl rfl
      split at hs
      · rename_i hm
        cases hs
        exact readerMember_error hm
      · simp only at hs
        split_ifs at hs
        · cases hs
        · cases hs
          exact .inl rfl
    · exact fun s s' b _ ih => ih

end Kosync
