import CrossNook.Sync.Reader

/-!
# What the scanners read

Each scanner of the reader succeeds exactly where the text continues with the piece of JSON it
reads, within the size of its buffer.

## Main results

* `Kosync.readerTake_iff`, `Kosync.readerHex4_iff`: punctuation and hexadecimal digits
* `Kosync.readerString_iff`: strings
* `Kosync.numberToken_sound`, `Kosync.numberToken_complete`: numbers
* `Kosync.strtod_text`, `Kosync.strtoll_text`: the conversions of a token
-/

namespace Kosync

open Bytes (IsDigit Stops)
open Json (Ws IsWs Hex4 Escape RawChar RawBody StringBody Number Exponent)

/-! ## White space and punctuation -/

theorem readerSpace_append {w r : List UInt8} (hw : Ws w) (hr : Stops IsWs r) :
    readerSpace (w ++ r) = r :=
  Bytes.skip_append hw hr

/-- The text before a scan is white space, and the white space ends there. -/
theorem exists_readerSpace (r : List UInt8) :
    ∃ w, Ws w ∧ r = w ++ readerSpace r ∧ Stops IsWs (readerSpace r) :=
  ⟨Bytes.scan IsWs r, fun _ => Bytes.mem_scan, (Bytes.scan_append_skip r).symm,
    Bytes.stops_skip r⟩

theorem readerSpace_length_le (r : List UInt8) : (readerSpace r).length ≤ r.length := by
  obtain ⟨w, -, hr, -⟩ := exists_readerSpace r
  have := congrArg List.length hr
  simp only [List.length_append] at this
  omega

theorem readerTake_iff {r r' : List UInt8} {c : UInt8} (hc : ¬ IsWs c) :
    readerTake r c = some r' ↔ ∃ w, Ws w ∧ r = w ++ c :: r' := by
  constructor
  · intro h
    obtain ⟨w, hw, hr, -⟩ := exists_readerSpace r
    rw [readerTake] at h
    cases hs : readerSpace r with
    | nil => simp [hs] at h
    | cons b t =>
      rw [hs] at h hr
      exact ⟨w, hw, by grind⟩
  · rintro ⟨w, hw, rfl⟩
    rw [readerTake, readerSpace_append hw (by simpa [Stops] using hc)]
    simp

/-! ## Escapes -/

theorem hexValue_eq : hexValue = Json.hexDigit := rfl

theorem shift_or_digit {value n : ℕ} (hn : n < 16) : value <<< 4 ||| n = value * 16 + n := by
  rw [Nat.shiftLeft_eq, Nat.mul_comm value, ← Nat.two_pow_add_eq_or_of_lt hn, Nat.mul_comm]

theorem hexValue_lt {c : UInt8} {v : ℕ} (h : hexValue c = some v) : v < 16 := by
  unfold hexValue at h
  simp only [UInt8.le_iff_toNat_le] at h
  simp at h
  split_ifs at h <;> simp at h <;> omega

theorem readerHexDigits_cons {i parsed v : ℕ} {c : UInt8} (r : List UInt8)
    (h : hexValue c = some v) :
    readerHexDigits (i + 1) parsed (c :: r) = readerHexDigits i (parsed * 16 + v) r := by
  rw [readerHexDigits, h]
  simp only
  rw [shift_or_digit (hexValue_lt h)]

theorem readerHexDigits_some {i parsed v : ℕ} {r r' : List UInt8}
    (h : readerHexDigits (i + 1) parsed r = some (v, r')) :
    ∃ c n t, r = c :: t ∧ hexValue c = some n ∧
      readerHexDigits i (parsed * 16 + n) t = some (v, r') := by
  cases r with
  | nil => simp [readerHexDigits] at h
  | cons c t =>
    cases hc : hexValue c with
    | none => simp [readerHexDigits, hc] at h
    | some n => exact ⟨c, n, t, rfl, hc, readerHexDigits_cons t hc ▸ h⟩

theorem readerHex4_iff {r r' : List UInt8} {v : ℕ} :
    readerHex4 r = some (v, r') ↔ ∃ h, Hex4 h v ∧ r = h ++ r' := by
  constructor
  · intro h
    rw [readerHex4] at h
    split_ifs at h with hlen
    obtain ⟨a, va, r, rfl, ha, h⟩ := readerHexDigits_some h
    obtain ⟨b, vb, r, rfl, hb, h⟩ := readerHexDigits_some h
    obtain ⟨c, vc, r, rfl, hc, h⟩ := readerHexDigits_some h
    obtain ⟨d, vd, r, rfl, hd, h⟩ := readerHexDigits_some h
    obtain ⟨rfl, rfl⟩ : _ = v ∧ r = r' := by simpa [readerHexDigits] using h
    refine ⟨[a, b, c, d], ?_, rfl⟩
    simpa using Hex4.intro ha hb hc hd
  · rintro ⟨h, ⟨ha, hb, hc, hd⟩, rfl⟩
    rw [← hexValue_eq] at ha hb hc hd
    rw [readerHex4, if_neg (by simp)]
    simp only [List.cons_append, List.nil_append]
    rw [readerHexDigits_cons _ ha, readerHexDigits_cons _ hb, readerHexDigits_cons _ hc,
      readerHexDigits_cons _ hd]
    simp [readerHexDigits]

theorem Hex4_length {h : List UInt8} {v : ℕ} (hh : Hex4 h v) : h.length = 4 := by
  cases hh
  rfl

theorem readerLow_iff {r r' : List UInt8} {low : ℕ} :
    readerLow r = some (low, r') ↔
      ∃ l, Hex4 l low ∧ (0xdc00 ≤ low ∧ low ≤ 0xdfff) ∧ r = 0x5c :: 0x75 :: (l ++ r') := by
  constructor
  · intro h
    unfold readerLow at h
    split_ifs at h with hlen
    obtain _ | ⟨a, _ | ⟨b, t⟩⟩ := r
    · simp at h
    · simp at h
    · dsimp only at h
      split_ifs at h with hab
      cases hx : readerHex4 t with
      | none => simp [hx] at h
      | some x =>
        obtain ⟨v, t'⟩ := x
        simp only [hx] at h
        split_ifs at h with hv
        obtain ⟨rfl, rfl⟩ : v = low ∧ t' = r' := by simpa using h
        obtain ⟨l, hl, rfl⟩ := readerHex4_iff.mp hx
        simp only [ne_eq, not_or, not_not] at hab
        exact ⟨l, hl, by omega, by rw [hab.1, hab.2]⟩
  · rintro ⟨l, hl, hr, rfl⟩
    have hlen := Hex4_length hl
    unfold readerLow
    rw [if_neg (by simp [hlen])]
    simp [readerHex4_iff.mpr ⟨l, hl, rfl⟩]
    omega

/-- The text after `\u`, and the code point it stands for. -/
inductive UnicodeText : List UInt8 → ℕ → Prop
  | single {h : List UInt8} {v : ℕ} (hh : Hex4 h v) (hv : ¬ (0xd800 ≤ v ∧ v ≤ 0xdbff)) :
      UnicodeText h v
  | pair {h l : List UInt8} {high low : ℕ} (hh : Hex4 h high) (hl : Hex4 l low)
      (hhigh : 0xd800 ≤ high ∧ high ≤ 0xdbff) (hlow : 0xdc00 ≤ low ∧ low ≤ 0xdfff) :
      UnicodeText (h ++ 0x5c :: 0x75 :: l) (Json.pairValue high low)

theorem readerUnicode_iff {r r' : List UInt8} {v : ℕ} :
    readerUnicode r = some (v, r') ↔ ∃ t, UnicodeText t v ∧ r = t ++ r' := by
  constructor
  · intro h
    rw [readerUnicode] at h
    cases hx : readerHex4 r with
    | none => simp [hx] at h
    | some x =>
      obtain ⟨w, t⟩ := x
      obtain ⟨h4, hh4, rfl⟩ := readerHex4_iff.mp hx
      simp only [hx] at h
      -- a high surrogate asks for a low one, any other codepoint stands alone
      split_ifs at h with hw
      · cases hy : readerLow t with
        | none => simp [hy] at h
        | some y =>
          obtain ⟨low, t'⟩ := y
          obtain ⟨l, hl, hlow, rfl⟩ := readerLow_iff.mp hy
          simp only [hy, Option.some.injEq, Prod.mk.injEq, Nat.shiftLeft_eq] at h
          obtain ⟨rfl, rfl⟩ := h
          refine ⟨_, .pair hh4 hl hw hlow, by simp⟩
      · obtain ⟨rfl, rfl⟩ : w = v ∧ t = r' := by simpa using h
        exact ⟨h4, .single hh4 hw, rfl⟩
  · rintro ⟨t, ht, rfl⟩
    cases ht with
    | single hh hv =>
      rw [readerUnicode, readerHex4_iff.mpr ⟨t, hh, rfl⟩]
      simp only
      rw [if_neg hv]
    | @pair h l high low hh hl hhigh hlow =>
      have hlow' : readerLow (0x5c :: 0x75 :: (l ++ r')) = some (low, r') :=
        readerLow_iff.mpr ⟨l, hl, hlow, rfl⟩
      rw [readerUnicode, readerHex4_iff.mpr ⟨h, hh, List.append_assoc _ _ _⟩]
      dsimp only
      rw [if_pos hhigh, List.cons_append, List.cons_append, hlow', Nat.shiftLeft_eq]
      rfl

theorem UnicodeText.escape {t : List UInt8} {v : ℕ} (h : UnicodeText t v)
    (hv : Utf8.IsScalar v) : Escape (0x5c :: 0x75 :: t) (Utf8.encode v) := by
  cases h with
  | single hh _ => exact .unicode hh hv
  | pair hh hl hhigh hlow => exact .surrogates hh hl hhigh hlow

/-- `append_codepoint` writes UTF-8. -/
theorem encodeCodepoint_eq {v : ℕ} (hv : v ≤ 0x10ffff) : encodeCodepoint v = Utf8.encode v :=
  (Utf8.encode_eq_shifts hv).symm

theorem appendCodepoint_iff {cap v : ℕ} {out out' : List UInt8} :
    appendCodepoint cap out v = some out' ↔
      v ≠ 0 ∧ Utf8.IsScalar v ∧ out'.length < cap ∧ out' = out ++ Utf8.encode v := by
  have hscalar : ¬ (v = 0 ∨ 0x10ffff < v ∨ (0xd800 ≤ v ∧ v ≤ 0xdfff)) ↔
      v ≠ 0 ∧ Utf8.IsScalar v := by
    unfold Utf8.IsScalar
    omega
  rw [appendCodepoint, ← and_assoc, ← hscalar]
  split_ifs with h1 h2
  · simp [h1]
  · have hle : v ≤ 0x10ffff := by omega
    rw [encodeCodepoint_eq hle] at h2
    simp only [false_iff, not_and]
    rintro - hlen rfl
    simp only [List.length_append] at hlen
    omega
  · have hle : v ≤ 0x10ffff := by omega
    rw [encodeCodepoint_eq hle] at h2 ⊢
    simp only [Option.some.injEq, h1, not_false_eq_true, true_and]
    constructor
    · rintro rfl
      exact ⟨by simp only [List.length_append]; omega, rfl⟩
    · rintro ⟨-, rfl⟩
      rfl

theorem escapeByte_eq : escapeByte = Json.simpleEscape := rfl

/-! ## Strings -/

theorem appendByte_iff {cap : ℕ} {out out' r r' : List UInt8} {c : UInt8} :
    appendByte cap out c r = some (out', r') ↔
      out'.length < cap ∧ out' = out ++ [c] ∧ r = r' := by
  rw [appendByte]
  split_ifs with h
  · simp only [false_iff, not_and]
    rintro hlen rfl
    simp at hlen
    omega
  · simp only [Option.some.injEq, Prod.mk.injEq]
    constructor
    · rintro ⟨rfl, rfl⟩
      exact ⟨by simp; omega, rfl, rfl⟩
    · rintro ⟨-, rfl, rfl⟩
      exact ⟨rfl, rfl⟩

/-- A turn of the string loop reads one character of a body. -/
theorem readerChar_sound {cap : ℕ} {out out' r r' : List UInt8} {c : UInt8} (hq : c ≠ 0x22)
    (h : readerChar cap out c r = some (out', r')) :
    ∃ raw d, RawChar raw d ∧ c :: r = raw ++ r' ∧ out' = out ++ d ∧ (0 : UInt8) ∉ d ∧
      out'.length < cap := by
  unfold readerChar at h
  split_ifs at h with h1 h2
  · subst h2
    cases r with
    | nil => simp at h
    | cons e r =>
      dsimp only at h
      split_ifs at h with he
      · subst he
        -- an escape of a codepoint
        cases hx : readerUnicode r with
        | none => simp [hx] at h
        | some x =>
          obtain ⟨v, t⟩ := x
          obtain ⟨u, hu, rfl⟩ := readerUnicode_iff.mp hx
          simp only [hx] at h
          cases hy : appendCodepoint cap out v with
          | none => simp [hy] at h
          | some y =>
            obtain ⟨rfl, rfl⟩ : y = out' ∧ t = r' := by simpa [hy] using h
            obtain ⟨hv0, hv, hlen, rfl⟩ := appendCodepoint_iff.mp hy
            exact ⟨_, _, .escape (hu.escape hv), rfl, rfl,
              Utf8.zero_notMem_encode hv hv0, hlen⟩
      · -- an escape of one letter
        cases hx : escapeByte e with
        | none => simp [hx] at h
        | some b =>
          simp only [hx] at h
          obtain ⟨hlen, rfl, rfl⟩ := appendByte_iff.mp h
          rw [escapeByte_eq] at hx
          have hb := (Json.simpleEscape_range hx).1
          exact ⟨_, _, .escape (.simple hx), rfl, rfl, by simpa using hb.symm, hlen⟩
  · obtain ⟨hlen, rfl, rfl⟩ := appendByte_iff.mp h
    refine ⟨[c], [c], .byte (by grind) hq h2, rfl, rfl, by grind, hlen⟩

theorem readerChar_complete {cap : ℕ} {out raw d : List UInt8} (r : List UInt8)
    (hc : RawChar raw d)
    (h0 : (0 : UInt8) ∉ d) (hlen : (out ++ d).length < cap) :
    ∃ c t, raw ++ r = c :: t ∧ c ≠ 0x22 ∧ readerChar cap out c t = some (out ++ d, r) := by
  cases hc with
  | @byte b h1 hq hs =>
    refine ⟨b, r, rfl, hq, ?_⟩
    unfold readerChar
    rw [if_neg (by grind), if_neg hs]
    exact appendByte_iff.mpr ⟨hlen, rfl, rfl⟩
  | escape he =>
    -- both escapes of a codepoint, the single one and the pair, are read alike
    have hunicode {t : List UInt8} {v : ℕ} (ht : UnicodeText t v) (hv : Utf8.IsScalar v)
        (h0 : (0 : UInt8) ∉ Utf8.encode v) (hlen : (out ++ Utf8.encode v).length < cap) :
        readerChar cap out 0x5c (0x75 :: (t ++ r)) = some (out ++ Utf8.encode v, r) := by
      have hv0 : v ≠ 0 := by
        rintro rfl
        exact h0 (by decide)
      rw [readerChar, if_neg (by decide), if_pos rfl]
      simp only [if_true]
      rw [readerUnicode_iff.mpr ⟨t, ht, rfl⟩]
      simp only
      rw [appendCodepoint_iff.mpr ⟨hv0, hv, hlen, rfl⟩]
    cases he with
    | @simple b c h =>
      have hu : b ≠ 0x75 := by
        rintro rfl
        simp [Json.simpleEscape] at h
      refine ⟨0x5c, b :: r, rfl, by decide, ?_⟩
      rw [readerChar, if_neg (by decide), if_pos rfl]
      simp only [if_neg hu, escapeByte_eq, h]
      exact appendByte_iff.mpr ⟨hlen, rfl, rfl⟩
    | @unicode h v hh hv =>
      refine ⟨0x5c, 0x75 :: (h ++ r), rfl, by decide, hunicode (.single hh ?_) hv h0 hlen⟩
      unfold Utf8.IsScalar at hv
      omega
    | surrogates hh hl hhigh hlow =>
      exact ⟨0x5c, _, rfl, by decide, hunicode (.pair hh hl hhigh hlow)
        (Json.isScalar_pairValue hhigh hlow) h0 hlen⟩

theorem readerStringTurn_shrinks (cap : ℕ) :
    Loop.Shrinks (readerStringTurn cap) fun s => s.2.length := by
  rintro ⟨out, r⟩ ⟨out', r'⟩ h
  cases r with
  | nil => simp [readerStringTurn] at h
  | cons c r =>
    simp only [readerStringTurn] at h
    split_ifs at h with hc
    cases hx : readerChar cap out c r with
    | none => simp [hx] at h
    | some x =>
      obtain rfl : x = (out', r') := by simpa [hx] using h
      obtain ⟨raw, d, hraw, he, -⟩ := readerChar_sound hc hx
      have := List.length_pos_iff.mpr hraw.ne_nil
      have := congrArg List.length he
      simp only [List.length_append] at this
      simp only
      omega

/-- The string loop reads a body up to its closing quote. -/
theorem readerStringLoop_sound {cap : ℕ} {out r s r' : List UInt8} (hcap : out.length < cap)
    (h : readerStringLoop cap out r = some (s, r')) :
    ∃ raw d, RawBody raw d ∧ s = out ++ d ∧ r = raw ++ 0x22 :: r' ∧ Text s ∧
      s.length < cap := by
  revert hcap h
  -- one turn for each character; the quote ends the loop
  refine Loop.loop_induction (readerStringTurn_shrinks cap)
    (P := fun t b => t.1.length < cap → b = some (s, r') →
      ∃ raw d, RawBody raw d ∧ s = t.1 ++ d ∧ t.2 = raw ++ 0x22 :: r' ∧ Text s ∧ s.length < cap)
    ?_ ?_ (out, r)
  · rintro ⟨out, r⟩ b hs hcap rfl
    cases r with
    | nil => simp [readerStringTurn] at hs
    | cons c r =>
      simp only [readerStringTurn] at hs
      split_ifs at hs with hc hv
      · obtain ⟨rfl, rfl⟩ : out = s ∧ r = r' := by simpa using hs
        exact ⟨[], [], .nil, by simp, by simp [hc], utf8Valid_iff.mp hv, hcap⟩
      · simp at hs
      · cases hx : readerChar cap out c r <;> simp [hx] at hs
  · rintro ⟨out, r⟩ ⟨out', t⟩ b hs ih hcap rfl
    cases r with
    | nil => simp [readerStringTurn] at hs
    | cons c r =>
      simp only [readerStringTurn] at hs
      split_ifs at hs with hc
      cases hx : readerChar cap out c r with
      | none => simp [hx] at hs
      | some x =>
        obtain rfl : x = (out', t) := by simpa [hx] using hs
        obtain ⟨raw, d, hraw, he, rfl, -, hlen⟩ := readerChar_sound hc hx
        obtain ⟨raw', d', hbody, rfl, rfl, hv, hlen'⟩ := ih hlen rfl
        refine ⟨raw ++ raw', d ++ d', .cons hraw hbody, by simp, by simp [he], hv, hlen'⟩

theorem readerStringLoop_complete {cap : ℕ} {raw d r : List UInt8} (hb : RawBody raw d) :
    ∀ out : List UInt8, Text (out ++ d) → (0 : UInt8) ∉ d → (out ++ d).length < cap →
      readerStringLoop cap out (raw ++ 0x22 :: r) = some (out ++ d, r) := by
  induction hb with
  | nil =>
    intro out hv _ _
    rw [List.append_nil] at hv
    rw [readerStringLoop, Loop.loop_of_done (readerStringTurn_shrinks cap) (b := some (out, r))]
    · simp
    · simp [readerStringTurn, utf8Valid_iff.mpr hv]
  | @cons raw₁ d₁ raws ds hc _ ih =>
    intro out hv h0 hlen
    rw [List.mem_append, not_or] at h0
    rw [← List.append_assoc] at hv hlen ⊢
    have hlen₁ : (out ++ d₁).length < cap := by
      simp only [List.length_append] at hlen ⊢
      omega
    obtain ⟨c, t, he, hq, hread⟩ :=
      readerChar_complete (raws ++ 0x22 :: r) hc h0.1 hlen₁
    have hturn : readerStringTurn cap (out, raw₁ ++ raws ++ 0x22 :: r) =
        .next (out ++ d₁, raws ++ 0x22 :: r) := by
      rw [List.append_assoc, he]
      simp [readerStringTurn, hq, hread]
    rw [readerStringLoop, Loop.loop_of_next (readerStringTurn_shrinks cap) hturn]
    exact ih (out ++ d₁) hv h0.2 hlen

/-- **The reader reads exactly the strings of the grammar** that contain no NUL and fit. -/
theorem readerString_iff {cap : ℕ} (hcap : 0 < cap) {r s r' : List UInt8} :
    readerString cap r = some (s, r') ↔
      ∃ w raw, Ws w ∧ r = w ++ 0x22 :: (raw ++ 0x22 :: r') ∧ StringBody raw s ∧
        (0 : UInt8) ∉ s ∧ s.length < cap := by
  rw [readerString, if_neg (by omega)]
  constructor
  · intro h
    cases ht : readerTake r 0x22 with
    | none => simp [ht] at h
    | some t =>
      rw [ht] at h
      obtain ⟨w, hw, rfl⟩ := (readerTake_iff (by decide)).mp ht
      obtain ⟨raw, d, hbody, rfl, rfl, hv, hlen⟩ := readerStringLoop_sound hcap h
      obtain ⟨hvalid, h0⟩ := Utf8.validWith_ne_nul_iff.mp hv
      exact ⟨w, raw, hw, rfl, hbody.stringBody hvalid, h0, hlen⟩
  · rintro ⟨w, raw, hw, rfl, hbody, h0, hlen⟩
    have hv : Text s := Utf8.validWith_ne_nul_iff.mpr ⟨hbody.valid, h0⟩
    rw [(readerTake_iff (by decide)).mpr ⟨w, hw, rfl⟩]
    simpa using readerStringLoop_complete hbody.raw [] hv h0 hlen

/-! ## Numbers -/

/-- A byte that may continue a number. -/
abbrev IsNumberByte (b : UInt8) : Prop := IsDigit b ∨ b = 0x2e ∨ b = 0x65 ∨ b = 0x45

theorem exists_numberSign (r : List UInt8) :
    ∃ minus : Bool, r = (if minus then [0x2d] else []) ++ numberSign r := by
  cases r with
  | nil => exact ⟨false, rfl⟩
  | cons c r =>
    by_cases hc : c = 0x2d
    · exact ⟨true, by simp [numberSign, hc]⟩
    · exact ⟨false, by simp [numberSign, hc]⟩

theorem numberInt_sound {r r' : List UInt8} (h : numberInt r = some r') :
    ∃ int, Json.IsIntPart int ∧ r = int ++ r' := by
  cases r with
  | nil => simp [numberInt] at h
  | cons c r =>
    rw [numberInt] at h
    split_ifs at h with h0 h1
    · obtain rfl : r = r' := by simpa using h
      exact ⟨[0x30], .inl rfl, by simp [h0]⟩
    · obtain rfl : Bytes.skip IsDigit r = r' := by simpa using h
      exact ⟨c :: Bytes.scan IsDigit r, .inr ⟨c, _, rfl, h1, fun _ => Bytes.mem_scan⟩,
        by simp [Bytes.scan_append_skip]⟩

theorem numberInt_complete {int r : List UInt8} (hi : Json.IsIntPart int) (hr : Stops IsDigit r) :
    numberInt (int ++ r) = some r := by
  rcases hi with rfl | ⟨d, ds, rfl, hd, hds⟩
  · simp [numberInt]
  · rw [List.cons_append, numberInt, if_neg (by grind), if_pos hd, Bytes.skip_append hds hr]

theorem numberDigits_sound {r r' : List UInt8} (h : numberDigits r = some r') :
    ∃ ds, ds ≠ [] ∧ (∀ b ∈ ds, IsDigit b) ∧ r = ds ++ r' := by
  cases r with
  | nil => simp [numberDigits] at h
  | cons c r =>
    rw [numberDigits] at h
    split_ifs at h with hc
    obtain rfl : Bytes.skip IsDigit r = r' := by simpa using h
    refine ⟨c :: Bytes.scan IsDigit r, by simp, ?_, by simp [Bytes.scan_append_skip]⟩
    intro b hb
    rcases List.mem_cons.mp hb with rfl | hb
    · grind
    · exact Bytes.mem_scan hb

theorem numberDigits_complete {ds r : List UInt8} (hne : ds ≠ []) (hds : ∀ b ∈ ds, IsDigit b)
    (hr : Stops IsDigit r) : numberDigits (ds ++ r) = some r := by
  obtain ⟨d, ds, rfl⟩ := List.exists_cons_of_ne_nil hne
  have hd : IsDigit d := hds d (by simp)
  rw [List.cons_append, numberDigits, if_neg (by grind),
    Bytes.skip_append (fun b hb => hds b (by simp [hb])) hr]

theorem numberFraction_sound {r r' : List UInt8} (h : numberFraction r = some r') :
    ∃ frac, (∀ b ∈ frac, IsDigit b) ∧ r = (if frac = [] then [] else 0x2e :: frac) ++ r' := by
  cases r with
  | nil =>
    obtain rfl : [] = r' := by simpa [numberFraction] using h
    exact ⟨[], by simp, rfl⟩
  | cons c r =>
    rw [numberFraction] at h
    split_ifs at h with hc
    · obtain ⟨ds, hne, hds, rfl⟩ := numberDigits_sound h
      exact ⟨ds, hds, by simp [hc, hne]⟩
    · obtain rfl : c :: r = r' := by simpa using h
      exact ⟨[], by simp, rfl⟩

theorem numberFraction_complete {frac r : List UInt8} (hf : ∀ b ∈ frac, IsDigit b)
    (hr : Stops (fun b => IsDigit b ∨ b = 0x2e) r) :
    numberFraction ((if frac = [] then [] else 0x2e :: frac) ++ r) = some r := by
  split_ifs with h
  · cases r with
    | nil => rfl
    | cons c r =>
      rw [Bytes.stops_cons, not_or] at hr
      rw [List.nil_append, numberFraction, if_neg hr.2]
  · rw [List.cons_append, numberFraction, if_pos rfl,
      numberDigits_complete h hf (hr.mono fun _ => Or.inl)]

theorem exists_exponentSign (r : List UInt8) :
    ∃ sign, (sign = [] ∨ sign = [0x2b] ∨ sign = [0x2d]) ∧ r = sign ++ exponentSign r := by
  cases r with
  | nil => exact ⟨[], .inl rfl, rfl⟩
  | cons c r =>
    by_cases hc : c = 0x2b ∨ c = 0x2d
    · refine ⟨[c], ?_, by simp [exponentSign, hc]⟩
      rcases hc with rfl | rfl <;> simp
    · exact ⟨[], .inl rfl, by simp [exponentSign, hc]⟩

theorem exponentSign_append {sign ds : List UInt8}
    (hs : sign = [] ∨ sign = [0x2b] ∨ sign = [0x2d]) (hds : Stops (¬ IsDigit ·) ds) :
    exponentSign (sign ++ ds) = ds := by
  rcases hs with rfl | rfl | rfl
  · cases ds with
    | nil => rfl
    | cons d ds =>
      rw [Bytes.stops_cons, not_not] at hds
      rw [List.nil_append, exponentSign, if_neg (by grind)]
  · simp [exponentSign]
  · simp [exponentSign]

theorem numberExponent_sound {r r' : List UInt8} (h : numberExponent r = some r') :
    ∃ e : Option Exponent, r = (e.map Exponent.text).getD [] ++ r' := by
  cases r with
  | nil => exact ⟨none, by simpa [numberExponent] using h⟩
  | cons c r =>
    rw [numberExponent] at h
    split_ifs at h with hc
    · obtain ⟨sign, hsign, hr⟩ := exists_exponentSign r
      obtain ⟨ds, hne, hds, he⟩ := numberDigits_sound h
      rw [hr, he]
      exact ⟨some ⟨c, sign, ds, hc, hsign, hne, hds⟩, by simp [Exponent.text]⟩
    · exact ⟨none, by simpa using h⟩

theorem numberExponent_complete (e : Option Exponent) {r : List UInt8} (hr : Stops IsNumberByte r) :
    numberExponent ((e.map Exponent.text).getD [] ++ r) = some r := by
  cases e with
  | none =>
    cases r with
    | nil => rfl
    | cons c r =>
      rw [Bytes.stops_cons] at hr
      rw [Option.map_none, Option.getD_none, List.nil_append, numberExponent, if_neg (by grind)]
  | some e =>
    obtain ⟨hne, hds⟩ := e.digits_ok
    obtain ⟨d, ds, hd⟩ := List.exists_cons_of_ne_nil hne
    have hstops : Stops (¬ IsDigit ·) (e.digits ++ r) := by
      rw [hd, List.cons_append, Bytes.stops_cons, not_not]
      exact hds d (by simp [hd])
    rw [Option.map_some, Option.getD_some, Exponent.text, List.cons_append, numberExponent,
      if_pos e.marker_ok, List.append_assoc, exponentSign_append e.sign_ok hstops]
    exact numberDigits_complete hne hds (hr.mono fun _ => Or.inl)

/-- A token is a number of the grammar. -/
theorem numberToken_sound {cap : ℕ} {r t r' : List UInt8} (h : numberToken cap r = some (t, r')) :
    ∃ w, ∃ n : Number, Ws w ∧ r = w ++ (n.text ++ r') ∧ t = n.text ∧ n.text.length < cap := by
  simp only [numberToken, Option.bind_eq_bind, Option.bind_eq_some_iff] at h
  obtain ⟨r₁, h₁, r₂, h₂, r₃, h₃, h⟩ := h
  obtain ⟨w, hw, hr, -⟩ := exists_readerSpace r
  obtain ⟨minus, hminus⟩ := exists_numberSign (readerSpace r)
  obtain ⟨int, hint, he₁⟩ := numberInt_sound h₁
  obtain ⟨frac, hfrac, he₂⟩ := numberFraction_sound h₂
  obtain ⟨e, he₃⟩ := numberExponent_sound h₃
  have htext : readerSpace r = (⟨minus, int, frac, e, hint, hfrac⟩ : Number).text ++ r₃ := by
    rw [hminus, he₁, he₂, he₃]
    simp [Number.text, Number.signText, Number.fracText, Number.expText]
  split_ifs at h with hlen
  rw [htext, List.length_append, Nat.add_sub_cancel, List.take_left] at h
  rw [htext, List.length_append, Nat.add_sub_cancel] at hlen
  obtain ⟨rfl, rfl⟩ : _ = t ∧ r₃ = r' := by simpa using h
  exact ⟨w, _, hw, by rw [← htext, ← hr], rfl, by omega⟩

/-- **A number is read whole**, up to a byte that cannot continue one. -/
theorem numberToken_complete {cap : ℕ} {w r : List UInt8} (n : Number) (hw : Ws w)
    (hcap : n.text.length < cap) (hr : Stops IsNumberByte r) :
    numberToken cap (w ++ (n.text ++ r)) = some (n.text, r) := by
  obtain ⟨d, ds, hd, hdigit⟩ := n.exists_int_cons
  have hpos : 0 < n.text.length := List.length_pos_iff.mpr n.text_ne_nil
  -- what each stage of the reader leaves: the blanks, the sign, the integer, the rest
  have hspace : readerSpace (w ++ (n.text ++ r)) = n.text ++ r := by
    refine readerSpace_append hw ?_
    unfold Number.text Number.signText
    split_ifs
    · simp
    · rw [hd, List.nil_append, List.cons_append, List.cons_append, Bytes.stops_cons]
      grind
  have hsign : numberSign (n.text ++ r) = n.int ++ (n.fracText ++ n.expText ++ r) := by
    unfold Number.text Number.signText
    split_ifs
    · simp [numberSign]
    · rw [hd]
      simp only [List.nil_append, List.cons_append, numberSign, List.append_assoc]
      exact if_neg (by grind)
  have hstop : Stops IsDigit (n.fracText ++ n.expText ++ r) := by
    have := n.tail_stops
    cases h : n.fracText ++ n.expText with
    | nil => exact hr.mono fun _ => Or.inl
    | cons b l => simpa [h] using this
  -- the byte behind the fraction does not continue it
  have hexp : Stops (fun b => IsDigit b ∨ b = 0x2e) (n.expText ++ r) := by
    unfold Number.expText
    cases n.exp with
    | none => exact hr.mono fun b hb => by grind
    | some e =>
      have := e.marker_ok
      simp only [Option.map_some, Option.getD_some, Json.Exponent.text, List.cons_append,
        Bytes.stops_cons]
      grind
  have hint : numberInt (numberSign (n.text ++ r)) = some (n.fracText ++ (n.expText ++ r)) := by
    rw [hsign, numberInt_complete n.int_ok hstop, List.append_assoc]
  simp only [numberToken, hspace, hint, Option.bind_eq_bind, Option.bind_some]
  rw [Number.fracText, numberFraction_complete n.frac_ok hexp, Option.bind_some, Number.expText,
    numberExponent_complete n.exp hr, Option.bind_some, List.length_append, Nat.add_sub_cancel,
    if_neg (by omega), List.take_left]

/-! ### The conversions of a token -/

theorem numberSign_text (n : Number) :
    numberSign n.text = n.int ++ (n.fracText ++ n.expText) ∧
      (n.text.head? = some 0x2d ↔ n.minus = true) := by
  obtain ⟨d, ds, hd, hdigit⟩ := n.exists_int_cons
  unfold Number.text Number.signText
  cases n.minus with
  | true => simp [numberSign]
  | false =>
    rw [hd]
    have : d ≠ 0x2d := by grind
    simp [numberSign, this]

theorem strtodExponent_expText (n : Number) :
    strtodExponent n.expText = ((n.exp.map Exponent.power).getD 1, []) := by
  unfold Number.expText
  cases n.exp with
  | none => rfl
  | some e =>
    obtain ⟨hne, hds⟩ := e.digits_ok
    obtain ⟨d, ds, hd⟩ := List.exists_cons_of_ne_nil hne
    have hd' : IsDigit d := hds d (by simp [hd])
    have hstops : Stops (¬ IsDigit ·) e.digits := by
      rw [hd, Bytes.stops_cons, not_not]
      exact hd'
    have hhead : (e.sign ++ e.digits).head? = some 0x2d ↔ e.sign = [0x2d] := by
      rcases e.sign_ok with h | h | h <;> rw [h]
      · rw [hd]
        have : d ≠ 0x2d := by grind
        simp [this]
      · simp
      · simp
    have hscan : Bytes.scan IsDigit e.digits = e.digits := by
      simpa using Bytes.scan_append hds (Bytes.stops_nil)
    have hskip : Bytes.skip IsDigit e.digits = [] := by
      simpa using Bytes.skip_append hds (Bytes.stops_nil)
    rw [Option.map_some, Option.getD_some, Exponent.text, strtodExponent, if_pos e.marker_ok,
      exponentSign_append e.sign_ok hstops, hscan, hskip]
    simp only [hne, if_false, hhead, Option.map_some, Option.getD_some, Exponent.power]

/-- **`strtod` converts a whole token to its value.** -/
theorem strtod_text (n : Number) : strtod n.text = (n.value, []) := by
  obtain ⟨hsign, hminus⟩ := numberSign_text n
  -- the digits end where the fraction or the exponent begins
  have hmag : strtodMagnitude (n.int ++ (n.fracText ++ n.expText)) = (n.magnitude, []) := by
    unfold strtodMagnitude
    rw [Bytes.scan_append n.int_digits n.tail_stops, Bytes.skip_append n.int_digits n.tail_stops]
    have hexp := strtodExponent_expText n
    by_cases hfrac : n.frac = []
    · rw [Number.fracText, if_pos hfrac, List.nil_append]
      cases he : n.exp with
      | none => simp [Number.expText, he, Number.magnitude, hfrac]
      | some e =>
        have : e.marker ≠ 0x2e := by
          have := e.marker_ok
          grind
        rw [Number.expText, he] at hexp ⊢
        simp only [Option.map_some, Option.getD_some, Exponent.text] at hexp ⊢
        simp [this, hexp, Number.magnitude, hfrac, he]
    · have hstops : Stops IsDigit n.expText := by
        unfold Number.expText
        cases n.exp with
        | none => simp
        | some e =>
          have := e.marker_ok
          simp only [Option.map_some, Option.getD_some, Exponent.text, Bytes.stops_cons]
          grind
      rw [Number.fracText, if_neg hfrac, List.cons_append]
      simp only [if_true, Bytes.scan_append n.frac_ok hstops, Bytes.skip_append n.frac_ok hstops,
        hexp, Number.magnitude]
  rw [strtod, hsign, hmag]
  simp only [hminus, Number.value]

/-- `strtoll` converts the integer part of a token. -/
theorem strtoll_text (n : Number) :
    strtoll n.text = (if n.minus then -(Bytes.natOfDigits n.int : ℤ) else Bytes.natOfDigits n.int,
      n.fracText ++ n.expText) := by
  obtain ⟨hsign, hminus⟩ := numberSign_text n
  rw [strtoll, hsign, Bytes.scan_append n.int_digits n.tail_stops,
    Bytes.skip_append n.int_digits n.tail_stops]
  simp only [hminus]

end Kosync
