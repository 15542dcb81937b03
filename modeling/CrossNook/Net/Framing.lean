import CrossNook.Net.Exchange

/-!
# Framing of a response

What `response_content_length` answers, said on the response itself: the header block that ends
at the first empty line, the header lines in it that name a length, and the number that such a
line denotes.

## Main definitions

* `NetSimple.Headers buf block body`: `block` is the header block of `buf`, and `body` follows it
* `NetSimple.OneLength block n`, `NetSimple.NoLength block`: exactly one line of the block names a
  length, which is `n`; no line does

## Main results

* `NetSimple.framed_iff`, `NetSimple.unframed_iff`: the answers of `responseContentLength`
* `NetSimple.responseContentLength_append`: an answer about complete headers stands for every
  longer response
-/

namespace NetSimple

open Bytes (ascii IsDigit digitValue natOfDigits scan skip Stops)

/-! ## The first place of a pattern -/

theorem indexOf_eq_some_iff {pattern text : List UInt8} {k : ℕ} :
    indexOf pattern text = some k ↔
      k ≤ text.length ∧ pattern <+: text.drop k ∧ ∀ j < k, ¬ pattern <+: text.drop j := by
  -- the search goes along the text; the pattern at its head ends it
  induction text generalizing k with
  | nil =>
    rw [indexOf]
    constructor
    · intro h
      split_ifs at h with hp
      obtain rfl : 0 = k := by simpa using h
      simp [hp]
    · rintro ⟨hk, hp, -⟩
      obtain rfl : k = 0 := by simpa using hk
      rw [if_pos (by simpa using hp)]
  | cons c text ih =>
    rw [indexOf]
    split_ifs with hp
    · constructor
      · intro h
        obtain rfl : 0 = k := by simpa using h
        exact ⟨by simp, hp, by simp⟩
      · rintro ⟨-, -, hfirst⟩
        rcases Nat.eq_zero_or_pos k with rfl | hk
        · rfl
        · exact absurd hp (hfirst 0 hk)
    · cases k with
      | zero => simp [hp]
      | succ k =>
        rw [Option.map_eq_some_iff]
        simp only [Nat.add_right_cancel_iff, exists_eq_right, ih, List.length_cons,
          Nat.add_le_add_iff_right, List.drop_succ_cons]
        refine and_congr_right fun _ => and_congr_right fun _ => ?_
        constructor
        · intro h j hj
          cases j with
          | zero => exact hp
          | succ j => exact h j (by omega)
        · intro h j hj
          exact h (j + 1) (by omega)

/-- A pattern that occurs has a first place. -/
theorem exists_indexOf_le {pattern text : List UInt8} {k : ℕ} (hk : k ≤ text.length)
    (h : pattern <+: text.drop k) : ∃ j ≤ k, indexOf pattern text = some j := by
  classical
  have hex : ∃ j, pattern <+: text.drop j := ⟨k, h⟩
  have hle : Nat.find hex ≤ k := Nat.find_min' hex h
  refine ⟨Nat.find hex, hle, indexOf_eq_some_iff.mpr ⟨hle.trans hk, Nat.find_spec hex, ?_⟩⟩
  intro j hj
  exact Nat.find_min hex hj

/-! ## The header block -/

/-- The header block of a response and what follows the empty line after it. -/
structure Headers (buf block body : List UInt8) : Prop where
  split : buf = block ++ ascii "\r\n\r\n" ++ body
  first : ∀ j < block.length, ¬ ascii "\r\n\r\n" <+: buf.drop j
  ne_nil : block ≠ []

namespace Headers

variable {buf block body : List UInt8}

theorem length_eq (h : Headers buf block body) :
    buf.length = block.length + 4 + body.length := by
  have : (ascii "\r\n\r\n").length = 4 := rfl
  rw [h.split, List.length_append, List.length_append, this]

theorem take_eq (h : Headers buf block body) : buf.take block.length = block := by
  rw [h.split, List.append_assoc, List.take_left' rfl]

theorem indexOf_eq (h : Headers buf block body) :
    indexOf (ascii "\r\n\r\n") buf = some block.length := by
  refine indexOf_eq_some_iff.mpr ⟨by rw [h.length_eq]; omega, ?_, h.first⟩
  have hdrop : buf.drop block.length = ascii "\r\n\r\n" ++ body := by
    rw [h.split, List.append_assoc, List.drop_left' rfl]
  rw [hdrop]
  exact List.prefix_append _ _

theorem of_indexOf {k : ℕ} (h : indexOf (ascii "\r\n\r\n") buf = some (k + 1)) :
    Headers buf (buf.take (k + 1)) (buf.drop (k + 1 + 4)) := by
  obtain ⟨hk, ⟨rest, hrest⟩, hfirst⟩ := indexOf_eq_some_iff.mp h
  have hlen : (buf.take (k + 1)).length = k + 1 := by simpa using hk
  refine ⟨?_, ?_, ?_⟩
  · have hbody : buf.drop (k + 1 + 4) = rest := by
      rw [← List.drop_drop, ← hrest]
      exact List.drop_left' rfl
    rw [hbody, List.append_assoc, hrest, List.take_append_drop]
  · rw [hlen]
    exact hfirst
  · intro h0
    rw [h0] at hlen
    simp at hlen

/-- The header block of a response is the only one. -/
theorem unique {block' body' : List UInt8} (h : Headers buf block body)
    (h' : Headers buf block' body') : block = block' ∧ body = body' := by
  have hlen : block.length = block'.length := by
    have := h.indexOf_eq.symm.trans h'.indexOf_eq
    simpa using this
  have hblock : block = block' := by rw [← h.take_eq, ← h'.take_eq, hlen]
  subst hblock
  exact ⟨rfl, List.append_cancel_left (h.split.symm.trans h'.split)⟩

theorem append (h : Headers buf block body) (more : List UInt8) :
    Headers (buf ++ more) block (body ++ more) := by
  refine ⟨by rw [h.split]; simp, ?_, h.ne_nil⟩
  intro j hj hp
  have hlen := h.length_eq
  rw [List.drop_append_of_le_length (by omega)] at hp
  refine h.first j hj (List.prefix_of_prefix_length_le hp (List.prefix_append _ _) ?_)
  have : (ascii "\r\n\r\n").length = 4 := rfl
  rw [this, List.length_drop]
  omega

/-- A prefix of a response that reaches past the empty line has the same header block. -/
theorem take (h : Headers buf block body) {k : ℕ} (hk : block.length + 4 ≤ k) :
    Headers (buf.take k) block (body.take (k - (block.length + 4))) := by
  have h4 : (block ++ ascii "\r\n\r\n").length = block.length + 4 := by
    rw [List.length_append]
    rfl
  have hsplit : buf.take k = block ++ ascii "\r\n\r\n" ++ body.take (k - (block.length + 4)) := by
    rw [h.split, List.take_append, h4, List.take_of_length_le (by omega)]
  refine ⟨hsplit, fun j hj hp => ?_, h.ne_nil⟩
  refine h.first j hj (hp.trans ?_)
  rw [List.drop_take]
  exact List.take_prefix _ _

end Headers

/-! ## The digits of a length -/

section Digits

theorem scan_cons {p : UInt8 → Prop} [DecidablePred p] (c : UInt8) (text : List UInt8) :
    scan p (c :: text) = if p c then c :: scan p text else [] := by
  by_cases h : p c <;> simp [scan, h]

theorem skip_cons {p : UInt8 → Prop} [DecidablePred p] (c : UInt8) (text : List UInt8) :
    skip p (c :: text) = if p c then skip p text else c :: text := by
  by_cases h : p c <;> simp [skip, h]

/-- The arithmetic of `size_t` is exact: a length is the number that its digits denote, and one
that is greater than `SIZE_MAX` is refused. -/
theorem lengthDigits_eq {value : ℕ} (hv : value ≤ sizeMax) (text : List UInt8) :
    lengthDigits value text =
      if value * 10 ^ (scan IsDigit text).length + natOfDigits (scan IsDigit text) ≤ sizeMax then
        some (value * 10 ^ (scan IsDigit text).length + natOfDigits (scan IsDigit text),
          skip IsDigit text)
      else none := by
  induction text generalizing value with
  | nil =>
    rw [lengthDigits, if_pos (by simpa [scan] using hv)]
    simp [scan, skip]
  | cons c text ih =>
    rw [lengthDigits, scan_cons, skip_cons]
    by_cases hc : IsDigit c
    · rw [if_pos hc, if_pos hc, if_pos hc]
      have hd := Bytes.digitValue_lt hc
      have h9 : digitValue c ≤ sizeMax := by
        rw [sizeMax]
        omega
      -- the digits after this one only make the number greater
      have hsum : value * 10 ^ (c :: scan IsDigit text).length +
          natOfDigits (c :: scan IsDigit text) =
          (value * 10 + digitValue c) * 10 ^ (scan IsDigit text).length +
            natOfDigits (scan IsDigit text) := by
        rw [Bytes.natOfDigits_cons, List.length_cons, pow_succ]
        ring
      have hpow : 0 < 10 ^ (scan IsDigit text).length := by positivity
      rw [hsum]
      by_cases hbig : (sizeMax - digitValue c) / 10 < value
      · rw [if_pos hbig, if_neg]
        have : sizeMax < value * 10 + digitValue c := by omega
        have := Nat.le_mul_of_pos_right (value * 10 + digitValue c) hpow
        omega
      · rw [if_neg hbig]
        have hle : value * 10 + digitValue c ≤ sizeMax := by omega
        rw [Nat.mod_eq_of_lt (by omega), ih hle]
    · rw [if_neg hc, if_neg hc, if_neg hc, if_pos (by simpa using hv)]
      simp

end Digits

/-! ## The lines that name a length -/

/-- The name of a header line is `Content-Length`, in upper or lower case. -/
def NamesLength (line : List UInt8) : Prop :=
  (scan (· ≠ 0x3a) line).map toLower = ascii "content-length"

instance (line : List UInt8) : Decidable (NamesLength line) :=
  inferInstanceAs (Decidable (_ = _))

/-- The text after the colon of a header line. -/
def valueText (line : List UInt8) : List UInt8 :=
  line.drop ((scan (· ≠ 0x3a) line).length + 1)

/-- A header value that is the number `n`: digits with blanks around them. -/
def LengthValue (text : List UInt8) (n : ℕ) : Prop :=
  ∃ pad digits trail, text = pad ++ digits ++ trail ∧ (∀ c ∈ pad, IsBlank c) ∧ digits ≠ [] ∧
    (∀ c ∈ digits, IsDigit c) ∧ (∀ c ∈ trail, IsBlank c ∨ c = 0x0d) ∧ n = natOfDigits digits

/-- A valid `Content-Length` line. -/
structure LengthLine (line : List UInt8) (n : ℕ) : Prop where
  names : NamesLength line
  value : LengthValue (valueText line) n
  le : n ≤ sizeMax

theorem digit_not_blank {c : UInt8} (h : IsDigit c) : ¬ (IsBlank c ∨ c = 0x0d) := by
  rintro ((rfl | rfl) | rfl) <;> exact absurd h (by decide)

theorem lengthValue_iff {text : List UInt8} {n : ℕ} :
    LengthValue text n ↔
      scan IsDigit (skip IsBlank text) ≠ [] ∧
      skip (fun c => IsBlank c ∨ c = 0x0d) (skip IsDigit (skip IsBlank text)) = [] ∧
      n = natOfDigits (scan IsDigit (skip IsBlank text)) := by
  constructor
  · rintro ⟨pad, digits, trail, rfl, hpad, hne, hdigits, htrail, rfl⟩
    -- a digit is no blank, so the scans stop where the parts meet
    have htrailStops : Stops IsDigit trail := by
      intro b hb hd
      exact digit_not_blank hd (htrail b (List.mem_of_mem_head? hb))
    have hstops : Stops IsBlank (digits ++ trail) := by
      intro b hb hblank
      obtain ⟨d, ds, rfl⟩ := List.exists_cons_of_ne_nil hne
      obtain rfl : d = b := by simpa using hb
      exact digit_not_blank (hdigits d (by simp)) (.inl hblank)
    have hskip : skip IsBlank (pad ++ digits ++ trail) = digits ++ trail := by
      rw [List.append_assoc, Bytes.skip_append hpad hstops]
    rw [hskip, Bytes.scan_append hdigits htrailStops, Bytes.skip_append hdigits htrailStops]
    refine ⟨hne, ?_, rfl⟩
    have := Bytes.skip_append (r := []) htrail Bytes.stops_nil
    simpa using this
  · rintro ⟨hne, hend, rfl⟩
    refine ⟨scan IsBlank text, scan IsDigit (skip IsBlank text),
      skip IsDigit (skip IsBlank text), ?_, fun c => Bytes.mem_scan, hne,
      fun c => Bytes.mem_scan, ?_, rfl⟩
    · rw [List.append_assoc, Bytes.scan_append_skip, Bytes.scan_append_skip]
    · intro c hc
      have hall := Bytes.scan_append_skip (p := fun c => IsBlank c ∨ c = 0x0d)
        (skip IsDigit (skip IsBlank text))
      rw [hend, List.append_nil] at hall
      rw [← hall] at hc
      exact Bytes.mem_scan hc

theorem contentLengthLine_eq (found : Option ℕ) (line : List UInt8) :
    contentLengthLine found line =
      if NamesLength line then
        match lengthDigits 0 (skip IsBlank (valueText line)) with
        | none => none
        | some (value, rest) =>
          if rest.length = (skip IsBlank (valueText line)).length ∨
              skip (fun c => IsBlank c ∨ c = 0x0d) rest ≠ [] ∨ found.isSome then none
          else some (some value)
      else some found := rfl

theorem contentLengthLine_of_not_names {line : List UInt8} (h : ¬ NamesLength line)
    (found : Option ℕ) : contentLengthLine found line = some found := by
  rw [contentLengthLine_eq, if_neg h]

/-- **What a line that names a length does**: it must be the first one and its value a number. -/
theorem contentLengthLine_eq_some_iff {line : List UInt8} (h : NamesLength line)
    {found r : Option ℕ} :
    contentLengthLine found line = some r ↔ found = none ∧ ∃ n, r = some n ∧ LengthLine line n := by
  rw [contentLengthLine_eq, if_pos h, lengthDigits_eq (Nat.zero_le _), Nat.zero_mul, Nat.zero_add]
  generalize hd : scan IsDigit (skip IsBlank (valueText line)) = digits
  have hsplit := Bytes.scan_append_skip (p := IsDigit) (skip IsBlank (valueText line))
  rw [hd] at hsplit
  -- the length that a line names, in terms of the digits that the scan stops at
  have hval : ∀ n, LengthLine line n ↔ (digits ≠ [] ∧
      skip (fun c => IsBlank c ∨ c = 0x0d) (skip IsDigit (skip IsBlank (valueText line))) = [] ∧
      n = natOfDigits digits) ∧ n ≤ sizeMax := by
    intro n
    rw [← hd, ← lengthValue_iff]
    exact ⟨fun hl => ⟨hl.value, hl.le⟩, fun hl => ⟨h, hl.1, hl.2⟩⟩
  have hlen : (skip IsDigit (skip IsBlank (valueText line))).length =
      (skip IsBlank (valueText line)).length ↔ digits = [] := by
    rw [← List.length_eq_zero_iff, ← congrArg List.length hsplit, List.length_append]
    omega
  -- a value that overflows is refused like one that is no number
  by_cases hle : natOfDigits digits ≤ sizeMax
  · rw [if_pos hle]
    dsimp only
    constructor
    · intro hr
      split_ifs at hr with hbad
      obtain ⟨hne, hend, hfound⟩ := by simpa only [not_or, not_not] using hbad
      refine ⟨by simpa using hfound, natOfDigits digits, by simpa using hr.symm, ?_⟩
      exact (hval _).mpr ⟨⟨fun h0 => hne (hlen.mpr h0), hend, rfl⟩, hle⟩
    · rintro ⟨rfl, n, rfl, hl⟩
      obtain ⟨⟨hne, hend, rfl⟩, -⟩ := (hval n).mp hl
      rw [if_neg]
      rintro (h0 | h0 | h0)
      exacts [hne (hlen.mp h0), h0 hend, absurd h0 (by simp)]
  · rw [if_neg hle]
    constructor
    · intro hr
      exact absurd hr (by simp)
    · rintro ⟨-, n, -, hl⟩
      obtain ⟨⟨-, -, rfl⟩, hn⟩ := (hval n).mp hl
      exact absurd hn hle

/-- The header lines of a block, after the status line. -/
def headerFields (block : List UInt8) : List (List UInt8) := (headerLines block).tail

/-- Exactly one header line names a length, and it is `n`. -/
def OneLength (block : List UInt8) (n : ℕ) : Prop :=
  ∃ before line after, headerFields block = before ++ line :: after ∧ LengthLine line n ∧
    ∀ other ∈ before ++ after, ¬ NamesLength other

/-- No header line names a length. -/
def NoLength (block : List UInt8) : Prop := ∀ line ∈ headerFields block, ¬ NamesLength line

theorem foldlM_of_not_names {lines : List (List UInt8)} (h : ∀ line ∈ lines, ¬ NamesLength line)
    (found : Option ℕ) : lines.foldlM contentLengthLine found = some found := by
  induction lines with
  | nil => rfl
  | cons line lines ih =>
    rw [List.foldlM_cons, contentLengthLine_of_not_names (h line (by simp))]
    exact ih fun other hother => h other (by simp [hother])

/-- After a length has been found, no other line may name one. -/
theorem foldlM_some_iff {lines : List (List UInt8)} {n : ℕ} {r : Option ℕ} :
    lines.foldlM contentLengthLine (some n) = some r ↔
      r = some n ∧ ∀ line ∈ lines, ¬ NamesLength line := by
  constructor
  · intro h
    induction lines with
    | nil => exact ⟨by simpa using h.symm, by simp⟩
    | cons line lines ih =>
      by_cases hline : NamesLength line
      · rw [List.foldlM_cons] at h
        cases hc : contentLengthLine (some n) line with
        | none =>
          rw [hc] at h
          exact absurd h (by simp)
        | some r' => exact absurd ((contentLengthLine_eq_some_iff hline).mp hc).1 (by simp)
      · rw [List.foldlM_cons, contentLengthLine_of_not_names hline] at h
        obtain ⟨hr, hrest⟩ := ih h
        exact ⟨hr, List.forall_mem_cons.mpr ⟨hline, hrest⟩⟩
  · rintro ⟨rfl, h⟩
    exact foldlM_of_not_names h _

theorem foldlM_none_iff {lines : List (List UInt8)} {r : Option ℕ} :
    lines.foldlM contentLengthLine none = some r ↔
      (r = none ∧ ∀ line ∈ lines, ¬ NamesLength line) ∨
      ∃ n before line after, r = some n ∧ lines = before ++ line :: after ∧ LengthLine line n ∧
        ∀ other ∈ before ++ after, ¬ NamesLength other := by
  constructor
  · intro h
    -- the first line that names a length is found, and then no other may
    induction lines with
    | nil => exact .inl ⟨by simpa using h.symm, by simp⟩
    | cons line lines ih =>
      by_cases hline : NamesLength line
      · rw [List.foldlM_cons] at h
        cases hc : contentLengthLine none line with
        | none =>
          rw [hc] at h
          exact absurd h (by simp)
        | some r' =>
          rw [hc] at h
          obtain ⟨-, n, rfl, hl⟩ := (contentLengthLine_eq_some_iff hline).mp hc
          obtain ⟨hr, hrest⟩ := foldlM_some_iff.mp h
          exact .inr ⟨n, [], line, lines, hr, rfl, hl, by simpa using hrest⟩
      · rw [List.foldlM_cons, contentLengthLine_of_not_names hline] at h
        rcases ih h with ⟨hr, hrest⟩ | ⟨n, before, l, after, hr, rfl, hl, hrest⟩
        · exact .inl ⟨hr, List.forall_mem_cons.mpr ⟨hline, hrest⟩⟩
        · exact .inr ⟨n, line :: before, l, after, hr, rfl, hl,
            List.forall_mem_cons.mpr ⟨hline, hrest⟩⟩
  · rintro (⟨rfl, h⟩ | ⟨n, before, line, after, rfl, rfl, hl, h⟩)
    · exact foldlM_of_not_names h _
    · rw [List.foldlM_append, foldlM_of_not_names fun o ho => h o (by simp [ho])]
      change (line :: after).foldlM contentLengthLine none = _
      rw [List.foldlM_cons, (contentLengthLine_eq_some_iff hl.names).mpr ⟨rfl, n, rfl, hl⟩]
      exact foldlM_of_not_names (fun o ho => h o (by simp [ho])) _

/-! ## What the framing tells -/

/-- The answer about a header block. -/
def blockFraming (block : List UInt8) : Framing :=
  match (headerFields block).foldlM contentLengthLine none with
  | none => .malformed
  | some none => .unframed
  | some (some contentLength) =>
    if sizeMax - (block.length + 4) < contentLength then .malformed
    else .framed ((block.length + 4 + contentLength) % (sizeMax + 1))

theorem Headers.framing {buf block body : List UInt8} (h : Headers buf block body) :
    responseContentLength buf = blockFraming block := by
  obtain ⟨k, hk⟩ : ∃ k, block.length = k + 1 :=
    Nat.exists_eq_succ_of_ne_zero fun h0 => h.ne_nil (List.length_eq_zero_iff.mp h0)
  have hfold : (headerLines (buf.take (k + 1))).tail.foldlM contentLengthLine none =
      (headerFields block).foldlM contentLengthLine none := by
    rw [← hk, h.take_eq, headerFields]
  unfold responseContentLength blockFraming
  rw [h.indexOf_eq, hk]
  dsimp only
  generalize (headerFields block).foldlM contentLengthLine none = found at hfold
  cases found with
  | none => simp only [hfold]
  | some found => cases found <;> simp only [hfold]

/-- Headers are complete where the answer is not `incomplete`. -/
theorem exists_headers {buf : List UInt8} (h : responseContentLength buf ≠ .incomplete) :
    ∃ block body, Headers buf block body := by
  unfold responseContentLength at h
  split at h
  · exact absurd rfl h
  · exact absurd rfl h
  · rename_i k hk
    exact ⟨_, _, .of_indexOf hk⟩

theorem unframed_iff {buf : List UInt8} :
    responseContentLength buf = .unframed ↔ ∃ block body, Headers buf block body ∧
      NoLength block := by
  have hblock : ∀ block, blockFraming block = .unframed ↔ NoLength block := by
    intro block
    unfold blockFraming
    constructor
    · intro h
      split at h
      · exact absurd h (by simp)
      · rename_i hfold
        rcases foldlM_none_iff.mp hfold with ⟨-, hno⟩ | ⟨n, _, _, _, hn, -⟩
        · exact hno
        · exact absurd hn (by simp)
      · split_ifs at h
    · intro h
      rw [foldlM_none_iff.mpr (.inl ⟨rfl, h⟩)]
  constructor
  · intro h
    obtain ⟨block, body, hb⟩ := exists_headers (ne_of_eq_of_ne h (by simp))
    exact ⟨block, body, hb, (hblock block).mp (hb.framing.symm.trans h)⟩
  · rintro ⟨block, body, hb, hno⟩
    exact hb.framing.trans ((hblock block).mpr hno)

/-- **The size of a framed response**, without any wrap of the arithmetic. -/
theorem framed_iff {buf : List UInt8} (hbuf : buf.length ≤ sizeMax) {expected : ℕ} :
    responseContentLength buf = .framed expected ↔ ∃ block body n, Headers buf block body ∧
      OneLength block n ∧ expected = block.length + 4 + n ∧ expected ≤ sizeMax := by
  -- the block tells its size unless the sum wraps, which is refused
  have hblock : ∀ block, block.length + 4 ≤ sizeMax → (blockFraming block = .framed expected ↔
      ∃ n, OneLength block n ∧ expected = block.length + 4 + n ∧ expected ≤ sizeMax) := by
    intro block hlen
    unfold blockFraming
    constructor
    · intro h
      split at h
      · exact absurd h (by simp)
      · exact absurd h (by simp)
      · rename_i n hfold
        split_ifs at h with hbig
        rw [Nat.mod_eq_of_lt (by omega)] at h
        obtain rfl : block.length + 4 + n = expected := by simpa using h
        rcases foldlM_none_iff.mp hfold with ⟨hn, -⟩ | ⟨n', before, line, after, hn, hone⟩
        · exact absurd hn (by simp)
        · obtain rfl : n = n' := by simpa using hn
          exact ⟨n, ⟨before, line, after, hone⟩, rfl, by omega⟩
    · rintro ⟨n, ⟨before, line, after, hone⟩, rfl, hle⟩
      rw [foldlM_none_iff.mpr (.inr ⟨n, before, line, after, rfl, hone⟩)]
      dsimp only
      rw [if_neg (by omega), Nat.mod_eq_of_lt (by omega)]
  constructor
  · intro h
    obtain ⟨block, body, hb⟩ := exists_headers (ne_of_eq_of_ne h (by simp))
    have hlen := hb.length_eq
    obtain ⟨n, hone, he⟩ := (hblock block (by omega)).mp (hb.framing.symm.trans h)
    exact ⟨block, body, n, hb, hone, he⟩
  · rintro ⟨block, body, n, hb, hone, he⟩
    have hlen := hb.length_eq
    exact hb.framing.trans ((hblock block (by omega)).mpr ⟨n, hone, he⟩)

/-- A size is a value of `size_t`. -/
theorem framed_le {buf : List UInt8} {expected : ℕ}
    (h : responseContentLength buf = .framed expected) : expected ≤ sizeMax := by
  obtain ⟨block, body, hb⟩ := exists_headers (ne_of_eq_of_ne h (by simp))
  rw [hb.framing] at h
  unfold blockFraming at h
  split at h
  · exact absurd h (by simp)
  · exact absurd h (by simp)
  · split_ifs at h
    obtain rfl := by simpa using h
    exact Nat.lt_succ_iff.mp (Nat.mod_lt _ (Nat.succ_pos _))

/-- Once the headers are complete, more bytes change nothing about the framing. -/
theorem responseContentLength_append {buf : List UInt8}
    (h : responseContentLength buf ≠ .incomplete) (more : List UInt8) :
    responseContentLength (buf ++ more) = responseContentLength buf := by
  obtain ⟨block, body, hb⟩ := exists_headers h
  rw [hb.framing, (hb.append more).framing]

end NetSimple
