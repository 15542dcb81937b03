import CrossNook.Net.Framing

/-!
# The status line of a response

What `cn_netsimple_parse_status` takes, said on the bytes: the line breaks before the status line,
the version, the blanks and the three status digits. The empty line that ends the header block is
looked for from the start of the buffer and not from the end of the status line, and nothing is
asked of the byte after the third digit.

## Main definitions

* `NetSimple.Scanned buf lead text`: the parts of a buffer that the parser passes over
* `NetSimple.EndsAt buf start k`: the first empty line from `start` on ends at `k`
* `NetSimple.Grammar buf r`: `r` is what the grammar of a status line gives for `buf`

## Main results

* `NetSimple.parseStatus_eq_some_iff`: what the parser takes
* `NetSimple.parseStatus_grammar_iff`: when what it takes is a status line
-/

namespace NetSimple

open Bytes (ascii IsDigit digitValue scan skip Stops)

/-! ## The parts of a status line -/

/-- A byte of a line break. -/
abbrev IsBreak (c : UInt8) : Prop := c = 0x0d ∨ c = 0x0a

/-- The version after `HTTP/`: a digit, a dot and one or two digits. -/
def IsVersion (version : List UInt8) : Prop :=
  ∃ major minor, IsDigit major ∧ version = major :: 0x2e :: minor ∧
    (minor.length = 1 ∨ minor.length = 2) ∧ ∀ c ∈ minor, IsDigit c

/-- A buffer in the parts that the parser passes over: line breaks, `HTTP/`, the version, blanks,
three digits and the text after them. -/
structure Scanned (buf lead version blanks digits text : List UInt8) : Prop where
  split : buf = lead ++ (ascii "HTTP/" ++ (version ++ (blanks ++ (digits ++ text))))
  isBreak : ∀ c ∈ lead, IsBreak c
  isVersion : IsVersion version
  isBlank : ∀ c ∈ blanks, IsBlank c
  ne_nil : blanks ≠ []
  three : digits.length = 3
  isDigit : ∀ c ∈ digits, IsDigit c

theorem digit_not_break {c : UInt8} (h : IsDigit c) : ¬ IsBreak c := by
  rintro (rfl | rfl) <;> exact absurd h (by decide)

theorem blank_not_break {c : UInt8} (h : IsBlank c) : ¬ IsBreak c := by
  rcases h with (rfl | rfl) <;> decide

/-- What `parseVersion` takes. The byte after the version is a blank or a carriage return. -/
theorem parseVersion_eq_some_iff {text rest : List UInt8} :
    parseVersion text = some rest ↔
      ∃ version, IsVersion version ∧ text = version ++ rest ∧
        (rest.head? = some 0x20 ∨ rest.head? = some 0x09 ∨ rest.head? = some 0x0d) := by
  have hdigit : ∀ {c : UInt8} {tail : List UInt8}, IsDigit c →
      ¬ ((c :: tail).head? = some 0x20 ∨ (c :: tail).head? = some 0x09 ∨
        (c :: tail).head? = some 0x0d) := by
    intro c tail hc h
    simp only [List.head?_cons, Option.some.injEq] at h
    rcases h with (rfl | rfl | rfl) <;> exact absurd hc (by decide)
  constructor
  · intro h
    match text, h with
    | major :: dot :: minor :: tail, h =>
      simp only [parseVersion] at h
      by_cases hhead : IsDigit major ∧ dot = 0x2e ∧ IsDigit minor
      · obtain ⟨hmajor, rfl, hminor⟩ := hhead
        rw [if_pos ⟨hmajor, rfl, hminor⟩] at h
        -- the second digit of the minor version, if there is one
        match tail, h with
        | [], h => simp at h
        | c :: tail, h =>
          by_cases hc : IsDigit c
          · simp only [if_pos hc] at h
            split_ifs at h with hend
            obtain rfl : tail = rest := by simpa using h
            refine ⟨[major, 0x2e, minor, c], ⟨major, [minor, c], hmajor, rfl, .inr rfl, ?_⟩, rfl,
              hend⟩
            exact List.forall_mem_cons.mpr ⟨hminor, List.forall_mem_singleton.mpr hc⟩
          · simp only [if_neg hc] at h
            split_ifs at h with hend
            obtain rfl : c :: tail = rest := by simpa using h
            refine ⟨[major, 0x2e, minor], ⟨major, [minor], hmajor, rfl, .inl rfl, ?_⟩, rfl, hend⟩
            exact List.forall_mem_singleton.mpr hminor
      · rw [if_neg hhead] at h
        exact absurd h (by simp)
  · rintro ⟨version, ⟨major, minor, hmajor, rfl, hlen, hminor⟩, rfl, hend⟩
    match minor, hlen, hminor with
    | [m], _, hminor =>
      have hm : IsDigit m := hminor m (by simp)
      cases rest with
      | nil => simp at hend
      | cons c rest =>
        have hc : ¬ IsDigit c := fun hc => hdigit hc hend
        simp only [List.cons_append, List.nil_append, parseVersion]
        rw [if_pos ⟨hmajor, trivial, hm⟩, if_neg hc, if_pos hend]
    | [m, m'], _, hminor =>
      have hm : IsDigit m := hminor m (by simp)
      have hm' : IsDigit m' := hminor m' (by simp)
      simp only [List.cons_append, List.nil_append, parseVersion]
      rw [if_pos ⟨hmajor, trivial, hm⟩, if_pos hm', if_pos hend]

/-- What `parseCode` takes. -/
theorem parseCode_eq_some_iff {text rest : List UInt8} {code : ℕ} :
    parseCode text = some (code, rest) ↔
      ∃ blanks a b c tail, text = blanks ++ a :: b :: c :: tail ∧ (∀ d ∈ blanks, IsBlank d) ∧
        IsDigit a ∧ IsDigit b ∧ IsDigit c ∧
        code = digitValue a * 100 + digitValue b * 10 + digitValue c ∧ rest = skip IsBlank tail := by
  unfold parseCode
  constructor
  · intro h
    have hsplit := Bytes.scan_append_skip (p := IsBlank) text
    generalize skip IsBlank text = digits at h hsplit
    match digits, h with
    | a :: b :: c :: tail, h =>
      by_cases hdigits : IsDigit a ∧ IsDigit b ∧ IsDigit c
      · simp only [if_pos hdigits, Option.some.injEq, Prod.mk.injEq] at h
        exact ⟨scan IsBlank text, a, b, c, tail, hsplit.symm, fun d => Bytes.mem_scan,
          hdigits.1, hdigits.2.1, hdigits.2.2, h.1.symm, h.2.symm⟩
      · simp only [if_neg hdigits] at h
        exact absurd h (by simp)
  · rintro ⟨blanks, a, b, c, tail, rfl, hblanks, ha, hb, hc, rfl, rfl⟩
    have hstops : Stops IsBlank (a :: b :: c :: tail) := by
      rw [Bytes.stops_cons]
      exact fun hblank => digit_not_blank ha (.inl hblank)
    rw [Bytes.skip_append hblanks hstops]
    exact if_pos ⟨ha, hb, hc⟩

/-- The value of the three status digits. -/
def statusValue (digits : List UInt8) : ℕ := Bytes.natOfDigits digits

theorem statusValue_three (a b c : UInt8) :
    statusValue [a, b, c] = digitValue a * 100 + digitValue b * 10 + digitValue c := by
  simp only [statusValue, Bytes.natOfDigits_cons, Bytes.natOfDigits_nil, List.length_cons,
    List.length_nil]
  ring

/-- The text of the status line after the digits, without the blanks before it. -/
def reason (text : List UInt8) : List UInt8 :=
  scan (fun c => c ≠ 0x0d ∧ c ≠ 0x0a) (skip IsBlank text)

/-- **What the parser takes**, and what it reports. -/
theorem parseStatus_eq_some_iff {buf : List UInt8} {r : Response} :
    parseStatus buf = some r ↔
      ∃ lead version blanks digits text, Scanned buf lead version blanks digits text ∧
        r = { status := statusValue digits
              headerBytes := headerBlock buf
              bodyBytes := buf.length - headerBlock buf
              totalBytes := buf.length
              statusText := reason text } := by
  unfold parseStatus
  dsimp only
  constructor
  · -- what is taken has the parts of a status line
    intro h
    have hlead := Bytes.scan_append_skip (p := fun c => c = 0x0d ∨ c = 0x0a) buf
    have hleadBreak : ∀ c ∈ scan (fun c => c = 0x0d ∨ c = 0x0a) buf, IsBreak c :=
      fun c => Bytes.mem_scan
    by_cases hhttp : ascii "HTTP/" <+: skip (fun c => c = 0x0d ∨ c = 0x0a) buf
    · rw [if_neg (not_not.mpr hhttp)] at h
      obtain ⟨rest, hrest⟩ := hhttp
      have hdrop : (skip (fun c => c = 0x0d ∨ c = 0x0a) buf).drop 5 = rest := by
        rw [← hrest]
        exact List.drop_left' rfl
      rw [hdrop] at h
      cases hversion : parseVersion rest with
      | none => simp [hversion] at h
      | some rest' =>
        obtain ⟨version, hisVersion, rfl, hend⟩ := parseVersion_eq_some_iff.mp hversion
        cases hcode : parseCode rest' with
        | none => simp [hversion, hcode] at h
        | some pair =>
          obtain ⟨code, codeText⟩ := pair
          obtain ⟨blanks, a, b, c, text, rfl, hblanks, ha, hb, hc, rfl, rfl⟩ :=
            parseCode_eq_some_iff.mp hcode
          simp only [hversion, hcode, Option.some.injEq] at h
          refine ⟨_, version, blanks, [a, b, c], text, ⟨?_, hleadBreak, hisVersion, hblanks, ?_,
            rfl, ?_⟩, ?_⟩
          · rw [← hrest] at hlead
            exact hlead.symm
          · -- a digit directly after the version would have stopped the parser
            rintro rfl
            simp only [List.nil_append, List.head?_cons, Option.some.injEq] at hend
            rcases hend with (rfl | rfl | rfl) <;> exact absurd ha (by decide)
          · exact List.forall_mem_cons.mpr ⟨ha, List.forall_mem_cons.mpr
              ⟨hb, List.forall_mem_singleton.mpr hc⟩⟩
          · rw [← h, statusValue_three]
            rfl
    · rw [if_pos hhttp] at h
      exact absurd h (by simp)
  · -- and its parts are taken, one parser after the other
    rintro ⟨lead, version, blanks, digits, text, hs, rfl⟩
    have hskip : skip (fun c => c = 0x0d ∨ c = 0x0a) buf =
        ascii "HTTP/" ++ (version ++ (blanks ++ (digits ++ text))) := by
      rw [hs.split]
      refine Bytes.skip_append hs.isBreak ?_
      intro b hb
      obtain rfl : b = 0x48 := (by simpa [ascii] using hb : 0x48 = b).symm
      decide
    have hdrop : (ascii "HTTP/" ++ (version ++ (blanks ++ (digits ++ text)))).drop 5 =
        version ++ (blanks ++ (digits ++ text)) := List.drop_left' rfl
    rw [hskip, if_neg (not_not.mpr (List.prefix_append _ _)), hdrop]
    have hversion : parseVersion (version ++ (blanks ++ (digits ++ text))) =
        some (blanks ++ (digits ++ text)) := by
      refine parseVersion_eq_some_iff.mpr ⟨version, hs.isVersion, rfl, ?_⟩
      obtain ⟨blank, blanks', rfl⟩ := List.exists_cons_of_ne_nil hs.ne_nil
      rcases hs.isBlank blank (by simp) with (rfl | rfl)
      · exact .inl rfl
      · exact .inr (.inl rfl)
    obtain ⟨a, b, c, rfl⟩ := List.length_eq_three.mp hs.three
    have hdigits := hs.isDigit
    have hcode : parseCode (blanks ++ ([a, b, c] ++ text)) =
        some (statusValue [a, b, c], skip IsBlank text) := by
      refine parseCode_eq_some_iff.mpr ⟨blanks, a, b, c, text, rfl, hs.isBlank,
        hdigits a (by simp), hdigits b (by simp), hdigits c (by simp), ?_, rfl⟩
      exact statusValue_three a b c
    simp only [hversion, hcode]
    rfl

/-! ## The parts are the only ones -/

/-- A text is split in one way into bytes of a class and a text that starts outside it. -/
theorem scan_split_unique {p : UInt8 → Prop} [DecidablePred p] {l l' r r' : List UInt8}
    (hl : ∀ c ∈ l, p c) (hr : Stops p r) (hl' : ∀ c ∈ l', p c) (hr' : Stops p r')
    (h : l ++ r = l' ++ r') : l = l' ∧ r = r' := by
  have hscan : l = l' := by
    rw [← Bytes.scan_append hl hr, h, Bytes.scan_append hl' hr']
  subst hscan
  exact ⟨rfl, List.append_cancel_left h⟩

theorem IsVersion.mem {version : List UInt8} (h : IsVersion version) :
    ∀ c ∈ version, IsDigit c ∨ c = 0x2e := by
  obtain ⟨major, minor, hmajor, rfl, -, hminor⟩ := h
  intro c hc
  rcases List.mem_cons.mp hc with (rfl | hc)
  · exact .inl hmajor
  · rcases List.mem_cons.mp hc with (rfl | hc)
    · exact .inr rfl
    · exact .inl (hminor c hc)

namespace Scanned

variable {buf lead version blanks digits text : List UInt8}

/-- The parts of a buffer are the only ones. -/
theorem unique {lead' version' blanks' digits' text' : List UInt8}
    (h : Scanned buf lead version blanks digits text)
    (h' : Scanned buf lead' version' blanks' digits' text') :
    lead = lead' ∧ digits = digits' ∧ text = text' := by
  -- the name of the protocol and a digit stop the scans in front of them
  have hhttp : ∀ rest, Stops IsBreak (ascii "HTTP/" ++ rest) := by
    intro rest b hb
    obtain rfl : b = 0x48 := (by simpa [ascii] using hb : 0x48 = b).symm
    decide
  have hafter : ∀ {version blanks digits text : List UInt8},
      Scanned buf lead version blanks digits text ∨ Scanned buf lead' version blanks digits text →
      Stops (fun c => IsDigit c ∨ c = 0x2e) (blanks ++ (digits ++ text)) ∧
        Stops IsBlank (digits ++ text) := by
    intro version blanks digits text hs
    obtain ⟨hne, hblank, hthree, hdigit⟩ : blanks ≠ [] ∧ (∀ c ∈ blanks, IsBlank c) ∧
        digits.length = 3 ∧ ∀ c ∈ digits, IsDigit c := by
      rcases hs with (hs | hs) <;> exact ⟨hs.ne_nil, hs.isBlank, hs.three, hs.isDigit⟩
    constructor
    · obtain ⟨blank, blanks', rfl⟩ := List.exists_cons_of_ne_nil hne
      rw [List.cons_append, Bytes.stops_cons]
      rcases hblank blank (by simp) with (rfl | rfl) <;> decide
    · obtain ⟨d, ds, rfl⟩ := List.exists_cons_of_ne_nil
        (show digits ≠ [] from fun h0 => by simp [h0] at hthree)
      rw [List.cons_append, Bytes.stops_cons]
      exact fun hd => digit_not_blank (hdigit d (by simp)) (.inl hd)
  obtain ⟨hstops, hstopsBlank⟩ := hafter (.inl h)
  obtain ⟨hstops', hstopsBlank'⟩ := hafter (.inr h')
  -- so the parts are told apart from left to right
  obtain ⟨rfl, hrest⟩ := scan_split_unique h.isBreak (hhttp _) h'.isBreak (hhttp _)
    (h.split.symm.trans h'.split)
  obtain ⟨-, hrest⟩ := scan_split_unique h.isVersion.mem hstops h'.isVersion.mem hstops'
    (List.append_cancel_left hrest)
  obtain ⟨-, hrest⟩ := scan_split_unique h.isBlank hstopsBlank h'.isBlank hstopsBlank' hrest
  obtain ⟨rfl, rfl⟩ := List.append_inj hrest (h.three.trans h'.three.symm)
  exact ⟨rfl, rfl, rfl⟩

end Scanned

/-! ## The empty line after the status line -/

/-- An empty line, with the line break before it, from `j` to `k`: both breaks are `CR LF` or both
are `LF`. -/
def EmptyLine (buf : List UInt8) (j k : ℕ) : Prop :=
  (ascii "\r\n\r\n" <+: buf.drop j ∧ k = j + 4) ∨ (ascii "\n\n" <+: buf.drop j ∧ k = j + 2)

/-- The first empty line from `start` on ends at `k`, or there is none and `k` is the end. -/
def EndsAt (buf : List UInt8) (start k : ℕ) : Prop :=
  (∃ j, start ≤ j ∧ EmptyLine buf j k ∧ ∀ i, start ≤ i → i < j → ∀ l, ¬ EmptyLine buf i l) ∨
    ((∀ i, start ≤ i → ∀ l, ¬ EmptyLine buf i l) ∧ k = buf.length)

/-- A pattern that occurs ends inside the text. -/
theorem add_length_le {pattern buf : List UInt8} {j : ℕ} (hne : pattern ≠ [])
    (h : pattern <+: buf.drop j) : j + pattern.length ≤ buf.length := by
  have hlen := h.length_le
  have hpos := List.length_pos_of_ne_nil hne
  rw [List.length_drop] at hlen
  omega

theorem EmptyLine.le {buf : List UInt8} {j k : ℕ} (h : EmptyLine buf j k) :
    j + 2 ≤ k ∧ k ≤ buf.length := by
  rcases h with (⟨hp, rfl⟩ | ⟨hp, rfl⟩)
  · have hle := add_length_le (by decide) hp
    have : (ascii "\r\n\r\n").length = 4 := rfl
    omega
  · have hle := add_length_le (by decide) hp
    have : (ascii "\n\n").length = 2 := rfl
    omega

theorem EndsAt.start_le {buf : List UInt8} {start k : ℕ} (h : EndsAt buf start k)
    (hstart : start ≤ buf.length) : start ≤ k := by
  rcases h with (⟨j, hj, hline, -⟩ | ⟨-, rfl⟩)
  · have := hline.le
    omega
  · exact hstart

/-- **The search of the parser** finds the first empty line of the whole buffer. -/
theorem endsAt_headerBlock (buf : List UInt8) : EndsAt buf 0 (headerBlock buf) := by
  have hnone : ∀ {pattern : List UInt8}, pattern ≠ [] → indexOf pattern buf = none →
      ∀ i, ¬ pattern <+: buf.drop i := by
    intro pattern hne h i hp
    have hle := add_length_le hne hp
    obtain ⟨j, -, hj⟩ := exists_indexOf_le (by omega) hp
    rw [h] at hj
    exact absurd hj (by simp)
  have hsome : ∀ {pattern : List UInt8} {j : ℕ}, indexOf pattern buf = some j →
      pattern <+: buf.drop j ∧ ∀ i < j, ¬ pattern <+: buf.drop i :=
    fun h => (indexOf_eq_some_iff.mp h).2
  have h4 : (ascii "\r\n\r\n").length = 4 := rfl
  have h2 : (ascii "\n\n").length = 2 := rfl
  unfold headerBlock
  dsimp only
  -- each of the two patterns is found or not; the earlier one ends the block
  cases hcrlf : indexOf (ascii "\r\n\r\n") buf with
  | none =>
    have hcrlf := hnone (by decide) hcrlf
    cases hlf : indexOf (ascii "\n\n") buf with
    | none =>
      have hlf := hnone (by decide) hlf
      refine .inr ⟨fun i _ l h => ?_, by simp⟩
      rcases h with (⟨hp, -⟩ | ⟨hp, -⟩)
      exacts [hcrlf i hp, hlf i hp]
    | some j =>
      obtain ⟨hp, hfirst⟩ := hsome hlf
      have hle := add_length_le (by decide) hp
      rw [Option.getD_none, Option.getD_some, if_neg (by omega), if_neg (by omega),
        min_eq_left (by omega)]
      refine .inl ⟨j, Nat.zero_le _, .inr ⟨hp, rfl⟩, fun i _ hi l h => ?_⟩
      rcases h with (⟨hp, -⟩ | ⟨hp, -⟩)
      exacts [hcrlf i hp, hfirst i hi hp]
  | some j =>
    obtain ⟨hp, hfirst⟩ := hsome hcrlf
    have hle := add_length_le (by decide) hp
    cases hlf : indexOf (ascii "\n\n") buf with
    | none =>
      have hlf := hnone (by decide) hlf
      rw [Option.getD_none, Option.getD_some, if_neg (by omega), if_pos (by omega),
        min_eq_left (by omega)]
      refine .inl ⟨j, Nat.zero_le _, .inl ⟨hp, rfl⟩, fun i _ hi l h => ?_⟩
      rcases h with (⟨hp, -⟩ | ⟨hp, -⟩)
      exacts [hfirst i hi hp, hlf i hp]
    | some j' =>
      obtain ⟨hp', hfirst'⟩ := hsome hlf
      have hle' := add_length_le (by decide) hp'
      rw [Option.getD_some, Option.getD_some, if_neg (by omega)]
      by_cases hjj : j ≤ j'
      · rw [if_pos hjj, min_eq_left (by omega)]
        refine .inl ⟨j, Nat.zero_le _, .inl ⟨hp, rfl⟩, fun i _ hi l h => ?_⟩
        rcases h with (⟨hp, -⟩ | ⟨hp, -⟩)
        exacts [hfirst i hi hp, hfirst' i (by omega) hp]
      · rw [if_neg hjj, min_eq_left (by omega)]
        refine .inl ⟨j', Nat.zero_le _, .inr ⟨hp', rfl⟩, fun i _ hi l h => ?_⟩
        rcases h with (⟨hp, -⟩ | ⟨hp, -⟩)
        exacts [hfirst i (by omega) hp, hfirst' i hi hp]

/-- A pattern of line breaks lies before the first byte that is none. -/
theorem prefix_of_prefix_append {pattern l rest : List UInt8} {c : UInt8}
    (h : pattern <+: l ++ c :: rest) (hc : c ∉ pattern) : pattern <+: l := by
  rcases List.prefix_or_prefix_of_prefix h (List.prefix_append l (c :: rest)) with (hp | ⟨q, rfl⟩)
  · exact hp
  · cases q with
    | nil => simp
    | cons d q =>
      obtain ⟨tail, htail⟩ := h
      rw [List.append_assoc, List.append_cancel_left_eq, List.cons_append] at htail
      obtain rfl : d = c := (List.cons.inj htail).1
      exact absurd (by simp) hc

/-- An empty line that starts among the line breaks of a text ends there. -/
theorem EmptyLine.of_append {lead rest : List UInt8} {c : UInt8} {j k : ℕ}
    (hc : ¬ IsBreak c) (hj : j < lead.length) (h : EmptyLine (lead ++ c :: rest) j k) :
    EmptyLine lead j k := by
  have hmem : ∀ {pattern : List UInt8}, (∀ d ∈ pattern, IsBreak d) →
      pattern <+: (lead ++ c :: rest).drop j → pattern <+: lead.drop j := by
    intro pattern hall hp
    rw [List.drop_append_of_le_length hj.le] at hp
    exact prefix_of_prefix_append hp fun hcmem => hc (hall c hcmem)
  rcases h with (⟨hp, hk⟩ | ⟨hp, hk⟩)
  · exact .inl ⟨hmem (by decide) hp, hk⟩
  · exact .inr ⟨hmem (by decide) hp, hk⟩

theorem EmptyLine.append {lead : List UInt8} {j k : ℕ} (h : EmptyLine lead j k)
    (rest : List UInt8) : EmptyLine (lead ++ rest) j k := by
  have hle := h.le
  have hdrop : (lead ++ rest).drop j = lead.drop j ++ rest :=
    List.drop_append_of_le_length (by omega)
  rcases h with (⟨hp, hk⟩ | ⟨hp, hk⟩)
  · exact .inl ⟨hdrop ▸ hp.trans (List.prefix_append _ _), hk⟩
  · exact .inr ⟨hdrop ▸ hp.trans (List.prefix_append _ _), hk⟩

/-- An empty line starts with a line break. -/
theorem EmptyLine.isBreak {buf : List UInt8} {j k : ℕ} (h : EmptyLine buf j k) :
    ∃ c, (buf.drop j).head? = some c ∧ IsBreak c := by
  rcases h with (⟨⟨rest, hp⟩, -⟩ | ⟨⟨rest, hp⟩, -⟩)
  · exact ⟨0x0d, by rw [← hp]; rfl, .inl rfl⟩
  · exact ⟨0x0a, by rw [← hp]; rfl, .inr rfl⟩

/-! ## When the parser keeps the grammar -/

/-- The end of the status line, of which `text` is what follows the digits. -/
def statusEnd (buf text : List UInt8) : ℕ :=
  buf.length - (skip (fun c => c ≠ 0x0d ∧ c ≠ 0x0a) text).length

/-- A response by the grammar: no further digit follows the three of the status, and the header
block ends with the first empty line after the status line. -/
def Grammar (buf : List UInt8) (r : Response) : Prop :=
  ∃ lead version blanks digits text, Scanned buf lead version blanks digits text ∧
    Stops IsDigit text ∧ r.status = statusValue digits ∧ statusEnd buf text ≤ r.headerBytes ∧
    EndsAt buf (statusEnd buf text) r.headerBytes

namespace Scanned

variable {buf lead version blanks digits text : List UInt8}

/-- The status line of a buffer: no byte of it is a line break. -/
theorem exists_line (h : Scanned buf lead version blanks digits text) :
    ∃ line rest, buf = lead ++ (0x48 :: line ++ rest) ∧ (∀ c ∈ line, ¬ IsBreak c) ∧
      statusEnd buf text = lead.length + (line.length + 1) := by
  refine ⟨ascii "TTP/" ++ (version ++ (blanks ++ (digits ++
    scan (fun c => c ≠ 0x0d ∧ c ≠ 0x0a) text))), skip (fun c => c ≠ 0x0d ∧ c ≠ 0x0a) text,
    ?_, ?_, ?_⟩
  · have htext := Bytes.scan_append_skip (p := fun c => c ≠ 0x0d ∧ c ≠ 0x0a) text
    refine h.split.trans ?_
    simp only [List.append_assoc, List.cons_append, htext]
    rfl
  · intro c hc
    simp only [List.mem_append] at hc
    rcases hc with (hc | hc | hc | hc | hc)
    · revert c
      decide
    · rcases h.isVersion.mem c hc with (hc | rfl)
      · exact digit_not_break hc
      · decide
    · exact blank_not_break (h.isBlank c hc)
    · exact digit_not_break (h.isDigit c hc)
    · have := Bytes.mem_scan hc
      rintro (rfl | rfl) <;> simp at this
  · have hlen := congrArg List.length
      (Bytes.scan_append_skip (p := fun c => c ≠ 0x0d ∧ c ≠ 0x0a) text)
    have hhttp : (ascii "HTTP/").length = 5 := rfl
    have httpTail : (ascii "TTP/").length = 4 := rfl
    have hbuf := congrArg List.length h.split
    rw [statusEnd]
    simp only [List.length_append] at hlen hbuf ⊢
    omega

/-- An empty line before the end of the status line lies among the line breaks before it. -/
theorem emptyLine_lead (h : Scanned buf lead version blanks digits text) {j k : ℕ}
    (hj : j < statusEnd buf text) (hline : EmptyLine buf j k) : EmptyLine lead j k := by
  obtain ⟨line, rest, hbuf, hbreaks, hend⟩ := h.exists_line
  rw [hend] at hj
  rw [hbuf] at hline
  by_cases hlead : j < lead.length
  · exact hline.of_append (by decide) hlead
  · -- the byte at `j` is one of the status line
    obtain ⟨c, hc, hbreak⟩ := hline.isBreak
    obtain ⟨i, rfl⟩ := Nat.exists_eq_add_of_le (not_lt.mp hlead)
    rw [← List.drop_drop, List.drop_left, List.head?_drop,
      List.getElem?_append_left (by rw [List.length_cons]; omega)] at hc
    rcases List.mem_cons.mp (List.mem_of_getElem? hc) with (rfl | hmem)
    · exact absurd hbreak (by decide)
    · exact absurd hbreak (hbreaks c hmem)

theorem statusEnd_le (h : Scanned buf lead version blanks digits text) :
    lead.length < statusEnd buf text ∧ statusEnd buf text ≤ buf.length := by
  obtain ⟨line, rest, -, -, hend⟩ := h.exists_line
  exact ⟨by omega, Nat.sub_le _ _⟩

/-- **The end of the header block** is the one after the status line exactly when there is no empty
line before the status line. -/
theorem endsAt_iff (h : Scanned buf lead version blanks digits text) :
    EndsAt buf (statusEnd buf text) (headerBlock buf) ↔ ∀ j k, ¬ EmptyLine lead j k := by
  have hend := endsAt_headerBlock buf
  have hle := h.statusEnd_le
  constructor
  · intro hafter j k hline
    have hstart := hafter.start_le hle.2
    have hlineBuf : EmptyLine buf j k := by
      rw [h.split]
      exact hline.append _
    have hjk := hline.le
    rcases hend with (⟨i, -, hfirst, hbefore⟩ | ⟨hnone, -⟩)
    · -- the search stops in front of the status line, or even earlier
      have hij : i ≤ j := by
        by_contra hlt
        exact hbefore j (Nat.zero_le _) (by omega) k hlineBuf
      have := (h.emptyLine_lead (by omega) hfirst).le
      omega
    · exact hnone j (Nat.zero_le _) k hlineBuf
  · intro hlead
    have hbefore : ∀ i < statusEnd buf text, ∀ k, ¬ EmptyLine buf i k :=
      fun i hi k hline => hlead i k (h.emptyLine_lead hi hline)
    rcases hend with (⟨j, -, hline, hfirst⟩ | ⟨hnone, hk⟩)
    · refine .inl ⟨j, ?_, hline, fun i _ hi => hfirst i (Nat.zero_le _) hi⟩
      by_contra hlt
      exact hbefore j (by omega) _ hline
    · exact .inr ⟨fun i _ => hnone i (Nat.zero_le _), hk⟩

end Scanned

/-- **When the parser keeps the grammar of a status line**: whenever a buffer passes its scans, no
digit follows the three of the status, and the line breaks before the status line contain no empty
line. -/
theorem parseStatus_grammar_iff (buf : List UInt8) :
    (∀ r, parseStatus buf = some r → Grammar buf r) ↔
      ∀ lead version blanks digits text, Scanned buf lead version blanks digits text →
        Stops IsDigit text ∧ ∀ j k, ¬ EmptyLine lead j k := by
  constructor
  · intro h lead version blanks digits text hs
    obtain ⟨lead', version', blanks', digits', text', hs', hstops, -, -, hend⟩ :=
      h _ (parseStatus_eq_some_iff.mpr ⟨lead, version, blanks, digits, text, hs, rfl⟩)
    obtain ⟨rfl, rfl, rfl⟩ := hs.unique hs'
    exact ⟨hstops, hs.endsAt_iff.mp hend⟩
  · intro h r hr
    obtain ⟨lead, version, blanks, digits, text, hs, rfl⟩ := parseStatus_eq_some_iff.mp hr
    obtain ⟨hstops, hlead⟩ := h lead version blanks digits text hs
    have hend := hs.endsAt_iff.mpr hlead
    exact ⟨lead, version, blanks, digits, text, hs, hstops, rfl,
      hend.start_le hs.statusEnd_le.2, hend⟩

/-- Two line feeds in front of a response: the header block that the parser reports ends before
the status line. -/
theorem blank_lines_shift_body :
    ∃ r, parseStatus (ascii "\n\nHTTP/1.0 200 OK\r\n\r\nbody") = some r ∧ r.headerBytes = 2 ∧
      ¬ Grammar (ascii "\n\nHTTP/1.0 200 OK\r\n\r\nbody") r := by
  refine ⟨_, rfl, by decide +kernel, ?_⟩
  rintro ⟨lead, version, blanks, digits, text, hs, -, -, hle, -⟩
  have hheader : headerBlock (ascii "\n\nHTTP/1.0 200 OK\r\n\r\nbody") = 2 := by decide +kernel
  have hend := hs.statusEnd_le
  have hlead : lead = ascii "\n\n" := by
    have hs' : Scanned (ascii "\n\nHTTP/1.0 200 OK\r\n\r\nbody") (ascii "\n\n") (ascii "1.0")
        (ascii " ") (ascii "200") (ascii " OK\r\n\r\nbody") :=
      ⟨rfl, by decide, ⟨0x31, [0x30], by decide, rfl, .inl rfl, by decide⟩, by decide, by decide,
        rfl, by decide⟩
    exact (hs.unique hs').1
  change statusEnd _ text ≤ headerBlock _ at hle
  rw [hheader] at hle
  rw [hlead] at hend
  have : (ascii "\n\n").length = 2 := rfl
  omega

end NetSimple
