import CrossNook.Text.Words

/-!
# Files of lines

Text files of lines `key=value` that end in a checksum line.

## Main definitions

* `Lines.next data`: the first line and what follows it
* `Lines.take n data`: the first `n` lines
* `Lines.value key line`: the value of a line with the given key
* `Lines.hex8 w`, `Lines.ofHex8 ds`: a word as eight hexadecimal digits and back
* `Lines.sealText lines`: lines with their checksum line

## Main results

* `Lines.take_text`: the lines of a text, each ended by a line feed
* `Lines.ofHex8_hex8`: reading the digits of a word
* `Lines.take_sealText`, `Lines.crc32_sealText`: reading a text that ends in its checksum
-/

namespace Lines

open Bytes

/-! ## Lines -/

/-- The first line of `data`, without the line feed that ends it, and what follows. -/
def next (data : List UInt8) : Option (List UInt8 × List UInt8) :=
  match skip (fun b => b ≠ 0x0a) data with
  | [] => none
  | _ :: rest => some (scan (fun b => b ≠ 0x0a) data, rest)

/-- The first `n` lines and what follows them. -/
def take : ℕ → List UInt8 → Option (List (List UInt8) × List UInt8)
  | 0, data => some ([], data)
  | n + 1, data =>
    match next data with
    | none => none
    | some (line, rest) =>
      match take n rest with
      | none => none
      | some (lines, rest) => some (line :: lines, rest)

/-- Lines as a text. -/
def text (lines : List (List UInt8)) : List UInt8 := lines.flatMap fun line => line ++ [0x0a]

theorem next_append {line : List UInt8} (h : (0x0a : UInt8) ∉ line) (rest : List UInt8) :
    next (line ++ 0x0a :: rest) = some (line, rest) := by
  have hline : ∀ b ∈ line, b ≠ 0x0a := by
    rintro b hb rfl
    exact h hb
  have hstop : Stops (fun b => b ≠ 0x0a) (0x0a :: rest) := by simp
  unfold next
  rw [skip_append hline hstop, scan_append hline hstop]

theorem text_cons (line : List UInt8) (lines : List (List UInt8)) (rest : List UInt8) :
    text (line :: lines) ++ rest = line ++ 0x0a :: (text lines ++ rest) := by
  simp [text]

/-- **The lines of a text.** -/
theorem take_text {lines : List (List UInt8)} (h : ∀ line ∈ lines, (0x0a : UInt8) ∉ line)
    (rest : List UInt8) : take lines.length (text lines ++ rest) = some (lines, rest) := by
  induction lines with
  | nil => rfl
  | cons line lines ih =>
    rw [text_cons, List.length_cons, take, next_append (h line (by simp))]
    dsimp only
    rw [ih fun l hl => h l (by simp [hl])]

/-- The value of a line with the given key. -/
def value (key line : List UInt8) : Option (List UInt8) :=
  if line.take (key.length + 1) = key ++ [0x3d] then some (line.drop (key.length + 1)) else none

/-- The line that `next` reads, back in its place. -/
theorem next_eq_some {data line rest : List UInt8} (h : next data = some (line, rest)) :
    data = line ++ 0x0a :: rest := by
  unfold next at h
  have hsplit := scan_append_skip (p := fun b => b ≠ 0x0a) data
  have hstops := stops_skip (p := fun b => b ≠ 0x0a) data
  cases hs : skip (fun b => b ≠ 0x0a) data with
  | nil =>
    rw [hs] at h
    exact absurd h (by simp)
  | cons b tail =>
    rw [hs] at h hsplit hstops
    obtain ⟨rfl, rfl⟩ := by simpa using h
    obtain rfl : b = 0x0a := by simpa using hstops
    exact hsplit.symm

/-- The lines that `take` reads, back in their places. -/
theorem take_eq_some {n : ℕ} {data rest : List UInt8} {lines : List (List UInt8)}
    (h : take n data = some (lines, rest)) : data = text lines ++ rest := by
  induction n generalizing data lines with
  | zero =>
    obtain ⟨rfl, rfl⟩ := by simpa [take] using h
    rfl
  | succ n ih =>
    rw [take] at h
    cases hnext : next data with
    | none =>
      rw [hnext] at h
      exact absurd h (by simp)
    | some p =>
      obtain ⟨line, tail⟩ := p
      rw [hnext] at h
      dsimp only at h
      cases htake : take n tail with
      | none =>
        rw [htake] at h
        exact absurd h (by simp)
      | some q =>
        obtain ⟨lines', rest'⟩ := q
        rw [htake] at h
        obtain ⟨rfl, rfl⟩ := by simpa using h
        rw [next_eq_some hnext, text_cons, ← ih htake]

theorem next_of_take {n : ℕ} {data line rest : List UInt8} {lines : List (List UInt8)}
    (h : take (n + 1) data = some (line :: lines, rest)) :
    ∃ tail, next data = some (line, tail) := by
  rw [take] at h
  split at h
  · cases h
  rename_i line' tail hnext
  split at h
  · cases h
  obtain ⟨⟨rfl, -⟩, -⟩ := by simpa using h
  exact ⟨tail, hnext⟩

theorem notMem_next {data line rest : List UInt8} (h : next data = some (line, rest)) :
    (0x0a : UInt8) ∉ line := by
  unfold next at h
  split at h
  · cases h
  · obtain ⟨rfl, -⟩ := by simpa using h
    exact fun hm => mem_scan hm rfl

/-- `take` passes as many line feeds as it reads lines. -/
theorem count_of_take {n : ℕ} {data rest : List UInt8} {lines : List (List UInt8)}
    (h : take n data = some (lines, rest)) : data.count 0x0a = n + rest.count 0x0a := by
  induction n generalizing data lines with
  | zero =>
    obtain ⟨-, rfl⟩ := by simpa [take] using h
    exact (Nat.zero_add _).symm
  | succ n ih =>
    rw [take] at h
    split at h
    · cases h
    rename_i line tail hnext
    split at h
    · cases h
    rename_i lines' rest' htake
    obtain ⟨-, rfl⟩ := by simpa using h
    have hline : line.count 0x0a = 0 := List.count_eq_zero.mpr (notMem_next hnext)
    rw [next_eq_some hnext, List.count_append, List.count_cons_self, hline, ih htake]
    omega

theorem getLast?_text {lines : List (List UInt8)} {b : UInt8} (h : b ∈ (text lines).getLast?) :
    b = 0x0a := by
  induction lines using List.reverseRecOn with
  | nil => simp [text] at h
  | append_singleton lines line _ =>
    have : text (lines ++ [line]) = text lines ++ line ++ [0x0a] := by simp [text]
    rw [this, List.getLast?_append] at h
    simpa using h.symm

/-- **No beginning of a text of `n` lines is one.** -/
theorem eq_nil_of_take_append {n : ℕ} {data more : List UInt8} {lines lines' : List (List UInt8)}
    (h : take n data = some (lines, [])) (h' : take n (data ++ more) = some (lines', [])) :
    more = [] := by
  have hcount := count_of_take h
  have hcount' := count_of_take h'
  rw [List.count_append] at hcount'
  have hnone : (0x0a : UInt8) ∉ more := List.count_eq_zero.mp (by omega)
  by_contra hmore
  -- the last byte of the longer text is a line feed
  have hlast : more.getLast hmore ∈ (text lines').getLast? := by
    rw [← List.append_nil (text lines'), ← take_eq_some h', List.getLast?_append,
      List.getLast?_eq_some_getLast hmore]
    rfl
  have hmem := List.getLast_mem hmore
  rw [getLast?_text hlast] at hmem
  exact hnone hmem

/-- A line. -/
def pair (key v : List UInt8) : List UInt8 := key ++ [0x3d] ++ v

theorem value_pair (key v : List UInt8) : value key (pair key v) = some v := by
  have hlen : (key ++ [0x3d]).length = key.length + 1 := by simp
  unfold value pair
  rw [List.take_left' hlen, if_pos rfl, List.drop_left' hlen]

theorem eq_pair_of_value {key line v : List UInt8} (h : value key line = some v) :
    line = pair key v := by
  unfold value at h
  split_ifs at h with hkey
  obtain rfl := by simpa using h
  rw [pair, ← hkey, List.take_append_drop]

/-! ## Checksums -/

/-- A hexadecimal digit. -/
def hexDigit (n : UInt32) : UInt8 :=
  if n < 10 then 0x30 + n.toUInt8 else 0x61 + (n.toUInt8 - 10)

/-- The value of a hexadecimal digit in lower case. -/
def hexValue (c : UInt8) : Option UInt32 :=
  if 0x30 ≤ c ∧ c ≤ 0x39 then some (c - 0x30).toUInt32
  else if 0x61 ≤ c ∧ c ≤ 0x66 then some ((c - 0x61).toUInt32 + 10)
  else none

/-- The eight digits of a word. -/
def hex8 (w : UInt32) : List UInt8 :=
  [hexDigit (w >>> 28 &&& 15), hexDigit (w >>> 24 &&& 15), hexDigit (w >>> 20 &&& 15),
    hexDigit (w >>> 16 &&& 15), hexDigit (w >>> 12 &&& 15), hexDigit (w >>> 8 &&& 15),
    hexDigit (w >>> 4 &&& 15), hexDigit (w &&& 15)]

/-- The word that a string of digits denotes, accumulated as `w`. -/
def ofHexFrom (w : UInt32) : List UInt8 → Option UInt32
  | [] => some w
  | c :: ds =>
    match hexValue c with
    | none => none
    | some digit => ofHexFrom (w <<< 4 ||| digit) ds

/-- The word that eight digits denote. -/
def ofHex8 (ds : List UInt8) : Option UInt32 := if ds.length ≠ 8 then none else ofHexFrom 0 ds

@[simp] theorem length_hex8 (w : UInt32) : (hex8 w).length = 8 := rfl

theorem hexValue_hexDigit {n : UInt32} (h : n.toNat < 16) : hexValue (hexDigit n) = some n := by
  have : ∀ i < 16, hexValue (hexDigit (UInt32.ofNat i)) = some (UInt32.ofNat i) := by decide
  simpa using this n.toNat h

theorem hexDigit_ne {n : UInt32} (h : n.toNat < 16) : 0x20 ≤ hexDigit n := by
  have : ∀ i < 16, 0x20 ≤ hexDigit (UInt32.ofNat i) := by decide
  simpa using this n.toNat h

theorem toNat_and_15 (x : UInt32) : (x &&& 15).toNat < 16 := by
  rw [UInt32.toNat_and]
  exact Nat.lt_of_le_of_lt Nat.and_le_right (by decide)

/-- One more digit below the digits already read. -/
theorem shift_or (x : UInt32) : (x >>> 4) <<< 4 ||| (x &&& 15) = x := by
  apply UInt32.toNat_inj.mp
  have h : x.toNat < 4294967296 := x.toNat_lt
  simp only [UInt32.toNat_or, UInt32.toNat_shiftLeft, UInt32.toNat_shiftRight, UInt32.toNat_and,
    Nat.shiftLeft_eq, Nat.shiftRight_eq_div_pow, UInt32.toNat_ofNat, Nat.reduceMod, Nat.reducePow]
  rw [show (15 : ℕ) = 2 ^ 4 - 1 from rfl, Nat.and_two_pow_sub_one_eq_mod,
    Nat.mod_eq_of_lt (show x.toNat / 16 * 16 < 4294967296 by omega),
    lor_byte 4 (k := 16) rfl (Nat.mod_lt _ (by decide))]
  omega

theorem shift_shift (w : UInt32) {j k : UInt32} (hk : k.toNat + 4 < 32)
    (hj : j.toNat = k.toNat + 4) : w >>> j = (w >>> k) >>> 4 := by
  apply UInt32.toNat_inj.mp
  simp only [UInt32.toNat_shiftRight, UInt32.toNat_ofNat, hj]
  rw [Nat.mod_eq_of_lt hk, Nat.mod_eq_of_lt (show k.toNat < 32 by omega), Nat.shiftRight_add]

theorem ofHexFrom_cons {n : UInt32} (h : n.toNat < 16) (w : UInt32) (ds : List UInt8) :
    ofHexFrom w (hexDigit n :: ds) = ofHexFrom (w <<< 4 ||| n) ds := by
  rw [ofHexFrom, hexValue_hexDigit h]

/-- **Reading the digits of a word.** -/
theorem ofHex8_hex8 (w : UInt32) : ofHex8 (hex8 w) = some w := by
  have hstep : ∀ (j k : UInt32), k.toNat + 4 < 32 → j.toNat = k.toNat + 4 →
      (w >>> j) <<< (4 : UInt32) ||| (w >>> k &&& (15 : UInt32)) = w >>> k := by
    intro j k hk hj
    rw [shift_shift w hk hj, shift_or]
  have htop : (0 : UInt32) <<< (4 : UInt32) ||| (w >>> (28 : UInt32) &&& (15 : UInt32)) =
      w >>> (28 : UInt32) := by
    have h : w.toNat < 4294967296 := w.toNat_lt
    apply UInt32.toNat_inj.mp
    simp only [UInt32.toNat_or, UInt32.toNat_shiftLeft, UInt32.toNat_shiftRight,
      UInt32.toNat_and, Nat.shiftRight_eq_div_pow, UInt32.toNat_ofNat, Nat.reduceMod,
      Nat.reducePow]
    rw [show (15 : ℕ) = 2 ^ 4 - 1 from rfl, Nat.and_two_pow_sub_one_eq_mod]
    simp
    omega
  unfold ofHex8
  rw [if_neg (by simp)]
  unfold hex8
  rw [ofHexFrom_cons (toNat_and_15 _), htop, ofHexFrom_cons (toNat_and_15 _),
    hstep 28 24 (by decide) rfl, ofHexFrom_cons (toNat_and_15 _), hstep 24 20 (by decide) rfl,
    ofHexFrom_cons (toNat_and_15 _), hstep 20 16 (by decide) rfl,
    ofHexFrom_cons (toNat_and_15 _), hstep 16 12 (by decide) rfl,
    ofHexFrom_cons (toNat_and_15 _), hstep 12 8 (by decide) rfl,
    ofHexFrom_cons (toNat_and_15 _), hstep 8 4 (by decide) rfl,
    ofHexFrom_cons (toNat_and_15 _), shift_or, ofHexFrom]

theorem hexDigit_hexValue {c : UInt8} {n : UInt32} (h : hexValue c = some n) :
    n.toNat < 16 ∧ hexDigit n = c := by
  have hall : ∀ i < 256, (hexValue (UInt8.ofNat i)).all
      (fun n => n.toNat < 16 ∧ hexDigit n = UInt8.ofNat i) = true := by decide +kernel
  have hc := hall c.toNat c.toNat_lt
  rw [UInt8.ofNat_toNat, h] at hc
  simpa using hc

/-- Reading one more digit appends it to the number. -/
theorem toNat_shift_or {w n : UInt32} (hw : w.toNat < 2 ^ 28) (hn : n.toNat < 16) :
    (w <<< 4 ||| n).toNat = w.toNat * 16 + n.toNat := by
  simp only [UInt32.toNat_or, UInt32.toNat_shiftLeft, UInt32.toNat_ofNat, Nat.shiftLeft_eq,
    Nat.reduceMod, Nat.reducePow]
  rw [Nat.mod_eq_of_lt (by omega), lor_byte 4 (k := 16) rfl hn]

theorem exists_digit {w r : UInt32} {c : UInt8} {ds : List UInt8}
    (h : ofHexFrom w (c :: ds) = some r) (hw : w.toNat < 2 ^ 28) :
    ∃ n w' : UInt32, n.toNat < 16 ∧ hexDigit n = c ∧ w'.toNat = w.toNat * 16 + n.toNat ∧
      ofHexFrom w' ds = some r := by
  rw [ofHexFrom] at h
  cases hn : hexValue c with
  | none =>
    rw [hn] at h
    exact absurd h (by simp)
  | some n =>
    rw [hn] at h
    obtain ⟨hlt, hdigit⟩ := hexDigit_hexValue hn
    exact ⟨n, w <<< 4 ||| n, hlt, hdigit, toNat_shift_or hw hlt, h⟩

theorem hexDigit_shift {w n k : UInt32} (hk : k.toNat < 32)
    (h : w.toNat / 2 ^ k.toNat % 16 = n.toNat) : hexDigit (w >>> k &&& 15) = hexDigit n := by
  congr 1
  apply UInt32.toNat_inj.mp
  rw [← h, UInt32.toNat_and, UInt32.toNat_shiftRight, Nat.mod_eq_of_lt hk,
    Nat.shiftRight_eq_div_pow]
  exact Nat.and_two_pow_sub_one_eq_mod _ 4

/-- The digits that a word was read from are its own. -/
theorem hex8_ofHex8 {ds : List UInt8} {w : UInt32} (h : ofHex8 ds = some w) : hex8 w = ds := by
  unfold ofHex8 at h
  split_ifs at h with hlen
  match ds, not_not.mp hlen with
  | [c₀, c₁, c₂, c₃, c₄, c₅, c₆, c₇], _ =>
    have h0 : (0 : UInt32).toNat = 0 := rfl
    obtain ⟨n₀, w₀, hn₀, rfl, hw₀, h⟩ := exists_digit h (by decide)
    obtain ⟨n₁, w₁, hn₁, rfl, hw₁, h⟩ := exists_digit h (by omega)
    obtain ⟨n₂, w₂, hn₂, rfl, hw₂, h⟩ := exists_digit h (by omega)
    obtain ⟨n₃, w₃, hn₃, rfl, hw₃, h⟩ := exists_digit h (by omega)
    obtain ⟨n₄, w₄, hn₄, rfl, hw₄, h⟩ := exists_digit h (by omega)
    obtain ⟨n₅, w₅, hn₅, rfl, hw₅, h⟩ := exists_digit h (by omega)
    obtain ⟨n₆, w₆, hn₆, rfl, hw₆, h⟩ := exists_digit h (by omega)
    obtain ⟨n₇, w₇, hn₇, rfl, hw₇, h⟩ := exists_digit h (by omega)
    obtain rfl : w₇ = w := by simpa [ofHexFrom] using h
    -- the number is the sum of its digits, from which each of them is read off
    have h7 : hexDigit (w₇ >>> 28 &&& 15) = hexDigit n₀ :=
      hexDigit_shift (by decide) (show w₇.toNat / 2 ^ 28 % 16 = _ by omega)
    have h6 : hexDigit (w₇ >>> 24 &&& 15) = hexDigit n₁ :=
      hexDigit_shift (by decide) (show w₇.toNat / 2 ^ 24 % 16 = _ by omega)
    have h5 : hexDigit (w₇ >>> 20 &&& 15) = hexDigit n₂ :=
      hexDigit_shift (by decide) (show w₇.toNat / 2 ^ 20 % 16 = _ by omega)
    have h4 : hexDigit (w₇ >>> 16 &&& 15) = hexDigit n₃ :=
      hexDigit_shift (by decide) (show w₇.toNat / 2 ^ 16 % 16 = _ by omega)
    have h3 : hexDigit (w₇ >>> 12 &&& 15) = hexDigit n₄ :=
      hexDigit_shift (by decide) (show w₇.toNat / 2 ^ 12 % 16 = _ by omega)
    have h2 : hexDigit (w₇ >>> 8 &&& 15) = hexDigit n₅ :=
      hexDigit_shift (by decide) (show w₇.toNat / 2 ^ 8 % 16 = _ by omega)
    have h1 : hexDigit (w₇ >>> 4 &&& 15) = hexDigit n₆ :=
      hexDigit_shift (by decide) (show w₇.toNat / 2 ^ 4 % 16 = _ by omega)
    have hzero : w₇ >>> 0 = w₇ := by simp
    have h0' : hexDigit (w₇ >>> 0 &&& 15) = hexDigit n₇ :=
      hexDigit_shift (by decide) (show w₇.toNat / 2 ^ 0 % 16 = _ by omega)
    rw [hzero] at h0'
    rw [hex8, h7, h6, h5, h4, h3, h2, h1, h0']

theorem hex8_ge (w : UInt32) : ∀ c ∈ hex8 w, 0x20 ≤ c := by
  intro c hc
  simp only [hex8, List.mem_cons, List.not_mem_nil, or_false] at hc
  rcases hc with rfl | rfl | rfl | rfl | rfl | rfl | rfl | rfl <;>
    exact hexDigit_ne (toNat_and_15 _)

/-! ## Sealed texts -/

/-- The checksum line of a text. -/
def crcLine (body : List UInt8) : List UInt8 := pair (ascii "crc32") (hex8 (crc32 body))

/-- Lines as a text, with the checksum line after them. -/
def sealText (lines : List (List UInt8)) : List UInt8 :=
  text (lines ++ [crcLine (text lines)])

theorem value_crcLine (body : List UInt8) :
    (value (ascii "crc32") (crcLine body)).bind ofHex8 = some (crc32 body) := by
  rw [crcLine, value_pair, Option.bind_some, ofHex8_hex8]

theorem length_crcLine (body : List UInt8) : (crcLine body).length = 14 := by
  have : (ascii "crc32").length = 5 := rfl
  simp [crcLine, pair, this]

theorem sealText_eq (lines : List (List UInt8)) :
    sealText lines = text lines ++ (crcLine (text lines) ++ [0x0a]) := by
  simp [sealText, text]

theorem length_sealText (lines : List (List UInt8)) :
    (sealText lines).length = (text lines).length + 15 := by
  rw [sealText_eq]
  simp [length_crcLine]

/-- The checksum is that of the text before its line. -/
theorem crc32_sealText (lines : List (List UInt8)) :
    crc32 ((sealText lines).take ((sealText lines).length - ((crcLine (text lines)).length + 1))) =
      crc32 (text lines) := by
  rw [length_sealText, length_crcLine, sealText_eq, Nat.add_sub_cancel, List.take_left' rfl]

/-- A text whose last line is its checksum is sealed. -/
theorem eq_sealText {data digits : List UInt8} {lines : List (List UInt8)}
    (hdata : data = text (lines ++ [pair (ascii "crc32") digits]))
    (h : ofHex8 digits = some (crc32
      (data.take (data.length - ((pair (ascii "crc32") digits).length + 1))))) :
    data = sealText lines := by
  have hsplit : data = text lines ++ (pair (ascii "crc32") digits ++ [0x0a]) := by
    rw [hdata]
    simp [text]
  have hlen : data.length - ((pair (ascii "crc32") digits).length + 1) = (text lines).length := by
    rw [hsplit]
    simp only [List.length_append, List.length_singleton]
    omega
  have htake : data.take (text lines).length = text lines := by
    rw [hsplit, List.take_left' rfl]
  rw [hlen, htake] at h
  rw [sealText_eq, crcLine, hex8_ofHex8 h, hsplit]

section Printable

variable {lines : List (List UInt8)}

/-- A line without control characters. -/
abbrev Printable (line : List UInt8) : Prop := ∀ b ∈ line, 0x20 ≤ b

theorem Printable.notMem {line : List UInt8} (h : Printable line) {c : UInt8} (hc : c < 0x20) :
    c ∉ line := by
  intro hm
  have := h c hm
  grind

theorem printable_pair {key v : List UInt8} (hk : Printable key) (hv : Printable v) :
    Printable (pair key v) := by
  intro b hb
  simp only [pair, List.mem_append, List.mem_singleton] at hb
  rcases hb with (hb | rfl) | hb
  exacts [hk b hb, by decide, hv b hb]

theorem printable_crcLine (body : List UInt8) : Printable (crcLine body) :=
  printable_pair (Bytes.forall_of_all rfl) (hex8_ge _)

theorem printable_of_mem (h : ∀ line ∈ lines, Printable line) :
    ∀ line ∈ lines ++ [crcLine (text lines)], Printable line := by
  intro line hl
  rcases List.mem_append.mp hl with hl | hl
  · exact h line hl
  · obtain rfl : line = crcLine (text lines) := by simpa using hl
    exact printable_crcLine _

/-- **The lines of a sealed text.** -/
theorem take_sealText (h : ∀ line ∈ lines, Printable line) :
    take (lines.length + 1) (sealText lines) = some (lines ++ [crcLine (text lines)], []) := by
  have hlf : ∀ line ∈ lines ++ [crcLine (text lines)], (0x0a : UInt8) ∉ line :=
    fun line hl => (printable_of_mem h line hl).notMem (by decide)
  have := take_text hlf []
  rwa [List.append_nil, List.length_append, List.length_singleton] at this

theorem zero_notMem_sealText (h : ∀ line ∈ lines, Printable line) :
    (0 : UInt8) ∉ sealText lines := by
  simp only [sealText, text, List.mem_flatMap, List.mem_append, List.mem_singleton, not_exists,
    not_and, not_or]
  refine fun line hl => ⟨(printable_of_mem h line ?_).notMem (by decide), by decide⟩
  simpa [text] using hl

end Printable

end Lines
