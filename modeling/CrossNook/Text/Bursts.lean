import CrossNook.Text.Lines

/-!
# Burst errors

A CRC-32 detects every change that is confined to four consecutive bytes: the division by the
generator is linear, and a remainder that is small after eight steps was that remainder shifted up
before them. A file that ends in the checksum of what stands before it therefore never turns into
another such file when it is changed in this way before the checksum.

## Main definitions

* `Bytes.Burst size rest data altered`: a change of at most `size` consecutive bytes before the
  last `rest` bytes
* `Bytes.Checksum`: how a file ends in its checksum
* `Bytes.Checksum.Seals sum data`: a file that ends in its checksum

## Main results

* `Bytes.crc32_burst`: a burst of four bytes changes the checksum
* `Bytes.Checksum.not_seals_of_burst`: a burst of four bytes before the checksum breaks the seal
-/

namespace Bytes

/-! ## The division -/

section Division

variable {x y s t : UInt32}

theorem and_one_cases (x : UInt32) : x &&& 1 = 0 ∨ x &&& 1 = 1 := by
  have hand : (x &&& 1).toNat = x.toNat % 2 := by
    rw [UInt32.toNat_and]
    exact Nat.and_one_is_mod _
  rcases Nat.mod_two_eq_zero_or_one x.toNat with h | h
  · exact .inl (UInt32.toNat_inj.mp (hand.trans h))
  · exact .inr (UInt32.toNat_inj.mp (hand.trans h))

/-- One step of the division, by the lowest bit. -/
theorem crc32Bit_of_even (h : x &&& 1 = 0) : crc32Bit x = x >>> 1 := by
  rw [crc32Bit, h]
  simp

theorem crc32Bit_of_odd (h : x &&& 1 = 1) : crc32Bit x = (x >>> 1) ^^^ 0xedb88320 := by
  rw [crc32Bit, h]
  rfl

/-- **The division is linear.** -/
theorem crc32Bit_xor (x y : UInt32) : crc32Bit (x ^^^ y) = crc32Bit x ^^^ crc32Bit y := by
  have hand : (x ^^^ y) &&& 1 = (x &&& 1) ^^^ (y &&& 1) := by
    apply UInt32.toNat_inj.mp
    simp only [UInt32.toNat_and, UInt32.toNat_xor]
    exact Nat.and_xor_distrib_right
  have hshift : (x ^^^ y) >>> 1 = (x >>> 1) ^^^ (y >>> 1) := UInt32.shiftRight_xor
  rcases and_one_cases x with hx | hx <;> rcases and_one_cases y with hy | hy <;>
    rw [hx, hy] at hand
  · rw [crc32Bit_of_even hx, crc32Bit_of_even hy, crc32Bit_of_even hand, hshift]
  · rw [crc32Bit_of_even hx, crc32Bit_of_odd hy, crc32Bit_of_odd hand, hshift, UInt32.xor_assoc]
  · rw [crc32Bit_of_odd hx, crc32Bit_of_even hy, crc32Bit_of_odd hand, hshift, UInt32.xor_assoc,
      UInt32.xor_assoc, UInt32.xor_comm (y >>> 1)]
  · -- the generator was taken away twice
    rw [crc32Bit_of_odd hx, crc32Bit_of_odd hy, crc32Bit_of_even hand, hshift, UInt32.xor_assoc,
      UInt32.xor_comm (y >>> 1), ← UInt32.xor_assoc 0xedb88320, UInt32.xor_self, UInt32.zero_xor]

/-- A remainder without the highest bit was shifted down. -/
theorem crc32Bit_small (h : (crc32Bit x).toNat < 2 ^ 31) : x.toNat = 2 * (crc32Bit x).toNat := by
  have hand : (x &&& 1).toNat = x.toNat % 2 := by
    rw [UInt32.toNat_and]
    exact Nat.and_one_is_mod _
  have hshift : (x >>> 1).toNat = x.toNat / 2 := by
    rw [UInt32.toNat_shiftRight, Nat.shiftRight_eq_div_pow]
    rfl
  rcases and_one_cases x with hx | hx
  · rw [hx] at hand
    rw [crc32Bit_of_even hx, hshift]
    have heven : 0 = x.toNat % 2 := hand
    omega
  · -- the generator sets the highest bit
    exfalso
    rw [crc32Bit_of_odd hx, UInt32.toNat_xor, hshift] at h
    have hlt := x.toNat_lt
    have hbit : (x.toNat / 2 ^^^ 0xedb88320).testBit 31 = true := by
      rw [Nat.testBit_xor, Nat.testBit_lt_two_pow (show x.toNat / 2 < 2 ^ 31 by omega)]
      rfl
    have hge := Nat.ge_two_pow_of_testBit hbit
    exact absurd h (Nat.not_lt.mpr hge)

theorem iterate_crc32Bit_small {n : ℕ} (hn : n ≤ 32) (h : (crc32Bit^[n] x).toNat < 2 ^ (32 - n)) :
    x.toNat = 2 ^ n * (crc32Bit^[n] x).toNat := by
  induction n generalizing x with
  | zero => simp
  | succ n ih =>
    rw [Function.iterate_succ_apply] at h ⊢
    have hpow : 2 ^ (32 - n) = 2 * 2 ^ (32 - (n + 1)) := by
      rw [show 32 - n = 32 - (n + 1) + 1 by omega, Nat.pow_succ']
    have hstep := ih (x := crc32Bit x) (by omega) (by omega)
    have hlt : 2 ^ n * (crc32Bit^[n] (crc32Bit x)).toNat < 2 ^ n * 2 ^ (32 - (n + 1)) :=
      Nat.mul_lt_mul_of_pos_left h (Nat.two_pow_pos n)
    rw [← Nat.pow_add, show n + (32 - (n + 1)) = 31 by omega, ← hstep] at hlt
    rw [crc32Bit_small hlt, hstep, Nat.pow_succ']
    ring

theorem iterate_crc32Bit_xor (n : ℕ) (x y : UInt32) :
    crc32Bit^[n] (x ^^^ y) = crc32Bit^[n] x ^^^ crc32Bit^[n] y := by
  induction n generalizing x y with
  | zero => rfl
  | succ n ih => rw [Function.iterate_succ_apply, crc32Bit_xor, ih]; rfl

end Division

/-! ## The remainder of a text -/

section Remainder

variable {s t : UInt32} {b c : UInt8} {window window' : List UInt8}

/-- The bytes in which two texts differ. -/
abbrev difference (window window' : List UInt8) : List UInt8 := List.zipWith (· ^^^ ·) window window'

theorem crc32Byte_xor (s t : UInt32) (b c : UInt8) :
    crc32Byte (s ^^^ t) (b ^^^ c) = crc32Byte s b ^^^ crc32Byte t c := by
  have hsum : s ^^^ t ^^^ (b ^^^ c).toUInt32 = (s ^^^ b.toUInt32) ^^^ (t ^^^ c.toUInt32) := by
    rw [UInt8.toUInt32_xor]
    ac_rfl
  rw [crc32Byte, hsum, iterate_crc32Bit_xor]
  rfl

/-- The remainder before a byte, from a small one after it. -/
theorem crc32Byte_small (h : (crc32Byte s b).toNat < 2 ^ 24) :
    (s ^^^ b.toUInt32).toNat = 256 * (crc32Byte s b).toNat :=
  iterate_crc32Bit_small (by omega) h

theorem crc32Byte_injective (b : UInt8) : Function.Injective fun s => crc32Byte s b := by
  intro s t h
  have hzero : crc32Byte (s ^^^ t) 0 = 0 := by
    have hxor := crc32Byte_xor s t b b
    rw [UInt8.xor_self] at hxor
    rw [hxor]
    exact UInt32.xor_eq_zero_iff.mpr h
  have hsmall := crc32Byte_small (s := s ^^^ t) (b := 0) (by rw [hzero]; decide)
  rw [hzero] at hsmall
  exact UInt32.xor_eq_zero_iff.mp (UInt32.toNat_inj.mp (by simpa using hsmall))

theorem foldl_injective (text : List UInt8) :
    Function.Injective fun s => text.foldl crc32Byte s := by
  induction text with
  | nil => exact fun _ _ h => h
  | cons b text ih => exact fun s t h => crc32Byte_injective b (ih h)

theorem foldl_xor (h : window'.length = window.length) (s t : UInt32) :
    (difference window window').foldl crc32Byte (s ^^^ t) =
      window.foldl crc32Byte s ^^^ window'.foldl crc32Byte t := by
  induction window generalizing window' s t with
  | nil =>
    obtain rfl := List.length_eq_zero_iff.mp h
    rfl
  | cons b window ih =>
    obtain ⟨c, window', rfl⟩ := List.exists_cons_of_length_eq_add_one h
    rw [difference, List.zipWith_cons_cons, List.foldl_cons, crc32Byte_xor]
    exact ih (Nat.succ.inj h) _ _

/-- **Four bytes that leave no remainder.** Going back from the remainder zero, the remainder
before the last `n` bytes has at most `n` bytes; so where it was zero too, these bytes are. -/
theorem eq_zero_of_foldl_eq_zero (hsize : window.length ≤ 4)
    (h : window.foldl crc32Byte s = 0) :
    s.toNat < 256 ^ window.length ∧ (s = 0 → ∀ b ∈ window, b = 0) := by
  induction window generalizing s with
  | nil =>
    obtain rfl : s = 0 := h
    exact ⟨by decide, fun _ _ hb => absurd hb List.not_mem_nil⟩
  | cons b window ih =>
    rw [List.length_cons] at hsize ⊢
    -- the remainder after this byte is as small as the bytes behind it admit
    obtain ⟨hlt, hzero⟩ := ih (by omega) h
    have hpow : 256 ^ window.length ≤ 256 ^ 3 := Nat.pow_le_pow_right (by omega) (by omega)
    have hback := crc32Byte_small (s := s) (b := b) (Nat.lt_of_lt_of_le hlt hpow)
    have hb : b.toUInt32.toNat = b.toNat := UInt8.toNat_toUInt32 b
    have hb' := b.toNat_lt
    constructor
    · -- the remainder is the one before the byte with the byte added
      have hs : s = (s ^^^ b.toUInt32) ^^^ b.toUInt32 := by
        rw [UInt32.xor_assoc, UInt32.xor_self, UInt32.xor_zero]
      have hbound : 256 * (crc32Byte s b).toNat < 256 ^ (window.length + 1) := by
        rw [Nat.pow_succ']
        omega
      have hone : 256 ≤ 256 ^ (window.length + 1) := Nat.le_self_pow (by omega) 256
      have htwo : 256 ^ (window.length + 1) = 2 ^ (8 * (window.length + 1)) := by
        rw [show (256 : ℕ) = 2 ^ 8 from rfl, ← Nat.pow_mul]
      rw [hs, UInt32.toNat_xor, hback, hb, htwo]
      rw [htwo] at hbound hone
      exact Nat.xor_lt_two_pow hbound (by omega)
    · rintro rfl
      rw [UInt32.zero_xor, hb] at hback
      have hbyte : b = 0 := by
        apply UInt8.toNat_inj.mp
        have h0 : (0 : UInt8).toNat = 0 := rfl
        omega
      have hnext : crc32Byte 0 b = 0 := by
        apply UInt32.toNat_inj.mp
        have h0 : (0 : UInt32).toNat = 0 := rfl
        omega
      exact List.forall_mem_cons.mpr ⟨hbyte, hzero hnext⟩

theorem eq_of_difference_eq_zero (hlen : window'.length = window.length)
    (h : ∀ b ∈ difference window window', b = 0) : window' = window := by
  induction window generalizing window' with
  | nil => exact List.length_eq_zero_iff.mp hlen
  | cons b window ih =>
    obtain ⟨c, window', rfl⟩ := List.exists_cons_of_length_eq_add_one hlen
    rw [difference, List.zipWith_cons_cons, List.forall_mem_cons] at h
    rw [ih (Nat.succ.inj hlen) h.2, UInt8.xor_eq_zero_iff.mp h.1]

end Remainder

/-! ## Bursts -/

/-- A change of at most `size` consecutive bytes before the last `rest` bytes. -/
inductive Burst (size rest : ℕ) : List UInt8 → List UInt8 → Prop
  | intro (before : List UInt8) {window window' : List UInt8} {after : List UInt8}
    (hlen : window'.length = window.length) (hsize : window.length ≤ size)
    (hne : window' ≠ window) (hrest : rest ≤ after.length) :
    Burst size rest (before ++ window ++ after) (before ++ window' ++ after)

section Burst

variable {size rest : ℕ} {data altered : List UInt8}

theorem Burst.ne (h : Burst size rest data altered) : altered ≠ data := by
  obtain ⟨before, hlen, hsize, hne, hrest⟩ := h
  intro he
  exact hne (List.append_cancel_left (List.append_cancel_right he))

theorem Burst.length_eq (h : Burst size rest data altered) : altered.length = data.length := by
  obtain ⟨before, hlen, hsize, hne, hrest⟩ := h
  simp only [List.length_append, hlen]

/-- The bytes after a burst are the same. -/
theorem Burst.drop_eq (h : Burst size rest data altered) :
    altered.drop (altered.length - rest) = data.drop (data.length - rest) := by
  obtain ⟨before, hlen, hsize, hne, hrest⟩ := h
  rename_i window window' after
  have hdrop : ∀ head : List UInt8, (head ++ after).drop ((head ++ after).length - rest) =
      after.drop (after.length - rest) := by
    intro head
    rw [List.length_append, Nat.add_sub_assoc hrest, List.drop_length_add_append]
  rw [hdrop, hdrop]

/-- What a burst does to the beginning of a text. -/
theorem Burst.take (h : Burst size rest data altered) (n : ℕ) :
    altered.take n = data.take n ∨ Burst size 0 (data.take n) (altered.take n) := by
  obtain ⟨before, hlen, hsize, hne, hrest⟩ := h
  rename_i window window' after
  simp only [List.take_append, List.length_append, hlen]
  by_cases he : window'.take (n - before.length) = window.take (n - before.length)
  · rw [he]
    exact .inl rfl
  · refine .inr (.intro _ ?_ ?_ he (Nat.zero_le _))
    · rw [List.length_take, List.length_take, hlen]
    · rw [List.length_take]
      omega

/-- **A burst of four bytes changes the checksum.** -/
theorem crc32_burst (h : Burst 4 rest data altered) : crc32 altered ≠ crc32 data := by
  obtain ⟨before, hlen, hsize, hne, hrest⟩ := h
  rename_i window window' after
  intro he
  have hstate := UInt32.not_inj.mp he
  simp only [List.foldl_append] at hstate
  generalize before.foldl crc32Byte 0xffffffff = s at hstate
  have hwindow : window'.foldl crc32Byte s = window.foldl crc32Byte s :=
    foldl_injective after hstate
  have hxor := foldl_xor hlen s s
  rw [hwindow, UInt32.xor_self, UInt32.xor_self] at hxor
  have hlength : (difference window window').length ≤ 4 := by
    rw [List.length_zipWith]
    omega
  exact hne (eq_of_difference_eq_zero hlen ((eq_zero_of_foldl_eq_zero hlength hxor).2 rfl))

end Burst

/-! ## Seals -/

/-- How a file ends in its checksum: a label, and a field that tells the checksum. -/
structure Checksum where
  label : List UInt8
  field : UInt32 → List UInt8
  width : ℕ
  length_field : ∀ w, (field w).length = width
  injective : Function.Injective field

/-- The end of a file with this body. -/
def Checksum.tail (sum : Checksum) (body : List UInt8) : List UInt8 :=
  sum.label ++ sum.field (crc32 body)

/-- A file that ends in the checksum of what stands before. -/
def Checksum.Seals (sum : Checksum) (data : List UInt8) : Prop := ∃ body, data = body ++ sum.tail body

theorem Checksum.length_tail (sum : Checksum) (body : List UInt8) :
    (sum.tail body).length = sum.label.length + sum.width := by
  rw [Checksum.tail, List.length_append, sum.length_field]

theorem Checksum.drop_tail (sum : Checksum) (body : List UInt8) :
    (body ++ sum.tail body).drop ((body ++ sum.tail body).length - sum.width) =
      sum.field (crc32 body) := by
  have hlength := sum.length_field (crc32 body)
  rw [Checksum.tail, ← List.append_assoc]
  refine List.drop_left' ?_
  simp only [List.length_append, hlength]
  omega

/-- **A burst of four bytes before the checksum breaks the sum.** -/
theorem Checksum.not_seals_of_burst {sum : Checksum} {data altered : List UInt8} (hdata : sum.Seals data)
    (h : Burst 4 sum.width data altered) : ¬ sum.Seals altered := by
  rintro ⟨body', haltered⟩
  obtain ⟨body, rfl⟩ := hdata
  have hlength := h.length_eq
  have hfield := h.drop_eq
  rw [haltered, sum.drop_tail, sum.drop_tail] at hfield
  have hcrc := sum.injective hfield
  have hbody : body'.length = body.length := by
    rw [haltered] at hlength
    simp only [List.length_append, sum.length_tail] at hlength
    omega
  have htake := h.take body.length
  rw [List.take_left' rfl, haltered, List.take_left' hbody] at htake
  rcases htake with rfl | hburst
  · exact h.ne haltered
  · exact crc32_burst hburst hcrc

/-- The checksum line of a sealed text. -/
def lineChecksum : Checksum where
  label := ascii "crc32="
  field w := Lines.hex8 w ++ [0x0a]
  width := 9
  length_field w := rfl
  injective := by
    intro w w' h
    have hhex := List.append_cancel_right h
    exact Option.some.inj
      ((Lines.ofHex8_hex8 w).symm.trans ((congrArg _ hhex).trans (Lines.ofHex8_hex8 w')))

theorem lineChecksum_seals (lines : List (List UInt8)) : lineChecksum.Seals (Lines.sealText lines) := by
  refine ⟨Lines.text lines, ?_⟩
  rw [Lines.sealText_eq, Lines.crcLine, Lines.pair]
  simp [Checksum.tail, lineChecksum, ascii]

/-- A checksum as four bytes. -/
def wordChecksum : Checksum where
  label := []
  field := u32be
  width := 4
  length_field := length_u32be
  injective := by
    intro w w' h
    simp only [u32be, List.cons.injEq, and_true] at h
    rw [← ofU32be_u32be w, ← ofU32be_u32be w', h.1, h.2.1, h.2.2.1, h.2.2.2]

end Bytes
