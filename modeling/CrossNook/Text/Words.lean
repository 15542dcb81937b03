import CrossNook.Text.Bytes

/-!
# Words and checksums

Big-endian 32-bit words and the CRC-32 of a byte string.

## Main definitions

* `Bytes.u32be w`, `Bytes.ofU32be a b c d`: a word as four bytes and back
* `Bytes.crc32 data`: the reflected CRC-32

## Main results

* `Bytes.ofU32be_u32be`, `Bytes.u32be_ofU32be`: reading what was written, and conversely
-/

namespace Bytes

/-- The four bytes of a word, most significant first. -/
def u32be (w : UInt32) : List UInt8 :=
  [(w >>> 24).toUInt8, (w >>> 16).toUInt8, (w >>> 8).toUInt8, w.toUInt8]

/-- The word of four bytes, most significant first. -/
def ofU32be (a b c d : UInt8) : UInt32 :=
  (a.toUInt32 <<< 24) ||| (b.toUInt32 <<< 16) ||| (c.toUInt32 <<< 8) ||| d.toUInt32

@[simp] theorem length_u32be (w : UInt32) : (u32be w).length = 4 := rfl

/-- One more byte below the bytes already there. -/
theorem lor_byte (i : ℕ) {k n m : ℕ} (hk : k = 2 ^ i) (hm : m < k) : n * k ||| m = n * k + m := by
  subst hk
  rw [Nat.mul_comm, ← Nat.two_pow_add_eq_or_of_lt hm n]

/-- **Reading a word as it was written.** -/
theorem ofU32be_u32be (w : UInt32) :
    ofU32be (w >>> 24).toUInt8 (w >>> 16).toUInt8 (w >>> 8).toUInt8 w.toUInt8 = w := by
  apply UInt32.toNat_inj.mp
  simp only [ofU32be, UInt32.toNat_or, UInt32.toNat_shiftLeft, UInt8.toNat_toUInt32,
    UInt32.toNat_toUInt8, UInt32.toNat_shiftRight, Nat.shiftLeft_eq, Nat.shiftRight_eq_div_pow,
    UInt32.toNat_ofNat, Nat.reduceMod, Nat.reducePow]
  have h : w.toNat < 4294967296 := w.toNat_lt
  generalize w.toNat = n at h ⊢
  have h3 : n / 16777216 % 256 * 16777216 % 4294967296 = n / 16777216 * 16777216 := by
    rw [Nat.mod_eq_of_lt (show n / 16777216 < 256 by omega), Nat.mod_eq_of_lt (by omega)]
  have h2 : n / 65536 % 256 * 65536 % 4294967296 = n / 65536 % 256 * 65536 :=
    Nat.mod_eq_of_lt (by omega)
  have h1 : n / 256 % 256 * 256 % 4294967296 = n / 256 % 256 * 256 :=
    Nat.mod_eq_of_lt (by omega)
  rw [h3, h2, h1, lor_byte 24 (k := 16777216) rfl (by omega),
    show n / 16777216 * 16777216 + n / 65536 % 256 * 65536 = n / 65536 * 65536 by omega,
    lor_byte 16 (k := 65536) rfl (by omega),
    show n / 65536 * 65536 + n / 256 % 256 * 256 = n / 256 * 256 by omega,
    lor_byte 8 (k := 256) rfl (by omega)]
  omega

theorem toNat_ofU32be (a b c d : UInt8) :
    (ofU32be a b c d).toNat =
      a.toNat * 16777216 + b.toNat * 65536 + c.toNat * 256 + d.toNat := by
  have ha := a.toNat_lt
  have hb := b.toNat_lt
  have hc := c.toNat_lt
  have hd := d.toNat_lt
  simp only [ofU32be, UInt32.toNat_or, UInt32.toNat_shiftLeft, UInt8.toNat_toUInt32,
    Nat.shiftLeft_eq, UInt32.toNat_ofNat, Nat.reduceMod, Nat.reducePow]
  rw [Nat.mod_eq_of_lt (show a.toNat * 16777216 < 4294967296 by omega),
    Nat.mod_eq_of_lt (show b.toNat * 65536 < 4294967296 by omega),
    Nat.mod_eq_of_lt (show c.toNat * 256 < 4294967296 by omega),
    lor_byte 24 (k := 16777216) rfl (by omega),
    show a.toNat * 16777216 + b.toNat * 65536 = (a.toNat * 256 + b.toNat) * 65536 by omega,
    lor_byte 16 (k := 65536) rfl (by omega),
    show (a.toNat * 256 + b.toNat) * 65536 + c.toNat * 256 =
      (a.toNat * 65536 + b.toNat * 256 + c.toNat) * 256 by omega,
    lor_byte 8 (k := 256) rfl (by omega)]

/-- The bytes of a word that was read. -/
theorem u32be_ofU32be (a b c d : UInt8) : u32be (ofU32be a b c d) = [a, b, c, d] := by
  have ha := a.toNat_lt
  have hb := b.toNat_lt
  have hc := c.toNat_lt
  have hd := d.toNat_lt
  have hbyte : ∀ (n : UInt32) (x : UInt8), n.toNat < 32 →
      (a.toNat * 16777216 + b.toNat * 65536 + c.toNat * 256 + d.toNat) / 2 ^ n.toNat % 256 =
        x.toNat → (ofU32be a b c d >>> n).toUInt8 = x := by
    intro n x hn h
    apply UInt8.toNat_inj.mp
    rw [UInt32.toNat_toUInt8, UInt32.toNat_shiftRight, Nat.mod_eq_of_lt hn,
      Nat.shiftRight_eq_div_pow, toNat_ofU32be, h]
  have h0 : (ofU32be a b c d).toUInt8 = d := by
    apply UInt8.toNat_inj.mp
    rw [UInt32.toNat_toUInt8, toNat_ofU32be]
    omega
  rw [u32be, h0, hbyte 24 a (by decide) (show _ / 2 ^ 24 % 256 = _ by omega),
    hbyte 16 b (by decide) (show _ / 2 ^ 16 % 256 = _ by omega),
    hbyte 8 c (by decide) (show _ / 2 ^ 8 % 256 = _ by omega)]

/-- One bit of the CRC-32 division. -/
def crc32Bit (crc : UInt32) : UInt32 := (crc >>> 1) ^^^ (0xedb88320 &&& (0 - (crc &&& 1)))

/-- One byte of the CRC-32 division. -/
def crc32Byte (crc : UInt32) (b : UInt8) : UInt32 := crc32Bit^[8] (crc ^^^ b.toUInt32)

/-- The CRC-32 of a byte string. -/
def crc32 (data : List UInt8) : UInt32 := ~~~ data.foldl crc32Byte 0xffffffff

example : crc32 (ascii "123456789") = 0xcbf43926 := by decide +kernel

end Bytes
