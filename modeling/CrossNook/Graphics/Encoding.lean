import CrossNook.Graphics.Text

/-!
# Decoding what was encoded

The decoder of the text renderer is the inverse of UTF-8 encoding: on the encoding of scalar values,
up to the end of the text or a terminator, it skips no byte and writes these values.

## Main results

* `CnText.utf8Next_encode`: one character
* `CnText.utf8Decode_encodeAll`: a text
-/

namespace CnText

open Utf8 (IsScalar encode encodeAll)

variable {outMax : ℕ}

/-- **One character** is decoded to its value, whatever follows. -/
theorem utf8Next_encode {v : ℕ} (h : IsScalar v) (rest : List UInt8) :
    utf8Next (encode v ++ rest) = some (v, (encode v).length) := by
  have hbyte {n : ℕ} (hn : n < 256) : (UInt8.ofNat n).toNat = n := UInt8.toNat_ofNat_of_lt' hn
  have htail (n : ℕ) : Utf8.Tail (UInt8.ofNat (0x80 + n % 64)) :=
    Utf8.tail_ofNat _ (Nat.mod_lt _ (by decide))
  unfold IsScalar at h
  unfold encode
  -- one case for each length: the lead byte tells it, and the value is put together again
  split_ifs with h1 h2 h3
  · have hlt : UInt8.ofNat v < 0x80 := by
      rw [UInt8.lt_iff_toNat_lt, hbyte (by omega)]
      exact h1
    rw [List.singleton_append, utf8Next, if_pos hlt, hbyte (by omega)]
    rfl
  · have hlead : (UInt8.ofNat (0xc0 + v / 64)).toNat = 0xc0 + v / 64 := hbyte (by omega)
    have hb : (UInt8.ofNat (0x80 + v % 64)).toNat = 0x80 + v % 64 := hbyte (by omega)
    rw [List.cons_append, utf8Next_multi (by rw [UInt8.le_iff_toNat_le, hlead]; simp; omega),
      utf8Lead_eq, if_pos (by simp only [UInt8.le_iff_toNat_le, hlead]; simp; omega)]
    simp only [Nat.reduceSub, List.cons_append, utf8Tail_cons, utf8Tail_zero, if_pos (htail _),
      hlead, hb]
    have hvalue : (0xc0 + v / 64) % 32 * 64 + (0x80 + v % 64) % 64 = v := by omega
    have hmin : minimum 2 = 0x80 := rfl
    rw [hvalue, hmin, if_neg (by omega)]
    rfl
  · have hlead : (UInt8.ofNat (0xe0 + v / 4096)).toNat = 0xe0 + v / 4096 := hbyte (by omega)
    have hb : (UInt8.ofNat (0x80 + v / 64 % 64)).toNat = 0x80 + v / 64 % 64 := hbyte (by omega)
    have hc : (UInt8.ofNat (0x80 + v % 64)).toNat = 0x80 + v % 64 := hbyte (by omega)
    rw [List.cons_append, utf8Next_multi (by rw [UInt8.le_iff_toNat_le, hlead]; simp; omega),
      utf8Lead_eq, if_neg (by simp only [UInt8.le_iff_toNat_le, hlead]; simp; omega),
      if_pos (by simp only [UInt8.le_iff_toNat_le, hlead]; simp; omega)]
    simp only [Nat.reduceSub, List.cons_append, utf8Tail_cons, utf8Tail_zero, if_pos (htail _),
      hlead, hb, hc]
    have hvalue : ((0xe0 + v / 4096) % 16 * 64 + (0x80 + v / 64 % 64) % 64) * 64 +
        (0x80 + v % 64) % 64 = v := by omega
    have hmin : minimum 3 = 0x800 := rfl
    rw [hvalue, hmin, if_neg (by omega)]
    rfl
  · have hlead : (UInt8.ofNat (0xf0 + v / 262144)).toNat = 0xf0 + v / 262144 := hbyte (by omega)
    have hb : (UInt8.ofNat (0x80 + v / 4096 % 64)).toNat = 0x80 + v / 4096 % 64 :=
      hbyte (by omega)
    have hc : (UInt8.ofNat (0x80 + v / 64 % 64)).toNat = 0x80 + v / 64 % 64 := hbyte (by omega)
    have hd : (UInt8.ofNat (0x80 + v % 64)).toNat = 0x80 + v % 64 := hbyte (by omega)
    rw [List.cons_append, utf8Next_multi (by rw [UInt8.le_iff_toNat_le, hlead]; simp; omega),
      utf8Lead_eq, if_neg (by simp only [UInt8.le_iff_toNat_le, hlead]; simp; omega),
      if_neg (by simp only [UInt8.le_iff_toNat_le, hlead]; simp; omega),
      if_pos (by simp only [UInt8.le_iff_toNat_le, hlead]; simp; omega)]
    simp only [Nat.reduceSub, List.cons_append, utf8Tail_cons, utf8Tail_zero, if_pos (htail _),
      hlead, hb, hc, hd]
    have hvalue : (((0xf0 + v / 262144) % 8 * 64 + (0x80 + v / 4096 % 64) % 64) * 64 +
        (0x80 + v / 64 % 64) % 64) * 64 + (0x80 + v % 64) % 64 = v := by omega
    have hmin : minimum 4 = 0x10000 := rfl
    rw [hvalue, hmin, if_neg (by omega)]
    rfl

/-- One character in the loop of the decoder. -/
theorem decodeFrom_encode {v : ℕ} (h : IsScalar v) (h0 : v ≠ 0) (rest : List UInt8)
    (d : Decoded) :
    decodeFrom outMax 0 (encode v ++ rest) d = decodeFrom outMax 0 rest (d.push outMax v) := by
  have hnext := utf8Next_encode h rest
  have hzero := Utf8.zero_notMem_encode h h0
  cases hu : encode v with
  | nil => exact absurd hu (Utf8.isChar_encode h).ne_nil
  | cons c u =>
    rw [hu] at hnext hzero
    rw [List.cons_append] at hnext ⊢
    rw [decodeFrom, if_neg fun hc : c = 0 => hzero (hc ▸ List.mem_cons_self), hnext]
    dsimp only
    rw [List.length_cons, Nat.add_sub_cancel, decodeFrom_skip, List.drop_left]

/-- The codepoints pushed one after the other. -/
theorem foldl_push (vs : List ℕ) (d : Decoded) :
    vs.foldl (Decoded.push outMax) d =
      ⟨d.out ++ vs.take (outMax - d.n), d.n + vs.length, d.bad⟩ := by
  induction vs generalizing d with
  | nil => simp
  | cons v vs ih =>
    rw [List.foldl_cons, ih, Decoded.push]
    dsimp only
    by_cases hroom : d.n < outMax
    · have hsucc : outMax - d.n = outMax - (d.n + 1) + 1 := by omega
      rw [if_pos hroom, hsucc, List.take_succ_cons, List.append_assoc, List.length_cons,
        Nat.add_assoc, Nat.add_comm 1]
      rfl
    · have hfull : outMax - d.n = 0 := by omega
      have hfull' : outMax - (d.n + 1) = 0 := by omega
      rw [if_neg hroom, hfull, hfull', List.take_zero, List.take_zero, List.length_cons,
        Nat.add_assoc, Nat.add_comm 1]

theorem decodeFrom_encodeAll {vs : List ℕ} (h : ∀ v ∈ vs, IsScalar v ∧ v ≠ 0)
    (rest : List UInt8) (d : Decoded) :
    decodeFrom outMax 0 (encodeAll vs ++ rest) d =
      decodeFrom outMax 0 rest (vs.foldl (Decoded.push outMax) d) := by
  induction vs generalizing d with
  | nil => rfl
  | cons v vs ih =>
    obtain ⟨hv, hvs⟩ := List.forall_mem_cons.mp h
    rw [Utf8.encodeAll_cons, List.append_assoc, decodeFrom_encode hv.1 hv.2, ih hvs,
      List.foldl_cons]

/-- **A text** is decoded to its values, up to its end or a terminator. -/
theorem utf8Decode_encodeAll {vs : List ℕ} (h : ∀ v ∈ vs, IsScalar v ∧ v ≠ 0)
    {rest : List UInt8} (hrest : ∀ b ∈ rest.head?, b = 0) (outMax : ℕ) :
    utf8Decode (encodeAll vs ++ rest) outMax = ⟨vs.take outMax, vs.length, 0⟩ := by
  have hend (d : Decoded) : decodeFrom outMax 0 rest d = d := by
    cases rest with
    | nil => rfl
    | cons b rest => exact if_pos (hrest b rfl)
  rw [utf8Decode, decodeFrom_encodeAll h, hend, foldl_push, Nat.sub_zero, List.nil_append,
    Nat.zero_add]

end CnText
