import CrossNook.Book.Md5
import CrossNook.Book.Rfc1321
import CrossNook.Text.Words

/-!
# The streaming digest

The compact loop of `transform` and the buffer that carries over between updates compute the
digest of RFC 1321, whatever the pieces in which the message comes.

## Main results

* `Md5.transform_eq`: a block is processed as by the four rounds
* `Md5.Fed.update`: what the context holds after the bytes it was fed
* `Md5.streaming`: the digest of a message in pieces
-/

namespace Md5

open Rfc1321 (Operation Registers Word)
open scoped Rfc1321

/-! ## One block -/

/-- The registers in the order of the state. -/
def State.registers (s : State) : Registers := ![s.a, s.b, s.c, s.d]

/-- The operation that the turn `t` of the loop performs. -/
def operationAt (t : ℕ) : Operation where
  function :=
    if t < 16 then Rfc1321.F else if t < 32 then Rfc1321.G
    else if t < 48 then Rfc1321.H else Rfc1321.I
  a := [0, 3, 2, 1].getD (t % 4) 0
  k :=
    if t < 16 then t else if t < 32 then (5 * t + 1) % 16
    else if t < 48 then (3 * t + 5) % 16 else (7 * t) % 16
  s := (shifts.getD t 0).toNat
  i := t + 1

/-- The computed indices are those of the tables. -/
theorem operations_eq : Rfc1321.operations = (List.range 64).map operationAt := by
  rfl

/-- The constants are those of the sine function. -/
theorem constants_eq : ∀ t < 64, Rfc1321.T (t + 1) = constants.getD t 0 := by
  have hcheck : ∀ t < 64, Rfc1321.Check (t + 1) (constants.getD t 0) := by decide +kernel
  exact fun t ht => Rfc1321.T_eq_of_check ht (hcheck t ht)

theorem rotateLeft_eq (x : UInt32) {s : UInt32} (h0 : 0 < s.toNat) (h : s.toNat < 32) :
    rotateLeft x s = Rfc1321.rotl x s.toNat := by
  apply UInt32.toBitVec_inj.mp
  rw [rotateLeft, Rfc1321.rotl, UInt32.toBitVec_or, UInt32.toBitVec_shiftLeft,
    UInt32.toBitVec_shiftRight, BitVec.rotateLeft_def, Nat.mod_eq_of_lt h]
  congr 1
  · rw [BitVec.shiftLeft_eq']
    congr 1
    simp
    omega
  · rw [BitVec.ushiftRight_eq']
    congr 1
    simp
    omega

theorem shifts_bounds : ∀ t < 64, 0 < (shifts.getD t 0).toNat ∧ (shifts.getD t 0).toNat < 32 := by
  decide +kernel

theorem readU32le_eq (a b c d : UInt8) (rest : List UInt8) :
    readU32le (a :: b :: c :: d :: rest) = Rfc1321.wordOf (a :: b :: c :: d :: rest) := by
  have hread : readU32le (a :: b :: c :: d :: rest) = Bytes.ofU32be d c b a := by
    change a.toUInt32 ||| b.toUInt32 <<< 8 ||| c.toUInt32 <<< 16 ||| d.toUInt32 <<< 24 =
      d.toUInt32 <<< 24 ||| c.toUInt32 <<< 16 ||| b.toUInt32 <<< 8 ||| a.toUInt32
    generalize a.toUInt32 = w, b.toUInt32 <<< 8 = x, c.toUInt32 <<< 16 = y, d.toUInt32 <<< 24 = z
    ac_rfl
  have hword : Rfc1321.wordOf (a :: b :: c :: d :: rest) =
      UInt32.ofNat (a.toNat + 256 * (b.toNat + 256 * (c.toNat + 256 * d.toNat))) := rfl
  have ha := a.toNat_lt
  have hb := b.toNat_lt
  have hc := c.toNat_lt
  have hd := d.toNat_lt
  rw [hread, hword]
  apply UInt32.toNat_inj.mp
  rw [Bytes.toNat_ofU32be, UInt32.toNat_ofNat']
  omega

/-- The words of a block. -/
theorem readU32le_drop {block : List UInt8} {j : ℕ} (h : 4 * j + 4 ≤ block.length) :
    readU32le (block.drop (j * 4)) = Rfc1321.wordOf (block.drop (4 * j)) := by
  rw [Nat.mul_comm j 4]
  have hlength : 4 ≤ (block.drop (4 * j)).length := by
    rw [List.length_drop]
    omega
  generalize block.drop (4 * j) = bytes at hlength
  obtain ⟨a, b, c, d, rest, rfl⟩ : ∃ a b c d rest, bytes = a :: b :: c :: d :: rest := by
    rcases bytes with _ | ⟨a, _ | ⟨b, _ | ⟨c, _ | ⟨d, rest⟩⟩⟩⟩ <;> simp at hlength ⊢
  exact readU32le_eq a b c d rest

/-- The register that stands for `a` in the turn `t`. -/
def firstAt (t : ℕ) : Fin 4 := [0, 3, 2, 1].getD (t % 4) 0

theorem firstAt_succ (t : ℕ) : firstAt (t + 1) = firstAt t + 3 := by
  have h : ∀ i < 4, ([0, 3, 2, 1] : List (Fin 4)).getD ((i + 1) % 4) 0 =
      [0, 3, 2, 1].getD i 0 + 3 := by decide
  unfold firstAt
  rw [Nat.add_mod]
  exact h (t % 4) (Nat.mod_lt _ (by decide))

/-- The state before the turn `t` holds the registers in turned order. -/
structure Turned (t : ℕ) (s : State) (r : Registers) : Prop where
  a : s.a = r (firstAt t)
  b : s.b = r (firstAt t + 1)
  c : s.c = r (firstAt t + 2)
  d : s.d = r (firstAt t + 3)

/-- **One turn.** -/
theorem Turned.round {t : ℕ} (ht : t < 64) {s : State} {r : Registers} (h : Turned t s r)
    {words : List UInt32} {X : ℕ → Word} (hwords : ∀ j < 16, words.getD j 0 = X j) :
    Turned (t + 1) (round words s t) (Rfc1321.operate X r (operationAt t)) := by
  obtain ⟨ha, hb, hc, hd⟩ := h
  obtain ⟨hshift0, hshift⟩ := shifts_bounds t ht
  have hfirst : (operationAt t).a = firstAt t := rfl
  have hk : (operationAt t).k < 16 := by
    simp only [operationAt]
    split_ifs <;> omega
  -- the round of the code computes the operation of the specification
  have hround : Md5.round words s t = ⟨s.d, s.b + Rfc1321.rotl
      (s.a + (operationAt t).function s.b s.c s.d + X (operationAt t).k +
        Rfc1321.T (operationAt t).i) (operationAt t).s, s.b, s.c⟩ := by
    have hadd : ∀ f : Word, s.a + f + X (operationAt t).k + Rfc1321.T (t + 1) =
        s.a + f + constants.getD t 0 + words.getD (operationAt t).k 0 := fun f => by
      rw [hwords _ hk, constants_eq t ht]
      ac_rfl
    have hi : (operationAt t).i = t + 1 := rfl
    rw [hi, hadd, show (operationAt t).s = (shifts.getD t 0).toNat from rfl,
      ← rotateLeft_eq _ hshift0 hshift, Md5.round]
    simp only [operationAt]
    split_ifs
    · rfl
    · have hG : Rfc1321.G s.b s.c s.d = (s.d &&& s.b) ||| (~~~ s.d &&& s.c) := by
        rw [Rfc1321.G, UInt32.and_comm s.b, UInt32.and_comm s.c]
      rw [hG]
    · rfl
    · rfl
  -- and the registers turn by one place
  have hself : firstAt t + 3 + 1 = firstAt t := by
    have : ∀ i : Fin 4, i + 3 + 1 = i := by decide
    exact this _
  have hne : ∀ i : Fin 4, i ≠ 0 → firstAt t + i ≠ firstAt t := by
    have : ∀ f i : Fin 4, i ≠ 0 → f + i ≠ f := by decide
    exact this _
  have hshifted : firstAt t + 3 + 2 = firstAt t + 1 ∧ firstAt t + 3 + 3 = firstAt t + 2 := by
    have : ∀ i : Fin 4, i + 3 + 2 = i + 1 ∧ i + 3 + 3 = i + 2 := by decide
    exact this _
  rw [hround]
  refine ⟨?_, ?_, ?_, ?_⟩
  · rw [firstAt_succ, Rfc1321.operate, hfirst, Function.update_of_ne (hne 3 (by decide))]
    exact hd
  · rw [firstAt_succ, hself, Rfc1321.operate, hfirst, Function.update_self, ← ha, ← hb, ← hc, ← hd]
  · rw [firstAt_succ, hshifted.1, Rfc1321.operate, hfirst,
      Function.update_of_ne (hne 1 (by decide))]
    exact hb
  · rw [firstAt_succ, hshifted.2, Rfc1321.operate, hfirst,
      Function.update_of_ne (hne 2 (by decide))]
    exact hc

/-- The turns of a block. -/
theorem Turned.rounds {s : State} {r : Registers} (h : Turned 0 s r) {words : List UInt32}
    {X : ℕ → Word} (hwords : ∀ j < 16, words.getD j 0 = X j) (n : ℕ) (hn : n ≤ 64) :
    Turned n ((List.range n).foldl (Md5.round words) s)
      (((List.range n).map operationAt).foldl (Rfc1321.operate X) r) := by
  induction n with
  | zero => exact h
  | succ n ih =>
    rw [List.range_succ, List.map_append, List.foldl_append, List.foldl_append]
    exact (ih (by omega)).round (by omega) hwords

/-- **A block is processed as by the four rounds.** -/
theorem transform_eq (s : State) {block : List UInt8} (h : block.length = 64) :
    (transform s block).registers = Rfc1321.process s.registers block := by
  have hwords : ∀ j < 16, ((List.range 16).map fun i => readU32le (block.drop (i * 4))).getD j 0 =
      Rfc1321.wordOf (block.drop (4 * j)) := by
    intro j hj
    rw [List.getD_eq_getElem?_getD, List.getElem?_map, List.getElem?_range hj]
    exact readU32le_drop (by omega)
  have hstart : Turned 0 s s.registers := ⟨rfl, rfl, rfl, rfl⟩
  have hend := hstart.rounds hwords 64 le_rfl
  rw [Rfc1321.process, operations_eq, transform]
  obtain ⟨ha, hb, hc, hd⟩ := hend
  funext i
  fin_cases i
  · exact congrArg (s.a + ·) ha
  · exact congrArg (s.b + ·) hb
  · exact congrArg (s.c + ·) hc
  · exact congrArg (s.d + ·) hd

/-! ## Whole blocks -/

/-- The state after the whole blocks of the bytes, and the bytes that are left. -/
def absorb (s : State) (data : List UInt8) : State × List UInt8 := blocks (data.length / 64) s data

theorem absorb_of_lt {data : List UInt8} (h : data.length < 64) (s : State) :
    absorb s data = (s, data) := by
  rw [absorb, Nat.div_eq_of_lt h]
  rfl

theorem absorb_of_le {data : List UInt8} (h : 64 ≤ data.length) (s : State) :
    absorb s data = absorb (transform s (data.take 64)) (data.drop 64) := by
  have hcount : data.length / 64 = (data.drop 64).length / 64 + 1 := by
    rw [List.length_drop]
    omega
  rw [absorb, hcount, blocks, if_pos h]
  rfl

/-- The bytes that are left after the whole blocks. -/
theorem length_absorb (s : State) (data : List UInt8) :
    (absorb s data).2.length = data.length % 64 := by
  induction hn : data.length using Nat.strong_induction_on generalizing s data with
  | _ n ih =>
    by_cases h : data.length < 64
    · rw [absorb_of_lt h, ← hn, Nat.mod_eq_of_lt h]
    · have hlength : (data.drop 64).length = n - 64 := by rw [List.length_drop, hn]
      rw [absorb_of_le (by omega), ih _ (by omega) _ _ hlength]
      omega

/-- **Bytes absorbed in two parts.** -/
theorem absorb_append (s : State) (data more : List UInt8) :
    absorb s (data ++ more) = absorb (absorb s data).1 ((absorb s data).2 ++ more) := by
  induction hn : data.length using Nat.strong_induction_on generalizing s data with
  | _ n ih =>
    by_cases h : data.length < 64
    · rw [absorb_of_lt h]
    · have h64 : 64 ≤ data.length := not_lt.mp h
      have hmore : 64 ≤ (data ++ more).length := by
        rw [List.length_append]
        omega
      rw [absorb_of_le hmore, absorb_of_le h64, List.take_append_of_le_length h64,
        List.drop_append_of_le_length h64]
      exact ih _ (by rw [List.length_drop]; omega) _ _ rfl

/-- The blocks of a message, as the algorithm processes them. -/
theorem registers_blocks (n : ℕ) (s : State) {data : List UInt8} (h : 64 * n ≤ data.length) :
    (blocks n s data).1.registers = (List.range n).foldl
      (fun r j => Rfc1321.process r ((data.drop (64 * j)).take 64)) s.registers := by
  induction n generalizing s data with
  | zero => rfl
  | succ n ih =>
    have hblock : (data.take 64).length = 64 := by
      rw [List.length_take]
      omega
    rw [blocks, if_pos (by omega), ih _ (by rw [List.length_drop]; omega), List.range_succ_eq_map,
      List.foldl_cons, List.foldl_map, transform_eq s hblock]
    simp only [List.drop_drop, Nat.mul_zero, List.drop_zero, Nat.mul_succ, Nat.add_comm 64]

/-! ## Updates -/

/-- **An update** absorbs the buffered and the new bytes. -/
theorem update_eq (context : Context) (h : context.buffer.length < 64) (data : List UInt8) :
    update context data =
      { state := (absorb context.state (context.buffer ++ data)).1
        byteCount := context.byteCount + UInt64.ofNat data.length
        buffer := (absorb context.state (context.buffer ++ data)).2 } := by
  obtain ⟨state, byteCount, buffer⟩ := context
  change buffer.length < 64 at h
  -- the part after the buffer has been filled
  have hrest : ∀ (state : State) (count : UInt64) (data : List UInt8),
      (if (blocks (data.length / 64) state data).2 = [] then
          (⟨(blocks (data.length / 64) state data).1, count, []⟩ : Context)
        else
          ⟨(blocks (data.length / 64) state data).1, count,
            (blocks (data.length / 64) state data).2⟩) =
        ⟨(absorb state data).1, count, (absorb state data).2⟩ := by
    intro state count data
    rw [absorb]
    split_ifs with hdata
    · rw [hdata]
    · rfl
  by_cases hbuffer : buffer = []
  · subst hbuffer
    rw [update, fill, if_pos rfl]
    exact hrest state _ data
  by_cases hfull : 64 ≤ (buffer ++ data).length
  · -- the buffer is filled up and processed
    rw [List.length_append] at hfull
    change 64 ≤ buffer.length + data.length at hfull
    have hneeded : min (64 - buffer.length) data.length = 64 - buffer.length := by omega
    have htake : buffer ++ data.take (64 - buffer.length) = (buffer ++ data).take 64 := by
      rw [List.take_append, List.take_of_length_le (l := buffer) h.le]
    have hdrop : data.drop (64 - buffer.length) = (buffer ++ data).drop 64 := by
      rw [List.drop_append, List.drop_of_length_le (l := buffer) h.le, List.nil_append]
    have hlong : 64 ≤ (buffer ++ data).length := by
      rw [List.length_append]
      exact hfull
    have hlength : ((buffer ++ data).take 64).length = 64 := by
      rw [List.length_take, min_eq_left hlong]
    rw [update, fill, if_neg hbuffer]
    simp only [hneeded, htake, hdrop, hlength, if_true]
    rw [absorb_of_le hlong]
    exact hrest _ _ _
  · -- the buffer takes all the bytes
    rw [List.length_append] at hfull
    change ¬ 64 ≤ buffer.length + data.length at hfull
    have hneeded : min (64 - buffer.length) data.length = data.length := by omega
    have hshort : (buffer ++ data).length < 64 := by
      rw [List.length_append]
      omega
    have hlength : ¬ (buffer ++ data).length = 64 := hshort.ne
    rw [update, fill, if_neg hbuffer, absorb_of_lt hshort]
    simp only [hneeded, List.take_length, List.drop_length, hlength, if_false]
    rfl

/-- What the context holds after the bytes it was fed. -/
structure Fed (context : Context) (m : List UInt8) : Prop where
  absorbed : (context.state, context.buffer) = absorb init.state m
  byteCount : context.byteCount = UInt64.ofNat m.length

theorem Fed.length_buffer {context : Context} {m : List UInt8} (h : Fed context m) :
    context.buffer.length = m.length % 64 := by
  have hbuffer := congrArg Prod.snd h.absorbed
  dsimp only at hbuffer
  rw [hbuffer, length_absorb]

theorem Fed.length_buffer_lt {context : Context} {m : List UInt8} (h : Fed context m) :
    context.buffer.length < 64 := by
  rw [h.length_buffer]
  exact Nat.mod_lt _ (by decide)

theorem fed_init : Fed init [] := ⟨rfl, rfl⟩

/-- **Feeding more bytes.** -/
theorem Fed.update {context : Context} {m : List UInt8} (h : Fed context m) (data : List UInt8) :
    Fed (update context data) (m ++ data) := by
  have hstate : context.state = (absorb init.state m).1 := congrArg Prod.fst h.absorbed
  have hbuffer : context.buffer = (absorb init.state m).2 := congrArg Prod.snd h.absorbed
  rw [update_eq context h.length_buffer_lt]
  refine ⟨?_, ?_⟩
  · rw [absorb_append init.state m data, ← hstate, ← hbuffer]
  · rw [h.byteCount, List.length_append, UInt64.ofNat_add]

/-- The context after a message in pieces. -/
theorem fed_foldl (pieces : List (List UInt8)) :
    Fed (pieces.foldl Md5.update init) pieces.flatten := by
  induction pieces using List.reverseRecOn with
  | nil => exact fed_init
  | append_singleton pieces piece ih =>
    rw [List.foldl_append, List.flatten_append, List.flatten_singleton]
    exact ih.update piece

/-! ## The digest -/

theorem writeU32le_eq (w : UInt32) : writeU32le w = Rfc1321.bytesOf w := by
  have hbyte : ∀ n : UInt32, n.toNat < 32 →
      (w >>> n).toUInt8 = UInt8.ofNat (w.toNat / 2 ^ n.toNat) := by
    intro n hn
    apply UInt8.toNat_inj.mp
    rw [UInt32.toNat_toUInt8, UInt32.toNat_shiftRight, Nat.mod_eq_of_lt hn,
      Nat.shiftRight_eq_div_pow, UInt8.toNat_ofNat']
  have h0 : w.toUInt8 = UInt8.ofNat (w.toNat / 256 ^ 0) := by
    apply UInt8.toNat_inj.mp
    rw [UInt32.toNat_toUInt8, UInt8.toNat_ofNat', pow_zero, Nat.div_one]
  rw [writeU32le, h0, hbyte 8 (by decide), hbyte 16 (by decide), hbyte 24 (by decide)]
  rfl

/-- The length of the message, as it is written behind the padding. -/
theorem lengthBytes_eq (m : List UInt8) :
    ((List.range 8).map fun i =>
      ((UInt64.ofNat m.length * 8) >>> UInt64.ofNat (i * 8)).toUInt8) = Rfc1321.lengthBytes m := by
  refine List.map_congr_left fun i hi => ?_
  have hi' := List.mem_range.mp hi
  have hshift : (UInt64.ofNat (i * 8)).toNat = i * 8 := by
    rw [UInt64.toNat_ofNat']
    exact Nat.mod_eq_of_lt (by omega)
  have hbits : (UInt64.ofNat m.length * 8).toNat = 8 * m.length % 2 ^ 64 := by
    have h8 : (8 : UInt64).toNat = 8 := rfl
    rw [UInt64.toNat_mul, UInt64.toNat_ofNat', h8]
    omega
  have hsplit : (2 : ℕ) ^ 64 = 2 ^ (i * 8) * 2 ^ (64 - i * 8) := by
    rw [← pow_add]
    congr 1
    omega
  have hbase : 256 ^ i = 2 ^ (i * 8) := by
    rw [Nat.mul_comm, pow_mul]
    norm_num
  apply UInt8.toNat_inj.mp
  rw [UInt64.toNat_toUInt8, UInt64.toNat_shiftRight, hshift,
    Nat.mod_eq_of_lt (show i * 8 < 64 by omega), Nat.shiftRight_eq_div_pow, hbits,
    UInt8.toNat_ofNat', hsplit, Nat.mod_mul_right_div_self,
    Nat.mod_mod_of_dvd _ (pow_dvd_pow 2 (by omega)), hbase]

/-- **The digest of what the context was fed.** -/
theorem Fed.final_eq {context : Context} {m : List UInt8} (h : Fed context m) :
    final context = Rfc1321.digest m := by
  have hlength := h.length_buffer
  have hpadding : (if context.buffer.length < 56 then 56 - context.buffer.length
      else 120 - context.buffer.length) - 1 = Rfc1321.zeros m := by
    rw [hlength, Rfc1321.zeros]
    split_ifs <;> omega
  have hbits : context.byteCount * 8 = UInt64.ofNat m.length * 8 := by rw [h.byteCount]
  have hfed := (h.update (0x80 :: List.replicate (Rfc1321.zeros m) 0)).update
    (Rfc1321.lengthBytes m)
  have hpad : m ++ 0x80 :: List.replicate (Rfc1321.zeros m) 0 ++ Rfc1321.lengthBytes m =
      Rfc1321.pad m := rfl
  rw [hpad] at hfed
  have hstate := congrArg Prod.fst hfed.absorbed
  dsimp only at hstate
  have hregisters : (absorb init.state (Rfc1321.pad m)).1.registers =
      Rfc1321.registers (Rfc1321.pad m) :=
    registers_blocks _ init.state (Nat.mul_div_le _ _)
  rw [final, hpadding, hbits, lengthBytes_eq, hstate, Rfc1321.digest, ← hregisters]
  simp only [writeU32le_eq, State.registers]
  simp [List.ofFn_succ, List.flatMap_cons]

/-- **MD5 in pieces** is the digest of the whole. -/
theorem streaming (pieces : List (List UInt8)) :
    (pieces.foldl Md5.update init).buffer.length < 64 ∧
      final (pieces.foldl Md5.update init) = Rfc1321.digest pieces.flatten :=
  ⟨(fed_foldl pieces).length_buffer_lt, (fed_foldl pieces).final_eq⟩

end Md5
