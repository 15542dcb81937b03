import Mathlib.Analysis.Complex.Trigonometric
import Mathlib.Tactic

/-!
# The MD5 message-digest algorithm

The algorithm of RFC 1321 for a message of bytes: its padding, the four rounds over four
registers, with constants taken from the sine function, and the digest.

## Main definitions

* `Rfc1321.T i`: the integer part of `2 ^ 32` times the absolute value of the sine of `i`
* `Rfc1321.operations`: the 64 operations on the registers
* `Rfc1321.digest m`: the digest of the message `m`

## Main results

* `Rfc1321.T_eq_of_check`: a table of the constants is checked by integer arithmetic
-/

namespace Rfc1321

/-- A word of 32 bits. -/
abbrev Word := UInt32

/-! ## The auxiliary functions -/

def F (x y z : Word) : Word := (x &&& y) ||| (~~~x &&& z)
def G (x y z : Word) : Word := (x &&& z) ||| (y &&& ~~~z)
def H (x y z : Word) : Word := x ^^^ y ^^^ z
def I (x y z : Word) : Word := y ^^^ (x ||| ~~~z)

/-- The constants of the operations. -/
noncomputable def T (i : ℕ) : Word := UInt32.ofNat ⌊(2 : ℝ) ^ 32 * |Real.sin i|⌋₊

/-- The rotation to the left. -/
def rotl (x : Word) (s : ℕ) : Word := ⟨x.toBitVec.rotateLeft s⟩

/-! ## The rounds -/

/-- There are four registers. -/
scoped instance four_registers : NeZero 4 := ⟨by decide⟩

/-- The registers A, B, C and D. -/
abbrev Registers := Fin 4 → Word

/-- An operation `[abcd k s i]`: the register that stands for `a`, which is followed by those for
`b`, `c` and `d`; the word of the block; the rotation; and the number of the constant. -/
structure Operation where
  function : Word → Word → Word → Word
  a : Fin 4
  k : ℕ
  s : ℕ
  i : ℕ

/-- `a = b + ((a + function (b, c, d) + X[k] + T[i]) <<< s)`. -/
noncomputable def operate (X : ℕ → Word) (r : Registers) (op : Operation) : Registers :=
  Function.update r op.a
    (r (op.a + 1) + rotl (r op.a + op.function (r (op.a + 1)) (r (op.a + 2)) (r (op.a + 3)) +
      X op.k + T op.i) op.s)

/-- The operations of a round: the constants are numbered from `i` on, the registers take turns
from A to B, backwards, and the four rotations are repeated. -/
def roundOf (function : Word → Word → Word → Word) (i : ℕ) (ks : List ℕ) (ss : List ℕ) :
    List Operation :=
  (List.range 16).map fun t =>
    ⟨function, [0, 3, 2, 1].getD (t % 4) 0, ks.getD t 0, ss.getD (t % 4) 0, i + t⟩

/-- The four rounds. -/
def operations : List Operation :=
  roundOf F 1 [0, 1, 2, 3, 4, 5, 6, 7, 8, 9, 10, 11, 12, 13, 14, 15] [7, 12, 17, 22] ++
  roundOf G 17 [1, 6, 11, 0, 5, 10, 15, 4, 9, 14, 3, 8, 13, 2, 7, 12] [5, 9, 14, 20] ++
  roundOf H 33 [5, 8, 11, 14, 1, 4, 7, 10, 13, 0, 3, 6, 9, 12, 15, 2] [4, 11, 16, 23] ++
  roundOf I 49 [0, 7, 14, 5, 12, 3, 10, 1, 8, 15, 6, 13, 4, 11, 2, 9] [6, 10, 15, 21]

/-- The number that four bytes denote, low-order byte first. -/
def wordOf (bytes : List UInt8) : Word :=
  UInt32.ofNat ((bytes.take 4).foldr (fun b n => b.toNat + 256 * n) 0)

/-- The processing of a block of sixteen words. -/
noncomputable def process (r : Registers) (block : List UInt8) : Registers :=
  r + operations.foldl (operate fun j => wordOf (block.drop (4 * j))) r

/-! ## The message -/

/-- The length of the message in bits, low-order byte first; of a longer number, the low-order 64
bits. -/
def lengthBytes (m : List UInt8) : List UInt8 :=
  (List.range 8).map fun j => UInt8.ofNat (8 * m.length / 256 ^ j)

/-- The number of the bytes of padding after the first: as many as leave room for the length. -/
def zeros (m : List UInt8) : ℕ := (119 - m.length % 64) % 64

/-- The padded message: a bit 1, bits 0, and the length. -/
def pad (m : List UInt8) : List UInt8 :=
  m ++ 0x80 :: List.replicate (zeros m) 0 ++ lengthBytes m

/-- The registers before the first block. -/
def initial : Registers := ![0x67452301, 0xefcdab89, 0x98badcfe, 0x10325476]

/-- The registers after the blocks of a padded message. -/
noncomputable def registers (padded : List UInt8) : Registers :=
  (List.range (padded.length / 64)).foldl
    (fun r j => process r ((padded.drop (64 * j)).take 64)) initial

/-- The bytes of a word, low-order byte first. -/
def bytesOf (w : Word) : List UInt8 := (List.range 4).map fun j => UInt8.ofNat (w.toNat / 256 ^ j)

/-- **The digest.** -/
noncomputable def digest (m : List UInt8) : List UInt8 :=
  (List.ofFn (registers (pad m))).flatMap bytesOf

/-! ## The constants

The sine of `k` is the imaginary part of the power of `exp i`, which a sum of twenty terms
approximates; the powers of the sum are Gaussian integers over a common denominator. -/

/-- The common denominator of the sum. -/
def den : ℕ := 121645100408832000

/-- The real and the imaginary part of the `k`-th power of the sum, times `den ^ k`. -/
def power : ℕ → ℤ × ℤ
  | 0 => (1, 0)
  | k + 1 =>
    let (a, b) := power k
    (a * 65725128248453315 - b * 102360822438075317, a * 102360822438075317 + b * 65725128248453315)

/-- The sum. -/
noncomputable def approx : ℂ :=
  (65725128248453315 / den : ℝ) + (102360822438075317 / den : ℝ) * Complex.I

theorem sum_eq_approx :
    ∑ m ∈ Finset.range 20, Complex.I ^ m / (m.factorial : ℂ) = approx := by
  have hstep : ∀ m, Complex.I ^ (m + 2) = -Complex.I ^ m := fun m => by
    rw [pow_add, Complex.I_sq, mul_neg_one]
  rw [Complex.ext_iff]
  simp only [Finset.sum_range_succ, Finset.sum_range_zero, Nat.factorial, approx, den, hstep]
  constructor <;> simp <;> norm_num

/-- A bound for the error of the sum. -/
noncomputable def eps : ℝ := 1 / 10 ^ 18

theorem norm_exp_sub_approx : ‖Complex.exp Complex.I - approx‖ ≤ eps := by
  have h := Complex.exp_bound (x := Complex.I) (by simp) (n := 20) (by decide)
  rw [sum_eq_approx, Complex.norm_I, one_pow, one_mul] at h
  refine h.trans ?_
  norm_num [eps, Nat.factorial]

theorem approx_pow (k : ℕ) :
    approx ^ k = (((power k).1 / (den : ℝ) ^ k : ℝ) : ℂ) +
      (((power k).2 / (den : ℝ) ^ k : ℝ) : ℂ) * Complex.I := by
  induction k with
  | zero => simp [power]
  | succ k ih =>
    have hden : (den : ℂ) ≠ 0 := by norm_num [den]
    rw [pow_succ, ih, power, approx]
    push_cast
    field_simp
    ring_nf
    rw [Complex.I_sq]
    ring

/-- The error of a power. -/
theorem norm_exp_pow_sub (k : ℕ) (hk : k ≤ 64) :
    ‖Complex.exp Complex.I ^ k - approx ^ k‖ ≤ 2 * k * eps := by
  have hexp : ‖Complex.exp Complex.I‖ = 1 := by
    simpa using Complex.norm_exp_ofReal_mul_I 1
  have heps : 0 < eps := by norm_num [eps]
  induction k with
  | zero => simp
  | succ k ih =>
    have hk' : (k : ℝ) ≤ 64 := by exact_mod_cast (Nat.le_of_succ_le hk)
    have hpow := ih (Nat.le_of_succ_le hk)
    -- the approximate power is not much longer than the exact one
    have hnorm : ‖approx ^ k‖ ≤ 1 + 2 * k * eps := by
      have htriangle := norm_sub_norm_le (approx ^ k) (Complex.exp Complex.I ^ k)
      rw [norm_sub_rev, norm_pow (Complex.exp _), hexp, one_pow] at htriangle
      linarith
    -- the error of the next power comes from this one and from one factor more
    have hsplit : Complex.exp Complex.I ^ (k + 1) - approx ^ (k + 1) =
        Complex.exp Complex.I * (Complex.exp Complex.I ^ k - approx ^ k) +
          (Complex.exp Complex.I - approx) * approx ^ k := by ring
    have hsmall : 2 * (k : ℝ) * eps ≤ 1 := by
      unfold eps
      norm_num
      linarith
    calc ‖Complex.exp Complex.I ^ (k + 1) - approx ^ (k + 1)‖
        ≤ ‖Complex.exp Complex.I‖ * ‖Complex.exp Complex.I ^ k - approx ^ k‖ +
          ‖Complex.exp Complex.I - approx‖ * ‖approx ^ k‖ := by
          rw [hsplit]
          refine (norm_add_le _ _).trans ?_
          rw [norm_mul, norm_mul]
      _ ≤ 1 * (2 * k * eps) + eps * (1 + 2 * k * eps) := by
          rw [hexp]
          gcongr
          exact norm_exp_sub_approx
      _ ≤ 2 * (k + 1 : ℕ) * eps := by
          push_cast
          nlinarith

/-- The sine of `k`, up to the error. -/
theorem abs_sin_sub (k : ℕ) (hk : k ≤ 64) :
    |Real.sin k - (power k).2 / (den : ℝ) ^ k| ≤ 2 * k * eps := by
  have hsin : (Complex.exp Complex.I ^ k).im = Real.sin k := by
    rw [← Complex.exp_nat_mul]
    exact Complex.exp_ofReal_mul_I_im k
  have him : (approx ^ k).im = (power k).2 / (den : ℝ) ^ k := by
    rw [approx_pow, Complex.add_im, Complex.ofReal_im, Complex.im_ofReal_mul, Complex.I_im]
    ring
  rw [← hsin, ← him, ← Complex.sub_im]
  exact (Complex.abs_im_le_norm _).trans (norm_exp_pow_sub k hk)

/-- The constant `t` of the number `k` is right, with room for the error. -/
def Check (k : ℕ) (t : UInt32) : Prop :=
  (1000 * t.toNat + 1) * den ^ k ≤ 1000 * 2 ^ 32 * (power k).2.natAbs ∧
    1000 * 2 ^ 32 * (power k).2.natAbs + den ^ k ≤ 1000 * (t.toNat + 1) * den ^ k

instance (k : ℕ) (t : UInt32) : Decidable (Check k t) := inferInstanceAs (Decidable (_ ∧ _))

/-- **A constant that is checked is the one of the algorithm.** -/
theorem T_eq_of_check {k : ℕ} (hk : k ≤ 64) {t : UInt32} (h : Check k t) : T k = t := by
  obtain ⟨hlow, hhigh⟩ := h
  have hden : (0 : ℝ) < (den : ℝ) ^ k := by
    have : (0 : ℝ) < den := by norm_num [den]
    positivity
  have hsin := abs_sin_sub k hk
  have hk' : (k : ℝ) ≤ 64 := by exact_mod_cast hk
  set q : ℝ := |((power k).2 : ℝ)| / (den : ℝ) ^ k with hq
  have hnatAbs : ((power k).2.natAbs : ℝ) = |((power k).2 : ℝ)| := by
    rw [Nat.cast_natAbs, Int.cast_abs]
  -- the check leaves a thousandth on either side
  have hlow' : (t.toNat : ℝ) + 1 / 1000 ≤ 2 ^ 32 * q := by
    have : (1000 * (t.toNat : ℝ) + 1) * (den : ℝ) ^ k ≤
        1000 * 2 ^ 32 * ((power k).2.natAbs : ℝ) := by exact_mod_cast hlow
    rw [hnatAbs] at this
    rw [hq, ← mul_div_assoc, le_div_iff₀ hden]
    linarith
  have hhigh' : 2 ^ 32 * q + 1 / 1000 ≤ (t.toNat : ℝ) + 1 := by
    have : 1000 * 2 ^ 32 * ((power k).2.natAbs : ℝ) + (den : ℝ) ^ k ≤
        1000 * ((t.toNat : ℝ) + 1) * (den : ℝ) ^ k := by exact_mod_cast hhigh
    rw [hnatAbs] at this
    rw [hq, ← mul_div_assoc, div_add' _ _ _ hden.ne', div_le_iff₀ hden]
    linarith
  -- which is more than the approximation is off
  have herror : |(|Real.sin k| - q)| ≤ 128 * eps := by
    have hdiv : q = |((power k).2 : ℝ) / (den : ℝ) ^ k| := by
      rw [hq, abs_div, abs_of_pos hden]
    rw [hdiv]
    refine (abs_abs_sub_abs_le_abs_sub _ _).trans (hsin.trans ?_)
    have heps : 0 ≤ eps := by norm_num [eps]
    exact mul_le_mul_of_nonneg_right (by linarith) heps
  have hfloor : ⌊(2 : ℝ) ^ 32 * |Real.sin k|⌋₊ = t.toNat := by
    rw [Nat.floor_eq_iff (by positivity)]
    rw [abs_le, eps] at herror
    constructor <;> norm_num at herror ⊢ <;> linarith
  rw [T, hfloor, UInt32.ofNat_toNat]

end Rfc1321
