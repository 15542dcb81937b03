import CrossNook.Text.Bytes

/-!
# MD5

The streaming digest of `book/md5.c`.

## Main definitions

* `Md5.Context`: `cn_md5_context`
* `Md5.update`, `Md5.final`: `cn_md5_update`, `cn_md5_final`
* `Md5.digest`: the digest of one text
* `Md5.hex`: the lower-case text of a digest
-/

namespace Md5

/-- The four words of the state. -/
structure State where
  a : UInt32
  b : UInt32
  c : UInt32
  d : UInt32
  deriving DecidableEq, Repr

/-- `cn_md5_context`; `buffer` holds the first `buffer_length` bytes. -/
structure Context where
  state : State
  byteCount : UInt64
  buffer : List UInt8
  deriving DecidableEq, Repr

/-- `rotate_left`. -/
def rotateLeft (value shift : UInt32) : UInt32 := value <<< shift ||| value >>> (32 - shift)

/-- `read_u32le`. -/
def readU32le (p : List UInt8) : UInt32 :=
  (p.getD 0 0).toUInt32 ||| (p.getD 1 0).toUInt32 <<< 8 ||| (p.getD 2 0).toUInt32 <<< 16 |||
    (p.getD 3 0).toUInt32 <<< 24

/-- `write_u32le`. -/
def writeU32le (value : UInt32) : List UInt8 :=
  [value.toUInt8, (value >>> 8).toUInt8, (value >>> 16).toUInt8, (value >>> 24).toUInt8]

/-- The constants of the rounds. -/
def constants : List UInt32 :=
  [
    0xd76aa478, 0xe8c7b756, 0x242070db, 0xc1bdceee, 0xf57c0faf, 0x4787c62a, 0xa8304613, 0xfd469501,
    0x698098d8, 0x8b44f7af, 0xffff5bb1, 0x895cd7be, 0x6b901122, 0xfd987193, 0xa679438e, 0x49b40821,
    0xf61e2562, 0xc040b340, 0x265e5a51, 0xe9b6c7aa, 0xd62f105d, 0x02441453, 0xd8a1e681, 0xe7d3fbc8,
    0x21e1cde6, 0xc33707d6, 0xf4d50d87, 0x455a14ed, 0xa9e3e905, 0xfcefa3f8, 0x676f02d9, 0x8d2a4c8a,
    0xfffa3942, 0x8771f681, 0x6d9d6122, 0xfde5380c, 0xa4beea44, 0x4bdecfa9, 0xf6bb4b60, 0xbebfbc70,
    0x289b7ec6, 0xeaa127fa, 0xd4ef3085, 0x04881d05, 0xd9d4d039, 0xe6db99e5, 0x1fa27cf8, 0xc4ac5665,
    0xf4292244, 0x432aff97, 0xab9423a7, 0xfc93a039, 0x655b59c3, 0x8f0ccc92, 0xffeff47d, 0x85845dd1,
    0x6fa87e4f, 0xfe2ce6e0, 0xa3014314, 0x4e0811a1, 0xf7537e82, 0xbd3af235, 0x2ad7d2bb, 0xeb86d391]

/-- The shifts of the rounds. -/
def shifts : List UInt32 :=
  [7, 12, 17, 22, 7, 12, 17, 22, 7, 12, 17, 22, 7, 12, 17, 22,
    5, 9, 14, 20, 5, 9, 14, 20, 5, 9, 14, 20, 5, 9, 14, 20,
    4, 11, 16, 23, 4, 11, 16, 23, 4, 11, 16, 23, 4, 11, 16, 23,
    6, 10, 15, 21, 6, 10, 15, 21, 6, 10, 15, 21, 6, 10, 15, 21]

/-- One turn of the loop of `transform`. -/
def round (words : List UInt32) (s : State) (i : ℕ) : State :=
  let (function, word) :=
    if i < 16 then ((s.b &&& s.c) ||| (~~~ s.b &&& s.d), i)
    else if i < 32 then ((s.d &&& s.b) ||| (~~~ s.d &&& s.c), (5 * i + 1) % 16)
    else if i < 48 then (s.b ^^^ s.c ^^^ s.d, (3 * i + 5) % 16)
    else (s.c ^^^ (s.b ||| ~~~ s.d), (7 * i) % 16)
  { a := s.d
    b := s.b +
      rotateLeft (s.a + function + constants.getD i 0 + words.getD word 0) (shifts.getD i 0)
    c := s.b
    d := s.c }

/-- `transform`. -/
def transform (s : State) (block : List UInt8) : State :=
  let words := (List.range 16).map fun i => readU32le (block.drop (i * 4))
  let t := (List.range 64).foldl (round words) s
  { a := s.a + t.a, b := s.b + t.b, c := s.c + t.c, d := s.d + t.d }

/-- `cn_md5_init`. -/
def init : Context where
  state := { a := 0x67452301, b := 0xefcdab89, c := 0x98badcfe, d := 0x10325476 }
  byteCount := 0
  buffer := []

/-- The loop of `cn_md5_update` over whole blocks: the state and the bytes that are left. The
first argument bounds the number of blocks. -/
def blocks : ℕ → State → List UInt8 → State × List UInt8
  | 0, s, data => (s, data)
  | n + 1, s, data =>
    if 64 ≤ data.length then blocks n (transform s (data.take 64)) (data.drop 64) else (s, data)

/-- The first part of `cn_md5_update`, which fills the buffer: the bytes that are left. -/
def fill (context : Context) (data : List UInt8) : Context × List UInt8 :=
  if context.buffer = [] then (context, data)
  else
    let needed := min (64 - context.buffer.length) data.length
    let buffer := context.buffer ++ data.take needed
    let data := data.drop needed
    if buffer.length = 64 then
      ({ context with state := transform context.state buffer, buffer := [] }, data)
    else ({ context with buffer }, data)

/-- `cn_md5_update`. -/
def update (context : Context) (data : List UInt8) : Context :=
  let context := { context with byteCount := context.byteCount + UInt64.ofNat data.length }
  let (context, data) := fill context data
  let (state, data) := blocks (data.length / 64) context.state data
  if data = [] then { context with state } else { context with state, buffer := data }

/-- `cn_md5_final`. -/
def final (context : Context) : List UInt8 :=
  let bitCount := context.byteCount * 8
  let length := context.buffer.length
  let padding := 0x80 :: List.replicate ((if length < 56 then 56 - length else 120 - length) - 1) 0
  let lengthBytes := (List.range 8).map fun i => (bitCount >>> UInt64.ofNat (i * 8)).toUInt8
  let s := (update (update context padding) lengthBytes).state
  writeU32le s.a ++ writeU32le s.b ++ writeU32le s.c ++ writeU32le s.d

/-- The digest of one text. -/
def digest (data : List UInt8) : List UInt8 := final (update init data)

example : digest (Bytes.ascii "abc") =
    [0x90, 0x01, 0x50, 0x98, 0x3c, 0xd2, 0x4f, 0xb0, 0xd6, 0x96, 0x3f, 0x7d, 0x28, 0xe1, 0x7f, 0x72] := by
  decide +kernel

/-- A digit of the text of a digest. -/
def hexDigit (n : UInt8) : UInt8 := if n < 10 then 0x30 + n else 0x61 + (n - 10)

/-- The lower-case text of a digest. -/
def hex (data : List UInt8) : List UInt8 :=
  data.flatMap fun b : UInt8 => [hexDigit (b >>> 4), hexDigit (b &&& 0x0f)]

theorem length_final (context : Context) : (final context).length = 16 := rfl

theorem length_hex (data : List UInt8) : (hex data).length = 2 * data.length := by
  simp [hex, List.length_flatMap, Nat.mul_comm]

theorem hexDigit_of_lt {n : UInt8} (h : n < 16) :
    (0x30 ≤ hexDigit n ∧ hexDigit n ≤ 0x39) ∨ (0x61 ≤ hexDigit n ∧ hexDigit n ≤ 0x66) := by
  unfold hexDigit
  split_ifs <;> grind

/-- The text of a digest has lower-case hexadecimal digits. -/
theorem mem_hex {data : List UInt8} {c : UInt8} (h : c ∈ hex data) :
    (0x30 ≤ c ∧ c ≤ 0x39) ∨ (0x61 ≤ c ∧ c ≤ 0x66) := by
  simp only [hex, List.mem_flatMap, List.mem_cons, List.not_mem_nil, or_false] at h
  obtain ⟨b, -, rfl | rfl⟩ := h
  · refine hexDigit_of_lt (UInt8.lt_iff_toNat_lt.mpr ?_)
    have := b.toNat_lt
    rw [UInt8.toNat_shiftRight, Nat.shiftRight_eq_div_pow]
    simp
    omega
  · refine hexDigit_of_lt (UInt8.lt_iff_toNat_lt.mpr ?_)
    rw [UInt8.toNat_and]
    exact Nat.lt_of_le_of_lt Nat.and_le_right (by decide)

end Md5
