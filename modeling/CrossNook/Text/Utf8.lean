import Mathlib.Tactic

/-!
# UTF-8

The syntax of UTF-8 byte strings, the encoding of a scalar value, and the loop that every
validator of such strings runs: strip one character, continue with the rest.

## Main definitions

* `Utf8.IsChar u`: `u` is the encoding of one character, by the ranges of its bytes
* `Utf8.ValidWith P l`: `l` is a sequence of characters that satisfy `P`
* `Utf8.encode v`, `Utf8.encodeAll vs`: the encoding of the scalar value `v`, and of several
* `Utf8.validates strip`: the loop of a validator whose step is `strip`

## Main results

* `Utf8.IsChar.eq_of_append`: the characters form a prefix code
* `Utf8.isChar_encode`, `Utf8.IsChar.exists_encode`: scalar values are encoded as characters, and
  every character is an encoding
* `Utf8.validates_iff`: a validator whose step strips the characters satisfying `P` accepts
  exactly the strings with `ValidWith P`
* `Utf8.Strips.step_iff`: such a step, from one equation for each length of a character
-/

namespace Utf8

/-- A continuation byte. -/
abbrev Tail (b : UInt8) : Prop := 0x80 ≤ b ∧ b ≤ 0xbf

/-- `u` encodes one character: neither overlong, nor a surrogate, nor above `0x10ffff`. -/
inductive IsChar : List UInt8 → Prop
  | one {a : UInt8} (ha : a ≤ 0x7f) : IsChar [a]
  | two {a b : UInt8} (ha : 0xc2 ≤ a) (ha' : a ≤ 0xdf) (hb : Tail b) : IsChar [a, b]
  | three {a b c : UInt8} (ha : 0xe0 ≤ a) (ha' : a ≤ 0xef) (hlow : a = 0xe0 → 0xa0 ≤ b)
      (hsur : a = 0xed → b ≤ 0x9f) (hb : Tail b) (hc : Tail c) : IsChar [a, b, c]
  | four {a b c d : UInt8} (ha : 0xf0 ≤ a) (ha' : a ≤ 0xf4) (hlow : a = 0xf0 → 0x90 ≤ b)
      (hhigh : a = 0xf4 → b ≤ 0x8f) (hb : Tail b) (hc : Tail c) (hd : Tail d) :
      IsChar [a, b, c, d]

/-- A sequence of characters, each satisfying `P`. -/
inductive ValidWith (P : List UInt8 → Prop) : List UInt8 → Prop
  | nil : ValidWith P []
  | cons {u l : List UInt8} (hu : IsChar u) (hP : P u) (hl : ValidWith P l) :
      ValidWith P (u ++ l)

/-- A UTF-8 byte string. -/
abbrev Valid : List UInt8 → Prop := ValidWith fun _ => True

theorem IsChar.ne_nil {u : List UInt8} (h : IsChar u) : u ≠ [] := by
  cases h <;> simp

theorem IsChar.length_pos {u : List UInt8} (h : IsChar u) : 0 < u.length :=
  List.length_pos_iff.mpr h.ne_nil

/-- No character starts with a continuation byte. -/
theorem IsChar.head_not_tail {a : UInt8} {u : List UInt8} (h : IsChar (a :: u)) : ¬ Tail a := by
  cases h <;> simp only [Tail] <;> grind

/-- The bytes after the first are continuation bytes. -/
theorem IsChar.tail_of_mem {a b : UInt8} {u : List UInt8} (h : IsChar (a :: u)) (hb : b ∈ u) :
    Tail b := by
  cases h <;> simp_all <;> grind

/-- A character with an ASCII first byte is that byte. -/
theorem IsChar.eq_singleton {a : UInt8} {u : List UInt8} (h : IsChar (a :: u)) (ha : a < 0x80) :
    u = [] := by
  cases h <;> grind

/-- **The characters form a prefix code.** -/
theorem IsChar.eq_of_append {u v a b : List UInt8} (hu : IsChar u) (hv : IsChar v)
    (h : u ++ a = v ++ b) : u = v ∧ a = b := by
  have hlen : u.length = v.length := by
    cases hu <;> cases hv <;> simp only [List.cons_append, List.nil_append, List.cons.injEq] at h <;>
      first | rfl | grind
  exact List.append_inj h hlen

variable {P Q : List UInt8 → Prop}

theorem ValidWith.mono (hPQ : ∀ u, P u → Q u) {l : List UInt8} (h : ValidWith P l) :
    ValidWith Q l := by
  induction h with
  | nil => exact .nil
  | cons hu hP _ ih => exact .cons hu (hPQ _ hP) ih

theorem ValidWith.valid {l : List UInt8} (h : ValidWith P l) : Valid l :=
  h.mono fun _ _ => trivial

theorem ValidWith.single {u : List UInt8} (hu : IsChar u) (hP : P u) : ValidWith P u := by
  simpa using ValidWith.cons hu hP .nil

theorem ValidWith.append {a b : List UInt8} (ha : ValidWith P a) (hb : ValidWith P b) :
    ValidWith P (a ++ b) := by
  induction ha with
  | nil => exact hb
  | cons hu hP _ ih => simpa [List.append_assoc] using ValidWith.cons hu hP ih

/-- The first character of a nonempty valid string. -/
theorem ValidWith.uncons {l : List UInt8} (h : ValidWith P l) (hne : l ≠ []) :
    ∃ u r, l = u ++ r ∧ IsChar u ∧ P u ∧ ValidWith P r := by
  cases h with
  | nil => exact absurd rfl hne
  | cons hu hP hl => exact ⟨_, _, rfl, hu, hP, hl⟩

theorem ValidWith.of_char_append {u l : List UInt8} (hu : IsChar u) (h : ValidWith P (u ++ l)) :
    ValidWith P l := by
  obtain ⟨v, r, he, hv, -, hr⟩ := h.uncons (by simp [hu.ne_nil])
  obtain ⟨-, rfl⟩ := hu.eq_of_append hv he
  exact hr

theorem ValidWith.of_append {a b : List UInt8} (ha : Valid a) (h : ValidWith P (a ++ b)) :
    ValidWith P b := by
  induction ha with
  | nil => exact h
  | cons hu _ _ ih => exact ih (ValidWith.of_char_append hu (by simpa using h))

/-- ASCII strings are valid. -/
theorem valid_of_ascii {l : List UInt8} (h : ∀ b ∈ l, b < 0x80) : Valid l := by
  induction l with
  | nil => exact .nil
  | cons b l ih =>
    have hb : b ≤ 0x7f := by have := h b (by simp); grind
    exact ValidWith.cons (u := [b]) (.one hb) trivial (ih fun c hc => h c (by simp [hc]))

/-- The valid strings without the byte zero are the sequences of characters other than it. -/
theorem validWith_ne_nul_iff {l : List UInt8} :
    ValidWith (· ≠ [0]) l ↔ Valid l ∧ (0 : UInt8) ∉ l := by
  constructor
  · intro h
    refine ⟨h.valid, ?_⟩
    induction h with
    | nil => simp
    | cons hu hP _ ih =>
      rw [List.mem_append, not_or]
      refine ⟨fun h0 => ?_, ih⟩
      cases hu <;> grind
  · rintro ⟨h, h0⟩
    induction h with
    | nil => exact .nil
    | cons hu _ _ ih =>
      rw [List.mem_append, not_or] at h0
      refine .cons hu ?_ (ih h0.2)
      rintro rfl
      simp at h0

/-! ## Encoding -/

/-- A scalar value: a code point that is not a surrogate. -/
def IsScalar (v : ℕ) : Prop := v < 0xd800 ∨ 0xe000 ≤ v ∧ v ≤ 0x10ffff

/-- The encoding of a scalar value. -/
def encode (v : ℕ) : List UInt8 :=
  if v < 0x80 then [UInt8.ofNat v]
  else if v < 0x800 then [UInt8.ofNat (0xc0 + v / 64), UInt8.ofNat (0x80 + v % 64)]
  else if v < 0x10000 then
    [UInt8.ofNat (0xe0 + v / 4096), UInt8.ofNat (0x80 + v / 64 % 64), UInt8.ofNat (0x80 + v % 64)]
  else
    [UInt8.ofNat (0xf0 + v / 262144), UInt8.ofNat (0x80 + v / 4096 % 64),
      UInt8.ofNat (0x80 + v / 64 % 64), UInt8.ofNat (0x80 + v % 64)]

theorem tail_ofNat (n : ℕ) (h : n < 64) : Tail (UInt8.ofNat (0x80 + n)) := by
  simp only [Tail, UInt8.le_iff_toNat_le, UInt8.toNat_ofNat']
  constructor <;> simp <;> omega

theorem isChar_encode {v : ℕ} (h : IsScalar v) : IsChar (encode v) := by
  unfold encode
  unfold IsScalar at h
  split_ifs with h1 h2 h3
  · refine .one ?_
    simp only [UInt8.le_iff_toNat_le, UInt8.toNat_ofNat']
    simp; omega
  · refine .two ?_ ?_ (tail_ofNat _ (by omega)) <;>
      simp only [UInt8.le_iff_toNat_le, UInt8.toNat_ofNat'] <;> simp <;> omega
  · refine .three ?_ ?_ ?_ ?_ (tail_ofNat _ (by omega)) (tail_ofNat _ (by omega)) <;>
      simp only [UInt8.le_iff_toNat_le, ← UInt8.toNat_inj, UInt8.toNat_ofNat'] <;>
      simp <;> omega
  · refine .four ?_ ?_ ?_ ?_ (tail_ofNat _ (by omega)) (tail_ofNat _ (by omega))
      (tail_ofNat _ (by omega)) <;>
      simp only [UInt8.le_iff_toNat_le, ← UInt8.toNat_inj, UInt8.toNat_ofNat'] <;>
      simp <;> omega

theorem length_encode_le (v : ℕ) : (encode v).length ≤ 4 := by
  unfold encode
  split_ifs <;> simp

theorem zero_notMem_encode {v : ℕ} (h : IsScalar v) (h0 : v ≠ 0) : (0 : UInt8) ∉ encode v := by
  unfold encode
  unfold IsScalar at h
  split_ifs with h1 h2 h3 <;>
    simp only [List.mem_cons, List.not_mem_nil, or_false, not_or, ← UInt8.toNat_inj,
      UInt8.toNat_ofNat'] <;> simp <;> omega

/-- The encoding, by the shifts and masks of a C program. -/
theorem encode_eq_shifts {v : ℕ} (hv : v ≤ 0x10ffff) :
    encode v =
      if v < 0x80 then [UInt8.ofNat v]
      else if v < 0x800 then [UInt8.ofNat (0xc0 ||| v >>> 6), UInt8.ofNat (0x80 ||| (v &&& 0x3f))]
      else if v < 0x10000 then
        [UInt8.ofNat (0xe0 ||| v >>> 12), UInt8.ofNat (0x80 ||| (v >>> 6 &&& 0x3f)),
          UInt8.ofNat (0x80 ||| (v &&& 0x3f))]
      else
        [UInt8.ofNat (0xf0 ||| v >>> 18), UInt8.ofNat (0x80 ||| (v >>> 12 &&& 0x3f)),
          UInt8.ofNat (0x80 ||| (v >>> 6 &&& 0x3f)), UInt8.ofNat (0x80 ||| (v &&& 0x3f))] := by
  have hor {i a b : ℕ} (hb : b < 2 ^ i) : 2 ^ i * a ||| b = 2 ^ i * a + b :=
    (Nat.two_pow_add_eq_or_of_lt hb a).symm
  have hmask (n : ℕ) : n &&& 0x3f = n % 64 := Nat.and_two_pow_sub_one_eq_mod n 6
  have h80 (n : ℕ) : 0x80 ||| n % 64 = 0x80 + n % 64 :=
    hor (i := 6) (a := 2) (Nat.mod_lt _ (by decide))
  unfold encode
  simp only [hmask, h80, Nat.shiftRight_eq_div_pow]
  split_ifs with h1 h2 h3
  · rfl
  · rw [show (0xc0 : ℕ) ||| v / 2 ^ 6 = 0xc0 + v / 64 from hor (i := 5) (a := 6) (by omega)]
  · rw [show (0xe0 : ℕ) ||| v / 2 ^ 12 = 0xe0 + v / 4096 from hor (i := 4) (a := 14) (by omega)]
  · rw [show (0xf0 : ℕ) ||| v / 2 ^ 18 = 0xf0 + v / 262144 from
      hor (i := 3) (a := 30) (by omega)]

theorem eq_ofNat {a : UInt8} {n : ℕ} (h : a.toNat = n) : a = UInt8.ofNat n := by
  rw [← h, UInt8.ofNat_toNat]

/-- **Every character is the encoding of a scalar value.** -/
theorem IsChar.exists_encode {u : List UInt8} (h : IsChar u) : ∃ v, IsScalar v ∧ u = encode v := by
  cases h with
  | @one a ha =>
    have ha' : a.toNat ≤ 127 := UInt8.le_iff_toNat_le.mp ha
    refine ⟨a.toNat, .inl (by omega), ?_⟩
    rw [encode, if_pos (by omega), UInt8.ofNat_toNat]
  | @two a b ha ha' hb =>
    simp only [Tail, UInt8.le_iff_toNat_le] at ha ha' hb
    simp at ha ha' hb
    refine ⟨a.toNat % 32 * 64 + b.toNat % 64, .inl (by omega), ?_⟩
    rw [encode, if_neg (by omega), if_pos (by omega), ← eq_ofNat (a := a) (by omega),
      ← eq_ofNat (a := b) (by omega)]
  | @three a b c ha ha' hlow hsur hb hc =>
    simp only [Tail, UInt8.le_iff_toNat_le, ← UInt8.toNat_inj] at ha ha' hlow hsur hb hc
    simp at ha ha' hlow hsur hb hc
    refine ⟨(a.toNat % 16 * 64 + b.toNat % 64) * 64 + c.toNat % 64, ?_, ?_⟩
    · unfold IsScalar
      omega
    · rw [encode, if_neg (by omega), if_neg (by omega), if_pos (by omega),
        ← eq_ofNat (a := a) (by omega), ← eq_ofNat (a := b) (by omega),
        ← eq_ofNat (a := c) (by omega)]
  | @four a b c d ha ha' hlow hhigh hb hc hd =>
    simp only [Tail, UInt8.le_iff_toNat_le, ← UInt8.toNat_inj] at ha ha' hlow hhigh hb hc hd
    simp at ha ha' hlow hhigh hb hc hd
    refine ⟨((a.toNat % 8 * 64 + b.toNat % 64) * 64 + c.toNat % 64) * 64 + d.toNat % 64, ?_, ?_⟩
    · unfold IsScalar
      omega
    · rw [encode, if_neg (by omega), if_neg (by omega), if_neg (by omega),
        ← eq_ofNat (a := a) (by omega), ← eq_ofNat (a := b) (by omega),
        ← eq_ofNat (a := c) (by omega), ← eq_ofNat (a := d) (by omega)]

/-- The encoding of a sequence of scalar values. -/
def encodeAll (vs : List ℕ) : List UInt8 := vs.flatMap encode

@[simp] theorem encodeAll_nil : encodeAll [] = [] := rfl

@[simp] theorem encodeAll_cons (v : ℕ) (vs : List ℕ) :
    encodeAll (v :: vs) = encode v ++ encodeAll vs := List.flatMap_cons

@[simp] theorem encodeAll_append (vs vs' : List ℕ) :
    encodeAll (vs ++ vs') = encodeAll vs ++ encodeAll vs' := List.flatMap_append

theorem length_encodeAll_le (vs : List ℕ) : (encodeAll vs).length ≤ 4 * vs.length := by
  induction vs with
  | nil => exact Nat.le_refl 0
  | cons v vs ih =>
    have := length_encode_le v
    rw [encodeAll_cons, List.length_append, List.length_cons]
    omega

theorem valid_encodeAll {vs : List ℕ} (h : ∀ v ∈ vs, IsScalar v) : Valid (encodeAll vs) := by
  induction vs with
  | nil => exact .nil
  | cons v vs ih =>
    obtain ⟨hv, hvs⟩ := List.forall_mem_cons.mp h
    rw [encodeAll_cons]
    exact .cons (isChar_encode hv) trivial (ih hvs)

/-- **A text without the byte zero** is the encoding of scalar values other than zero. -/
theorem ValidWith.exists_encodeAll {l : List UInt8} (h : ValidWith (· ≠ [0]) l) :
    ∃ vs, (∀ v ∈ vs, IsScalar v ∧ v ≠ 0) ∧ l = encodeAll vs := by
  induction h with
  | nil => exact ⟨[], List.forall_mem_nil _, rfl⟩
  | cons hu hP _ ih =>
    obtain ⟨vs, hvs, rfl⟩ := ih
    obtain ⟨v, hv, rfl⟩ := hu.exists_encode
    refine ⟨v :: vs, List.forall_mem_cons.mpr ⟨⟨hv, ?_⟩, hvs⟩, (encodeAll_cons v vs).symm⟩
    rintro rfl
    exact hP rfl

/-! ## The loop of a validator -/

/-- Accept a byte string by stripping one character after the other. The first argument bounds
the number of characters; the length of the string is enough. -/
def validates (strip : List UInt8 → Option (List UInt8)) : ℕ → List UInt8 → Bool
  | _, [] => true
  | 0, _ :: _ => false
  | n + 1, b :: l =>
    match strip (b :: l) with
    | none => false
    | some r => validates strip n r

theorem validWith_of_validates {strip : List UInt8 → Option (List UInt8)}
    (hs : ∀ l r, strip l = some r → ∃ u, IsChar u ∧ P u ∧ l = u ++ r) :
    ∀ (n : ℕ) (l : List UInt8), validates strip n l = true → ValidWith P l
  | _, [], _ => .nil
  | 0, _ :: _, h => by simp [validates] at h
  | n + 1, b :: l, h => by
    rw [validates] at h
    cases hst : strip (b :: l) with
    | none => simp [hst] at h
    | some r =>
      obtain ⟨u, hu, hP, he⟩ := hs _ _ hst
      rw [he]
      exact .cons hu hP (validWith_of_validates hs n r (by simpa [hst] using h))

theorem validates_of_validWith {strip : List UInt8 → Option (List UInt8)}
    (hs : ∀ u r, IsChar u → P u → strip (u ++ r) = some r) {l : List UInt8}
    (h : ValidWith P l) : ∀ n, l.length ≤ n → validates strip n l = true := by
  induction h with
  | nil => intro n _; cases n <;> rfl
  | @cons u l hu hP _ ih =>
    intro n hn
    obtain ⟨b, t, rfl⟩ := List.exists_cons_of_ne_nil hu.ne_nil
    simp only [List.cons_append, List.length_cons, List.length_append] at hn
    obtain ⟨n, rfl⟩ : ∃ m, n = m + 1 := ⟨n - 1, by omega⟩
    have := hs (b :: t) l hu hP
    rw [List.cons_append] at this ⊢
    rw [validates, this]
    exact ih n (by omega)

/-- **A validator accepts exactly the sequences of the characters its step strips.** -/
theorem validates_iff {strip : List UInt8 → Option (List UInt8)}
    (hs : ∀ l r, strip l = some r ↔ ∃ u, IsChar u ∧ P u ∧ l = u ++ r) (l : List UInt8) :
    validates strip l.length l = true ↔ ValidWith P l :=
  ⟨validWith_of_validates (fun l r h => (hs l r).mp h) l.length l,
    fun h => validates_of_validWith (fun u r hu hP => (hs _ r).mpr ⟨u, hu, hP, rfl⟩) h _ le_rfl⟩

/-! ### Steps that check the ranges of the bytes -/

/-- The number of bytes that the first byte of a multi-byte character announces. -/
def width (a : UInt8) : ℕ :=
  if 0xc2 ≤ a ∧ a ≤ 0xdf then 2
  else if 0xe0 ≤ a ∧ a ≤ 0xef then 3
  else if 0xf0 ≤ a ∧ a ≤ 0xf4 then 4
  else 0

/-- A step that strips one character other than NUL, by the length of the character. -/
structure Strips (strip : List UInt8 → Option (List UInt8)) : Prop where
  nil : strip [] = none
  one : ∀ a r, a < 0x80 → strip (a :: r) = if a = 0 then none else some r
  two : ∀ a b r, 0xc2 ≤ a → a ≤ 0xdf → strip (a :: b :: r) = if Tail b then some r else none
  three : ∀ a b c r, 0xe0 ≤ a → a ≤ 0xef → strip (a :: b :: c :: r) =
    if Tail b ∧ Tail c ∧ (a = 0xe0 → 0xa0 ≤ b) ∧ (a = 0xed → b ≤ 0x9f) then some r else none
  four : ∀ a b c d r, 0xf0 ≤ a → a ≤ 0xf4 → strip (a :: b :: c :: d :: r) =
    if Tail b ∧ Tail c ∧ Tail d ∧ (a = 0xf0 → 0x90 ≤ b) ∧ (a = 0xf4 → b ≤ 0x8f) then some r
    else none
  short : ∀ a r, 0x80 ≤ a → (width a = 0 ∨ r.length + 1 < width a) → strip (a :: r) = none

theorem Strips.step_iff {strip : List UInt8 → Option (List UInt8)} (hs : Strips strip)
    (l r : List UInt8) : strip l = some r ↔ ∃ u, IsChar u ∧ u ≠ [0] ∧ l = u ++ r := by
  constructor
  · intro h
    match l with
    | [] => simp [hs.nil] at h
    | a :: text =>
      by_cases ha : a < 0x80
      · rw [hs.one a _ ha] at h
        exact ⟨[a], .one (by grind), by grind, by grind⟩
      -- a text that ends too early for its first byte is refused, so there are enough bytes
      have hshort : ¬ (width a = 0 ∨ text.length + 1 < width a) := by
        intro hw
        rw [hs.short a text (by grind) hw] at h
        simp at h
      by_cases h2 : 0xc2 ≤ a ∧ a ≤ 0xdf
      · match text with
        | [] => simp [width, h2] at hshort
        | b :: text =>
          rw [hs.two _ _ _ h2.1 h2.2] at h
          exact ⟨[a, b], .two h2.1 h2.2 (by grind), by simp, by grind⟩
      by_cases h3 : 0xe0 ≤ a ∧ a ≤ 0xef
      · match text with
        | [] | [_] => simp [width, h2, h3] at hshort
        | b :: c :: text =>
          rw [hs.three _ _ _ _ h3.1 h3.2] at h
          refine ⟨[a, b, c], .three h3.1 h3.2 ?_ ?_ ?_ ?_, by simp, ?_⟩ <;> grind
      by_cases h4 : 0xf0 ≤ a ∧ a ≤ 0xf4
      · match text with
        -- no other byte starts a character
        | [] | [_] | [_, _] => simp [width, h2, h3, h4] at hshort
        | b :: c :: d :: text =>
          rw [hs.four _ _ _ _ _ h4.1 h4.2] at h
          refine ⟨[a, b, c, d], .four h4.1 h4.2 ?_ ?_ ?_ ?_ ?_, by simp, ?_⟩ <;> grind
      simp [width, h2, h3, h4] at hshort
  · rintro ⟨u, hu, h0, rfl⟩
    cases hu with
    | @one a ha => exact (hs.one a r (by grind)).trans (if_neg (by simpa using h0))
    | two h h' hb => exact (hs.two _ _ r h h').trans (if_pos hb)
    | three h h' hlow hsur hb hc => exact (hs.three _ _ _ r h h').trans (if_pos (by grind))
    | four h h' hlow hhigh hb hc hd => exact (hs.four _ _ _ _ r h h').trans (if_pos (by grind))

/-! ### Steps that compute the value -/

theorem forall_uint8 {p : UInt8 → Prop} : (∀ b, p b) ↔ ∀ i : Fin 256, p (UInt8.ofFin i) :=
  ⟨fun h i => h _, fun h b => by simpa using h b.toFin⟩

theorem and_c0_eq_iff : ∀ b : UInt8, b &&& 0xc0 = 0x80 ↔ Tail b := by
  rw [forall_uint8]
  decide +kernel

/-- The value after one more continuation byte. -/
theorem shift_or (value n : ℕ) : value <<< 6 ||| (n &&& 0x3f) = value * 64 + n % 64 := by
  rw [show (0x3f : ℕ) = 2 ^ 6 - 1 from rfl, Nat.and_two_pow_sub_one_eq_mod, Nat.shiftLeft_eq,
    Nat.mul_comm value, ← Nat.two_pow_add_eq_or_of_lt (Nat.mod_lt _ (by decide))]

/-- The value of a three-byte character is overlong or a surrogate exactly where the second byte
is outside the range of the syntax. -/
theorem range_three {a b c : ℕ} (ha : 0xe0 ≤ a ∧ a ≤ 0xef) (hb : 0x80 ≤ b ∧ b ≤ 0xbf) :
    ((a % 16 * 64 + b % 64) * 64 + c % 64 < 0x800 ∨
      0x10ffff < (a % 16 * 64 + b % 64) * 64 + c % 64 ∨
      0xd800 ≤ (a % 16 * 64 + b % 64) * 64 + c % 64 ∧
        (a % 16 * 64 + b % 64) * 64 + c % 64 ≤ 0xdfff) ↔
      ¬ ((a = 0xe0 → 0xa0 ≤ b) ∧ (a = 0xed → b ≤ 0x9f)) := by
  omega

/-- The same for the four-byte characters, overlong or above the last code point. -/
theorem range_four {a b c d : ℕ} (ha : 0xf0 ≤ a ∧ a ≤ 0xf4) (hb : 0x80 ≤ b ∧ b ≤ 0xbf) :
    (((a % 8 * 64 + b % 64) * 64 + c % 64) * 64 + d % 64 < 0x10000 ∨
      0x10ffff < ((a % 8 * 64 + b % 64) * 64 + c % 64) * 64 + d % 64 ∨
      0xd800 ≤ ((a % 8 * 64 + b % 64) * 64 + c % 64) * 64 + d % 64 ∧
        ((a % 8 * 64 + b % 64) * 64 + c % 64) * 64 + d % 64 ≤ 0xdfff) ↔
      ¬ ((a = 0xf0 → 0x90 ≤ b) ∧ (a = 0xf4 → b ≤ 0x8f)) := by
  omega

end Utf8
