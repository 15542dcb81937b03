import CrossNook.Text.Bytes

/-!
# Book identities

The opaque tokens that name the records of the progress store (`progress/book_identity.c`).

## Main definitions

* `BookIdentity`: `cn_book_identity`
* `BookIdentity.token`: `cn_book_identity_token`
* `BookIdentity.fromPath`: `cn_book_identity_from_path`

## Main results

* `BookIdentity.token_eq_some_iff`: the tokens of valid identities
* `BookIdentity.token_fromPath`: a derived identity is valid
-/

/-- `CN_BOOK_IDENTITY_TOKEN_BYTES`. -/
def tokenBytes : ℕ := 25

/-- `CN_BOOK_IDENTITY_PATH_MAX_BYTES`. -/
def pathMaxBytes : ℕ := 4096

/-- `cn_book_identity`: the bytes of its array. -/
structure BookIdentity where
  bytes : List UInt8
  length_eq : bytes.length = tokenBytes

namespace BookIdentity

/-- `cn_book_identity_init`. -/
def init : BookIdentity := ⟨List.replicate tokenBytes 0, List.length_replicate⟩

/-- `ID_PREFIX`. -/
def idPrefix : List UInt8 := Bytes.ascii "path-v1-"

/-- A digit of the hash. -/
abbrev IsHexDigit (c : UInt8) : Prop := (0x30 ≤ c ∧ c ≤ 0x39) ∨ (0x61 ≤ c ∧ c ≤ 0x66)

/-- `identity_valid`. -/
def identityValid (identity : BookIdentity) : Bool :=
  if identity.bytes.take idPrefix.length ≠ idPrefix then false
  else if ¬ ((identity.bytes.take (tokenBytes - 1)).drop idPrefix.length).all fun c =>
      IsHexDigit c then false
  else identity.bytes.drop (tokenBytes - 1) = [0]

/-- `cn_book_identity_token`: `NULL`, or the C string in the array. -/
def token (identity : BookIdentity) : Option (List UInt8) :=
  if identityValid identity then some (identity.bytes.takeWhile fun c => c ≠ 0) else none

/-- The FNV-1a hash of the source. -/
def hash (path : List UInt8) : UInt64 :=
  path.foldl (fun hash c => (hash ^^^ c.toUInt64) * 1099511628211) 14695981039346656037

/-- A digit of `hex`. -/
def hexDigit (n : UInt64) : UInt8 :=
  if n < 10 then 0x30 + n.toUInt8 else 0x61 + (n.toUInt8 - 10)

/-- The sixteen digits of a hash, most significant first. -/
def hexDigits (hash : UInt64) : List UInt8 :=
  (List.range 16).map fun i => hexDigit ((hash >>> UInt64.ofNat ((15 - i) * 4)) &&& 0x0f)

theorem length_hexDigits (hash : UInt64) : (hexDigits hash).length = 16 := by
  simp [hexDigits]

/-- The identity with the given hash. -/
def ofHash (hash : UInt64) : BookIdentity where
  bytes := idPrefix ++ hexDigits hash ++ [0]
  length_eq := by
    rw [List.length_append, List.length_append, length_hexDigits]
    rfl

/-- `cn_book_identity_from_path`. A failed call leaves the initial identity. -/
def fromPath (path : Option (List UInt8)) : Option BookIdentity :=
  match path with
  | none => none
  | some path =>
    if path.length = 0 ∨ pathMaxBytes < path.length then none else some (ofHash (hash path))

/-! ## Tokens -/

theorem length_idPrefix : idPrefix.length = 8 := rfl

theorem takeWhile_token {digits : List UInt8} (hd : ∀ c ∈ digits, IsHexDigit c) :
    (idPrefix ++ digits ++ [0]).takeWhile (fun c => c ≠ 0) = idPrefix ++ digits := by
  have hne : ∀ c ∈ idPrefix ++ digits, decide (c ≠ 0) = true := by
    intro c hc
    rcases List.mem_append.mp hc with hc | hc
    · have : ∀ c ∈ idPrefix, c ≠ 0 := Bytes.forall_of_all rfl
      exact decide_eq_true (this c hc)
    · have := hd c hc
      rw [decide_eq_true_eq]
      rintro rfl
      revert this
      decide
  rw [List.takeWhile_append_of_pos hne]
  simp

/-- What `identityValid` accepts: the prefix, sixteen digits and the terminator. -/
theorem identityValid_iff {identity : BookIdentity} : identityValid identity = true ↔
    ∃ digits, identity.bytes = idPrefix ++ digits ++ [0] ∧ digits.length = 16 ∧
      ∀ c ∈ digits, IsHexDigit c := by
  obtain ⟨bytes, hlen⟩ := identity
  constructor
  · intro hv
    unfold identityValid at hv
    split_ifs at hv with hp hd
    simp only [not_not] at hp hd
    simp only [decide_eq_true_eq] at hv
    -- the bytes before the terminator, cut behind the prefix
    have hprefix : (bytes.take (tokenBytes - 1)).take idPrefix.length = idPrefix := by
      rw [List.take_take, show min idPrefix.length (tokenBytes - 1) = idPrefix.length from rfl, hp]
    refine ⟨(bytes.take (tokenBytes - 1)).drop idPrefix.length, ?_, ?_, by simpa using hd⟩
    · calc bytes = bytes.take (tokenBytes - 1) ++ bytes.drop (tokenBytes - 1) :=
            (List.take_append_drop _ _).symm
        _ = _ := by
            rw [hv]
            nth_rewrite 1 [← List.take_append_drop idPrefix.length (bytes.take (tokenBytes - 1)),
              hprefix]
            rfl
    · simp only [List.length_drop, List.length_take, hlen, tokenBytes, length_idPrefix]
      omega
  · rintro ⟨digits, rfl, h16, hd⟩
    have h24 : (idPrefix ++ digits).length = tokenBytes - 1 := by
      rw [List.length_append, h16, length_idPrefix]
      rfl
    unfold identityValid
    rw [if_neg, if_neg]
    · rw [List.drop_left' h24, decide_eq_true_eq]
    · rw [List.take_left' h24, List.drop_left' rfl, not_not, List.all_eq_true]
      exact fun c hc => decide_eq_true (hd c hc)
    · rw [not_not]
      dsimp only
      rw [List.append_assoc, List.take_left' rfl]

/-- **The tokens of valid identities.** -/
theorem token_eq_some_iff {identity : BookIdentity} {t : List UInt8} :
    identity.token = some t ↔ identity.bytes = t ++ [0] ∧
      ∃ digits, t = idPrefix ++ digits ∧ digits.length = 16 ∧ ∀ c ∈ digits, IsHexDigit c := by
  unfold token
  constructor
  · intro h
    split_ifs at h with hv
    obtain ⟨digits, hb, h16, hd⟩ := identityValid_iff.mp hv
    obtain rfl := Option.some.inj h
    rw [hb, takeWhile_token hd]
    exact ⟨rfl, digits, rfl, h16, hd⟩
  · rintro ⟨hb, digits, rfl, h16, hd⟩
    rw [if_pos (identityValid_iff.mpr ⟨digits, hb, h16, hd⟩), hb, takeWhile_token hd]

/-- All tokens have the same length. -/
theorem length_token {identity : BookIdentity} {t : List UInt8} (h : identity.token = some t) :
    t.length = tokenBytes - 1 := by
  obtain ⟨-, digits, rfl, hlen, -⟩ := token_eq_some_iff.mp h
  rw [List.length_append, hlen]
  rfl

theorem isHexDigit_hexDigit {n : UInt64} (h : n.toNat < 16) : IsHexDigit (hexDigit n) := by
  have : ∀ i < 16, IsHexDigit (hexDigit (UInt64.ofNat i)) := by decide
  simpa using this n.toNat h

/-- The token of an identity with a given hash. -/
theorem token_ofHash (hash : UInt64) :
    (ofHash hash).token = some (idPrefix ++ hexDigits hash) := by
  refine token_eq_some_iff.mpr ⟨rfl, _, rfl, length_hexDigits _, fun c hc => ?_⟩
  obtain ⟨i, -, rfl⟩ := List.mem_map.mp hc
  refine isHexDigit_hexDigit ?_
  rw [UInt64.toNat_and]
  exact Nat.lt_of_le_of_lt Nat.and_le_right (by decide)

/-- **A derived identity is valid.** -/
theorem token_fromPath {path : Option (List UInt8)} {identity : BookIdentity}
    (h : fromPath path = some identity) :
    ∃ l, path = some l ∧ identity.token = some (idPrefix ++ hexDigits (hash l)) := by
  cases path with
  | none => simp [fromPath] at h
  | some l =>
    simp only [fromPath] at h
    split_ifs at h
    obtain rfl := Option.some.inj h
    exact ⟨l, rfl, token_ofHash _⟩

end BookIdentity
