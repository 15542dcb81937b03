import CrossNook.Text.Utf8

/-!
# KOSync progress records

The record that the progress-sync protocol carries, the checks its text fields go through and
`cn_kosync_progress_set` (`sync/kosync.c`). C strings are the bytes before their terminator;
`logical_position` is the one field that can be `NULL`.

## Main definitions

* `Kosync.Progress`: `cn_kosync_progress`
* `Kosync.utf8Valid`, `Kosync.headerTextOk`, `Kosync.documentIdOk`: the checks of the source
* `Kosync.progressSet`: `cn_kosync_progress_set`
* `Kosync.Progress.WellFormed`: a record that the protocol can carry

## Main results

* `Kosync.utf8Valid_iff`: the validator accepts exactly the UTF-8 strings without NUL
* `Kosync.progressSet_eq_ok`: what `progressSet` accepts, and the record it builds
-/

namespace Kosync

/-- `CN_KOSYNC_DOCUMENT_ID_BYTES`. -/
def documentIdBytes : ℕ := 32

/-- `CN_KOSYNC_DEVICE_MAX`. -/
def deviceMax : ℕ := 255

/-- `CN_KOSYNC_POSITION_MAX`. -/
def positionMax : ℕ := 65536

/-- `CN_KOSYNC_JSON_MAX`. -/
def jsonMax : ℕ := positionMax * 6 + 4096

/-- `cn_kosync_result`. -/
inductive Result
  | ok
  | notFound
  | invalid
  | authFailed
  | httpError
  | transportError
  | badJson
  | badProtocol
  | noMemory
  deriving DecidableEq, Repr

/-- `cn_kosync_progress`. -/
structure Progress where
  documentId : List UInt8
  logicalPosition : Option (List UInt8)
  progress10000 : ℤ
  device : List UInt8
  deviceId : List UInt8
  timestamp : ℤ
  hasTimestamp : Bool
  deriving DecidableEq, Repr

/-- `cn_kosync_progress_init`; `cn_kosync_progress_clear` leaves the same value. -/
def progressInit : Progress where
  documentId := []
  logicalPosition := none
  progress10000 := -1
  device := []
  deviceId := []
  timestamp := 0
  hasTimestamp := false

/-! ## Text checks -/

/-- `bounded_length`: counting stops one past `maximum`. -/
def boundedLength (text : Option (List UInt8)) (maximum : ℕ) : ℕ :=
  match text with
  | none => maximum + 1
  | some t => min t.length (maximum + 1)

/-- `header_text_ok`. -/
def headerTextOk (text : List UInt8) (maximum : ℕ) (allowEmpty : Bool) : Bool :=
  let length := boundedLength (some text) maximum
  if maximum < length ∨ (¬ allowEmpty ∧ length = 0) then false
  else (text.take length).all fun c => ¬ (c < 0x20 ∨ c = 0x7f)

/-- The digits of a document id. -/
abbrev IsLowerHex (c : UInt8) : Prop := (0x30 ≤ c ∧ c ≤ 0x39) ∨ (0x61 ≤ c ∧ c ≤ 0x66)

/-- `document_id_ok`. -/
def documentIdOk (documentId : List UInt8) : Bool :=
  if boundedLength (some documentId) documentIdBytes ≠ documentIdBytes then false
  else (documentId.take documentIdBytes).all fun c => IsLowerHex c

/-- The first byte of a multi-byte character: the bits it contributes, the least value the
character may have and the number of bytes that follow. -/
def utf8Lead (c : UInt8) : Option (ℕ × ℕ × ℕ) :=
  if 0xc2 ≤ c ∧ c ≤ 0xdf then some (c.toNat &&& 0x1f, 0x80, 1)
  else if 0xe0 ≤ c ∧ c ≤ 0xef then some (c.toNat &&& 0x0f, 0x800, 2)
  else if 0xf0 ≤ c ∧ c ≤ 0xf4 then some (c.toNat &&& 0x07, 0x10000, 3)
  else none

/-- The inner loop of `utf8_valid` over the continuation bytes. -/
def utf8Tail : ℕ → ℕ → List UInt8 → Option (ℕ × List UInt8)
  | 0, value, text => some (value, text)
  | _ + 1, _, [] => none
  | remaining + 1, value, next :: text =>
    if next &&& 0xc0 ≠ 0x80 then none
    else utf8Tail remaining (value <<< 6 ||| (next.toNat &&& 0x3f)) text

/-- One turn of the outer loop of `utf8_valid`. -/
def utf8Step : List UInt8 → Option (List UInt8)
  | [] => none
  | c :: text =>
    if c < 0x80 then
      if c = 0 then none else some text
    else
      match utf8Lead c with
      | none => none
      | some (value, minimum, remaining) =>
        if text.length < remaining then none
        else
          match utf8Tail remaining value text with
          | none => none
          | some (value, text) =>
            if value < minimum ∨ 0x10ffff < value ∨ (0xd800 ≤ value ∧ value ≤ 0xdfff) then none
            else some text

/-- `utf8_valid`. -/
def utf8Valid (text : List UInt8) : Bool := Utf8.validates utf8Step text.length text

/-- `cn_kosync_progress_set` on the record `progress`; `alloc` tells whether `malloc` succeeds. -/
def progressSet (alloc : Bool) (progress : Progress) (documentId : List UInt8)
    (logicalPosition : Option (List UInt8)) (progress10000 : ℤ) (device deviceId : List UInt8) :
    Result × Progress :=
  let positionLength := boundedLength logicalPosition positionMax
  let position := logicalPosition.getD []
  if ¬ documentIdOk documentId ∨ progress10000 < 0 ∨ 10000 < progress10000 ∨
      ¬ headerTextOk device deviceMax false ∨ ¬ headerTextOk deviceId deviceMax false then
    (.invalid, progress)
  else if positionLength = 0 ∨ positionMax < positionLength ∨
      ¬ utf8Valid (position.take positionLength) ∨ ¬ utf8Valid device ∨ ¬ utf8Valid deviceId then
    (.invalid, progress)
  else if ¬ alloc then (.noMemory, progress)
  else
    (.ok, { progressInit with documentId, logicalPosition := some position, progress10000, device,
                              deviceId })

/-! ## What the checks accept -/

/-- NUL-free UTF-8. -/
abbrev Text (l : List UInt8) : Prop := Utf8.ValidWith (· ≠ [0]) l

/-- 32 lowercase hexadecimal digits. -/
abbrev IsDocumentId (d : List UInt8) : Prop :=
  d.length = documentIdBytes ∧ ∀ c ∈ d, IsLowerHex c

/-- A byte that may stand in a header value. -/
abbrev HeaderByte (c : UInt8) : Prop := 0x20 ≤ c ∧ c ≠ 0x7f

theorem headerTextOk_iff {text : List UInt8} {maximum : ℕ} {allowEmpty : Bool} :
    headerTextOk text maximum allowEmpty = true ↔
      text.length ≤ maximum ∧ (allowEmpty = false → text ≠ []) ∧ ∀ c ∈ text, HeaderByte c := by
  have hempty : min text.length (maximum + 1) = 0 ↔ text = [] := by
    rw [← List.length_eq_zero_iff]; omega
  by_cases hlen : text.length ≤ maximum
  · have hmin : min text.length (maximum + 1) = text.length := by omega
    simp only [headerTextOk, boundedLength, hmin, List.take_length, hlen, true_and]
    split_ifs with h
    · rcases h with h | ⟨h1, h2⟩
      · omega
      · simp [List.length_eq_zero_iff.mp h2, h1]
    · rw [not_or, not_and] at h
      have : allowEmpty = false → text ≠ [] := by
        rintro rfl rfl
        exact h.2 (by simp) (by simp)
      simp only [List.all_eq_true]
      grind
  · have hmin : min text.length (maximum + 1) = maximum + 1 := by omega
    simp [headerTextOk, boundedLength, hmin, hlen]

theorem documentIdOk_iff {d : List UInt8} : documentIdOk d = true ↔ IsDocumentId d := by
  by_cases hlen : d.length = documentIdBytes
  · have hmin : min d.length (documentIdBytes + 1) = documentIdBytes := by omega
    have htake : d.take documentIdBytes = d := by rw [← hlen, List.take_length]
    simp only [documentIdOk, boundedLength, htake, IsDocumentId, hlen]
    simp
  · have hmin : min d.length (documentIdBytes + 1) ≠ documentIdBytes := by omega
    simp [documentIdOk, boundedLength, hmin, IsDocumentId, hlen]

/-! ### UTF-8 -/

theorem utf8Tail_zero (value : ℕ) (text : List UInt8) :
    utf8Tail 0 value text = some (value, text) := rfl

theorem utf8Tail_cons (remaining value : ℕ) (b : UInt8) (text : List UInt8) :
    utf8Tail (remaining + 1) value (b :: text) =
      if Utf8.Tail b then utf8Tail remaining (value * 64 + b.toNat % 64) text else none := by
  by_cases h : Utf8.Tail b
  · rw [utf8Tail, if_neg (not_not.mpr ((Utf8.and_c0_eq_iff b).mpr h)), Utf8.shift_or,
      if_pos h]
  · rw [utf8Tail, if_pos (mt (Utf8.and_c0_eq_iff b).mp h), if_neg h]

theorem utf8Lead_two {a : UInt8} (h : 0xc2 ≤ a) (h' : a ≤ 0xdf) :
    utf8Lead a = some (a.toNat % 32, 0x80, 1) := by
  rw [utf8Lead, if_pos ⟨h, h'⟩, show (0x1f : ℕ) = 2 ^ 5 - 1 from rfl,
    Nat.and_two_pow_sub_one_eq_mod]

theorem utf8Lead_three {a : UInt8} (h : 0xe0 ≤ a) (h' : a ≤ 0xef) :
    utf8Lead a = some (a.toNat % 16, 0x800, 2) := by
  rw [utf8Lead, if_neg (by grind), if_pos ⟨h, h'⟩, show (0x0f : ℕ) = 2 ^ 4 - 1 from rfl,
    Nat.and_two_pow_sub_one_eq_mod]

theorem utf8Lead_four {a : UInt8} (h : 0xf0 ≤ a) (h' : a ≤ 0xf4) :
    utf8Lead a = some (a.toNat % 8, 0x10000, 3) := by
  rw [utf8Lead, if_neg (by grind), if_neg (by grind), if_pos ⟨h, h'⟩,
    show (0x07 : ℕ) = 2 ^ 3 - 1 from rfl, Nat.and_two_pow_sub_one_eq_mod]

theorem utf8Step_ascii {a : UInt8} (ha : a < 0x80) (text : List UInt8) :
    utf8Step (a :: text) = if a = 0 then none else some text := by
  rw [utf8Step, if_pos ha]

theorem utf8Step_two {a : UInt8} (h : 0xc2 ≤ a) (h' : a ≤ 0xdf) (b : UInt8) (r : List UInt8) :
    utf8Step (a :: b :: r) = if Utf8.Tail b then some r else none := by
  rw [utf8Step, if_neg (by grind), utf8Lead_two h h']
  simp only [List.length_cons, utf8Tail_cons, utf8Tail_zero]
  rw [if_neg (by omega)]
  by_cases hb : Utf8.Tail b
  · rw [if_pos hb, if_pos hb]
    simp only [UInt8.le_iff_toNat_le] at h h' hb
    simp at h h' hb
    exact if_neg (by omega)
  · simp [hb]

theorem utf8Step_three {a : UInt8} (h : 0xe0 ≤ a) (h' : a ≤ 0xef) (b c : UInt8)
    (r : List UInt8) :
    utf8Step (a :: b :: c :: r) =
      if Utf8.Tail b ∧ Utf8.Tail c ∧ (a = 0xe0 → 0xa0 ≤ b) ∧ (a = 0xed → b ≤ 0x9f) then some r
      else none := by
  rw [utf8Step, if_neg (by grind), utf8Lead_three h h']
  simp only [List.length_cons, utf8Tail_cons, utf8Tail_zero]
  rw [if_neg (by omega)]
  by_cases hb : Utf8.Tail b
  · by_cases hc : Utf8.Tail c
    · rw [if_pos hb, if_pos hc]
      dsimp only
      rw [← ite_not]
      refine if_congr ?_ rfl rfl
      rw [Utf8.range_three (a := a.toNat) (b := b.toNat) ⟨h, h'⟩ hb, not_not, and_iff_right hb,
        and_iff_right hc, ← UInt8.toNat_inj, ← UInt8.toNat_inj]
      rfl
    · simp [hc]
  · simp [hb]

theorem utf8Step_four {a : UInt8} (h : 0xf0 ≤ a) (h' : a ≤ 0xf4) (b c d : UInt8)
    (r : List UInt8) :
    utf8Step (a :: b :: c :: d :: r) =
      if Utf8.Tail b ∧ Utf8.Tail c ∧ Utf8.Tail d ∧ (a = 0xf0 → 0x90 ≤ b) ∧ (a = 0xf4 → b ≤ 0x8f)
      then some r else none := by
  rw [utf8Step, if_neg (by grind), utf8Lead_four h h']
  simp only [List.length_cons, utf8Tail_cons, utf8Tail_zero]
  rw [if_neg (by omega)]
  by_cases hb : Utf8.Tail b
  · by_cases hc : Utf8.Tail c
    · by_cases hd : Utf8.Tail d
      · rw [if_pos hb, if_pos hc, if_pos hd]
        dsimp only
        rw [← ite_not]
        refine if_congr ?_ rfl rfl
        rw [Utf8.range_four (a := a.toNat) (b := b.toNat) ⟨h, h'⟩ hb, not_not, and_iff_right hb,
          and_iff_right hc, and_iff_right hd, ← UInt8.toNat_inj, ← UInt8.toNat_inj]
        rfl
      · simp [hd]
    · simp [hc]
  · simp [hb]

/-- The step of the validator fails at a byte that no character starts with, and where the text
ends inside a character. -/
theorem utf8Step_eq_none {a : UInt8} {text : List UInt8} (ha : 0x80 ≤ a)
    (h : ∀ v m n, utf8Lead a = some (v, m, n) → text.length < n) : utf8Step (a :: text) = none := by
  rw [utf8Step, if_neg (by grind)]
  cases hl : utf8Lead a with
  | none => rfl
  | some t =>
    obtain ⟨v, m, n⟩ := t
    simp only [if_pos (h v m n hl)]

theorem utf8Step_strips : Utf8.Strips utf8Step where
  nil := rfl
  one _ r ha := utf8Step_ascii ha r
  two _ b r h h' := utf8Step_two h h' b r
  three _ b c r h h' := utf8Step_three h h' b c r
  four _ b c d r h h' := utf8Step_four h h' b c d r
  short a r ha hw := by
    refine utf8Step_eq_none ha fun v m n hl => ?_
    unfold utf8Lead at hl
    unfold Utf8.width at hw
    split_ifs at hl hw <;> simp_all <;> omega

/-- **The validator accepts exactly the UTF-8 strings without NUL.** -/
theorem utf8Valid_iff {l : List UInt8} : utf8Valid l = true ↔ Text l :=
  Utf8.validates_iff utf8Step_strips.step_iff l

/-! ## Well-formed records -/

/-- A record that the protocol can carry. -/
structure Progress.WellFormed (p : Progress) : Prop where
  documentId : IsDocumentId p.documentId
  position : ∃ l, p.logicalPosition = some l ∧ l ≠ [] ∧ l.length ≤ positionMax ∧ Text l
  progress10000 : 0 ≤ p.progress10000 ∧ p.progress10000 ≤ 10000
  device : p.device ≠ [] ∧ p.device.length ≤ deviceMax ∧ Text p.device
  device_header : ∀ c ∈ p.device, HeaderByte c
  deviceId : p.deviceId ≠ [] ∧ p.deviceId.length ≤ deviceMax ∧ Text p.deviceId
  deviceId_header : ∀ c ∈ p.deviceId, HeaderByte c

theorem progressSet_cases (alloc : Bool) (old : Progress) (doc : List UInt8)
    (pos : Option (List UInt8)) (n : ℤ) (device deviceId : List UInt8) :
    (∃ new, progressSet alloc old doc pos n device deviceId = (.ok, new)) ∨
      ∃ r, (r = .invalid ∨ r = .noMemory) ∧
        progressSet alloc old doc pos n device deviceId = (r, old) := by
  simp only [progressSet]
  split_ifs
  · exact .inr ⟨_, .inl rfl, rfl⟩
  · exact .inr ⟨_, .inl rfl, rfl⟩
  · exact .inl ⟨_, rfl⟩
  · exact .inr ⟨_, .inr rfl, rfl⟩

/-- What `progressSet` accepts when memory is available, and the record it builds. -/
theorem progressSet_eq_ok {alloc : Bool} {old new : Progress} {doc : List UInt8}
    {pos : Option (List UInt8)} {n : ℤ} {device deviceId : List UInt8}
    (h : progressSet alloc old doc pos n device deviceId = (.ok, new)) :
    new = { progressInit with documentId := doc, logicalPosition := pos, progress10000 := n,
                              device, deviceId } ∧ new.WellFormed := by
  simp only [progressSet] at h
  split_ifs at h with h1 h2 h3
  · simp at h
  · simp at h
  · simp only [not_or, not_not] at h1 h2
    obtain ⟨hd, hn0, hn1, hdev, hdid⟩ := h1
    obtain ⟨hl0, hl1, hu, hud, hui⟩ := h2
    cases pos with
    | none => simp [boundedLength] at hl1
    | some l =>
      simp only [boundedLength] at hl0 hl1 hu
      have hlen : l.length ≤ positionMax := by omega
      have htake : l.take (min l.length (positionMax + 1)) = l := List.take_of_length_le (by omega)
      rw [Option.getD_some, htake, utf8Valid_iff] at hu
      rw [utf8Valid_iff] at hud hui
      rw [headerTextOk_iff] at hdev hdid
      obtain ⟨-, rfl⟩ := Prod.mk.inj h
      refine ⟨rfl, documentIdOk_iff.mp hd, ⟨l, rfl, ?_, hlen, hu⟩, by simp only; omega,
        ⟨hdev.2.1 rfl, hdev.1, hud⟩, hdev.2.2, ⟨hdid.2.1 rfl, hdid.1, hui⟩, hdid.2.2⟩
      rintro rfl
      exact hl0 rfl
  · simp at h

end Kosync
