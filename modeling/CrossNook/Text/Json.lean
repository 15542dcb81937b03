import CrossNook.Text.Bytes
import CrossNook.Text.Utf8

/-!
# The grammar of flat JSON objects

JSON text of one object whose members are scalars, as relations between a byte string and what
it denotes. Strings denote the UTF-8 bytes of their decoded characters; an escaped surrogate is
in the grammar as the high half of a pair only, since a lone one denotes no character. Numbers
are kept as their parts, so that both their text and their value are functions of them.

## Main definitions

* `Json.StringBody raw s`: `raw`, between quotes, denotes the string `s`
* `Json.Number`: a number, with `Number.text` and `Number.value`
* `Json.ScalarText t v`, `Json.MembersText t ms`: `t` denotes the scalar `v`, the members `ms`
* `Json.FlatObjectText t ms`: `t` is JSON text of the object with the members `ms`
-/

namespace Json

open Bytes (IsDigit natOfDigits ascii)

/-! ## White space -/

/-- Space, horizontal tab, line feed or carriage return. -/
abbrev IsWs (b : UInt8) : Prop := b = 0x20 ∨ b = 0x09 ∨ b = 0x0d ∨ b = 0x0a

/-- Insignificant white space. -/
abbrev Ws (l : List UInt8) : Prop := ∀ b ∈ l, IsWs b

theorem ws_nil : Ws [] := fun _ hb => absurd hb List.not_mem_nil

theorem ws_append {a b : List UInt8} (ha : Ws a) (hb : Ws b) : Ws (a ++ b) := by
  intro c hc
  rcases List.mem_append.mp hc with hc | hc
  · exact ha c hc
  · exact hb c hc

/-! ## Strings -/

/-- The value of a hexadecimal digit, of either case. -/
def hexDigit (b : UInt8) : Option ℕ :=
  if 0x30 ≤ b ∧ b ≤ 0x39 then some (b.toNat - 0x30)
  else if 0x61 ≤ b ∧ b ≤ 0x66 then some (b.toNat - 0x61 + 10)
  else if 0x41 ≤ b ∧ b ≤ 0x46 then some (b.toNat - 0x41 + 10)
  else none

/-- Four hexadecimal digits and the number they denote. -/
inductive Hex4 : List UInt8 → ℕ → Prop
  | intro {a b c d : UInt8} {va vb vc vd : ℕ} (ha : hexDigit a = some va)
      (hb : hexDigit b = some vb) (hc : hexDigit c = some vc) (hd : hexDigit d = some vd) :
      Hex4 [a, b, c, d] (((va * 16 + vb) * 16 + vc) * 16 + vd)

/-- The two-character escapes: the letter after the backslash and the byte it denotes. -/
def simpleEscape (b : UInt8) : Option UInt8 :=
  if b = 0x22 then some 0x22        -- quotation mark
  else if b = 0x5c then some 0x5c   -- reverse solidus
  else if b = 0x2f then some 0x2f   -- solidus
  else if b = 0x62 then some 0x08   -- b, backspace
  else if b = 0x66 then some 0x0c   -- f, form feed
  else if b = 0x6e then some 0x0a   -- n, line feed
  else if b = 0x72 then some 0x0d   -- r, carriage return
  else if b = 0x74 then some 0x09   -- t, tab
  else none

/-- The code point of a surrogate pair. -/
def pairValue (high low : ℕ) : ℕ := 0x10000 + (high - 0xd800) * 0x400 + (low - 0xdc00)

/-- A character written as an escape, and the bytes it denotes. -/
inductive Escape : List UInt8 → List UInt8 → Prop
  | simple {b c : UInt8} (h : simpleEscape b = some c) : Escape [0x5c, b] [c]
  | unicode {h : List UInt8} {v : ℕ} (hh : Hex4 h v) (hv : Utf8.IsScalar v) :
      Escape (0x5c :: 0x75 :: h) (Utf8.encode v)
  | surrogates {h l : List UInt8} {high low : ℕ} (hh : Hex4 h high) (hl : Hex4 l low)
      (hhigh : 0xd800 ≤ high ∧ high ≤ 0xdbff) (hlow : 0xdc00 ≤ low ∧ low ≤ 0xdfff) :
      Escape (0x5c :: 0x75 :: (h ++ 0x5c :: 0x75 :: l)) (Utf8.encode (pairValue high low))

/-- One character of a string: how it is written, and the bytes it denotes. -/
inductive StringChar : List UInt8 → List UInt8 → Prop
  | unescaped {u : List UInt8} (hu : Utf8.IsChar u) (hc : ∀ b ∈ u, 0x20 ≤ b)
      (hq : u ≠ [0x22]) (hs : u ≠ [0x5c]) : StringChar u u
  | escape {r d : List UInt8} (h : Escape r d) : StringChar r d

/-- The characters between the quotes of a string, and the bytes they denote. -/
inductive StringBody : List UInt8 → List UInt8 → Prop
  | nil : StringBody [] []
  | cons {r d rs ds : List UInt8} (h : StringChar r d) (hs : StringBody rs ds) :
      StringBody (r ++ rs) (d ++ ds)

theorem isScalar_pairValue {high low : ℕ} (hhigh : 0xd800 ≤ high ∧ high ≤ 0xdbff)
    (hlow : 0xdc00 ≤ low ∧ low ≤ 0xdfff) : Utf8.IsScalar (pairValue high low) := by
  unfold Utf8.IsScalar pairValue
  omega

theorem simpleEscape_range {b c : UInt8} (h : simpleEscape b = some c) : c ≠ 0 ∧ c ≤ 0x7f := by
  unfold simpleEscape at h
  grind

/-- An escape denotes one character. -/
theorem Escape.isChar {r d : List UInt8} (h : Escape r d) : Utf8.IsChar d := by
  cases h with
  | simple h => exact .one (simpleEscape_range h).2
  | unicode _ hv => exact Utf8.isChar_encode hv
  | surrogates _ _ hhigh hlow => exact Utf8.isChar_encode (isScalar_pairValue hhigh hlow)

theorem StringChar.isChar {r d : List UInt8} (h : StringChar r d) : Utf8.IsChar d := by
  cases h with
  | unescaped hu => exact hu
  | escape h => exact h.isChar

/-- A string denotes UTF-8. -/
theorem StringBody.valid {raw s : List UInt8} (h : StringBody raw s) : Utf8.Valid s := by
  induction h with
  | nil => exact .nil
  | cons h _ ih => exact .cons h.isChar trivial ih

/-- Writing a character takes at least as many bytes as it denotes. -/
theorem StringChar.length_le {r d : List UInt8} (h : StringChar r d) : d.length ≤ r.length := by
  cases h with
  | unescaped => exact le_rfl
  | escape h =>
    cases h with
    | simple => simp
    | @unicode _ v hh =>
      have := Utf8.length_encode_le v
      cases hh
      simp only [List.length_cons, List.length_nil]
      omega
    | @surrogates _ _ high low hh hl =>
      have := Utf8.length_encode_le (pairValue high low)
      cases hh
      simp only [List.length_cons, List.length_append]
      omega

theorem StringBody.length_le {raw s : List UInt8} (h : StringBody raw s) :
    s.length ≤ raw.length := by
  induction h with
  | nil => exact le_rfl
  | cons h _ ih =>
    have := h.length_le
    simp only [List.length_append]
    omega

/-! ### Strings byte by byte -/

/-- One step through a string that takes unescaped characters byte by byte. -/
inductive RawChar : List UInt8 → List UInt8 → Prop
  | byte {b : UInt8} (h : 0x20 ≤ b) (hq : b ≠ 0x22) (hs : b ≠ 0x5c) : RawChar [b] [b]
  | escape {r d : List UInt8} (h : Escape r d) : RawChar r d

/-- A string read byte by byte; the unescaped bytes need not be UTF-8. -/
inductive RawBody : List UInt8 → List UInt8 → Prop
  | nil : RawBody [] []
  | cons {r d rs ds : List UInt8} (h : RawChar r d) (hs : RawBody rs ds) :
      RawBody (r ++ rs) (d ++ ds)

theorem RawChar.ne_nil {r d : List UInt8} (h : RawChar r d) : r ≠ [] := by
  cases h with
  | byte => simp
  | escape h => cases h <;> simp

/-- Bytes that need no escape may stand in front of any body. -/
theorem RawBody.bytes {u raw s : List UInt8}
    (hu : ∀ b ∈ u, 0x20 ≤ b ∧ b ≠ 0x22 ∧ b ≠ 0x5c) (h : RawBody raw s) :
    RawBody (u ++ raw) (u ++ s) := by
  induction u with
  | nil => exact h
  | cons b u ih =>
    obtain ⟨h1, h2, h3⟩ := hu b (by simp)
    have := ih fun c hc => hu c (by simp [hc])
    exact RawBody.cons (r := [b]) (d := [b]) (.byte h1 h2 h3) this

theorem StringBody.raw {raw s : List UInt8} (h : StringBody raw s) : RawBody raw s := by
  induction h with
  | nil => exact .nil
  | cons h _ ih =>
    cases h with
    | escape h => exact .cons (.escape h) ih
    | unescaped hu hc hq hs =>
      refine ih.bytes fun b hb => ⟨hc b hb, ?_, ?_⟩ <;> rintro rfl <;> cases hu <;> grind

/-- Where a body denotes continuation bytes first, it starts with these bytes. -/
theorem RawBody.tails {u raw s : List UInt8} (hu : ∀ b ∈ u, Utf8.Tail b)
    (h : RawBody raw (u ++ s)) : ∃ rest, raw = u ++ rest ∧ RawBody rest s := by
  induction u generalizing raw with
  | nil => exact ⟨raw, rfl, h⟩
  | cons b u ih =>
    generalize hd : b :: u ++ s = ds at h
    cases h with
    | nil => simp at hd
    | @cons r d rs ds hc hs =>
      have hb : Utf8.Tail b := hu b (by simp)
      cases hc with
      | byte =>
        obtain ⟨rfl, rfl⟩ : b = _ ∧ u ++ s = ds := by simpa using hd
        obtain ⟨rest, rfl, hrest⟩ := ih (fun c hc => hu c (by simp [hc])) hs
        exact ⟨rest, rfl, hrest⟩
      | escape h =>
        obtain ⟨c, t, rfl⟩ := List.exists_cons_of_ne_nil h.isChar.ne_nil
        obtain ⟨rfl, -⟩ : b = c ∧ u ++ s = t ++ ds := by simpa using hd
        exact absurd hb h.isChar.head_not_tail

/-- **Read byte by byte, a body that denotes UTF-8 is a body of characters.** No escape can
complete a character that unescaped bytes began. -/
theorem RawBody.stringBody {raw s : List UInt8} (h : RawBody raw s) (hv : Utf8.Valid s) :
    StringBody raw s := by
  induction hn : raw.length using Nat.strong_induction_on generalizing raw s with
  | _ n ih =>
    cases h with
    | nil => exact .nil
    | @cons r d rs ds hc hs =>
      have hr := List.length_pos_iff.mpr hc.ne_nil
      simp only [List.length_append] at hn
      cases hc with
      | escape he =>
        have hds : Utf8.Valid ds := Utf8.ValidWith.of_char_append he.isChar hv
        exact .cons (.escape he) (ih rs.length (by omega) hs hds rfl)
      | @byte b h1 h2 h3 =>
        -- the byte begins a character; the bytes behind it are no escapes, so they follow
        obtain ⟨u, s', he, hu, -, hs'⟩ := hv.uncons (by simp)
        obtain ⟨c, t, rfl⟩ := List.exists_cons_of_ne_nil hu.ne_nil
        obtain ⟨rfl, rfl⟩ : b = c ∧ ds = t ++ s' := by simpa using he
        obtain ⟨rest, rfl, hrest⟩ := hs.tails fun c hc => hu.tail_of_mem hc
        have hchar : StringChar (b :: t) (b :: t) := by
          refine .unescaped hu ?_ ?_ ?_
          · intro c hc
            rcases List.mem_cons.mp hc with rfl | hc
            · exact h1
            · have := hu.tail_of_mem hc
              grind
          · rintro heq
            exact h2 (by simpa using congrArg List.head? heq)
          · rintro heq
            exact h3 (by simpa using congrArg List.head? heq)
        have hlt : rest.length < n := by simp only [List.length_append] at hn; omega
        simpa using StringBody.cons hchar (ih rest.length hlt hrest hs' rfl)

/-! ## Numbers -/

/-- The exponent part of a number. -/
structure Exponent where
  marker : UInt8
  sign : List UInt8
  digits : List UInt8
  marker_ok : marker = 0x65 ∨ marker = 0x45
  sign_ok : sign = [] ∨ sign = [0x2b] ∨ sign = [0x2d]
  digits_ok : digits ≠ [] ∧ ∀ b ∈ digits, IsDigit b

/-- The integer part of a number: no leading zeros. -/
def IsIntPart (int : List UInt8) : Prop :=
  int = [0x30] ∨ ∃ d ds, int = d :: ds ∧ (0x31 ≤ d ∧ d ≤ 0x39) ∧ ∀ b ∈ ds, IsDigit b

/-- A number: an optional minus sign, an integer without leading zeros, a fraction (the digits
after the decimal point, none when there is no fraction) and an optional exponent. -/
structure Number where
  minus : Bool
  int : List UInt8
  frac : List UInt8
  exp : Option Exponent
  int_ok : IsIntPart int
  frac_ok : ∀ b ∈ frac, IsDigit b

namespace Exponent

def text (e : Exponent) : List UInt8 := e.marker :: (e.sign ++ e.digits)

/-- Ten to the exponent. -/
def power (e : Exponent) : ℚ :=
  if e.sign = [0x2d] then ((10 : ℚ) ^ natOfDigits e.digits)⁻¹ else (10 : ℚ) ^ natOfDigits e.digits

end Exponent

namespace Number

/-- The fraction part as it is written. -/
def fracText (n : Number) : List UInt8 := if n.frac = [] then [] else 0x2e :: n.frac

/-- The exponent part as it is written. -/
def expText (n : Number) : List UInt8 := (n.exp.map Exponent.text).getD []

/-- The minus sign as it is written. -/
def signText (n : Number) : List UInt8 := if n.minus then [0x2d] else []

/-- The number as it is written. -/
def text (n : Number) : List UInt8 := n.signText ++ (n.int ++ (n.fracText ++ n.expText))

/-- The magnitude of a number. -/
def magnitude (n : Number) : ℚ :=
  natOfDigits (n.int ++ n.frac) / 10 ^ n.frac.length * (n.exp.map Exponent.power).getD 1

/-- The value of a number. -/
def value (n : Number) : ℚ := if n.minus then -n.magnitude else n.magnitude

/-- A number written without fraction and exponent. -/
def IsInteger (n : Number) : Prop := n.frac = [] ∧ n.exp = none

theorem int_ne_nil (n : Number) : n.int ≠ [] := by
  rcases n.int_ok with h | ⟨d, ds, h, -⟩ <;> simp [h]

theorem int_digits (n : Number) : ∀ b ∈ n.int, IsDigit b := by
  rcases n.int_ok with h | ⟨d, ds, h, hd, hds⟩ <;> rw [h] <;> intro b hb
  · obtain rfl : b = 0x30 := by simpa using hb
    decide
  · rcases List.mem_cons.mp hb with rfl | hb
    · exact ⟨by grind, hd.2⟩
    · exact hds b hb

theorem text_ne_nil (n : Number) : n.text ≠ [] := by
  simp [text, n.int_ne_nil]

/-- The integer part starts with a digit. -/
theorem exists_int_cons (n : Number) : ∃ d ds, n.int = d :: ds ∧ IsDigit d := by
  obtain ⟨d, ds, h⟩ := List.exists_cons_of_ne_nil n.int_ne_nil
  exact ⟨d, ds, h, n.int_digits d (by simp [h])⟩

/-- The fraction and the exponent start with no digit. -/
theorem tail_stops (n : Number) : Bytes.Stops IsDigit (n.fracText ++ n.expText) := by
  unfold fracText expText
  split_ifs with h
  · cases n.exp with
    | none => simp
    | some e =>
      have := e.marker_ok
      simp only [Option.map_some, Option.getD_some, Exponent.text, List.nil_append,
        Bytes.stops_cons]
      grind
  · simp

end Number

/-! ## Objects -/

/-- The values of a flat object's members. -/
inductive Scalar
  | string (s : List UInt8)
  | number (n : Number)
  | true
  | false
  | null

/-- A member: its decoded key and its value. -/
abbrev Member := List UInt8 × Scalar

/-- The text of a scalar. -/
inductive ScalarText : List UInt8 → Scalar → Prop
  | string {raw s : List UInt8} (h : StringBody raw s) :
      ScalarText (0x22 :: (raw ++ [0x22])) (.string s)
  | number (n : Number) : ScalarText n.text (.number n)
  | true : ScalarText (ascii "true") .true
  | false : ScalarText (ascii "false") .false
  | null : ScalarText (ascii "null") .null

/-- The text of a member, with the white space around its key and its value. -/
inductive MemberText : List UInt8 → Member → Prop
  | intro {w₀ w₁ w₂ w₃ raw key t : List UInt8} {v : Scalar} (h₀ : Ws w₀) (h₁ : Ws w₁)
      (h₂ : Ws w₂) (h₃ : Ws w₃) (hk : StringBody raw key) (ht : ScalarText t v) :
      MemberText (w₀ ++ 0x22 :: (raw ++ 0x22 :: (w₁ ++ 0x3a :: (w₂ ++ (t ++ w₃))))) (key, v)

/-- The text of one or more members, separated by commas. -/
inductive MembersText : List UInt8 → List Member → Prop
  | one {t : List UInt8} {m : Member} (h : MemberText t m) : MembersText t [m]
  | cons {t ts : List UInt8} {m : Member} {ms : List Member} (h : MemberText t m)
      (hs : MembersText ts ms) : MembersText (t ++ 0x2c :: ts) (m :: ms)

/-- JSON text of one flat object, and its members in order. -/
inductive FlatObjectText : List UInt8 → List Member → Prop
  | empty {w₀ w₁ w₂ : List UInt8} (h₀ : Ws w₀) (h₁ : Ws w₁) (h₂ : Ws w₂) :
      FlatObjectText (w₀ ++ 0x7b :: (w₁ ++ 0x7d :: w₂)) []
  | members {w₀ w₁ t : List UInt8} {ms : List Member} (h₀ : Ws w₀) (h₁ : Ws w₁)
      (ht : MembersText t ms) : FlatObjectText (w₀ ++ 0x7b :: (t ++ 0x7d :: w₁)) ms

theorem MemberText.ne_nil {t : List UInt8} {m : Member} (h : MemberText t m) : t ≠ [] := by
  cases h
  simp

/-- White space may stand before the first member. -/
theorem MembersText.ws_append {w t : List UInt8} {ms : List Member} (hw : Ws w)
    (h : MembersText t ms) : MembersText (w ++ t) ms := by
  have hmember {t : List UInt8} {m : Member} (h : MemberText t m) : MemberText (w ++ t) m := by
    cases h with
    | intro h₀ h₁ h₂ h₃ hk ht =>
      rw [← List.append_assoc]
      exact .intro (Json.ws_append hw h₀) h₁ h₂ h₃ hk ht
  cases h with
  | one h => exact .one (hmember h)
  | cons h hs =>
    rw [← List.append_assoc]
    exact .cons (hmember h) hs

/-- The members start with a quotation mark, after white space. -/
theorem MembersText.exists_quote {t : List UInt8} {ms : List Member} (h : MembersText t ms) :
    ∃ w r, Ws w ∧ t = w ++ 0x22 :: r ∧ MembersText (0x22 :: r) ms := by
  have hmember {t : List UInt8} {m : Member} (h : MemberText t m) :
      ∃ w r, Ws w ∧ t = w ++ 0x22 :: r ∧ MemberText (0x22 :: r) m := by
    cases h with
    | intro h₀ h₁ h₂ h₃ hk ht =>
      exact ⟨_, _, h₀, rfl, by simpa using MemberText.intro ws_nil h₁ h₂ h₃ hk ht⟩
  cases h with
  | one h =>
    obtain ⟨w, r, hw, rfl, hm⟩ := hmember h
    exact ⟨w, r, hw, rfl, .one hm⟩
  | @cons t ts m ms h hs =>
    obtain ⟨w, r, hw, rfl, hm⟩ := hmember h
    exact ⟨w, r ++ 0x2c :: ts, hw, by simp, by simpa using MembersText.cons hm hs⟩

theorem MembersText.ne_nil {t : List UInt8} {ms : List Member} (h : MembersText t ms) :
    ms ≠ [] := by
  cases h <;> simp

end Json
