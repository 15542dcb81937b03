import Mathlib.Data.List.TakeWhile
import Mathlib.Tactic

/-!
# Byte strings

ASCII texts as byte strings, decimal digits and the number a string of digits denotes, and the
two scans a parser is made of: the longest prefix of bytes in a class, and the text after it.

## Main definitions

* `Bytes.ascii s`: the bytes of an ASCII text
* `Bytes.natOfDigits ds`: the number denoted by a string of decimal digits
* `Bytes.decimal n`: the decimal digits of a number

## Main results

* `Bytes.skip_append`: a scan stops at the first byte outside its class
-/

namespace Bytes

/-- The bytes of an ASCII text. -/
def ascii (s : String) : List UInt8 := s.toList.map fun c => UInt8.ofNat c.toNat

theorem forall_of_all {α : Type*} {p : α → Prop} [DecidablePred p] {l : List α}
    (h : l.all (fun a => decide (p a)) = true) : ∀ a ∈ l, p a := by
  intro a ha
  exact of_decide_eq_true (List.all_eq_true.mp h a ha)

-- A property of every byte of a text is decided along the text, not over all the byte values.
instance decidableForallMem {p : UInt8 → Prop} [DecidablePred p] (l : List UInt8) :
    Decidable (∀ c ∈ l, p c) :=
  List.decidableBAll _ l

instance lawfulBEq_text : LawfulBEq (List UInt8) := inferInstance

/-- A decimal digit. -/
abbrev IsDigit (b : UInt8) : Prop := 0x30 ≤ b ∧ b ≤ 0x39

/-- The value of a decimal digit. -/
def digitValue (b : UInt8) : ℕ := b.toNat - 0x30

/-- The number denoted by a string of decimal digits. -/
def natOfDigits (ds : List UInt8) : ℕ := ds.foldl (fun n d => n * 10 + digitValue d) 0

@[simp] theorem natOfDigits_nil : natOfDigits [] = 0 := rfl

theorem foldl_digits (ds : List UInt8) (n : ℕ) :
    ds.foldl (fun n d => n * 10 + digitValue d) n = n * 10 ^ ds.length + natOfDigits ds := by
  induction ds generalizing n with
  | nil => simp
  | cons d ds ih =>
    rw [natOfDigits, List.foldl_cons, List.foldl_cons, ih, ih (0 * 10 + digitValue d)]
    simp only [List.length_cons, pow_succ]
    ring

theorem natOfDigits_cons (d : UInt8) (ds : List UInt8) :
    natOfDigits (d :: ds) = digitValue d * 10 ^ ds.length + natOfDigits ds := by
  rw [natOfDigits, List.foldl_cons, foldl_digits]
  simp

theorem natOfDigits_append (ds es : List UInt8) :
    natOfDigits (ds ++ es) = natOfDigits ds * 10 ^ es.length + natOfDigits es := by
  rw [natOfDigits, List.foldl_append, foldl_digits]
  rfl

/-- The decimal digits of a number, most significant first. -/
def decimal (n : ℕ) : List UInt8 := (Nat.toDigits 10 n).map fun c => UInt8.ofNat c.toNat

theorem digitValue_lt {b : UInt8} (h : IsDigit b) : digitValue b < 10 := by
  obtain ⟨h1, h2⟩ := h
  rw [UInt8.le_iff_toNat_le] at h1 h2
  simp at h1 h2
  unfold digitValue
  omega

section Scan

variable {p : UInt8 → Prop} [DecidablePred p]

/-- The longest prefix of bytes in a class. -/
def scan (p : UInt8 → Prop) [DecidablePred p] (l : List UInt8) : List UInt8 :=
  l.takeWhile fun b => decide (p b)

/-- What follows the longest prefix of bytes in a class. -/
def skip (p : UInt8 → Prop) [DecidablePred p] (l : List UInt8) : List UInt8 :=
  l.dropWhile fun b => decide (p b)

theorem scan_append_skip (l : List UInt8) : scan p l ++ skip p l = l :=
  List.takeWhile_append_dropWhile

theorem mem_scan {l : List UInt8} {b : UInt8} (h : b ∈ scan p l) : p b := by
  simpa using List.mem_takeWhile_imp h

/-- A text that a scan does not enter. -/
def Stops (p : UInt8 → Prop) (l : List UInt8) : Prop := ∀ b ∈ l.head?, ¬ p b

omit [DecidablePred p] in
@[simp] theorem stops_nil : Stops p [] := by
  simp [Stops]

omit [DecidablePred p] in
@[simp] theorem stops_cons {b : UInt8} {l : List UInt8} : Stops p (b :: l) ↔ ¬ p b := by
  simp [Stops]

omit [DecidablePred p] in
theorem Stops.mono {q : UInt8 → Prop} {l : List UInt8} (h : Stops q l) (hpq : ∀ b, p b → q b) :
    Stops p l :=
  fun b hb hp => h b hb (hpq b hp)

theorem stops_skip (l : List UInt8) : Stops p (skip p l) := by
  intro b hb
  have := List.head?_dropWhile_not (fun b => decide (p b)) l
  rw [skip] at hb
  cases hd : (l.dropWhile fun b => decide (p b)).head? with
  | none => simp [hd] at hb
  | some c =>
    rw [hd] at hb this
    obtain rfl : c = b := by simpa using hb
    simpa using this

theorem scan_append {l r : List UInt8} (hl : ∀ b ∈ l, p b) (hr : Stops p r) :
    scan p (l ++ r) = l := by
  rw [scan, List.takeWhile_append_of_pos fun b hb => by simpa using hl b hb]
  cases r with
  | nil => simp
  | cons b r => simp [show ¬ p b from hr b (by simp)]

/-- **A scan stops at the first byte outside its class.** -/
theorem skip_append {l r : List UInt8} (hl : ∀ b ∈ l, p b) (hr : Stops p r) :
    skip p (l ++ r) = r := by
  have := scan_append_skip (p := p) (l ++ r)
  rw [scan_append hl hr] at this
  exact List.append_cancel_left this

end Scan

end Bytes
