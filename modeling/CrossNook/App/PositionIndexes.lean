import CrossNook.App.Reader
import CrossNook.Text.Utf8

/-!
# The indexes of a position

The guard in front of the engine's conversion to `int` (`reader/reader.cpp`): every number of a
serialized position that the engine would convert is checked first. The scanner moves one index over
the text, forward behind what it has checked and back by one where the loop steps itself. It reads
entries of the text and adds up values of type `int`; reading behind the text and a sum beyond
`INT_MAX` are an outcome of their own.

## Main definitions

* `Reader.Scanner.positionIndexesValid`: `position_indexes_valid`, as the code moves its index
* `Reader.IndexesFit text`: every number that the engine would convert fits in an `int`

## Main results

* `Reader.positionIndexesValid_iff`: what is accepted
* `Reader.Scanner.positionIndexesValid_eq`: the scanner stays inside the text, never overflows, and
  answers what the model of the reader answers
-/

namespace Reader

open Bytes (IsDigit digitValue natOfDigits scan skip)
open Loop (Turn)

/-! ## The scanner -/

namespace Scanner

/-- A sum of type `int` that does not get negative. `none` is an overflow. -/
def int (n : ℕ) : Option ℕ := if n ≤ intMax then some n else none

/-- The loop of `position_decimal_valid` from `i` on, with `m` characters to go. -/
def decimalFrom (text : List UInt8) : ℕ → ℕ → ℕ → Option Bool
  | 0, _, _ => some true
  | m + 1, i, value =>
    match text[i]? with
    | none => none
    | some c =>
      if c < 0x30 ∨ 0x39 < c then some false
      else
        let digit := c.toNat - 0x30
        if (intMax - digit) / 10 < value then some false
        else do
          let tens ← int (value * 10)
          let value ← int (tens + digit)
          decimalFrom text m (i + 1) value

/-- `position_decimal_valid`. -/
def positionDecimalValid (text : List UInt8) (start stop : ℕ) : Option Bool :=
  if start = stop then some false else decimalFrom text (stop - start) start 0

/-- A loop that moves the index over characters of a class, with `m` characters of the text to
go. -/
def passOver (p : UInt8 → Prop) [DecidablePred p] (text : List UInt8) : ℕ → ℕ → Option ℕ
  | 0, i => some i
  | m + 1, i =>
    match text[i]? with
    | none => none
    | some c => if p c then passOver p text m (i + 1) else some i

/-- A check of the characters from `start` to `stop`, behind which the loop goes on at `next`. -/
def checked (text : List UInt8) (start stop next : ℕ) : Turn ℕ (Option Bool) :=
  match positionDecimalValid text start stop with
  | none => .done none
  | some false => .done (some false)
  | some true => .next next

/-- One turn of the loop of `position_indexes_valid`, with the step of the loop itself. -/
def indexTurn (text : List UInt8) (i : ℕ) : Turn ℕ (Option Bool) :=
  if text.length ≤ i then .done (some true)
  else
    match text[i]? with
    | none => .done none
    | some c =>
      if c = 0x5b then
        match passOver (· ≠ 0x5d) text (text.length - (i + 1)) (i + 1) with
        | none => .done none
        | some j =>
          if j = text.length then .done (some false) else checked text (i + 1) j (j + 1)
      else if (c = 0x2f ∨ c = 0x2e) ∧ i + 1 < text.length ∧ text[i + 1]?.any fun c => IsDigit c then
        match passOver IsDigit text (text.length - (i + 1)) (i + 1) with
        | none => .done none
        -- back by one, for the step of the loop
        | some j => checked text (i + 1) j (j - 1 + 1)
      else .next (i + 1)

/-- `position_indexes_valid`. `none` is a read behind the text, or an overflow. -/
def positionIndexesValid (text : List UInt8) : Option Bool :=
  Loop.loop (indexTurn text) none (fun i => text.length - i) 0

end Scanner

/-! ## What is accepted -/

/-- The number of an index, where it has digits, fits in an `int`. -/
abbrev Fits (digits : List UInt8) : Prop := natOfDigits digits ≤ intMax

/-- What has to follow a `[`. -/
def Bracket (text : List UInt8) : Prop :=
  ∃ digits rest, text = digits ++ 0x5d :: rest ∧ digits ≠ [] ∧ (∀ d ∈ digits, IsDigit d) ∧
    Fits digits

/-- Every `[` of a text is closed behind it. -/
def Outside (text : List UInt8) : Prop := ∀ u v, text = u ++ 0x5b :: v → 0x5d ∈ v

/-- Every number that the engine would convert fits in an `int`: what stands between brackets is
one, and so are the longest runs of digits behind a separator outside of them. -/
structure IndexesFit (text : List UInt8) : Prop where
  bracket : ∀ u v, text = u ++ 0x5b :: v → Bracket v
  separator : ∀ u c v, text = u ++ c :: v → c = 0x2f ∨ c = 0x2e → Outside u →
    Fits (scan IsDigit v)

/-! ## Decimal numbers -/

theorem decimalStep_eq {value : ℕ} (c : UInt8) :
    decimalStep value c =
      if IsDigit c ∧ value * 10 + digitValue c ≤ intMax then some (value * 10 + digitValue c)
      else none := by
  unfold decimalStep
  by_cases hdigit : IsDigit c
  · have hlt : digitValue c < 10 := Bytes.digitValue_lt hdigit
    have hmax : intMax = 2147483647 := rfl
    rw [if_neg (not_not.mpr hdigit)]
    dsimp only
    -- the test divides, so that no sum is needed to see that one would overflow
    by_cases hover : (intMax - digitValue c) / 10 < value
    · rw [if_pos hover, if_neg (by omega)]
    · rw [if_neg hover, if_pos ⟨hdigit, by omega⟩]
  · rw [if_pos hdigit, if_neg (mt And.left hdigit)]

/-- The loop adds up the number that the digits denote. -/
theorem foldlM_decimalStep (digits : List UInt8) {value : ℕ} (hvalue : value ≤ intMax) (n : ℕ) :
    digits.foldlM decimalStep value = some n ↔
      (∀ d ∈ digits, IsDigit d) ∧ n = value * 10 ^ digits.length + natOfDigits digits ∧
        n ≤ intMax := by
  induction digits generalizing value with
  | nil =>
    rw [List.foldlM_nil, List.length_nil, pow_zero, mul_one, Bytes.natOfDigits_nil, add_zero]
    constructor
    · intro h
      obtain rfl : value = n := Option.some.inj h
      exact ⟨List.forall_mem_nil _, rfl, hvalue⟩
    · rintro ⟨-, rfl, -⟩
      rfl
  | cons d digits ih =>
    have hsum : value * 10 ^ (d :: digits).length + natOfDigits (d :: digits) =
        (value * 10 + digitValue d) * 10 ^ digits.length + natOfDigits digits := by
      rw [Bytes.natOfDigits_cons, List.length_cons, pow_succ]
      ring
    rw [List.foldlM_cons, decimalStep_eq, List.forall_mem_cons, hsum]
    split_ifs with hstep
    · rw [Option.bind_eq_bind, Option.bind_some, ih hstep.2, and_iff_right hstep.1]
    · constructor
      · intro h
        cases h
      · rintro ⟨⟨hdigit, -⟩, rfl, hle⟩
        -- what the first digits add up to is no more than the whole number
        have hpos : 0 < 10 ^ digits.length := Nat.pow_pos (by decide)
        have hfirst := Nat.le_mul_of_pos_right (value * 10 + digitValue d) hpos
        exact absurd ⟨hdigit, by omega⟩ hstep

theorem positionDecimalValid_iff (digits : List UInt8) :
    positionDecimalValid digits = true ↔
      digits ≠ [] ∧ (∀ d ∈ digits, IsDigit d) ∧ Fits digits := by
  unfold positionDecimalValid
  rw [decide_eq_true_iff]
  refine and_congr_right fun _ => ?_
  rw [Option.isSome_iff_exists]
  simp only [foldlM_decimalStep digits (Nat.zero_le _), zero_mul, zero_add]
  constructor
  · rintro ⟨_, hdigits, rfl, hle⟩
    exact ⟨hdigits, hle⟩
  · rintro ⟨hdigits, hle⟩
    exact ⟨_, hdigits, rfl, hle⟩

/-! ## The scanner against the text that is left -/

namespace Scanner

variable {text : List UInt8}

theorem drop_eq_cons {i : ℕ} (h : i < text.length) :
    ∃ c, text[i]? = some c ∧ text.drop i = c :: text.drop (i + 1) :=
  ⟨text.get ⟨i, h⟩, List.getElem?_eq_getElem h, List.drop_eq_getElem_cons h⟩

/-- **The accumulation never overflows.** -/
theorem decimalFrom_eq {m i value : ℕ} (h : i + m ≤ text.length) (hvalue : value ≤ intMax) :
    decimalFrom text m i value = some (((text.drop i).take m).foldlM decimalStep value).isSome := by
  induction m generalizing i value with
  | zero => rw [List.take_zero, List.foldlM_nil, decimalFrom, Option.pure_def, Option.isSome_some]
  | succ m ih =>
    obtain ⟨c, hc, hdrop⟩ := drop_eq_cons (by omega : i < text.length)
    have hdigit : (c < 0x30 ∨ 0x39 < c) ↔ ¬ IsDigit c := by
      rw [not_and_or, UInt8.not_le, UInt8.not_le]
    have hvalue' : c.toNat - 0x30 = digitValue c := rfl
    rw [decimalFrom, hc, hdrop, List.take_succ_cons, List.foldlM_cons, decimalStep]
    dsimp only
    simp only [hdigit, hvalue']
    by_cases hc' : IsDigit c
    · have hlt : digitValue c < 10 := Bytes.digitValue_lt hc'
      have hmax : intMax = 2147483647 := rfl
      rw [if_neg (not_not.mpr hc'), if_neg (not_not.mpr hc')]
      by_cases hover : (intMax - digitValue c) / 10 < value
      · rw [if_pos hover, if_pos hover]
        rfl
      · have htens : int (value * 10) = some (value * 10) := if_pos (by omega)
        have hsum : int (value * 10 + digitValue c) = some (value * 10 + digitValue c) :=
          if_pos (by omega)
        rw [if_neg hover, if_neg hover, htens]
        simp only [Option.bind_eq_bind, Option.bind_some, hsum]
        exact ih (by omega) (by omega)
    · rw [if_pos hc', if_pos hc']
      rfl

theorem take_scan (p : UInt8 → Prop) [DecidablePred p] (l : List UInt8) :
    l.take (scan p l).length = scan p l :=
  (List.prefix_iff_eq_take.mp (List.takeWhile_prefix _)).symm

theorem drop_scan (p : UInt8 → Prop) [DecidablePred p] (l : List UInt8) :
    l.drop (scan p l).length = skip p l := by
  have hsplit := List.take_append_drop (scan p l).length l
  rw [take_scan] at hsplit
  exact List.append_cancel_left (hsplit.trans (Bytes.scan_append_skip l).symm)

theorem length_scan_le (p : UInt8 → Prop) [DecidablePred p] (l : List UInt8) :
    (scan p l).length ≤ l.length := by
  rw [← take_scan p l]
  exact List.length_take_le' _ _

/-- The number between two places of the text. -/
theorem positionDecimalValid_eq {start stop : ℕ} (h : start ≤ stop) (hstop : stop ≤ text.length) :
    positionDecimalValid text start stop =
      some (Reader.positionDecimalValid ((text.drop start).take (stop - start))) := by
  have hlength : ((text.drop start).take (stop - start)).length = stop - start :=
    List.length_take_of_le (by rw [List.length_drop]; omega)
  unfold positionDecimalValid
  by_cases heq : start = stop
  · rw [if_pos heq, List.length_eq_zero_iff.mp (by omega : ((text.drop start).take
      (stop - start)).length = 0)]
    rfl
  · have hne : (text.drop start).take (stop - start) ≠ [] := by
      rw [← List.length_pos_iff]
      omega
    rw [if_neg heq, decimalFrom_eq (by omega) (Nat.zero_le _), Reader.positionDecimalValid]
    simp [hne]

/-- The index stops where the scan of the text that is left does. -/
theorem passOver_eq (p : UInt8 → Prop) [DecidablePred p] {m i : ℕ} (h : i + m = text.length) :
    passOver p text m i = some (i + (scan p (text.drop i)).length) := by
  induction m generalizing i with
  | zero =>
    rw [passOver, List.drop_of_length_le (by omega)]
    rfl
  | succ m ih =>
    obtain ⟨c, hc, hdrop⟩ := drop_eq_cons (by omega : i < text.length)
    rw [passOver, hc, hdrop]
    dsimp only
    by_cases hp : p c
    · have hscan : scan p (c :: text.drop (i + 1)) = c :: scan p (text.drop (i + 1)) :=
        List.takeWhile_cons_of_pos (by simpa using hp)
      rw [if_pos hp, ih (by omega), hscan, List.length_cons]
      congr 1
      omega
    · have hscan : scan p (c :: text.drop (i + 1)) = [] :=
        List.takeWhile_cons_of_neg (by simpa using hp)
      rw [if_neg hp, hscan, List.length_nil, Nat.add_zero]

/-- A check of the characters from `i` on that a scan passes over. -/
theorem checked_scan (p : UInt8 → Prop) [DecidablePred p] {i : ℕ} (hi : i ≤ text.length)
    (next : ℕ) :
    checked text i (i + (scan p (text.drop i)).length) next =
      if Reader.positionDecimalValid (scan p (text.drop i)) then .next next
      else .done (some false) := by
  have hle := length_scan_le p (text.drop i)
  rw [List.length_drop] at hle
  rw [checked, positionDecimalValid_eq (by omega) (by omega), Nat.add_sub_cancel_left, take_scan]
  cases Reader.positionDecimalValid (scan p (text.drop i)) <;> rfl

/-- A turn at an index is a turn on the text that is left there. -/
theorem indexTurn_eq (text : List UInt8) (i : ℕ) :
    (∃ b, indexTurn text i = .done (some b) ∧ indexStep (text.drop i) = .done b) ∨
      ∃ j, i < j ∧ j ≤ text.length ∧ indexTurn text i = .next j ∧
        indexStep (text.drop i) = .next (text.drop j) := by
  by_cases hend : text.length ≤ i
  · refine .inl ⟨true, if_pos hend, ?_⟩
    rw [List.drop_of_length_le hend]
    rfl
  obtain ⟨c, hc, hdrop⟩ := drop_eq_cons (by omega : i < text.length)
  have hpass (p : UInt8 → Prop) [DecidablePred p] :
      passOver p text (text.length - (i + 1)) (i + 1) =
        some (i + 1 + (scan p (text.drop (i + 1))).length) := passOver_eq p (by omega)
  have hrest (p : UInt8 → Prop) [DecidablePred p] :
      text.drop (i + 1 + (scan p (text.drop (i + 1))).length) = skip p (text.drop (i + 1)) := by
    rw [← List.drop_drop, drop_scan]
  unfold indexTurn indexStep
  rw [if_neg hend, hc, hdrop]
  dsimp only
  by_cases hopen : c = 0x5b
  · rw [if_pos hopen, if_pos hopen, hpass]
    dsimp only
    rw [checked_scan (· ≠ 0x5d) (by omega)]
    have hle := length_scan_le (· ≠ 0x5d) (text.drop (i + 1))
    have hclose := hrest (· ≠ 0x5d)
    rw [List.length_drop] at hle
    generalize hj : i + 1 + (scan (· ≠ 0x5d) (text.drop (i + 1))).length = j at hclose ⊢
    by_cases hopened : j = text.length
    · -- no bracket closes this one
      rw [List.drop_of_length_le hopened.ge] at hclose
      rw [if_pos hopened, ← hclose]
      exact .inl ⟨false, rfl, rfl⟩
    · obtain ⟨b, -, hb⟩ := drop_eq_cons (by omega : j < text.length)
      rw [if_neg hopened, ← hclose, hb]
      dsimp only
      split_ifs
      · exact .inr ⟨j + 1, by omega, by omega, rfl, rfl⟩
      · exact .inl ⟨false, rfl, rfl⟩
  · rw [if_neg hopen, if_neg hopen]
    have hnext : (i + 1 < text.length ∧ text[i + 1]?.any fun c => IsDigit c) ↔
        (text.drop (i + 1)).head?.any fun next => IsDigit next := by
      rw [List.head?_drop, and_iff_right_iff_imp]
      intro hany
      by_contra hlast
      rw [List.getElem?_eq_none (by omega)] at hany
      cases hany
    simp only [hnext]
    by_cases hindex : (c = 0x2f ∨ c = 0x2e) ∧
        (text.drop (i + 1)).head?.any fun next => IsDigit next
    · rw [if_pos hindex, if_pos hindex, hpass]
      dsimp only
      rw [checked_scan IsDigit (by omega), ← hrest IsDigit]
      have hle := length_scan_le IsDigit (text.drop (i + 1))
      rw [List.length_drop] at hle
      -- the step of the loop makes up for the step back
      rw [Nat.sub_add_cancel (by omega)]
      split_ifs
      · exact .inr ⟨_, by omega, by omega, rfl, rfl⟩
      · exact .inl ⟨false, rfl, rfl⟩
    · rw [if_neg hindex, if_neg hindex]
      exact .inr ⟨i + 1, by omega, by omega, rfl, rfl⟩

theorem shrinks_indexTurn : Loop.Shrinks (indexTurn text) fun i => text.length - i := by
  intro i j hturn
  rcases indexTurn_eq text i with ⟨b, hdone, -⟩ | ⟨k, hlt, hle, hnext, -⟩
  · rw [hdone] at hturn
    cases hturn
  · rw [hnext] at hturn
    obtain rfl := Turn.next.inj hturn
    exact Nat.sub_lt_sub_left (by omega) hlt

end Scanner

/-- A character behind which no number is to be checked. -/
def Plain (c : UInt8) (text : List UInt8) : Prop :=
  c ≠ 0x5b ∧ ((c = 0x2f ∨ c = 0x2e) → Bytes.Stops IsDigit text)

theorem indexStep_open (text : List UInt8) :
    indexStep (0x5b :: text) =
      match skip (· ≠ 0x5d) text with
      | [] => .done false
      | _ :: rest =>
        if positionDecimalValid (scan (· ≠ 0x5d) text) then .next rest else .done false := by
  unfold indexStep
  exact if_pos rfl

theorem indexStep_separator {c d : UInt8} (hc : c = 0x2f ∨ c = 0x2e) (hd : IsDigit d)
    (text : List UInt8) :
    indexStep (c :: d :: text) =
      if positionDecimalValid (scan IsDigit (d :: text)) then .next (skip IsDigit (d :: text))
      else .done false := by
  have hopen : c ≠ 0x5b := by
    rintro rfl
    revert hc
    decide
  exact (if_neg hopen).trans (if_pos ⟨hc, decide_eq_true hd⟩)

theorem indexStep_plain {c : UInt8} {text : List UInt8} (h : Plain c text) :
    indexStep (c :: text) = .next text := by
  refine (if_neg h.1).trans (if_neg ?_)
  rintro ⟨hc, hany⟩
  cases text with
  | nil => cases hany
  | cons d rest => exact Bytes.stops_cons.mp (h.2 hc) (of_decide_eq_true hany)

/-- What a text can begin with, for the loop. -/
theorem head_cases (c : UInt8) (text : List UInt8) :
    c = 0x5b ∨ Plain c text ∨
      (c = 0x2f ∨ c = 0x2e) ∧ ∃ d rest, text = d :: rest ∧ IsDigit d := by
  by_cases hopen : c = 0x5b
  · exact .inl hopen
  refine .inr ?_
  cases text with
  | nil => exact .inl ⟨hopen, fun _ => Bytes.stops_nil⟩
  | cons d rest =>
    by_cases hd : (c = 0x2f ∨ c = 0x2e) ∧ IsDigit d
    · exact .inr ⟨hd.1, d, rest, rfl, hd.2⟩
    · exact .inl ⟨hopen, fun hc => Bytes.stops_cons.mpr fun hdigit => hd ⟨hc, hdigit⟩⟩

theorem shrinks_indexStep : Loop.Shrinks indexStep List.length := by
  intro text after h
  cases text with
  | nil => cases h
  | cons c text =>
    have hskip (p : UInt8 → Prop) [DecidablePred p] : (skip p text).length ≤ text.length :=
      (List.dropWhile_sublist _).length_le
    rw [List.length_cons]
    rcases head_cases c text with rfl | hplain | ⟨hc, d, rest, rfl, hd⟩
    · have hclose := hskip (· ≠ 0x5d)
      rw [indexStep_open] at h
      cases hbehind : skip (· ≠ 0x5d) text with
      | nil => simp [hbehind] at h
      | cons b behind =>
        rw [hbehind, List.length_cons] at hclose
        simp only [hbehind] at h
        split_ifs at h
        obtain rfl := Turn.next.inj h
        omega
    · rw [indexStep_plain hplain] at h
      obtain rfl := Turn.next.inj h
      exact Nat.lt_succ_self _
    · rw [indexStep_separator hc hd] at h
      split_ifs at h
      obtain rfl := Turn.next.inj h
      exact Nat.lt_succ_of_le (hskip IsDigit)

/-! ## The texts that are accepted -/

/-- What a text has to begin with. -/
def HeadFits : List UInt8 → Prop
  | [] => True
  | c :: text => (c = 0x5b → Bracket text) ∧ (c = 0x2f ∨ c = 0x2e → Fits (scan IsDigit text))

/-- A number is checked wherever one can begin, in brackets or outside. -/
def AllFit (text : List UInt8) : Prop := ∀ t, t <:+ text → HeadFits t

theorem allFit_nil : AllFit [] := by
  intro t ht
  obtain rfl := List.suffix_nil.mp ht
  trivial

theorem allFit_cons {c : UInt8} {text : List UInt8} :
    AllFit (c :: text) ↔ HeadFits (c :: text) ∧ AllFit text := by
  constructor
  · intro h
    exact ⟨h _ (List.suffix_refl _), fun t ht => h t (ht.trans (List.suffix_cons c text))⟩
  · rintro ⟨hhead, htail⟩ t ht
    rcases List.suffix_cons_iff.mp ht with rfl | ht
    · exact hhead
    · exact htail t ht

/-- A byte that no number can begin behind. -/
abbrev Neutral (c : UInt8) : Prop := c ≠ 0x5b ∧ c ≠ 0x2f ∧ c ≠ 0x2e

theorem IsDigit.neutral : ∀ {c : UInt8}, IsDigit c → Neutral c := by
  rw [Utf8.forall_uint8]
  decide +kernel

theorem allFit_append {u : List UInt8} (hu : ∀ c ∈ u, Neutral c) (text : List UInt8) :
    AllFit (u ++ text) ↔ AllFit text := by
  induction u with
  | nil => rfl
  | cons c u ih =>
    obtain ⟨hc, hu⟩ := List.forall_mem_cons.mp hu
    rw [List.cons_append, allFit_cons, ih hu]
    refine and_iff_right ⟨fun h => absurd h hc.1, fun h => ?_⟩
    exact absurd h (not_or.mpr hc.2)

/-- A bracket that is closed is followed by a number exactly when the check of the loop passes. -/
theorem bracket_iff {text rest : List UInt8} (h : skip (· ≠ 0x5d) text = 0x5d :: rest) :
    Bracket text ↔ positionDecimalValid (scan (· ≠ 0x5d) text) = true := by
  rw [positionDecimalValid_iff]
  constructor
  · rintro ⟨digits, rest, rfl, hne, hdigits, hfits⟩
    have hscan : scan (· ≠ 0x5d) (digits ++ 0x5d :: rest) = digits := by
      refine Bytes.scan_append (fun d hd => ?_) (Bytes.stops_cons.mpr (not_not.mpr rfl))
      rintro rfl
      exact absurd (hdigits _ hd) (by decide)
    rw [hscan]
    exact ⟨hne, hdigits, hfits⟩
  · rintro ⟨hne, hdigits, hfits⟩
    refine ⟨_, rest, ?_, hne, hdigits, hfits⟩
    rw [← h, Bytes.scan_append_skip]

/-- The bracket that closes, where there is one. -/
theorem skip_close (text : List UInt8) :
    skip (· ≠ 0x5d) text = [] ∨ ∃ rest, skip (· ≠ 0x5d) text = 0x5d :: rest := by
  cases hskip : skip (· ≠ 0x5d) text with
  | nil => exact .inl rfl
  | cons b rest =>
    have hstop := Bytes.stops_skip (p := (· ≠ 0x5d)) text
    rw [hskip, Bytes.stops_cons, not_not] at hstop
    exact .inr ⟨rest, by rw [hstop]⟩

theorem not_allFit_open {text : List UInt8} (h : skip (· ≠ 0x5d) text = []) :
    ¬ AllFit (0x5b :: text) := by
  intro hall
  obtain ⟨digits, rest, rfl, -, hdigits, -⟩ := (allFit_cons.mp hall).1.1 rfl
  rw [Bytes.skip_append (p := (· ≠ 0x5d)) (fun d hd => ?_)
    (Bytes.stops_cons.mpr (not_not.mpr rfl))] at h
  · exact List.cons_ne_nil _ _ h
  · rintro rfl
    exact absurd (hdigits _ hd) (by decide)

theorem allFit_open {text rest : List UInt8} (h : skip (· ≠ 0x5d) text = 0x5d :: rest) :
    AllFit (0x5b :: text) ↔
      positionDecimalValid (scan (· ≠ 0x5d) text) = true ∧ AllFit rest := by
  have htext : text = scan (· ≠ 0x5d) text ++ 0x5d :: rest := by
    rw [← h, Bytes.scan_append_skip]
  have hhead : HeadFits (0x5b :: text) ↔ positionDecimalValid (scan (· ≠ 0x5d) text) = true := by
    refine Iff.trans ?_ (bracket_iff h)
    exact (and_iff_left fun h => absurd h (by decide)).trans (imp_iff_right rfl)
  rw [allFit_cons, hhead]
  refine and_congr_right fun hvalid => ?_
  -- no number begins behind a digit, or behind the bracket that closes
  have hdigits := ((positionDecimalValid_iff _).mp hvalid).2.1
  have hclose : AllFit (0x5d :: rest) ↔ AllFit rest :=
    allFit_append (List.forall_mem_singleton.mpr (by decide)) rest
  have happend := allFit_append (fun d hd => IsDigit.neutral (hdigits d hd)) (0x5d :: rest)
  rwa [← htext, hclose] at happend

theorem allFit_plain {c : UInt8} {text : List UInt8} (h : Plain c text) :
    AllFit (c :: text) ↔ AllFit text := by
  rw [allFit_cons]
  refine and_iff_right ⟨fun hopen => absurd hopen h.1, fun hc => ?_⟩
  have hscan : scan IsDigit ([] ++ text) = [] :=
    Bytes.scan_append (List.forall_mem_nil _) (h.2 hc)
  rw [← List.nil_append text, hscan]
  exact Nat.zero_le _

theorem allFit_separator {c d : UInt8} (hc : c = 0x2f ∨ c = 0x2e) (hd : IsDigit d)
    (text : List UInt8) :
    AllFit (c :: d :: text) ↔ positionDecimalValid (scan IsDigit (d :: text)) = true ∧
      AllFit (skip IsDigit (d :: text)) := by
  have hne : scan IsDigit (d :: text) ≠ [] := by
    have hscan : scan IsDigit (d :: text) = d :: scan IsDigit text :=
      List.takeWhile_cons_of_pos (decide_eq_true hd)
    rw [hscan]
    exact List.cons_ne_nil _ _
  have hopen : c ≠ 0x5b := by
    rintro rfl
    revert hc
    decide
  have hhead : HeadFits (c :: d :: text) ↔ positionDecimalValid (scan IsDigit (d :: text)) = true := by
    rw [positionDecimalValid_iff, and_iff_right hne, and_iff_right fun d hd => Bytes.mem_scan hd]
    exact (and_iff_right fun h => absurd h hopen).trans (imp_iff_right hc)
  have hall := allFit_append (u := scan IsDigit (d :: text))
    (fun d hd => IsDigit.neutral (Bytes.mem_scan hd)) (skip IsDigit (d :: text))
  rw [Bytes.scan_append_skip] at hall
  rw [allFit_cons, hhead, hall]

/-- **The texts that are accepted**: every number that is checked fits. -/
theorem positionIndexesValid_iff_allFit (text : List UInt8) :
    positionIndexesValid text = true ↔ AllFit text := by
  -- one turn of the scanner for each head of the text; first the turns that end it
  refine Loop.loop_induction shrinks_indexStep (P := fun text r => r = true ↔ AllFit text) ?_ ?_
    text
  · intro text r h
    cases text with
    | nil =>
      obtain rfl := Turn.done.inj h
      exact iff_of_true rfl allFit_nil
    | cons c text =>
      rcases head_cases c text with rfl | hplain | ⟨hc, d, rest, rfl, hd⟩
      · rw [indexStep_open] at h
        rcases skip_close text with hskip | ⟨rest, hskip⟩
        · simp only [hskip] at h
          obtain rfl := Turn.done.inj h
          exact iff_of_false (by decide) (not_allFit_open hskip)
        · simp only [hskip] at h
          split_ifs at h with hvalid
          obtain rfl := Turn.done.inj h
          rw [allFit_open hskip]
          exact iff_of_false (by decide) fun hall => hvalid hall.1
      · rw [indexStep_plain hplain] at h
        cases h
      · rw [indexStep_separator hc hd] at h
        split_ifs at h with hvalid
        obtain rfl := Turn.done.inj h
        rw [allFit_separator hc hd]
        exact iff_of_false (by decide) fun hall => hvalid hall.1
  · -- then those that go on behind a number or a character
    intro text after r h ih
    cases text with
    | nil => cases h
    | cons c text =>
      rcases head_cases c text with rfl | hplain | ⟨hc, d, rest, rfl, hd⟩
      · rw [indexStep_open] at h
        rcases skip_close text with hskip | ⟨rest, hskip⟩
        · simp [hskip] at h
        · simp only [hskip] at h
          split_ifs at h with hvalid
          obtain rfl := Turn.next.inj h
          rw [ih, allFit_open hskip, and_iff_right hvalid]
      · rw [indexStep_plain hplain] at h
        obtain rfl := Turn.next.inj h
        rw [ih, allFit_plain hplain]
      · rw [indexStep_separator hc hd] at h
        split_ifs at h with hvalid
        obtain rfl := Turn.next.inj h
        rw [ih, allFit_separator hc hd, and_iff_right hvalid]

/-- **The scanner stays inside the text and never overflows**, and it answers what the model of the
reader answers. -/
theorem Scanner.positionIndexesValid_eq (text : List UInt8) :
    Scanner.positionIndexesValid text = some (Reader.positionIndexesValid text) := by
  -- the index stands for the text that is left
  have hrun : ∀ i, Loop.loop (Scanner.indexTurn text) none (fun i => text.length - i) i =
      some (Reader.positionIndexesValid (text.drop i)) := by
    intro i
    refine Loop.loop_induction Scanner.shrinks_indexTurn
      (P := fun i r => r = some (Reader.positionIndexesValid (text.drop i))) ?_ ?_ i
    · intro i r hdone
      rcases Scanner.indexTurn_eq text i with ⟨b, hturn, hstep⟩ | ⟨j, -, -, hturn, -⟩
      · rw [hturn] at hdone
        rw [Reader.positionIndexesValid, Loop.loop_of_done shrinks_indexStep hstep]
        exact (Turn.done.inj hdone).symm
      · rw [hturn] at hdone
        cases hdone
    · intro i k r hnext ih
      rcases Scanner.indexTurn_eq text i with ⟨b, hturn, -⟩ | ⟨j, -, -, hturn, hstep⟩
      · rw [hturn] at hnext
        cases hnext
      · rw [hturn] at hnext
        obtain rfl := Turn.next.inj hnext
        rw [ih, Reader.positionIndexesValid, Reader.positionIndexesValid,
          Loop.loop_of_next shrinks_indexStep hstep]
  have hstart := hrun 0
  rwa [List.drop_zero] at hstart

/-- Outside of brackets is everywhere, where every bracket is followed by a number. -/
theorem outside_of_bracket {u v : List UInt8} {c : UInt8} (hc : c = 0x2f ∨ c = 0x2e)
    (h : ∀ u' v', u ++ c :: v = u' ++ 0x5b :: v' → Bracket v') : Outside u := by
  rintro u' v' rfl
  obtain ⟨digits, rest, hrest, -, hdigits, -⟩ := h u' (v' ++ c :: v) (by simp)
  -- the separator stands behind the digits, for it is none, and behind what closes the bracket
  have hclose : (0x5d : UInt8) ≠ c := by
    rintro rfl
    revert hc
    decide
  rcases List.append_eq_append_iff.mp hrest with ⟨w, rfl, hw⟩ | ⟨w, rfl, hw⟩
  · cases w with
    | nil => exact absurd (List.cons.inj hw).1.symm hclose
    | cons d w =>
      obtain rfl : c = d := (List.cons.inj hw).1
      have hneutral := IsDigit.neutral (hdigits c (List.mem_append_right _ List.mem_cons_self))
      exact absurd hc (not_or.mpr hneutral.2)
  · cases w with
    | nil => exact absurd (List.cons.inj hw).1 hclose
    | cons d w =>
      obtain rfl : 0x5d = d := (List.cons.inj hw).1
      exact List.mem_append_right _ List.mem_cons_self

theorem indexesFit_iff_allFit (text : List UInt8) : IndexesFit text ↔ AllFit text := by
  constructor
  · rintro ⟨hbracket, hseparator⟩ t ⟨u, rfl⟩
    cases t with
    | nil => trivial
    | cons c v =>
      refine ⟨fun hc => hbracket u v (hc ▸ rfl), fun hc => hseparator u c v rfl hc ?_⟩
      exact outside_of_bracket hc hbracket
  · intro hall
    refine ⟨fun u v htext => ?_, fun u c v htext hc _ => ?_⟩
    · exact (hall (0x5b :: v) ⟨u, htext.symm⟩).1 rfl
    · exact (hall (c :: v) ⟨u, htext.symm⟩).2 hc

theorem positionIndexesValid_iff (text : List UInt8) :
    positionIndexesValid text = true ↔ IndexesFit text := by
  rw [positionIndexesValid_iff_allFit, indexesFit_iff_allFit]

/-- **The guard of the indexes.** The scanner ends on every text, without reading behind it and
without an overflow on any part of it, and it accepts exactly the texts of which every number that
the engine would convert fits in an `int`. -/
theorem indexes_guarded (text : List UInt8) :
    (∃ accepted, Scanner.positionIndexesValid text = some accepted ∧
      (accepted = true ↔ IndexesFit text)) ∧
    ∀ start stop, start ≤ stop ∧ stop ≤ text.length →
      Scanner.positionDecimalValid text start stop =
        some (decide (start < stop ∧ (∀ d ∈ (text.drop start).take (stop - start), IsDigit d) ∧
          natOfDigits ((text.drop start).take (stop - start)) ≤ intMax)) := by
  refine ⟨⟨_, Scanner.positionIndexesValid_eq text, positionIndexesValid_iff text⟩, ?_⟩
  rintro start stop ⟨hle, hstop⟩
  rw [Scanner.positionDecimalValid_eq hle hstop]
  congr 1
  rw [Bool.eq_iff_iff, decide_eq_true_iff, positionDecimalValid_iff]
  refine and_congr_left fun _ => ?_
  rw [← List.length_pos_iff, List.length_take_of_le (by rw [List.length_drop]; omega)]
  omega

end Reader
