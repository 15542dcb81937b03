import CrossNook.Text.Loop
import CrossNook.Text.Utf8

/-!
# Rendered text

The decoder of the text renderer (`graphics/text.c`) and the loop that breaks a text into lines.
The decoder fills an array of the caller and returns a count; the callers loop up to the count. A
read of an entry that has not been decoded is an outcome of its own here.

## Main definitions

* `CnText.utf8Decode`: `cn_utf8_decode`
* `CnText.textRender`: `cn_text_render`
* `CnText.Characters text n`: the text has `n` characters

## Main results

* `CnText.utf8Decode_characters`: the count is the number of characters, however long the array is
* `CnText.textRender_isSome_iff`: when the renderer stays inside its array
-/

namespace CnText

open Loop (Turn)

/-- `MAX_CP`. -/
def maxCp : ℕ := 512

/-! ## The decoder -/

/-- The first byte in `utf8_next`: the bits it contributes and the length it announces. -/
def utf8Lead (c : UInt8) : Option (ℕ × ℕ) :=
  if c &&& 0xe0 = 0xc0 then some (c.toNat &&& 0x1f, 2)
  else if c &&& 0xf0 = 0xe0 then some (c.toNat &&& 0x0f, 3)
  else if c &&& 0xf8 = 0xf0 then some (c.toNat &&& 0x07, 4)
  else none

/-- The loop of `utf8_next` over `n` continuation bytes. The terminator is none. -/
def utf8Tail : ℕ → ℕ → List UInt8 → Option ℕ
  | 0, v, _ => some v
  | _ + 1, _, [] => none
  | n + 1, v, b :: s =>
    if b &&& 0xc0 ≠ 0x80 then none else utf8Tail n (v <<< 6 ||| (b.toNat &&& 0x3f)) s

/-- The smallest value that takes `n` bytes, in the check of `utf8_next` for overlong encodings. -/
def minimum (n : ℕ) : ℕ := if n = 2 then 0x80 else if n = 3 then 0x800 else 0x10000

/-- `utf8_next`: the codepoint and the number of bytes it takes; `none` is `-1`. -/
def utf8Next : List UInt8 → Option (ℕ × ℕ)
  | [] => none
  | c :: s =>
    if c < 0x80 then some (c.toNat, 1)
    else
      match utf8Lead c with
      | none => none
      | some (v, n) =>
        match utf8Tail (n - 1) v s with
        | none => none
        | some v =>
          if v < minimum n then none
          else if 0x10ffff < v then none
          else if 0xd800 ≤ v ∧ v ≤ 0xdfff then none
          else some (v, n)

/-- What `cn_utf8_decode` leaves: the entries of the array that it has written, the count that it
returns and the number of bytes it has skipped. -/
structure Decoded where
  out : List ℕ
  n : ℕ
  bad : ℕ
  deriving DecidableEq, Repr

/-- One codepoint in the loop of `cn_utf8_decode`. -/
def Decoded.push (outMax : ℕ) (d : Decoded) (cp : ℕ) : Decoded :=
  { d with
    out := if d.n < outMax then d.out ++ [cp] else d.out
    n := d.n + 1 }

/-- The loop of `cn_utf8_decode`, after a codepoint of which `skip` bytes are still to be passed. -/
def decodeFrom (outMax : ℕ) : ℕ → List UInt8 → Decoded → Decoded
  | _, [], d => d
  | skip + 1, _ :: text, d => decodeFrom outMax skip text d
  | 0, c :: text, d =>
    if c = 0 then d
    else
      match utf8Next (c :: text) with
      | none => decodeFrom outMax 0 text { d with bad := d.bad + 1 }
      | some (cp, r) => decodeFrom outMax (r - 1) text (d.push outMax cp)

/-- `cn_utf8_decode`. -/
def utf8Decode (text : List UInt8) (outMax : ℕ) : Decoded := decodeFrom outMax 0 text ⟨[], 0, 0⟩

/-! ## Lines -/

/-- The inner loop of `cn_text_render` from `i` on, with `m` codepoints to go: where it stops, and
`last_space`. A codepoint that has not been decoded is not read. -/
def scanLine (measure : ℕ → ℤ) (room : ℤ) (cps : List ℕ) :
    ℕ → ℕ → ℤ → ℤ → Option (ℕ × ℤ)
  | 0, i, _, lastSpace => some (i, lastSpace)
  | m + 1, i, penX, lastSpace =>
    match cps[i]? with
    | none => none
    | some cp =>
      if 0 < penX ∧ room < penX + measure cp then some (i, lastSpace)
      else scanLine measure room cps m (i + 1) (penX + measure cp)
        (if cp = 0x20 then i else lastSpace)

/-- `line_end` for a line that starts at `p` and whose scan has stopped at `i`. -/
def lineEnd (n p i : ℕ) (lastSpace : ℤ) : ℕ :=
  let lineEnd := if i < n ∧ (p : ℤ) < lastSpace ∧ lastSpace + 1 < i then (lastSpace + 1).toNat else i
  if lineEnd = p then p + 1 else lineEnd

/-- The codepoints that `render_cps` draws, from `p` to `e`. -/
def readCps (cps : List ℕ) (p e : ℕ) : Option (List ℕ) :=
  if e ≤ cps.length then some ((cps.drop p).take (e - p)) else none

/-- One line in `cn_text_render`: where the next one starts, and the lines so far. -/
def renderTurn (measure : ℕ → ℤ) (room : ℤ) (cps : List ℕ) (n : ℕ) (s : ℕ × List (List ℕ)) :
    Turn (ℕ × List (List ℕ)) (Option (List (List ℕ))) :=
  let (p, lines) := s
  if n ≤ p then .done (some lines)
  else
    match scanLine measure room cps (n - p) p 0 (-1) with
    | none => .done none
    | some (i, lastSpace) =>
      match readCps cps p (lineEnd n p i lastSpace) with
      | none => .done none
      | some line => .next (lineEnd n p i lastSpace, lines ++ [line])

/-- `cn_text_render` of a text that is not `NULL`: the lines that it draws. `none` is a read of an
entry of its array that has not been decoded. -/
def textRender (measure : ℕ → ℤ) (width leftMargin rightMargin : ℤ) (text : List UInt8) :
    Option (List (List ℕ)) :=
  let decoded := utf8Decode text maxCp
  let maxX := width - rightMargin
  Loop.loop (renderTurn measure (maxX - leftMargin) decoded.out decoded.n) none
    (fun s => decoded.n - s.1) (0, [])

/-! ## Characters -/

/-- The number of characters of a text. A byte that none starts with is passed over, and a NUL ends
the text. -/
inductive Characters : List UInt8 → ℕ → Prop
  | nil : Characters [] 0
  | nul {text : List UInt8} : Characters (0 :: text) 0
  | char {u text : List UInt8} {n : ℕ} (hu : Utf8.IsChar u) (h0 : u ≠ [0])
      (h : Characters text n) : Characters (u ++ text) (n + 1)
  | skip {b : UInt8} {text : List UInt8} {n : ℕ} (hb : b ≠ 0)
      (hbad : ∀ u, Utf8.IsChar u → ¬ u <+: b :: text) (h : Characters text n) :
      Characters (b :: text) n

/-- The text after the character that a text starts with, by `utf8_next`. -/
def charStep : List UInt8 → Option (List UInt8)
  | [] => none
  | c :: text => if c = 0 then none else (utf8Next (c :: text)).map fun (_, r) => (c :: text).drop r

theorem utf8Tail_zero (v : ℕ) (s : List UInt8) : utf8Tail 0 v s = some v := rfl

theorem utf8Tail_cons (n v : ℕ) (b : UInt8) (s : List UInt8) :
    utf8Tail (n + 1) v (b :: s) =
      if Utf8.Tail b then utf8Tail n (v * 64 + b.toNat % 64) s else none := by
  by_cases h : Utf8.Tail b
  · rw [utf8Tail, if_neg (not_not.mpr ((Utf8.and_c0_eq_iff b).mpr h)), Utf8.shift_or, if_pos h]
  · rw [utf8Tail, if_pos (mt (Utf8.and_c0_eq_iff b).mp h), if_neg h]

theorem utf8Lead_eq : ∀ c : UInt8, utf8Lead c =
    if 0xc0 ≤ c ∧ c ≤ 0xdf then some (c.toNat % 32, 2)
    else if 0xe0 ≤ c ∧ c ≤ 0xef then some (c.toNat % 16, 3)
    else if 0xf0 ≤ c ∧ c ≤ 0xf7 then some (c.toNat % 8, 4)
    else none := by
  rw [Utf8.forall_uint8]
  decide +kernel

theorem utf8Next_multi {c : UInt8} (hc : 0x80 ≤ c) (s : List UInt8) :
    utf8Next (c :: s) =
      match utf8Lead c with
      | none => none
      | some (v, n) =>
        match utf8Tail (n - 1) v s with
        | none => none
        | some v =>
          if v < minimum n ∨ 0x10ffff < v ∨ 0xd800 ≤ v ∧ v ≤ 0xdfff then none
          else some (v, n) := by
  rw [utf8Next, if_neg (by grind)]
  cases utf8Lead c with
  | none => rfl
  | some lead =>
    dsimp only
    cases utf8Tail (lead.2 - 1) lead.1 s with
    | none => rfl
    | some v =>
      dsimp only
      split_ifs <;> first | rfl | omega

theorem utf8Tail_short {n v : ℕ} {s : List UInt8} (h : s.length < n) : utf8Tail n v s = none := by
  induction n generalizing v s with
  | zero => exact absurd h (Nat.not_lt_zero _)
  | succ n ih =>
    cases s with
    | nil => rfl
    | cons b s =>
      rw [List.length_cons] at h
      rw [utf8Tail_cons]
      split_ifs
      · exact ih (by omega)
      · rfl

theorem charStep_multi {c : UInt8} (hc : 0x80 ≤ c) (s : List UInt8) :
    charStep (c :: s) = (utf8Next (c :: s)).map fun (_, r) => (c :: s).drop r := by
  rw [charStep, if_neg]
  rintro rfl
  exact absurd hc (by decide)

theorem charStep_two {a : UInt8} (h : 0xc2 ≤ a) (h' : a ≤ 0xdf) (b : UInt8) (r : List UInt8) :
    charStep (a :: b :: r) = if Utf8.Tail b then some r else none := by
  rw [charStep_multi (by grind), utf8Next_multi (by grind), utf8Lead_eq, if_pos (by grind)]
  simp only [Nat.reduceSub, utf8Tail_cons, utf8Tail_zero]
  by_cases hb : Utf8.Tail b
  · rw [if_pos hb, if_pos hb]
    simp only [UInt8.le_iff_toNat_le] at h h' hb
    simp at h h' hb
    have hmin : minimum 2 = 0x80 := rfl
    dsimp only
    rw [hmin, if_neg (by omega)]
    rfl
  · rw [if_neg hb, if_neg hb]
    rfl

theorem charStep_three {a : UInt8} (h : 0xe0 ≤ a) (h' : a ≤ 0xef) (b c : UInt8)
    (r : List UInt8) :
    charStep (a :: b :: c :: r) =
      if Utf8.Tail b ∧ Utf8.Tail c ∧ (a = 0xe0 → 0xa0 ≤ b) ∧ (a = 0xed → b ≤ 0x9f) then some r
      else none := by
  rw [charStep_multi (by grind), utf8Next_multi (by grind), utf8Lead_eq, if_neg (by grind),
    if_pos (by grind)]
  simp only [Nat.reduceSub, utf8Tail_cons, utf8Tail_zero]
  by_cases hb : Utf8.Tail b
  · by_cases hc : Utf8.Tail c
    · rw [if_pos hb, if_pos hc]
      dsimp only
      have hmin : minimum 3 = 0x800 := rfl
      rw [hmin, apply_ite (Option.map _)]
      refine (ite_not ..).symm.trans (if_congr ?_ rfl rfl)
      rw [Utf8.range_three (a := a.toNat) (b := b.toNat) ⟨h, h'⟩ hb, not_not, and_iff_right hb,
        and_iff_right hc, ← UInt8.toNat_inj, ← UInt8.toNat_inj]
      rfl
    · simp [hc]
  · simp [hb]

theorem charStep_four {a : UInt8} (h : 0xf0 ≤ a) (h' : a ≤ 0xf4) (b c d : UInt8)
    (r : List UInt8) :
    charStep (a :: b :: c :: d :: r) =
      if Utf8.Tail b ∧ Utf8.Tail c ∧ Utf8.Tail d ∧ (a = 0xf0 → 0x90 ≤ b) ∧ (a = 0xf4 → b ≤ 0x8f)
      then some r else none := by
  rw [charStep_multi (by grind), utf8Next_multi (by grind), utf8Lead_eq, if_neg (by grind),
    if_neg (by grind), if_pos (by grind)]
  simp only [Nat.reduceSub, utf8Tail_cons, utf8Tail_zero]
  by_cases hb : Utf8.Tail b
  · by_cases hc : Utf8.Tail c
    · by_cases hd : Utf8.Tail d
      · rw [if_pos hb, if_pos hc, if_pos hd]
        dsimp only
        have hmin : minimum 4 = 0x10000 := rfl
        rw [hmin, apply_ite (Option.map _)]
        refine (ite_not ..).symm.trans (if_congr ?_ rfl rfl)
        rw [Utf8.range_four (a := a.toNat) (b := b.toNat) ⟨h, h'⟩ hb, not_not, and_iff_right hb,
          and_iff_right hc, and_iff_right hd, ← UInt8.toNat_inj, ← UInt8.toNat_inj]
        rfl
      · simp [hd]
    · simp [hc]
  · simp [hb]

/-- The step fails where no character starts: at a continuation byte, at the first byte of an
overlong or too large value, and where the text ends inside a character. -/
theorem charStep_short {a : UInt8} {r : List UInt8} (ha : 0x80 ≤ a)
    (hw : Utf8.width a = 0 ∨ r.length + 1 < Utf8.width a) : charStep (a :: r) = none := by
  rw [charStep_multi ha, utf8Next_multi ha, Option.map_eq_none_iff, utf8Lead_eq]
  have hshort : ∀ {n v : ℕ}, Utf8.width a = n → n ≠ 0 → utf8Tail (n - 1) v r = none :=
    fun hn h0 => utf8Tail_short (by omega)
  by_cases h2 : 0xc0 ≤ a ∧ a ≤ 0xdf
  · rw [if_pos h2]
    dsimp only
    by_cases hvalid : 0xc2 ≤ a
    · rw [hshort (n := 2) (by rw [Utf8.width, if_pos ⟨hvalid, h2.2⟩]) (by decide)]
    · -- overlong
      cases r with
      | nil => rfl
      | cons b r =>
        simp only [Nat.reduceSub, utf8Tail_cons, utf8Tail_zero]
        split_ifs with hb
        · dsimp only
          simp only [UInt8.le_iff_toNat_le] at h2 hvalid
          simp at h2 hvalid
          have hmin : minimum 2 = 0x80 := rfl
          rw [hmin, if_pos (by omega)]
        · rfl
  · rw [if_neg h2]
    by_cases h3 : 0xe0 ≤ a ∧ a ≤ 0xef
    · rw [if_pos h3]
      dsimp only
      rw [hshort (n := 3) (by rw [Utf8.width, if_neg (by grind), if_pos h3]) (by decide)]
    · rw [if_neg h3]
      by_cases h4 : 0xf0 ≤ a ∧ a ≤ 0xf7
      · rw [if_pos h4]
        dsimp only
        by_cases hvalid : a ≤ 0xf4
        · rw [hshort (n := 4) (by
            rw [Utf8.width, if_neg (by grind), if_neg h3, if_pos ⟨h4.1, hvalid⟩]) (by decide)]
        · -- too large
          rcases r with _ | ⟨b, _ | ⟨c, _ | ⟨d, r⟩⟩⟩
          · rw [utf8Tail_short (by simp)]
          · rw [utf8Tail_short (by simp)]
          · rw [utf8Tail_short (by simp)]
          · simp only [Nat.reduceSub, utf8Tail_cons, utf8Tail_zero]
            split_ifs with hb hc hd
            · dsimp only
              simp only [UInt8.le_iff_toNat_le] at h4 hvalid
              simp at h4 hvalid
              rw [if_pos (by omega)]
            all_goals rfl
      · rw [if_neg h4]

theorem charStep_strips : Utf8.Strips charStep where
  nil := rfl
  one a r ha := by
    rw [charStep, utf8Next, if_pos ha]
    rfl
  two _ b r h h' := charStep_two h h' b r
  three _ b c r h h' := charStep_three h h' b c r
  four _ b c d r h h' := charStep_four h h' b c d r
  short _ _ ha hw := charStep_short ha hw

/-! ## The count -/

section Count

variable {outMax : ℕ} {d : Decoded}

theorem decodeFrom_skip (skip : ℕ) (text : List UInt8) :
    decodeFrom outMax skip text d = decodeFrom outMax 0 (text.drop skip) d := by
  induction text generalizing skip with
  | nil => cases skip <;> rfl
  | cons c text ih =>
    cases skip with
    | zero => rfl
    | succ skip => rw [decodeFrom, ih, List.drop_succ_cons]

theorem pos_of_utf8Next {text : List UInt8} {cp r : ℕ} (h : utf8Next text = some (cp, r)) :
    1 ≤ r := by
  cases text with
  | nil => simp [utf8Next] at h
  | cons c text =>
    by_cases hc : c < 0x80
    · rw [utf8Next, if_pos hc] at h
      simp only [Option.some.injEq, Prod.mk.injEq] at h
      omega
    · rw [utf8Next_multi (by grind), utf8Lead_eq] at h
      split_ifs at h
      all_goals
        dsimp only at h
        split at h
        · simp at h
        · split_ifs at h
          simp only [Option.some.injEq, Prod.mk.injEq] at h
          omega

/-- A character is one codepoint. -/
theorem decodeFrom_char {u : List UInt8} (hu : Utf8.IsChar u) (h0 : u ≠ [0]) (text : List UInt8) :
    ∃ cp, decodeFrom outMax 0 (u ++ text) d = decodeFrom outMax 0 text (d.push outMax cp) := by
  have hstep := (charStep_strips.step_iff (u ++ text) text).mpr ⟨u, hu, h0, rfl⟩
  cases htext : u ++ text with
  | nil => exact absurd (List.append_eq_nil_iff.mp htext).1 hu.ne_nil
  | cons c rest =>
    rw [htext, charStep] at hstep
    split_ifs at hstep with hc
    obtain ⟨⟨cp, r⟩, hnext, hdrop⟩ := Option.map_eq_some_iff.mp hstep
    have hpos := pos_of_utf8Next hnext
    refine ⟨cp, ?_⟩
    obtain ⟨k, rfl⟩ : ∃ k, r = k + 1 := ⟨r - 1, by omega⟩
    rw [decodeFrom, if_neg hc, hnext]
    dsimp only at hdrop ⊢
    rw [List.drop_succ_cons] at hdrop
    rw [Nat.add_sub_cancel, decodeFrom_skip, hdrop]

/-- A byte that no character starts with is passed over. -/
theorem decodeFrom_bad {b : UInt8} {text : List UInt8} (hb : b ≠ 0)
    (hbad : ∀ u, Utf8.IsChar u → ¬ u <+: b :: text) :
    decodeFrom outMax 0 (b :: text) d = decodeFrom outMax 0 text { d with bad := d.bad + 1 } := by
  have hnext : utf8Next (b :: text) = none := by
    cases hnext : utf8Next (b :: text) with
    | none => rfl
    | some result =>
      have hstep : charStep (b :: text) = some ((b :: text).drop result.2) := by
        rw [charStep, if_neg hb, hnext]
        rfl
      obtain ⟨u, hu, -, hsplit⟩ := (charStep_strips.step_iff _ _).mp hstep
      exact absurd ⟨_, hsplit.symm⟩ (hbad u hu)
  rw [decodeFrom, if_neg hb, hnext]

/-- **The count of the decoder** is the number of characters, and as many entries of the array are
written as fit. -/
theorem decodeFrom_characters {text : List UInt8} {n : ℕ} (h : Characters text n)
    (hd : d.out.length = min d.n outMax) :
    (decodeFrom outMax 0 text d).n = d.n + n ∧
      (decodeFrom outMax 0 text d).out.length = min (d.n + n) outMax := by
  induction h generalizing d with
  | nil => exact ⟨rfl, hd⟩
  | nul =>
    rw [decodeFrom, if_pos rfl]
    exact ⟨rfl, hd⟩
  | @char u text n hu h0 _ ih =>
    obtain ⟨cp, hchar⟩ : ∃ cp, decodeFrom outMax 0 (u ++ text) d =
        decodeFrom outMax 0 text (d.push outMax cp) := decodeFrom_char hu h0 text
    have hpush : (d.push outMax cp).out.length = min (d.push outMax cp).n outMax := by
      unfold Decoded.push
      split_ifs with hroom
      · rw [List.length_append, List.length_singleton]
        dsimp only
        omega
      · dsimp only
        omega
    obtain ⟨hn, hout⟩ := ih hpush
    have hcount : (d.push outMax cp).n + n = d.n + (n + 1) := Nat.succ_add_eq_add_succ d.n n
    rw [hchar, hn, hout, hcount]
    exact ⟨rfl, rfl⟩
  | skip hb hbad _ ih =>
    rw [decodeFrom_bad hb hbad]
    exact ih hd

end Count

theorem utf8Decode_characters {text : List UInt8} {n : ℕ} (h : Characters text n) (outMax : ℕ) :
    (utf8Decode text outMax).n = n ∧ (utf8Decode text outMax).out.length = min n outMax := by
  have hempty : (Decoded.mk [] 0 0).out.length = min (Decoded.mk [] 0 0).n outMax :=
    (Nat.zero_min _).symm
  obtain ⟨hn, hout⟩ := decodeFrom_characters h hempty
  rw [Nat.zero_add] at hn hout
  exact ⟨hn, hout⟩

/-- Every text has a number of characters. -/
theorem exists_characters (text : List UInt8) : ∃ n, Characters text n := by
  induction hlen : text.length using Nat.strong_induction_on generalizing text with
  | _ m ih =>
    cases text with
    | nil => exact ⟨0, .nil⟩
    | cons b text =>
      by_cases hb : b = 0
      · subst hb
        exact ⟨0, .nul⟩
      by_cases hchar : ∃ u, Utf8.IsChar u ∧ u <+: b :: text
      · obtain ⟨u, hu, rest, hrest⟩ := hchar
        have hpos := hu.length_pos
        have hsum := congrArg List.length hrest
        rw [List.length_append] at hsum
        obtain ⟨n, hn⟩ := ih rest.length (by omega) rest rfl
        have h0 : u ≠ [0] := by
          rintro rfl
          exact hb (List.cons.inj hrest).1.symm
        exact ⟨n + 1, hrest ▸ .char hu h0 hn⟩
      · rw [List.length_cons] at hlen
        obtain ⟨n, hn⟩ := ih text.length (by omega) text rfl
        exact ⟨n, .skip hb (fun u hu hp => hchar ⟨u, hu, hp⟩) hn⟩

theorem Characters.unique {text : List UInt8} {n n' : ℕ} (h : Characters text n)
    (h' : Characters text n') : n = n' :=
  (utf8Decode_characters h 0).1.symm.trans (utf8Decode_characters h' 0).1

/-! ## The lines stay inside the array -/

section Lines

variable {measure : ℕ → ℤ} {room : ℤ} {cps : List ℕ}

/-- What a scan has read when it stops. -/
theorem scanLine_eq_some {m i j : ℕ} {penX lastSpace lastSpace' : ℤ}
    (h : scanLine measure room cps m i penX lastSpace = some (j, lastSpace')) :
    i ≤ j ∧ j ≤ i + m ∧ (i < j → j ≤ cps.length) ∧ (j < i + m → j < cps.length) := by
  induction m generalizing i penX lastSpace with
  | zero =>
    rw [scanLine, Option.some.injEq, Prod.mk.injEq] at h
    omega
  | succ m ih =>
    rw [scanLine] at h
    cases hcp : cps[i]? with
    | none => simp [hcp] at h
    | some cp =>
      have hi := (List.getElem?_eq_some_iff.mp hcp).1
      simp only [hcp] at h
      split_ifs at h
      · rw [Option.some.injEq, Prod.mk.injEq] at h
        omega
      · have := ih h
        omega
      · have := ih h
        omega

/-- A scan of decoded codepoints stops. -/
theorem scanLine_isSome {m i : ℕ} (h : i + m ≤ cps.length) (penX lastSpace : ℤ) :
    ∃ j lastSpace', scanLine measure room cps m i penX lastSpace = some (j, lastSpace') := by
  induction m generalizing i penX lastSpace with
  | zero => exact ⟨i, lastSpace, rfl⟩
  | succ m ih =>
    have hcp : cps[i]? = some (cps.get ⟨i, by omega⟩) := List.getElem?_eq_getElem _
    rw [scanLine, hcp]
    dsimp only
    split_ifs
    · exact ⟨i, lastSpace, rfl⟩
    · exact ih (by omega) _ _
    · exact ih (by omega) _ _

/-- A line ends behind its start, and behind no more than the scan has seen. -/
theorem lineEnd_bounds {p i : ℕ} (hi : p ≤ i) (n : ℕ) (lastSpace : ℤ) :
    p < lineEnd n p i lastSpace ∧ lineEnd n p i lastSpace ≤ max i (p + 1) := by
  unfold lineEnd
  dsimp only
  split_ifs <;> omega

theorem shrinks_renderTurn (n : ℕ) :
    Loop.Shrinks (renderTurn measure room cps n) fun s => n - s.1 := by
  rintro ⟨p, lines⟩ s' h
  unfold renderTurn at h
  dsimp only at h
  split_ifs at h with hp
  cases hscan : scanLine measure room cps (n - p) p 0 (-1) with
  | none => simp [hscan] at h
  | some stop =>
    obtain ⟨i, lastSpace⟩ := stop
    simp only [hscan] at h
    cases hread : readCps cps p (lineEnd n p i lastSpace) with
    | none => simp [hread] at h
    | some line =>
      simp only [hread, Turn.next.injEq] at h
      subst h
      have hi := (scanLine_eq_some hscan).1
      have hend := (lineEnd_bounds hi n lastSpace).1
      dsimp only
      omega

/-- **The renderer stays inside its array** when every codepoint has been decoded. -/
theorem renderLoop_isSome {n : ℕ} (hn : n = cps.length) (s : ℕ × List (List ℕ)) :
    (Loop.loop (renderTurn measure room cps n) none (fun s => n - s.1) s).isSome := by
  refine Loop.loop_induction (shrinks_renderTurn n) (P := fun _ r => r.isSome) ?_ ?_ s
  · rintro ⟨p, lines⟩ r h
    unfold renderTurn at h
    dsimp only at h
    split_ifs at h with hp
    · obtain rfl := Turn.done.inj h
      rfl
    · obtain ⟨i, lastSpace, hscan⟩ : ∃ i lastSpace,
          scanLine measure room cps (n - p) p 0 (-1) = some (i, lastSpace) :=
        scanLine_isSome (by omega) 0 (-1)
      have hbounds := scanLine_eq_some hscan
      have hend := (lineEnd_bounds hbounds.1 n lastSpace).2
      have hread : readCps cps p (lineEnd n p i lastSpace) =
          some ((cps.drop p).take (lineEnd n p i lastSpace - p)) := if_pos (by omega)
      simp [hscan, hread] at h
  · intro s s' r _ ih
    exact ih

/-- **The renderer leaves its array** when there are more codepoints than entries. -/
theorem renderLoop_eq_none {n : ℕ} (hn : cps.length < n) (s : ℕ × List (List ℕ))
    (hs : s.1 ≤ cps.length) :
    Loop.loop (renderTurn measure room cps n) none (fun s => n - s.1) s = none := by
  refine Loop.loop_induction (shrinks_renderTurn n)
    (P := fun s r => s.1 ≤ cps.length → r = none) ?_ ?_ s hs
  · rintro ⟨p, lines⟩ r h hp
    unfold renderTurn at h
    dsimp only at h hp
    rw [if_neg (by omega)] at h
    cases hscan : scanLine measure room cps (n - p) p 0 (-1) with
    | none =>
      simp only [hscan] at h
      exact (Turn.done.inj h).symm
    | some stop =>
      obtain ⟨i, lastSpace⟩ := stop
      simp only [hscan] at h
      cases hread : readCps cps p (lineEnd n p i lastSpace) with
      | none =>
        simp only [hread] at h
        exact (Turn.done.inj h).symm
      | some line => simp [hread] at h
  · rintro ⟨p, lines⟩ s' r h ih hp
    unfold renderTurn at h
    dsimp only at h hp
    rw [if_neg (by omega)] at h
    cases hscan : scanLine measure room cps (n - p) p 0 (-1) with
    | none => simp [hscan] at h
    | some stop =>
      obtain ⟨i, lastSpace⟩ := stop
      simp only [hscan] at h
      have hbounds := scanLine_eq_some hscan
      have hend := (lineEnd_bounds hbounds.1 n lastSpace).2
      cases hread : readCps cps p (lineEnd n p i lastSpace) with
      | none => simp [hread] at h
      | some line =>
        simp only [hread, Turn.next.injEq] at h
        subst h
        refine ih ?_
        dsimp only
        -- the scan has stopped at a codepoint that it has read
        omega

end Lines

/-- **When the renderer stays inside its array**: for texts of at most 512 characters. -/
theorem textRender_isSome_iff {text : List UInt8} {n : ℕ} (h : Characters text n)
    (measure : ℕ → ℤ) (width leftMargin rightMargin : ℤ) :
    (textRender measure width leftMargin rightMargin text).isSome ↔ n ≤ maxCp := by
  obtain ⟨hn, hout⟩ := utf8Decode_characters h maxCp
  unfold textRender
  dsimp only
  constructor
  · intro hsome
    by_contra hmany
    rw [renderLoop_eq_none (by omega) _ (Nat.zero_le _)] at hsome
    exact absurd hsome (by simp)
  · intro hle
    exact renderLoop_isSome (by omega) _

end CnText
