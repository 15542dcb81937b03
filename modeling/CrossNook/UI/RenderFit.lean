import CrossNook.Graphics.Text

/-!
# Rows of text

A row that is cut to a width (`render_fit` in `ui/ui.c`): the codepoints of the text are measured,
as many as fit are encoded into a buffer behind which an ellipsis goes, and the buffer is drawn.
Reading an entry of the array that has not been decoded, and writing behind the end of the buffer,
are an outcome of their own.

## Main definitions

* `CnUi.renderFit`: `render_fit`
* `CnUi.utf8TextWidth`: `utf8_text_width`

## Main results

* `CnUi.renderFit_isSome_iff`: when a row stays inside its array and its buffer
* `CnUi.utf8TextWidth_isSome`: the width of a text is measured inside the array
* `CnUi.utf8Decode_bounds_iff`: when the count of the decoder is a bound for its callers
-/

namespace CnUi

open CnText (Characters utf8Decode textRender)

/-- `MAX_LIB_CP`. -/
def maxLibCp : ℕ := 160

/-- The size of `buf` in `render_fit`. -/
def bufSize : ℕ := maxLibCp * 4 + 4

/-- `utf8_encode`. -/
def utf8Encode (cp : ℕ) : List UInt8 :=
  if cp < 0x80 then [UInt8.ofNat cp]
  else if cp < 0x800 then [UInt8.ofNat (0xc0 ||| cp >>> 6), UInt8.ofNat (0x80 ||| (cp &&& 0x3f))]
  else if cp < 0x10000 then
    [UInt8.ofNat (0xe0 ||| cp >>> 12), UInt8.ofNat (0x80 ||| (cp >>> 6 &&& 0x3f)),
      UInt8.ofNat (0x80 ||| (cp &&& 0x3f))]
  else
    [UInt8.ofNat (0xf0 ||| cp >>> 18), UInt8.ofNat (0x80 ||| (cp >>> 12 &&& 0x3f)),
      UInt8.ofNat (0x80 ||| (cp >>> 6 &&& 0x3f)), UInt8.ofNat (0x80 ||| (cp &&& 0x3f))]

/-- A write at `pos`, the end of what `buf` holds. -/
def write (buf bytes : List UInt8) : Option (List UInt8) :=
  if buf.length + bytes.length ≤ bufSize then some (buf ++ bytes) else none

/-- The loop that adds the widths, with `m` codepoints to go. -/
def sumWidths (measure : ℕ → ℤ) (cps : List ℕ) : ℕ → ℕ → ℤ → Option ℤ
  | 0, _, total => some total
  | m + 1, i, total =>
    match cps[i]? with
    | none => none
    | some cp => sumWidths measure cps m (i + 1) (total + measure cp)

/-- The loop that finds how many codepoints fit, with `m` to go. -/
def fitFrom (measure : ℕ → ℤ) (avail ell : ℤ) (cps : List ℕ) : ℕ → ℕ → ℤ → Option ℕ
  | 0, k, _ => some k
  | m + 1, k, acc =>
    match cps[k]? with
    | none => none
    | some cp =>
      if avail < acc + measure cp + ell then some k
      else fitFrom measure avail ell cps m (k + 1) (acc + measure cp)

/-- The loop that encodes, with `m` codepoints to go. No encoding is empty, so it does not break. -/
def encodeFrom (cps : List ℕ) : ℕ → ℕ → List UInt8 → Option (List UInt8)
  | 0, _, buf => some buf
  | m + 1, i, buf =>
    match cps[i]? with
    | none => none
    | some cp =>
      match write buf (utf8Encode cp) with
      | none => none
      | some buf => encodeFrom cps m (i + 1) buf

/-- What goes behind the codepoints, and its width: three dots in a font without U+2026. -/
def ellipsis (measure : ℕ → ℤ) : ℤ × List UInt8 :=
  if measure 0x2026 ≤ 0 then (measure 0x2e * 3, [0x2e, 0x2e, 0x2e])
  else (measure 0x2026, utf8Encode 0x2026)

/-- The buffer of `render_fit`, with `k` codepoints of the row. -/
def fillBuf (cps : List ℕ) (k : ℕ) (dots : List UInt8) : Option (List UInt8) :=
  match encodeFrom cps k 0 [] with
  | none => none
  | some buf =>
    match write buf dots with
    | none => none
    | some buf => write buf [0]

/-- `render_fit`: the lines that it draws, on a canvas of this width. A `text` of `none` is
`NULL`. -/
def renderFit (measure : ℕ → ℤ) (width l r : ℤ) (text : Option (List UInt8)) :
    Option (List (List ℕ)) :=
  let avail := width - r - l
  match text with
  | none => some []
  | some text =>
    if avail ≤ 0 then some []
    else
      let (ell, dots) := ellipsis measure
      let decoded := utf8Decode text maxLibCp
      match sumWidths measure decoded.out decoded.n 0 0 with
      | none => none
      | some total =>
        -- a text that fits is drawn as it was given
        if total ≤ avail then textRender measure width l r text
        else if avail < ell then some []
        else
          match fitFrom measure avail ell decoded.out decoded.n 0 0 with
          | none => none
          | some k =>
            match fillBuf decoded.out k dots with
            | none => none
            | some buf => textRender measure width l r buf

/-- `utf8_text_width`. -/
def utf8TextWidth (measure : ℕ → ℤ) (text : Option (List UInt8)) : Option ℤ :=
  match text with
  | none => some 0
  | some text =>
    let decoded := utf8Decode text maxLibCp
    let n := if maxLibCp < decoded.n then maxLibCp else decoded.n
    sumWidths measure decoded.out n 0 0

/-! ## Characters of the buffer -/

/-- The bytes that can start a character. -/
def heads (text : List UInt8) : ℕ := text.countP fun b => ¬ Utf8.Tail b

@[simp] theorem heads_append (text text' : List UInt8) :
    heads (text ++ text') = heads text + heads text' := List.countP_append

/-- A text has no more characters than bytes that can start one. -/
theorem characters_le_heads {text : List UInt8} {n : ℕ} (h : Characters text n) :
    n ≤ heads text := by
  induction h with
  | nil => exact Nat.le_refl _
  | nul => exact Nat.zero_le _
  | @char u text n hu _ _ ih =>
    rw [heads_append]
    have hhead : 0 < heads u := by
      cases u with
      | nil => exact absurd rfl hu.ne_nil
      | cons a u =>
        exact List.countP_pos_iff.mpr ⟨a, List.mem_cons_self, decide_eq_true hu.head_not_tail⟩
    omega
  | @skip b text n _ _ _ ih =>
    have hsplit : heads (b :: text) = heads [b] + heads text := heads_append [b] text
    omega

theorem tail_ofNat_or (x : ℕ) : Utf8.Tail (UInt8.ofNat (0x80 ||| (x &&& 0x3f))) := by
  have hlow : x &&& 0x3f = x % 64 := Nat.and_two_pow_sub_one_eq_mod x 6
  have hor : 0x80 ||| x % 64 = 0x80 + x % 64 :=
    (Nat.two_pow_add_eq_or_of_lt (i := 7) (by omega) 1).symm
  rw [hlow, hor]
  exact Utf8.tail_ofNat _ (Nat.mod_lt _ (by decide))

theorem length_utf8Encode_le (cp : ℕ) : (utf8Encode cp).length ≤ 4 := by
  unfold utf8Encode
  split_ifs <;> simp

/-- An encoding has one byte that can start a character. -/
theorem heads_utf8Encode_le (cp : ℕ) : heads (utf8Encode cp) ≤ 1 := by
  have hcons (a : UInt8) (u : List UInt8) (hu : ∀ b ∈ u, Utf8.Tail b) : heads (a :: u) ≤ 1 := by
    have htails : heads u = 0 :=
      List.countP_eq_zero.mpr fun b hb => by simpa using hu b hb
    have hsingle : heads [a] ≤ 1 := List.countP_le_length
    have hsplit : heads (a :: u) = heads [a] + heads u := heads_append [a] u
    omega
  have hnil : ∀ b ∈ ([] : List UInt8), Utf8.Tail b := fun b hb => absurd hb List.not_mem_nil
  have hmore (x : ℕ) {u : List UInt8} (hu : ∀ b ∈ u, Utf8.Tail b) :
      ∀ b ∈ UInt8.ofNat (0x80 ||| (x &&& 0x3f)) :: u, Utf8.Tail b :=
    List.forall_mem_cons.mpr ⟨tail_ofNat_or x, hu⟩
  unfold utf8Encode
  split_ifs
  · exact hcons _ _ hnil
  · exact hcons _ _ (hmore _ hnil)
  · exact hcons _ _ (hmore _ (hmore _ hnil))
  · exact hcons _ _ (hmore _ (hmore _ (hmore _ hnil)))

/-! ## Loops over decoded codepoints -/

section Loops

variable {measure : ℕ → ℤ} {cps : List ℕ}

theorem sumWidths_isSome_iff {m i : ℕ} (hi : i ≤ cps.length) (total : ℤ) :
    (sumWidths measure cps m i total).isSome ↔ i + m ≤ cps.length := by
  induction m generalizing i total with
  | zero => exact iff_of_true rfl hi
  | succ m ih =>
    rw [sumWidths]
    by_cases hlt : i < cps.length
    · rw [List.getElem?_eq_getElem hlt]
      dsimp only
      rw [ih hlt]
      omega
    · rw [List.getElem?_eq_none (by omega)]
      exact iff_of_false (by simp) (by omega)

theorem fitFrom_isSome {avail ell : ℤ} {m k : ℕ} (h : k + m ≤ cps.length) (acc : ℤ) :
    ∃ k', fitFrom measure avail ell cps m k acc = some k' ∧ k' ≤ k + m := by
  induction m generalizing k acc with
  | zero => exact ⟨k, rfl, Nat.le_refl _⟩
  | succ m ih =>
    have hcp : cps[k]? = some (cps.get ⟨k, by omega⟩) := List.getElem?_eq_getElem _
    rw [fitFrom, hcp]
    dsimp only
    split_ifs
    · exact ⟨k, rfl, by omega⟩
    · obtain ⟨k', hk', hle⟩ := ih (k := k + 1) (by omega) (acc + measure (cps.get ⟨k, by omega⟩))
      exact ⟨k', hk', by omega⟩

/-- The encoded codepoints fit where there are four bytes for each. -/
theorem encodeFrom_isSome {m i : ℕ} {buf : List UInt8} (h : i + m ≤ cps.length)
    (hroom : buf.length + 4 * m ≤ bufSize) :
    ∃ buf', encodeFrom cps m i buf = some buf' ∧ buf'.length ≤ buf.length + 4 * m ∧
      heads buf' ≤ heads buf + m := by
  induction m generalizing i buf with
  | zero => exact ⟨buf, rfl, Nat.le_refl _, Nat.le_refl _⟩
  | succ m ih =>
    have hcp : cps[i]? = some (cps.get ⟨i, by omega⟩) := List.getElem?_eq_getElem _
    rw [encodeFrom, hcp]
    dsimp only
    generalize cps.get ⟨i, by omega⟩ = cp
    have hlength := length_utf8Encode_le cp
    have hheads := heads_utf8Encode_le cp
    have hwrite : write buf (utf8Encode cp) = some (buf ++ utf8Encode cp) := if_pos (by omega)
    have hgrown : (buf ++ utf8Encode cp).length = buf.length + (utf8Encode cp).length :=
      List.length_append
    have hgrown' := heads_append buf (utf8Encode cp)
    obtain ⟨buf', hbuf', hle, hle'⟩ : ∃ buf', encodeFrom cps m (i + 1) (buf ++ utf8Encode cp) =
        some buf' ∧ buf'.length ≤ (buf ++ utf8Encode cp).length + 4 * m ∧
        heads buf' ≤ heads (buf ++ utf8Encode cp) + m := ih (by omega) (by omega)
    rw [hwrite]
    exact ⟨buf', hbuf', by omega, by omega⟩

/-- The buffer has room for the row, the ellipsis and the terminator. -/
theorem fillBuf_isSome {k : ℕ} (h : k ≤ cps.length) (hk : k ≤ maxLibCp) {dots : List UInt8}
    (hdots : dots.length ≤ 3) :
    ∃ buf, fillBuf cps k dots = some buf ∧ heads buf ≤ k + 4 := by
  have hsize : bufSize = 4 * maxLibCp + 4 := by decide
  obtain ⟨buf, hbuf, hlength, hheads⟩ : ∃ buf, encodeFrom cps k 0 [] = some buf ∧
      buf.length ≤ ([] : List UInt8).length + 4 * k ∧ heads buf ≤ heads [] + k :=
    encodeFrom_isSome (by omega) (by rw [List.length_nil]; omega)
  rw [List.length_nil] at hlength
  have hnil : heads [] = 0 := rfl
  have hwrite : write buf dots = some (buf ++ dots) := if_pos (by omega)
  have hgrown : (buf ++ dots).length = buf.length + dots.length := List.length_append
  have hterm : write (buf ++ dots) [0] = some (buf ++ dots ++ [0]) := if_pos (by
    rw [List.length_singleton]
    omega)
  have hdotHeads : heads dots ≤ dots.length := List.countP_le_length
  have htermHeads : heads [0] ≤ 1 := List.countP_le_length
  refine ⟨buf ++ dots ++ [0], ?_, ?_⟩
  · rw [fillBuf, hbuf]
    dsimp only
    rw [hwrite]
    exact hterm
  · rw [heads_append, heads_append]
    omega

end Loops

theorem length_ellipsis_le (measure : ℕ → ℤ) : (ellipsis measure).2.length ≤ 3 := by
  unfold ellipsis
  split_ifs
  · exact Nat.le_refl 3
  · exact Nat.le_refl 3

/-! ## The row -/

section Row

variable {text : List UInt8} {n : ℕ}

/-- **When a row stays inside its array and its buffer**: when there is no room at all, and for
texts of at most 160 characters. -/
theorem renderFit_isSome_iff (h : Characters text n) (measure : ℕ → ℤ) (width l r : ℤ) :
    (renderFit measure width l r (some text)).isSome ↔ width - r - l ≤ 0 ∨ n ≤ maxLibCp := by
  obtain ⟨hn, hout⟩ := CnText.utf8Decode_characters h maxLibCp
  unfold renderFit
  dsimp only
  by_cases havail : width - r - l ≤ 0
  · rw [if_pos havail]
    exact iff_of_true rfl (.inl havail)
  rw [if_neg havail, or_iff_right havail]
  have hsum : (sumWidths measure (utf8Decode text maxLibCp).out (utf8Decode text maxLibCp).n 0
      0).isSome ↔ 0 + (utf8Decode text maxLibCp).n ≤ (utf8Decode text maxLibCp).out.length :=
    sumWidths_isSome_iff (Nat.zero_le _) 0
  by_cases hmany : n ≤ maxLibCp
  · refine iff_of_true ?_ hmany
    obtain ⟨total, htotal⟩ := Option.isSome_iff_exists.mp (hsum.mpr (by omega))
    rw [htotal]
    dsimp only
    split_ifs
    · exact (CnText.textRender_isSome_iff h measure width l r).mpr (hmany.trans (by decide))
    · rfl
    · have hread : 0 + (utf8Decode text maxLibCp).n ≤ (utf8Decode text maxLibCp).out.length := by
        omega
      obtain ⟨k, hk, hle⟩ : ∃ k, fitFrom measure (width - r - l) (ellipsis measure).1
          (utf8Decode text maxLibCp).out (utf8Decode text maxLibCp).n 0 0 = some k ∧
          k ≤ 0 + (utf8Decode text maxLibCp).n := fitFrom_isSome hread 0
      obtain ⟨buf, hbuf, hheads⟩ : ∃ buf, fillBuf (utf8Decode text maxLibCp).out k
          (ellipsis measure).2 = some buf ∧ heads buf ≤ k + 4 :=
        fillBuf_isSome (by omega) (by omega) (length_ellipsis_le measure)
      rw [hk]
      dsimp only
      rw [hbuf]
      dsimp only
      -- what is drawn has at most as many characters as the row, and those of the ellipsis
      obtain ⟨count, hcount⟩ := CnText.exists_characters buf
      have hbound := characters_le_heads hcount
      have hroom : maxLibCp + 4 ≤ CnText.maxCp := by decide
      exact (CnText.textRender_isSome_iff hcount measure width l r).mpr (by omega)
  · refine iff_of_false ?_ hmany
    have hnone : sumWidths measure (utf8Decode text maxLibCp).out (utf8Decode text maxLibCp).n 0 0 =
        none := by
      rw [← Option.not_isSome_iff_eq_none, hsum]
      omega
    rw [hnone]
    simp

/-- The width of a text is measured inside the array: the count is bounded by the caller. -/
theorem utf8TextWidth_isSome (measure : ℕ → ℤ) (text : Option (List UInt8)) :
    (utf8TextWidth measure text).isSome := by
  cases text with
  | none => rfl
  | some text =>
    obtain ⟨n, h⟩ := CnText.exists_characters text
    obtain ⟨hn, hout⟩ := CnText.utf8Decode_characters h maxLibCp
    unfold utf8TextWidth
    dsimp only
    rw [sumWidths_isSome_iff (Nat.zero_le _)]
    split_ifs <;> omega

end Row

/-- **When the count of the decoder is a bound for its callers.** It is the number of characters
of the text, whatever the array holds. -/
theorem utf8Decode_bounds_iff (text : List UInt8) :
    ∃ n, Characters text n ∧
      (∀ outMax, (utf8Decode text outMax).n ≤ outMax ↔ n ≤ outMax) ∧
      (∀ measure width l r, (renderFit measure width l r (some text)).isSome ↔
        width - r - l ≤ 0 ∨ n ≤ 160) ∧
      ∀ measure width l r, (textRender measure width l r text).isSome ↔ n ≤ 512 := by
  obtain ⟨n, h⟩ := CnText.exists_characters text
  refine ⟨n, h, fun outMax => ?_, renderFit_isSome_iff h, CnText.textRender_isSome_iff h⟩
  rw [(CnText.utf8Decode_characters h outMax).1]

/-- A title of 161 letters: the count is 161 for an array of 160, and the row that is to show it
reads behind the array, while its width is measured inside. -/
theorem long_title_leaves_array :
    (utf8Decode (List.replicate 161 0x61) maxLibCp).n = 161 ∧
      renderFit (fun _ => 10) 600 32 32 (some (List.replicate 161 0x61)) = none ∧
      utf8TextWidth (fun _ => 10) (some (List.replicate 161 0x61)) = some 1600 := by
  decide +kernel

end CnUi
