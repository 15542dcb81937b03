import CrossNook.Graphics.Encoding
import CrossNook.Graphics.Wrap
import CrossNook.UI.RenderFit

/-!
# Rows that end in an ellipsis

What `render_fit` (`ui/ui.c`) shows of a text in a band: all of it, when that fits, and otherwise the
longest prefix that fits together with the ellipsis, or nothing when not even that does. The prefix is
encoded into a buffer again, which is drawn as a text of its own.

## Main definitions

* `CnUi.ellipsisCps`: the codepoints of the ellipsis
* `CnUi.Elided`: a prefix is shown with the ellipsis

## Main results

* `CnUi.fillBuf_eq`: the buffer encodes the prefix and the ellipsis, and has room for them
* `CnUi.renderFit_shows`: what is shown
-/

namespace CnUi

open CnText (Characters utf8Decode textRender)
open Filling (total Filled)
open Utf8 (IsScalar encodeAll)

/-- The codepoints of the ellipsis: three dots in a font without U+2026. -/
def ellipsisCps (measure : ℕ → ℤ) : List ℕ :=
  if measure 0x2026 ≤ 0 then [0x2e, 0x2e, 0x2e] else [0x2026]

/-- The first `k` codepoints fit with the ellipsis behind them, and one more would not. -/
structure Elided (measure : ℕ → ℤ) (avail : ℤ) (cps : List ℕ) (k : ℕ) : Prop where
  lt : k < cps.length
  fits : total measure (cps.take k ++ ellipsisCps measure) ≤ avail
  maximal : avail < total measure (cps.take (k + 1) ++ ellipsisCps measure)

/-! ## The ellipsis -/

theorem ellipsis_eq (measure : ℕ → ℤ) :
    ellipsis measure = (total measure (ellipsisCps measure), encodeAll (ellipsisCps measure)) := by
  unfold ellipsis ellipsisCps
  split_ifs
  · have hbytes : encodeAll [0x2e, 0x2e, 0x2e] = [0x2e, 0x2e, 0x2e] := by decide +kernel
    rw [hbytes, Filling.total_cons, Filling.total_cons, Filling.total_cons, Filling.total_nil]
    congr 1
    ring
  · have hbytes : encodeAll [0x2026] = utf8Encode 0x2026 := by decide +kernel
    rw [hbytes, Filling.total_cons, Filling.total_nil, add_zero]

theorem isScalar_ellipsisCps (measure : ℕ → ℤ) : ∀ v ∈ ellipsisCps measure, IsScalar v ∧ v ≠ 0 := by
  unfold ellipsisCps IsScalar
  split_ifs <;> simp

theorem length_ellipsisCps_le (measure : ℕ → ℤ) : (ellipsisCps measure).length ≤ 3 := by
  unfold ellipsisCps
  split_ifs <;> simp

/-! ## The loops -/

section Loops

variable {measure : ℕ → ℤ} {cps : List ℕ}

/-- **The loop adds up** the widths of the codepoints to go. -/
theorem sumWidths_eq (before rest : List ℕ) (hcps : cps = before ++ rest) :
    sumWidths measure cps rest.length before.length (total measure before) =
      some (total measure cps) := by
  induction rest generalizing before with
  | nil => rw [hcps, List.append_nil, List.length_nil, sumWidths]
  | cons cp rest ih =>
    have hcp : cps[before.length]? = some cp := by
      rw [hcps, Filling.getElem?_behind]
    have hnext := ih (before ++ [cp]) (hcps.trans (List.append_cons before cp rest))
    rw [List.length_append, List.length_singleton, Filling.total_concat] at hnext
    rw [List.length_cons, sumWidths, hcp]
    exact hnext

/-- **The loop takes what fits** in front of the ellipsis. -/
theorem fitFrom_eq (avail ell : ℤ) (before rest : List ℕ) (hcps : cps = before ++ rest)
    (hfits : total measure before + ell ≤ avail) :
    ∃ k, fitFrom measure avail ell cps rest.length before.length (total measure before) = some k ∧
      k ≤ cps.length ∧ total measure (cps.take k) + ell ≤ avail ∧
      (k < cps.length → avail < total measure (cps.take (k + 1)) + ell) := by
  -- on the codepoints that are left; those before the place have been measured
  induction rest generalizing before with
  | nil =>
    rw [List.append_nil] at hcps
    subst hcps
    refine ⟨cps.length, rfl, le_refl _, ?_, fun h => absurd h (lt_irrefl _)⟩
    rwa [List.take_length]
  | cons cp rest ih =>
    have hcp : cps[before.length]? = some cp := by
      rw [hcps, Filling.getElem?_behind]
    have hone : total measure (before ++ [cp]) = total measure before + measure cp :=
      Filling.total_concat measure before cp
    have hsplit : cps = (before ++ [cp]) ++ rest := hcps.trans (List.append_cons before cp rest)
    rw [List.length_cons, fitFrom, hcp]
    dsimp only
    by_cases hstop : avail < total measure before + measure cp + ell
    · refine ⟨before.length, if_pos hstop, ?_, ?_, fun _ => ?_⟩
      · rw [hcps, List.length_append]
        omega
      · rw [hcps, List.take_left]
        exact hfits
      · have htake : cps.take (before.length + 1) = before ++ [cp] := by
          rw [hsplit]
          exact List.take_left' (by rw [List.length_append, List.length_singleton])
        rwa [htake, hone]
    · have hnext := ih (before ++ [cp]) hsplit (by rw [hone]; omega)
      rw [List.length_append, List.length_singleton, hone] at hnext
      rwa [if_neg hstop]

theorem utf8Encode_eq {v : ℕ} (h : IsScalar v) : utf8Encode v = Utf8.encode v := by
  refine (Utf8.encode_eq_shifts ?_).symm
  unfold IsScalar at h
  omega

/-- **The loop encodes** the codepoints to go behind what the buffer holds. -/
theorem encodeFrom_eq {m : ℕ} (before rest : List ℕ) (buf : List UInt8)
    (hcps : cps = before ++ rest) (hscalar : ∀ v ∈ cps, IsScalar v) (hm : m ≤ rest.length)
    (hroom : buf.length + 4 * m ≤ bufSize) :
    encodeFrom cps m before.length buf = some (buf ++ encodeAll (rest.take m)) := by
  induction m generalizing before rest buf with
  | zero => rw [encodeFrom, List.take_zero, Utf8.encodeAll_nil, List.append_nil]
  | succ m ih =>
    cases rest with
    | nil => exact absurd hm (Nat.not_succ_le_zero m)
    | cons cp rest =>
      have hcp : cps[before.length]? = some cp := by
        rw [hcps, Filling.getElem?_behind]
      have hvalue : IsScalar cp := hscalar cp (by rw [hcps]; simp)
      have hlength := Utf8.length_encode_le cp
      have hwrite : write buf (Utf8.encode cp) = some (buf ++ Utf8.encode cp) :=
        if_pos (by omega)
      have hsplit : cps = (before ++ [cp]) ++ rest := hcps.trans (List.append_cons before cp rest)
      have hnext := ih (before ++ [cp]) rest (buf ++ Utf8.encode cp) hsplit
        (Nat.le_of_succ_le_succ hm) (by rw [List.length_append]; omega)
      rw [List.length_append, List.length_singleton] at hnext
      rw [encodeFrom, hcp]
      dsimp only
      rw [utf8Encode_eq hvalue, hwrite]
      dsimp only
      rw [hnext, List.take_succ_cons, Utf8.encodeAll_cons, List.append_assoc]

/-- **The buffer** holds the encoding of the first `k` codepoints and of the ellipsis, and the
terminator. -/
theorem fillBuf_eq {k : ℕ} (hscalar : ∀ v ∈ cps, IsScalar v) (hk : k ≤ cps.length)
    (hmax : k ≤ maxLibCp) {dots : List UInt8} (hdots : dots.length ≤ 3) :
    fillBuf cps k dots = some (encodeAll (cps.take k) ++ dots ++ [0]) ∧
      (encodeAll (cps.take k) ++ dots ++ [0]).length ≤ bufSize := by
  have hsize : bufSize = 4 * maxLibCp + 4 := by decide
  have hscalars := Utf8.length_encodeAll_le (cps.take k)
  rw [List.length_take_of_le hk] at hscalars
  have hlength : (encodeAll (cps.take k) ++ dots ++ [0]).length =
      (encodeAll (cps.take k)).length + dots.length + 1 := by
    rw [List.length_append, List.length_append, List.length_singleton]
  have hencode : encodeFrom cps k 0 [] = some ([] ++ encodeAll (cps.take k)) :=
    encodeFrom_eq [] cps [] rfl hscalar hk (by rw [List.length_nil]; omega)
  have hdotted : write (encodeAll (cps.take k)) dots = some (encodeAll (cps.take k) ++ dots) :=
    if_pos (by omega)
  have hterm : write (encodeAll (cps.take k) ++ dots) [0] =
      some (encodeAll (cps.take k) ++ dots ++ [0]) :=
    if_pos (by rw [← List.length_append]; omega)
  refine ⟨?_, by omega⟩
  rw [fillBuf, hencode]
  dsimp only
  rw [List.nil_append, hdotted]
  exact hterm

end Loops

/-! ## What is shown -/

section Shown

variable {measure : ℕ → ℤ} {text : List UInt8} {n : ℕ}

/-- A text that fits in the band is drawn on one line. -/
theorem textRender_one_line (hmeasure : ∀ cp, 0 ≤ measure cp) {cps : List ℕ}
    (hscalar : ∀ v ∈ cps, IsScalar v ∧ v ≠ 0) (hlength : cps.length ≤ CnText.maxCp)
    {rest : List UInt8} (hrest : ∀ b ∈ rest.head?, b = 0) {width l r : ℤ}
    (hfits : total measure cps ≤ width - r - l) :
    textRender measure width l r (encodeAll cps ++ rest) =
      some (if cps = [] then [] else [cps]) := by
  have hdecode := CnText.utf8Decode_encodeAll hscalar hrest CnText.maxCp
  have hcount : Characters (encodeAll cps ++ rest) cps.length := by
    have h := CnText.characters_decoded (encodeAll cps ++ rest)
    rwa [hdecode] at h
  obtain ⟨lines, hlines, hfilled⟩ := CnText.textRender_filled hmeasure hcount hlength width l r
  rw [hdecode] at hfilled
  dsimp only at hfilled
  rw [List.take_of_length_le hlength] at hfilled
  rw [hlines]
  by_cases hempty : cps = []
  · rw [if_pos hempty]
    have hflatten := hfilled.flatten_eq
    rw [hempty, Filling.flatten_eq_nil_iff_of_ne_nil hfilled.ne_nil] at hflatten
    rw [hflatten]
  · rw [if_neg hempty, hfilled.eq_singleton hempty hfits]

/-- `render_fit` over the codepoints of a text that its array holds. -/
theorem renderFit_encodeAll (measure : ℕ → ℤ) {cps : List ℕ} (hscalar : ∀ v ∈ cps, IsScalar v ∧ v ≠ 0)
    (hlength : cps.length ≤ maxLibCp) (width l r : ℤ) :
    renderFit measure width l r (some (encodeAll cps)) =
      if width - r - l ≤ 0 then some []
      else if total measure cps ≤ width - r - l then textRender measure width l r (encodeAll cps)
      else if width - r - l < total measure (ellipsisCps measure) then some []
      else
        (fitFrom measure (width - r - l) (total measure (ellipsisCps measure)) cps cps.length 0
          0).bind fun k =>
          (fillBuf cps k (encodeAll (ellipsisCps measure))).bind (textRender measure width l r) := by
  have hnone : ∀ b ∈ ([] : List UInt8).head?, b = 0 := by simp
  have hdecode := CnText.utf8Decode_encodeAll hscalar hnone maxLibCp
  rw [List.append_nil, List.take_of_length_le hlength] at hdecode
  have hsum : sumWidths measure cps cps.length 0 0 = some (total measure cps) :=
    sumWidths_eq [] cps rfl
  unfold renderFit
  dsimp only
  rw [ellipsis_eq, hdecode]
  dsimp only
  rw [hsum]
  dsimp only
  congr 3
  cases fitFrom measure (width - r - l) (total measure (ellipsisCps measure)) cps cps.length 0 0 with
  | none => rfl
  | some k =>
    dsimp only [Option.bind_some]
    cases fillBuf cps k (encodeAll (ellipsisCps measure)) <;> rfl

/-- The longest prefix that fits with the ellipsis is found, where not all fits but the ellipsis
does. -/
theorem fitFrom_elided (hmeasure : ∀ cp, 0 ≤ measure cp) {avail : ℤ} {cps : List ℕ}
    (hmore : avail < total measure cps) (hell : total measure (ellipsisCps measure) ≤ avail) :
    ∃ k, fitFrom measure avail (total measure (ellipsisCps measure)) cps cps.length 0 0 = some k ∧
      Elided measure avail cps k := by
  have hempty : total measure [] + total measure (ellipsisCps measure) ≤ avail := by
    rwa [Filling.total_nil, zero_add]
  obtain ⟨k, hk, hle, hfits, hmaximal⟩ :=
    fitFrom_eq avail (total measure (ellipsisCps measure)) [] cps (List.nil_append cps).symm hempty
  have hnonneg := Filling.total_nonneg hmeasure (ellipsisCps measure)
  have hlt : k < cps.length := by
    refine lt_of_le_of_ne hle ?_
    rintro rfl
    rw [List.take_length] at hfits
    omega
  refine ⟨k, hk, hlt, ?_, ?_⟩
  · rwa [Filling.total_append]
  · rw [Filling.total_append]
    exact hmaximal hlt

/-- **What `render_fit` shows** of a valid text of at most 160 codepoints. In a band of positive
width it is all of them on one line, when they fit; nothing, when not even the ellipsis fits; and
otherwise the longest prefix that fits with the ellipsis behind it, on one line. The buffer that is
drawn in that case is valid UTF-8, fits, and is decoded to exactly what is shown. -/
theorem renderFit_shows (hmeasure : ∀ cp, 0 ≤ measure cp) (hvalid : Utf8.Valid text)
    (hnul : (0 : UInt8) ∉ text) (h : Characters text n) (hn : n ≤ 160) (width l r : ℤ) :
    ∃ cps, (∀ outMax, utf8Decode text outMax = ⟨cps.take outMax, n, 0⟩) ∧ cps.length = n ∧
      (width - r - l ≤ 0 → renderFit measure width l r (some text) = some []) ∧
      (0 < width - r - l →
        (total measure cps ≤ width - r - l →
          renderFit measure width l r (some text) = some (if cps = [] then [] else [cps])) ∧
        (width - r - l < total measure cps →
          width - r - l < total measure (ellipsisCps measure) →
          renderFit measure width l r (some text) = some []) ∧
        (width - r - l < total measure cps →
          total measure (ellipsisCps measure) ≤ width - r - l →
          ∃ k buf, Elided measure (width - r - l) cps k ∧
            fillBuf cps k (encodeAll (ellipsisCps measure)) = some (buf ++ [0]) ∧
            (buf ++ [0]).length ≤ bufSize ∧ Utf8.Valid buf ∧
            (∀ outMax, utf8Decode (buf ++ [0]) outMax =
              ⟨(cps.take k ++ ellipsisCps measure).take outMax,
                (cps.take k ++ ellipsisCps measure).length, 0⟩) ∧
            renderFit measure width l r (some text) =
              some [cps.take k ++ ellipsisCps measure])) := by
  -- a valid text is the encoding of its codepoints
  obtain ⟨cps, hscalar, rfl⟩ :=
    (Utf8.validWith_ne_nul_iff.mpr ⟨hvalid, hnul⟩).exists_encodeAll
  have hnone : ∀ b ∈ ([] : List UInt8).head?, b = 0 := by simp
  have hdecode (outMax : ℕ) :
      utf8Decode (encodeAll cps) outMax = ⟨cps.take outMax, cps.length, 0⟩ := by
    have hall := CnText.utf8Decode_encodeAll hscalar hnone outMax
    rwa [List.append_nil] at hall
  obtain rfl : cps.length = n := by
    rw [← (CnText.utf8Decode_characters h maxLibCp).1, hdecode]
  have hshown := renderFit_encodeAll measure hscalar hn width l r
  refine ⟨cps, hdecode, rfl, fun hband => hshown.trans (if_pos hband), fun hband => ?_⟩
  rw [if_neg (not_le.mpr hband)] at hshown
  refine ⟨fun hfits => ?_, fun hmore hell => ?_, fun hmore hell => ?_⟩
  · have hline := textRender_one_line hmeasure hscalar (hn.trans (by decide)) hnone hfits
    rw [List.append_nil] at hline
    rw [hshown, if_pos hfits, hline]
  · rw [hshown, if_neg (not_le.mpr hmore), if_pos hell]
  · rw [if_neg (not_le.mpr hmore), if_neg (not_lt.mpr hell)] at hshown
    obtain ⟨k, hk, helided⟩ := fitFrom_elided hmeasure hmore hell
    have hdots := isScalar_ellipsisCps measure
    -- what is shown is encoded again, into a buffer that holds it
    have hscalars : ∀ v ∈ cps.take k ++ ellipsisCps measure, IsScalar v ∧ v ≠ 0 := by
      intro v hv
      rcases List.mem_append.mp hv with hv | hv
      · exact hscalar v (List.mem_of_mem_take hv)
      · exact hdots v hv
    have hlt := helided.lt
    have hcount : (cps.take k ++ ellipsisCps measure).length ≤ CnText.maxCp := by
      have := length_ellipsisCps_le measure
      have hmax : CnText.maxCp = 512 := rfl
      rw [List.length_append, List.length_take_of_le hlt.le]
      omega
    have hbytes : (encodeAll (ellipsisCps measure)).length ≤ 3 := by
      have := length_ellipsis_le measure
      rwa [ellipsis_eq] at this
    obtain ⟨hbuf, hroom⟩ := fillBuf_eq (fun v hv => (hscalar v hv).1) hlt.le
      (hlt.le.trans hn) hbytes
    rw [← Utf8.encodeAll_append] at hbuf hroom
    rw [hk, Option.bind_some, hbuf, Option.bind_some,
      textRender_one_line hmeasure hscalars hcount (by simp) helided.fits] at hshown
    refine ⟨k, _, helided, hbuf, hroom, Utf8.valid_encodeAll fun v hv => (hscalars v hv).1,
      CnText.utf8Decode_encodeAll hscalars (by simp), ?_⟩
    rw [hshown, if_neg]
    rw [List.append_eq_nil_iff, not_and_or]
    refine .inr ?_
    unfold ellipsisCps
    split_ifs <;> simp

/-- Four letters of ten pixels in a band of 35: two of them are shown, with the ellipsis. -/
theorem renderFit_shows_abcd :
    ∃ k, Elided (fun _ => 10) 35 [0x61, 0x62, 0x63, 0x64] k ∧
      renderFit (fun _ => 10) 55 10 10 (some [0x61, 0x62, 0x63, 0x64]) =
        some [[0x61, 0x62, 0x63, 0x64].take k ++ [0x2026]] := by
  obtain ⟨cps, hdecode, hlength, -, hband⟩ :=
    @renderFit_shows (fun _ => 10) [0x61, 0x62, 0x63, 0x64] _
      (fun _ => show (0 : ℤ) ≤ 10 by decide) (Utf8.valid_of_ascii (by decide +kernel)) (by decide)
      (CnText.characters_decoded _) (by decide +kernel) 55 10 10
  obtain rfl : [0x61, 0x62, 0x63, 0x64] = cps := by
    have hcount : (utf8Decode [0x61, 0x62, 0x63, 0x64] CnText.maxCp).n = 4 := by decide +kernel
    have hout : (utf8Decode [0x61, 0x62, 0x63, 0x64] 4).out = [0x61, 0x62, 0x63, 0x64] := by
      decide +kernel
    rwa [hdecode 4, List.take_of_length_le (hlength.trans hcount).le, eq_comm] at hout
  obtain ⟨k, buf, helided, -, -, -, -, hshown⟩ :=
    (hband (by decide)).2.2 (by decide) (by decide)
  exact ⟨k, helided, hshown⟩

/-- A band without width, and a letter without an advance: it fits, and nothing is shown. -/
theorem nothing_shown_without_width :
    Utf8.Valid [0x61] ∧ Characters [0x61] 1 ∧ total (fun _ => 0) [0x61] ≤ 0 - 0 - 0 ∧
      renderFit (fun _ => 0) 0 0 0 (some [0x61]) = some [] :=
  ⟨Utf8.valid_of_ascii (by decide +kernel), CnText.characters_decoded [0x61], by decide, by decide⟩

end Shown

end CnUi
