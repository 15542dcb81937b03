import CrossNook.System.Agreement
import CrossNook.UI.FieldBounds
import CrossNook.UI.Rendering

/-!
# What a drawing depends on

A screen is drawn over whatever the canvas showed before. The drawing of a screen stays inside its
arrays exactly when the texts that are cut to a width are short enough, and the picture is a
function of the state: nothing that was drawn earlier shows through.

## Main definitions

* `CnUi.chars`: the number of characters of a text
* `Look.Sound`: what is taken for granted about FreeType
* `Sheet.Same`: the canvas and the size agree, and the statistics may differ
* `CnUi.Legible`: the texts of a screen that are cut to a width are short enough

## Main results

* `CnUi.agree_picture`: two drawings of one state, over any two canvases
-/

open CnCanvas (Canvas)
open CnText (Font Colors utf8Decode maxCp)
open Crash (Agree Prog)
open Drawing

/-- What is taken for granted about FreeType: it can set every size that is asked for, and the rows
of the bitmaps that it renders are in their buffers. -/
structure Look.Sound {R : Type} (look : Look R) : Prop where
  sets : ∀ px, ∃ ascent, look.ascender px = some ascent
  fits : ∀ px cp slot, (look.font px).slot cp = some slot → slot.bitmap.Fits

namespace Sheet

/-- Two canvases of the size of the screen, whatever they show. -/
def Sized (s t : Sheet) : Prop := s.Full ∧ t.Full

/-- The same canvas, whatever size is set. -/
def SameCanvas (s t : Sheet) : Prop := s.Full ∧ t.surface.canvas = s.surface.canvas

/-- The same canvas and the same size. -/
def Same (s t : Sheet) : Prop := SameCanvas s t ∧ t.px = s.px

end Sheet

open Sheet (Sized SameCanvas Same)

namespace CnUi

/-! ## Texts -/

/-- The number of characters of a text. -/
def chars (text : List UInt8) : ℕ := (utf8Decode text maxCp).n

theorem chars_eq {text : List UInt8} {n : ℕ} (h : CnText.Characters text n) : chars text = n :=
  (CnText.utf8Decode_characters h maxCp).1

theorem chars_le_length (text : List UInt8) : chars text ≤ text.length := by
  have hheads := characters_le_heads (CnText.characters_decoded text)
  have hcount : heads text ≤ text.length := List.countP_le_length
  exact hheads.trans hcount

/-- The decoder counts the characters, whatever the size of its array. -/
theorem decoded_n (text : List UInt8) (outMax : ℕ) : (utf8Decode text outMax).n = chars text :=
  (CnText.utf8Decode_characters (CnText.characters_decoded text) outMax).1

theorem length_decoded (text : List UInt8) (outMax : ℕ) :
    (utf8Decode text outMax).out.length = min (chars text) outMax :=
  (CnText.utf8Decode_characters (CnText.characters_decoded text) outMax).2

/-- `render_fit` draws the text that fits. -/
theorem renderFit_eq_fitted (measure : ℕ → ℤ) (w l r : ℤ) (text : List UInt8) :
    renderFit measure w l r (some text) =
      if w - r - l ≤ 0 then some []
      else (fitted measure (w - r - l) text).bind fun shown =>
        (shown.map fun t => CnText.textRender measure w l r t).getD (some []) := by
  unfold renderFit fitted
  dsimp only
  by_cases havail : w - r - l ≤ 0
  · rw [if_pos havail, if_pos havail]
  rw [if_neg havail, if_neg havail]
  cases sumWidths measure (utf8Decode text maxLibCp).out (utf8Decode text maxLibCp).n 0 0 with
  | none => rfl
  | some total =>
    dsimp only
    split_ifs
    · rfl
    · rfl
    · cases fitFrom measure (w - r - l) (ellipsis measure).1 (utf8Decode text maxLibCp).out
        (utf8Decode text maxLibCp).n 0 0 with
      | none => rfl
      | some k =>
        dsimp only
        cases fillBuf (utf8Decode text maxLibCp).out k (ellipsis measure).2 with
        | none => rfl
        | some buf => rfl

theorem sumWidths_decoded (measure : ℕ → ℤ) (text : List UInt8) :
    (sumWidths measure (utf8Decode text maxLibCp).out (utf8Decode text maxLibCp).n 0 0).isSome ↔
      chars text ≤ maxLibCp := by
  have hn := decoded_n text maxLibCp
  have hout := length_decoded text maxLibCp
  have hsum : (sumWidths measure (utf8Decode text maxLibCp).out (utf8Decode text maxLibCp).n 0
      0).isSome ↔ 0 + (utf8Decode text maxLibCp).n ≤ (utf8Decode text maxLibCp).out.length :=
    sumWidths_isSome_iff (Nat.zero_le _) 0
  rw [hsum]
  omega

/-- A text of more than 160 characters that is cut to a width leaves its array. -/
theorem fitted_long (measure : ℕ → ℤ) (avail : ℤ) {text : List UInt8}
    (h : ¬ chars text ≤ maxLibCp) : fitted measure avail text = none := by
  have hnone : sumWidths measure (utf8Decode text maxLibCp).out (utf8Decode text maxLibCp).n 0 0 =
      none := by
    rw [← Option.not_isSome_iff_eq_none, sumWidths_decoded]
    exact h
  unfold fitted
  dsimp only
  rw [hnone]

/-- What is drawn of a text that is cut with its ellipsis has at most as many characters as the text,
and those of the ellipsis. -/
theorem chars_le_of_heads {buf text : List UInt8} (hshort : chars text ≤ maxLibCp)
    (hheads : heads buf ≤ chars text + 4) : chars buf ≤ maxCp := by
  have hbound : chars buf ≤ heads buf := characters_le_heads (CnText.characters_decoded buf)
  have hroom : maxLibCp + 4 ≤ maxCp := by decide
  omega

/-- **A text that is cut to a width** stays inside its array when it has at most 160 characters, and
what is drawn of it is short enough for the renderer. -/
theorem fitted_short (measure : ℕ → ℤ) (avail : ℤ) {text : List UInt8}
    (h : chars text ≤ maxLibCp) : ∃ shown, fitted measure avail text = some shown ∧
      ∀ t ∈ shown, chars t ≤ maxCp := by
  have hn := decoded_n text maxLibCp
  have hout := length_decoded text maxLibCp
  obtain ⟨total, htotal⟩ := Option.isSome_iff_exists.mp ((sumWidths_decoded measure text).mpr h)
  unfold fitted
  dsimp only
  rw [htotal]
  dsimp only
  split_ifs
  -- all of the text has its place
  · refine ⟨some text, rfl, ?_⟩
    intro t ht
    obtain rfl : text = t := Option.mem_some_iff.mp ht
    exact h.trans (by decide)
  -- there is no place for the ellipsis
  · refine ⟨none, rfl, ?_⟩
    intro t ht
    cases ht
  · obtain ⟨k, hk, hle⟩ : ∃ k, fitFrom measure avail (ellipsis measure).1
        (utf8Decode text maxLibCp).out (utf8Decode text maxLibCp).n 0 0 = some k ∧
        k ≤ 0 + (utf8Decode text maxLibCp).n := fitFrom_isSome (by omega) 0
    obtain ⟨buf, hbuf, hheads⟩ : ∃ buf, fillBuf (utf8Decode text maxLibCp).out k
        (ellipsis measure).2 = some buf ∧ heads buf ≤ k + 4 :=
      fillBuf_isSome (by omega) (by omega) (length_ellipsis_le measure)
    rw [hk]
    dsimp only
    rw [hbuf]
    refine ⟨some buf, rfl, ?_⟩
    intro t ht
    obtain rfl : buf = t := Option.mem_some_iff.mp ht
    exact chars_le_of_heads h (by omega)

end CnUi

/-! ## The parts of a drawing -/

namespace Drawing

variable {R : Type} {look : Look R}

open CnUi (chars)

/-- A call of the canvas draws the same on the same canvas. -/
theorem agree_call (command : CnCanvas.Command) : Agree Same Same True (call command) := by
  apply Agree.of_total
  intro s t h
  obtain ⟨⟨hfull, hcanvas⟩, hpx⟩ := h
  obtain ⟨c, hc, hpaints⟩ := command.call_paints s.surface.canvas
  refine ⟨(), s.withCanvas c, t.withCanvas c, ?_, ?_, ?_⟩
  · rw [call, hc]
  · rw [call, hcanvas, hc]
  · exact ⟨⟨⟨hpaints.w_eq.trans hfull.1, hpaints.h_eq.trans hfull.2⟩, rfl⟩, hpx⟩

theorem agree_call_canvas (command : CnCanvas.Command) :
    Agree SameCanvas SameCanvas True (call command) := by
  apply Agree.of_total
  intro s t h
  obtain ⟨hfull, hcanvas⟩ := h
  obtain ⟨c, hc, hpaints⟩ := command.call_paints s.surface.canvas
  refine ⟨(), s.withCanvas c, t.withCanvas c, ?_, ?_, ?_⟩
  · rw [call, hc]
  · rw [call, hcanvas, hc]
  · exact ⟨⟨hpaints.w_eq.trans hfull.1, hpaints.h_eq.trans hfull.2⟩, rfl⟩

/-- Two canvases of one size that were filled with one colour are the same. -/
theorem filled_eq {a b c d : Canvas} {color : UInt16} (hw : b.w = a.w) (hh : b.h = a.h)
    (hc : CnCanvas.Paints color Set.univ a c) (hd : CnCanvas.Paints color Set.univ b d) : d = c := by
  have hscreen : CnCanvas.screen b = CnCanvas.screen a := by
    ext p
    simp only [CnCanvas.screen, CnCanvas.Canvas.OnScreen, hw, hh]
  apply CnCanvas.eq_of_view
  · rw [hc.w_eq, hd.w_eq, hw]
  · rw [hc.h_eq, hd.h_eq, hh]
  rw [hc.view_eq, hd.view_eq, hscreen]
  ext p : 1
  by_cases hp : p ∈ Set.univ ∩ CnCanvas.screen a
  · rw [Painting.Layer.onto_of_mem (l := ⟨_, color⟩) hp,
      Painting.Layer.onto_of_mem (l := ⟨_, color⟩) hp]
  · rw [Painting.Layer.onto_of_notMem (l := ⟨_, color⟩) hp,
      Painting.Layer.onto_of_notMem (l := ⟨_, color⟩) hp]
    -- outside the canvas both show nothing
    have hout : ¬ a.OnScreen p.1 p.2 := fun hon => hp ⟨trivial, hon⟩
    have hout' : ¬ b.OnScreen p.1 p.2 := fun hon => hp ⟨trivial, hscreen ▸ hon⟩
    change CnCanvas.getPixel _ _ _ = CnCanvas.getPixel _ _ _
    rw [CnCanvas.getPixel_of_not_onScreen hout, CnCanvas.getPixel_of_not_onScreen hout']

/-- **Clearing** hides what the canvas showed. -/
theorem agree_clear (color : UInt16) : Agree Sized SameCanvas True (call (.clear color)) := by
  apply Agree.of_total
  intro s t h
  obtain ⟨hs, ht⟩ := h
  obtain ⟨c, hc, hpaints⟩ := CnCanvas.clear_paints (c := s.surface.canvas) color
  obtain ⟨d, hd, hpaints'⟩ := CnCanvas.clear_paints (c := t.surface.canvas) color
  obtain rfl := filled_eq (ht.1.trans hs.1.symm) (ht.2.trans hs.2.symm) hpaints hpaints'
  refine ⟨(), s.withCanvas d, t.withCanvas d, ?_, ?_, ?_⟩
  · have hcall : (CnCanvas.Command.clear color).call s.surface.canvas = some d := hc
    rw [call, hcall]
  · have hcall : (CnCanvas.Command.clear color).call t.surface.canvas = some d := hd
    rw [call, hcall]
  · exact ⟨⟨hpaints.w_eq.trans hs.1, hpaints.h_eq.trans hs.2⟩, rfl⟩

/-- After a size was set it is the same. -/
theorem agree_setSize_canvas (hlook : look.Sound) (px : ℤ) :
    Agree SameCanvas Same True (setSize look px) := by
  apply Agree.of_total
  intro s t h
  obtain ⟨ascent, hascent⟩ := hlook.sets px
  refine ⟨ascent, { s with px }, { t with px }, ?_, ?_, h, rfl⟩
  · rw [setSize, hascent]
  · rw [setSize, hascent]

theorem agree_setSize (hlook : look.Sound) (px : ℤ) : Agree Same Same True (setSize look px) := by
  intro s t h
  exact agree_setSize_canvas hlook px s t h.1

theorem agree_measure (look : Look R) : Agree Same Same True (measure look) := by
  apply Agree.of_total
  intro s t h
  refine ⟨_, s, t, rfl, ?_, h⟩
  rw [measure, h.2]

/-- The width is that of the screen. -/
theorem agree_width {T : Sheet → Sheet → Prop} {β : Type} {c : Prop} {f : ℤ → Drawing β}
    (hf : Agree Same T c (f 600)) : Agree Same T c (width >>= f) := by
  intro s t h
  have hwidth : ∀ u : Sheet, u.Full → (width >>= f) u = f 600 u := by
    intro u hu
    have hw : width u = (some 600, u) := by
      rw [width, hu.1]
      rfl
    exact Crash.bind_of_eq hw
  rw [hwidth s h.1.1, hwidth t (by rw [Sheet.Full, h.1.2]; exact h.1.1)]
  exact hf s t h

theorem agree_height : Agree Same Same True height := by
  apply Agree.of_total
  intro s t h
  refine ⟨_, s, t, rfl, ?_, h⟩
  rw [height, h.1.2]

theorem known_some {α β : Type} (a : α) (f : α → Drawing β) : known (some a) >>= f = f a := rfl

/-- Behind a read outside an array nothing is drawn. -/
theorem agree_known_none {α β : Type} {S T : Sheet → Sheet → Prop} (f : α → Drawing β) :
    Agree S T False (known none >>= f) := by
  intro s t _
  refine ⟨?_, ?_⟩
  · intro hc
    exact absurd hc id
  · intro _
    exact ⟨rfl, rfl⟩

/-- Whether the renderer stays inside its array does not depend on the canvas. -/
theorem render_isSome_iff (face : CnText.Face) (w : ℕ) (l r baseline : ℤ) (utf8 : List UInt8) :
    (CnText.render face w l r baseline utf8).isSome ↔ chars utf8 ≤ maxCp := by
  change _ ↔ (utf8Decode utf8 maxCp).n ≤ maxCp
  rw [← CnText.textRender_isSome_iff (CnText.characters_decoded utf8) face.measure w l r,
    ← CnText.render_texts _ _ _ _ baseline, Option.isSome_map]

/-- **A text** is drawn the same on the same canvas, when it has at most 512 characters. -/
theorem agree_text (hlook : look.Sound) (utf8 : List UInt8) (baseline l r : ℤ) (colors : Colors) :
    Agree Same Same (chars utf8 ≤ maxCp) (text look utf8 baseline l r colors) := by
  intro s t h
  obtain ⟨⟨hfull, hcanvas⟩, hpx⟩ := h
  have hfits := hlook.fits s.px
  have hpage := render_isSome_iff (look.font s.px).face s.surface.canvas.w l r baseline utf8
  refine ⟨?_, ?_⟩
  · intro hshort
    obtain ⟨page, hrender⟩ := Option.isSome_iff_exists.mp (hpage.mpr hshort)
    have hrender' : CnText.render (look.font s.px).face t.surface.canvas.w l r baseline utf8 =
        some page := by rw [hcanvas, hrender]
    obtain ⟨a, ha, hdraws⟩ := CnText.renderOn_draws colors hfits s.surface l r baseline utf8 hrender
    obtain ⟨b, hb, hdraws'⟩ :=
      CnText.renderOn_draws colors hfits t.surface l r baseline utf8 hrender'
    refine ⟨page.baseline, { s with surface := a }, { t with surface := b }, ?_, ?_,
      ⟨⟨?_, ?_⟩, ?_⟩, hpx⟩
    · rw [text, ha]
    · rw [text, hpx, hb]
    · exact hdraws.w_eq.trans hfull.1
    · exact hdraws.h_eq.trans hfull.2
    · apply CnCanvas.eq_of_view
      · rw [hdraws.w_eq, hdraws'.w_eq, hcanvas]
      · rw [hdraws.h_eq, hdraws'.h_eq, hcanvas]
      · rw [hdraws.view_eq, hdraws'.view_eq, hcanvas]
  · intro hlong
    have hrender :
        CnText.render (look.font s.px).face s.surface.canvas.w l r baseline utf8 = none := by
      rw [← Option.not_isSome_iff_eq_none, hpage]
      exact hlong
    refine ⟨?_, ?_⟩
    · rw [text, CnText.renderOn_failed hfits s.surface l r baseline colors utf8 hrender]
    · rw [text, hpx, CnText.renderOn_failed hfits t.surface l r baseline colors utf8
        (by rw [hcanvas, hrender])]

/-- A text that is written in the program. -/
theorem agree_text_of_length (hlook : look.Sound) {utf8 : List UInt8} (h : utf8.length ≤ maxCp)
    (baseline l r : ℤ) (colors : Colors) :
    Agree Same Same True (text look utf8 baseline l r colors) :=
  (agree_text hlook utf8 baseline l r colors).congr
    (iff_of_true ((CnUi.chars_le_length utf8).trans h) trivial)

theorem agree_when {S : Sheet → Sheet → Prop} {c d : Prop} [Decidable c] {p : Drawing Unit}
    (h : Agree S S d p) : Agree S S (c → d) (when c p) := by
  unfold when
  by_cases hc : c
  · rw [if_pos hc]
    exact h.congr (by simp [hc])
  · rw [if_neg hc]
    exact (Agree.pure ()).congr (by simp [hc])

/-- A part that always returns, where it is drawn. -/
theorem agree_when_total {S : Sheet → Sheet → Prop} {c : Prop} [Decidable c] {p : Drawing Unit}
    (h : Agree S S True p) : Agree S S True (when c p) := (agree_when h).congr (by simp)

end Drawing

/-! ## The screens -/

namespace CnUi

variable {R P : Type} {look : Look R} {ui : CnUi R}

section Parts

variable (hlook : look.Sound)
include hlook

theorem agree_renderShown (baseline l r : ℤ) (colors : Colors) {shown : Option (List UInt8)}
    (h : ∀ t ∈ shown, chars t ≤ maxCp) :
    Agree Same Same True (renderShown look baseline l r colors shown) := by
  cases shown with
  | none => exact Agree.pure ()
  | some shown =>
    refine Agree.next ?_ fun _ => Agree.pure ()
    exact (agree_text hlook shown baseline l r colors).congr (iff_of_true (h shown rfl) trivial)

/-- **A row** is drawn when it has at most 160 characters. -/
theorem agree_renderFitOn (text : List UInt8) (baseline : ℤ) {l r : ℤ} (hroom : 0 < 600 - r - l)
    (colors : Colors) :
    Agree Same Same (chars text ≤ maxLibCp) (renderFitOn look (some text) baseline l r colors) := by
  unfold renderFitOn
  apply agree_width
  refine (agree_measure look).next ?_
  intro measure
  dsimp only
  rw [if_neg (not_le.mpr hroom)]
  by_cases hshort : chars text ≤ maxLibCp
  · obtain ⟨shown, hfitted, hshown⟩ := fitted_short measure (600 - r - l) hshort
    rw [hfitted, known_some]
    exact (agree_renderShown hlook baseline l r colors hshown).congr (iff_of_true trivial hshort)
  · rw [fitted_long measure (600 - r - l) hshort]
    exact (agree_known_none _).congr (iff_of_false id hshort)

/-- A label in the middle of a box. -/
theorem agree_renderCentered {text : List UInt8} (h : text.length ≤ maxCp) (baseline x0 x1 : ℤ)
    (colors : Colors) :
    Agree Same Same True (renderCentered look text baseline x0 x1 colors) := by
  unfold renderCentered
  refine (agree_measure look).next ?_
  intro measure
  obtain ⟨textWidth, hwidth⟩ :=
    Option.isSome_iff_exists.mp (utf8TextWidth_isSome measure (some text))
  rw [hwidth, known_some]
  apply agree_width
  refine (agree_text_of_length hlook h _ _ _ colors).next ?_
  intro _
  exact Agree.pure ()

theorem agree_heading_canvas (px y : ℤ) {text : List UInt8} (h : text.length ≤ maxCp) :
    Agree SameCanvas Same True (heading look px y text) := by
  unfold heading
  refine (agree_setSize_canvas hlook px).next ?_
  intro a
  refine (agree_text_of_length hlook h _ _ _ plain).next ?_
  intro y
  exact Agree.pure (a, y)

theorem agree_heading (px y : ℤ) {text : List UInt8} (h : text.length ≤ maxCp) :
    Agree Same Same True (heading look px y text) := by
  apply (agree_heading_canvas hlook px y h).strengthen
  intro s t hsame
  exact hsame.1

omit hlook in
theorem agree_drawMarker (ui : CnUi R) : Agree Same Same True ui.drawMarker := by
  unfold drawMarker
  split_ifs
  · exact Agree.pure ()
  · refine (agree_call _).next ?_
    intro _
    exact agree_call _

theorem agree_homeButton (y0 y1 baseline : ℤ) {label : List UInt8} (h : label.length ≤ maxCp) :
    Agree Same Same True (homeButton look y0 y1 baseline label) := by
  unfold homeButton
  refine (agree_call _).next ?_
  intro _
  refine (agree_text_of_length hlook h _ _ _ plain).next ?_
  intro _
  exact Agree.pure ()

theorem agree_renderHome (ui : CnUi R) : Agree Sized Same True (renderHome look ui) := by
  unfold renderHome
  refine (agree_clear _).next ?_
  intro _
  refine (agree_heading_canvas hlook _ _ (by decide)).next ?_
  intro name
  refine (agree_heading hlook _ _ (by decide)).next ?_
  intro sub
  refine (agree_homeButton hlook _ _ _ (by decide)).next ?_
  intro _
  refine (agree_when_total (agree_homeButton hlook _ _ _ (by decide))).next ?_
  intro _
  refine (agree_homeButton hlook _ _ _ (by decide)).next ?_
  intro _
  exact agree_drawMarker ui

omit hlook in
theorem length_pageText (page : ℤ) : (pageText page).length ≤ maxCp :=
  (List.length_take_le 31 _).trans (by decide)

theorem agree_renderReader (ui : CnUi R) : Agree Sized Same True (renderReader look ui) := by
  unfold renderReader
  refine (agree_clear _).next ?_
  intro _
  refine (agree_heading_canvas hlook _ _ (by decide)).next ?_
  intro name
  refine (agree_heading hlook _ _ (length_pageText ui.page)).next ?_
  intro page
  refine (agree_heading hlook _ _ (by decide)).next ?_
  intro _
  refine (agree_setSize hlook 14).next ?_
  intro a
  refine agree_height.next ?_
  intro h
  refine (agree_text_of_length hlook (by decide) _ _ _ _).next ?_
  intro _
  exact agree_drawMarker ui

/-! ### The library and its books -/

/-- The title in a row of the library can be drawn, if there is a book in the row. -/
def RowShort (look : Look R) (ui : CnUi R) (lib : Library) (r : ℕ) : Prop :=
  ui.top + r < lib.count → 0 ≤ ui.top + r ∧ chars (look.title (ui.top + r).toNat) ≤ maxLibCp

theorem agree_renderLibraryRow (ui : CnUi R) (lib : Library) (asc : ℤ) (r : ℕ) :
    Agree Same Same (RowShort look ui lib r) (renderLibraryRow look ui lib asc r) := by
  unfold renderLibraryRow RowShort
  apply agree_width
  dsimp only
  by_cases hbook : lib.count ≤ ui.top + r
  · rw [if_pos hbook]
    exact (Agree.pure ()).congr (iff_of_true trivial fun h => absurd hbook (not_le.mpr h))
  rw [if_neg hbook]
  by_cases hneg : ui.top + r < 0
  · rw [if_pos hneg]
    exact Agree.kill.congr (iff_of_false id fun h => absurd (h (by omega)).1 (by omega))
  rw [if_neg hneg]
  have hiff : chars (look.title (ui.top + r).toNat) ≤ maxLibCp ↔
      (ui.top + r < lib.count →
        0 ≤ ui.top + r ∧ chars (look.title (ui.top + r).toNat) ≤ maxLibCp) :=
    ⟨fun h _ => ⟨by omega, h⟩, fun h => (h (by omega)).2⟩
  by_cases hsel : ui.top + r = ui.sel
  · rw [if_pos hsel]
    refine Agree.congr ?_ hiff
    refine (agree_call _).next ?_
    intro _
    exact agree_renderFitOn hlook _ _ (by decide) _
  · rw [if_neg hsel]
    exact (agree_renderFitOn hlook _ _ (by decide) _).congr hiff

theorem agree_renderShelf (ui : CnUi R) (lib : Library) :
    Agree Same Same (∀ r ∈ List.range libRows.toNat, RowShort look ui lib r)
      (renderShelf look ui lib) := by
  unfold renderShelf
  refine (agree_setSize hlook 24).next ?_
  intro a
  refine (Agree.forM _ fun r _ => agree_renderLibraryRow hlook ui lib a r).last ?_
  intro _
  refine (agree_setSize hlook 14).next ?_
  intro _
  have hfooter : (footerText ui lib).length ≤ maxCp := (List.length_take_le 63 _).trans (by decide)
  refine (agree_text_of_length hlook hfooter _ _ _ _).next ?_
  intro _
  exact Agree.pure ()

/-- The titles in view can be drawn. -/
def ShelfShort (look : Look R) (ui : CnUi R) : Prop :=
  ∀ lib ∈ ui.shelf, ∀ r ∈ List.range libRows.toNat, RowShort look ui lib r

theorem agree_renderLibrary (ui : CnUi R) :
    Agree Sized Same (ShelfShort look ui) (renderLibrary look ui) := by
  unfold renderLibrary ShelfShort
  refine (agree_clear _).next ?_
  intro _
  refine (agree_heading_canvas hlook _ _ (by decide)).next ?_
  intro name
  refine (agree_heading hlook _ _ (by decide)).next ?_
  intro sub
  cases ui.shelf with
  | none =>
    refine ((agree_heading hlook _ _ (by decide)).next fun _ => Agree.pure ()).congr ?_
    exact iff_of_true trivial fun lib h => by cases h
  | some lib =>
    refine (agree_renderShelf hlook ui lib).congr ?_
    simp

/-- The title and the path of the selected book can be drawn. -/
def SelectedShort (look : Look R) (ui : CnUi R) : Prop :=
  ∀ selected ∈ ui.selectedBook, chars (look.title selected.1) ≤ maxLibCp ∧
    ∀ path ∈ selected.2.path, chars path ≤ maxLibCp

theorem agree_renderPath (path : Option (List UInt8)) (baseline : ℤ) (colors : Colors) :
    Agree Same Same (∀ p ∈ path, chars p ≤ maxLibCp)
      (renderFitOn look path baseline 32 32 colors) := by
  cases path with
  | none =>
    unfold renderFitOn
    apply agree_width
    refine ((agree_measure look).next fun _ => Agree.pure ()).congr ?_
    exact iff_of_true trivial fun p h => by cases h
  | some path =>
    refine (agree_renderFitOn hlook path baseline (by decide) colors).congr ?_
    simp

theorem agree_renderBookInfo (y : ℤ) (selected : Option (ℕ × Book)) :
    Agree Same Same (∀ s ∈ selected, chars (look.title s.1) ≤ maxLibCp ∧
      ∀ path ∈ s.2.path, chars path ≤ maxLibCp) (renderBookInfo look y selected) := by
  cases selected with
  | none => exact (Agree.pure ()).congr (iff_of_true trivial fun s h => by cases h)
  | some selected =>
    obtain ⟨index, book⟩ := selected
    have hinfo : Agree Same Same (chars (look.title index) ≤ maxLibCp ∧
        ∀ path ∈ book.path, chars path ≤ maxLibCp) (renderBookInfo look y (some (index, book))) := by
      unfold renderBookInfo
      refine (agree_setSize hlook 48).next ?_
      intro a
      refine (agree_renderFitOn hlook _ _ (by decide) _).bind ?_
      intro _
      refine (agree_heading hlook _ _ ?_).next ?_
      · cases book.format <;> decide
      intro format
      refine (agree_setSize hlook 20).next ?_
      intro a
      exact agree_renderPath hlook book.path _ _
    refine hinfo.congr ?_
    simp

theorem agree_renderSelected (ui : CnUi R) :
    Agree Sized Same (SelectedShort look ui) (renderSelected look ui) := by
  unfold renderSelected SelectedShort
  refine (agree_clear _).next ?_
  intro _
  refine (agree_heading_canvas hlook _ _ (by decide)).next ?_
  intro name
  refine (agree_renderBookInfo hlook name.2 ui.selectedBook).last ?_
  intro _
  apply agree_width
  refine (agree_call _).next ?_
  intro _
  refine (agree_setSize hlook 24).next ?_
  intro a
  refine (agree_text_of_length hlook (by decide) _ _ _ _).next ?_
  intro _
  exact Agree.pure ()

omit hlook in
/-- A page covers whatever the canvas showed. -/
theorem agree_readerRender (look : Look R) (r : R) :
    Agree Sized SameCanvas True (readerRender look r) := by
  apply Agree.of_total
  intro s t h
  obtain ⟨hs, ht⟩ := h
  refine ⟨(look.page r).2, s.withCanvas (withImage s.surface.canvas (look.page r).1),
    t.withCanvas (withImage t.surface.canvas (look.page r).1), ?_, ?_, ?_⟩
  · rw [readerRender, if_neg (not_not.mpr hs)]
  · rw [readerRender, if_neg (not_not.mpr ht)]
  · refine ⟨hs, ?_⟩
    apply CnCanvas.eq_of_pixels
    · exact ht.1.trans hs.1.symm
    · exact ht.2.trans hs.2.symm
    · change (List.range (t.surface.canvas.w * t.surface.canvas.h)).map (look.page r).1 =
        (List.range (s.surface.canvas.w * s.surface.canvas.h)).map (look.page r).1
      rw [ht.1, ht.2, hs.1, hs.2]

omit hlook in
theorem agree_renderBook (look : Look R) (ops : ReaderOps R P) (ui : CnUi R) :
    Agree Sized SameCanvas True (renderBook look ops ui) := by
  unfold renderBook
  cases ui.reader.filter ops.isOpen with
  | none =>
    refine (agree_clear _).next ?_
    intro _
    exact Agree.pure _
  | some r =>
    refine (agree_readerRender look r).next ?_
    intro r
    exact Agree.pure _

end Parts

/-! ### The account screen -/

/-- A text of asterisks has as many characters as bytes. -/
theorem chars_mask (n : ℕ) : chars (List.replicate n 0x2a) = n := by
  apply chars_eq
  induction n with
  | zero => exact .nil
  | succ n ih =>
    have hchar : Utf8.IsChar [0x2a] := .one (by decide)
    exact .char hchar (by decide) ih

theorem mask_short_iff (ui : CnUi R) :
    chars ui.passwordMask ≤ maxLibCp ↔ ui.accountPasswordLength ≤ maxLibCp := by
  unfold passwordMask
  rw [chars_mask]
  have hroom : maxLibCp < passwordMax := by decide
  omega

theorem length_ascii_le {l : List Char} {n : ℕ} (h : l.length ≤ n) :
    (Bytes.ascii (String.ofList l)).length ≤ n := by
  unfold Bytes.ascii
  rwa [List.length_map, String.toList_ofList]

/-- Every message of the screen is short. -/
theorem length_of_mem_accountMessages : ∀ text ∈ accountMessages, text.length ≤ maxLibCp := by
  simp only [accountMessages, List.forall_mem_cons]
  and_intros
  all_goals first | exact length_ascii_le (by decide) | exact List.forall_mem_nil _

section Account

variable (hlook : look.Sound)
include hlook

theorem agree_renderFrame (ui : CnUi R) (i : Fin 4) :
    Agree Same Same True (renderFrame look ui i) := by
  unfold renderFrame
  refine (agree_when_total (agree_call _)).next ?_
  intro _
  refine (agree_call _).next ?_
  intro _
  refine (agree_setSize hlook 18).next ?_
  intro _
  apply agree_width
  refine (agree_text_of_length hlook ?_ _ _ _ _).next ?_
  · revert i
    decide
  intro _
  refine (agree_setSize hlook 22).next ?_
  intro ascent
  exact Agree.pure _

omit hlook in
theorem agree_renderCaret (i : Fin 4) (caretX : ℤ) :
    Agree Same Same True (renderCaret i caretX) := by
  unfold renderCaret
  refine (agree_call _).next ?_
  intro _
  exact agree_when_total (agree_call _)

theorem agree_renderWindow {value window : List UInt8} {win : ValueWindow}
    (hwindow : copyWindow value win.start (win.stop - win.start) = some window)
    (hlength : window.length ≤ maxCp) (y : ℤ) :
    Agree Same Same True (renderWindow look value win y) := by
  unfold renderWindow
  rw [hwindow, known_some]
  apply agree_width
  refine (agree_text_of_length hlook hlength _ _ _ _).next ?_
  intro _
  exact Agree.pure ()

/-- A field is drawn whatever it holds. -/
theorem agree_renderValue (hheld : ui.FieldsHeld) (i : Fin 3) :
    Agree Same Same True (renderValue look ui i) := by
  unfold renderValue
  refine (agree_renderFrame hlook ui i.castSucc).next ?_
  intro y
  refine (agree_measure look).next ?_
  intro measure
  have hfield := hheld i.castSucc
  obtain ⟨win, hwin, hframed, -⟩ := accountValueWindow_spec (fun b => measure b.toNat)
    hfield.cursor_le hfield.length_lt.le (by decide : (3 : ℤ) ≤ 567 - (32 + 12))
    (List.length_replicate : (List.replicate accountValueStops (0 : ℤ)).length = accountValueStops)
  have hbytes := hframed.bytes_le
  have hstops : accountValueStops = 128 := rfl
  have hlt := hfield.length_lt
  have hstart := hframed.start_le.trans hframed.le_stop
  have hstop := hframed.stop_le
  rw [hwin, known_some]
  refine (agree_when_total (agree_renderWindow hlook (if_pos ⟨by omega, by omega⟩) ?_ y)).next ?_
  · rw [List.length_append, List.length_take, List.length_singleton]
    have hroom : 128 ≤ maxCp := by decide
    omega
  intro _
  refine (agree_when_total (agree_renderCaret i.castSucc win.caretX)).next ?_
  intro _
  exact Agree.pure win

/-- **The password** is drawn when it has at most 160 characters. -/
theorem agree_renderPassword (ui : CnUi R) :
    Agree Same Same (ui.accountPasswordLength ≤ maxLibCp) (renderPassword look ui) := by
  unfold renderPassword
  refine (agree_renderFrame hlook ui (Fin.last 3)).next ?_
  intro y
  apply agree_width
  refine (agree_when (agree_renderFitOn hlook ui.passwordMask y (by decide) plain)).congr ?_
  rw [mask_short_iff]
  refine ⟨?_, fun h _ => h⟩
  intro h
  by_cases hempty : ui.passwordMask = []
  · have hlength := congrArg List.length hempty
    rw [passwordMask, List.length_replicate, List.length_nil] at hlength
    have hroom : maxLibCp < passwordMax := by decide
    omega
  · exact h hempty

theorem agree_renderBox (x0 y0 x1 y1 px : ℤ) {label : List UInt8} (h : label.length ≤ maxCp)
    (colors : Colors) : Agree Same Same True (renderBox look x0 y0 x1 y1 px label colors) := by
  unfold renderBox
  refine (agree_call _).next ?_
  intro _
  refine (agree_call _).next ?_
  intro _
  refine (agree_setSize hlook px).next ?_
  intro ascent
  exact agree_renderCentered hlook h _ _ _ _

omit hlook in
theorem length_keyText (field : TextInput) (key : TextKey) : (keyText field key).length ≤ maxCp := by
  have hroom : 5 ≤ maxCp := by decide
  refine le_trans ?_ hroom
  cases key with
  | character c =>
    by_cases hspace : c = 0x20
    · have hlabel : keyLabel field (.character c) = some (Bytes.ascii "SPACE") := if_pos hspace
      rw [keyText, hlabel]
      exact (by decide : (Bytes.ascii "SPACE").length ≤ 5)
    · have hlabel : keyLabel field (.character c) = none := if_neg hspace
      rw [keyText, hlabel]
      exact (by decide : 1 ≤ 5)
  | symbols =>
    change (if field.symbols then Bytes.ascii "ABC" else Bytes.ascii "#+=").length ≤ 5
    split_ifs <;> decide
  | shift => exact (by decide : (Bytes.ascii "SHIFT").length ≤ 5)
  | backspace => exact (by decide : (Bytes.ascii "DEL").length ≤ 5)
  | cursorLeft => exact (by decide : 3 ≤ 5)
  | cursorRight => exact (by decide : 3 ≤ 5)
  | done => exact (by decide : (Bytes.ascii "DONE").length ≤ 5)

theorem agree_renderKey (ui : CnUi R) (field : TextInput) (row column : ℕ) :
    Agree Same Same True (renderKey look ui field row column) := by
  unfold renderKey
  cases field.keyAt row column with
  | none => exact Agree.pure ()
  | some key =>
    cases keyboardGeometry field row column with
    | none => exact Agree.pure ()
    | some place =>
      obtain ⟨x, width⟩ := place
      exact agree_renderBox hlook _ _ _ _ _ (length_keyText field key) _

/-- **The form** is drawn when the password has at most 160 characters. -/
theorem agree_renderForm (hheld : ui.FieldsHeld) :
    Agree Same Same (ui.accountPasswordLength ≤ maxLibCp) (renderForm look ui) := by
  unfold renderForm
  refine (agree_renderValue hlook hheld 0).next ?_
  intro url
  refine (agree_renderValue hlook hheld 1).next ?_
  intro device
  refine (agree_renderValue hlook hheld 2).next ?_
  intro username
  refine (agree_renderPassword hlook ui).last ?_
  intro _
  refine (agree_renderBox hlook _ _ _ _ _ (by decide) _).next ?_
  intro _
  refine (Agree.forM_total keyPlaces fun place _ =>
    agree_renderKey hlook ui ui.keyboardField place.1 place.2).next ?_
  intro _
  refine (agree_setSize hlook 16).next ?_
  intro _
  refine (agree_text_of_length hlook ?_ _ _ _ _).next ?_
  · split_ifs <;> decide
  intro _
  exact Agree.pure _

theorem agree_renderOption (ui : CnUi R) (option : ℕ) :
    Agree Same Same True (renderOption look ui option) := by
  unfold renderOption
  cases ui.accountOptions[option]? with
  | none => exact Agree.pure ()
  | some kind =>
    cases accountActionGeometry ui.accountOptions.length option with
    | none => exact Agree.pure ()
    | some box =>
      obtain ⟨x0, y0, x1, y1⟩ := box
      refine agree_renderBox hlook _ _ _ _ _ ?_ _
      cases kind <;> decide

theorem agree_renderOptions (ui : CnUi R) : Agree Same Same True (renderOptions look ui) := by
  unfold renderOptions
  refine (Agree.forM_total _ fun option _ => agree_renderOption hlook ui option).next ?_
  intro _
  refine (agree_setSize hlook 16).next ?_
  intro _
  refine (agree_text_of_length hlook (by decide) _ _ _ _).next ?_
  intro _
  exact Agree.pure ()

/-- The account screen can be drawn. -/
def AccountShort (ui : CnUi R) : Prop :=
  ui.accountMessage < accountMessages.length ∧
    (ui.accountEditing = true → ui.accountPasswordLength ≤ maxLibCp)

theorem agree_renderAccount (hheld : ui.FieldsHeld) :
    Agree Sized Same ui.AccountShort (renderAccount look ui) := by
  unfold renderAccount AccountShort
  refine (agree_clear _).next ?_
  intro _
  refine (agree_heading_canvas hlook _ _ (by decide)).next ?_
  intro _
  refine (agree_setSize hlook 18).next ?_
  intro _
  by_cases hmessage : ui.accountMessage < accountMessages.length
  · rw [List.getElem?_eq_getElem hmessage, known_some]
    have hshort : chars accountMessages[ui.accountMessage] ≤ maxLibCp :=
      (chars_le_length _).trans (length_of_mem_accountMessages _ (List.getElem_mem hmessage))
    refine Agree.next ((agree_renderFitOn hlook _ _ (by decide) plain).congr
      (iff_of_true hshort trivial)) ?_ |>.congr (and_iff_right hmessage).symm
    intro _
    by_cases hediting : ui.accountEditing = true
    · rw [if_pos hediting]
      refine ((agree_renderForm hlook hheld).last ?_).congr ?_
      · intro windows
        exact Agree.pure _
      · exact (imp_iff_right hediting).symm
    · rw [if_neg hediting]
      refine Agree.congr (c := True) ?_ (iff_of_true trivial fun h => absurd h hediting)
      refine (agree_renderOptions hlook ui).next ?_
      intro _
      exact Agree.pure _
  · rw [List.getElem?_eq_none (not_lt.mp hmessage)]
    exact (agree_known_none _).congr (iff_of_false id fun h => hmessage h.1)

end Account

/-! ### The overlay -/

theorem agree_renderNote (hlook : look.Sound) {text : List UInt8} (h : text.length ≤ maxCp) (y : ℤ) :
    Agree Same Same True (renderNote look text y) := by
  unfold renderNote
  refine (agree_text_of_length hlook h _ _ _ _).next ?_
  intro _
  exact Agree.pure ()

theorem agree_renderChoice (hlook : look.Sound) (ui : CnUi R) (i : Fin 3) :
    Agree Same Same True (renderChoice look ui i) := by
  unfold renderChoice
  refine (agree_when_total (agree_call _)).next ?_
  intro _
  refine (agree_text_of_length hlook ?_ _ _ _ _).next ?_
  · revert i
    decide
  intro _
  exact Agree.pure ()

theorem agree_renderSyncModal (hlook : look.Sound) (ui : CnUi R) :
    Agree SameCanvas Same True (renderSyncModal look ui) := by
  unfold renderSyncModal
  refine (agree_call_canvas _).next ?_
  intro _
  refine (agree_call_canvas _).next ?_
  intro _
  refine (agree_setSize_canvas hlook 24).next ?_
  intro _
  refine (agree_renderNote hlook ?_ _).next ?_
  · split_ifs <;> decide
  intro _
  by_cases hfeedback : ui.syncModal = .feedback
  · rw [if_pos hfeedback]
    refine (agree_renderNote hlook ?_ _).next ?_
    · cases ui.syncFeedback <;> decide
    intro _
    exact agree_renderNote hlook (by decide) _
  · rw [if_neg hfeedback]
    refine (Agree.forM_total (List.finRange 3) fun i _ => agree_renderChoice hlook ui i).next ?_
    intro _
    refine (agree_setSize hlook 16).next ?_
    intro _
    exact agree_renderNote hlook (by decide) _

/-! ### All of it -/

/-- The texts of a screen that are cut to a width are short enough to be drawn. -/
def Legible (look : Look R) (ui : CnUi R) : Prop :=
  match ui.state with
  | .accountSetup => ui.AccountShort
  | .library => ShelfShort look ui
  | .selectedBook => SelectedShort look ui
  | _ => True

theorem agree_renderScreen (hlook : look.Sound) (ops : ReaderOps R P) (hheld : ui.FieldsHeld) :
    Agree Sized SameCanvas (Legible look ui) (renderScreen look ops ui) := by
  have hforget : ∀ s t, Same s t → SameCanvas s t := fun s t h => h.1
  unfold renderScreen Legible
  cases ui.state with
  | accountSetup =>
    refine ((agree_renderAccount hlook hheld).weaken hforget).last ?_
    intro windows
    exact Agree.pure _
  | library =>
    refine ((agree_renderLibrary hlook ui).weaken hforget).last ?_
    intro _
    exact Agree.pure _
  | selectedBook =>
    refine ((agree_renderSelected hlook ui).weaken hforget).last ?_
    intro _
    exact Agree.pure _
  | reader =>
    refine (agree_renderBook look ops ui).next ?_
    intro reader
    exact Agree.pure _
  | readerTest =>
    refine ((agree_renderReader hlook ui).weaken hforget).next ?_
    intro _
    exact Agree.pure _
  | home =>
    refine ((agree_renderHome hlook ui).weaken hforget).next ?_
    intro _
    exact Agree.pure _

/-- **Two drawings of one state.** Over any two canvases of the size of the screen, whatever they
show and whatever size is set, a screen is drawn exactly when the texts that are cut to a width are
short enough, and then both canvases show the same. -/
theorem agree_picture (hlook : look.Sound) (ops : ReaderOps R P) (hheld : ui.FieldsHeld) :
    Agree Sized SameCanvas (Legible look ui) (picture look ops ui) := by
  unfold picture
  refine (agree_renderScreen hlook ops hheld).last ?_
  intro drawn
  refine (agree_when_total ((agree_renderSyncModal hlook ui).weaken fun s t h => h.1)).next ?_
  intro _
  exact Agree.pure drawn

end CnUi
