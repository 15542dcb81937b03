import CrossNook.Graphics.Canvas
import CrossNook.Graphics.Wrap

/-!
# Text on the canvas

How `graphics/text.c` puts glyphs on a canvas: the coverage that FreeType renders is blended into
the pixels that the glyph reaches, clipped to the canvas, and the statistics of the renderer count
the pixels and keep the box around them. FreeType is a parameter: what it measures, and the bitmap
of a codepoint.

## Main definitions

* `CnText.Bitmap`, `CnText.Stats`: `FT_Bitmap` and `cn_text_stats`
* `CnText.drawGlyph`: `draw_glyph`
* `CnText.renderCpsOn`, `CnText.renderOn`: `render_cps` and `cn_text_render` on a canvas
* `CnText.Box`: a box that fits exactly around a set of places

## Main results

* `CnText.drawGlyph_draws`: a glyph is its marks, one layer for each
* `CnText.renderOn_draws`: a text is the glyphs of its lines
* `CnText.texts_inside_box`: whatever has been rendered since the statistics were reset, the pixels
  outside their box are as they were
-/

namespace CnText

open CnCanvas (Canvas putPixel blend565 view getPixel)
open Counting (forTo)
open Painting (Layer stack covered)
open Loop (Turn)

/-- `FT_PIXEL_MODE_GRAY`, `FT_PIXEL_MODE_MONO` and the others. -/
inductive PixelMode
  | gray
  | mono
  | other
  deriving DecidableEq

/-- The fields of `FT_Bitmap` that are read. -/
structure Bitmap where
  rows : ℕ
  width : ℕ
  pitch : ℕ
  mode : PixelMode
  buffer : List UInt8

/-- `a` in `draw_glyph`. `none` is a read outside the buffer; a mode that is not expected has no
coverage, and like every pixel without one it is left out. -/
def Bitmap.coverage (bmp : Bitmap) (row col : ℕ) : Option UInt8 :=
  match bmp.mode with
  | .gray => bmp.buffer[row * bmp.pitch + col]?
  | .mono =>
    (bmp.buffer[row * bmp.pitch + col / 8]?).map fun b =>
      if b.toNat >>> (7 - col % 8) &&& 1 ≠ 0 then 255 else 0
  | .other => some 0

/-- The rows of a bitmap are in its buffer, as FreeType renders them. -/
structure Bitmap.Fits (bmp : Bitmap) : Prop where
  length_buffer : bmp.buffer.length = bmp.rows * bmp.pitch
  gray : bmp.mode = .gray → bmp.width ≤ bmp.pitch
  mono : bmp.mode = .mono → (bmp.width + 7) / 8 ≤ bmp.pitch

/-- `INT_MAX`. -/
def intMax : ℤ := 2147483647

/-- `cn_text_stats`. -/
structure Stats where
  ink : ℕ
  minX : ℤ
  minY : ℤ
  maxX : ℤ
  maxY : ℤ
  deriving DecidableEq

/-- `cn_text_reset_stats`. -/
def resetStats : Stats := ⟨0, intMax, intMax, -1, -1⟩

/-- The statistics behind a pixel that is drawn. -/
def Stats.mark (s : Stats) (x y : ℤ) : Stats :=
  if s.ink = 0 then ⟨s.ink + 1, x, y, x, y⟩
  else
    ⟨s.ink + 1, if x < s.minX then x else s.minX, if y < s.minY then y else s.minY,
      if s.maxX < x then x else s.maxX, if s.maxY < y then y else s.maxY⟩

/-- A canvas with the statistics of the renderer. -/
structure Surface where
  canvas : Canvas
  stats : Stats

/-- `dst_y + row` and `dst_x + col`: the sum is unsigned, and goes back to an `int`. -/
def place (dst : ℤ) (k : ℕ) : ℤ := (dst + k).bmod (2 ^ 32)

/-- The inner body in `draw_glyph`. -/
def drawPixel (bmp : Bitmap) (dstX y : ℤ) (fg bg : UInt16) (row col : ℕ) (s : Surface) :
    Option Surface :=
  let x := place dstX col
  if x < 0 ∨ s.canvas.w ≤ x then some s
  else
    match bmp.coverage row col with
    | none => none
    | some a =>
      if a = 0 then some s
      else
        match putPixel s.canvas x y (blend565 bg fg a) with
        | none => none
        | some canvas => some ⟨canvas, s.stats.mark x y⟩

/-- `draw_glyph`. -/
def drawGlyph (s : Surface) (bmp : Bitmap) (dstX dstY : ℤ) (fg bg : UInt16) : Option Surface :=
  forTo 0 (bmp.rows - 1) (fun row s =>
    let y := place dstY row.toNat
    if y < 0 ∨ s.canvas.h ≤ y then some s
    else forTo 0 (bmp.width - 1) (fun col s => drawPixel bmp dstX y fg bg row.toNat col.toNat s) s) s

/-- What `render_cps` asks of a glyph that FreeType has rendered. -/
structure Slot where
  bitmap : Bitmap
  left : ℤ
  top : ℤ
  advance : ℤ

/-- FreeType: `cn_text_measure`, the glyphs that can be rendered, and `cn_text_line_advance`. -/
structure Font where
  measure : ℕ → ℤ
  slot : ℕ → Option Slot
  lineAdvance : ℤ

/-- The advances of a font. -/
def Font.face (font : Font) : Face := ⟨font.measure, fun cp => (font.slot cp).map Slot.advance,
  font.lineAdvance⟩

/-- The colours of a text. -/
structure Colors where
  fg : UInt16
  bg : UInt16
  deriving DecidableEq

/-- One codepoint in `render_cps`. -/
def renderCpOn (font : Font) (baseline leftMargin : ℤ) (colors : Colors) (s : ℤ × Surface)
    (cp : ℕ) : Option (ℤ × Surface) :=
  if cp = 0x20 ∧ s.1 = leftMargin then some s
  else
    match font.slot cp with
    | none => some (s.1 + font.measure cp, s.2)
    | some slot =>
      match drawGlyph s.2 slot.bitmap (s.1 + slot.left) (baseline - slot.top) colors.fg colors.bg
        with
      | none => none
      | some surface => some (s.1 + slot.advance, surface)

/-- `render_cps` on a canvas. -/
def renderCpsOn (font : Font) (cps : List ℕ) (baseline leftMargin : ℤ) (colors : Colors)
    (surface : Surface) : Option (ℤ × Surface) :=
  cps.foldlM (renderCpOn font baseline leftMargin colors) (leftMargin, surface)

/-- What `cn_text_render` leaves: the canvas, its count of lines, and the baseline of the caller. -/
structure Printed where
  surface : Surface
  lines : ℕ
  baseline : ℤ

/-- One line in `cn_text_render`: where the next one starts, and what is drawn so far. -/
def printTurn (font : Font) (room leftMargin : ℤ) (colors : Colors) (cps : List ℕ) (n : ℕ)
    (s : ℕ × Printed) : Turn (ℕ × Printed) (Option Printed) :=
  let (p, printed) := s
  if n ≤ p then .done (some printed)
  else
    match scanLine font.measure room cps (n - p) p 0 (-1) with
    | none => .done none
    | some (i, lastSpace) =>
      match readCps cps p (lineEnd n p i lastSpace) with
      | none => .done none
      | some line =>
        match renderCpsOn font line printed.baseline leftMargin colors printed.surface with
        | none => .done none
        | some (_, surface) =>
          .next (lineEnd n p i lastSpace,
            ⟨surface, printed.lines + 1, printed.baseline + font.lineAdvance⟩)

/-- `cn_text_render` on a canvas, of a text that is not `NULL`. `none` is a read of an entry of its
array that has not been decoded, or one outside the bitmap of a glyph. -/
def renderOn (font : Font) (surface : Surface) (leftMargin rightMargin baseline : ℤ)
    (colors : Colors) (text : List UInt8) : Option Printed :=
  let decoded := utf8Decode text maxCp
  let maxX := surface.canvas.w - rightMargin
  Loop.loop (printTurn font (maxX - leftMargin) leftMargin colors decoded.out decoded.n) none
    (fun s => decoded.n - s.1) (0, ⟨surface, 0, baseline⟩)

/-! ## The marks of a glyph -/

/-- A pixel that a glyph puts on the canvas, with its coverage. -/
structure Mark where
  x : ℤ
  y : ℤ
  a : UInt8
  deriving DecidableEq

/-- The mark as paint. -/
def Mark.layer (colors : Colors) (m : Mark) : Layer (ℤ × ℤ) UInt16 :=
  ⟨{(m.x, m.y)}, blend565 colors.bg colors.fg m.a⟩

/-- The mark of one pixel of a glyph, when it has coverage and is on a canvas of that size. -/
def pixelMarks (w h : ℕ) (bmp : Bitmap) (dstX y : ℤ) (row col : ℕ) : List Mark :=
  match bmp.coverage row col with
  | none => []
  | some a =>
    if 0 ≤ place dstX col ∧ place dstX col < w ∧ 0 ≤ y ∧ y < h ∧ a ≠ 0 then
      [⟨place dstX col, y, a⟩]
    else []

/-- The marks in one row of a glyph. -/
def rowMarks (w h : ℕ) (bmp : Bitmap) (dstX y : ℤ) (row : ℕ) : List Mark :=
  (List.range bmp.width).flatMap (pixelMarks w h bmp dstX y row)

/-- The marks of a glyph on a canvas, in the order in which they are drawn. -/
def glyphMarks (w h : ℕ) (bmp : Bitmap) (dstX dstY : ℤ) : List Mark :=
  (List.range bmp.rows).flatMap fun row => rowMarks w h bmp dstX (place dstY row) row

/-- The marks of a glyph that `render_cps` draws. -/
def Glyph.marks (font : Font) (w h : ℕ) (g : Glyph) : List Mark :=
  match font.slot g.cp with
  | none => []
  | some slot => glyphMarks w h slot.bitmap (g.penX + slot.left) (g.baseline - slot.top)

/-- `s'` is `s` with marks drawn on it: each is on the canvas and counted. -/
structure Draws (colors : Colors) (marks : List Mark) (s s' : Surface) : Prop where
  w_eq : s'.canvas.w = s.canvas.w
  h_eq : s'.canvas.h = s.canvas.h
  onScreen : ∀ m ∈ marks, s.canvas.OnScreen m.x m.y ∧ m.a ≠ 0
  view_eq : view s'.canvas = stack (marks.map (Mark.layer colors)) (view s.canvas)
  stats_eq : s'.stats = marks.foldl (fun stats m => stats.mark m.x m.y) s.stats

namespace Draws

variable {colors : Colors} {A B : List Mark} {s s' s'' : Surface}

theorem size_eq (h : Draws colors A s s') :
    s'.canvas.w = s.canvas.w ∧ s'.canvas.h = s.canvas.h := ⟨h.w_eq, h.h_eq⟩

protected theorem refl (colors : Colors) (s : Surface) : Draws colors [] s s where
  w_eq := rfl
  h_eq := rfl
  onScreen := fun _ hm => absurd hm List.not_mem_nil
  view_eq := rfl
  stats_eq := rfl

protected theorem trans (h : Draws colors A s s') (h' : Draws colors B s' s'') :
    Draws colors (A ++ B) s s'' where
  w_eq := h'.w_eq.trans h.w_eq
  h_eq := h'.h_eq.trans h.h_eq
  onScreen := by
    intro m hm
    rcases List.mem_append.mp hm with hm | hm
    · exact h.onScreen m hm
    · obtain ⟨hon, ha⟩ := h'.onScreen m hm
      exact ⟨(CnCanvas.onScreen_congr h.size_eq m.x m.y).mp hon, ha⟩
  view_eq := by rw [h'.view_eq, h.view_eq, List.map_append, Painting.stack_append]
  stats_eq := by rw [h'.stats_eq, h.stats_eq, List.foldl_append]

end Draws

/-- A pixel inside a well formed bitmap can be read. -/
theorem Bitmap.Fits.coverage_isSome {bmp : Bitmap} (h : bmp.Fits) {row col : ℕ}
    (hrow : row < bmp.rows) (hcol : col < bmp.width) : ∃ a, bmp.coverage row col = some a := by
  have hin : ∀ k, k < bmp.pitch → row * bmp.pitch + k < bmp.buffer.length := by
    intro k hk
    rw [h.length_buffer]
    calc row * bmp.pitch + k < row * bmp.pitch + bmp.pitch := by omega
      _ = (row + 1) * bmp.pitch := by ring
      _ ≤ bmp.rows * bmp.pitch := Nat.mul_le_mul_right _ hrow
  rw [coverage]
  cases hmode : bmp.mode with
  | gray =>
    have := h.gray hmode
    exact ⟨_, List.getElem?_eq_getElem (hin col (by omega))⟩
  | mono =>
    have := h.mono hmode
    dsimp only
    rw [List.getElem?_eq_getElem (hin (col / 8) (by omega))]
    exact ⟨_, rfl⟩
  | other => exact ⟨0, rfl⟩

variable {bmp : Bitmap} (colors : Colors)

/-- One pixel of a glyph. -/
theorem drawPixel_draws (hbmp : bmp.Fits) (dstX : ℤ) {y : ℤ} {row col : ℕ} (hrow : row < bmp.rows)
    (hcol : col < bmp.width) (s : Surface) (hy : 0 ≤ y) (hy' : y < s.canvas.h) :
    ∃ s', drawPixel bmp dstX y colors.fg colors.bg row col s = some s' ∧
      Draws colors (pixelMarks s.canvas.w s.canvas.h bmp dstX y row col) s s' := by
  obtain ⟨a, ha⟩ := hbmp.coverage_isSome hrow hcol
  rw [drawPixel, pixelMarks, ha]
  dsimp only
  by_cases hx : place dstX col < 0 ∨ s.canvas.w ≤ place dstX col
  · rw [if_pos hx, if_neg (by omega)]
    exact ⟨s, rfl, .refl colors s⟩
  rw [if_neg hx]
  by_cases h0 : a = 0
  · rw [if_pos h0, if_neg fun h => h.2.2.2.2 h0]
    exact ⟨s, rfl, .refl colors s⟩
  have hon : s.canvas.OnScreen (place dstX col) y := ⟨by omega, by omega, hy, hy'⟩
  rw [if_neg h0, if_pos ⟨by omega, by omega, hy, hy', h0⟩]
  obtain ⟨canvas, hput, hpaints⟩ :=
    CnCanvas.putPixel_paints (c := s.canvas) (place dstX col) y (blend565 colors.bg colors.fg a)
  rw [hput]
  refine ⟨_, rfl, hpaints.w_eq, hpaints.h_eq, ?_, ?_, rfl⟩
  · intro m hm
    rw [List.mem_singleton] at hm
    subst hm
    exact ⟨hon, h0⟩
  · have hsingle : {(place dstX col, y)} ∩ CnCanvas.screen s.canvas = {(place dstX col, y)} := by
      apply Set.inter_eq_left.mpr
      rintro p rfl
      exact hon
    dsimp only
    rw [hpaints.view_eq, hsingle]
    rfl

/-- One row of a glyph. -/
theorem row_draws (hbmp : bmp.Fits) (dstX : ℤ) {y : ℤ} {row : ℕ} (hrow : row < bmp.rows)
    (s : Surface) (hy : 0 ≤ y) (hy' : y < s.canvas.h) :
    ∃ s', forTo 0 (bmp.width - 1)
        (fun col s => drawPixel bmp dstX y colors.fg colors.bg row col.toNat s) s = some s' ∧
      Draws colors (rowMarks s.canvas.w s.canvas.h bmp dstX y row) s s' := by
  obtain ⟨s', hrun, hdraws, -⟩ := Counting.forTo_append
    (fun col s => drawPixel bmp dstX y colors.fg colors.bg row col.toNat s) bmp.width (s := s)
    (R := Draws colors) (P := fun t => t.canvas.w = s.canvas.w ∧ t.canvas.h = s.canvas.h)
    (X := pixelMarks s.canvas.w s.canvas.h bmp dstX y row)
    (Draws.refl colors) (fun _ _ _ _ _ h h' => h.trans h') ⟨rfl, rfl⟩ fun col t hcol ht => by
      obtain ⟨t', hpixel, hdraws⟩ := drawPixel_draws colors hbmp dstX hrow hcol t hy
        (ht.2 ▸ hy')
      rw [ht.1, ht.2] at hdraws
      exact ⟨t', hpixel, hdraws, hdraws.w_eq.trans ht.1, hdraws.h_eq.trans ht.2⟩
  exact ⟨s', hrun, hdraws⟩

/-- A row that is not on the canvas has no marks. -/
theorem rowMarks_eq_nil {w h : ℕ} {y : ℤ} (hy : y < 0 ∨ h ≤ y) (bmp : Bitmap) (dstX : ℤ)
    (row : ℕ) : rowMarks w h bmp dstX y row = [] := by
  apply List.flatMap_eq_nil_iff.mpr
  intro col _
  rw [pixelMarks]
  cases bmp.coverage row col with
  | none => rfl
  | some a => exact if_neg (by omega)

/-- **A glyph** stays inside its bitmap and the canvas, and is drawn mark by mark. -/
theorem drawGlyph_draws (hbmp : bmp.Fits) (dstX dstY : ℤ) (s : Surface) :
    ∃ s', drawGlyph s bmp dstX dstY colors.fg colors.bg = some s' ∧
      Draws colors (glyphMarks s.canvas.w s.canvas.h bmp dstX dstY) s s' := by
  obtain ⟨s', hrun, hdraws, -⟩ := Counting.forTo_append
    (fun row s =>
      let y := place dstY row.toNat
      if y < 0 ∨ s.canvas.h ≤ y then some s
      else forTo 0 (bmp.width - 1)
        (fun col s => drawPixel bmp dstX y colors.fg colors.bg row.toNat col.toNat s) s)
    bmp.rows (s := s) (R := Draws colors)
    (P := fun t => t.canvas.w = s.canvas.w ∧ t.canvas.h = s.canvas.h)
    (X := fun row => rowMarks s.canvas.w s.canvas.h bmp dstX (place dstY row) row)
    (Draws.refl colors) (fun _ _ _ _ _ h h' => h.trans h') ⟨rfl, rfl⟩ fun row t hrow ht => by
      dsimp only [Int.toNat_natCast]
      by_cases hy : place dstY row < 0 ∨ t.canvas.h ≤ place dstY row
      · rw [if_pos hy, rowMarks_eq_nil (by omega)]
        exact ⟨t, rfl, .refl colors t, ht⟩
      · rw [if_neg hy]
        obtain ⟨t', hline, hdraws⟩ := row_draws colors hbmp dstX hrow t
          (by omega : 0 ≤ place dstY row) (by omega)
        rw [ht.1, ht.2] at hdraws
        exact ⟨t', hline, hdraws, hdraws.w_eq.trans ht.1, hdraws.h_eq.trans ht.2⟩
  exact ⟨s', hrun, hdraws⟩

/-! ## The marks of a text -/

section Text

variable {font : Font}

/-- One codepoint draws the marks of its glyph. -/
theorem renderCpOn_draws (hfont : ∀ cp slot, font.slot cp = some slot → slot.bitmap.Fits)
    (baseline leftMargin pen : ℤ) (cp : ℕ) (gs : List Glyph) (s : Surface) :
    ∃ new s', renderCpOn font baseline leftMargin colors (pen, s) cp =
        some ((renderCp font.face baseline leftMargin (pen, gs) cp).1, s') ∧
      (renderCp font.face baseline leftMargin (pen, gs) cp).2 = gs ++ new ∧
      Draws colors (new.flatMap (Glyph.marks font s.canvas.w s.canvas.h)) s s' := by
  rw [renderCpOn, renderCp]
  dsimp only [Font.face]
  by_cases hspace : cp = 0x20 ∧ pen = leftMargin
  · rw [if_pos hspace, if_pos hspace]
    exact ⟨[], s, rfl, (List.append_nil gs).symm, .refl colors s⟩
  rw [if_neg hspace, if_neg hspace]
  cases hslot : font.slot cp with
  | none => exact ⟨[], s, rfl, (List.append_nil gs).symm, .refl colors s⟩
  | some slot =>
    obtain ⟨s', hrun, hdraws⟩ := drawGlyph_draws colors (hfont cp slot hslot)
      (pen + slot.left) (baseline - slot.top) s
    refine ⟨[⟨cp, pen, baseline⟩], s', ?_, rfl, ?_⟩
    · dsimp only
      rw [hrun]
      rfl
    · rw [List.flatMap_singleton, Glyph.marks]
      dsimp only
      rw [hslot]
      exact hdraws

/-- A run of codepoints draws the marks of its glyphs. -/
theorem renderCpsOn_draws (hfont : ∀ cp slot, font.slot cp = some slot → slot.bitmap.Fits)
    (cps : List ℕ) (baseline leftMargin : ℤ) (s : Surface) :
    ∃ s', renderCpsOn font cps baseline leftMargin colors s =
        some ((renderCps font.face cps baseline leftMargin).1, s') ∧
      Draws colors ((renderCps font.face cps baseline leftMargin).2.flatMap
        (Glyph.marks font s.canvas.w s.canvas.h)) s s' := by
  induction cps using List.reverseRecOn with
  | nil => exact ⟨s, rfl, .refl colors s⟩
  | append_singleton cps cp ih =>
    obtain ⟨s', hrun, hdraws⟩ := ih
    have hfold : renderCps font.face (cps ++ [cp]) baseline leftMargin =
        renderCp font.face baseline leftMargin (renderCps font.face cps baseline leftMargin) cp := by
      rw [renderCps, List.foldl_append]
      rfl
    obtain ⟨new, s'', hcp, hnew, hdraws'⟩ := renderCpOn_draws colors hfont baseline
      leftMargin (renderCps font.face cps baseline leftMargin).1 cp
      (renderCps font.face cps baseline leftMargin).2 s'
    refine ⟨s'', ?_, ?_⟩
    · rw [renderCpsOn] at hrun ⊢
      rw [List.foldlM_append, hrun, hfold]
      simpa using hcp
    · rw [hfold, hnew, List.flatMap_append]
      rw [hdraws.w_eq, hdraws.h_eq] at hdraws'
      exact hdraws.trans hdraws'

variable {colors}

/-- The marks of a line. -/
def Line.marks (font : Font) (w h : ℕ) (line : Line) : List Mark :=
  line.glyphs.flatMap (Glyph.marks font w h)

/-- The marks of a page. -/
def Page.marks (font : Font) (w h : ℕ) (page : Page) : List Mark :=
  page.drawn.flatMap (Line.marks font w h)

theorem Page.marks_draw (font : Font) (w h : ℕ) (leftMargin : ℤ) (page : Page) (line : List ℕ) :
    (page.draw font.face leftMargin line).marks font w h =
      page.marks font w h ++ (renderCps font.face line page.baseline leftMargin).2.flatMap
        (Glyph.marks font w h) := by
  rw [Page.marks, Page.draw, List.flatMap_append, List.flatMap_singleton]
  rfl

/-- The canvas behind the lines of a page. -/
structure Follows (font : Font) (colors : Colors) (start : Surface) (page : Page)
    (printed : Printed) : Prop where
  lines_eq : printed.lines = page.lines
  baseline_eq : printed.baseline = page.baseline
  draws : Draws colors (page.marks font start.canvas.w start.canvas.h) start printed.surface

variable {room leftMargin : ℤ} {cps : List ℕ} {n : ℕ}

theorem shrinks_printTurn :
    Loop.Shrinks (printTurn font room leftMargin colors cps n) fun s => n - s.1 := by
  rintro ⟨p, printed⟩ s' h
  unfold printTurn at h
  dsimp only at h
  by_cases hp : n ≤ p
  · rw [if_pos hp] at h
    cases h
  rw [if_neg hp] at h
  cases hscan : scanLine font.measure room cps (n - p) p 0 (-1) with
  | none =>
    rw [hscan] at h
    cases h
  | some stop =>
    obtain ⟨i, lastSpace⟩ := stop
    have hend := (lineEnd_bounds (scanLine_eq_some hscan).1 n lastSpace).1
    rw [hscan] at h
    dsimp only at h
    cases hread : readCps cps p (lineEnd n p i lastSpace) with
    | none =>
      rw [hread] at h
      cases h
    | some line =>
      rw [hread] at h
      dsimp only at h
      cases hdraw : renderCpsOn font line printed.baseline leftMargin colors printed.surface with
      | none =>
        rw [hdraw] at h
        cases h
      | some drawn =>
        rw [hdraw] at h
        cases h
        dsimp only
        omega

/-- **A turn on the canvas follows the turn on the page.** -/
theorem printTurn_follows (hfont : ∀ cp slot, font.slot cp = some slot → slot.bitmap.Fits)
    {start : Surface} {p : ℕ} {page : Page} {printed : Printed}
    (h : Follows font colors start page printed) :
    (pageTurn font.face room leftMargin cps n (p, page) = .done (some page) →
      printTurn font room leftMargin colors cps n (p, printed) = .done (some printed)) ∧
      ∀ p' page', pageTurn font.face room leftMargin cps n (p, page) = .next (p', page') →
        ∃ printed', printTurn font room leftMargin colors cps n (p, printed) =
            .next (p', printed') ∧ Follows font colors start page' printed' := by
  unfold pageTurn printTurn
  dsimp only [Font.face]
  by_cases hp : n ≤ p
  · rw [if_pos hp, if_pos hp]
    refine ⟨fun _ => rfl, ?_⟩
    intro p' page' hturn
    cases hturn
  rw [if_neg hp, if_neg hp]
  cases hscan : scanLine font.measure room cps (n - p) p 0 (-1) with
  | none =>
    constructor
    · intro hturn
      cases hturn
    · intro p' page' hturn
      cases hturn
  | some stop =>
    obtain ⟨i, lastSpace⟩ := stop
    dsimp only
    cases hread : readCps cps p (lineEnd n p i lastSpace) with
    | none =>
      constructor
      · intro hturn
        cases hturn
      · intro p' page' hturn
        cases hturn
    | some line =>
      refine ⟨?_, ?_⟩
      · intro hturn
        cases hturn
      intro p' page' hturn
      cases hturn
      obtain ⟨s', hrun, hdraws⟩ := renderCpsOn_draws colors hfont line
        printed.baseline leftMargin printed.surface
      dsimp only
      rw [hrun]
      refine ⟨_, rfl, ?_, ?_, ?_⟩
      · exact congrArg (· + 1) h.lines_eq
      · exact congrArg (· + font.lineAdvance) h.baseline_eq
      · rw [h.draws.w_eq, h.draws.h_eq, h.baseline_eq] at hdraws
        exact (Page.marks_draw font _ _ leftMargin page line).symm ▸ h.draws.trans hdraws

/-- The loop ends with the page that it has drawn. -/
theorem pageTurn_done {face : Face} {s : ℕ × Page} {page : Page}
    (h : pageTurn face room leftMargin cps n s = .done (some page)) : page = s.2 := by
  rcases pageTurn_cases s with hturn | hturn | ⟨p, line, hturn⟩
  · rw [hturn] at h
    cases h
  · rw [hturn] at h
    cases h
    rfl
  · rw [hturn] at h
    cases h

/-- The loop on the canvas follows the loop on the page. -/
theorem printLoop_follows (hfont : ∀ cp slot, font.slot cp = some slot → slot.bitmap.Fits)
    {start : Surface} {page : Page} (s : ℕ × Page)
    (hpage : Loop.loop (pageTurn font.face room leftMargin cps n) none (fun s => n - s.1) s =
      some page) (printed : Printed) (h : Follows font colors start s.2 printed) :
    ∃ printed', Loop.loop (printTurn font room leftMargin colors cps n) none (fun s => n - s.1)
        (s.1, printed) = some printed' ∧ Follows font colors start page printed' := by
  refine Loop.loop_induction shrinks_pageTurn (P := fun s r => r = some page → ∀ printed,
    Follows font colors start s.2 printed →
      ∃ printed', Loop.loop (printTurn font room leftMargin colors cps n) none (fun s => n - s.1)
        (s.1, printed) = some printed' ∧ Follows font colors start page printed')
    ?_ ?_ s hpage printed h
  · rintro ⟨p, drawn⟩ r hturn rfl printed h
    obtain rfl := pageTurn_done hturn
    exact ⟨printed, Loop.loop_of_done shrinks_printTurn ((printTurn_follows hfont h).1 hturn), h⟩
  · rintro ⟨p, drawn⟩ ⟨p', drawn'⟩ r hturn ih hr printed h
    obtain ⟨next, hnext, h'⟩ := (printTurn_follows hfont h).2 p' drawn' hturn
    obtain ⟨printed', hloop, hpage⟩ := ih hr next h'
    exact ⟨printed', (Loop.loop_of_next shrinks_printTurn hnext).trans hloop, hpage⟩

/-- A turn that leaves the array on the page leaves it on the canvas. -/
theorem printTurn_failed {p : ℕ} {page : Page} {printed : Printed}
    (h : pageTurn font.face room leftMargin cps n (p, page) = .done none) :
    printTurn font room leftMargin colors cps n (p, printed) = .done none := by
  unfold pageTurn at h
  unfold printTurn
  dsimp only [Font.face] at h ⊢
  by_cases hp : n ≤ p
  · rw [if_pos hp] at h
    cases h
  rw [if_neg hp] at h ⊢
  cases hscan : scanLine font.measure room cps (n - p) p 0 (-1) with
  | none => rfl
  | some stop =>
    obtain ⟨i, lastSpace⟩ := stop
    rw [hscan] at h
    dsimp only at h ⊢
    cases hread : readCps cps p (lineEnd n p i lastSpace) with
    | none => rfl
    | some line =>
      rw [hread] at h
      cases h

/-- A loop that leaves the array on the page leaves it on the canvas. -/
theorem printLoop_failed (hfont : ∀ cp slot, font.slot cp = some slot → slot.bitmap.Fits)
    {start : Surface} (s : ℕ × Page)
    (hpage : Loop.loop (pageTurn font.face room leftMargin cps n) none (fun s => n - s.1) s = none)
    (printed : Printed) (h : Follows font colors start s.2 printed) :
    Loop.loop (printTurn font room leftMargin colors cps n) none (fun s => n - s.1)
      (s.1, printed) = none := by
  refine Loop.loop_induction shrinks_pageTurn (P := fun s r => r = none → ∀ printed,
    Follows font colors start s.2 printed →
      Loop.loop (printTurn font room leftMargin colors cps n) none (fun s => n - s.1)
        (s.1, printed) = none) ?_ ?_ s hpage printed h
  · rintro ⟨p, drawn⟩ r hturn rfl printed _
    exact Loop.loop_of_done shrinks_printTurn (printTurn_failed hturn)
  · rintro ⟨p, drawn⟩ ⟨p', drawn'⟩ r hturn ih hr printed h
    obtain ⟨next, hnext, h'⟩ := (printTurn_follows hfont h).2 p' drawn' hturn
    exact (Loop.loop_of_next shrinks_printTurn hnext).trans (ih hr next h')

variable (colors) in
/-- **A text on the canvas** is the page of its lines, glyph by glyph: the lines are counted, the
baseline moves on, and the canvas carries the marks of the page. -/
theorem renderOn_draws (hfont : ∀ cp slot, font.slot cp = some slot → slot.bitmap.Fits)
    (surface : Surface) (leftMargin rightMargin baseline : ℤ) (text : List UInt8) {page : Page}
    (h : render font.face surface.canvas.w leftMargin rightMargin baseline text = some page) :
    ∃ s', renderOn font surface leftMargin rightMargin baseline colors text =
        some ⟨s', page.lines, page.baseline⟩ ∧
      Draws colors (page.marks font surface.canvas.w surface.canvas.h) surface s' := by
  obtain ⟨⟨s', lines, bottom⟩, hrun, hlines, hbaseline, hdraws⟩ :=
    printLoop_follows hfont (0, .blank baseline) h ⟨surface, 0, baseline⟩
      ⟨rfl, rfl, .refl colors surface⟩
  dsimp only at hlines hbaseline hdraws
  subst hlines hbaseline
  exact ⟨s', hrun, hdraws⟩

/-- A text that leaves its array leaves it on the canvas. -/
theorem renderOn_failed (hfont : ∀ cp slot, font.slot cp = some slot → slot.bitmap.Fits)
    (surface : Surface) (leftMargin rightMargin baseline : ℤ) (colors : Colors) (text : List UInt8)
    (h : render font.face surface.canvas.w leftMargin rightMargin baseline text = none) :
    renderOn font surface leftMargin rightMargin baseline colors text = none :=
  printLoop_failed hfont (0, .blank baseline) h ⟨surface, 0, baseline⟩ ⟨rfl, rfl, .refl colors surface⟩

end Text

/-! ## The box of the statistics -/

/-- The statistics count what they have seen, and their box fits exactly around the places `A`. -/
structure Box (s : Stats) (A : Set (ℤ × ℤ)) : Prop where
  empty_iff : s.ink = 0 ↔ A = ∅
  inside : ∀ p ∈ A, s.minX ≤ p.1 ∧ p.1 ≤ s.maxX ∧ s.minY ≤ p.2 ∧ p.2 ≤ s.maxY
  reached : A.Nonempty → (∃ p ∈ A, p.1 = s.minX) ∧ (∃ p ∈ A, p.1 = s.maxX) ∧
    (∃ p ∈ A, p.2 = s.minY) ∧ ∃ p ∈ A, p.2 = s.maxY

theorem box_reset : Box resetStats ∅ where
  empty_iff := ⟨fun _ => rfl, fun _ => rfl⟩
  inside := fun _ hp => absurd hp (Set.notMem_empty _)
  reached := fun h => absurd h Set.not_nonempty_empty

/-- One pixel more. -/
theorem Box.mark {s : Stats} {A : Set (ℤ × ℤ)} (h : Box s A) (x y : ℤ) :
    Box (s.mark x y) (insert (x, y) A) := by
  rw [Stats.mark]
  by_cases h0 : s.ink = 0
  · rw [if_pos h0, h.empty_iff.mp h0]
    refine ⟨?_, ?_, ?_⟩
    · simp
    · intro p hp
      obtain rfl : p = (x, y) := by simpa using hp
      exact ⟨le_rfl, le_rfl, le_rfl, le_rfl⟩
    · intro _
      exact ⟨⟨(x, y), .inl rfl, rfl⟩, ⟨(x, y), .inl rfl, rfl⟩, ⟨(x, y), .inl rfl, rfl⟩,
        ⟨(x, y), .inl rfl, rfl⟩⟩
  rw [if_neg h0]
  have hne : A.Nonempty := Set.nonempty_iff_ne_empty.mpr fun hA => h0 (h.empty_iff.mpr hA)
  obtain ⟨⟨p, hp, hpx⟩, ⟨q, hq, hqx⟩, ⟨r, hr, hry⟩, ⟨t, ht, hty⟩⟩ := h.reached hne
  refine ⟨⟨fun h => absurd h (Nat.succ_ne_zero _), fun h => absurd h (Set.insert_nonempty _ _).ne_empty⟩,
    ?_, fun _ => ⟨?_, ?_, ?_, ?_⟩⟩
  · rintro p (rfl | hp)
    · dsimp only
      split_ifs <;> omega
    · obtain ⟨h1, h2, h3, h4⟩ := h.inside p hp
      dsimp only
      split_ifs <;> omega
  · dsimp only
    by_cases hx : x < s.minX
    · exact ⟨(x, y), .inl rfl, (if_pos hx).symm⟩
    · exact ⟨p, .inr hp, hpx.trans (if_neg hx).symm⟩
  · dsimp only
    by_cases hx : s.maxX < x
    · exact ⟨(x, y), .inl rfl, (if_pos hx).symm⟩
    · exact ⟨q, .inr hq, hqx.trans (if_neg hx).symm⟩
  · dsimp only
    by_cases hy : y < s.minY
    · exact ⟨(x, y), .inl rfl, (if_pos hy).symm⟩
    · exact ⟨r, .inr hr, hry.trans (if_neg hy).symm⟩
  · dsimp only
    by_cases hy : s.maxY < y
    · exact ⟨(x, y), .inl rfl, (if_pos hy).symm⟩
    · exact ⟨t, .inr ht, hty.trans (if_neg hy).symm⟩

/-- The places of marks. -/
def places (marks : List Mark) : Set (ℤ × ℤ) := {p | ∃ m ∈ marks, p = (m.x, m.y)}

/-- Marks, one after the other. -/
theorem Box.marks {s : Stats} {A : Set (ℤ × ℤ)} (h : Box s A) (marks : List Mark) :
    Box (marks.foldl (fun stats m => stats.mark m.x m.y) s) (A ∪ places marks) := by
  induction marks generalizing s A with
  | nil =>
    have : places [] = ∅ := by
      ext p
      simp [places]
    rw [this, Set.union_empty]
    exact h
  | cons m marks ih =>
    have : A ∪ places (m :: marks) = insert (m.x, m.y) A ∪ places marks := by
      ext p
      simp only [places, List.mem_cons, Set.mem_union, Set.mem_insert_iff, Set.mem_ofPred_eq]
      constructor
      · rintro (hp | ⟨k, rfl | hk, rfl⟩)
        · exact .inl (.inr hp)
        · exact .inl (.inl rfl)
        · exact .inr ⟨k, hk, rfl⟩
      · rintro ((rfl | hp) | ⟨k, hk, rfl⟩)
        · exact .inr ⟨m, .inl rfl, rfl⟩
        · exact .inl hp
        · exact .inr ⟨k, .inr hk, rfl⟩
    rw [this, List.foldl_cons]
    exact ih (h.mark m.x m.y)

/-! ## Texts between two resets -/

/-- A call of `cn_text_render`. -/
structure Request where
  leftMargin : ℤ
  rightMargin : ℤ
  baseline : ℤ
  colors : Colors
  text : List UInt8

/-- The call on a surface. -/
def Request.render (font : Font) (surface : Surface) (r : Request) : Option Surface :=
  (renderOn font surface r.leftMargin r.rightMargin r.baseline r.colors r.text).map
    Printed.surface

/-- Calls, one after the other. -/
def renderAll (font : Font) (requests : List Request) (surface : Surface) : Option Surface :=
  requests.foldlM (Request.render font) surface

/-- What holds between a canvas and what has been rendered on it: the box of the statistics is around
places of the canvas, each of which has the blend of a text, and no other place is changed. -/
structure Printing (requests : List Request) (start : Canvas) (A : Set (ℤ × ℤ)) (s : Surface) :
    Prop where
  w_eq : s.canvas.w = start.w
  h_eq : s.canvas.h = start.h
  onScreen : ∀ p ∈ A, start.OnScreen p.1 p.2
  box : Box s.stats A
  changed : ∀ p ∈ A, ∃ r ∈ requests, ∃ a ≠ 0, view s.canvas p = blend565 r.colors.bg r.colors.fg a
  unchanged : ∀ p ∉ A, view s.canvas p = view start p

/-- Marks are covered by their layers. -/
theorem covered_layers (colors : Colors) (marks : List Mark) :
    covered (marks.map (Mark.layer colors)) = places marks := by
  ext p
  constructor
  · rintro ⟨l, hl, hp⟩
    obtain ⟨m, hm, rfl⟩ := List.mem_map.mp hl
    exact ⟨m, hm, hp⟩
  · rintro ⟨m, hm, hp⟩
    exact ⟨m.layer colors, List.mem_map.mpr ⟨m, hm, rfl⟩, hp⟩

/-- One text more. -/
theorem Printing.draws {requests : List Request} {start : Canvas} {A : Set (ℤ × ℤ)} {s s' : Surface}
    (h : Printing requests start A s) {r : Request} {marks : List Mark}
    (hdraws : Draws r.colors marks s s') :
    Printing (requests ++ [r]) start (A ∪ places marks) s' where
  w_eq := hdraws.w_eq.trans h.w_eq
  h_eq := hdraws.h_eq.trans h.h_eq
  onScreen := by
    rintro p (hp | ⟨m, hm, rfl⟩)
    · exact h.onScreen p hp
    · exact (CnCanvas.onScreen_congr ⟨h.w_eq, h.h_eq⟩ m.x m.y).mp (hdraws.onScreen m hm).1
  box := by
    rw [hdraws.stats_eq]
    exact h.box.marks marks
  changed := by
    intro p hp
    rw [hdraws.view_eq]
    rcases Painting.stack_cases (marks.map (Mark.layer r.colors)) (view s.canvas) p with
      ⟨hnot, heq⟩ | ⟨below, l, above, hsplit, -, -, heq⟩
    · rw [covered_layers] at hnot
      obtain ⟨r', hr', a, ha, hblend⟩ := h.changed p (hp.resolve_right hnot)
      exact ⟨r', List.mem_append_left _ hr', a, ha, heq.trans hblend⟩
    · have hl : l ∈ marks.map (Mark.layer r.colors) := by
        rw [hsplit]
        exact List.mem_append_right _ List.mem_cons_self
      obtain ⟨m, hm, rfl⟩ := List.mem_map.mp hl
      exact ⟨r, List.mem_append_right _ List.mem_cons_self, m.a, (hdraws.onScreen m hm).2, heq⟩
  unchanged := by
    intro p hp
    rw [hdraws.view_eq, Painting.stack_of_notMem, h.unchanged p fun hA => hp (.inl hA)]
    rw [covered_layers]
    exact fun hm => hp (.inr hm)

/-- A text of at most 512 characters is rendered. -/
theorem Request.render_draws {font : Font}
    (hfont : ∀ cp slot, font.slot cp = some slot → slot.bitmap.Fits) {r : Request} {n : ℕ}
    (hn : Characters r.text n) (hmax : n ≤ maxCp) (s : Surface) :
    ∃ marks s', r.render font s = some s' ∧ Draws r.colors marks s s' := by
  have hsome := (textRender_isSome_iff hn font.face.measure s.canvas.w r.leftMargin
    r.rightMargin).mpr hmax
  rw [← render_texts font.face s.canvas.w r.leftMargin r.rightMargin r.baseline,
    Option.isSome_map] at hsome
  obtain ⟨page, hpage⟩ := Option.isSome_iff_exists.mp hsome
  obtain ⟨s', hrun, hdraws⟩ := renderOn_draws r.colors hfont s r.leftMargin
    r.rightMargin r.baseline r.text hpage
  refine ⟨_, s', ?_, hdraws⟩
  rw [Request.render, hrun]
  rfl

/-- The calls keep the relation. -/
theorem renderAll_printing {font : Font}
    (hfont : ∀ cp slot, font.slot cp = some slot → slot.bitmap.Fits) {requests : List Request}
    (hrequests : ∀ r ∈ requests, ∃ n, Characters r.text n ∧ n ≤ maxCp) (start : Canvas) :
    ∃ s' A, renderAll font requests ⟨start, resetStats⟩ = some s' ∧
      Printing requests start A s' := by
  induction requests using List.reverseRecOn with
  | nil =>
    refine ⟨⟨start, resetStats⟩, ∅, rfl, rfl, rfl, ?_, box_reset, ?_, fun _ _ => rfl⟩
    · exact fun p hp => absurd hp (Set.notMem_empty p)
    · exact fun p hp => absurd hp (Set.notMem_empty p)
  | append_singleton requests r ih =>
    obtain ⟨s, A, hrun, hprinting⟩ := ih fun r' hr' => hrequests r' (List.mem_append_left _ hr')
    obtain ⟨n, hn, hmax⟩ := hrequests r (List.mem_append_right _ List.mem_cons_self)
    obtain ⟨marks, s', hrender, hdraws⟩ := r.render_draws hfont hn hmax s
    refine ⟨s', A ∪ places marks, ?_, hprinting.draws hdraws⟩
    rw [renderAll] at hrun ⊢
    rw [List.foldlM_append, hrun]
    simpa using hrender

/-- A place of the canvas that shows the blend of a text. -/
def Inked (requests : List Request) (start canvas : Canvas) (x y : ℤ) : Prop :=
  start.OnScreen x y ∧
    ∃ r ∈ requests, ∃ a ≠ 0, getPixel canvas x y = blend565 r.colors.bg r.colors.fg a

/-- **What the statistics tell.** After the statistics have been reset and texts of at most 512
characters rendered, whatever their margins and colours, every pixel that differs from before is
inked and in the box of the statistics; with any ink, every side of the box has an inked pixel of
the canvas, and with none the canvas is as before. -/
theorem texts_inside_box {font : Font}
    (hfont : ∀ cp slot, font.slot cp = some slot → slot.bitmap.Fits) {requests : List Request}
    (hrequests : ∀ r ∈ requests, ∃ n, Characters r.text n ∧ n ≤ 512) (start : Canvas) :
    ∃ s', renderAll font requests ⟨start, resetStats⟩ = some s' ∧
      (∀ x y, getPixel s'.canvas x y ≠ getPixel start x y →
        Inked requests start s'.canvas x y ∧ s'.stats.minX ≤ x ∧ x ≤ s'.stats.maxX ∧
          s'.stats.minY ≤ y ∧ y ≤ s'.stats.maxY) ∧
      (s'.stats.ink ≠ 0 →
        (∃ y, Inked requests start s'.canvas s'.stats.minX y) ∧
        (∃ y, Inked requests start s'.canvas s'.stats.maxX y) ∧
        (∃ x, Inked requests start s'.canvas x s'.stats.minY) ∧
        ∃ x, Inked requests start s'.canvas x s'.stats.maxY) ∧
      (s'.stats.ink = 0 → ∀ x y, getPixel s'.canvas x y = getPixel start x y) := by
  obtain ⟨s', A, hrun, h⟩ := renderAll_printing hfont hrequests start
  have hinked : ∀ p ∈ A, Inked requests start s'.canvas p.1 p.2 := fun p hp =>
    ⟨h.onScreen p hp, h.changed p hp⟩
  refine ⟨s', hrun, ?_, ?_, ?_⟩
  · intro x y hne
    by_cases hA : (x, y) ∈ A
    · exact ⟨hinked (x, y) hA, h.box.inside (x, y) hA⟩
    · exact absurd (h.unchanged (x, y) hA) hne
  · intro hink
    have hne : A.Nonempty := Set.nonempty_iff_ne_empty.mpr fun hA => hink (h.box.empty_iff.mpr hA)
    obtain ⟨⟨p, hp, hpx⟩, ⟨q, hq, hqx⟩, ⟨r, hr, hry⟩, ⟨t, ht, hty⟩⟩ := h.box.reached hne
    exact ⟨⟨p.2, hpx ▸ hinked p hp⟩, ⟨q.2, hqx ▸ hinked q hq⟩, ⟨r.1, hry ▸ hinked r hr⟩,
      t.1, hty ▸ hinked t ht⟩
  · intro hink x y
    apply h.unchanged (x, y)
    rw [h.box.empty_iff.mp hink]
    exact Set.notMem_empty (x, y)

/-- The letter "a" in a font whose glyphs are grey dots, black on a white canvas of two pixels. -/
theorem texts_inside_box_dot :
    ∃ s', renderAll ⟨fun _ => 2, fun _ => some ⟨⟨1, 1, 1, .gray, [128]⟩, 0, 1, 2⟩, 10⟩
        [⟨1, 0, 1, ⟨0x0000, 0xffff⟩, [0x61]⟩] ⟨⟨2, 1, [0xffff, 0xffff], rfl⟩, resetStats⟩ = some s' ∧
      ∀ x y, getPixel s'.canvas x y ≠ getPixel ⟨2, 1, [0xffff, 0xffff], rfl⟩ x y →
        s'.stats.minX ≤ x ∧ x ≤ s'.stats.maxX := by
  obtain ⟨s', hrun, hchanged, -⟩ := @texts_inside_box
    ⟨fun _ => 2, fun _ => some ⟨⟨1, 1, 1, .gray, [128]⟩, 0, 1, 2⟩, 10⟩
    (fun cp slot hslot => Option.some.inj hslot ▸
      ⟨rfl, fun _ => le_rfl, fun hmono => absurd hmono (by decide)⟩)
    [⟨1, 0, 1, ⟨0x0000, 0xffff⟩, [0x61]⟩] (fun r hr => List.mem_singleton.mp hr ▸
      ⟨_, characters_decoded [0x61], by decide +kernel⟩) ⟨2, 1, [0xffff, 0xffff], rfl⟩
  refine ⟨s', hrun, ?_⟩
  intro x y hne
  obtain ⟨-, hmin, hmax, -⟩ := hchanged x y hne
  exact ⟨hmin, hmax⟩

end CnText
