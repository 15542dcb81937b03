import CrossNook.Graphics.Painting
import CrossNook.Text.Counting
import Mathlib.Data.Set.Prod
import Mathlib.Order.Interval.Set.UnorderedInterval

/-!
# The canvas

The drawing surface (`graphics/canvas.c`): a buffer of RGB565 pixels, row by row, and primitives
that clip to it. A write outside the buffer is an outcome of its own; no primitive has it. What a
canvas shows is a picture on the plane, on which every primitive is one layer of paint.

## Main definitions

* `CnCanvas.Canvas`: `cn_canvas`
* `CnCanvas.fillRect`, `CnCanvas.outlineRect`, `CnCanvas.hline`, `CnCanvas.vline`,
  `CnCanvas.putPixel`, `CnCanvas.clear`: the primitives
* `CnCanvas.Command`, `CnCanvas.draw`: calls of the primitives, one after the other
* `CnCanvas.blend565`: `cn_blend565`

## Main results

* `CnCanvas.draw_shows`: a run of calls stays in the buffer and shows its layers, clipped
* `CnCanvas.blend565_channels`: every channel of a blend lies between those of its two colours
-/

namespace CnCanvas

open Counting (forTo)
open Painting (Layer stack)

/-- `CN_COLOR_WHITE`. -/
def colorWhite : UInt16 := 0xffff

/-- `CN_COLOR_BLACK`. -/
def colorBlack : UInt16 := 0x0000

/-- `CN_COLOR_GRAY`. -/
def colorGray : UInt16 := 0x7bef

/-- `cn_canvas`: a buffer of `w * h` pixels, row by row. -/
structure Canvas where
  w : ℕ
  h : ℕ
  pixels : List UInt16
  length_pixels : pixels.length = w * h

/-- `cn_canvas_create`, with the memory that the allocation returned. -/
def create (w h : ℤ) (memory : ℕ → UInt16) : Option Canvas :=
  if w ≤ 0 ∨ h ≤ 0 then none
  else some ⟨w.toNat, h.toNat, (List.range (w.toNat * h.toNat)).map memory,
    (List.length_map memory).trans List.length_range⟩

namespace Canvas

variable (c : Canvas)

theorem length_set (i : ℕ) (color : UInt16) : (c.pixels.set i color).length = c.w * c.h :=
  List.length_set.trans c.length_pixels

/-- The canvas with one pixel of its buffer changed. -/
def setAt (i : ℕ) (color : UInt16) : Canvas :=
  ⟨c.w, c.h, c.pixels.set i color, c.length_set i color⟩

@[simp] theorem setAt_w (i : ℕ) (color : UInt16) : (c.setAt i color).w = c.w := rfl

@[simp] theorem setAt_h (i : ℕ) (color : UInt16) : (c.setAt i color).h = c.h := rfl

theorem setAt_pixels (i : ℕ) (color : UInt16) :
    (c.setAt i color).pixels = c.pixels.set i color := rfl

/-- A place of the plane that is on the canvas. -/
def OnScreen (x y : ℤ) : Prop := 0 ≤ x ∧ x < c.w ∧ 0 ≤ y ∧ y < c.h

instance (x y : ℤ) : Decidable (c.OnScreen x y) := inferInstanceAs (Decidable (_ ∧ _))

variable {c}

/-- The places on the canvas have their pixels in the buffer. -/
theorem OnScreen.index_lt {x y : ℤ} (h : c.OnScreen x y) :
    (y * c.w + x).toNat < c.pixels.length := by
  obtain ⟨hx, hx', hy, hy'⟩ := h
  rw [c.length_pixels]
  have : (y * c.w + x : ℤ) < (c.w * c.h : ℕ) := by
    push_cast
    nlinarith
  have h0 : 0 ≤ y * c.w + x := by positivity
  omega

/-- No two places on the canvas share a pixel. -/
theorem OnScreen.index_inj {x y x' y' : ℤ} (h : c.OnScreen x y) (h' : c.OnScreen x' y')
    (heq : (y * c.w + x).toNat = (y' * c.w + x').toNat) : x = x' ∧ y = y' := by
  obtain ⟨hx, hxw, hy, -⟩ := h
  obtain ⟨hx', hxw', hy', -⟩ := h'
  have h0 : 0 ≤ y * c.w + x := by positivity
  have h0' : 0 ≤ y' * c.w + x' := by positivity
  have hsum : y * c.w + x = y' * c.w + x' := by omega
  have hyy : y = y' := by
    rcases lt_trichotomy y y' with hlt | heq | hgt
    · nlinarith
    · exact heq
    · nlinarith
  subst hyy
  exact ⟨by omega, rfl⟩

end Canvas

/-! ## The primitives -/

/-- A write to a pixel of the buffer. `none` is a write outside it. -/
def storeAt (c : Canvas) (i : ℤ) (color : UInt16) : Option Canvas :=
  if 0 ≤ i ∧ i < c.pixels.length then some (c.setAt i.toNat color) else none

/-- `c->pixels[(size_t)y * c->w + x] = color`. -/
def store (c : Canvas) (x y : ℤ) (color : UInt16) : Option Canvas := storeAt c (y * c.w + x) color

/-- `cn_canvas_clear`. -/
def clear (c : Canvas) (color : UInt16) : Option Canvas :=
  forTo 0 (c.w * c.h - 1) (fun i c => storeAt c i color) c

/-- `cn_canvas_put_pixel`. -/
def putPixel (c : Canvas) (x y : ℤ) (color : UInt16) : Option Canvas :=
  if x < 0 ∨ c.w ≤ x ∨ y < 0 ∨ c.h ≤ y then some c else store c x y color

/-- `cn_canvas_get_pixel`. -/
def getPixel (c : Canvas) (x y : ℤ) : UInt16 :=
  if h : c.OnScreen x y then c.pixels.get ⟨(y * c.w + x).toNat, h.index_lt⟩ else colorWhite

/-- `cn_canvas_fill_rect`. -/
def fillRect (c : Canvas) (x0 y0 x1 y1 : ℤ) (color : UInt16) : Option Canvas :=
  let x0 := if x0 < 0 then 0 else x0
  let y0 := if y0 < 0 then 0 else y0
  let x1 := if (c.w : ℤ) ≤ x1 then (c.w : ℤ) - 1 else x1
  let y1 := if (c.h : ℤ) ≤ y1 then (c.h : ℤ) - 1 else y1
  forTo y0 y1 (fun y c => forTo x0 x1 (fun x c => store c x y color) c) c

/-- `cn_canvas_hline`. -/
def hline (c : Canvas) (x0 x1 y : ℤ) (color : UInt16) : Option Canvas :=
  if y < 0 ∨ c.h ≤ y then some c
  else
    let (x0, x1) := if x1 < x0 then (x1, x0) else (x0, x1)
    let x0 := if x0 < 0 then 0 else x0
    let x1 := if (c.w : ℤ) ≤ x1 then (c.w : ℤ) - 1 else x1
    forTo x0 x1 (fun x c => store c x y color) c

/-- `cn_canvas_vline`. -/
def vline (c : Canvas) (x y0 y1 : ℤ) (color : UInt16) : Option Canvas :=
  if x < 0 ∨ c.w ≤ x then some c
  else
    let (y0, y1) := if y1 < y0 then (y1, y0) else (y0, y1)
    let y0 := if y0 < 0 then 0 else y0
    let y1 := if (c.h : ℤ) ≤ y1 then (c.h : ℤ) - 1 else y1
    forTo y0 y1 (fun y c => store c x y color) c

/-- `cn_canvas_outline_rect`. -/
def outlineRect (c : Canvas) (x0 y0 x1 y1 : ℤ) (color : UInt16) : Option Canvas := do
  let c ← hline c x0 x1 y0 color
  let c ← hline c x0 x1 y1 color
  let c ← vline c x0 y0 y1 color
  vline c x1 y0 y1 color

/-- One channel in `cn_blend565`. -/
def blendChannel (back fore a : ℕ) : ℕ := (back * (255 - a) + fore * a) / 255

/-- `cn_blend565` at a coverage of a glyph, at most 255. -/
def blend565 (back fore : UInt16) (a : UInt8) : UInt16 :=
  let br := back.toNat >>> 11 &&& 0x1f
  let fr := fore.toNat >>> 11 &&& 0x1f
  let bg := back.toNat >>> 5 &&& 0x3f
  let fg := fore.toNat >>> 5 &&& 0x3f
  let bb := back.toNat &&& 0x1f
  let fb := fore.toNat &&& 0x1f
  let r := blendChannel br fr a.toNat
  let g := blendChannel bg fg a.toNat
  let b := blendChannel bb fb a.toNat
  UInt16.ofNat (r <<< 11 ||| g <<< 5 ||| b)

/-- A call of a primitive. -/
inductive Command
  | clear (color : UInt16)
  | putPixel (x y : ℤ) (color : UInt16)
  | fillRect (x0 y0 x1 y1 : ℤ) (color : UInt16)
  | outlineRect (x0 y0 x1 y1 : ℤ) (color : UInt16)
  | hline (x0 x1 y : ℤ) (color : UInt16)
  | vline (x y0 y1 : ℤ) (color : UInt16)
  deriving DecidableEq

/-- The call on a canvas. -/
def Command.call (c : Canvas) : Command → Option Canvas
  | clear color => CnCanvas.clear c color
  | putPixel x y color => CnCanvas.putPixel c x y color
  | fillRect x0 y0 x1 y1 color => CnCanvas.fillRect c x0 y0 x1 y1 color
  | outlineRect x0 y0 x1 y1 color => CnCanvas.outlineRect c x0 y0 x1 y1 color
  | hline x0 x1 y color => CnCanvas.hline c x0 x1 y color
  | vline x y0 y1 color => CnCanvas.vline c x y0 y1 color

/-- Calls, one after the other. -/
def draw (commands : List Command) (c : Canvas) : Option Canvas :=
  commands.foldlM Command.call c

/-! ## What a canvas shows -/

/-- The picture of a canvas. -/
def view (c : Canvas) : ℤ × ℤ → UInt16 := fun p => getPixel c p.1 p.2

/-- The part of the plane that is on the canvas. -/
def screen (c : Canvas) : Set (ℤ × ℤ) := {p | c.OnScreen p.1 p.2}

/-- `c'` is `c` with a region painted, as far as the region is on the canvas. -/
structure Paints (color : UInt16) (region : Set (ℤ × ℤ)) (c c' : Canvas) : Prop where
  w_eq : c'.w = c.w
  h_eq : c'.h = c.h
  view_eq : view c' = (Layer.mk (region ∩ screen c) color).onto (view c)

/-- What a call paints, on the whole plane. A rectangle with its corners the wrong way round is
empty, and a line with its ends the wrong way round is not. -/
def Command.layer : Command → Layer (ℤ × ℤ) UInt16
  | clear color => ⟨Set.univ, color⟩
  | putPixel x y color => ⟨{(x, y)}, color⟩
  | fillRect x0 y0 x1 y1 color => ⟨Set.Icc x0 x1 ×ˢ Set.Icc y0 y1, color⟩
  | outlineRect x0 y0 x1 y1 color =>
    ⟨Set.uIcc x0 x1 ×ˢ {y0} ∪ Set.uIcc x0 x1 ×ˢ {y1} ∪ ({x0} ×ˢ Set.uIcc y0 y1) ∪
      {x1} ×ˢ Set.uIcc y0 y1, color⟩
  | hline x0 x1 y color => ⟨Set.uIcc x0 x1 ×ˢ {y}, color⟩
  | vline x y0 y1 color => ⟨{x} ×ˢ Set.uIcc y0 y1, color⟩

namespace Paints

variable {color : UInt16} {A B : Set (ℤ × ℤ)} {c c' c'' : Canvas}

theorem screen_eq (h : Paints color A c c') : screen c' = screen c := by
  ext p
  simp only [screen, Canvas.OnScreen, h.w_eq, h.h_eq]

protected theorem refl (color : UInt16) (c : Canvas) : Paints color ∅ c c where
  w_eq := rfl
  h_eq := rfl
  view_eq := by rw [Set.empty_inter, Layer.onto_empty]

protected theorem trans (h : Paints color A c c') (h' : Paints color B c' c'') :
    Paints color (A ∪ B) c c'' where
  w_eq := h'.w_eq.trans h.w_eq
  h_eq := h'.h_eq.trans h.h_eq
  view_eq := by
    rw [h'.view_eq, h.view_eq, h.screen_eq, Set.union_inter_distrib_right, Layer.onto_union]

/-- Only the part of the region on the canvas counts. -/
theorem congr (h : Paints color A c c') (hAB : A ∩ screen c = B ∩ screen c) :
    Paints color B c c' where
  w_eq := h.w_eq
  h_eq := h.h_eq
  view_eq := by rw [h.view_eq, hAB]

end Paints

/-- Nothing on the canvas is painted. -/
theorem paints_self {A : Set (ℤ × ℤ)} {c : Canvas} (color : UInt16) (h : A ∩ screen c = ∅) :
    Paints color A c c :=
  (Paints.refl color c).congr (by rw [Set.empty_inter, h])

theorem getPixel_of_onScreen {c : Canvas} {x y : ℤ} (h : c.OnScreen x y) :
    getPixel c x y = c.pixels.getD (y * c.w + x).toNat colorWhite := by
  rw [getPixel, dif_pos h, List.getD_eq_getElem?_getD, List.getElem?_eq_getElem h.index_lt]
  rfl

theorem getPixel_of_not_onScreen {c : Canvas} {x y : ℤ} (h : ¬ c.OnScreen x y) :
    getPixel c x y = colorWhite := by
  rw [getPixel, dif_neg h]

variable {c : Canvas}

theorem onScreen_congr {d : Canvas} (hd : d.w = c.w ∧ d.h = c.h) (x y : ℤ) :
    d.OnScreen x y ↔ c.OnScreen x y := by
  rw [Canvas.OnScreen, Canvas.OnScreen, hd.1, hd.2]

theorem eq_of_pixels {d : Canvas} (hw : d.w = c.w) (hh : d.h = c.h) (hpixels : d.pixels = c.pixels) :
    d = c := by
  cases c
  cases d
  dsimp only at hw hh hpixels
  subst hw hh hpixels
  rfl

/-- A canvas is what it shows. -/
theorem eq_of_view {d : Canvas} (hw : d.w = c.w) (hh : d.h = c.h) (hview : view d = view c) :
    d = c := by
  have hpixels : d.pixels = c.pixels := by
    have hlength : d.pixels.length = c.pixels.length := by
      rw [d.length_pixels, c.length_pixels, hw, hh]
    apply List.ext_getElem hlength
    intro i hi hi'
    have hlt : i < c.w * c.h := c.length_pixels ▸ hi'
    have hpos : 0 < c.w := Nat.pos_of_ne_zero fun h0 => by
      rw [h0, Nat.zero_mul] at hlt
      exact absurd hlt (Nat.not_lt_zero i)
    -- the pixel is at the place of its index
    have hscreen : c.OnScreen (i % c.w : ℕ) (i / c.w : ℕ) := by
      have hx := Nat.mod_lt i hpos
      have hy : i / c.w < c.h := Nat.div_lt_of_lt_mul hlt
      exact ⟨Int.natCast_nonneg _, by exact_mod_cast hx, Int.natCast_nonneg _, by exact_mod_cast hy⟩
    have hindex : (((i / c.w : ℕ) : ℤ) * c.w + (i % c.w : ℕ)).toNat = i := by
      have hdiv := Nat.div_add_mod' i c.w
      have hcast : ((i / c.w : ℕ) : ℤ) * c.w + (i % c.w : ℕ) = (i : ℤ) := by
        exact_mod_cast hdiv
      rw [hcast, Int.toNat_natCast]
    have hsame := congrFun hview ((i % c.w : ℕ), (i / c.w : ℕ))
    unfold view at hsame
    rw [getPixel_of_onScreen hscreen, getPixel_of_onScreen ((onScreen_congr ⟨hw, hh⟩ _ _).mpr hscreen),
      hw, hindex, List.getD_eq_getElem?_getD, List.getD_eq_getElem?_getD,
      List.getElem?_eq_getElem hi, List.getElem?_eq_getElem hi'] at hsame
    exact hsame
  exact eq_of_pixels hw hh hpixels

/-- A write to a place on the canvas. -/
theorem store_paints {x y : ℤ} (h : c.OnScreen x y) (color : UInt16) :
    ∃ c', store c x y color = some c' ∧ Paints color {(x, y)} c c' := by
  have hi : 0 ≤ y * c.w + x ∧ y * c.w + x < c.pixels.length := by
    have h0 : 0 ≤ y * c.w + x := by
      obtain ⟨hx, -, hy, -⟩ := h
      positivity
    have := h.index_lt
    omega
  refine ⟨c.setAt (y * c.w + x).toNat color, ?_, rfl, rfl, ?_⟩
  · rw [store, storeAt, if_pos hi]
  funext p
  have hsame := onScreen_congr (d := c.setAt (y * c.w + x).toNat color) ⟨rfl, rfl⟩ p.1 p.2
  by_cases hs : c.OnScreen p.1 p.2
  · rw [view, getPixel_of_onScreen (hsame.mpr hs), Canvas.setAt_pixels, Canvas.setAt_w]
    by_cases hp : p = (x, y)
    · subst hp
      rw [Layer.onto_of_mem (l := ⟨{(x, y)} ∩ screen c, color⟩) ⟨rfl, h⟩,
        List.getD_eq_getElem?_getD, List.getElem?_set_self h.index_lt]
      rfl
    · rw [Layer.onto_of_notMem (l := ⟨{(x, y)} ∩ screen c, color⟩) fun hm => hp hm.1, view,
        getPixel_of_onScreen hs, List.getD_eq_getElem?_getD, List.getElem?_set_ne,
        ← List.getD_eq_getElem?_getD]
      intro heq
      obtain ⟨hx, hy⟩ := h.index_inj hs heq
      exact hp (Prod.ext hx.symm hy.symm)
  · rw [Layer.onto_of_notMem (l := ⟨{(x, y)} ∩ screen c, color⟩) fun hm => hs hm.2, view, view,
      getPixel_of_not_onScreen hs, getPixel_of_not_onScreen fun h' => hs (hsame.mp h')]

/-- **Loops that paint.** A loop whose turns paint regions of one colour paints their union. -/
theorem forTo_paints (body : ℤ → Canvas → Option Canvas) (lo hi : ℤ) (color : UInt16)
    (X : ℤ → Set (ℤ × ℤ))
    (step : ∀ i d, lo ≤ i → i ≤ hi → d.w = c.w ∧ d.h = c.h →
      ∃ d', body i d = some d' ∧ Paints color (X i) d d') :
    ∃ c', forTo lo hi body c = some c' ∧ Paints color (⋃ i ∈ Set.Icc lo hi, X i) c c' := by
  obtain ⟨c', hrun, hpaints, -⟩ := Counting.forTo_collect
    (R := Paints color) (P := fun d => d.w = c.w ∧ d.h = c.h)
    (Paints.refl color) (fun _ _ _ _ _ h h' => h.trans h') ⟨rfl, rfl⟩ fun i d hlo hhi hd => by
      obtain ⟨d', hbody, hd'⟩ := step i d hlo hhi hd
      exact ⟨d', hbody, hd', hd'.w_eq.trans hd.1, hd'.h_eq.trans hd.2⟩
  exact ⟨c', hrun, hpaints⟩

/-- A row of pixels on the canvas. -/
theorem row_paints {x0 x1 y : ℤ} (hx0 : 0 ≤ x0) (hx1 : x1 < c.w) (hy : 0 ≤ y) (hy' : y < c.h)
    (color : UInt16) :
    ∃ c', forTo x0 x1 (fun x c => store c x y color) c = some c' ∧
      Paints color (Set.Icc x0 x1 ×ˢ {y}) c c' := by
  obtain ⟨c', hrun, hpaints⟩ := forTo_paints (c := c) (fun x c => store c x y color) x0 x1 color
    (fun x => {(x, y)}) fun x d hlo hhi hd =>
      store_paints ((onScreen_congr hd x y).mpr ⟨by omega, by omega, hy, hy'⟩) color
  refine ⟨c', hrun, hpaints.congr ?_⟩
  congr 1
  ext ⟨p, q⟩
  simp only [Set.mem_iUnion, Set.mem_singleton_iff, Prod.mk.injEq, Set.mem_prod, exists_prop]
  constructor
  · rintro ⟨i, hi, rfl, rfl⟩
    exact ⟨hi, rfl⟩
  · rintro ⟨hp, rfl⟩
    exact ⟨p, hp, rfl, rfl⟩

/-- A column of pixels on the canvas. -/
theorem column_paints {x y0 y1 : ℤ} (hx : 0 ≤ x) (hx' : x < c.w) (hy0 : 0 ≤ y0) (hy1 : y1 < c.h)
    (color : UInt16) :
    ∃ c', forTo y0 y1 (fun y c => store c x y color) c = some c' ∧
      Paints color ({x} ×ˢ Set.Icc y0 y1) c c' := by
  obtain ⟨c', hrun, hpaints⟩ := forTo_paints (c := c) (fun y c => store c x y color) y0 y1 color
    (fun y => {(x, y)}) fun y d hlo hhi hd =>
      store_paints ((onScreen_congr hd x y).mpr ⟨hx, hx', by omega, by omega⟩) color
  refine ⟨c', hrun, hpaints.congr ?_⟩
  congr 1
  ext ⟨p, q⟩
  simp only [Set.mem_iUnion, Set.mem_singleton_iff, Prod.mk.injEq, Set.mem_prod, exists_prop]
  constructor
  · rintro ⟨i, hi, rfl, rfl⟩
    exact ⟨rfl, hi⟩
  · rintro ⟨rfl, hq⟩
    exact ⟨q, hq, rfl, rfl⟩

/-! ## What the primitives paint -/

theorem clip_low (a : ℤ) : (if a < 0 then 0 else a) = max 0 a := by
  by_cases h : a < 0
  · rw [if_pos h]
    omega
  · rw [if_neg h]
    omega

theorem clip_high (n : ℕ) (b : ℤ) : (if (n : ℤ) ≤ b then (n : ℤ) - 1 else b) = min ((n : ℤ) - 1) b := by
  by_cases h : (n : ℤ) ≤ b
  · rw [if_pos h]
    omega
  · rw [if_neg h]
    omega

/-- `cn_canvas_put_pixel`. -/
theorem putPixel_paints (x y : ℤ) (color : UInt16) :
    ∃ c', putPixel c x y color = some c' ∧ Paints color {(x, y)} c c' := by
  by_cases h : x < 0 ∨ c.w ≤ x ∨ y < 0 ∨ c.h ≤ y
  · refine ⟨c, by rw [putPixel, if_pos h], paints_self color ?_⟩
    ext p
    simp only [Set.mem_inter_iff, Set.mem_singleton_iff, Set.mem_empty_iff_false, iff_false]
    rintro ⟨rfl, hx, hx', hy, hy'⟩
    simp only at hx hx' hy hy'
    omega
  · rw [putPixel, if_neg h]
    exact store_paints ⟨by omega, by omega, by omega, by omega⟩ color

/-- `cn_canvas_hline`. -/
theorem hline_paints (x0 x1 y : ℤ) (color : UInt16) :
    ∃ c', hline c x0 x1 y color = some c' ∧ Paints color (Set.uIcc x0 x1 ×ˢ {y}) c c' := by
  by_cases h : y < 0 ∨ c.h ≤ y
  · refine ⟨c, by rw [hline, if_pos h], paints_self color ?_⟩
    ext p
    simp only [Set.mem_inter_iff, Set.mem_prod, Set.mem_singleton_iff, Set.mem_empty_iff_false,
      iff_false]
    rintro ⟨⟨-, hy⟩, -, -, hy0, hyh⟩
    omega
  · have key : ∀ a b : ℤ, a ≤ b → Set.uIcc x0 x1 = Set.Icc a b →
        ∃ c', forTo (max 0 a) (min (c.w - 1) b) (fun x c => store c x y color) c = some c' ∧
          Paints color (Set.uIcc x0 x1 ×ˢ {y}) c c' := by
      intro a b hab hI
      have hlow : 0 ≤ max 0 a := le_max_left 0 a
      have hhigh : min ((c.w : ℤ) - 1) b < c.w := by omega
      obtain ⟨c', hrun, hpaints⟩ := row_paints hlow hhigh (by omega : 0 ≤ y) (by omega) color
      refine ⟨c', hrun, hpaints.congr ?_⟩
      ext p
      simp only [hI, Set.mem_inter_iff, Set.mem_prod, Set.mem_Icc, Set.mem_singleton_iff, screen,
        Set.mem_ofPred_eq, Canvas.OnScreen]
      omega
    rw [hline, if_neg h]
    by_cases hx : x1 < x0
    · rw [if_pos hx]
      simp only [clip_low, clip_high]
      exact key x1 x0 hx.le (Set.uIcc_of_ge hx.le)
    · rw [if_neg hx]
      simp only [clip_low, clip_high]
      exact key x0 x1 (not_lt.mp hx) (Set.uIcc_of_le (not_lt.mp hx))

/-- `cn_canvas_vline`. -/
theorem vline_paints (x y0 y1 : ℤ) (color : UInt16) :
    ∃ c', vline c x y0 y1 color = some c' ∧ Paints color ({x} ×ˢ Set.uIcc y0 y1) c c' := by
  by_cases h : x < 0 ∨ c.w ≤ x
  · refine ⟨c, by rw [vline, if_pos h], paints_self color ?_⟩
    ext p
    simp only [Set.mem_inter_iff, Set.mem_prod, Set.mem_singleton_iff, Set.mem_empty_iff_false,
      iff_false]
    rintro ⟨⟨hx, -⟩, hx0, hxw, -⟩
    omega
  · have key : ∀ a b : ℤ, a ≤ b → Set.uIcc y0 y1 = Set.Icc a b →
        ∃ c', forTo (max 0 a) (min (c.h - 1) b) (fun y c => store c x y color) c = some c' ∧
          Paints color ({x} ×ˢ Set.uIcc y0 y1) c c' := by
      intro a b hab hI
      have hlow : 0 ≤ max 0 a := le_max_left 0 a
      have hhigh : min ((c.h : ℤ) - 1) b < c.h := by omega
      obtain ⟨c', hrun, hpaints⟩ :=
        column_paints (by omega : 0 ≤ x) (by omega) hlow hhigh color
      refine ⟨c', hrun, hpaints.congr ?_⟩
      ext p
      simp only [hI, Set.mem_inter_iff, Set.mem_prod, Set.mem_Icc, Set.mem_singleton_iff, screen,
        Set.mem_ofPred_eq, Canvas.OnScreen]
      omega
    rw [vline, if_neg h]
    by_cases hy : y1 < y0
    · rw [if_pos hy]
      simp only [clip_low, clip_high]
      exact key y1 y0 hy.le (Set.uIcc_of_ge hy.le)
    · rw [if_neg hy]
      simp only [clip_low, clip_high]
      exact key y0 y1 (not_lt.mp hy) (Set.uIcc_of_le (not_lt.mp hy))

/-- `cn_canvas_fill_rect`: the rows of the clipped rectangle, none of them where the corners are the
wrong way round. -/
theorem fillRect_paints (x0 y0 x1 y1 : ℤ) (color : UInt16) :
    ∃ c', fillRect c x0 y0 x1 y1 color = some c' ∧
      Paints color (Set.Icc x0 x1 ×ˢ Set.Icc y0 y1) c c' := by
  simp only [fillRect, clip_low, clip_high]
  obtain ⟨c', hrun, hpaints⟩ := forTo_paints (c := c)
    (fun y d => forTo (max 0 x0) (min (c.w - 1) x1) (fun x c => store c x y color) d)
    (max 0 y0) (min (c.h - 1) y1) color
    (fun y => Set.Icc (max 0 x0) (min (c.w - 1) x1) ×ˢ {y}) fun y d hlo hhi hd =>
      row_paints (c := d) (by omega) (by omega) (by omega) (by omega) color
  refine ⟨c', hrun, hpaints.congr ?_⟩
  ext ⟨p, q⟩
  simp only [Set.mem_inter_iff, Set.mem_iUnion, Set.mem_prod, Set.mem_Icc, Set.mem_singleton_iff,
    exists_prop, screen, Set.mem_ofPred_eq, Canvas.OnScreen]
  constructor
  · rintro ⟨⟨i, hi, hp, rfl⟩, hs⟩
    exact ⟨⟨⟨by omega, by omega⟩, by omega, by omega⟩, hs⟩
  · rintro ⟨⟨hp, hq⟩, hs⟩
    exact ⟨⟨q, ⟨by omega, by omega⟩, ⟨by omega, by omega⟩, rfl⟩, hs⟩

/-- `cn_canvas_clear`: the buffer pixel by pixel. -/
theorem clear_paints (color : UInt16) :
    ∃ c', clear c color = some c' ∧ Paints color Set.univ c c' := by
  let I : ℤ → Canvas → Prop := fun i d => d.w = c.w ∧ d.h = c.h ∧
    ∀ j : ℕ, (j : ℤ) < i → d.pixels[j]? = some color
  have h0 : I 0 c := ⟨rfl, rfl, fun j hj => absurd hj (by omega)⟩
  obtain ⟨c', hrun, hw, hh, hpixels⟩ := Counting.forTo_induct
    (fun i c => storeAt c i color) 0 (c.w * c.h - 1) h0 fun i d hlo hhi hI => by
      obtain ⟨hw, hh, hd⟩ := hI
      have hlen : (d.pixels.length : ℤ) = c.w * c.h := by
        rw [d.length_pixels, hw, hh]
        push_cast
        rfl
      refine ⟨d.setAt i.toNat color, ?_, hw, hh, fun j hj => ?_⟩
      · rw [storeAt, if_pos ⟨hlo, by omega⟩]
      · rw [Canvas.setAt_pixels]
        by_cases hji : i.toNat = j
        · rw [hji, List.getElem?_set_self (by omega)]
        · rw [List.getElem?_set_ne hji]
          exact hd j (by omega)
  refine ⟨c', hrun, hw, hh, ?_⟩
  funext p
  have hsame := onScreen_congr ⟨hw, hh⟩ p.1 p.2
  by_cases hs : c.OnScreen p.1 p.2
  · have hlt := (hsame.mpr hs).index_lt
    rw [c'.length_pixels, hw, hh, ← Nat.cast_lt (α := ℤ), Nat.cast_mul] at hlt
    rw [Layer.onto_of_mem (l := ⟨Set.univ ∩ screen c, color⟩) ⟨trivial, hs⟩, view,
      getPixel_of_onScreen (hsame.mpr hs), List.getD_eq_getElem?_getD, hw, hpixels _ (by omega)]
    rfl
  · rw [Layer.onto_of_notMem (l := ⟨Set.univ ∩ screen c, color⟩) fun hm => hs hm.2, view, view,
      getPixel_of_not_onScreen hs, getPixel_of_not_onScreen fun h' => hs (hsame.mp h')]

/-- `cn_canvas_outline_rect`: the four edges. -/
theorem outlineRect_paints (x0 y0 x1 y1 : ℤ) (color : UInt16) :
    ∃ c', outlineRect c x0 y0 x1 y1 color = some c' ∧
      Paints color (Command.outlineRect x0 y0 x1 y1 color).layer.region c c' := by
  obtain ⟨c₁, h₁, p₁⟩ := hline_paints (c := c) x0 x1 y0 color
  obtain ⟨c₂, h₂, p₂⟩ := hline_paints (c := c₁) x0 x1 y1 color
  obtain ⟨c₃, h₃, p₃⟩ := vline_paints (c := c₂) x0 y0 y1 color
  obtain ⟨c₄, h₄, p₄⟩ := vline_paints (c := c₃) x1 y0 y1 color
  refine ⟨c₄, ?_, ((p₁.trans p₂).trans p₃).trans p₄⟩
  simp only [outlineRect, Option.bind_eq_bind, h₁, h₂, h₃, h₄, Option.bind_some]

/-- **One call** stays in the buffer and paints its layer. -/
theorem Command.call_paints (command : Command) (c : Canvas) :
    ∃ c', command.call c = some c' ∧ Paints command.layer.color command.layer.region c c' := by
  cases command with
  | clear color => exact clear_paints color
  | putPixel x y color => exact putPixel_paints x y color
  | fillRect x0 y0 x1 y1 color => exact fillRect_paints x0 y0 x1 y1 color
  | outlineRect x0 y0 x1 y1 color => exact outlineRect_paints x0 y0 x1 y1 color
  | hline x0 x1 y color => exact hline_paints x0 x1 y color
  | vline x y0 y1 color => exact vline_paints x y0 y1 color

/-- A layer on the whole plane and its part on the canvas look the same on the canvas. -/
theorem onto_inter_screen {l : Layer (ℤ × ℤ) UInt16} {p : ℤ × ℤ} (hp : p ∈ screen c)
    (picture : ℤ × ℤ → UInt16) :
    (Layer.mk (l.region ∩ screen c) l.color).onto picture p = l.onto picture p := by
  by_cases h : p ∈ l.region
  · rw [Layer.onto_of_mem h, Layer.onto_of_mem (l := ⟨l.region ∩ screen c, l.color⟩) ⟨h, hp⟩]
  · rw [Layer.onto_of_notMem h,
      Layer.onto_of_notMem (l := ⟨l.region ∩ screen c, l.color⟩) fun hm => h hm.1]

/-- **What a run of calls shows.** On every canvas and with every coordinates, no call writes
outside the buffer, and what is on the canvas afterwards is the picture before it with the layers of
the calls on top, in their order; a place that is not on the canvas reads white. -/
theorem draw_shows (commands : List Command) (c : Canvas) :
    ∃ c', draw commands c = some c' ∧ c'.w = c.w ∧ c'.h = c.h ∧
      ∀ x y, getPixel c' x y =
        if c.OnScreen x y then stack (commands.map Command.layer) (view c) (x, y)
        else colorWhite := by
  induction commands generalizing c with
  | nil =>
    refine ⟨c, rfl, rfl, rfl, fun x y => ?_⟩
    by_cases h : c.OnScreen x y
    · rw [if_pos h]
      rfl
    · rw [if_neg h, getPixel_of_not_onScreen h]
  | cons command commands ih =>
    obtain ⟨d, hcall, hpaints⟩ := command.call_paints c
    obtain ⟨c', hdraw, hw, hh, hpixels⟩ := ih d
    refine ⟨c', ?_, hw.trans hpaints.w_eq, hh.trans hpaints.h_eq, fun x y => ?_⟩
    · rw [draw, List.foldlM_cons, hcall]
      exact hdraw
    · rw [hpixels x y]
      have hscreen := onScreen_congr ⟨hpaints.w_eq, hpaints.h_eq⟩ x y
      by_cases h : c.OnScreen x y
      · rw [if_pos (hscreen.mpr h), if_pos h, List.map_cons, Painting.stack_cons, hpaints.view_eq]
        apply Painting.stack_congr
        intro _
        exact onto_inter_screen (p := (x, y)) h (view c)
      · rw [if_neg fun h' => h (hscreen.mp h'), if_neg h]

/-! ## Blending -/

/-- The red channel of a colour. -/
def red (color : UInt16) : ℕ := color.toNat >>> 11 &&& 0x1f

/-- The green channel of a colour. -/
def green (color : UInt16) : ℕ := color.toNat >>> 5 &&& 0x3f

/-- The blue channel of a colour. -/
def blue (color : UInt16) : ℕ := color.toNat &&& 0x1f

section Blend

variable {back fore a : ℕ}

/-- The blend of a channel lies between its two values. -/
theorem blendChannel_between (back fore : ℕ) (ha : a ≤ 255) :
    min back fore ≤ blendChannel back fore a ∧ blendChannel back fore a ≤ max back fore := by
  obtain ⟨b, hb⟩ : ∃ b, b + a = 255 := ⟨255 - a, by omega⟩
  have hba : 255 - a = b := by omega
  have hsum : ∀ m : ℕ, m * b + m * a = m * 255 := fun m => by rw [← mul_add, hb]
  have hlow := hsum (min back fore)
  have hhigh := hsum (max back fore)
  rw [blendChannel, hba]
  constructor
  · rw [Nat.le_div_iff_mul_le (by decide), ← hlow]
    gcongr
    · exact min_le_left back fore
    · exact min_le_right back fore
  · apply Nat.div_le_of_le_mul
    rw [mul_comm 255, ← hhigh]
    gcongr
    · exact le_max_left back fore
    · exact le_max_right back fore

theorem blendChannel_zero (back fore : ℕ) : blendChannel back fore 0 = back := by
  rw [blendChannel, mul_zero, add_zero, Nat.sub_zero, Nat.mul_div_cancel _ (by decide)]

theorem blendChannel_full (back fore : ℕ) : blendChannel back fore 255 = fore := by
  rw [blendChannel, Nat.sub_self, mul_zero, zero_add, Nat.mul_div_cancel _ (by decide)]

end Blend

/-- A colour from channels that fit. -/
theorem channels_pack {r g b : ℕ} (hr : r < 32) (hg : g < 64) (hb : b < 32) :
    red (UInt16.ofNat (r <<< 11 ||| g <<< 5 ||| b)) = r ∧
      green (UInt16.ofNat (r <<< 11 ||| g <<< 5 ||| b)) = g ∧
      blue (UInt16.ofNat (r <<< 11 ||| g <<< 5 ||| b)) = b := by
  have hpack : r <<< 11 ||| g <<< 5 ||| b = r * 2048 + g * 32 + b := by
    have hlow : g <<< 5 ||| b = g * 32 + b := by
      rw [← Nat.shiftLeft_add_eq_or_of_lt hb, Nat.shiftLeft_eq]
    have hlt : g * 32 + b < 2 ^ 11 := by omega
    rw [Nat.or_assoc, hlow, ← Nat.shiftLeft_add_eq_or_of_lt hlt, Nat.shiftLeft_eq, ← add_assoc]
  have hval : (UInt16.ofNat (r <<< 11 ||| g <<< 5 ||| b)).toNat = r * 2048 + g * 32 + b := by
    rw [hpack, UInt16.toNat_ofNat']
    exact Nat.mod_eq_of_lt (by omega)
  have hmask5 : ∀ n : ℕ, n &&& 0x1f = n % 32 := fun n => Nat.and_two_pow_sub_one_eq_mod n 5
  have hmask6 : ∀ n : ℕ, n &&& 0x3f = n % 64 := fun n => Nat.and_two_pow_sub_one_eq_mod n 6
  rw [red, green, blue, hval, hmask5, hmask5, hmask6, Nat.shiftRight_eq_div_pow,
    Nat.shiftRight_eq_div_pow]
  omega

theorem channel_lt (color : UInt16) : red color < 32 ∧ green color < 64 ∧ blue color < 32 :=
  ⟨Nat.lt_succ_of_le Nat.and_le_right, Nat.lt_succ_of_le Nat.and_le_right,
    Nat.lt_succ_of_le Nat.and_le_right⟩

/-- The channels of a blend. -/
theorem channels_blend565 (back fore : UInt16) (a : UInt8) :
    red (blend565 back fore a) = blendChannel (red back) (red fore) a.toNat ∧
      green (blend565 back fore a) = blendChannel (green back) (green fore) a.toNat ∧
      blue (blend565 back fore a) = blendChannel (blue back) (blue fore) a.toNat := by
  have ha : a.toNat ≤ 255 := Nat.le_of_lt_succ a.toNat_lt
  obtain ⟨hbr, hbg, hbb⟩ := channel_lt back
  obtain ⟨hfr, hfg, hfb⟩ := channel_lt fore
  have hr := (blendChannel_between (red back) (red fore) ha).2
  have hg := (blendChannel_between (green back) (green fore) ha).2
  have hb := (blendChannel_between (blue back) (blue fore) ha).2
  exact channels_pack (hr.trans_lt (max_lt hbr hfr)) (hg.trans_lt (max_lt hbg hfg))
    (hb.trans_lt (max_lt hbb hfb))

/-- Colours with the same channels are the same. -/
theorem eq_of_channels {color color' : UInt16} (hr : red color = red color')
    (hg : green color = green color') (hb : blue color = blue color') : color = color' := by
  have hmask5 : ∀ n : ℕ, n &&& 0x1f = n % 32 := fun n => Nat.and_two_pow_sub_one_eq_mod n 5
  have hmask6 : ∀ n : ℕ, n &&& 0x3f = n % 64 := fun n => Nat.and_two_pow_sub_one_eq_mod n 6
  rw [red, red, hmask5, hmask5, Nat.shiftRight_eq_div_pow, Nat.shiftRight_eq_div_pow] at hr
  rw [green, green, hmask6, hmask6, Nat.shiftRight_eq_div_pow, Nat.shiftRight_eq_div_pow] at hg
  rw [blue, blue, hmask5, hmask5] at hb
  have h := color.toNat_lt
  have h' := color'.toNat_lt
  apply UInt16.toNat_inj.mp
  omega

theorem blend565_zero (back fore : UInt16) : blend565 back fore 0 = back := by
  obtain ⟨hr, hg, hb⟩ := channels_blend565 back fore 0
  exact eq_of_channels (hr.trans (blendChannel_zero _ _)) (hg.trans (blendChannel_zero _ _))
    (hb.trans (blendChannel_zero _ _))

theorem blend565_full (back fore : UInt16) : blend565 back fore 255 = fore := by
  obtain ⟨hr, hg, hb⟩ := channels_blend565 back fore 255
  exact eq_of_channels (hr.trans (blendChannel_full _ _)) (hg.trans (blendChannel_full _ _))
    (hb.trans (blendChannel_full _ _))

/-- **A blend, channel by channel**: no channel runs over into another, each lies between those of
the two colours, no coverage leaves the background and full coverage the foreground. -/
theorem blend565_channels (back fore : UInt16) (a : UInt8) :
    (red (blend565 back fore a) = blendChannel (red back) (red fore) a.toNat ∧
      green (blend565 back fore a) = blendChannel (green back) (green fore) a.toNat ∧
      blue (blend565 back fore a) = blendChannel (blue back) (blue fore) a.toNat) ∧
    (∀ channel ∈ [red, green, blue],
      min (channel back) (channel fore) ≤ channel (blend565 back fore a) ∧
        channel (blend565 back fore a) ≤ max (channel back) (channel fore)) ∧
    blend565 back fore 0 = back ∧ blend565 back fore 255 = fore := by
  have ha : a.toNat ≤ 255 := Nat.le_of_lt_succ a.toNat_lt
  obtain ⟨hr, hg, hb⟩ := channels_blend565 back fore a
  refine ⟨⟨hr, hg, hb⟩, ?_, blend565_zero back fore, blend565_full back fore⟩
  simp only [List.forall_mem_cons, hr, hg, hb]
  exact ⟨blendChannel_between _ _ ha, blendChannel_between _ _ ha, blendChannel_between _ _ ha,
    List.forall_mem_nil _⟩

end CnCanvas
