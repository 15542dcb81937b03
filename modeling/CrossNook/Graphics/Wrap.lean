import CrossNook.Graphics.Text
import CrossNook.Text.Filling

/-!
# Word wrap

What `cn_text_render` (`graphics/text.c`) draws: the lines it breaks a text into, each on a baseline
of its own, and the glyphs of a line at the places of the pen. FreeType is a parameter: the advances
that it measures and those of the glyphs that it renders.

## Main definitions

* `CnText.Face`: what the renderer asks of FreeType
* `CnText.renderCps`: `render_cps`
* `CnText.render`: `cn_text_render`, with the baseline

## Main results

* `CnText.render_texts`: the lines drawn are those of `CnText.textRender`
* `CnText.textRender_filled`: the lines are filled with the decoded codepoints
* `CnText.word_wrap`: what is drawn for a text of at most 512 characters
-/

namespace CnText

open Filling (total Fits Longest Breaks FirstLine Filled fits_append_singleton)
open Loop (Turn)

/-! ## Drawing -/

/-- What the renderer asks of FreeType: `cn_text_measure`, the advance of a glyph that is rendered,
if it can be, and `cn_text_line_advance`. -/
structure Face where
  measure : ℕ → ℤ
  renderedAdvance : ℕ → Option ℤ
  lineAdvance : ℤ

/-- A glyph that is drawn, with the pen in front of it. -/
structure Glyph where
  cp : ℕ
  penX : ℤ
  baseline : ℤ
  deriving DecidableEq

/-- One codepoint in `render_cps`: the pen behind it, and the glyphs so far. -/
def renderCp (face : Face) (baseline leftMargin : ℤ) (s : ℤ × List Glyph) (cp : ℕ) :
    ℤ × List Glyph :=
  if cp = 0x20 ∧ s.1 = leftMargin then s
  else
    match face.renderedAdvance cp with
    | none => (s.1 + face.measure cp, s.2)
    | some advance => (s.1 + advance, s.2 ++ [⟨cp, s.1, baseline⟩])

/-- `render_cps`. -/
def renderCps (face : Face) (cps : List ℕ) (baseline leftMargin : ℤ) : ℤ × List Glyph :=
  cps.foldl (renderCp face baseline leftMargin) (leftMargin, [])

/-- A line that is drawn. -/
structure Line where
  cps : List ℕ
  baseline : ℤ
  glyphs : List Glyph
  deriving DecidableEq

/-- What `cn_text_render` has drawn, with its count of lines and the baseline of the caller. -/
structure Page where
  drawn : List Line
  lines : ℕ
  baseline : ℤ
  deriving DecidableEq

/-- Nothing drawn. -/
def Page.blank (baseline : ℤ) : Page := ⟨[], 0, baseline⟩

/-- A line drawn, and the baseline moved on. -/
def Page.draw (face : Face) (leftMargin : ℤ) (page : Page) (cps : List ℕ) : Page where
  drawn := page.drawn ++
    [⟨cps, page.baseline, (renderCps face cps page.baseline leftMargin).2⟩]
  lines := page.lines + 1
  baseline := page.baseline + face.lineAdvance

/-- The codepoints of the lines. -/
def Page.texts (page : Page) : List (List ℕ) := page.drawn.map Line.cps

/-- One line in `cn_text_render`: where the next one starts, and the page so far. -/
def pageTurn (face : Face) (room leftMargin : ℤ) (cps : List ℕ) (n : ℕ) (s : ℕ × Page) :
    Turn (ℕ × Page) (Option Page) :=
  let (p, page) := s
  if n ≤ p then .done (some page)
  else
    match scanLine face.measure room cps (n - p) p 0 (-1) with
    | none => .done none
    | some (i, lastSpace) =>
      match readCps cps p (lineEnd n p i lastSpace) with
      | none => .done none
      | some line => .next (lineEnd n p i lastSpace, page.draw face leftMargin line)

/-- `cn_text_render` of a text that is not `NULL`. `none` is a read of an entry of its array that
has not been decoded. -/
def render (face : Face) (width leftMargin rightMargin baseline : ℤ) (text : List UInt8) :
    Option Page :=
  let decoded := utf8Decode text maxCp
  let maxX := width - rightMargin
  Loop.loop (pageTurn face (maxX - leftMargin) leftMargin decoded.out decoded.n) none
    (fun s => decoded.n - s.1) (0, .blank baseline)

/-! ## The lines of a page -/

section Page

variable {face : Face} {room leftMargin : ℤ} {cps : List ℕ} {n : ℕ}

@[simp] theorem Page.texts_blank (baseline : ℤ) : (Page.blank baseline).texts = [] := rfl

@[simp] theorem Page.texts_draw (page : Page) (line : List ℕ) :
    (page.draw face leftMargin line).texts = page.texts ++ [line] := by
  rw [texts, draw, List.map_append]
  rfl

/-- A turn on a page is a turn on its lines. -/
theorem renderTurn_texts (face : Face) (room leftMargin : ℤ) (cps : List ℕ) (n : ℕ) (s : ℕ × Page) :
    renderTurn face.measure room cps n (s.1, s.2.texts) =
      (pageTurn face room leftMargin cps n s).map (fun s => (s.1, s.2.texts))
        (Option.map Page.texts) := by
  obtain ⟨p, page⟩ := s
  unfold renderTurn pageTurn
  dsimp only
  by_cases hp : n ≤ p
  · rw [if_pos hp, if_pos hp]
    rfl
  rw [if_neg hp, if_neg hp]
  cases hscan : scanLine face.measure room cps (n - p) p 0 (-1) with
  | none => rfl
  | some stop =>
    obtain ⟨i, lastSpace⟩ := stop
    dsimp only
    cases hread : readCps cps p (lineEnd n p i lastSpace) with
    | none => rfl
    | some line =>
      dsimp only [Turn.map]
      rw [Page.texts_draw]

theorem shrinks_pageTurn : Loop.Shrinks (pageTurn face room leftMargin cps n) fun s => n - s.1 := by
  intro s s' h
  have hturn := renderTurn_texts face room leftMargin cps n s
  rw [h] at hturn
  exact shrinks_renderTurn n _ _ hturn

/-- **The lines drawn** are those that the text is broken into. -/
theorem render_texts (face : Face) (width leftMargin rightMargin baseline : ℤ)
    (text : List UInt8) :
    (render face width leftMargin rightMargin baseline text).map Page.texts =
      textRender face.measure width leftMargin rightMargin text :=
  (Loop.loop_map shrinks_pageTurn (shrinks_renderTurn _)
    (renderTurn_texts _ _ _ _ _) (0, .blank baseline)).symm

/-- A page is drawn line by line. -/
theorem texts_foldl_draw {start : Page} {lines : List (List ℕ)} {page : Page}
    (h : page = lines.foldl (Page.draw face leftMargin) start) :
    page.drawn = start.drawn ++ lines.mapIdx (fun i line =>
        ⟨line, start.baseline + i * face.lineAdvance,
          (renderCps face line (start.baseline + i * face.lineAdvance) leftMargin).2⟩) ∧
      page.lines = start.lines + lines.length ∧
      page.baseline = start.baseline + lines.length * face.lineAdvance := by
  subst h
  induction lines generalizing start with
  | nil => simp
  | cons line lines ih =>
    obtain ⟨hdrawn, hlines, hbaseline⟩ := @ih (start.draw face leftMargin line)
    have hnext (i : ℕ) : start.baseline + face.lineAdvance + i * face.lineAdvance =
        start.baseline + ((i + 1 : ℕ) : ℤ) * face.lineAdvance := by
      push_cast
      ring
    rw [List.foldl_cons, hdrawn, hlines, hbaseline]
    refine ⟨?_, ?_, ?_⟩
    · rw [List.mapIdx_cons, Page.draw, List.append_assoc, List.singleton_append]
      simp [hnext]
    · rw [Page.draw, List.length_cons]
      dsimp only
      omega
    · rw [Page.draw, List.length_cons]
      exact hnext lines.length

/-- What a turn can do: leave the array, end with the page, or draw one line on it. -/
theorem pageTurn_cases (s : ℕ × Page) :
    pageTurn face room leftMargin cps n s = .done none ∨
      pageTurn face room leftMargin cps n s = .done (some s.2) ∨
      ∃ p line, pageTurn face room leftMargin cps n s =
        .next (p, s.2.draw face leftMargin line) := by
  obtain ⟨p, page⟩ := s
  unfold pageTurn
  dsimp only
  by_cases hp : n ≤ p
  · rw [if_pos hp]
    exact .inr (.inl rfl)
  rw [if_neg hp]
  cases hscan : scanLine face.measure room cps (n - p) p 0 (-1) with
  | none => exact .inl rfl
  | some stop =>
    obtain ⟨i, lastSpace⟩ := stop
    dsimp only
    cases hread : readCps cps p (lineEnd n p i lastSpace) with
    | none => exact .inl rfl
    | some line => exact .inr (.inr ⟨_, line, rfl⟩)

/-- The page at the end is drawn line by line, when the page at a turn is. -/
theorem drawn_pageLoop (start : Page) (s : ℕ × Page)
    (hs : s.2 = s.2.texts.foldl (Page.draw face leftMargin) start) :
    ∀ page ∈ Loop.loop (pageTurn face room leftMargin cps n) none (fun s => n - s.1) s,
      page = page.texts.foldl (Page.draw face leftMargin) start := by
  -- a turn gives up, ends the loop, or draws one line more
  refine Loop.loop_induction shrinks_pageTurn (P := fun s r =>
    s.2 = s.2.texts.foldl (Page.draw face leftMargin) start →
      ∀ page ∈ r, page = page.texts.foldl (Page.draw face leftMargin) start) ?_ ?_ s hs
  · intro s r h hpage page hmem
    rcases pageTurn_cases s with hturn | hturn | ⟨p, line, hturn⟩
    · rw [hturn] at h
      obtain rfl := Turn.done.inj h
      cases hmem
    · rw [hturn] at h
      obtain rfl := Turn.done.inj h
      obtain rfl := Option.some.inj hmem
      exact hpage
    · rw [hturn] at h
      cases h
  · intro s s' r h ih hpage
    rcases pageTurn_cases s with hturn | hturn | ⟨p, line, hturn⟩
    · rw [hturn] at h
      cases h
    · rw [hturn] at h
      cases h
    · rw [hturn] at h
      obtain rfl := Turn.next.inj h
      refine ih ?_
      dsimp only
      rw [Page.texts_draw, List.foldl_append, ← hpage]
      rfl

end Page

/-! ## Filling the lines -/

section Fill

variable {measure : ℕ → ℤ} {room : ℤ} {cps : List ℕ}

/-- `last_space` after the scan of `pre`, which starts at `p`. -/
def LastSpace (p : ℕ) (pre : List ℕ) (lastSpace : ℤ) : Prop :=
  (0x20 ∉ pre ∧ lastSpace = -1) ∨
    ∃ u v, pre = u ++ 0x20 :: v ∧ 0x20 ∉ v ∧ lastSpace = p + u.length

theorem LastSpace.concat {p : ℕ} {pre : List ℕ} {lastSpace : ℤ} (h : LastSpace p pre lastSpace)
    (cp : ℕ) :
    LastSpace p (pre ++ [cp]) (if cp = 0x20 then ((p + pre.length : ℕ) : ℤ) else lastSpace) := by
  by_cases hcp : cp = 0x20
  · rw [if_pos hcp, hcp]
    exact .inr ⟨pre, [], rfl, List.not_mem_nil, by push_cast; rfl⟩
  · rw [if_neg hcp]
    rcases h with ⟨hnot, rfl⟩ | ⟨u, v, rfl, hnot, rfl⟩
    · exact .inl ⟨by simp [hnot, Ne.symm hcp], rfl⟩
    · exact .inr ⟨u, v ++ [cp], by simp, by simp [hnot, Ne.symm hcp], rfl⟩

/-- **The scan takes what fits**, and remembers the last space of it. -/
theorem scanLine_spec (before pre rest : List ℕ) {lastSpace : ℤ}
    (hcps : cps = before ++ pre ++ rest) (hfits : Fits measure room pre)
    (hspace : LastSpace before.length pre lastSpace) :
    ∃ pre' post lastSpace', pre ++ rest = pre' ++ post ∧
      scanLine measure room cps rest.length (before.length + pre.length) (total measure pre)
        lastSpace = some (before.length + pre'.length, lastSpace') ∧
      Fits measure room pre' ∧ (∀ x v, post = x :: v → ¬ Fits measure room (pre' ++ [x])) ∧
      LastSpace before.length pre' lastSpace' := by
  -- on the text that is left; the scan carries the width of what it has taken
  induction rest generalizing pre lastSpace with
  | nil =>
    refine ⟨pre, [], lastSpace, rfl, rfl, hfits, ?_, hspace⟩
    intro x v h
    cases h
  | cons cp rest ih =>
    have hcp : cps[before.length + pre.length]? = some cp := by
      rw [hcps, ← List.length_append, Filling.getElem?_behind]
    -- the test of the loop, as the next codepoint not fitting
    have hstep : Fits measure room (pre ++ [cp]) ↔
        ¬ (0 < total measure pre ∧ room < total measure pre + measure cp) :=
      fits_append_singleton pre cp
    rw [List.length_cons, scanLine, hcp]
    dsimp only
    by_cases hstop : 0 < total measure pre ∧ room < total measure pre + measure cp
    · refine ⟨pre, cp :: rest, lastSpace, rfl, if_pos hstop, hfits, ?_, hspace⟩
      intro x v h
      obtain rfl := (List.cons.inj h).1
      rw [hstep, not_not]
      exact hstop
    · have hnext := ih (pre ++ [cp]) (by rw [hcps]; simp) (hstep.mpr hstop) (hspace.concat cp)
      rw [if_neg hstop]
      rw [List.append_assoc, List.singleton_append, List.length_append, List.length_singleton,
        Filling.total_concat, ← Nat.add_assoc] at hnext
      exact hnext

/-- A line that the scan has not left empty ends where it is cut, and not by the rule that ensures
progress. -/
theorem lineEnd_eq {n p i e : ℕ} {lastSpace : ℤ} (he : p < e)
    (hcut : (if i < n ∧ (p : ℤ) < lastSpace ∧ lastSpace + 1 < i then (lastSpace + 1).toNat else i) =
      e) : lineEnd n p i lastSpace = e := by
  unfold lineEnd
  dsimp only
  rw [hcut, if_neg (by omega)]

/-- **Where a line ends** that starts at `p`, when the scan has taken `pre`: behind the last space
that is not its first codepoint, if more follows. -/
theorem lineEnd_spec (p : ℕ) {pre : List ℕ} (post : List ℕ) {lastSpace : ℤ} (hne : pre ≠ [])
    (hspace : LastSpace p pre lastSpace) :
    ∃ line, line ≠ [] ∧
      lineEnd (p + (pre ++ post).length) p (p + pre.length) lastSpace = p + line.length ∧
      (post = [] → line = pre) ∧ (post ≠ [] → Breaks 0x20 pre line) := by
  have hpos : 0 < pre.length := List.length_pos_iff.mpr hne
  -- the line is all that fits unless the condition for a cut holds
  have hwhole (hnocut : post = [] ∨ lastSpace ≤ p ∨ (p : ℤ) + pre.length ≤ lastSpace + 1) :
      lineEnd (p + (pre ++ post).length) p (p + pre.length) lastSpace = p + pre.length := by
    refine lineEnd_eq (by omega) (if_neg ?_)
    rintro ⟨hmore, hbehind, hbefore⟩
    rw [List.length_append] at hmore
    rcases hnocut with rfl | hle | hle
    · rw [List.length_nil] at hmore
      omega
    · omega
    · push_cast at hbefore
      omega
  by_cases hpost : post = []
  · exact ⟨pre, hne, hwhole (.inl hpost), fun _ => rfl, fun h => absurd hpost h⟩
  rcases hspace with ⟨hnot, rfl⟩ | ⟨u, v, rfl, hnot, rfl⟩
  · exact ⟨pre, hne, hwhole (.inr (.inl (by omega))), fun h => absurd h hpost,
      fun _ => .whole fun h => hnot (List.mem_of_mem_tail h)⟩
  cases u with
  | nil =>
    -- the only space is the first codepoint
    exact ⟨_, hne, hwhole (.inr (.inl (by simp))), fun h => absurd h hpost, fun _ => .whole hnot⟩
  | cons cp u =>
    refine ⟨(cp :: u) ++ [0x20], by simp, ?_, fun h => absurd h hpost,
      fun _ => .behind (List.cons_ne_nil cp u) hnot⟩
    by_cases hv : v = []
    · -- the space is the last codepoint that fits
      subst hv
      refine hwhole (.inr (.inr ?_))
      simp only [List.length_append, List.length_cons, List.length_nil]
      push_cast
      omega
    · have hv' : 0 < v.length := List.length_pos_iff.mpr hv
      have hpost' : 0 < post.length := List.length_pos_iff.mpr hpost
      refine lineEnd_eq ?_ ((if_pos ?_).trans ?_)
      · rw [List.length_append]
        simp
      · simp only [List.length_append, List.length_cons]
        refine ⟨by omega, by omega, by push_cast; omega⟩
      · simp only [List.length_append, List.length_cons, List.length_nil]
        omega

/-- **The next line**, where codepoints are left. -/
theorem exists_firstLine (room : ℤ) (hmeasure : ∀ cp, 0 ≤ measure cp) {before text : List ℕ}
    (hcps : cps = before ++ text) (htext : text ≠ []) :
    ∃ line rest, text = line ++ rest ∧ line ≠ [] ∧ FirstLine measure 0x20 room line rest ∧
      ∀ done, renderTurn measure room cps cps.length (before.length, done) =
        .next (before.length + line.length, done ++ [line]) := by
  have hlength : cps.length = before.length + text.length := by rw [hcps, List.length_append]
  have hnothing : LastSpace before.length [] (-1) := .inl ⟨List.not_mem_nil, rfl⟩
  have hempty : Fits measure room [] := Filling.fits_nil
  have hcps' : cps = before ++ [] ++ text := by rw [hcps, List.append_nil]
  obtain ⟨pre, post, lastSpace, hsplit, hscan, hfits, hstops, hspace⟩ :=
    scanLine_spec before [] text hcps' hempty hnothing
  rw [List.nil_append] at hsplit
  -- the first codepoint always fits
  have hne : pre ≠ [] := by
    rintro rfl
    rw [List.nil_append] at hsplit
    cases text with
    | nil => exact htext rfl
    | cons cp text =>
      refine hstops cp text hsplit.symm ((fits_append_singleton [] cp).mpr ?_)
      rintro ⟨hpos, -⟩
      exact absurd hpos (by simp)
  have hlongest : Longest (Fits measure room) text pre := by
    rw [hsplit]
    exact Filling.longest_of_stops (Filling.closed_fits hmeasure room) hfits hstops
  obtain ⟨line, hline, hend, hlast, hbroken⟩ :=
    lineEnd_spec before.length post hne hspace
  have hprefix : line <+: pre := by
    by_cases hpost : post = []
    · rw [hlast hpost]
    · exact (hbroken hpost).isPrefix
  obtain ⟨v, rfl⟩ := hprefix
  refine ⟨line, v ++ post, by rw [hsplit, List.append_assoc], hline, ?_, fun done => ?_⟩
  · rw [hsplit, List.append_assoc] at hlongest
    by_cases hpost : post = []
    · obtain rfl : v = [] := by simpa using hlast hpost
      rw [List.append_nil] at hlongest
      exact .last (by rw [hpost]; rfl) hlongest
    · refine .broken hlongest (fun hall => hpost ?_) (hbroken hpost)
      rw [← List.append_assoc] at hall
      exact List.append_right_eq_self.mp hall.symm
  · have hpos : 0 < text.length := List.length_pos_iff.mpr htext
    have hread : readCps cps before.length (before.length + line.length) = some line := by
      rw [readCps, if_pos (by rw [hlength, hsplit]; simp), Nat.add_sub_cancel_left, hcps,
        List.drop_left, hsplit, List.append_assoc, List.take_left]
    have hleft : cps.length - before.length = text.length := by
      rw [hlength, Nat.add_sub_cancel_left]
    rw [← hsplit, ← hlength] at hend
    rw [List.length_nil, Nat.add_zero, Filling.total_nil, ← hleft] at hscan
    rw [renderTurn, if_neg (by omega), hscan]
    dsimp only
    rw [hend, hread]

/-- **The lines are filled with the codepoints.** -/
theorem renderLoop_filled (hmeasure : ∀ cp, 0 ≤ measure cp) (s : ℕ × List (List ℕ))
    {before text : List ℕ} (hcps : cps = before ++ text) (hs : s.1 = before.length) :
    ∃ lines, Loop.loop (renderTurn measure room cps cps.length) none (fun s => cps.length - s.1) s =
      some (s.2 ++ lines) ∧ Filled measure 0x20 room text lines := by
  -- one turn for each line; a turn ends the loop exactly where no text is left
  refine Loop.loop_induction (shrinks_renderTurn cps.length) (P := fun s r => ∀ before text,
    cps = before ++ text → s.1 = before.length → ∃ lines, r = some (s.2 ++ lines) ∧
      Filled measure 0x20 room text lines) ?_ ?_ s before text hcps hs
  · rintro ⟨p, done⟩ r h before text hcps hp
    dsimp only at hp ⊢
    subst hp
    by_cases htext : text = []
    · subst htext
      have hend : cps.length ≤ before.length := by rw [hcps, List.append_nil]
      rw [renderTurn, if_pos hend] at h
      obtain rfl := Turn.done.inj h
      exact ⟨[], by rw [List.append_nil], .nil⟩
    · obtain ⟨line, rest, -, -, -, hturn⟩ :=
        exists_firstLine room hmeasure hcps htext
      rw [hturn] at h
      cases h
  · rintro ⟨p, done⟩ s' r h ih before text hcps hp
    dsimp only at hp ⊢
    subst hp
    by_cases htext : text = []
    · subst htext
      have hend : cps.length ≤ before.length := by rw [hcps, List.append_nil]
      rw [renderTurn, if_pos hend] at h
      cases h
    · obtain ⟨line, rest, rfl, hne, hline, hturn⟩ :=
        exists_firstLine room hmeasure hcps htext
      rw [hturn] at h
      obtain rfl := Turn.next.inj h
      obtain ⟨lines, rfl, hfilled⟩ := ih (before ++ line) rest (by rw [hcps, List.append_assoc])
        List.length_append.symm
      exact ⟨line :: lines, by rw [List.append_assoc]; rfl, .cons hne hline hfilled⟩

end Fill

/-! ## Word wrap -/

section Wrap

variable {text : List UInt8} {n : ℕ}

/-- **The lines of a text** are filled with its codepoints. -/
theorem textRender_filled {measure : ℕ → ℤ} (hmeasure : ∀ cp, 0 ≤ measure cp)
    (h : Characters text n) (hn : n ≤ maxCp) (width leftMargin rightMargin : ℤ) :
    ∃ lines, textRender measure width leftMargin rightMargin text = some lines ∧
      Filled measure 0x20 (width - rightMargin - leftMargin) (utf8Decode text maxCp).out lines := by
  obtain ⟨hcount, hout⟩ := utf8Decode_characters h maxCp
  have hlength : (utf8Decode text maxCp).n = (utf8Decode text maxCp).out.length := by omega
  unfold textRender
  dsimp only
  rw [hlength]
  exact renderLoop_filled hmeasure (0, []) (List.nil_append _).symm rfl

theorem characters_decoded (text : List UInt8) : Characters text (utf8Decode text maxCp).n := by
  obtain ⟨n, h⟩ := exists_characters text
  rwa [(utf8Decode_characters h maxCp).1]

/-- The available width, between the margins of the canvas. -/
abbrev available (width leftMargin rightMargin : ℤ) : ℤ := width - rightMargin - leftMargin

/-- **Word wrap.** A text of at most 512 characters is drawn in lines that partition its codepoints.
A line is no wider than the available width (and takes up nothing where that is negative), or has
exactly one codepoint with an advance. It is the longest prefix of what is left that fits; where that
is not all, it is cut behind the last space of the prefix, if a codepoint other than the first is one.
The baseline moves on once for every line. -/
theorem word_wrap {face : Face} (hmeasure : ∀ cp, 0 ≤ face.measure cp) (h : Characters text n)
    (hn : n ≤ 512) (width leftMargin rightMargin baseline : ℤ) :
    ∃ page, render face width leftMargin rightMargin baseline text = some page ∧
      page.texts.flatten = (utf8Decode text maxCp).out ∧ (utf8Decode text maxCp).out.length = n ∧
      (∀ line ∈ page.texts, line ≠ [] ∧
        (total face.measure line ≤ max (available width leftMargin rightMargin) 0 ∨
          line.countP (fun cp => 0 < face.measure cp) = 1)) ∧
      (∀ before line after, page.texts = before ++ line :: after → ∃ pre,
        Longest (Fits face.measure (available width leftMargin rightMargin))
          (line ++ after.flatten) pre ∧
        (after = [] ↔ pre = line ++ after.flatten) ∧
        (after ≠ [] → if 0x20 ∈ pre.tail
          then ∃ u v, pre = u ++ 0x20 :: v ∧ 0x20 ∉ v ∧ line = u ++ [0x20]
          else line = pre)) ∧
      page.drawn = page.texts.mapIdx (fun i line => ⟨line, baseline + i * face.lineAdvance,
        (renderCps face line (baseline + i * face.lineAdvance) leftMargin).2⟩) ∧
      page.lines = page.texts.length ∧
      page.baseline = baseline + page.lines * face.lineAdvance := by
  obtain ⟨lines, hlines, hfilled⟩ :=
    textRender_filled hmeasure h hn width leftMargin rightMargin
  rw [← render_texts face width leftMargin rightMargin baseline text] at hlines
  obtain ⟨page, hpage, rfl⟩ := Option.map_eq_some_iff.mp hlines
  obtain ⟨-, hout⟩ := utf8Decode_characters h maxCp
  -- what is drawn follows from the texts of the lines alone
  have hdrawn : page = page.texts.foldl (Page.draw face leftMargin) (.blank baseline) :=
    drawn_pageLoop (.blank baseline) (0, .blank baseline) rfl page hpage
  obtain ⟨hglyphs, hcount, hbaseline⟩ := texts_foldl_draw hdrawn
  have hcount' : page.lines = page.texts.length := hcount.trans (Nat.zero_add _)
  refine ⟨page, hpage, hfilled.flatten_eq, hout.trans (Nat.min_eq_left hn), ?_, ?_,
    hglyphs.trans (List.nil_append _), hcount', ?_⟩
  · intro line hline
    obtain ⟨before, after, hsplit⟩ := List.append_of_mem hline
    exact ⟨hfilled.ne_nil line hline, (hfilled.firstLine hsplit).total_le_or_countP hmeasure⟩
  · intro before line after hsplit
    -- a line is never empty, so it is the last exactly where no text is behind it
    have hafter : after.flatten = [] ↔ after = [] :=
      Filling.flatten_eq_nil_iff_of_ne_nil fun line' hline' =>
        hfilled.ne_nil line' (by rw [hsplit]; simp [hline'])
    obtain ⟨pre, hlongest, hlast, hbroken⟩ := (hfilled.firstLine hsplit).exists_longest
    exact ⟨pre, hlongest, hafter.symm.trans hlast, fun h => (hbroken (mt hafter.mp h)).cut⟩
  · rw [hbaseline, hcount']
    rfl

/-- The text "ab cd" in a face whose glyphs are ten pixels wide, between margins that leave room for
four of them. -/
theorem word_wrap_ab_cd :
    ∃ page, render ⟨fun _ => 10, fun _ => some 10, 20⟩ 60 10 10 30 [0x61, 0x62, 0x20, 0x63, 0x64] =
        some page ∧
      page.texts.flatten = [0x61, 0x62, 0x20, 0x63, 0x64] ∧
      page.baseline = 30 + page.lines * 20 := by
  obtain ⟨page, hpage, hflatten, -, -, -, -, -, hbaseline⟩ :=
    @word_wrap _ _ ⟨fun _ => 10, fun _ => some 10, 20⟩ (fun _ => show (0 : ℤ) ≤ 10 by decide)
      (characters_decoded [0x61, 0x62, 0x20, 0x63, 0x64]) (by decide +kernel) 60 10 10 30
  exact ⟨page, hpage, hflatten.trans (by decide +kernel), hbaseline⟩

/-- Margins wider than the canvas, and a codepoint without an advance: the line of it measures more
than the available width, which is negative, and has no codepoint with an advance. -/
theorem wider_than_negative_width :
    Characters [0x61] 1 ∧
      (render ⟨fun _ => 0, fun _ => some 0, 20⟩ 10 20 0 30 [0x61]).map Page.texts =
        some [[0x61]] ∧
      ¬ total (fun _ => 0) [0x61] ≤ available 10 20 0 ∧
      [0x61].countP (fun _ : ℕ => (0 : ℤ) < 0) ≠ 1 := by
  refine ⟨characters_decoded [0x61], by decide +kernel, by decide, by decide⟩

end Wrap

end CnText
