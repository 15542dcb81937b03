import CrossNook.App.ReaderPages
import CrossNook.Graphics.Raster
import CrossNook.System.Crash
import CrossNook.UI.RenderFit
import CrossNook.UI.ValueWindow

/-!
# Drawing the screens

How the screens are drawn (`cn_ui_render` in `ui/ui.c`): calls of the canvas and of the text renderer,
one after the other, on a canvas whose old content is still there. A drawing that reads outside an
array does not return. FreeType and the pages of the reader are parameters.

## Main definitions

* `Look`: what the screens are drawn with
* `Drawing`: programs on a canvas with the text renderer
* `CnUi.renderHome`, `CnUi.renderReader`, `CnUi.renderLibrary`, `CnUi.renderSelected`,
  `CnUi.renderBook`, `CnUi.renderAccount`, `CnUi.renderSyncModal`: the screens
* `CnUi.uiRender`: `cn_ui_render`
-/

open Bytes (ascii)
open CnCanvas (Canvas colorWhite colorBlack colorGray)
open CnText (Surface Colors Font)
open Crash (Prog)

/-- A canvas with the text renderer: its statistics, and the size that is set. -/
structure Sheet where
  surface : Surface
  px : ℤ

namespace Sheet

/-- The sheet with another canvas. -/
def withCanvas (s : Sheet) (c : Canvas) : Sheet := { s with surface := { s.surface with canvas := c } }

/-- The canvas has the size of the screen. -/
def Full (s : Sheet) : Prop := s.surface.canvas.w = 600 ∧ s.surface.canvas.h = 800

instance (s : Sheet) : Decidable s.Full := inferInstanceAs (Decidable (_ ∧ _))

end Sheet

/-- What the screens are drawn with: the ascent that FreeType tells for a size, which is missing
where the size cannot be set, the font at a size, the title of the book at an index of the library,
and the pixels of the page that a reader shows, with the reader after they were drawn. -/
structure Look (R : Type) where
  ascender : ℤ → Option ℤ
  font : ℤ → Font
  title : ℕ → List UInt8
  page : R → (ℕ → UInt16) × R

/-- Programs on a sheet. One that reads outside an array does not return. -/
abbrev Drawing (α : Type) : Type := Prog Sheet α

namespace Drawing

variable {R : Type} (look : Look R)

/-- A call of the canvas. -/
def call (command : CnCanvas.Command) : Drawing Unit := fun s =>
  match command.call s.surface.canvas with
  | none => (none, s)
  | some c => (some (), s.withCanvas c)

/-- `cn_canvas_width`. -/
def width : Drawing ℤ := fun s => (some s.surface.canvas.w, s)

/-- `cn_canvas_height`. -/
def height : Drawing ℤ := fun s => (some s.surface.canvas.h, s)

/-- `cn_text_set_size`. A size that cannot be set leaves the one that was. -/
def setSize (px : ℤ) : Drawing ℤ := fun s =>
  match look.ascender px with
  | none => (some (-1), s)
  | some ascent => (some ascent, { s with px })

/-- `cn_text_measure` at the size that is set. -/
def measure : Drawing (ℕ → ℤ) := fun s => (some (look.font s.px).measure, s)

/-- `cn_text_render`: the baseline below what was drawn. -/
def text (utf8 : List UInt8) (baseline l r : ℤ) (colors : Colors) : Drawing ℤ := fun s =>
  match CnText.renderOn (look.font s.px) s.surface l r baseline colors utf8 with
  | none => (none, s)
  | some printed => (some printed.baseline, { s with surface := printed.surface })

/-- A value that is missing where an array was left. -/
def known {α : Type} : Option α → Drawing α
  | none => Prog.kill
  | some a => pure a

/-- A part that is drawn only where `c` holds. -/
def when (c : Prop) [Decidable c] (d : Drawing Unit) : Drawing Unit := if c then d else pure ()

/-- `if (a > 0) y += a`. -/
def below (y a : ℤ) : ℤ := if 0 < a then y + a else y

end Drawing

namespace CnUi

open Drawing

variable {R P : Type}

/-! ## Texts that fit -/

/-- Black on white. -/
def plain : Colors := ⟨colorBlack, colorWhite⟩

/-- `render_fit` up to its calls of the renderer: the text that it draws, or nothing. -/
def fitted (measure : ℕ → ℤ) (avail : ℤ) (text : List UInt8) : Option (Option (List UInt8)) :=
  let (ell, dots) := ellipsis measure
  let decoded := CnText.utf8Decode text maxLibCp
  match sumWidths measure decoded.out decoded.n 0 0 with
  | none => none
  | some total =>
    if total ≤ avail then some (some text)
    else if avail < ell then some none
    else
      match fitFrom measure avail ell decoded.out decoded.n 0 0 with
      | none => none
      | some k => (fillBuf decoded.out k dots).map some

section Screens

variable (look : Look R)

/-- A text that may be left out. -/
def renderShown (baseline l r : ℤ) (colors : Colors) : Option (List UInt8) → Drawing Unit
  | none => pure ()
  | some shown => do
    let _ ← Drawing.text look shown baseline l r colors
    return ()

/-- `render_fit` on the canvas. -/
def renderFitOn (text : Option (List UInt8)) (baseline l r : ℤ) (colors : Colors) :
    Drawing Unit := do
  let w ← width
  let avail := w - r - l
  let measure ← measure look
  match text with
  | none => pure ()
  | some text =>
    if avail ≤ 0 then pure ()
    else do
      let shown ← known (fitted measure avail text)
      renderShown look baseline l r colors shown

/-- The left edge of a text in the middle of a box. -/
def centered (x0 x1 textWidth : ℤ) : ℤ :=
  let x := x0 + ((x1 - x0 + 1) - textWidth).tdiv 2
  if x < x0 then x0 else x

/-- `render_centered`. -/
def renderCentered (text : List UInt8) (baseline x0 x1 : ℤ) (colors : Colors) : Drawing Unit := do
  let measure ← measure look
  let textWidth ← known (utf8TextWidth measure (some text))
  let w ← width
  let _ ← Drawing.text look text baseline (centered x0 x1 textWidth) (w - x1 - 1) colors
  return ()

/-- A size set, and a text drawn with its first baseline that much further down: the ascent and the
baseline below the text. -/
def heading (px y : ℤ) (text : List UInt8) : Drawing (ℤ × ℤ) := do
  let a ← setSize look px
  let y ← Drawing.text look text (below y a) 32 32 plain
  return (a, y)

/-! ## The screens without an account -/

/-- `draw_marker`. -/
def drawMarker (ui : CnUi R) : Drawing Unit :=
  if ui.markX < 0 ∨ ui.markY < 0 then pure ()
  else do
    call (.fillRect (ui.markX - 6) (ui.markY - 6) (ui.markX + 6) (ui.markY + 6) colorBlack)
    call (.fillRect (ui.markX - 1) (ui.markY - 1) (ui.markX + 1) (ui.markY + 1) colorWhite)

/-- A button of the home screen, with its label on a baseline. -/
def homeButton (y0 y1 baseline : ℤ) (label : List UInt8) : Drawing Unit := do
  call (.outlineRect 48 y0 340 y1 colorBlack)
  let _ ← Drawing.text look label baseline (32 + 16) 32 plain
  return ()

/-- `render_home`. -/
def renderHome (ui : CnUi R) : Drawing Unit := do
  call (.clear colorWhite)
  let name ← heading look 48 16 (ascii "CrossNook")
  let sub ← heading look 24 (name.2 + 14) (ascii "UI Core")
  let a := sub.1
  homeButton look 210 252 (210 + (252 - 210) / 2 + a.tdiv 2 - 6) (ascii "[ Open reader test ]")
  -- only when a library is attached
  when (ui.lib.isSome = true)
    (homeButton look 300 342 (300 + (342 - 300) / 2 + a.tdiv 2 - 6) (ascii "[ Open library ]"))
  homeButton look 420 464 (438 + a.tdiv 2 - 6) (ascii "[ Sync account ]")
  drawMarker ui

/-- `CYR_SAMPLE`. -/
def cyrSample : List UInt8 :=
  [0xd0, 0xa1, 0xd1, 0x8a, 0xd0, 0xb5, 0xd1, 0x88, 0xd1, 0x8c, 0x20,
    0xd0, 0xb5, 0xd1, 0x89, 0xd1, 0x91, 0x20,
    0xd1, 0x8d, 0xd1, 0x82, 0xd0, 0xb8, 0xd1, 0x85, 0x20,
    0xd0, 0xbc, 0xd1, 0x8f, 0xd0, 0xb3, 0xd0, 0xba, 0xd0, 0xb8, 0xd1, 0x85, 0x20,
    0xd1, 0x84, 0xd1, 0x80, 0xd0, 0xb0, 0xd0, 0xbd, 0xd1, 0x86, 0xd1, 0x83, 0xd0, 0xb7,
    0xd1, 0x81, 0xd0, 0xba, 0xd0, 0xb8, 0xd1, 0x85, 0x20,
    0xd0, 0xb1, 0xd1, 0x83, 0xd0, 0xbb, 0xd0, 0xbe, 0xd0, 0xba, 0x2c, 0x20,
    0xd0, 0xb4, 0xd0, 0xb0, 0x20,
    0xd0, 0xb2, 0xd1, 0x8b, 0xd0, 0xbf, 0xd0, 0xb5, 0xd0, 0xb9, 0x20,
    0xd1, 0x87, 0xd0, 0xb0, 0xd1, 0x8e, 0x2e]

/-- The text of `page_buf`, as much of it as fits. -/
def pageText (page : ℤ) : List UInt8 := (ascii "Page " ++ Reader.signedDecimal page).take 31

/-- `render_reader`, the screen of the reader test. -/
def renderReader (ui : CnUi R) : Drawing Unit := do
  call (.clear colorWhite)
  let name ← heading look 36 16 (ascii "Reader test")
  let page ← heading look 24 (name.2 + 14) (pageText ui.page)
  let _ ← heading look 24 (page.2 + 14) cyrSample
  let a ← setSize look 14
  let h ← height
  let _ ← Drawing.text look (ascii "NEXT/PREV page  BACK/HOME home  PWR>2s exit") (h - a - 4) 32 32
    ⟨colorGray, colorWhite⟩
  drawMarker ui

/-- A row of `render_library_rows`. -/
def renderLibraryRow (ui : CnUi R) (lib : Library) (asc : ℤ) (r : ℕ) : Drawing Unit := do
  let w ← width
  let idx := ui.top + r
  let ry0 := libRowTop + r * libRowH
  -- the loop ends behind the last book
  if lib.count ≤ idx then pure ()
  else if idx < 0 then Prog.kill
  else if idx = ui.sel then do
    call (.fillRect 32 ry0 (w - 32 - 1) (ry0 + libRowH - 1) colorGray)
    renderFitOn look (some (look.title idx.toNat)) (below (ry0 + 6) asc) 32 32
      ⟨colorBlack, colorGray⟩
  else renderFitOn look (some (look.title idx.toNat)) (below (ry0 + 6) asc) 32 32 plain

/-- The text of `footer`, as much of it as fits: an en dash between the rows that are shown. -/
def footerText (ui : CnUi R) (lib : Library) : List UInt8 :=
  let last := if lib.count < ui.top + libRows then lib.count else ui.top + libRows
  (Reader.signedDecimal (ui.top + 1) ++ [0xe2, 0x80, 0x93] ++ Reader.signedDecimal last ++
    ascii " of " ++ Reader.signedDecimal lib.count).take 63

/-- `render_library` of a library with books, below the headings. -/
def renderShelf (ui : CnUi R) (lib : Library) : Drawing Unit := do
  let a ← setSize look 24
  (List.range libRows.toNat).forM (renderLibraryRow look ui lib a)
  let _ ← setSize look 14
  let _ ← Drawing.text look (footerText ui lib) libFooterY 32 32 ⟨colorGray, colorWhite⟩
  return ()

/-- The library of the screen, if it has books. -/
def shelf (ui : CnUi R) : Option Library := ui.lib.filter fun lib => lib.count ≠ 0

/-- `render_library`. -/
def renderLibrary (ui : CnUi R) : Drawing Unit := do
  call (.clear colorWhite)
  let name ← heading look 48 16 (ascii "CrossNook")
  let sub ← heading look 24 (name.2 + 14) (ascii "Library")
  match ui.shelf with
  | none => do
    let _ ← heading look 24 (sub.2 + 18) (ascii "No books found.")
    return ()
  | some lib => renderShelf look ui lib

/-- `cn_ui_selected_book`, with its index. -/
def selectedBook (ui : CnUi R) : Option (ℕ × Book) :=
  match ui.lib with
  | none => none
  | some lib =>
    if ui.sel < 0 ∨ lib.count ≤ ui.sel then none
    else (lib.books[ui.sel.toNat]?).map fun book => (ui.sel.toNat, book)

/-- `cn_book_format_name`. -/
def bookFormatName : BookFormat → List UInt8
  | .epub => ascii "EPUB"
  | .fb2 => ascii "FB2"
  | .txt => ascii "TXT"

/-- What `render_selected` shows of the selected book, below `y`. -/
def renderBookInfo (y : ℤ) : Option (ℕ × Book) → Drawing Unit
  | none => pure ()
  | some (index, book) => do
    let a ← setSize look 48
    let y := below (y + 16) a
    renderFitOn look (some (look.title index)) y 32 32 plain
    let format ← heading look 24 (y + 14) (bookFormatName book.format)
    let a ← setSize look 20
    renderFitOn look book.path (below (format.2 + 14) a) 32 32 ⟨colorGray, colorWhite⟩

/-- `render_selected`. -/
def renderSelected (ui : CnUi R) : Drawing Unit := do
  call (.clear colorWhite)
  let name ← heading look 36 16 (ascii "Selected book")
  renderBookInfo look name.2 ui.selectedBook
  let w ← width
  call (.outlineRect 48 440 (w - 32 - 1) 482 colorBlack)
  let a ← setSize look 24
  let _ ← Drawing.text look (ascii "[Reader not implemented]")
    (440 + (482 - 440) / 2 + (below 0 a).tdiv 2 - 6) (32 + 8) 32 ⟨colorGray, colorWhite⟩
  return ()

/-- A canvas with an image in place of its pixels. -/
def withImage (c : Canvas) (image : ℕ → UInt16) : Canvas where
  w := c.w
  h := c.h
  pixels := (List.range (c.w * c.h)).map image
  length_pixels := (List.length_map image).trans List.length_range

/-- `cn_reader_render` into the pixels of the canvas, which has the size of the screen or is left
alone. -/
def readerRender (r : R) : Drawing R := fun s =>
  if ¬ s.Full then (some r, s)
  else (some (look.page r).2, s.withCanvas (withImage s.surface.canvas (look.page r).1))

/-- `render_book`: the reader after its page was drawn. -/
def renderBook (ops : ReaderOps R P) (ui : CnUi R) : Drawing (Option R) :=
  match ui.reader.filter ops.isOpen with
  | none => do
    call (.clear colorWhite)
    return ui.reader
  | some r => do
    let r ← readerRender look r
    return some r

/-! ## The account screen -/

/-- `account_messages`. -/
def accountMessages : List (List UInt8) :=
  [ascii "Account status not checked.", ascii "No account. Enter details and submit.",
    ascii "Setup incomplete. Resume only with saved URL and device name.",
    ascii "Incomplete local account. No automatic repair is available.",
    ascii "Account saved but disabled. Retry activation or explicitly correct.",
    ascii "Sync is enabled.", ascii "Local account is corrupt or unsupported.",
    ascii "Account storage is unreadable.", ascii "Credentials were rejected. Correct explicitly.",
    ascii "Could not reach or use sync service. Check connection and retry.",
    ascii "Storage result uncertain. Recheck local state before proceeding.",
    ascii "Setup failed. Recheck local state.", ascii "Sync enabled, but profile unavailable.",
    ascii "Input is invalid. Correct fields and enter password again.",
    ascii "Working...", ascii "Activation complete. Sync is enabled.",
    ascii "Sync is already enabled.", ascii "Field is full.", ascii "Field input is invalid.",
    ascii "Review correction, then select Continue again to confirm replacement."]

/-- The label of a field. -/
def fieldLabel : Fin 4 → List UInt8
  | 0 => ascii "Base URL"
  | 1 => ascii "Device name"
  | 2 => ascii "Username"
  | 3 => ascii "Password"

/-- The first line of a field. -/
def valueTop (i : Fin 4) : ℤ := fieldTop + i * fieldH

/-- The frame of a field of `render_account`, with its label: the baseline of its value. -/
def renderFrame (ui : CnUi R) (i : Fin 4) : Drawing ℤ := do
  when (ui.accountFocus = i) (call (.fillRect 32 (valueTop i) (32 + 5) (valueTop i + 62) colorBlack))
  call (.hline (32 + 8) 567 (valueTop i + 63) colorBlack)
  let _ ← setSize look 18
  let w ← width
  let _ ← Drawing.text look (fieldLabel i) (valueTop i + 19) (32 + 12) (w - 567 - 1) plain
  let ascent ← setSize look 22
  return below (valueTop i + 24 + (39 - 22) / 2) ascent

/-- The caret of a field in focus. -/
def renderCaret (i : Fin 4) (caretX : ℤ) : Drawing Unit := do
  call (.vline caretX (valueTop i + 29) (valueTop i + 58) colorBlack)
  when (caretX < 567) (call (.vline (caretX + 1) (valueTop i + 29) (valueTop i + 58) colorBlack))

/-- The window of a value, drawn on a baseline. -/
def renderWindow (value : List UInt8) (win : ValueWindow) (y : ℤ) : Drawing Unit := do
  let window ← known (copyWindow value win.start (win.stop - win.start))
  let w ← width
  let _ ← Drawing.text look window y (32 + 12) (w - 567 - 1) plain
  return ()

/-- A field of `render_account` whose text is shown: the window that is kept of it. The entries of
the table of stops behind the count are never read. -/
def renderValue (ui : CnUi R) (i : Fin 3) : Drawing ValueWindow := do
  let field := ui.accountFields i.castSucc
  let y ← renderFrame look ui i.castSucc
  let measure ← measure look
  let win ← known (accountValueWindow (fun b => measure b.toNat) field (32 + 12) 567
    (List.replicate accountValueStops 0))
  when (win.stop - win.start ≠ 0) (renderWindow look field.bytes win y)
  when (ui.accountFocus = i) (renderCaret i.castSucc win.caretX)
  return win

/-- `password_mask`. -/
def passwordMask (ui : CnUi R) : List UInt8 :=
  List.replicate (min ui.accountPasswordLength passwordMax) 0x2a

/-- The field of the password. -/
def renderPassword (ui : CnUi R) : Drawing Unit := do
  let y ← renderFrame look ui (Fin.last 3)
  let w ← width
  when (ui.passwordMask ≠ [])
    (renderFitOn look (some ui.passwordMask) y (32 + 12) (w - 567 - 1) plain)

/-- The colours of a box that may be the one in focus. -/
def boxColors (focused : Bool) : Colors :=
  if focused then ⟨colorWhite, colorBlack⟩ else ⟨colorBlack, colorWhite⟩

/-- A box with a label in its middle, at a size. -/
def renderBox (x0 y0 x1 y1 : ℤ) (px : ℤ) (label : List UInt8) (colors : Colors) : Drawing Unit := do
  call (.fillRect x0 y0 x1 y1 colors.bg)
  call (.outlineRect x0 y0 x1 y1 colorBlack)
  let ascent ← setSize look px
  renderCentered look label (below (y0 + ((y1 - y0 + 1) - px).tdiv 2) ascent) x0 x1 colors

/-- `key.label` of a key. -/
def keyLabel (field : TextInput) : TextKey → Option (List UInt8)
  | .character c => if c = 0x20 then some (ascii "SPACE") else none
  | .shift => some (ascii "SHIFT")
  | .symbols => some (if field.symbols then ascii "ABC" else ascii "#+=")
  | .backspace => some (ascii "DEL")
  | .cursorLeft => some [0xe2, 0x86, 0x90]
  | .cursorRight => some [0xe2, 0x86, 0x92]
  | .done => some (ascii "DONE")

/-- The character of a key, as a text. -/
def keyCharacter : TextKey → List UInt8
  | .character c => [c]
  | _ => []

/-- The text on a key. -/
def keyText (field : TextInput) (key : TextKey) : List UInt8 :=
  (keyLabel field key).getD (keyCharacter key)

/-- The size of the text on a key. -/
def keyPx : TextKey → ℤ
  | .cursorLeft | .cursorRight => 24
  | .character _ => 20
  | _ => 15

/-- The key is drawn dark: it is the one selected while the keyboard is in use, or a shift that
holds. -/
def keyDark (ui : CnUi R) (field : TextInput) (row column : ℕ) (key : TextKey) : Bool :=
  ui.accountKeyboardActive ∧ field.selection = row * TextInput.selectionStride + column ∨
    key = .shift ∧ field.shifted

/-- A key of `render_account`. -/
def renderKey (ui : CnUi R) (field : TextInput) (row column : ℕ) : Drawing Unit :=
  match field.keyAt row column, keyboardGeometry field row column with
  | some key, some (x, width) =>
    renderBox look x (keyboardTop + row * 54) (x + width) (keyboardTop + row * 54 + 48) (keyPx key)
      (keyText field key) (boxColors (keyDark ui field row column key))
  | _, _ => pure ()

/-- The places of the keyboard, row by row. -/
def keyPlaces : List (ℕ × ℕ) :=
  (List.range TextInput.keyRows).flatMap fun row =>
    (List.range TextInput.keyColumns).map fun column => (row, column)

/-- The field that the keyboard is for: the one in focus, and the last while the focus is on the
button. -/
def keyboardField (ui : CnUi R) : TextInput := ui.accountFields (ui.focusedField.getD (Fin.last 3))

/-- The form of `render_account`: what is kept of the values. -/
def renderForm (ui : CnUi R) : Drawing (Fin 3 → ValueWindow) := do
  let url ← renderValue look ui 0
  let device ← renderValue look ui 1
  let username ← renderValue look ui 2
  renderPassword look ui
  renderBox look 72 398 527 456 22 (ascii "Continue") (boxColors (ui.accountFocus = 4))
  keyPlaces.forM fun place => renderKey look ui ui.keyboardField place.1 place.2
  let _ ← setSize look 16
  let _ ← Drawing.text look
    (if ui.accountKeyboardActive then ascii "NEXT/PREV key  MENU activate  BACK form"
      else ascii "NEXT/PREV focus  MENU keyboard  BACK form/home") 782 32 32 plain
  return fun i => if i = 0 then url else if i = 1 then device else username

/-- The label of an option. -/
def optionLabel : OptionKind → List UInt8
  | .back => ascii "Back"
  | .recheck => ascii "Recheck"
  | .activate => ascii "Retry activation"
  | .correct => ascii "Correct saved account"

/-- `account_action_geometry`. -/
def accountActionGeometry (count option : ℕ) : Option (ℤ × ℤ × ℤ × ℤ) :=
  if count < 1 ∨ 2 < count ∨ count ≤ option then none
  else some (if option = 0 then 32 else 316, if count = 1 then 600 else 190,
    if option = 0 then 284 else 568, if count = 1 then 662 else 252)

/-- An option of `render_account`. -/
def renderOption (ui : CnUi R) (option : ℕ) : Drawing Unit :=
  match ui.accountOptions[option]?, accountActionGeometry ui.accountOptions.length option with
  | some kind, some (x0, y0, x1, y1) =>
    renderBox look x0 y0 x1 y1 18 (optionLabel kind) (boxColors (ui.accountActionFocus = option))
  | _, _ => pure ()

/-- The options of `render_account`. -/
def renderOptions (ui : CnUi R) : Drawing Unit := do
  (List.range ui.accountOptions.length).forM (renderOption look ui)
  let _ ← setSize look 16
  let _ ← Drawing.text look (ascii "NEXT/PREV choose  MENU confirm  BACK/HOME leave")
    (if ui.accountOptions.length = 1 then 746 else 300) 32 32 plain
  return ()

/-- `render_account`: what is kept of the values of the form. -/
def renderAccount (ui : CnUi R) : Drawing (Option (Fin 3 → ValueWindow)) := do
  call (.clear colorWhite)
  let _ ← heading look 40 16 (ascii "Sync account")
  let _ ← setSize look 18
  let message ← known accountMessages[ui.accountMessage]?
  renderFitOn look (some message) 108 32 32 plain
  if ui.accountEditing then do
    let windows ← renderForm look ui
    return some windows
  else do
    renderOptions look ui
    return none

/-! ## The overlay -/

/-- The label of a choice. -/
def choiceLabel : Fin 3 → List UInt8
  | 0 => ascii "Use this device"
  | 1 => ascii "Use remote progress"
  | 2 => ascii "Cancel"

/-- The text of a feedback. -/
def feedbackText : SyncFeedback → List UInt8
  | .working => ascii "Working..."
  | .remoteUpdated => ascii "Remote updated"
  | .remoteApplied => ascii "Remote applied"
  | .remoteMissing => ascii "Remote progress missing"
  | .uploadPossible => ascii "Upload may have succeeded; check first"
  | .stale => ascii "Position changed; sync again"
  | .mismatch => ascii "Disk/Reader mismatch; save blocked"
  | .failed => ascii "Sync choice failed; check and retry manually"

/-- A row of choices in `render_sync_modal`. -/
def renderChoice (ui : CnUi R) (i : Fin 3) : Drawing Unit := do
  let y := syncRowTop + i * syncRowH
  when (ui.syncSelection = i)
    (call (.fillRect (32 + 8) y (600 - 32 - 9) (y + syncRowH - 2) colorGray))
  let _ ← Drawing.text look (choiceLabel i) (y + 39) (32 + 24) (32 + 24)
    ⟨colorBlack, if ui.syncSelection = i then colorGray else colorWhite⟩
  return ()

/-- A text on the overlay. -/
def renderNote (text : List UInt8) (y : ℤ) : Drawing Unit := do
  let _ ← Drawing.text look text y (32 + 16) (32 + 16) plain
  return ()

/-- `render_sync_modal`. -/
def renderSyncModal (ui : CnUi R) : Drawing Unit := do
  call (.fillRect 32 176 (600 - 32 - 1) 552 colorWhite)
  call (.outlineRect 32 176 (600 - 32 - 1) 552 colorBlack)
  let _ ← setSize look 24
  renderNote look (if ui.syncModal = .choices then ascii "Sync conflict" else ascii "Sync result") 230
  if ui.syncModal = .feedback then do
    renderNote look (feedbackText ui.syncFeedback) 325
    renderNote look (ascii "BACK/HOME: return to Reader") 490
  else do
    (List.finRange 3).forM (renderChoice look ui)
    let _ ← setSize look 16
    renderNote look (ascii "NEXT/PREV: select  MENU: confirm  BACK: cancel") 513

/-! ## All of it -/

/-- What a drawing changes in the user interface: what is kept of the values of the form, and the
reader. -/
structure Drawn (R : Type) where
  windows : Option (Fin 3 → ValueWindow)
  reader : Option R

/-- The screen of `cn_ui_render`. -/
def renderScreen (ops : ReaderOps R P) (ui : CnUi R) : Drawing (Drawn R) :=
  match ui.state with
  | .accountSetup => do
    let windows ← renderAccount look ui
    return ⟨windows, ui.reader⟩
  | .library => do
    renderLibrary look ui
    return ⟨none, ui.reader⟩
  | .selectedBook => do
    renderSelected look ui
    return ⟨none, ui.reader⟩
  | .reader => do
    let reader ← renderBook look ops ui
    return ⟨none, reader⟩
  | .readerTest => do
    renderReader look ui
    return ⟨none, ui.reader⟩
  | .home => do
    renderHome look ui
    return ⟨none, ui.reader⟩

/-- The screen of `cn_ui_render` with the overlay. -/
def picture (ops : ReaderOps R P) (ui : CnUi R) : Drawing (Drawn R) := do
  let drawn ← renderScreen look ops ui
  when (ui.state = .reader ∧ ui.syncModal ≠ .none) (renderSyncModal look ui)
  return drawn

/-- The user interface after a drawing. -/
def keep (ui : CnUi R) (drawn : Drawn R) : CnUi R :=
  match drawn.windows with
  | none => { ui with reader := drawn.reader }
  | some windows =>
    { ui with
      reader := drawn.reader
      accountValueStart := fun i => (windows i).start
      accountValueStopX := fun i => (windows i).stopX.take (windows i).count }

/-- `cn_ui_render`. -/
def uiRender (ops : ReaderOps R P) (ui : CnUi R) : Drawing (CnUi R) := do
  let drawn ← picture look ops ui
  return ui.keep drawn

end Screens

end CnUi
