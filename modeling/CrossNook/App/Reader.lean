import CrossNook.Sync.Client
import CrossNook.Text.Loop
import CrossNook.UI.Book

/-!
# The Reader and the user interface around it

The position layer of the EPUB reader (`reader/reader.cpp`) over an engine that lays out a
document, and the part of the user interface (`ui/ui.c`) that tells which book is open.

## Main definitions

* `Reader.Engine`: what the reader asks of the layout engine
* `Reader.getPosition`, `Reader.gotoPosition`: `cn_reader_get_position`, `cn_reader_goto_position`
* `Ui`: the state of `cn_ui` that these operations read

## Main results

* `Reader.gotoPosition_eq`: a position that is refused does not move the reader, and one that is
  accepted resolves to the very token that was given
* `Ui.ends_readerGetPosition`: a capture changes no file and makes no request
-/

/-- `cn_reader`: the document, as the engine holds it while it is open, and the page numbers. -/
structure Reader (D : Type) where
  doc : Option D
  pages : ℤ
  page : ℤ

namespace Reader

open Crash Kosync
open ProgressStore (Record)

/-- What the reader asks of CREngine. `D` are the views of a document and `P` the pointers into
it; a pointer is written as UTF-8. Only `goToBookmark` moves a view. -/
structure Engine (D P : Type) where
  getBookmark : D → Option P
  toString : P → List UInt8
  toPoint : D → P → ℤ
  getFullHeight : D → ℤ
  createXPointer : D → List UInt8 → Option P
  getBookmarkPage : D → P → ℤ
  goToBookmark : D → P → D
  getCurPage : D → ℤ

/-! ## Positions -/

/-- `position_location_length`. -/
def positionLocationLength (location : Option (List UInt8)) : Option ℕ :=
  match location with
  | none => none
  | some location =>
    if location.head? ≠ some 0x2f then none
    else if ProgressStore.positionMaxBytes < location.length then none
    else some location.length

/-- One turn of the loop of `position_utf8_valid`, which past the ASCII characters is that of the
progress store. -/
def positionUtf8Step : List UInt8 → Option (List UInt8)
  | [] => none
  | c :: text => if c ≤ 0x7f then some text else ProgressStore.utf8Step (c :: text)

/-- `position_utf8_valid`. -/
def positionUtf8Valid (text : List UInt8) : Bool :=
  Utf8.validates positionUtf8Step text.length text

/-- `INT_MAX`. -/
def intMax : ℕ := 2 ^ 31 - 1

/-- One turn of the loop of `position_decimal_valid`. -/
def decimalStep (value : ℕ) (c : UInt8) : Option ℕ :=
  if ¬ Bytes.IsDigit c then none
  else
    let digit := Bytes.digitValue c
    if (intMax - digit) / 10 < value then none else some (value * 10 + digit)

/-- `position_decimal_valid` on the text between `start` and `end`. -/
def positionDecimalValid (text : List UInt8) : Bool :=
  text ≠ [] ∧ (text.foldlM decimalStep 0).isSome

/-- One turn of the loop of `position_indexes_valid`. -/
def indexStep : List UInt8 → Loop.Turn (List UInt8) Bool
  | [] => .done true
  | c :: text =>
    if c = 0x5b then
      let digits := Bytes.scan (· ≠ 0x5d) text
      match Bytes.skip (· ≠ 0x5d) text with
      | [] => .done false
      | _ :: rest => if positionDecimalValid digits then .next rest else .done false
    else if (c = 0x2f ∨ c = 0x2e) ∧ text.head?.any fun next => Bytes.IsDigit next then
      if positionDecimalValid (Bytes.scan Bytes.IsDigit text) then
        .next (Bytes.skip Bytes.IsDigit text)
      else .done false
    else .next text

/-- `position_indexes_valid`. -/
def positionIndexesValid (text : List UInt8) : Bool := Loop.loop indexStep false List.length text

/-- The checks of a location. -/
def locationValid (location : List UInt8) : Bool :=
  (positionLocationLength (some location)).isSome ∧ positionUtf8Valid location ∧
    positionIndexesValid location

variable {D P : Type} (E : Engine D P)

/-- `resolve_position`: the document and the pointer that the position stands for. -/
def resolvePosition (r : Reader D) (position : Record) : Option (D × P) :=
  match r.doc, position.location with
  | some doc, some location =>
    if ¬ locationValid location then none
    else
      match E.createXPointer doc location with
      | none => none
      | some pointer =>
        if E.toString pointer ≠ location then none
        else if E.toPoint doc pointer < 0 then none
        else some (doc, pointer)
  | _, _ => none

/-- The conversion of a 64-bit integer to `int`. -/
def toInt (n : ℤ) : ℤ := n.bmod (2 ^ 32)

/-- The progress of a captured position. -/
def captureProgress (doc : D) (pointer : P) : ℤ :=
  let y := E.toPoint doc pointer
  let fullHeight := E.getFullHeight doc
  if 0 < fullHeight ∧ 0 ≤ y then
    let progress10000 := toInt (y * 10000 / fullHeight)
    if progress10000 < 0 then 0 else if 10000 < progress10000 then 10000 else progress10000
  else -1

/-- `cn_reader_get_position`: its return value and the position that it leaves. -/
def getPosition (r : Reader D) (position : Record) : Env (ℤ × Record) :=
  match r.doc with
  | none => return (-1, position)
  | some doc =>
    match E.getBookmark doc with
    | none => return (-1, position)
    | some pointer =>
      let location := E.toString pointer
      if ¬ locationValid location then return (-1, position)
      else do
        if ← sys Posix.malloc then return (0, ⟨some location, captureProgress E doc pointer⟩)
        else return (-1, position)

/-- `cn_reader_goto_position`: its return value and the reader. -/
def gotoPosition (r : Reader D) (position : Record) : ℤ × Reader D :=
  match resolvePosition E r position with
  | none => (-1, r)
  | some (doc, pointer) =>
    let page := E.getBookmarkPage doc pointer
    if page < 0 ∨ r.pages ≤ page then (-1, r)
    else
      let doc := E.goToBookmark doc pointer
      (0, { r with doc := some doc, page := E.getCurPage doc })

theorem resolvePosition_eq_some {r : Reader D} {position : Record} {doc : D} {pointer : P}
    (h : resolvePosition E r position = some (doc, pointer)) :
    r.doc = some doc ∧ position.location = some (E.toString pointer) := by
  unfold resolvePosition at h
  cases hdoc : r.doc with
  | none => simp [hdoc] at h
  | some doc' =>
    cases hlocation : position.location with
    | none => simp [hdoc, hlocation] at h
    | some location =>
      simp only [hdoc, hlocation] at h
      cases hpointer : E.createXPointer doc' location with
      | none => simp [hpointer] at h
      | some pointer' =>
        simp only [hpointer] at h
        split_ifs at h with hvalid hcanonical
        obtain ⟨rfl, rfl⟩ := Prod.mk.inj (Option.some.inj h)
        exact ⟨rfl, by rw [not_not.mp hcanonical]⟩

/-- **A position that is refused does not move the reader**, and one that is accepted moves it to
a bookmark whose token is the location of the position. -/
theorem gotoPosition_eq (r : Reader D) (position : Record) :
    gotoPosition E r position = (-1, r) ∨
      ∃ doc pointer, r.doc = some doc ∧ position.location = some (E.toString pointer) ∧
        gotoPosition E r position =
          (0, { r with
            doc := some (E.goToBookmark doc pointer)
            page := E.getCurPage (E.goToBookmark doc pointer) }) := by
  unfold gotoPosition
  cases h : resolvePosition E r position with
  | none => exact .inl rfl
  | some resolved =>
    obtain ⟨doc, pointer⟩ := resolved
    obtain ⟨hdoc, hlocation⟩ := resolvePosition_eq_some E h
    dsimp only
    split_ifs
    · exact .inl rfl
    · exact .inr ⟨doc, pointer, hdoc, hlocation, rfl⟩

end Reader

/-! ## The user interface -/

/-- The part of `cn_ui` that says which book is open: the library and the index of the selected
book, and the reader. -/
structure Ui (D : Type) where
  state : UiState
  lib : Option (List Book)
  sel : ℤ
  reader : Option (Reader D)

namespace Ui

open Crash Kosync
open ProgressStore (Record)

variable {D P : Type}

/-- `cn_ui_selected_book`. -/
def selectedBook (ui : Ui D) : Option Book :=
  match ui.lib with
  | none => none
  | some books => if ui.sel < 0 ∨ books.length ≤ ui.sel then none else books[ui.sel.toNat]?

/-- `cn_ui_reader_pages`. -/
def readerPages (ui : Ui D) : ℤ :=
  match ui.reader with
  | none => 0
  | some r => if r.doc.isSome then r.pages else 0

/-- `cn_ui_reader_get_position`. -/
def readerGetPosition (E : Reader.Engine D P) (ui : Ui D) (position : Record) :
    Env (ℤ × Record) :=
  match ui.reader with
  | none => return (-1, position)
  | some r => r.getPosition E position

/-- `cn_ui_reader_goto_position`. -/
def readerGotoPosition (E : Reader.Engine D P) (ui : Ui D) (position : Record) : ℤ × Ui D :=
  match ui.reader with
  | none => (-1, ui)
  | some r =>
    let (code, r) := r.gotoPosition E position
    (code, { ui with reader := some r })

/-- **A position that is refused does not move the reader.** -/
theorem readerGotoPosition_of_failed (E : Reader.Engine D P) {ui : Ui D} {position : Record}
    (h : (ui.readerGotoPosition E position).1 ≠ 0) : (ui.readerGotoPosition E position).2 = ui := by
  obtain ⟨state, lib, sel, reader⟩ := ui
  cases reader with
  | none => rfl
  | some r =>
    unfold readerGotoPosition at h ⊢
    rcases r.gotoPosition_eq E position with hr | ⟨doc, pointer, -, -, hr⟩
    · simp only [hr]
    · simp [hr] at h

/-- **A capture changes no file and makes no request.** -/
theorem ends_readerGetPosition (E : Reader.Engine D P) (ui : Ui D) (position : Record) (w : World) :
    Ends (ui.readerGetPosition E position) w (fun _ w' => Quiet w w' ∧ w'.events = w.events)
      fun w' => Quiet w w' ∧ w'.events = w.events := by
  unfold readerGetPosition
  cases ui.reader with
  | none => exact ⟨.refl w, rfl⟩
  | some r =>
    dsimp only
    unfold Reader.getPosition
    cases r.doc with
    | none => exact ⟨.refl w, rfl⟩
    | some doc =>
      dsimp only
      cases E.getBookmark doc with
      | none => exact ⟨.refl w, rfl⟩
      | some pointer =>
        dsimp only
        by_cases hvalid : ¬ Reader.locationValid (E.toString pointer)
        · rw [if_pos hvalid]
          exact ⟨.refl w, rfl⟩
        rw [if_neg hvalid, ends_bind]
        refine (ends_sys_keeps Posix.keepsFiles_malloc).mono ?_ fun _ h => h
        rintro (_ | _) w' h
        · exact h
        · exact h

end Ui
