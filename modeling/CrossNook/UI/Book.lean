import Mathlib.Data.List.Basic

/-!
# Screens and books

The screens of the user interface (`ui/ui.h`) and the books of its library (`library/library.h`).

## Main definitions

* `UiState`: `cn_ui_state`
* `Book`: `cn_book`
-/

/-- `cn_ui_state`. -/
inductive UiState
  | home
  | readerTest
  | library
  | selectedBook
  | reader
  | accountSetup
  deriving DecidableEq, Repr

/-- `cn_book_format`. -/
inductive BookFormat
  | epub
  | fb2
  | txt
  deriving DecidableEq, Repr

/-- `cn_book`, without the names it is shown under. -/
structure Book where
  path : Option (List UInt8)
  format : BookFormat
  deriving DecidableEq, Repr
