import CrossNook.App.AccountSetupUi
import CrossNook.Platform.Display
import CrossNook.Platform.InputPolls
import CrossNook.UI.Redraw

/-!
# The program of the account screen

The program that sets up an account on the device (`app/account-setup-ui.c`). It waits for an event,
hands it to the screens, carries out what they ask for, and draws the screen again where it has to.
The arguments are read before; the fonts and the devices that it opens are parameters.

## Main definitions

* `AccountSetupUi.init`: `cn_account_setup_ui_init`
* `AccountSetupMain.turn`, `AccountSetupMain.main`: a turn of the loop, and the program
* `AccountSetupMain.Current`: the framebuffer shows the picture of a state

## Main results

* `AccountSetupUi.ends_process_keeps`: what the application keeps of the screens
* `AccountSetupMain.waiting_shows`: a program that waits for an event shows the picture of its state
-/

open Bytes (ascii)
open Crash
open CnUi (maxLibCp picture uiRender sessionOps)
open Display (Framebuffer Frame WriteAnswer fbBytes frameBytes pixelAt)
open Kosync (Env World sys)
open Reader (Session Pager)
open StorageVerify (Candidate Source verifyWithSource)

/-- Of any program nothing is known. -/
theorem Crash.ends_any {σ α : Type} (p : Prog σ α) (s : σ) :
    Ends p s (fun _ _ => True) fun _ => True := by
  unfold Ends
  rcases p s with ⟨a | _, s'⟩
  · trivial
  · trivial

/-- A flush that the display takes at once. -/
theorem Display.flush_whole (fb : Framebuffer) (pixels : Frame) :
    (Display.flush fb pixels true [.wrote fbBytes]).1 = some (fbBytes : ℤ) := by
  have hlength := pixels.2
  have hne : pixels.1 ≠ [] := by
    intro hnil
    rw [hnil] at hlength
    cases hlength
  have hdone : pixels.1.drop fbBytes = [] := List.drop_of_length_le hlength.le
  unfold Display.flush
  rw [if_neg (by decide), Display.writeAll, if_neg hne, if_neg (by decide), hdone, Display.writeAll,
    if_pos rfl]
  rfl

/-! ## The application -/

namespace AccountSetupUi

/-- `cn_account_setup_ui_config`, but for the ports. -/
structure Config where
  mountpoint : Option (List UInt8)
  root : Option (List UInt8)
  expectedMajor : UInt32
  expectedMinor : UInt32
  dnsIp : Option (List UInt8)
  sntpIp : Option (List UInt8)
  caPath : Option (List UInt8)

/-- `is_data_path`. -/
def isDataPath (path : List UInt8) : Bool :=
  path.take 5 = ascii "/data" ∧ (path.length = 5 ∨ path[5]? = some 0x2f)

/-- The checks of `cn_account_setup_ui_init` on its configuration. -/
def Config.refused (config : Config) : Bool :=
  config.mountpoint.isNone ∨ config.root.isNone ∨ config.mountpoint.any isDataPath ∨
    config.root.any isDataPath ∨ config.dnsIp.isNone ∨ config.sntpIp.isNone ∨ config.caPath.isNone

/-- `cn_account_setup_ui_init`. -/
def init (config : Config) (source : Source) : Env (Option App) :=
  if config.refused then return none
  else
    let candidate : Candidate :=
      ⟨config.root, config.mountpoint, config.expectedMajor, config.expectedMinor⟩
    match verifyWithSource candidate source with
    | .error _ => return none
    | .ok verified => do
      match ← sys (StorageLayout.init (some verified.root)) with
      | .error _ => return none
      | .ok layout => do
        let status ← sys (StorageLayout.prepare layout)
        if status.1 ≠ .ok then return none
        else return some {
          candidate
          verified
          layout
          runtime := ⟨some ⟨[config.dnsIp]⟩, some ⟨config.caPath, false⟩, .establish, true⟩
          prepared := true }

/-! ## What the application keeps -/

/-- The calls that put a report on the screen keep `Inv`. -/
structure Reported {R : Type} (Inv : CnUi R → Prop) : Prop where
  result : ∀ ui status localState, Inv ui → Inv (ui.accountSetResult status localState)
  wipe : ∀ ui, Inv ui → Inv ui.accountWipe
  prefill : ∀ ui url device, Inv ui → Inv (ui.accountPrefill url device)

section Keeps

variable {R : Type} {Inv : CnUi R → Prop} {app : App} {source : Source}
  {entropy : Option (Fin 16 → UInt8)} {ui : CnUi R}

theorem ends_prefillPartial_keeps (h : Reported Inv) (hui : Inv ui) (w : World) :
    Ends (prefillPartial app ui) w (fun ui' _ => Inv ui') fun _ => True := by
  unfold prefillPartial
  cases StorageLayout.path app.layout .config StorageLayout.pathCapacity with
  | error result => exact hui
  | ok config =>
    dsimp only
    rw [ends_bind, ends_get, ends_bind]
    refine (ends_any _ _).mono ?_ fun _ _ => trivial
    intro r w₁ _
    cases r with
    | error result => exact hui
    | ok store =>
      dsimp only
      rw [ends_bind]
      refine (ends_any _ _).mono ?_ fun _ _ => trivial
      intro loaded w₂ _
      split
      · exact hui
      · exact h.prefill ui _ _ hui

theorem ends_processSubmit_keeps (h : Reported Inv) (hui : Inv ui) (intent : AccountSetup.Intent)
    (w : World) :
    Ends (processSubmit app entropy intent ui) w (fun r _ => Inv r.2) fun _ => True := by
  unfold processSubmit
  cases ui.accountGetInput with
  | none => exact hui
  | some input =>
    dsimp only
    rw [ends_bind]
    refine (ends_any _ _).mono ?_ fun _ _ => trivial
    intro report w₁ _
    exact h.result _ _ _ (h.wipe ui hui)

/-- **What the application keeps** of the screens: it only takes their action, and puts a report. -/
theorem ends_process_keeps (h : Reported Inv) (hui : Inv ui.accountTakeAction.2) (w : World) :
    Ends (process app source entropy ui) w (fun r _ => Inv r.2) fun _ => True := by
  unfold process
  generalize ui.accountTakeAction = taken at hui ⊢
  obtain ⟨action, ui⟩ := taken
  dsimp only at hui ⊢
  split
  · exact hui
  split
  · exact h.result _ _ _ hui
  -- an inspection, asked for in either way
  have hinspect : Ends (do
      let report ← AccountSetup.inspect app.layout
      let ui := applyReport ui report.status report.localState
      if report.localState = .partialDisabled then do
        let ui ← prefillPartial app ui
        return (1, ui)
      else return (1, ui)) w (fun r _ => Inv (r : ℤ × CnUi R).2) fun _ => True := by
    rw [ends_bind]
    refine (ends_any _ _).mono ?_ fun _ _ => trivial
    intro report w₁ _
    have hshown := h.result _ (uiResult report.status) (uiLocal report.localState) hui
    dsimp only
    split
    · rw [ends_bind]
      refine (ends_prefillPartial_keeps h hshown w₁).mono ?_ fun _ _ => trivial
      intro ui' w₂ hkept
      exact hkept
    · exact hshown
  cases action with
  | none => exact hui
  | inspect => exact hinspect
  | recheck => exact hinspect
  | activateExisting =>
    dsimp only
    rw [ends_bind]
    refine (ends_any _ _).mono ?_ fun _ _ => trivial
    intro report w₁ _
    exact h.result _ _ _ hui
  | submitNewOrResume => exact ends_processSubmit_keeps h hui _ w
  | replaceDisabled => exact ends_processSubmit_keeps h hui _ w

end Keeps

end AccountSetupUi

/-! ## Screens without a library and without a reader -/

namespace CnUi

variable {R P : Type} {ops : ReaderOps R P} {look : Look R} {ui ui' : CnUi R} {ev : InputEv}
  {now : ℤ}

theorem Move.lib_eq (h : Move ops ui ev ui') : ui'.lib = ui.lib := by
  cases h with
  | submit hsubmits =>
    unfold accountSubmit
    dsimp only
    split <;> rfl
  | _ => rfl

/-- On the account screen and under the overlay the reader is left alone. -/
theorem Move.reader_eq (h : Move ops ui ev ui')
    (hscreen : ui.state = .accountSetup ∨ ui.state = .reader ∧ ui.syncModal ≠ .none) :
    ui'.reader = ui.reader := by
  cases h with
  | submit hsubmits =>
    unfold accountSubmit
    dsimp only
    split <;> rfl
  | browse state page x y sel top reader hfrom hto hmodal hleave hview =>
    rcases hscreen with hstate | ⟨hstate, hshown⟩
    · exact absurd hstate hfrom
    · exact absurd (hmodal hstate) hshown
  | _ => rfl

theorem turnPage_reader (h : ui.reader = none) (turn : R → R × ℤ) :
    (ui.turnPage ops turn).1.reader = none := by
  unfold turnPage
  rw [h]
  exact h

theorem activateBook_reader (h : ui.reader = none) (book : Book) :
    (ui.activateBook ops book).reader = none := by
  unfold activateBook
  rw [h]

theorem touchLibrary_reader (h : ui.reader = none) : (ui.touchLibrary ops ev).1.reader = none := by
  unfold touchLibrary
  dsimp only
  split
  · split
    · exact h
    · split
      · split
        · split
          · exact h
          · exact activateBook_reader h _
        · exact h
      · exact h
  · exact h

theorem touchHome_reader (h : ui.reader = none) : (ui.touchHome ev).1.reader = none := by
  unfold touchHome
  split_ifs
  · exact h
  · exact h
  · exact h
  · exact h

theorem touch_reader (h : ui.reader = none) (htype : ev.type = .touchUp) :
    (ui.handleScreen ops ev now).1.reader = none := by
  have hmarked : (if ui.state ≠ .reader then ui.markAt ev.x ev.y else (ui, false)).1.reader =
      none := by
    obtain ⟨x, y, hmark⟩ := ui.marked_eq ev
    rw [hmark]
    exact h
  unfold handleScreen
  rw [htype]
  dsimp only
  split
  · exact touchHome_reader hmarked
  · exact touchLibrary_reader hmarked
  · exact hmarked

theorem powerUp_reader (h : ui.reader = none) : (ui.powerUp now).reader = none := by
  obtain ⟨pressed, exit, heq | ⟨-, -, heq⟩⟩ := ui.powerUp_eq now
  · rw [heq]
    exact h
  · rw [heq]
    exact h

/-- No screen makes a reader. -/
theorem handleScreen_reader (h : ui.reader = none) :
    (ui.handleScreen ops ev now).1.reader = none := by
  by_cases htouch : ev.type = .touchUp
  · exact touch_reader h htouch
  have hclosed : ui.reader.map ops.close = none := by rw [h, Option.map_none]
  unfold handleScreen
  split
  · split
    · exact turnPage_reader h ops.next
    · obtain ⟨sel, top, heq, -⟩ := ui.libDown_eq
      rw [heq]
      exact h
    · exact h
    · exact h
    · exact h
  · split
    · exact turnPage_reader h ops.prev
    · exact h
    · obtain ⟨sel, top, heq, -⟩ := ui.libUp_eq
      rw [heq]
      exact h
    · exact h
  · split
    · exact h
    · exact h
    · exact h
  · split
    · exact hclosed
    · exact h
    · exact h
    · exact h
  · split
    · exact hclosed
    · exact h
    · exact h
  · exact h
  · exact powerUp_reader h
  · rename_i htype
    exact absurd htype htouch
  · exact h

theorem handle_reader (h : ui.reader = none) : (ui.handle ops ev now).1.reader = none := by
  unfold handle
  split
  · rename_i hscreen
    have hmove : Move ops ui ev (ui.handleAccount ev).1 := handleAccount_move hscreen.1
    exact (hmove.reader_eq (.inl hscreen.1)).trans h
  split
  · rename_i hscreen
    have hmove : Move ops ui ev (ui.handleModal ev).1 := handleModal_move hscreen.1 hscreen.2.1
    exact (hmove.reader_eq (.inr ⟨hscreen.1, hscreen.2.1⟩)).trans h
  · exact handleScreen_reader h

/-- A drawing without a reader leaves none. -/
theorem ends_picture_reader (look : Look R) (ops : ReaderOps R P) (h : ui.reader = none)
    (s : Sheet) :
    Ends (picture look ops ui) s (fun drawn _ => drawn.reader = none) fun _ => True := by
  have hscreen : Ends (renderScreen look ops ui) s (fun drawn _ => drawn.reader = none)
      fun _ => True := by
    have hkept : ∀ {α : Type} (p : Drawing α) (f : α → Option (Fin 3 → ValueWindow)),
        Ends (p >>= fun a => pure (⟨f a, ui.reader⟩ : Drawn R)) s
          (fun drawn _ => drawn.reader = none) fun _ => True := by
      intro α p f
      rw [ends_bind]
      exact (ends_any p s).mono (fun _ _ _ => h) fun _ _ => trivial
    unfold renderScreen
    cases ui.state with
    | accountSetup => exact hkept _ id
    | library => exact hkept _ fun _ => none
    | selectedBook => exact hkept _ fun _ => none
    | reader =>
      have hbook : renderBook look ops ui =
          (Drawing.call (.clear CnCanvas.colorWhite) >>= fun _ => pure none) := by
        unfold renderBook
        rw [h]
        rfl
      dsimp only
      rw [hbook, ends_bind, ends_bind]
      exact (ends_any _ s).mono (fun _ _ _ => rfl) fun _ _ => trivial
    | readerTest => exact hkept _ fun _ => none
    | home => exact hkept _ fun _ => none
  unfold picture
  rw [ends_bind]
  refine hscreen.mono ?_ fun _ _ => trivial
  intro drawn s' hdrawn
  rw [ends_bind]
  exact (ends_any _ s').mono (fun _ _ _ => hdrawn) fun _ _ => trivial

/-- What a drawing keeps, where it leaves the reader. -/
theorem keep_eq {drawn : Drawn R} (h : drawn.reader = ui.reader) : ∃ start stops,
    ui.keep drawn = { ui with accountValueStart := start, accountValueStopX := stops } := by
  obtain ⟨windows, reader⟩ := drawn
  obtain rfl : reader = ui.reader := h
  cases windows with
  | none => exact ⟨ui.accountValueStart, ui.accountValueStopX, rfl⟩
  | some windows => exact ⟨_, _, rfl⟩

/-- Without a library only the form can have a text that is too long. -/
theorem long_of_not_legible (hindexed : ui.Indexed) (hlib : ui.lib = none)
    (h : ¬ Legible look ui) : ui.state = .accountSetup ∧ ui.accountEditing = true ∧
      maxLibCp < ui.accountPasswordLength := by
  have hnone : ∀ lib, ui.lib ≠ some lib := by
    intro lib heq
    rw [hlib] at heq
    cases heq
  rw [legible_iff_short look hindexed fun lib heq => absurd heq (hnone lib)] at h
  unfold Short at h
  cases hstate : ui.state with
  | accountSetup =>
    rw [hstate] at h
    obtain ⟨hediting, hlong⟩ := Classical.not_imp.mp h
    exact ⟨rfl, hediting, not_le.mp hlong⟩
  | library =>
    rw [hstate] at h
    exact absurd (fun lib heq => absurd heq (hnone lib)) h
  | selectedBook =>
    have hselected : ui.selectedBook = none := by
      unfold selectedBook
      rw [hlib]
    rw [hstate] at h
    refine absurd ?_ h
    intro selected heq
    rw [hselected] at heq
    cases heq
  | reader =>
    rw [hstate] at h
    exact absurd trivial h
  | readerTest =>
    rw [hstate] at h
    exact absurd trivial h
  | home =>
    rw [hstate] at h
    exact absurd trivial h

end CnUi

namespace AccountSetupMain

open AccountSetupUi (App Config)

/-! ## The program -/

/-- The program at work: the application, the screens, the input layer, the canvas with the text
renderer, the framebuffer and the rest of the world. A drawing has `left` an array or not. -/
structure Machine (R : Type) where
  app : App
  ui : CnUi R
  input : CnInput
  sheet : Sheet
  display : Framebuffer
  world : World
  left : Bool

/-- What the system answers to a flush. -/
structure FlushAnswer where
  sought : Bool
  answers : List WriteAnswer

/-- What a turn of the loop meets: the answer to the poll, the time, the storage and the entropy for
an action, and the answers to the flushes before and after it. -/
structure Turn where
  poll : CnInput.PollAnswer
  now : ℤ
  source : Source
  entropy : Option (Fin 16 → UInt8)
  before : FlushAnswer
  after : FlushAnswer

/-- The bytes that a flush reads from the pixels of a canvas, if there are as many. -/
def frame (c : CnCanvas.Canvas) : Option Frame :=
  if h : fbBytes ≤ (frameBytes c).length then
    some ⟨(frameBytes c).take fbBytes, (List.length_take).trans (min_eq_left h)⟩
  else none

section Program

variable {D Q F I : Type} (E : Pager D Q I F) (look : Look (Session D F))

/-- A program of the application. -/
def inWorld {R α : Type} (p : Env α) : Prog (Machine R) α := fun m =>
  ((p m.world).1, { m with world := (p m.world).2 })

/-- `cn_ui_render` on the canvas of the program. -/
def render : Prog (Machine (Session D F)) Unit := fun m =>
  match uiRender look (sessionOps E) m.ui m.sheet with
  | (none, sheet) => (none, { m with sheet, left := true })
  | (some ui, sheet) => (some (), { m with ui, sheet })

/-- `cn_display_flush` of the pixels of the canvas. -/
def flush {R : Type} (answer : FlushAnswer) : Prog (Machine R) ℤ := fun m =>
  match frame m.sheet.surface.canvas with
  | none => (none, { m with left := true })
  | some pixels =>
    ((Display.flush m.display pixels answer.sought answer.answers).1,
      { m with display := (Display.flush m.display pixels answer.sought answer.answers).2 })

/-- The screen drawn and flushed, and whether all of it was. -/
def draw (answer : FlushAnswer) : Prog (Machine (Session D F)) Bool := do
  render E look
  let written ← flush answer
  return written = fbBytes

/-- `cn_input_poll`, with the event that it delivers. -/
def poll {R : Type} (fds : ℕ → Bool) (answer : CnInput.PollAnswer) :
    Prog (Machine R) (ℤ × Option QueuedEv) := fun m =>
  (some ((m.input.poll fds answer).1, (m.input.poll fds answer).2.1),
    { m with input := (m.input.poll fds answer).2.2 })

/-- `cn_ui_handle`. -/
def handle (ev : InputEv) (now : ℤ) : Prog (Machine (Session D F)) Bool := fun m =>
  (some (m.ui.handle (sessionOps E) ev now).2,
    { m with ui := (m.ui.handle (sessionOps E) ev now).1 })

/-- `cn_account_setup_ui_process`. -/
def process {R : Type} (source : Source) (entropy : Option (Fin 16 → UInt8)) :
    Prog (Machine R) ℤ := fun m =>
  match AccountSetupUi.process m.app source entropy m.ui m.world with
  | (none, world) => (none, { m with world })
  | (some (code, ui), world) => (some code, { m with ui, world })

/-- The screen drawn where it has to be. -/
def drawIf (answer : FlushAnswer) (redraw : Bool) : Prog (Machine (Session D F)) Bool :=
  if redraw then draw E look answer else return true

/-- The end of a turn: whether the loop goes on. -/
def finish (answer : FlushAnswer) (redraw : Bool) : Prog (Machine (Session D F)) Bool := do
  let shown ← drawIf E look answer redraw
  let m ← Prog.get
  return shown ∧ ¬ m.ui.exitRequested

/-- A turn with an event. -/
def react (t : Turn) (ev : InputEv) : Prog (Machine (Session D F)) Bool := do
  let redraw ← handle E ev t.now
  let m ← Prog.get
  if m.ui.accountAction = .none then finish E look t.after redraw
  else do
    -- the screen tells that there is work before it is done
    let shown ← draw E look t.before
    if ¬ shown then return false
    else do
      let code ← process t.source t.entropy
      if code < 0 then return false else finish E look t.after true

/-- A turn of the loop. -/
def turn (fds : ℕ → Bool) (t : Turn) : Prog (Machine (Session D F)) Bool := do
  let polled ← poll fds t.poll
  if polled.1 < 0 then return false
  else
    match polled.2 with
    | none => return true
    | some e => react E look t e.ev

/-- The loop: the exit code of the program, which is missing while it waits for another event. -/
def loop (fds : ℕ → Bool) : List Turn → Prog (Machine (Session D F)) (Option ℤ)
  | [] => return none
  | t :: turns => do
    let goOn ← turn E look fds t
    if goOn then loop fds turns else return some 0

/-- The program with its canvas, before the first drawing. -/
def start {R : Type} (app : App) (canvas : CnCanvas.Canvas) : Prog (Machine R) Unit :=
  Prog.modify fun m =>
    { m with app, ui := .init, input := CnInput.opened, sheet := m.sheet.withCanvas canvas }

/-- `main`, where `config` is what the arguments tell, if they can be used, `loaded` whether the font
and the devices are there, and `memory` the memory of the canvas. -/
def main (fds : ℕ → Bool) (config : Option Config) (source : Source) (loaded : Bool)
    (memory : ℕ → UInt16) (first : FlushAnswer) (turns : List Turn) :
    Prog (Machine (Session D F)) (Option ℤ) :=
  match config with
  | none => return some 2
  | some config => do
    match ← inWorld (AccountSetupUi.init config source) with
    | none => return some 1
    | some app =>
      match CnCanvas.create 600 800 memory with
      | none => return some 1
      | some canvas =>
        if ¬ loaded then return some 1
        else do
          start app canvas
          let shown ← draw E look first
          if shown then loop E look fds turns else return some 1

end Program

/-! ## The screen of a program that waits -/

section Waiting

variable {D Q F I : Type} (E : Pager D Q I F) {look : Look (Session D F)}
  {m : Machine (Session D F)}

/-- The framebuffer shows the picture of a state, on whatever canvas it is drawn. -/
def Current (look : Look (Session D F)) (ui : CnUi (Session D F)) (display : Framebuffer) : Prop :=
  ∀ t : Sheet, t.Full → ∃ drawn t', picture look (sessionOps E) ui t = (some drawn, t') ∧
    ∀ x y : ℕ, x < 600 → y < 800 → pixelAt display x y = CnCanvas.getPixel t'.surface.canvas x y

/-- The canvas shows the picture of a state. -/
def Painted (look : Look (Session D F)) (ui : CnUi (Session D F)) (sheet : Sheet) : Prop :=
  ∀ t : Sheet, t.Full → ∃ drawn t', picture look (sessionOps E) ui t = (some drawn, t') ∧
    t'.surface.canvas = sheet.surface.canvas

/-- What holds throughout the loop. -/
structure Sound (m : Machine (Session D F)) : Prop where
  held : m.ui.FieldsHeld
  indexed : m.ui.Indexed
  reader : m.ui.reader = none
  lib : m.ui.lib = none
  full : m.sheet.Full
  size : m.display.bytes.length = fbBytes
  inside : m.left = false

/-- What holds where the program waits: nothing is to be done, and the screen is up to date. -/
structure Waiting (look : Look (Session D F)) (m : Machine (Session D F)) : Prop
    extends Sound m where
  idle : m.ui.accountAction = .none
  stays : m.ui.exitRequested = false
  current : Current E look m.ui m.display

/-- An array is left only where the form holds a long password. -/
def Overrun (m : Machine (Session D F)) : Prop :=
  m.left = true →
    m.ui.state = .accountSetup ∧ m.ui.accountEditing = true ∧ maxLibCp < m.ui.accountPasswordLength

theorem Sound.overrun (h : Sound m) : Overrun m := by
  intro hleft
  rw [h.inside] at hleft
  cases hleft

/-- A screen that can be drawn is drawn, and only the windows of its fields are new. -/
theorem render_legible (hlook : look.Sound) (h : Sound m) (hlegible : CnUi.Legible look m.ui) :
    ∃ drawn s' start stops, CnUi.picture look (sessionOps E) m.ui m.sheet = (some drawn, s') ∧
      s'.Full ∧
      m.ui.keep drawn = { m.ui with accountValueStart := start, accountValueStopX := stops } ∧
      render E look m = (some (), { m with ui := m.ui.keep drawn, sheet := s' }) := by
  obtain ⟨drawn, s', -, hdraw, -, hfull, -⟩ :=
    (CnUi.agree_picture hlook (sessionOps E) h.held m.sheet m.sheet ⟨h.full, h.full⟩).1 hlegible
  have hreader := (CnUi.ends_picture_reader look (sessionOps E) h.reader m.sheet).of_eq hdraw
  obtain ⟨start, stops, hkeep⟩ := CnUi.keep_eq (hreader.trans h.reader.symm)
  have huiRender : uiRender look (sessionOps E) m.ui m.sheet = (some (m.ui.keep drawn), s') := by
    unfold uiRender
    rw [bind_of_eq hdraw]
    rfl
  refine ⟨drawn, s', start, stops, hdraw, hfull, hkeep, ?_⟩
  unfold render
  rw [huiRender]

/-- **A drawing.** -/
theorem ends_render (hlook : look.Sound) (h : Sound m) :
    Ends (render E look) m (fun _ m' => Sound m' ∧ m'.ui.accountAction = m.ui.accountAction ∧
      m'.ui.exitRequested = m.ui.exitRequested ∧ Painted E look m'.ui m'.sheet) Overrun := by
  have hagree := CnUi.agree_picture hlook (sessionOps E) h.held
  by_cases hlegible : CnUi.Legible look m.ui
  · obtain ⟨drawn, s', start, stops, hdraw, hfull, hkeep, hrender⟩ := render_legible E hlook h hlegible
    unfold Ends
    rw [hrender, hkeep]
    refine ⟨⟨h.held, h.indexed.of_kept ⟨rfl, rfl, rfl, .inl rfl⟩, h.reader, h.lib, hfull, h.size,
      h.inside⟩, rfl, rfl, ?_⟩
    -- whatever it is drawn on, the canvas is the one that was drawn here
    intro t ht
    obtain ⟨drawn', s'', t', hdraw', ht', -, hsame⟩ := (hagree m.sheet t ⟨h.full, ht⟩).1 hlegible
    obtain ⟨-, rfl⟩ := Prod.mk.inj (hdraw.symm.trans hdraw')
    exact ⟨drawn', t', ht', hsame⟩
  · obtain ⟨hnone, -⟩ := (hagree m.sheet m.sheet ⟨h.full, h.full⟩).2 hlegible
    have hkilled : (uiRender look (sessionOps E) m.ui m.sheet).1 = none := bind_of_killed hnone
    rcases hdraw : uiRender look (sessionOps E) m.ui m.sheet with ⟨ui, s'⟩
    rw [hdraw] at hkilled
    obtain rfl : ui = none := hkilled
    have hrender : render E look m = (none, { m with sheet := s', left := true }) := by
      unfold render
      rw [hdraw]
    unfold Ends
    rw [hrender]
    intro _
    exact CnUi.long_of_not_legible h.indexed h.lib hlegible

theorem frame_full {s : Sheet} (h : s.Full) :
    frame s.surface.canvas = some (Display.frameOf s.surface.canvas h.1 h.2) := by
  have hlength := Display.length_frameBytes h.1 h.2
  unfold frame
  rw [dif_pos hlength.ge]
  congr 1
  apply Subtype.ext
  exact List.take_of_length_le hlength.le

/-- **A flush** of a canvas that shows the picture. -/
theorem ends_flush (h : Sound m) (hpainted : Painted E look m.ui m.sheet) (answer : FlushAnswer) :
    Ends (flush answer) m (fun written m' => Sound m' ∧ m'.ui = m.ui ∧
      (written = fbBytes → Current E look m'.ui m'.display)) Overrun := by
  have hrun : flush answer m =
      ((Display.flush m.display (Display.frameOf m.sheet.surface.canvas h.full.1 h.full.2)
        answer.sought answer.answers).1,
      { m with display := (Display.flush m.display
          (Display.frameOf m.sheet.surface.canvas h.full.1 h.full.2) answer.sought
          answer.answers).2 }) := by
    unfold flush
    rw [frame_full h.full]
  have hsize := Display.length_flushAll h.size
    [⟨Display.frameOf m.sheet.surface.canvas h.full.1 h.full.2, answer.sought, answer.answers⟩]
  unfold Ends
  rw [hrun]
  cases hcode : (Display.flush m.display (Display.frameOf m.sheet.surface.canvas h.full.1 h.full.2)
      answer.sought answer.answers).1 with
  | none =>
    intro hleft
    exact h.overrun hleft
  | some written =>
    refine ⟨⟨h.held, h.indexed, h.reader, h.lib, h.full, hsize, h.inside⟩, rfl, ?_⟩
    intro hall t ht
    obtain ⟨drawn, t', hdraw, hcanvas⟩ := hpainted t ht
    refine ⟨drawn, t', hdraw, ?_⟩
    intro x y hx hy
    rw [hcanvas]
    apply Display.flush_shows_canvas h.full.1 h.full.2 h.size _ hx hy
    rw [hcode, hall]

/-- **The screen drawn and flushed.** -/
theorem ends_draw (hlook : look.Sound) (h : Sound m) (answer : FlushAnswer) :
    Ends (draw E look answer) m (fun shown m' => Sound m' ∧
      m'.ui.accountAction = m.ui.accountAction ∧ m'.ui.exitRequested = m.ui.exitRequested ∧
      (shown = true → Current E look m'.ui m'.display)) Overrun := by
  unfold draw
  rw [ends_bind]
  refine (ends_render E hlook h).mono ?_ fun _ h => h
  rintro _ m₁ ⟨hsound, haction, hexit, hpainted⟩
  rw [ends_bind]
  refine (ends_flush E hsound hpainted answer).mono ?_ fun _ h => h
  rintro written m₂ ⟨hsound', hui, hcurrent⟩
  refine ⟨hsound', ?_, ?_, ?_⟩
  · rw [hui]
    exact haction
  · rw [hui]
    exact hexit
  · intro hshown
    exact hcurrent (of_decide_eq_true hshown)

/-! ### The parts of a turn -/

theorem Sound.handle (h : Sound m) (ev : InputEv) (now : ℤ) :
    Sound { m with ui := (m.ui.handle (sessionOps E) ev now).1 } where
  held := h.held.handle ev now
  indexed := h.indexed.handle (sessionOps E) ev now
  reader := CnUi.handle_reader h.reader
  lib := (CnUi.handle_move (sessionOps E) m.ui ev now).lib_eq.trans h.lib
  full := h.full
  size := h.size
  inside := h.inside

/-- What the application keeps of the screens. -/
structure Calm (ui : CnUi (Session D F)) : Prop where
  held : ui.FieldsHeld
  indexed : ui.Indexed
  reader : ui.reader = none
  lib : ui.lib = none
  idle : ui.accountAction = .none

theorem accountSetResult_kept (ui : CnUi (Session D F)) (status : AccountResult)
    (localState : AccountLocal) :
    (ui.accountSetResult status localState).reader = ui.reader ∧
      (ui.accountSetResult status localState).lib = ui.lib ∧
      (ui.accountSetResult status localState).accountAction = ui.accountAction := by
  unfold CnUi.accountSetResult
  dsimp only
  split <;> exact ⟨rfl, rfl, rfl⟩

theorem reported_calm : AccountSetupUi.Reported (Calm (D := D) (F := F)) where
  result := by
    intro ui status localState h
    obtain ⟨hreader, hlib, haction⟩ := accountSetResult_kept ui status localState
    exact ⟨h.held.accountSetResult status localState, .accountSetResult ui status localState,
      hreader.trans h.reader, hlib.trans h.lib, haction.trans h.idle⟩
  wipe := by
    intro ui h
    exact ⟨h.held.accountWipe, h.indexed.of_kept ⟨rfl, rfl, rfl, .inl rfl⟩, h.reader, h.lib,
      h.idle⟩
  prefill := by
    intro ui url device h
    unfold CnUi.accountPrefill
    split
    · exact h
    · exact ⟨CnUi.held_update (CnUi.held_update h.held 0 (CnUi.held_prefill (h.held 0) url)) 1
        (CnUi.held_prefill (h.held 1) device), h.indexed.of_kept ⟨rfl, rfl, rfl, .inl rfl⟩, h.reader,
        h.lib, h.idle⟩

/-- **An action** of the application. -/
theorem ends_process (h : Sound m) (source : Source) (entropy : Option (Fin 16 → UInt8)) :
    Ends (process source entropy) m (fun _ m' => Sound m' ∧ m'.ui.accountAction = .none)
      Overrun := by
  have htaken : Calm m.ui.accountTakeAction.2 :=
    ⟨h.held, h.indexed.of_kept ⟨rfl, rfl, rfl, .inl rfl⟩, h.reader, h.lib, rfl⟩
  have hends := @AccountSetupUi.ends_process_keeps _ _ m.app source entropy _ reported_calm htaken
    m.world
  rcases hrun : AccountSetupUi.process m.app source entropy m.ui m.world with ⟨r, world⟩
  cases r with
  | none =>
    have hkilled : process source entropy m = (none, { m with world }) := by
      unfold process
      rw [hrun]
    unfold Ends
    rw [hkilled]
    intro hleft
    exact h.overrun hleft
  | some r =>
    obtain ⟨code, ui⟩ := r
    have hdone : process source entropy m = (some code, { m with ui, world }) := by
      unfold process
      rw [hrun]
    obtain ⟨hheld, hindexed, hreader, hlib, hidle⟩ := hends.of_eq hrun
    unfold Ends
    rw [hdone]
    exact ⟨⟨hheld, hindexed, hreader, hlib, h.full, h.size, h.inside⟩, hidle⟩

/-- **The end of a turn**: a screen that is not drawn again has to be up to date. -/
theorem ends_finish (hlook : look.Sound) (h : Sound m) (hidle : m.ui.accountAction = .none)
    {redraw : Bool} (hquiet : redraw = false → m.ui.exitRequested = false →
      Current E look m.ui m.display) (answer : FlushAnswer) :
    Ends (finish E look answer redraw) m (fun goOn m' => goOn = true → Waiting E look m')
      Overrun := by
  unfold finish drawIf
  rw [ends_bind]
  cases redraw with
  | false =>
    intro hgo
    obtain ⟨-, hstay⟩ := of_decide_eq_true hgo
    have hstays : m.ui.exitRequested = false := Bool.eq_false_iff.mpr hstay
    exact ⟨h, hidle, hstays, hquiet rfl hstays⟩
  | true =>
    rw [if_pos rfl]
    refine (ends_draw E hlook h answer).mono ?_ fun _ h => h
    rintro shown m₁ ⟨hsound, haction, -, hcurrent⟩ hgo
    obtain ⟨hshown, hstay⟩ := of_decide_eq_true hgo
    exact ⟨hsound, haction.trans hidle, Bool.eq_false_iff.mpr hstay, hcurrent hshown⟩

/-- **A turn with an event.** -/
theorem ends_react (hlook : look.Sound) (h : Waiting E look m) (t : Turn) (ev : InputEv) :
    Ends (react E look t ev) m (fun goOn m' => goOn = true → Waiting E look m') Overrun := by
  have hsound := h.toSound.handle E ev t.now
  unfold react
  rw [ends_bind]
  change Ends (Prog.get >>= _) { m with ui := (m.ui.handle (sessionOps E) ev t.now).1 } _ _
  rw [ends_bind, ends_get]
  dsimp only
  by_cases hidle : (m.ui.handle (sessionOps E) ev t.now).1.accountAction = .none
  · rw [if_pos hidle]
    refine ends_finish E hlook hsound hidle ?_ t.after
    -- no drawing was asked for: the picture is as it was
    intro hquiet hstay s hs
    have hunseen := h.indexed.handle_unseen (CnUi.turns_sessionOps E) ev t.now hquiet fun _ => hstay
    rw [hunseen.picture_eq look (sessionOps E)]
    exact h.current s hs
  · rw [if_neg hidle, ends_bind]
    refine (ends_draw E hlook hsound t.before).mono ?_ fun _ h => h
    rintro shown m₁ ⟨hsound₁, -⟩
    split
    · intro hgo
      cases hgo
    rw [ends_bind]
    refine (ends_process hsound₁ t.source t.entropy).mono ?_ fun _ h => h
    rintro code m₂ ⟨hsound₂, hdone⟩
    split
    · intro hgo
      cases hgo
    · refine ends_finish E hlook hsound₂ hdone ?_ t.after
      intro hquiet
      cases hquiet

/-- **A turn of the loop.** -/
theorem ends_turn (hlook : look.Sound) (h : Waiting E look m) (fds : ℕ → Bool) (t : Turn) :
    Ends (turn E look fds t) m (fun goOn m' => goOn = true → Waiting E look m') Overrun := by
  have hpolled : Waiting E look { m with input := (m.input.poll fds t.poll).2.2 } :=
    ⟨⟨h.held, h.indexed, h.reader, h.lib, h.full, h.size, h.inside⟩, h.idle, h.stays, h.current⟩
  unfold turn
  rw [ends_bind]
  change Ends (if (m.input.poll fds t.poll).1 < 0 then _ else _)
    { m with input := (m.input.poll fds t.poll).2.2 } _ _
  split
  · intro hgo
    cases hgo
  dsimp only
  cases (m.input.poll fds t.poll).2.1 with
  | none =>
    intro _
    exact hpolled
  | some e => exact ends_react E hlook hpolled t e.ev

/-- **The loop**, by what a turn keeps. -/
theorem ends_loop (hlook : look.Sound) (fds : ℕ → Bool) (turns : List Turn) :
    ∀ {m : Machine (Session D F)}, Waiting E look m →
      Ends (loop E look fds turns) m (fun code m' => code = none → Waiting E look m') Overrun := by
  induction turns with
  | nil =>
    intro m h _
    exact h
  | cons t turns ih =>
    intro m h
    unfold loop
    rw [ends_bind]
    refine (ends_turn E hlook h fds t).mono ?_ fun _ h => h
    intro goOn m₁ hgo
    split
    · rename_i hgoes
      exact ih (hgo hgoes)
    · intro hcode
      cases hcode

theorem full_of_create {memory : ℕ → UInt16} {canvas : CnCanvas.Canvas}
    (h : CnCanvas.create 600 800 memory = some canvas) : canvas.w = 600 ∧ canvas.h = 800 := by
  unfold CnCanvas.create at h
  rw [if_neg (by decide)] at h
  obtain rfl := Option.some.inj h
  exact ⟨rfl, rfl⟩

/-- **The screen of a program that waits.** Whatever the arguments, the events, the storage, the
network and the display answer: when the program waits for an event, nothing that was asked of it is
left to be done, and every pixel of the display is that of the picture of its state. Only a password
of more than 160 characters on the form makes a drawing leave its array. -/
theorem waiting_shows (hlook : look.Sound) (fds : ℕ → Bool) (config : Option Config)
    (source : Source) (loaded : Bool) (memory : ℕ → UInt16) (first : FlushAnswer) (turns : List Turn)
    (hsize : m.display.bytes.length = fbBytes) (hinside : m.left = false) :
    Ends (main E look fds config source loaded memory first turns) m
      (fun code m' => code = none → m'.ui.accountAction = .none ∧ m'.ui.exitRequested = false ∧
        Current E look m'.ui m'.display)
      fun m' => m'.left = true → m'.ui.state = .accountSetup ∧ m'.ui.accountEditing = true ∧
        160 < m'.ui.accountPasswordLength := by
  unfold main
  cases config with
  | none =>
    intro hcode
    cases hcode
  | some config =>
    dsimp only
    rw [ends_bind]
    -- the application is set up before anything is drawn
    have hinit : Ends (inWorld (AccountSetupUi.init config source)) m
        (fun _ m' => m'.display = m.display ∧ m'.left = false) fun m' => m'.left = false := by
      unfold Ends inWorld
      cases (AccountSetupUi.init config source m.world).1 with
      | none => exact hinside
      | some app => exact ⟨rfl, hinside⟩
    refine hinit.mono ?_ ?_
    swap
    · intro m' hleft hleft'
      rw [hleft] at hleft'
      cases hleft'
    rintro app m₁ ⟨hdisplay, hleft⟩
    cases app with
    | none =>
      intro hcode
      cases hcode
    | some app =>
      dsimp only
      cases hcanvas : CnCanvas.create 600 800 memory with
      | none =>
        intro hcode
        cases hcode
      | some canvas =>
        dsimp only
        split
        · intro hcode
          cases hcode
        have hsound : Sound (start app canvas m₁).2 :=
          ⟨CnUi.held_blankFields, CnUi.indexed_init, rfl, rfl, full_of_create hcanvas,
            (congrArg (fun display => display.bytes.length) hdisplay).trans hsize, hleft⟩
        rw [ends_bind]
        change Ends (draw E look first >>= _) (start app canvas m₁).2 _ _
        rw [ends_bind]
        refine (ends_draw E hlook hsound first).mono ?_ fun _ h => h
        rintro shown m₂ ⟨hsound₂, haction, hexit, hcurrent⟩
        split
        · rename_i hshown
          refine (ends_loop E hlook fds turns
            ⟨hsound₂, haction.trans rfl, hexit.trans rfl, hcurrent hshown⟩).mono ?_ fun _ h => h
          intro code m₃ hwaiting hcode
          have h := hwaiting hcode
          exact ⟨h.idle, h.stays, h.current⟩
        · intro hcode
          cases hcode

/-- The answers to a flush that is taken at once. -/
def taken : FlushAnswer := ⟨true, [.wrote fbBytes]⟩

/-- What a drawing leaves of the program. -/
structure Redrawn (m m' : Machine (Session D F)) : Prop where
  app : m'.app = m.app
  input : m'.input = m.input
  world : m'.world = m.world
  state : m'.ui.state = m.ui.state
  action : m'.ui.accountAction = m.ui.accountAction
  exit : m'.ui.exitRequested = m.ui.exitRequested
  password : m'.ui.accountPasswordLength = m.ui.accountPasswordLength
  localState : m'.ui.accountLocalState = m.ui.accountLocalState

/-- **A screen without a long password** is drawn, and the display takes it. -/
theorem exists_drawn (hlook : look.Sound) (h : Sound m)
    (hshort : m.ui.accountPasswordLength ≤ maxLibCp) :
    ∃ m', draw E look taken m = (some true, m') ∧ Redrawn m m' ∧ Sound m' := by
  have hlegible : CnUi.Legible look m.ui := by
    by_contra hnot
    exact absurd (CnUi.long_of_not_legible h.indexed h.lib hnot).2.2 (not_lt.mpr hshort)
  obtain ⟨drawn, s', start, stops, -, hfull, hkeep, hrender⟩ := render_legible E hlook h hlegible
  obtain ⟨display, hflush⟩ : ∃ display,
      flush taken { m with ui := m.ui.keep drawn, sheet := s' } =
        (some (fbBytes : ℤ), { m with ui := m.ui.keep drawn, sheet := s', display }) := by
    unfold flush
    rw [frame_full hfull]
    exact ⟨_, Prod.ext (Display.flush_whole _ _) rfl⟩
  have hrun : draw E look taken m =
      (some true, { m with ui := m.ui.keep drawn, sheet := s', display }) := by
    unfold draw
    rw [bind_of_eq hrender, bind_of_eq hflush]
    rfl
  refine ⟨_, hrun, ?_, ((ends_draw E hlook h taken).of_eq hrun).1⟩
  rw [hkeep]
  exact ⟨rfl, rfl, rfl, rfl, rfl, rfl, rfl, rfl⟩

end Waiting

/-! ## A run -/

section Sample

deriving instance DecidableEq for SyncActivation.Runtime, Candidate, App

/-- The arguments of a program on the mount point `/m`. -/
def sampleConfig : Config where
  mountpoint := some (ascii "/m")
  root := some (ascii "/m")
  expectedMajor := 179
  expectedMinor := 9
  dnsIp := some (ascii "1.1.1.1")
  sntpIp := some (ascii "2.2.2.2")
  caPath := some (ascii "/ca")

/-- The mount point is there, without an account. -/
def sampleWorld : World :=
  { AccountSetupUi.exampleWorld with
    machine :=
      { files := fun path => if path = ascii "/m" then some ⟨1, .directory⟩ else none
        script := List.replicate 100 (.succeed 4096)
        fresh := 2 } }

/-- The world after the application has been set up. -/
@[irreducible] def sampleReady : World :=
  (AccountSetupUi.init sampleConfig AccountSetupUi.exampleSource sampleWorld).2

/-- A display that shows black, before the program. -/
def sampleMachine : Machine (Session ℤ (List (List UInt8))) where
  app := AccountSetupUi.exampleApp
  ui := .init
  input := CnInput.opened
  sheet := CnUi.plainSheet CnCanvas.colorBlack
  display := ⟨(Display.plainFrame 0).1, 0⟩
  world := sampleWorld
  left := false

/-- The menu key is pressed: the account screen is entered, and an inspection asked for. -/
def sampleTurn : Turn where
  poll := .ready fun dev => if dev = 0 then [⟨CnInput.evKey, CnInput.keyMenu, 1⟩] else []
  now := 0
  source := AccountSetupUi.exampleSource
  entropy := none
  before := taken
  after := taken

theorem init_sampleWorld :
    AccountSetupUi.init sampleConfig AccountSetupUi.exampleSource sampleWorld =
      (some (some AccountSetupUi.exampleApp), sampleReady) := by
  have happ : (AccountSetupUi.init sampleConfig AccountSetupUi.exampleSource sampleWorld).1 =
      some (some AccountSetupUi.exampleApp) := by decide +kernel
  unfold sampleReady
  exact Prod.ext happ rfl

theorem inspect_sampleReady : ∃ report world,
    AccountSetup.inspect AccountSetupUi.exampleApp.layout sampleReady = (some report, world) ∧
      report.status = .precondition ∧ report.localState = .noAccount := by
  have hvalue : (AccountSetup.inspect AccountSetupUi.exampleApp.layout sampleReady).1.map
      (fun r => (r.status, r.localState)) = some (.precondition, .noAccount) := by decide +kernel
  obtain ⟨report, hreport, hvalue⟩ := Option.map_eq_some_iff.mp hvalue
  exact ⟨report, _, Prod.ext hreport rfl, Prod.mk.inj hvalue⟩

variable {D Q F I : Type} (E : Pager D Q I F) {look : Look (Session D F)}
  {m : Machine (Session D F)}

/-- **An inspection** of a storage without an account. -/
theorem process_inspect {report : AccountSetup.Report} {world : World}
    (happ : m.app = AccountSetupUi.exampleApp) (haction : m.ui.accountAction = .inspect)
    (hinspect : AccountSetup.inspect AccountSetupUi.exampleApp.layout m.world = (some report, world))
    (hstatus : report.status = .precondition) (hlocal : report.localState = .noAccount) :
    ∃ m', process AccountSetupUi.exampleSource none m = (some 1, m') ∧
      m'.ui.state = m.ui.state ∧ m'.ui.exitRequested = m.ui.exitRequested ∧
      m'.ui.accountPasswordLength = 0 ∧ m'.ui.accountLocalState = .noAccount := by
  have hready : ¬ (¬ AccountSetupUi.exampleApp.prepared ∨ ¬ AccountSetupUi.verifyAgain
      AccountSetupUi.exampleApp AccountSetupUi.exampleSource) := by decide +kernel
  have hrun : AccountSetupUi.process AccountSetupUi.exampleApp AccountSetupUi.exampleSource none m.ui
      m.world = (some (1, AccountSetupUi.applyReport { m.ui with accountAction := .none }
        .precondition .noAccount), world) := by
    unfold AccountSetupUi.process CnUi.accountTakeAction
    dsimp only
    rw [haction, if_neg (by decide), if_neg hready]
    dsimp only
    rw [bind_of_eq hinspect, hstatus, hlocal, if_neg (by decide)]
    rfl
  have hdone : process AccountSetupUi.exampleSource none m = (some 1, { m with
      ui := AccountSetupUi.applyReport { m.ui with accountAction := .none } .precondition .noAccount
      world }) := by
    unfold process
    rw [happ, hrun]
  exact ⟨_, hdone, rfl, rfl, rfl, rfl⟩

/-- **The turn with the menu key.** -/
theorem exists_turn (hlook : look.Sound) (h : Sound m) (happ : m.app = AccountSetupUi.exampleApp)
    (hworld : m.world = sampleReady) (hinput : m.input = CnInput.opened)
    (hstate : m.ui.state = .home) (hexit : m.ui.exitRequested = false)
    (hpassword : m.ui.accountPasswordLength = 0) :
    ∃ m', turn E look (fun _ => true) sampleTurn m = (some true, m') ∧
      m'.ui.state = .accountSetup ∧ m'.ui.accountLocalState = .noAccount := by
  obtain ⟨report, world, hinspect, hstatus, hlocal⟩ := inspect_sampleReady
  have hentered : m.ui.handle (sessionOps E) ⟨.menu, 0, 0⟩ 0 = (m.ui.enterAccount, true) := by
    unfold CnUi.handle CnUi.handleScreen
    rw [if_neg (by simp [hstate]), if_neg (by simp [hstate])]
    dsimp only
    rw [hstate]
  have hhandled := h.handle E ⟨.menu, 0, 0⟩ 0
  rw [hentered] at hhandled
  obtain ⟨input, hkey⟩ : ∃ input, CnInput.opened.poll (fun _ => true) sampleTurn.poll =
      (1, some ⟨⟨.menu, 0, 0⟩, 0⟩, input) := ⟨_, rfl⟩
  have hpolled : Sound { m with input, ui := m.ui.enterAccount } :=
    ⟨hhandled.held, hhandled.indexed, hhandled.reader, hhandled.lib, hhandled.full, hhandled.size,
      hhandled.inside⟩
  -- the screen tells that there is work, the application inspects, and the screen tells the result
  obtain ⟨m₁, hdraw₁, hr₁, hs₁⟩ := exists_drawn E hlook hpolled (hpassword.trans_le (Nat.zero_le _))
  obtain ⟨m₂, hprocess, hstate₂, hexit₂, hpassword₂, hlocal₂⟩ := process_inspect
    (hr₁.app.trans happ) hr₁.action (by rw [hr₁.world.trans hworld]; exact hinspect) hstatus hlocal
  have hs₂ := ((ends_process hs₁ AccountSetupUi.exampleSource none).of_eq hprocess).1
  obtain ⟨m₃, hdraw₃, hr₃, -⟩ := exists_drawn E hlook hs₂ (hpassword₂.trans_le (Nat.zero_le _))
  have hstays : m₃.ui.exitRequested = false :=
    ((hr₃.exit.trans hexit₂).trans hr₁.exit).trans hexit
  have hpoll : poll (fun _ => true) sampleTurn.poll m =
      (some (1, some ⟨⟨.menu, 0, 0⟩, 0⟩), { m with input }) := by
    unfold poll
    rw [hinput, hkey]
  have hhandle : handle E ⟨.menu, 0, 0⟩ 0 { m with input } =
      (some true, { m with input, ui := m.ui.enterAccount }) := by
    unfold handle
    rw [hentered]
  have hfinish : finish E look taken true m₂ = (some true, m₃) := by
    unfold finish drawIf
    rw [if_pos rfl, bind_of_eq hdraw₃]
    change (some (decide (true = true ∧ ¬ m₃.ui.exitRequested)), m₃) = _
    rw [hstays]
    rfl
  refine ⟨m₃, ?_, (hr₃.state.trans hstate₂).trans hr₁.state, hr₃.localState.trans hlocal₂⟩
  have hgot : ∀ k : Machine (Session D F) → Prog (Machine (Session D F)) Bool,
      (Prog.get >>= k) { m with input, ui := m.ui.enterAccount } =
        k { m with input, ui := m.ui.enterAccount } { m with input, ui := m.ui.enterAccount } :=
    fun k => rfl
  unfold turn
  rw [bind_of_eq hpoll, if_neg (by decide)]
  dsimp only
  unfold react
  dsimp only [sampleTurn]
  rw [bind_of_eq hhandle, hgot]
  dsimp only
  rw [if_neg nofun, bind_of_eq hdraw₁, if_neg (by decide), bind_of_eq hprocess, if_neg (by decide)]
  exact hfinish

/-- The program is set up, the key is read, the account inspected, and the program waits. -/
theorem waiting_shows_menu : ∃ m',
    main Reader.sampleEngine CnUi.dots (fun _ => true) (some sampleConfig)
        AccountSetupUi.exampleSource true (fun _ => 0) taken [sampleTurn] sampleMachine =
      (some none, m') ∧
    m'.ui.state = .accountSetup ∧ m'.ui.accountLocalState = .noAccount ∧
    m'.ui.accountAction = .none ∧ m'.ui.exitRequested = false ∧
    Current Reader.sampleEngine CnUi.dots m'.ui m'.display := by
  obtain ⟨canvas, hcanvas⟩ : ∃ canvas, CnCanvas.create 600 800 (fun _ => 0) = some canvas :=
    ⟨_, if_neg (by decide)⟩
  have hinit : inWorld (AccountSetupUi.init sampleConfig AccountSetupUi.exampleSource)
      sampleMachine = (some (some AccountSetupUi.exampleApp),
        { sampleMachine with world := sampleReady }) := by
    unfold inWorld
    rw [show sampleMachine.world = sampleWorld from rfl, init_sampleWorld]
  have hsound : Sound { sampleMachine with
      world := sampleReady, sheet := sampleMachine.sheet.withCanvas canvas } :=
    ⟨CnUi.held_blankFields, CnUi.indexed_init, rfl, rfl, full_of_create hcanvas,
      (Display.plainFrame 0).2, rfl⟩
  obtain ⟨m₁, hdraw, hr, hs⟩ := exists_drawn Reader.sampleEngine CnUi.sound_dots hsound
    (Nat.zero_le _)
  obtain ⟨m', hturn, hstate, hlocal⟩ := exists_turn Reader.sampleEngine CnUi.sound_dots hs hr.app
    hr.world hr.input hr.state hr.exit hr.password
  have hloop : loop Reader.sampleEngine CnUi.dots (fun _ => true) [sampleTurn] m₁ =
      (some none, m') := by
    unfold loop
    rw [bind_of_eq hturn, if_pos rfl]
    rfl
  have hstart : start AccountSetupUi.exampleApp canvas { sampleMachine with world := sampleReady } =
      (some (), { sampleMachine with
        world := sampleReady, sheet := sampleMachine.sheet.withCanvas canvas }) := rfl
  have hrun : main Reader.sampleEngine CnUi.dots (fun _ => true) (some sampleConfig)
      AccountSetupUi.exampleSource true (fun _ => 0) taken [sampleTurn] sampleMachine =
        (some none, m') := by
    unfold main
    dsimp only
    rw [bind_of_eq hinit]
    dsimp only
    rw [hcanvas]
    dsimp only
    rw [if_neg (by decide), bind_of_eq hstart, bind_of_eq hdraw, if_pos rfl]
    exact hloop
  have hwaiting := (waiting_shows Reader.sampleEngine CnUi.sound_dots (fun _ => true)
    (some sampleConfig) AccountSetupUi.exampleSource true (fun _ => 0) taken [sampleTurn]
    (Display.plainFrame 0).2 rfl).of_eq hrun rfl
  exact ⟨m', hrun, hstate, hlocal, hwaiting⟩

end Sample

end AccountSetupMain
