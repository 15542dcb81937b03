import CrossNook.App.Reader

/-!
# The pages of the reader

The life of a document in the EPUB reader (`reader/reader.cpp`): its fonts, its layout, its pages,
and the diagnostics that it writes.

## Main definitions

* `Reader.Pager`: what the reader asks of the layout engine to lay out and to draw a book
* `Reader.Session`: a `cn_reader` with what it has written so far
* `Reader.Command`, `Reader.perform`: the calls of the reader
* `Reader.observe`: what a reader of the diagnostics makes of a line

## Main results

* `Reader.log_tells_state`: the diagnostics alone tell the state of the reader
* `Reader.reader_in_step`: the page of the reader is the one that the engine shows
* `Reader.ensureFont_iff`: which fonts can be had after which
-/

namespace Reader

open ProgressStore (Record)

/-- `cn_reader_config`, of what the engine has a setter for. -/
structure Config where
  fontPath : Option (List UInt8)
  fontSize : ℤ
  lineSpacingPct : ℤ
  marginPx : ℤ
  deriving DecidableEq, Repr

/-- What the reader asks of CREngine to lay out and to draw a book. `I` are the images of a page and
`F` the states of the font manager; a new view has the style sheet and the view mode. -/
structure Pager (D P I F : Type) extends Engine D P where
  newView : D
  resize : D → D
  setFontSize : D → ℤ → D
  setDefaultInterlineSpace : D → ℤ → D
  setPageMargins : D → ℤ → D
  loadDocument : D → List UInt8 → Option D
  goToPage : D → ℤ → D
  draw : D → I × D
  getPageCount : D → ℤ
  initFontManager : F
  registerFont : F → List UInt8 → Bool × F

/-- A line of the diagnostics. -/
inductive Diag
  | openPath (path : List UInt8)
  | pages (n : ℤ)
  | page (n : ℤ)
  | close
  | openFailed (path : List UInt8)
  | fontFailed (font : Option (List UInt8))
  deriving DecidableEq, Repr

/-- The conversion `%d`. -/
def signedDecimal (n : ℤ) : List UInt8 :=
  if n < 0 then Bytes.ascii "-" ++ Bytes.decimal n.natAbs else Bytes.decimal n.natAbs

/-- The text of a line. -/
def Diag.text : Diag → List UInt8
  | openPath path => Bytes.ascii "READER open path=" ++ path ++ Bytes.ascii "\n"
  | pages n => Bytes.ascii "READER pages=" ++ signedDecimal n ++ Bytes.ascii "\n"
  | page n => Bytes.ascii "READER page=" ++ signedDecimal n ++ Bytes.ascii "\n"
  | close => Bytes.ascii "READER close\n"
  | openFailed path => Bytes.ascii "READER ERROR: open failed: " ++ path ++ Bytes.ascii "\n"
  | fontFailed font =>
    Bytes.ascii "READER ERROR: font register failed (" ++
      font.getD (Bytes.ascii "<no font found>") ++ Bytes.ascii ")\n"

/-- `g_font_ready`, `g_font_path` and the font manager. -/
structure Fonts (F : Type) where
  ready : Bool
  path : List UInt8
  manager : F

/-- `cn_reader`, with the fonts of its process and the lines that it has written. -/
structure Session (D F : Type) where
  reader : Reader D
  cfg : Config
  lastDiagPage : ℤ
  fonts : Fonts F
  log : List Diag

section Calls

variable {D P I F : Type} (E : Pager D P I F)

/-- `ensure_font`. -/
def ensureFont (fonts : Fonts F) (font : Option (List UInt8)) : Bool × Fonts F :=
  let fonts :=
    if fonts.ready then fonts else { fonts with ready := true, manager := E.initFontManager }
  match font with
  | none => (true, fonts)
  | some font =>
    if font = [] then (true, fonts)
    else if fonts.path = font then (true, fonts)
    else
      let (registered, manager) := E.registerFont fonts.manager font
      if ¬ registered then (false, { fonts with manager })
      else (true, { fonts with manager, path := font })

/-- `emit_page`. -/
def emitPage (s : Session D F) : Session D F :=
  if s.reader.page = s.lastDiagPage then s
  else { s with log := s.log ++ [.page s.reader.page], lastDiagPage := s.reader.page }

/-- `apply_layout`. -/
def applyLayout (cfg : Config) (doc : D) : D :=
  let doc := if 0 < cfg.fontSize then E.setFontSize doc cfg.fontSize else doc
  let doc :=
    if 0 < cfg.lineSpacingPct ∧ cfg.lineSpacingPct ≠ 100 then
      E.setDefaultInterlineSpace doc cfg.lineSpacingPct
    else doc
  if 0 < cfg.marginPx then E.setPageMargins doc cfg.marginPx else doc

/-- `relayout` of the view `doc`. -/
def relayout (s : Session D F) (doc : D) : Session D F :=
  let doc := applyLayout E s.cfg doc
  let doc := E.resize doc
  let doc := E.goToPage doc 0
  let doc := (E.draw doc).2
  let pages := if E.getPageCount doc < 1 then 1 else E.getPageCount doc
  emitPage { s with reader := ⟨some doc, pages, 0⟩, log := s.log ++ [.pages pages] }

/-- The fonts that `cn_reader_new` looks for. -/
def fontCandidates : List (List UInt8) :=
  [Bytes.ascii "/tmp/test-font.ttf", Bytes.ascii "/opt/test-font.ttf"]

/-- `cn_reader_new`, where `readable` tells which files can be opened: the reader, the fonts of the
process and the diagnostics. -/
def newReader (cfg : Option Config) (readable : List UInt8 → Bool) (callocOk mallocOk : Bool)
    (fonts : Fonts F) : Option (Session D F) × Fonts F × List Diag :=
  if ¬ callocOk then (none, fonts, [])
  else
    let cfg := cfg.getD ⟨none, 0, 0, 0⟩
    let font := cfg.fontPath <|> fontCandidates.find? readable
    let (ok, fonts) := ensureFont E fonts font
    if ¬ ok then (none, fonts, [.fontFailed font])
    else if ¬ mallocOk then (none, fonts, [])
    else (some ⟨⟨none, 0, 0⟩, { cfg with fontPath := font }, -1, fonts, []⟩, fonts, [])

/-- `cn_reader_close`. -/
def close (s : Session D F) : Session D F :=
  match s.reader.doc with
  | none => s
  | some _ => { s with reader := ⟨none, 0, 0⟩, lastDiagPage := -1, log := s.log ++ [.close] }

/-- `cn_reader_open`. -/
def openDocument (s : Session D F) (path : Option (List UInt8)) : ℤ × Session D F :=
  match path with
  | none => (-1, s)
  | some path =>
    let s := close s
    match E.loadDocument (applyLayout E s.cfg (E.resize E.newView)) path with
    | none => (-1, { s with log := s.log ++ [.openFailed path] })
    | some doc => (0, relayout E { s with log := s.log ++ [.openPath path] } doc)

/-- The end of `cn_reader_apply_config`. -/
def relayoutOpen (s : Session D F) : ℤ × Session D F :=
  match s.reader.doc with
  | none => (0, s)
  | some doc => (0, relayout E s doc)

/-- `cn_reader_apply_config`. -/
def applyConfig (s : Session D F) (cfg : Option Config) : ℤ × Session D F :=
  match cfg with
  | none => relayoutOpen E s
  | some cfg =>
    let old := s.cfg.fontPath
    let s := { s with cfg }
    if old = cfg.fontPath then relayoutOpen E s
    else
      let (ok, fonts) := ensureFont E s.fonts cfg.fontPath
      let s := { s with fonts }
      if ¬ ok then (-1, { s with log := s.log ++ [.fontFailed cfg.fontPath] })
      else relayoutOpen E s

/-- `cn_reader_go`. -/
def go (s : Session D F) (page : ℤ) : ℤ × Session D F :=
  match s.reader.doc with
  | none => (0, s)
  | some doc =>
    let page := if page < 0 then 0 else page
    let page := if s.reader.pages - 1 < page then s.reader.pages - 1 else page
    if page ≠ s.reader.page then
      (page, emitPage { s with reader := ⟨some (E.goToPage doc page), s.reader.pages, page⟩ })
    else (s.reader.page, s)

/-- `cn_reader_next`. -/
def next (s : Session D F) : ℤ × Session D F :=
  if s.reader.doc.isNone then (0, s) else go E s (s.reader.page + 1)

/-- `cn_reader_prev`. -/
def prev (s : Session D F) : ℤ × Session D F :=
  if s.reader.doc.isNone then (0, s) else go E s (s.reader.page - 1)

/-- `cn_reader_goto_position`, with its diagnostics. -/
def goPosition (s : Session D F) (position : Record) : ℤ × Session D F :=
  let (code, reader) := s.reader.gotoPosition E.toEngine position
  if code = 0 then (0, emitPage { s with reader }) else (code, s)

/-- `CN_READER_W`. -/
def width : ℤ := 600

/-- `CN_READER_H`. -/
def height : ℤ := 800

/-- `cn_reader_render` into a buffer, which `target` tells to be there: the image that it gets. -/
def render (s : Session D F) (target : Bool) (w h : ℤ) : ℤ × Option I × Session D F :=
  match s.reader.doc with
  | none => (-1, none, s)
  | some doc =>
    if ¬ target ∨ w ≠ width ∨ h ≠ height then (-1, none, s)
    else
      let (image, doc) := E.draw doc
      (0, some image, { s with reader := { s.reader with doc := some doc } })

/-- The calls of a reader that can change it. -/
inductive Command
  | openDocument (path : Option (List UInt8))
  | close
  | applyConfig (cfg : Option Config)
  | go (page : ℤ)
  | next
  | prev
  | goPosition (position : Record)
  | render (target : Bool) (w h : ℤ)

/-- The reader after a call. -/
def perform (s : Session D F) : Command → Session D F
  | .openDocument path => (openDocument E s path).2
  | .close => close s
  | .applyConfig cfg => (applyConfig E s cfg).2
  | .go page => (go E s page).2
  | .next => (next E s).2
  | .prev => (prev E s).2
  | .goPosition position => (goPosition E s position).2
  | .render target w h => (render E s target w h).2.2

/-- The reader after some calls. -/
def performAll (s : Session D F) (commands : List Command) : Session D F :=
  commands.foldl (perform E) s

end Calls

/-- An engine with books of three pages. -/
def sampleEngine : Pager ℤ ℤ ℤ (List (List UInt8)) where
  getBookmark doc := some doc
  toString _ := Bytes.ascii "/a"
  toPoint _ _ := 0
  getFullHeight _ := 1
  createXPointer doc _ := some doc
  getBookmarkPage _ pointer := pointer
  goToBookmark _ pointer := pointer
  getCurPage doc := doc
  newView := 0
  resize doc := doc
  setFontSize doc _ := doc
  setDefaultInterlineSpace doc _ := doc
  setPageMargins doc _ := doc
  loadDocument doc _ := some doc
  goToPage _ n := n
  draw doc := (doc, doc)
  getPageCount _ := 3
  initFontManager := []
  registerFont fonts font := if font ∈ fonts then (false, fonts) else (true, font :: fonts)

/-- A new reader of `sampleEngine`. -/
def sampleSession : Session ℤ (List (List UInt8)) where
  reader := ⟨none, 0, 0⟩
  cfg := ⟨some (Bytes.ascii "/f"), 0, 0, 0⟩
  lastDiagPage := -1
  fonts := ⟨true, Bytes.ascii "/f", [Bytes.ascii "/f"]⟩
  log := []

/-- A book is opened and leafed through. -/
def sampleCommands : List Command :=
  [.openDocument (some (Bytes.ascii "/b")), .next, .goPosition ⟨some (Bytes.ascii "/a"), -1⟩, .go 7]

theorem newReader_sample : newReader sampleEngine (some ⟨some (Bytes.ascii "/f"), 0, 0, 0⟩)
    (fun _ => false) true true ⟨false, [], []⟩ = (some sampleSession, sampleSession.fonts, []) := rfl

/-! ## What the diagnostics tell -/

/-- What a reader of the diagnostics knows: whether a document is open, its pages, and the page. -/
structure Observed where
  isOpen : Bool
  pages : ℤ
  page : ℤ
  deriving DecidableEq, Repr

/-- No document is open. -/
def nothingOpen : Observed := ⟨false, 0, 0⟩

/-- What a line adds. Behind an `open` no page is known. -/
def observe (o : Observed) : Diag → Observed
  | .openPath _ => ⟨true, 0, -1⟩
  | .pages n => { o with pages := n }
  | .page n => { o with page := n }
  | .close => nothingOpen
  | .openFailed _ => o
  | .fontFailed _ => o

/-- What the lines tell. -/
def observed (log : List Diag) : Observed := log.foldl observe nothingOpen

@[simp] theorem observed_snoc (log : List Diag) (line : Diag) :
    observed (log ++ [line]) = observe (observed log) line := by
  unfold observed
  rw [List.foldl_append]
  rfl

/-- No line repeats the page that is known: pages are told on change only. -/
def OnChange (log : List Diag) : Prop :=
  ∀ before n after, log = before ++ .page n :: after → (observed before).page ≠ n

theorem OnChange.nil : OnChange [] := by
  intro before n after h
  simp at h

theorem OnChange.snoc {log : List Diag} {line : Diag} (h : OnChange log)
    (hline : ∀ n, line = .page n → (observed log).page ≠ n) : OnChange (log ++ [line]) := by
  intro before n after heq
  cases hafter : after using List.reverseRecOn with
  | nil =>
    rw [hafter] at heq
    obtain ⟨rfl, hlast⟩ := List.append_inj' heq rfl
    exact hline n (List.cons.inj hlast).1
  | append_singleton rest last =>
    rw [hafter, ← List.cons_append, ← List.append_assoc] at heq
    obtain ⟨hlog, -⟩ := List.append_inj' heq rfl
    exact h before n rest hlog

/-- The lines tell the state of the reader, and pages on change only. -/
structure Logged {D F : Type} (s : Session D F) : Prop where
  observed_eq : observed s.log = ⟨s.reader.doc.isSome, s.reader.pages, s.reader.page⟩
  onChange : OnChange s.log
  closed : s.reader.doc = none → s.reader.pages = 0 ∧ s.reader.page = 0 ∧ s.lastDiagPage = -1
  told : s.reader.doc.isSome → s.lastDiagPage = s.reader.page

/-- The page of the open document is still to be told. -/
structure Untold {D F : Type} (s : Session D F) : Prop where
  isOpen : s.reader.doc.isSome
  observed_eq : observed s.log = ⟨true, s.reader.pages, s.lastDiagPage⟩
  onChange : OnChange s.log

section Log

variable {D P I F : Type} {E : Pager D P I F} {s : Session D F}

theorem Untold.emitPage (h : Untold s) : Logged (emitPage s) := by
  have hclosed : s.reader.doc ≠ none := by
    intro hnone
    have := h.isOpen
    simp [hnone] at this
  unfold Reader.emitPage
  by_cases hpage : s.reader.page = s.lastDiagPage
  · rw [if_pos hpage]
    refine ⟨?_, h.onChange, fun hnone => absurd hnone hclosed, fun _ => hpage.symm⟩
    rw [h.observed_eq, h.isOpen, hpage]
  · rw [if_neg hpage]
    refine ⟨?_, h.onChange.snoc ?_, fun hnone => absurd hnone hclosed, fun _ => rfl⟩
    · rw [observed_snoc, h.observed_eq, h.isOpen]
      rfl
    · intro n hn
      obtain rfl := Diag.page.inj hn
      rw [h.observed_eq]
      exact fun heq => hpage heq.symm

/-- A layout behind lines that tell the last page. -/
theorem logged_relayout {doc : D} (hopen : (observed s.log).isOpen = true)
    (hpage : (observed s.log).page = s.lastDiagPage) (hlog : OnChange s.log) :
    Logged (relayout E s doc) := by
  unfold relayout
  dsimp only
  refine Untold.emitPage ⟨rfl, ?_, hlog.snoc ?_⟩
  · dsimp only
    rw [observed_snoc]
    unfold observe
    rw [hopen, hpage]
  · intro n hn
    cases hn

theorem Logged.close (h : Logged s) : Logged (close s) := by
  unfold Reader.close
  cases hdoc : s.reader.doc with
  | none => exact h
  | some doc =>
    refine ⟨?_, h.onChange.snoc (fun _ hn => by cases hn), fun _ => ⟨rfl, rfl, rfl⟩, ?_⟩
    swap
    · intro hopen
      cases hopen
    rw [observed_snoc]
    rfl

theorem close_doc (s : Session D F) : (Reader.close s).reader.doc = none := by
  unfold Reader.close
  cases hdoc : s.reader.doc with
  | none => exact hdoc
  | some doc => rfl

theorem Logged.openDocument (h : Logged s) (path : Option (List UInt8)) :
    Logged (openDocument E s path).2 := by
  unfold Reader.openDocument
  cases path with
  | none => exact h
  | some path =>
    have hclose := h.close
    have hdoc := close_doc s
    generalize Reader.close s = t at hclose hdoc
    dsimp only
    cases E.loadDocument (applyLayout E t.cfg (E.resize E.newView)) path with
    | none =>
      refine ⟨?_, hclose.onChange.snoc (fun _ hn => by cases hn), hclose.closed, hclose.told⟩
      rw [observed_snoc]
      exact hclose.observed_eq
    | some doc =>
      obtain ⟨-, -, hlast⟩ := hclose.closed hdoc
      refine logged_relayout ?_ ?_ (hclose.onChange.snoc fun _ hn => by cases hn)
      · rw [observed_snoc]
        rfl
      · rw [observed_snoc]
        exact hlast.symm

/-- A layout of the open document. -/
theorem Logged.relayout {doc : D} (h : Logged s) (hdoc : s.reader.doc = some doc) :
    Logged (relayout E s doc) := by
  refine logged_relayout ?_ ?_ h.onChange
  · rw [h.observed_eq, hdoc]
    rfl
  · rw [h.observed_eq, h.told (by rw [hdoc]; rfl)]

theorem Logged.relayoutOpen (h : Logged s) : Logged (relayoutOpen E s).2 := by
  unfold Reader.relayoutOpen
  cases hdoc : s.reader.doc with
  | none => exact h
  | some doc => exact h.relayout hdoc

/-- The lines tell nothing of the configuration and the fonts. -/
theorem Logged.with (h : Logged s) (cfg : Config) (fonts : Fonts F) :
    Logged { s with cfg, fonts } := ⟨h.observed_eq, h.onChange, h.closed, h.told⟩

theorem Logged.applyConfig (h : Logged s) (cfg : Option Config) :
    Logged (applyConfig E s cfg).2 := by
  unfold Reader.applyConfig
  cases cfg with
  | none => exact h.relayoutOpen
  | some cfg =>
    dsimp only
    by_cases hsame : s.cfg.fontPath = cfg.fontPath
    · rw [if_pos hsame]
      exact (h.with cfg s.fonts).relayoutOpen
    rw [if_neg hsame]
    by_cases hok : ¬ (ensureFont E s.fonts cfg.fontPath).1
    · rw [if_pos hok]
      refine ⟨?_, h.onChange.snoc (fun _ hn => by cases hn), h.closed, h.told⟩
      rw [observed_snoc]
      exact h.observed_eq
    · rw [if_neg hok]
      exact (h.with cfg _).relayoutOpen

theorem Logged.go (h : Logged s) (page : ℤ) : Logged (go E s page).2 := by
  unfold Reader.go
  cases hdoc : s.reader.doc with
  | none => exact h
  | some doc =>
    dsimp only
    split_ifs
    all_goals first
      | exact h
      | refine Untold.emitPage ⟨rfl, ?_, h.onChange⟩
        rw [h.observed_eq, hdoc, h.told (by rw [hdoc]; rfl)]
        rfl

theorem Logged.goPosition (h : Logged s) (position : Record) :
    Logged (goPosition E s position).2 := by
  unfold Reader.goPosition
  rcases s.reader.gotoPosition_eq E.toEngine position with hr | ⟨doc, pointer, hdoc, -, hr⟩
  · rw [hr]
    exact h
  · rw [hr]
    refine Untold.emitPage ⟨rfl, ?_, h.onChange⟩
    dsimp only
    rw [h.observed_eq, hdoc, h.told (by rw [hdoc]; rfl)]
    rfl

theorem Logged.render (h : Logged s) (target : Bool) (w h' : ℤ) :
    Logged (render E s target w h').2.2 := by
  unfold Reader.render
  cases hdoc : s.reader.doc with
  | none => exact h
  | some doc =>
    dsimp only
    split_ifs
    · exact h
    · refine ⟨?_, h.onChange, ?_, fun _ => h.told (by rw [hdoc]; rfl)⟩
      · rw [h.observed_eq, hdoc]
        rfl
      · intro hclosed
        cases hclosed

/-- **A call keeps what the lines tell.** -/
theorem Logged.perform (h : Logged s) (command : Command) : Logged (perform E s command) := by
  cases command with
  | openDocument path => exact h.openDocument path
  | close => exact h.close
  | applyConfig cfg => exact h.applyConfig cfg
  | go page => exact h.go page
  | next =>
    unfold Reader.perform Reader.next
    split_ifs
    · exact h
    · exact h.go _
  | prev =>
    unfold Reader.perform Reader.prev
    split_ifs
    · exact h
    · exact h.go _
  | goPosition position => exact h.goPosition position
  | render target w h' => exact h.render target w h'

theorem Logged.performAll (h : Logged s) (commands : List Command) :
    Logged (performAll E s commands) := by
  induction commands generalizing s with
  | nil => exact h
  | cons command commands ih => exact ih (h.perform command)

/-- A new reader has no document and no lines. -/
theorem newReader_eq_some {cfg : Option Config} {readable : List UInt8 → Bool}
    {callocOk mallocOk : Bool} {fonts fonts' : Fonts F} {log : List Diag}
    (h : newReader E cfg readable callocOk mallocOk fonts = (some s, fonts', log)) :
    s.reader = ⟨none, 0, 0⟩ ∧ s.lastDiagPage = -1 ∧ s.log = [] := by
  unfold newReader at h
  dsimp only at h
  split_ifs at h
  · obtain rfl := Option.some.inj (Prod.mk.inj h).1
    exact ⟨rfl, rfl, rfl⟩
  · cases h
  · cases h
  · cases h

/-- **The diagnostics tell the state of the reader.** After any calls of a new reader, whatever the
engine answers, the lines that it has written tell whether a document is open, how many pages it has
and which one is shown, and no line tells a page that was known. -/
theorem log_tells_state {cfg : Option Config} {readable : List UInt8 → Bool}
    {callocOk mallocOk : Bool} {fonts fonts' : Fonts F} {log : List Diag}
    (h : newReader E cfg readable callocOk mallocOk fonts = (some s, fonts', log))
    (commands : List Command) :
    observed (performAll E s commands).log =
      ⟨(performAll E s commands).reader.doc.isSome, (performAll E s commands).reader.pages,
        (performAll E s commands).reader.page⟩ ∧
    OnChange (performAll E s commands).log := by
  obtain ⟨hreader, hlast, hlog⟩ := newReader_eq_some h
  have hstart : Logged s := by
    refine ⟨?_, ?_, fun _ => ?_, fun hopen => ?_⟩
    · rw [hlog, hreader]
      rfl
    · rw [hlog]
      exact .nil
    · rw [hreader]
      exact ⟨rfl, rfl, hlast⟩
    · rw [hreader] at hopen
      cases hopen
  have hend := hstart.performAll (E := E) commands
  exact ⟨hend.observed_eq, hend.onChange⟩

theorem log_tells_state_sample :
    (performAll sampleEngine sampleSession sampleCommands).log =
      [.openPath (Bytes.ascii "/b"), .pages 3, .page 0, .page 1, .page 2] ∧
    observed (performAll sampleEngine sampleSession sampleCommands).log = ⟨true, 3, 2⟩ := by
  have hlog : (performAll sampleEngine sampleSession sampleCommands).log =
      [.openPath (Bytes.ascii "/b"), .pages 3, .page 0, .page 1, .page 2] := by decide +kernel
  have hstate := (log_tells_state newReader_sample sampleCommands).1
  refine ⟨hlog, hstate.trans ?_⟩
  decide +kernel

end Log

/-! ## The engine in step -/

/-- What the reader relies on in the engine, where `laidOut` are the views that have been drawn: a
view goes where it is sent, and once it is laid out it keeps its pages. -/
structure Pager.Lawful {D P I F : Type} (E : Pager D P I F) (laidOut : D → Prop) : Prop where
  first_page : ∀ doc, E.getCurPage (E.goToPage doc 0) = 0
  draw_page : ∀ doc, E.getCurPage (E.draw doc).2 = E.getCurPage doc
  draw_laidOut : ∀ doc, laidOut (E.draw doc).2
  draw_count : ∀ doc, laidOut doc → E.getPageCount (E.draw doc).2 = E.getPageCount doc
  goToPage_laidOut : ∀ doc n, laidOut doc → laidOut (E.goToPage doc n)
  goToPage_count : ∀ doc n, laidOut doc → E.getPageCount (E.goToPage doc n) = E.getPageCount doc
  goToPage_page : ∀ doc n, laidOut doc → 0 ≤ n → n < E.getPageCount doc →
    E.getCurPage (E.goToPage doc n) = n
  goToBookmark_laidOut : ∀ doc p, laidOut doc → laidOut (E.goToBookmark doc p)
  goToBookmark_count : ∀ doc p, laidOut doc →
    E.getPageCount (E.goToBookmark doc p) = E.getPageCount doc
  goToBookmark_page : ∀ doc p, laidOut doc → 0 ≤ E.getBookmarkPage doc p →
    E.getCurPage (E.goToBookmark doc p) = E.getBookmarkPage doc p

/-- The reader has the pages and the page of the engine. -/
structure Shows {D P I F : Type} (E : Pager D P I F) (laidOut : D → Prop) (reader : Reader D)
    (doc : D) : Prop where
  laid : laidOut doc
  pages_eq : reader.pages = max 1 (E.getPageCount doc)
  page_eq : reader.page = E.getCurPage doc
  page_nonneg : 0 ≤ reader.page
  page_lt : reader.page < reader.pages

/-- The reader is closed, or in step with the engine. -/
structure InStep {D P I F : Type} (E : Pager D P I F) (laidOut : D → Prop) (reader : Reader D) :
    Prop where
  closed : reader.doc = none → reader.pages = 0 ∧ reader.page = 0
  shows : ∀ doc, reader.doc = some doc → Shows E laidOut reader doc

section Step

variable {D P I F : Type} {E : Pager D P I F} {laidOut : D → Prop} {s : Session D F}
  {reader : Reader D} {doc : D}

@[simp] theorem emitPage_reader (s : Session D F) : (emitPage s).reader = s.reader := by
  unfold emitPage
  split_ifs <;> rfl

theorem InStep.of_closed (hdoc : reader.doc = none) (hpages : reader.pages = 0)
    (hpage : reader.page = 0) : InStep E laidOut reader := by
  refine ⟨fun _ => ⟨hpages, hpage⟩, ?_⟩
  intro doc h
  rw [hdoc] at h
  cases h

theorem Shows.inStep (h : Shows E laidOut reader doc) (hdoc : reader.doc = some doc) :
    InStep E laidOut reader := by
  constructor
  · intro hnone
    rw [hdoc] at hnone
    cases hnone
  · intro doc' h'
    rw [hdoc] at h'
    rwa [← Option.some.inj h']

/-- A new layout is in step, whatever came before. -/
theorem inStep_relayout (hE : E.Lawful laidOut) (s : Session D F) (doc : D) :
    InStep E laidOut (relayout E s doc).reader := by
  unfold relayout
  dsimp only
  rw [emitPage_reader]
  refine Shows.inStep ⟨hE.draw_laidOut _, ?_, ?_, le_rfl, ?_⟩ rfl
  · dsimp only
    split_ifs with hcount <;> omega
  · dsimp only
    rw [hE.draw_page, hE.first_page]
  · dsimp only
    split_ifs with hcount <;> omega

theorem inStep_close (s : Session D F) (h : InStep E laidOut s.reader) :
    InStep E laidOut (close s).reader := by
  unfold close
  cases hdoc : s.reader.doc with
  | none => exact h
  | some doc => exact .of_closed rfl rfl rfl

theorem InStep.openDocument (hE : E.Lawful laidOut) (h : InStep E laidOut s.reader)
    (path : Option (List UInt8)) : InStep E laidOut (openDocument E s path).2.reader := by
  unfold Reader.openDocument
  cases path with
  | none => exact h
  | some path =>
    have hclose := inStep_close s h
    generalize close s = t at hclose
    dsimp only
    cases E.loadDocument (applyLayout E t.cfg (E.resize E.newView)) path with
    | none => exact hclose
    | some doc => exact inStep_relayout hE _ doc

theorem InStep.relayoutOpen (hE : E.Lawful laidOut) (h : InStep E laidOut s.reader) :
    InStep E laidOut (relayoutOpen E s).2.reader := by
  unfold Reader.relayoutOpen
  cases hdoc : s.reader.doc with
  | none => exact h
  | some doc => exact inStep_relayout hE s doc

theorem InStep.applyConfig (hE : E.Lawful laidOut) (h : InStep E laidOut s.reader)
    (cfg : Option Config) : InStep E laidOut (applyConfig E s cfg).2.reader := by
  unfold Reader.applyConfig
  cases cfg with
  | none => exact h.relayoutOpen hE
  | some cfg =>
    dsimp only
    by_cases hsame : s.cfg.fontPath = cfg.fontPath
    · rw [if_pos hsame]
      exact InStep.relayoutOpen (s := { s with cfg }) hE h
    rw [if_neg hsame]
    by_cases hok : ¬ (ensureFont E s.fonts cfg.fontPath).1
    · rw [if_pos hok]
      exact h
    · rw [if_neg hok]
      exact InStep.relayoutOpen (s := { s with cfg, fonts := _ }) hE h

/-- **A page that is asked for is shown as far as there are pages.** -/
theorem InStep.go (hE : E.Lawful laidOut) (h : InStep E laidOut s.reader) (page : ℤ) :
    InStep E laidOut (go E s page).2.reader := by
  unfold Reader.go
  cases hdoc : s.reader.doc with
  | none => exact h
  | some doc =>
    have hshows := h.shows doc hdoc
    dsimp only
    -- the page that is gone to is one of the document
    have hrange : ∀ n, n = (if s.reader.pages - 1 < (if page < 0 then 0 else page) then
        s.reader.pages - 1 else if page < 0 then 0 else page) → 0 ≤ n ∧ n < s.reader.pages := by
      rintro n rfl
      have := hshows.page_nonneg
      have := hshows.page_lt
      split_ifs <;> omega
    generalize (if s.reader.pages - 1 < (if page < 0 then 0 else page) then
      s.reader.pages - 1 else if page < 0 then 0 else page) = n at hrange
    obtain ⟨hnonneg, hlt⟩ := hrange n rfl
    by_cases hsame : n ≠ s.reader.page
    swap
    · rw [if_neg hsame]
      exact h
    rw [if_pos hsame]
    dsimp only
    rw [emitPage_reader]
    have hcount := hE.goToPage_count doc n hshows.laid
    refine Shows.inStep ⟨hE.goToPage_laidOut doc n hshows.laid, ?_, ?_, hnonneg, hlt⟩ rfl
    · dsimp only
      rw [hcount, hshows.pages_eq]
    · -- a document with one page at most is never moved in
      have hpages := hshows.pages_eq
      have hpage := hshows.page_lt
      have hpage' := hshows.page_nonneg
      exact (hE.goToPage_page doc n hshows.laid hnonneg (by omega)).symm

theorem InStep.goPosition (hE : E.Lawful laidOut) (h : InStep E laidOut s.reader)
    (position : Record) : InStep E laidOut (goPosition E s position).2.reader := by
  unfold Reader.goPosition Reader.gotoPosition
  cases hr : resolvePosition E.toEngine s.reader position with
  | none => exact h
  | some resolved =>
    obtain ⟨doc, pointer⟩ := resolved
    have hshows := h.shows doc (resolvePosition_eq_some E.toEngine hr).1
    dsimp only
    by_cases hout : E.getBookmarkPage doc pointer < 0 ∨
        s.reader.pages ≤ E.getBookmarkPage doc pointer
    · rw [if_pos hout]
      exact h
    rw [if_neg hout]
    obtain ⟨hnonneg, hlt⟩ := not_or.mp hout
    have hpage := hE.goToBookmark_page doc pointer hshows.laid (not_lt.mp hnonneg)
    dsimp only
    rw [if_pos rfl]
    dsimp only
    rw [emitPage_reader]
    refine Shows.inStep ⟨hE.goToBookmark_laidOut doc pointer hshows.laid, ?_, rfl, ?_, ?_⟩ rfl
    · dsimp only
      rw [hE.goToBookmark_count doc pointer hshows.laid, hshows.pages_eq]
    · dsimp only
      rw [hpage]
      exact not_lt.mp hnonneg
    · dsimp only
      rw [hpage]
      exact not_le.mp hlt

theorem InStep.render (hE : E.Lawful laidOut) (h : InStep E laidOut s.reader) (target : Bool)
    (w h' : ℤ) : InStep E laidOut (render E s target w h').2.2.reader := by
  unfold Reader.render
  cases hdoc : s.reader.doc with
  | none => exact h
  | some doc =>
    have hshows := h.shows doc hdoc
    dsimp only
    split_ifs
    · exact h
    · refine Shows.inStep ⟨hE.draw_laidOut doc, ?_, ?_, hshows.page_nonneg, hshows.page_lt⟩ rfl
      · dsimp only
        rw [hE.draw_count doc hshows.laid, hshows.pages_eq]
      · dsimp only
        rw [hE.draw_page, hshows.page_eq]

/-- **A call keeps the reader in step.** -/
theorem InStep.perform (hE : E.Lawful laidOut) (h : InStep E laidOut s.reader)
    (command : Command) : InStep E laidOut (perform E s command).reader := by
  cases command with
  | openDocument path => exact h.openDocument hE path
  | close => exact inStep_close s h
  | applyConfig cfg => exact h.applyConfig hE cfg
  | go page => exact h.go hE page
  | next =>
    unfold Reader.perform Reader.next
    split_ifs
    · exact h
    · exact h.go hE _
  | prev =>
    unfold Reader.perform Reader.prev
    split_ifs
    · exact h
    · exact h.go hE _
  | goPosition position => exact h.goPosition hE position
  | render target w h' => exact h.render hE target w h'

/-- **The reader is in step with the engine.** After any calls of a new reader, in any order, the
open document is at the page that the reader tells, which is one of its pages, and a reader without
a document tells no pages. -/
theorem reader_in_step (hE : E.Lawful laidOut) {cfg : Option Config}
    {readable : List UInt8 → Bool} {callocOk mallocOk : Bool} {fonts fonts' : Fonts F}
    {log : List Diag} (h : newReader E cfg readable callocOk mallocOk fonts = (some s, fonts', log))
    (commands : List Command) : InStep E laidOut (performAll E s commands).reader := by
  obtain ⟨hreader, -, -⟩ := newReader_eq_some h
  have hstart : InStep E laidOut s.reader := by
    rw [hreader]
    exact .of_closed rfl rfl rfl
  clear h hreader
  induction commands generalizing s with
  | nil => exact hstart
  | cons command commands ih => exact ih (hstart.perform hE command)

theorem reader_in_step_sample : InStep sampleEngine (fun _ => True)
    (performAll sampleEngine sampleSession sampleCommands).reader := by
  have hE : sampleEngine.Lawful fun _ => True := by
    constructor <;> intros <;> trivial
  exact reader_in_step hE newReader_sample sampleCommands

end Step

/-! ## Fonts -/

/-- What the reader relies on in the font manager: a font is registered once, if it can be
loaded. -/
structure Pager.Registers {D P I F : Type} (E : Pager D P I F) (loadable : List UInt8 → Bool)
    (registered : F → Set (List UInt8)) : Prop where
  init : registered E.initFontManager = ∅
  accepts : ∀ manager font, (E.registerFont manager font).1 = true ↔
    font ∉ registered manager ∧ loadable font
  refuses : ∀ manager font, (E.registerFont manager font).1 = false →
    registered (E.registerFont manager font).2 = registered manager
  inserts : ∀ manager font, (E.registerFont manager font).1 = true →
    registered (E.registerFont manager font).2 = insert font (registered manager)

/-- The fonts of a process after some requests. -/
def requested {D P I F : Type} (E : Pager D P I F) (manager : F)
    (requests : List (Option (List UInt8))) : Fonts F :=
  requests.foldl (fun fonts font => (ensureFont E fonts font).2) ⟨false, [], manager⟩

/-- The font of a request, if it can be loaded and is new. -/
def newFont (loadable : List UInt8 → Bool) (known : List (List UInt8))
    (font : Option (List UInt8)) : List (List UInt8) :=
  font.toList.filter fun font => font ≠ [] ∧ loadable font ∧ font ∉ known

/-- The fonts that can be loaded, in the order in which they were first asked for. -/
def newFonts (loadable : List UInt8 → Bool) (requests : List (Option (List UInt8))) :
    List (List UInt8) :=
  requests.foldl (fun known font => known ++ newFont loadable known font) []

section Fonts

variable {D P I F : Type} {E : Pager D P I F} {loadable : List UInt8 → Bool}
  {registered : F → Set (List UInt8)} {fonts : Fonts F} {known : List (List UInt8)}

/-- The process has registered the fonts, of which it remembers the last. -/
structure Remembers (registered : F → Set (List UInt8)) (known : List (List UInt8))
    (fonts : Fonts F) : Prop where
  path_eq : fonts.path = known.getLast?.getD []
  ready : fonts.ready = false → known = []
  registered_eq : fonts.ready = true → registered fonts.manager = {font | font ∈ known}
  nonempty : [] ∉ known

theorem newFonts_snoc (requests : List (Option (List UInt8))) (font : Option (List UInt8)) :
    newFonts loadable (requests ++ [font]) =
      newFonts loadable requests ++ newFont loadable (newFonts loadable requests) font := by
  unfold newFonts
  rw [List.foldl_append]
  rfl

theorem newFont_of_new {font : List UInt8} (hempty : font ≠ []) (hloads : loadable font)
    (hfresh : font ∉ known) : newFont loadable known (some font) = [font] := by
  simp [newFont, hempty, hloads, hfresh]

theorem newFont_of_old {font : List UInt8} (h : font = [] ∨ ¬ loadable font ∨ font ∈ known) :
    newFont loadable known (some font) = [] := by
  rcases h with h | h | h <;> simp [newFont, h]

/-- **One request**: the last font again, or one that can be loaded and is new. -/
theorem Remembers.ensureFont (hE : E.Registers loadable registered)
    (h : Remembers registered known fonts) (font : Option (List UInt8)) :
    ((ensureFont E fonts font).1 = true ↔ ∀ f ∈ font, f = [] ∨ known.getLast? = some f ∨
      (loadable f ∧ f ∉ known)) ∧
    Remembers registered (known ++ newFont loadable known font) (ensureFont E fonts font).2 := by
  -- the manager is there before it is asked
  obtain ⟨started, hstarted, hremembers, hready⟩ : ∃ started : Fonts F,
      (if fonts.ready then fonts else
        { fonts with ready := true, manager := E.initFontManager }) = started ∧
      Remembers registered known started ∧ started.ready = true := by
    refine ⟨_, rfl, ?_⟩
    by_cases hr : fonts.ready
    · rw [if_pos hr]
      exact ⟨h, hr⟩
    · rw [if_neg hr]
      have hknown := h.ready (Bool.eq_false_iff.mpr hr)
      subst hknown
      refine ⟨⟨h.path_eq, fun _ => rfl, fun _ => ?_, h.nonempty⟩, rfl⟩
      dsimp only
      rw [hE.init]
      simp
  unfold Reader.ensureFont
  rw [hstarted]
  dsimp only
  have hregistered := hremembers.registered_eq hready
  cases font with
  | none => exact ⟨by simp, by simpa [newFont] using hremembers⟩
  | some font =>
    dsimp only
    by_cases hempty : font = []
    · rw [if_pos hempty, newFont_of_old (.inl hempty), List.append_nil]
      exact ⟨by simp [hempty], hremembers⟩
    rw [if_neg hempty]
    by_cases hpath : started.path = font
    · -- the last font again
      have hlast : known.getLast? = some font := by
        rw [hremembers.path_eq] at hpath
        cases hk : known.getLast? with
        | none =>
          rw [hk] at hpath
          exact absurd hpath.symm hempty
        | some last =>
          rw [hk] at hpath
          exact congrArg some hpath
      have hmem : font ∈ known := List.mem_of_getLast? hlast
      rw [if_pos hpath, newFont_of_old (.inr (.inr hmem)), List.append_nil]
      exact ⟨by simp [hlast], hremembers⟩
    rw [if_neg hpath]
    have hlast : known.getLast? ≠ some font := by
      intro hk
      rw [hremembers.path_eq, hk] at hpath
      exact hpath rfl
    have haccepts := hE.accepts started.manager font
    rw [hregistered] at haccepts
    cases hr : (E.registerFont started.manager font).1 with
    | false =>
      rw [hr] at haccepts
      have hnot : ¬ (font ∉ known ∧ loadable font) := fun hnew => by
        simpa using haccepts.mpr hnew
      have hnew : ¬ (loadable font ∧ font ∉ known) := fun hnew => hnot hnew.symm
      have hold : ¬ loadable font ∨ font ∈ known := by
        by_contra hnone
        obtain ⟨hloads, hfresh⟩ := not_or.mp hnone
        exact hnew ⟨not_not.mp hloads, hfresh⟩
      rw [if_pos (by simp), newFont_of_old (.inr hold), List.append_nil]
      refine ⟨by simp [hempty, hlast, hnew], ?_⟩
      refine ⟨hremembers.path_eq, hremembers.ready, fun _ => ?_, hremembers.nonempty⟩
      rw [← hregistered]
      exact hE.refuses _ _ hr
    | true =>
      rw [hr] at haccepts
      obtain ⟨hfresh, hloads⟩ := haccepts.mp rfl
      have hfresh : font ∉ known := hfresh
      rw [if_neg (by simp), newFont_of_new hempty hloads hfresh]
      refine ⟨by simp [hloads, hfresh], ?_⟩
      refine ⟨by simp, ?_, fun _ => ?_, ?_⟩
      · intro hnot
        rw [hready] at hnot
        cases hnot
      · rw [hE.inserts _ _ hr, hregistered]
        ext f
        simp [or_comm]
      · simp [hremembers.nonempty, Ne.symm hempty]

theorem remembers_requested (hE : E.Registers loadable registered) (manager : F)
    (requests : List (Option (List UInt8))) :
    Remembers registered (newFonts loadable requests) (requested E manager requests) := by
  induction requests using List.reverseRecOn with
  | nil => exact ⟨rfl, fun _ => rfl, (fun h => by cases h), List.not_mem_nil⟩
  | append_singleton requests font ih =>
    rw [newFonts_snoc]
    unfold requested
    rw [List.foldl_append]
    exact (ih.ensureFont hE font).2

/-- **Which fonts can be had.** After any requests of a process, a font is granted if it is the
default, if it is the one that was registered last, or if it can be loaded and was never asked for.
A font that was asked for before another new one is refused. -/
theorem ensureFont_iff (hE : E.Registers loadable registered) (manager : F)
    (requests : List (Option (List UInt8))) (font : List UInt8) :
    (ensureFont E (requested E manager requests) (some font)).1 = true ↔
      font = [] ∨ (newFonts loadable requests).getLast? = some font ∨
        (loadable font ∧ some font ∉ requests) := by
  have h := ((remembers_requested hE manager requests).ensureFont hE (some font)).1
  rw [h]
  -- a font that can be loaded is new where it was not asked for
  have hmem : ∀ requests : List (Option (List UInt8)), font ≠ [] → loadable font →
      (font ∈ newFonts loadable requests ↔ some font ∈ requests) := by
    intro requests hempty hloads
    induction requests using List.reverseRecOn with
    | nil => simp [newFonts]
    | append_singleton requests last ih =>
      rw [newFonts_snoc, List.mem_append, List.mem_append, ih]
      by_cases hasked : some font ∈ requests
      · simp [hasked]
      · have hfresh := mt ih.mp hasked
        constructor
        · rintro (hold | hnew)
          · exact absurd hold hasked
          · have hlast := List.mem_of_mem_filter hnew
            exact .inr (by simpa [eq_comm] using hlast)
        · rintro (hold | hnew)
          · exact absurd hold hasked
          · obtain rfl := List.mem_singleton.mp hnew
            rw [newFont_of_new hempty hloads hfresh]
            exact .inr List.mem_cons_self
  by_cases hempty : font = []
  · simp [hempty]
  by_cases hloads : loadable font
  · simp [hempty, hloads, hmem requests hempty hloads]
  · simp [hempty, hloads]

theorem ensureFont_iff_sample :
    (ensureFont sampleEngine (requested sampleEngine [] [some [1], some [2]]) (some [2])).1 = true ∧
    (ensureFont sampleEngine (requested sampleEngine [] [some [1], some [2]]) (some [1])).1 =
      false := by
  have hE : sampleEngine.Registers (fun _ => true) fun fonts => {font | font ∈ fonts} := by
    refine ⟨?_, ?_, ?_, ?_⟩
    · simp [sampleEngine]
    · intro fonts font
      by_cases h : font ∈ fonts <;> simp [sampleEngine, h]
    · intro fonts font
      by_cases h : font ∈ fonts <;> simp [sampleEngine, h]
    · intro fonts font
      by_cases h : font ∈ fonts <;> simp [sampleEngine, h, Set.insert_def]
  refine ⟨(ensureFont_iff hE [] _ [2]).mpr (by decide +kernel), Bool.eq_false_iff.mpr ?_⟩
  exact mt (ensureFont_iff hE [] _ [1]).mp (by decide +kernel)

end Fonts

end Reader
