import CrossNook.System.RingQueue
import CrossNook.UI.Ui

/-!
# The input layer

The layer that turns the records of the three input devices into the events of the user interface
(`platform/nook/input.c`): the buttons, the aggregation of touch records into gestures, and the
queue from which the events are delivered.

## Main definitions

* `CnInput.consume`: `consume`, one record of a device
* `CnInput.touched`: the events that a stream of touch records pushes
* `CnInput.framesOf`: the frames of such a stream, by what its records say
* `CnInput.Gesture`: the frames of one contact, and the events that belong to it

## Main results

* `CnInput.foldl_consume_touch`: the queue after a stream of touch records
* `CnInput.exists_gestures`: the events of a stream are those of its gestures
* `CnInput.input_layer`: the gestures and the queue
-/

/-- `input_event_le`, without the time, which is not read. -/
structure RawEvent where
  type : UInt16
  code : UInt16
  value : ℤ
  deriving DecidableEq

/-- `cn_input_ev`, with the device it came from. -/
structure QueuedEv where
  ev : InputEv
  rawDev : ℕ
  deriving DecidableEq

/-- The fields of `cn_input` that aggregate touch records. -/
structure Touch where
  frameX : ℤ
  frameY : ℤ
  frameDown : Bool
  curX : ℤ
  curY : ℤ
  gesture : Bool
  lastEmitX : ℤ
  lastEmitY : ℤ
  deriving DecidableEq

/-- `QUEUE_MAX`. -/
abbrev queueMax : ℕ := 64

/-- `cn_input`, with its queue and the fields for the touch records. -/
structure CnInput where
  queue : RingQueue QueuedEv queueMax
  touch : Touch

namespace CnInput

/-! ## Records -/

def evSyn : UInt16 := 0x00
def evKey : UInt16 := 0x01
def evAbs : UInt16 := 0x03
def keyMenu : UInt16 := 139
def keyHome : UInt16 := 102
def keyPower : UInt16 := 116
def keyPrevious : UInt16 := 412
def keyNext : UInt16 := 407
def keyBack : UInt16 := 158
def absX : UInt16 := 0x00
def absY : UInt16 := 0x01
def btnTouch : UInt16 := 330
def synReport : UInt16 := 0

/-- `CN_FB_W` and `CN_FB_H`. -/
def fbW : ℤ := 600
def fbH : ℤ := 800

/-- `map_raw`. -/
def mapRaw (dev : ℕ) (type code : UInt16) : InputEvent :=
  if type = evKey then
    if dev = 0 then
      if code = keyNext then .pageNext
      else if code = keyPrevious then .pagePrev
      else if code = keyMenu then .menu
      else if code = keyBack then .back
      else .none
    else if dev = 1 then
      if code = keyHome then .home
      else if code = keyPower then .powerDown
      else .none
    else .none
  else .none

/-- A coordinate cut to the screen. -/
def clamp (bound v : ℤ) : ℤ :=
  let v := if v < 0 then 0 else v
  if bound - 1 < v then bound - 1 else v

/-- The end of a frame: the fields after it, and the event it pushes. -/
def endFrame (t : Touch) : Touch × Option InputEv :=
  let x := clamp fbW t.frameX
  let y := clamp fbH t.frameY
  if t.frameDown then
    if ¬ t.gesture then
      ({ t with gesture := true, curX := x, curY := y, lastEmitX := x, lastEmitY := y },
        some ⟨.touchDown, x, y⟩)
    else if x ≠ t.lastEmitX ∨ y ≠ t.lastEmitY then
      ({ t with curX := x, curY := y, lastEmitX := x, lastEmitY := y }, some ⟨.touchMove, x, y⟩)
    else ({ t with curX := x, curY := y }, none)
  else if t.gesture then
    ({ t with gesture := false, curX := 0, curY := 0, lastEmitX := 0, lastEmitY := 0 },
      some ⟨.touchUp, t.curX, t.curY⟩)
  else (t, none)

/-- `consume` on a record of the touch screen: the fields, and the event that is pushed. -/
def consumeTouch (t : Touch) (ev : RawEvent) : Touch × Option InputEv :=
  if ev.type = evAbs then
    if ev.code = absX then ({ t with frameX := ev.value }, none)
    else if ev.code = absY then ({ t with frameY := ev.value }, none)
    else (t, none)
  else if ev.type = evKey ∧ ev.code = btnTouch then
    ({ t with frameDown := decide (ev.value ≠ 0) }, none)
  else if ev.type = evSyn ∧ ev.code = synReport then endFrame t
  else (t, none)

/-- `push`. -/
def push (input : CnInput) (type : InputEvent) (x y : ℤ) (raw : ℕ) : CnInput :=
  { input with queue := input.queue.push ⟨⟨type, x, y⟩, raw⟩ }

/-- `consume`. -/
def consume (input : CnInput) (dev : ℕ) (ev : RawEvent) : CnInput :=
  if dev = 2 then
    let (t, pushed) := consumeTouch input.touch ev
    let input := { input with touch := t }
    match pushed with
    | none => input
    | some e => input.push e.type e.x e.y dev
  else
    let sev := mapRaw dev ev.type ev.code
    if sev = .none then input
    else if sev = .powerDown then
      input.push (if ev.value ≠ 0 then .powerDown else .powerUp) 0 0 dev
    else if ev.value ≠ 0 then input.push sev 0 0 dev
    else input

/-- The fields for the touch records in a block of `calloc`. -/
def idle : Touch := ⟨0, 0, false, 0, 0, false, 0, 0⟩

/-- `cn_input_open`: the queue and the fields are zeroed. -/
def opened : CnInput where
  queue := ⟨fun _ => ⟨⟨.none, 0, 0⟩, 0⟩, 0, 0, by decide, by decide⟩
  touch := idle

/-! ## The events of a stream of touch records -/

/-- The fields after a record, and the events pushed so far. -/
def touchStep (s : Touch × List InputEv) (ev : RawEvent) : Touch × List InputEv :=
  ((consumeTouch s.1 ev).1, s.2 ++ (consumeTouch s.1 ev).2.toList)

/-- The fields after a stream of touch records, and the events that it pushes. -/
def touched (records : List RawEvent) : Touch × List InputEv := records.foldl touchStep (idle, [])

theorem touched_append_singleton (records : List RawEvent) (ev : RawEvent) :
    touched (records ++ [ev]) = touchStep (touched records) ev := by
  rw [touched, List.foldl_append]
  rfl

/-- **The queue after a stream of touch records.** -/
theorem foldl_consume_touch (records : List RawEvent) :
    records.foldl (fun input ev => input.consume 2 ev) opened =
      { queue := ((touched records).2.map fun e => (⟨e, 2⟩ : QueuedEv)).foldl RingQueue.push
          opened.queue
        touch := (touched records).1 } := by
  induction records using List.reverseRecOn with
  | nil => rfl
  | append_singleton records ev ih =>
    rw [List.foldl_append, ih, touched_append_singleton, touchStep]
    simp only [List.foldl_cons, List.foldl_nil, consume, if_true]
    cases (consumeTouch (touched records).1 ev).2 with
    | none => simp
    | some e => simp [push]

/-! ## Frames -/

/-- A frame: the coordinates and the contact that the records before it have told last. -/
structure Frame where
  x : ℤ
  y : ℤ
  down : Bool
  deriving DecidableEq

/-- The value that a record gives a coordinate. -/
def RawEvent.coordinate (code : UInt16) (ev : RawEvent) : Option ℤ :=
  if ev.type = evAbs ∧ ev.code = code then some ev.value else none

/-- What a record says about the contact. -/
def RawEvent.contact (ev : RawEvent) : Option Bool :=
  if ev.type = evKey ∧ ev.code = btnTouch then some (decide (ev.value ≠ 0)) else none

/-- A record that ends a frame. -/
def RawEvent.ends (ev : RawEvent) : Bool := ev.type = evSyn ∧ ev.code = synReport

/-- What the records have told last. -/
def frameAt (records : List RawEvent) : Frame where
  x := (records.filterMap (RawEvent.coordinate absX)).getLast?.getD 0
  y := (records.filterMap (RawEvent.coordinate absY)).getLast?.getD 0
  down := (records.filterMap RawEvent.contact).getLast?.getD false

/-- The frames of a stream of records, one for each record that ends a frame. -/
def framesOf (records : List RawEvent) : List Frame :=
  (records.inits.filter fun l => l.getLast?.any RawEvent.ends).map frameAt

/-- The place of a frame on the screen. -/
def Frame.position (f : Frame) : ℤ × ℤ := (clamp fbW f.x, clamp fbH f.y)

theorem framesOf_append_singleton (records : List RawEvent) (ev : RawEvent) :
    framesOf (records ++ [ev]) =
      framesOf records ++ if RawEvent.ends ev then [frameAt (records ++ [ev])] else [] := by
  rw [framesOf, List.inits_append, List.filter_append, List.map_append]
  congr 1
  cases hends : RawEvent.ends ev <;> simp [hends]

theorem clamp_bounds {bound : ℤ} (h : 0 < bound) (v : ℤ) :
    0 ≤ clamp bound v ∧ clamp bound v ≤ bound - 1 := by
  unfold clamp
  split_ifs <;> dsimp only at * <;> omega

/-! ## Gestures -/

/-- The places of a contact, each kept where it differs from the one before. -/
def stops (places : List (ℤ × ℤ)) : List (ℤ × ℤ) :=
  places.foldl (fun kept p => if kept.getLast? = some p then kept else kept ++ [p]) []

theorem stops_append_singleton (places : List (ℤ × ℤ)) (p : ℤ × ℤ) :
    stops (places ++ [p]) =
      if (stops places).getLast? = some p then stops places else stops places ++ [p] := by
  rw [stops, List.foldl_append]
  rfl

/-- The last place is kept. -/
theorem getLast?_stops (places : List (ℤ × ℤ)) : (stops places).getLast? = places.getLast? := by
  induction places using List.reverseRecOn with
  | nil => rfl
  | append_singleton places p _ =>
    rw [stops_append_singleton]
    split_ifs with h
    · simp [h]
    · simp

/-- No place is kept twice in a row. -/
theorem isChain_stops (places : List (ℤ × ℤ)) : (stops places).IsChain (· ≠ ·) := by
  induction places using List.reverseRecOn with
  | nil => exact List.isChain_nil
  | append_singleton places p ih =>
    rw [stops_append_singleton]
    split_ifs with h
    · exact ih
    · refine List.isChain_append.mpr ⟨ih, List.isChain_singleton p, ?_⟩
      intro a ha b hb heq
      obtain rfl : p = b := by simpa using hb
      exact h (heq ▸ ha)

theorem stops_ne_nil {places : List (ℤ × ℤ)} (h : places ≠ []) : stops places ≠ [] := by
  intro hnil
  have hlast := getLast?_stops places
  rw [hnil] at hlast
  exact h (List.getLast?_eq_none_iff.mp hlast.symm)

/-- One contact: the frames without contact before it, its frames, and the frame of its release,
unless the contact lasts. -/
structure Gesture where
  before : List Frame
  contacts : List Frame
  release : Option Frame

namespace Gesture

/-- The contact lasts as long as the frames say so. -/
structure WellFormed (g : Gesture) : Prop where
  before : ∀ f ∈ g.before, f.down = false
  contacts_ne_nil : g.contacts ≠ []
  contacts : ∀ f ∈ g.contacts, f.down = true
  release : ∀ f ∈ g.release, f.down = false

/-- The frames of the gesture. -/
def frames (g : Gesture) : List Frame := g.before ++ g.contacts ++ g.release.toList

/-- The event of a place. -/
def event (type : InputEvent) (p : ℤ × ℤ) : InputEv := ⟨type, p.1, p.2⟩

/-- The events of the contact while it lasts. -/
def moves (g : Gesture) : List InputEv :=
  match stops (g.contacts.map Frame.position) with
  | [] => []
  | p :: ps => event .touchDown p :: ps.map (event .touchMove)

/-- The events of the gesture. The release carries the place of the last frame in contact. -/
def events (g : Gesture) : List InputEv :=
  g.moves ++ (g.release.bind fun _ =>
    g.contacts.getLast?.map fun f => event .touchUp f.position).toList

end Gesture

/-- The frames of finished gestures. -/
abbrev Finished (gestures : List Gesture) : Prop :=
  ∀ g ∈ gestures, g.WellFormed ∧ g.release.isSome

/-- What the fields hold after the frames, and the events that were pushed. -/
inductive Aggregates (t : Touch) (frames : List Frame) (events : List InputEv) : Prop
  | released (gestures : List Gesture) (after : List Frame) (hgestures : Finished gestures)
      (hafter : ∀ f ∈ after, f.down = false)
      (hframes : frames = gestures.flatMap Gesture.frames ++ after)
      (hevents : events = gestures.flatMap Gesture.events) (ht : t.gesture = false)
  | held (gestures : List Gesture) (g : Gesture) (hgestures : Finished gestures)
      (hg : g.WellFormed) (hrelease : g.release = none)
      (hframes : frames = gestures.flatMap Gesture.frames ++ g.frames)
      (hevents : events = gestures.flatMap Gesture.events ++ g.events) (ht : t.gesture = true)
      (hcur : (g.contacts.map Frame.position).getLast? = some (t.curX, t.curY))
      (hemit : (t.lastEmitX, t.lastEmitY) = (t.curX, t.curY))

namespace Aggregates

variable {t : Touch} {frames : List Frame} {events : List InputEv}

/-- Only the end of a frame depends on the coordinates and the contact of the frame. -/
theorem of_eq (h : Aggregates t frames events) (t' : Touch) (hgesture : t'.gesture = t.gesture)
    (hcur : (t'.curX, t'.curY) = (t.curX, t.curY))
    (hemit : (t'.lastEmitX, t'.lastEmitY) = (t.lastEmitX, t.lastEmitY)) :
    Aggregates t' frames events := by
  cases h with
  | released gestures after hgestures hafter hframes hevents ht =>
    exact .released gestures after hgestures hafter hframes hevents (hgesture.trans ht)
  | held gestures g hgestures hg hrelease hframes hevents ht hlast heq =>
    exact .held gestures g hgestures hg hrelease hframes hevents (hgesture.trans ht)
      (hlast.trans (congrArg some hcur.symm)) (hemit.trans (heq.trans hcur.symm))

/-- The events of a contact after one more frame. -/
theorem moves_append (before : List Frame) {contacts : List Frame} (f : Frame)
    (hne : contacts ≠ []) :
    (⟨before, contacts ++ [f], none⟩ : Gesture).moves =
      (⟨before, contacts, none⟩ : Gesture).moves ++
        if (contacts.map Frame.position).getLast? = some f.position then []
        else [Gesture.event .touchMove f.position] := by
  have hstops : stops (contacts.map Frame.position) ≠ [] := stops_ne_nil (by simpa using hne)
  obtain ⟨p, ps, hsplit⟩ := List.exists_cons_of_ne_nil hstops
  rw [Gesture.moves, Gesture.moves]
  simp only [List.map_append, List.map_cons, List.map_nil, stops_append_singleton, getLast?_stops]
  split_ifs with hlast
  · simp [hsplit]
  · simp [hsplit]

/-- **The end of a frame.** -/
theorem endFrame (h : Aggregates t frames events) :
    Aggregates (CnInput.endFrame t).1 (frames ++ [⟨t.frameX, t.frameY, t.frameDown⟩])
      (events ++ (CnInput.endFrame t).2.toList) := by
  set f : Frame := ⟨t.frameX, t.frameY, t.frameDown⟩ with hf
  cases h with
  | released gestures after hgestures hafter hframes hevents ht =>
    by_cases hdown : t.frameDown = true
    · -- the first frame in contact
      have hend : CnInput.endFrame t = ({ t with
          gesture := true, curX := f.position.1, curY := f.position.2,
          lastEmitX := f.position.1, lastEmitY := f.position.2 },
          some (Gesture.event .touchDown f.position)) := by
        rw [CnInput.endFrame, if_pos hdown, if_pos (by simp [ht])]
        rfl
      rw [hend]
      refine .held gestures ⟨after, [f], none⟩ hgestures ⟨hafter, by simp, by simpa [hf], by simp⟩
        rfl ?_ ?_ rfl rfl rfl
      · simp [hframes, Gesture.frames]
      · rw [hevents]
        rfl
    · -- a frame without contact, outside of gestures
      rw [Bool.not_eq_true] at hdown
      have hend : CnInput.endFrame t = (t, none) := by
        rw [CnInput.endFrame, if_neg (by simp [hdown]), if_neg (by simp [ht])]
      rw [hend]
      refine .released gestures (after ++ [f]) hgestures ?_ ?_ (by simpa using hevents) ht
      · intro g hg
        rcases List.mem_append.mp hg with hg | hg
        · exact hafter g hg
        · rw [List.mem_singleton.mp hg]
          exact hdown
      · rw [hframes, List.append_assoc]
  | held gestures g hgestures hg hrelease hframes hevents ht hcur hemit =>
    obtain ⟨before, contacts, release⟩ := g
    obtain rfl : release = none := hrelease
    obtain ⟨hbefore, hne, hcontacts, -⟩ := hg
    obtain ⟨hemitX, hemitY⟩ := Prod.mk.inj hemit
    by_cases hdown : t.frameDown = true
    · have hcontacts' : ∀ g ∈ contacts ++ [f], g.down = true := by
        intro g hg
        rcases List.mem_append.mp hg with hg | hg
        · exact hcontacts g hg
        · rw [List.mem_singleton.mp hg]
          exact hdown
      have hlast : (contacts.map Frame.position).getLast? = some f.position ↔
          ¬ (f.position.1 ≠ t.lastEmitX ∨ f.position.2 ≠ t.lastEmitY) := by
        rw [hcur, hemitX, hemitY, Option.some.injEq, Prod.ext_iff]
        simp only [not_or, not_not]
        exact ⟨fun h => ⟨h.1.symm, h.2.symm⟩, fun h => ⟨h.1.symm, h.2.symm⟩⟩
      -- in contact still: a move is reported only for another position
      by_cases hmoved : f.position.1 ≠ t.lastEmitX ∨ f.position.2 ≠ t.lastEmitY
      · have hend : CnInput.endFrame t = ({ t with
            curX := f.position.1, curY := f.position.2,
            lastEmitX := f.position.1, lastEmitY := f.position.2 },
            some (Gesture.event .touchMove f.position)) := by
          rw [CnInput.endFrame, if_pos hdown, if_neg (by simp [ht])]
          exact if_pos hmoved
        have hmoves := moves_append before f hne
        rw [if_neg (by rw [hlast, not_not]; exact hmoved)] at hmoves
        rw [hend]
        refine .held gestures ⟨before, contacts ++ [f], none⟩ hgestures
          ⟨hbefore, by simp, hcontacts', by simp⟩ rfl ?_ ?_ ht (by simp) rfl
        · simp [hframes, Gesture.frames]
        · rw [hevents, Gesture.events, Gesture.events, hmoves]
          simp
      · have hend : CnInput.endFrame t = ({ t with
            curX := f.position.1, curY := f.position.2 }, none) := by
          rw [CnInput.endFrame, if_pos hdown, if_neg (by simp [ht])]
          exact if_neg hmoved
        have hmoves := moves_append before f hne
        rw [if_pos (hlast.mpr hmoved)] at hmoves
        rw [hend]
        refine .held gestures ⟨before, contacts ++ [f], none⟩ hgestures
          ⟨hbefore, by simp, hcontacts', by simp⟩ rfl ?_ ?_ ht (by simp) ?_
        · simp [hframes, Gesture.frames]
        · rw [hevents, Gesture.events, Gesture.events, hmoves]
          simp
        · simp only [not_or, not_not] at hmoved
          exact Prod.ext hmoved.1.symm hmoved.2.symm
    · -- the release: its coordinates are not used
      rw [Bool.not_eq_true] at hdown
      have hend : CnInput.endFrame t = ({ t with
          gesture := false, curX := 0, curY := 0, lastEmitX := 0, lastEmitY := 0 },
          some ⟨.touchUp, t.curX, t.curY⟩) := by
        rw [CnInput.endFrame, if_neg (by simp [hdown]), if_pos (by simp [ht])]
      rw [hend]
      refine .released (gestures ++ [⟨before, contacts, some f⟩]) [] ?_ (by simp) ?_ ?_ rfl
      · intro g hg
        rcases List.mem_append.mp hg with hg | hg
        · exact hgestures g hg
        · rw [List.mem_singleton.mp hg]
          exact ⟨⟨hbefore, hne, hcontacts, by simpa [hf] using hdown⟩, rfl⟩
      · simp [hframes, Gesture.frames]
      · rw [List.getLast?_map] at hcur
        obtain ⟨last, hlast, hposition⟩ := Option.map_eq_some_iff.mp hcur
        rw [hevents, List.flatMap_append]
        simp [Gesture.events, Gesture.event, hlast, hposition, Gesture.moves]

end Aggregates

/-! ## Streams of records -/

theorem getLast?_filterMap_append {α β : Type} (f : α → Option β) (l : List α) (a : α) (b : β) :
    ((l ++ [a]).filterMap f).getLast?.getD b = (f a).getD ((l.filterMap f).getLast?.getD b) := by
  rw [List.filterMap_append, List.filterMap_cons, List.filterMap_nil]
  cases f a with
  | none => rw [List.append_nil, Option.getD_none]
  | some c => rw [List.getLast?_append, List.getLast?_singleton, Option.some_or]; rfl

theorem frameAt_append_singleton (records : List RawEvent) (ev : RawEvent) :
    frameAt (records ++ [ev]) =
      ⟨(RawEvent.coordinate absX ev).getD (frameAt records).x,
        (RawEvent.coordinate absY ev).getD (frameAt records).y,
        (RawEvent.contact ev).getD (frameAt records).down⟩ := by
  rw [frameAt, getLast?_filterMap_append, getLast?_filterMap_append, getLast?_filterMap_append]
  rfl

/-- The current frame of the fields. -/
def current (t : Touch) : Frame := ⟨t.frameX, t.frameY, t.frameDown⟩

theorem current_endFrame (t : Touch) : current (endFrame t).1 = current t := by
  unfold endFrame
  dsimp only
  split_ifs <;> rfl

/-- What a record tells. -/
theorem current_consumeTouch (t : Touch) (ev : RawEvent) :
    current (consumeTouch t ev).1 = ⟨(RawEvent.coordinate absX ev).getD (current t).x,
      (RawEvent.coordinate absY ev).getD (current t).y,
      (RawEvent.contact ev).getD (current t).down⟩ := by
  have hkey : evAbs ≠ evKey := by decide
  have hxy : absX ≠ absY := by decide
  unfold consumeTouch RawEvent.coordinate RawEvent.contact
  by_cases habs : ev.type = evAbs
  · by_cases hx : ev.code = absX
    · simp [habs, hx, hkey, hxy, current]
    · by_cases hy : ev.code = absY <;> simp [habs, hx, hy, hkey, hxy.symm, current]
  · have hx : ¬ (ev.type = evAbs ∧ ev.code = absX) := fun h => habs h.1
    have hy : ¬ (ev.type = evAbs ∧ ev.code = absY) := fun h => habs h.1
    rw [if_neg habs, if_neg hx, if_neg hy]
    by_cases htouch : ev.type = evKey ∧ ev.code = btnTouch
    · rw [if_pos htouch, if_pos htouch]
      rfl
    · rw [if_neg htouch, if_neg htouch]
      by_cases hsyn : ev.type = evSyn ∧ ev.code = synReport
      · rw [if_pos hsyn, current_endFrame]
        rfl
      · rw [if_neg hsyn]
        rfl

/-- The frame that the fields hold. -/
theorem current_touched (records : List RawEvent) :
    current (touched records).1 = frameAt records := by
  induction records using List.reverseRecOn with
  | nil => rfl
  | append_singleton records ev ih =>
    rw [touched_append_singleton, touchStep, current_consumeTouch, ih, frameAt_append_singleton]

/-- A record that does not end a frame pushes nothing. -/
theorem consumeTouch_of_not_ends {ev : RawEvent} (h : RawEvent.ends ev = false) (t : Touch) :
    (consumeTouch t ev).2 = none ∧ (consumeTouch t ev).1 =
      { t with frameX := (consumeTouch t ev).1.frameX, frameY := (consumeTouch t ev).1.frameY,
               frameDown := (consumeTouch t ev).1.frameDown } := by
  have hsyn : ¬ (ev.type = evSyn ∧ ev.code = synReport) := of_decide_eq_false h
  unfold consumeTouch
  split_ifs <;> exact ⟨rfl, rfl⟩

theorem consumeTouch_of_ends {ev : RawEvent} (h : RawEvent.ends ev = true) (t : Touch) :
    consumeTouch t ev = endFrame t := by
  obtain ⟨htype, hcode⟩ := of_decide_eq_true h
  have habs : evSyn ≠ evAbs := by decide
  have hkey : evSyn ≠ evKey := by decide
  simp [consumeTouch, htype, hcode, habs, hkey]

/-- **The fields and the events of a stream of touch records.** -/
theorem aggregates_touched (records : List RawEvent) :
    Aggregates (touched records).1 (framesOf records) (touched records).2 := by
  induction records using List.reverseRecOn with
  | nil =>
    exact .released [] [] (List.forall_mem_nil _) (List.forall_mem_nil _) rfl rfl rfl
  | append_singleton records ev ih =>
    rw [touched_append_singleton, touchStep, framesOf_append_singleton]
    cases hends : RawEvent.ends ev with
    | false =>
      obtain ⟨hnone, hfields⟩ := consumeTouch_of_not_ends hends (touched records).1
      rw [hnone, hfields]
      simpa using ih.of_eq { (touched records).1 with
        frameX := (consumeTouch (touched records).1 ev).1.frameX
        frameY := (consumeTouch (touched records).1 ev).1.frameY
        frameDown := (consumeTouch (touched records).1 ev).1.frameDown } rfl rfl rfl
    | true =>
      have hframe : frameAt (records ++ [ev]) = current (touched records).1 := by
        rw [← current_touched, touched_append_singleton, touchStep,
          consumeTouch_of_ends hends, current_endFrame]
      rw [consumeTouch_of_ends hends, hframe, if_pos rfl]
      exact ih.endFrame

/-- The parts of the gestures of a stream, of which only the last may last. -/
theorem exists_gestures (records : List RawEvent) :
    ∃ (gestures : List Gesture) (after : List Frame), (∀ g ∈ gestures, g.WellFormed) ∧
      (∀ g ∈ gestures.dropLast, g.release.isSome) ∧
      (after ≠ [] → ∀ g ∈ gestures, g.release.isSome) ∧ (∀ f ∈ after, f.down = false) ∧
      framesOf records = gestures.flatMap Gesture.frames ++ after ∧
      (touched records).2 = gestures.flatMap Gesture.events := by
  cases aggregates_touched records with
  | released gestures after hgestures hafter hframes hevents ht =>
    exact ⟨gestures, after, fun g hg => (hgestures g hg).1,
      fun g hg => (hgestures g (List.dropLast_subset _ hg)).2, fun _ g hg => (hgestures g hg).2,
      hafter, hframes, hevents⟩
  | held gestures g hgestures hg hrelease hframes hevents ht hcur hemit =>
    refine ⟨gestures ++ [g], [], ?_, ?_, fun h => absurd rfl h, by simp, by simp [hframes], by
      simp [hevents]⟩
    · intro g' hg'
      rcases List.mem_append.mp hg' with hg' | hg'
      · exact (hgestures g' hg').1
      · exact List.mem_singleton.mp hg' ▸ hg
    · rw [List.dropLast_concat]
      exact fun g' hg' => (hgestures g' hg').2

/-- The shape of the events of a gesture. -/
theorem Gesture.WellFormed.events_eq {g : Gesture} (h : g.WellFormed) :
    ∃ p ps last, g.contacts.getLast? = some last ∧ (p :: ps).IsChain (· ≠ ·) ∧
      g.events = Gesture.event .touchDown p :: ps.map (Gesture.event .touchMove) ++
        if g.release.isSome then [Gesture.event .touchUp last.position] else [] := by
  have hne : stops (g.contacts.map Frame.position) ≠ [] :=
    stops_ne_nil (by simpa using h.contacts_ne_nil)
  obtain ⟨p, ps, hstops⟩ := List.exists_cons_of_ne_nil hne
  obtain ⟨last, hlast⟩ := Option.ne_none_iff_exists'.mp
    (mt List.getLast?_eq_none_iff.mp h.contacts_ne_nil)
  refine ⟨p, ps, last, hlast, hstops ▸ isChain_stops _, ?_⟩
  rw [Gesture.events, Gesture.moves, hstops, hlast]
  cases g.release <;> rfl

theorem position_bounds (f : Frame) :
    (0 ≤ f.position.1 ∧ f.position.1 ≤ 599) ∧ 0 ≤ f.position.2 ∧ f.position.2 ≤ 799 :=
  ⟨clamp_bounds (by decide) f.x, clamp_bounds (by decide) f.y⟩

/-- The queue of a fresh input layer. -/
theorem refines_opened : RingQueue.Refines (opened.queue, []) Fifo.empty := ⟨rfl, rfl, by decide⟩

/-- **Touch gestures and the queue.** -/
theorem input_layer :
    (∀ records : List RawEvent,
      records.foldl (fun input ev => input.consume 2 ev) opened =
        { queue := ((touched records).2.map fun e => (⟨e, 2⟩ : QueuedEv)).foldl RingQueue.push
            opened.queue
          touch := (touched records).1 } ∧
      ∃ (gestures : List Gesture) (after : List Frame), (∀ g ∈ gestures, g.WellFormed) ∧
        (∀ g ∈ gestures.dropLast, g.release.isSome) ∧
        (after ≠ [] → ∀ g ∈ gestures, g.release.isSome) ∧ (∀ f ∈ after, f.down = false) ∧
        framesOf records = gestures.flatMap Gesture.frames ++ after ∧
        (touched records).2 = gestures.flatMap Gesture.events) ∧
    (∀ g : Gesture, g.WellFormed →
      ∃ p ps last, g.contacts.getLast? = some last ∧ (p :: ps).IsChain (· ≠ ·) ∧
        g.events = Gesture.event .touchDown p :: ps.map (Gesture.event .touchMove) ++
          if g.release.isSome then [Gesture.event .touchUp last.position] else []) ∧
    (∀ f : Frame, (0 ≤ f.position.1 ∧ f.position.1 ≤ 599) ∧ 0 ≤ f.position.2 ∧
      f.position.2 ≤ 799) ∧
    ∀ ops : List (QueueOp QueuedEv),
      (ops.foldl RingQueue.step (opened.queue, [])).1.contents =
        (ops.foldl (Fifo.step 63) Fifo.empty).pending ∧
      (ops.foldl RingQueue.step (opened.queue, [])).2 =
        (ops.foldl (Fifo.step 63) Fifo.empty).delivered ∧
      (ops.foldl (Fifo.step 63) Fifo.empty).pending.length ≤ 63 ∧
      (ops.foldl (Fifo.step 63) Fifo.empty).elements = ops.filterMap QueueOp.pushed := by
  refine ⟨fun records => ⟨foldl_consume_touch records, exists_gestures records⟩,
    fun g hg => hg.events_eq, position_bounds, fun ops => ?_⟩
  have hrun := refines_opened.run ops
  exact ⟨hrun.contents, hrun.delivered, hrun.length_le, Fifo.elements_run 63 ops Fifo.empty⟩

end CnInput
