import CrossNook.Platform.Input

/-!
# The power key

A press of the power key that lasts asks for the exit. The input layer passes the press, the
repeats that the kernel adds while the key is held, and the release; the user interface takes the
time of every press it is passed, and a repeat is passed as a press.

## Main definitions

* `PowerKey.poll`: `cn_input_poll`, with the records that have arrived at the key's device
* `PowerKey.run`: the loop that polls events and hands them to `cn_ui_handle`

## Main results

* `PowerKey.poll_spec`: in order, a poll delivers the next event, unless the queue has dropped it
* `PowerKey.Phase.turn`: what a turn of the loop keeps
* `PowerKey.long_power_press`: when the exit is asked for at the times it should be
-/

namespace PowerKey

open CnInput (evKey keyPower)

variable {R P : Type}

/-! ## Polling -/

/-- `cn_input_poll`: the records of `unread` come from the key's device, and the first `ready` of
them have arrived when the device is read. -/
def poll (input : CnInput) (unread : List RawEvent) (ready : ℕ) :
    Option InputEv × CnInput × List RawEvent :=
  match input.queue.pop with
  | some (e, queue) => (some e.ev, { input with queue := queue }, unread)
  | none =>
    let input := (unread.take ready).foldl (fun input ev => input.consume 1 ev) input
    match input.queue.pop with
    | some (e, queue) => (some e.ev, { input with queue := queue }, unread.drop ready)
    | none => (none, input, unread.drop ready)

/-- One turn of the loop: how many records have arrived, and what the clock tells. -/
structure Turn where
  ready : ℕ
  now : ℤ

/-- The input layer, the records that are left, the user interface, and the events it was handed
with their times. -/
structure Session (R : Type) where
  input : CnInput
  unread : List RawEvent
  ui : CnUi R
  handled : List (InputEv × ℤ)

/-- Poll an event and hand it to `cn_ui_handle`. -/
def turn (ops : ReaderOps R P) (s : Session R) (t : Turn) : Session R :=
  let (e, input, unread) := poll s.input s.unread t.ready
  match e with
  | none => { s with input := input, unread := unread }
  | some e => ⟨input, unread, (s.ui.handle ops e t.now).1, s.handled ++ [(e, t.now)]⟩

/-! ## The records of a press -/

/-- A record of the power key. -/
def record (value : ℤ) : RawEvent := ⟨evKey, keyPower, value⟩

/-- The press, the repeats and the release. -/
def records (repeats : ℕ) : List RawEvent :=
  record 1 :: List.replicate repeats (record 2) ++ [record 0]

/-- The loop over the records of one press. -/
def run (ops : ReaderOps R P) (ui : CnUi R) (repeats : ℕ) (turns : List Turn) : Session R :=
  turns.foldl (turn ops) ⟨CnInput.opened, records repeats, ui, []⟩

/-- Everything has been handled. -/
def Session.Done (s : Session R) : Prop := s.unread = [] ∧ s.input.queue.contents = []

instance (s : Session R) : Decidable s.Done :=
  inferInstanceAs (Decidable (s.unread = [] ∧ s.input.queue.contents = []))

/-- The event of a press, and of a repeat. -/
def downEv : InputEv := ⟨.powerDown, 0, 0⟩

/-- The event of the release. -/
def upEv : InputEv := ⟨.powerUp, 0, 0⟩

/-- The event of a record of the power key. -/
def eventOf (ev : RawEvent) : InputEv := if ev.value ≠ 0 then downEv else upEv

/-- A record of the power key. -/
abbrev IsKey (ev : RawEvent) : Prop := ev.type = evKey ∧ ev.code = keyPower

theorem consume_key {ev : RawEvent} (h : IsKey ev) (input : CnInput) :
    input.consume 1 ev = { input with queue := input.queue.push ⟨eventOf ev, 1⟩ } := by
  have hsev : CnInput.mapRaw 1 ev.type ev.code = .powerDown := by
    rw [h.1, h.2]
    rfl
  rw [CnInput.consume, hsev]
  by_cases hv : ev.value ≠ 0
  · simp [hv, CnInput.push, eventOf, downEv]
  · simp [hv, CnInput.push, eventOf, upEv]

theorem foldl_consume_key {evs : List RawEvent} (h : ∀ ev ∈ evs, IsKey ev) (input : CnInput) :
    evs.foldl (fun input ev => input.consume 1 ev) input =
      { input with queue :=
          (evs.map fun ev => (⟨eventOf ev, 1⟩ : QueuedEv)).foldl RingQueue.push input.queue } := by
  induction evs generalizing input with
  | nil => rfl
  | cons ev evs ih =>
    obtain ⟨hev, hevs⟩ := List.forall_mem_cons.mp h
    rw [List.foldl_cons, consume_key hev, ih hevs]
    rfl

/-- The events that are still to be handled, if none is dropped. -/
def pending (input : CnInput) (unread : List RawEvent) : List InputEv :=
  input.queue.contents.map QueuedEv.ev ++ unread.map eventOf

/-- **A poll** delivers the next event. Where it reads the device, the queue may have dropped
events before that one: at least 63 follow a dropped one. -/
theorem poll_spec (input : CnInput) {unread : List RawEvent} (h : ∀ ev ∈ unread, IsKey ev)
    (ready : ℕ) : ∃ d e input' unread', poll input unread ready = (e, input', unread') ∧
      (d = 0 ∨ d + 63 ≤ (pending input unread).length) ∧
      (∀ ev ∈ unread', IsKey ev) ∧
      (pending input unread).drop d = e.toList ++ pending input' unread' := by
  cases hpop : input.queue.pop with
  -- the queue still holds an event
  | some p =>
    obtain ⟨e, queue⟩ := p
    have hcontents := RingQueue.contents_pop_of_some hpop
    refine ⟨0, some e.ev, { input with queue := queue }, unread, ?_, .inl rfl, h, ?_⟩
    · simp only [poll, hpop]
    · simp [pending, hcontents]
  -- the device is read, and the queue drops what it has no room for
  | none =>
    have hempty := (RingQueue.pop_eq_none_iff _).mp hpop
    set taken := unread.take ready with htaken
    set filled := taken.foldl (fun input ev => input.consume 1 ev) input with hfilled
    have hkeys : ∀ ev ∈ taken, IsKey ev := fun ev hev => h ev (List.mem_of_mem_take hev)
    have hrest : ∀ ev ∈ unread.drop ready, IsKey ev := fun ev hev => h ev (List.mem_of_mem_drop hev)
    have hqueue : filled.queue.contents.map QueuedEv.ev =
        (taken.map eventOf).drop (taken.length - 63) := by
      rw [hfilled, foldl_consume_key hkeys]
      simp only [RingQueue.contents_foldl_push, hempty, List.nil_append, List.length_map,
        List.map_drop, List.map_map]
      rfl
    have hdrop : (pending input unread).drop (taken.length - 63) =
        pending filled (unread.drop ready) := by
      have hsplit : pending input unread =
          taken.map eventOf ++ (unread.drop ready).map eventOf := by
        rw [pending, hempty, ← List.map_append, htaken, List.take_append_drop]
        rfl
      rw [hsplit, pending, hqueue,
        List.drop_append_of_le_length (by rw [List.length_map]; omega)]
    have hd : taken.length - 63 = 0 ∨
        taken.length - 63 + 63 ≤ (pending input unread).length := by
      have hle : taken.length ≤ unread.length := by simp [htaken]
      simp only [pending, hempty, List.map_nil, List.nil_append, List.length_map]
      omega
    cases hpop' : filled.queue.pop with
    | none =>
      refine ⟨_, none, filled, unread.drop ready, ?_, hd, hrest, ?_⟩
      · simp only [poll, hpop, ← htaken, ← hfilled, hpop']
      · rw [hdrop]
        rfl
    | some p =>
      obtain ⟨e, queue⟩ := p
      have hcontents := RingQueue.contents_pop_of_some hpop'
      refine ⟨_, some e.ev, { filled with queue := queue }, unread.drop ready, ?_, hd, hrest, ?_⟩
      · simp only [poll, hpop, ← htaken, ← hfilled, hpop']
      · rw [hdrop]
        simp [pending, hcontents]

/-! ## The user interface -/

section Handle

variable {ops : ReaderOps R P} {ui : CnUi R} {now : ℤ}

theorem handle_down : (ui.handle ops downEv now).1 = { ui with powerPressMs := now } := by
  simp [CnUi.handle, downEv, CnUi.handleScreen]

theorem handle_up : (ui.handle ops upEv now).1 = ui.powerUp now := by
  simp [CnUi.handle, upEv, CnUi.handleScreen]

theorem exitRequested_powerUp (h : 0 ≤ ui.powerPressMs) (hexit : ui.exitRequested = false) :
    (ui.powerUp now).exitRequested = decide (CnUi.powerLongMs ≤ now - ui.powerPressMs) := by
  have hlong : CnUi.powerLongMs ≤ (if now - ui.powerPressMs < 0 then 0 else now - ui.powerPressMs) ↔
      CnUi.powerLongMs ≤ now - ui.powerPressMs := by
    unfold CnUi.powerLongMs
    split_ifs <;> omega
  rw [CnUi.powerUp, if_pos h]
  dsimp only
  simp only [hlong]
  split_ifs with hwipe
  · simp [CnUi.accountWipe, hexit]
  · simp [hexit]

end Handle

/-! ## Runs -/

/-- The events of presses at these times. -/
def downs (times : List ℤ) : List (InputEv × ℤ) := times.map fun t => (downEv, t)

/-- How far the handling of the key has come: presses are handled, or the release has been. -/
inductive Phase (s : Session R) : Prop
  | pressed (k : ℕ) (times : List ℤ)
      (hpending : pending s.input s.unread = List.replicate k downEv ++ [upEv])
      (hhandled : s.handled = downs times) (hstarted : times ≠ [] ∨ 0 < k)
      (htime : ∀ t ∈ times.getLast?, s.ui.powerPressMs = t) (hpos : ∀ t ∈ times, 0 ≤ t)
      (hexit : s.ui.exitRequested = false)
  | released (times : List ℤ) (last release : ℤ) (hpending : pending s.input s.unread = [])
      (hhandled : s.handled = downs times ++ [(upEv, release)]) (hlast : times.getLast? = some last)
      (hexit : s.ui.exitRequested = decide (CnUi.powerLongMs ≤ release - last))

theorem turn_of_none {ops : ReaderOps R P} {s : Session R} {t : Turn} {input : CnInput}
    {unread : List RawEvent} (h : poll s.input s.unread t.ready = (none, input, unread)) :
    turn ops s t = { s with input := input, unread := unread } := by
  simp only [turn, h]

theorem turn_of_some {ops : ReaderOps R P} {s : Session R} {t : Turn} {e : InputEv}
    {input : CnInput} {unread : List RawEvent}
    (h : poll s.input s.unread t.ready = (some e, input, unread)) :
    turn ops s t = ⟨input, unread, (s.ui.handle ops e t.now).1, s.handled ++ [(e, t.now)]⟩ := by
  simp only [turn, h]

/-- **A turn of the loop.** -/
theorem Phase.turn {s : Session R} (h : Phase s) (hkeys : ∀ ev ∈ s.unread, IsKey ev)
    (ops : ReaderOps R P) {t : Turn} (ht : 0 ≤ t.now) :
    Phase (turn ops s t) ∧ ∀ ev ∈ (PowerKey.turn ops s t).unread, IsKey ev := by
  obtain ⟨d, e, input', unread', hpoll, hd, hkeys', hdrop⟩ := poll_spec s.input hkeys t.ready
  -- a poll takes keys from the front of what is pending, and at most one of them is handled
  cases h with
  | pressed k times hpending hhandled hstarted htime hpos hexit =>
    rw [hpending, List.length_append, List.length_replicate, List.length_singleton] at hd
    have hrest : (pending s.input s.unread).drop d = List.replicate (k - d) downEv ++ [upEv] := by
      rw [hpending, List.drop_append_of_le_length (by rw [List.length_replicate]; omega),
        List.drop_replicate]
    have hstarted' : times ≠ [] ∨ 0 < k - d := hstarted.imp_right (by omega)
    rw [hrest] at hdrop
    cases e with
    | none =>
      rw [turn_of_none hpoll]
      exact ⟨.pressed (k - d) times hdrop.symm hhandled hstarted' htime hpos hexit, hkeys'⟩
    | some e =>
      rw [turn_of_some hpoll]
      refine ⟨?_, hkeys'⟩
      rw [Option.toList_some, List.singleton_append] at hdrop
      cases hk : k - d with
      | zero =>
        -- the release, after at least one press
        rw [hk, List.replicate_zero, List.nil_append] at hdrop
        obtain ⟨rfl, hnil⟩ := List.cons.inj hdrop
        have hne : times ≠ [] := hstarted'.resolve_right (by omega)
        have hlast := List.getLast?_eq_some_getLast hne
        have hpress := htime _ hlast
        refine .released times (times.getLast hne) t.now hnil.symm (by rw [hhandled]) hlast ?_
        dsimp only
        rw [handle_up, exitRequested_powerUp _ hexit, hpress]
        rw [hpress]
        exact hpos _ (List.getLast_mem hne)
      -- one more press
      | succ k' =>
        rw [hk, List.replicate_succ, List.cons_append] at hdrop
        obtain ⟨rfl, hnext⟩ := List.cons.inj hdrop
        refine .pressed k' (times ++ [t.now]) hnext.symm ?_ (.inl (by simp)) ?_ ?_ ?_
        · simp [hhandled, downs]
        · dsimp only
          rw [handle_down]
          simp
        · intro time htime'
          rcases List.mem_append.mp htime' with htime' | htime'
          · exact hpos time htime'
          · rw [List.mem_singleton.mp htime']
            exact ht
        · dsimp only
          rw [handle_down]
          exact hexit
  -- after the release nothing is pending
  | released times last release hpending hhandled hlast hexit =>
    rw [hpending, List.drop_nil] at hdrop
    obtain ⟨he, hnil⟩ := List.append_eq_nil_iff.mp hdrop.symm
    cases e with
    | none =>
      rw [turn_of_none hpoll]
      exact ⟨.released times last release hnil hhandled hlast hexit, hkeys'⟩
    | some e => cases he

/-- **What a run keeps.** -/
theorem phase_run (ops : ReaderOps R P) {ui : CnUi R} (hexit : ui.exitRequested = false)
    (repeats : ℕ) {turns : List Turn} (hnow : ∀ t ∈ turns, 0 ≤ t.now) :
    Phase (run ops ui repeats turns) ∧ ∀ ev ∈ (run ops ui repeats turns).unread, IsKey ev := by
  induction turns using List.reverseRecOn with
  | nil =>
    refine ⟨.pressed (repeats + 1) [] ?_ rfl (.inr (Nat.succ_pos _)) (by simp) (by simp) hexit, ?_⟩
    · have hqueue : CnInput.opened.queue.contents = [] := rfl
      simp [run, pending, records, hqueue, eventOf, record, List.replicate_succ]
    · intro ev hev
      simp only [run, List.foldl_nil, records, List.mem_append, List.mem_cons, List.mem_replicate,
        List.not_mem_nil, or_false] at hev
      rcases hev with (rfl | ⟨-, rfl⟩) | rfl <;> exact ⟨rfl, rfl⟩
  | append_singleton turns t ih =>
    obtain ⟨hphase, hkeys⟩ := ih fun t' ht' => hnow t' (List.mem_append_left _ ht')
    have hstep := hphase.turn hkeys ops (hnow t (by simp))
    rw [run, List.foldl_append]
    exact hstep

/-- Events are handled at the times of their turns. -/
theorem times_sublist (ops : ReaderOps R P) (ui : CnUi R) (repeats : ℕ) (turns : List Turn) :
    ((run ops ui repeats turns).handled.map Prod.snd).Sublist (turns.map Turn.now) := by
  induction turns using List.reverseRecOn with
  | nil => exact List.Sublist.refl _
  | append_singleton turns t ih =>
    rw [run, List.foldl_append, List.map_append, ← run]
    obtain ⟨e, input', unread', hpoll⟩ : ∃ e input' unread',
        poll (run ops ui repeats turns).input (run ops ui repeats turns).unread t.ready =
          (e, input', unread') := ⟨_, _, _, rfl⟩
    cases e with
    | none =>
      rw [List.foldl_cons, List.foldl_nil, turn_of_none hpoll]
      exact ih.trans (List.sublist_append_left _ _)
    | some e =>
      rw [List.foldl_cons, List.foldl_nil, turn_of_some hpoll, List.map_append]
      exact ih.append (List.Sublist.refl _)

/-- The number of records that the first read of the device delivers. The press is their first,
and the queue drops it exactly if they do not fit, `press_kept_iff`. -/
def firstRead (repeats : ℕ) (turns : List Turn) : ℕ :=
  ((turns.find? fun t => 0 < t.ready).map fun t => min t.ready (repeats + 2)).getD 0

/-- The records of a read are all kept exactly if there are at most 63. -/
theorem press_kept_iff (evs : List QueuedEv) :
    (evs.foldl RingQueue.push CnInput.opened.queue).contents = evs ↔ evs.length ≤ 63 :=
  RingQueue.contents_foldl_push_eq_iff rfl evs

/-- **Long power press.** The press of the key is the first event that is handled, unless the queue
has dropped it. The exit is asked for as it should be where the release comes early, or late after
every press and repeat. -/
theorem long_power_press (ops : ReaderOps R P) {ui : CnUi R} (hexit : ui.exitRequested = false)
    (repeats : ℕ) {turns : List Turn} (hclock : turns.Pairwise fun t t' => t.now ≤ t'.now)
    (hnow : ∀ t ∈ turns, 0 ≤ t.now) (hdone : (run ops ui repeats turns).Done) :
    ∃ times first last release,
      (run ops ui repeats turns).handled = downs times ++ [(upEv, release)] ∧
      times.head? = some first ∧ times.getLast? = some last ∧
      (((run ops ui repeats turns).ui.exitRequested = true ↔
          firstRead repeats turns ≤ 63 ∧ first + CnUi.powerLongMs ≤ release) ↔
        if firstRead repeats turns ≤ 63 then
          release < first + CnUi.powerLongMs ∨ last + CnUi.powerLongMs ≤ release
        else release < last + CnUi.powerLongMs) := by
  have htimes := times_sublist ops ui repeats turns
  obtain ⟨hunread, hqueue⟩ := hdone
  -- nothing is left to be read, so the release was handled
  have hempty : pending (run ops ui repeats turns).input (run ops ui repeats turns).unread = [] := by
    rw [pending, hunread, hqueue]
    rfl
  cases (phase_run ops hexit repeats hnow).1 with
  | pressed k times hpending =>
    rw [hpending] at hempty
    exact absurd hempty (by simp)
  | released times last release _ hhandled hlast hexit' =>
    obtain ⟨first, rest, rfl⟩ : ∃ first rest, times = first :: rest := by
      refine List.exists_cons_of_ne_nil ?_
      rintro rfl
      simp at hlast
    -- the presses are in the order of the clock, so the first is not behind the last
    have hsorted : (turns.map Turn.now).Pairwise (· ≤ ·) := List.pairwise_map.mpr hclock
    have hordered := hsorted.sublist htimes
    have hsnd : ((run ops ui repeats turns).handled.map Prod.snd) = first :: rest ++ [release] := by
      rw [hhandled, List.map_append, downs, List.map_map]
      simp
    rw [hsnd, List.cons_append, List.pairwise_cons] at hordered
    have hle : first ≤ last := by
      rcases List.mem_cons.mp (List.mem_of_getLast? hlast) with rfl | hmem
      · exact le_rfl
      · exact hordered.1 last (List.mem_append_left _ hmem)
    refine ⟨first :: rest, first, last, release, hhandled, rfl, hlast, ?_⟩
    rw [hexit', decide_eq_true_iff]
    split_ifs with hread <;> omega

/-- A press of three seconds without a repeat. -/
def plainPress : List Turn := [⟨1, 0⟩, ⟨1, 3000⟩]

theorem long_power_press_plain :
    ∃ times first last release,
      (run .onePage (CnUi.init : CnUi Unit) 0 plainPress).handled =
        downs times ++ [(upEv, release)] ∧
      times.head? = some first ∧ times.getLast? = some last ∧
      (((run .onePage (CnUi.init : CnUi Unit) 0 plainPress).ui.exitRequested = true ↔
          firstRead 0 plainPress ≤ 63 ∧ first + CnUi.powerLongMs ≤ release) ↔
        if firstRead 0 plainPress ≤ 63 then
          release < first + CnUi.powerLongMs ∨ last + CnUi.powerLongMs ≤ release
        else release < last + CnUi.powerLongMs) :=
  long_power_press .onePage rfl 0 (by decide) (by decide) (by decide +kernel)

/-- A press of two and a half seconds, repeated after one second. -/
def repeatedPress : List Turn := [⟨1, 0⟩, ⟨1, 1000⟩, ⟨1, 2500⟩]

/-- The repeat is taken for the press. -/
theorem repeatedPress_no_exit :
    (run .onePage (CnUi.init : CnUi Unit) 1 repeatedPress).handled =
        [(downEv, 0), (downEv, 1000), (upEv, 2500)] ∧
      0 + CnUi.powerLongMs ≤ 2500 ∧ (run .onePage (CnUi.init : CnUi Unit) 1 repeatedPress).Done ∧
      (run .onePage (CnUi.init : CnUi Unit) 1 repeatedPress).ui.exitRequested = false := by
  decide +kernel

end PowerKey
