import CrossNook.Platform.Input

/-!
# Polling for input

A program that polls the input layer (`platform/nook/input.c`): a poll delivers the oldest queued
event, and reads the devices only where none is queued. What is read at once may be more than the
queue holds.

## Main definitions

* `CnInput.fillQueue`, `CnInput.poll`: `fill_queue`, `cn_input_poll`
* `CnInput.burst`: the events of the records that are read at once
* `CnInput.Polling`: a program that polls, with what it was given and what was read

## Main results

* `CnInput.polls_deliver`: of every burst the last 63 events are delivered, once and in order, and
  the bursts are the events of the records of each device
-/

namespace CnInput

/-! ## The calls -/

/-- `fill_queue` where `fds` tells the open devices and `reads` the records that each of them has
before a read that gives none. -/
def fillQueue (fds : ℕ → Bool) (input : CnInput) (reads : ℕ → List RawEvent) : CnInput :=
  (List.range 3).foldl (fun input i =>
    if fds i then (reads i).foldl (fun input ev => input.consume i ev) input else input) input

/-- What `poll` answers, and the records that can be read behind it. -/
inductive PollAnswer
  | failed (eintr : Bool)
  | timeout
  | ready (reads : ℕ → List RawEvent)

/-- The end of `cn_input_poll`, which delivers the oldest queued event, if there is one. -/
def deliver (input : CnInput) : ℤ × Option QueuedEv × CnInput :=
  match input.queue.pop with
  | some (e, queue) => (1, some e, { input with queue })
  | none => (0, none, input)

/-- `cn_input_poll`: its return value, the event that it delivers, and the input layer. -/
def poll (fds : ℕ → Bool) (input : CnInput) (answer : PollAnswer) :
    ℤ × Option QueuedEv × CnInput :=
  match input.queue.pop with
  | some (e, queue) => (1, some e, { input with queue })
  | none =>
    if (List.range 3).all fun i => ¬ fds i then (-1, none, input)
    else
      match answer with
      | .failed eintr => (if eintr then 0 else -1, none, input)
      | .timeout => (0, none, input)
      | .ready reads => deliver (fillQueue fds input reads)

/-! ## Bursts -/

/-- The event of a record of the keys. -/
def keyEvent (dev : ℕ) (ev : RawEvent) : Option QueuedEv :=
  let sev := mapRaw dev ev.type ev.code
  if sev = .none then none
  else if sev = .powerDown then
    some ⟨⟨if ev.value ≠ 0 then .powerDown else .powerUp, 0, 0⟩, dev⟩
  else if ev.value ≠ 0 then some ⟨⟨sev, 0, 0⟩, dev⟩
  else none

/-- The fields for the touch records and the events after some records of a device. -/
def deviceBurst (dev : ℕ) (s : Touch × List QueuedEv) (records : List RawEvent) :
    Touch × List QueuedEv :=
  if dev = 2 then
    ((records.foldl touchStep (s.1, [])).1,
      s.2 ++ (records.foldl touchStep (s.1, [])).2.map fun e => ⟨e, 2⟩)
  else (s.1, s.2 ++ records.filterMap (keyEvent dev))

/-- The fields for the touch records and the events after a read of all devices. -/
def burst (fds : ℕ → Bool) (t : Touch) (reads : ℕ → List RawEvent) : Touch × List QueuedEv :=
  (List.range 3).foldl (fun s i => if fds i then deviceBurst i s (reads i) else s) (t, [])

/-- The events are in the queue. -/
def pushAll (input : CnInput) (s : Touch × List QueuedEv) : CnInput :=
  { queue := s.2.foldl RingQueue.push input.queue, touch := s.1 }

theorem foldl_touchStep (t : Touch) (before : List InputEv) (records : List RawEvent) :
    records.foldl touchStep (t, before) =
      ((records.foldl touchStep (t, [])).1, before ++ (records.foldl touchStep (t, [])).2) := by
  induction records using List.reverseRecOn with
  | nil => simp
  | append_singleton records ev ih =>
    rw [List.foldl_append, ih, List.foldl_append]
    simp only [List.foldl_cons, List.foldl_nil, touchStep, List.append_assoc]

/-- **The queue after the records of a device.** -/
theorem foldl_consume (input : CnInput) (dev : ℕ) (s : Touch × List QueuedEv)
    (records : List RawEvent) :
    records.foldl (fun input ev => input.consume dev ev) (pushAll input s) =
      pushAll input (deviceBurst dev s records) := by
  induction records using List.reverseRecOn with
  | nil =>
    unfold deviceBurst
    split_ifs <;> simp
  | append_singleton records ev ih =>
    rw [List.foldl_append, ih, List.foldl_cons, List.foldl_nil]
    unfold consume
    by_cases hdev : dev = 2
    · -- one more record of the touch screen
      subst hdev
      rw [if_pos rfl]
      unfold deviceBurst
      rw [if_pos rfl, if_pos rfl, List.foldl_append, List.foldl_cons, List.foldl_nil]
      generalize records.foldl touchStep (s.1, []) = u
      simp only [pushAll, touchStep]
      cases (consumeTouch u.1 ev).2 with
      | none => simp
      | some e => simp [push]
    · rw [if_neg hdev]
      unfold deviceBurst
      rw [if_neg hdev, if_neg hdev, List.filterMap_append]
      have hlast : List.filterMap (keyEvent dev) [ev] = (keyEvent dev ev).toList := by
        cases h : keyEvent dev ev <;> simp [h]
      rw [hlast, keyEvent]
      dsimp only
      split_ifs <;> simp [pushAll, push]

/-- **A read of all devices pushes its burst.** -/
theorem fillQueue_eq (fds : ℕ → Bool) (input : CnInput) (reads : ℕ → List RawEvent) :
    fillQueue fds input reads = pushAll input (burst fds input.touch reads) := by
  have hfold : ∀ devs : List ℕ, devs.foldl (fun input i =>
      if fds i then (reads i).foldl (fun input ev => input.consume i ev) input else input) input =
      pushAll input (devs.foldl (fun s i => if fds i then deviceBurst i s (reads i) else s)
        (input.touch, [])) := by
    intro devs
    induction devs using List.reverseRecOn with
    | nil => rfl
    | append_singleton devs i ih =>
      rw [List.foldl_append, ih, List.foldl_append, List.foldl_cons, List.foldl_nil,
        List.foldl_cons, List.foldl_nil]
      by_cases hopen : fds i
      · rw [if_pos hopen, if_pos hopen, foldl_consume]
      · rw [if_neg hopen, if_neg hopen]
  exact hfold (List.range 3)

/-! ## Runs of polls -/

/-- A program that polls: the input layer, the events that it was given, and, for each read of the
devices, the records and the burst. -/
structure Polling where
  input : CnInput
  delivered : List QueuedEv
  records : ℕ → List RawEvent
  bursts : List (List QueuedEv)

/-- Before the first poll. -/
def Polling.start : Polling := ⟨opened, [], fun _ => [], []⟩

/-- The read that a poll makes: only where nothing is queued and a device is open and ready. -/
def readOf (fds : ℕ → Bool) (input : CnInput) (answer : PollAnswer) :
    Option (ℕ → List RawEvent) :=
  match input.queue.pop, answer with
  | none, .ready reads => if (List.range 3).all fun i => ¬ fds i then none else some reads
  | _, _ => none

/-- One more poll. -/
def Polling.poll (fds : ℕ → Bool) (s : Polling) (answer : PollAnswer) : Polling where
  input := (s.input.poll fds answer).2.2
  delivered := s.delivered ++ (s.input.poll fds answer).2.1.toList
  records i :=
    match readOf fds s.input answer with
    | none => s.records i
    | some reads => s.records i ++ if fds i then reads i else []
  bursts :=
    match readOf fds s.input answer with
    | none => s.bursts
    | some reads => s.bursts ++ [(burst fds s.input.touch reads).2]

/-- The last 63 events. -/
def kept (events : List QueuedEv) : List QueuedEv := events.drop (events.length - (queueMax - 1))

/-- The events of the records of a device. -/
def eventsOf (dev : ℕ) (records : List RawEvent) : List QueuedEv :=
  if dev = 2 then (touched records).2.map fun e => ⟨e, 2⟩ else records.filterMap (keyEvent dev)

/-- What a program that polls was given and what was read. -/
structure Polling.Sound (s : Polling) : Prop where
  delivers : s.delivered ++ s.input.queue.contents = s.bursts.flatMap kept
  touch_eq : s.input.touch = (touched (s.records 2)).1
  events : ∀ dev < 3, s.bursts.flatten.filter (fun e => e.rawDev = dev) = eventsOf dev (s.records dev)

section Events

variable {fds : ℕ → Bool} {t : Touch} {reads : ℕ → List RawEvent} {dev : ℕ}

theorem keyEvent_rawDev {ev : RawEvent} {e : QueuedEv} (h : keyEvent dev ev = some e) :
    e.rawDev = dev := by
  unfold keyEvent at h
  dsimp only at h
  split_ifs at h <;> obtain rfl := Option.some.inj h <;> rfl

/-- The events of the records of one device, behind others. -/
theorem deviceBurst_eq (i : ℕ) (s : Touch × List QueuedEv) (records : List RawEvent) :
    (deviceBurst i s records).2 = s.2 ++ (deviceBurst i (s.1, []) records).2 := by
  unfold deviceBurst
  split_ifs <;> simp

theorem deviceBurst_rawDev (i : ℕ) (records : List RawEvent) {e : QueuedEv}
    (h : e ∈ (deviceBurst i (t, []) records).2) : e.rawDev = i := by
  unfold deviceBurst at h
  split_ifs at h with hi
  · obtain ⟨e', -, rfl⟩ := List.mem_map.mp h
    exact hi.symm
  · obtain ⟨ev, -, hev⟩ := List.mem_filterMap.mp h
    exact keyEvent_rawDev hev

/-- Of the events of one device, those of a device. -/
theorem filter_deviceBurst (i : ℕ) (s : Touch × List QueuedEv) (records : List RawEvent) :
    (deviceBurst i s records).2.filter (fun e => e.rawDev = dev) =
      s.2.filter (fun e => e.rawDev = dev) ++
        if i = dev then (deviceBurst i (s.1, []) records).2 else [] := by
  rw [deviceBurst_eq, List.filter_append]
  congr 1
  split_ifs with hi
  · rw [List.filter_eq_self]
    intro e he
    simpa [hi] using deviceBurst_rawDev i records he
  · rw [List.filter_eq_nil_iff]
    intro e he
    simpa [deviceBurst_rawDev i records he] using hi

/-- The keys leave the fields for the touch records alone. -/
theorem deviceBurst_touch {i : ℕ} (hi : i ≠ 2) (s : Touch × List QueuedEv)
    (records : List RawEvent) : (deviceBurst i s records).1 = s.1 := by
  unfold deviceBurst
  rw [if_neg hi]

theorem burst_eq (fds : ℕ → Bool) (t : Touch) (reads : ℕ → List RawEvent) : ∃ keys,
    keys.1 = t ∧ (∀ dev < 2, keys.2.filter (fun e => e.rawDev = dev) =
      if fds dev then (reads dev).filterMap (keyEvent dev) else []) ∧
    keys.2.filter (fun e => e.rawDev = 2) = [] ∧
    burst fds t reads = if fds 2 then deviceBurst 2 keys (reads 2) else keys := by
  -- the keys are read first
  refine ⟨[0, 1].foldl (fun s i => if fds i then deviceBurst i s (reads i) else s) (t, []), ?_, ?_,
    ?_, ?_⟩
  · simp only [List.foldl_cons, List.foldl_nil]
    split_ifs <;> simp [deviceBurst_touch]
  · intro dev hdev
    have hcases : dev = 0 ∨ dev = 1 := by omega
    simp only [List.foldl_cons, List.foldl_nil]
    rcases hcases with rfl | rfl <;> cases h0 : fds 0 <;> cases h1 : fds 1 <;>
      simp [filter_deviceBurst] <;> simp [deviceBurst]
  · simp only [List.foldl_cons, List.foldl_nil]
    split_ifs <;> simp [filter_deviceBurst]
  · rfl

/-- **The events of a burst, device by device.** -/
theorem filter_burst (hdev : dev < 3) :
    (burst fds t reads).2.filter (fun e => e.rawDev = dev) =
      if fds dev then (deviceBurst dev (t, []) (reads dev)).2 else [] := by
  obtain ⟨keys, htouch, hkeys, hnone, hburst⟩ := burst_eq fds t reads
  rw [hburst]
  by_cases h2 : dev = 2
  · subst h2
    split_ifs with hopen
    · rw [filter_deviceBurst, hnone, if_pos rfl, htouch, List.nil_append]
    · exact hnone
  · have hkey := hkeys dev (by omega)
    have hburst' : (deviceBurst dev (t, []) (reads dev)).2 =
        (reads dev).filterMap (keyEvent dev) := by
      unfold deviceBurst
      rw [if_neg h2, List.nil_append]
    rw [hburst']
    by_cases hopen : fds 2
    · rw [if_pos hopen, filter_deviceBurst, if_neg (Ne.symm h2), List.append_nil, hkey]
    · rw [if_neg hopen, hkey]

theorem burst_touch : (burst fds t reads).1 =
    if fds 2 then ((reads 2).foldl touchStep (t, [])).1 else t := by
  obtain ⟨keys, htouch, -, -, hburst⟩ := burst_eq fds t reads
  rw [hburst]
  split_ifs
  · unfold deviceBurst
    rw [if_pos rfl, htouch]
  · exact htouch

/-- The events of the records of a device, read in two parts. -/
theorem eventsOf_append (dev : ℕ) (before records : List RawEvent) :
    eventsOf dev (before ++ records) = eventsOf dev before ++
      (deviceBurst dev ((touched before).1, []) records).2 := by
  unfold eventsOf deviceBurst
  by_cases h2 : dev = 2
  · rw [if_pos h2, if_pos h2, if_pos h2]
    unfold touched
    rw [List.foldl_append, foldl_touchStep, List.nil_append, ← List.map_append]
  · rw [if_neg h2, if_neg h2, if_neg h2, List.filterMap_append, List.nil_append]

end Events

/-! ## What a program is given -/

section Polls

variable {fds : ℕ → Bool} {s : Polling} {answer : PollAnswer}

/-- A poll that reads nothing and delivers what was queued, or nothing. -/
theorem Polling.Sound.of_contents (h : s.Sound) {input : CnInput} {delivered : List QueuedEv}
    (htouch : input.touch = s.input.touch)
    (hcontents : delivered ++ input.queue.contents = s.input.queue.contents) :
    Polling.Sound ⟨input, s.delivered ++ delivered, s.records, s.bursts⟩ := by
  refine ⟨?_, htouch.trans h.touch_eq, h.events⟩
  rw [List.append_assoc, hcontents]
  exact h.delivers

/-- The queue keeps the last events of a burst. -/
theorem contents_pushAll {input : CnInput} (hempty : input.queue.contents = [])
    (b : Touch × List QueuedEv) : (pushAll input b).queue.contents = kept b.2 := by
  unfold pushAll kept
  rw [RingQueue.contents_foldl_push, hempty, List.nil_append]

/-- What a poll takes out of a queue. -/
theorem deliver_contents (input : CnInput) :
    (deliver input).2.2.touch = input.touch ∧
      (deliver input).2.1.toList ++ (deliver input).2.2.queue.contents = input.queue.contents := by
  unfold deliver
  cases hpop : input.queue.pop with
  | none => exact ⟨rfl, rfl⟩
  | some p =>
    obtain ⟨e, queue⟩ := p
    exact ⟨rfl, (RingQueue.contents_pop_of_some hpop).symm⟩

/-- A poll that reads the devices. -/
theorem Polling.Sound.read (h : s.Sound) (hempty : s.input.queue.contents = [])
    (reads : ℕ → List RawEvent) :
    Polling.Sound ⟨(deliver (fillQueue fds s.input reads)).2.2,
      s.delivered ++ (deliver (fillQueue fds s.input reads)).2.1.toList,
      fun i => s.records i ++ if fds i then reads i else [],
      s.bursts ++ [(burst fds s.input.touch reads).2]⟩ := by
  obtain ⟨htouch, hcontents⟩ := deliver_contents (fillQueue fds s.input reads)
  have hdelivers := h.delivers
  rw [hempty, List.append_nil] at hdelivers
  constructor
  · rw [List.append_assoc, hcontents, fillQueue_eq, contents_pushAll hempty, hdelivers]
    simp
  · rw [htouch, fillQueue_eq]
    change (burst fds s.input.touch reads).1 = _
    rw [burst_touch, h.touch_eq]
    unfold touched
    rw [List.foldl_append]
    by_cases hopen : fds 2
    · rw [if_pos hopen, if_pos hopen]
      generalize s.records 2 = before
      rw [foldl_touchStep _ (before.foldl touchStep (idle, [])).2]
    · rw [if_neg hopen, if_neg hopen]
      rfl
  · intro dev hdev
    dsimp only
    rw [List.flatten_append, List.filter_append, h.events dev hdev, List.flatten_singleton,
      filter_burst hdev]
    by_cases hopen : fds dev
    · rw [if_pos hopen, if_pos hopen, eventsOf_append]
      congr 1
      by_cases h2 : dev = 2
      · rw [h.touch_eq, h2]
      · unfold deviceBurst
        rw [if_neg h2, if_neg h2]
    · rw [if_neg hopen, if_neg hopen, List.append_nil, List.append_nil]

/-- **A poll keeps what the program was given.** -/
theorem Polling.Sound.poll (h : s.Sound) : (s.poll fds answer).Sound := by
  unfold Polling.poll readOf CnInput.poll
  cases hpop : s.input.queue.pop with
  | some p =>
    obtain ⟨e, queue⟩ := p
    exact h.of_contents rfl (RingQueue.contents_pop_of_some hpop).symm
  | none =>
    dsimp only
    by_cases hclosed : (List.range 3).all fun i => ¬ fds i
    · rw [if_pos hclosed]
      cases answer with
      | failed eintr => exact h.of_contents rfl rfl
      | timeout => exact h.of_contents rfl rfl
      | ready reads =>
        dsimp only
        rw [if_pos hclosed]
        exact h.of_contents rfl rfl
    · rw [if_neg hclosed]
      cases answer with
      | failed eintr => exact h.of_contents rfl rfl
      | timeout => exact h.of_contents rfl rfl
      | ready reads =>
        dsimp only
        rw [if_neg hclosed]
        exact h.read ((RingQueue.pop_eq_none_iff _).mp hpop) reads

end Polls

theorem kept_of_le {events : List QueuedEv} (h : events.length ≤ 63) : kept events = events := by
  have hdrop : events.length - (queueMax - 1) = 0 := Nat.sub_eq_zero_of_le h
  rw [kept, hdrop, List.drop_zero]

/-- **What a program that polls is given.** After any polls of a new input layer, whichever devices
are open and whatever `poll` and the reads answer, what was delivered and what is queued are, read
by read, the last 63 events of each burst, in order and once; the events of the bursts that come
from a device are those of all its records, across the reads. Where no burst is longer than the
queue, nothing is lost. -/
theorem polls_deliver (fds : ℕ → Bool) (answers : List PollAnswer) :
    let s := answers.foldl (Polling.poll fds) .start
    s.delivered ++ s.input.queue.contents = s.bursts.flatMap kept ∧
    (∀ dev < 3, s.bursts.flatten.filter (fun e => e.rawDev = dev) =
      eventsOf dev (s.records dev)) ∧
    ((∀ b ∈ s.bursts, b.length ≤ 63) →
      s.delivered ++ s.input.queue.contents = s.bursts.flatten) := by
  have hstart : Polling.Sound .start := by
    refine ⟨rfl, rfl, ?_⟩
    intro dev hdev
    unfold eventsOf
    split_ifs <;> rfl
  have hend : ∀ (answers : List PollAnswer) (s : Polling), s.Sound →
      (answers.foldl (Polling.poll fds) s).Sound := by
    intro answers
    induction answers with
    | nil => exact fun s h => h
    | cons answer answers ih => exact fun s h => ih _ h.poll
  have h := hend answers .start hstart
  generalize answers.foldl (Polling.poll fds) .start = s at h
  refine ⟨h.delivers, h.events, ?_⟩
  intro hshort
  rw [h.delivers, ← List.flatMap_id]
  refine List.flatMap_congr fun b hb => ?_
  exact kept_of_le (hshort b hb)

end CnInput
