import CrossNook.Graphics.Canvas

/-!
# The display

The framebuffer of the Nook (`platform/nook/display.c`). A flush writes the frame from the first byte
on, in as many writes as the system wants, and can stop anywhere.

## Main definitions

* `Display.Frame`: the bytes of a full screen
* `Display.writeAll`, `Display.flush`: `write_all`, `cn_display_flush`
* `Display.frameOf`: the frame of a canvas, as its pixels lie in memory

## Main results

* `Display.flushes_show`: after any flushes the screen shows bands of frames, newer above older, and
  nothing older than the last flush that was completed
* `Display.flush_shows_canvas`: a flush that is completed shows the canvas
-/

namespace Display

open CnCanvas (Canvas)

/-- `CN_FB_BYTES`. -/
def fbBytes : ℕ := 600 * 800 * 2

/-- The bytes of a full screen. -/
abbrev Frame : Type := {bytes : List UInt8 // bytes.length = fbBytes}

/-- The framebuffer, and the offset of the descriptor. -/
structure Framebuffer where
  bytes : List UInt8
  offset : ℕ

/-- What a call of `write` answers. -/
inductive WriteAnswer
  | eintr
  | failed
  | wrote (n : ℕ)

/-- The framebuffer after some bytes were written at the offset. -/
def Framebuffer.write (fb : Framebuffer) (bytes : List UInt8) : Framebuffer where
  bytes := fb.bytes.take fb.offset ++ bytes ++ fb.bytes.drop (fb.offset + bytes.length)
  offset := fb.offset + bytes.length

/-- `write_all`: its return value, which is missing where the program is killed, and the
framebuffer. A `write` takes at most what it is given. -/
def writeAll (fb : Framebuffer) (buf : List UInt8) : List WriteAnswer → Option ℤ × Framebuffer
  | [] => if buf = [] then (some 0, fb) else (none, fb)
  | answer :: answers =>
    if buf = [] then (some 0, fb)
    else
      match answer with
      | .eintr => writeAll fb buf answers
      | .failed => (some (-1), fb)
      | .wrote n =>
        if n = 0 then (some (-1), fb)
        else writeAll (fb.write (buf.take n)) (buf.drop n) answers

/-- `cn_display_flush`, where `sought` tells whether the `lseek` succeeded. -/
def flush (fb : Framebuffer) (pixels : Frame) (sought : Bool) (answers : List WriteAnswer) :
    Option ℤ × Framebuffer :=
  if ¬ sought then (some (-1), fb)
  else
    match writeAll { fb with offset := 0 } pixels.1 answers with
    | (some 0, fb) => (some fbBytes, fb)
    | (some _, fb) => (some (-1), fb)
    | (none, fb) => (none, fb)

/-! ## One flush -/

/-- The first `k` bytes of the frame, and behind them what was there. -/
def cover (k : ℕ) (pixels old : List UInt8) : List UInt8 := pixels.take k ++ old.drop k

section Flush

variable {fb : Framebuffer} {pixels : List UInt8}

/-- One more write of the frame. -/
theorem write_cover {k n : ℕ} {old : List UInt8}
    (hk : k ≤ pixels.length) (hbytes : fb.bytes = cover k pixels old) (hoffset : fb.offset = k) :
    (fb.write ((pixels.drop k).take n)).bytes = cover (min (k + n) pixels.length) pixels old ∧
      (fb.write ((pixels.drop k).take n)).offset = min (k + n) pixels.length := by
  have hlen : ((pixels.drop k).take n).length = min n (pixels.length - k) := by
    rw [List.length_take, List.length_drop]
  have hnext : k + min n (pixels.length - k) = min (k + n) pixels.length := by omega
  constructor
  · unfold Framebuffer.write
    dsimp only
    have htake : (cover k pixels old).take k = pixels.take k := by
      unfold cover
      rw [List.take_append_of_le_length (by simp [hk]), List.take_take, min_self]
    have hdrop : (cover k pixels old).drop (min (k + n) pixels.length) =
        old.drop (min (k + n) pixels.length) := by
      unfold cover
      rw [List.drop_append, List.drop_of_length_le (by simp), List.nil_append,
        List.drop_drop, List.length_take, min_eq_left hk]
      congr 1
      omega
    have hfront : pixels.take k ++ (pixels.drop k).take n =
        pixels.take (min (k + n) pixels.length) := by
      rw [← List.take_add]
      rcases le_total (k + n) pixels.length with h | h
      · rw [min_eq_left h]
      · rw [min_eq_right h, List.take_of_length_le h, List.take_of_length_le le_rfl]
    rw [hbytes, hoffset, hlen, hnext, htake, hdrop, hfront]
    rfl
  · unfold Framebuffer.write
    rw [hoffset, hlen, hnext]

/-- **Where `write_all` stops** a beginning of the frame has been written, and all of it where it
returns success. -/
theorem writeAll_cover {old : List UInt8}
    (answers : List WriteAnswer) : ∀ (fb : Framebuffer) (k : ℕ), k ≤ pixels.length →
      fb.bytes = cover k pixels old → fb.offset = k →
      ∃ reach ≤ pixels.length, (writeAll fb (pixels.drop k) answers).2.bytes =
          cover reach pixels old ∧
        ((writeAll fb (pixels.drop k) answers).1 = some 0 → reach = pixels.length) := by
  induction answers with
  | nil =>
    intro fb k hk hbytes hoffset
    unfold writeAll
    by_cases hdone : pixels.drop k = []
    · rw [if_pos hdone]
      refine ⟨k, hk, hbytes, fun _ => ?_⟩
      have := List.drop_eq_nil_iff.mp hdone
      omega
    · rw [if_neg hdone]
      exact ⟨k, hk, hbytes, fun h => by cases h⟩
  | cons answer answers ih =>
    intro fb k hk hbytes hoffset
    unfold writeAll
    by_cases hdone : pixels.drop k = []
    · rw [if_pos hdone]
      refine ⟨k, hk, hbytes, fun _ => ?_⟩
      have := List.drop_eq_nil_iff.mp hdone
      omega
    rw [if_neg hdone]
    cases answer with
    | eintr => exact ih fb k hk hbytes hoffset
    | failed => exact ⟨k, hk, hbytes, fun h => by simp at h⟩
    | wrote n =>
      dsimp only
      by_cases hn : n = 0
      · rw [if_pos hn]
        exact ⟨k, hk, hbytes, fun h => by simp at h⟩
      · rw [if_neg hn]
        obtain ⟨hbytes', hoffset'⟩ := write_cover (n := n) hk hbytes hoffset
        have hrest : (pixels.drop k).drop n = pixels.drop (min (k + n) pixels.length) := by
          rw [List.drop_drop]
          rcases le_total (k + n) pixels.length with h | h
          · rw [min_eq_left h]
          · rw [min_eq_right h, List.drop_of_length_le h, List.drop_of_length_le le_rfl]
        rw [hrest]
        exact ih _ _ (min_le_right _ _) hbytes' hoffset'

/-- **What a flush leaves**: a beginning of its frame above what was there, and its whole frame where
it returns success. -/
theorem flush_cover (fb : Framebuffer) (pixels : Frame)
    (sought : Bool) (answers : List WriteAnswer) : ∃ reach ≤ fbBytes,
      (flush fb pixels sought answers).2.bytes = cover reach pixels.1 fb.bytes ∧
      ((flush fb pixels sought answers).1 = some (fbBytes : ℤ) → reach = fbBytes) := by
  unfold flush
  by_cases hseek : ¬ sought
  · rw [if_pos hseek]
    refine ⟨0, Nat.zero_le _, rfl, fun h => ?_⟩
    simp [fbBytes] at h
  rw [if_neg hseek]
  obtain ⟨reach, hreach, hbytes, hdone⟩ :=
    writeAll_cover answers { fb with offset := 0 } 0 (Nat.zero_le _) rfl rfl
  rw [List.drop_zero] at hbytes hdone
  rw [pixels.2] at hreach hdone
  generalize writeAll { fb with offset := 0 } pixels.1 answers = result at hbytes hdone
  obtain ⟨code, fb'⟩ := result
  refine ⟨reach, hreach, ?_, ?_⟩
  · rw [← hbytes]
    split <;> simp_all
  · intro hcode
    split at hcode
    · exact hdone (by simp_all)
    · simp [fbBytes] at hcode
    · simp at hcode

end Flush

/-! ## Flushes one after the other -/

/-- A call of `cn_display_flush` with what the system answers. -/
structure Flush where
  pixels : Frame
  sought : Bool
  answers : List WriteAnswer

/-- The framebuffer after a call. -/
def Flush.after (fb : Framebuffer) (f : Flush) : Framebuffer :=
  (flush fb f.pixels f.sought f.answers).2

/-- The framebuffer after some calls. -/
def flushAll (fb : Framebuffer) (flushes : List Flush) : Framebuffer := flushes.foldl Flush.after fb

/-- The call returns success on the framebuffer. -/
def Flush.Completes (fb : Framebuffer) (f : Flush) : Prop :=
  (flush fb f.pixels f.sought f.answers).1 = some (fbBytes : ℤ)

/-- What was on the screen as the `n`-th thing: the first is what was there before. -/
def shown (fb : Framebuffer) (flushes : List Flush) : ℕ → List UInt8
  | 0 => fb.bytes
  | n + 1 => ((flushes[n]?).map fun f => f.pixels.1).getD []

/-- The screen shows bands: `age` tells for each byte which frame it is of, later frames are above
earlier ones, and a frame that was completed hides everything before it. -/
structure Bands (fb : Framebuffer) (flushes : List Flush) (age : ℕ → ℕ) : Prop where
  age_le : ∀ i, age i ≤ flushes.length
  antitone : Antitone age
  shows : ∀ i < fbBytes, (flushAll fb flushes).bytes[i]? = (shown fb flushes (age i))[i]?
  completed : ∀ n (hn : n < flushes.length), (flushes[n]).Completes (flushAll fb (flushes.take n)) →
    ∀ i < fbBytes, n < age i

section Flushes

variable {fb : Framebuffer} {flushes : List Flush} {age : ℕ → ℕ}

theorem flushAll_snoc (fb : Framebuffer) (flushes : List Flush) (f : Flush) :
    flushAll fb (flushes ++ [f]) = f.after (flushAll fb flushes) := by
  unfold flushAll
  rw [List.foldl_append]
  rfl

theorem length_flushAll (hfb : fb.bytes.length = fbBytes) (flushes : List Flush) :
    (flushAll fb flushes).bytes.length = fbBytes := by
  induction flushes using List.reverseRecOn with
  | nil => exact hfb
  | append_singleton flushes f ih =>
    obtain ⟨reach, hreach, hbytes, -⟩ := flush_cover _ f.pixels f.sought f.answers
    rw [flushAll_snoc]
    unfold Flush.after
    rw [hbytes]
    unfold cover
    rw [List.length_append, List.length_take, List.length_drop, f.pixels.2, ih]
    omega

theorem shown_snoc (fb : Framebuffer) (flushes : List Flush) (f : Flush) {n : ℕ}
    (h : n ≤ flushes.length) : shown fb (flushes ++ [f]) n = shown fb flushes n := by
  cases n with
  | zero => rfl
  | succ n =>
    dsimp only [shown]
    rw [List.getElem?_append_left h]

/-- **One more flush** puts a band above the others. -/
theorem Bands.snoc (h : Bands fb flushes age) (hfb : fb.bytes.length = fbBytes) (f : Flush) :
    ∃ age', Bands fb (flushes ++ [f]) age' := by
  have hlen := length_flushAll hfb flushes
  obtain ⟨reach, hreach, hbytes, hdone⟩ := flush_cover _ f.pixels f.sought f.answers
  refine ⟨fun i => if i < reach then flushes.length + 1 else age i, ?_, ?_, ?_, ?_⟩
  · intro i
    have := h.age_le i
    rw [List.length_append, List.length_singleton]
    split_ifs <;> omega
  · intro i j hij
    have := h.antitone hij
    have := h.age_le j
    dsimp only
    split_ifs <;> omega
  · intro i hi
    rw [flushAll_snoc]
    unfold Flush.after
    rw [hbytes]
    unfold cover
    by_cases hbelow : i < reach
    · -- the new band
      have hframe : shown fb (flushes ++ [f]) (flushes.length + 1) = f.pixels.1 := by
        simp [shown]
      rw [if_pos hbelow, hframe, List.getElem?_append_left, List.getElem?_take_of_lt hbelow]
      rw [List.length_take, f.pixels.2]
      omega
    · have htake : (f.pixels.1.take reach).length = reach := by
        rw [List.length_take, f.pixels.2]
        omega
      rw [if_neg hbelow, List.getElem?_append_right (by omega), htake, List.getElem?_drop,
        shown_snoc _ _ _ (h.age_le i), ← h.shows i hi]
      congr 1
      omega
  · intro n hn hcompletes i hi
    rw [List.length_append, List.length_singleton] at hn
    by_cases hlast : n = flushes.length
    · subst hlast
      have hpos : i < reach := by
        rw [List.take_left', List.getElem_concat_length] at hcompletes
        · rw [hdone hcompletes]
          exact hi
        · rfl
        · rfl
      rw [if_pos hpos]
      omega
    · have hlt : n < flushes.length := by omega
      rw [List.getElem_append_left hlt, List.take_append_of_le_length hlt.le] at hcompletes
      have := h.completed n hlt hcompletes i hi
      split_ifs <;> omega

/-- **What the screen shows.** Whatever the system answers to any flushes, wherever it takes few
bytes, fails or the program is killed, the screen is cut into bands, each of one frame, with later
frames above earlier ones; behind a flush that returned success nothing older is left. -/
theorem flushes_show (hfb : fb.bytes.length = fbBytes) (flushes : List Flush) :
    ∃ age, Bands fb flushes age := by
  induction flushes using List.reverseRecOn with
  | nil =>
    refine ⟨fun _ => 0, fun _ => Nat.zero_le _, fun _ _ _ => le_rfl, fun _ _ => rfl, ?_⟩
    intro n hn
    exact absurd hn (Nat.not_lt_zero n)
  | append_singleton flushes f ih =>
    obtain ⟨age, hage⟩ := ih
    exact hage.snoc hfb f

/-- A frame of one byte, everywhere. -/
def plainFrame (b : UInt8) : Frame := ⟨List.replicate fbBytes b, List.length_replicate⟩

theorem flushes_show_sample : ∃ age, Bands ⟨(plainFrame 0).1, 0⟩
    [⟨plainFrame 0xff, true, [.eintr, .wrote 2, .failed]⟩, ⟨plainFrame 0x7f, false, []⟩] age :=
  flushes_show (plainFrame 0).2 _

end Flushes

/-! ## The frame of a canvas -/

/-- The two bytes of a pixel, as they lie in memory. -/
def pixelBytes (color : UInt16) : List UInt8 := [color.toUInt8, (color >>> 8).toUInt8]

/-- The bytes of the pixels of a canvas, which `cn_canvas_pixels` points to. -/
def frameBytes (c : Canvas) : List UInt8 := c.pixels.flatMap pixelBytes

/-- The pixel of the screen at a place. -/
def pixelAt (fb : Framebuffer) (x y : ℕ) : UInt16 :=
  ((fb.bytes[2 * (y * 600 + x)]?).getD 0).toUInt16 +
    256 * ((fb.bytes[2 * (y * 600 + x) + 1]?).getD 0).toUInt16

section Canvas

theorem length_flatMap_pixelBytes (pixels : List UInt16) :
    (pixels.flatMap pixelBytes).length = 2 * pixels.length := by
  induction pixels with
  | nil => rfl
  | cons color pixels ih =>
    rw [List.flatMap_cons, List.length_append, ih, List.length_cons]
    change 2 + 2 * pixels.length = 2 * (pixels.length + 1)
    omega

/-- A pixel is two bytes of the frame. -/
theorem getElem?_flatMap_pixelBytes {pixels : List UInt16} {i : ℕ} {color : UInt16}
    (h : pixels[i]? = some color) :
    (pixels.flatMap pixelBytes)[2 * i]? = some color.toUInt8 ∧
      (pixels.flatMap pixelBytes)[2 * i + 1]? = some (color >>> 8).toUInt8 := by
  induction pixels generalizing i with
  | nil => simp at h
  | cons first pixels ih =>
    cases i with
    | zero =>
      obtain rfl : first = color := by simpa using h
      exact ⟨rfl, rfl⟩
    | succ i =>
      obtain ⟨hlow, hhigh⟩ := ih (by simpa using h)
      exact ⟨hlow, hhigh⟩

theorem pack_pixelBytes (color : UInt16) :
    color.toUInt8.toUInt16 + (256 : UInt16) * (color >>> 8).toUInt8.toUInt16 = color := by
  apply UInt16.toNat_inj.mp
  have hcolor := color.toNat_lt
  simp only [UInt16.toNat_add, UInt16.toNat_mul, UInt8.toNat_toUInt16, UInt16.toNat_toUInt8,
    UInt16.toNat_shiftRight, Nat.shiftRight_eq_div_pow]
  change (color.toNat % 256 + 256 * (color.toNat / 2 ^ 8 % 256) % 65536) % 65536 = color.toNat
  omega

theorem length_frameBytes {c : Canvas} (hw : c.w = 600) (hh : c.h = 800) :
    (frameBytes c).length = fbBytes := by
  unfold frameBytes
  rw [length_flatMap_pixelBytes, c.length_pixels, hw, hh]
  rfl

/-- The frame of a canvas of the size of the screen. -/
def frameOf (c : Canvas) (hw : c.w = 600) (hh : c.h = 800) : Frame :=
  ⟨frameBytes c, length_frameBytes hw hh⟩

/-- **A canvas on the screen.** Whatever was there before, a flush that returns success shows the
canvas, pixel by pixel. -/
theorem flush_shows_canvas {c : Canvas} (hw : c.w = 600) (hh : c.h = 800) {fb : Framebuffer}
    (hfb : fb.bytes.length = fbBytes) {sought : Bool} {answers : List WriteAnswer}
    (hdone : (flush fb (frameOf c hw hh) sought answers).1 = some (fbBytes : ℤ)) {x y : ℕ}
    (hx : x < 600) (hy : y < 800) :
    pixelAt (flush fb (frameOf c hw hh) sought answers).2 x y = CnCanvas.getPixel c x y := by
  obtain ⟨reach, -, hbytes, hreach⟩ := flush_cover fb (frameOf c hw hh) sought answers
  rw [hreach hdone] at hbytes
  have hframe : (flush fb (frameOf c hw hh) sought answers).2.bytes = frameBytes c := by
    rw [hbytes]
    unfold cover
    rw [List.drop_of_length_le hfb.le, List.append_nil]
    exact List.take_of_length_le (length_frameBytes hw hh).le
  -- the place is on the canvas
  have hscreen : c.OnScreen x y := by
    refine ⟨by omega, ?_, by omega, ?_⟩
    · rw [hw]
      exact_mod_cast hx
    · rw [hh]
      exact_mod_cast hy
  have hindex : ((y : ℤ) * c.w + x).toNat = y * 600 + x := by
    rw [hw]
    omega
  have hpixel : c.pixels[y * 600 + x]? = some (CnCanvas.getPixel c x y) := by
    rw [CnCanvas.getPixel_of_onScreen hscreen, ← hindex, List.getD_eq_getElem?_getD,
      List.getElem?_eq_getElem hscreen.index_lt]
    rfl
  obtain ⟨hlow, hhigh⟩ := getElem?_flatMap_pixelBytes hpixel
  unfold pixelAt
  rw [hframe]
  unfold frameBytes
  rw [hlow, hhigh]
  exact pack_pixelBytes _

end Canvas

end Display
