import CrossNook.App.Reader
import CrossNook.Sync.ProfileController

/-!
# The validators of UTF-8 texts

A position is checked by the reader that makes it, by the store that keeps it and by the protocol
that carries it; a device name by the settings and by the controllers that send it; a device id by
the controllers and by the protocol. The checks are written separately, some by ranges of bytes
and some by the value of the decoded character, and they agree.

## Main definitions

* `Validators.Control u`: `u` is the encoding of a C0 control, of DEL or of a C1 control

## Main results

* `Validators.positions_agree`: the checks of positions accept the well-formed strings
* `Validators.utf8DeviceNameValid_iff`: the check of device names
* `Validators.validDeviceId_iff`: the check of device ids is the one of the protocol
-/

namespace Validators

open Kosync (HeaderByte deviceMax headerTextOk)
open SyncController (deviceIdStep validDeviceId validDeviceName)
open Utf8 (IsChar Tail ValidWith)

/-! ## Positions -/

theorem positionUtf8Step_iff (l r : List UInt8) :
    Reader.positionUtf8Step l = some r ↔ ∃ u, IsChar u ∧ True ∧ l = u ++ r := by
  cases l with
  | nil =>
    refine ⟨fun h => absurd h (by simp [Reader.positionUtf8Step]), ?_⟩
    rintro ⟨u, hu, -, h⟩
    exact absurd (List.append_eq_nil_iff.mp h.symm).1 hu.ne_nil
  | cons c text =>
    rw [Reader.positionUtf8Step]
    by_cases hc : c ≤ 0x7f
    · rw [if_pos hc, Option.some.injEq]
      refine ⟨fun h => ⟨[c], .one hc, trivial, by rw [h]; rfl⟩, ?_⟩
      rintro ⟨u, hu, -, h⟩
      exact (hu.eq_of_append (.one hc) h.symm).2.symm
    · rw [if_neg hc, ProgressStore.utf8Step_strips.step_iff]
      refine ⟨fun ⟨u, hu, _, h⟩ => ⟨u, hu, trivial, h⟩, ?_⟩
      rintro ⟨u, hu, -, h⟩
      refine ⟨u, hu, ?_, h⟩
      rintro rfl
      obtain ⟨rfl, -⟩ := List.cons.inj h
      exact hc (by decide)

/-- The reader admits NUL, which a string in C does not contain. -/
theorem positionUtf8Valid_iff {text : List UInt8} :
    Reader.positionUtf8Valid text = true ↔ Utf8.Valid text :=
  Utf8.validates_iff positionUtf8Step_iff text

theorem positions_agree {text : List UInt8} (h : (0 : UInt8) ∉ text) :
    (Kosync.utf8Valid text = true ↔ Utf8.Valid text) ∧
      (ProgressStore.utf8Valid text = true ↔ Utf8.Valid text) ∧
      (Reader.positionUtf8Valid text = true ↔ Utf8.Valid text) := by
  have htext : ValidWith (· ≠ [0]) text ↔ Utf8.Valid text := by
    rw [Utf8.validWith_ne_nul_iff, and_iff_left h]
  exact ⟨Kosync.utf8Valid_iff.trans htext, ProgressStore.utf8Valid_iff.trans htext,
    positionUtf8Valid_iff⟩

/-! ## Device names -/

/-- The encoding of a C0 control, of DEL or of a C1 control. -/
def Control (u : List UInt8) : Prop :=
  ∃ v, (v < 0x20 ∨ 0x7f ≤ v ∧ v ≤ 0x9f) ∧ u = Utf8.encode v

theorem control_one {a : UInt8} : Control [a] ↔ a < 0x20 ∨ a = 0x7f := by
  constructor
  · rintro ⟨v, hv, h⟩
    unfold Utf8.encode at h
    split_ifs at h with h1 h2 h3
    · obtain rfl := List.head_eq_of_cons_eq h
      rw [UInt8.lt_iff_toNat_lt, ← UInt8.toNat_inj, UInt8.toNat_ofNat']
      simp; omega
    all_goals simp at h
  · intro h
    refine ⟨a.toNat, ?_, ?_⟩
    · rw [UInt8.lt_iff_toNat_lt, ← UInt8.toNat_inj] at h
      simp at h; omega
    · have ha : a.toNat < 0x80 := by
        rw [UInt8.lt_iff_toNat_lt, ← UInt8.toNat_inj] at h
        simp at h; omega
      simp [Utf8.encode, ha]

theorem control_two {a b : UInt8} (hb : Tail b) : Control [a, b] ↔ a = 0xc2 ∧ b ≤ 0x9f := by
  obtain ⟨hlow, -⟩ := hb
  rw [UInt8.le_iff_toNat_le] at hlow
  simp at hlow
  constructor
  · rintro ⟨v, hv, h⟩
    unfold Utf8.encode at h
    split_ifs at h with h1 h2 h3
    · simp at h
    · obtain ⟨ha, h⟩ := List.cons.inj h
      obtain rfl := List.head_eq_of_cons_eq h
      rw [ha, UInt8.le_iff_toNat_le, ← UInt8.toNat_inj, UInt8.toNat_ofNat', UInt8.toNat_ofNat']
      simp; omega
    all_goals simp at h
  · rintro ⟨rfl, h⟩
    rw [UInt8.le_iff_toNat_le] at h
    simp at h
    refine ⟨b.toNat, .inr (by omega), ?_⟩
    have h1 : ¬ b.toNat < 0x80 := by omega
    have h2 : b.toNat < 0x800 := by omega
    have hhead : 0xc0 + b.toNat / 64 = 0xc2 := by omega
    have htail : 0x80 + b.toNat % 64 = b.toNat := by omega
    simp [Utf8.encode, h1, h2, hhead, htail]

theorem not_control_of_length {u : List UInt8} (h : 3 ≤ u.length) : ¬ Control u := by
  rintro ⟨v, hv, rfl⟩
  unfold Utf8.encode at h
  split_ifs at h <;> simp at h <;> omega

theorem deviceNameTail_eq (remaining codepoint : ℕ) (text : List UInt8) :
    SettingsStore.deviceNameTail remaining codepoint text =
      Kosync.utf8Tail remaining codepoint text := by
  induction remaining generalizing codepoint text with
  | zero => rfl
  | succ remaining ih =>
    cases text with
    | nil => rfl
    | cons b text => rw [SettingsStore.deviceNameTail, Kosync.utf8Tail, ih]

theorem deviceNameLead_eq : ∀ a : UInt8, SettingsStore.deviceNameLead a =
    if a < 0x80 then some (a.toNat, 0, 0)
    else if 0xc0 ≤ a ∧ a ≤ 0xdf then some (a.toNat % 32, 1, 0x80)
    else if 0xe0 ≤ a ∧ a ≤ 0xef then some (a.toNat % 16, 2, 0x800)
    else if 0xf0 ≤ a ∧ a ≤ 0xf7 then some (a.toNat % 8, 3, 0x10000)
    else none := by
  rw [Utf8.forall_uint8]
  decide +kernel

theorem deviceNameStep_ascii {a : UInt8} (ha : a < 0x80) (r : List UInt8) :
    SettingsStore.deviceNameStep (a :: r) = if a < 0x20 ∨ a = 0x7f then none else some r := by
  rw [SettingsStore.deviceNameStep, deviceNameLead_eq, if_pos ha]
  simp only [SettingsStore.deviceNameTail, Nat.not_lt_zero, if_false]
  refine if_congr ?_ rfl rfl
  rw [UInt8.lt_iff_toNat_lt] at ha ⊢
  rw [← UInt8.toNat_inj]
  simp at ha ⊢
  omega

theorem deviceNameStep_two {a : UInt8} (h : 0xc0 ≤ a) (h' : a ≤ 0xdf) (b : UInt8)
    (r : List UInt8) :
    SettingsStore.deviceNameStep (a :: b :: r) =
      if Tail b ∧ 0xc2 ≤ a ∧ ¬ (a = 0xc2 ∧ b ≤ 0x9f) then some r else none := by
  rw [SettingsStore.deviceNameStep, deviceNameLead_eq, if_neg (by grind), if_pos ⟨h, h'⟩]
  simp only [deviceNameTail_eq, List.length_cons, Kosync.utf8Tail_cons, Kosync.utf8Tail_zero]
  rw [if_neg (by omega)]
  by_cases hb : Tail b
  · rw [if_pos hb]
    dsimp only
    rw [← ite_not]
    refine if_congr ?_ rfl rfl
    simp only [Tail, UInt8.le_iff_toNat_le, ← UInt8.toNat_inj] at h h' hb ⊢
    simp at h h' hb ⊢
    omega
  · simp [hb]

/-- From three bytes on, no character is a control. -/
theorem deviceNameStep_long {a : UInt8} (h : 0xe0 ≤ a) (h' : a ≤ 0xf4) (text : List UInt8) :
    SettingsStore.deviceNameStep (a :: text) = Kosync.utf8Step (a :: text) := by
  have hlead : ∃ value minimum remaining, 0x800 ≤ minimum ∧
      SettingsStore.deviceNameLead a = some (value, remaining, minimum) ∧
      Kosync.utf8Lead a = some (value, minimum, remaining) := by
    by_cases h3 : a ≤ 0xef
    · refine ⟨a.toNat % 16, 0x800, 2, by decide, ?_, Kosync.utf8Lead_three h h3⟩
      rw [deviceNameLead_eq, if_neg (by grind), if_neg (by grind), if_pos ⟨h, h3⟩]
    · refine ⟨a.toNat % 8, 0x10000, 3, by decide, ?_, Kosync.utf8Lead_four (by grind) h'⟩
      rw [deviceNameLead_eq, if_neg (by grind), if_neg (by grind), if_neg (by grind),
        if_pos (by grind)]
  obtain ⟨value, minimum, remaining, hmin, hdevice, hkosync⟩ := hlead
  rw [SettingsStore.deviceNameStep, Kosync.utf8Step, hdevice, hkosync, if_neg (by grind)]
  dsimp only
  refine if_congr Iff.rfl rfl ?_
  rw [deviceNameTail_eq]
  cases Kosync.utf8Tail remaining value text with
  | none => rfl
  | some t => exact if_congr (by omega) rfl rfl

/-- The bytes `0xf5` to `0xf7`, which the check reads as the start of a value out of range. -/
theorem deviceNameStep_high {a : UInt8} (h : 0xf5 ≤ a) (text : List UInt8) :
    SettingsStore.deviceNameStep (a :: text) = none := by
  rw [SettingsStore.deviceNameStep, deviceNameLead_eq, if_neg (by grind), if_neg (by grind),
    if_neg (by grind)]
  by_cases h4 : 0xf0 ≤ a ∧ a ≤ 0xf7
  · rw [if_pos h4]
    dsimp only
    by_cases hshort : text.length < 3
    · rw [if_pos hshort]
    rw [if_neg hshort, deviceNameTail_eq]
    obtain ⟨b, c, d, r, rfl⟩ : ∃ b c d r, text = b :: c :: d :: r := by
      rcases text with _ | ⟨b, _ | ⟨c, _ | ⟨d, r⟩⟩⟩ <;> simp at hshort ⊢
    simp only [Kosync.utf8Tail_cons, Kosync.utf8Tail_zero]
    by_cases hb : Tail b
    · by_cases hc : Tail c
      · by_cases hd : Tail d
        · rw [if_pos hb, if_pos hc, if_pos hd]
          obtain ⟨-, h7⟩ := h4
          rw [UInt8.le_iff_toNat_le] at h h7
          simp at h h7
          exact if_pos (by omega)
        · simp [hd]
      · simp [hc]
    · simp [hb]
  · rw [if_neg h4]

/-- No character starts with the bytes `0x80` to `0xc1`. -/
theorem deviceNameStep_stray {a : UInt8} (h : 0x80 ≤ a) (h' : a < 0xc2) (text : List UInt8) :
    SettingsStore.deviceNameStep (a :: text) = none := by
  by_cases h2 : 0xc0 ≤ a
  · cases text with
    | nil =>
      rw [SettingsStore.deviceNameStep, deviceNameLead_eq, if_neg (by grind), if_pos (by grind)]
      rfl
    | cons b r => rw [deviceNameStep_two h2 (by grind), if_neg (by grind)]
  · rw [SettingsStore.deviceNameStep, deviceNameLead_eq, if_neg (by grind), if_neg (by grind),
      if_neg (by grind), if_neg (by grind)]

/-- **The step of the check strips one character that is no control.** -/
theorem deviceNameStep_iff (l r : List UInt8) :
    SettingsStore.deviceNameStep l = some r ↔ ∃ u, IsChar u ∧ ¬ Control u ∧ l = u ++ r := by
  constructor
  · intro h
    cases l with
    | nil => simp [SettingsStore.deviceNameStep] at h
    | cons a text =>
      -- by the lead byte, in the order of the source
      by_cases h1 : a < 0x80
      · rw [deviceNameStep_ascii h1] at h
        split_ifs at h with hcontrol
        refine ⟨[a], .one (by grind), mt control_one.mp hcontrol, ?_⟩
        rw [Option.some.inj h]
        rfl
      by_cases h2 : a < 0xc2
      · rw [deviceNameStep_stray (by grind) h2] at h
        cases h
      by_cases h3 : a ≤ 0xdf
      · cases text with
        | nil =>
          rw [SettingsStore.deviceNameStep, deviceNameLead_eq, if_neg h1, if_pos (by grind)] at h
          cases h
        | cons b text =>
          rw [deviceNameStep_two (by grind) h3] at h
          split_ifs at h with hb
          refine ⟨[a, b], .two hb.2.1 h3 hb.1, mt (control_two hb.1).mp hb.2.2, ?_⟩
          rw [Option.some.inj h]
          rfl
      by_cases h4 : a ≤ 0xf4
      · rw [deviceNameStep_long (by grind) h4, Kosync.utf8Step_strips.step_iff] at h
        obtain ⟨u, hu, -, h⟩ := h
        refine ⟨u, hu, not_control_of_length ?_, h⟩
        cases hu <;> grind
      · rw [deviceNameStep_high (by grind)] at h
        cases h
  · -- each kind of character, and a control is one of one or two bytes
    rintro ⟨u, hu, hcontrol, rfl⟩
    cases hu with
    | @one a ha =>
      rw [control_one] at hcontrol
      exact (deviceNameStep_ascii (by grind) r).trans (if_neg hcontrol)
    | two ha ha' hb =>
      rw [control_two hb] at hcontrol
      exact (deviceNameStep_two (by grind) ha' _ r).trans (if_pos ⟨hb, ha, hcontrol⟩)
    | three ha ha' hlow hsur hb hc =>
      refine (deviceNameStep_long ha (by grind) _).trans ?_
      exact (Kosync.utf8Step_strips.step_iff _ _).mpr
        ⟨_, .three ha ha' hlow hsur hb hc, by simp, rfl⟩
    | four ha ha' hlow hhigh hb hc hd =>
      refine (deviceNameStep_long (by grind) ha' _).trans ?_
      exact (Kosync.utf8Step_strips.step_iff _ _).mpr
        ⟨_, .four ha ha' hlow hhigh hb hc hd, by simp, rfl⟩

/-- **Device names are the well-formed strings without controls.** -/
theorem utf8DeviceNameValid_iff {text : List UInt8} :
    SettingsStore.utf8DeviceNameValid text = true ↔ ValidWith (¬ Control ·) text :=
  Utf8.validates_iff deviceNameStep_iff text

theorem validDeviceName_iff {text : List UInt8} :
    validDeviceName text = true ↔ text ≠ [] ∧ text.length < SettingsStore.deviceNameCapacity ∧
      SettingsStore.utf8DeviceNameValid text = true := by
  unfold validDeviceName
  dsimp only
  rw [← List.length_pos_iff]
  have hcapacity : 0 < SettingsStore.deviceNameCapacity := by decide
  split_ifs with hlen
  · refine ⟨fun h => absurd h (by decide), ?_⟩
    omega
  · rw [List.take_of_length_le (by omega)]
    exact ⟨fun h => ⟨by omega, by omega, h⟩, fun h => h.2.2⟩

/-- The settings that pass with another name pass with `name` where the controllers accept it. -/
theorem validate_deviceName_iff (settings : Settings) {other : List UInt8}
    (hother : validDeviceName other = true) (name : List UInt8) :
    SettingsStore.validate { settings with kosyncDeviceName := name } = .ok ↔
      SettingsStore.validate { settings with kosyncDeviceName := other } = .ok ∧
        validDeviceName name = true := by
  have htexts : ∀ (long : Prop) (name : List UInt8), validDeviceName name = true →
      ((long ∨ min name.length SettingsStore.deviceNameCapacity = 0 ∨
        SettingsStore.deviceNameCapacity ≤ min name.length SettingsStore.deviceNameCapacity ∨
        ¬ SettingsStore.utf8DeviceNameValid
          (name.take (min name.length SettingsStore.deviceNameCapacity)) = true) ↔ long) := by
    intro long name hvalid
    obtain ⟨hne, hlen, hutf8⟩ := validDeviceName_iff.mp hvalid
    have hpos := List.length_pos_iff.mpr hne
    rw [List.take_of_length_le (by omega), hutf8]
    refine ⟨?_, .inl⟩
    rintro (h | h | h | h)
    · exact h
    · omega
    · omega
    · exact absurd rfl h
  by_cases hvalid : validDeviceName name = true
  · rw [and_iff_left hvalid]
    simp only [SettingsStore.validate, SettingsStore.boundedLength_some]
    simp only [htexts _ name hvalid, htexts _ other hother]
  · refine ⟨fun h => absurd (SyncController.validDeviceName_of_validate h) hvalid, ?_⟩
    exact fun h => absurd h.2 hvalid

/-! ## Device ids -/

theorem length_utf8Tail {remaining value value' : ℕ} {text r : List UInt8}
    (h : Kosync.utf8Tail remaining value text = some (value', r)) :
    text.length = r.length + remaining := by
  induction remaining generalizing value text with
  | zero =>
    obtain ⟨-, rfl⟩ := Prod.mk.inj (Option.some.inj h)
    rfl
  | succ remaining ih =>
    cases text with
    | nil => simp [Kosync.utf8Tail] at h
    | cons b text =>
      rw [Kosync.utf8Tail] at h
      split_ifs at h
      rw [List.length_cons, ih h]
      omega

theorem utf8Tail_short {remaining value : ℕ} {text : List UInt8} (h : text.length < remaining) :
    Kosync.utf8Tail remaining value text = none := by
  rw [Option.eq_none_iff_forall_ne_some]
  rintro ⟨value', r⟩ htail
  have := length_utf8Tail htail
  omega

/-- The step reads at least one byte, and none past the bound. -/
theorem deviceIdStep_index {length : ℕ} {ch : UInt8} {text r : List UInt8}
    (hlen : text.length < length) (h : deviceIdStep length (ch :: text) = some r) :
    length ≤ deviceMax + r.length ∧ r.length ≤ text.length := by
  rw [deviceIdStep] at h
  by_cases hch : deviceMax < length - text.length ∨ ch < 0x20 ∨ ch = 0x7f
  · rw [if_pos hch] at h
    cases h
  rw [if_neg hch] at h
  by_cases hascii : ch < 0x80
  · rw [if_pos hascii] at h
    obtain rfl := Option.some.inj h
    omega
  rw [if_neg hascii] at h
  cases hlead : Kosync.utf8Lead ch with
  | none => simp [hlead] at h
  | some lead =>
    obtain ⟨value, minimum, remaining⟩ := lead
    simp only [hlead] at h
    -- the tail is checked against the bound before it is read
    by_cases hlast : deviceMax < length - text.length + remaining
    · simp [hlast] at h
    rw [if_neg hlast] at h
    cases htail : Kosync.utf8Tail remaining value text with
    | none => simp [htail] at h
    | some tail =>
      obtain ⟨value', r'⟩ := tail
      simp only [htail] at h
      split_ifs at h
      obtain rfl := Option.some.inj h
      have := length_utf8Tail htail
      omega

/-- Within the bound, the step is that of the protocol on the bytes a header may carry. -/
theorem deviceIdStep_eq {length : ℕ} {ch : UInt8} {text : List UInt8}
    (hlen : text.length < length) (hmax : length ≤ deviceMax) :
    deviceIdStep length (ch :: text) =
      if HeaderByte ch then Kosync.utf8Step (ch :: text) else none := by
  rw [deviceIdStep]
  by_cases hch : HeaderByte ch
  · rw [if_neg (by rintro (h | h | h) <;> first | omega | grind), if_pos hch, Kosync.utf8Step]
    by_cases hascii : ch < 0x80
    · rw [if_pos hascii, if_pos hascii, if_neg (by grind)]
    rw [if_neg hascii, if_neg hascii]
    cases Kosync.utf8Lead ch with
    | none => rfl
    | some lead =>
      obtain ⟨value, minimum, remaining⟩ := lead
      dsimp only
      by_cases hshort : text.length < remaining
      · rw [if_pos hshort, utf8Tail_short hshort, ite_self]
      · rw [if_neg hshort]
        exact if_neg (by omega)
  · rw [if_pos (by grind), if_neg hch]

/-- The bytes of a character with a first byte that a header may carry. -/
theorem headerByte_of_isChar {ch : UInt8} {u : List UInt8} (hu : IsChar (ch :: u))
    (hch : HeaderByte ch) : ∀ c ∈ ch :: u, HeaderByte c := by
  intro c hc
  rcases List.mem_cons.mp hc with rfl | hc
  · exact hch
  · have := hu.tail_of_mem hc
    simp only [Tail] at this
    grind

theorem validates_deviceIdStep {length n : ℕ} {text : List UInt8} (hlen : text.length ≤ length)
    (hmax : length ≤ deviceMax) :
    Utf8.validates (deviceIdStep length) n text = true ↔
      (∀ c ∈ text, HeaderByte c) ∧ Utf8.validates Kosync.utf8Step n text = true := by
  induction n generalizing text with
  | zero => cases text <;> simp [Utf8.validates]
  | succ n ih =>
    cases text with
    | nil => simp [Utf8.validates]
    | cons ch text =>
      rw [Utf8.validates, Utf8.validates, deviceIdStep_eq hlen hmax]
      by_cases hch : HeaderByte ch
      · rw [if_pos hch]
        cases hstep : Kosync.utf8Step (ch :: text) with
        | none => simp
        | some r =>
          obtain ⟨u, hu, -, htext⟩ := (Kosync.utf8Step_strips.step_iff _ _).mp hstep
          have hr : r.length ≤ length := by
            have hlength := congrArg List.length htext
            simp only [List.length_append] at hlength
            omega
          obtain ⟨b, u, rfl⟩ := List.exists_cons_of_ne_nil hu.ne_nil
          obtain rfl : ch = b := (List.cons.inj htext).1
          have hheader := headerByte_of_isChar hu hch
          rw [htext]
          refine (ih hr).trans (and_congr_left fun _ => ?_)
          rw [List.forall_mem_append, and_iff_right hheader]
      · rw [if_neg hch]
        refine ⟨fun h => absurd h (by simp), fun h => absurd (h.1 ch (by simp)) hch⟩

/-- A text that the check gets through ends within the bound. -/
theorem length_le_of_validates {length n : ℕ} {text : List UInt8} (hne : text ≠ [])
    (hlen : text.length ≤ length) (h : Utf8.validates (deviceIdStep length) n text = true) :
    length ≤ deviceMax := by
  induction n generalizing text with
  | zero => cases text <;> simp_all [Utf8.validates]
  | succ n ih =>
    cases text with
    | nil => exact absurd rfl hne
    | cons ch text =>
      rw [Utf8.validates] at h
      cases hstep : deviceIdStep length (ch :: text) with
      | none => simp [hstep] at h
      | some r =>
        simp only [hstep] at h
        obtain ⟨hindex, hrest⟩ := deviceIdStep_index hlen hstep
        cases r with
        | nil => exact hindex
        | cons b r =>
          rw [List.length_cons] at hlen
          exact ih (List.cons_ne_nil b r) (by omega) h

/-- **Device ids are checked as by the protocol.** -/
theorem validDeviceId_iff {text : List UInt8} :
    validDeviceId (some text) = true ↔
      headerTextOk text deviceMax false = true ∧ Kosync.utf8Valid text = true := by
  have hdecide : validDeviceId (some text) = true ↔
      text ≠ [] ∧ Utf8.validates (deviceIdStep text.length) text.length text = true :=
    decide_eq_true_iff
  rw [hdecide, Kosync.headerTextOk_iff]
  constructor
  · rintro ⟨hne, h⟩
    have hmax := length_le_of_validates hne le_rfl h
    obtain ⟨hheader, hutf8⟩ := (validates_deviceIdStep le_rfl hmax).mp h
    exact ⟨⟨hmax, fun _ => hne, hheader⟩, hutf8⟩
  · rintro ⟨⟨hmax, hne, hheader⟩, hutf8⟩
    exact ⟨hne rfl, (validates_deviceIdStep le_rfl hmax).mpr ⟨hheader, hutf8⟩⟩

/-! ## Agreement -/

/-- **The validators agree.** -/
theorem validators_agree :
    (∀ text : List UInt8, (0 : UInt8) ∉ text →
      (Kosync.utf8Valid text = true ↔ Utf8.Valid text) ∧
      (ProgressStore.utf8Valid text = true ↔ Utf8.Valid text) ∧
      (Reader.positionUtf8Valid text = true ↔ Utf8.Valid text)) ∧
    (∀ text, SettingsStore.utf8DeviceNameValid text = true ↔ ValidWith (¬ Control ·) text) ∧
    (∀ text, validDeviceName text = true ↔
      text ≠ [] ∧ text.length < SettingsStore.deviceNameCapacity ∧
        SettingsStore.utf8DeviceNameValid text = true) ∧
    (∀ (settings : Settings) (name other : List UInt8), validDeviceName other = true →
      (SettingsStore.validate { settings with kosyncDeviceName := name } = .ok ↔
        SettingsStore.validate { settings with kosyncDeviceName := other } = .ok ∧
          validDeviceName name = true)) ∧
    (∀ text, validDeviceId (some text) = true ↔
      headerTextOk text deviceMax false = true ∧ Kosync.utf8Valid text = true) ∧
    validDeviceId none = false := by
  refine ⟨fun text h => positions_agree h, fun _ => utf8DeviceNameValid_iff,
    fun _ => validDeviceName_iff, ?_, fun _ => validDeviceId_iff, rfl⟩
  intro settings name other hother
  exact validate_deviceName_iff settings hother name

/-- The empty name is well formed, and the controllers refuse it. -/
theorem validDeviceName_nil :
    SettingsStore.utf8DeviceNameValid [] = true ∧ ValidWith (¬ Control ·) [] ∧
      validDeviceName [] = false ∧
      ¬ ∀ text : List UInt8, (0 : UInt8) ∉ text →
        (validDeviceName text = true ↔ ValidWith (¬ Control ·) text) := by
  refine ⟨rfl, .nil, rfl, fun h => ?_⟩
  have := (h [] (by simp)).mpr .nil
  exact absurd this (by decide)

end Validators
