import CrossNook.Progress.Refinement

/-!
# The codec of progress records

A load accepts exactly the files that a save writes. Its checks are repeated here with every access
to the buffer and every size compared with its bounds.

## Main definitions

* `ProgressStore.fileBytes`: the bytes that a save writes
* `ProgressStore.Bounded.decode`: the checks of a load, with their accesses compared with the bounds
* `ProgressStore.Completes`: a program that returns where every call succeeds

## Main results

* `ProgressStore.decode_eq_ok_iff`: the files that the checks accept
* `ProgressStore.Bounded.decode_eq`: no access is out of bounds
* `ProgressStore.completes_save`: a save that is not disturbed succeeds
* `ProgressStore.record_codec`: loads and saves have one format
-/

namespace ProgressStore

open Bytes Crash Posix

/-! ## The accepted files -/

/-- A word that was read, back in its place. -/
theorem take_readU32be {data : List UInt8} {offset : ℕ} (h : offset + 4 ≤ data.length) :
    data.take (offset + 4) = data.take offset ++ u32be (readU32be data offset) := by
  have hlen : (data.drop offset).length = data.length - offset := List.length_drop ..
  rw [List.take_add]
  congr 1
  unfold readU32be
  rcases hd : data.drop offset with _ | ⟨a, _ | ⟨b, _ | ⟨c, _ | ⟨d, rest⟩⟩⟩⟩
  · rw [hd, List.length_nil] at hlen
    omega
  · rw [hd, List.length_singleton] at hlen
    omega
  · rw [hd] at hlen
    simp only [List.length_cons, List.length_nil] at hlen
    omega
  · rw [hd] at hlen
    simp only [List.length_cons, List.length_nil] at hlen
    omega
  · exact (u32be_ofU32be a b c d).symm

/-- The progress that a file stands for, as a save writes it. -/
theorem encode_progress {w : UInt32} (h : ¬ (w ≠ uint32Max ∧ 10000 < w)) :
    let n : ℤ := if w = uint32Max then -1 else w.toNat
    (-1 ≤ n ∧ n ≤ 10000) ∧ (if n < 0 then uint32Max else UInt32.ofNat n.toNat) = w := by
  by_cases hw : w = uint32Max
  · subst hw
    simp
  · have hle : w.toNat ≤ 10000 := by
      rw [not_and] at h
      exact UInt32.le_iff_toNat_le.mp (UInt32.not_lt.mp (h hw))
    intro n
    have hn : n = w.toNat := if_neg hw
    refine ⟨by omega, ?_⟩
    rw [if_neg (by omega), hn, Int.toNat_natCast, UInt32.ofNat_toNat]

/-- **The files that the checks accept are those that a save writes.** -/
theorem decode_eq_ok {token data : List UInt8} {record : Record}
    (h : decode token data = .ok record) :
    ∃ location, record.location = some location ∧ IsPosition location record.progress10000 ∧
      data = encode token location record.progress10000 := by
  unfold decode at h
  extract_lets identityLength locationLength progress expected location at h
  -- the checks that the file has passed
  obtain ⟨hmagic, h⟩ := ite_error_eq_ok.mp h
  obtain ⟨hversion, h⟩ := ite_error_eq_ok.mp h
  obtain ⟨hsize, h⟩ := ite_error_eq_ok.mp h
  obtain ⟨hlengths, h⟩ := ite_error_eq_ok.mp h
  obtain ⟨hexpected, h⟩ := ite_error_eq_ok.mp h
  obtain ⟨hcrc, h⟩ := ite_error_eq_ok.mp h
  obtain ⟨htoken, h⟩ := ite_error_eq_ok.mp h
  obtain ⟨hprogress, h⟩ := ite_error_eq_ok.mp h
  obtain ⟨hlocation, h⟩ := ite_error_eq_ok.mp h
  obtain rfl := Except.ok.inj h
  -- what the checks say of location and identity
  obtain ⟨hhead, htext⟩ : location.head? = some 0x2f ∧ utf8Valid location = true := by
    simpa only [ne_eq, not_or, not_not] using hlocation
  obtain ⟨hidentity, htoken⟩ : identityLength = token.length ∧
      (data.drop headerBytes).take token.length = token := by
    simpa only [ne_eq, not_or, not_not] using htoken
  obtain ⟨hrange, hword⟩ := encode_progress hprogress
  rw [not_not] at hmagic hversion hexpected hcrc
  refine ⟨location, rfl, ⟨hhead, ?_, utf8Valid_iff.mp htext, hrange⟩, ?_⟩
  · exact (List.length_take_le _ _).trans (by omega)
  have hlength : data.length = 24 + token.length + locationLength + 4 := by
    rw [← hexpected, ← hidentity]
    rfl
  have hlocationLength : location.length = locationLength := by
    rw [List.length_take, List.length_drop, hlength, hidentity, headerBytes]
    omega
  -- the file, field by field
  have h8 : data.take 8 = magic := hmagic
  have h12 : data.take 12 = data.take 8 ++ u32be (readU32be data 8) := take_readU32be (by omega)
  have h16 : data.take 16 = data.take 12 ++ u32be (readU32be data 12) := take_readU32be (by omega)
  have h20 : data.take 20 = data.take 16 ++ u32be (readU32be data 16) := take_readU32be (by omega)
  have h24 : data.take 24 = data.take 20 ++ u32be (readU32be data 20) := take_readU32be (by omega)
  have htokenEnd : data.take (24 + token.length) = data.take 24 ++ token := by
    rw [List.take_add]
    exact congrArg _ htoken
  have hbody : data.take (24 + token.length + locationLength) =
      data.take (24 + token.length) ++ location := by
    rw [List.take_add, ← hidentity]
    rfl
  have hend : data.take (24 + token.length + locationLength + 4) =
      data.take (24 + token.length + locationLength) ++
        u32be (readU32be data (24 + token.length + locationLength)) :=
    take_readU32be (by omega)
  have hat : expected - crcBytes = 24 + token.length + locationLength := by
    rw [hexpected, hlength]
    rfl
  rw [hat] at hcrc
  rw [← hlength, List.take_length, hcrc] at hend
  have hidentityWord : readU32be data 12 = UInt32.ofNat token.length := by
    rw [← hidentity, UInt32.ofNat_toNat]
  have hlocationWord : readU32be data 16 = UInt32.ofNat location.length := by
    rw [hlocationLength, UInt32.ofNat_toNat]
  have hall : data.take (24 + token.length + locationLength) =
      magic ++ u32be formatVersion ++ u32be (UInt32.ofNat token.length) ++
        u32be (UInt32.ofNat location.length) ++ u32be progress ++ token ++ location := by
    rw [hbody, htokenEnd, h24, h20, h16, h12, h8, hversion, hidentityWord, hlocationWord]
  rw [hall] at hend
  unfold encode
  dsimp only
  rw [hword]
  exact hend

/-- The bytes that `cn_progress_store_save` writes, where it accepts the record. -/
def fileBytes (token : List UInt8) (record : Record) : Option (List UInt8) :=
  (validPosition record).map fun position => encode token position.1 position.2

theorem decode_eq_ok_iff {token data : List UInt8} (htoken : token.length = tokenBytes - 1)
    {record : Record} : decode token data = .ok record ↔ fileBytes token record = some data := by
  constructor
  · intro h
    obtain ⟨location, hlocation, hposition, rfl⟩ := decode_eq_ok h
    obtain ⟨l, n⟩ := record
    obtain rfl : l = some location := hlocation
    unfold fileBytes
    rw [validPosition_eq_some_iff.mpr ⟨rfl, hposition⟩]
    rfl
  · intro h
    obtain ⟨⟨location, n⟩, hvalid, rfl⟩ := Option.map_eq_some_iff.mp h
    obtain ⟨rfl, hposition⟩ := validPosition_eq_some_iff.mp hvalid
    exact decode_encode htoken hposition

/-! ## The bounds of the buffer -/

namespace Bounded

/-- Bytes of the buffer: `none` where they are not all inside it. -/
def slice (data : List UInt8) (offset count : ℕ) : Option (List UInt8) :=
  if offset + count ≤ data.length then some ((data.drop offset).take count) else none

/-- `read_u32be`. -/
def readU32be (data : List UInt8) (offset : ℕ) : Option UInt32 :=
  (slice data offset 4).map fun word => ProgressStore.readU32be word 0

/-- A value that is computed in `size_t`: `none` where it does not fit. -/
def sized (n : ℕ) : Option ℕ := if n ≤ sizeMax then some n else none

/-- The inner loop of `utf8_valid`. -/
def utf8Tail : ℕ → List UInt8 → Option (Option (List UInt8))
  | 0, text => some (some text)
  | _ + 1, [] => none
  | continuation + 1, next :: text =>
    if next < 0x80 ∨ 0xbf < next then some none else utf8Tail continuation text

/-- One turn of the outer loop of `utf8_valid`. -/
def utf8Step : List UInt8 → Option (Option (List UInt8))
  | [] => none
  | c :: text =>
    if c = 0 then some none
    else if c ≤ 0x7f then some (some text)
    else
      match utf8Lead c with
      | none => some none
      | some (continuation, minSecond, maxSecond) =>
        if text.length < continuation then some none
        else
          match text with
          | [] => none
          | second :: text =>
            if second < minSecond ∨ maxSecond < second then some none
            else utf8Tail (continuation - 1) text

/-- The outer loop of `utf8_valid`, of at most as many turns as the first argument says. -/
def utf8Loop : ℕ → List UInt8 → Option Bool
  | _, [] => some true
  | 0, _ :: _ => some false
  | n + 1, c :: text =>
    match utf8Step (c :: text) with
    | none => none
    | some none => some false
    | some (some text) => utf8Loop n text

/-- The checks of `cn_progress_store_load` on the bytes of a file: `none` where an access is outside
the buffer or a size does not fit. -/
def decode (token data : List UInt8) : Option (Except Result Record) := do
  let start ← slice data 0 magic.length
  if start ≠ magic then return .error .corrupt
  else
    let version ← readU32be data 8
    if version ≠ formatVersion then return .error .unsupported
    else if data.length < headerBytes + crcBytes then return .error .corrupt
    else
      let identityWord ← readU32be data 12
      let locationWord ← readU32be data 16
      let progress ← readU32be data 20
      let identityLength := identityWord.toNat
      let locationLength := locationWord.toNat
      if identityLength = 0 ∨ tokenBytes ≤ identityLength ∨ locationLength = 0 ∨
          positionMaxBytes < locationLength then return .error .corrupt
      else
        let expected ← sized (headerBytes + identityLength + locationLength + crcBytes)
        if expected ≠ data.length then return .error .corrupt
        else
          let storedCrc ← readU32be data (expected - crcBytes)
          let body ← slice data 0 (expected - crcBytes)
          if storedCrc ≠ crc32 body then return .error .corrupt
          else if identityLength ≠ token.length then return .error .corrupt
          else
            let stored ← slice data headerBytes token.length
            if stored ≠ token then return .error .corrupt
            else if progress ≠ uint32Max ∧ 10000 < progress then return .error .corrupt
            else
              let first ← slice data (headerBytes + identityLength) 1
              if first ≠ [0x2f] then return .error .corrupt
              else
                let location ← slice data (headerBytes + identityLength) locationLength
                let valid ← utf8Loop locationLength location
                if ¬ valid then return .error .corrupt
                else
                  return .ok
                    { location := some location
                      progress10000 := if progress = uint32Max then -1 else progress.toNat }

theorem slice_eq {data : List UInt8} {offset count : ℕ} (h : offset + count ≤ data.length) :
    slice data offset count = some ((data.drop offset).take count) := if_pos h

theorem readU32be_eq {data : List UInt8} {offset : ℕ} (h : offset + 4 ≤ data.length) :
    readU32be data offset = some (ProgressStore.readU32be data offset) := by
  have hlen : (data.drop offset).length = data.length - offset := List.length_drop ..
  rw [readU32be, slice_eq h, Option.map_some]
  congr 1
  unfold ProgressStore.readU32be
  rw [List.drop_zero]
  rcases data.drop offset with _ | ⟨a, _ | ⟨b, _ | ⟨c, _ | ⟨d, rest⟩⟩⟩⟩ <;> rfl

theorem utf8Tail_eq {n : ℕ} {text : List UInt8} (h : n ≤ text.length) :
    utf8Tail n text = some (ProgressStore.utf8Tail n text) := by
  induction n generalizing text with
  | zero => rfl
  | succ n ih =>
    cases text with
    | nil => exact absurd h (Nat.not_succ_le_zero n)
    | cons next text =>
      rw [utf8Tail, ProgressStore.utf8Tail, ih (Nat.le_of_succ_le_succ h)]
      split_ifs <;> rfl

theorem utf8Lead_pos {c : UInt8} {n : ℕ} {minSecond maxSecond : UInt8}
    (h : utf8Lead c = some (n, minSecond, maxSecond)) : 0 < n := by
  unfold utf8Lead at h
  split_ifs at h <;> cases h <;> exact Nat.succ_pos _

theorem utf8Step_eq (c : UInt8) (text : List UInt8) :
    utf8Step (c :: text) = some (ProgressStore.utf8Step (c :: text)) := by
  rw [utf8Step, ProgressStore.utf8Step]
  split_ifs
  · rfl
  · rfl
  cases hlead : utf8Lead c with
  | none => rfl
  | some lead =>
    obtain ⟨n, minSecond, maxSecond⟩ := lead
    have hpos := utf8Lead_pos hlead
    dsimp only
    split_ifs with hlen
    · rfl
    cases text with
    | nil => exact absurd hpos (by simpa using hlen)
    | cons second text =>
      dsimp only
      rw [List.length_cons] at hlen
      rw [utf8Tail_eq (by omega)]
      split_ifs <;> rfl

theorem utf8Loop_eq (n : ℕ) (text : List UInt8) :
    utf8Loop n text = some (Utf8.validates ProgressStore.utf8Step n text) := by
  induction n generalizing text with
  | zero => cases text <;> rfl
  | succ n ih =>
    cases text with
    | nil => rfl
    | cons c text =>
      rw [utf8Loop, Utf8.validates, utf8Step_eq]
      cases ProgressStore.utf8Step (c :: text) with
      | none => rfl
      | some rest => exact ih rest

theorem utf8Loop_length (text : List UInt8) :
    utf8Loop text.length text = some (utf8Valid text) := utf8Loop_eq _ _

/-- **No access is out of bounds**, and the checks are those of `ProgressStore.decode`. -/
theorem decode_eq (token : List UInt8) {data : List UInt8} (h : 12 ≤ data.length) :
    decode token data = some (ProgressStore.decode token data) := by
  have hbind : ∀ {α β : Type} (a : α) (f : α → Option β), (some a >>= f) = f a := fun _ _ => rfl
  have hmagicBytes : magic.length = 8 := rfl
  unfold decode ProgressStore.decode
  -- check by check: each access in front of it is inside the buffer
  rw [slice_eq (by omega), hbind, List.drop_zero]
  by_cases hmagic : data.take magic.length ≠ magic
  · rw [if_pos hmagic, if_pos hmagic]
    rfl
  rw [if_neg hmagic, if_neg hmagic, readU32be_eq (by omega), hbind]
  by_cases hversion : ProgressStore.readU32be data 8 ≠ formatVersion
  · rw [if_pos hversion, if_pos hversion]
    rfl
  rw [if_neg hversion, if_neg hversion]
  by_cases hsize : data.length < headerBytes + crcBytes
  · rw [if_pos hsize, if_pos hsize]
    rfl
  have hlength : 28 ≤ data.length := not_lt.mp hsize
  rw [if_neg hsize, if_neg hsize, readU32be_eq (by omega), hbind, readU32be_eq (by omega), hbind,
    readU32be_eq (by omega), hbind]
  dsimp only
  generalize (ProgressStore.readU32be data 12).toNat = identityLength
  generalize (ProgressStore.readU32be data 16).toNat = locationLength
  generalize ProgressStore.readU32be data 20 = progress
  by_cases hlengths : identityLength = 0 ∨ tokenBytes ≤ identityLength ∨ locationLength = 0 ∨
      positionMaxBytes < locationLength
  · rw [if_pos hlengths, if_pos hlengths]
    rfl
  rw [if_neg hlengths, if_neg hlengths]
  unfold tokenBytes positionMaxBytes at hlengths
  have hsized : sized (headerBytes + identityLength + locationLength + crcBytes) =
      some (headerBytes + identityLength + locationLength + crcBytes) := by
    refine if_pos ?_
    unfold headerBytes crcBytes sizeMax
    omega
  rw [hsized, hbind]
  by_cases hexpected : headerBytes + identityLength + locationLength + crcBytes ≠ data.length
  · rw [if_pos hexpected, if_pos hexpected]
    rfl
  rw [if_neg hexpected, if_neg hexpected]
  -- from here on the lengths of the header are those of the buffer
  have hend := not_not.mp hexpected
  have hcrcBytes : crcBytes = 4 := rfl
  rw [readU32be_eq (by omega), hbind, slice_eq (by omega), hbind, List.drop_zero]
  by_cases hcrc : ProgressStore.readU32be data
      (headerBytes + identityLength + locationLength + crcBytes - crcBytes) ≠
        crc32 (data.take (headerBytes + identityLength + locationLength + crcBytes - crcBytes))
  · rw [if_pos hcrc, if_pos hcrc]
    rfl
  rw [if_neg hcrc, if_neg hcrc]
  by_cases hidentity : identityLength ≠ token.length
  · rw [if_pos hidentity, if_pos (.inl hidentity)]
    rfl
  rw [if_neg hidentity, slice_eq (by omega), hbind]
  by_cases htoken : (data.drop headerBytes).take token.length ≠ token
  · rw [if_pos htoken, if_pos (.inr htoken)]
    rfl
  rw [if_neg htoken, if_neg (not_or.mpr ⟨hidentity, htoken⟩)]
  by_cases hprogress : progress ≠ uint32Max ∧ 10000 < progress
  · rw [if_pos hprogress, if_pos hprogress]
    rfl
  rw [if_neg hprogress, if_neg hprogress, slice_eq (by omega), hbind]
  -- the location is compared with its first byte, and decoded, on its own
  generalize hlocation : (data.drop (headerBytes + identityLength)).take locationLength = location
  have hlocationLength : location.length = locationLength := by
    rw [← hlocation, List.length_take, List.length_drop]
    omega
  have hone : (data.drop (headerBytes + identityLength)).take 1 = [0x2f] ↔
      location.head? = some 0x2f := by
    obtain ⟨n, rfl⟩ : ∃ n, locationLength = n + 1 := ⟨locationLength - 1, by omega⟩
    rw [← hlocation]
    cases data.drop (headerBytes + identityLength) with
    | nil => simp
    | cons c rest => simp
  by_cases hfirst : (data.drop (headerBytes + identityLength)).take 1 ≠ [0x2f]
  · rw [if_pos hfirst, if_pos (.inl (mt hone.mpr hfirst))]
    rfl
  rw [if_neg hfirst, slice_eq (by omega), hbind, hlocation, ← hlocationLength, utf8Loop_length,
    hbind]
  have hhead : ¬ location.head? ≠ some 0x2f := not_not.mpr (hone.mp (not_not.mp hfirst))
  by_cases hvalid : ¬ utf8Valid location
  · rw [if_pos hvalid, if_pos (.inr hvalid)]
    rfl
  · rw [if_neg hvalid, if_neg (not_or.mpr ⟨hhead, hvalid⟩)]
    rfl

end Bounded

/-! ## A save that is not disturbed -/

/-- Every call succeeds, and every write takes a byte at least. -/
def Steady (m : Machine) : Prop := ∀ fate ∈ m.script, ∃ amount, 0 < amount ∧ fate = .succeed amount

/-- Where every call succeeds, the program returns after at most `k` calls. It starts and ends with
files as given. -/
def Completes {α : Type} (k : ℕ) (P : (Path → Option Node) → Prop) (p : Sys α)
    (Q : α → (Path → Option Node) → Prop) : Prop :=
  ∀ m, Steady m → k ≤ m.script.length → P m.files → ∃ a m', p m = (some a, m') ∧ Steady m' ∧
    m.script.length ≤ m'.script.length + k ∧ Q a m'.files

section Completes

variable {α β : Type} {j k : ℕ} {P : (Path → Option Node) → Prop} {p : Sys α}
  {R : α → (Path → Option Node) → Prop} {Q : β → (Path → Option Node) → Prop}

theorem Completes.pure {a : α} (h : ∀ files, P files → R a files) :
    Completes k P (Pure.pure a) R :=
  fun m hm _ hP => ⟨a, m, rfl, hm, Nat.le_add_right _ _, h _ hP⟩

theorem Completes.bind {f : α → Sys β} (hp : Completes j P p R)
    (hf : ∀ a, Completes k (R a) (f a) Q) : Completes (j + k) P (p >>= f) Q := by
  intro m hm hk hP
  obtain ⟨a, m', hpm, hm', hj, hR⟩ := hp m hm (by omega) hP
  obtain ⟨b, m'', hfm, hm'', hk', hQ⟩ := hf a m' hm' (by omega) hR
  exact ⟨b, m'', (bind_of_eq hpm).trans hfm, hm'', by omega, hQ⟩

/-- Sequencing, where what is known of the first result does not depend on the files. -/
theorem Completes.next {A : α → Prop} {S : (Path → Option Node) → Prop} {f : α → Sys β}
    (hp : Completes j P p fun a files => A a ∧ S files)
    (hf : ∀ a, A a → Completes k S (f a) Q) : Completes (j + k) P (p >>= f) Q :=
  hp.bind fun a m hm hk h => hf a h.1 m hm hk h.2

theorem Completes.mono (hp : Completes j P p R) (hjk : j ≤ k) : Completes k P p R := by
  intro m hm hk hP
  obtain ⟨a, m', hpm, hm', hj, hR⟩ := hp m hm (by omega) hP
  exact ⟨a, m', hpm, hm', by omega, hR⟩

theorem completes_syscall {act : ℕ → Machine → Except Errno α × Machine}
    {R : Except Errno α → (Path → Option Node) → Prop}
    (h : ∀ amount m, 0 < amount → P m.files →
      (act amount m).2.script = m.script ∧ R (act amount m).1 (act amount m).2.files) :
    Completes 1 P (syscall act) R := by
  intro m hm hlen hP
  unfold syscall
  cases hs : m.script with
  | nil => simp [hs] at hlen
  | cons fate script =>
    obtain ⟨amount, hamount, rfl⟩ := hm fate (by simp [hs])
    obtain ⟨hscript, hR⟩ := h amount { m with script } hamount hP
    refine ⟨_, _, rfl, ?_, ?_, hR⟩
    · intro f hf
      rw [hscript] at hf
      exact hm f (by simp [hs, show f ∈ script from hf])
    · rw [hscript]
      simp

theorem completes_query (answer : (Path → Option Node) → Except Errno α) :
    Completes 1 P (query answer) fun a files => a = answer files ∧ P files :=
  completes_syscall fun _ _ _ hP => ⟨rfl, rfl, hP⟩

theorem completes_fsync : Completes 1 P fsync fun r files => r = .ok () ∧ P files :=
  completes_query _

theorem completes_close : Completes 1 P close fun r files => r = .ok () ∧ P files :=
  completes_query _

theorem completes_malloc : Completes 1 P malloc fun r files => r = true ∧ P files := by
  refine Completes.next (k := 0) (completes_query fun _ => .ok ()) ?_
  rintro r rfl
  exact Completes.pure fun _ hP => ⟨rfl, hP⟩

end Completes

/-- The entry of the temporary file, and that the record can be put into its place. -/
def Replaceable (t path : Path) (S : Option Node → Prop) (files : Path → Option Node) : Prop :=
  S (files t) ∧ (files path).map Node.kind ≠ some .directory

/-- A regular file. -/
def IsFile (entry : Option Node) : Prop := ∃ ino content, entry = some ⟨ino, .regular content⟩

section Replaceable

variable {t path : Path}

theorem Replaceable.set {S S' : Option Node → Prop} {m : Machine} {entry : Option Node}
    (ht : path ≠ t) (h : Replaceable t path S m.files) (hentry : S' entry) :
    Replaceable t path S' (m.set t entry).files := by
  refine ⟨?_, ?_⟩
  · simpa [Machine.set] using hentry
  · simpa [Machine.set, Function.update_of_ne ht] using h.2

theorem completes_unlink (ht : path ≠ t) :
    Completes 1 (Replaceable t path fun entry => entry.map Node.kind ≠ some .directory) (unlink t)
      fun r files => unlinkFailure r = none ∧ Replaceable t path (· = none) files := by
  refine completes_syscall fun _ m _ h => ?_
  cases hentry : m.files t with
  | none => exact ⟨rfl, rfl, hentry, h.2⟩
  | some n =>
    have hkind : n.kind ≠ .directory := fun hdir => h.1 (by rw [hentry, Option.map_some, hdir])
    dsimp only
    rw [if_neg hkind]
    exact ⟨rfl, rfl, h.set ht rfl⟩

theorem completes_openCreate (ht : path ≠ t) :
    Completes 1 (Replaceable t path (· = none)) (openCreate t) fun r files =>
      r = .ok () ∧ Replaceable t path IsFile files := by
  refine completes_syscall fun _ m _ h => ?_
  rw [h.1]
  exact ⟨rfl, rfl, h.set ht ⟨m.fresh, [], rfl⟩⟩

theorem completes_write (ht : path ≠ t) {data : List UInt8} (hdata : data ≠ []) :
    Completes 1 (Replaceable t path IsFile) (write t data) fun r files =>
      (∃ count, r = .ok (count + 1) ∧ count + 1 ≤ data.length) ∧
        Replaceable t path IsFile files := by
  refine completes_syscall fun amount m hamount h => ?_
  obtain ⟨ino, content, hentry⟩ := h.1
  rw [hentry]
  have hlen := List.length_pos_iff.mpr hdata
  refine ⟨rfl, ⟨min amount data.length - 1, ?_, ?_⟩, h.set ht ⟨ino, _, rfl⟩⟩
  · exact congrArg Except.ok (by omega)
  · omega

theorem completes_writeLoop (ht : path ≠ t) (calls : ℕ) {data : List UInt8}
    (h : data.length < calls) :
    Completes data.length (Replaceable t path IsFile) (writeLoop t calls data) fun r files =>
      r = .ok () ∧ Replaceable t path IsFile files := by
  induction calls generalizing data with
  | zero => exact absurd h (Nat.not_lt_zero _)
  | succ calls ih =>
    unfold writeLoop
    by_cases hdata : data = []
    · rw [if_pos hdata]
      exact Completes.pure fun _ hP => ⟨rfl, hP⟩
    rw [if_neg hdata]
    have hlen := List.length_pos_iff.mpr hdata
    refine (Completes.next (k := data.length - 1) (completes_write ht hdata) ?_).mono (by omega)
    -- what was written is not written again
    rintro r ⟨count, rfl, hcount⟩
    have hrest : (data.drop (count + 1)).length ≤ data.length - 1 := by
      rw [List.length_drop]
      omega
    exact (@ih (data.drop (count + 1)) (by omega)).mono hrest

theorem completes_writeAll (ht : path ≠ t) (data : List UInt8) :
    Completes data.length (Replaceable t path IsFile) (writeAll t data) fun r files =>
      r = .ok () ∧ Replaceable t path IsFile files :=
  fun m hm hk hP => completes_writeLoop ht (m.script.length + 1) (Nat.lt_succ_of_le hk) m hm hk hP

theorem completes_rename :
    Completes 1 (Replaceable t path IsFile) (rename t path) fun r _ => r = .ok () := by
  refine completes_syscall fun _ m _ h => ?_
  obtain ⟨ino, content, hentry⟩ := h.1
  rw [hentry]
  dsimp only
  rw [if_neg h.2]
  exact ⟨rfl, rfl⟩

end Replaceable

theorem completes_syncDirectory (store : Store) {P : (Path → Option Node) → Prop} :
    Completes 3 P (syncDirectory store) fun _ _ => True := by
  refine Completes.bind (j := 1) (k := 2) (completes_query _) fun r => ?_
  cases r with
  | error e => exact Completes.pure fun _ _ => trivial
  | ok fd =>
    refine Completes.bind (j := 1) (k := 1) completes_fsync fun _ => ?_
    exact Completes.bind (k := 0) completes_close fun _ => Completes.pure fun _ _ => trivial

theorem completes_replaceFile (store : Store) {path t : Path} (ht : path ≠ t) (data : List UInt8) :
    Completes (data.length + 8)
      (Replaceable t path fun entry => entry.map Node.kind ≠ some .directory)
      (replaceFile store path t data) fun result _ => result = .ok := by
  unfold replaceFile
  refine (Completes.next (k := data.length + 7) (completes_unlink ht) ?_).mono (by omega)
  intro removed hremoved
  rw [hremoved]
  refine (Completes.next (k := data.length + 6) (completes_openCreate ht) ?_).mono (by omega)
  rintro _ rfl
  refine Completes.next (k := 6) (completes_writeAll ht data) ?_
  rintro _ rfl
  refine Completes.next (j := 1) (k := 5) completes_fsync ?_
  rintro _ rfl
  refine Completes.next (j := 1) (k := 4) completes_close ?_
  rintro _ rfl
  refine Completes.bind (j := 1) (k := 3) completes_rename fun r => ?_
  rintro m hm hk rfl
  have hsync := completes_syncDirectory store (P := fun _ => True)
  exact (hsync.bind (k := 0) (Q := fun result _ => result = Result.ok) fun _ =>
    Completes.pure fun _ _ => rfl) m hm hk trivial

section Saves

variable {store : Store} {identity : BookIdentity} {token : List UInt8}

theorem completes_recordPath {P : (Path → Option Node) → Prop}
    (ht : identity.token = some token) :
    Completes 1 P (recordPath store identity) fun r files =>
      r = some (store.path token) ∧ P files := by
  have hlen := BookIdentity.length_token ht
  have hsuffix : fileSuffix.length = 9 := rfl
  have hdir := store.length_le
  unfold stateDirMaxBytes at hdir
  unfold recordPath
  rw [ht]
  dsimp only
  rw [if_neg (by rw [hlen, hsuffix, sizeMax, tokenBytes]; omega)]
  refine Completes.next (k := 0) completes_malloc ?_
  rintro _ rfl
  exact Completes.pure fun _ hP => ⟨rfl, hP⟩

/-- **A save that is not disturbed** succeeds. -/
theorem completes_save (ht : identity.token = some token) {record : Record} {data : List UInt8}
    (hdata : fileBytes token record = some data) (pid : ℕ) :
    Completes (data.length + 11)
      (Replaceable (temporaryPath (store.path token) pid) (store.path token)
        fun entry => entry.map Node.kind ≠ some .directory)
      (save store identity record pid) fun result _ => result = .ok := by
  obtain ⟨⟨location, progress10000⟩, hvalid, rfl⟩ := Option.map_eq_some_iff.mp hdata
  unfold save
  rw [ht, hvalid]
  dsimp only
  generalize encode token location progress10000 = data
  refine (Completes.next (k := data.length + 10) completes_malloc ?_).mono (by omega)
  rintro _ rfl
  refine (Completes.next (k := data.length + 9) (completes_recordPath ht) ?_).mono (by omega)
  rintro _ rfl
  refine (Completes.next (k := data.length + 8) completes_malloc ?_).mono (by omega)
  rintro _ rfl
  exact completes_replaceFile store (temporaryPath_ne _ _) data

end Saves

/-! ## Loads and saves -/

section Exact

variable {store : Store} {identity : BookIdentity} {token : List UInt8}

/-- **What a save writes.** -/
theorem ends_save_fileBytes (ht : identity.token = some token) (record : Record) (pid : ℕ)
    (m : Machine) :
    Ends (save store identity record pid) m
      (fun result m' => result = .ok → ∃ data ino, fileBytes token record = some data ∧
        m'.files (store.path token) = some ⟨ino, .regular data⟩)
      fun _ => True := by
  cases hrecord : validPosition record with
  | none =>
    rw [save_refused (.inr hrecord)]
    intro h
    cases h
  | some position =>
    refine (save_replaces ht hrecord pid m trivial).mono ?_ fun _ _ => trivial
    intro result m' h hok
    obtain ⟨ino, hfile⟩ := h.1 hok
    refine ⟨_, ino, ?_, hfile⟩
    rw [fileBytes, hrecord]
    rfl

theorem length_fileBytes (ht : token.length = tokenBytes - 1) {record : Record} {data : List UInt8}
    (h : fileBytes token record = some data) :
    12 ≤ data.length ∧
      data.length ≤ headerBytes + tokenBytes + positionMaxBytes + crcBytes := by
  obtain ⟨⟨location, n⟩, hvalid, rfl⟩ := Option.map_eq_some_iff.mp h
  obtain ⟨rfl, hposition⟩ := validPosition_eq_some_iff.mp hvalid
  have hlen := hposition.length_le
  dsimp only
  rw [length_encode, ht]
  unfold headerBytes crcBytes tokenBytes
  omega

/-- **What a load accepts**, of a file with the given content. -/
theorem judge_eq_ok_iff (ht : token.length = tokenBytes - 1) (ino : ℕ) {content : List UInt8}
    {record : Record} : judge token ⟨ino, .regular content⟩ = .ok record ↔
      fileBytes token record = some content := by
  unfold judge
  dsimp only
  rw [← decode_eq_ok_iff ht]
  constructor
  · intro h
    split_ifs at h
    exact h
  · intro h
    have hlen := length_fileBytes ht ((decode_eq_ok_iff ht).mp h)
    rw [if_neg (by omega), h]

theorem judge_ne_ok {node : Node} {result : Result} (h : judge token node = .error result) :
    result ≠ .ok := by
  unfold judge at h
  split at h
  · split_ifs at h
    · cases h
      simp
    · rcases decode_eq_error h with rfl | rfl <;> simp
  · cases h
    simp

/-- **A load that succeeds** has found the file of the record, whatever calls fail. -/
theorem ends_load_fileBytes (ht : identity.token = some token) {m : Machine} {fd : Path} {ino : ℕ}
    {content : List UInt8} (hfd : resolve m.files 40 (store.path token) = .ok fd)
    (hfile : m.files fd = some ⟨ino, .regular content⟩) (initial : Record) :
    Ends (load store identity initial) m
      (fun r _ => r.1 = .ok → fileBytes token r.2 = some content) fun _ => True := by
  have hlookup : store.lookup m.files token = judge token ⟨ino, .regular content⟩ := by
    simp only [Store.lookup, hfd, hfile]
  refine (ends_load (H := False) False.elim store ht).mono ?_ fun _ _ => trivial
  rintro r m' ⟨-, rfl | ⟨-, hfailed⟩⟩ hok
  · rw [hlookup] at hok ⊢
    cases hjudge : judge token ⟨ino, .regular content⟩ with
    | error result =>
      rw [hjudge] at hok
      exact absurd hok (judge_ne_ok hjudge)
    | ok record => exact (judge_eq_ok_iff (BookIdentity.length_token ht) ino).mp hjudge
  · exact absurd hok hfailed.ne_ok

/-- **Loads and saves have one format.** A load of a regular file returns a record with `ok` only
where the file is what a save of that record writes for the token; where no call fails it does so
exactly there. A save that succeeds leaves such a file, and a save of a valid record succeeds where
no call fails. No access of the load to a buffer that it has filled is out of bounds, whatever the
file contains. -/
theorem record_codec (ht : identity.token = some token) {m : Machine} {fd : Path} {ino : ℕ}
    {content : List UInt8} (hfd : resolve m.files 40 (store.path token) = .ok fd)
    (hfile : m.files fd = some ⟨ino, .regular content⟩) (initial : Record) :
    Ends (load store identity initial) m
      (fun r _ => r.1 = .ok → fileBytes token r.2 = some content) (fun _ => True) ∧
    (Healthy m → loadCalls ≤ m.script.length → ∃ r m',
      load store identity initial m = (some r, m') ∧
        ∀ record, r = (.ok, record) ↔ fileBytes token record = some content) ∧
    (∀ record pid m, Ends (save store identity record pid) m
      (fun result m' => result = .ok → ∃ data ino, fileBytes token record = some data ∧
        m'.files (store.path token) = some ⟨ino, .regular data⟩) fun _ => True) ∧
    (∀ record data pid, fileBytes token record = some data → Completes (data.length + 11)
      (Replaceable (temporaryPath (store.path token) pid) (store.path token)
        fun entry => entry.map Node.kind ≠ some .directory)
      (save store identity record pid) fun result _ => result = .ok) ∧
    ∀ data : List UInt8, 12 ≤ data.length →
      Bounded.decode token data = some (decode token data) := by
  have hlen := BookIdentity.length_token ht
  -- a load that is not disturbed answers what the file is judged to be
  have hlookup : store.lookup m.files token = judge token ⟨ino, .regular content⟩ := by
    simp only [Store.lookup, hfd, hfile]
  refine ⟨ends_load_fileBytes ht hfd hfile initial, ?_,
    fun record pid m => ends_save_fileBytes ht record pid m,
    fun record data pid hdata => completes_save ht hdata pid,
    fun data h => Bounded.decode_eq token h⟩
  -- here no call fails, and the answer is the judgement
  intro hhealthy hscript
  obtain ⟨r, m', he, -, -⟩ := finishes_load store identity initial m hhealthy hscript
  refine ⟨r, m', he, fun record => ?_⟩
  have hr := ((ends_load (H := True) (fun _ => hhealthy) store ht).of_eq he).2
  obtain rfl := hr.resolve_right fun h => h.1 trivial
  rw [hlookup, ← judge_eq_ok_iff hlen ino]
  cases hjudge : judge token ⟨ino, .regular content⟩ with
  | error result =>
    have hne := judge_ne_ok hjudge
    simp [report, hne]
  | ok loaded => simp [report]

/-- A file with the position `/a`. -/
def sampleMachine : Machine where
  files := fun p =>
    if p = ascii "/s/path-v1-0000000000000001.progress" then
      some ⟨3, .regular (encode (ascii "path-v1-0000000000000001") (ascii "/a") 5)⟩
    else none
  script := List.replicate 70000 (.succeed 100)
  fresh := 4

theorem record_codec_sample : ∃ r m',
    load sampleStore (.ofHash 1) ⟨none, -1⟩ sampleMachine = (some r, m') ∧
      ∀ record, r = (.ok, record) ↔ fileBytes (ascii "path-v1-0000000000000001") record =
        some (encode (ascii "path-v1-0000000000000001") (ascii "/a") 5) := by
  have htoken : (BookIdentity.ofHash 1).token = some (ascii "path-v1-0000000000000001") :=
    (BookIdentity.token_ofHash 1).trans (by decide +kernel)
  have hfd : resolve sampleMachine.files 40
      (sampleStore.path (ascii "path-v1-0000000000000001")) =
        .ok (ascii "/s/path-v1-0000000000000001.progress") := by
    decide +kernel
  have hfile : sampleMachine.files (ascii "/s/path-v1-0000000000000001.progress") =
      some ⟨3, .regular (encode (ascii "path-v1-0000000000000001") (ascii "/a") 5)⟩ := rfl
  refine (record_codec htoken hfd hfile ⟨none, -1⟩).2.1 ?_ ?_
  · intro fate hfate
    exact ⟨100, List.eq_of_mem_replicate hfate⟩
  · rw [sampleMachine, List.length_replicate]
    decide

end Exact

end ProgressStore
