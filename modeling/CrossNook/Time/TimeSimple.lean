import CrossNook.Text.Words

/-!
# Trusted time

What the SNTP client (`time/timesimple.c`) makes of a response. The seconds of a timestamp have 32
bits, so they name one second in each era of 2³² seconds; the decoder takes the one that lies
between the release of the program and the last second of the kernel's clock. Arithmetic in C is
modelled on the integers: an intermediate value outside its type ends the computation.

## Main definitions

* `TimeSimple.decodeTransmitTime`: `decode_transmit_time`
* `TimeSimple.validateResponse`: `validate_response`
* `TimeSimple.timestamp seconds fraction`: the bytes of a timestamp

## Main results

* `TimeSimple.decodeTransmitTime_of_second`: a second of the interval is decoded exactly
* `TimeSimple.decodeTransmitTime_of_no_second`: any other timestamp is refused
-/

/-- `cn_time_result`. -/
inductive TimeResult
  | ok
  | invalid
  | internal
  | entropyFailed
  | socketFailed
  | sendFailed
  | timeout
  | recvFailed
  | peerMismatch
  | packetSize
  | version
  | mode
  | unsynchronized
  | kissOfDeath
  | stratum
  | originateMismatch
  | zeroReceive
  | zeroTransmit
  | timeRange
  | clockSetFailed
  deriving DecidableEq, Repr

namespace TimeSimple

open Bytes (u32be ofU32be)

/-- `CN_SNTP_PACKET_BYTES`. -/
def sntpPacketBytes : ℕ := 48

/-- `CN_NTP_UNIX_DELTA`. -/
def ntpUnixDelta : ℤ := 2208988800

/-- `CN_NTP_ERA_SECONDS`. -/
def ntpEraSeconds : ℤ := 4294967296

/-- `CN_TIME_RELEASE_MIN_UNIX`. -/
def releaseMinUnix : ℤ := 1789908147

/-- `CN_TIME_TARGET_MAX_UNIX`. -/
def targetMaxUnix : ℤ := 2147483647

/-- `cn_time_sample` without the index of the server. -/
structure Sample where
  unixSeconds : ℤ
  nanoseconds : ℤ
  rttMs : UInt32
  deriving DecidableEq, Repr

/-! ## Integers of a fixed width -/

/-- A value of `int64_t`. -/
def int64 (n : ℤ) : Option ℤ := if -2 ^ 63 ≤ n ∧ n < 2 ^ 63 then some n else none

/-- A value of `uint64_t`. -/
def uint64 (n : ℤ) : Option ℤ := if 0 ≤ n ∧ n < 2 ^ 64 then some n else none

/-- A value of `time_t` or of `long` on the device. -/
def int32 (n : ℤ) : Option ℤ := if -2 ^ 31 ≤ n ∧ n < 2 ^ 31 then some n else none

/-! ## Timestamps -/

/-- `load_u32`. -/
def loadU32 (p : List UInt8) : UInt32 :=
  ofU32be (p.getD 0 0) (p.getD 1 0) (p.getD 2 0) (p.getD 3 0)

/-- The bytes of a timestamp. -/
def timestamp (seconds fraction : UInt32) : List UInt8 := u32be seconds ++ u32be fraction

/-- A second between the release of the program and the last one of the kernel's clock. -/
abbrev InRange (unix : ℤ) : Prop := releaseMinUnix ≤ unix ∧ unix ≤ targetMaxUnix

/-- The candidate of `decode_transmit_time` and the number of eras it was found in. -/
def eraCandidate (era0 era1 : ℤ) : ℤ × ℕ :=
  let (candidate, found) := if InRange era0 then (era0, 1) else (0, 0)
  if InRange era1 then (era1, found + 1) else (candidate, found)

/-- The part of `decode_transmit_time` after the era is chosen. -/
def sampleAt (candidate : ℤ) (fraction : UInt32) (rttNs : Int64) :
    Option (TimeResult × Option Sample) := do
  let scaled ← uint64 (fraction.toNat * 1000000000)
  let nanoseconds ← int64 (scaled / 2 ^ 32)
  let nanoseconds ← int64 (nanoseconds + rttNs.toInt.tdiv 2)
  let candidate ← int64 (candidate + nanoseconds.tdiv 1000000000)
  let nanoseconds := nanoseconds.tmod 1000000000
  if candidate < releaseMinUnix ∨ targetMaxUnix < candidate then return (.timeRange, none)
  else
    let unixSeconds ← int32 candidate
    let nanoseconds ← int32 nanoseconds
    let rounded ← int64 (rttNs.toInt + 999999)
    let rttMs := UInt32.ofNat (rounded.tdiv 1000000).toNat
    return (.ok, some { unixSeconds, nanoseconds, rttMs })

/-- `decode_transmit_time`; `none` is a computation that leaves its type. -/
def decodeTransmitTime (timestamp : List UInt8) (rttNs : Int64) :
    Option (TimeResult × Option Sample) := do
  let seconds := loadU32 timestamp
  let fraction := loadU32 (timestamp.drop 4)
  let era0 ← int64 (seconds.toNat - ntpUnixDelta)
  let later ← int64 (seconds.toNat + ntpEraSeconds)
  let era1 ← int64 (later - ntpUnixDelta)
  let (candidate, found) := eraCandidate era0 era1
  if found ≠ 1 ∨ rttNs.toInt < 0 then return (.timeRange, none)
  else sampleAt candidate fraction rttNs

/-- `timestamp_nonzero`. -/
def timestampNonzero (p : List UInt8) : Bool := (p.take 8).any (· ≠ 0)

/-- `validate_response`, of the bytes that were received. -/
def validateResponse (response request : List UInt8) (rttNs : Int64) :
    Option (TimeResult × Option Sample) :=
  if response.length ≠ sntpPacketBytes then some (.packetSize, none)
  else
    let first := response.getD 0 0
    let stratum := response.getD 1 0
    if (first >>> 3) &&& 7 ≠ 4 then some (.version, none)
    else if first &&& 7 ≠ 4 then some (.mode, none)
    else if first >>> 6 = 3 then some (.unsynchronized, none)
    else if stratum = 0 then some (.kissOfDeath, none)
    else if 15 < stratum then some (.stratum, none)
    else if (response.drop 24).take 8 ≠ (request.drop 40).take 8 then some (.originateMismatch, none)
    else if ¬ timestampNonzero (response.drop 32) then some (.zeroReceive, none)
    else if ¬ timestampNonzero (response.drop 40) then some (.zeroTransmit, none)
    else decodeTransmitTime (response.drop 40) rttNs

/-! ## Decoding -/

section Decode

variable {seconds fraction : UInt32} {rttNs : Int64} {n unix : ℤ}

theorem int64_eq (h : -2 ^ 63 ≤ n ∧ n < 2 ^ 63) : int64 n = some n := if_pos h

theorem uint64_eq (h : 0 ≤ n ∧ n < 2 ^ 64) : uint64 n = some n := if_pos h

theorem int32_eq (h : -2 ^ 31 ≤ n ∧ n < 2 ^ 31) : int32 n = some n := if_pos h

theorem loadU32_seconds : loadU32 (timestamp seconds fraction) = seconds :=
  Bytes.ofU32be_u32be seconds

theorem loadU32_fraction : loadU32 ((timestamp seconds fraction).drop 4) = fraction :=
  Bytes.ofU32be_u32be fraction

/-- The seconds of the timestamp of a Unix second. -/
def ntpSeconds (unix : ℤ) : UInt32 := UInt32.ofNat ((unix + ntpUnixDelta) % ntpEraSeconds).toNat

theorem toNat_ntpSeconds (unix : ℤ) :
    ((ntpSeconds unix).toNat : ℤ) = (unix + ntpUnixDelta) % ntpEraSeconds := by
  have hpos : 0 ≤ (unix + ntpUnixDelta) % 4294967296 := Int.emod_nonneg _ (by decide)
  have hlt : (unix + ntpUnixDelta) % 4294967296 < 4294967296 := Int.emod_lt_of_pos _ (by decide)
  unfold ntpSeconds ntpEraSeconds
  rw [UInt32.toNat_ofNat_of_lt' (by simp only [UInt32.size]; omega)]
  omega

/-- A second of the interval is found in one era. -/
theorem eraCandidate_of_second (h : InRange unix) :
    eraCandidate ((ntpSeconds unix).toNat - ntpUnixDelta)
      ((ntpSeconds unix).toNat + ntpEraSeconds - ntpUnixDelta) = (unix, 1) := by
  obtain ⟨hmin, hmax⟩ := h
  rw [toNat_ntpSeconds]
  unfold releaseMinUnix at hmin
  unfold targetMaxUnix at hmax
  unfold eraCandidate InRange releaseMinUnix targetMaxUnix ntpUnixDelta ntpEraSeconds
  -- the first era ends at the Unix second 2085978496
  by_cases hera : unix < 2085978496
  · have hmod : (unix + 2208988800) % 4294967296 = unix + 2208988800 :=
      Int.emod_eq_of_lt (by omega) (by omega)
    rw [hmod, if_pos (by omega)]
    dsimp only
    rw [if_neg (by omega)]
    simp
  · have hmod : (unix + 2208988800) % 4294967296 = unix + 2208988800 - 4294967296 := by omega
    rw [hmod, if_neg (by omega)]
    dsimp only
    rw [if_pos (by omega)]
    congr 1
    omega

/-- The seconds of two eras never both lie in the interval. -/
theorem not_both_eras (seconds : UInt32) :
    ¬ (InRange (seconds.toNat - ntpUnixDelta) ∧
      InRange (seconds.toNat + ntpEraSeconds - ntpUnixDelta)) := by
  rintro ⟨⟨hmin, -⟩, -, hmax⟩
  unfold releaseMinUnix ntpUnixDelta at hmin
  unfold targetMaxUnix ntpEraSeconds ntpUnixDelta at hmax
  omega

theorem eraCandidate_found (h : (eraCandidate (seconds.toNat - ntpUnixDelta)
      (seconds.toNat + ntpEraSeconds - ntpUnixDelta)).2 = 1) :
    ∃ unix, InRange unix ∧ ntpSeconds unix = seconds := by
  have hlt := seconds.toNat_lt
  have hfound : ∀ unix : ℤ, (unix + ntpUnixDelta) % ntpEraSeconds = seconds.toNat →
      ntpSeconds unix = seconds := by
    intro unix hunix
    apply UInt32.toNat_inj.mp
    exact_mod_cast (toNat_ntpSeconds unix).trans hunix
  unfold eraCandidate at h
  by_cases h0 : InRange (seconds.toNat - ntpUnixDelta)
  · refine ⟨_, h0, hfound _ ?_⟩
    unfold ntpUnixDelta ntpEraSeconds
    omega
  · rw [if_neg h0] at h
    dsimp only at h
    by_cases h1 : InRange (seconds.toNat + ntpEraSeconds - ntpUnixDelta)
    · refine ⟨_, h1, hfound _ ?_⟩
      unfold ntpUnixDelta ntpEraSeconds
      omega
    · rw [if_neg h1] at h
      exact absurd h (by simp)

/-- The time of a sample: the second and the fraction of the timestamp and half of the round
trip, in nanoseconds. -/
def exactTime (unix : ℤ) (fraction : UInt32) (rttNs : Int64) : ℤ :=
  unix * 10 ^ 9 + fraction.toNat * 10 ^ 9 / 2 ^ 32 + rttNs.toInt / 2

/-- The two candidates stay in their type. -/
theorem decodeTransmitTime_eq (seconds fraction : UInt32) (rttNs : Int64) :
    decodeTransmitTime (timestamp seconds fraction) rttNs =
      let eras := eraCandidate (seconds.toNat - ntpUnixDelta)
        (seconds.toNat + ntpEraSeconds - ntpUnixDelta)
      if eras.2 ≠ 1 ∨ rttNs.toInt < 0 then some (.timeRange, none)
      else sampleAt eras.1 fraction rttNs := by
  have hlt := seconds.toNat_lt
  unfold decodeTransmitTime
  rw [loadU32_seconds, loadU32_fraction]
  dsimp only
  rw [int64_eq (by unfold ntpUnixDelta; omega), int64_eq (by unfold ntpEraSeconds; omega)]
  rw [Option.bind_eq_bind, Option.bind_some, Option.bind_some,
    int64_eq (by unfold ntpUnixDelta ntpEraSeconds; omega), Option.bind_some]
  generalize eraCandidate _ _ = eras
  rfl

/-- **The sample of a second of the interval**, or its refusal where the round trip leaves the
interval. -/
theorem sampleAt_eq (h : InRange unix) (hrtt : 0 ≤ rttNs.toInt) :
    sampleAt unix fraction rttNs =
      let total := exactTime unix fraction rttNs
      if targetMaxUnix < total / 10 ^ 9 then some (.timeRange, none)
      else
        some (.ok, some
          { unixSeconds := total / 10 ^ 9
            nanoseconds := total % 10 ^ 9
            rttMs := UInt32.ofNat ((rttNs.toInt + 999999) / 1000000).toNat }) := by
  obtain ⟨hmin, hmax⟩ := h
  have hfraction := fraction.toNat_lt
  have hlt : rttNs.toInt < 2 ^ 63 := rttNs.toInt_lt
  unfold releaseMinUnix at hmin
  unfold targetMaxUnix at hmax
  unfold sampleAt exactTime
  generalize rttNs.toInt = rtt at *
  generalize fraction.toNat = f at *
  simp only [Option.bind_eq_bind]
  -- no step of the arithmetic leaves its type while the second is in the interval
  rw [uint64_eq (by omega), Option.bind_some, int64_eq (by omega), Option.bind_some,
    Int.tdiv_eq_ediv_of_nonneg hrtt, int64_eq (by omega), Option.bind_some,
    Int.tdiv_eq_ediv_of_nonneg (by omega), int64_eq (by omega), Option.bind_some,
    Int.tmod_eq_emod_of_nonneg (by omega)]
  -- the two parts of the sum are those of the sum as a whole
  have hsecond : unix + ((f : ℤ) * 1000000000 / 2 ^ 32 + rtt / 2) / 1000000000 =
      (unix * 10 ^ 9 + f * 10 ^ 9 / 2 ^ 32 + rtt / 2) / 10 ^ 9 := by omega
  have hrest : ((f : ℤ) * 1000000000 / 2 ^ 32 + rtt / 2) % 1000000000 =
      (unix * 10 ^ 9 + f * 10 ^ 9 / 2 ^ 32 + rtt / 2) % 10 ^ 9 := by omega
  rw [hsecond, hrest]
  generalize htotal : unix * 10 ^ 9 + (f : ℤ) * 10 ^ 9 / 2 ^ 32 + rtt / 2 = total at *
  unfold releaseMinUnix targetMaxUnix
  by_cases hlate : 2147483647 < total / 10 ^ 9
  · rw [if_pos hlate, if_pos (.inr hlate)]
    rfl
  · -- the second stays below the last one, so the round trip is short
    rw [if_neg hlate, if_neg (by omega), int32_eq (by omega), Option.bind_some,
      int32_eq (by omega), Option.bind_some, int64_eq (by omega), Option.bind_some,
      Int.tdiv_eq_ediv_of_nonneg (by omega)]
    rfl

/-- A second of the interval is decoded exactly. -/
theorem decodeTransmitTime_of_second (h : InRange unix) (fraction : UInt32)
    (hrtt : 0 ≤ rttNs.toInt) :
    decodeTransmitTime (timestamp (ntpSeconds unix) fraction) rttNs =
      sampleAt unix fraction rttNs := by
  rw [decodeTransmitTime_eq, eraCandidate_of_second h]
  exact if_neg (by omega)

/-- A timestamp whose seconds belong to no second of the interval is refused. -/
theorem decodeTransmitTime_of_no_second (h : ∀ unix, InRange unix → ntpSeconds unix ≠ seconds)
    (fraction : UInt32) (rttNs : Int64) :
    decodeTransmitTime (timestamp seconds fraction) rttNs = some (.timeRange, none) := by
  rw [decodeTransmitTime_eq]
  refine if_pos (.inl fun hfound => ?_)
  obtain ⟨unix, hrange, hunix⟩ := eraCandidate_found hfound
  exact h unix hrange hunix

/-- A response that is taken has passed the check in front. -/
theorem of_check_eq_ok {p : Prop} [Decidable p] {result : TimeResult}
    {x : Option (TimeResult × Option Sample)} {sample : Option Sample} (hne : result ≠ .ok)
    (h : (if p then some (result, none) else x) = some (.ok, sample)) :
    ¬ p ∧ x = some (.ok, sample) := by
  by_cases hp : p
  · rw [if_pos hp] at h
    exact absurd (congrArg Prod.fst (Option.some.inj h)) hne
  · rw [if_neg hp] at h
    exact ⟨hp, h⟩

/-- A response that is taken answers the request, and its transmit timestamp is decoded. -/
theorem validateResponse_eq_ok {response request : List UInt8} {sample : Option Sample}
    (h : validateResponse response request rttNs = some (.ok, sample)) :
    response.length = sntpPacketBytes ∧
      (response.drop 24).take 8 = (request.drop 40).take 8 ∧
      decodeTransmitTime (response.drop 40) rttNs = some (.ok, sample) := by
  unfold validateResponse at h
  dsimp only at h
  obtain ⟨hsize, h⟩ := of_check_eq_ok (by decide) h
  -- version, mode, leap indicator, and twice the stratum
  iterate 5 obtain ⟨-, h⟩ := of_check_eq_ok (by decide) h
  obtain ⟨horiginate, h⟩ := of_check_eq_ok (by decide) h
  -- and the other two timestamps
  iterate 2 obtain ⟨-, h⟩ := of_check_eq_ok (by decide) h
  exact ⟨not_not.mp hsize, not_not.mp horiginate, h⟩

/-- **Timestamps of both eras are decoded exactly.** -/
theorem timestamps_decoded :
    (∀ (unix : ℤ) (fraction : UInt32) (rttNs : Int64), InRange unix → 0 ≤ rttNs.toInt →
      let total := exactTime unix fraction rttNs
      let decoded := decodeTransmitTime (timestamp (ntpSeconds unix) fraction) rttNs
      (total / 10 ^ 9 ≤ targetMaxUnix →
        ∃ sample, decoded = some (.ok, some sample) ∧
          sample.unixSeconds * 10 ^ 9 + sample.nanoseconds = total ∧
          0 ≤ sample.nanoseconds ∧ sample.nanoseconds < 10 ^ 9 ∧
          (rttNs.toInt ≤ (2 ^ 32 - 1) * 10 ^ 6 →
            (sample.rttMs.toNat : ℤ) = (rttNs.toInt + 999999) / 10 ^ 6)) ∧
      (targetMaxUnix < total / 10 ^ 9 → decoded = some (.timeRange, none))) ∧
    (∀ (seconds fraction : UInt32) (rttNs : Int64),
      (∀ unix, InRange unix → ntpSeconds unix ≠ seconds) →
      decodeTransmitTime (timestamp seconds fraction) rttNs = some (.timeRange, none)) ∧
    ∀ seconds : UInt32, ¬ (InRange (seconds.toNat - ntpUnixDelta) ∧
      InRange (seconds.toNat + ntpEraSeconds - ntpUnixDelta)) := by
  refine ⟨fun unix fraction rttNs hrange hrtt => ?_,
    fun seconds fraction rttNs h => decodeTransmitTime_of_no_second h fraction rttNs,
    not_both_eras⟩
  dsimp only
  -- the second of the timestamp tells the era, so one second is sampled
  rw [decodeTransmitTime_of_second hrange fraction hrtt, sampleAt_eq hrange hrtt]
  dsimp only
  constructor
  · intro hle
    rw [if_neg (by omega)]
    refine ⟨_, rfl, Int.ediv_mul_add_emod _ _, Int.emod_nonneg _ (by norm_num),
      Int.emod_lt_of_pos _ (by norm_num), fun hshort => ?_⟩
    dsimp only
    rw [UInt32.toNat_ofNat_of_lt' (by simp only [UInt32.size]; omega)]
    omega
  · intro hlt
    rw [if_pos hlt]

end Decode

end TimeSimple
