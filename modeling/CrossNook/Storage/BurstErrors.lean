import CrossNook.Credentials.CredentialStore
import CrossNook.Identity.IdentityFile
import CrossNook.Progress.Codec
import CrossNook.Settings.SettingsStore
import CrossNook.Text.Bursts

/-!
# Burst errors in the stores

The settings, the credentials, the device identity and the reading positions are stored in files
that end in a CRC-32 of what stands before it. A load accepts only such a file, so it refuses a
file that was in order before up to four consecutive bytes were changed ahead of the checksum:
whatever the change does to the lines or to the stored lengths, the range that is summed up ends
at the same place.

## Main results

* `BurstErrors.sealed_settings`, `BurstErrors.sealed_credentials`, ...: what is accepted ends in
  its checksum
* `BurstErrors.bursts_detected`: a burst before the checksum is detected
-/

namespace BurstErrors

open Bytes (Burst lineChecksum wordChecksum)
open Crash Posix

variable {data altered : List UInt8}

/-! ## What the stores accept -/

theorem sealed_settings {settings : Settings} (h : SettingsStore.parseSettings data = .ok settings) :
    lineChecksum.Seals data := by
  obtain ⟨hvalid, hdata⟩ := SettingsStore.serializeSettings_of_parseSettings h
  rw [SettingsStore.serializeSettings_eq (SettingsStore.valid_of_validate hvalid)] at hdata
  rw [← Option.some.inj hdata]
  exact Bytes.lineChecksum_seals _

theorem sealed_credentials {credentials : Credentials}
    (h : CredentialStore.parse data = .ok credentials) : lineChecksum.Seals data := by
  obtain ⟨hvalid, hdata⟩ := CredentialStore.serialize_of_parse h
  rw [CredentialStore.serialize_eq hvalid] at hdata
  rw [← Option.some.inj hdata]
  exact Bytes.lineChecksum_seals _

theorem sealed_identity {id : List UInt8} (h : DeviceIdentity.parseIdentity data = .ok id) :
    lineChecksum.Seals data := by
  obtain ⟨lines, rfl⟩ := DeviceIdentity.sealed_of_parseIdentity h
  exact Bytes.lineChecksum_seals _

theorem sealed_progress {token : List UInt8} {record : ProgressStore.Record}
    (h : ProgressStore.decode token data = .ok record) : wordChecksum.Seals data := by
  obtain ⟨location, -, -, rfl⟩ := ProgressStore.decode_eq_ok h
  exact ⟨_, rfl⟩

/-! ## What the loads refuse -/

section Loads

variable {m : Machine}

/-- The load does not return its file as loaded. -/
def Refuses {ρ : Type} (load : Sys ρ) (loaded : ρ → Prop) (m : Machine) : Prop :=
  Ends load m (fun r _ => ¬ loaded r) fun _ => True

theorem refuses_settings (h : ∀ settings, SettingsStore.parseSettings altered ≠ .ok settings)
    {store : SettingsStore.Store} (pid : ℕ) (hfile : Holds m store.path altered) :
    Refuses (SettingsStore.load store pid) (·.result = .ok) m := by
  obtain ⟨ino, hfile⟩ := hfile
  refine (SettingsStore.ends_load_told (H := False) store pid False.elim).mono ?_ fun _ _ => trivial
  rintro r m' ⟨-, -, htold⟩ hok
  have hstored := htold.loads.ok hok
  rw [SettingsStore.Store.stored, hfile] at hstored
  simp only [SettingsStore.judge] at hstored
  split_ifs at hstored
  exact h _ hstored

theorem refuses_credentials (h : ∀ credentials, CredentialStore.parse altered ≠ .ok credentials)
    {store : CredentialStore.Store} (hfile : Holds m store.path altered) (initial : Credentials) :
    Refuses (CredentialStore.load store initial) (·.result = .ok) m := by
  obtain ⟨ino, hfile⟩ := hfile
  refine (CredentialStore.ends_load_told (H := False) store initial False.elim).mono ?_
    fun _ _ => trivial
  rintro r m' ⟨-, -, htold⟩ hok
  have hstored := htold.loads.ok hok
  rw [CredentialStore.Store.stored, hfile] at hstored
  simp only [CredentialStore.judge] at hstored
  split_ifs at hstored
  exact h _ hstored

theorem refuses_identity (h : ∀ id, DeviceIdentity.parseIdentity altered ≠ .ok id)
    {store : DeviceIdentity.Store} (hfile : Holds m store.path altered) :
    Refuses (DeviceIdentity.loadNow store) (·.result = .ok) m := by
  obtain ⟨ino, hfile⟩ := hfile
  refine (DeviceIdentity.ends_loadNow store m).mono ?_ fun _ _ => trivial
  rintro r m' ⟨-, hloads⟩ hok
  have hstored := hloads hok
  simp only [DeviceIdentity.Store.stored, hfile, Option.map_some] at hstored
  cases hparse : DeviceIdentity.parseIdentity altered with
  | ok id => exact h id hparse
  | error result =>
    rw [hparse] at hstored
    cases hstored

theorem refuses_progress {identity : BookIdentity} {token : List UInt8}
    (ht : identity.token = some token)
    (h : ∀ record, ProgressStore.decode token altered ≠ .ok record) {store : ProgressStore.Store}
    {fd : Path} (hfd : resolve m.files 40 (store.path token) = .ok fd)
    (hfile : Holds m fd altered) (initial : ProgressStore.Record) :
    Refuses (ProgressStore.load store identity initial) (·.1 = .ok) m := by
  obtain ⟨ino, hfile⟩ := hfile
  refine (ProgressStore.ends_load_fileBytes ht hfd hfile initial).mono ?_ fun _ _ => trivial
  intro r m' hbytes hok
  exact h r.2 ((ProgressStore.decode_eq_ok_iff (BookIdentity.length_token ht)).mpr (hbytes hok))

end Loads

/-- **Bursts of four bytes are detected.** -/
theorem bursts_detected :
    (∀ data altered, Burst 4 0 data altered → Bytes.crc32 altered ≠ Bytes.crc32 data) ∧
    (∀ data altered settings, SettingsStore.parseSettings data = .ok settings →
      Burst 4 lineChecksum.width data altered →
      ∀ (store : SettingsStore.Store) (pid : ℕ) (m : Machine), Holds m store.path altered →
        Refuses (SettingsStore.load store pid) (·.result = .ok) m) ∧
    (∀ data altered credentials, CredentialStore.parse data = .ok credentials →
      Burst 4 lineChecksum.width data altered →
      ∀ (store : CredentialStore.Store) (initial : Credentials) (m : Machine),
        Holds m store.path altered →
        Refuses (CredentialStore.load store initial) (·.result = .ok) m) ∧
    (∀ data altered id, DeviceIdentity.parseIdentity data = .ok id →
      Burst 4 lineChecksum.width data altered →
      ∀ (store : DeviceIdentity.Store) (m : Machine), Holds m store.path altered →
        Refuses (DeviceIdentity.loadNow store) (·.result = .ok) m) ∧
    ∀ data altered token record, ProgressStore.decode token data = .ok record →
      Burst 4 wordChecksum.width data altered →
      ∀ (store : ProgressStore.Store) (identity : BookIdentity) (token : List UInt8)
        (initial : ProgressStore.Record) (m : Machine) (fd : Path), identity.token = some token →
        resolve m.files 40 (store.path token) = .ok fd → Holds m fd altered →
        Refuses (ProgressStore.load store identity initial) (·.1 = .ok) m := by
  -- a burst breaks the checksum, and a record with a broken one is refused
  refine ⟨fun data altered => Bytes.crc32_burst, ?_, ?_, ?_, ?_⟩
  · intro data altered settings hdata hburst store pid m hfile
    have hbroken := Bytes.Checksum.not_seals_of_burst (sealed_settings hdata) hburst
    exact refuses_settings (fun _ h => hbroken (sealed_settings h)) pid hfile
  · intro data altered credentials hdata hburst store initial m hfile
    have hbroken := Bytes.Checksum.not_seals_of_burst (sealed_credentials hdata) hburst
    exact refuses_credentials (fun _ h => hbroken (sealed_credentials h)) hfile initial
  · intro data altered id hdata hburst store m hfile
    have hbroken := Bytes.Checksum.not_seals_of_burst (sealed_identity hdata) hburst
    exact refuses_identity (fun _ h => hbroken (sealed_identity h)) hfile
  · intro data altered token record hdata hburst store identity token' initial m fd ht hfd hfile
    have hbroken := Bytes.Checksum.not_seals_of_burst (sealed_progress hdata) hburst
    exact refuses_progress ht (fun _ h => hbroken (sealed_progress h)) hfd hfile initial

end BurstErrors
