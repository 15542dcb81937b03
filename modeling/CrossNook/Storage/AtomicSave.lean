import CrossNook.Credentials.CredentialStore
import CrossNook.Progress.ProgressStore
import CrossNook.Settings.SettingsStore

/-!
# Atomic saves

The settings, credential and progress stores replace their files in three implementations of their
own. All three are atomic.

## Main results

* `AtomicSave.saves_atomic`: each save leaves the complete old or the complete new file, and the
  result tells which
-/

namespace AtomicSave

open Posix

/-- **The saves of the three record stores are atomic.** From any files and whatever happens to
the system calls, a save that returns `ok` (or, of the settings and the credentials,
`durabilityUncertain`) leaves the complete new encoding at the final path, a save that returns
anything else leaves there what was there, and a save that is killed leaves one or the other. -/
theorem saves_atomic :
    (∀ (store : SettingsStore.Store) (settings : Settings) (pid : ℕ),
      Atomic SettingsStore.Visible store.path (SettingsStore.serializeSettings settings)
        (SettingsStore.save store settings pid)) ∧
    (∀ (store : CredentialStore.Store) (credentials : Credentials) (pid : ℕ) (sequence : UInt32),
      Atomic CredentialStore.Visible store.path (CredentialStore.serialize credentials)
        (CredentialStore.save store credentials pid sequence)) ∧
    ∀ (store : ProgressStore.Store) (identity : BookIdentity) (record : ProgressStore.Record)
      (pid : ℕ),
      match identity.token with
      | some token =>
        Atomic (· = ProgressStore.Result.ok) (store.path token)
          ((ProgressStore.validPosition record).map fun position =>
            ProgressStore.encode token position.1 position.2)
          (ProgressStore.save store identity record pid)
      | none =>
        ∀ p, Atomic (· = ProgressStore.Result.ok) p none
          (ProgressStore.save store identity record pid) := by
  -- a record that is refused has no encoding, and nothing is written for it
  have hinvalid : ∀ (p : Path) (new : Option (List UInt8)),
      Atomic (· = ProgressStore.Result.ok) p new (pure .invalid) :=
    fun p new m => ⟨fun h => absurd h (by simp), fun _ => rfl⟩
  refine ⟨SettingsStore.save_atomic, CredentialStore.save_atomic, ?_⟩
  intro store identity record pid
  cases htoken : identity.token with
  | none =>
    intro p
    rw [ProgressStore.save_refused (.inl htoken)]
    exact hinvalid p none
  | some token =>
    cases hrecord : ProgressStore.validPosition record with
    | none =>
      dsimp only
      rw [ProgressStore.save_refused (.inr hrecord)]
      exact hinvalid _ _
    | some position => exact (ProgressStore.save_replaces htoken hrecord pid).atomic

end AtomicSave
