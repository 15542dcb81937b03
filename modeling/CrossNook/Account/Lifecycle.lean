import CrossNook.Account.SetupController

/-!
# The life of an account

Runs of the controller from an empty storage, one call after the other, where every call may fail
or be killed at any point and nothing else writes to the storage. An account that is enabled on
the disk is the one that the server authorized last, and it stays as it is.

## Main definitions

* `AccountSetup.Op`: the calls of the controller
* `AccountSetup.Runs`: the runs from an empty storage
* `AccountSetup.Authorized`: the server authorized the account on the disk

## Main results

* `AccountSetup.op_changes`: what one call does
* `AccountSetup.lifecycle`: an enabled account is authorized, and it is not changed
-/

namespace AccountSetup

open Crash Kosync Posix
open Account (View view)
open StorageLayout (Layout)
open SyncActivation (Runtime Activation Authorizes)

/-! ## Runs -/

/-- A call of the controller. -/
inductive Op
  | submit (input : Option Input) (intent : Intent) (runtime : Option Runtime)
    (entropy : Option (Fin 16 → UInt8))
  | activateExisting (runtime : Option Runtime) (entropy : Option (Fin 16 → UInt8))
  | inspect

/-- The program of a call. -/
def Op.run (layout : Layout) : Op → Env Report
  | .submit input intent runtime entropy => AccountSetup.submit layout input intent runtime entropy
  | .activateExisting runtime entropy => AccountSetup.activateExisting layout runtime entropy
  | .inspect => AccountSetup.inspect layout

/-- The storage has its directories and no account. -/
structure EmptyPrepared (v : View) : Prop where
  config : v.config.map Node.kind = some .directory
  state : v.state.map Node.kind = some .directory
  settings : v.settings = none
  credentials : v.credentials = none
  identity : v.identity = none

/-- The runs in which every call meets a condition on the calls before, on the account on the disk
and on itself. A call starts with the files that the one before left, whether that returned or
was killed; all else in its world is arbitrary. -/
inductive Runs (layout : Layout) (condition : List Op → View → Op → Prop) :
    List Op → (Path → Option Node) → List Event → Prop
  | start {files : Path → Option Node} (h : EmptyPrepared (view layout files)) :
    Runs layout condition [] files []
  | call {ops : List Op} {files : Path → Option Node} {events : List Event}
    (h : Runs layout condition ops files events) (op : Op) (w : World)
    (hcondition : condition ops (view layout files) op) (hfiles : w.files = files)
    (hevents : w.events = events) :
    Runs layout condition (ops ++ [op]) (op.run layout w).2.files (op.run layout w).2.events

/-- No condition on the calls. -/
def AnyCall : List Op → View → Op → Prop := fun _ _ _ => True

/-- What holds of every end of a program holds of the world that it leaves. -/
theorem of_ends {α : Type} {p : Env α} {w : World} {P : World → Prop}
    (h : Ends p w (fun _ w' => P w') P) : P (p w).2 := by
  unfold Ends at h
  rcases hp : p w with ⟨a | _, w'⟩ <;> rw [hp] at h <;> exact h

/-! ## Enabled accounts -/

/-- The account on the disk is complete, and the last event is that the server authorized it. -/
structure Authorized (v : View) (events : List Event) : Prop where
  exists_account : ∃ settings credentials request outcome,
    v.storedSettings = .ok settings ∧ settings.kosyncBaseUrl ≠ [] ∧
    v.storedCredentials = .ok credentials ∧
    events.getLast? = some (.exchange request outcome) ∧
    Authorizes settings.kosyncBaseUrl credentials.username credentials.userkey request ∧
    (mapResponse outcome).1 = .ok
  identity : v.storedIdentity.isSome

/-- **What a call does to an account**: it leaves it, or there is no enabled account before and
none after, or one that is authorized. -/
inductive Changes (layout : Layout) (w w' : World) : Prop
  | kept (hview : view layout w'.files = view layout w.files) (hevents : w'.events = w.events)
  | disabled (hw : ¬ (view layout w.files).Enabled) (hw' : ¬ (view layout w'.files).Enabled)
  | enabled (hw : ¬ (view layout w.files).Enabled)
    (h : Authorized (view layout w'.files) w'.events)

section Changes

variable {layout : Layout} {w w' : World}

/-- An activation leaves the account disabled, or the server authorized it. -/
theorem disabled_or_authorized {status : Option SyncActivation.Status}
    (h : Activation layout w status w') (hw : ¬ (view layout w.files).Enabled) :
    ¬ (view layout w'.files).Enabled ∨ Authorized (view layout w'.files) w'.events := by
  cases h with
  | quiet _ hview => exact .inl (by rwa [hview])
  | asked _ _ _ _ hview => exact .inl (by rwa [hview])
  | @enabled settings credentials outcome _ hready hasks hok hsaved =>
    right
    obtain ⟨setup, request, hevents, -, hauthorizes⟩ := hasks
    have hstored := hsaved.stored
    obtain ⟨node, -, hv⟩ := hsaved
    rw [hv] at hstored ⊢
    refine ⟨⟨_, credentials, request, outcome, hstored, hready.url_ne, hready.credentials_eq, ?_,
      hauthorizes, hok⟩, hready.identity⟩
    rw [hevents, List.getLast?_concat]

theorem not_enabled_identity {v : View} {identity : Option Node} (h : ¬ v.Enabled) :
    ¬ ({ v with identity } : View).Enabled := h

/-- The preparation and the activation. -/
theorem changes_of_prepares {r : Option Status} (h : Prepares layout w r w')
    (hw : ¬ (view layout w.files).Enabled) :
    ¬ (view layout w'.files).Enabled ∨ Authorized (view layout w'.files) w'.events := by
  cases h with
  | stopped _ hview =>
    rw [hview]
    exact .inl (not_enabled_identity hw)
  | activated hview _ h hfiles hafter =>
    rw [hfiles, hafter]
    refine disabled_or_authorized h ?_
    rw [hview]
    exact not_enabled_identity hw

/-- A bootstrap enables no account. -/
theorem not_enabled_of_wrote {settings : Settings} {credentials : Credentials} {a b : Bool}
    {v v' : View} (h : AccountBootstrap.Wrote settings credentials a b v v')
    (hdisabled : settings.kosyncEnabled = 0) (hv : ¬ v.Enabled) : ¬ v'.Enabled := by
  have hstored : ∀ {v : View}, v.storedSettings = .ok settings → ¬ v.Enabled := by
    rintro v hs ⟨settings', hs', henabled⟩
    obtain rfl := Except.ok.inj (hs.symm.trans hs')
    exact henabled hdisabled
  cases h.written with
  | neither => exact hv
  | settings hsaved => exact hstored hsaved.stored
  | credentials | both => exact hstored (h.ordered rfl)

theorem changes_of_or (hw : ¬ (view layout w.files).Enabled)
    (h : ¬ (view layout w'.files).Enabled ∨ Authorized (view layout w'.files) w'.events) :
    Changes layout w w' :=
  h.elim (.disabled hw) (.enabled hw)

/-- **A submission.** -/
theorem changes_of_submitted {pid : ℕ} {input : Option Input} {intent : Intent}
    {localState : LocalState} {r : Option Status}
    (h : Submitted layout pid input intent w localState r w') : Changes layout w w' := by
  cases h with
  | refused _ hview hevents => exact .kept hview hevents
  | stopped _ hproceeds hdesired hwrote =>
    have hw := hproceeds.not_enabled
    exact .disabled hw (not_enabled_of_wrote hwrote hdesired.disabled hw)
  | stored _ hproceeds hdesired hwrote _ _ _ h =>
    have hw := hproceeds.not_enabled
    exact changes_of_or hw
      (changes_of_prepares h (not_enabled_of_wrote hwrote hdesired.disabled hw))

/-- **The activation of an account that is stored.** -/
theorem changes_of_activatedExisting {pid : ℕ} {localState : LocalState} {r : Option Status}
    (h : ActivatedExisting layout pid w localState r w') : Changes layout w w' := by
  cases h with
  | refused _ hview hevents => exact .kept hview hevents
  | prepared hstate _ h =>
    have hfound := found layout pid w.files
    rw [hstate] at hfound
    cases hfound with
    | completeDisabled hs hdisabled hc =>
      have hw := not_enabled_of_look (.inr ⟨_, hs, hdisabled⟩)
      exact changes_of_or hw (changes_of_prepares h hw)

end Changes

/-- **What one call does.** -/
theorem op_changes (layout : Layout) (op : Op) (w : World) :
    Changes layout w (op.run layout w).2 := by
  refine of_ends ?_
  cases op with
  | submit input intent runtime entropy =>
    refine (ends_submit layout input intent runtime entropy w).mono ?_ ?_
    · exact fun _ _ h => changes_of_submitted h.2
    · exact fun _ ⟨_, h⟩ => changes_of_submitted h
  | activateExisting runtime entropy =>
    refine (ends_activateExisting layout runtime entropy w).mono ?_ ?_
    · exact fun _ _ h => changes_of_activatedExisting h.2
    · exact fun _ ⟨_, h⟩ => changes_of_activatedExisting h
  | inspect =>
    refine (ends_inspect layout w).mono ?_ ?_
    · exact fun _ _ h => .kept (by rw [h.1]) h.2.1
    · exact fun _ h => .kept (by rw [h.1]) h.2

/-- **The invariant of the runs**, by what one call does. -/
theorem authorized_of_runs {layout : Layout} {condition : List Op → View → Op → Prop}
    {ops : List Op} {files : Path → Option Node} {events : List Event}
    (h : Runs layout condition ops files events) (henabled : (view layout files).Enabled) :
    Authorized (view layout files) events := by
  induction h with
  | start hempty =>
    -- there are no settings
    obtain ⟨settings, hstored, -⟩ := henabled
    rw [View.storedSettings, hempty.settings] at hstored
    cases hstored
  | call hruns op w hcondition hfiles hevents ih =>
    subst hfiles hevents
    cases op_changes layout op w with
    | kept hview hkept =>
      rw [hview] at henabled ⊢
      rw [hkept]
      exact ih henabled
    | disabled _ hw' => exact absurd henabled hw'
    | enabled _ hauthorized => exact hauthorized

/-- **The life of an account.** Whenever the settings on the disk say that it is enabled, the
account is complete and it is the one that the server authorized last; no call changes the
settings or the credentials of an account that is enabled. -/
theorem lifecycle (layout : Layout) :
    (∀ ops files events, Runs layout AnyCall ops files events → (view layout files).Enabled →
      Authorized (view layout files) events) ∧
    ∀ op w, (view layout w.files).Enabled →
      (view layout (Op.run layout op w).2.files).settings = (view layout w.files).settings ∧
      (view layout (Op.run layout op w).2.files).credentials = (view layout w.files).credentials := by
  refine ⟨fun ops files events h henabled => authorized_of_runs h henabled, fun op w henabled => ?_⟩
  cases op_changes layout op w with
  | kept hview =>
    rw [hview]
    exact ⟨rfl, rfl⟩
  | disabled hw => exact absurd henabled hw
  | enabled hw => exact absurd henabled hw

end AccountSetup
