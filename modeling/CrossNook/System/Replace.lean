import CrossNook.System.Posix

/-!
# Replacing a file

The pattern by which a file is replaced: a temporary file gets the new content and is renamed over
the final path. A program logic for such programs, whose judgment says what the final path holds
when the program returns and wherever it is killed.

## Main definitions

* `Posix.Holds m p content`: the file at `p` has the given content
* `Posix.Replaces`: the judgment; results are split into those that show the new content and
  those that do not
* `Posix.Leaves`, `Posix.Shows`: the programs before and after the rename

## Main results

* `Posix.Replaces.bind`, `Posix.Leaves.replaces`, `Posix.Replaces.rename`: the rules
-/

namespace Posix

open Crash

/-- The file at `p` has the given content. -/
def Holds (m : Machine) (p : Path) (content : List UInt8) : Prop :=
  ∃ ino, m.files p = some ⟨ino, .regular content⟩

variable {ρ α : Type}

/-- From any state with `P`, the program replaces the file at `p`: where its result is visible,
`p` holds the new content, where it is not, `p` is as it was, and where the program is killed it is
one or the other. Apart from `p` it touches entries in `T` only. -/
def Replaces (visible : ρ → Prop) (T : Set Path) (p : Path) (new : List UInt8)
    (P : Machine → Prop) (q : Sys ρ) : Prop :=
  ∀ m, P m → Ends q m
    (fun r m' => (visible r → Holds m' p new) ∧ (¬ visible r → m'.files p = m.files p) ∧
      ∀ x ∉ T, x ≠ p → m'.files x = m.files x)
    (fun m' => (m'.files p = m.files p ∨ Holds m' p new) ∧
      ∀ x ∉ T, x ≠ p → m'.files x = m.files x)

/-- A program that gives up: it touches entries in `T` only and its result is not visible. -/
def Leaves (visible : ρ → Prop) (T : Set Path) (q : Sys ρ) : Prop :=
  ∀ m, Ends q m (fun r m' => ¬ visible r ∧ others T m' = others T m)
    fun m' => others T m' = others T m

/-- A program that reports: it leaves all entries alone and its result is visible. -/
def Shows (visible : ρ → Prop) (q : Sys ρ) : Prop :=
  ∀ m, Ends q m (fun r m' => visible r ∧ m'.files = m.files) fun m' => m'.files = m.files

/-- The file at `p` is replaced atomically: where the result is visible it holds the new content,
where it is not it is as it was, and where the program is killed it is one or the other. -/
def Atomic (visible : ρ → Prop) (p : Path) (new : Option (List UInt8)) (q : Sys ρ) : Prop :=
  ∀ m, Ends q m
    (fun r m' => (visible r → ∃ content ∈ new, Holds m' p content) ∧
      (¬ visible r → m'.files p = m.files p))
    fun m' => m'.files p = m.files p ∨ ∃ content ∈ new, Holds m' p content

variable {visible : ρ → Prop} {T : Set Path} {p : Path} {new : List UInt8}
  {P P' : Machine → Prop}

theorem Replaces.atomic {q : Sys ρ} (h : Replaces visible T p new (fun _ => True) q) :
    Atomic visible p (some new) q := by
  intro m
  refine (h m trivial).mono (fun r m' ⟨hv, hn, _⟩ => ⟨fun hr => ⟨new, rfl, hv hr⟩, hn⟩) ?_
  rintro m' ⟨hk | hk, -⟩
  · exact .inl hk
  · exact .inr ⟨new, rfl, hk⟩

theorem Leaves.pure {r : ρ} (hr : ¬ visible r) : Leaves visible T (Pure.pure r) :=
  fun _ => ⟨hr, rfl⟩

theorem Leaves.bind {q : Sys α} {f : α → Sys ρ} (hq : Touches T q)
    (hf : ∀ a, Leaves visible T (f a)) : Leaves visible T (q >>= f) := by
  intro m
  rw [ends_bind]
  refine (hq.ends m).mono (fun a m' h => ?_) fun _ h => h
  exact (hf a m').mono (fun r m'' h' => ⟨h'.1, h'.2.trans h⟩) fun m'' h' => h'.trans h

theorem Shows.pure {r : ρ} (hr : visible r) : Shows visible (Pure.pure r) := fun _ => ⟨hr, rfl⟩

theorem Shows.bind {q : Sys α} {f : α → Sys ρ} (hq : KeepsFiles q)
    (hf : ∀ a, Shows visible (f a)) : Shows visible (q >>= f) := by
  intro m
  rw [ends_bind]
  refine (hq.ends m).mono (fun a m' h => ?_) fun _ h => h
  exact (hf a m').mono (fun r m'' h' => ⟨h'.1, h'.2.trans h⟩) fun m'' h' => h'.trans h

theorem Replaces.weaken {q : Sys ρ} (h : Replaces visible T p new P q) (hP : ∀ m, P' m → P m) :
    Replaces visible T p new P' q :=
  fun m hm => h m (hP m hm)

/-- **Giving up replaces nothing.** -/
theorem Leaves.replaces {q : Sys ρ} (h : Leaves visible T q) (hp : p ∉ T) :
    Replaces visible T p new P q := by
  intro m _
  refine (h m).mono ?_ ?_
  · rintro r m' ⟨hr, hm⟩
    rw [others_eq_iff] at hm
    exact ⟨fun hv => absurd hv hr, fun _ => hm p hp, fun x hx _ => hm x hx⟩
  · intro m' hm
    rw [others_eq_iff] at hm
    exact ⟨.inl (hm p hp), fun x hx _ => hm x hx⟩

/-- **Sequencing**, with a first program that does not touch the final path. -/
theorem Replaces.bind {q : Sys α} {f : α → Sys ρ} {R : α → Machine → Prop} (hp : p ∉ T)
    (hq : Touches T q) (hR : ∀ m, P m → Ends q m R fun _ => True)
    (hf : ∀ a, Replaces visible T p new (R a) (f a)) :
    Replaces visible T p new P (q >>= f) := by
  intro m hm
  rw [ends_bind]
  refine ((hq.ends m).and (hR m hm)).mono ?_ ?_
  · rintro a m' ⟨h, hRa⟩
    rw [others_eq_iff] at h
    refine (hf a m' hRa).mono ?_ ?_
    · rintro r m'' ⟨hv, hn, ho⟩
      exact ⟨hv, fun hr => (hn hr).trans (h p hp), fun x hx hxp => (ho x hx hxp).trans (h x hx)⟩
    · rintro m'' ⟨hk, ho⟩
      refine ⟨?_, fun x hx hxp => (ho x hx hxp).trans (h x hx)⟩
      rcases hk with hk | hk
      · exact .inl (hk.trans (h p hp))
      · exact .inr hk
  · rintro m' ⟨h, -⟩
    rw [others_eq_iff] at h
    exact ⟨.inl (h p hp), fun x hx _ => h x hx⟩

/-- Sequencing where nothing is to be remembered of the first program. -/
theorem Replaces.next {q : Sys α} {f : α → Sys ρ} (hp : p ∉ T) (hq : Touches T q)
    (hf : ∀ a, Replaces visible T p new (fun _ => True) (f a)) :
    Replaces visible T p new P (q >>= f) := by
  refine Replaces.bind (R := fun _ _ => True) hp hq (fun m _ => ?_) hf
  exact (hq.ends m).mono (fun _ _ _ => trivial) fun _ _ => trivial

/-- Sequencing with a first program that leaves all entries alone, so that what they hold is
remembered. -/
theorem Replaces.after {q : Sys α} {f : α → Sys ρ} {t : Path} {content : List UInt8} (hp : p ∉ T)
    (hq : KeepsFiles q) (hf : ∀ a, Replaces visible T p new (Holds · t content) (f a)) :
    Replaces visible T p new (Holds · t content) (q >>= f) := by
  refine Replaces.bind (R := fun _ m => Holds m t content) hp (hq.touches T) (fun m hm => ?_) hf
  refine (hq.ends m).mono (fun _ m' h => ?_) fun _ _ => trivial
  simpa only [Holds, h] using hm

/-- **The temporary file is created empty.** -/
theorem Replaces.create {t : Path} {f : Except Errno Unit → Sys ρ} (hp : p ∉ T) (ht : t ∈ T)
    (hfail : ∀ e, Leaves visible T (f (.error e)))
    (hok : Replaces visible T p new (Holds · t []) (f (.ok ()))) :
    Replaces visible T p new P (openCreate t >>= f) := by
  refine Replaces.bind hp (touches_openCreate ht) (fun m _ => ends_openCreate) fun r => ?_
  rcases r with e | ⟨⟩
  · exact (hfail e).replaces hp
  · exact hok.weaken fun m hm => hm rfl

/-- **The temporary file gets the new content.** -/
theorem Replaces.write {t : Path} {f : Except Errno Unit → Sys ρ} (hp : p ∉ T) (ht : t ∈ T)
    (hfail : ∀ e, Leaves visible T (f (.error e)))
    (hok : Replaces visible T p new (Holds · t new) (f (.ok ()))) :
    Replaces visible T p new (Holds · t []) (writeAll t new >>= f) := by
  refine Replaces.bind (R := fun r m => r = .ok () → Holds m t new) hp (touches_writeAll ht new)
    (fun m ⟨ino, hm⟩ => ?_) fun r => ?_
  · refine (ends_writeAll hm).mono (fun r m' h hr => ⟨ino, ?_⟩) fun _ h => h
    simpa using h hr
  · rcases r with e | ⟨⟩
    · exact (hfail e).replaces hp
    · exact hok.weaken fun m hm => hm rfl

/-- **The rename shows the content of the temporary file.** -/
theorem Replaces.rename {t : Path} {f : Except Errno Unit → Sys ρ} (hp : p ∉ T) (ht : t ∈ T)
    (hfail : ∀ e, Leaves visible T (f (.error e))) (hok : Shows visible (f (.ok ()))) :
    Replaces visible T p new (Holds · t new) (Posix.rename t p >>= f) := by
  rintro m ⟨ino, hfile⟩
  have hne : p ≠ t := fun h => hp (h ▸ ht)
  rw [ends_bind]
  refine (ends_rename hne hfile).mono ?_ fun m' h => ⟨.inl (by rw [h]), fun x _ _ => by rw [h]⟩
  rintro r m' (⟨rfl, hnew, -, ho⟩ | ⟨⟨e, rfl⟩, h⟩)
  · have hframe : ∀ x ∉ T, x ≠ p → m'.files x = m.files x :=
      fun x hx hxp => ho x (fun h => hx (h ▸ ht)) hxp
    refine (hok m').mono ?_ ?_
    · rintro r m'' ⟨hr, h⟩
      exact ⟨fun _ => ⟨ino, by rw [h, hnew]⟩, fun hn => absurd hr hn,
        fun x hx hxp => by rw [h, hframe x hx hxp]⟩
    · intro m'' h
      exact ⟨.inr ⟨ino, by rw [h, hnew]⟩, fun x hx hxp => by rw [h, hframe x hx hxp]⟩
  · refine (hfail e m').mono ?_ ?_
    · rintro r m'' ⟨hr, ho⟩
      rw [others_eq_iff] at ho
      exact ⟨fun hv => absurd hv hr, fun _ => by rw [ho p hp, h],
        fun x hx _ => by rw [ho x hx, h]⟩
    · intro m'' ho
      rw [others_eq_iff] at ho
      exact ⟨.inl (by rw [ho p hp, h]), fun x hx _ => by rw [ho x hx, h]⟩

end Posix
