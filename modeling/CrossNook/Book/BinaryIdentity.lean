import CrossNook.Book.KoreaderIdentity
import CrossNook.Book.Streaming
import CrossNook.Sync.Progress

/-!
# What the binary identity is computed from

The identity of a readable file is the digest of the windows that begin inside the file. The loop
stops at the first window that is empty; as the offsets increase, no later window begins inside
the file either.

## Main definitions

* `KoreaderIdentity.windows`: the bytes that the identity is the digest of
* `KoreaderIdentity.Readable`: a path at which a regular file can be read

## Main results

* `KoreaderIdentity.ends_sampleFile`: what the loop over the offsets feeds to the digest
* `KoreaderIdentity.koreader_binary`: the identity of a readable file
-/

namespace KoreaderIdentity

open Crash Posix

/-- The offsets at which a window may begin. -/
def windowOffsets : List ℕ := 0 :: (List.range 11).map fun k => 1024 * 4 ^ k

/-- The bytes of the window at `offset`. -/
def window (content : List UInt8) (offset : ℕ) : List UInt8 :=
  (content.take (min (offset + 1024) content.length)).drop offset

/-- The windows that begin inside the file. -/
def windows (content : List UInt8) : List UInt8 :=
  (windowOffsets.filter (· < content.length)).flatMap (window content)

/-- The identity of a file with the given content. -/
noncomputable def identity (content : List UInt8) : List UInt8 := Md5.hex (Rfc1321.digest (windows content))

/-- A regular file with the given content can be reached by the path. -/
structure Readable (path content : List UInt8) (m : Machine) : Prop where
  nonempty : path ≠ []
  bounded : path.length ≤ pathMaxBytes
  file : ∃ fd ino, resolve m.files 40 path = .ok fd ∧ m.files fd = some ⟨ino, .regular content⟩

/-! ## Windows -/

theorem sampleOffsets_eq : sampleOffsets = windowOffsets := by
  rfl

theorem sampleOffsets_increase : sampleOffsets.Pairwise (· < ·) := by
  decide

/-- What `fread` returns at an offset. -/
theorem window_eq (content : List UInt8) (offset : ℕ) :
    window content offset = (content.drop offset).take sampleBytes := by
  rw [window, ← List.take_eq_take_min, List.take_drop]
  rfl

theorem window_eq_nil {content : List UInt8} {offset : ℕ} :
    window content offset = [] ↔ content.length ≤ offset := by
  rw [window_eq, List.take_eq_nil_iff, List.drop_eq_nil_iff]
  exact or_iff_right (by decide)

/-- Files of one size that agree on the windows have one identity. -/
theorem windows_congr {content other : List UInt8} (hsize : other.length = content.length)
    (h : ∀ offset ∈ windowOffsets, offset < content.length →
      window other offset = window content offset) : windows other = windows content := by
  rw [windows, windows, hsize]
  refine List.flatMap_congr fun offset hoffset => ?_
  rw [List.mem_filter, decide_eq_true_iff] at hoffset
  exact h offset hoffset.1 hoffset.2

theorem isDocumentId_identity (content : List UInt8) : Kosync.IsDocumentId (identity content) := by
  have hlength : (Rfc1321.digest (windows content)).length = 16 := by
    have hfed : Md5.Fed (Md5.update Md5.init (windows content)) (windows content) :=
      Md5.fed_init.update _
    rw [← hfed.final_eq, Md5.length_final]
  refine ⟨?_, fun c hc => Md5.mem_hex hc⟩
  rw [identity, Md5.length_hex, hlength]
  rfl

/-! ## The loop -/

section Run

variable {H : Prop} {fd : Path} {ino : ℕ} {content : List UInt8}

/-- **What the loop feeds to the digest**: the windows of the offsets that lie inside the file. -/
theorem ends_sampleFile {offsets : List ℕ} (hincrease : offsets.Pairwise (· < ·)) {m : Machine}
    (hm : H → Healthy m) (hfile : m.files fd = some ⟨ino, .regular content⟩)
    {context : Md5.Context} {fed : List UInt8} (hfed : Md5.Fed context fed) :
    Ends (sampleFile fd context offsets) m
      (fun r m' => m'.files = m.files ∧ (H → Healthy m') ∧ (H → r ≠ none) ∧
        ∀ context', r = some context' → Md5.Fed context'
          (fed ++ (offsets.filter (· < content.length)).flatMap (window content)))
      fun _ => True := by
  induction offsets generalizing m context fed with
  | nil =>
    refine ⟨rfl, hm, fun _ => Option.some_ne_none _, ?_⟩
    rintro context' ⟨⟩
    rw [List.filter_nil, List.flatMap_nil, List.append_nil]
    exact hfed
  | cons offset offsets ih =>
    obtain ⟨hlater, hincrease'⟩ := List.pairwise_cons.mp hincrease
    -- an exit with an error is taken only where a call fails on its own
    have hexit : ∀ m' : Machine, m'.files = m.files → (H → Healthy m') → ¬ H →
        Ends (do let _ ← close; return none) m'
          (fun r m' => m'.files = m.files ∧ (H → Healthy m') ∧ (H → r ≠ none) ∧
            ∀ context', r = some context' → Md5.Fed context' (fed ++
              ((offset :: offsets).filter (· < content.length)).flatMap (window content)))
          fun _ => True := by
      intro m' hm' hhealthy hH
      refine (ends_bind _).mpr ((show Ends close m' _ _ from ends_query hhealthy).mono ?_
        fun _ _ => trivial)
      rintro _ m'' ⟨hm'', hhealthy', -⟩
      exact ⟨hm''.trans hm', hhealthy', fun h => absurd h hH,
        fun _ h => absurd h.symm (Option.some_ne_none _)⟩
    -- one turn: a seek, a read, and an empty window ends the loop
    rw [sampleFile]
    refine (ends_bind _).mpr ((show Ends fseek m _ _ from ends_query hm).mono ?_
      fun _ _ => trivial)
    rintro _ m₁ ⟨hm₁, hhealthy₁, rfl | ⟨hH, f, rfl⟩⟩
    swap
    · exact hexit m₁ hm₁ hhealthy₁ hH
    refine (ends_bind _).mpr ((show Ends (fread fd offset sampleBytes) m₁ _ _ from
      ends_query hhealthy₁).mono ?_ fun _ _ => trivial)
    rintro _ m₂ ⟨hm₂, hhealthy₂, rfl | ⟨hH, f, rfl⟩⟩
    swap
    · exact hexit m₂ (hm₂.trans hm₁) hhealthy₂ hH
    have hfile₂ : m₂.files fd = some ⟨ino, .regular content⟩ := by rw [hm₂, hm₁, hfile]
    simp only [hm₁, hfile, Option.map_some, ← window_eq, ends_ite, window_eq_nil]
    split_ifs with hoffset
    · -- no later window begins inside the file
      have hnone : (offset :: offsets).filter (· < content.length) = [] := by
        refine List.filter_eq_nil_iff.mpr fun later hmem => ?_
        rw [decide_eq_true_iff]
        rcases List.mem_cons.mp hmem with rfl | hmem
        · omega
        · have := hlater later hmem
          omega
      refine ⟨hm₂.trans hm₁, hhealthy₂, fun _ => Option.some_ne_none _, ?_⟩
      rintro context' ⟨⟩
      rw [hnone, List.flatMap_nil, List.append_nil]
      exact hfed
    · have hfirst : (offset :: offsets).filter (· < content.length) =
          offset :: offsets.filter (· < content.length) :=
        List.filter_cons_of_pos (by rw [decide_eq_true_iff]; omega)
      refine (ih hincrease' hhealthy₂ hfile₂ (hfed.update (window content offset))).mono ?_
        fun _ _ => trivial
      rintro r m₃ ⟨hm₃, hhealthy₃, hsome, hfed₃⟩
      refine ⟨hm₃.trans (hm₂.trans hm₁), hhealthy₃, hsome, fun context' hr => ?_⟩
      rw [hfirst, List.flatMap_cons, ← List.append_assoc]
      exact hfed₃ context' hr

theorem finishes_sampleFile (fd : Path) (context : Md5.Context) (offsets : List ℕ) :
    Finishes (3 * offsets.length) (sampleFile fd context offsets) := by
  induction offsets generalizing context with
  | nil => exact Finishes.pure _
  | cons offset offsets ih =>
    have hexit : Finishes 1 (do let _ ← close; return (none : Option Md5.Context)) :=
      Finishes.bind (k := 0) (finishes_query _) fun _ => Finishes.pure _
    rw [sampleFile]
    refine Finishes.mono (j := 1 + (1 + (3 * offsets.length + 1)))
      (Finishes.bind (finishes_query _) fun r => ?_) (by rw [List.length_cons]; omega)
    cases r with
    | error e => exact hexit.mono (by omega)
    | ok _ =>
      refine Finishes.bind (finishes_query _) fun r => ?_
      cases r with
      | error e => exact hexit.mono (by omega)
      | ok sample => exact Finishes.ite (Finishes.pure _) ((ih _).mono (by omega))

/-- **A run on a readable file.** -/
theorem ends_koreaderBinary {path : List UInt8} {m : Machine} (hm : H → Healthy m)
    (hreadable : Readable path content m) :
    Ends (koreaderBinary path) m
      (fun r _ => (r.1 = .ok → r.2 = identity content) ∧ (H → r.1 = .ok)) fun _ => True := by
  obtain ⟨hne, hbounded, fd, ino, hresolve, hfile⟩ := hreadable
  have hpath : ¬ (pathMaxBytes < path.length ∨ path = []) := by
    rintro (hlong | hempty)
    · exact absurd hbounded (not_le.mpr hlong)
    · exact hne hempty
  rw [koreaderBinary, if_neg hpath]
  refine (ends_bind _).mpr ((show Ends (openRead path) m _ _ from ends_query hm).mono ?_
    fun _ _ => trivial)
  rintro _ m₁ ⟨hm₁, hhealthy₁, rfl | ⟨hH, f, rfl⟩⟩
  swap
  · exact ⟨fun h => absurd h (by decide), fun h => absurd h hH⟩
  rw [hresolve]
  have hfile₁ : m₁.files fd = some ⟨ino, .regular content⟩ := by rw [hm₁, hfile]
  refine (ends_bind _).mpr ((ends_sampleFile sampleOffsets_increase hhealthy₁ hfile₁
    Md5.fed_init).mono ?_ fun _ _ => trivial)
  rintro (_ | context) m₂ ⟨-, hhealthy₂, hsome, hfed⟩
  · exact ⟨fun h => absurd h (by decide), fun h => absurd rfl (hsome h)⟩
  refine (ends_bind _).mpr ((show Ends close m₂ _ _ from ends_query hhealthy₂).mono ?_
    fun _ _ => trivial)
  rintro _ m₃ ⟨-, -, rfl | ⟨hH, f, rfl⟩⟩
  · refine ⟨fun _ => ?_, fun _ => rfl⟩
    change Md5.hex (Md5.final context) = identity content
    rw [(hfed context rfl).final_eq, sampleOffsets_eq, List.nil_append]
    rfl
  · exact ⟨fun h => absurd h (by decide), fun h => absurd h hH⟩

theorem finishes_koreaderBinary (path : List UInt8) : Finishes 38 (koreaderBinary path) := by
  unfold koreaderBinary
  refine Finishes.ite (Finishes.pure _) (Finishes.bind (j := 1) (k := 37) (finishes_query _)
    fun r => ?_)
  cases r with
  | error e => exact Finishes.pure _
  | ok fd =>
    refine Finishes.bind (j := 36) (k := 1) (finishes_sampleFile fd _ sampleOffsets) fun r => ?_
    cases r with
    | none => exact Finishes.pure _
    | some context =>
      refine Finishes.bind (j := 1) (k := 0) (finishes_query _) fun r => ?_
      cases r <;> exact Finishes.pure _

end Run

/-- **The identity of a readable file** is the digest of the windows that begin inside it: every
run that reports an identity reports this one, and a run in which no call fails reports it. Files
of one size that agree on the windows have one identity, and it is accepted wherever a document
is named. -/
theorem koreader_binary (content : List UInt8) :
    (∀ path m, Readable path content m →
      (∀ r m', koreaderBinary path m = (some r, m') → r.1 = .ok → r.2 = identity content) ∧
      (Healthy m → 38 ≤ m.script.length →
        ∃ m', koreaderBinary path m = (some (.ok, identity content), m'))) ∧
    (∀ other : List UInt8, other.length = content.length →
      (∀ offset ∈ windowOffsets, offset < content.length →
        window other offset = window content offset) → identity other = identity content) ∧
    documentIdText (identity content) = some (identity content) ∧
    Kosync.documentIdOk (identity content) = true := by
  have hid := isDocumentId_identity content
  refine ⟨fun path m hreadable => ⟨?_, fun hm hlength => ?_⟩, ?_, if_pos hid,
    Kosync.documentIdOk_iff.mpr hid⟩
  · intro r m' hrun
    exact ((ends_koreaderBinary (H := False) False.elim hreadable).of_eq hrun).1
  · obtain ⟨⟨result, id⟩, m', hrun, -, -⟩ := finishes_koreaderBinary path m hm hlength
    obtain ⟨hvalue, hok⟩ := (ends_koreaderBinary (H := True) (fun _ => hm) hreadable).of_eq hrun
    obtain rfl : result = .ok := hok trivial
    obtain rfl : id = identity content := hvalue rfl
    exact ⟨m', hrun⟩
  · intro other hsize hwindows
    rw [identity, identity, windows_congr hsize hwindows]

end KoreaderIdentity
