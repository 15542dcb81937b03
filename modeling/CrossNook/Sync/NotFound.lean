import CrossNook.Sync.ParseProgress
import CrossNook.Sync.SyncOnce

/-!
# The answer for an unknown document

The protocol answers a GET for an unknown document with the empty object. The parser tells it by
the set of the fields that it has seen, so that an object of unknown members alone passes for it.

## Main definitions

* `Kosync.TellsUnknown body`: the parser and the synchronization treat `body` as the protocol asks
* `Kosync.OnlyUnknown`, `Kosync.Oversized`: the bodies that they do not treat so

## Main results

* `Kosync.tellsUnknown_iff`: these are all
-/

namespace Kosync

open Binary64 (nearest)
open Bytes (ascii)
open Crash
open Json (Member FlatObjectText Ws ws_nil)

/-! ## Texts of the empty object -/

/-- In a text of the empty object a closing brace follows the opening one. -/
theorem brace_of_empty {t : List UInt8} (h : FlatObjectText t []) :
    ∃ r, readerTake t 0x7b = some r ∧ (readerSpace r).head? = some 0x7d := by
  cases h with
  | @empty w₀ w₁ w₂ h₀ h₁ h₂ =>
    refine ⟨_, (readerTake_iff (by decide)).mpr ⟨w₀, h₀, rfl⟩, ?_⟩
    rw [readerSpace_append h₁ (by simp)]
    rfl
  | members h₀ h₁ ht => cases ht

/-- A text of the empty object is no text of another one. -/
theorem eq_nil_of_empty {t : List UInt8} {ms : List Member} (h : FlatObjectText t [])
    (h' : FlatObjectText t ms) : ms = [] := by
  obtain ⟨r, hr, hhead⟩ := brace_of_empty h
  cases h' with
  | empty => rfl
  | @members w₀ w₁ t ms h₀ h₁ ht =>
    -- a member begins with a quote
    obtain ⟨w, q, hw, rfl, -⟩ := ht.exists_quote
    rw [(readerTake_iff (by decide)).mpr ⟨w₀, h₀, rfl⟩] at hr
    obtain rfl := Option.some.inj hr
    rw [List.append_assoc, readerSpace_append hw (by simp)] at hhead
    cases hhead

/-- The empty object is parsed whatever the allocator answers. -/
theorem parseObject_empty (alloc : ℕ → Bool) {json : List UInt8} (hlen : json.length ≤ jsonMax)
    (h : FlatObjectText json []) : parseObject nearest alloc json = .ok emptyObject := by
  have hpos : json ≠ [] := by
    cases h <;> simp
  unfold parseObject
  rw [if_neg (by simpa [hpos] using hlen)]
  cases h with
  | @empty w₀ w₁ w₂ hw₀ hw₁ hw₂ =>
    have hspace : readerSpace (w₁ ++ 0x7d :: w₂) = 0x7d :: w₂ := readerSpace_append hw₁ (by simp)
    have hend : readerSpace w₂ = [] := by simpa using readerSpace_append hw₂ Bytes.stops_nil
    rw [(readerTake_iff (by decide)).mpr ⟨w₀, hw₀, rfl⟩]
    simp [hspace, hend]
  | members h₀ h₁ ht => cases ht

/-! ## What the parser reports as not found -/

/-- The members can be read and none is known. -/
def Unknowns (ms : List Member) : Prop := ∀ m ∈ ms, MemberOk nearest m ∧ ∀ f : Field, m.1 ≠ f.key

theorem fields_eq_empty_iff {ms : List Member} {out : ParsedObject}
    (h : Reads nearest emptyObject ms out) : out.fields = ∅ ↔ ∀ m ∈ ms, ∀ f : Field, m.1 ≠ f.key := by
  rw [Finset.eq_empty_iff_forall_notMem]
  constructor
  · rintro hempty ⟨key, v⟩ hm f rfl
    exact hempty f (h.mem_fields.mpr (.inr (mem_keys.mpr ⟨v, hm⟩)))
  · intro hnone f hf
    rcases h.mem_fields.mp hf with hf | hf
    · simp [emptyObject] at hf
    · obtain ⟨v, hv⟩ := mem_keys.mp hf
      exact hnone _ hv f rfl

theorem parseProgress_notFound {alloc : ℕ → Bool} {json : List UInt8} {old : Progress}
    (h : (parseProgress nearest alloc json old).1 = .notFound) :
    json.length ≤ jsonMax ∧ ∃ ms, FlatObjectText json ms ∧ Unknowns ms := by
  unfold parseProgress at h
  cases hparse : parseObject nearest alloc json with
  | error e =>
    rw [hparse] at h
    obtain rfl | ⟨rfl, -⟩ := parseObject_error hparse <;> cases h
  | ok out =>
    rw [hparse] at h
    dsimp only at h
    obtain ⟨hlen, ms, htext, hreads⟩ := parseObject_sound hparse
    split_ifs at h with hempty
    have hnone := (fields_eq_empty_iff hreads).mp hempty
    exact ⟨hlen, ms, htext, fun m hm => ⟨hreads.memberOk m hm, hnone m hm⟩⟩

theorem parseProgress_of_unknowns {json : List UInt8} {ms : List Member} (old : Progress)
    (hlen : json.length ≤ jsonMax) (htext : FlatObjectText json ms) (h : Unknowns ms) :
    (parseProgress nearest (fun _ => true) json old).1 = .notFound := by
  have hcount : ∀ f : Field, (keys ms).count f.key ≤ 1 := by
    intro f
    rw [List.count_eq_zero.mpr]
    · exact zero_le_one
    · intro hmem
      obtain ⟨v, hv⟩ := mem_keys.mp hmem
      exact (h _ hv).2 f rfl
  obtain ⟨out, hreads⟩ := exists_reads (fun m hm => (h m hm).1) hcount emptyObject
    (by simp [emptyObject])
  have hempty := (fields_eq_empty_iff hreads).mpr fun m hm => (h m hm).2
  unfold parseProgress
  rw [parseObject_complete hlen htext hreads]
  dsimp only
  rw [if_pos hempty]

/-- What is accepted has all fields that are required. -/
theorem parseProgress_complete_of_ok {alloc : ℕ → Bool} {json : List UInt8} {old : Progress}
    (h : (parseProgress nearest alloc json old).1 = .ok) :
    ∃ ms, FlatObjectText json ms ∧ ∀ f ∈ required, f.key ∈ keys ms := by
  unfold parseProgress at h
  cases hparse : parseObject nearest alloc json with
  | error e =>
    rw [hparse] at h
    obtain rfl | ⟨rfl, -⟩ := parseObject_error hparse <;> cases h
  | ok out =>
    rw [hparse] at h
    dsimp only at h
    obtain ⟨-, ms, htext, hreads⟩ := parseObject_sound hparse
    split_ifs at h with hempty hrequired
    simp only [not_or, not_not] at hrequired
    refine ⟨ms, htext, fun f hf => ?_⟩
    rcases hreads.mem_fields.mp (hrequired.1 hf) with hf | hf
    · simp [emptyObject] at hf
    · exact hf

/-! ## What the protocol asks for -/

/-- A synchronization whose GET was answered with `body` and that made a PUT was told that the
document is unknown. -/
def UploadsOn (body : List UInt8) (w w' : World) : Prop :=
  ∀ events, w'.events = w.events ++ events →
    (∃ request outcome, .exchange request outcome ∈ events ∧ request.method = .get ∧
      responseBody outcome = body) →
    (∃ request outcome, .exchange request outcome ∈ events ∧ request.method = .put) →
      FlatObjectText body []

/-- The body is treated as the protocol asks: the empty object, and nothing else, says that the
document is unknown; what is neither empty nor complete is rejected; and a record is uploaded on
the strength of the empty object alone. -/
structure TellsUnknown (body : List UInt8) : Prop where
  notFound : ∀ alloc old,
    (parseProgress nearest alloc body old).1 = .notFound ↔ FlatObjectText body []
  rejected : ∀ alloc old, ¬ FlatObjectText body [] →
    (∀ ms, FlatObjectText body ms → ¬ ∀ f ∈ required, f.key ∈ keys ms) →
      (parseProgress nearest alloc body old).1 = .badProtocol ∨
        ParseError alloc (parseProgress nearest alloc body old).1
  upload : ∀ config w, Ends (syncOnce config) w (fun _ w' => UploadsOn body w w') (UploadsOn body w)

/-- An object with members, all of which are unknown and can be skipped. -/
def OnlyUnknown (body : List UInt8) : Prop :=
  body.length ≤ jsonMax ∧ ∃ ms, ms ≠ [] ∧ FlatObjectText body ms ∧ Unknowns ms

/-- The empty object, with more white space than the parser takes. -/
def Oversized (body : List UInt8) : Prop := FlatObjectText body [] ∧ jsonMax < body.length

/-- The GET of a synchronization that made a PUT found nothing. -/
theorem Trace.answered {identity : BookIdentity} {documentId : List UInt8} {events : List Event}
    (h : Trace identity documentId events)
    (hput : ∃ request outcome, .exchange request outcome ∈ events ∧ request.method = .put)
    {request : NetSimple.Request} {outcome : NetSimple.Outcome}
    (hmem : .exchange request outcome ∈ events) (hget : request.method = .get) :
    ∃ alloc, (getAnswer alloc documentId progressInit outcome).1 = .notFound := by
  obtain ⟨request', outcome', hmem', hput⟩ := hput
  cases h with
  | reads h => exact absurd hput (h.not_put hmem')
  | saved h =>
    rcases List.mem_append.mp hmem' with hmem' | hmem'
    · exact absurd hput (h.not_put hmem')
    · simp at hmem'
  | put h hload hgot hanswer hp outcome₁ =>
    rcases List.mem_append.mp hmem with hmem | hmem
    · exact hanswer request outcome hmem
    · obtain ⟨rfl, rfl⟩ : request = _ ∧ outcome = _ := by simpa using hmem
      rw [hp.1] at hget
      cases hget

theorem getAnswer_notFound {alloc : ℕ → Bool} {documentId : List UInt8} {progress : Progress}
    {outcome : NetSimple.Outcome}
    (h : (getAnswer alloc documentId progress outcome).1 = .notFound) :
    (parseProgress nearest alloc (responseBody outcome) progress).1 = .notFound := by
  by_cases hok : (mapResponse outcome).1 = .ok
  · rw [getAnswer_of_ok hok] at h
    dsimp only at h
    split_ifs at h
    exact h
  · rw [getAnswer_of_failure hok] at h
    unfold mapResponse at h
    dsimp only at h
    split_ifs at h

theorem tellsUnknown_of {body : List UInt8} (hsize : ¬ Oversized body)
    (hknown : ¬ OnlyUnknown body) : TellsUnknown body := by
  -- `notFound` is answered for the empty object only
  have hnotFound : ∀ alloc old,
      (parseProgress nearest alloc body old).1 = .notFound ↔ FlatObjectText body [] := by
    intro alloc old
    constructor
    · intro h
      obtain ⟨hlen, ms, htext, hms⟩ := parseProgress_notFound h
      by_cases hnil : ms = []
      · exact hnil ▸ htext
      · exact absurd ⟨hlen, ms, hnil, htext, hms⟩ hknown
    · intro htext
      have hlen : body.length ≤ jsonMax := not_lt.mp fun h => hsize ⟨htext, h⟩
      unfold parseProgress
      rw [parseObject_empty alloc hlen htext]
      rfl
  refine ⟨hnotFound, fun alloc old hempty hincomplete => ?_, fun config w => ?_⟩
  · rcases parseProgress_cases alloc body old with h | h | h | h
    · obtain ⟨ms, htext, hcomplete⟩ := parseProgress_complete_of_ok h
      exact absurd hcomplete (hincomplete ms htext)
    · exact absurd ((hnotFound alloc old).mp h) hempty
    · exact .inl h
    · exact .inr h
  · -- an upload behind the GET needs the answer `notFound`
    have huploads : ∀ w', (Read 0 [] w w' ∨ ∃ identity documentId,
        BookIdentity.fromPath config.documentPath = some identity ∧
          Traced identity documentId w w') → UploadsOn body w w' := by
      rintro w' h events he ⟨request, outcome, hmem, hget, rfl⟩ hput
      rcases h with h | ⟨identity, documentId, -, events', he', ht, -⟩
      · obtain rfl : events = [] := List.append_cancel_left (he.symm.trans h.2.1)
        cases hmem
      · obtain rfl := List.append_cancel_left (he.symm.trans he')
        obtain ⟨alloc, hanswer⟩ := ht.answered hput hmem hget
        exact (hnotFound alloc progressInit).mp (getAnswer_notFound hanswer)
    exact (ends_syncOnce config w).mono (fun _ w' h => huploads w' h.2) huploads

/-- **Which bodies the client treats as the protocol asks.** -/
theorem tellsUnknown_iff (body : List UInt8) :
    TellsUnknown body ↔ ¬ Oversized body ∧ ¬ OnlyUnknown body := by
  refine ⟨fun h => ⟨?_, ?_⟩, fun h => tellsUnknown_of h.1 h.2⟩
  · rintro ⟨htext, hlen⟩
    have := (h.notFound (fun _ => true) progressInit).mpr htext
    exact absurd (parseProgress_notFound this).1 (not_le.mpr hlen)
  · rintro ⟨hlen, ms, hnil, htext, hms⟩
    have hempty := (h.notFound _ progressInit).mp (parseProgress_of_unknowns _ hlen htext hms)
    exact hnil (eq_nil_of_empty hempty htext)

/-- A service that reports an error with status 200 passes for one that knows no record. -/
theorem tellsUnknown_error : ¬ TellsUnknown (ascii "\x7b\"error\":\"unavailable\"\x7d") := by
  intro h
  have hnotFound : (parseProgress nearest (fun _ => true) (ascii "\x7b\"error\":\"unavailable\"\x7d")
    progressInit).1 = .notFound := by decide +kernel
  obtain ⟨r, hr, hhead⟩ := brace_of_empty ((h.notFound _ _).mp hnotFound)
  have htake : readerTake (ascii "\x7b\"error\":\"unavailable\"\x7d") 0x7b =
    some (ascii "\"error\":\"unavailable\"\x7d") := by decide +kernel
  obtain rfl := Option.some.inj (hr.symm.trans htake)
  exact absurd hhead (by decide +kernel)

end Kosync
