import CrossNook.Net.DnsSimple
import CrossNook.Text.Loop

/-!
# Names in a packet

`decode_name` (`net/dnssimple.c`) reads a name from a packet: labels one after another, with
pointers that go on reading at another place of the packet, forward, backward or to themselves.
A read outside the packet or its set of seen targets and a write outside the output are outcomes
of their own here, as is a loop that does not end; none of them is ever reached.

## Main definitions

* `DnsSimple.decodeName`: `decode_name`
* `DnsSimple.Expands packet p labels hops`: the name at `p` has these labels, behind `hops` pointers
* `DnsSimple.Stands packet p next`: the name at `p`, as it stands there, ends before `next`
* `DnsSimple.NameAt packet p name hops`: `name` is what a reader makes of the name at `p`

## Main results

* `DnsSimple.decodeName_iff`: a name is decoded exactly when it expands within the limits
* `DnsSimple.decodeName_total`: decoding is total and in bounds
-/

namespace DnsSimple

open Loop (Turn)

/-- `CN_DNS_NAME_WIRE_MAX`. -/
def nameWireMax : ℕ := 255

/-- `CN_DNS_POINTER_HOPS_MAX`. -/
def pointerHopsMax : ℕ := 16

/-! ## The decoder -/

/-- What `decode_name` reports: the text, whether all labels are labels of a host name, and the
offset after the name. -/
structure Name where
  text : List UInt8
  hostnameSyntax : Bool
  next : ℕ
  deriving DecidableEq, Repr

/-- How `decode_name` ends. An access outside an array and a loop without end are told apart from
the names that it refuses. -/
inductive Verdict
  | malformed
  | name (decoded : Name)
  | outOfBounds
  | unfinished
  deriving DecidableEq, Repr

/-- The variables of `decode_name`: `text` is the used part of `out`, `next` is set by the first
jump, and bit `pointer % 8` of byte `pointer / 8` of `seen` is entry `pointer` here. -/
structure Decoding where
  position : ℕ
  text : List UInt8
  expanded : ℕ
  hops : ℕ
  hostnameSyntax : Bool
  next : Option ℕ
  seen : List Bool
  deriving DecidableEq, Repr

/-- The variables at the start. -/
def Decoding.start (offset : ℕ) : Decoding :=
  { position := offset
    text := []
    expanded := 1
    hops := 0
    hostnameSyntax := true
    next := none
    seen := List.replicate packetMax false }

/-- The bytes from `p` to `p + n`, if they lie inside the packet. -/
def bytesAt (packet : List UInt8) (p n : ℕ) : Option (List UInt8) :=
  if p + n ≤ packet.length then some ((packet.drop p).take n) else none

/-- The target of a pointer. -/
def pointerTarget (high low : UInt8) : ℕ := ((high &&& 0x3f).toNat <<< 8) ||| low.toNat

/-- A pointer in the loop of `decode_name`. -/
def decodePointer (packet : List UInt8) (s : Decoding) (high : UInt8) :
    Turn Decoding (ℕ × Verdict) :=
  if packet.length ≤ s.position + 1 ∨ pointerHopsMax ≤ s.hops then .done (s.hops, .malformed)
  else
    match packet[s.position + 1]? with
    | none => .done (s.hops, .outOfBounds)
    | some low =>
      if packet.length ≤ pointerTarget high low then .done (s.hops, .malformed)
      else
        match s.seen[pointerTarget high low]? with
        | none => .done (s.hops, .outOfBounds)
        -- a place that was visited before is a loop
        | some true => .done (s.hops, .malformed)
        | some false =>
          .next { s with
            seen := s.seen.set (pointerTarget high low) true
            -- the first pointer tells where the name ends as it stands
            next := some (s.next.getD (s.position + 2))
            position := pointerTarget high low
            hops := s.hops + 1 }

/-- The end of a name. -/
def decodeEnd (s : Decoding) : ℕ × Verdict :=
  let text := if s.hostnameSyntax then s.text else []
  if hostMax + 1 ≤ text.length then (s.hops, .outOfBounds)
  else (s.hops, .name ⟨text, s.hostnameSyntax, s.next.getD (s.position + 1)⟩)

/-- The text with one more label, as far as `out` goes. -/
def appendName (text label : List UInt8) : Except Verdict (List UInt8) :=
  if text ≠ [] ∧ hostMax ≤ text.length then .error .malformed
  else
    let text := if text ≠ [] then text ++ [0x2e] else text
    if hostMax - text.length < label.length then .error .malformed
    else if hostMax + 1 < text.length + label.length then .error .outOfBounds
    else .ok (text ++ label)

/-- A label in the loop of `decode_name`. -/
def decodeLabel (packet : List UInt8) (s : Decoding) (length : ℕ) : Turn Decoding (ℕ × Verdict) :=
  if 63 < length ∨ packet.length < s.position + 1 + length ∨ 255 - length - 1 < s.expanded then
    .done (s.hops, .malformed)
  else
    match bytesAt packet (s.position + 1) length with
    | none => .done (s.hops, .outOfBounds)
    | some label =>
      let s := { s with position := s.position + 1 + length, expanded := s.expanded + (length + 1) }
      if s.hostnameSyntax then
        if labelOk label then
          match appendName s.text label with
          | .error verdict => .done (s.hops, verdict)
          | .ok text => .next { s with text := text }
        else .next { s with hostnameSyntax := false, text := [] }
      else .next s

/-- One turn of the loop of `decode_name`. -/
def decodeTurn (packet : List UInt8) (s : Decoding) : Turn Decoding (ℕ × Verdict) :=
  if packet.length ≤ s.position then .done (s.hops, .malformed)
  else
    match packet[s.position]? with
    | none => .done (s.hops, .outOfBounds)
    | some length =>
      if length &&& 0xc0 = 0xc0 then decodePointer packet s length
      else if length &&& 0xc0 ≠ 0 then .done (s.hops, .malformed)
      else if length = 0 then .done (decodeEnd s)
      else decodeLabel packet s length.toNat

/-- What every turn shrinks: the pointers that are left, and then the rest of the packet. -/
def decodeMeasure (packet : List UInt8) (s : Decoding) : ℕ :=
  (pointerHopsMax - s.hops) * (packet.length + 1) + (packet.length - s.position)

/-- `decode_name`, with the number of pointers it followed. -/
def decodeName (packet : List UInt8) (offset : ℕ) : ℕ × Verdict :=
  if packet.length ≤ offset then (0, .malformed)
  else Loop.loop (decodeTurn packet) (0, .unfinished) (decodeMeasure packet) (.start offset)

/-! ## Names, by what stands in the packet -/

/-- The labels of the name at an offset, and the number of pointers on the way to its end. -/
inductive Expands (packet : List UInt8) : ℕ → List (List UInt8) → ℕ → Prop
  | root {p : ℕ} (hroot : packet[p]? = some 0) : Expands packet p [] 0
  | pointer {p : ℕ} {high low : UInt8} {labels : List (List UInt8)} {hops : ℕ}
      (hhigh : packet[p]? = some high) (htag : high &&& 0xc0 = 0xc0)
      (hlow : packet[p + 1]? = some low)
      (htarget : Expands packet (pointerTarget high low) labels hops) :
      Expands packet p labels (hops + 1)
  | label {p : ℕ} {length : UInt8} {label : List UInt8} {labels : List (List UInt8)} {hops : ℕ}
      (hlength : packet[p]? = some length) (htag : length &&& 0xc0 = 0) (hpos : length ≠ 0)
      (hlabel : bytesAt packet (p + 1) length.toNat = some label)
      (hrest : Expands packet (p + 1 + length.toNat) labels hops) :
      Expands packet p (label :: labels) hops

/-- The end of the name at an offset as it stands there: a pointer ends it. -/
inductive Stands (packet : List UInt8) : ℕ → ℕ → Prop
  | root {p : ℕ} (hroot : packet[p]? = some 0) : Stands packet p (p + 1)
  | pointer {p : ℕ} {high low : UInt8} (hhigh : packet[p]? = some high)
      (htag : high &&& 0xc0 = 0xc0) (hlow : packet[p + 1]? = some low) : Stands packet p (p + 2)
  | label {p next : ℕ} {length : UInt8} {label : List UInt8} (hlength : packet[p]? = some length)
      (htag : length &&& 0xc0 = 0) (hpos : length ≠ 0)
      (hlabel : bytesAt packet (p + 1) length.toNat = some label)
      (hrest : Stands packet (p + 1 + length.toNat) next) : Stands packet p next

/-- The bytes that labels take on the wire, without the root. -/
def labelBytes (labels : List (List UInt8)) : ℕ := (labels.map fun label => label.length + 1).sum

/-- The bytes that a name takes on the wire when it is expanded. -/
def wireLength (labels : List (List UInt8)) : ℕ := labelBytes labels + 1

/-- Labels with dots between them. -/
def dotted (labels : List (List UInt8)) : List UInt8 := [0x2e].intercalate labels

theorem toNat_le_of_tag {b : UInt8} (h : b &&& 0xc0 = 0) : b.toNat ≤ 63 := by
  have hall : ∀ n : Fin 256, UInt8.ofFin n &&& 0xc0 = 0 → n.val ≤ 63 := by decide +kernel
  exact hall b.toFin h

theorem length_of_bytesAt {packet label : List UInt8} {p n : ℕ}
    (h : bytesAt packet p n = some label) : label.length = n ∧ p + n ≤ packet.length := by
  unfold bytesAt at h
  split_ifs at h with hle
  obtain rfl := Option.some.inj h
  rw [List.length_take, List.length_drop]
  omega

namespace Expands

variable {packet : List UInt8} {p : ℕ}

/-- The packet determines the name. -/
theorem unique {labels labels' : List (List UInt8)} {hops hops' : ℕ}
    (h : Expands packet p labels hops) (h' : Expands packet p labels' hops') :
    labels = labels' ∧ hops = hops' := by
  -- the byte at the place tells which of the three steps is taken there
  induction h generalizing labels' hops' with
  | root hroot =>
    cases h' with
    | root => exact ⟨rfl, rfl⟩
    | pointer hhigh htag => simp_all
    | label hlength _ hpos => simp_all
  | pointer hhigh htag hlow _ ih =>
    cases h' with
    | root hroot =>
      obtain rfl := Option.some.inj (hroot.symm.trans hhigh)
      exact absurd htag (by decide)
    | pointer hhigh' _ hlow' htarget =>
      obtain rfl := Option.some.inj (hhigh.symm.trans hhigh')
      obtain rfl := Option.some.inj (hlow.symm.trans hlow')
      obtain ⟨rfl, rfl⟩ := ih htarget
      exact ⟨rfl, rfl⟩
    | label hlength htag' => simp_all
  | label hlength htag hpos hlabel _ ih =>
    cases h' with
    | root hroot => simp_all
    | pointer hhigh htag' => simp_all
    | label hlength' _ _ hlabel' hrest =>
      obtain rfl := Option.some.inj (hlength.symm.trans hlength')
      obtain rfl := Option.some.inj (hlabel.symm.trans hlabel')
      obtain ⟨rfl, rfl⟩ := ih hrest
      exact ⟨rfl, rfl⟩

theorem lt_length {labels : List (List UInt8)} {hops : ℕ} (h : Expands packet p labels hops) :
    p < packet.length := by
  cases h with
  | root hroot => exact (List.getElem?_eq_some_iff.mp hroot).1
  | pointer hhigh => exact (List.getElem?_eq_some_iff.mp hhigh).1
  | label hlength => exact (List.getElem?_eq_some_iff.mp hlength).1

/-- Every label has a length byte that is not zero. -/
theorem label_ne_nil {labels : List (List UInt8)} {hops : ℕ} (h : Expands packet p labels hops) :
    ∀ label ∈ labels, label ≠ [] := by
  induction h with
  | root => simp
  | pointer _ _ _ _ ih => exact ih
  | label hlength _ hpos hlabel _ ih =>
    refine List.forall_mem_cons.mpr ⟨?_, ih⟩
    rintro rfl
    have := (length_of_bytesAt hlabel).1
    exact hpos (UInt8.toNat_inj.mp this.symm)

end Expands

/-- The packet determines the end of a name. -/
theorem Stands.unique {packet : List UInt8} {p next next' : ℕ} (h : Stands packet p next)
    (h' : Stands packet p next') : next = next' := by
  induction h generalizing next' with
  | root hroot =>
    cases h' with
    | root => rfl
    | pointer hhigh htag =>
      obtain rfl := Option.some.inj (hroot.symm.trans hhigh)
      exact absurd htag (by decide)
    | label hlength _ hpos => exact absurd (Option.some.inj (hroot.symm.trans hlength)).symm hpos
  | pointer hhigh htag =>
    cases h' with
    | root hroot =>
      obtain rfl := Option.some.inj (hroot.symm.trans hhigh)
      exact absurd htag (by decide)
    | pointer => rfl
    | label hlength htag' => simp_all
  | label hlength htag hpos _ _ ih =>
    cases h' with
    | root hroot => exact absurd (Option.some.inj (hroot.symm.trans hlength)).symm hpos
    | pointer hhigh htag' => simp_all
    | label hlength' _ _ _ hrest =>
      obtain rfl := Option.some.inj (hlength.symm.trans hlength')
      exact ih hrest

theorem Stands.le {packet : List UInt8} {p next : ℕ} (h : Stands packet p next) :
    p < next ∧ next ≤ packet.length := by
  induction h with
  | root hroot =>
    have := (List.getElem?_eq_some_iff.mp hroot).1
    omega
  | pointer _ _ hlow =>
    have := (List.getElem?_eq_some_iff.mp hlow).1
    omega
  | label _ _ _ _ _ ih => omega

/-! ## Turns -/

/-- The text with one more label. -/
def joined (text label : List UInt8) : List UInt8 :=
  (if text ≠ [] then text ++ [0x2e] else text) ++ label

/-- The variables after a label. -/
def Decoding.after (s : Decoding) (label : List UInt8) : Decoding :=
  { s with
    position := s.position + 1 + label.length
    expanded := s.expanded + (label.length + 1)
    hostnameSyntax := s.hostnameSyntax && labelOk label
    text := if s.hostnameSyntax && labelOk label then joined s.text label else [] }

/-- The variables after a pointer. -/
def Decoding.follow (s : Decoding) (target : ℕ) : Decoding :=
  { s with
    seen := s.seen.set target true
    next := some (s.next.getD (s.position + 2))
    position := target
    hops := s.hops + 1 }

/-- What every turn keeps: the text stays two bytes behind the name on the wire, which has a root
and a length byte for the first label. -/
structure Decoding.Good (s : Decoding) : Prop where
  hops : s.hops ≤ pointerHopsMax
  seen : s.seen.length = packetMax
  expanded_pos : 1 ≤ s.expanded
  expanded_le : s.expanded ≤ nameWireMax
  text : s.text = [] ∨ s.text.length + 2 ≤ s.expanded
  invalid : s.hostnameSyntax = false → s.text = []

namespace Decoding.Good

variable {s : Decoding}

theorem start (offset : ℕ) : (Decoding.start offset).Good :=
  ⟨Nat.zero_le _, by simp [Decoding.start], by simp [Decoding.start],
    by simp [Decoding.start, nameWireMax], .inl rfl, fun _ => rfl⟩

theorem length_text (h : s.Good) : s.text.length ≤ hostMax := by
  have hle := h.expanded_le
  rw [nameWireMax] at hle
  rw [hostMax]
  rcases h.text with (h0 | hlen)
  · simp [h0]
  · omega

/-- Every target inside a packet has a bit in the set. -/
theorem exists_bit (h : s.Good) {packet : List UInt8} (hp : packet.length ≤ packetMax) {t : ℕ}
    (ht : t < packet.length) : ∃ bit, s.seen[t]? = some bit :=
  ⟨_, List.getElem?_eq_getElem (by rw [h.seen]; omega)⟩

theorem follow (h : s.Good) (hhops : s.hops < pointerHopsMax) (target : ℕ) :
    (s.follow target).Good :=
  { h with
    hops := hhops
    seen := by rw [Decoding.follow, List.length_set, h.seen] }

theorem after (h : s.Good) {label : List UInt8}
    (hfits : s.expanded + (label.length + 1) ≤ nameWireMax) : (s.after label).Good := by
  refine ⟨h.hops, h.seen, ?_, hfits, ?_, ?_⟩
  · exact h.expanded_pos.trans (Nat.le_add_right _ _)
  · have hpos := h.expanded_pos
    dsimp only [Decoding.after]
    split_ifs with hvalid
    · right
      unfold joined
      split_ifs with htext
      · have hlen := h.text.resolve_left htext
        rw [List.length_append, List.length_append, List.length_singleton]
        omega
      · rw [not_not.mp htext, List.nil_append]
        omega
    · exact .inl rfl
  · intro hinvalid
    dsimp only [Decoding.after] at hinvalid ⊢
    rw [hinvalid]
    rfl

end Decoding.Good

section Turns

variable {packet : List UInt8} {s : Decoding}

theorem decodeTurn_root (hs : s.Good) (hroot : packet[s.position]? = some 0) :
    decodeTurn packet s =
      .done (s.hops, .name ⟨s.text, s.hostnameSyntax, s.next.getD (s.position + 1)⟩) := by
  have hlt := (List.getElem?_eq_some_iff.mp hroot).1
  have htext : (if s.hostnameSyntax then s.text else []) = s.text := by
    split_ifs with hvalid
    · rfl
    · exact (hs.invalid (by simpa using hvalid)).symm
  have hlen := hs.length_text
  rw [decodeTurn, if_neg (by omega), hroot]
  dsimp only
  rw [if_neg (by decide), if_neg (by decide), if_pos rfl, decodeEnd, htext,
    if_neg (by omega)]

theorem decodeTurn_pointer {high low : UInt8} (hhigh : packet[s.position]? = some high)
    (htag : high &&& 0xc0 = 0xc0) (hlow : packet[s.position + 1]? = some low)
    (hhops : s.hops < pointerHopsMax) (htarget : pointerTarget high low < packet.length)
    (hseen : s.seen[pointerTarget high low]? = some false) :
    decodeTurn packet s = .next (s.follow (pointerTarget high low)) := by
  have hlt := (List.getElem?_eq_some_iff.mp hlow).1
  rw [decodeTurn, if_neg (by omega), hhigh]
  dsimp only
  rw [if_pos htag, decodePointer, if_neg (by omega), hlow]
  dsimp only
  rw [if_neg (by omega), hseen]
  rfl

/-- A label that fits is appended: neither limit of the output is ever the tighter one. -/
theorem decodeTurn_label (hs : s.Good) {length : UInt8} {label : List UInt8}
    (hlength : packet[s.position]? = some length) (htag : length &&& 0xc0 = 0)
    (hpos : length ≠ 0) (hlabel : bytesAt packet (s.position + 1) length.toNat = some label)
    (hfits : s.expanded + (length.toNat + 1) ≤ nameWireMax) :
    decodeTurn packet s = .next (s.after label) := by
  have hlt := (List.getElem?_eq_some_iff.mp hlength).1
  obtain ⟨hlen, hle⟩ := length_of_bytesAt hlabel
  have h63 := toNat_le_of_tag htag
  have hwire : nameWireMax = 255 := rfl
  rw [decodeTurn, if_neg (by omega), hlength]
  dsimp only
  rw [if_neg (by rw [htag]; decide), if_neg (not_not.mpr htag), if_neg hpos, decodeLabel,
    if_neg (by omega), hlabel]
  dsimp only
  -- a name that has lost the syntax of a host keeps no text
  cases hsyntax : s.hostnameSyntax with
  | false =>
    rw [if_neg (by simp), Decoding.after, hlen, hs.invalid hsyntax, hsyntax]
    rfl
  | true =>
    rw [if_pos rfl]
    cases hvalid : labelOk label with
    | false =>
      rw [if_neg (by simp), Decoding.after, hlen, hsyntax, hvalid]
      rfl
    | true =>
      -- each byte of the text stands for one on the wire, so 253 is not passed before 255
      have happend : appendName s.text label = .ok (joined s.text label) := by
        have hhost : hostMax = 253 := rfl
        unfold appendName joined
        rcases hs.text with (h0 | htext)
        · simp only [h0, ne_eq, not_true_eq_false, false_and, if_false, List.length_nil]
          rw [if_neg (by omega), if_neg (by omega)]
        · rw [if_neg (by omega)]
          split_ifs with hne
          · simp only [List.length_append, List.length_singleton]
            rw [if_neg (by omega), if_neg (by omega)]
          · dsimp only
            rw [if_neg (by omega), if_neg (by omega)]
      rw [if_pos rfl, happend, Decoding.after, hlen, hsyntax, hvalid]
      rfl

end Turns

/-! ## The loop -/

theorem shrinks_decodeTurn (packet : List UInt8) :
    Loop.Shrinks (decodeTurn packet) (decodeMeasure packet) := by
  have hlater : ∀ {s s' : Decoding}, s'.hops = s.hops → s.position < s'.position →
      s.position < packet.length → decodeMeasure packet s' < decodeMeasure packet s := by
    intro s s' hhops hlt hle
    unfold decodeMeasure
    rw [hhops]
    omega
  intro s s' h
  unfold decodeTurn at h
  split_ifs at h with hend
  cases hbyte : packet[s.position]? with
  | none => simp [hbyte] at h
  | some length =>
    simp only [hbyte] at h
    split_ifs at h with htag
    · -- one pointer fewer is left, which outweighs every position
      unfold decodePointer at h
      split_ifs at h with hbad
      simp only [not_or] at hbad
      cases hlow : packet[s.position + 1]? with
      | none => simp [hlow] at h
      | some low =>
        simp only [hlow] at h
        split_ifs at h with htarget
        cases hseen : s.seen[pointerTarget length low]? with
        | none => simp [hseen] at h
        | some seen =>
          cases seen with
          | true => simp [hseen] at h
          | false =>
            simp only [hseen, Turn.next.injEq] at h
            subst h
            have hstep : pointerHopsMax - s.hops = pointerHopsMax - (s.hops + 1) + 1 := by omega
            dsimp only [decodeMeasure]
            rw [hstep, Nat.add_mul, Nat.one_mul]
            omega
    · -- a label is left behind
      unfold decodeLabel at h
      split_ifs at h with hbad
      cases hlabel : bytesAt packet (s.position + 1) length.toNat with
      | none => simp [hlabel] at h
      | some label =>
        simp only [hlabel] at h
        split_ifs at h with hsyntax hvalid
        · cases happend : appendName s.text label with
          | error verdict => simp [happend] at h
          | ok text =>
            simp only [happend, Turn.next.injEq] at h
            subst h
            exact hlater rfl (by dsimp only; omega) (by omega)
        all_goals
          simp only [Turn.next.injEq] at h
          subst h
          exact hlater rfl (by dsimp only; omega) (by omega)

/-- The text after more labels. -/
def joinedAll (text : List UInt8) (labels : List (List UInt8)) : List UInt8 :=
  labels.foldl joined text

/-- What the loop makes of a name from the variables `s` on. -/
structure Reads (packet : List UInt8) (s : Decoding) (labels : List (List UInt8)) (hops : ℕ)
    (r : ℕ × Verdict) (name : Name) : Prop where
  verdict : r = (s.hops + hops, .name name)
  hops_le : s.hops + hops ≤ pointerHopsMax
  wire : s.expanded + labelBytes labels ≤ nameWireMax
  hostnameSyntax : name.hostnameSyntax = (s.hostnameSyntax && labels.all labelOk)
  text : name.text = if name.hostnameSyntax then joinedAll s.text labels else []
  jumped : ∀ next, s.next = some next → name.next = next
  stands : s.next = none → Stands packet s.position name.next

section Loop

variable {packet : List UInt8} {s : Decoding}

/-- **What a turn can do**: refuse, end the name, follow a pointer to a new place, or read a
label. -/
theorem decodeTurn_cases (hp : packet.length ≤ packetMax) (hs : s.Good) :
    decodeTurn packet s = .done (s.hops, .malformed) ∨
    packet[s.position]? = some 0 ∨
    (∃ high low, packet[s.position]? = some high ∧ high &&& 0xc0 = 0xc0 ∧
      packet[s.position + 1]? = some low ∧ s.hops < pointerHopsMax ∧
      pointerTarget high low < packet.length ∧ s.seen[pointerTarget high low]? = some false) ∨
    ∃ length label, packet[s.position]? = some length ∧ length &&& 0xc0 = 0 ∧ length ≠ 0 ∧
      bytesAt packet (s.position + 1) length.toNat = some label ∧
      s.expanded + (length.toNat + 1) ≤ nameWireMax := by
  by_cases hend : packet.length ≤ s.position
  · exact .inl (by rw [decodeTurn, if_pos hend])
  have hbyte : packet[s.position]? = some packet[s.position] := List.getElem?_eq_getElem (by omega)
  generalize packet[s.position] = length at hbyte
  have hturn : decodeTurn packet s =
      if length &&& 0xc0 = 0xc0 then decodePointer packet s length
      else if length &&& 0xc0 ≠ 0 then .done (s.hops, .malformed)
      else if length = 0 then .done (decodeEnd s)
      else decodeLabel packet s length.toNat := by
    rw [decodeTurn, if_neg hend, hbyte]
  rw [hturn]
  -- by the two high bits of the byte
  by_cases htag : length &&& 0xc0 = 0xc0
  · rw [if_pos htag, decodePointer]
    by_cases hbad : packet.length ≤ s.position + 1 ∨ pointerHopsMax ≤ s.hops
    · exact .inl (by rw [if_pos hbad])
    have hlow : packet[s.position + 1]? = some packet[s.position + 1] :=
      List.getElem?_eq_getElem (by omega)
    generalize packet[s.position + 1] = low at hlow
    rw [if_neg hbad, hlow]
    dsimp only
    by_cases htarget : packet.length ≤ pointerTarget length low
    · exact .inl (by rw [if_pos htarget])
    obtain ⟨bit, hseen⟩ := hs.exists_bit hp (show pointerTarget length low < packet.length by omega)
    cases bit with
    | true => exact .inl (by rw [if_neg htarget, hseen])
    | false => exact .inr (.inr (.inl ⟨length, low, hbyte, htag, rfl, by omega, by omega, hseen⟩))
  · rw [if_neg htag]
    by_cases hzero : length &&& 0xc0 = 0
    · rw [if_neg (not_not.mpr hzero)]
      by_cases hroot : length = 0
      · exact .inr (.inl (by rw [hbyte, hroot]))
      · rw [if_neg hroot, decodeLabel]
        have hwire : nameWireMax = 255 := rfl
        by_cases hbad : 63 < length.toNat ∨ packet.length < s.position + 1 + length.toNat ∨
            255 - length.toNat - 1 < s.expanded
        · exact .inl (by rw [if_pos hbad])
        · have hlabel : bytesAt packet (s.position + 1) length.toNat =
              some ((packet.drop (s.position + 1)).take length.toNat) := if_pos (by omega)
          exact .inr (.inr (.inr ⟨length, _, hbyte, hzero, hroot, hlabel, by omega⟩))
    · exact .inl (by rw [if_pos hzero])

theorem labelBytes_cons (label : List UInt8) (labels : List (List UInt8)) :
    labelBytes (label :: labels) = label.length + 1 + labelBytes labels := rfl

theorem Reads.root (hs : s.Good) (hroot : packet[s.position]? = some 0) :
    Reads packet s [] 0 (s.hops, .name ⟨s.text, s.hostnameSyntax, s.next.getD (s.position + 1)⟩)
      ⟨s.text, s.hostnameSyntax, s.next.getD (s.position + 1)⟩ where
  verdict := rfl
  hops_le := hs.hops
  wire := hs.expanded_le
  hostnameSyntax := by rw [List.all_nil, Bool.and_true]
  text := by
    dsimp only [joinedAll, List.foldl_nil]
    split_ifs with hvalid
    · rfl
    · exact hs.invalid (by simpa using hvalid)
  jumped := fun next hnext => by rw [hnext, Option.getD_some]
  stands := fun hnext => by
    rw [hnext, Option.getD_none]
    exact .root hroot

theorem Reads.pointer {high low : UInt8} (hhigh : packet[s.position]? = some high)
    (htag : high &&& 0xc0 = 0xc0) (hlow : packet[s.position + 1]? = some low)
    {labels : List (List UInt8)} {hops : ℕ} {r : ℕ × Verdict} {name : Name}
    (h : Reads packet (s.follow (pointerTarget high low)) labels hops r name) :
    Reads packet s labels (hops + 1) r name where
  verdict := by
    rw [h.verdict, Decoding.follow]
    dsimp only
    rw [Nat.add_right_comm, Nat.add_assoc]
  hops_le := by
    have hle := h.hops_le
    dsimp only [Decoding.follow] at hle
    omega
  wire := h.wire
  hostnameSyntax := h.hostnameSyntax
  text := h.text
  jumped := fun next hnext => by
    refine h.jumped next ?_
    rw [Decoding.follow, hnext, Option.getD_some]
  stands := fun hnext => by
    have hname := h.jumped (s.position + 2) (by rw [Decoding.follow, hnext, Option.getD_none])
    rw [hname]
    exact .pointer hhigh htag hlow

theorem Reads.label {length : UInt8} {label : List UInt8}
    (hlength : packet[s.position]? = some length) (htag : length &&& 0xc0 = 0) (hpos : length ≠ 0)
    (hlabel : bytesAt packet (s.position + 1) length.toNat = some label)
    {labels : List (List UInt8)} {hops : ℕ} {r : ℕ × Verdict} {name : Name}
    (h : Reads packet (s.after label) labels hops r name) :
    Reads packet s (label :: labels) hops r name where
  verdict := h.verdict
  hops_le := h.hops_le
  wire := by
    have hle := h.wire
    dsimp only [Decoding.after] at hle
    rw [labelBytes_cons]
    omega
  hostnameSyntax := by
    rw [h.hostnameSyntax, List.all_cons, ← Bool.and_assoc]
    rfl
  text := by
    rw [h.text]
    by_cases hvalid : name.hostnameSyntax = true
    · have hlabels := h.hostnameSyntax
      rw [hvalid, eq_comm, Bool.and_eq_true] at hlabels
      dsimp only [Decoding.after] at hlabels ⊢
      rw [if_pos hvalid, if_pos hvalid, if_pos hlabels.1, joinedAll, joinedAll, List.foldl_cons]
    · rw [if_neg hvalid, if_neg hvalid]
  jumped := h.jumped
  stands := fun hnext => by
    have hrest := h.stands hnext
    have hlen := (length_of_bytesAt hlabel).1
    dsimp only [Decoding.after] at hrest
    rw [hlen] at hrest
    exact .label hlength htag hpos hlabel hrest

/-- The loop on the variables `s`. -/
def decodeFrom (packet : List UInt8) (s : Decoding) : ℕ × Verdict :=
  Loop.loop (decodeTurn packet) (0, .unfinished) (decodeMeasure packet) s

/-- **What the loop reads is a name**, and otherwise it refuses. -/
theorem decodeFrom_sound (hp : packet.length ≤ packetMax) (s : Decoding) (hs : s.Good) :
    (decodeFrom packet s).1 ≤ pointerHopsMax ∧
      ((decodeFrom packet s).2 = .malformed ∨ ∃ labels hops name,
        Expands packet s.position labels hops ∧
          Reads packet s labels hops (decodeFrom packet s) name) := by
  refine Loop.loop_induction (shrinks_decodeTurn packet) (P := fun s r => s.Good →
    r.1 ≤ pointerHopsMax ∧ (r.2 = .malformed ∨ ∃ labels hops name,
      Expands packet s.position labels hops ∧ Reads packet s labels hops r name)) ?_ ?_ s hs
  · -- turns that end the loop: a refusal or the root
    intro s r hdone hs
    rcases decodeTurn_cases hp hs with (hbad | hroot | ⟨high, low, hhigh, htag, hlow, hhops, htarget,
      hseen⟩ | ⟨length, label, hlength, htag, hpos, hlabel, hfits⟩)
    · obtain rfl : (s.hops, Verdict.malformed) = r := by simpa [hdone] using hbad.symm
      exact ⟨hs.hops, .inl rfl⟩
    · rw [decodeTurn_root hs hroot, Turn.done.injEq] at hdone
      subst hdone
      exact ⟨hs.hops, .inr ⟨[], 0, _, .root hroot, .root hs hroot⟩⟩
    · rw [decodeTurn_pointer hhigh htag hlow hhops htarget hseen] at hdone
      exact absurd hdone (by simp)
    · rw [decodeTurn_label hs hlength htag hpos hlabel hfits] at hdone
      exact absurd hdone (by simp)
  · -- turns that go on: behind a pointer or behind a label
    intro s s' r hnext ih hs
    rcases decodeTurn_cases hp hs with (hbad | hroot | ⟨high, low, hhigh, htag, hlow, hhops, htarget,
      hseen⟩ | ⟨length, label, hlength, htag, hpos, hlabel, hfits⟩)
    · rw [hbad] at hnext
      exact absurd hnext (by simp)
    · rw [decodeTurn_root hs hroot] at hnext
      exact absurd hnext (by simp)
    · rw [decodeTurn_pointer hhigh htag hlow hhops htarget hseen, Turn.next.injEq] at hnext
      subst hnext
      obtain ⟨hle, hr⟩ := ih (hs.follow hhops _)
      refine ⟨hle, hr.imp_right ?_⟩
      rintro ⟨labels, hops, name, hexpands, hreads⟩
      exact ⟨labels, hops + 1, name, .pointer hhigh htag hlow hexpands,
        hreads.pointer hhigh htag hlow⟩
    · rw [decodeTurn_label hs hlength htag hpos hlabel hfits, Turn.next.injEq] at hnext
      subst hnext
      have hlen := (length_of_bytesAt hlabel).1
      obtain ⟨hle, hr⟩ := ih (hs.after (by rw [hlen]; exact hfits))
      refine ⟨hle, hr.imp_right ?_⟩
      rintro ⟨labels, hops, name, hexpands, hreads⟩
      dsimp only [Decoding.after] at hexpands
      rw [hlen] at hexpands
      exact ⟨label :: labels, hops, name, .label hlength htag hpos hlabel hexpands,
        hreads.label hlength htag hpos hlabel⟩

/-- **A name within the limits is read.** No pointer on the way to its end leads to a place that an
earlier one led to: from there the end would be farther away. -/
theorem decodeFrom_complete (hp : packet.length ≤ packetMax) {p : ℕ} {labels : List (List UInt8)}
    {hops : ℕ} (h : Expands packet p labels hops) (s : Decoding) (hs : s.Good)
    (hposition : s.position = p) (hhops : s.hops + hops ≤ pointerHopsMax)
    (hwire : s.expanded + labelBytes labels ≤ nameWireMax)
    (hseen : ∀ t, s.seen[t]? = some true → ∃ labels' hops', Expands packet t labels' hops' ∧
      hops ≤ hops') :
    ∃ name, Reads packet s labels hops (decodeFrom packet s) name := by
  -- the induction is on the expansion: one turn of the loop for each of its steps
  induction h generalizing s with
  | root hroot =>
    subst hposition
    rw [decodeFrom, Loop.loop_of_done (shrinks_decodeTurn packet) (decodeTurn_root hs hroot)]
    exact ⟨_, .root hs hroot⟩
  | @pointer p high low labels hops hhigh htag hlow htarget ih =>
    subst hposition
    have hlt := htarget.lt_length
    -- a place that was visited would be farther from the end than this one
    have hbit : s.seen[pointerTarget high low]? = some false := by
      obtain ⟨bit, hget⟩ := hs.exists_bit hp hlt
      cases bit with
      | false => exact hget
      | true =>
        obtain ⟨labels', hops', hexpands, hle⟩ := hseen _ hget
        have heq := (htarget.unique hexpands).2
        omega
    have hturn := decodeTurn_pointer hhigh htag hlow (by omega) hlt hbit
    obtain ⟨name, hreads⟩ := ih (s.follow (pointerTarget high low)) (hs.follow (by omega) _) rfl
      (by dsimp only [Decoding.follow]; omega) hwire (by
        intro t ht
        dsimp only [Decoding.follow] at ht
        rw [List.getElem?_set] at ht
        split_ifs at ht with htt
        · subst htt
          exact ⟨labels, hops, htarget, le_rfl⟩
        · obtain ⟨labels', hops', hexpands, hle⟩ := hseen t ht
          exact ⟨labels', hops', hexpands, by omega⟩)
    refine ⟨name, ?_⟩
    rw [decodeFrom, Loop.loop_of_next (shrinks_decodeTurn packet) hturn]
    exact hreads.pointer hhigh htag hlow
  | @label p length label labels hops hlength htag hpos hlabel hrest ih =>
    subst hposition
    have hlen := (length_of_bytesAt hlabel).1
    rw [labelBytes_cons] at hwire
    have hturn := decodeTurn_label hs hlength htag hpos hlabel (by omega)
    obtain ⟨name, hreads⟩ := ih (s.after label) (hs.after (by omega))
      (by dsimp only [Decoding.after]; rw [hlen]) hhops
      (by dsimp only [Decoding.after]; omega) hseen
    refine ⟨name, ?_⟩
    rw [decodeFrom, Loop.loop_of_next (shrinks_decodeTurn packet) hturn]
    exact hreads.label hlength htag hpos hlabel

end Loop

/-! ## Decoded names -/

theorem dotted_cons (label : List UInt8) (labels : List (List UInt8)) :
    dotted (label :: labels) = label ++ labels.flatMap (0x2e :: ·) := by
  unfold dotted
  induction labels generalizing label with
  | nil => simp
  | cons label' labels ih =>
    rw [List.intercalate_cons_cons, ih, List.flatMap_cons]
    simp

theorem joinedAll_of_ne_nil {text : List UInt8} (h : text ≠ []) (labels : List (List UInt8)) :
    joinedAll text labels = text ++ labels.flatMap (0x2e :: ·) := by
  induction labels generalizing text with
  | nil => simp [joinedAll]
  | cons label labels ih =>
    have hjoined : joined text label = text ++ [0x2e] ++ label := by rw [joined, if_pos h]
    have hne : joined text label ≠ [] := by simp [hjoined]
    have := ih hne
    rw [joinedAll] at this
    rw [joinedAll, List.foldl_cons, this, hjoined, List.flatMap_cons]
    simp

/-- Labels that are joined one by one are labels with dots between them. -/
theorem joinedAll_nil {labels : List (List UInt8)} (h : ∀ label ∈ labels, label ≠ []) :
    joinedAll [] labels = dotted labels := by
  cases labels with
  | nil => rfl
  | cons label labels =>
    have hfirst : joined [] label = label := rfl
    have hrest := joinedAll_of_ne_nil (h label (by simp)) labels
    rw [dotted_cons, ← hrest, joinedAll, List.foldl_cons, hfirst]
    rfl

theorem dotted_ne_nil {labels : List (List UInt8)} (hne : labels ≠ [])
    (h : ∀ label ∈ labels, label ≠ []) : dotted labels ≠ [] := by
  obtain ⟨label, labels, rfl⟩ := List.exists_cons_of_ne_nil hne
  rw [dotted_cons]
  simp [h label (by simp)]

/-- What a reader makes of the name at `p` behind `hops` pointers: the labels with dots between
them, if all of them are labels of a host name, and the offset after the name as it stands at `p`. -/
structure NameAt (packet : List UInt8) (p : ℕ) (labels : List (List UInt8)) (hops : ℕ)
    (name : Name) : Prop where
  expands : Expands packet p labels hops
  hops_le : hops ≤ pointerHopsMax
  wire_le : wireLength labels ≤ nameWireMax
  hostnameSyntax : name.hostnameSyntax = labels.all labelOk
  text : name.text = if labels.all labelOk then dotted labels else []
  stands : Stands packet p name.next

/-- The packet determines what a reader makes of a name. -/
theorem NameAt.unique {packet : List UInt8} {p hops hops' : ℕ} {labels labels' : List (List UInt8)}
    {name name' : Name} (h : NameAt packet p labels hops name)
    (h' : NameAt packet p labels' hops' name') : labels = labels' ∧ hops = hops' ∧ name = name' := by
  obtain ⟨rfl, rfl⟩ := h.expands.unique h'.expands
  have htext := h.text.trans h'.text.symm
  have hsyntax := h.hostnameSyntax.trans h'.hostnameSyntax.symm
  have hnext := h.stands.unique h'.stands
  obtain ⟨text, hostnameSyntax, next⟩ := name
  obtain ⟨text', hostnameSyntax', next'⟩ := name'
  dsimp only at htext hsyntax hnext
  subst htext hsyntax hnext
  exact ⟨rfl, rfl, rfl⟩

theorem NameAt.length_text {packet : List UInt8} {p hops : ℕ} {labels : List (List UInt8)}
    {name : Name} (h : NameAt packet p labels hops name) : name.text.length ≤ hostMax := by
  have hwire := h.wire_le
  rw [h.text]
  split_ifs
  · cases labels with
    | nil => simp [dotted]
    | cons label labels =>
      have hsum : (labels.flatMap (0x2e :: ·)).length = labelBytes labels := by
        rw [List.length_flatMap]
        rfl
      rw [wireLength, labelBytes_cons, nameWireMax] at hwire
      rw [dotted_cons, List.length_append, hsum, hostMax]
      omega
  · simp

/-- The text is the labels with dots between them exactly when all of them are labels of a host
name. -/
theorem NameAt.text_iff {packet : List UInt8} {p hops : ℕ} {labels : List (List UInt8)}
    {name : Name} (h : NameAt packet p labels hops name) :
    name.text = dotted labels ↔ ∀ label ∈ labels, IsLabel label := by
  have hall : labels.all labelOk = true ↔ ∀ label ∈ labels, IsLabel label := by
    rw [List.all_eq_true]
    exact forall₂_congr fun label _ => labelOk_iff
  rw [← hall, h.text]
  constructor
  · intro htext
    by_contra hvalid
    rw [if_neg hvalid] at htext
    have hne : labels ≠ [] := by
      rintro rfl
      exact hvalid rfl
    exact dotted_ne_nil hne h.expands.label_ne_nil htext.symm
  · intro hvalid
    rw [if_pos hvalid]

/-- **A name is decoded exactly when it expands within the limits**, to what a reader makes of
it. -/
theorem decodeName_iff {packet : List UInt8} (hp : packet.length ≤ packetMax) (offset hops : ℕ)
    (name : Name) :
    decodeName packet offset = (hops, .name name) ↔
      ∃ labels, NameAt packet offset labels hops name := by
  have hgood := Decoding.Good.start offset
  have hreads : ∀ {labels hops' r} {name' : Name}, Expands packet offset labels hops' →
      Reads packet (Decoding.start offset) labels hops' r name' →
      r = (hops', .name name') ∧ NameAt packet offset labels hops' name' := by
    intro labels hops' r name' hexpands h
    have hhops : 0 + hops' = hops' := Nat.zero_add hops'
    have hsyntax : name'.hostnameSyntax = labels.all labelOk :=
      h.hostnameSyntax.trans (Bool.true_and _)
    refine ⟨?_, hexpands, ?_, ?_, hsyntax, ?_, h.stands rfl⟩
    · rw [h.verdict, Decoding.start, hhops]
    · rw [← hhops]
      exact h.hops_le
    · rw [wireLength, Nat.add_comm]
      exact h.wire
    · rw [h.text, hsyntax]
      exact if_congr Iff.rfl (joinedAll_nil hexpands.label_ne_nil) rfl
  constructor
  · -- what the loop reads from a place that it has not left is an expansion of it
    intro h
    unfold decodeName at h
    split_ifs at h with hoff
    · simp at h
    · obtain ⟨-, hbad | ⟨labels, hops', name', hexpands, hr⟩⟩ :=
        decodeFrom_sound hp (Decoding.start offset) hgood
      · rw [decodeFrom, h] at hbad
        simp at hbad
      · obtain ⟨hverdict, hname⟩ := hreads hexpands hr
        rw [decodeFrom, h, Prod.mk.injEq, Verdict.name.injEq] at hverdict
        obtain ⟨rfl, rfl⟩ := hverdict
        exact ⟨labels, hname⟩
  · -- and an expansion within the limits is read to its end
    rintro ⟨labels, h⟩
    obtain ⟨name', hr⟩ := decodeFrom_complete hp h.expands (Decoding.start offset) hgood rfl
      (by rw [Decoding.start, Nat.zero_add]; exact h.hops_le)
      (by rw [Decoding.start, Nat.add_comm]; exact h.wire_le)
      (by
        intro t ht
        have hfalse := List.eq_of_mem_replicate (List.mem_of_getElem? ht)
        exact absurd hfalse (by simp))
    obtain ⟨hverdict, hname⟩ := hreads h.expands hr
    have hlt := h.expands.lt_length
    rw [decodeName, if_neg (by omega)]
    obtain ⟨-, -, rfl⟩ := h.unique hname
    exact hverdict

/-- A packet, which has at most 512 bytes. -/
abbrev Packet := { packet : List UInt8 // packet.length ≤ packetMax }

/-- How decoding a name ends: after at most 16 pointers, inside every array, and with a name that
ends inside the packet or with no name. -/
structure Decoded (packet : List UInt8) (offset : ℕ) (r : ℕ × Verdict) : Prop where
  hops_le : r.1 ≤ pointerHopsMax
  inBounds : r.2 ≠ .outOfBounds
  finishes : r.2 ≠ .unfinished
  name : ∀ name, r.2 = .name name → ∃ labels, NameAt packet offset labels r.1 name ∧
    name.text.length ≤ hostMax ∧ (name.text = dotted labels ↔ ∀ label ∈ labels, IsLabel label) ∧
    name.next ≤ packet.length

/-- **Decoding a name is total and in bounds**, for every packet and every offset. -/
theorem decodeName_total (packet : Packet) (offset : ℕ) :
    Decoded packet.val offset (decodeName packet.val offset) := by
  have hname : ∀ hops name, decodeName packet.val offset = (hops, .name name) →
      ∃ labels, NameAt packet.val offset labels hops name ∧ name.text.length ≤ hostMax ∧
        (name.text = dotted labels ↔ ∀ label ∈ labels, IsLabel label) ∧
        name.next ≤ packet.val.length := by
    intro hops name h
    obtain ⟨labels, hat⟩ := (decodeName_iff packet.property offset hops name).mp h
    exact ⟨labels, hat, hat.length_text, hat.text_iff, hat.stands.le.2⟩
  unfold decodeName at hname ⊢
  by_cases hoff : packet.val.length ≤ offset
  · rw [if_pos hoff]
    exact ⟨Nat.zero_le _, by simp, by simp, by simp⟩
  · rw [if_neg hoff] at hname ⊢
    obtain ⟨hle, hsound⟩ :=
      decodeFrom_sound packet.property (Decoding.start offset) (.start offset)
    rw [decodeFrom] at hle hsound
    generalize Loop.loop (decodeTurn packet.val) (0, .unfinished) (decodeMeasure packet.val)
      (Decoding.start offset) = r at hname hle hsound
    obtain ⟨hops, verdict⟩ := r
    rcases hsound with (hbad | ⟨labels, hops', name, -, hr⟩)
    · dsimp only at hbad
      subst hbad
      exact ⟨hle, by simp, by simp, by simp⟩
    · have hverdict := congrArg Prod.snd hr.verdict
      dsimp only at hverdict
      subst hverdict
      refine ⟨hle, by simp, by simp, fun name' h => ?_⟩
      exact hname hops name' (by rw [← h])

end DnsSimple
