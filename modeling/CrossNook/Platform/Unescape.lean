import CrossNook.Platform.StorageVerify
import CrossNook.Text.Loop

/-!
# Escapes in the mount table

The kernel writes spaces, tabs, line breaks and backslashes of a mount point as a backslash and
three octal digits. `unescape` (`platform/storage_verify.c`) resolves these escapes in the buffer
that holds the token, with one pointer that reads and one that writes behind it.

## Main definitions

* `StorageVerify.unescapeInPlace`: `unescape`, on the buffer
* `StorageVerify.Piece`: a plain byte or an escape; a well-formed token is a sequence of them
* `StorageVerify.Rewrites`: an accepted token has been replaced by the values of its pieces

## Main results

* `StorageVerify.unescapeInPlace_eq`: the buffer ends up as `unescapeBytes` says
* `StorageVerify.rewrites_iff`: the values are those of the pieces exactly where none exceeds a
  byte
-/

namespace StorageVerify

/-! ## The buffer -/

/-- `unescape`: the turn of the loop at the indices `read` and `write`. -/
def unescapeTurn :
    List UInt8 × ℕ × ℕ → Loop.Turn (List UInt8 × ℕ × ℕ) (Option (List UInt8))
  | (token, read, write) =>
    let c := token.getD read 0
    if c = 0 then .done (some (token.set write 0))
    else if c = 0x5c then
      if ((token.drop read).takeWhile fun b => b ≠ 0).length < 4 then .done none
      else
        match octalValue (token.getD (read + 1) 0), octalValue (token.getD (read + 2) 0),
            octalValue (token.getD (read + 3) 0) with
        | some x, some y, some z =>
          if x * 64 + y * 8 + z = 0 then .done none
          else .next (token.set write (UInt8.ofNat (x * 64 + y * 8 + z)), read + 4, write + 1)
        | _, _, _ => .done none
    else .next (token.set write c, read + 1, write + 1)

/-- The bytes that are left to read. -/
def unread : List UInt8 × ℕ × ℕ → ℕ
  | (token, read, _) => token.length - read

/-- `unescape` on the buffer that starts with the token. -/
def unescapeInPlace (token : List UInt8) : Option (List UInt8) :=
  Loop.loop unescapeTurn none unread (token, 0, 0)

theorem unescapeTurn_shrinks : Loop.Shrinks unescapeTurn unread := by
  rintro ⟨token, read, write⟩ ⟨token', read', write'⟩ h
  have hread : token.getD read 0 ≠ 0 → read < token.length := by
    intro hc
    by_contra hle
    rw [List.getD_eq_getElem?_getD, List.getElem?_eq_none (not_lt.mp hle)] at hc
    exact hc rfl
  simp only [unescapeTurn] at h
  split_ifs at h with h0 hslash hshort
  · have := hread h0
    split at h
    · split_ifs at h
      simp only [Loop.Turn.next.injEq, Prod.mk.injEq] at h
      obtain ⟨rfl, rfl, rfl⟩ := h
      simp only [unread, List.length_set]
      omega
    · cases h
  · have := hread h0
    simp only [Loop.Turn.next.injEq, Prod.mk.injEq] at h
    obtain ⟨rfl, rfl, rfl⟩ := h
    simp only [unread, List.length_set]
    omega

/-- What the loop leaves in a buffer with the token `text` ahead of `read`. -/
def Resolved (buffer : List UInt8) (write : ℕ) (text : List UInt8) : List UInt8 :=
  buffer.take write ++ text ++ 0 :: buffer.drop (write + text.length + 1)

section Buffer

variable {buffer : List UInt8} {read write : ℕ} {b : UInt8} {text : List UInt8}

theorem getD_of_drop {c : UInt8} {tail : List UInt8} (h : buffer.drop read = c :: tail) :
    buffer.getD read 0 = c := by
  rw [List.getD_eq_getElem?_getD, ← List.head?_drop, h]
  rfl

theorem drop_of_drop (front : List UInt8) {tail : List UInt8}
    (h : buffer.drop read = front ++ tail) :
    buffer.drop (read + front.length) = tail := by
  rw [← List.drop_drop, h, List.drop_left]

theorem lt_length_of_drop {c : UInt8} {tail : List UInt8} (h : buffer.drop read = c :: tail) :
    read < buffer.length := by
  have := congrArg List.length h
  rw [List.length_drop, List.length_cons] at this
  omega

/-- A byte written behind the read index is the next of the resolved ones. -/
theorem resolved_set (hwrite : write < buffer.length) :
    Resolved (buffer.set write b) (write + 1) text = Resolved buffer write (b :: text) := by
  unfold Resolved
  have hlength : write + 1 + text.length + 1 = write + (b :: text).length + 1 := by
    rw [List.length_cons]
    omega
  rw [hlength, List.drop_set_of_lt (by omega), List.take_add_one, List.take_set,
    List.set_eq_of_length_le (by simp), List.getElem?_set_self hwrite]
  simp

theorem resolved_nil (hwrite : write < buffer.length) :
    buffer.set write 0 = Resolved buffer write [] := by
  unfold Resolved
  rw [List.set_eq_take_append_cons_drop, if_pos hwrite]
  simp

end Buffer

/-! ## The turns -/

theorem unescapeBytes_plain {c : UInt8} (hc : c ≠ 0x5c) (text : List UInt8) :
    unescapeBytes (c :: text) = (unescapeBytes text).map (c :: ·) := by
  rcases text with _ | ⟨b₁, _ | ⟨b₂, _ | ⟨b₃, rest⟩⟩⟩
  · exact if_neg hc
  · exact if_neg hc
  · exact if_neg hc
  · rw [unescapeBytes.eq_def]
    exact if_neg hc

theorem unescapeBytes_short {text : List UInt8} (h : text.length < 3) :
    unescapeBytes (0x5c :: text) = none := by
  rcases text with _ | ⟨b₁, _ | ⟨b₂, _ | ⟨b₃, rest⟩⟩⟩
  · rfl
  · rfl
  · rfl
  · simp only [List.length_cons] at h
    omega

theorem unescapeBytes_escape (a b c : UInt8) (text : List UInt8) :
    unescapeBytes (0x5c :: a :: b :: c :: text) =
      match octalValue a, octalValue b, octalValue c with
      | some x, some y, some z =>
        if x * 64 + y * 8 + z = 0 then none
        else (unescapeBytes text).map (UInt8.ofNat (x * 64 + y * 8 + z) :: ·)
      | _, _, _ => none := by
  rw [unescapeBytes, if_pos rfl]
  cases octalValue a <;> cases octalValue b <;> cases octalValue c <;> rfl

section Turns

variable {buffer : List UInt8} {read write : ℕ} {rest : List UInt8}

theorem unescapeTurn_end (h : buffer.drop read = 0 :: rest) :
    unescapeTurn (buffer, read, write) = .done (some (buffer.set write 0)) := by
  rw [unescapeTurn, getD_of_drop h, if_pos rfl]

theorem unescapeTurn_plain {c : UInt8} (h : buffer.drop read = c :: rest) (h0 : c ≠ 0)
    (hslash : c ≠ 0x5c) :
    unescapeTurn (buffer, read, write) = .next (buffer.set write c, read + 1, write + 1) := by
  rw [unescapeTurn, getD_of_drop h, if_neg h0, if_neg hslash]

theorem takeWhile_token (text : List UInt8) (h0 : (0 : UInt8) ∉ text) (rest : List UInt8) :
    ((text ++ 0 :: rest).takeWhile fun b => b ≠ 0) = text := by
  rw [List.takeWhile_append_of_pos fun b hb => by simpa using ne_of_mem_of_not_mem hb h0]
  simp

theorem unescapeTurn_short {text : List UInt8} (h : buffer.drop read = 0x5c :: (text ++ 0 :: rest))
    (h0 : (0 : UInt8) ∉ text) (hlen : text.length < 3) :
    unescapeTurn (buffer, read, write) = .done none := by
  have htext : ((buffer.drop read).takeWhile fun b => b ≠ 0) = 0x5c :: text := by
    rw [h, ← List.cons_append]
    exact takeWhile_token _ (by simpa using h0) rest
  rw [unescapeTurn, getD_of_drop h, if_neg (by decide), if_pos rfl, htext,
    if_pos (by rw [List.length_cons]; omega)]

theorem unescapeTurn_escape {a b c : UInt8} {text : List UInt8}
    (h : buffer.drop read = 0x5c :: a :: b :: c :: (text ++ 0 :: rest))
    (h0 : (0 : UInt8) ∉ a :: b :: c :: text) :
    unescapeTurn (buffer, read, write) =
      match octalValue a, octalValue b, octalValue c with
      | some x, some y, some z =>
        if x * 64 + y * 8 + z = 0 then .done none
        else .next (buffer.set write (UInt8.ofNat (x * 64 + y * 8 + z)), read + 4, write + 1)
      | _, _, _ => .done none := by
  have htext : ((buffer.drop read).takeWhile fun b => b ≠ 0) = 0x5c :: a :: b :: c :: text := by
    rw [h]
    exact takeWhile_token (0x5c :: a :: b :: c :: text) (by simpa using h0) rest
  have ha := getD_of_drop (drop_of_drop [0x5c] h)
  have hb := getD_of_drop (drop_of_drop [0x5c, a] h)
  have hc := getD_of_drop (drop_of_drop [0x5c, a, b] h)
  simp only [List.length_cons, List.length_nil, Nat.zero_add, Nat.reduceAdd] at ha hb hc
  rw [unescapeTurn, getD_of_drop h, if_neg (by decide), if_pos rfl, htext,
    if_neg (by simp), ha, hb, hc]

end Turns

theorem loop_unescape {buffer rest : List UInt8} {read write : ℕ} (text : List UInt8)
    (h0 : (0 : UInt8) ∉ text) (h : buffer.drop read = text ++ 0 :: rest) (hwrite : write ≤ read) :
    Loop.loop unescapeTurn none unread (buffer, read, write) =
      (unescapeBytes text).map (Resolved buffer write) := by
  -- the induction is on the text that is left: an escape takes four bytes of it
  induction hn : text.length using Nat.strong_induction_on generalizing text buffer read write with
  | _ n ih =>
    cases text with
    | nil =>
      have hlt := lt_length_of_drop h
      rw [Loop.loop_of_done unescapeTurn_shrinks (unescapeTurn_end h),
        resolved_nil (by omega)]
      rfl
    | cons c text =>
      have hlt := lt_length_of_drop h
      rw [List.mem_cons, not_or] at h0
      by_cases hslash : c = 0x5c
      · subst hslash
        by_cases hlen : text.length < 3
        · rw [Loop.loop_of_done unescapeTurn_shrinks (unescapeTurn_short h h0.2 hlen),
            unescapeBytes_short hlen]
          rfl
        obtain ⟨x, y, z, text, rfl⟩ : ∃ x y z tail, text = x :: y :: z :: tail := by
          rcases text with _ | ⟨x, _ | ⟨y, _ | ⟨z, tail⟩⟩⟩ <;> simp at hlen ⊢
        have hdrop := drop_of_drop [0x5c, x, y, z] h
        rw [unescapeBytes_escape]
        rw [Loop.loop_eq unescapeTurn_shrinks, unescapeTurn_escape h h0.2]
        rcases octalValue x with _ | x
        · rfl
        rcases octalValue y with _ | y
        · rfl
        rcases octalValue z with _ | z
        · rfl
        by_cases hzero : x * 64 + y * 8 + z = 0
        · simp only [if_pos hzero, Option.map_none]
        simp only [if_neg hzero]
        have hset := List.drop_set_of_lt (l := buffer)
          (a := UInt8.ofNat (x * 64 + y * 8 + z)) (show write < read + 4 by omega)
        rw [ih text.length (by simp at hn; omega) text (by simp at h0; tauto) (hset.trans hdrop)
          (by omega) rfl, Option.map_map]
        congr 1
        funext out
        exact resolved_set (by omega)
      · rw [Loop.loop_of_next unescapeTurn_shrinks
          (unescapeTurn_plain h (Ne.symm h0.1) hslash), unescapeBytes_plain hslash, Option.map_map]
        have hset := List.drop_set_of_lt (l := buffer) (a := c) (show write < read + 1 by omega)
        rw [ih text.length (by simp at hn; omega) text h0.2
          (hset.trans (drop_of_drop [c] h)) (by omega) rfl]
        congr 1
        funext out
        exact resolved_set (by omega)

/-- **What the loop leaves in the buffer**: the resolved token, its terminator, and what stood
behind. -/
theorem unescapeInPlace_eq {token : List UInt8} (h0 : (0 : UInt8) ∉ token) (rest : List UInt8) :
    unescapeInPlace (token ++ 0 :: rest) = (unescapeBytes token).map fun text =>
      text ++ 0 :: (token ++ 0 :: rest).drop (text.length + 1) := by
  rw [unescapeInPlace, loop_unescape token h0 rfl le_rfl]
  refine congrArg (Option.map · (unescapeBytes token)) (funext fun text => ?_)
  simp [Resolved]

/-- The text that `parse_mount` compares: the buffer up to its terminator. -/
theorem unescape_eq {token : List UInt8} (h0 : (0 : UInt8) ∉ token) (rest : List UInt8) :
    unescape token = (unescapeInPlace (token ++ 0 :: rest)).map fun buffer =>
      buffer.takeWhile fun b => b ≠ 0 := by
  rw [unescapeInPlace_eq h0, Option.map_map, unescape]
  refine congrArg (Option.map · (unescapeBytes token)) (funext fun text => ?_)
  rw [Function.comp_apply, List.takeWhile_append]
  split_ifs with hlength
  · rw [List.takeWhile_cons_of_neg (by simp), List.append_nil]
    exact (List.takeWhile_prefix _).eq_of_length hlength
  · rfl

/-! ## Tokens in pieces -/

/-- A piece of a well-formed token. -/
inductive Piece
  | plain (b : UInt8) (h : b ≠ 0 ∧ b ≠ 0x5c)
  | escape (x y z : Fin 8)

namespace Piece

/-- The piece as it stands in the token. -/
def text : Piece → List UInt8
  | plain b _ => [b]
  | escape x y z =>
    [0x5c, UInt8.ofNat (0x30 + x), UInt8.ofNat (0x30 + y), UInt8.ofNat (0x30 + z)]

/-- The value that the piece stands for. -/
def value : Piece → ℕ
  | plain b _ => b.toNat
  | escape x y z => x * 64 + y * 8 + z

/-- The byte that replaces the piece. -/
def byte (p : Piece) : UInt8 := UInt8.ofNat p.value

end Piece

/-- The token that the pieces make up. -/
def joined (pieces : List Piece) : List UInt8 := pieces.flatMap Piece.text

theorem octalValue_ofNat (x : Fin 8) : octalValue (UInt8.ofNat (0x30 + x)) = some (x : ℕ) := by
  revert x
  decide +kernel

theorem exists_of_octalValue : ∀ (b : UInt8) (x : ℕ), octalValue b = some x →
    ∃ y : Fin 8, x = y ∧ b = UInt8.ofNat (0x30 + y) := by
  intro b x h
  rw [octalValue] at h
  split_ifs at h with hb
  obtain rfl := Option.some.inj h
  simp only [UInt8.le_iff_toNat_le] at hb
  simp at hb
  refine ⟨⟨b.toNat - 0x30, by omega⟩, rfl, ?_⟩
  rw [← UInt8.toNat_inj, UInt8.toNat_ofNat']
  simp; omega

/-- A token without an escape of the value zero is replaced piece by piece. -/
theorem unescapeBytes_joined {pieces : List Piece} (h : ∀ p ∈ pieces, p.value ≠ 0) :
    unescapeBytes (joined pieces) = some (pieces.map Piece.byte) := by
  induction pieces with
  | nil => rfl
  | cons p pieces ih =>
    obtain ⟨hp, hpieces⟩ := List.forall_mem_cons.mp h
    rw [joined, List.flatMap_cons, ← joined]
    cases p with
    | plain b hb =>
      have hbyte : Piece.byte (.plain b hb) = b := by simp [Piece.byte, Piece.value]
      rw [Piece.text, List.singleton_append, unescapeBytes_plain hb.2, ih hpieces, Option.map_some,
        List.map_cons, hbyte]
    | escape x y z =>
      rw [Piece.text]
      refine (unescapeBytes_escape _ _ _ (joined pieces)).trans ?_
      rw [octalValue_ofNat, octalValue_ofNat, octalValue_ofNat]
      refine (if_neg hp).trans ?_
      rw [ih hpieces]
      rfl

/-- A token that is accepted is a sequence of pieces. -/
theorem exists_joined {token out : List UInt8} (h0 : (0 : UInt8) ∉ token)
    (h : unescapeBytes token = some out) :
    ∃ pieces, token = joined pieces ∧ ∀ p ∈ pieces, p.value ≠ 0 := by
  induction hn : token.length using Nat.strong_induction_on generalizing token out with
  | _ n ih =>
    cases token with
    | nil => exact ⟨[], rfl, by simp⟩
    | cons c token =>
      rw [List.mem_cons, not_or] at h0
      rw [List.length_cons] at hn
      -- a backslash and three digits are one piece, any other byte is one by itself
      by_cases hslash : c = 0x5c
      · subst hslash
        by_cases hlen : token.length < 3
        · rw [unescapeBytes_short hlen] at h
          cases h
        obtain ⟨a, b, c, rest, rfl⟩ : ∃ a b c rest, token = a :: b :: c :: rest := by
          rcases token with _ | ⟨a, _ | ⟨b, _ | ⟨c, rest⟩⟩⟩ <;> simp at hlen ⊢
        rw [unescapeBytes_escape] at h
        rcases hx : octalValue a with _ | x
        · simp [hx] at h
        rcases hy : octalValue b with _ | y
        · simp [hx, hy] at h
        rcases hz : octalValue c with _ | z
        · simp [hx, hy, hz] at h
        simp only [hx, hy, hz] at h
        split_ifs at h with hzero
        obtain ⟨out', hrest, -⟩ := Option.map_eq_some_iff.mp h
        obtain ⟨pieces, rfl, hpieces⟩ := ih rest.length (by simp at hn; omega)
          (by simp at h0; tauto) hrest rfl
        obtain ⟨x, rfl, rfl⟩ := exists_of_octalValue a x hx
        obtain ⟨y, rfl, rfl⟩ := exists_of_octalValue b y hy
        obtain ⟨z, rfl, rfl⟩ := exists_of_octalValue c z hz
        refine ⟨.escape x y z :: pieces, ?_, List.forall_mem_cons.mpr ⟨hzero, hpieces⟩⟩
        simp [joined, Piece.text]
      · rw [unescapeBytes_plain hslash] at h
        obtain ⟨out', hrest, -⟩ := Option.map_eq_some_iff.mp h
        obtain ⟨pieces, rfl, hpieces⟩ := ih token.length (by omega) h0.2 hrest rfl
        have hc : c ≠ 0 ∧ c ≠ 0x5c := ⟨Ne.symm h0.1, hslash⟩
        refine ⟨.plain c hc :: pieces, by simp [joined, Piece.text], ?_⟩
        refine List.forall_mem_cons.mpr ⟨fun hzero => hc.1 ?_, hpieces⟩
        exact UInt8.toNat_inj.mp hzero

theorem digit_inj : ∀ x y : Fin 8, UInt8.ofNat (0x30 + x) = UInt8.ofNat (0x30 + y) → x = y := by
  decide +kernel

/-- The pieces of a token are unique. -/
theorem joined_injective : Function.Injective joined := by
  intro pieces
  induction pieces with
  | nil =>
    rintro (_ | ⟨p, pieces⟩) h
    · rfl
    · cases p <;> simp [joined, Piece.text] at h
  | cons p pieces ih =>
    rintro (_ | ⟨q, others⟩) h
    · cases p <;> simp [joined, Piece.text] at h
    simp only [joined, List.flatMap_cons] at h
    rcases p with ⟨b, hb⟩ | ⟨x, y, z⟩ <;> rcases q with ⟨c, hc⟩ | ⟨x', y', z'⟩
    · obtain rfl : b = c := (List.cons.inj h).1
      rw [ih (List.cons.inj h).2]
    · exact absurd (List.cons.inj h).1 hb.2
    · exact absurd (List.cons.inj h).1.symm hc.2
    · simp only [Piece.text, List.cons_append, List.nil_append, List.cons.injEq] at h
      obtain ⟨-, hx, hy, hz, h⟩ := h
      rw [digit_inj _ _ hx, digit_inj _ _ hy, digit_inj _ _ hz, ih h]

/-! ## What a token is replaced by -/

/-- The token is well formed, with values of 1 to 255, and `out` is what its pieces stand for. -/
def Unescapes (token out : List UInt8) : Prop :=
  ∃ pieces : List Piece, token = joined pieces ∧
    (∀ p ∈ pieces, 1 ≤ p.value ∧ p.value ≤ 255) ∧ out.map UInt8.toNat = pieces.map Piece.value

/-- Either `unescape` fails on the token, or it leaves in its place, up to the terminator, what
the pieces of the token stand for, and the bytes behind are the old ones. -/
def Rewrites (token rest : List UInt8) : Prop :=
  ∀ buffer, unescapeInPlace (token ++ 0 :: rest) = some buffer →
    ∃ out, Unescapes token out ∧ buffer.takeWhile (fun b => b ≠ 0) = out ∧
      buffer = out ++ 0 :: (token ++ 0 :: rest).drop (out.length + 1)

theorem Unescapes.zero_notMem {token out : List UInt8} (h : Unescapes token out) :
    (0 : UInt8) ∉ out := by
  obtain ⟨pieces, -, hvalues, hout⟩ := h
  intro h0
  have hmem := List.mem_map_of_mem (f := UInt8.toNat) h0
  rw [hout, List.mem_map] at hmem
  obtain ⟨p, hp, hzero⟩ := hmem
  have := (hvalues p hp).1
  rw [hzero] at this
  exact absurd this (by decide)

/-- **Where the replacement is right**: no piece of an accepted token stands for more than a
byte. -/
theorem rewrites_iff {token : List UInt8} (h0 : (0 : UInt8) ∉ token) (rest : List UInt8) :
    Rewrites token rest ↔ ∀ pieces, token = joined pieces → (∀ p ∈ pieces, p.value ≠ 0) →
      ∀ p ∈ pieces, p.value ≤ 255 := by
  constructor
  · rintro h pieces rfl hne
    have hbuffer := unescapeInPlace_eq h0 rest
    rw [unescapeBytes_joined hne] at hbuffer
    obtain ⟨out, ⟨others, hjoined, hvalues, -⟩, -⟩ := h _ hbuffer
    obtain rfl := joined_injective hjoined
    exact fun p hp => (hvalues p hp).2
  · intro h buffer hbuffer
    rw [unescapeInPlace_eq h0] at hbuffer
    obtain ⟨out, hout, rfl⟩ := Option.map_eq_some_iff.mp hbuffer
    obtain ⟨pieces, rfl, hne⟩ := exists_joined h0 hout
    have hle := h pieces rfl hne
    obtain rfl : pieces.map Piece.byte = out :=
      Option.some.inj ((unescapeBytes_joined hne).symm.trans hout)
    have hunescapes : Unescapes (joined pieces) (pieces.map Piece.byte) := by
      refine ⟨pieces, rfl, fun p hp => ⟨Nat.pos_of_ne_zero (hne p hp), hle p hp⟩, ?_⟩
      rw [List.map_map]
      refine List.map_congr_left fun p hp => ?_
      have := hle p hp
      simp only [Function.comp_apply, Piece.byte, UInt8.toNat_ofNat']
      exact Nat.mod_eq_of_lt (by simp; omega)
    exact ⟨_, hunescapes, takeWhile_token _ hunescapes.zero_notMem _, rfl⟩

/-- `/a\040b` is rewritten to `/a b`. -/
theorem rewrites_space : Rewrites [0x2f, 0x61, 0x5c, 0x30, 0x34, 0x30, 0x62] [0x20] := by
  refine (rewrites_iff (by decide) [0x20]).mpr ?_
  intro pieces hpieces _
  have hspace : [0x2f, 0x61, 0x5c, 0x30, 0x34, 0x30, 0x62] =
      joined [.plain 0x2f (by decide), .plain 0x61 (by decide), .escape 0 4 0,
        .plain 0x62 (by decide)] := rfl
  obtain rfl := joined_injective (hpieces.symm.trans hspace)
  decide

/-- `/a\400b` ends up as `/a`. -/
theorem unescape_wraps :
    unescapeInPlace ([0x2f, 0x61, 0x5c, 0x34, 0x30, 0x30, 0x62] ++ [0]) =
        some [0x2f, 0x61, 0, 0x62, 0, 0x30, 0x62, 0] ∧
      unescape [0x2f, 0x61, 0x5c, 0x34, 0x30, 0x30, 0x62] = some [0x2f, 0x61] ∧
      ¬ Rewrites [0x2f, 0x61, 0x5c, 0x34, 0x30, 0x30, 0x62] [] := by
  have hbuffer : unescapeInPlace ([0x2f, 0x61, 0x5c, 0x34, 0x30, 0x30, 0x62] ++ [0]) =
      some [0x2f, 0x61, 0, 0x62, 0, 0x30, 0x62, 0] := by
    decide +kernel
  refine ⟨hbuffer, by decide +kernel, fun h => ?_⟩
  obtain ⟨out, -, htake, hout⟩ := h _ hbuffer
  rw [← htake] at hout
  exact absurd hout (by decide)

end StorageVerify
