import CrossNook.Sync.Progress
import CrossNook.System.Binary64
import CrossNook.Text.Json
import CrossNook.Text.Loop

/-!
# The JSON reader

The reader half of `sync/kosync.c`, from `reader_space` to `parse_object` and
`cn_kosync_parse_progress`. The state of a `json_reader` is the text from its position to the end;
a function that fails returns `none`, since every caller gives up at once. `malloc` succeeds or
fails by an oracle on the length of the text still unread, which differs between any two calls of
one parse.

## Main definitions

* `Kosync.readerString`, `Kosync.numberToken`, `Kosync.readerSkipScalar`: the scanners
* `Kosync.readerMember`: one turn of the loop of `parse_object`, from the key to its value
* `Kosync.parseObject`, `Kosync.parseProgress`: the parser
-/

namespace Kosync

open Bytes (ascii IsDigit)
open Loop (Turn)

/-! ## White space and punctuation -/

/-- `reader_space`: space, tab, carriage return and line feed. -/
def readerSpace (r : List UInt8) : List UInt8 := Bytes.skip Json.IsWs r

/-- `reader_take`. -/
def readerTake (r : List UInt8) (wanted : UInt8) : Option (List UInt8) :=
  match readerSpace r with
  | [] => none
  | c :: r => if c ≠ wanted then none else some r

/-! ## Strings -/

/-- `hex_value`. -/
def hexValue (c : UInt8) : Option ℕ :=
  if 0x30 ≤ c ∧ c ≤ 0x39 then some (c.toNat - 0x30)
  else if 0x61 ≤ c ∧ c ≤ 0x66 then some (c.toNat - 0x61 + 10)
  else if 0x41 ≤ c ∧ c ≤ 0x46 then some (c.toNat - 0x41 + 10)
  else none

/-- The loop of `reader_hex4`. -/
def readerHexDigits : ℕ → ℕ → List UInt8 → Option (ℕ × List UInt8)
  | 0, parsed, r => some (parsed, r)
  | _ + 1, _, [] => none
  | i + 1, parsed, c :: r =>
    match hexValue c with
    | none => none
    | some digit => readerHexDigits i (parsed <<< 4 ||| digit) r

/-- `reader_hex4`. -/
def readerHex4 (r : List UInt8) : Option (ℕ × List UInt8) :=
  if r.length < 4 then none else readerHexDigits 4 0 r

/-- The bytes that `append_codepoint` writes. -/
def encodeCodepoint (value : ℕ) : List UInt8 :=
  if value < 0x80 then [UInt8.ofNat value]
  else if value < 0x800 then
    [UInt8.ofNat (0xc0 ||| value >>> 6), UInt8.ofNat (0x80 ||| (value &&& 0x3f))]
  else if value < 0x10000 then
    [UInt8.ofNat (0xe0 ||| value >>> 12), UInt8.ofNat (0x80 ||| (value >>> 6 &&& 0x3f)),
      UInt8.ofNat (0x80 ||| (value &&& 0x3f))]
  else
    [UInt8.ofNat (0xf0 ||| value >>> 18), UInt8.ofNat (0x80 ||| (value >>> 12 &&& 0x3f)),
      UInt8.ofNat (0x80 ||| (value >>> 6 &&& 0x3f)), UInt8.ofNat (0x80 ||| (value &&& 0x3f))]

/-- `append_codepoint`: `output` is the part of the buffer in use. -/
def appendCodepoint (cap : ℕ) (output : List UInt8) (value : ℕ) : Option (List UInt8) :=
  if value = 0 ∨ 0x10ffff < value ∨ (0xd800 ≤ value ∧ value ≤ 0xdfff) then none
  else if cap - output.length ≤ (encodeCodepoint value).length then none
  else some (output ++ encodeCodepoint value)

/-- The second half of a surrogate pair, after the high one. -/
def readerLow (r : List UInt8) : Option (ℕ × List UInt8) :=
  if r.length < 6 then none
  else
    match r with
    | a :: b :: r =>
      if a ≠ 0x5c ∨ b ≠ 0x75 then none
      else
        match readerHex4 r with
        | none => none
        | some (low, r) => if low < 0xdc00 ∨ 0xdfff < low then none else some (low, r)
    | _ => none

/-- The code point after `\u`. -/
def readerUnicode (r : List UInt8) : Option (ℕ × List UInt8) :=
  match readerHex4 r with
  | none => none
  | some (value, r) =>
    if 0xd800 ≤ value ∧ value ≤ 0xdbff then
      match readerLow r with
      | none => none
      | some (low, r) => some (0x10000 + (value - 0xd800) <<< 10 + (low - 0xdc00), r)
    else some (value, r)

/-- The letters that may follow a backslash, other than `u`, and the byte they stand for. -/
def escapeByte (c : UInt8) : Option UInt8 :=
  if c = 0x22 then some 0x22
  else if c = 0x5c then some 0x5c
  else if c = 0x2f then some 0x2f
  else if c = 0x62 then some 0x08
  else if c = 0x66 then some 0x0c
  else if c = 0x6e then some 0x0a
  else if c = 0x72 then some 0x0d
  else if c = 0x74 then some 0x09
  else none

/-- The end of a turn that produced a single byte. -/
def appendByte (cap : ℕ) (output : List UInt8) (c : UInt8) (r : List UInt8) :
    Option (List UInt8 × List UInt8) :=
  if cap ≤ output.length + 1 then none else some (output ++ [c], r)

/-- One turn of the loop of `reader_string` on the byte `c`, which is no quote. -/
def readerChar (cap : ℕ) (output : List UInt8) (c : UInt8) (r : List UInt8) :
    Option (List UInt8 × List UInt8) :=
  -- control bytes have to be escaped
  if c < 0x20 then none
  else if c = 0x5c then
    match r with
    | [] => none
    | e :: r =>
      if e = 0x75 then
        match readerUnicode r with
        | none => none
        | some (value, r) =>
          match appendCodepoint cap output value with
          | none => none
          | some output => some (output, r)
      else
        match escapeByte e with
        | none => none
        | some c => appendByte cap output c r
  else appendByte cap output c r

/-- One turn of the loop of `reader_string`: the state is the output and the unread text. -/
def readerStringTurn (cap : ℕ) (s : List UInt8 × List UInt8) :
    Turn (List UInt8 × List UInt8) (Option (List UInt8 × List UInt8)) :=
  match s.2 with
  | [] => .done none
  | c :: r =>
    if c = 0x22 then .done (if utf8Valid s.1 then some (s.1, r) else none)
    else
      match readerChar cap s.1 c r with
      | none => .done none
      | some s' => .next s'

/-- The loop of `reader_string`. -/
def readerStringLoop (cap : ℕ) (output r : List UInt8) : Option (List UInt8 × List UInt8) :=
  Loop.loop (readerStringTurn cap) none (fun s => s.2.length) (output, r)

/-- `reader_string`: the decoded string and the text after the closing quote. -/
def readerString (cap : ℕ) (r : List UInt8) : Option (List UInt8 × List UInt8) :=
  if cap = 0 then none
  else
    match readerTake r 0x22 with
    | none => none
    | some r => readerStringLoop cap [] r

/-! ## Numbers -/

/-- The optional minus sign of a number. -/
def numberSign : List UInt8 → List UInt8
  | [] => []
  | c :: r => if c = 0x2d then r else c :: r

/-- The integer part of a number. -/
def numberInt : List UInt8 → Option (List UInt8)
  | [] => none
  | c :: r =>
    if c = 0x30 then some r
    else if 0x31 ≤ c ∧ c ≤ 0x39 then some (Bytes.skip IsDigit r)
    else none

/-- A digit is required here, and all that follow it are read. -/
def numberDigits : List UInt8 → Option (List UInt8)
  | [] => none
  | c :: r => if c < 0x30 ∨ 0x39 < c then none else some (Bytes.skip IsDigit r)

/-- The optional fraction of a number. -/
def numberFraction : List UInt8 → Option (List UInt8)
  | [] => some []
  | c :: r => if c = 0x2e then numberDigits r else some (c :: r)

/-- The optional sign of an exponent. -/
def exponentSign : List UInt8 → List UInt8
  | [] => []
  | c :: r => if c = 0x2b ∨ c = 0x2d then r else c :: r

/-- The optional exponent of a number. -/
def numberExponent : List UInt8 → Option (List UInt8)
  | [] => some []
  | c :: r => if c = 0x65 ∨ c = 0x45 then numberDigits (exponentSign r) else some (c :: r)

/-- `number_token`: the token and the text after it. -/
def numberToken (cap : ℕ) (r : List UInt8) : Option (List UInt8 × List UInt8) := do
  let start := readerSpace r
  let afterInt ← numberInt (numberSign start)
  let afterFraction ← numberFraction afterInt
  let stop ← numberExponent afterFraction
  let length := start.length - stop.length
  if length = 0 ∨ cap ≤ length then none
  else some (start.take length, stop)

/-- The sizes of the token buffers. -/
def tokenCap : ℕ := 64

/-- The exponent that `strtod` reads: ten to it, and the text after it. It is read only when at
least one digit follows the marker and the optional sign. -/
def strtodExponent : List UInt8 → ℚ × List UInt8
  | [] => (1, [])
  | c :: r =>
    if c = 0x65 ∨ c = 0x45 then
      let digits := Bytes.scan IsDigit (exponentSign r)
      if digits = [] then (1, c :: r)
      else
        let power := (10 : ℚ) ^ Bytes.natOfDigits digits
        (if r.head? = some 0x2d then power⁻¹ else power, Bytes.skip IsDigit (exponentSign r))
    else (1, c :: r)

/-- The magnitude that `strtod` reads from decimal text, and where it stops. -/
def strtodMagnitude (text : List UInt8) : ℚ × List UInt8 :=
  let int := Bytes.scan IsDigit text
  match Bytes.skip IsDigit text with
  | [] => (Bytes.natOfDigits int, [])
  | c :: r =>
    let frac := if c = 0x2e then Bytes.scan IsDigit r else []
    let rest := if c = 0x2e then Bytes.skip IsDigit r else c :: r
    ((Bytes.natOfDigits (int ++ frac) : ℚ) / 10 ^ frac.length * (strtodExponent rest).1,
      (strtodExponent rest).2)

/-- `strtod` on decimal text, before it is rounded: the exact value and `*endptr`. -/
def strtod (text : List UInt8) : ℚ × List UInt8 :=
  let magnitude := strtodMagnitude (numberSign text)
  (if text.head? = some 0x2d then -magnitude.1 else magnitude.1, magnitude.2)

/-- `strtod` sets `errno` to `ERANGE`: the value rounds to no finite double, or it is not zero and
smaller than every normal one. -/
def strtodRange (v : ℚ) : Prop := 2 ^ 1024 - 2 ^ 970 ≤ |v| ∨ (v ≠ 0 ∧ |v| < (2 ^ 1022)⁻¹)

instance (v : ℚ) : Decidable (strtodRange v) := inferInstanceAs (Decidable (_ ∨ _))

/-- `strtoll` in base ten: the value before the range check and `*endptr`. -/
def strtoll (text : List UInt8) : ℤ × List UInt8 :=
  let digits := Bytes.scan IsDigit (numberSign text)
  let magnitude : ℤ := Bytes.natOfDigits digits
  (if text.head? = some 0x2d then -magnitude else magnitude,
    Bytes.skip IsDigit (numberSign text))

/-- `LLONG_MAX`. -/
def llongMax : ℤ := 2 ^ 63 - 1

/-- `strtoll` sets `errno` to `ERANGE`. -/
def strtollRange (v : ℤ) : Prop := v < -2 ^ 63 ∨ llongMax < v

instance (v : ℤ) : Decidable (strtollRange v) := inferInstanceAs (Decidable (_ ∨ _))

/-- The conversion of a `double` to `int`: towards zero. -/
def toInt (v : ℚ) : ℤ := v.num.tdiv v.den

/-- `reader_percentage`, where `strtod` makes `toDouble v` of the exact value `v`. -/
def readerPercentage (toDouble : ℚ → ℚ) (r : List UInt8) : Option (ℤ × List UInt8) :=
  match numberToken tokenCap r with
  | none => none
  | some (token, r) =>
    let value := toDouble (strtod token).1
    if strtodRange (strtod token).1 ∨ (strtod token).2 ≠ [] ∨ value < 0 ∨ 1 < value then none
    else
      let scaled := toInt (Binary64.add (Binary64.mul value 10000) (Binary64.nearest (1 / 10 ^ 9)))
      if scaled < 0 ∨ 10000 < scaled then none else some (scaled, r)

/-- `reader_timestamp`. -/
def readerTimestamp (r : List UInt8) : Option (ℤ × List UInt8) :=
  match numberToken tokenCap r with
  | none => none
  | some (token, r) =>
    let value := (strtoll token).1
    if strtollRange value ∨ (strtoll token).2 ≠ [] ∨ value < 0 then none else some (value, r)

/-! ## Members -/

/-- `reader_skip_scalar`: the text after the scalar. -/
def readerSkipScalar (alloc : ℕ → Bool) (r : List UInt8) : Option (List UInt8) :=
  let r := readerSpace r
  if r = [] then none
  else if r.head? = some 0x22 then
    if alloc r.length then (readerString (r.length + 1) r).map Prod.snd else none
  else if ascii "null" <+: r then some (r.drop 4)
  else if ascii "true" <+: r then some (r.drop 4)
  else if ascii "false" <+: r then some (r.drop 5)
  else
    match numberToken tokenCap r with
    | none => none
    | some (token, r) =>
      if strtodRange (strtod token).1 ∨ (strtod token).2 ≠ [] then none else some r

/-- `enum parsed_field`. -/
inductive Field
  | document
  | progress
  | percentage
  | device
  | deviceId
  | timestamp
  deriving DecidableEq, Repr

/-- `parsed_object`; the bit set of fields is a finite set. -/
structure ParsedObject where
  progress : Progress
  fields : Finset Field

/-- The object before any member. -/
def emptyObject : ParsedObject := { progress := progressInit, fields := ∅ }

/-- `set_once`. -/
def setOnce (fields : Finset Field) (field : Field) : Option (Finset Field) :=
  if field ∈ fields then none else some (insert field fields)

/-- `sizeof key`. -/
def keyCap : ℕ := 32

/-- `goto bad_json` where a reader fails. -/
def orBadJson {α : Type} (o : Option α) : Except Result α := o.elim (.error .badJson) .ok

/-- The comparisons of a key in the loop of `parse_object`. -/
def keyField (key : List UInt8) : Option Field :=
  if key = ascii "document" then some .document
  else if key = ascii "progress" then some .progress
  else if key = ascii "percentage" then some .percentage
  else if key = ascii "device" then some .device
  else if key = ascii "device_id" then some .deviceId
  else if key = ascii "timestamp" then some .timestamp
  else none

/-- The branches of the loop of `parse_object` that read the value of a known member. -/
def readerField (toDouble : ℚ → ℚ) (alloc : ℕ → Bool) (parsed : ParsedObject) (f : Field)
    (r : List UInt8) : Except Result (ParsedObject × List UInt8) := do
  -- a field that was seen before is refused before its value is read
  let fields ← orBadJson (setOnce parsed.fields f)
  match f with
  | .document =>
    let (s, r) ← orBadJson (readerString (documentIdBytes + 1) r)
    return ({ progress := { parsed.progress with documentId := s }, fields }, r)
  | .progress =>
    -- the position alone is kept in memory of its own
    if alloc r.length then
      let (position, r) ← orBadJson (readerString (positionMax + 1) r)
      if position.length = 0 then .error .badJson
      else return ({ progress := { parsed.progress with logicalPosition := some position },
                     fields }, r)
    else .error .noMemory
  | .percentage =>
    let (scaled, r) ← orBadJson (readerPercentage toDouble r)
    return ({ progress := { parsed.progress with progress10000 := scaled }, fields }, r)
  | .device =>
    let (s, r) ← orBadJson (readerString (deviceMax + 1) r)
    return ({ progress := { parsed.progress with device := s }, fields }, r)
  | .deviceId =>
    let (s, r) ← orBadJson (readerString (deviceMax + 1) r)
    return ({ progress := { parsed.progress with deviceId := s }, fields }, r)
  | .timestamp =>
    let (value, r) ← orBadJson (readerTimestamp r)
    return ({ progress := { parsed.progress with timestamp := value, hasTimestamp := true },
              fields }, r)

/-- The value of the member `key` in the loop of `parse_object`, and the text after it. -/
def readerValue (toDouble : ℚ → ℚ) (alloc : ℕ → Bool) (parsed : ParsedObject)
    (key r : List UInt8) : Except Result (ParsedObject × List UInt8) :=
  match keyField key with
  | some f => readerField toDouble alloc parsed f r
  | none => do
    let r ← orBadJson (readerSkipScalar alloc r)
    return (parsed, r)

/-- One turn of the loop of `parse_object` up to the value of the member. -/
def readerMember (toDouble : ℚ → ℚ) (alloc : ℕ → Bool) (first : Bool) (parsed : ParsedObject)
    (r : List UInt8) : Except Result (ParsedObject × List UInt8) :=
  match if first then some r else readerTake r 0x2c with
  | none => .error .badJson
  | some r =>
    match readerString keyCap r with
    | none => .error .badJson
    | some (key, r) =>
      match readerTake r 0x3a with
      | none => .error .badJson
      | some r => readerValue toDouble alloc parsed key r

/-- One turn of the loop of `parse_object`. -/
def parseObjectTurn (toDouble : ℚ → ℚ) (alloc : ℕ → Bool) (s : Bool × ParsedObject × List UInt8) :
    Turn (Bool × ParsedObject × List UInt8) (Except Result ParsedObject) :=
  if s.2.2 = [] then .done (.error .badJson)
  else
    match readerMember toDouble alloc s.1 s.2.1 s.2.2 with
    | .error e => .done (.error e)
    | .ok (parsed, r) =>
      let r := readerSpace r
      if r.head? = some 0x7d then
        .done (if readerSpace r.tail = [] then .ok parsed else .error .badJson)
      else .next (false, parsed, r)

/-- `parse_object`. An error carries no object: the callers read none. -/
def parseObject (toDouble : ℚ → ℚ) (alloc : ℕ → Bool) (json : List UInt8) :
    Except Result ParsedObject :=
  if json.length = 0 ∨ jsonMax < json.length then .error .badJson
  else
    match readerTake json 0x7b with
    | none => .error .badJson
    | some r =>
      let r := readerSpace r
      if r.head? = some 0x7d then
        if readerSpace r.tail = [] then .ok emptyObject else .error .badJson
      else Loop.loop (parseObjectTurn toDouble alloc) (.error .badJson) (fun s => s.2.2.length)
        (true, emptyObject, r)

/-- The fields that `cn_kosync_parse_progress` requires. -/
def required : Finset Field := {.document, .progress, .percentage, .device}

/-- `cn_kosync_parse_progress` on the record `progress`. -/
def parseProgress (toDouble : ℚ → ℚ) (alloc : ℕ → Bool) (json : List UInt8) (progress : Progress) :
    Result × Progress :=
  match parseObject toDouble alloc json with
  | .error e => (e, progress)
  | .ok parsed =>
    if parsed.fields = ∅ then (.notFound, progress)
    else if ¬ required ⊆ parsed.fields ∨ ¬ documentIdOk parsed.progress.documentId ∨
        parsed.progress.device = [] then (.badProtocol, progress)
    else (.ok, parsed.progress)

end Kosync
