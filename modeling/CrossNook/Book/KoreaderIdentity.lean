import CrossNook.Book.Md5
import CrossNook.System.Posix

/-!
# The document identity of KOReader

The identity under which a document is synchronized (`book/koreader_identity.c`): the MD5 digest
of sampled windows of the file, as lower-case text.

## Main definitions

* `KoreaderIdentity.koreaderBinary`: `cn_book_identity_koreader_binary`
* `KoreaderIdentity.documentIdText`: `cn_koreader_document_id_text`
-/

namespace KoreaderIdentity

open Crash Posix

/-- `CN_KOREADER_IDENTITY_PATH_MAX_BYTES`. -/
def pathMaxBytes : ℕ := 4096

/-- `KOREADER_SAMPLE_BYTES`. -/
def sampleBytes : ℕ := 1024

/-- `SAMPLE_OFFSETS`. -/
def sampleOffsets : List ℕ :=
  [0, 1024, 4096, 16384, 65536, 262144, 1048576, 4194304, 16777216, 67108864, 268435456, 1073741824]

/-- `cn_koreader_identity_result`. -/
inductive Result
  | ok
  | invalid
  | ioError
  deriving DecidableEq, Repr

/-- `fseek`. -/
def fseek : Sys (Except Errno Unit) := query fun _ => .ok ()

/-- `fread` after a seek: the bytes of the file from `offset` on, at most `count`. -/
def fread (fd : Path) (offset count : ℕ) : Sys (Except Errno (List UInt8)) :=
  query fun files =>
    match (files fd).map Node.kind with
    | some (.regular content) => .ok ((content.drop offset).take count)
    | _ => .error .EISDIR

/-- The loop of `cn_book_identity_koreader_binary` over the offsets; `none` is its exit with an
input/output error, which closes the file. -/
def sampleFile (fd : Path) (context : Md5.Context) : List ℕ → Sys (Option Md5.Context)
  | [] => return some context
  | offset :: offsets => do
    match ← fseek with
    | .error _ =>
      let _ ← close
      return none
    | .ok _ =>
      match ← fread fd offset sampleBytes with
      | .error _ =>
        let _ ← close
        return none
      | .ok sample =>
        if sample = [] then return some context
        else sampleFile fd (Md5.update context sample) offsets

/-- `cn_book_identity_koreader_binary`: the result and the text of the identity. -/
def koreaderBinary (path : List UInt8) : Sys (Result × List UInt8) :=
  if pathMaxBytes < path.length ∨ path = [] then return (.invalid, [])
  else do
    match ← openRead path with
    | .error _ => return (.ioError, [])
    | .ok fd =>
      match ← sampleFile fd Md5.init sampleOffsets with
      | none => return (.ioError, [])
      | some context =>
        match ← close with
        | .error _ => return (.ioError, [])
        | .ok _ => return (.ok, Md5.hex (Md5.final context))

/-- `cn_koreader_document_id_text`. -/
def documentIdText (hex : List UInt8) : Option (List UInt8) :=
  if hex.length = 32 ∧ ∀ c ∈ hex, (0x30 ≤ c ∧ c ≤ 0x39) ∨ (0x61 ≤ c ∧ c ≤ 0x66) then some hex
  else none

theorem keepsFiles_sampleFile (fd : Path) (context : Md5.Context) (offsets : List ℕ) :
    KeepsFiles (sampleFile fd context offsets) := by
  induction offsets generalizing context with
  | nil => exact Keeps.pure _
  | cons offset offsets ih =>
    unfold sampleFile
    refine (keepsFiles_query _).bind fun r => ?_
    cases r with
    | error e => exact (keepsFiles_query _).bind fun _ => Keeps.pure _
    | ok _ =>
      refine (keepsFiles_query _).bind fun r => ?_
      cases r with
      | error e => exact (keepsFiles_query _).bind fun _ => Keeps.pure _
      | ok sample => exact Keeps.ite (Keeps.pure _) (ih _)

/-- Identifying a document changes no file. -/
theorem keepsFiles_koreaderBinary (path : List UInt8) : KeepsFiles (koreaderBinary path) := by
  unfold koreaderBinary
  refine Keeps.ite (Keeps.pure _) ((keepsFiles_query _).bind fun r => ?_)
  cases r with
  | error e => exact Keeps.pure _
  | ok fd =>
    refine (keepsFiles_sampleFile _ _ _).bind fun r => ?_
    cases r with
    | none => exact Keeps.pure _
    | some context =>
      refine (keepsFiles_query _).bind fun r => ?_
      cases r <;> exact Keeps.pure _

end KoreaderIdentity
