import Cameo.Bytes
import Cameo.Clock
import Cameo.Library.ByteCursor

/-!
# Inspecting GGUF metadata

`inspect_gguf` reads the entries of a model file's metadata one after another, takes five of them by
the ends of their keys and skips the values of the others, and stops as soon as it has all five.
How deep the recursion of the source may go before the native stack ends is not modelled.
-/

namespace Cameo.Models

open Library

/-! ## Reading a file -/

/-- A file, and the greatest offset that its file system seeks to. -/
structure GgufFile where
  data : List UInt8
  maxOffset : ℕ
  fits : data.length ≤ maxOffset
  bounded : maxOffset < 2 ^ 63

/-- Why a file cannot be inspected.  The code has no fuel to run out of. -/
inductive GgufError where
  | unexpectedEof
  | invalidSeek
  | stringTooLong
  | invalidUtf8
  | unknownType (ty : ℕ)
  | nonIntegerType (ty : ℕ)
  | valueTooLarge
  | outOfFuel
deriving DecidableEq

/-- A step of a reader: what it reads, and where it stands afterwards. -/
abbrev Reader (α : Type) := StateT ℕ (Except GgufError) α

variable (file : GgufFile)

/-- `reader.read_exact`. -/
def readExact (length : ℕ) : Reader (List UInt8) := fun pos ↦
  if length = 0 ∨ pos + length ≤ file.data.length then
    .ok ((file.data.drop pos).take length, pos + length)
  else .error .unexpectedEof

/-- A little-endian number of so many bytes. -/
def readFixed (width : ℕ) : Reader ℕ := do
  let bytes ← readExact file width
  return leValue bytes

/-- `read_byte`. -/
def readByte : Reader ℕ := readFixed file 1

/-- `read_u32`. -/
def readU32 : Reader ℕ := readFixed file 4

/-- `read_u64`. -/
def readU64 : Reader ℕ := readFixed file 8

def maxString : ℕ := 16 * 1024 * 1024

/-- `read_string`. -/
def readString : Reader String := do
  let length ← readU64 file
  if length > maxString then throw .stringTooLong
  else
    let bytes ← readExact file length
    match fromUtf8 bytes with
    | some text => return text
    | none => throw .invalidUtf8

/-- `seek_forward`: past the end of the file too, as far as the file system goes. -/
def seekForward (bytes : ℕ) : Reader Unit := fun pos ↦
  if 2 ^ 63 ≤ bytes then .error .valueTooLarge
  else if pos + bytes ≤ file.maxOffset then .ok ((), pos + bytes)
  else .error .invalidSeek

/-- `fixed_width`. -/
def fixedWidth (ty : ℕ) : Option ℕ :=
  if ty = 0 ∨ ty = 1 ∨ ty = 7 then some 1
  else if ty = 2 ∨ ty = 3 then some 2
  else if 4 ≤ ty ∧ ty ≤ 6 then some 4
  else if 10 ≤ ty ∧ ty ≤ 12 then some 8
  else none

/-- A step repeated a number of times, until it fails. -/
def repeatTimes : ℕ → Reader Unit → Reader Unit
  | 0, _ => pure ()
  | count + 1, step => do
    step
    repeatTimes count step

/-- `skip_value`; the fuel bounds how deep arrays are nested. -/
def skipValue : ℕ → ℕ → Reader Unit
  | 0, _ => throw .outOfFuel
  | fuel + 1, ty =>
    if ty = 8 then do
      let length ← readU64 file
      seekForward file length
    else if ty = 9 then do
      let element ← readU32 file
      let count ← readU64 file
      match fixedWidth element with
      | some width => seekForward file (saturatingMul count width)
      | none => repeatTimes count (skipValue fuel element)
    else
      match fixedWidth ty with
      | some width => seekForward file width
      | none => throw (.unknownType ty)

/-- `skip_value_read`.  Its buffer of sixteen bytes holds a value of any fixed width, so it reads
once. -/
def skipValueRead (ty : ℕ) : Reader Unit :=
  match fixedWidth ty with
  | some width => do
    let _ ← readExact file width
    return ()
  | none => throw (.nonIntegerType ty)

/-- `read_integer_value`. -/
def readIntegerValue (ty : ℕ) : Reader (Option ℕ) :=
  if ty = 0 then do
    let value ← readByte file
    return some value
  else if ty = 2 then do
    let value ← readFixed file 2
    return some value
  else if ty = 4 then do
    let value ← readU32 file
    return some value
  else if ty = 10 then do
    let value ← readU64 file
    return some value
  else do
    skipValueRead file ty
    return none

/-! ## Inspection -/

/-- `InferenceMeta`. -/
structure InferenceMeta where
  nativeContext : UInt32
  layers : UInt32
  kvHeads : UInt32
  headDim : UInt32
deriving DecidableEq

/-- `to_u32`. -/
def toU32 (value : ℕ) : Option UInt32 :=
  if h : value < UInt32.size then some (.ofNatLT value h) else none

/-- The variables of `inspect_gguf`. -/
structure Found where
  context : Option UInt32
  layers : Option UInt32
  heads : Option UInt32
  kvHeads : Option UInt32
  embedding : Option UInt32

/-- `key.ends_with`. -/
def endsWith (key : String) (suffix : String) : Bool := suffix.toList.isSuffixOf key.toList

def wanted (key : String) : Bool :=
  endsWith key ".context_length" || endsWith key ".block_count" ||
    endsWith key ".attention.head_count" || endsWith key ".attention.head_count_kv" ||
    endsWith key ".embedding_length"

/-- What is known after an entry. -/
def Found.record (found : Found) (key : String) (value : Option ℕ) : Found :=
  if endsWith key ".context_length" then { found with context := value.bind toU32 }
  else if endsWith key ".block_count" then { found with layers := value.bind toU32 }
  else if endsWith key ".attention.head_count_kv" then { found with kvHeads := value.bind toU32 }
  else if endsWith key ".attention.head_count" then { found with heads := value.bind toU32 }
  else if endsWith key ".embedding_length" then { found with embedding := value.bind toU32 }
  else found

/-- The result, once everything is known and the heads divide the embedding. -/
def Found.complete (found : Found) : Option InferenceMeta :=
  match found with
  | ⟨some context, some layers, some heads, some kvHeads, some embedding⟩ =>
    if 0 < heads ∧ embedding % heads = 0 then some ⟨context, layers, kvHeads, embedding / heads⟩
    else none
  | _ => none

/-- One entry of the metadata: its key, and its value where it is a wanted integer. -/
def readEntry (fuel : ℕ) : Reader (String × Option ℕ) := do
  let key ← readString file
  let ty ← readU32 file
  if wanted key then
    let value ← readIntegerValue file ty
    return (key, value)
  else
    skipValue file fuel ty
    return (key, none)

/-- The loop of `inspect_gguf` over the entries. -/
def inspectEntries (fuel : ℕ) : ℕ → Found → Reader (Option InferenceMeta)
  | 0, _ => pure none
  | count + 1, found => do
    let (key, value) ← readEntry file fuel
    match (found.record key value).complete with
    | some done => return some done
    | none => inspectEntries fuel count (found.record key value)

/-- `inspect_gguf` on an open file, with fuel for any nesting that fits into the file. -/
def inspect : Reader (Option InferenceMeta) := do
  let magic ← readExact file 4
  if magic ≠ bytes "GGUF" then return none
  else
    let version ← readU32 file
    if ¬ (2 ≤ version ∧ version ≤ 3) then return none
    else
      let _tensorCount ← readU64 file
      let metadataCount ← readU64 file
      inspectEntries file (file.data.length + 1) metadataCount ⟨none, none, none, none, none⟩

/-- `inspect_gguf` on an open file. -/
def inspectGguf : Except GgufError (Option InferenceMeta) := (inspect file 0).map Prod.fst

end Cameo.Models
