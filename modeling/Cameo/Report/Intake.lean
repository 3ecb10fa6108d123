import Cameo.Address
import Cameo.Float
import Cameo.Json

/-!
# The intake of hardware reports

`validateSubmission` of the function behind the endpoint.  It looks at every field of a payload: an
object has the required keys and no others than the optional ones, a text is bounded and has no
character of the general category C, a number is an integer that a JavaScript number holds exactly.
-/

namespace Cameo.Report

open Json

/-! ## Values -/

/-- The general category C of the Unicode version that the intake runs with.  It contains the
control characters and no printable character of ASCII. -/
structure Category where
  isOther : Char → Bool
  control : ∀ c, isControl c = true → isOther c = true
  printable : ∀ c : Char, 0x20 ≤ c.toNat → c.toNat ≤ 0x7e → isOther c = false

/-- `exactKeys`. -/
def exactKeys (value : Value) (required optional : List String) : Bool :=
  value.isObject && required.all (fun key ↦ (value.get? key).isSome) &&
    value.keys.all fun key ↦ key ∈ required ++ optional

/-- `boundedString`.  Without a pattern every text passes. -/
def boundedString (category : Category) (max : ℕ) (pattern : String → Bool)
    (allowWhitespaceControls : Bool) : Value → Bool
  | .string text =>
    text ≠ "" && decide (text.length ≤ max) &&
      (text.toList.all fun c ↦ !category.isOther c ||
        (allowWhitespaceControls && decide (c = '\n' ∨ c = '\t'))) &&
      pattern text
  | _ => false

def anyText (_ : String) : Bool := true

/-- The whole number that `JSON.parse` makes of a number, before it is rounded. -/
def wholeNumber? : Number → Option ℤ
  | .posInt n => some n
  | .negInt i => some i
  | .float bits =>
    match FloatValue.ofBits bits with
    | .finite negative units =>
      if units % f64Unit = 0 then some (FloatValue.signed negative (units / f64Unit)) else none
    | _ => none

/-- `Number.MAX_SAFE_INTEGER`. -/
def maxSafeInteger : ℕ := 9007199254740991

/-- `safeInteger`.  What is rounded is too large to be safe. -/
def safeInteger (minimum maximum : ℕ) : Value → Bool
  | .number number =>
    match wholeNumber? number with
    | some i => decide (i.natAbs ≤ maxSafeInteger ∧ (minimum : ℤ) ≤ i ∧ i ≤ (maximum : ℤ))
    | none => false
  | _ => false

/-- `typeof value === "boolean"`. -/
def isBoolean : Value → Bool
  | .bool _ => true
  | _ => false

/-- `texts.includes(value)`. -/
def isOneOf (texts : List String) : Value → Bool
  | .string text => text ∈ texts
  | _ => false

/-! ## Patterns -/

/-- `/^[0-9a-f]{4}:[0-9a-f]{4}$/i`. -/
def pciIdPattern (text : String) : Bool :=
  text.length = 9 && (text.toList.take 4).all isHexDigit && text.toList[4]? = some ':' &&
    (text.toList.drop 5).all isHexDigit

/-- `/^gfx[0-9a-z]+$/`. -/
def gfxPattern (text : String) : Bool :=
  "gfx".toList.isPrefixOf text.toList && decide (3 < text.length) &&
    (text.toList.drop 3).all fun c ↦ c.isDigit || c.isLower

/-- `/^chr_[0-9a-f]{24}$/`. -/
def reportIdPattern (text : String) : Bool :=
  text.length = 28 && "chr_".toList.isPrefixOf text.toList &&
    (text.toList.drop 4).all fun c ↦ c ∈ "0123456789abcdef".toList

/-! ## Objects -/

/-- A field of an object: its key, whether it must be there, and the check of its value. -/
structure FieldCheck where
  name : String
  required : Bool
  check : Value → Bool

/-- A field takes the value that is found under its key. -/
def FieldCheck.accepts (field : FieldCheck) : Option Value → Bool
  | some found => field.check found
  | none => !field.required

theorem accepts_some (field : FieldCheck) (found : Value) :
    field.accepts (some found) = field.check found := rfl

/-- An object with exactly these fields, each of which passes its check. -/
def validObject (fields : List FieldCheck) (value : Value) : Bool :=
  exactKeys value ((fields.filter FieldCheck.required).map FieldCheck.name)
      ((fields.filter fun field ↦ !field.required).map FieldCheck.name) &&
    fields.all fun field ↦ field.accepts (value.get? field.name)

/-- `validArtifact`. -/
def validArtifact (category : Category) : Value → Bool :=
  validObject [
    ⟨"cameo_version", true, boundedString category 64 anyText false⟩,
    ⟨"iso_build_id", false, boundedString category 128 anyText false⟩,
    ⟨"edition", false, boundedString category 32 anyText false⟩,
    ⟨"source_revision", false, boundedString category 64 anyText false⟩,
    ⟨"source_dirty", false, isBoolean⟩,
    ⟨"knossos_revision", false, boundedString category 64 anyText false⟩,
    ⟨"arch_snapshot", false, boundedString category 32 anyText false⟩,
    ⟨"rocm_cli_version", false, boundedString category 64 anyText false⟩]

/-- `validPlatform`. -/
def validPlatform (category : Category) : Value → Bool :=
  validObject [
    ⟨"os", true, boundedString category 32 anyText false⟩,
    ⟨"architecture", true, boundedString category 32 anyText false⟩,
    ⟨"kernel_version", false, boundedString category 128 anyText false⟩,
    ⟨"cpu_model", false, boundedString category 160 anyText false⟩]

/-- `validGpu`. -/
def validGpu (category : Category) : Value → Bool :=
  validObject [
    ⟨"model", true, boundedString category 200 anyText false⟩,
    ⟨"vendor", true, boundedString category 32 anyText false⟩,
    ⟨"pci_id", true, boundedString category 9 pciIdPattern false⟩,
    ⟨"gfx_target", false, boundedString category 32 gfxPattern false⟩,
    ⟨"vram_total_bytes", false, safeInteger 0 maxSafeInteger⟩,
    ⟨"is_apu", true, isBoolean⟩,
    ⟨"driver_version", false, boundedString category 128 anyText false⟩,
    ⟨"cameo_tier", true, safeInteger 1 3⟩]

def validGpus (category : Category) : Value → Bool
  | .array items => decide (items.length ≤ 32) && items.all (validGpu category)
  | _ => false

/-- `validHardware`. -/
def validHardware (category : Category) : Value → Bool :=
  validObject [
    ⟨"status", true, isOneOf ["observed", "unverified"]⟩,
    ⟨"gpus", true, validGpus category⟩,
    ⟨"system_ram_total_bytes", false, safeInteger 0 maxSafeInteger⟩,
    ⟨"system_ram_available_bytes", false, safeInteger 0 maxSafeInteger⟩]

/-- `validOutcome`. -/
def validOutcome : Value → Bool :=
  validObject [
    ⟨"result", true, isOneOf ["passed", "failed", "degraded", "not_tested"]⟩,
    ⟨"evidence_source", true, isOneOf ["observed", "tester_asserted", "unavailable"]⟩]

/-- `validOutcomes`. -/
def validOutcomes : Value → Bool :=
  validObject [
    ⟨"boot", true, validOutcome⟩,
    ⟨"gpu_detection", true, validOutcome⟩,
    ⟨"inference", true, validOutcome⟩]

/-- `value === expected`, for a boolean. -/
def isBool (expected : Bool) : Value → Bool
  | .bool found => found = expected
  | _ => false

/-- `validPrivacy`. -/
def validPrivacy : Value → Bool :=
  validObject (⟨"allowlisted_fields_only", true, isBool true⟩ ::
    ["hostname", "username", "ip_or_mac", "serial_numbers", "credentials", "raw_logs",
      "prompts_or_model_output"].map fun key ↦ ⟨key, true, isBool false⟩)

/-- `validReport`. -/
def validReport (category : Category) (nowSeconds : ℕ) : Value → Bool :=
  validObject [
    ⟨"schema_version", true, isOneOf ["cameo-hardware-report/v1"]⟩,
    ⟨"report_id", true, boundedString category 28 reportIdPattern false⟩,
    ⟨"generated_at_unix", true, safeInteger 1 (nowSeconds + 86400)⟩,
    ⟨"artifact", true, validArtifact category⟩,
    ⟨"platform", true, validPlatform category⟩,
    ⟨"hardware", true, validHardware category⟩,
    ⟨"outcomes", true, validOutcomes⟩,
    ⟨"note", false, boundedString category 1000 anyText true⟩,
    ⟨"error_excerpt", false, boundedString category 2000 anyText true⟩,
    ⟨"privacy", true, validPrivacy⟩]

/-- `validCredit`. -/
def validCredit (category : Category) (value : Value) : Bool :=
  exactKeys value ["publish", "permanence_acknowledged"] ["display_name"] &&
    match value.index "publish", value.index "permanence_acknowledged" with
    | .bool publish, .bool acknowledged =>
      if publish then
        acknowledged && boundedString category 80 anyText false (value.index "display_name")
      else !acknowledged && (value.get? "display_name").isNone
    | _, _ => false

/-- `validateSubmission`. -/
def validateSubmission (category : Category) (nowSeconds : ℕ) : Value → Bool :=
  validObject [
    ⟨"schema_version", true, isOneOf ["cameo-hardware-submission/v1"]⟩,
    ⟨"report", true, validReport category nowSeconds⟩,
    ⟨"credit_request", true, validCredit category⟩]

end Cameo.Report
