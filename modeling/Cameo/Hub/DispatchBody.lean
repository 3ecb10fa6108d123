import Cameo.Json
import Cameo.Placement.Mesh

/-!
# Dispatch requests

What a harness posts to have a model served somewhere on the fleet, how it is validated, and the
requests for the scheduler that it becomes.  The admission book tells two requests apart by their
JSON texts; such a text and the JSON value it stands for determine each other, and a request can be
read back from its value.
-/

namespace Cameo.Hub

open Json Placement

/-- `params_b_for`, over the built-in aliases. -/
def paramsBFor (name : String) : Option F64 :=
  let key := (stripSuffix ".gguf" name).getD name
  let aliases : List (String × F64) := [
    ("qwen2.5-0.5b", .ofRatio 5 10), ("tinyllama", .ofRatio 11 10), ("llama3.2-3b", .ofNat 3)]
  (aliases.find? fun entry ↦ entry.1 = key).map Prod.snd

/-- `DispatchBody`. -/
structure DispatchBody where
  model : String
  params : Option Value.FiniteF64
  quant : String
  moe : Bool
  task : Option String
  minTier : Option UInt8
  execute : Bool
  port : UInt16
  sessionAffinity : Option String
  privacy : MeshPrivacy
  preference : MeshPreference
  deadlineMs : Option ℕ
  expectedOutputTokens : UInt32
  priority : UInt8
  allowLegacyToken : Bool
  protocolMajor : UInt16
  requestId : Option String
deriving DecidableEq

def privacyNames : List (String × MeshPrivacy) := [("pool", .pool), ("local_only", .localOnly)]

def preferenceNames : List (String × MeshPreference) :=
  [("latency", .latency), ("balanced", .balanced), ("throughput", .throughput)]

def variantValue {α : Type} [DecidableEq α] (names : List (String × α)) (variant : α) : Value :=
  .string (((names.find? fun pair ↦ pair.2 = variant).map Prod.fst).getD "")

namespace DispatchBody

/-- `serde_json::from_slice`, after the JSON has been read. -/
def fromValue (value : Value) : Option DispatchBody := do
  let body ← value.asStruct 17
  let model ← body.required Value.asStr "model" 0
  let params ← body.defaulted none (Value.asOption Value.asF64) "params" 1
  let quant ← body.defaulted "Q4_K_M" Value.asStr "quant" 2
  let moe ← body.defaulted false Value.asBool "moe" 3
  let task ← body.defaulted none (Value.asOption Value.asStr) "task" 4
  let minTier ← body.defaulted none (Value.asOption Value.asU8) "min_tier" 5
  let execute ← body.defaulted false Value.asBool "execute" 6
  let port ← body.defaulted 8080 Value.asU16 "port" 7
  let sessionAffinity ← body.defaulted none (Value.asOption Value.asStr) "session_affinity" 8
  let privacy ← body.defaulted .pool (Value.asEnum privacyNames) "privacy" 9
  let preference ← body.defaulted .balanced (Value.asEnum preferenceNames) "preference" 10
  let deadlineMs ← body.defaulted none (Value.asOption Value.asU64) "deadline_ms" 11
  let expectedOutputTokens ← body.defaulted 512 Value.asU32 "expected_output_tokens" 12
  let priority ← body.defaulted 5 Value.asU8 "priority" 13
  let allowLegacyToken ← body.defaulted true Value.asBool "allow_legacy_token" 14
  let protocolMajor ← body.defaulted 1 Value.asU16 "protocol_major" 15
  let requestId ← body.defaulted none (Value.asOption Value.asStr) "request_id" 16
  return { model, params, quant, moe, task, minTier, execute, port, sessionAffinity, privacy,
           preference, deadlineMs, expectedOutputTokens, priority, allowLegacyToken, protocolMajor,
           requestId }

/-- The fields of a request, in the order of the source. -/
def fields (body : DispatchBody) : List (String × Value) := [
  ("model", .string body.model),
  ("params", .option .f64 body.params),
  ("quant", .string body.quant),
  ("moe", .bool body.moe),
  ("task", .option .string body.task),
  ("min_tier", .option (fun tier : UInt8 ↦ .nat tier.toNat) body.minTier),
  ("execute", .bool body.execute),
  ("port", .nat body.port.toNat),
  ("session_affinity", .option .string body.sessionAffinity),
  ("privacy", variantValue privacyNames body.privacy),
  ("preference", variantValue preferenceNames body.preference),
  ("deadline_ms", .option .nat body.deadlineMs),
  ("expected_output_tokens", .nat body.expectedOutputTokens.toNat),
  ("priority", .nat body.priority.toNat),
  ("allow_legacy_token", .bool body.allowLegacyToken),
  ("protocol_major", .nat body.protocolMajor.toNat),
  ("request_id", .option .string body.requestId)]

/-- The JSON value that `serde_json::to_string` writes down. -/
def toValue (body : DispatchBody) : Value := .ofFields body.fields

/-- `DispatchBody::validate`. -/
def validate (body : DispatchBody) : Except String Unit :=
  if isBlank body.model ∨ body.model.utf8ByteSize > 512 then .error "model must be 1..=512 bytes"
  else if (QuantLevel.parse body.quant).isNone then
    .error ("unsupported quant '" ++ body.quant ++ "'")
  else if body.task.any fun task ↦ task ∉ ["inference", "training", "train"] then
    .error "task must be inference or training"
  else if body.minTier.any fun tier ↦ tier < 1 || tier > 3 then
    .error "min_tier must be 1, 2, or 3"
  else if body.execute ∧ body.port = 0 then
    .error "port must be non-zero when execute is true"
  else if body.priority > 9 then .error "priority must be between 0 and 9"
  else if body.expectedOutputTokens = 0 ∨ body.expectedOutputTokens > 1000000 then
    .error "expected_output_tokens must be between 1 and 1000000"
  else if body.deadlineMs = some 0 then .error "deadline_ms must be positive"
  else if body.protocolMajor = 0 then .error "protocol_major must be positive"
  else if body.sessionAffinity.any fun id ↦ id = "" || id.utf8ByteSize > 256 then
    .error "session_affinity must be 1..=256 bytes when present"
  else if body.requestId.any fun id ↦ id = "" || id.utf8ByteSize > 128 then
    .error "request_id must be 1..=128 bytes when present"
  else .ok ()

/-- `DispatchBody::model_meta`. -/
def modelMeta (body : DispatchBody) : ModelMeta :=
  let quant := (QuantLevel.parse body.quant).getD .q4_K_M
  let params := ((body.params.map fun bits ↦ FloatValue.ofBits bits.1).or
    (paramsBFor body.model)).getD (.ofNat 7)
  if body.moe then .moe body.model params quant else .dense body.model params quant

/-- `DispatchBody::task`. -/
def routeTask (body : DispatchBody) : Task :=
  match body.task with
  | some "training" | some "train" => .training
  | _ => .inference

/-- `DispatchBody::route_request`. -/
def routeRequest (body : DispatchBody) : RouteRequest :=
  ⟨body.modelMeta, body.routeTask, body.minTier⟩

/-- `DispatchBody::mesh_request`. -/
def meshRequest (body : DispatchBody) : MeshRequest where
  placement := body.routeRequest
  sessionAffinity := body.sessionAffinity
  privacy := body.privacy
  preference := body.preference
  deadlineMs := body.deadlineMs
  expectedOutputTokens := body.expectedOutputTokens
  priority := body.priority
  allowLegacyToken := body.allowLegacyToken
  protocolMajor := body.protocolMajor

/-! ## Reading a request back -/

theorem get?_toValue (body : DispatchBody) (field : String) :
    body.toValue.get? field = (body.fields.find? fun pair ↦ pair.1 = field).map Prod.snd := by
  have hnodup : (body.fields.map Prod.fst).Nodup := (by decide : ["model", "params", "quant", "moe",
    "task", "min_tier", "execute", "port", "session_affinity", "privacy", "preference",
    "deadline_ms", "expected_output_tokens", "priority", "allow_legacy_token", "protocol_major",
    "request_id"].Nodup)
  exact Value.get?_ofFields hnodup field

theorem asEnum_privacy (privacy : MeshPrivacy) :
    Value.asEnum privacyNames (variantValue privacyNames privacy) = some privacy := by
  cases privacy with
  | pool => rfl
  | localOnly => rfl

theorem asEnum_preference (preference : MeshPreference) :
    Value.asEnum preferenceNames (variantValue preferenceNames preference) = some preference := by
  cases preference with
  | latency => rfl
  | balanced => rfl
  | throughput => rfl

/-- A field that is written is read back, whatever its default is. -/
theorem defaulted_toValue {body : DispatchBody} {α : Type} {decode : Value → Option α}
    {name : String} {value : Value} {a : α} (hdecode : decode value = some a)
    (hfield : (body.fields.find? fun pair ↦ pair.1 = name).map Prod.snd = some value)
    (default : α) (place : ℕ) : body.toValue.defaulted default decode name place = some a := by
  have hget : body.toValue.field? name place = some value := (get?_toValue body name).trans hfield
  rw [Value.defaulted, hget]
  exact hdecode

/-- A request reads back as it was written. -/
theorem fromValue_toValue (body : DispatchBody) : fromValue body.toValue = some body := by
  have hstring (s : String) : Value.asStr (.string s) = some s := rfl
  have hstrings := Value.asOption_option hstring fun s ↦ (by simp : Value.string s ≠ .null)
  have hbool (b : Bool) : Value.asBool (.bool b) = some b := rfl
  have hnats := Value.asOption_option (fun n ↦ (rfl : Value.asU64 (.nat n) = some n))
    fun n ↦ (by simp [Value.nat] : Value.nat n ≠ .null)
  have hfloats := Value.asOption_option Value.asF64_f64
    fun x ↦ (by simp [Value.f64] : Value.f64 x ≠ .null)
  have htiers := Value.asOption_option Value.asU8_nat
    fun n ↦ (by simp [Value.nat] : Value.nat n.toNat ≠ .null)
  have hstruct : body.toValue.asStruct 17 = some body.toValue := rfl
  have hmodel : body.toValue.required Value.asStr "model" 0 = some body.model := by
    have hget : body.toValue.field? "model" 0 = some (.string body.model) :=
      (get?_toValue body "model").trans rfl
    rw [Value.required, hget]
    rfl
  have hbind {α : Type} (a : α) (next : α → Option DispatchBody) :
      (some a >>= next) = next a := rfl
  rw [fromValue, hstruct, hbind, hmodel, hbind,
    defaulted_toValue (hfloats body.params) rfl, hbind,
    defaulted_toValue (hstring body.quant) rfl, hbind,
    defaulted_toValue (hbool body.moe) rfl, hbind,
    defaulted_toValue (hstrings body.task) rfl, hbind,
    defaulted_toValue (htiers body.minTier) rfl, hbind,
    defaulted_toValue (hbool body.execute) rfl, hbind,
    defaulted_toValue (Value.asU16_nat body.port) rfl, hbind,
    defaulted_toValue (hstrings body.sessionAffinity) rfl, hbind,
    defaulted_toValue (asEnum_privacy body.privacy) rfl, hbind,
    defaulted_toValue (asEnum_preference body.preference) rfl, hbind,
    defaulted_toValue (hnats body.deadlineMs) rfl, hbind,
    defaulted_toValue (Value.asU32_nat body.expectedOutputTokens) rfl, hbind,
    defaulted_toValue (Value.asU8_nat body.priority) rfl, hbind,
    defaulted_toValue (hbool body.allowLegacyToken) rfl, hbind,
    defaulted_toValue (Value.asU16_nat body.protocolMajor) rfl, hbind,
    defaulted_toValue (hstrings body.requestId) rfl, hbind]
  rfl

/-- Different requests have different texts. -/
theorem toValue_inj {body other : DispatchBody} (h : body.toValue = other.toValue) :
    body = other :=
  Option.some.inj ((fromValue_toValue body).symm.trans ((congrArg fromValue h).trans
    (fromValue_toValue other)))

end DispatchBody

end Cameo.Hub
