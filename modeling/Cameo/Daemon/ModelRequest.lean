import Cameo.Json

/-!
# Model requests

The description of a model to serve, as the API accepts it and as an endpoint intent persists it.
A field left out has its default, and fields the daemon adds to an intent are ignored on reading,
so a persisted request reads back as it was written.
-/

namespace Cameo.Daemon

open Json

/-- `ModelRequest`. -/
structure ModelRequest where
  model : String
  modelSha256 : Option String
  host : String
  port : UInt16
  params : Option Value.FiniteF64
  quant : String
  moe : Bool
  context : UInt32
  nativeContext : Option UInt32
  slots : UInt16
  kvCache : String
  kvHeads : Option UInt32
  headDim : Option UInt32
  batch : UInt32
  ubatch : UInt32
  flashAttention : Bool
  cacheReuse : UInt32
  cacheRamMib : UInt32
  metrics : Bool
  slotSavePath : Option String
  layers : UInt32
  backend : Option String
deriving DecidableEq

namespace ModelRequest

/-- `default_host`. -/
def defaultHost : String := "127.0.0.1"

/-- `default_port`. -/
def defaultPort : UInt16 := 8080

/-- `default_quant`. -/
def defaultQuant : String := "Q4_K_M"

/-- `default_context`. -/
def defaultContext : UInt32 := 0

/-- `default_slots`. -/
def defaultSlots : UInt16 := 1

/-- `default_kv_cache`. -/
def defaultKvCache : String := "q8_0"

/-- `default_batch`. -/
def defaultBatch : UInt32 := 2048

/-- `default_ubatch`. -/
def defaultUbatch : UInt32 := 512

/-- `default_cache_reuse`. -/
def defaultCacheReuse : UInt32 := 256

/-- A request that names only its model and parameter count, as `maybe_autostart` makes it. -/
def named (model : String) (params : Option Value.FiniteF64) : ModelRequest where
  model := model
  modelSha256 := none
  host := defaultHost
  port := defaultPort
  params := params
  quant := defaultQuant
  moe := false
  context := defaultContext
  nativeContext := none
  slots := defaultSlots
  kvCache := defaultKvCache
  kvHeads := none
  headDim := none
  batch := defaultBatch
  ubatch := defaultUbatch
  flashAttention := true
  cacheReuse := defaultCacheReuse
  cacheRamMib := 0
  metrics := true
  slotSavePath := none
  layers := 0
  backend := none

def fields (body : ModelRequest) : List (String × Value) := [
  ("model", .string body.model),
  ("model_sha256", .option .string body.modelSha256),
  ("host", .string body.host),
  ("port", .nat body.port.toNat),
  ("params", .option .f64 body.params),
  ("quant", .string body.quant),
  ("moe", .bool body.moe),
  ("context", .nat body.context.toNat),
  ("native_context", .option (.nat ·.toNat) body.nativeContext),
  ("slots", .nat body.slots.toNat),
  ("kv_cache", .string body.kvCache),
  ("kv_heads", .option (.nat ·.toNat) body.kvHeads),
  ("head_dim", .option (.nat ·.toNat) body.headDim),
  ("batch", .nat body.batch.toNat),
  ("ubatch", .nat body.ubatch.toNat),
  ("flash_attention", .bool body.flashAttention),
  ("cache_reuse", .nat body.cacheReuse.toNat),
  ("cache_ram_mib", .nat body.cacheRamMib.toNat),
  ("metrics", .bool body.metrics),
  ("slot_save_path", .option .string body.slotSavePath),
  ("layers", .nat body.layers.toNat),
  ("backend", .option .string body.backend)]

/-- `serde_json::to_value` of a request. -/
def toValue (body : ModelRequest) : Value := .ofFields body.fields

/-- `serde_json::from_value` of a request.  Serde would also read the fields from an array, by
position; the daemon writes none. -/
def fromValue (value : Value) : Option ModelRequest := do
  let model ← (value.get? "model").bind Value.asStr
  let modelSha256 ← value.fieldOr none (Value.asOption Value.asStr) "model_sha256"
  let host ← value.fieldOr defaultHost Value.asStr "host"
  let port ← value.fieldOr defaultPort Value.asU16 "port"
  let params ← value.fieldOr none (Value.asOption Value.asF64) "params"
  let quant ← value.fieldOr defaultQuant Value.asStr "quant"
  let moe ← value.fieldOr false Value.asBool "moe"
  let context ← value.fieldOr defaultContext Value.asU32 "context"
  let nativeContext ← value.fieldOr none (Value.asOption Value.asU32) "native_context"
  let slots ← value.fieldOr defaultSlots Value.asU16 "slots"
  let kvCache ← value.fieldOr defaultKvCache Value.asStr "kv_cache"
  let kvHeads ← value.fieldOr none (Value.asOption Value.asU32) "kv_heads"
  let headDim ← value.fieldOr none (Value.asOption Value.asU32) "head_dim"
  let batch ← value.fieldOr defaultBatch Value.asU32 "batch"
  let ubatch ← value.fieldOr defaultUbatch Value.asU32 "ubatch"
  let flashAttention ← value.fieldOr true Value.asBool "flash_attention"
  let cacheReuse ← value.fieldOr defaultCacheReuse Value.asU32 "cache_reuse"
  let cacheRamMib ← value.fieldOr 0 Value.asU32 "cache_ram_mib"
  let metrics ← value.fieldOr true Value.asBool "metrics"
  let slotSavePath ← value.fieldOr none (Value.asOption Value.asStr) "slot_save_path"
  let layers ← value.fieldOr 0 Value.asU32 "layers"
  let backend ← value.fieldOr none (Value.asOption Value.asStr) "backend"
  return ⟨model, modelSha256, host, port, params, quant, moe, context, nativeContext, slots,
    kvCache, kvHeads, headDim, batch, ubatch, flashAttention, cacheReuse, cacheRamMib, metrics,
    slotSavePath, layers, backend⟩

def fieldNames : List String := [
  "model", "model_sha256", "host", "port", "params", "quant", "moe", "context", "native_context",
  "slots", "kv_cache", "kv_heads", "head_dim", "batch", "ubatch", "flash_attention", "cache_reuse",
  "cache_ram_mib", "metrics", "slot_save_path", "layers", "backend"]

/-- Reading depends on the request's own fields only. -/
theorem fromValue_congr {left right : Value}
    (h : ∀ field ∈ fieldNames, left.get? field = right.get? field) :
    fromValue left = fromValue right := by
  simp only [fieldNames, List.forall_mem_cons] at h
  simp only [fromValue, Value.fieldOr, h]

/-- A field the daemon adds to an intent does not change the request in it. -/
theorem fromValue_set {field : String} (h : field ∉ fieldNames) (new value : Value) :
    fromValue (value.set field new) = fromValue value := by
  apply fromValue_congr
  intro other hother
  refine Value.get?_set_of_ne ?_ new value
  rintro rfl
  exact h hother

theorem get?_toValue (body : ModelRequest) (field : String) :
    body.toValue.get? field = (body.fields.find? fun pair ↦ pair.1 = field).map Prod.snd := by
  have hnodup : (body.fields.map Prod.fst).Nodup := (by decide : fieldNames.Nodup)
  exact Value.get?_ofFields hnodup field

/-- A persisted request reads back as it was written. -/
theorem fromValue_toValue (body : ModelRequest) : fromValue body.toValue = some body := by
  have hstring (s : String) : Value.asStr (.string s) = some s := rfl
  have hbool (b : Bool) : Value.asBool (.bool b) = some b := rfl
  have hstrings := Value.asOption_option hstring nofun
  have hwords := Value.asOption_option Value.asU32_nat nofun
  have hfloats := Value.asOption_option Value.asF64_f64 nofun
  simp [fromValue, Value.fieldOr, get?_toValue, fields, hstring, hbool, hstrings, hwords, hfloats]

end ModelRequest

end Cameo.Daemon
