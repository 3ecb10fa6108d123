import Cameo.Float
import Cameo.Library.Fallible
import Cameo.Text

/-!
# Model descriptions

What the planner knows of a model, the checks a description must pass before any arithmetic, and the
memory it is estimated to take.  Byte counts saturate at the largest `u64`.
-/

namespace Cameo.Placement

/-- `Error`, as far as the planner raises it. -/
inductive Error where
  | noGpus
  | invalidModel (message : String)
  | insufficientMemory (neededGib availableGib : F64)
  | missingApiKey (agent : String)
  | trainingUnsupported (tier : ℕ)
  | backendUnsupported (message : String)
  | cpuInferenceOnly
  | noNodes
  | noTrainableNode
  | unknownProvider (provider : String)
  | nodeNotFound (name : String)
  | invalidNodeAddress (address : String)
  | localAgentTooLarge (agent : String)
deriving DecidableEq

def Error.message : Error → String
  | .noGpus => "no GPUs available to plan for"
  | .invalidModel message => "invalid model description: " ++ message
  | .insufficientMemory needed available => "model needs ~" ++ needed.fixed 1 ++
      " GiB but this machine can offer ~" ++ available.fixed 1 ++ " GiB of VRAM + host RAM; " ++
      "use a smaller model or a heavier quantization, or pass --allow-oversize to plan it anyway"
  | .missingApiKey agent => "serving agent '" ++ agent ++ "' on a non-loopback address needs an " ++
      "API key; set serve_api_key in config (or give the node a loopback address)"
  | .trainingUnsupported tier => "training requires a Tier 1/2 (ROCm) GPU; the top detected GPU " ++
      "is Tier " ++ toString tier
  | .backendUnsupported message => "requested backend is unsupported: " ++ message
  | .cpuInferenceOnly => "training needs a GPU; this machine has no usable GPU, so only CPU " ++
      "inference is available"
  | .noNodes => "no nodes in the cluster to place onto"
  | .noTrainableNode => "no node in the cluster can train (every node is Tier 3)"
  | .unknownProvider provider => "unknown cloud provider '" ++ provider ++
      "' (known: anthropic, openai)"
  | .nodeNotFound name => "node '" ++ name ++ "' not found in the cluster"
  | .invalidNodeAddress address => "node address '" ++ address ++ "' is malformed"
  | .localAgentTooLarge agent => "local agent '" ++ agent ++ "' model does not fit any single " ++
      "node; distributed serving is v2"

/-- `gib`. -/
def gib (bytes : ℕ) : F64 := .ofNat bytes / .ofNat (1024 * 1024 * 1024)

/-! ## Formats -/

/-- `QuantLevel`. -/
inductive QuantLevel where
  | f16
  | q8_0
  | q6_K
  | q5_K_M
  | q4_K_M
  | q4_0
deriving DecidableEq

namespace QuantLevel

/-- `QuantLevel::bits_per_weight`. -/
def bitsPerWeight : QuantLevel → F64
  | .f16 => .ofNat 16
  | .q8_0 => .ofRatio 85 10
  | .q6_K => .ofRatio 656 100
  | .q5_K_M => .ofRatio 55 10
  | .q4_K_M => .ofRatio 485 100
  | .q4_0 => .ofRatio 45 10

def names : List (String × QuantLevel) := [
  ("F16", .f16), ("FP16", .f16), ("Q8_0", .q8_0), ("Q8", .q8_0), ("Q6_K", .q6_K), ("Q6", .q6_K),
  ("Q5_K_M", .q5_K_M), ("Q5", .q5_K_M), ("Q4_K_M", .q4_K_M), ("Q4", .q4_K_M), ("Q4_0", .q4_0)]

/-- `QuantLevel::parse`.  The source compares upper case; none of the letters in a level's name is
the upper case of a letter outside ASCII. -/
def parse (s : String) : Option QuantLevel :=
  (names.find? fun entry ↦ eqIgnoreAsciiCase entry.1 s).map Prod.snd

end QuantLevel

/-- `KvCacheType`. -/
inductive KvCacheType where
  | f16
  | bf16
  | q8_0
  | q4_0
deriving DecidableEq

namespace KvCacheType

/-- `KvCacheType::as_llama`. -/
def asLlama : KvCacheType → String
  | .f16 => "f16"
  | .bf16 => "bf16"
  | .q8_0 => "q8_0"
  | .q4_0 => "q4_0"

/-- `KvCacheType::parse`. -/
def parse (value : String) : Option KvCacheType :=
  [f16, bf16, q8_0, q4_0].find? fun cache ↦ eqIgnoreAsciiCase cache.asLlama value

/-- `KvCacheType::bits`. -/
def bits : KvCacheType → ℕ
  | .f16 | .bf16 => 16
  | .q8_0 => 8
  | .q4_0 => 4

end KvCacheType

/-! ## Descriptions -/

/-- `KV_BYTES_PER_LAYER_PER_TOKEN`. -/
def kvBytesPerLayerPerToken : ℕ := 4096

/-- `MOE_EXPERT_PARAM_FRACTION`. -/
def moeExpertParamFraction : F64 := .ofRatio 9 10

/-- `MAX_PARAMS_B`. -/
def maxParamsB : F64 := .ofNat 100000

/-- `MAX_CONTEXT_LEN`. -/
def maxContextLen : ℕ := 2 ^ 24

/-- `MAX_LAYERS`. -/
def maxLayers : ℕ := 4096

/-- `ModelMeta`. -/
structure ModelMeta where
  name : String
  paramsB : F64
  quant : QuantLevel
  isMoe : Bool
  nLayers : UInt32
  contextLen : UInt32
  nativeContextLen : Option UInt32
  parallelSlots : UInt16
  weightsBytesOverride : Option ℕ
  kvHeads : Option UInt32
  headDim : Option UInt32
  kvElementBytes : UInt8
  kvCacheType : Option KvCacheType
  batchSize : UInt32
  ubatchSize : UInt32
  flashAttention : Bool
  cacheReuse : UInt32
  cacheRamMib : UInt32
  metrics : Bool
  slotSavePath : Option String
  expertParamFraction : Option F64

/-- `default_layers`. -/
def defaultLayers (paramsB : F64) : UInt32 :=
  if paramsB.lt (.ofNat 4) then 26
  else if paramsB.lt (.ofNat 10) then 32
  else if paramsB.lt (.ofNat 40) then 40
  else if paramsB.lt (.ofNat 90) then 80
  else 96

/-- `bytes_from_f64`. -/
def bytesFromF64 (v : F64) : ℕ :=
  if v.isNan || v.le .zero then 0
  else if FloatValue.le (.ofNat u64Max) v then u64Max
  else v.toUnsigned u64Max

/-- Four fifths of a context length, in `u32`. -/
def fourFifths (n : UInt32) : UInt32 := .ofNat (min (n.toNat * 80) (2 ^ 32 - 1) / 100)

namespace ModelMeta

/-- `ModelMeta::dense`. -/
def dense (name : String) (paramsB : F64) (quant : QuantLevel) : ModelMeta where
  name := name
  paramsB := paramsB
  quant := quant
  isMoe := false
  nLayers := defaultLayers paramsB
  contextLen := 4096
  nativeContextLen := none
  parallelSlots := 1
  weightsBytesOverride := none
  kvHeads := none
  headDim := none
  kvElementBytes := 2
  kvCacheType := none
  batchSize := 2048
  ubatchSize := 512
  flashAttention := false
  cacheReuse := 0
  cacheRamMib := 0
  metrics := false
  slotSavePath := none
  expertParamFraction := none

/-- `ModelMeta::moe`. -/
def moe (name : String) (paramsB : F64) (quant : QuantLevel) : ModelMeta :=
  { dense name paramsB quant with isMoe := true }

/-- `ModelMeta::validate`. -/
def validate (model : ModelMeta) : Except Error Unit :=
  let params := model.paramsB.display
  let limit := toString maxContextLen
  if !model.paramsB.isFinite then
    .error (.invalidModel ("parameter count must be a finite number, got " ++ params))
  else if model.paramsB.le .zero then
    .error (.invalidModel ("parameter count must be greater than zero, got " ++ params))
  else if maxParamsB.lt model.paramsB then
    .error (.invalidModel ("parameter count " ++ params ++ " B exceeds the " ++
      maxParamsB.display ++ " B ceiling; pass the size in billions (a 7B model is `--params 7`)"))
  else if model.contextLen = 0 ∨ model.contextLen.toNat > maxContextLen then
    .error (.invalidModel ("context length must be between 1 and " ++ limit ++ ", got " ++
      toString model.contextLen))
  else if model.parallelSlots = 0 then
    .error (.invalidModel "parallel slot count must be at least 1")
  else if model.nativeContextLen.any fun n ↦ n = 0 || n.toNat > maxContextLen then
    .error (.invalidModel ("native context length must be between 1 and " ++ limit))
  else if model.batchSize = 0 ∨ model.ubatchSize = 0 ∨ model.ubatchSize > model.batchSize then
    .error (.invalidModel ("batch sizes require 1 <= ubatch (" ++ toString model.ubatchSize ++
      ") <= batch (" ++ toString model.batchSize ++ ")"))
  else if model.nLayers = 0 ∨ model.nLayers.toNat > maxLayers then
    .error (.invalidModel ("layer count must be between 1 and " ++ toString maxLayers ++
      ", got " ++ toString model.nLayers))
  else if model.kvElementBytes = 0 ∨ model.kvElementBytes > 8 then
    .error (.invalidModel ("KV element width must be between 1 and 8 bytes, got " ++
      toString model.kvElementBytes))
  else if model.expertParamFraction.any fun fraction ↦
      !fraction.isFinite || !(FloatValue.zero.le fraction && fraction.le (.ofNat 1)) then
    .error (.invalidModel "expert parameter fraction must be between 0 and 1")
  else .ok ()

/-- `ModelMeta::with_file_size`, given the size of the file if it can be read. -/
def withFileSize (size : Option ℕ) (model : ModelMeta) : ModelMeta :=
  { model with weightsBytesOverride := size }

/-- `ModelMeta::weights_bytes`. -/
def weightsBytes (model : ModelMeta) : ℕ :=
  model.weightsBytesOverride.getD (bytesFromF64
    (model.paramsB * .ofNat 1000000000 * model.quant.bitsPerWeight / .ofNat 8))

/-- `ModelMeta::offloadable_expert_bytes`. -/
def offloadableExpertBytes (model : ModelMeta) : ℕ :=
  if model.isMoe then
    bytesFromF64 (.ofNat model.weightsBytes *
      model.expertParamFraction.getD moeExpertParamFraction)
  else 0

def kvPerLayerToken (model : ModelMeta) : ℕ :=
  match model.kvHeads, model.headDim, model.kvCacheType with
  | some heads, some dim, some cache =>
    saturatingAdd (saturatingMul (saturatingMul (saturatingMul 2 heads.toNat) dim.toNat)
      cache.bits) 7 / 8
  | some heads, some dim, none =>
    saturatingMul (saturatingMul (saturatingMul 2 heads.toNat) dim.toNat)
      model.kvElementBytes.toNat
  | _, _, some cache => saturatingMul kvBytesPerLayerPerToken cache.bits / 16
  | _, _, none => kvBytesPerLayerPerToken

/-- `ModelMeta::kv_bytes`. -/
def kvBytes (model : ModelMeta) : ℕ :=
  saturatingMul (saturatingMul (saturatingMul model.nLayers.toNat model.contextLen.toNat)
    model.parallelSlots.toNat) model.kvPerLayerToken

/-- `ModelMeta::clamp_to_native_context`. -/
def clampToNativeContext (model : ModelMeta) : ModelMeta :=
  match model.nativeContextLen with
  | some native => { model with contextLen := min model.contextLen (max (fourFifths native) 1) }
  | none => model

/-- `ModelMeta::total_bytes`. -/
def totalBytes (model : ModelMeta) : ℕ := saturatingAdd model.weightsBytes model.kvBytes

theorem totalBytes_le (model : ModelMeta) : model.totalBytes ≤ u64Max := min_le_right _ _

theorem validate_of_toBool {model : ModelMeta} (h : model.validate.toBool = true) :
    model.validate = .ok () := by
  cases hanswer : model.validate with
  | ok _ => rfl
  | error e =>
    rw [hanswer] at h
    cases h

/-- What the checks say of the lengths and layers of a description. -/
structure Bounded (model : ModelMeta) : Prop where
  contextLen : model.contextLen.toNat ≤ maxContextLen
  nLayers : model.nLayers ≠ 0 ∧ model.nLayers.toNat ≤ maxLayers

theorem bounded_of_validate {model : ModelMeta} (h : model.validate = .ok ()) : model.Bounded := by
  unfold validate at h
  obtain ⟨-, h⟩ := Library.ite_error_eq_ok.mp h
  obtain ⟨-, h⟩ := Library.ite_error_eq_ok.mp h
  obtain ⟨-, h⟩ := Library.ite_error_eq_ok.mp h
  obtain ⟨hcontext, h⟩ := Library.ite_error_eq_ok.mp h
  obtain ⟨-, h⟩ := Library.ite_error_eq_ok.mp h
  obtain ⟨-, h⟩ := Library.ite_error_eq_ok.mp h
  obtain ⟨-, h⟩ := Library.ite_error_eq_ok.mp h
  obtain ⟨hlayers, -⟩ := Library.ite_error_eq_ok.mp h
  rw [not_or, Nat.not_lt] at hcontext hlayers
  exact ⟨hcontext.2, hlayers⟩

end ModelMeta

end Cameo.Placement
