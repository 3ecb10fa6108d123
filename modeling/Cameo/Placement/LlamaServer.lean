import Cameo.Command
import Cameo.Placement.Plan

/-!
# The server command

The `llama-server` command line of a plan.
-/

namespace Cameo.Placement

/-- `placement_flags`. -/
def placementFlags (plan : PlacementPlan) : List String :=
  (match plan.offload.gpuLayers with
    | .all => ["-ngl", "999"]
    | .count layers => ["-ngl", toString layers]) ++
  (if plan.offload.expertsOnHost then ["--override-tensor", "exps=CPU"] else []) ++
  (if plan.offload.kvOnHost then ["--no-kv-offload"] else []) ++
  (match plan.multiGpu with
    | .layerSplit fractions => ["--split-mode", "layer", "--tensor-split",
        ",".intercalate (fractions.map (FloatValue.fixed 3))]
    | .expertParallel => ["--split-mode", "layer"]
    | .single | .fsdp _ => [])

/-- `build_llama_server`. -/
def buildLlamaServer (plan : PlacementPlan) (model : ModelMeta)
    (modelPath binary host : String) (port : UInt16) (apiKey : Option String) : CommandSpec :=
  let totalContext := min (model.contextLen.toNat * model.parallelSlots.toNat) (2 ^ 32 - 1)
  { program := binary
    args :=
      ["-m", modelPath, "-c", toString totalContext, "-np", toString model.parallelSlots,
        "--cont-batching", "-b", toString model.batchSize, "-ub", toString model.ubatchSize,
        "--host", host, "--port", toString port] ++
      (match model.kvCacheType with
        | some cache => ["-ctk", cache.asLlama, "-ctv", cache.asLlama]
        | none => []) ++
      (if model.flashAttention then ["--flash-attn", "on"] else []) ++
      (if model.cacheReuse > 0 then ["--cache-reuse", toString model.cacheReuse] else []) ++
      (if model.cacheRamMib > 0 then ["--cache-ram", toString model.cacheRamMib] else []) ++
      (if model.metrics then ["--metrics", "--slots"] else []) ++
      (match model.slotSavePath with
        | some path => ["--slot-save-path", path]
        | none => []) ++
      placementFlags plan
    env := plan.env
    secretEnv :=
      match apiKey with
      | some key => [("LLAMA_API_KEY", key)]
      | none => [] }

end Cameo.Placement
