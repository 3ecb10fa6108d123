import Cameo.Placement.Model
import Cameo.Placement.Topology

/-!
# The planner

Where a model should run on a machine: the memory budget of a topology, the choice of backend, the
offload of what does not fit and the spread over several GPUs, with a note on every decision.  A
plan is sized against the VRAM that is free when the topology is read.
-/

namespace Cameo.Placement

/-! ## Offload of mixture-of-experts models -/

/-- `GpuLayers`, of the planner and of the expert offload alike. -/
inductive GpuLayers where
  | all
  | count (layers : ℕ)
deriving DecidableEq

namespace MoeHarness

/-- `OffloadRequest`. -/
structure OffloadRequest where
  totalBytes : ℕ
  weightsBytes : ℕ
  offloadableExpertBytes : ℕ
  nLayers : UInt32
  usableVramBytes : ℕ

/-- `OffloadPlan`. -/
structure OffloadPlan where
  gpuLayers : GpuLayers
  expertsOnHost : Bool
  kvOnHost : Bool
  notes : List String

/-- `gib`, of the expert offload. -/
def gib (bytes : ℕ) : F64 := .ofNat bytes / .ofNat (1024 * 1024 * 1024)

/-- `estimate_gpu_layers`, of the expert offload. -/
def estimateGpuLayers (residentBytes : ℕ) (nLayers : UInt32) (usable : ℕ) : ℕ :=
  let layers := max nLayers.toNat 1
  let perLayer : F64 := .ofNat residentBytes / .ofNat layers
  if perLayer.le .zero then layers
  else min ((.ofNat usable / perLayer : F64).toUnsigned (2 ^ 32 - 1)) layers

/-- `plan_offload`. -/
def planOffload (req : OffloadRequest) : OffloadPlan :=
  let expert := req.offloadableExpertBytes
  let resident := req.totalBytes - expert
  if resident ≤ req.usableVramBytes then
    ⟨.all, true, false, ["MoE experts (~" ++ (gib expert).fixed 1 ++
      " GiB) offloaded to host RAM; ~" ++ (gib resident).fixed 1 ++ " GiB stays resident."]⟩
  else
    let residentWeights := req.weightsBytes - expert
    ⟨.count (estimateGpuLayers residentWeights req.nLayers req.usableVramBytes), true, true,
      ["MoE model tight even with experts on host; also offloading layers/KV — expect lower " ++
        "throughput."]⟩

end MoeHarness

/-! ## Settings and plans -/

/-- `Backend`. -/
inductive Backend where
  | auto
  | vulkan
  | rocm
  | cpu
deriving DecidableEq

def Backend.debug : Backend → String
  | .auto => "Auto"
  | .vulkan => "Vulkan"
  | .rocm => "Rocm"
  | .cpu => "Cpu"

/-- `Settings`, as far as planning and serving read it. -/
structure Settings where
  backend : Option Backend
  hsaOverride : Option String
  allowOversize : Option Bool
  serveApiKey : Option String

/-- `Task`. -/
inductive Task where
  | inference
  | training
deriving DecidableEq

/-- `MultiGpu`. -/
inductive MultiGpu where
  | single
  | layerSplit (fractions : List F32)
  | expertParallel
  | fsdp (shards : ℕ)
deriving DecidableEq

/-- `Offload`. -/
structure Offload where
  gpuLayers : GpuLayers
  expertsOnHost : Bool
  kvOnHost : Bool
deriving DecidableEq

/-- `MemoryBudget`. -/
structure MemoryBudget where
  vramBytes : ℕ
  vramUsedBytes : ℕ
  vramUsedKnown : Bool
  gttReachableBytes : ℕ
  usableHostBytes : Option ℕ
  vramKnown : Bool
  sharedMemory : Bool
deriving DecidableEq

/-- `PlacementPlan`. -/
structure PlacementPlan where
  task : Task
  backend : Backend
  gpuCount : ℕ
  multiGpu : MultiGpu
  offload : Offload
  budget : MemoryBudget
  env : List (String × String)
  fitsInVram : Bool
  notes : List String
deriving DecidableEq

/-! ## The memory budget -/

/-- `VRAM_HEADROOM`. -/
def vramHeadroom : F64 := .ofRatio 90 100

/-- `HOST_HEADROOM`. -/
def hostHeadroom : F64 := .ofRatio 75 100

/-- `TRAINING_FOOTPRINT_MULT`. -/
def trainingFootprintMult : ℕ := 4

/-- `scale`. -/
def scale (bytes : ℕ) (factor : F64) : ℕ :=
  let v := .ofNat bytes * factor
  if !v.isFinite || v.le .zero then 0
  else if FloatValue.le (.ofNat u64Max) v then u64Max
  else v.toUnsigned u64Max

/-- A sum of byte counts, saturating. -/
def sumBytes (counts : List ℕ) : ℕ := counts.foldl saturatingAdd 0

namespace MemoryBudget

/-- `MemoryBudget::of`. -/
def of (topo : Topology) : MemoryBudget :=
  let sharedMemory := topo.gpus.any fun gpu ↦ gpu.memory.isSharedWithHost
  let usableHost := topo.hostMem.map fun host ↦ scale host.availableBytes hostHeadroom
  { vramBytes := scale (sumBytes (topo.gpus.filterMap GpuInfo.vramBytes)) vramHeadroom
    vramUsedBytes := sumBytes ((topo.gpus.filterMap GpuInfo.vramUsedMb).map mibBytes)
    vramUsedKnown := !topo.gpus.isEmpty && topo.gpus.all fun gpu ↦ gpu.vramUsedMb.isSome
    gttReachableBytes :=
      -- The aperture is a window onto the host budget, so an unknown host budget bounds it by zero.
      if sharedMemory then
        let gtt := sumBytes ((topo.gpus.filter fun gpu ↦ gpu.memory.isSharedWithHost).filterMap
          GpuInfo.gttBytes)
        match usableHost with
        | some host => min gtt host
        | none => 0
      else 0
    usableHostBytes := usableHost
    vramKnown := !topo.gpus.isEmpty && topo.gpus.all fun gpu ↦ gpu.vramMb.isSome
    sharedMemory := sharedMemory }

/-- `MemoryBudget::usable_vram`. -/
def usableVram (budget : MemoryBudget) : ℕ :=
  saturatingAdd (budget.vramBytes - budget.vramUsedBytes) budget.gttReachableBytes

/-- `MemoryBudget::ceiling_bytes`. -/
def ceilingBytes (budget : MemoryBudget) : Option ℕ :=
  budget.usableHostBytes.map fun host ↦ saturatingAdd budget.vramBytes host

end MemoryBudget

/-! ## Decisions -/

/-- `resolve_backend`. -/
def resolveBackend (override : Option Backend) (top : TierAssessment) (task : Task) :
    Except Error Backend :=
  match task with
  | .training =>
    if !top.trainingSupported then .error (.trainingUnsupported top.tier.asNumber) else .ok .rocm
  | .inference =>
    match override with
    | some .vulkan => .ok .vulkan
    | some .rocm =>
      if top.trainingSupported then .ok .rocm
      else .error (.backendUnsupported ("ROCm was forced but the best detected GPU is Tier " ++
        toString top.tier.asNumber))
    | _ => .ok (if top.trainingSupported then .rocm else .vulkan)

/-- `check_ceiling`. -/
def checkCeiling (budget : MemoryBudget) (need : ℕ) (settings : Settings) : Except Error Unit :=
  if settings.allowOversize.getD false || !budget.vramKnown then .ok ()
  else
    match budget.ceilingBytes with
    | none => .ok ()
    | some ceiling =>
      if need > ceiling then .error (.insufficientMemory (gib need) (gib ceiling)) else .ok ()

/-- `single_gpu_usable`. -/
def singleGpuUsable (topo : Topology) (index : ℕ) : ℕ :=
  ((topo.gpus[index]?.bind GpuInfo.vramBytes).map fun bytes ↦ scale bytes vramHeadroom).getD 0

/-- `vram_fractions`. -/
def vramFractions (topo : Topology) : List F32 :=
  let vrams := topo.gpus.map fun gpu ↦ gpu.vramMb.getD 0
  let total := sumBytes vrams
  let n := max topo.gpuCount 1
  if total = 0 then List.replicate n (.ofNat 1 / .ofNat n)
  else vrams.map fun vram ↦ .ofNat vram / .ofNat total

/-- `estimate_gpu_layers`. -/
def estimateGpuLayers (residentBytes : ℕ) (nLayers : UInt32) (usable : ℕ) : ℕ :=
  let layers := max nLayers.toNat 1
  let perLayer : F64 := .ofNat residentBytes / .ofNat layers
  if perLayer.le .zero then layers
  else min ((.ofNat usable / perLayer : F64).toUnsigned (2 ^ 32 - 1)) layers

/-- `choose_inference_multi_gpu`: the spread, and the notes on it. -/
def chooseInferenceMultiGpu (topo : Topology) (model : ModelMeta) (budget : MemoryBudget)
    (expertsOnHost : Bool) : MultiGpu × List String :=
  let n := topo.gpuCount
  if n ≤ 1 then (.single, [])
  else
    let link := topo.bottleneckLink.getD .hostOnly
    let fitsOne := budget.vramKnown && model.totalBytes ≤ singleGpuUsable topo 0
    if fitsOne && link = .hostOnly then
      (.single, ["Multiple GPUs present but host-only linked; model fits one card, so using a " ++
        "single GPU avoids slow cross-card traffic."])
    else
      let note :=
        if model.isMoe && !expertsOnHost then
          "Native expert-parallel execution is not available in the current llama.cpp " ++
            "boundary; splitting the MoE model by layer across " ++ toString n ++ " GPUs over " ++
            link.debug ++ "."
        else if model.isMoe then
          "MoE experts are on host RAM, so the " ++ toString n ++ " GPUs split the resident " ++
            "(non-expert) weights by VRAM proportion over " ++ link.debug ++ " link."
        else
          "Splitting dense model across " ++ toString n ++ " GPUs by VRAM proportion over " ++
            link.debug ++ " link."
      (.layerSplit (vramFractions topo), [note])

/-- `gpu_count_for`. -/
def gpuCountFor (multi : MultiGpu) (n : ℕ) : ℕ :=
  match multi with
  | .single => 1
  | .layerSplit fractions => fractions.length
  | .expertParallel => n
  | .fsdp shards => shards

/-! ## Plans -/

/-- `plan_cpu`. -/
def planCpu (topo : Topology) (model : ModelMeta) (task : Task) (settings : Settings) :
    Except Error PlacementPlan :=
  if task = .training then .error .cpuInferenceOnly
  else
    let budget := MemoryBudget.of topo
    let need := model.totalBytes
    let intro := "No usable GPU — running on CPU in system RAM (works on any x86-64 CPU)."
    let planned (fits : Bool) (note : String) : PlacementPlan :=
      ⟨.inference, .cpu, 0, .single, ⟨.count 0, false, false⟩, budget, [], fits, [intro, note]⟩
    match budget.usableHostBytes with
    | some host =>
      if need > host && !settings.allowOversize.getD false then
        .error (.insufficientMemory (gib need) (gib host))
      else .ok (planned (need ≤ host) ("Model ~" ++ (gib need).fixed 1 ++ " GiB against ~" ++
        (gib host).fixed 1 ++ " GiB of usable RAM."))
    | none => .ok (planned false ("Host RAM unknown (no /proc/meminfo); running on CPU " ++
        "unchecked — if it OOMs, use a smaller model or a heavier quantization."))

/-- What leaves the GPU, and the note on it, for a model sized against the usable VRAM. -/
def inferenceOffload (model : ModelMeta) (budget : MemoryBudget) : Offload × List String :=
  let need := model.totalBytes
  let usable := budget.usableVram
  if !budget.vramKnown then
    (⟨.all, false, false⟩, ["VRAM unknown; attempting full GPU offload (-ngl 999). If the model " ++
      "OOMs, pass --params for a real estimate or set layers manually."])
  else if need ≤ usable then
    (⟨.all, false, false⟩, ["Model ~" ++ (gib need).fixed 1 ++ " GiB fits ~" ++
      (gib usable).fixed 1 ++ " GiB usable VRAM; full GPU offload."])
  else if model.isMoe then
    let moe := MoeHarness.planOffload
      ⟨need, model.weightsBytes, model.offloadableExpertBytes, model.nLayers, usable⟩
    (⟨moe.gpuLayers, moe.expertsOnHost, moe.kvOnHost⟩, moe.notes)
  else
    let layers := estimateGpuLayers (saturatingAdd model.weightsBytes model.kvBytes) model.nLayers
      usable
    (⟨.count layers, false, false⟩, [
      if layers = 0 then "Model far exceeds VRAM; running mostly on CPU — low throughput."
      else "Dense model exceeds VRAM; " ++ toString layers ++
        " layers on GPU, remainder on host."])

/-- `plan_inference`. -/
def planInference (topo : Topology) (model : ModelMeta) (backend : Backend)
    (env : List (String × String)) (budget : MemoryBudget) (settings : Settings)
    (notes : List String) : Except Error PlacementPlan :=
  match checkCeiling budget model.totalBytes settings with
  | .error e => .error e
  | .ok () =>
    let offload := inferenceOffload model budget
    let multi := chooseInferenceMultiGpu topo model budget offload.1.expertsOnHost
    .ok ⟨.inference, backend, gpuCountFor multi.1 topo.gpuCount, multi.1, offload.1, budget, env,
      budget.vramKnown && model.totalBytes ≤ budget.usableVram, notes ++ offload.2 ++ multi.2⟩

/-- `plan_training`. -/
def planTraining (topo : Topology) (model : ModelMeta) (backend : Backend)
    (env : List (String × String)) (budget : MemoryBudget) (settings : Settings)
    (notes : List String) : Except Error PlacementPlan :=
  let need := saturatingMul model.weightsBytes trainingFootprintMult
  match checkCeiling budget need settings with
  | .error e => .error e
  | .ok () =>
    let usable := budget.usableVram
    let fits := budget.vramKnown && need ≤ usable
    let n := topo.gpuCount
    let spread : MultiGpu × List String :=
      if n ≤ 1 then
        (.single, [
          if !budget.vramKnown then "VRAM unknown; assuming the training footprint fits. Enable " ++
            "gradient checkpointing and optimizer offload (ZeRO-Offload) if it OOMs."
          else if !fits then "Single GPU: training footprint exceeds VRAM; enable gradient " ++
            "checkpointing and optimizer offload (ZeRO-Offload)."
          else "Training footprint ~" ++ (gib need).fixed 1 ++ " GiB fits ~" ++
            (gib usable).fixed 1 ++ " GiB usable VRAM."])
      else
        let link := topo.bottleneckLink.getD .hostOnly
        let shards := "Sharding optimizer/grads/params across " ++ toString n ++
          " GPUs (FSDP/ZeRO) over " ++ link.debug ++ " link via RCCL."
        let slow := "Host-only inter-GPU link: expect sync to be bandwidth-bound; consider " ++
          "gradient compression / less-frequent sync."
        (.fsdp n, if link = .hostOnly then [shards, slow] else [shards])
    .ok ⟨.training, backend, gpuCountFor spread.1 n, spread.1, ⟨.all, false, false⟩, budget, env,
      fits, notes ++ spread.2⟩

def topAssessment : List TierAssessment → Option TierAssessment
  | [] => none
  | assessment :: rest =>
    match topAssessment rest with
    | none => some assessment
    | some best =>
      some (if best.tier.asNumber < assessment.tier.asNumber then best else assessment)

def budgetNotes (budget : MemoryBudget) (assessments : List TierAssessment)
    (top : TierAssessment) : List String :=
  (if !budget.vramKnown then
    ["VRAM unknown for at least one GPU; planning conservatively."] else []) ++
  (if budget.vramUsedKnown && budget.vramUsedBytes > 0 then
    ["~" ++ (gib budget.vramUsedBytes).fixed 1 ++
      " GiB of VRAM is already in use and excluded from this plan."] else []) ++
  (if assessments.any fun assessment ↦ assessment.tier ≠ top.tier then
    ["Mixed GPU tiers detected; planning to the top GPU's tier."] else []) ++
  (match budget.usableHostBytes with
    | some host => ["~" ++ (gib host).fixed 1 ++ " GiB of host RAM available for offload."]
    | none => ["Host RAM unknown (no /proc/meminfo); offload sizing is unchecked. Plans that " ++
        "spill to host RAM here are not verified to fit."]) ++
  (if budget.sharedMemory then
    ["Integrated GPU: its memory is carved from system RAM, so GPU and host offload draw on one " ++
      "pool rather than two."] else [])

def runsOnCpu (topo : Topology) (settings : Settings) : Bool :=
  topo.gpus.isEmpty || settings.backend = some .cpu

/-- `plan`. -/
def plan (topo : Topology) (assessments : List TierAssessment) (model : ModelMeta) (task : Task)
    (settings : Settings) : Except Error PlacementPlan :=
  match model.validate with
  | .error e => .error e
  | .ok () =>
    if runsOnCpu topo settings then planCpu topo model task settings
    else
      match topAssessment assessments with
      | none => .error .noGpus
      | some top =>
        match resolveBackend settings.backend top task with
        | .error e => .error e
        | .ok backend =>
          let env := match settings.hsaOverride <|> top.hsaOverride with
            | some version => [("HSA_OVERRIDE_GFX_VERSION", version)]
            | none => []
          let budget := MemoryBudget.of topo
          let notes := budgetNotes budget assessments top
          match task with
          | .inference => planInference topo model backend env budget settings notes
          | .training => planTraining topo model backend env budget settings notes

/-! ## What an inference plan says -/

/-- A model keeps all its layers on the GPU if it fits the usable VRAM. -/
theorem gpuLayers_inferenceOffload {model : ModelMeta} {budget : MemoryBudget}
    (h : model.totalBytes ≤ budget.usableVram) :
    (inferenceOffload model budget).1.gpuLayers = .all := by
  unfold inferenceOffload
  dsimp only
  rw [if_pos h]
  split <;> rfl

/-- An inference plan is made for the CPU alone, without GPU layers, or it claims to fit exactly if
the model fits the VRAM that was usable when the topology was read; then it keeps all layers on
the GPU. -/
theorem plan_inference {topo : Topology} {assessments : List TierAssessment} {model : ModelMeta}
    {settings : Settings} {made : PlacementPlan}
    (h : plan topo assessments model .inference settings = .ok made) :
    made.budget = .of topo ∧
      ((runsOnCpu topo settings = true ∧ made.offload.gpuLayers = .count 0) ∨
        (runsOnCpu topo settings = false ∧
          made.fitsInVram = (made.budget.vramKnown &&
            decide (model.totalBytes ≤ made.budget.usableVram)) ∧
          (made.fitsInVram = true → made.offload.gpuLayers = .all))) := by
  unfold plan at h
  split at h
  · cases h
  split at h
  · rename_i hcpu
    unfold planCpu at h
    rw [if_neg nofun] at h
    dsimp only at h
    split at h
    · split at h
      · cases h
      · cases h
        exact ⟨rfl, .inl ⟨hcpu, rfl⟩⟩
    · cases h
      exact ⟨rfl, .inl ⟨hcpu, rfl⟩⟩
  · rename_i hgpu
    split at h
    · cases h
    split at h
    · cases h
    dsimp only at h
    unfold planInference at h
    split at h
    · cases h
    cases h
    refine ⟨rfl, .inr ⟨Bool.not_eq_true _ ▸ hgpu, rfl, ?_⟩⟩
    intro hfits
    simp only [Bool.and_eq_true, decide_eq_true_eq] at hfits
    exact gpuLayers_inferenceOffload hfits.2

end Cameo.Placement
