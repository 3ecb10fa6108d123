import Mathlib.Data.Nat.Notation
import Cameo.Clock
import Cameo.Text

/-!
# GPU topology and support tiers

What detection reports about a machine: its GPUs with their memory, the links between them and the
host memory, and the support tier of each GPU.  The fields only a display of the machine reads are
left out.
-/

namespace Cameo.Placement

/-! ## Detected hardware -/

/-- `MemoryKind`. -/
inductive MemoryKind where
  | dedicated
  | shared
  | unknown
deriving DecidableEq

/-- `MemoryKind::is_shared_with_host`. -/
def MemoryKind.isSharedWithHost (kind : MemoryKind) : Bool := kind = .shared

/-- `Vendor`. -/
inductive Vendor where
  | amd
  | nvidia
  | intel
  | other
deriving DecidableEq

/-- `Vendor::label`. -/
def Vendor.label : Vendor → String
  | .amd => "AMD"
  | .nvidia => "NVIDIA"
  | .intel => "Intel"
  | .other => "other"

/-- `GpuInfo`. -/
structure GpuInfo where
  vendor : Vendor
  vramMb : Option ℕ
  vramUsedMb : Option ℕ
  gttMb : Option ℕ
  memory : MemoryKind
  gfxArch : Option String
deriving DecidableEq

def mibBytes (mb : ℕ) : ℕ := saturatingMul mb (1024 * 1024)

/-- `GpuInfo::vram_bytes`. -/
def GpuInfo.vramBytes (gpu : GpuInfo) : Option ℕ := gpu.vramMb.map mibBytes

/-- `GpuInfo::gtt_bytes`. -/
def GpuInfo.gttBytes (gpu : GpuInfo) : Option ℕ := gpu.gttMb.map mibBytes

/-- `LinkKind`. -/
inductive LinkKind where
  | xgmi
  | pcieP2P
  | hostOnly
deriving DecidableEq

/-- `LinkKind::bandwidth_rank`. -/
def LinkKind.bandwidthRank : LinkKind → ℕ
  | .xgmi => 3
  | .pcieP2P => 2
  | .hostOnly => 1

def LinkKind.debug : LinkKind → String
  | .xgmi => "Xgmi"
  | .pcieP2P => "PcieP2P"
  | .hostOnly => "HostOnly"

/-- `Link`. -/
structure Link where
  a : ℕ
  b : ℕ
  kind : LinkKind

/-- `HostMemory`. -/
structure HostMemory where
  totalBytes : ℕ
  availableBytes : ℕ

/-- `Topology`. -/
structure Topology where
  gpus : List GpuInfo
  links : List Link
  hostMem : Option HostMemory

namespace Topology

/-- `Topology::gpu_count`. -/
def gpuCount (topo : Topology) : ℕ := topo.gpus.length

/-- `Topology::link_between`. -/
def linkBetween (topo : Topology) (a b : ℕ) : Option LinkKind :=
  if a = b then none
  else
    let found := topo.links.find? fun link ↦
      (link.a = a && link.b = b) || (link.a = b && link.b = a)
    some ((found.map Link.kind).getD .hostOnly)

/-- `Topology::bottleneck_link`. -/
def bottleneckLink (topo : Topology) : Option LinkKind :=
  if topo.gpus.length < 2 then none
  else
    let pairs := (List.range topo.gpus.length).flatMap fun a ↦
      (List.range' (a + 1) (topo.gpus.length - (a + 1))).map fun b ↦ topo.linkBetween a b
    some (pairs.foldl (fun worst link ↦
      match link with
      | some kind => if kind.bandwidthRank < worst.bandwidthRank then kind else worst
      | none => worst) .xgmi)

end Topology

/-! ## Support tiers -/

/-- `Tier`. -/
inductive Tier where
  | tier1
  | tier2
  | tier3
deriving DecidableEq

/-- `Tier::as_number`. -/
def Tier.asNumber : Tier → ℕ
  | .tier1 => 1
  | .tier2 => 2
  | .tier3 => 3

/-- `Tier::training_supported`. -/
def Tier.trainingSupported (tier : Tier) : Bool := tier ≠ .tier3

/-- `TierAssessment`. -/
structure TierAssessment where
  gpu : GpuInfo
  tier : Tier
  hsaOverride : Option String
  trainingSupported : Bool
  rationale : String

/-- `OverrideEntry`, as far as classification reads it. -/
structure OverrideEntry where
  gfxArch : String
  tier : Tier
  hsaOverride : Option String

/-- `OverrideDb::embedded`. -/
def embeddedOverrides : List OverrideEntry := [
  ⟨"gfx1100", .tier1, none⟩,
  ⟨"gfx1030", .tier2, some "10.3.0"⟩,
  ⟨"gfx1010", .tier2, some "10.1.0"⟩,
  ⟨"gfx900", .tier1, none⟩,
  ⟨"gfx803", .tier3, none⟩]

/-- `OverrideDb::lookup`.  The embedded architectures have only letters that no letter outside
ASCII has as its lower case. -/
def lookupOverride (db : List OverrideEntry) (arch : String) : Option OverrideEntry :=
  db.find? fun entry ↦ eqIgnoreAsciiCase entry.gfxArch arch

/-- The assessment of a GPU that only Vulkan serves. -/
def vulkanOnly (gpu : GpuInfo) (rationale : String) : TierAssessment :=
  ⟨gpu, .tier3, none, false, rationale⟩

/-- `classify`. -/
def classify (db : List OverrideEntry) (gpu : GpuInfo) : TierAssessment :=
  match gpu.vendor with
  | .nvidia => vulkanOnly gpu ("NVIDIA GPU: running on the Vulkan universal backend " ++
      "(no CUDA acceleration configured). Inference only; ROCm training is AMD-only.")
  | .intel => vulkanOnly gpu
      "Intel GPU: running on the Vulkan universal backend. Inference only."
  | .other => vulkanOnly gpu (gpu.vendor.label ++
      " GPU: running on the Vulkan universal backend. Inference only.")
  | .amd =>
    match gpu.gfxArch with
    | none => vulkanOnly gpu ("No gfx architecture detected (rocminfo unavailable). " ++
        "Defaulting to Vulkan-only inference (Tier 3).")
    | some arch =>
      match lookupOverride db arch with
      | none => vulkanOnly gpu (arch ++ " is not in the compatibility database; defaulting to " ++
          "Vulkan-only (Tier 3). If you know a working ROCm override for this card, set it in " ++
          "config.")
      | some entry =>
        let rationale :=
          match entry.tier with
          | .tier1 => arch ++ " is officially ROCm-supported: full training and inference."
          | .tier2 =>
            let via := (entry.hsaOverride.map (" via HSA_OVERRIDE_GFX_VERSION=" ++ ·)).getD ""
            arch ++ " has no official ROCm support but is community-workable" ++ via ++
              ". Inference supported; training is community-tested, not guaranteed."
          | .tier3 => arch ++ " has no usable ROCm path: Vulkan-only inference, no training."
        ⟨gpu, entry.tier, entry.hsaOverride, entry.tier.trainingSupported, rationale⟩

/-- `classify_topology`. -/
def classifyTopology (topo : Topology) (db : List OverrideEntry) : List TierAssessment :=
  topo.gpus.map (classify db)

end Cameo.Placement
