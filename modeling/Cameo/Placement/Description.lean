import Cameo.Json
import Cameo.Placement.Topology

/-!
# Descriptions of machines

How the hub reads the topology and the assessments that a node describes itself with.  Every field
is checked, also those that are read by displays only and are not kept here.
-/

namespace Cameo.Placement

open Json

/-- `serde_json::from_value` of a vendor. -/
def Vendor.fromValue : Value → Option Vendor :=
  Value.asEnum [("amd", .amd), ("nvidia", .nvidia), ("intel", .intel), ("other", .other)]

/-- `serde_json::from_value` of a memory kind. -/
def MemoryKind.fromValue : Value → Option MemoryKind :=
  Value.asEnum [("dedicated", .dedicated), ("shared", .shared), ("unknown", .unknown)]

/-- `serde_json::from_value` of a link kind. -/
def LinkKind.fromValue : Value → Option LinkKind :=
  Value.asEnum [("Xgmi", .xgmi), ("PcieP2P", .pcieP2P), ("HostOnly", .hostOnly)]

/-- `serde_json::from_value` of a tier. -/
def Tier.fromValue : Value → Option Tier :=
  Value.asEnum [("Tier1", .tier1), ("Tier2", .tier2), ("Tier3", .tier3)]

/-- `serde_json::from_value` of a GPU. -/
def GpuInfo.fromValue (value : Value) : Option GpuInfo := do
  let gpu ← value.asStruct 10
  let _model ← gpu.required Value.asStr "model" 0
  let vendor ← gpu.defaulted .amd Vendor.fromValue "vendor" 1
  let _pciId ← gpu.required Value.asStr "pci_id" 2
  let _pciAddr ← gpu.defaulted none (Value.asOption Value.asStr) "pci_addr" 3
  let vramMb ← gpu.optional Value.asU64 "vram_mb" 4
  let vramUsedMb ← gpu.defaulted none (Value.asOption Value.asU64) "vram_used_mb" 5
  let gttMb ← gpu.defaulted none (Value.asOption Value.asU64) "gtt_mb" 6
  let memory ← gpu.defaulted .unknown MemoryKind.fromValue "memory" 7
  let gfxArch ← gpu.optional Value.asStr "gfx_arch" 8
  let _driverVersion ← gpu.optional Value.asStr "driver_version" 9
  return ⟨vendor, vramMb, vramUsedMb, gttMb, memory, gfxArch⟩

/-- `serde_json::from_value` of a link. -/
def Link.fromValue (value : Value) : Option Link := do
  let link ← value.asStruct 3
  let a ← link.required Value.asU64 "a" 0
  let b ← link.required Value.asU64 "b" 1
  let kind ← link.required LinkKind.fromValue "kind" 2
  return ⟨a, b, kind⟩

/-- `serde_json::from_value` of host memory facts. -/
def HostMemory.fromValue (value : Value) : Option HostMemory := do
  let memory ← value.asStruct 2
  let totalBytes ← memory.required Value.asU64 "total_bytes" 0
  let availableBytes ← memory.required Value.asU64 "available_bytes" 1
  return ⟨totalBytes, availableBytes⟩

/-- `serde_json::from_value` of a topology. -/
def Topology.fromValue (value : Value) : Option Topology := do
  let topology ← value.asStruct 3
  let gpus ← topology.required (Value.asList GpuInfo.fromValue) "gpus" 0
  let links ← topology.required (Value.asList Link.fromValue) "links" 1
  let hostMem ← topology.optional HostMemory.fromValue "host_mem" 2
  return ⟨gpus, links, hostMem⟩

/-- `serde_json::from_value` of an assessment. -/
def TierAssessment.fromValue (value : Value) : Option TierAssessment := do
  let assessment ← value.asStruct 5
  let gpu ← assessment.required GpuInfo.fromValue "gpu" 0
  let tier ← assessment.required Tier.fromValue "tier" 1
  let hsaOverride ← assessment.optional Value.asStr "hsa_override" 2
  let trainingSupported ← assessment.required Value.asBool "training_supported" 3
  let rationale ← assessment.required Value.asStr "rationale" 4
  return ⟨gpu, tier, hsaOverride, trainingSupported, rationale⟩

end Cameo.Placement
