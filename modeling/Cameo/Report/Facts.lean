import Cameo.Placement.Topology
import Mathlib.Data.Nat.Notation

/-!
# Host facts

The facts about a machine that a hardware report may contain.  Every text is trimmed, bounded and
kept free of control characters on its way from the system files and the detection into the report.
-/

namespace Cameo.Report

open Placement (HostMemory MemoryKind Tier Vendor mibBytes)

/-! ## Texts -/

/-- `clean_fact`. -/
def cleanFact (value : Option String) (max : ℕ) : Option String :=
  (value.map trim).filter fun value ↦
    value ≠ "" && decide (value.length ≤ max) && !value.toList.any isControl

/-- `bounded_fact`. -/
def boundedFact (value : String) (max : ℕ) : String :=
  let value := trim value
  if value = "" || value.toList.any isControl then "unknown"
  else String.ofList (value.toList.take max)

def IsGfxTarget (value : String) : Prop :=
  "gfx".toList <+: value.toList ∧ 3 < value.length ∧
    ∀ c ∈ value.toList.drop 3, c.isLower = true ∨ c.isDigit = true

instance (value : String) : Decidable (IsGfxTarget value) :=
  @instDecidableAnd _ _ _ (@instDecidableAnd _ _ _ (List.decidableBAll _ _))

/-- `clean_gfx_target`. -/
def cleanGfxTarget (value : Option String) : Option String :=
  (cleanFact value 32).filter fun value ↦ decide (IsGfxTarget value)

/-! ## What is found on a host -/

def isLowerHex (c : Char) : Bool := c ∈ "0123456789abcdef".toList

/-- A PCI `vendor:device` id as detection writes it: two groups of four hexadecimal digits in lower
case. -/
structure PciId where
  vendor : List Char
  device : List Char
  vendor_digits : vendor.length = 4 ∧ vendor.all isLowerHex = true
  device_digits : device.length = 4 ∧ device.all isLowerHex = true

def PciId.text (id : PciId) : String := String.ofList (id.vendor ++ ':' :: id.device)

structure DetectedGpu where
  model : String
  vendor : Vendor
  pciId : PciId
  gfxArch : Option String
  vramMb : Option ℕ
  memory : MemoryKind
  driverVersion : Option String
  tier : Tier

/-- What `detect` gives. -/
structure Detected where
  assessments : List DetectedGpu
  hostMem : Option HostMemory

/-- `InstalledBuild`. -/
structure InstalledBuild where
  cameoVersion : String
  isoBuildId : Option String
  edition : Option String
  sourceRevision : Option String
  sourceDirty : Option Bool
  knossosRevision : Option String
  archSnapshot : Option String
  rocmCliVersion : Option String

/-- A constant of the compiler: a short plain text. -/
structure TargetName where
  text : String
  ne_empty : text ≠ ""
  length_le : text.length ≤ 32
  plain : (text.toList.all fun c ↦ c.isAlphanum || c = '_') = true

/-- A Linux host: the constants of the target, the two system files, `/etc/cameo/build.json` where
it can be read, and the detection where it succeeds. -/
structure Host where
  os : TargetName
  architecture : TargetName
  osrelease : Option String
  cpuinfo : Option String
  installed : Option InstalledBuild
  detected : Option Detected

/-! ## What is reported -/

/-- `PlatformFacts`. -/
structure PlatformFacts where
  os : String
  architecture : String
  kernelVersion : Option String
  cpuModel : Option String

/-- `ArtifactFacts`. -/
structure ArtifactFacts where
  cameoVersion : String
  isoBuildId : Option String
  edition : Option String
  sourceRevision : Option String
  sourceDirty : Option Bool
  knossosRevision : Option String
  archSnapshot : Option String
  rocmCliVersion : Option String

/-- `GpuFacts`. -/
structure GpuFacts where
  model : String
  vendor : String
  pciId : String
  gfxTarget : Option String
  vramTotalBytes : Option ℕ
  isApu : Bool
  driverVersion : Option String
  cameoTier : ℕ

/-- `HardwareFacts`. -/
structure HardwareFacts where
  status : String
  gpus : List GpuFacts
  systemRamTotalBytes : Option ℕ
  systemRamAvailableBytes : Option ℕ

/-- `SystemFacts`. -/
structure SystemFacts where
  platform : PlatformFacts
  artifact : ArtifactFacts
  hardware : HardwareFacts

/-- `CARGO_PKG_VERSION`. -/
def packageVersion : String := "0.2.0-beta.4"

/-- `installed_build`. -/
def installedBuild (installed : Option InstalledBuild) : ArtifactFacts :=
  match installed with
  | none => ⟨packageVersion, none, none, none, none, none, none, none⟩
  | some installed => {
      cameoVersion := (cleanFact (some installed.cameoVersion) 64).getD packageVersion
      isoBuildId := cleanFact installed.isoBuildId 128
      edition := cleanFact installed.edition 32
      sourceRevision := cleanFact installed.sourceRevision 64
      sourceDirty := installed.sourceDirty
      knossosRevision := cleanFact installed.knossosRevision 64
      archSnapshot := cleanFact installed.archSnapshot 32
      rocmCliVersion := cleanFact installed.rocmCliVersion 64 }

/-- `kernel_version`. -/
def kernelVersion (osrelease : Option String) : Option String := cleanFact osrelease 128

/-- What a line of `/proc/cpuinfo` says of the model. -/
def cpuModelLine (line : List Char) : Option String :=
  match splitOnce [':'] line with
  | none => none
  | some (key, value) =>
    if String.ofList (trimChars key) ∈ ["model name", "Hardware"] then
      cleanFact (some (String.ofList value)) 160
    else none

/-- `cpu_model`. -/
def cpuModel (cpuinfo : Option String) : Option String :=
  cpuinfo.bind fun contents ↦ (lines contents).findSome? cpuModelLine

def gpuFacts (gpu : DetectedGpu) : GpuFacts where
  model := boundedFact gpu.model 200
  vendor := gpu.vendor.label
  pciId := gpu.pciId.text
  gfxTarget := cleanGfxTarget gpu.gfxArch
  vramTotalBytes := gpu.vramMb.map mibBytes
  isApu := gpu.memory = .shared
  driverVersion := cleanFact gpu.driverVersion 128
  cameoTier := gpu.tier.asNumber

def hardwareFacts (detected : Option Detected) : HardwareFacts :=
  match detected with
  | none => ⟨"unverified", [], none, none⟩
  | some found => {
      status := "observed"
      gpus := (found.assessments.take 32).map gpuFacts
      systemRamTotalBytes := found.hostMem.map HostMemory.totalBytes
      systemRamAvailableBytes := found.hostMem.map HostMemory.availableBytes }

/-- `collect`. -/
def collectFacts (host : Host) : SystemFacts where
  platform := ⟨host.os.text, host.architecture.text, kernelVersion host.osrelease,
    cpuModel host.cpuinfo⟩
  artifact := installedBuild host.installed
  hardware := hardwareFacts host.detected

end Cameo.Report
