import Cameo.Placement.Plan

/-!
# Nodes and their load

What the router knows of a node of the fleet: its topology, its assessments, and its live load; and
the questions it asks of one, which the mesh scheduler asks too: does the card satisfy the request,
and how much VRAM is free.
-/

namespace Cameo.Placement

/-- `NodeInfo`. -/
structure NodeInfo where
  name : String
  address : String
  topology : Topology
  assessments : List TierAssessment
  resident : List String

/-- `NodeLoad`. -/
structure NodeLoad where
  serving : List String
  usedVramBytes : ℕ

/-- `NodeLoad::serves`. -/
def NodeLoad.serves (load : NodeLoad) (model : String) : Bool := model ∈ load.serving

namespace NodeInfo

/-- The VRAM of all GPUs in bytes.  The node reports the figures, and release builds wrap around
where they are absurd. -/
def totalVram (node : NodeInfo) : ℕ :=
  (node.topology.gpus.filterMap GpuInfo.vramMb).foldl
    (fun total mb ↦ (total + mb * 1024 * 1024 % 2 ^ 64) % 2 ^ 64) 0

def vramKnown (node : NodeInfo) : Bool :=
  !node.topology.gpus.isEmpty && node.topology.gpus.all fun gpu ↦ gpu.vramMb.isSome

/-- `NodeInfo::usable_vram`. -/
def usableVram (node : NodeInfo) : ℕ × Bool :=
  ((.ofNat node.totalVram * vramHeadroom : F64).toUnsigned u64Max, node.vramKnown)

/-- `NodeInfo::training_capable`. -/
def trainingCapable (node : NodeInfo) : Bool :=
  (node.assessments.head?.map TierAssessment.trainingSupported).getD false

end NodeInfo

/-- `Candidate`. -/
structure Candidate where
  node : NodeInfo
  load : NodeLoad

/-- `RouteRequest`. -/
structure RouteRequest where
  model : ModelMeta
  task : Task
  minTier : Option UInt8

/-- `RouteError`. -/
inductive RouteError where
  | noCandidates
  | noneEligible (why : String)
deriving DecidableEq

/-- `free_vram`. -/
def freeVram (c : Candidate) : ℕ × Bool :=
  (c.node.usableVram.1 - c.load.usedVramBytes, c.node.usableVram.2)

/-- `card_ok`. -/
def cardOk (c : Candidate) (req : RouteRequest) : Bool :=
  if req.task = .training ∧ !c.node.trainingCapable then false
  else
    match req.minTier with
    | some t => (c.node.assessments.head?.map fun a ↦ decide (a.tier.asNumber ≤ t.toNat)).getD false
    | none => true

theorem usableVram_le (node : NodeInfo) : node.usableVram.1 ≤ u64Max := by
  unfold NodeInfo.usableVram
  dsimp only
  generalize (.ofNat node.totalVram * vramHeadroom : F64) = usable
  exact FloatValue.toUnsigned_le u64Max usable

end Cameo.Placement
