import Cameo.Placement.Mesh

/-!
# Placement on a fleet

`place_on_fleet` looks at the topologies alone and takes the tightest node that holds the model.  It
computes in plain `u64` arithmetic, which wraps around in a release build.
-/

namespace Cameo.Placement

/-! ## The fleet -/

/-- `NetworkClass`. -/
inductive NetworkClass where
  | infiniband
  | fastEthernet
  | consumer
deriving DecidableEq

/-- `NetworkClass::supports_distributed`. -/
def NetworkClass.supportsDistributed (network : NetworkClass) : Bool := network ≠ .consumer

def NetworkClass.debug : NetworkClass → String
  | .infiniband => "Infiniband"
  | .fastEthernet => "FastEthernet"
  | .consumer => "Consumer"

/-- `Cluster`. -/
structure Cluster where
  nodes : List NodeInfo
  network : NetworkClass

/-- `FleetPlacement`. -/
inductive FleetPlacement where
  | singleNode (node : ℕ) (nodeName : String) (plan : PlacementPlan)
  | distributed (nodes : List ℕ) (note : String)
deriving DecidableEq

/-- `FleetPlan`. -/
structure FleetPlan where
  task : Task
  chosen : FleetPlacement
  notes : List String
deriving DecidableEq

/-- The bytes that a model needs for a task, in plain arithmetic. -/
def plainNeed (model : ModelMeta) : Task → ℕ
  | .inference => model.totalBytes
  | .training => model.weightsBytes * trainingFootprintMult % UInt64.size

/-- The nodes that `place_on_fleet` considers for a task. -/
def fleetEligible (task : Task) (node : NodeInfo) : Bool :=
  match task with
  | .training => node.trainingCapable
  | .inference => true

structure FleetNode where
  node : NodeInfo
  index : ℕ

structure FleetPass where
  bestFit : Option FleetNode
  largest : Option FleetNode

def considerNode (need : ℕ) (pass : FleetPass) (entry : FleetNode) : FleetPass where
  bestFit :=
    if entry.node.usableVram.2 && need ≤ entry.node.usableVram.1 &&
        pass.bestFit.all fun best ↦ entry.node.usableVram.1 < best.node.usableVram.1 then
      some entry
    else pass.bestFit
  largest :=
    if pass.largest.all fun best ↦ entry.node.usableVram.1 > best.node.usableVram.1 then some entry
    else pass.largest

/-- The eligible nodes of a cluster, in order. -/
def eligibleNodes (cluster : Cluster) (task : Task) : List FleetNode :=
  (cluster.nodes.zipIdx.map fun entry ↦ ⟨entry.1, entry.2⟩).filter
    fun entry ↦ fleetEligible task entry.node

def singleNodePlan (entry : FleetNode) (model : ModelMeta) (task : Task) (settings : Settings)
    (note : String) : Except Error FleetPlan :=
  match plan entry.node.topology entry.node.assessments model task settings with
  | .error e => .error e
  | .ok made => .ok ⟨task, .singleNode entry.index entry.node.name made, [note]⟩

/-- `place_on_fleet`. -/
def placeOnFleet (cluster : Cluster) (model : ModelMeta) (task : Task) (settings : Settings) :
    Except Error FleetPlan :=
  if cluster.nodes.isEmpty then .error .noNodes
  else
    let need := plainNeed model task
    let eligible := eligibleNodes cluster task
    if eligible.isEmpty then .error .noTrainableNode
    else
      let pass := eligible.foldl (considerNode need) ⟨none, none⟩
      match pass.bestFit with
      | some entry => singleNodePlan entry model task settings
          ("Placed on node '" ++ entry.node.name ++ "': model ~" ++ (gib need).fixed 1 ++
            " GiB fits its ~" ++ (gib entry.node.usableVram.1).fixed 1 ++
            " GiB usable VRAM (tightest fit).")
      | none =>
        if cluster.network.supportsDistributed && eligible.length > 1 then
          .ok ⟨task, .distributed (eligible.map FleetNode.index)
              "distributed execution is v2 (net-strategy); this plan records the intent",
            ["Model ~" ++ (gib need).fixed 1 ++ " GiB exceeds every single node; distributing " ++
              "across " ++ toString eligible.length ++ " nodes over a " ++ cluster.network.debug ++
              " network (v2 data path via net-strategy)."]⟩
        else
          match pass.largest with
          | some entry => singleNodePlan entry model task settings
              ("No single node fits the model and the " ++ cluster.network.debug ++
                " network makes cross-node sharding bandwidth-bound; falling back to the " ++
                "largest node '" ++ entry.node.name ++ "' with host offload.")
          -- The source unwraps: a pass over a nonempty list always keeps a largest node.
          | none => .error .noNodes

/-! ## What the fleet chooses -/

/-- What the pass keeps is one of the nodes it went over. -/
theorem foldl_considerNode (need : ℕ) (entries : List FleetNode) {pass : FleetPass}
    {entry : FleetNode}
    (h : (entries.foldl (considerNode need) pass).bestFit = some entry ∨
      (entries.foldl (considerNode need) pass).largest = some entry) :
    entry ∈ entries ∨ pass.bestFit = some entry ∨ pass.largest = some entry := by
  induction entries generalizing pass with
  | nil => exact .inr h
  | cons first rest ih =>
    rcases ih h with hrest | hbest | hlargest
    · exact .inl (List.mem_cons_of_mem _ hrest)
    · unfold considerNode at hbest
      dsimp only at hbest
      split at hbest
      · obtain rfl := Option.some.inj hbest
        exact .inl List.mem_cons_self
      · exact .inr (.inl hbest)
    · unfold considerNode at hlargest
      dsimp only at hlargest
      split at hlargest
      · obtain rfl := Option.some.inj hlargest
        exact .inl List.mem_cons_self
      · exact .inr (.inr hlargest)

/-- An eligible node is in the cluster, at its index. -/
theorem mem_eligibleNodes {cluster : Cluster} {task : Task} {entry : FleetNode} :
    entry ∈ eligibleNodes cluster task ↔
      cluster.nodes[entry.index]? = some entry.node ∧ fleetEligible task entry.node = true := by
  unfold eligibleNodes
  rw [List.mem_filter, List.mem_map]
  constructor
  · rintro ⟨⟨pair, hpair, rfl⟩, heligible⟩
    exact ⟨List.mem_zipIdx_iff_getElem?.mp hpair, heligible⟩
  · rintro ⟨hnode, heligible⟩
    exact ⟨⟨(entry.node, entry.index), List.mem_zipIdx_iff_getElem?.mpr hnode, rfl⟩, heligible⟩

theorem singleNodePlan_ok {entry : FleetNode} {model : ModelMeta} {task : Task}
    {settings : Settings} {note : String} {made : FleetPlan}
    (h : singleNodePlan entry model task settings note = .ok made) :
    ∃ nodePlan, made.chosen = .singleNode entry.index entry.node.name nodePlan := by
  unfold singleNodePlan at h
  split at h
  · cases h
  · rename_i nodePlan _
    cases h
    exact ⟨nodePlan, rfl⟩

/-- A workload is placed on an eligible node of the cluster, or distributed over all of them. -/
theorem placeOnFleet_ok {cluster : Cluster} {model : ModelMeta} {task : Task} {settings : Settings}
    {made : FleetPlan} (h : placeOnFleet cluster model task settings = .ok made) :
    (∃ entry ∈ eligibleNodes cluster task, ∃ nodePlan,
        made.chosen = .singleNode entry.index entry.node.name nodePlan) ∨
      ∃ note, made.chosen =
        .distributed ((eligibleNodes cluster task).map FleetNode.index) note := by
  have hkept {entry : FleetNode}
      (hentry : ((eligibleNodes cluster task).foldl (considerNode (plainNeed model task))
          ⟨none, none⟩).bestFit = some entry ∨
        ((eligibleNodes cluster task).foldl (considerNode (plainNeed model task))
          ⟨none, none⟩).largest = some entry) : entry ∈ eligibleNodes cluster task := by
    rcases foldl_considerNode _ _ hentry with hmem | hnone | hnone
    · exact hmem
    · cases hnone
    · cases hnone
  unfold placeOnFleet at h
  split at h
  · cases h
  dsimp only at h
  split at h
  · cases h
  split at h
  · rename_i entry hbest
    exact .inl ⟨entry, hkept (.inl hbest), singleNodePlan_ok h⟩
  · split at h
    · cases h
      exact .inr ⟨_, rfl⟩
    · split at h
      · rename_i entry hlargest
        exact .inl ⟨entry, hkept (.inr hlargest), singleNodePlan_ok h⟩
      · cases h

end Cameo.Placement
