import Cameo.Library.Champion
import Cameo.Placement.Ceiling

/-!
# The fit of a fleet

The fleet takes the tightest node whose VRAM, as it stands on the box, holds the model, and then
asks the planner of that node.  The planner sizes the plan against the VRAM that is free and against
the host memory that an APU reaches, and it may refuse the backend that was asked for.  So the plan
of the chosen node need not say that the model fits, and there may be no plan where another node has
one.
-/

namespace Cameo.Placement

open Library

/-! ## The pass over the nodes -/

/-- The VRAM of a node, as it stands on the box, holds so many bytes. -/
def FleetNode.holds (need : ℕ) (entry : FleetNode) : Bool :=
  entry.node.usableVram.2 && need ≤ entry.node.usableVram.1

/-- The comparison that finds the tightest node. -/
def tighter (entry other : FleetNode) : Bool :=
  entry.node.usableVram.1 < other.node.usableVram.1

/-- The comparison that finds the largest node. -/
def larger (entry other : FleetNode) : Bool :=
  entry.node.usableVram.1 > other.node.usableVram.1

theorem tighter_iff (entry other : FleetNode) :
    tighter entry other = true ↔ entry.node.usableVram.1 < other.node.usableVram.1 := by
  rw [tighter, decide_eq_true_eq]

theorem larger_iff (entry other : FleetNode) : larger entry other = true ↔
    OrderDual.toDual entry.node.usableVram.1 < OrderDual.toDual other.node.usableVram.1 := by
  rw [larger, decide_eq_true_eq, OrderDual.toDual_lt_toDual, gt_iff_lt]

/-- The two nodes that the pass keeps are found by passes of their own. -/
theorem foldl_considerNode_eq (need : ℕ) (entries : List FleetNode) (pass : FleetPass) :
    entries.foldl (considerNode need) pass =
      ⟨(entries.filter (FleetNode.holds need)).foldl (challenge tighter) pass.bestFit,
        entries.foldl (challenge larger) pass.largest⟩ := by
  induction entries generalizing pass with
  | nil => rfl
  | cons entry rest ih =>
    rw [List.foldl_cons, ih, List.foldl_cons, List.filter_cons]
    cases hholds : entry.holds need with
    | true =>
      have hfits : (considerNode need pass entry).bestFit =
          challenge tighter pass.bestFit entry := by
        unfold FleetNode.holds at hholds
        unfold considerNode challenge tighter
        rw [hholds, Bool.true_and]
      rw [if_pos rfl, List.foldl_cons, hfits]
      rfl
    | false =>
      have hskips : (considerNode need pass entry).bestFit = pass.bestFit := by
        unfold FleetNode.holds at hholds
        unfold considerNode
        rw [hholds, Bool.false_and]
        rfl
      rw [if_neg Bool.false_ne_true, hskips]
      rfl

/-- The pass of the planner ends with the two champions. -/
theorem pass_eq_champions (need : ℕ) (entries : List FleetNode) :
    entries.foldl (considerNode need) ⟨none, none⟩ =
      ⟨champion tighter (entries.filter (FleetNode.holds need)), champion larger entries⟩ :=
  foldl_considerNode_eq need entries ⟨none, none⟩

theorem pairwise_eligibleNodes (cluster : Cluster) (task : Task) :
    (eligibleNodes cluster task).Pairwise fun entry other ↦ entry.index < other.index := by
  unfold eligibleNodes
  apply List.Pairwise.filter
  rw [List.pairwise_map, List.pairwise_iff_getElem]
  intro i j hi hj hlt
  simpa using hlt

/-- The first of the tightest nodes that hold so many bytes. -/
structure IsTightest (cluster : Cluster) (task : Task) (need : ℕ) (entry : FleetNode) : Prop where
  mem : entry ∈ eligibleNodes cluster task
  holds : entry.holds need = true
  least : ∀ other ∈ eligibleNodes cluster task, other.holds need = true →
    entry.node.usableVram.1 < other.node.usableVram.1 ∨
      entry.node.usableVram.1 = other.node.usableVram.1 ∧ entry.index ≤ other.index

structure IsLargest (cluster : Cluster) (task : Task) (entry : FleetNode) : Prop where
  mem : entry ∈ eligibleNodes cluster task
  greatest : ∀ other ∈ eligibleNodes cluster task,
    other.node.usableVram.1 < entry.node.usableVram.1 ∨
      other.node.usableVram.1 = entry.node.usableVram.1 ∧ entry.index ≤ other.index

theorem champion_tighter_iff {cluster : Cluster} {task : Task} {need : ℕ} {entry : FleetNode} :
    champion tighter ((eligibleNodes cluster task).filter (FleetNode.holds need)) = some entry ↔
      IsTightest cluster task need entry := by
  rw [champion_eq_some_iff tighter_iff ((pairwise_eligibleNodes cluster task).filter _)]
  simp only [List.mem_filter, Prod.Lex.toLex_le_toLex]
  constructor
  · rintro ⟨⟨hmem, hholds⟩, hleast⟩
    exact ⟨hmem, hholds, fun other hother hfits ↦ hleast other ⟨hother, hfits⟩⟩
  · rintro ⟨hmem, hholds, hleast⟩
    exact ⟨⟨hmem, hholds⟩, fun other hother ↦ hleast other hother.1 hother.2⟩

theorem champion_larger_iff {cluster : Cluster} {task : Task} {entry : FleetNode} :
    champion larger (eligibleNodes cluster task) = some entry ↔ IsLargest cluster task entry := by
  rw [champion_eq_some_iff larger_iff (pairwise_eligibleNodes cluster task)]
  simp only [Prod.Lex.toLex_le_toLex, OrderDual.toDual_lt_toDual, OrderDual.toDual_inj]
  constructor
  · rintro ⟨hmem, hgreatest⟩
    exact ⟨hmem, fun other hother ↦ (hgreatest other hother).imp_right fun h ↦ ⟨h.1.symm, h.2⟩⟩
  · rintro ⟨hmem, hgreatest⟩
    exact ⟨hmem, fun other hother ↦ (hgreatest other hother).imp_right fun h ↦ ⟨h.1.symm, h.2⟩⟩

/-- Whether a workload that no node holds is spread over the fleet. -/
def spreads (cluster : Cluster) (task : Task) : Bool :=
  cluster.network.supportsDistributed && (eligibleNodes cluster task).length > 1

/-- The ways to place a workload: on the tightest node that holds it, over the fleet, or on the
largest node. -/
inductive Places (cluster : Cluster) (model : ModelMeta) (task : Task) (settings : Settings) :
    Except Error FleetPlan → Prop
  | tightest {entry : FleetNode} (h : IsTightest cluster task (plainNeed model task) entry)
      (note : String) :
      Places cluster model task settings (singleNodePlan entry model task settings note)
  | distributed
      (hnone : ∀ entry ∈ eligibleNodes cluster task, entry.holds (plainNeed model task) = false)
      (hspreads : spreads cluster task = true) (note : String) (notes : List String) :
      Places cluster model task settings
        (.ok ⟨task, .distributed ((eligibleNodes cluster task).map FleetNode.index) note, notes⟩)
  | largest {entry : FleetNode}
      (hnone : ∀ entry ∈ eligibleNodes cluster task, entry.holds (plainNeed model task) = false)
      (hspreads : spreads cluster task = false) (h : IsLargest cluster task entry)
      (note : String) :
      Places cluster model task settings (singleNodePlan entry model task settings note)

theorem places_placeOnFleet {cluster : Cluster} {task : Task}
    (hne : eligibleNodes cluster task ≠ []) (model : ModelMeta) (settings : Settings) :
    Places cluster model task settings (placeOnFleet cluster model task settings) := by
  have hnodes : cluster.nodes.isEmpty = false := by
    rw [← Bool.not_eq_true]
    intro hempty
    apply hne
    rw [eligibleNodes, List.isEmpty_iff.mp hempty]
    rfl
  have heligible : (eligibleNodes cluster task).isEmpty = false := by
    rw [← Bool.not_eq_true, List.isEmpty_iff]
    exact hne
  unfold placeOnFleet
  rw [hnodes, if_neg Bool.false_ne_true]
  dsimp only
  rw [heligible, if_neg Bool.false_ne_true, pass_eq_champions]
  dsimp only
  cases hbest : champion tighter ((eligibleNodes cluster task).filter
      (FleetNode.holds (plainNeed model task))) with
  | some entry => exact .tightest (champion_tighter_iff.mp hbest) _
  | none =>
    have hnone : ∀ entry ∈ eligibleNodes cluster task,
        entry.holds (plainNeed model task) = false := by
      intro entry hentry
      rw [← Bool.not_eq_true]
      exact List.filter_eq_nil_iff.mp (champion_eq_none_iff.mp hbest) entry hentry
    dsimp only
    split
    · rename_i hspreads
      exact .distributed hnone hspreads _ _
    · rename_i hspreads
      cases hlargest : champion larger (eligibleNodes cluster task) with
      | some entry =>
        exact .largest hnone (Bool.not_eq_true _ ▸ hspreads) (champion_larger_iff.mp hlargest) _
      | none => exact absurd (champion_eq_none_iff.mp hlargest) hne

/-! ## What the planner of a node says -/

/-- The VRAM of a topology after headroom. -/
def headroomOf (topo : Topology) : ℕ := scale (min (vramSum topo) u64Max) vramHeadroom

/-- The host memory holds the model, if it is known. -/
def HostHolds (topo : Topology) (model : ModelMeta) : Prop :=
  ∃ host ∈ topo.hostMem, model.totalBytes ≤ scale host.availableBytes hostHeadroom

/-- The VRAM that is free, together with what GTT adds, holds a workload. -/
def FreeVramHolds (topo : Topology) (model : ModelMeta) (task : Task) : Prop :=
  planNeed model task + usedSum topo ≤ headroomOf topo + gttSum topo ∨
    planNeed model task ≤ gttSum topo

/-- The memory that the planner plans for holds a workload: host memory if it is told to use the
CPU, and else the VRAM that is free. -/
def HoldsLive (topo : Topology) (model : ModelMeta) (task : Task) (settings : Settings) : Prop :=
  if settings.backend = some .cpu then HostHolds topo model else FreeVramHolds topo model task

theorem planNeed_le (model : ModelMeta) (task : Task) : planNeed model task ≤ u64Max := by
  cases task with
  | inference => exact model.totalBytes_le
  | training => exact min_le_right _ _

/-- The planner's saturating arithmetic says whether the free VRAM holds a workload. -/
theorem freeVramHolds_iff (topo : Topology) (model : ModelMeta) (task : Task) :
    planNeed model task ≤ (MemoryBudget.of topo).usableVram ↔ FreeVramHolds topo model task := by
  have hneed := planNeed_le model task
  have hheadroom : headroomOf topo ≤ u64Max := scale_le _ _
  rw [MemoryBudget.usableVram, saturatingAdd, vramBytes_of, ← headroomOf, vramUsedBytes_of,
    gttReachableBytes_of, FreeVramHolds]
  omega

theorem usableHostBytes_of (topo : Topology) : (MemoryBudget.of topo).usableHostBytes =
    topo.hostMem.map fun host ↦ scale host.availableBytes hostHeadroom := rfl

/-- A plan for the CPU says that the model fits when the host memory is known to hold it. -/
theorem planCpu_fitsInVram {topo : Topology} {model : ModelMeta} {task : Task}
    {settings : Settings} {made : PlacementPlan} (h : planCpu topo model task settings = .ok made) :
    made.fitsInVram = true ↔ HostHolds topo model := by
  unfold planCpu at h
  split at h
  · cases h
  dsimp only at h
  rw [usableHostBytes_of] at h
  unfold HostHolds
  cases hhost : topo.hostMem with
  | none =>
    rw [hhost] at h
    obtain rfl := Except.ok.inj h
    simp
  | some host =>
    rw [hhost, Option.map_some] at h
    dsimp only at h
    split at h
    · cases h
    · obtain rfl := Except.ok.inj h
      simp

/-- A plan for a topology with known VRAM says that the workload fits exactly when the memory that
it plans for holds it. -/
theorem plan_fitsInVram {topo : Topology} {assessments : List TierAssessment} {model : ModelMeta}
    {task : Task} {settings : Settings} {made : PlacementPlan}
    (hknown : (MemoryBudget.of topo).vramKnown = true)
    (h : plan topo assessments model task settings = .ok made) :
    made.fitsInVram = true ↔ HoldsLive topo model task settings := by
  have hgpus : topo.gpus.isEmpty = false := by
    have hsome := (Bool.and_eq_true_iff.mp hknown).1
    rwa [Bool.not_eq_true'] at hsome
  have hcpu : runsOnCpu topo settings = decide (settings.backend = some .cpu) := by
    rw [runsOnCpu, hgpus, Bool.false_or]
  unfold HoldsLive
  unfold plan at h
  split at h
  · cases h
  rw [hcpu] at h
  by_cases hbackend : settings.backend = some .cpu
  · rw [if_pos (decide_eq_true hbackend)] at h
    rw [if_pos hbackend]
    exact planCpu_fitsInVram h
  · rw [if_neg (by simp [hbackend])] at h
    rw [if_neg hbackend, ← freeVramHolds_iff]
    split at h
    · cases h
    split at h
    · cases h
    cases task with
    | inference =>
      dsimp only at h
      unfold planInference at h
      split at h
      · cases h
      · obtain rfl := Except.ok.inj h
        dsimp only
        rw [hknown, Bool.true_and, decide_eq_true_eq]
        rfl
    | training =>
      dsimp only at h
      unfold planTraining at h
      dsimp only at h
      split at h
      · cases h
      · obtain rfl := Except.ok.inj h
        dsimp only
        rw [hknown, Bool.true_and, decide_eq_true_eq]
        rfl

/-! ## The promise of the tightest fit -/

theorem singleNodePlan_eq_ok_iff {entry : FleetNode} {model : ModelMeta} {task : Task}
    {settings : Settings} {note : String} {made : FleetPlan} :
    singleNodePlan entry model task settings note = .ok made ↔
      ∃ nodePlan, plan entry.node.topology entry.node.assessments model task settings =
          .ok nodePlan ∧
        made = ⟨task, .singleNode entry.index entry.node.name nodePlan, [note]⟩ := by
  unfold singleNodePlan
  cases plan entry.node.topology entry.node.assessments model task settings with
  | error e => simp
  | ok nodePlan => simp [eq_comm]

/-- The plan of the chosen node says that the model fits, and no other eligible node that holds the
model has less VRAM to use. -/
structure KeepsPromise (cluster : Cluster) (model : ModelMeta) (task : Task) (entry : FleetNode)
    (nodePlan : PlacementPlan) : Prop where
  fits : nodePlan.fitsInVram = true
  tightest : ∀ other ∈ eligibleNodes cluster task, other.holds (plainNeed model task) = true →
    entry.node.usableVram.1 ≤ other.node.usableVram.1

/-- Every plan of the fleet for a single node keeps its promise. -/
def PromiseKept (cluster : Cluster) (model : ModelMeta) (task : Task) (settings : Settings) :
    Prop :=
  ∀ made index name nodePlan, placeOnFleet cluster model task settings = .ok made →
    made.chosen = .singleNode index name nodePlan →
      ∃ entry ∈ eligibleNodes cluster task, entry.index = index ∧
        KeepsPromise cluster model task entry nodePlan

theorem IsTightest.unique {cluster : Cluster} {task : Task} {need : ℕ} {entry other : FleetNode}
    (h : IsTightest cluster task need entry) (hother : IsTightest cluster task need other) :
    entry = other :=
  Option.some.inj ((champion_tighter_iff.mpr h).symm.trans (champion_tighter_iff.mpr hother))

/-- A node of the cluster is known by its place. -/
theorem eq_of_index_eq {cluster : Cluster} {task : Task} {entry other : FleetNode}
    (h : entry ∈ eligibleNodes cluster task) (hother : other ∈ eligibleNodes cluster task)
    (hindex : entry.index = other.index) : entry = other := by
  have hnode := (mem_eligibleNodes.mp h).1
  rw [hindex, (mem_eligibleNodes.mp hother).1] at hnode
  obtain ⟨node, index⟩ := entry
  obtain ⟨otherNode, otherIndex⟩ := other
  cases hnode
  cases hindex
  rfl

/-- Where some node holds the model, the fleet places it on the tightest of them, with the plan of
that node. -/
theorem exists_tightest_of_placed {cluster : Cluster} {model : ModelMeta} {task : Task}
    {settings : Settings} {made : FleetPlan}
    (h : placeOnFleet cluster model task settings = .ok made)
    (hfits : ∃ entry ∈ eligibleNodes cluster task, entry.holds (plainNeed model task) = true) :
    ∃ entry nodePlan, IsTightest cluster task (plainNeed model task) entry ∧
      plan entry.node.topology entry.node.assessments model task settings = .ok nodePlan ∧
      made.chosen = .singleNode entry.index entry.node.name nodePlan := by
  obtain ⟨fitting, hfitting, hholds⟩ := hfits
  have hplaces := places_placeOnFleet (List.ne_nil_of_mem hfitting) model settings
  rw [h] at hplaces
  generalize hresult : (.ok made : Except Error FleetPlan) = placed at hplaces
  cases hplaces with
  | @tightest entry htightest note =>
    obtain ⟨nodePlan, hplan, rfl⟩ := singleNodePlan_eq_ok_iff.mp hresult.symm
    exact ⟨entry, nodePlan, htightest, hplan, rfl⟩
  | distributed hnone hspreads note notes =>
    rw [hnone fitting hfitting] at hholds
    cases hholds
  | largest hnone hspreads hlargest note =>
    rw [hnone fitting hfitting] at hholds
    cases hholds

/-- Where some node holds the model and the fleet places it, the promise of the fleet is kept
exactly when the memory that the planner plans for on the tightest node holds the model too. -/
theorem keepsPromise_iff (cluster : Cluster) (model : ModelMeta) (task : Task) (settings : Settings)
    (hplaced : ∃ made, placeOnFleet cluster model task settings = .ok made)
    (hfits : ∃ entry ∈ eligibleNodes cluster task, entry.holds (plainNeed model task) = true) :
    PromiseKept cluster model task settings ↔
      ∃ entry, IsTightest cluster task (plainNeed model task) entry ∧
        HoldsLive entry.node.topology model task settings := by
  have hlive {entry : FleetNode} {nodePlan : PlacementPlan}
      (htightest : IsTightest cluster task (plainNeed model task) entry)
      (hplan : plan entry.node.topology entry.node.assessments model task settings =
        .ok nodePlan) :
      nodePlan.fitsInVram = true ↔ HoldsLive entry.node.topology model task settings :=
    plan_fitsInVram (Bool.and_eq_true_iff.mp htightest.holds).1 hplan
  constructor
  · intro hkept
    obtain ⟨made, hmade⟩ := hplaced
    obtain ⟨entry, nodePlan, htightest, hplan, hchosen⟩ := exists_tightest_of_placed hmade hfits
    obtain ⟨found, hfound, hindex, hpromise⟩ := hkept made _ _ nodePlan hmade hchosen
    obtain rfl := eq_of_index_eq hfound htightest.mem hindex
    exact ⟨found, htightest, (hlive htightest hplan).mp hpromise.fits⟩
  · rintro ⟨entry, htightest, hholds⟩ made index name nodePlan hmade hchosen
    obtain ⟨found, foundPlan, hfound, hplan, hsame⟩ := exists_tightest_of_placed hmade hfits
    obtain rfl := hfound.unique htightest
    cases hchosen.symm.trans hsame
    refine ⟨found, hfound.mem, rfl, (hlive hfound hplan).mpr hholds, fun other hother hfit ↦ ?_⟩
    rcases hfound.least other hother hfit with hlt | ⟨heq, -⟩
    · exact hlt.le
    · exact heq.le

/-- What the plan of a single node says about the fit. -/
def FleetPlan.claimsFit (made : FleetPlan) : Option Bool :=
  match made.chosen with
  | .singleNode _ _ nodePlan => some nodePlan.fitsInVram
  | .distributed _ _ => none

/-- A fleet of one card of 24 GiB with `usedMb` MiB in use. -/
def deskFleet (usedMb : ℕ) : Cluster := ⟨[oneCard 24576 usedMb], .consumer⟩

def wideModel : ModelMeta := .dense "llama" (.ofNat 30) .q4_K_M

theorem exists_deskFleet_holds (usedMb : ℕ) :
    ∃ entry ∈ eligibleNodes (deskFleet usedMb) .inference,
      entry.holds (plainNeed wideModel .inference) = true :=
  ⟨⟨oneCard 24576 usedMb, 0⟩, List.mem_singleton_self _, by
    have hsame : (⟨oneCard 24576 usedMb, 0⟩ : FleetNode).holds (plainNeed wideModel .inference) =
        (⟨oneCard 24576 0, 0⟩ : FleetNode).holds (plainNeed wideModel .inference) := rfl
    rw [hsame]
    decide +kernel⟩

/-- A plan for one node, if its claim about the fit is known. -/
theorem exists_singleNode_of_claimsFit {placed : Except Error FleetPlan} {fits : Bool}
    (h : placed.toOption.bind FleetPlan.claimsFit = some fits) :
    ∃ made index name nodePlan, placed = .ok made ∧
      made.chosen = .singleNode index name nodePlan ∧ nodePlan.fitsInVram = fits := by
  cases placed with
  | error e => cases h
  | ok made =>
    cases hchosen : made.chosen with
    | singleNode index name nodePlan =>
      refine ⟨made, index, name, nodePlan, rfl, hchosen, ?_⟩
      have hclaims : made.claimsFit = some fits := h
      rw [FleetPlan.claimsFit, hchosen] at hclaims
      exact Option.some.inj hclaims
    | distributed nodes note =>
      have hclaims : made.claimsFit = some fits := h
      rw [FleetPlan.claimsFit, hchosen] at hclaims
      cases hclaims

/-- On an idle card the promise is kept. -/
theorem keepsPromise_idle :
    PromiseKept (deskFleet 0) wideModel .inference ⟨none, none, none, none⟩ := by
  obtain ⟨made, index, name, nodePlan, hmade, hchosen, hfits⟩ := @exists_singleNode_of_claimsFit
    (placeOnFleet (deskFleet 0) wideModel .inference ⟨none, none, none, none⟩) true
    (by decide +kernel)
  have hone : ∀ other ∈ eligibleNodes (deskFleet 0) .inference, other = ⟨oneCard 24576 0, 0⟩ :=
    fun other hother ↦ List.mem_singleton.mp hother
  obtain ⟨entry, hentry, hholds⟩ := exists_deskFleet_holds 0
  have htightest : IsTightest (deskFleet 0) .inference (plainNeed wideModel .inference) entry :=
    ⟨hentry, hholds, fun other hother _ ↦ .inr (by rw [hone other hother, hone entry hentry]; simp)⟩
  obtain ⟨found, foundPlan, hfound, hplan, hsame⟩ :=
    exists_tightest_of_placed hmade ⟨entry, hentry, hholds⟩
  cases hchosen.symm.trans hsame
  refine (keepsPromise_iff _ _ _ _ ⟨made, hmade⟩ ⟨entry, hentry, hholds⟩).mpr
    ⟨found, hfound, (plan_fitsInVram (Bool.and_eq_true_iff.mp hfound.holds).1 hplan).mp hfits⟩

/-- On a busy card the tightest fit is a plan that does not fit. -/
theorem not_keepsPromise_busy :
    ¬ (∀ cluster model task settings,
      (∃ entry ∈ eligibleNodes cluster task, entry.holds (plainNeed model task) = true) →
        PromiseKept cluster model task settings) := by
  intro h
  obtain ⟨made, index, name, nodePlan, hmade, hchosen, hfits⟩ := @exists_singleNode_of_claimsFit
    (placeOnFleet (deskFleet 8192) wideModel .inference ⟨none, none, none, none⟩) false
    (by decide +kernel)
  obtain ⟨entry, -, -, hkept⟩ :=
    h _ _ _ _ (exists_deskFleet_holds 8192) made index name nodePlan hmade hchosen
  rw [hkept.fits] at hfits
  cases hfits

/-! ## Whom the planner refuses -/

/-- The planner does not refuse an inference on a node: for the CPU, the host memory that is known
holds the model; for the GPUs, there is a card for the backend and the ceiling is high enough.
A waiver lifts both bounds. -/
def Plannable (node : NodeInfo) (model : ModelMeta) (settings : Settings) : Prop :=
  if runsOnCpu node.topology settings then
    settings.allowOversize.getD false = true ∨ ∀ host ∈ node.topology.hostMem,
      model.totalBytes ≤ scale host.availableBytes hostHeadroom
  else
    (∃ top, topAssessment node.assessments = some top ∧
      (settings.backend = some .rocm → top.trainingSupported = true)) ∧
    (settings.allowOversize.getD false = true ∨ node.vramKnown = false ∨
      ∀ host ∈ node.topology.hostMem, model.totalBytes ≤
        headroomOf node.topology + scale host.availableBytes hostHeadroom)

theorem resolveBackend_inference_iff {override : Option Backend} {top : TierAssessment} :
    (∃ backend, resolveBackend override top .inference = .ok backend) ↔
      (override = some .rocm → top.trainingSupported = true) := by
  unfold resolveBackend
  dsimp only
  split
  · simp
  · cases htraining : top.trainingSupported with
    | true => simp
    | false => simp
  · rename_i hrocm
    exact iff_of_true ⟨_, rfl⟩ fun h ↦ absurd h hrocm

theorem planCpu_ok_iff {topo : Topology} {model : ModelMeta} {settings : Settings} :
    (∃ made, planCpu topo model .inference settings = .ok made) ↔
      settings.allowOversize.getD false = true ∨ ∀ host ∈ topo.hostMem,
        model.totalBytes ≤ scale host.availableBytes hostHeadroom := by
  unfold planCpu
  rw [if_neg nofun]
  dsimp only
  rw [usableHostBytes_of]
  cases topo.hostMem with
  | none => simp
  | some host =>
    rw [Option.map_some]
    dsimp only
    split
    · rename_i hover
      simp only [Bool.and_eq_true, decide_eq_true_eq, Bool.not_eq_true'] at hover
      simp [hover.2, hover.1]
    · rename_i hfits
      simp only [Bool.and_eq_true, decide_eq_true_eq, Bool.not_eq_true', not_and_or, not_lt,
        Bool.not_eq_false] at hfits
      simpa [or_comm] using hfits

theorem checkCeiling_ok_iff {node : NodeInfo} {model : ModelMeta} {settings : Settings} :
    checkCeiling (.of node.topology) model.totalBytes settings = .ok () ↔
      settings.allowOversize.getD false = true ∨ node.vramKnown = false ∨
        ∀ host ∈ node.topology.hostMem, model.totalBytes ≤
          headroomOf node.topology + scale host.availableBytes hostHeadroom := by
  have hneed := model.totalBytes_le
  have hknown : (MemoryBudget.of node.topology).vramKnown = node.vramKnown := rfl
  cases hoversize : settings.allowOversize.getD false with
  | true => simp [checkCeiling, hoversize]
  | false =>
    cases hvram : node.vramKnown with
    | false => simp [checkCeiling, hoversize, hknown, hvram]
    | true =>
      cases hhost : node.topology.hostMem with
      | none =>
        simp [checkCeiling, MemoryBudget.ceilingBytes, usableHostBytes_of, hoversize, hknown,
          hvram, hhost]
      | some host =>
        have husable : (MemoryBudget.of node.topology).usableHostBytes =
            some (scale host.availableBytes hostHeadroom) := by
          rw [usableHostBytes_of, hhost, Option.map_some]
        rw [checkCeiling_iff (hknown.trans hvram) husable hoversize, vramBytes_of, ← headroomOf,
          saturatingAdd]
        simp only [Bool.false_eq_true, false_or, Bool.true_eq_false, Option.mem_some,
          forall_eq']
        omega

/-- A valid inference is planned exactly on the nodes that the planner does not refuse. -/
theorem plan_ok_iff {node : NodeInfo} {model : ModelMeta} {settings : Settings}
    (hvalid : model.validate = .ok ()) :
    (∃ made, plan node.topology node.assessments model .inference settings = .ok made) ↔
      Plannable node model settings := by
  unfold Plannable
  by_cases hcpu : runsOnCpu node.topology settings = true
  · rw [if_pos hcpu, ← planCpu_ok_iff]
    unfold plan
    rw [hvalid]
    dsimp only
    rw [if_pos hcpu]
  · rw [if_neg hcpu, ← checkCeiling_ok_iff]
    unfold plan
    rw [hvalid]
    dsimp only
    rw [if_neg hcpu]
    cases htop : topAssessment node.assessments with
    | none => simp
    | some top =>
      have hresolve : (∃ backend, resolveBackend settings.backend top .inference = .ok backend) ↔
          ∃ top', some top = some top' ∧
            (settings.backend = some .rocm → top'.trainingSupported = true) := by
        rw [resolveBackend_inference_iff]
        simp
      rw [← hresolve]
      dsimp only
      cases resolveBackend settings.backend top .inference with
      | error e => simp
      | ok backend =>
        dsimp only
        unfold planInference
        cases checkCeiling (.of node.topology) model.totalBytes settings with
        | error e => simp
        | ok _ => simp

/-! ## When the fleet refuses -/

/-- The planner does not refuse the node that the fleet asks, if it asks one: the tightest node that
holds the model or, if there is none and the fleet does not spread it, the largest. -/
def AsksPlannable (cluster : Cluster) (model : ModelMeta) (settings : Settings) : Prop :=
  (∃ entry, IsTightest cluster .inference model.totalBytes entry ∧
    Plannable entry.node model settings) ∨
  ((∀ entry ∈ eligibleNodes cluster .inference, entry.holds model.totalBytes = false) ∧
    (spreads cluster .inference = true ∨
      ∃ entry, IsLargest cluster .inference entry ∧ Plannable entry.node model settings))

theorem validate_of_plan {topo : Topology} {assessments : List TierAssessment} {model : ModelMeta}
    {task : Task} {settings : Settings} {made : PlacementPlan}
    (h : plan topo assessments model task settings = .ok made) : model.validate = .ok () := by
  unfold plan at h
  cases hvalid : model.validate with
  | error e =>
    rw [hvalid] at h
    cases h
  | ok _ => rfl

theorem singleNodePlan_ok_iff {entry : FleetNode} {model : ModelMeta} {settings : Settings}
    {note : String} (hvalid : model.validate = .ok ()) :
    (∃ made, singleNodePlan entry model .inference settings note = .ok made) ↔
      Plannable entry.node model settings := by
  rw [← plan_ok_iff hvalid]
  constructor
  · rintro ⟨made, hmade⟩
    obtain ⟨nodePlan, hplan, -⟩ := singleNodePlan_eq_ok_iff.mp hmade
    exact ⟨nodePlan, hplan⟩
  · rintro ⟨nodePlan, hplan⟩
    exact ⟨_, singleNodePlan_eq_ok_iff.mpr ⟨nodePlan, hplan, rfl⟩⟩

theorem IsLargest.unique {cluster : Cluster} {task : Task} {entry other : FleetNode}
    (h : IsLargest cluster task entry) (hother : IsLargest cluster task other) : entry = other :=
  Option.some.inj ((champion_larger_iff.mpr h).symm.trans (champion_larger_iff.mpr hother))

/-- Where the plan of some node says that the model fits, the fleet places the model exactly when
the planner does not refuse the node that the fleet asks. -/
theorem placeOnFleet_ok_iff (cluster : Cluster) (model : ModelMeta) (settings : Settings)
    (hserved : ∃ node ∈ cluster.nodes, ∃ made,
      plan node.topology node.assessments model .inference settings = .ok made ∧
        made.fitsInVram = true) :
    (∃ made, placeOnFleet cluster model .inference settings = .ok made) ↔
      AsksPlannable cluster model settings := by
  obtain ⟨node, hnode, nodePlan, hplan, -⟩ := hserved
  have hvalid := validate_of_plan hplan
  have hne : eligibleNodes cluster .inference ≠ [] := by
    obtain ⟨index, hindex⟩ := List.mem_iff_getElem?.mp hnode
    have hentry : (⟨node, index⟩ : FleetNode) ∈ eligibleNodes cluster .inference :=
      mem_eligibleNodes.mpr ⟨hindex, rfl⟩
    exact List.ne_nil_of_mem hentry
  have hplaces := places_placeOnFleet hne model settings
  generalize placeOnFleet cluster model .inference settings = placed at hplaces
  unfold AsksPlannable
  cases hplaces with
  | @tightest entry htightest note =>
    rw [singleNodePlan_ok_iff hvalid]
    constructor
    · exact fun hplannable ↦ Or.inl ⟨entry, htightest, hplannable⟩
    · rintro (⟨other, hother, hplannable⟩ | ⟨hnone, -⟩)
      · rwa [htightest.unique hother]
      · cases (hnone entry htightest.mem).symm.trans htightest.holds
  | distributed hnone hspreads note notes =>
    exact iff_of_true ⟨_, rfl⟩ (Or.inr ⟨hnone, Or.inl hspreads⟩)
  | @largest entry hnone hspreads hlargest note =>
    rw [singleNodePlan_ok_iff hvalid]
    constructor
    · exact fun hplannable ↦ Or.inr ⟨hnone, Or.inr ⟨entry, hlargest, hplannable⟩⟩
    · rintro (⟨other, hother, -⟩ | ⟨-, hspread | ⟨other, hother, hplannable⟩⟩)
      · cases (hnone other hother.mem).symm.trans hother.holds
      · cases hspreads.symm.trans hspread
      · rwa [hlargest.unique hother]

/-- A node with a card that ROCm does not run on. -/
def otherCard : NodeInfo :=
  let topo : Topology := ⟨[⟨.other, some 8192, some 0, none, .dedicated, none⟩], [],
    some ⟨34359738368, 30064771072⟩⟩
  ⟨"other", "10.0.0.3:9000", topo, classifyTopology topo embeddedOverrides, []⟩

def slimModel : ModelMeta := .dense "llama" (.ofNat 3) .q4_K_M

/-- A plan that says the model fits. -/
theorem exists_plan_of_fits {planned : Except Error PlacementPlan}
    (h : planned.toOption.map PlacementPlan.fitsInVram = some true) :
    ∃ made, planned = .ok made ∧ made.fitsInVram = true := by
  cases planned with
  | error e => cases h
  | ok made => exact ⟨made, rfl, Option.some.inj h⟩

theorem slimModel_fits : ∃ made, plan (oneCard 24576 0).topology (oneCard 24576 0).assessments
    slimModel .inference ⟨some .rocm, none, none, none⟩ = .ok made ∧ made.fitsInVram = true :=
  exists_plan_of_fits (by decide +kernel)

/-- A fleet of one node. -/
theorem placeOnFleet_ok_idle :
    (∃ made, placeOnFleet (deskFleet 0) slimModel .inference ⟨some .rocm, none, none, none⟩ =
      .ok made) ↔ AsksPlannable (deskFleet 0) slimModel ⟨some .rocm, none, none, none⟩ :=
  placeOnFleet_ok_iff _ _ _ ⟨oneCard 24576 0, List.mem_singleton_self _, slimModel_fits⟩

/-- Where ROCm is forced, a tighter node that cannot run it is asked, and the fleet refuses. -/
theorem fleet_refuses_rocm :
    ¬ (∀ cluster model settings, (∃ node ∈ cluster.nodes, ∃ made,
        plan node.topology node.assessments model .inference settings = .ok made ∧
          made.fitsInVram = true) →
      ∃ made, placeOnFleet cluster model .inference settings = .ok made) := by
  intro h
  obtain ⟨made, hmade⟩ := h ⟨[oneCard 24576 0, otherCard], .consumer⟩ slimModel
    ⟨some .rocm, none, none, none⟩ ⟨oneCard 24576 0, List.mem_cons_self, slimModel_fits⟩
  have hrefused : (placeOnFleet ⟨[oneCard 24576 0, otherCard], .consumer⟩ slimModel .inference
      ⟨some .rocm, none, none, none⟩).toOption.isNone = true := by decide +kernel
  rw [hmade] at hrefused
  cases hrefused

end Cameo.Placement
