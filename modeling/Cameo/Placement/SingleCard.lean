import Cameo.Placement.FleetFit

/-!
# Plans for one card

With several cards that only reach each other through the host, a model that fits the first card is
placed on it alone.  The comparison is with what the headroom leaves of all the memory of that card.
What is in use on it is subtracted where the plan says what fits the GPUs together, and not here.
-/

namespace Cameo.Placement

/-! ## The spread of a plan -/

/-- The bytes in use on a card, as far as it reports them. -/
def usedOnCard (topo : Topology) (index : ℕ) : ℕ :=
  ((topo.gpus[index]?.bind GpuInfo.vramUsedMb).map mibBytes).getD 0

/-- The plan runs on one card.  A plan for the CPU has the same spread, and no card. -/
def PlacementPlan.UsesOneCard (made : PlacementPlan) : Prop :=
  made.multiGpu = .single ∧ made.gpuCount = 1

/-- The models that are placed on the first of several cards. -/
def PrefersOneCard (topo : Topology) (model : ModelMeta) : Prop :=
  topo.bottleneckLink.getD .hostOnly = .hostOnly ∧ model.totalBytes ≤ singleGpuUsable topo 0

variable {topo : Topology} {assessments : List TierAssessment} {model : ModelMeta}
  {settings : Settings} {made : PlacementPlan}

theorem chooseInferenceMultiGpu_eq_single (hgpus : 2 ≤ topo.gpuCount) (budget : MemoryBudget)
    (hknown : budget.vramKnown = true) (expertsOnHost : Bool) :
    (chooseInferenceMultiGpu topo model budget expertsOnHost).1 = .single ↔
      PrefersOneCard topo model := by
  have hmany : ¬ topo.gpuCount ≤ 1 := by omega
  unfold chooseInferenceMultiGpu PrefersOneCard
  dsimp only
  rw [if_neg hmany, hknown, Bool.true_and]
  split
  · rename_i hone
    have hboth := Bool.and_eq_true_iff.mp hone
    exact iff_of_true rfl ⟨of_decide_eq_true hboth.2, of_decide_eq_true hboth.1⟩
  · rename_i hsplit
    refine iff_of_false nofun ?_
    rintro ⟨hlink, hfits⟩
    rw [hlink, decide_eq_true hfits] at hsplit
    exact hsplit rfl

/-- An inference plan is made for the CPU alone and uses no card, or it is spread as the planner
chooses for some offload of the experts. -/
theorem spread_of_plan (h : plan topo assessments model .inference settings = .ok made) :
    (runsOnCpu topo settings = true ∧ made.gpuCount = 0) ∨
      (runsOnCpu topo settings = false ∧ ∃ expertsOnHost,
        made.multiGpu = (chooseInferenceMultiGpu topo model (.of topo) expertsOnHost).1 ∧
          made.gpuCount = gpuCountFor made.multiGpu topo.gpuCount) := by
  unfold plan at h
  split at h
  · cases h
  split at h
  · rename_i hcpu
    left
    unfold planCpu at h
    rw [if_neg nofun] at h
    dsimp only at h
    split at h
    · split at h
      · cases h
      · cases h
        exact ⟨hcpu, rfl⟩
    · cases h
      exact ⟨hcpu, rfl⟩
  · rename_i hgpu
    right
    split at h
    · cases h
    split at h
    · cases h
    dsimp only at h
    unfold planInference at h
    split at h
    · cases h
    · cases h
      exact ⟨eq_false_of_ne_true hgpu, _, rfl, rfl⟩

/-- A plan for several cards of known memory runs on one card exactly if it is for the GPUs and the
model is placed on the first card. -/
theorem usesOneCard_iff (hgpus : 2 ≤ topo.gpuCount)
    (hknown : (MemoryBudget.of topo).vramKnown = true)
    (h : plan topo assessments model .inference settings = .ok made) :
    made.UsesOneCard ↔ runsOnCpu topo settings = false ∧ PrefersOneCard topo model := by
  rcases spread_of_plan h with ⟨hcpu, hcount⟩ | ⟨hgpu, expertsOnHost, hmulti, hcount⟩
  · rw [PlacementPlan.UsesOneCard, hcount, hcpu]
    simp
  · rw [← chooseInferenceMultiGpu_eq_single hgpus _ hknown expertsOnHost, ← hmulti,
      PlacementPlan.UsesOneCard, hcount]
    constructor
    · exact fun hone ↦ ⟨hgpu, hone.1⟩
    · rintro ⟨-, hsingle⟩
      rw [hsingle]
      exact ⟨rfl, rfl⟩

/-! ## What the card holds -/

/-- The free memory of the first card holds the model, after headroom. -/
def FitsFreeCard (topo : Topology) (model : ModelMeta) : Prop :=
  model.totalBytes + usedOnCard topo 0 ≤ singleGpuUsable topo 0

/-- Every plan of an inference that runs on one card has the room for it on that card. -/
def FitsItsCard (topo : Topology) : Prop :=
  ∀ assessments model settings made,
    plan topo assessments model .inference settings = .ok made →
      made.UsesOneCard → FitsFreeCard topo model

theorem singleGpuUsable_le (topo : Topology) (index : ℕ) :
    singleGpuUsable topo index ≤ u64Max := by
  unfold singleGpuUsable
  generalize topo.gpus[index]?.bind GpuInfo.vramBytes = bytes?
  cases bytes? with
  | none => exact Nat.zero_le _
  | some bytes =>
    rw [Option.map_some, Option.getD_some]
    exact scale_le bytes vramHeadroom

/-- A model that fills the first card is planned, where the ceiling is waived. -/
theorem plan_filling (hgpus : 2 ≤ topo.gpuCount) :
    ∃ made, plan topo [anyCard] (sizedModel (singleGpuUsable topo 0)) .inference
      ⟨none, none, some true, none⟩ = .ok made ∧ made.backend = .vulkan := by
  have hgpu : runsOnCpu topo ⟨none, none, some true, none⟩ = false := by
    have hsome : topo.gpus ≠ [] := by
      intro hnone
      rw [Topology.gpuCount, hnone] at hgpus
      exact absurd hgpus (by decide)
    simpa [runsOnCpu] using hsome
  refine exists_plan (validate_sizedModel _) hgpu rfl rfl ?_
  simp [checkCeiling]

/-- With several cards of known memory, every plan for one card fits that card exactly if the cards
have a link of their own, or nothing is in use on the first. -/
theorem fitsItsCard_iff (topo : Topology) (hgpus : 2 ≤ topo.gpuCount)
    (hknown : (MemoryBudget.of topo).vramKnown = true) :
    FitsItsCard topo ↔
      topo.bottleneckLink.getD .hostOnly ≠ .hostOnly ∨ usedOnCard topo 0 = 0 := by
  have hbytes := totalBytes_sizedModel (singleGpuUsable_le topo 0)
  constructor
  · intro h
    by_contra hbusy
    simp only [not_or, not_not] at hbusy
    obtain ⟨hlink, hused⟩ := hbusy
    obtain ⟨made, hplan, -⟩ := plan_filling hgpus
    have hgpu : runsOnCpu topo ⟨none, none, some true, none⟩ = false := by
      have hsome := (Bool.and_eq_true_iff.mp hknown).1
      simpa [runsOnCpu] using hsome
    have huses := (usesOneCard_iff hgpus hknown hplan).mpr ⟨hgpu, hlink, hbytes.le⟩
    have hfits := h _ _ _ made hplan huses
    rw [FitsFreeCard, hbytes] at hfits
    omega
  · rintro h assessments model settings made hplan huses
    obtain ⟨-, hlink, hfits⟩ := (usesOneCard_iff hgpus hknown hplan).mp huses
    rcases h with hlinked | hidle
    · exact absurd hlink hlinked
    · rw [FitsFreeCard, hidle]
      exact hfits

/-- Two cards of 24 GiB without a link of their own, with `usedMb` MiB in use on the first. -/
def twoCards (usedMb : ℕ) : NodeInfo :=
  let card (usedMb : ℕ) : GpuInfo :=
    ⟨.amd, some 24576, some usedMb, none, .dedicated, some "gfx1100"⟩
  let topo : Topology := ⟨[card usedMb, card 0], [], some ⟨34359738368, 30064771072⟩⟩
  ⟨"pair", "10.0.0.4:9000", topo, classifyTopology topo embeddedOverrides, []⟩

theorem fitsItsCard_twoCards : FitsItsCard (twoCards 0).topology :=
  (fitsItsCard_iff _ (by decide) (by decide)).mpr (.inr (by decide))

/-- A model of 18 GiB is placed on a card that has 16 GiB left. -/
theorem not_fitsItsCard_busy :
    ¬ (∀ topo : Topology, 2 ≤ topo.gpuCount → (MemoryBudget.of topo).vramKnown = true →
      FitsItsCard topo) := by
  intro h
  have hplan : ((plan (twoCards 8192).topology (twoCards 8192).assessments wideModel .inference
      ⟨none, none, none, none⟩).toOption.map fun made ↦ (made.multiGpu, made.gpuCount)) =
      some (.single, 1) := by
    decide +kernel
  have hbusy : ¬ FitsFreeCard (twoCards 8192).topology wideModel := by
    have hbytes : singleGpuUsable (twoCards 8192).topology 0 <
        wideModel.totalBytes + usedOnCard (twoCards 8192).topology 0 := by
      decide +kernel
    exact Nat.not_le.mpr hbytes
  cases hmade : plan (twoCards 8192).topology (twoCards 8192).assessments wideModel .inference
      ⟨none, none, none, none⟩ with
  | error e =>
    rw [hmade] at hplan
    cases hplan
  | ok made =>
    rw [hmade] at hplan
    have hspread := Prod.mk.inj (Option.some.inj hplan)
    exact hbusy (h _ (by decide) (by decide) _ wideModel _ made hmade hspread)

end Cameo.Placement
