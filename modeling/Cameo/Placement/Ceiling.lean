import Cameo.Placement.Budget

/-!
# The ceiling of a plan

A plan is refused when the model needs more than the VRAM, after headroom, and the usable host
memory together.  What of the VRAM is in use is subtracted where the plan decides what fits the GPU,
and the notes say that it is excluded from the plan; it is not subtracted from the ceiling.  So a
busy card promises memory that it does not have.
-/

namespace Cameo.Placement

/-! ## What a plan has checked -/

variable {topo : Topology} {assessments : List TierAssessment} {model : ModelMeta} {task : Task}
  {settings : Settings} {made : PlacementPlan}

/-- A plan that is not made for the CPU has passed the ceiling check with the need of its task. -/
theorem checkCeiling_of_plan (h : plan topo assessments model task settings = .ok made)
    (hbackend : made.backend ≠ .cpu) :
    checkCeiling (.of topo) (planNeed model task) settings = .ok () := by
  unfold plan at h
  split at h
  · cases h
  split at h
  · unfold planCpu at h
    split at h
    · cases h
    dsimp only at h
    split at h
    · split at h
      · cases h
      · cases h
        exact absurd rfl hbackend
    · cases h
      exact absurd rfl hbackend
  · split at h
    · cases h
    split at h
    · cases h
    cases task with
    | inference =>
      dsimp only at h
      unfold planInference at h
      split at h
      · cases h
      · rename_i hceiling
        exact hceiling
    | training =>
      dsimp only at h
      unfold planTraining at h
      dsimp only at h
      split at h
      · cases h
      · rename_i hceiling
        exact hceiling

/-- An inference on a GPU is planned, if the model is valid and passes the ceiling check. -/
theorem exists_plan {top : TierAssessment} {backend : Backend} (hvalid : model.validate = .ok ())
    (hgpu : runsOnCpu topo settings = false) (htop : topAssessment assessments = some top)
    (hbackend : resolveBackend settings.backend top .inference = .ok backend)
    (hceiling : checkCeiling (.of topo) model.totalBytes settings = .ok ()) :
    ∃ made, plan topo assessments model .inference settings = .ok made ∧
      made.backend = backend := by
  unfold plan planInference
  rw [hvalid]
  dsimp only
  rw [hgpu, htop]
  dsimp only
  rw [hbackend]
  dsimp only
  rw [hceiling]
  exact ⟨_, rfl, rfl⟩

/-- The check of a known machine passes exactly up to the ceiling, unless it is waived. -/
theorem checkCeiling_iff {budget : MemoryBudget} {need host : ℕ} (hvram : budget.vramKnown = true)
    (hhost : budget.usableHostBytes = some host)
    (hstrict : settings.allowOversize.getD false = false) :
    checkCeiling budget need settings = .ok () ↔ need ≤ saturatingAdd budget.vramBytes host := by
  unfold checkCeiling MemoryBudget.ceilingBytes
  rw [hstrict, hvram, hhost]
  simp only [Bool.not_true, Bool.or_self, Bool.false_eq_true, if_false, Option.map_some]
  split
  · rename_i hover
    constructor
    · intro h
      cases h
    · intro h
      omega
  · rename_i hfits
    exact ⟨fun _ ↦ Nat.not_lt.mp hfits, fun _ ↦ rfl⟩

/-! ## Memory in use -/

/-- No plan for the GPUs of a machine, without a waiver, promises VRAM that is in use: the need is
at most the free VRAM and the usable host memory. -/
def PromisesFreeMemory (topo : Topology) (host : ℕ) : Prop :=
  ∀ assessments model task settings made, settings.allowOversize.getD false = false →
    plan topo assessments model task settings = .ok made → made.backend ≠ .cpu →
      planNeed model task ≤
        (MemoryBudget.of topo).vramBytes - (MemoryBudget.of topo).vramUsedBytes + host

theorem mibSum_filterMap_eq_zero (size : GpuInfo → Option ℕ) (gpus : List GpuInfo) :
    mibSum (gpus.filterMap size) = 0 ↔ ∀ gpu ∈ gpus, (size gpu).getD 0 = 0 := by
  induction gpus with
  | nil => simp [mibSum]
  | cons gpu rest ih =>
    cases hsize : size gpu with
    | none => simp [hsize, ih]
    | some mb =>
      rw [List.filterMap_cons_some hsize, mibSum_cons]
      simp [hsize, ih]

def sizedModel (need : ℕ) : ModelMeta :=
  { ModelMeta.dense "probe" (.ofNat 7) .q4_K_M with
    weightsBytesOverride := some need
    kvHeads := some 0
    headDim := some 0 }

theorem validate_sizedModel (need : ℕ) : (sizedModel need).validate = .ok () := by
  -- `validate` reads none of the fields that are set.
  have hsame (model : ModelMeta) : ({ model with
      weightsBytesOverride := some need
      kvHeads := some 0
      headDim := some 0 } : ModelMeta).validate = model.validate := rfl
  have hok : (ModelMeta.dense "probe" (.ofNat 7) .q4_K_M).validate.toBool = true := by
    decide +kernel
  rw [sizedModel, hsame]
  exact ModelMeta.validate_of_toBool hok

theorem totalBytes_sizedModel {need : ℕ} (h : need ≤ u64Max) :
    (sizedModel need).totalBytes = need := by
  have hkv : (sizedModel need).kvPerLayerToken = 0 := rfl
  rw [ModelMeta.totalBytes, ModelMeta.kvBytes, hkv, saturatingMul, Nat.mul_zero,
    Nat.min_eq_left (Nat.zero_le _), saturatingAdd, Nat.add_zero]
  exact min_eq_left h

def anyCard : TierAssessment :=
  ⟨⟨.other, none, none, none, .unknown, none⟩, .tier3, none, false, ""⟩

/-- A machine with known VRAM plans every need up to its ceiling. -/
theorem plan_sizedModel {need host : ℕ} (hneed : need ≤ u64Max)
    (hvram : (MemoryBudget.of topo).vramKnown = true)
    (hhost : (MemoryBudget.of topo).usableHostBytes = some host)
    (hfits : need ≤ saturatingAdd (MemoryBudget.of topo).vramBytes host) :
    ∃ made, plan topo [anyCard] (sizedModel need) .inference ⟨none, none, none, none⟩ = .ok made ∧
      made.backend = .vulkan := by
  have hgpu : runsOnCpu topo ⟨none, none, none, none⟩ = false := by
    have hsome := (Bool.and_eq_true_iff.mp hvram).1
    simpa [runsOnCpu] using hsome
  refine exists_plan (validate_sizedModel need) hgpu rfl rfl ?_
  rw [totalBytes_sizedModel hneed]
  exact (checkCeiling_iff hvram hhost rfl).mpr hfits

/-- The VRAM in use, and the VRAM after headroom, are zero exactly when every GPU reports none. -/
theorem vramUsedBytes_eq_zero : (MemoryBudget.of topo).vramUsedBytes = 0 ↔
    ∀ gpu ∈ topo.gpus, gpu.vramUsedMb.getD 0 = 0 := by
  rw [vramUsedBytes_of, ← mibSum_filterMap_eq_zero, usedSum]
  have hpos : 0 < u64Max := by decide
  omega

theorem vramBytes_eq_zero : (MemoryBudget.of topo).vramBytes = 0 ↔
    ∀ gpu ∈ topo.gpus, gpu.vramMb.getD 0 = 0 := by
  have hwhole (sizes : List ℕ) : mibSum sizes = 0 ∨ 1048576 ≤ mibSum sizes := by
    induction sizes with
    | nil => exact .inl rfl
    | cons mb rest ih =>
      rw [mibSum_cons]
      omega
  have hzero : scale 0 vramHeadroom = 0 := by decide +kernel
  have hmib : 1048576 ≤ u64Max := by decide
  rw [vramBytes_of, ← mibSum_filterMap_eq_zero, ← vramSum]
  constructor
  · intro h
    have hpos := (scale_vramHeadroom (min_le_right (vramSum topo) u64Max)).2.2
    rcases hwhole (topo.gpus.filterMap GpuInfo.vramMb) with hnone | hsome
    · exact hnone
    · exact absurd h (hpos (le_min hsome hmib)).ne'
  · intro h
    rw [h, Nat.zero_min, hzero]

/-- On a machine with known VRAM and host memory, no plan promises VRAM in use exactly when no GPU
reports any in use, or none reports any VRAM, or the memory that is free is not exceeded by any
`u64`. -/
theorem promisesFreeMemory_iff {host : ℕ} (hvram : (MemoryBudget.of topo).vramKnown = true)
    (hhost : (MemoryBudget.of topo).usableHostBytes = some host) :
    PromisesFreeMemory topo host ↔
      (∀ gpu ∈ topo.gpus, gpu.vramUsedMb.getD 0 = 0) ∨
        (∀ gpu ∈ topo.gpus, gpu.vramMb.getD 0 = 0) ∨
        u64Max ≤
          (MemoryBudget.of topo).vramBytes - (MemoryBudget.of topo).vramUsedBytes + host := by
  rw [← vramUsedBytes_eq_zero, ← vramBytes_eq_zero]
  constructor
  · intro h
    by_contra hbusy
    have hneed : saturatingAdd (MemoryBudget.of topo).vramBytes host ≤ u64Max := min_le_right _ _
    obtain ⟨made, hplan, hbackend⟩ := plan_sizedModel hneed hvram hhost le_rfl
    have hfree := h _ _ _ _ made rfl hplan (by rw [hbackend]; decide)
    rw [planNeed, totalBytes_sizedModel hneed, saturatingAdd] at hfree
    omega
  · intro h assessments model task settings made hstrict hplan hbackend
    have hceiling := (checkCeiling_iff hvram hhost hstrict).mp (checkCeiling_of_plan hplan hbackend)
    rw [saturatingAdd] at hceiling
    omega

/-- A card of 24 GiB with `usedMb` MiB in use, and 16 GiB of available host memory. -/
def deskTopology (usedMb : ℕ) : Topology :=
  ⟨[⟨.amd, some 24576, some usedMb, none, .dedicated, some "gfx1100"⟩], [],
    some ⟨34359738368, 17179869184⟩⟩

/-- An idle card promises what it has. -/
theorem promisesFreeMemory_idle : PromisesFreeMemory (deskTopology 0) 12884901888 := by
  refine (promisesFreeMemory_iff ?_ ?_).mpr (.inl ?_)
  · decide +kernel
  · decide +kernel
  · intro gpu hgpu
    obtain rfl := List.mem_singleton.mp hgpu
    rfl

/-- With 20 GiB in use, a model of 29 GiB is still planned for the GPU, although 14 GiB are free. -/
theorem not_promisesFreeMemory_busy :
    let model := ModelMeta.dense "llama" (.ofNat 50) .q4_K_M
    let made := plan (deskTopology 20480) (classifyTopology (deskTopology 20480) embeddedOverrides)
      model .inference ⟨none, none, none, none⟩
    made.toOption.map PlacementPlan.backend = some .rocm ∧
      planNeed model .inference = 31654677279 ∧
      (MemoryBudget.of (deskTopology 20480)).vramBytes -
        (MemoryBudget.of (deskTopology 20480)).vramUsedBytes + 12884901888 = 14602888806 ∧
      ¬ PromisesFreeMemory (deskTopology 20480) 12884901888 := by
  have hbackend : (plan (deskTopology 20480)
      (classifyTopology (deskTopology 20480) embeddedOverrides)
      (ModelMeta.dense "llama" (.ofNat 50) .q4_K_M) .inference
      ⟨none, none, none, none⟩).toOption.map PlacementPlan.backend = some .rocm := by
    decide +kernel
  have hneed : planNeed (ModelMeta.dense "llama" (.ofNat 50) .q4_K_M) .inference =
      31654677279 := by
    decide +kernel
  have hfree : (MemoryBudget.of (deskTopology 20480)).vramBytes -
      (MemoryBudget.of (deskTopology 20480)).vramUsedBytes + 12884901888 = 14602888806 := by
    decide +kernel
  refine ⟨hbackend, hneed, hfree, ?_⟩
  intro h
  cases hplan : plan (deskTopology 20480)
      (classifyTopology (deskTopology 20480) embeddedOverrides)
      (ModelMeta.dense "llama" (.ofNat 50) .q4_K_M) .inference ⟨none, none, none, none⟩ with
  | error e =>
    rw [hplan] at hbackend
    cases hbackend
  | ok made =>
    rw [hplan] at hbackend
    have hrocm : made.backend = .rocm := Option.some.inj hbackend
    have hbound := h _ _ _ _ made rfl hplan (by rw [hrocm]; decide)
    rw [hneed, hfree] at hbound
    omega

end Cameo.Placement
