import Mathlib.Algebra.Order.Ring.Rat
import Mathlib.Data.Rat.Floor
import Mathlib.Tactic.FieldSimp
import Cameo.Placement.Plan

/-!
# The size of an offload

What stays on the GPUs when a model does not fit them: all of it, all but the experts, or so many
layers.  The planner and the expert offload each estimate the layers, with an estimator of their
own.  What follows holds of any footprint, with the layers estimated in exact rational numbers;
with the `f64` arithmetic of the source the same definitions are what the planner computes.
-/

namespace Cameo.Placement

/-! ## Readings -/

structure LayerReading (ν : Type) where
  /-- A count as a number. -/
  ofNat : ℕ → ν
  div : ν → ν → ν
  /-- The number is zero or less. -/
  nonpositive : ν → Bool
  /-- The whole part, as a `u32`. -/
  wholePart : ν → ℕ

def f64Layers : LayerReading F64 where
  ofNat := .ofNat
  div := (· / ·)
  nonpositive number := number.le .zero
  wholePart number := number.toUnsigned (2 ^ 32 - 1)

def exactLayers : LayerReading ℚ where
  ofNat n := n
  div := (· / ·)
  nonpositive number := decide (number ≤ 0)
  wholePart number := min ⌊number⌋₊ (2 ^ 32 - 1)

variable {ν : Type}

/-- `estimate_gpu_layers`, of the planner. -/
def LayerReading.plannerLayers (reading : LayerReading ν) (residentBytes : ℕ) (nLayers : UInt32)
    (usable : ℕ) : ℕ :=
  let layers := max nLayers.toNat 1
  let perLayer := reading.div (reading.ofNat residentBytes) (reading.ofNat layers)
  if reading.nonpositive perLayer then layers
  else min (reading.wholePart (reading.div (reading.ofNat usable) perLayer)) layers

/-- `estimate_gpu_layers`, of the expert offload. -/
def LayerReading.harnessLayers (reading : LayerReading ν) (residentBytes : ℕ) (nLayers : UInt32)
    (usable : ℕ) : ℕ :=
  let layers := max nLayers.toNat 1
  let perLayer := reading.div (reading.ofNat residentBytes) (reading.ofNat layers)
  if reading.nonpositive perLayer then layers
  else min (reading.wholePart (reading.div (reading.ofNat usable) perLayer)) layers

/-- The bytes of a model: its weights, those of them that can leave the GPU as experts, and the
total with the KV cache. -/
structure Footprint where
  weights : ℕ
  experts : ℕ
  total : ℕ

def ModelMeta.footprint (model : ModelMeta) : Footprint :=
  ⟨model.weightsBytes, model.offloadableExpertBytes, model.totalBytes⟩

def LayerReading.gpuOffload (reading : LayerReading ν) (size : Footprint) (model : ModelMeta)
    (usable : ℕ) : Offload :=
  if size.total ≤ usable then ⟨.all, false, false⟩
  else if model.isMoe then
    if size.total - size.experts ≤ usable then ⟨.all, true, false⟩
    else
      ⟨.count (reading.harnessLayers (size.weights - size.experts) model.nLayers usable), true,
        true⟩
  else ⟨.count (reading.plannerLayers size.total model.nLayers usable), false, false⟩

/-- The offload of a plan: for a task, for the CPU or the GPUs, and for a budget. -/
def LayerReading.offload (reading : LayerReading ν) (size : Footprint) (model : ModelMeta)
    (task : Task) (onCpu : Bool) (budget : MemoryBudget) : Offload :=
  match task with
  | .training => ⟨.all, false, false⟩
  | .inference =>
    if onCpu then ⟨.count 0, false, false⟩
    else if !budget.vramKnown then ⟨.all, false, false⟩
    else reading.gpuOffload size model budget.usableVram

/-! ## The arithmetic of the source -/

theorem plannerLayers_f64 : f64Layers.plannerLayers = estimateGpuLayers := by
  funext residentBytes nLayers usable
  unfold LayerReading.plannerLayers estimateGpuLayers f64Layers
  dsimp only

theorem harnessLayers_f64 : f64Layers.harnessLayers = MoeHarness.estimateGpuLayers := by
  funext residentBytes nLayers usable
  unfold LayerReading.harnessLayers MoeHarness.estimateGpuLayers f64Layers
  dsimp only

theorem inferenceOffload_eq (model : ModelMeta) (budget : MemoryBudget) :
    (inferenceOffload model budget).1 =
      f64Layers.offload model.footprint model .inference false budget := by
  unfold inferenceOffload LayerReading.offload LayerReading.gpuOffload MoeHarness.planOffload
    ModelMeta.footprint
  rw [plannerLayers_f64, harnessLayers_f64]
  dsimp only
  rw [if_neg Bool.false_ne_true]
  split
  · rfl
  split
  · rfl
  split
  · split
    · rfl
    · rfl
  · rfl

/-- Every plan has the offload for its task and its budget. -/
theorem offload_of_plan {topo : Topology} {assessments : List TierAssessment} {model : ModelMeta}
    {task : Task} {settings : Settings} {made : PlacementPlan}
    (h : plan topo assessments model task settings = .ok made) :
    made.offload =
      f64Layers.offload model.footprint model task (runsOnCpu topo settings) made.budget := by
  unfold plan at h
  split at h
  · cases h
  split at h
  · rename_i hcpu
    rw [hcpu]
    unfold planCpu at h
    cases task with
    | training => cases h
    | inference =>
      rw [if_neg nofun] at h
      dsimp only at h
      split at h
      · split at h
        · cases h
        · cases h
          rfl
      · cases h
        rfl
  · rename_i hgpu
    rw [eq_false_of_ne_true hgpu]
    split at h
    · cases h
    split at h
    · cases h
    cases task with
    | inference =>
      dsimp only at h
      unfold planInference at h
      split at h
      · cases h
      · cases h
        exact inferenceOffload_eq model (.of topo)
    | training =>
      dsimp only at h
      unfold planTraining at h
      dsimp only at h
      split at h
      · cases h
      · cases h
        rfl

/-! ## Exact arithmetic -/

/-- The bytes that an offload leaves on the GPUs if it keeps all layers there. -/
def Footprint.resident (size : Footprint) (offload : Offload) : ℕ :=
  let experts := if offload.expertsOnHost then size.experts else 0
  if offload.kvOnHost then size.weights - experts else size.total - experts

/-- An offload of a model of so many layers does not overfill the usable VRAM. -/
structure Offload.Fits (offload : Offload) (size : Footprint) (model : ModelMeta) (usable : ℕ) :
    Prop where
  /-- The layers that are counted are layers of the model, and have room. -/
  counted : ∀ n, offload.gpuLayers = .count n → n ≤ model.nLayers.toNat ∧
    n * ((size.resident offload : ℚ) / model.nLayers.toNat) ≤ usable
  /-- Without the experts, all layers have room. -/
  allButExperts : model.isMoe = true → offload.gpuLayers = .all → offload.expertsOnHost = true →
    size.total ≤ usable + size.experts
  /-- The KV cache only follows the experts. -/
  kvAfterExperts : offload.kvOnHost = true → offload.expertsOnHost = true

theorem exactLayers_fit (residentBytes : ℕ) {nLayers : UInt32} (usable : ℕ) (h : nLayers ≠ 0) :
    exactLayers.plannerLayers residentBytes nLayers usable ≤ nLayers.toNat ∧
      exactLayers.plannerLayers residentBytes nLayers usable *
        ((residentBytes : ℚ) / nLayers.toNat) ≤ usable := by
  have hpos : 0 < nLayers.toNat := Nat.pos_of_ne_zero fun hzero ↦ h (UInt32.toNat_inj.mp hzero)
  have hmax : max nLayers.toNat 1 = nLayers.toNat := max_eq_left hpos
  unfold LayerReading.plannerLayers exactLayers
  dsimp only
  rw [hmax]
  split
  · rename_i hnone
    have hzero : (residentBytes : ℚ) / nLayers.toNat = 0 :=
      le_antisymm (of_decide_eq_true hnone) (by positivity)
    rw [hzero, mul_zero]
    exact ⟨le_rfl, Nat.cast_nonneg usable⟩
  · rename_i hsome
    have hper : 0 < (residentBytes : ℚ) / nLayers.toNat := by
      rw [decide_eq_true_eq, not_le] at hsome
      exact hsome
    refine ⟨min_le_right _ _, ?_⟩
    have hwhole : (min (min ⌊(usable : ℚ) / ((residentBytes : ℚ) / nLayers.toNat)⌋₊ (2 ^ 32 - 1))
        nLayers.toNat : ℕ) ≤ ⌊(usable : ℚ) / ((residentBytes : ℚ) / nLayers.toNat)⌋₊ :=
      (min_le_left _ _).trans (min_le_left _ _)
    rw [← le_div_iff₀ hper]
    calc _ ≤ ((⌊(usable : ℚ) / ((residentBytes : ℚ) / nLayers.toNat)⌋₊ : ℕ) : ℚ) :=
          Nat.cast_le.mpr hwhole
      _ ≤ (usable : ℚ) / ((residentBytes : ℚ) / nLayers.toNat) :=
          Nat.floor_le (by positivity)

/-- The two estimators agree, in every arithmetic. -/
theorem plannerLayers_eq_harnessLayers (reading : LayerReading ν) :
    reading.plannerLayers = reading.harnessLayers := rfl

theorem gpuOffload_fits (size : Footprint) {model : ModelMeta} (usable : ℕ)
    (h : model.nLayers ≠ 0) :
    (exactLayers.gpuOffload size model usable).Fits size model usable := by
  unfold LayerReading.gpuOffload
  split
  · exact ⟨nofun, fun _ _ ↦ nofun, nofun⟩
  split
  · split
    · rename_i hfits
      exact ⟨nofun, fun _ _ _ ↦ Nat.sub_le_iff_le_add.mp hfits, fun _ ↦ rfl⟩
    · refine ⟨?_, fun _ ↦ nofun, fun _ ↦ rfl⟩
      rintro n ⟨⟩
      exact exactLayers_fit (size.weights - size.experts) usable h
  · rename_i hdense
    refine ⟨?_, fun hmoe ↦ absurd hmoe hdense, nofun⟩
    rintro n ⟨⟩
    exact exactLayers_fit size.total usable h

/-- In exact arithmetic no plan of a validated model overfills the VRAM that is known to be usable,
and the planner and the expert offload estimate the same layers. -/
theorem offload_fits (size : Footprint) (model : ModelMeta) (task : Task) (onCpu : Bool)
    (budget : MemoryBudget) (hvalid : model.validate = .ok ())
    (hknown : budget.vramKnown = true) :
    (exactLayers.offload size model task onCpu budget).Fits size model budget.usableVram ∧
      ∀ residentBytes nLayers usable, exactLayers.plannerLayers residentBytes nLayers usable =
        exactLayers.harnessLayers residentBytes nLayers usable := by
  refine ⟨?_, fun residentBytes nLayers usable ↦ by rw [plannerLayers_eq_harnessLayers]⟩
  cases task with
  | training => exact ⟨nofun, fun _ _ ↦ nofun, nofun⟩
  | inference =>
    cases onCpu with
    | true =>
      refine ⟨?_, fun _ ↦ nofun, nofun⟩
      rintro n ⟨⟩
      rw [Nat.cast_zero, zero_mul]
      exact ⟨Nat.zero_le _, Nat.cast_nonneg _⟩
    | false =>
      unfold LayerReading.offload
      rw [hknown]
      exact gpuOffload_fits size budget.usableVram (ModelMeta.bounded_of_validate hvalid).nLayers.1

/-- A mixture of experts of 60 GiB, 54 GiB of them experts, with 4 GiB of KV cache. -/
def wideExperts : Footprint := ⟨64424509440, 57982058496, 68719476736⟩

/-- A card of 4 GiB takes 21 of its 32 layers. -/
theorem offload_fits_mixtral :
    let model := ModelMeta.moe "mixtral" (.ofNat 8) .q4_K_M
    let budget : MemoryBudget := ⟨4294967296, 0, true, 0, none, true, false⟩
    (exactLayers.offload wideExperts model .inference false budget).Fits wideExperts model
        4294967296 ∧
      ∀ residentBytes nLayers usable, exactLayers.plannerLayers residentBytes nLayers usable =
        exactLayers.harnessLayers residentBytes nLayers usable :=
  offload_fits wideExperts (.moe "mixtral" (.ofNat 8) .q4_K_M) .inference false
    ⟨4294967296, 0, true, 0, none, true, false⟩ (ModelMeta.validate_of_toBool (by decide +kernel))
    rfl

example : (exactLayers.offload wideExperts (.moe "mixtral" (.ofNat 8) .q4_K_M) .inference false
    ⟨4294967296, 0, true, 0, none, true, false⟩).gpuLayers = .count 21 := by
  decide +kernel

end Cameo.Placement
