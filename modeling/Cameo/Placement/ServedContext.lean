import Cameo.Placement.LlamaServer

/-!
# The served context

A server shares one context between its slots, so `-c` is the context of a slot times the number of
slots.  The memory of the KV cache is sized with the same product.  The command multiplies in `u32`
and the planner in `u64`; `validate` bounds the context and the slots each for itself, and not their
product.
-/

namespace Cameo.Placement

/-- The tokens of context that a model is planned with, over all slots. -/
def ModelMeta.plannedContext (model : ModelMeta) : ℕ :=
  model.contextLen.toNat * model.parallelSlots.toNat

/-- The KV cache is charged for so many tokens of context on every layer, and the count of all of
them is exact. -/
def ModelMeta.ChargesFor (model : ModelMeta) (tokens : ℕ) : Prop :=
  model.nLayers.toNat * tokens ≤ u64Max ∧
    model.kvBytes = saturatingMul (model.nLayers.toNat * tokens) model.kvPerLayerToken

/-- The server command passes a context, right after the path of the model. -/
def CommandSpec.Serves (command : CommandSpec) (modelPath : String) (tokens : ℕ) : Prop :=
  ∃ rest, command.args = ["-m", modelPath, "-c", toString tokens] ++ rest

variable {model : ModelMeta}

/-- A validated description is charged for the context it is planned with. -/
theorem chargesFor_plannedContext (h : model.validate = .ok ()) :
    model.ChargesFor model.plannedContext := by
  obtain ⟨hcontext, -, hlayers⟩ := ModelMeta.bounded_of_validate h
  have hslots := model.parallelSlots.toNat_lt
  have hperLayer : model.nLayers.toNat * model.contextLen.toNat ≤ 2 ^ 12 * 2 ^ 24 :=
    Nat.mul_le_mul hlayers hcontext
  have hcount : model.nLayers.toNat * model.contextLen.toNat * model.parallelSlots.toNat ≤
      2 ^ 12 * 2 ^ 24 * 2 ^ 16 :=
    Nat.mul_le_mul hperLayer hslots.le
  have hmax : (2 : ℕ) ^ 12 * 2 ^ 24 * 2 ^ 16 ≤ u64Max := by decide
  have hmaxLayers : (2 : ℕ) ^ 12 * 2 ^ 24 ≤ u64Max := by decide
  unfold ModelMeta.ChargesFor ModelMeta.plannedContext ModelMeta.kvBytes
  rw [← Nat.mul_assoc]
  refine ⟨hcount.trans hmax, ?_⟩
  have hexactLayers : saturatingMul model.nLayers.toNat model.contextLen.toNat =
      model.nLayers.toNat * model.contextLen.toNat :=
    min_eq_left (hperLayer.trans hmaxLayers)
  rw [hexactLayers]
  have hexact : saturatingMul (model.nLayers.toNat * model.contextLen.toNat)
      model.parallelSlots.toNat =
      model.nLayers.toNat * model.contextLen.toNat * model.parallelSlots.toNat :=
    min_eq_left (hcount.trans hmax)
  rw [hexact]

/-- The command serves the context that is planned, the one the KV cache is charged for. -/
def ServesPlannedContext (plan : PlacementPlan) (model : ModelMeta)
    (modelPath binary host : String) (port : UInt16) (apiKey : Option String) : Prop :=
  CommandSpec.Serves (buildLlamaServer plan model modelPath binary host port apiKey) modelPath
      model.plannedContext ∧
    model.ChargesFor model.plannedContext

theorem serves_iff (plan : PlacementPlan) (model : ModelMeta) (modelPath binary host : String)
    (port : UInt16) (apiKey : Option String) (tokens : ℕ) :
    CommandSpec.Serves (buildLlamaServer plan model modelPath binary host port apiKey) modelPath
      tokens ↔ tokens = min model.plannedContext (2 ^ 32 - 1) := by
  unfold CommandSpec.Serves buildLlamaServer ModelMeta.plannedContext
  simp only [List.cons_append, List.nil_append, List.cons.injEq, true_and]
  constructor
  · rintro ⟨rest, hcontext, -⟩
    exact (decimal_inj hcontext).symm
  · rintro rfl
    exact ⟨_, rfl, rfl⟩

/-- For a validated description, the served context is the planned one exactly if the product fits
`u32`. -/
theorem servesPlannedContext_iff (plan : PlacementPlan) (model : ModelMeta)
    (modelPath binary host : String) (port : UInt16) (apiKey : Option String)
    (h : model.validate = .ok ()) :
    ServesPlannedContext plan model modelPath binary host port apiKey ↔
      model.contextLen.toNat * model.parallelSlots.toNat < 2 ^ 32 := by
  unfold ServesPlannedContext
  rw [serves_iff, and_iff_left (chargesFor_plannedContext h), ModelMeta.plannedContext]
  omega

/-- A model with the longest context that is planned, in so many slots. -/
def longModel (slots : UInt16) : ModelMeta :=
  { ModelMeta.dense "llama" (.ofNat 7) .q4_K_M with
    contextLen := 16777216
    parallelSlots := slots }

def cpuPlan : PlacementPlan :=
  ⟨.inference, .cpu, 0, .single, ⟨.count 0, false, false⟩, ⟨0, 0, false, 0, none, false, false⟩,
    [], false, []⟩

theorem servesPlannedContext_long :
    ServesPlannedContext cpuPlan (longModel 255) "m.gguf" "llama-server" "127.0.0.1" 8100 none ↔
      16777216 * 255 < 2 ^ 32 :=
  servesPlannedContext_iff cpuPlan (longModel 255) "m.gguf" "llama-server" "127.0.0.1" 8100 none
    (ModelMeta.validate_of_toBool (by decide +kernel))

/-- With 256 slots the product is one more than `u32` holds. -/
theorem not_servesPlannedContext_long :
    ¬ (∀ plan (model : ModelMeta) modelPath binary host port apiKey, model.validate = .ok () →
      ServesPlannedContext plan model modelPath binary host port apiKey) := by
  intro h
  have hserves := (h cpuPlan (longModel 256) "m.gguf" "llama-server" "127.0.0.1" 8100 none
    (ModelMeta.validate_of_toBool (by decide +kernel))).1
  rw [serves_iff] at hserves
  revert hserves
  decide

end Cameo.Placement
