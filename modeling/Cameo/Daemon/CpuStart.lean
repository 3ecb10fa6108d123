import Cameo.Daemon.Planning
import Cameo.Supervisor.Eviction

/-!
# Starts on the CPU

A plan for the CPU puts no layer on a GPU.  Its memory budget is that of the whole machine all the
same, and `start_server_inner` takes the VRAM budget and need from it.  So a model that is forced
to the CPU of a machine with GPUs reserves VRAM it does not use, and may evict for it or be refused.
-/

namespace Cameo.Daemon

open Json Library Store Supervisor Cameo.Placement

/-- The errors of a start that VRAM is the reason of. -/
def VramRefusal : StartError → Prop
  | .wontFit _ | .leasedCapacity _ | .evictionRequired _ => True
  | _ => False

/-- In every state of the supervisor, the start reserves no VRAM, evicts no endpoint, and is not
refused for VRAM. -/
structure TakesNoVram (codec : Codec) (req : StartRequest) : Prop where
  reserves : ∀ (io : StartIo) (sup : Supervisor) view, (sup.start codec req io).result = .ok view →
    ∀ endpoint ∈ (sup.start codec req io).sup.endpoints.entries, endpoint.id = req.id →
      endpoint.vramBytes = 0
  keeps : ∀ (io : StartIo) (sup : Supervisor), ∀ endpoint ∈ sup.endpoints.entries,
    Untouched req (sup.start codec req io) endpoint
  admitted : ∀ (io : StartIo) (sup : Supervisor) e,
    (sup.start codec req io).result = .error e → ¬ VramRefusal e

variable {codec : Codec}

theorem checkPort_error {req : StartRequest} {io : StartIo} {map : EndpointMap} {e : StartError}
    (h : (checkPort req io map).result = .error e) : ¬ VramRefusal e := by
  unfold checkPort at h
  dsimp only at h
  split at h
  · cases h
    exact id
  · split at h
    · cases h
      exact id
    · cases h

/-- A request without a need is admitted as it stands. -/
theorem decided_of_no_need {req : StartRequest} (h : req.vramNeed = 0) (io : StartIo)
    (sup : Supervisor) : (decided req io sup).result = .ok [] := by
  have hskipped : ¬ (req.vramBudget > 0 ∧ req.vramNeed > 0) := by
    rw [h]
    exact fun hneed ↦ absurd hneed.2 (lt_irrefl 0)
  rw [decided, arbitrate_skipped hskipped]

theorem takesNoVram_of_no_need {req : StartRequest} (h : req.vramNeed = 0) :
    TakesNoVram codec req := by
  refine ⟨?_, ?_, ?_⟩
  · intro io sup view hok endpoint hmem hid
    obtain ⟨victims, hlaunched⟩ := start_ok codec hok
    have hnew := Endpoint.kept_refresh io.view (newEndpoint req io)
    rw [hlaunched.endpoints] at hmem
    rcases (Keyed.Table.mem_insert _ _ _).mp hmem with rfl | ⟨-, hne⟩
    · exact hnew.vramBytes.trans h
    · exact absurd (hid.trans hnew.id.symm) hne
  · intro io sup endpoint hmem
    refine untouched_of_not_victim codec hmem ?_
    intro victims hvictims
    rw [decided_of_no_need h] at hvictims
    cases hvictims
    exact List.not_mem_nil
  · intro io sup e herror
    have hstarted := started codec req io sup
    generalize sup.start codec req io = out at hstarted herror
    cases hstarted with
    | latched _ =>
      cases herror
      exact id
    | taken _ hport =>
      cases herror
      exact checkPort_error hport
    | refused _ _ hdecided =>
      rw [decided_of_no_need h] at hdecided
      cases hdecided
    | unevicted _ _ hdecided hevict =>
      rw [decided_of_no_need h] at hdecided
      cases hdecided
      cases hevict
    | @launched victims _ _ _ _ launched hlaunch =>
      rcases launch_cases codec req io
        (evict codec io victims { sup with endpoints := (decided req io sup).map }).2 with
        ⟨e', heq, -⟩ | ⟨heq, -⟩
      · rw [← hlaunch, heq] at herror
        cases herror
        exact id
      · rw [← hlaunch, heq] at herror
        cases herror

/-- On a supervisor without endpoints, leases or a store, a need within the budget is started. -/
theorem exists_start_ok {req : StartRequest} (h : req.vramNeed ≤ req.vramBudget) :
    ∃ io view, (Supervisor.default.start codec req io).result = .ok view := by
  let io : StartIo := .plain 0 ⟨0, 0⟩
  refine ⟨io, ?_⟩
  have hport : (checkPort req io Supervisor.default.endpoints).result = .ok () := rfl
  have hdecided : (decided req io .default).result = .ok [] := by
    unfold decided arbitrate
    split
    · have hnone : excludeLeasedResidents
          (residentsOf req.id (refreshAll io.residents
            (checkPort req io Supervisor.default.endpoints).map).map)
          (leasedIds Supervisor.default.leases) = [] := rfl
      dsimp only
      rw [hnone, (admitVram_eq_admitted_iff [] h).mpr]
      exact (min_le_left _ _).trans ((Nat.zero_add _).trans_le h)
    · rfl
  have hstarted := started codec req io .default
  generalize Supervisor.default.start codec req io = out at hstarted
  cases hstarted with
  | latched hlatch => cases hlatch
  | taken _ hport' =>
    rw [hport] at hport'
    cases hport'
  | refused _ _ hdecided' =>
    rw [hdecided] at hdecided'
    cases hdecided'
  | unevicted _ _ hdecided' hevict =>
    rw [hdecided] at hdecided'
    cases hdecided'
    cases hevict
  | launched _ _ hdecided' _ hlaunch =>
    rw [hdecided] at hdecided'
    cases hdecided'
    exact ⟨_, congrArg Outcome.result hlaunch.symm⟩

/-- A start takes no VRAM exactly when it asks for none, as long as it asks within the budget. -/
theorem takesNoVram_iff {req : StartRequest} (h : req.vramNeed ≤ req.vramBudget) :
    TakesNoVram codec req ↔ req.vramNeed = 0 := by
  refine ⟨?_, takesNoVram_of_no_need⟩
  intro hnone
  obtain ⟨io, view, hok⟩ := @exists_start_ok codec _ h
  obtain ⟨victims, hlaunched⟩ := start_ok codec hok
  have hnew := Endpoint.kept_refresh io.view (newEndpoint req io)
  exact hnew.vramBytes.symm.trans (hnone.reserves io _ view hok _ hlaunched.mem hnew.id)

/-- The need of a planned request is within its budget. -/
theorem vramNeed_startRequest_le (body : ModelRequest) (placement : Placement) (allowEvict : Bool)
    (attempts : ℕ) : (startRequest body placement allowEvict attempts).vramNeed ≤
      (startRequest body placement allowEvict attempts).vramBudget := by
  change (if vramBudget placement > 0 then _ else 0) ≤ vramBudget placement
  split
  · exact min_le_right _ _
  · exact Nat.zero_le _

theorem vramNeed_startRequest_eq_zero_iff (body : ModelRequest) (placement : Placement)
    (allowEvict : Bool) (attempts : ℕ) :
    (startRequest body placement allowEvict attempts).vramNeed = 0 ↔
      placement.vramKnown = false ∨ placement.vramBytes = 0 ∨ placement.totalBytes = 0 := by
  change (if vramBudget placement > 0 then min placement.totalBytes (vramBudget placement) else 0)
    = 0 ↔ _
  by_cases hknown : placement.vramKnown = true
  · have hbudget : vramBudget placement = placement.vramBytes := if_pos hknown
    rw [hbudget, hknown]
    split
    · rename_i hpositive
      have hne : placement.vramBytes ≠ 0 := Nat.ne_of_gt hpositive
      simp only [Bool.true_eq_false, hne, false_or]
      omega
    · rename_i hzero
      exact iff_of_true rfl (.inr (.inl (Nat.eq_zero_of_not_pos hzero)))
  · have hbudget : vramBudget placement = 0 := if_neg hknown
    rw [hbudget, if_neg (lt_irrefl 0)]
    exact iff_of_true rfl (.inl (Bool.eq_false_iff.mpr hknown))

/-- A plan for the CPU puts no layer on a GPU. -/
theorem gpuLayers_of_cpu {topo : Topology} {assessments : List TierAssessment} {model : ModelMeta}
    {settings : Settings} {made : PlacementPlan}
    (h : plan topo assessments model .inference settings = .ok made)
    (hcpu : made.backend = .cpu) : made.offload.gpuLayers = .count 0 := by
  rcases (plan_inference h).2 with ⟨-, hlayers⟩ | ⟨hgpu, -⟩
  · exact hlayers
  · -- With a GPU and without the choice of the CPU, the backend is ROCm or Vulkan.
    have hforced : settings.backend ≠ some .cpu := by
      intro hforced
      rw [runsOnCpu, hforced, decide_eq_true rfl, Bool.or_true] at hgpu
      cases hgpu
    unfold plan at h
    split at h
    · cases h
    rw [hgpu, if_neg Bool.false_ne_true] at h
    split at h
    · cases h
    split at h
    · cases h
    rename_i backend hbackend
    have hbackend : backend ≠ .cpu := by
      rintro rfl
      unfold resolveBackend at hbackend
      dsimp only at hbackend
      split at hbackend
      · cases hbackend
      · split at hbackend <;> cases hbackend
      · split at hbackend <;> cases hbackend
    dsimp only at h
    unfold planInference at h
    split at h
    · cases h
    · have hmade := congrArg PlacementPlan.backend (Except.ok.inj h)
      exact absurd (hmade.trans hcpu) hbackend

/-- The start of a model that is planned on the CPU takes no VRAM exactly when the VRAM of the host
is unknown or none, or the measured size of the model is zero. -/
theorem cpuStart_takesNoVram_iff {facts : PlanIo} {topo : Topology} {body : ModelRequest}
    {made : PlacementPlan} {spec : CommandSpec} {model : ModelMeta}
    (hdetect : facts.detect = .ok topo) (hplan : planFor facts body = .ok (made, spec, model))
    (hcpu : made.backend = .cpu) (digest : Option String) (allowEvict : Bool) (attempts : ℕ) :
    made.offload.gpuLayers = .count 0 ∧ ∃ placement, planned facts body = .ok placement ∧
      (TakesNoVram codec (startRequest { body with modelSha256 := digest } placement allowEvict
          attempts) ↔
        (MemoryBudget.of topo).vramKnown = false ∨ (MemoryBudget.of topo).vramBytes = 0 ∨
          measuredBytes facts (plannedModel facts body) = 0) := by
  rcases planFor_cases body hdetect with ⟨response, hrefused, -⟩ | ⟨made', spec', hplan', hmade⟩
  · rw [hrefused] at hplan
    cases hplan
  rw [hplan'] at hplan
  cases hplan
  refine ⟨gpuLayers_of_cpu hmade hcpu, ?_⟩
  simp only [planned, hplan', Except.ok.injEq, exists_eq_left']
  rw [takesNoVram_iff (vramNeed_startRequest_le _ _ _ _), vramNeed_startRequest_eq_zero_iff,
    (plan_inference hmade).1]

/-! ## Two machines -/

/-- A request for another model, to be served on the CPU. -/
def requestBetaOnCpu : ModelRequest := { requestBeta with backend := some "cpu" }

/-- A machine without a GPU, and a model file of 10 GiB. -/
def withoutGpu : PlanIo := { halfUsed .dedicated with
  detect := .ok ⟨[], [], some ⟨2 ^ 36, 2 ^ 35⟩⟩ }

/-- A request that is planned on the CPU. -/
theorem exists_cpuPlan {facts : PlanIo} {body : ModelRequest}
    (h : (planFor facts body).toOption.map (fun planned ↦ planned.1.backend) = some .cpu) :
    ∃ made spec model, planFor facts body = .ok (made, spec, model) ∧ made.backend = .cpu := by
  cases hplan : planFor facts body with
  | error response =>
    rw [hplan] at h
    cases h
  | ok planned =>
    rw [hplan] at h
    exact ⟨planned.1, planned.2.1, planned.2.2, rfl, Option.some.inj h⟩

/-- Without a GPU, the model is served from the host's memory alone. -/
theorem cpuStart_takesNoVram_withoutGpu :
    ∃ placement, planned withoutGpu requestBeta = .ok placement ∧
      TakesNoVram .constant (startRequest requestBeta placement false 0) := by
  obtain ⟨made, spec, model, hplan, hcpu⟩ :=
    @exists_cpuPlan withoutGpu requestBeta (by decide +kernel)
  obtain ⟨-, placement, hplaced, hiff⟩ :=
    cpuStart_takesNoVram_iff rfl hplan hcpu requestBeta.modelSha256 false 0
  exact ⟨placement, hplaced, hiff.mpr (by decide +kernel)⟩

/-- Forced to the CPU of a machine with a GPU of 16 GiB, a model of 10 GiB asks for VRAM. -/
theorem not_takesNoVram_forced :
    ∃ made spec model placement,
      planFor (halfUsed .dedicated) requestBetaOnCpu = .ok (made, spec, model) ∧
      made.backend = .cpu ∧ planned (halfUsed .dedicated) requestBetaOnCpu = .ok placement ∧
      ¬ TakesNoVram .constant (startRequest requestBetaOnCpu placement false 0) := by
  obtain ⟨made, spec, model, hplan, hcpu⟩ :=
    @exists_cpuPlan (halfUsed .dedicated) requestBetaOnCpu (by decide +kernel)
  have hneed : (planned (halfUsed .dedicated) requestBetaOnCpu).toOption.map (fun placement ↦
      decide ((startRequest requestBetaOnCpu placement false 0).vramNeed = 0)) = some false := by
    decide +kernel
  cases hplaced : planned (halfUsed .dedicated) requestBetaOnCpu with
  | error response =>
    rw [hplaced] at hneed
    cases hneed
  | ok placement =>
    rw [hplaced, Except.toOption, Option.map_some, Option.some.injEq] at hneed
    refine ⟨made, spec, model, placement, hplan, hcpu, rfl, ?_⟩
    rw [takesNoVram_iff (vramNeed_startRequest_le _ _ _ _)]
    exact of_decide_eq_false hneed

end Cameo.Daemon
