import Cameo.Daemon.Serve
import Cameo.Models.Gguf
import Cameo.Placement.LlamaServer
import Cameo.Supervisor.Residency

/-!
# Planning a request

`plan_for` describes the requested model, plans it on the detected hardware and builds the server
command.  `start_server_inner` then asks the supervisor for the room: the plan is sized against the
VRAM that is free before any eviction, while admission sizes the model against the whole budget.
The two disagree exactly when a model that fits the budget has to evict: on GPUs of their own
memory, such a model is launched with a plan that does not fit.
-/

namespace Cameo.Daemon

open Json Library Store Supervisor Cameo.Placement
open Models (InferenceMeta)

/-! ## Describing the model -/

/-- What a request learns about its machine and its model. -/
structure PlanIo where
  /-- The detected hardware, or the response to a failed detection. -/
  detect : Except Response Topology
  settings : Settings
  /-- The environment. -/
  env : String → Option String
  /-- The parameter count and the architecture of a curated model, by its name. -/
  paramsFor : Option F64
  discovered : Option InferenceMeta
  /-- The model's path, or why it has none. -/
  resolve : Except String String
  fileSize : Option ℕ
  /-- The architecture in the model file's header. -/
  gguf : Option InferenceMeta
  /-- The size of the file when it is measured again for admission. -/
  measuredSize : Option ℕ

/-- `ModelRequest::meta`. -/
def ModelRequest.modelMeta (io : PlanIo) (body : ModelRequest) : ModelMeta :=
  let quant := (QuantLevel.parse body.quant).getD .q4_K_M
  let params := (body.params.map (fun x ↦ FloatValue.ofBits x.1) <|> io.paramsFor).getD (.ofNat 7)
  let base := if body.moe then ModelMeta.moe body.model params quant
    else .dense body.model params quant
  let native := body.nativeContext <|> io.discovered.map InferenceMeta.nativeContext
  let described : ModelMeta := { base with
    nativeContextLen := native
    contextLen := if body.context = 0 then (native.map fourFifths).getD 4096 else body.context
    parallelSlots := body.slots
    kvCacheType := KvCacheType.parse body.kvCache
    kvHeads := body.kvHeads <|> io.discovered.map InferenceMeta.kvHeads
    headDim := body.headDim <|> io.discovered.map InferenceMeta.headDim
    batchSize := body.batch
    ubatchSize := body.ubatch
    flashAttention := body.flashAttention
    cacheReuse := body.cacheReuse
    cacheRamMib := body.cacheRamMib
    metrics := body.metrics
    slotSavePath := body.slotSavePath }
  let clamped := described.clampToNativeContext
  if body.layers > 0 then { clamped with nLayers := body.layers }
  else
    match io.discovered with
    | some found => { clamped with nLayers := found.layers }
    | none => clamped

/-- `ModelRequest::backend`. -/
def ModelRequest.backendChoice (body : ModelRequest) : Option Backend :=
  match body.backend with
  | some "vulkan" => some .vulkan
  | some "rocm" => some .rocm
  | some "cpu" => some .cpu
  | _ => none

/-- The model as `plan_for` plans it: with its file's size, and its header where the request leaves
a field open. -/
def plannedModel (io : PlanIo) (body : ModelRequest) : ModelMeta :=
  let model := (body.modelMeta io).withFileSize io.fileSize
  match io.gguf with
  | none => model
  | some header =>
    let refined : ModelMeta := { model with
      nativeContextLen :=
        if body.nativeContext.isNone then some header.nativeContext else model.nativeContextLen
      contextLen := if body.context = 0 then fourFifths header.nativeContext else model.contextLen
      nLayers := if body.layers = 0 then header.layers else model.nLayers
      kvHeads := if body.kvHeads.isNone then some header.kvHeads else model.kvHeads
      headDim := if body.headDim.isNone then some header.headDim else model.headDim }
    refined.clampToNativeContext

def settingsFor (io : PlanIo) (body : ModelRequest) : Settings :=
  { io.settings with backend := body.backendChoice <|> io.settings.backend }

/-! ## The plan -/

/-- `server_binary`. -/
def serverBinary (env : String → Option String) : Backend → String
  | .rocm => (env "CAMEO_LLAMA_SERVER_ROCM").getD "llama-server-rocm"
  | .vulkan => (env "CAMEO_LLAMA_SERVER_VULKAN").getD "llama-server"
  | .cpu | .auto => (env "CAMEO_LLAMA_SERVER_CPU").getD "llama-server"

/-- `plan_error_response`. -/
def planErrorResponse : Placement.Error → Response
  | .trainingUnsupported tier => .error 400
      ("training requires a Tier 1/2 (ROCm) GPU; top GPU is Tier " ++ toString tier)
  | .backendUnsupported message => .error 400 message
  | .insufficientMemory needed available =>
    .error 400 (Placement.Error.message (.insufficientMemory needed available))
  | .invalidModel message => .error 400 (Placement.Error.message (.invalidModel message))
  | other => .error 500 other.message

/-- `plan_for`. -/
def planFor (io : PlanIo) (body : ModelRequest) :
    Except Response (PlacementPlan × CommandSpec × ModelMeta) :=
  match io.detect with
  | .error response => .error response
  | .ok topo =>
    let assessments := classifyTopology topo embeddedOverrides
    let settings := settingsFor io body
    let modelPath := match io.resolve with
      | .ok path => path
      | .error _ => body.model
    let model := plannedModel io body
    match plan topo assessments model .inference settings with
    | .error e => .error (planErrorResponse e)
    | .ok made => .ok (made, buildLlamaServer made model modelPath
        (serverBinary io.env made.backend) body.host body.port settings.serveApiKey, model)

/-- The size of the model as admission takes it. -/
def measuredBytes (io : PlanIo) (model : ModelMeta) : ℕ :=
  match io.resolve with
  | .ok _ => (model.withFileSize io.measuredSize).totalBytes
  | .error _ => model.totalBytes

def planned (io : PlanIo) (body : ModelRequest) : Except Response Placement :=
  match planFor io body with
  | .error response => .error response
  | .ok (made, spec, model) => .ok {
      backend := made.backend.debug
      fitsVram := made.fitsInVram
      notes := made.notes
      command := spec
      contextTokens := model.contextLen.toNat
      vramKnown := made.budget.vramKnown
      vramBytes := made.budget.vramBytes
      totalBytes := measuredBytes io model }

def ServeIo.planning (io : ServeIo) (facts : PlanIo) (body : ModelRequest) : ServeIo :=
  { io with
    serveApiKey := facts.settings.serveApiKey
    resolve := facts.resolve
    plan := planned facts body }

/-! ## A start that evicts -/

/-- The start of a request before anything is planned for it. -/
def unplanned (body : ModelRequest) : StartRequest :=
  startRequest body ⟨"", false, [], ⟨"", [], [], []⟩, 0, false, 0, 0⟩ false 0

/-- The VRAM that the other unleased endpoints hold when admission looks at them.  Neither the port
check nor that look depends on the plan. -/
def unleasedVram (body : ModelRequest) (io : StartIo) (sup : Supervisor) : ℕ :=
  vramWhere (keptUnleased body.id (leasedIds sup.leases) []) (admissionMap (unplanned body) io sup)

def Evicts (before after : Supervisor) : Prop :=
  ∃ endpoint ∈ before.endpoints.entries, ∀ other ∈ after.endpoints.entries,
    other.id ≠ endpoint.id

/-- The requested model is tracked with the command of a plan that fits VRAM and keeps all layers on
the GPU. -/
def LaunchedInVram (facts : PlanIo) (body : ModelRequest) (sup : Supervisor) : Prop :=
  ∃ made spec model, planFor facts body = .ok (made, spec, model) ∧ made.fitsInVram = true ∧
    made.offload.gpuLayers = .all ∧
    ∃ endpoint ∈ sup.endpoints.entries, endpoint.id = body.id ∧ endpoint.command = spec ∧
      endpoint.fitsVram = true

variable {codec : Codec}

theorem status_planErrorResponse (e : Placement.Error) :
    (planErrorResponse e).status = 400 ∨ (planErrorResponse e).status = 500 := by
  unfold planErrorResponse
  split
  · exact .inl rfl
  · exact .inl rfl
  · exact .inl rfl
  · exact .inl rfl
  · exact .inr rfl

/-- On detected hardware, a request is refused with an error, or its model is planned. -/
theorem planFor_cases {facts : PlanIo} {topo : Topology} (body : ModelRequest)
    (hdetect : facts.detect = .ok topo) :
    (∃ response, planFor facts body = .error response ∧ response.status ≠ 201) ∨
      ∃ made spec, planFor facts body = .ok (made, spec, plannedModel facts body) ∧
        plan topo (classifyTopology topo embeddedOverrides) (plannedModel facts body) .inference
          (settingsFor facts body) = .ok made := by
  unfold planFor
  rw [hdetect]
  dsimp only
  split
  · rename_i e _
    refine .inl ⟨_, rfl, ?_⟩
    rcases status_planErrorResponse e with hstatus | hstatus <;> rw [hstatus] <;> decide
  · rename_i made hmade
    exact .inr ⟨made, _, rfl, hmade⟩

/-- The start that a placement of a request's model asks for. -/
structure Requested (body : ModelRequest) (placement : Placement) (req : StartRequest) : Prop where
  id : req.id = body.id
  port : req.port = body.port.toNat
  command : req.command = placement.command
  fitsVram : req.fitsVram = placement.fitsVram
  vramBudget : req.vramBudget = Daemon.vramBudget placement
  vramNeed : req.vramNeed = if Daemon.vramBudget placement > 0 then
    min placement.totalBytes (Daemon.vramBudget placement) else 0

theorem requested (body : ModelRequest) (digest : Option String) (placement : Placement)
    (allowEvict : Bool) (attempts : ℕ) :
    Requested body placement
      (startRequest { body with modelSha256 := digest } placement allowEvict attempts) :=
  ⟨rfl, rfl, rfl, rfl, rfl, rfl⟩

/-- A request answered with 201 was planned, and its start succeeded. -/
theorem startServerInner_created {io : ServeIo} {body : ModelRequest} {allowEvict : Bool}
    {attempts : ℕ} {sup : Supervisor} (hplan : ∀ response, io.plan = .error response →
      response.status ≠ 201)
    (h : (startServerInner codec io body allowEvict attempts sup).result.status = 201) :
    ∃ placement req view, io.plan = .ok placement ∧ Requested body placement req ∧
      (sup.start codec req io.start).result = .ok view ∧
      (startServerInner codec io body allowEvict attempts sup).sup =
        (sup.start codec req io.start).sup := by
  unfold startServerInner at h ⊢
  split at h
  · cases h
  rename_i hkey
  rw [if_neg hkey]
  split at h
  · cases h
  split at h
  · cases h
  rename_i digest _
  split at h
  · cases h
  rename_i hdigest
  split at h
  · rename_i response hrefused
    exact absurd h (hplan response hrefused)
  rename_i placement hplaced
  rw [if_neg hdigest]
  dsimp only at h ⊢
  cases hresult : (sup.start codec (startRequest { body with modelSha256 := some digest } placement
    allowEvict attempts) io.start).result with
  | error e =>
    rw [hresult] at h
    cases e <;> cases h
  | ok view =>
    exact ⟨placement, _, view, hplaced, requested body _ placement _ _, hresult, rfl⟩

theorem Requested.unleasedVram {body : ModelRequest} {placement : Placement} {req : StartRequest}
    (h : Requested body placement req) (io : StartIo) (sup : Supervisor) :
    vramWhere (keptUnleased req.id (leasedIds sup.leases) []) (admissionMap req io sup) =
      Daemon.unleasedVram body io sup := by
  have hunplanned : Requested body _ (unplanned body) := requested body body.modelSha256 _ _ _
  rw [admissionMap_congr (h.id.trans hunplanned.id.symm) (h.port.trans hunplanned.port.symm), h.id,
    Daemon.unleasedVram]

/-- A successful start removes an endpoint only as a victim. -/
theorem victims_ne_nil {req : StartRequest} {io : StartIo} {sup : Supervisor}
    {victims : List String} {out : Outcome (Except StartError Value)}
    (h : Launched req io sup victims out) (hevicts : Evicts sup out.sup) : victims ≠ [] := by
  rintro rfl
  obtain ⟨endpoint, hmem, hgone⟩ := hevicts
  obtain ⟨later, hlater, hrefreshes⟩ := (decided_refreshes req io sup).exists_after hmem
  have hid : later.id = endpoint.id := hrefreshes.evolved.id
  rw [h.endpoints] at hgone
  by_cases hown : later.id = ((newEndpoint req io).refresh io.view).1.id
  · exact hgone _ (h.endpoints ▸ h.mem) (hown.symm.trans hid)
  · refine hgone later ((Keyed.Table.mem_insert _ _ _).mpr (.inr ⟨?_, hown⟩)) hid
    rw [Keyed.Table.entries_retain]
    exact List.mem_filter.mpr ⟨hlater, rfl⟩

/-- Measuring an unchanged file again gives the planned size. -/
theorem measuredBytes_plannedModel {facts : PlanIo} (body : ModelRequest)
    (h : facts.measuredSize = facts.fileSize) :
    measuredBytes facts (plannedModel facts body) = (plannedModel facts body).totalBytes := by
  have hclamp (model : ModelMeta) :
      model.clampToNativeContext.weightsBytesOverride = model.weightsBytesOverride := by
    unfold ModelMeta.clampToNativeContext
    split <;> rfl
  have hsize : (plannedModel facts body).weightsBytesOverride = facts.fileSize := by
    unfold plannedModel
    dsimp only
    split
    · rfl
    · rw [hclamp]
      rfl
  unfold measuredBytes
  split
  · rw [h, ← hsize]
    rfl
  · rfl

/-- Without a GPU that shares the host's memory, none of that memory is reachable. -/
theorem gttReachableBytes_of {topo : Topology} (h : ∀ gpu ∈ topo.gpus, gpu.memory ≠ .shared) :
    (MemoryBudget.of topo).gttReachableBytes = 0 := by
  have hshared : (topo.gpus.any fun gpu ↦ gpu.memory.isSharedWithHost) = false := by
    rw [List.any_eq_false]
    intro gpu hmem
    simpa [MemoryKind.isSharedWithHost] using h gpu hmem
  simp [MemoryBudget.of, hshared]

theorem runsOnCpu_of_vramKnown {topo : Topology} (settings : Settings)
    (h : (MemoryBudget.of topo).vramKnown = true) :
    runsOnCpu topo settings = decide (settings.backend = some .cpu) := by
  simp only [MemoryBudget.of, Bool.and_eq_true, Bool.not_eq_true'] at h
  rw [runsOnCpu, h.1, Bool.false_or]

/-- What a request that evicts has asked of the supervisor, and what it has left. -/
theorem evicting_start {io : ServeIo} {facts : PlanIo} {body : ModelRequest} {allowEvict : Bool}
    {attempts : ℕ} {sup : Supervisor} {topo : Topology} (hdetect : facts.detect = .ok topo)
    (hmeasured : facts.measuredSize = facts.fileSize)
    (htotal : (plannedModel facts body).totalBytes ≤ (MemoryBudget.of topo).vramBytes)
    (hcreated : (startServerInner codec (io.planning facts body) body allowEvict attempts
      sup).result.status = 201)
    (hevicts : Evicts sup
      (startServerInner codec (io.planning facts body) body allowEvict attempts sup).sup) :
    ∃ made spec, planFor facts body = .ok (made, spec, plannedModel facts body) ∧
      plan topo (classifyTopology topo embeddedOverrides) (plannedModel facts body) .inference
        (settingsFor facts body) = .ok made ∧
      (MemoryBudget.of topo).vramKnown = true ∧ 0 < (plannedModel facts body).totalBytes ∧
      (MemoryBudget.of topo).vramBytes <
        unleasedVram body io.start sup + (plannedModel facts body).totalBytes ∧
      ∃ endpoint ∈ (startServerInner codec (io.planning facts body) body allowEvict attempts
          sup).sup.endpoints.entries,
        endpoint.id = body.id ∧ endpoint.command = spec ∧ endpoint.fitsVram = made.fitsInVram := by
  have hplans (other : Response) (h : (io.planning facts body).plan = .error other) :
      other.status ≠ 201 := by
    rcases planFor_cases body hdetect with ⟨response, hrefused, hstatus⟩ | ⟨made, spec, hplan, -⟩
    · simp only [ServeIo.planning, planned, hrefused] at h
      cases h
      exact hstatus
    · simp only [ServeIo.planning, planned, hplan] at h
      cases h
  obtain ⟨placement, req, view, hplaced, hreq, hview, hsup⟩ :=
    startServerInner_created hplans hcreated
  rw [hsup] at hevicts ⊢
  obtain ⟨victims, hlaunched⟩ := start_ok codec hview
  obtain ⟨hbudget, hneed, hfull⟩ :=
    budget_lt_of_victims hlaunched.decided (victims_ne_nil hlaunched hevicts)
  rw [hreq.unleasedVram] at hfull
  rcases planFor_cases body hdetect with ⟨response, hrefused, -⟩ | ⟨made, spec, hplan, hmade⟩
  · simp only [ServeIo.planning, planned, hrefused] at hplaced
    cases hplaced
  simp only [ServeIo.planning, planned, hplan, measuredBytes_plannedModel body hmeasured] at hplaced
  cases hplaced
  rw [← (plan_inference hmade).1] at htotal ⊢
  rw [hreq.vramBudget] at hbudget
  rw [hreq.vramBudget, hreq.vramNeed, if_pos hbudget] at hfull
  rw [hreq.vramNeed, if_pos hbudget] at hneed
  have hknown : made.budget.vramKnown = true := by
    by_contra hunknown
    simp [vramBudget, hunknown] at hbudget
  simp only [vramBudget, hknown, if_true, min_eq_left htotal] at hneed hfull
  refine ⟨made, spec, hplan, hmade, hknown, hneed, hfull, _, hlaunched.mem, ?_, ?_⟩
  · rw [Endpoint.id_refresh]
    exact hreq.id
  · obtain ⟨hcommand, hfits⟩ := Endpoint.placement_refresh io.start.view (newEndpoint req io.start)
    exact ⟨hcommand.trans hreq.command, hfits.trans hreq.fitsVram⟩

/-- A request that evicts the endpoints which hold the used VRAM, for a model that fits the budget,
launches it in VRAM exactly if it is not forced to the CPU and the host memory within reach of the
GPUs takes what does not fit beside the endpoints that are about to be evicted.  GPUs of their own
memory reach none. -/
theorem evicting_start_launchedInVram_iff {io : ServeIo} {facts : PlanIo} {body : ModelRequest}
    {allowEvict : Bool} {attempts : ℕ} {sup : Supervisor} {topo : Topology}
    (hdetect : facts.detect = .ok topo) (hmeasured : facts.measuredSize = facts.fileSize)
    (htotal : (plannedModel facts body).totalBytes ≤ (MemoryBudget.of topo).vramBytes)
    (hused : (MemoryBudget.of topo).vramUsedBytes = unleasedVram body io.start sup)
    (hcreated : (startServerInner codec (io.planning facts body) body allowEvict attempts
      sup).result.status = 201)
    (hevicts : Evicts sup
      (startServerInner codec (io.planning facts body) body allowEvict attempts sup).sup) :
    (LaunchedInVram facts body
        (startServerInner codec (io.planning facts body) body allowEvict attempts sup).sup ↔
      (settingsFor facts body).backend ≠ some .cpu ∧
        (plannedModel facts body).totalBytes -
            ((MemoryBudget.of topo).vramBytes - unleasedVram body io.start sup) ≤
          (MemoryBudget.of topo).gttReachableBytes) ∧
      ((∀ gpu ∈ topo.gpus, gpu.memory ≠ .shared) → ¬ LaunchedInVram facts body
        (startServerInner codec (io.planning facts body) body allowEvict attempts sup).sup) := by
  obtain ⟨made, spec, hplan, hmade, hknown, hpositive, hfull, hendpoint⟩ :=
    evicting_start hdetect hmeasured htotal hcreated hevicts
  obtain ⟨hbudget, hcases⟩ := plan_inference hmade
  have hsaturated := (plannedModel facts body).totalBytes_le
  have hiff : LaunchedInVram facts body
        (startServerInner codec (io.planning facts body) body allowEvict attempts sup).sup ↔
      (settingsFor facts body).backend ≠ some .cpu ∧
        (plannedModel facts body).totalBytes -
            ((MemoryBudget.of topo).vramBytes - unleasedVram body io.start sup) ≤
          (MemoryBudget.of topo).gttReachableBytes := by
    rw [hbudget, hknown, runsOnCpu_of_vramKnown _ hknown, MemoryBudget.usableVram, hused,
      saturatingAdd] at hcases
    constructor
    · rintro ⟨other, _, _, hother, hfits, hlayers, -⟩
      rw [hplan] at hother
      cases hother
      rcases hcases with ⟨-, hcpu⟩ | ⟨hgpu, hiff, -⟩
      · rw [hcpu] at hlayers
        cases hlayers
      · refine ⟨of_decide_eq_false hgpu, ?_⟩
        rw [hfits, Bool.true_and] at hiff
        have hroom := of_decide_eq_true hiff.symm
        omega
    · rintro ⟨hgpu, hcovered⟩
      rcases hcases with ⟨hcpu, -⟩ | ⟨-, hiff, hall⟩
      · exact absurd (of_decide_eq_true hcpu) hgpu
      · have hfits : made.fitsInVram = true := by
          rw [hiff]
          simp only [Bool.true_and, decide_eq_true_eq]
          omega
        obtain ⟨endpoint, hmem, hid, hcommand, hsame⟩ := hendpoint
        exact ⟨made, spec, _, hplan, hfits, hall hfits, endpoint, hmem, hid, hcommand,
          hsame.trans hfits⟩
  refine ⟨hiff, ?_⟩
  intro hdedicated hlaunched
  have hcovered := (hiff.mp hlaunched).2
  rw [gttReachableBytes_of hdedicated] at hcovered
  omega

/-! ## Two machines -/

/-- A daemon that serves an unleased model of 8 GiB on a GPU of 16 GiB. -/
def servingAlpha : Supervisor :=
  ((Sys.fresh .default).run .constant
    [.start (.simple "alpha" 8080 (8 * 2 ^ 30) (scale (2 ^ 34) vramHeadroom) true)
      (.plain 0 ⟨100, 0⟩)]).sup

def requestBeta : ModelRequest := { ModelRequest.named "beta" none with port := 8081 }

/-- A machine with a GPU of 16 GiB, of which 8 GiB are used. -/
def halfUsedTopology (memory : MemoryKind) : Topology :=
  ⟨[⟨.amd, some 16384, some 8192, some 16384, memory, some "gfx1100"⟩], [], some ⟨2 ^ 36, 2 ^ 35⟩⟩

/-- That machine, and a model file of 10 GiB. -/
def halfUsed (memory : MemoryKind) : PlanIo where
  detect := .ok (halfUsedTopology memory)
  settings := ⟨none, none, none, none⟩
  env := fun _ ↦ none
  paramsFor := none
  discovered := none
  resolve := .ok "/models/beta.gguf"
  fileSize := some (10 * 2 ^ 30)
  gguf := none
  measuredSize := some (10 * 2 ^ 30)

/-- What the daemon does with the request for the other model. -/
def startedBeta (memory : MemoryKind) : Outcome Response :=
  startServerInner .constant
    ((ServeIo.plain 0 ⟨101, 1⟩).planning (halfUsed memory) requestBeta) requestBeta true 0
    servingAlpha

theorem evicts_startedBeta (memory : MemoryKind) :
    Evicts servingAlpha (startedBeta memory).sup := by
  unfold Evicts
  cases memory <;> decide +kernel

/-- An integrated GPU reaches enough host memory for the model before the eviction. -/
theorem evicting_start_launchedInVram_shared :
    LaunchedInVram (halfUsed .shared) requestBeta (startedBeta .shared).sup :=
  (evicting_start_launchedInVram_iff rfl rfl (by decide +kernel) (by decide +kernel)
    (by decide +kernel : (startedBeta .shared).result.status = 201)
    (evicts_startedBeta .shared)).1.mpr ⟨by decide +kernel, by decide +kernel⟩

/-- On a discrete GPU, the model takes the place of the evicted one with a plan for the VRAM that
was free beside it. -/
theorem evicting_start_not_launchedInVram :
    (plannedModel (halfUsed .dedicated) requestBeta).totalBytes ≤
        (MemoryBudget.of (halfUsedTopology .dedicated)).vramBytes ∧
      (MemoryBudget.of (halfUsedTopology .dedicated)).vramUsedBytes =
        unleasedVram requestBeta (ServeIo.plain 0 ⟨101, 1⟩).start servingAlpha ∧
      (startedBeta .dedicated).result.status = 201 ∧
      Evicts servingAlpha (startedBeta .dedicated).sup ∧
      ¬ LaunchedInVram (halfUsed .dedicated) requestBeta (startedBeta .dedicated).sup := by
  refine ⟨by decide +kernel, by decide +kernel, by decide +kernel, evicts_startedBeta _, ?_⟩
  rintro ⟨made, spec, model, hplan, hfits, -⟩
  have hspills : (planFor (halfUsed .dedicated) requestBeta).toOption.map
      (fun planned ↦ planned.1.fitsInVram) = some false := by decide +kernel
  rw [hplan, Except.toOption, Option.map_some, hfits] at hspills
  cases hspills

end Cameo.Daemon
