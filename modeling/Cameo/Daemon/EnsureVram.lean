import Cameo.Daemon.Serve
import Cameo.Daemon.Sessions
import Cameo.Supervisor.Availability

/-!
# Ensuring a model for a session

`api_ensure_session_vram` is to load a model for a live session and to claim it at once: it tries to
claim a resident model, else starts one and claims that.  A started process only becomes claimable
by a later health probe, so the second claim is always refused, and the session holds a lease on the
endpoint it has started exactly if it held one on an endpoint of that id before.
-/

namespace Cameo.Daemon

open Json Library Store Supervisor

structure AppState where
  sup : Supervisor
  board : Board

/-- The response of a handler, and what it leaves behind. -/
structure Handled where
  response : Response
  state : AppState
  spawns : List Spawn

/-! ## Requests -/

/-- `VramEnsureRequest`. -/
structure VramEnsureRequest where
  server : ModelRequest
  allowEvict : Bool

/-- `serde_json::from_slice` of a parsed body; the server fields are flattened into it. -/
def VramEnsureRequest.fromValue (value : Value) : Option VramEnsureRequest := do
  let server ← ModelRequest.fromValue value
  let allowEvict ← value.fieldOr false Value.asBool "allow_evict"
  return ⟨server, allowEvict⟩

/-- The answers during one `api_ensure_session_vram`. -/
structure EnsureIo where
  /-- The clock of the liveness check. -/
  checkedAt : Instant
  /-- What the JSON parser says of a body that is no request. -/
  parseError : String
  /-- The claim of a resident model. -/
  reuse : LeaseIo
  serve : ServeIo
  /-- The claim of the started model. -/
  claim : LeaseIo
  /-- The clock when the capability is recorded. -/
  recordedAt : Instant

/-! ## The handler -/

variable (codec : Codec)

def leasedEndpoint (lease : Value) : String := ((lease.index "endpoint_id").asStr).getD ""

/-- The capability recorded when a model cannot be had. -/
def blocked (model impact : String) (evicts : List String) : VramCapability :=
  ⟨"blocked", "ensure", model, "", impact, evicts⟩

/-- The capability recorded when a model is claimed. -/
def resident (model impact : String) (lease : Value) : VramCapability :=
  ⟨"resident", "ensure", model, leasedEndpoint lease, impact, []⟩

def evictsOf (detail : Value) : List String :=
  (((detail.get? "evicts").bind Value.asArray).map (List.filterMap Value.asStr)).getD []

def claimStarted (io : EnsureIo) (sessionId : String) (body : VramEnsureRequest)
    (endpoint : Value) (state : AppState) : Handled :=
  let model := body.server.model
  let claimed := state.sup.lease codec sessionId model io.claim
  match claimed.result with
  | .ok lease =>
    let impact := if body.allowEvict then "loaded after explicit operator-approved VRAM admission"
      else "loaded without evicting another endpoint"
    let recorded := state.board.recordVram sessionId (resident model impact lease) io.recordedAt
    ⟨⟨201, .ofFields [("session", .option Session.toValue recorded.1), ("endpoint", endpoint),
      ("lease", lease), ("reused", .bool false)]⟩, ⟨claimed.sup, recorded.2⟩, claimed.spawns⟩
  | .error (.persistence _) =>
    ⟨.error 503 "lease storage unavailable; retry claim", { state with sup := claimed.sup },
      claimed.spawns⟩
  | .error (.unavailable _) =>
    let recorded := state.board.recordVram sessionId
      (blocked model "endpoint did not become ready; inspect Cameo servers" []) io.recordedAt
    ⟨.error 502 "model process did not become ready; inspect /api/servers",
      ⟨claimed.sup, recorded.2⟩, claimed.spawns⟩

/-- The start of a model that is not resident, and the claim of it. -/
def provision (io : EnsureIo) (sessionId : String) (body : VramEnsureRequest) (state : AppState) :
    Handled :=
  let started := startServerWithEviction codec io.serve body.server body.allowEvict state.sup
  let state := { state with sup := started.sup }
  if started.result.status < 200 ∨ started.result.status ≥ 300 then
    let detail := started.result.body
    let impact := ((detail.get? "error").bind Value.asStr).getD "Cameo could not admit the model"
    let recorded := state.board.recordVram sessionId
      (blocked body.server.model impact (evictsOf detail)) io.recordedAt
    ⟨started.result, { state with board := recorded.2 }, started.spawns⟩
  else
    let claimed := claimStarted codec io sessionId body started.result.body state
    { claimed with spawns := started.spawns ++ claimed.spawns }

/-- `api_ensure_session_vram`. -/
def apiEnsureSessionVram (io : EnsureIo) (sessionId : String) (body : Value) (state : AppState) :
    Handled :=
  if !state.board.contains sessionId io.checkedAt then
    ⟨.error 404 "no such live session", state, []⟩
  else
    match VramEnsureRequest.fromValue body with
    | none => ⟨.error 400 ("invalid vram ensure body: " ++ io.parseError), state, []⟩
    | some body =>
      if isBlank body.server.model then
        ⟨.error 400 "vram ensure needs a non-empty model", state, []⟩
      else
        let reused := state.sup.lease codec sessionId body.server.model io.reuse
        match reused.result with
        | .error (.persistence _) =>
          ⟨.error 503 "lease storage unavailable; retry claim", { state with sup := reused.sup },
            reused.spawns⟩
        | .ok lease =>
          let recorded := state.board.recordVram sessionId
            (resident body.server.model "reused resident model; no eviction" lease) io.recordedAt
          ⟨⟨200, .ofFields [("session", .option Session.toValue recorded.1), ("lease", lease),
            ("reused", .bool true)]⟩, ⟨reused.sup, recorded.2⟩, reused.spawns⟩
        | .error (.unavailable _) =>
          let provisioned := provision codec io sessionId body { state with sup := reused.sup }
          { provisioned with spawns := reused.spawns ++ provisioned.spawns }

/-! ## What the session holds afterwards -/

/-- The session holds a lease on the endpoint. -/
def HoldsLease (sup : Supervisor) (sessionId endpointId : String) : Prop :=
  ∃ lease, sup.leases.get? sessionId = some lease ∧ lease.endpointId = endpointId

variable {codec}

/-- The claim of a model that no endpoint is ready to serve changes no lease. -/
theorem leases_claimStarted (io : EnsureIo) (sessionId : String) {body : VramEnsureRequest}
    (endpoint : Value) {state : AppState} (h : NoneReady body.server.model state.sup.endpoints) :
    (claimStarted codec io sessionId body endpoint state).state.sup.leases =
      state.sup.leases := by
  have hrefused := lease_of_noneReady codec sessionId io.claim h
  unfold claimStarted
  dsimp only
  rw [hrefused]
  exact (lease_unavailable codec hrefused).2

theorem claimStarted_spawns {io : EnsureIo} {sessionId : String} {body : VramEnsureRequest}
    {endpoint : Value} {state : AppState} {spawn : Spawn}
    (h : spawn ∈ (claimStarted codec io sessionId body endpoint state).spawns) :
    spawn.cause = .restart := by
  unfold claimStarted at h
  dsimp only at h
  split at h <;> exact ((evolves_lease codec _ _ _ _).restarts spawn h).1

/-- A model that no endpoint is ready to serve is provisioned without a change of leases, if that
spawns a process. -/
theorem leases_provision {io : EnsureIo} {sessionId : String} {body : VramEnsureRequest}
    {state : AppState} (h : NoneReady body.server.model state.sup.endpoints) {spawn : Spawn}
    (hspawn : spawn ∈ (provision codec io sessionId body state).spawns)
    (hcause : spawn.cause = .start) :
    (provision codec io sessionId body state).state.sup.leases = state.sup.leases := by
  have hclaim {endpoint : Value} {state : AppState}
      (hmem : spawn ∈ (claimStarted codec io sessionId body endpoint state).spawns) : False := by
    cases hcause.symm.trans (claimStarted_spawns hmem)
  unfold provision startServerWithEviction at hspawn ⊢
  rcases startServerInner_cases codec io.serve body.server body.allowEvict 0 state.sup with
    ⟨response, heq⟩ | ⟨req, pinned, -, -, -, heq⟩
  · rw [heq] at hspawn
    dsimp only at hspawn
    split at hspawn
    · cases hspawn
    · exact (hclaim hspawn).elim
  · rw [heq] at hspawn ⊢
    dsimp only at hspawn ⊢
    have hstart : spawn ∈ (start codec req io.serve.start state.sup).spawns := by
      split at hspawn
      · exact hspawn
      · exact (List.mem_append.mp hspawn).resolve_right hclaim
    obtain ⟨hnone, view, hview⟩ := start_noneReady codec h hstart hcause
    rw [hview]
    exact (leases_claimStarted io sessionId _ hnone).trans (leases_start codec req _ _).1

/-- A request that spawns the model's process leaves the session a lease on its endpoint exactly if
the session held a lease on an endpoint of that id before. -/
theorem ensure_holdsLease_iff {io : EnsureIo} {sessionId : String} {body : Value}
    {state : AppState} {spawn : Spawn}
    (hspawn : spawn ∈ (apiEnsureSessionVram codec io sessionId body state).spawns)
    (hcause : spawn.cause = .start) :
    HoldsLease (apiEnsureSessionVram codec io sessionId body state).state.sup sessionId
        spawn.endpointId ↔
      HoldsLease state.sup sessionId spawn.endpointId := by
  have hreuse {model : String}
      (hmem : spawn ∈ (state.sup.lease codec sessionId model io.reuse).spawns) : False := by
    cases hcause.symm.trans ((evolves_lease codec _ _ _ _).restarts spawn hmem).1
  suffices hleases : (apiEnsureSessionVram codec io sessionId body state).state.sup.leases =
      state.sup.leases by
    rw [HoldsLease, HoldsLease, hleases]
  unfold apiEnsureSessionVram at hspawn ⊢
  split at hspawn
  · cases hspawn
  rename_i hlive
  rw [if_neg hlive]
  split at hspawn
  · cases hspawn
  rename_i request _
  split at hspawn
  · cases hspawn
  rename_i hblank
  dsimp only at hspawn ⊢
  rw [if_neg hblank]
  cases hresult : (state.sup.lease codec sessionId request.server.model io.reuse).result with
  | ok lease =>
    rw [hresult] at hspawn
    exact (hreuse hspawn).elim
  | error e =>
    rw [hresult] at hspawn
    cases e with
    | persistence e => exact (hreuse hspawn).elim
    | unavailable refused =>
      obtain ⟨hnone, hsame⟩ := lease_unavailable codec hresult
      have hmem := (List.mem_append.mp hspawn).resolve_left hreuse
      exact (leases_provision hnone hmem hcause).trans hsame

/-! ## Two requests -/

def EnsureIo.plain (child : Child) : EnsureIo :=
  ⟨0, "", .plain 0, .plain 0 child, .plain 0, 0⟩

def heartbeatS1 (sup : Supervisor) : AppState :=
  let saved := Board.new.upsertDurable 0 0 (.named "s1")
    (Session.persist .constant (.ok "07")) sup
  ⟨saved.2.2, saved.2.1⟩

def ensureAlpha : Value := .ofFields [("model", .string "alpha")]

/-- A session that claimed a model, which has then been stopped. -/
def stoppedAlpha : Supervisor :=
  ((Sys.fresh openedEmpty).run .constant
    (.start (.simple "alpha" 8080 8 16 false) (.plain 0 ⟨100, 0⟩) :: healthyPass 0 ++
      [.call (.lease "s1" "alpha" (.plain 0)), .call (.stop "alpha-8080" ⟨.ok "06", .prompt⟩)])).sup

/-- The lease on a stopped endpoint is in force for the process started in its place. -/
theorem ensure_holdsLease_stoppedAlpha :
    HoldsLease (apiEnsureSessionVram .constant (.plain ⟨101, 1⟩) "s1" ensureAlpha
      (heartbeatS1 stoppedAlpha)).state.sup "s1" "alpha-8080" :=
  have hspawns : (apiEnsureSessionVram .constant (.plain ⟨101, 1⟩) "s1" ensureAlpha
      (heartbeatS1 stoppedAlpha)).spawns = [⟨.start, "alpha-8080", ⟨101, 1⟩, 0⟩] := by
    decide +kernel
  (ensure_holdsLease_iff (hspawns ▸ List.mem_singleton_self _) rfl).mpr ⟨_, rfl, rfl⟩

/-- A model loaded for a session is not claimed for it. -/
theorem ensure_not_claimed :
    let out := apiEnsureSessionVram .constant (.plain ⟨100, 0⟩) "s1" ensureAlpha
      (heartbeatS1 openedEmpty)
    (heartbeatS1 openedEmpty).board.contains "s1" 0 = true ∧
      out.spawns = [⟨.start, "alpha-8080", ⟨100, 0⟩, 0⟩] ∧ out.response.status = 502 ∧
      ¬ HoldsLease out.state.sup "s1" "alpha-8080" := by
  refine ⟨by decide, by decide +kernel, by decide +kernel, ?_⟩
  rintro ⟨lease, hlease, -⟩
  cases hlease

end Cameo.Daemon
