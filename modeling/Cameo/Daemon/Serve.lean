import Cameo.Daemon.ModelRequest
import Cameo.Supervisor.Persistence
import Cameo.Text

/-!
# Serving a model

`start_server_inner` turns a model request into a `StartRequest` and a start's result into a
response.  What the planner, the model cache and the configuration say about the request enters
as answers; the request itself becomes the endpoint's durable intent, together with the number of
recovery attempts made so far.  `recover_endpoints` replays the persisted intents after an opening,
each one with one attempt more than it has recorded.
-/

namespace Cameo.Daemon

open Json Library Store Supervisor

/-- `Response`, as far as the handlers below use it: a status and a JSON body. -/
structure Response where
  status : ℕ
  body : Value

/-- `Response::error`. -/
def Response.error (status : ℕ) (message : String) : Response :=
  ⟨status, .ofFields [("error", .string message), ("status", .nat status)]⟩

structure Placement where
  /-- The chosen backend, as its debug text. -/
  backend : String
  fitsVram : Bool
  notes : List String
  command : CommandSpec
  contextTokens : ℕ
  /-- Whether the usable VRAM is known, and how much there is. -/
  vramKnown : Bool
  vramBytes : ℕ
  /-- The measured size of the model. -/
  totalBytes : ℕ

/-- The answers during one `start_server_inner`. -/
structure ServeIo where
  /-- Whether the requested host reaches this machine only. -/
  loopback : Bool
  serveApiKey : Option String
  /-- The model's path, or why it has none. -/
  resolve : Except String String
  fileSha256 : Except String String
  /-- The pinned digest, for a built-in alias. -/
  curated : Option String
  plan : Except Response Placement
  start : StartIo

def intentOf (body : ModelRequest) (recoveryAttempts : ℕ) : Value :=
  body.toValue.set "_recovery_attempts" (.nat recoveryAttempts)

def vramBudget (plan : Placement) : ℕ := if plan.vramKnown then plan.vramBytes else 0

/-- The start a planned request asks for.  A model that spills wants the whole GPU, so its need is
capped at the budget. -/
def startRequest (body : ModelRequest) (plan : Placement) (allowEvict : Bool)
    (recoveryAttempts : ℕ) : StartRequest where
  intent := intentOf body recoveryAttempts
  model := body.model
  host := body.host
  port := body.port.toNat
  backend := plan.backend
  fitsVram := plan.fitsVram
  notes := plan.notes
  contextTokens := plan.contextTokens
  command := plan.command
  vramNeed := if vramBudget plan > 0 then min plan.totalBytes (vramBudget plan) else 0
  vramBudget := vramBudget plan
  allowEvict := allowEvict

def startResponse : Except StartError Value → Response
  | .error .shuttingDown => .error 503 "daemon is shutting down"
  | .error (.termination _) =>
    .error 503 "previous endpoint has not confirmed exit; inspect servers before retrying"
  | .error (.persistence _) =>
    .error 503 "cannot persist endpoint intent; no processes were changed"
  | .ok view => ⟨201, view⟩
  | .error (.portInUse id) => .error 409 ("endpoint " ++ id ++ " is already running")
  | .error (.wontFit message) => .error 507 message
  | .error (.leasedCapacity message) => .error 409 message
  | .error (.evictionRequired ids) => ⟨409, .ofFields [
      ("error", .string ("loading this model would evict active unleased endpoints; " ++
        "operator confirmation is required")),
      ("status", .nat 409),
      ("requires_operator_confirmation", .bool true),
      ("evicts", .array (ids.map .string))]⟩

variable (codec : Codec)

/-- `start_server_inner`. -/
def startServerInner (io : ServeIo) (body : ModelRequest) (allowEvict : Bool)
    (recoveryAttempts : ℕ) (sup : Supervisor) : Outcome Response :=
  if !io.loopback && io.serveApiKey.isNone then
    ⟨.error 400 ("refusing to serve on " ++ body.host ++
      " without an endpoint api key. Set serve_api_key in the daemon config, or bind the " ++
      "endpoint to 127.0.0.1."), sup, []⟩
  else
    match io.resolve with
    | .error e => ⟨.error 400 e, sup, []⟩
    | .ok _ =>
      match io.fileSha256 with
      | .error _ => ⟨.error 400
          "model integrity check failed; verify the model file before starting", sup, []⟩
      | .ok digest =>
        if (body.modelSha256.any fun expected ↦ !eqIgnoreAsciiCase expected digest) ||
            io.curated.any fun pinned ↦ !eqIgnoreAsciiCase pinned digest then
          ⟨.error 409 ("model digest differs from the pinned artifact; restore the verified " ++
            "model before starting"), sup, []⟩
        else
          match io.plan with
          | .error response => ⟨response, sup, []⟩
          | .ok plan =>
            let body := { body with modelSha256 := some digest }
            let started := sup.start codec (startRequest body plan allowEvict recoveryAttempts)
              io.start
            ⟨startResponse started.result, started.sup, started.spawns⟩

/-- `start_server_with_eviction`: a start on request, which has no recovery attempts. -/
def startServerWithEviction (io : ServeIo) (body : ModelRequest) (allowEvict : Bool)
    (sup : Supervisor) : Outcome Response :=
  startServerInner codec io body allowEvict 0 sup

/-- The answers during `maybe_autostart`. -/
structure AutostartIo where
  /-- `CAMEO_AUTOSTART_MODEL`, if it is set. -/
  configured : Option String
  /-- Whether the model is in the cache. -/
  cached : Bool
  params : Option Value.FiniteF64
  serve : ServeIo

def autostartModel : Option String → Option String
  | some name => if name = "" ∨ name = "none" ∨ name = "0" then none else some name
  | none => some "qwen2.5-0.5b"

/-- `Supervisor::has_history`. -/
def hasHistory (sup : Supervisor) : Bool := sup.store.any EndpointStore.hasHistory

/-- `maybe_autostart`. -/
def maybeAutostart (io : AutostartIo) (sup : Supervisor) : Outcome (Option Response) :=
  if hasHistory sup then ⟨none, sup, []⟩
  else
    match autostartModel io.configured with
    | none => ⟨none, sup, []⟩
    | some model =>
      if io.cached then
        let started := startServerWithEviction codec io.serve (.named model io.params) true sup
        ⟨some started.result, started.sup, started.spawns⟩
      else ⟨none, sup, []⟩

/-! ## Recovery -/

/-- The answers during the recovery of one endpoint. -/
structure RecoverIo where
  /-- Whether an address can be bound. -/
  bind : String → UInt16 → Bool
  serve : ServeIo

/-- The address at which recovery looks for another owner of the port. -/
def recoveryHost (host : String) : String :=
  if host = "0.0.0.0" then "127.0.0.1" else if host = "::" then "::1" else host

/-- The recovery attempts after which an endpoint needs an explicit start. -/
def recoveryBudget : ℕ := 5

/-- One iteration of `recover_endpoints`. -/
def recoverEndpoint (io : RecoverIo) (intent : Value) (sup : Supervisor) :
    Outcome (Option Response) :=
  if recoveryAttempts intent ≥ recoveryBudget then ⟨none, sup, []⟩
  else
    match ModelRequest.fromValue intent with
    | none => ⟨none, sup, []⟩
    | some body =>
      if io.bind (recoveryHost body.host) body.port then
        let started := startServerInner codec io.serve body false (recoveryAttempts intent + 1) sup
        ⟨some started.result, started.sup, started.spawns⟩
      else ⟨none, sup, []⟩

/-! ## What a start on request can do -/

def ModelRequest.id (body : ModelRequest) : String := endpointId body.model body.port.toNat

theorem recoveryAttempts_intentOf (body : ModelRequest) (attempts : ℕ) :
    recoveryAttempts (intentOf body attempts) = attempts := by
  have hobject : body.toValue.IsObject := trivial
  rw [recoveryAttempts, intentOf, Value.get?_set_self _ _ hobject]
  rfl

theorem fromValue_intentOf (body : ModelRequest) (attempts : ℕ) :
    ModelRequest.fromValue (intentOf body attempts) = some body := by
  rw [intentOf, ModelRequest.fromValue_set (by decide), ModelRequest.fromValue_toValue]

/-- A serving request is refused before anything happens, or makes one start of its endpoint, with
an intent that holds the request and the number of attempts. -/
theorem startServerInner_cases (io : ServeIo) (body : ModelRequest) (allowEvict : Bool)
    (attempts : ℕ) (sup : Supervisor) :
    (∃ response, startServerInner codec io body allowEvict attempts sup = ⟨response, sup, []⟩) ∨
      ∃ req pinned, pinned.id = body.id ∧ req.id = body.id ∧ req.intent = intentOf pinned attempts ∧
        startServerInner codec io body allowEvict attempts sup =
          ⟨startResponse (sup.start codec req io.start).result,
            (sup.start codec req io.start).sup, (sup.start codec req io.start).spawns⟩ := by
  unfold startServerInner
  split
  · exact .inl ⟨_, rfl⟩
  split
  · exact .inl ⟨_, rfl⟩
  split
  · exact .inl ⟨_, rfl⟩
  rename_i digest _
  split
  · exact .inl ⟨_, rfl⟩
  split
  · exact .inl ⟨_, rfl⟩
  rename_i plan _
  let pinned : ModelRequest := { body with modelSha256 := some digest }
  exact .inr ⟨startRequest pinned plan allowEvict attempts, pinned, rfl, rfl, rfl, rfl⟩

/-- A recovery does nothing, or makes one start with one attempt more than recorded, if fewer than
five are. -/
theorem recoverEndpoint_cases (io : RecoverIo) (intent : Value) (sup : Supervisor) :
    (∃ response, recoverEndpoint codec io intent sup = ⟨response, sup, []⟩) ∨
      ∃ body req pinned response, ModelRequest.fromValue intent = some body ∧
        recoveryAttempts intent < recoveryBudget ∧ pinned.id = body.id ∧ req.id = body.id ∧
        req.intent = intentOf pinned (recoveryAttempts intent + 1) ∧
        recoverEndpoint codec io intent sup =
          ⟨response, (sup.start codec req io.serve.start).sup,
            (sup.start codec req io.serve.start).spawns⟩ := by
  unfold recoverEndpoint
  split
  · exact .inl ⟨_, rfl⟩
  rename_i hattempts
  split
  · exact .inl ⟨_, rfl⟩
  rename_i body hbody
  split
  · rcases startServerInner_cases codec io.serve body false (recoveryAttempts intent + 1) sup with
      ⟨response, heq⟩ | ⟨req, pinned, hpinned, hreq, hintent, heq⟩
    · rw [heq]
      exact .inl ⟨_, rfl⟩
    · rw [heq]
      exact .inr ⟨body, req, pinned, _, hbody, not_le.mp hattempts, hpinned, hreq, hintent, rfl⟩
  · exact .inl ⟨_, rfl⟩

/-! ## Scripted answers -/

/-- A request in which every check passes, with a model of 8 on a GPU of 16. -/
def ServeIo.plain (now : SystemTime) (child : Child) : ServeIo where
  loopback := true
  serveApiKey := none
  resolve := .ok "/models/alpha.gguf"
  fileSha256 := .ok "e3b0c44298fc1c149afbf4c8996fb92427ae41e4649b934ca495991b7852b855"
  curated := none
  plan := .ok ⟨"Vulkan", true, [], ⟨"llama-server", ["-m", "/models/alpha.gguf"], [], []⟩, 4096,
    true, 16, 8⟩
  start := .plain now child

end Cameo.Daemon
