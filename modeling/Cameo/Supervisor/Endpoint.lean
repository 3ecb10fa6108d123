import Cameo.Command
import Cameo.Json
import Cameo.Supervisor.Process

/-!
# Supervised endpoints

One tracked model server: what was asked for, its process handle, and the lifecycle facts that
`refresh`, the health probes and `stop_owned` maintain.  Each operation takes the answers of the
operating system as an argument and returns the processes it spawned, so that a run of the daemon
determines which processes were started, for which endpoint, and when.
-/

namespace Cameo.Supervisor

open Json

/-- `HEALTH_PROBE_INTERVAL`. -/
def healthProbeInterval : Duration := .fromMillis 500

/-- `Endpoint`. -/
structure Endpoint where
  restartEnabled : Bool
  id : String
  model : String
  host : String
  port : ℕ
  backend : String
  fitsVram : Bool
  notes : List String
  contextTokens : ℕ
  command : CommandSpec
  child : Option Child
  error : Option String
  exitCode : Option ℤ
  startedAt : SystemTime
  restarts : ℕ
  lastExitAt : Option SystemTime
  vramBytes : ℕ
  lastUsed : SystemTime
  ready : Bool
  lastHealthProbe : Option SystemTime
  readinessError : Option String

inductive SpawnCause where
  | start
  | restart
deriving DecidableEq

/-- A process started by the supervisor: why, for which endpoint and at what recorded time. -/
structure Spawn where
  cause : SpawnCause
  endpointId : String
  child : Child
  startedAt : SystemTime
deriving DecidableEq

/-- `HealthProbe`: the target of one health probe.  `serial` records which process instance the
target was taken from; the daemon itself compares pid and start time only. -/
structure HealthProbe where
  endpointId : String
  host : String
  port : ℕ
  processId : ℕ
  startedAt : SystemTime
  serial : ℕ

/-- The answers during one `refresh`, in the order in which it asks. -/
structure RefreshIo where
  /-- `try_wait`. -/
  tryWait : WaitResult
  /-- The clock when an observed exit is recorded. -/
  exitAt : SystemTime
  /-- The clock against which the uptime is taken. -/
  uptimeAt : SystemTime
  /-- The clock against which the backoff is taken. -/
  restartAt : SystemTime
  /-- `spawn`, on an attempted restart. -/
  spawn : Except String Child
  /-- The clock recorded as the start of a restarted process. -/
  startedAt : SystemTime

/-- Rendering of `{:?}` on an optional exit code. -/
def debugCode : Option ℤ → String
  | none => "None"
  | some code => "Some(" ++ toString code ++ ")"

/-- The lifecycle states `Endpoint::state` reports. -/
inductive EndpointState where
  | failed
  | running
  | starting
  | exited
deriving DecidableEq

def EndpointState.label : EndpointState → String
  | .failed => "failed"
  | .running => "running"
  | .starting => "starting"
  | .exited => "exited"

namespace Endpoint

/-- `Endpoint::process_running`. -/
def processRunning (endpoint : Endpoint) : Bool := endpoint.child.isSome

/-- `Endpoint::is_ready`. -/
def isReady (endpoint : Endpoint) : Bool :=
  endpoint.child.isSome && endpoint.ready && endpoint.error.isNone

/-- `Endpoint::state`. -/
def state (endpoint : Endpoint) : EndpointState :=
  if endpoint.error.isSome then .failed
  else if endpoint.child.isSome && endpoint.ready then .running
  else if endpoint.child.isSome then .starting
  else .exited

/-- The first half of `Endpoint::refresh`: take note of an exited child. -/
def reap (io : RefreshIo) (endpoint : Endpoint) : Endpoint :=
  match endpoint.child with
  | none => endpoint
  | some _ =>
    match io.tryWait with
    | .exited code =>
      let uptime := (SystemTime.elapsed endpoint.startedAt io.uptimeAt).getD 0
      { endpoint with
        exitCode := code
        child := none
        lastExitAt := some io.exitAt
        restarts := restartsAfterExit endpoint.restarts uptime }
    | .running => endpoint
    | .failed e => { endpoint with error := some ("wait failed: " ++ e), ready := false }

/-- The endpoint after a successful automatic restart. -/
def restarted (endpoint : Endpoint) (child : Child) (startedAt : SystemTime) : Endpoint :=
  { endpoint with
    child := some child
    restarts := endpoint.restarts + 1
    exitCode := none
    lastExitAt := none
    startedAt := startedAt
    ready := false
    lastHealthProbe := none
    readinessError := none }

/-- `Endpoint::maybe_restart`. -/
def maybeRestart (io : RefreshIo) (endpoint : Endpoint) : Endpoint × List Spawn :=
  if !endpoint.restartEnabled then (endpoint, [])
  else
    let since := endpoint.lastExitAt.bind fun at_ ↦ SystemTime.elapsed at_ io.restartAt
    match restartDecision endpoint.child.isSome endpoint.error.isSome since endpoint.restarts with
    | .attempt =>
      match io.spawn with
      | .ok child =>
        (endpoint.restarted child io.startedAt, [⟨.restart, endpoint.id, child, io.startedAt⟩])
      | .error e => ({ endpoint with error := some ("restart failed: " ++ e) }, [])
    | .exhausted =>
      ({ endpoint with
          error := some ("exited after " ++ toString endpoint.restarts ++ " restarts (last code " ++
            debugCode endpoint.exitCode ++ "); giving up") }, [])
    | .backoff | .notApplicable => (endpoint, [])

/-- `Endpoint::refresh`. -/
def refresh (io : RefreshIo) (endpoint : Endpoint) : Endpoint × List Spawn :=
  maybeRestart io (reap io endpoint)

/-- `Endpoint::schedule_health_probe`; the two clock readings are the due check and the record. -/
def scheduleHealthProbe (dueAt now : SystemTime) (endpoint : Endpoint) :
    Endpoint × Option HealthProbe :=
  match endpoint.child with
  | none => (endpoint, none)
  | some child =>
    let age := endpoint.lastHealthProbe.bind fun at_ ↦ SystemTime.elapsed at_ dueAt
    if (age.map fun age ↦ decide (age ≥ healthProbeInterval)).getD true then
      ({ endpoint with lastHealthProbe := some now },
        some ⟨endpoint.id, endpoint.host, endpoint.port, child.pid, endpoint.startedAt,
          child.serial⟩)
    else (endpoint, none)

/-- Whether a probe was taken from the process the endpoint now has, as the daemon tells. -/
def sameProcess (endpoint : Endpoint) (probe : HealthProbe) : Bool :=
  endpoint.child.map Child.pid = some probe.processId && endpoint.startedAt = probe.startedAt

/-- `Endpoint::apply_health_probe`. -/
def applyHealthProbe (probe : HealthProbe) (result : Except String Unit) (endpoint : Endpoint) :
    Endpoint :=
  if endpoint.sameProcess probe then
    match result with
    | .ok () => { endpoint with ready := true, readinessError := none }
    | .error e => { endpoint with ready := false, readinessError := some e }
  else endpoint

/-- `Endpoint::stop_owned`. -/
def stopOwned (io : TerminationIo) (endpoint : Endpoint) : Except String Unit × Endpoint :=
  let stopping := { endpoint with
    error := some "stop requested; automatic restart disabled"
    ready := false }
  let stopped := { stopping with child := none, lastExitAt := none }
  match endpoint.child with
  | none => (.ok (), stopped)
  | some _ =>
    match confirmTermination io (.fromSecs 1) with
    | .error e => (.error e, { stopping with error := some e })
    | .ok () => (.ok (), stopped)

/-- The JSON of `Endpoint::view`, after its refresh. -/
def viewJson (now : SystemTime) (endpoint : Endpoint) : Value :=
  .ofFields [
    ("id", .string endpoint.id),
    ("model", .string endpoint.model),
    ("host", .string endpoint.host),
    ("port", .nat endpoint.port),
    ("endpoint", .string ("http://" ++ endpoint.host ++ ":" ++ toString endpoint.port)),
    ("backend", .string endpoint.backend),
    ("state", .string endpoint.state.label),
    ("pid", .option (fun child ↦ .nat child.pid) endpoint.child),
    ("exit_code", .option .int endpoint.exitCode),
    ("error", .option .string endpoint.error),
    ("readiness_error", .option .string endpoint.readinessError),
    ("restarts", .nat endpoint.restarts),
    ("fits_vram", .bool endpoint.fitsVram),
    ("vram_bytes", .nat endpoint.vramBytes),
    ("notes", .array (endpoint.notes.map .string)),
    ("context_tokens", .nat endpoint.contextTokens),
    ("command", .string endpoint.command.display),
    ("uptime_secs", .nat ((SystemTime.elapsed endpoint.startedAt now).map
      Duration.asSecs |>.getD 0))]

/-- `Endpoint::view`: refresh, then render. -/
def view (io : RefreshIo) (now : SystemTime) (endpoint : Endpoint) :
    Value × Endpoint × List Spawn :=
  let refreshed := endpoint.refresh io
  (refreshed.1.viewJson now, refreshed)

end Endpoint

end Cameo.Supervisor
