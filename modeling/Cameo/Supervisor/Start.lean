import Cameo.Supervisor.State

/-!
# Starting an endpoint

`Supervisor::start` in the four stages of the source: the port check, the VRAM arbitration, the
eviction of the chosen victims and the launch.  The endpoint lock and the lease lock are held
throughout, so a start is one step of the system; an error keeps the refreshes made before it.
-/

namespace Cameo.Supervisor

open Json Library Store

/-! ## Requests and refusals -/

/-- The pieces of a list between the separators. -/
def splitOnChar (separator : Char) : List Char → List (List Char)
  | [] => [[]]
  | c :: rest =>
    if c = separator then [] :: splitOnChar separator rest
    else
      match splitOnChar separator rest with
      | [] => [[c]]
      | piece :: pieces => (c :: piece) :: pieces

def slugChar (c : Char) : Char :=
  if 'A' ≤ c ∧ c ≤ 'Z' then Char.ofNat (c.toNat + 32)
  else if ('a' ≤ c ∧ c ≤ 'z') ∨ ('0' ≤ c ∧ c ≤ '9') then c
  else '-'

/-- `endpoint_id`. -/
def endpointId (model : String) (port : ℕ) : String :=
  let pieces := (splitOnChar '-' (model.toList.map slugChar)).filter fun piece ↦ !piece.isEmpty
  let slug := List.intercalate ['-'] pieces
  String.ofList (if slug.isEmpty then "model".toList else slug) ++ "-" ++ toString port

/-- `StartRequest`. -/
structure StartRequest where
  intent : Value
  model : String
  host : String
  port : ℕ
  backend : String
  fitsVram : Bool
  notes : List String
  contextTokens : ℕ
  command : CommandSpec
  vramNeed : ℕ
  vramBudget : ℕ
  allowEvict : Bool

def StartRequest.id (req : StartRequest) : String := endpointId req.model req.port

/-- `StartError`. -/
inductive StartError where
  | shuttingDown
  | termination (error : String)
  | persistence (error : String)
  | portInUse (id : String)
  | wontFit (message : String)
  | leasedCapacity (message : String)
  | evictionRequired (ids : List String)
deriving DecidableEq

/-- `format!("{:.1}", gib(bytes))`. -/
def gibText (bytes : ℕ) : String :=
  let tenths := roundHalfEven (asF64 bytes * 10) (2 ^ 30)
  toString (tenths / 10) ++ "." ++ toString (tenths % 10)

/-- The refusal of a load that leases are said to stand in the way of. -/
def leasedCapacityMessage (need protectedVram : ℕ) : String :=
  "model needs ~" ++ gibText need ++ " GiB of VRAM, but ~" ++ gibText protectedVram ++
    " GiB is reserved by active session leases; release a lease or stop that endpoint explicitly"

/-- The refusal of a load larger than the GPU. -/
def wontFitMessage (need budget : ℕ) : String :=
  "model needs ~" ++ gibText need ++ " GiB of VRAM but the GPU has ~" ++ gibText budget ++
    " GiB; quantize further, pick a smaller model, or add a GPU."

/-- The answers during one `start`, in the order of its stages. -/
structure StartIo where
  /-- The refresh of a prior tenant of the id. -/
  existing : RefreshIo
  /-- The refreshes of other tenants of the port. -/
  holders : String → RefreshIo
  /-- The refreshes of all endpoints for admission. -/
  residents : String → RefreshIo
  /-- The refreshes of the leased endpoints after a refusal. -/
  leased : String → RefreshIo
  /-- The commit that retracts the victims' intents. -/
  retract : CommitIo
  /-- The terminations of the victims. -/
  stops : String → TerminationIo
  /-- The commit of the new intent. -/
  intend : CommitIo
  spawn : Except String Child
  startedAt : SystemTime
  lastUsed : SystemTime
  /-- The refresh of the first view. -/
  view : RefreshIo
  viewAt : SystemTime

/-! ## The stages -/

/-- What a stage of `start` decides, and the endpoint map and spawns it leaves. -/
structure Stage (α : Type) where
  result : Except StartError α
  map : EndpointMap
  spawns : List Spawn

/-- The port check: neither the id nor the port may have a running process. -/
def checkPort (req : StartRequest) (io : StartIo) (map : EndpointMap) : Stage Unit :=
  let own := visit (fun endpoint ↦ endpoint.id = req.id) Endpoint.processRunning
    (fun _ ↦ io.existing) map
  match own.found with
  | some _ => ⟨.error (.portInUse req.id), own.map, own.spawns⟩
  | none =>
    let others := visit (fun endpoint ↦ endpoint.id ≠ req.id && endpoint.port = req.port)
      Endpoint.processRunning io.holders own.map
    match others.found with
    | some holder => ⟨.error (.portInUse holder.id), others.map, own.spawns ++ others.spawns⟩
    | none => ⟨.ok (), others.map, own.spawns ++ others.spawns⟩

/-- The other endpoints that run and hold VRAM. -/
def residentsOf (id : String) (map : EndpointMap) : List ResidentVram :=
  (map.entries.filter fun endpoint ↦
    endpoint.id ≠ id && endpoint.processRunning && endpoint.vramBytes > 0).map
      fun endpoint ↦ ⟨endpoint.id, endpoint.vramBytes, endpoint.lastUsed⟩

def leasedIds (leases : LeaseMap) : List String := leases.entries.map Lease.endpointId

/-- The VRAM of the leased endpoints that run, summed in `u64`. -/
def protectedVram (leased : List String) (map : EndpointMap) : ℕ :=
  ((map.entries.filter fun endpoint ↦ leased.contains endpoint.id).map fun endpoint ↦
    if endpoint.processRunning then endpoint.vramBytes else 0).sum % 2 ^ 64

/-- The residency arbitration: the victims to evict, or a refusal. -/
def arbitrate (req : StartRequest) (io : StartIo) (leased : List String) (map : EndpointMap) :
    Stage (List String) :=
  if req.vramBudget > 0 ∧ req.vramNeed > 0 then
    let refreshed := refreshAll io.residents map
    let residents := excludeLeasedResidents (residentsOf req.id refreshed.map) leased
    match admitVram req.vramBudget req.vramNeed residents with
    | .admitted => ⟨.ok [], refreshed.map, refreshed.spawns⟩
    | .evict ids =>
      if !req.allowEvict then
        ⟨.error (.evictionRequired ids), refreshed.map, refreshed.spawns⟩
      else ⟨.ok ids, refreshed.map, refreshed.spawns⟩
    | .refuse =>
      let again := visit (fun endpoint ↦ leased.contains endpoint.id) (fun _ ↦ false) io.leased
        refreshed.map
      let reserved := protectedVram leased again.map
      let refusal :=
        if reserved > 0 then StartError.leasedCapacity (leasedCapacityMessage req.vramNeed reserved)
        else .wontFit (wontFitMessage req.vramNeed req.vramBudget)
      ⟨.error refusal, again.map, refreshed.spawns ++ again.spawns⟩
  else ⟨.ok [], map, []⟩

/-- Mark the victims before any of them is stopped. -/
def markVictims (victims : List String) (map : EndpointMap) : EndpointMap :=
  map.map (fun endpoint ↦
    if victims.contains endpoint.id then
      { endpoint with
        error := some "eviction requested; awaiting confirmed exit"
        ready := false }
    else endpoint) (by
      intro endpoint
      split <;> rfl)

/-- Stop and remove the victims in order, up to the first unconfirmed exit. -/
def stopVictims (stops : String → TerminationIo) :
    List String → EndpointMap → Except StartError Unit × EndpointMap
  | [], map => (.ok (), map)
  | victim :: rest, map =>
    match map.get? victim with
    | none => stopVictims stops rest (map.erase victim)
    | some endpoint =>
      match endpoint.stopOwned (stops victim) with
      | (.error e, parked) => (.error (.termination e), map.insert parked)
      | (.ok (), _) => stopVictims stops rest (map.erase victim)

variable (codec : Codec)

def retractIntents (io : CommitIo) (victims : List String) (sup : Supervisor) :
    Except String Unit × Supervisor :=
  if victims.isEmpty then (.ok (), sup) else commitIntent codec io victims none sup

/-- The eviction: retract the victims' intents, mark them, and stop them. -/
def evict (io : StartIo) (victims : List String) (sup : Supervisor) :
    Except StartError Unit × Supervisor :=
  match retractIntents codec io.retract victims sup with
  | (.error e, failed) => (.error (.persistence e), failed)
  | (.ok (), committed) =>
    let stopped := stopVictims io.stops victims (markVictims victims committed.endpoints)
    (stopped.1, { committed with endpoints := stopped.2 })

def newEndpoint (req : StartRequest) (io : StartIo) : Endpoint where
  restartEnabled := true
  id := req.id
  model := req.model
  host := req.host
  port := req.port
  backend := req.backend
  fitsVram := req.fitsVram
  notes := req.notes
  contextTokens := req.contextTokens
  command := req.command
  child := io.spawn.toOption
  error := match io.spawn with
    | .ok _ => none
    | .error e => some e
  exitCode := none
  startedAt := io.startedAt
  restarts := 0
  lastExitAt := none
  vramBytes := req.vramNeed
  lastUsed := io.lastUsed
  ready := false
  lastHealthProbe := none
  readinessError := none

def startSpawn (req : StartRequest) (io : StartIo) : List Spawn :=
  match io.spawn with
  | .ok child => [⟨.start, req.id, child, io.startedAt⟩]
  | .error _ => []

/-- The launch: commit the intent, spawn, and track the new endpoint. -/
def launch (req : StartRequest) (io : StartIo) (sup : Supervisor) :
    Outcome (Except StartError Value) :=
  match commitIntent codec io.intend [] (some (req.id, req.intent)) sup with
  | (.error e, failed) => ⟨.error (.persistence e), failed, []⟩
  | (.ok (), committed) =>
    let viewed := (newEndpoint req io).view io.view io.viewAt
    ⟨.ok viewed.1, { committed with endpoints := committed.endpoints.insert viewed.2.1 },
      startSpawn req io ++ viewed.2.2⟩

/-- `Supervisor::start`. -/
def start (req : StartRequest) (io : StartIo) (sup : Supervisor) :
    Outcome (Except StartError Value) :=
  if sup.shuttingDown then ⟨.error .shuttingDown, sup, []⟩
  else
    let port := checkPort req io sup.endpoints
    match port.result with
    | .error e => ⟨.error e, { sup with endpoints := port.map }, port.spawns⟩
    | .ok () =>
      let decided := arbitrate req io (leasedIds sup.leases) port.map
      match decided.result with
      | .error e =>
        ⟨.error e, { sup with endpoints := decided.map }, port.spawns ++ decided.spawns⟩
      | .ok victims =>
        match evict codec io victims { sup with endpoints := decided.map } with
        | (.error e, failed) => ⟨.error e, failed, port.spawns ++ decided.spawns⟩
        | (.ok (), evicted) =>
          let launched := launch codec req io evicted
          { launched with spawns := port.spawns ++ decided.spawns ++ launched.spawns }

end Cameo.Supervisor
