import Cameo.Supervisor.LeaseTable
import Cameo.Supervisor.Start

/-!
# The remaining supervisor operations

Stopping, the queries that refresh as they read, the two halves of `begin_shutdown`, the five
phases of `maintain`, and the opening of a supervisor on a state directory.  A phase of `maintain`
holds the endpoint lock or the store lock, not both, so other calls may come between two phases.
-/

namespace Cameo.Supervisor

open Json Library Store

variable (codec : Codec)

/-! ## Stopping -/

/-- The answers during one `stop`. -/
structure StopIo where
  commit : CommitIo
  termination : TerminationIo

/-- `Supervisor::recovery_intents`. -/
def recoveryIntents (sup : Supervisor) : List (String × Value) :=
  match sup.store with
  | none => []
  | some store => store.state.endpoints.entries

/-- `Supervisor::stop`. -/
def stop (id : String) (io : StopIo) (sup : Supervisor) : Outcome (Except String Bool) :=
  let persisted := sup.recoveryIntents.any fun pair ↦ pair.1 = id
  if (sup.endpoints.get? id).isNone && !persisted then ⟨.ok false, sup, []⟩
  else
    match commitIntent codec io.commit [id] none sup with
    | (.error e, failed) => ⟨.error e, failed, []⟩
    | (.ok (), committed) =>
      match committed.endpoints.get? id with
      | none => ⟨.ok true, { committed with endpoints := committed.endpoints.erase id }, []⟩
      | some endpoint =>
        match endpoint.stopOwned io.termination with
        | (.error e, parked) =>
          ⟨.error e, { committed with endpoints := committed.endpoints.insert parked }, []⟩
        | (.ok (), _) =>
          ⟨.ok true, { committed with endpoints := committed.endpoints.erase id }, []⟩

/-! ## Queries -/

/-- `Supervisor::touch`. -/
def touch (id : String) (now : SystemTime) (sup : Supervisor) : Outcome Unit :=
  ⟨(), { sup with
    endpoints := sup.endpoints.modify id (fun endpoint ↦ { endpoint with lastUsed := now })
      (fun _ ↦ rfl) }, []⟩

/-- Run a refreshing traversal as an operation. -/
def observe {α : Type} (visited : Visited) (answer : α) (sup : Supervisor) : Outcome α :=
  ⟨answer, { sup with endpoints := visited.map }, visited.spawns⟩

/-- `Supervisor::endpoint_for_model`. -/
def endpointForModel (model : String) (io : String → RefreshIo) (sup : Supervisor) :
    Outcome (Option (String × ℕ × String)) :=
  let visited := visit (fun _ ↦ true)
    (fun endpoint ↦ endpoint.model = model && endpoint.isReady) io sup.endpoints
  observe visited
    (visited.found.map fun endpoint ↦ (endpoint.host, endpoint.port, endpoint.id)) sup

/-- `Supervisor::served_models`. -/
def servedModels (io : String → RefreshIo) (sup : Supervisor) : Outcome (List String) :=
  let visited := refreshAll io sup.endpoints
  let names := (visited.map.entries.filter Endpoint.isReady).map Endpoint.model
  observe visited (names.insertionSort (· ≤ ·)).dedup sup

/-- The number of leases that name an endpoint. -/
def leaseCount (leases : LeaseMap) (id : String) : ℕ :=
  leases.entries.countP fun lease ↦ lease.endpointId = id

/-- One entry of `Supervisor::engine_profiles`. -/
def engineProfile (leases : LeaseMap) (includeVram : Bool) (endpoint : Endpoint) : Value :=
  .ofFields ([
    ("id", .string endpoint.id),
    ("model", .string endpoint.model),
    ("state", .string endpoint.state.label),
    ("backend", .string endpoint.backend),
    ("context_tokens", .nat endpoint.contextTokens),
    ("lease_count", .nat (leaseCount leases endpoint.id))] ++
    if includeVram then [("vram_bytes", .nat endpoint.vramBytes)] else [])

/-- `Supervisor::engine_profiles`. -/
def engineProfiles (includeVram : Bool) (io : String → RefreshIo) (sup : Supervisor) :
    Outcome (List Value) :=
  let visited := refreshAll io sup.endpoints
  let ready := (visited.map.entries.filter Endpoint.isReady).insertionSort
    fun a b ↦ a.model ≤ b.model
  observe visited (ready.map (engineProfile sup.leases includeVram)) sup

def recoveryView (id : String) (intent : Value) (error : String) : Value :=
  .ofFields [
    ("id", .string id),
    ("model", intent.index "model"),
    ("state", .string "recovery_required"),
    ("error", .string error),
    ("lease_count", .nat 0)]

/-- `Supervisor::list`; each view reads the clock for its uptime. -/
def list (io : String → RefreshIo) (now : String → SystemTime) (sup : Supervisor) :
    Outcome (List Value) :=
  let visited := refreshAll io sup.endpoints
  let newestFirst := visited.map.entries.insertionSort fun a b ↦ b.startedAt ≤ a.startedAt
  let views := newestFirst.map fun endpoint ↦
    (endpoint.viewJson (now endpoint.id)).set "lease_count"
      (.nat (leaseCount sup.leases endpoint.id))
  let missing := (sup.recoveryIntents.filter fun pair ↦
    (visited.map.get? pair.1).isNone).map fun pair ↦ recoveryView pair.1 pair.2
      ("Persisted endpoint could not be recovered; inspect configuration, model and hardware, " ++
        "then start explicitly.")
  observe visited (views ++ missing) sup

/-- `Supervisor::get`. -/
def get (id : String) (io : RefreshIo) (now : SystemTime) (sup : Supervisor) :
    Outcome (Option Value) :=
  let visited := visit (fun endpoint ↦ endpoint.id = id) (fun _ ↦ true) (fun _ ↦ io) sup.endpoints
  let missing := (sup.recoveryIntents.find? fun pair ↦ pair.1 = id).map fun pair ↦
    recoveryView id pair.2 "Persisted endpoint requires operator recovery"
  observe visited ((visited.found.map (Endpoint.viewJson now)).or missing) sup

/-! ## Shutdown -/

/-- The first half of `Supervisor::begin_shutdown`: the atomic latch. -/
def raiseLatch (sup : Supervisor) : Outcome Unit := ⟨(), { sup with shuttingDown := true }, []⟩

/-- The second half, under the endpoint lock: no endpoint restarts any more. -/
def disableRestarts (sup : Supervisor) : Outcome Unit :=
  ⟨(), { sup with
    endpoints := sup.endpoints.map (fun endpoint ↦ { endpoint with restartEnabled := false })
      (fun _ ↦ rfl) }, []⟩

/-- The answers while `shutdown_owned` stops the endpoints: whether the deadline has passed at an
endpoint, and its termination. -/
structure ShutdownIo where
  late : String → Bool
  stops : String → TerminationIo

/-- The stop of one endpoint during shutdown; a late one is only counted. -/
def shutdownOne (io : ShutdownIo) (endpoint : Endpoint) : Bool × Endpoint :=
  if io.late endpoint.id then (false, endpoint)
  else
    let stopped := endpoint.stopOwned (io.stops endpoint.id)
    (stopped.1.toBool, stopped.2)

theorem id_shutdownOne (io : ShutdownIo) (endpoint : Endpoint) :
    (shutdownOne io endpoint).2.id = endpoint.id := by
  unfold shutdownOne
  split
  · rfl
  · exact (Endpoint.kept_stopOwned _ endpoint).id

/-- The last part of `Supervisor::shutdown_owned`, after its `begin_shutdown`. -/
def stopAll (io : ShutdownIo) (sup : Supervisor) : Outcome (Except String Unit) :=
  let failed := sup.endpoints.entries.countP fun endpoint ↦ !(shutdownOne io endpoint).1
  let answer := if failed = 0 then .ok ()
    else .error (toString failed ++ " owned endpoints did not confirm shutdown")
  ⟨answer, { sup with
    endpoints := sup.endpoints.map (fun endpoint ↦ (shutdownOne io endpoint).2)
      (id_shutdownOne io) }, []⟩

/-- `Supervisor::shutdown_owned`, run without interruption. -/
def shutdownOwned (io : ShutdownIo) (sup : Supervisor) : Outcome (Except String Unit) :=
  stopAll io (disableRestarts (raiseLatch sup).sup).sup

/-! ## Maintenance -/

/-- The answers while `maintain` schedules its probes. -/
structure ScheduleIo where
  refresh : String → RefreshIo
  /-- The clock of the due check. -/
  dueAt : String → SystemTime
  /-- The clock recorded as the last probe. -/
  now : String → SystemTime

theorem id_scheduleHealthProbe (dueAt now : SystemTime) (endpoint : Endpoint) :
    (endpoint.scheduleHealthProbe dueAt now).1.id = endpoint.id :=
  (Endpoint.kept_scheduleHealthProbe dueAt now endpoint).id

/-- The second phase of `maintain`: refresh every endpoint and schedule the probes that are due. -/
def schedule (io : ScheduleIo) (sup : Supervisor) : Outcome (List HealthProbe) :=
  let refreshed := refreshAll io.refresh sup.endpoints
  let due (endpoint : Endpoint) := endpoint.scheduleHealthProbe (io.dueAt endpoint.id)
    (io.now endpoint.id)
  ⟨refreshed.map.entries.filterMap fun endpoint ↦ (due endpoint).2,
    { sup with
      endpoints := refreshed.map.map (fun endpoint ↦ (due endpoint).1)
        (fun endpoint ↦ id_scheduleHealthProbe _ _ endpoint) },
    refreshed.spawns⟩

/-- An endpoint as `maintain` persists it. -/
structure Observation where
  endpointId : String
  observed : Value
  resetRecovery : Bool

/-- The observation of one endpoint; the clock decides whether it has been up for long. -/
def observation (now : SystemTime) (endpoint : Endpoint) : Observation where
  endpointId := endpoint.id
  observed := .ofFields [
    ("state", .string endpoint.state.label),
    ("restarts", .nat endpoint.restarts),
    ("ready", .bool endpoint.isReady)]
  resetRecovery := endpoint.isReady &&
    decide ((SystemTime.elapsed endpoint.startedAt now).getD 0 ≥ stableUptimeReset)

theorem id_applyHealthProbe (probe : HealthProbe) (result : Except String Unit)
    (endpoint : Endpoint) : (endpoint.applyHealthProbe probe result).id = endpoint.id :=
  (Endpoint.kept_applyHealthProbe probe result endpoint).id

def applyProbe (map : EndpointMap) (answer : HealthProbe × Except String Unit) : EndpointMap :=
  map.modify answer.1.endpointId (Endpoint.applyHealthProbe answer.1 answer.2)
    (id_applyHealthProbe answer.1 answer.2)

/-- The fourth phase of `maintain`: apply the probe results and take the observations. -/
def applyProbes (results : List (HealthProbe × Except String Unit)) (now : String → SystemTime)
    (sup : Supervisor) : Outcome (List Observation) :=
  let endpoints := results.foldl applyProbe sup.endpoints
  ⟨endpoints.entries.map fun endpoint ↦ observation (now endpoint.id) endpoint,
    { sup with endpoints := endpoints }, []⟩

def recoveryAttempts (intent : Value) : ℕ :=
  ((intent.get? "_recovery_attempts").bind Value.asU64).getD 0

/-- An intent with an observation written into it, and whether that changed it. -/
def observedIntent (seen : Observation) (intent : Value) : Value × Bool :=
  let first := if intent.get? "_last_observed" ≠ some seen.observed then
    (intent.set "_last_observed" seen.observed, true) else (intent, false)
  if seen.resetRecovery && recoveryAttempts first.1 > 0 then
    (first.1.set "_recovery_attempts" (.nat 0), true)
  else first

/-- Write one observation into the intents, if its endpoint has one. -/
def recordObservation (intents : Ordered.Map String Value × Bool) (seen : Observation) :
    Ordered.Map String Value × Bool :=
  match intents.1.get? seen.endpointId with
  | none => intents
  | some intent =>
    let updated := observedIntent seen intent
    (intents.1.insert seen.endpointId updated.1, intents.2 || updated.2)

/-- The last phase of `maintain`: persist the observations if they changed an intent. -/
def persistObservations (observations : List Observation) (io : CommitIo) (sup : Supervisor) :
    Outcome (Except String Unit) :=
  let record (state : IntentState) := observations.foldl recordObservation (state.endpoints, false)
  match sup.store with
  | none => ⟨.ok (), sup, []⟩
  | some store =>
    if (record store.state).2 then
      let committed := commitWith codec io
        (fun state ↦ { state with endpoints := (record state).1 }) sup
      ⟨committed.1, committed.2, []⟩
    else ⟨.ok (), sup, []⟩

/-! ## Opening -/

/-- The answers during `Supervisor::open`. -/
structure SupervisorOpenIo where
  store : OpenIo
  now : SystemTime
  instants : String → Instant
  commit : CommitIo

def boundedDeadline (now deadline : ℕ) : ℕ :=
  if deadline = 0 then saturatingAdd now leaseTtlSecs
  else min deadline (saturatingAdd now leaseTtlSecs)

def recoverLease (now : ℕ) (instant : Instant) (id : String) (value : Value) :
    Except String Lease :=
  match Lease.fromValue value with
  | none => .error "invalid persisted lease"
  | some lease =>
    if lease.sessionId ≠ id ∨ id = "" ∨ lease.endpointId = "" ∨ lease.model = "" then
      .error "invalid persisted lease identity"
    else .ok { lease with
      recovered := true
      expiresAt := boundedDeadline now lease.expiresAt
      renewedAt := some instant }

def recoverLeases (now : ℕ) (instants : String → Instant) :
    List (String × Value) → LeaseMap → Except String LeaseMap
  | [], leases => .ok leases
  | (id, value) :: rest, leases => do
    let lease ← recoverLease now (instants id) id value
    recoverLeases now instants rest (leases.insert lease)

/-- Whether an opening changed the deadline of a persisted lease. -/
def migrated (now : ℕ) (persisted : List (String × Value)) : Bool :=
  persisted.any fun pair ↦ (Lease.fromValue pair.2).any fun lease ↦
    lease.expiresAt ≠ boundedDeadline now lease.expiresAt

def migratedLeases (leases : LeaseMap) (values : Ordered.Map String Value) :
    Ordered.Map String Value :=
  leases.entries.foldl (fun map lease ↦ map.insert lease.sessionId lease.toValue) values

/-- The result of an opening, and the directory contents passed through, newest first. -/
structure Opened where
  result : Except String Supervisor
  passed : List Directory

/-- `Supervisor::open`. -/
def «open» (io : SupervisorOpenIo) (directory : Directory) : Opened :=
  match EndpointStore.open codec io.store directory with
  | .error e => ⟨.error e, [directory]⟩
  | .ok store =>
    let now := epochSeconds io.now
    match recoverLeases now io.instants store.state.leases.entries .empty with
    | .error e => ⟨.error e, store.passed⟩
    | .ok leases =>
      if migrated now store.state.leases.entries then
        let next := { store.state with leases := migratedLeases leases store.state.leases }
        match store.commit codec io.commit next with
        | (.error e, failed) => ⟨.error e, failed.passed⟩
        | (.ok (), committed) => ⟨.ok ⟨false, .empty, leases, some committed⟩, committed.passed⟩
      else ⟨.ok ⟨false, .empty, leases, some store⟩, store.passed⟩

/-- What a successful opening has read, recovered and committed. -/
theorem open_ok {io : SupervisorOpenIo} {directory : Directory} {sup : Supervisor}
    (h : (Supervisor.open codec io directory).result = .ok sup) :
    sup.endpoints = .empty ∧ sup.shuttingDown = false ∧
      ∃ store, EndpointStore.open codec io.store directory = .ok store ∧
        recoverLeases (epochSeconds io.now) io.instants store.state.leases.entries .empty =
          .ok sup.leases ∧
        ((migrated (epochSeconds io.now) store.state.leases.entries = false ∧
            sup.store = some store) ∨
          ∃ committed, store.commit codec io.commit
              { store.state with leases := migratedLeases sup.leases store.state.leases } =
                (.ok (), committed) ∧
            sup.store = some committed) := by
  unfold Supervisor.open at h
  split at h
  · cases h
  · rename_i store hstore
    dsimp only at h
    split at h
    · cases h
    · rename_i leases hleases
      split at h
      · split at h
        · cases h
        · rename_i committed hcommit
          cases h
          exact ⟨rfl, rfl, store, hstore, hleases, .inr ⟨committed, hcommit, rfl⟩⟩
      · rename_i hmigrated
        cases h
        exact ⟨rfl, rfl, store, hstore, hleases, .inl ⟨by simpa using hmigrated, rfl⟩⟩

/-- `Supervisor::default`. -/
def default : Supervisor := ⟨false, .empty, .empty, none⟩

end Cameo.Supervisor
