import Cameo.Supervisor.State

/-!
# Claiming and releasing leases

The operations on the lease map.  Each one builds the next map, persists it, and only then adopts
it; an operation that cannot persist returns the storage error.
-/

namespace Cameo.Supervisor

open Json Library Store

/-! ## Views -/

/-- The states `lease_view` reports. -/
inductive LeaseState where
  | expired
  | recoveryRequired
  | active
  | unavailable
deriving DecidableEq

def LeaseState.label : LeaseState → String
  | .expired => "expired"
  | .recoveryRequired => "recovery_required"
  | .active => "active"
  | .unavailable => "unavailable"

/-- The answers during one `lease_view`. -/
structure LeaseViewIo where
  now : SystemTime
  instant : Instant
  refresh : RefreshIo

/-- What `lease_view` reports, and the endpoint map and spawns it leaves. -/
structure LeaseView where
  state : LeaseState
  json : Value
  map : EndpointMap
  spawns : List Spawn

def leaseJson (lease : Lease) (state : LeaseState) : Value :=
  .ofFields [
    ("session_id", .string lease.sessionId),
    ("model", .string lease.model),
    ("endpoint_id", .string lease.endpointId),
    ("state", .string state.label),
    ("expires_at", .nat lease.expiresAt)]

/-- `lease_view`. -/
def leaseView (io : LeaseViewIo) (lease : Lease) (map : EndpointMap) : LeaseView :=
  if lease.expired (epochSeconds io.now) io.instant then
    ⟨.expired, leaseJson lease .expired, map, []⟩
  else if lease.recovered then
    ⟨.recoveryRequired, leaseJson lease .recoveryRequired, map, []⟩
  else
    let visited := visit (fun endpoint ↦ endpoint.id = lease.endpointId) (fun _ ↦ true)
      (fun _ ↦ io.refresh) map
    let state := if visited.found.any Endpoint.isReady then LeaseState.active else .unavailable
    ⟨state, leaseJson lease state, visited.map, visited.spawns⟩

/-- A lease is reported active only if it is neither recovered nor expired. -/
theorem leaseView_active {io : LeaseViewIo} {lease : Lease} {map : EndpointMap}
    (h : (leaseView io lease map).state = .active) :
    lease.recovered = false ∧ lease.expired (epochSeconds io.now) io.instant = false := by
  unfold leaseView at h
  split at h
  · cases h
  · rename_i hfresh
    split at h
    · cases h
    · rename_i hrecovered
      exact ⟨by simpa using hrecovered, by simpa using hfresh⟩

/-! ## Operations -/

/-- `LeaseError`. -/
inductive LeaseError where
  | persistence (error : String)
  | unavailable (model : String)
deriving DecidableEq

/-- The answers during one `lease`. -/
structure LeaseIo where
  refresh : String → RefreshIo
  /-- The clock from which the deadline is taken. -/
  now : SystemTime
  instant : Instant
  commit : CommitIo
  view : LeaseViewIo

/-- The answers during one `renew_lease`. -/
structure RenewIo where
  /-- The clocks of the expiry check. -/
  checkedAt : SystemTime
  checkedInstant : Instant
  /-- The clocks of the renewal. -/
  now : SystemTime
  instant : Instant
  commit : CommitIo

def leaseValues (leases : LeaseMap) : Ordered.Map String Value :=
  .ofList (leases.entries.map fun lease ↦ (lease.sessionId, lease.toValue))

variable (codec : Codec)

/-- `Supervisor::persist_leases`. -/
def persistLeases (io : CommitIo) (leases : LeaseMap) (sup : Supervisor) :
    Except String Unit × Supervisor :=
  commitWith codec io (fun state ↦ { state with leases := leaseValues leases }) sup

/-- Persist the next lease map and adopt it, or keep the present one. -/
def adoptLeases {α : Type} (io : CommitIo) (next : LeaseMap) (answer : α) (sup : Supervisor) :
    Outcome (Except String α) :=
  match persistLeases codec io next sup with
  | (.error e, failed) => ⟨.error e, failed, []⟩
  | (.ok (), persisted) => ⟨.ok answer, { persisted with leases := next }, []⟩

def grantedLease (sessionId model endpointId : String) (io : LeaseIo) : Lease where
  sessionId := sessionId
  model := model
  endpointId := endpointId
  recovered := false
  expiresAt := saturatingAdd (epochSeconds io.now) leaseTtlSecs
  renewedAt := some io.instant

/-- `Supervisor::lease`. -/
def lease (sessionId model : String) (io : LeaseIo) (sup : Supervisor) :
    Outcome (Except LeaseError Value) :=
  let visited := visit (fun _ ↦ true)
    (fun endpoint ↦ endpoint.model = model && endpoint.isReady) io.refresh sup.endpoints
  let sup := { sup with endpoints := visited.map }
  match visited.found with
  | none => ⟨.error (.unavailable model), sup, visited.spawns⟩
  | some endpoint =>
    let granted := grantedLease sessionId model endpoint.id io
    let next := sup.leases.insert granted
    match persistLeases codec io.commit next sup with
    | (.error e, failed) => ⟨.error (.persistence e), failed, visited.spawns⟩
    | (.ok (), persisted) =>
      let view := leaseView io.view granted persisted.endpoints
      ⟨.ok view.json, { persisted with endpoints := view.map, leases := next },
        visited.spawns ++ view.spawns⟩

/-- `Supervisor::release`. -/
def release (sessionId : String) (io : CommitIo) (sup : Supervisor) :
    Outcome (Except String Bool) :=
  match sup.leases.get? sessionId with
  | none => ⟨.ok false, sup, []⟩
  | some _ => adoptLeases codec io (sup.leases.erase sessionId) true sup

/-- The lease after a heartbeat. -/
def renewed (io : RenewIo) (lease : Lease) : Lease :=
  { lease with
    expiresAt := saturatingAdd (epochSeconds io.now) leaseTtlSecs
    renewedAt := some io.instant }

theorem sessionId_renewed (io : RenewIo) (lease : Lease) :
    (renewed io lease).sessionId = lease.sessionId := rfl

/-- `Supervisor::renew_lease`. -/
def renewLease (sessionId : String) (io : RenewIo) (sup : Supervisor) :
    Outcome (Except String Unit) :=
  match sup.leases.get? sessionId with
  | none => ⟨.ok (), sup, []⟩
  | some lease =>
    if lease.recovered then ⟨.ok (), sup, []⟩
    else if lease.expired (epochSeconds io.checkedAt) io.checkedInstant then
      adoptLeases codec io.commit (sup.leases.erase sessionId) () sup
    else
      adoptLeases codec io.commit
        (sup.leases.modify sessionId (renewed io) (sessionId_renewed io)) () sup

/-- `Supervisor::expire_leases`; each lease reads the monotonic clock for itself. -/
def expireLeases (now : ℕ) (instants : String → Instant) (io : CommitIo) (sup : Supervisor) :
    Outcome (Except String Unit) :=
  let next := sup.leases.retain fun lease ↦ !lease.expired now (instants lease.sessionId)
  if next.entries.length ≠ sup.leases.entries.length then adoptLeases codec io next () sup
  else ⟨.ok (), sup, []⟩

structure SessionRecord where
  id : String
  name : String
  role : String
  mode : String
  engine : String
  model : String

def SessionRecord.toValue (session : SessionRecord) : Value :=
  .ofFields [
    ("id", .string session.id),
    ("name", .string session.name),
    ("role", .string session.role),
    ("mode", .string session.mode),
    ("engine", .string session.engine),
    ("model", .string session.model)]

/-- `Supervisor::persist_session`. -/
def persistSession (session : SessionRecord) (io : CommitIo) (sup : Supervisor) :
    Outcome (Except String Unit) :=
  let committed := commitWith codec io
    (fun state ↦ { state with sessions := state.sessions.insert session.id session.toValue }) sup
  ⟨committed.1, committed.2, []⟩

/-- `Supervisor::remove_session`. -/
def removeSession (id : String) (io : CommitIo) (sup : Supervisor) :
    Outcome (Except String Unit) :=
  let update (state : IntentState) : IntentState :=
    { state with sessions := state.sessions.erase id, leases := state.leases.erase id }
  match commitWith codec io update sup with
  | (.error e, failed) => ⟨.error e, failed, []⟩
  | (.ok (), committed) => ⟨.ok (), { committed with leases := committed.leases.erase id }, []⟩

/-- `Supervisor::lease_status`. -/
def leaseStatus (sessionId : String) (io : LeaseViewIo) (sup : Supervisor) :
    Outcome (Option Value) :=
  match sup.leases.get? sessionId with
  | none => ⟨none, sup, []⟩
  | some lease =>
    let view := leaseView io lease sup.endpoints
    ⟨some view.json, { sup with endpoints := view.map }, view.spawns⟩

end Cameo.Supervisor
