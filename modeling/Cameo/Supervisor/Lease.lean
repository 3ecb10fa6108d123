import Cameo.Clock
import Cameo.Json
import Cameo.Library.Keyed

/-!
# Session leases

A lease ties a session to the endpoint it claims.  Its durable form has the four serialized
fields; whether it was recovered from disk and when it was last renewed are facts of the running
daemon only.
-/

namespace Cameo.Supervisor

open Json Library

/-- `LEASE_TTL_SECS`. -/
def leaseTtlSecs : ℕ := 90

/-- `Lease`. -/
structure Lease where
  sessionId : String
  model : String
  endpointId : String
  recovered : Bool
  expiresAt : ℕ
  renewedAt : Option Instant
deriving DecidableEq

abbrev LeaseMap := Keyed.Table Lease.sessionId

/-- The durable part of a lease: session, model, endpoint and deadline. -/
structure LeaseRecord where
  sessionId : String
  model : String
  endpointId : String
  expiresAt : ℕ
deriving DecidableEq

namespace Lease

/-- `Lease::expired`, against a wall clock in seconds and a monotonic reading. -/
def expired (lease : Lease) (now : ℕ) (instant : Instant) : Bool :=
  lease.expiresAt ≤ now ||
    lease.renewedAt.any fun renewed ↦
      decide ((Instant.elapsed renewed instant).asSecs ≥ leaseTtlSecs)

def record (lease : Lease) : LeaseRecord :=
  ⟨lease.sessionId, lease.model, lease.endpointId, lease.expiresAt⟩

/-- `serde_json::to_value` of a lease. -/
def toValue (lease : Lease) : Value :=
  .ofFields [
    ("session_id", .string lease.sessionId),
    ("model", .string lease.model),
    ("endpoint_id", .string lease.endpointId),
    ("expires_at", .nat lease.expiresAt)]

/-- The deadline of a persisted lease; older snapshots have none, which reads as zero. -/
def deadlineOf (value : Value) : Option ℕ :=
  match value.get? "expires_at" with
  | none => some 0
  | some deadline => deadline.asU64

/-- `serde_json::from_value` of a persisted lease; the skipped fields take their defaults. -/
def fromValue (value : Value) : Option Lease := do
  let sessionId ← (value.get? "session_id").bind Value.asStr
  let model ← (value.get? "model").bind Value.asStr
  let endpointId ← (value.get? "endpoint_id").bind Value.asStr
  let expiresAt ← deadlineOf value
  return ⟨sessionId, model, endpointId, false, expiresAt, none⟩

theorem get?_toValue (lease : Lease) :
    lease.toValue.get? "session_id" = some (.string lease.sessionId) ∧
      lease.toValue.get? "model" = some (.string lease.model) ∧
      lease.toValue.get? "endpoint_id" = some (.string lease.endpointId) ∧
      lease.toValue.get? "expires_at" = some (.nat lease.expiresAt) := by
  unfold toValue
  refine ⟨?_, ?_, ?_, ?_⟩ <;>
    rw [Value.get?_ofFields (by simp)] <;> rfl

/-- A serialized lease reads back as its durable part. -/
theorem fromValue_toValue (lease : Lease) :
    fromValue lease.toValue =
      some ⟨lease.sessionId, lease.model, lease.endpointId, false, lease.expiresAt, none⟩ := by
  obtain ⟨hsession, hmodel, hendpoint, hdeadline⟩ := lease.get?_toValue
  simp [fromValue, deadlineOf, hsession, hmodel, hendpoint, hdeadline, Value.asStr, Value.asU64,
    Value.nat]

end Lease

end Cameo.Supervisor
