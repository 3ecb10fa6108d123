import Cameo.Supervisor.LeaseTable

/-!
# The session board

Harness sessions as the daemon remembers them between heartbeats.  The board is a `BTreeMap` under
a mutex; an entry is filed under the id of its own session, which is a field of the structure.  What
a session may do with VRAM is recorded by the daemon only: a heartbeat keeps what was recorded, and
a recovered session starts without any.
-/

namespace Cameo.Daemon

open Json Library Store Supervisor

/-! ## Sessions -/

/-- `VramCapability`. -/
structure VramCapability where
  status : String
  action : String
  model : String
  endpointId : String
  impact : String
  evicts : List String
deriving DecidableEq

namespace VramCapability

/-- `VramCapability::default`. -/
def default : VramCapability := ⟨"none", "", "", "", "", []⟩

/-- `serde_json::to_value` of a capability. -/
def toValue (vram : VramCapability) : Value :=
  .ofFields [
    ("status", .string vram.status),
    ("action", .string vram.action),
    ("model", .string vram.model),
    ("endpoint_id", .string vram.endpointId),
    ("impact", .string vram.impact),
    ("evicts", .array (vram.evicts.map .string))]

/-- `serde_json::from_value` of a capability. -/
def fromValue (value : Value) : Option VramCapability := do
  let status ← value.fieldOr "none" Value.asStr "status"
  let action ← value.fieldOr "" Value.asStr "action"
  let model ← value.fieldOr "" Value.asStr "model"
  let endpointId ← value.fieldOr "" Value.asStr "endpoint_id"
  let impact ← value.fieldOr "" Value.asStr "impact"
  let evicts ← value.fieldOr [] Value.asStrings "evicts"
  return ⟨status, action, model, endpointId, impact, evicts⟩

end VramCapability

/-- `Session`. -/
structure Session where
  id : String
  name : String
  role : String
  mode : String
  state : String
  engine : String
  model : String
  planStep : String
  halt : String
  verification : String
  files : List String
  changedFiles : List String
  summary : String
  task : String
  workspace : String
  traceRef : String
  vram : VramCapability
deriving DecidableEq

namespace Session

/-- `serde_json::to_value` of a session. -/
def toValue (session : Session) : Value :=
  .ofFields [
    ("id", .string session.id),
    ("name", .string session.name),
    ("role", .string session.role),
    ("mode", .string session.mode),
    ("state", .string session.state),
    ("engine", .string session.engine),
    ("model", .string session.model),
    ("plan_step", .string session.planStep),
    ("halt", .string session.halt),
    ("verification", .string session.verification),
    ("files", .array (session.files.map .string)),
    ("changed_files", .array (session.changedFiles.map .string)),
    ("summary", .string session.summary),
    ("task", .string session.task),
    ("workspace", .string session.workspace),
    ("trace_ref", .string session.traceRef),
    ("vram", session.vram.toValue)]

/-- `serde_json::from_value` of a session. -/
def fromValue (value : Value) : Option Session := do
  let id ← (value.get? "id").bind Value.asStr
  let name ← value.fieldOr "" Value.asStr "name"
  let role ← value.fieldOr "" Value.asStr "role"
  let mode ← value.fieldOr "ask" Value.asStr "mode"
  let state ← value.fieldOr "" Value.asStr "state"
  let engine ← value.fieldOr "" Value.asStr "engine"
  let model ← value.fieldOr "" Value.asStr "model"
  let planStep ← value.fieldOr "" Value.asStr "plan_step"
  let halt ← value.fieldOr "" Value.asStr "halt"
  let verification ← value.fieldOr "" Value.asStr "verification"
  let files ← value.fieldOr [] Value.asStrings "files"
  let changedFiles ← value.fieldOr [] Value.asStrings "changed_files"
  let summary ← value.fieldOr "" Value.asStr "summary"
  let task ← value.fieldOr "" Value.asStr "task"
  let workspace ← value.fieldOr "" Value.asStr "workspace"
  let traceRef ← value.fieldOr "" Value.asStr "trace_ref"
  let vram ← value.fieldOr .default VramCapability.fromValue "vram"
  return ⟨id, name, role, mode, state, engine, model, planStep, halt, verification, files,
    changedFiles, summary, task, workspace, traceRef, vram⟩

/-- What `persist_session` keeps of a session. -/
def record (session : Session) : SessionRecord :=
  ⟨session.id, session.name, session.role, session.mode, session.engine, session.model⟩

/-- `persist_session`, as an upsert calls it. -/
def persist (codec : Codec) (io : CommitIo) (session : Session) (sup : Supervisor) :
    Except String Unit × Supervisor :=
  let persisted := sup.persistSession codec session.record io
  (persisted.result, persisted.sup)

/-- A session that gives only its id. -/
def named (id : String) : Session :=
  ⟨id, "", "", "ask", "", "", "", "", "", "", [], [], "", "", "", "", .default⟩

end Session

/-! ## The board -/

/-- `STALE`. -/
def stale : Duration := .fromSecs 90

/-- `Live`. -/
structure Live where
  session : Session
  seen : Instant
  recovered : Bool
deriving DecidableEq

/-- What `Board::list` reports of an entry. -/
def Live.view (now : Instant) (live : Live) : Value :=
  let age := Instant.elapsed live.seen now
  ((live.session.toValue.set "stale" (.bool (live.recovered || decide (age > stale)))).set
    "recovered" (.bool live.recovered)).set "age_secs" (.nat age.asSecs)

/-- `Board`, with every entry under the id of its session. -/
structure Board where
  inner : Ordered.Map String Live
  filed : ∀ id live, inner.get? id = some live → live.session.id = id

namespace Board

/-- `Board::new`. -/
def new : Board := ⟨.empty, nofun⟩

def file (board : Board) (live : Live) : Board where
  inner := board.inner.insert live.session.id live
  filed := by
    intro id other hget
    rw [Ordered.Map.get?_insert] at hget
    split at hget
    · rename_i hid
      cases hget
      exact hid
    · exact board.filed id other hget

/-- An entry as `Board::recover` makes it of a persisted record. -/
def recovered (session : Session) (seen : Instant) : Live :=
  ⟨{ session with state := "recovery_required", vram := .default }, seen, true⟩

/-- `Board::recover`; the clock is read for every record. -/
def recover (seen : String → Instant) (records : List Value) : Except String Board :=
  let rec loop (board : Board) : List Value → Except String Board
    | [] => .ok board
    | record :: rest =>
      match Session.fromValue record with
      | none => .error "invalid persisted session"
      | some session => loop (board.file (recovered session (seen session.id))) rest
  loop new records

/-- A session as a heartbeat is to file it: with an id and a name, and with the capability on
record. -/
def prepared (board : Board) (nowMillis : ℕ) (session : Session) : Session :=
  let id := if session.id = "" then "s" ++ toString nowMillis else session.id
  { session with
    id := id
    name := if session.name = "" then id else session.name
    vram := ((board.inner.get? id).map fun previous ↦ previous.session.vram).getD .default }

/-- `Board::upsert_durable`, over the state that `persist` changes. -/
def upsertDurable {σ : Type} (board : Board) (nowMillis : ℕ) (seen : Instant) (session : Session)
    (persist : Session → σ → Except String Unit × σ) (state : σ) :
    Except String Session × Board × σ :=
  let session := board.prepared nowMillis session
  match persist session state with
  | (.error e, failed) => (.error e, board, failed)
  | (.ok (), persisted) => (.ok session, board.file ⟨session, seen, false⟩, persisted)

/-- `Board::remove`. -/
def remove (board : Board) (id : String) : Bool × Board :=
  ((board.inner.get? id).isSome,
    { inner := board.inner.erase id
      filed := by
        intro other live hget
        rw [Ordered.Map.get?_erase] at hget
        split at hget
        · cases hget
        · exact board.filed other live hget })

/-- `Board::record_vram`. -/
def recordVram (board : Board) (id : String) (vram : VramCapability) (seen : Instant) :
    Option Session × Board :=
  match board.inner.get? id with
  | none => (none, board)
  | some live =>
    let session := { live.session with vram := vram }
    (some session, board.file { live with session := session, seen := seen })

/-- `Board::get`. -/
def get (board : Board) (id : String) : Option Session :=
  (board.inner.get? id).map Live.session

/-- `Board::contains`. -/
def contains (board : Board) (id : String) (now : Instant) : Bool :=
  (board.inner.get? id).any fun live ↦
    !live.recovered && decide (Instant.elapsed live.seen now ≤ stale)

/-- `Board::stale_ids`; the clock is read for every entry. -/
def staleIds (board : Board) (now : String → Instant) : List String :=
  (board.inner.entries.filter fun (id, live) ↦
    !live.recovered && decide (Instant.elapsed live.seen (now id) > stale)).map Prod.fst

/-- `Board::list`, which drops the entries that have long been stale. -/
def list (board : Board) (now : Instant) : List Value × Board :=
  let keep (live : Live) := live.recovered || decide (Instant.elapsed live.seen now < 4 * stale)
  let kept : Board :=
    { inner := board.inner.retain keep
      filed := by
        intro id live hget
        rw [Ordered.Map.get?_retain] at hget
        exact board.filed id live (Option.filter_eq_some_iff.mp hget).1 }
  (kept.inner.entries.map fun pair ↦ pair.2.view now, kept)

end Board

end Cameo.Daemon
