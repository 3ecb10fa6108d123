import Cameo.Daemon.Commits

/-!
# Requests side by side

The daemon with the requests it is answering.  Every request first sweeps the leases of stale
sessions: it collects the stale ids under the lock of the board and then releases them one by one
under the lock of the leases.  A `DELETE` of a session removes the durable record, and then the
entry of the board.  Between two such parts anything else may happen, so the ids that a sweep has
yet to release and the deletions that are half done are part of the state.

`beats` and `dropped` are history variables: the heartbeats the daemon has accepted of each session,
and the leases that sweeps have dropped.
-/

namespace Cameo.Daemon

open Json Library Store Supervisor

/-- A session id that a sweep has collected, and the heartbeats of the session until then. -/
structure Collected where
  id : String
  beats : List Instant

/-- A lease that a sweep has dropped, and the heartbeats of its session until then. -/
structure Dropped where
  sessionId : String
  removedAt : Instant
  beats : List Instant

/-- The daemon, the monotonic clock, what the sweeps have yet to release, and the sessions whose
record is removed while the board has yet to drop them. -/
structure Service where
  node : Node
  now : Instant
  sweeps : List (List Collected)
  deleting : List String
  beats : String → List Instant
  dropped : List Dropped

/-- A step of the daemon or of the clock.  Looking something up on the board is none. -/
inductive Turn where
  | wait (duration : Duration)
  | start (req : StartRequest) (io : StartIo)
  /-- A call; the removal of a session is the first half of a `DELETE`. -/
  | call (call : Call)
  | letThrough (sessionId model : String)
  | heartbeat (session : Session) (nowMillis : ℕ) (io : CommitIo)
  | recordVram (id : String) (vram : VramCapability)
  | list
  /-- The first half of a sweep; each entry reads the clock for itself. -/
  | collect (delays : String → Duration) (took : Duration)
  /-- A sweep releases the next id it has collected. -/
  | release (sweep : ℕ) (io : CommitIo)
  /-- The second half of a `DELETE`. -/
  | finishDelete (id : String)
  /-- The daemon comes up again on what is left in its state directory. -/
  | restart (io : SupervisorOpenIo) (directory : Directory)

namespace Service

/-- The daemon before its first request. -/
def of (node : Node) (now : Instant) : Service := ⟨node, now, [], [], fun _ ↦ [], []⟩

/-- A heartbeat of the session is accepted now. -/
def heard (service : Service) (id : String) : String → List Instant :=
  Function.update service.beats id (service.now :: service.beats id)

variable (codec : Codec)

/-- The daemon after one of its own steps. -/
def act (service : Service) (action : Action) : Service :=
  { service with node := service.node.step codec action }

def accepts (service : Service) (session : Session) (nowMillis : ℕ) (io : CommitIo) : Bool :=
  (service.node.board.upsertDurable nowMillis service.now session (Session.persist codec io)
    service.node.sys.sup).1.isOk

/-- The deletions half done after a call. -/
def deletingAfter (service : Service) : Call → List String
  | .removeSession id io =>
    if (service.node.sys.sup.removeSession codec id io).result.isOk then id :: service.deleting
    else service.deleting
  | _ => service.deleting

/-- A sweep releases an id, which drops the lease of the session if it has one. -/
def releaseCollected (service : Service) (id : String) (io : CommitIo) : Service :=
  let after := service.act codec (.call (.release id io))
  if (service.node.sys.sup.leases.get? id).isSome && (after.node.sys.sup.leases.get? id).isNone then
    { after with dropped := ⟨id, service.now, service.beats id⟩ :: service.dropped }
  else after

def step (service : Service) : Turn → Service
  | .wait duration => { service with now := service.now + duration }
  | .start req io => service.act codec (.start req io)
  | .call call =>
    { service.act codec (.call call) with deleting := service.deletingAfter codec call }
  | .letThrough sessionId model => service.act codec (.letThrough sessionId model service.now)
  | .heartbeat session nowMillis io =>
    let after := service.act codec (.upsert session nowMillis service.now io)
    if service.accepts codec session nowMillis io then
      { after with beats := service.heard (service.node.board.prepared nowMillis session).id }
    else after
  | .recordVram id vram =>
    let after := service.act codec (.recordVram id vram service.now)
    if (service.node.board.inner.get? id).isSome then { after with beats := service.heard id }
    else after
  | .list => service.act codec (.list service.now)
  | .collect delays took =>
    let stale := service.node.board.staleIds fun id ↦ service.now + min (delays id) took
    { service with
      now := service.now + took
      sweeps := service.sweeps ++ [stale.map fun id ↦ ⟨id, service.beats id⟩] }
  | .release sweep io =>
    match service.sweeps[sweep]? with
    | none | some [] => service
    | some (next :: rest) =>
      { service.releaseCollected codec next.id io with sweeps := service.sweeps.set sweep rest }
  | .finishDelete id =>
    if id ∈ service.deleting then
      { service.act codec (.remove id) with deleting := service.deleting.erase id }
    else service
  | .restart io directory =>
    match (Supervisor.open codec io directory).result with
    -- no daemon comes up, and the next attempt finds what this one has left
    | .error _ => service
    | .ok sup =>
      match Board.recover (fun _ ↦ service.now) sup.recoverySessions with
      | .error _ => service
      | .ok board => { service with node := .of sup board, sweeps := [], deleting := [] }

/-- The daemon after a list of steps. -/
def run (service : Service) (turns : List Turn) : Service := Run.run (step codec) service turns

/-! ## Heartbeats -/

/-- What a heartbeat can do: it is stored and filed on the board, or it fails. -/
theorem heartbeat_cases (service : Service) (session : Session) (nowMillis : ℕ) (io : CommitIo) :
    let prepared := service.node.board.prepared nowMillis session
    let persisted := service.node.sys.sup.persistSession codec prepared.record io
    ∃ after : Node, after.sys.sup = persisted.sup ∧
      (persisted.result = .ok () ∧
          after.board = service.node.board.file ⟨prepared, service.now, false⟩ ∧
          service.step codec (.heartbeat session nowMillis io) =
            { service with node := after, beats := service.heard prepared.id } ∨
        (∃ e, persisted.result = .error e) ∧ after.board = service.node.board ∧
          service.step codec (.heartbeat session nowMillis io) =
            { service with node := after }) := by
  intro prepared persisted
  refine ⟨service.node.step codec (.upsert session nowMillis service.now io), ?_⟩
  cases hresult : persisted.result with
  | error e =>
    have hupsert : service.node.board.upsertDurable nowMillis service.now session
        (Session.persist codec io) service.node.sys.sup =
          (.error e, service.node.board, persisted.sup) := by
      simp only [Board.upsertDurable, Session.persist]
      rw [show (service.node.sys.sup.persistSession codec
        (service.node.board.prepared nowMillis session).record io).result = .error e from hresult]
    refine ⟨by simp only [Node.step, hupsert],
      .inr ⟨⟨e, rfl⟩, by simp only [Node.step, hupsert], ?_⟩⟩
    simp only [step, act, accepts, hupsert, Except.isOk, Except.toBool, Bool.false_eq_true,
      if_false]
  | ok _ =>
    have hupsert : service.node.board.upsertDurable nowMillis service.now session
        (Session.persist codec io) service.node.sys.sup =
          (.ok prepared, service.node.board.file ⟨prepared, service.now, false⟩,
            persisted.sup) := by
      simp only [Board.upsertDurable, Session.persist]
      rw [show (service.node.sys.sup.persistSession codec
        (service.node.board.prepared nowMillis session).record io).result = .ok () from hresult]
    refine ⟨by simp only [Node.step, hupsert], .inl ⟨rfl, by simp only [Node.step, hupsert], ?_⟩⟩
    simp only [step, act, accepts, hupsert, Except.isOk, Except.toBool, if_true]
    rfl

/-! ## Other steps -/

theorem board_call (codec : Codec) (node : Node) (call : Call) :
    (node.step codec (.call call)).board = node.board := by
  unfold Node.step
  dsimp only
  split
  · rfl
  · rfl

theorem board_letThrough (codec : Codec) (node : Node) (sessionId model : String) (now : Instant) :
    (node.step codec (.letThrough sessionId model now)).board = node.board := by
  unfold Node.step
  dsimp only
  split
  · rfl
  · rfl

/-- What a step of a sweep can do. -/
theorem release_cases (codec : Codec) (service : Service) (sweep : ℕ) (io : CommitIo) :
    service.step codec (.release sweep io) = service ∨
      ∃ next rest dropped, service.sweeps[sweep]? = some (next :: rest) ∧
        (dropped = service.dropped ∨
          (service.node.sys.sup.leases.get? next.id).isSome ∧
            ((service.node.step codec (.call (.release next.id io))).sys.sup.leases.get?
              next.id).isNone ∧
            dropped = ⟨next.id, service.now, service.beats next.id⟩ :: service.dropped) ∧
        service.step codec (.release sweep io) =
          { service with
            node := service.node.step codec (.call (.release next.id io))
            sweeps := service.sweeps.set sweep rest
            dropped := dropped } := by
  simp only [step]
  split
  · exact .inl rfl
  · exact .inl rfl
  · rename_i next rest hsweep
    unfold releaseCollected
    dsimp only
    split
    · rename_i hdrop
      obtain ⟨hheld, hfree⟩ := Bool.and_eq_true_iff.mp hdrop
      exact .inr ⟨next, rest, _, hsweep, .inr ⟨hheld, hfree, rfl⟩, rfl⟩
    · exact .inr ⟨next, rest, _, hsweep, .inl rfl, rfl⟩

end Service

end Cameo.Daemon
