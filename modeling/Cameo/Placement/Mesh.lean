import Cameo.Placement.Router

/-!
# The mesh scheduler

Which node may receive a session: the hard constraints of trust, health, protocol, privacy, card,
memory and deadline come first, and only among the nodes that pass all of them does a ranking
decide.  The scheduler goes over the candidates once and keeps the best so far.
-/

namespace Cameo.Placement

/-- `TrustState`. -/
inductive TrustState where
  | paired
  | legacyToken
  | untrusted
deriving DecidableEq

/-- `MeshHealth`. -/
inductive MeshHealth where
  | ready
  | degraded
  | draining
  | offline
deriving DecidableEq

/-- `MeshPrivacy`. -/
inductive MeshPrivacy where
  | pool
  | localOnly
deriving DecidableEq

/-- `MeshPreference`. -/
inductive MeshPreference where
  | latency
  | balanced
  | throughput
deriving DecidableEq

def MeshPreference.debug : MeshPreference → String
  | .latency => "Latency"
  | .balanced => "Balanced"
  | .throughput => "Throughput"

/-- `MeshCandidate`. -/
structure MeshCandidate where
  nodeId : String
  node : NodeInfo
  load : NodeLoad
  isLocal : Bool
  trust : TrustState
  health : MeshHealth
  protocolMajor : UInt16
  ownerReclaim : Bool
  inflight : UInt32
  estimatedTtftMs : ℕ
  tokensPerSecond : F64

/-- `MeshRequest`. -/
structure MeshRequest where
  placement : RouteRequest
  sessionAffinity : Option String
  privacy : MeshPrivacy
  preference : MeshPreference
  deadlineMs : Option ℕ
  expectedOutputTokens : UInt32
  priority : UInt8
  allowLegacyToken : Bool
  protocolMajor : UInt16

/-- `MeshRouteChoice`. -/
structure MeshRouteChoice where
  index : ℕ
  nodeId : String
  nodeName : String
  warm : Bool
  affinity : Bool
  freeVramBytes : ℕ
  predictedCompletionMs : ℕ
  trust : TrustState
  health : MeshHealth
  protocolMajor : UInt16
  reason : String
deriving DecidableEq

/-- `Rank`. -/
structure Rank where
  affinity : Bool
  warm : Bool
  ready : Bool
  predictedMs : ℕ
  tokensPerSecond : F64
  free : ℕ
  inflight : UInt32
  nodeId : String

/-- `Rank::better_than`. -/
def Rank.betterThan (rank other : Rank) (preference : MeshPreference) : Bool :=
  let byUsage :=
    if rank.free ≠ other.free then decide (rank.free > other.free)
    else if rank.inflight ≠ other.inflight then decide (rank.inflight < other.inflight)
    else decide (rank.nodeId < other.nodeId)
  if rank.affinity ≠ other.affinity then rank.affinity
  else if rank.warm ≠ other.warm then rank.warm
  else if rank.ready ≠ other.ready then rank.ready
  else
    match preference with
    | .latency | .balanced =>
      if rank.predictedMs ≠ other.predictedMs then decide (rank.predictedMs < other.predictedMs)
      else byUsage
    | .throughput =>
      if FloatValue.epsilon.lt (rank.tokensPerSecond - other.tokensPerSecond).abs then
        other.tokensPerSecond.lt rank.tokensPerSecond
      else byUsage

/-- `predicted_completion_ms`. -/
def predictedCompletionMs (candidate : MeshCandidate) (expectedTokens : UInt32) : ℕ :=
  let rate :=
    if candidate.tokensPerSecond.isFinite ∧ FloatValue.zero.lt candidate.tokensPerSecond then
      candidate.tokensPerSecond
    else .ofNat 20
  let ttft := if candidate.estimatedTtftMs = 0 then 750 else candidate.estimatedTtftMs
  let generation := (.ofNat (max expectedTokens.toNat 1) / rate * .ofNat 1000 : F64).ceilToUnsigned
    u64Max
  let queue := saturatingMul candidate.inflight.toNat 250
  let healthPenalty := if candidate.health = .degraded then 2 else 1
  saturatingMul (saturatingAdd (saturatingAdd ttft generation) queue) healthPenalty

/-- The bytes that a request needs on a node that does not serve its model yet. -/
def RouteRequest.need (req : RouteRequest) : ℕ :=
  match req.task with
  | .inference => req.model.totalBytes
  | .training => saturatingMul req.model.weightsBytes trainingFootprintMult

namespace MeshCandidate

/-- The node with its load, as the router sees it. -/
def placement (mesh : MeshCandidate) : Candidate := ⟨mesh.node, mesh.load⟩

/-- The hub may send the request to the node. -/
def permits (mesh : MeshCandidate) (req : MeshRequest) : Bool :=
  let trusted := mesh.trust = .paired ∨ (req.allowLegacyToken ∧ mesh.trust = .legacyToken)
  let healthy := mesh.health = .ready ∨ mesh.health = .degraded
  decide (trusted ∧ healthy ∧ !mesh.ownerReclaim ∧ mesh.protocolMajor = req.protocolMajor ∧
    (req.privacy = .localOnly → mesh.isLocal))

/-- The node already serves the model. -/
def warmFor (mesh : MeshCandidate) (req : MeshRequest) : Bool :=
  mesh.load.serves req.placement.model.name

/-- The model is there, or there is room for it as far as anybody knows. -/
def hasRoom (mesh : MeshCandidate) (req : MeshRequest) : Bool :=
  mesh.warmFor req || !(freeVram mesh.placement).2 ||
    req.placement.need ≤ (freeVram mesh.placement).1

def rank? (mesh : MeshCandidate) (req : MeshRequest) : Option Rank :=
  let predictedMs := predictedCompletionMs mesh req.expectedOutputTokens
  if mesh.permits req && cardOk mesh.placement req.placement && mesh.hasRoom req &&
      req.deadlineMs.all (predictedMs ≤ ·) then
    some {
      affinity := req.sessionAffinity = some mesh.nodeId
      warm := mesh.warmFor req
      ready := mesh.health = .ready
      predictedMs := predictedMs
      tokensPerSecond := mesh.tokensPerSecond
      free := (freeVram mesh.placement).1
      inflight := mesh.inflight
      nodeId := mesh.nodeId }
  else none

end MeshCandidate

/-- One candidate of the scheduler's pass: how many have been rejected, and the best so far. -/
def considerCandidate (req : MeshRequest) (acc : ℕ × Option (ℕ × Rank))
    (entry : MeshCandidate × ℕ) : ℕ × Option (ℕ × Rank) :=
  match entry.1.rank? req with
  | none => (acc.1 + 1, acc.2)
  | some rank =>
    if acc.2.all fun current ↦ rank.betterThan current.2 req.preference then
      (acc.1, some (entry.2, rank))
    else acc

def choiceReason (req : MeshRequest) (selected : MeshCandidate) (rank : Rank) : String :=
  if rank.affinity then "'" ++ selected.node.name ++ "' retained eligible session affinity"
  else if rank.warm then
    "'" ++ selected.node.name ++ "' already serves the model and avoids a reload"
  else "'" ++ selected.node.name ++ "' is the best eligible " ++ req.preference.debug ++
    " target (predicted " ++ toString rank.predictedMs ++ " ms)"

def choiceOf (req : MeshRequest) (index : ℕ) (selected : MeshCandidate) (rank : Rank) :
    MeshRouteChoice where
  index := index
  nodeId := selected.nodeId
  nodeName := selected.node.name
  warm := rank.warm
  affinity := rank.affinity
  freeVramBytes := rank.free
  predictedCompletionMs := rank.predictedMs
  trust := selected.trust
  health := selected.health
  protocolMajor := selected.protocolMajor
  reason := choiceReason req selected rank

/-- `route_mesh`. -/
def routeMesh (candidates : List MeshCandidate) (req : MeshRequest) :
    Except RouteError MeshRouteChoice :=
  if candidates.isEmpty then .error .noCandidates
  else
    let pass := candidates.zipIdx.foldl (considerCandidate req) (0, none)
    match pass.2 with
    | none => .error (.noneEligible ("all " ++ toString pass.1 ++ " node(s) were rejected by " ++
        "trust, health, privacy, protocol, deadline, card, or memory admission"))
    | some (index, rank) =>
      match candidates[index]? with
      | some selected => .ok (choiceOf req index selected rank)
      -- The source indexes without a check: the best is always one of the candidates.
      | none => .error .noCandidates

/-! ## What is chosen -/

/-- The best so far is a candidate, with its rank. -/
def IsCandidate (candidates : List MeshCandidate) (req : MeshRequest) (best : Option (ℕ × Rank)) :
    Prop :=
  ∀ index rank, best = some (index, rank) →
    ∃ mesh, candidates[index]? = some mesh ∧ mesh.rank? req = some rank

theorem isCandidate_considerCandidate {candidates : List MeshCandidate} {req : MeshRequest}
    {acc : ℕ × Option (ℕ × Rank)} {entry : MeshCandidate × ℕ}
    (h : IsCandidate candidates req acc.2) (hentry : candidates[entry.2]? = some entry.1) :
    IsCandidate candidates req (considerCandidate req acc entry).2 := by
  unfold considerCandidate
  split
  · exact h
  · rename_i rank hrank
    split
    · intro index rank' hbest
      obtain ⟨rfl, rfl⟩ : entry.2 = index ∧ rank = rank' := by simpa using hbest
      exact ⟨entry.1, hentry, hrank⟩
    · exact h

theorem isCandidate_foldl {candidates : List MeshCandidate} {req : MeshRequest}
    {entries : List (MeshCandidate × ℕ)} {acc : ℕ × Option (ℕ × Rank)}
    (h : IsCandidate candidates req acc.2)
    (hentries : ∀ entry ∈ entries, candidates[entry.2]? = some entry.1) :
    IsCandidate candidates req (entries.foldl (considerCandidate req) acc).2 := by
  induction entries generalizing acc with
  | nil => exact h
  | cons entry rest ih =>
    obtain ⟨hentry, hrest⟩ := List.forall_mem_cons.mp hentries
    exact ih (isCandidate_considerCandidate h hentry) hrest

/-- The chosen node is a candidate that passes every hard constraint. -/
theorem routeMesh_eq_ok {candidates : List MeshCandidate} {req : MeshRequest}
    {choice : MeshRouteChoice} (h : routeMesh candidates req = .ok choice) :
    ∃ mesh rank, candidates[choice.index]? = some mesh ∧ mesh.rank? req = some rank ∧
      choice = choiceOf req choice.index mesh rank := by
  have hcandidate : IsCandidate candidates req
      (candidates.zipIdx.foldl (considerCandidate req) (0, none)).2 :=
    isCandidate_foldl (fun _ _ hnone ↦ by cases hnone)
      fun entry hentry ↦ List.mem_zipIdx_iff_getElem?.mp hentry
  unfold routeMesh at h
  split at h
  · cases h
  · dsimp only at h
    split at h
    · cases h
    · rename_i index rank hbest
      obtain ⟨mesh, hmesh, hrank⟩ := hcandidate index rank hbest
      rw [hmesh] at h
      obtain rfl := Except.ok.inj h
      exact ⟨mesh, rank, hmesh, hrank, rfl⟩

/-- A rank is given only to nodes that pass every hard constraint. -/
theorem MeshCandidate.rank?_eq_some {mesh : MeshCandidate} {req : MeshRequest} {rank : Rank}
    (h : mesh.rank? req = some rank) :
    mesh.permits req = true ∧ mesh.hasRoom req = true ∧ rank.warm = mesh.warmFor req := by
  unfold rank? at h
  dsimp only at h
  split at h
  · rename_i hall
    simp only [Bool.and_eq_true] at hall
    obtain rfl := Option.some.inj h
    exact ⟨hall.1.1.1, hall.1.2, rfl⟩
  · cases h

end Cameo.Placement
