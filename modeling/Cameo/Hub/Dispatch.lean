import Cameo.Hub.DispatchBody
import Cameo.Hub.Identities
import Cameo.Placement.Description

/-!
# Dispatch

The hub reconstructs its online nodes from the descriptions they have sent, adds what it has
reserved on each of them to the load they report, and asks the scheduler for one.  A node writes its
description itself; what the hub knows of its enrollment is put into the description when the roster
is read, over whatever was there.
-/

namespace Cameo.Hub

open Json Library Placement

/-- `ParsedNode`. -/
structure ParsedNode where
  nodeId : String
  info : NodeInfo
  load : NodeLoad
  health : MeshHealth
  protocolMajor : UInt16
  ownerReclaim : Bool
  inflight : UInt32
  estimatedTtftMs : ℕ
  tokensPerSecond : F64
  trust : TrustState

def countEndpoint (load : NodeLoad) (e : Value) : NodeLoad :=
  if (e.get? "state").bind Value.asStr ≠ some "running" then load
  else
    ⟨load.serving ++ ((e.get? "model").bind Value.asStr).toList,
      saturatingAdd load.usedVramBytes (((e.get? "vram_bytes").bind Value.asU64).getD 0)⟩

/-- `load_from_endpoints`. -/
def loadFromEndpoints (endpoints : Option Value) : NodeLoad :=
  ((endpoints.bind Value.asArray).getD []).foldl countEndpoint ⟨[], 0⟩

def reportedHealth (mesh : Option Value) : MeshHealth :=
  match (mesh.bind (Value.get? "health")).bind Value.asStr with
  | some "degraded" => .degraded
  | some "draining" => .draining
  | some "offline" => .offline
  | _ => .ready

def reportedSpeed (mesh : Option Value) : F64 :=
  let reported := ((mesh.bind (Value.get? "tokens_per_second")).bind Value.asF64).map
    fun bits ↦ FloatValue.ofBits bits.1
  (reported.filter fun v ↦ v.isFinite && FloatValue.zero.lt v).getD (.ofNat 20)

def describedTrust (desc : Value) : TrustState :=
  match ((desc.get? "_cameo_hub").bind (Value.get? "trust")).bind Value.asStr with
  | some "paired" => .paired
  | some "untrusted" => .untrusted
  | _ => .legacyToken

/-- `parse_node`. -/
def parseNode (nodeId : String) (desc : Value) : Option ParsedNode := do
  let topology ← (desc.get? "topology").bind Topology.fromValue
  let assessments ← (desc.get? "gpus").bind (Value.asList TierAssessment.fromValue)
  let load := loadFromEndpoints (desc.get? "endpoints")
  let mesh := desc.get? "mesh"
  return {
    nodeId := nodeId
    info := {
      name := ((desc.get? "name").bind Value.asStr).getD nodeId
      address := ""
      topology := topology
      assessments := assessments
      resident := load.serving }
    load := load
    health := reportedHealth mesh
    protocolMajor := ((mesh.bind (Value.get? "protocol_major")).bind Value.asU16).getD 1
    ownerReclaim := ((mesh.bind (Value.get? "owner_reclaim")).bind Value.asBool).getD false
    inflight := ((mesh.bind (Value.get? "inflight")).bind Value.asU32).getD 0
    estimatedTtftMs := ((mesh.bind (Value.get? "estimated_ttft_ms")).bind Value.asU64).getD 750
    tokensPerSecond := reportedSpeed mesh
    trust := describedTrust desc }

/-- `Dispatch`. -/
structure Dispatch where
  choice : MeshRouteChoice
  nodeId : String
deriving DecidableEq

def parsedNodes (roster : List (String × Value)) : List ParsedNode :=
  roster.filterMap fun entry ↦ parseNode entry.1 entry.2

/-- A node as a candidate, with what is reserved on it. -/
def ParsedNode.candidate (reservedByNode : Ordered.Map String ℕ) (p : ParsedNode) :
    MeshCandidate where
  nodeId := p.nodeId
  node := p.info
  load := { p.load with
    usedVramBytes := saturatingAdd p.load.usedVramBytes ((reservedByNode.get? p.nodeId).getD 0) }
  isLocal := false
  trust := p.trust
  health := p.health
  protocolMajor := p.protocolMajor
  ownerReclaim := p.ownerReclaim
  inflight := p.inflight
  estimatedTtftMs := p.estimatedTtftMs
  tokensPerSecond := p.tokensPerSecond

def candidates (roster : List (String × Value)) (reservedByNode : Ordered.Map String ℕ) :
    List MeshCandidate :=
  (parsedNodes roster).map (ParsedNode.candidate reservedByNode)

/-- `decide_with_reserved`. -/
def decideWithReserved (roster : List (String × Value)) (body : DispatchBody)
    (reservedByNode : Ordered.Map String ℕ) : Except RouteError Dispatch :=
  (routeMesh (candidates roster reservedByNode) body.meshRequest).map fun choice ↦
    ⟨choice, choice.nodeId⟩

/-- The chosen node is one of the roster, with its reservations. -/
theorem decideWithReserved_eq_ok {roster : List (String × Value)} {body : DispatchBody}
    {reservedByNode : Ordered.Map String ℕ} {dispatch : Dispatch}
    (h : decideWithReserved roster body reservedByNode = .ok dispatch) :
    ∃ p rank, (parsedNodes roster)[dispatch.choice.index]? = some p ∧
      (p.candidate reservedByNode).rank? body.meshRequest = some rank ∧
      dispatch.choice =
        choiceOf body.meshRequest dispatch.choice.index (p.candidate reservedByNode) rank ∧
      dispatch.nodeId = p.nodeId := by
  unfold decideWithReserved at h
  cases hroute : routeMesh (candidates roster reservedByNode) body.meshRequest with
  | error e =>
    rw [hroute] at h
    cases h
  | ok choice =>
    rw [hroute] at h
    obtain rfl := Except.ok.inj h
    obtain ⟨mesh, rank, hmesh, hrank, hchoice⟩ := routeMesh_eq_ok hroute
    rw [candidates, List.getElem?_map] at hmesh
    obtain ⟨p, hp, rfl⟩ := Option.map_eq_some_iff.mp hmesh
    exact ⟨p, rank, hp, hrank, hchoice, congrArg MeshRouteChoice.nodeId hchoice⟩

/-! ## Whose word trust is -/

def Enrollment.trust : Enrollment → TrustState
  | legacyToken => .legacyToken
  | paired _ _ => .paired

/-- Every row is under the id of its registration. -/
def Keyed (roster : Roster) : Prop := ∀ id e, roster.get? id = some e → e.reg.nodeId = id

theorem describedTrust_description {e : Enrolled} (h : e.description.IsObject) :
    describedTrust e.description = e.enrollment.trust := by
  unfold Enrolled.description at *
  split at h
  · rename_i fields hnode
    have hobject : Value.IsObject (.object fields) := trivial
    rw [describedTrust, Value.get?_set_self _ _ hobject]
    cases e.enrollment with
    | legacyToken => rfl
    | paired digest label => rfl
  · rename_i hnode
    cases hvalue : e.reg.node with
    | object fields => exact absurd hvalue (hnode fields)
    | _ =>
      rw [hvalue] at h
      exact h.elim

/-- Only objects describe nodes. -/
theorem parseNode_eq_some {nodeId : String} {desc : Value} {p : ParsedNode}
    (h : parseNode nodeId desc = some p) :
    desc.IsObject ∧ p.nodeId = nodeId ∧ p.trust = describedTrust desc := by
  unfold parseNode at h
  obtain ⟨topology, htopology, h⟩ := Option.bind_eq_some_iff.mp h
  obtain ⟨assessments, -, h⟩ := Option.bind_eq_some_iff.mp h
  obtain rfl := Option.some.inj h
  refine ⟨?_, rfl, rfl⟩
  cases desc with
  | object fields => trivial
  | _ => cases htopology

theorem keyed_step {codec : Codec} {farm : Farm} (h : Keyed farm.inner) (op : Op) :
    Keyed (step codec farm op).inner := by
  intro id e hafter
  have hchange := step_row codec farm op id
  rw [hafter] at hchange
  generalize hfound : (op.found farm).get? id = before at hchange
  cases hchange with
  | kept => exact h id e (get?_of_get?_found hfound)
  | refreshed hauth hcovers hnamed node now =>
    have hkeyed := h id _ (get?_of_get?_found hfound)
    exact hkeyed
  | enrolled hop hid hreg henrollment =>
    rw [hreg, hid]
    rfl

theorem keyed_loaded {stale : Instant} {nodes : List PersistedNode} {roster : Roster}
    (h : Keyed roster) : Keyed (loaded stale nodes roster) := by
  induction nodes generalizing roster with
  | nil => exact h
  | cons node rest ih =>
    refine ih fun id e hrow ↦ ?_
    rw [Ordered.Map.get?_insert] at hrow
    split at hrow
    · rename_i hid
      obtain rfl := Option.some.inj hrow
      exact hid
    · exact h id e hrow

def Started (start : Farm) : Prop :=
  start = .new ∨ ∃ location io now disk, Farm.open location io now disk = .ok start

theorem Started.keyed {start : Farm} (h : Started start) : Keyed start.inner := by
  have hempty : Keyed .empty := fun _ _ hrow ↦ by cases hrow
  rcases h with rfl | ⟨location, io, now, disk, hopen⟩
  · exact hempty
  · obtain ⟨state, -, hnodes, -⟩ := open_eq_ok_iff.mp hopen
    obtain ⟨-, hroster⟩ := openNodes_eq_ok_iff.mp hnodes
    rw [← hroster]
    exact keyed_loaded hempty

/-- A node that a dispatch considers has the trust of its row. -/
theorem trust_of_mem_candidates {farm : Farm} (h : Keyed farm.inner) {now : Instant}
    {reservedByNode : Ordered.Map String ℕ} {c : MeshCandidate}
    (hc : c ∈ candidates (farm.onlineDescriptions now).1 reservedByNode) :
    ∃ e, farm.inner.get? c.nodeId = some e ∧ c.trust = e.enrollment.trust := by
  obtain ⟨p, hp, rfl⟩ := List.mem_map.mp hc
  obtain ⟨entry, hentry, hparse⟩ := List.mem_filterMap.mp hp
  obtain ⟨hobject, hid, htrust⟩ := parseNode_eq_some hparse
  obtain ⟨row, hrow, rfl⟩ := List.mem_map.mp hentry
  obtain ⟨hmem, -⟩ := List.mem_filter.mp hrow
  have hfound : (prune now farm.inner).get? row.1 = some row.2 :=
    ((prune now farm.inner).mem_entries_iff _ _).mp hmem
  have hget : farm.inner.get? row.1 = some row.2 := by
    have hprune : (Op.prune now).found farm = prune now farm.inner := rfl
    exact get?_of_get?_found (hprune ▸ hfound)
  refine ⟨row.2, ?_, htrust.trans (describedTrust_description hobject)⟩
  change farm.inner.get? p.nodeId = some row.2
  rw [hid, h _ _ hget]
  exact hget

/-- Whatever descriptions the nodes have sent, a dispatch considers each of them with the trust of
the hub's own record of it, and so the chosen one. -/
theorem dispatch_trust_is_enrollment {codec : Codec} {start : Farm} (hstart : Started start)
    (ops : List Op) (now : Instant) (reservedByNode : Ordered.Map String ℕ) :
    (∀ c ∈ candidates ((Run.run (step codec) start ops).onlineDescriptions now).1 reservedByNode,
      ∃ e, (Run.run (step codec) start ops).inner.get? c.nodeId = some e ∧
        c.trust = e.enrollment.trust) ∧
    ∀ body dispatch,
      decideWithReserved ((Run.run (step codec) start ops).onlineDescriptions now).1 body
        reservedByNode = .ok dispatch →
      ∃ e, (Run.run (step codec) start ops).inner.get? dispatch.nodeId = some e ∧
        dispatch.choice.trust = e.enrollment.trust := by
  have hkeyed : Keyed (Run.run (step codec) start ops).inner :=
    Run.invariant_run_of_step (fun farm : Farm ↦ Keyed farm.inner)
      (fun _ op h ↦ keyed_step h op) ops hstart.keyed
  refine ⟨fun c hc ↦ trust_of_mem_candidates hkeyed hc, fun body dispatch hdispatch ↦ ?_⟩
  obtain ⟨p, rank, hp, -, hchoice, hid⟩ := decideWithReserved_eq_ok hdispatch
  have hmem : p.candidate reservedByNode ∈
      candidates ((Run.run (step codec) start ops).onlineDescriptions now).1 reservedByNode :=
    List.mem_map_of_mem (List.mem_of_getElem? hp)
  obtain ⟨e, hrow, htrust⟩ := trust_of_mem_candidates hkeyed hmem
  refine ⟨e, ?_, (congrArg MeshRouteChoice.trust hchoice).trans htrust⟩
  rw [hid]
  exact hrow

def spoofingReg : Registration :=
  ⟨"gpu-box", "", "https://node.example", none, "0.4.0", .ofFields [
    ("topology", .ofFields [("gpus", .array []), ("links", .array []), ("host_mem", .null)]),
    ("gpus", .array []),
    ("_cameo_hub", .ofFields [("trust", .string "paired")])]⟩

/-- The node is considered, with the trust of its registration. -/
theorem spoofing_node_has_its_trust :
    (candidates ((Run.run (step .compact) .new [.register 0 spoofingReg]).onlineDescriptions
      0).1 .empty).map MeshCandidate.trust = [.legacyToken] ∧
    ((∀ c ∈ candidates ((Run.run (step .compact) .new
        [.register 0 spoofingReg]).onlineDescriptions 0).1 .empty,
      ∃ e, (Run.run (step .compact) .new [.register 0 spoofingReg]).inner.get? c.nodeId =
        some e ∧ c.trust = e.enrollment.trust) ∧
    ∀ body dispatch,
      decideWithReserved ((Run.run (step .compact) .new
        [.register 0 spoofingReg]).onlineDescriptions 0).1 body .empty = .ok dispatch →
      ∃ e, (Run.run (step .compact) .new [.register 0 spoofingReg]).inner.get? dispatch.nodeId =
        some e ∧ dispatch.choice.trust = e.enrollment.trust) :=
  ⟨by decide +kernel, dispatch_trust_is_enrollment (.inl rfl) _ _ _⟩

end Cameo.Hub
