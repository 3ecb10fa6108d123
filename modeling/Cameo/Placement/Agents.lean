import Cameo.Address
import Cameo.Placement.Fleet
import Cameo.Placement.LlamaServer

/-!
# Binding agents to compute

An agent has a cloud model or a local one in its engine slot.  A local model is placed on a node of
the cluster and gets the command that serves it there and the endpoint to point the agent at.
`resolve_agents` goes over a list of agents and hands out ports: a new one for every model path that
is new on a node, unless the node already serves the model.  The ports handed out are recorded
beside the plans; the source returns the plans alone.
-/

namespace Cameo.Placement

/-! ## Agents -/

/-- `PlacementTarget`. -/
inductive PlacementTarget where
  | auto
  | node (name : String)
deriving DecidableEq

/-- `EngineBinding`. -/
inductive EngineBinding where
  | cloud (provider model : String)
  | «local» (path : String) (model : ModelMeta) (target : PlacementTarget)

/-- `AgentSpec`. -/
structure AgentSpec where
  name : String
  role : String
  engine : EngineBinding

/-- The local case of `AgentRunPlan`. -/
structure LocalRunPlan where
  name : String
  role : String
  node : ℕ
  nodeName : String
  endpoint : String
  bind : String
  authenticated : Bool
  serve : CommandSpec
  alreadyRunning : Bool

/-- `AgentRunPlan`. -/
inductive AgentRunPlan where
  | cloud (name role provider model endpoint : String)
  | «local» (plan : LocalRunPlan)

def AgentRunPlan.endpoint : AgentRunPlan → String
  | .cloud _ _ _ _ endpoint => endpoint
  | .local plan => plan.endpoint

/-- `provider_endpoint`.  No letter outside ASCII has one of these names' letters as its lower
case. -/
def providerEndpoint (provider : String) : Option String :=
  if eqIgnoreAsciiCase provider "anthropic" then some "https://api.anthropic.com"
  else if eqIgnoreAsciiCase provider "openai" then some "https://api.openai.com/v1"
  else none

/-- `NodeInfo::is_warm_for`. -/
def NodeInfo.isWarmFor (node : NodeInfo) (model path : String) : Bool :=
  let want := trimEndText ".gguf" model
  let wantPath := trimEndText ".gguf" path
  node.resident.any fun m ↦
    let have_ := trimEndText ".gguf" m
    have_ = want || have_ = wantPath || m = path

/-- `is_loopback`. -/
def isLoopback (host : String) : Bool :=
  eqIgnoreAsciiCase host "localhost" || (IpAddr.parse host.toList).any IpAddr.isLoopback

/-! ## One agent -/

/-- Where a local agent lands: the node with its index and the name it goes by, the plan of the
model on it and the host of its address. -/
structure Landing where
  node : ℕ
  nodeName : String
  info : NodeInfo
  plan : PlacementPlan
  host : String

def chooseNode (agent : String) (model : ModelMeta) (target : PlacementTarget) (cluster : Cluster)
    (settings : Settings) : Except Error (ℕ × PlacementPlan × String) :=
  match target with
  | .auto =>
    match placeOnFleet cluster model .inference settings with
    | .error e => .error e
    | .ok placed =>
      match placed.chosen with
      | .singleNode node nodeName plan => .ok (node, plan, nodeName)
      | .distributed _ _ => .error (.localAgentTooLarge agent)
  | .node name =>
    match cluster.nodes.findIdx? fun node ↦ node.name = name with
    | none => .error (.nodeNotFound name)
    | some index =>
      match cluster.nodes[index]? with
      -- The source indexes without a check: the position is one in the list.
      | none => .error (.nodeNotFound name)
      | some node =>
        match plan node.topology node.assessments model .inference settings with
        | .error e => .error e
        | .ok made => .ok (index, made, name)

/-- The part of `resolve_agent` for a local model that does not depend on the port. -/
def land (agent : String) (model : ModelMeta) (target : PlacementTarget) (cluster : Cluster)
    (settings : Settings) : Except Error Landing :=
  match chooseNode agent model target cluster settings with
  | .error e => .error e
  | .ok (node, made, nodeName) =>
    match cluster.nodes[node]? with
    -- The source indexes without a check: a chosen node is one of the cluster.
    | none => .error (.nodeNotFound nodeName)
    | some info =>
      match hostOf info.address.toList with
      | none => .error (.invalidNodeAddress info.address)
      | some host =>
        if !isLoopback (String.ofList host) && settings.serveApiKey.isNone then
          .error (.missingApiKey agent)
        else .ok ⟨node, nodeName, info, made, String.ofList host⟩

def bindAddress (host : String) : String :=
  if (IpAddr.parse host.toList).isSome then host
  else if isLoopback host then "127.0.0.1"
  else "0.0.0.0"

def endpointOf (host : String) (port : UInt16) : String :=
  "http://" ++ host ++ ":" ++ toString port.toNat

/-- The plan of a local agent that has landed, on a port. -/
def Landing.runPlan (landing : Landing) (spec : AgentSpec) (path : String) (model : ModelMeta)
    (settings : Settings) (port : UInt16) : LocalRunPlan where
  name := spec.name
  role := spec.role
  node := landing.node
  nodeName := landing.nodeName
  endpoint := endpointOf landing.host port
  bind := bindAddress landing.host
  authenticated := settings.serveApiKey.isSome
  serve := buildLlamaServer landing.plan model path "llama-server" (bindAddress landing.host) port
    settings.serveApiKey
  alreadyRunning := landing.info.isWarmFor model.name path

/-- `resolve_agent`. -/
def resolveAgent (spec : AgentSpec) (cluster : Cluster) (settings : Settings) (port : UInt16) :
    Except Error AgentRunPlan :=
  match spec.engine with
  | .cloud provider model =>
    match providerEndpoint provider with
    | none => .error (.unknownProvider provider)
    | some endpoint => .ok (.cloud spec.name spec.role provider model endpoint)
  | .local path model target =>
    match land spec.name model target cluster settings with
    | .error e => .error e
    | .ok landing => .ok (.local (landing.runPlan spec path model settings port))

/-! ## A list of agents -/

/-- `port.saturating_add(1)`. -/
def nextPort (port : UInt16) : UInt16 := if port = 65535 then port else port + 1

/-- `reuse_local`. -/
def reuseLocal (spec : AgentSpec) (existing : LocalRunPlan) : LocalRunPlan :=
  { existing with name := spec.name, role := spec.role, alreadyRunning := true }

/-- The loop of `resolve_agents`: the next port, the plans by node name and path, the answers, and
the ports handed out so far, each with whether it was for a new process. -/
structure Resolving where
  port : UInt16
  resident : List ((String × String) × LocalRunPlan)
  out : List (Except Error AgentRunPlan)
  assigned : List (UInt16 × Bool)

def resolveNext (cluster : Cluster) (settings : Settings) (state : Resolving) (spec : AgentSpec) :
    Resolving :=
  match resolveAgent spec cluster settings state.port, spec.engine with
  | .ok (.local plan), .local path _ _ =>
    match state.resident.lookup (plan.nodeName, path) with
    | some existing =>
      { state with out := state.out ++ [.ok (.local (reuseLocal spec existing))] }
    | none =>
      { port := if plan.alreadyRunning then state.port else nextPort state.port
        resident := ((plan.nodeName, path), plan) :: state.resident
        out := state.out ++ [.ok (.local plan)]
        assigned := state.assigned ++ [(state.port, !plan.alreadyRunning)] }
  | resolved, _ => { state with out := state.out ++ [resolved] }

/-- The loop over a list of agents. -/
def resolving (specs : List AgentSpec) (cluster : Cluster) (settings : Settings) : Resolving :=
  specs.foldl (resolveNext cluster settings) ⟨8100, [], [], []⟩

/-- `resolve_agents`. -/
def resolveAgents (specs : List AgentSpec) (cluster : Cluster) (settings : Settings) :
    List (Except Error AgentRunPlan) :=
  (resolving specs cluster settings).out

end Cameo.Placement
