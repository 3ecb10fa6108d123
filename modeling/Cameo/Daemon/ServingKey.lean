import Cameo.Daemon.Planning
import Cameo.Placement.FleetFit
import Cameo.Placement.ServingKey

/-!
# Fail-closed serving

The daemon refuses to serve on a host that other machines reach unless it has a key.  What it goes
on to start is fail-closed, as the plans of the agents are: the check is made of the host that the
server binds to, and the key only reaches the secret environment of the command.
-/

namespace Cameo.Daemon

open Json Library Store Supervisor Cameo.Placement

/-! ## The servers of the daemon -/

/-- The answers during a start, with those that the request's host and planning give. -/
def ServeIo.serving (io : ServeIo) (facts : PlanIo) (body : ModelRequest) : ServeIo :=
  { io.planning facts body with loopback := isLoopback body.host }

def PlanIo.withKey (facts : PlanIo) (key : String) : PlanIo :=
  { facts with settings := facts.settings.withKey key }

def withStartKey (key : String) (req : StartRequest) : StartRequest :=
  { req with command := withKey key req.command }

/-- The supervisor is asked for a start, and its answer becomes the response. -/
def handedOn (codec : Codec) (io : StartIo) (sup : Supervisor) (req : StartRequest) :
    Outcome Response :=
  let started := sup.start codec req io
  ⟨startResponse started.result, started.sup, started.spawns⟩

variable {codec : Codec}

/-- A request is planned for another key exactly as for the one there is, up to the key. -/
theorem planned_withKey {facts : PlanIo} {key : String}
    (hkey : facts.settings.serveApiKey = some key) (other : String) (body : ModelRequest) :
    planned (facts.withKey other) body = (planned facts body).map fun placement ↦
      { placement with command := withKey other placement.command } := by
  have hmodel : plannedModel (facts.withKey other) body = plannedModel facts body := rfl
  have hsettings : (settingsFor (facts.withKey other) body).serveApiKey = some other := rfl
  have hsame : (settingsFor facts body).serveApiKey = some key := hkey
  have hplan (topo : Topology) (assessments : List TierAssessment) :
      plan topo assessments (plannedModel facts body) .inference
          (settingsFor (facts.withKey other) body) =
        plan topo assessments (plannedModel facts body) .inference (settingsFor facts body) := rfl
  have hdetect : (facts.withKey other).detect = facts.detect := rfl
  unfold planned planFor
  rw [hmodel, hdetect]
  cases facts.detect with
  | error response => rfl
  | ok topo =>
    dsimp only
    rw [hplan, hsettings, hsame]
    cases plan topo (classifyTopology topo embeddedOverrides) (plannedModel facts body) .inference
        (settingsFor facts body) with
    | error e => rfl
    | ok made => rfl

/-- The server is on a host that only its machine reaches, or has a key. -/
def Guarded (facts : PlanIo) (body : ModelRequest) : Prop :=
  isLoopback body.host = true ∨ facts.settings.serveApiKey.isSome = true

theorem guarded_iff {facts : PlanIo} {body : ModelRequest} : Guarded facts body ↔
    ¬ (!isLoopback body.host && facts.settings.serveApiKey.isNone) = true := by
  rw [Bool.and_eq_true, Bool.not_eq_true', not_and_or, Bool.not_eq_false,
    Option.isNone_iff_eq_none, ← ne_eq, ← Option.isSome_iff_ne_none, Guarded]

theorem failClosed_planned {facts : PlanIo} {body : ModelRequest} {placement : Placement}
    (h : planned facts body = .ok placement) (hguarded : Guarded facts body) :
    FailClosed placement.command body.host facts.settings.serveApiKey := by
  unfold planned planFor at h
  cases hdetect : facts.detect with
  | error response =>
    rw [hdetect] at h
    cases h
  | ok topo =>
    rw [hdetect] at h
    dsimp only at h
    split at h
    · cases h
    · rename_i hplanned
      cases h
      split at hplanned
      · cases hplanned
      · cases hplanned
        exact ⟨binds_buildLlamaServer _ _ _ _ _ _ _, hguarded,
          secretEnv_buildLlamaServer _ _ _ _ _ _ _⟩

/-- What the daemon goes on to do for a guarded request. -/
theorem startServerInner_serving (io : ServeIo) {facts : PlanIo} {body : ModelRequest}
    (h : Guarded facts body) (allowEvict : Bool) (attempts : ℕ) (sup : Supervisor) :
    startServerInner codec (io.serving facts body) body allowEvict attempts sup =
      match facts.resolve with
      | .error e => ⟨.error 400 e, sup, []⟩
      | .ok _ =>
        match io.fileSha256 with
        | .error _ => ⟨.error 400
            "model integrity check failed; verify the model file before starting", sup, []⟩
        | .ok digest =>
          if (body.modelSha256.any fun expected ↦ !eqIgnoreAsciiCase expected digest) ||
              io.curated.any fun pinned ↦ !eqIgnoreAsciiCase pinned digest then
            ⟨.error 409 ("model digest differs from the pinned artifact; restore the verified " ++
              "model before starting"), sup, []⟩
          else
            match planned facts body with
            | .error response => ⟨response, sup, []⟩
            | .ok placement => handedOn codec io.start sup (startRequest
                { body with modelSha256 := some digest } placement allowEvict attempts) :=
  if_neg (guarded_iff.mp h)

/-- The daemon refuses a request, or hands on a start that is fail-closed; with another key it hands
on the same start with that key. -/
theorem startServerInner_failClosed (io : ServeIo) (facts : PlanIo) (body : ModelRequest)
    (allowEvict : Bool) (attempts : ℕ) (sup : Supervisor) :
    (∃ response, startServerInner codec (io.serving facts body) body allowEvict attempts sup =
      ⟨response, sup, []⟩) ∨
    ∃ req, startServerInner codec (io.serving facts body) body allowEvict attempts sup =
        handedOn codec io.start sup req ∧
      FailClosed req.command body.host facts.settings.serveApiKey ∧
      ∀ key other, facts.settings.serveApiKey = some key →
        startServerInner codec (io.serving (facts.withKey other) body) body allowEvict attempts
            sup = handedOn codec io.start sup (withStartKey other req) ∧
          (withStartKey other req).command.display = req.command.display := by
  by_cases hopen : (!isLoopback body.host && facts.settings.serveApiKey.isNone) = true
  · exact .inl ⟨_, if_pos hopen⟩
  have hguarded : Guarded facts body := guarded_iff.mpr hopen
  have hother (other : String) : Guarded (facts.withKey other) body := .inr rfl
  rw [startServerInner_serving io hguarded]
  have hresolve (other : String) : (facts.withKey other).resolve = facts.resolve := rfl
  cases hpath : facts.resolve with
  | error e => exact .inl ⟨_, rfl⟩
  | ok path =>
    cases hdigest : io.fileSha256 with
    | error e => exact .inl ⟨_, rfl⟩
    | ok digest =>
      dsimp only
      split
      · exact .inl ⟨_, rfl⟩
      rename_i hpinned
      cases hplan : planned facts body with
      | error response => exact .inl ⟨_, rfl⟩
      | ok placement =>
        have hclosed := failClosed_planned hplan hguarded
        refine .inr ⟨_, rfl, hclosed, fun key other hkey ↦ ⟨?_, ?_⟩⟩
        · rw [startServerInner_serving io (hother other), hresolve, hpath, hdigest,
            planned_withKey hkey, hplan]
          dsimp only
          rw [if_neg hpinned]
          rfl
        · exact display_withKey other (hclosed.secret.trans (congrArg keyEnv hkey))

/-! ## Agents and servers -/

/-- Every local plan of a list of agents, and every start that the daemon hands on, is fail-closed:
it binds to an address that only its machine reaches, or asks for the key, which is in its secret
environment alone.  Under any other key both are the same up to the key, and display alike. -/
theorem serving_failClosed (specs : List AgentSpec) (cluster : Cluster) (settings : Settings)
    (codec : Codec) (io : ServeIo) (facts : PlanIo) (body : ModelRequest) (allowEvict : Bool)
    (attempts : ℕ) (sup : Supervisor) :
    (∀ (i : ℕ) plan, (resolveAgents specs cluster settings)[i]? = some (.ok (.local plan)) →
      plan.Closed settings.serveApiKey ∧
        ∀ key other, settings.serveApiKey = some key →
          (resolveAgents specs cluster (settings.withKey other))[i]? =
              some (.ok (.local (plan.withKey other))) ∧
            (plan.withKey other).serve.display = plan.serve.display) ∧
      ((∃ response, startServerInner codec (io.serving facts body) body allowEvict attempts sup =
          ⟨response, sup, []⟩) ∨
        ∃ req, startServerInner codec (io.serving facts body) body allowEvict attempts sup =
            handedOn codec io.start sup req ∧
          FailClosed req.command body.host facts.settings.serveApiKey ∧
          ∀ key other, facts.settings.serveApiKey = some key →
            startServerInner codec (io.serving (facts.withKey other) body) body allowEvict attempts
                sup = handedOn codec io.start sup (withStartKey other req) ∧
              (withStartKey other req).command.display = req.command.display) := by
  refine ⟨?_, startServerInner_failClosed io facts body allowEvict attempts sup⟩
  intro i plan hplan
  have hclosed := closed_resolveAgents (List.mem_of_getElem? hplan)
  refine ⟨hclosed, fun key other hkey ↦ ⟨?_, ?_⟩⟩
  · rw [resolveAgents_withKey hkey, List.getElem?_map, hplan]
    rfl
  · exact display_withKey other (hclosed.1.secret.trans (congrArg keyEnv hkey))

/-- An agent is served to other machines, and a text is among the arguments of its server. -/
def hasArgument (text : String) : Except Error AgentRunPlan → Bool
  | .ok (.local plan) => !isLoopback plan.bind && plan.serve.args.contains text
  | _ => false

/-- A key may be spelled like an argument: here it is the port. -/
theorem key_spelled_like_argument :
    ¬ (∀ specs cluster (settings : Settings) (plan : LocalRunPlan),
      .ok (.local plan) ∈ resolveAgents specs cluster settings →
        isLoopback plan.bind = true ∨ ∃ key, settings.serveApiKey = some key ∧
          plan.serve.secretEnv = keyEnv (some key) ∧ key ∉ plan.serve.args) := by
  intro h
  have hagent : ((resolveAgents [⟨"coder", "coder", .local "m.gguf" slimModel .auto⟩]
      (deskFleet 0) ⟨none, none, none, some "8100"⟩).any (hasArgument "8100")) = true := by
    decide +kernel
  obtain ⟨answer, hmem, hanswer⟩ := List.any_eq_true.mp hagent
  cases answer with
  | error e => cases hanswer
  | ok made =>
    cases made with
    | cloud name role provider model endpoint => cases hanswer
    | «local» plan =>
      obtain ⟨hopen, harg⟩ := Bool.and_eq_true_iff.mp hanswer
      rcases h _ _ _ plan hmem with hloopback | ⟨key, hkey, -, habsent⟩
      · rw [hloopback] at hopen
        cases hopen
      · obtain rfl := Option.some.inj hkey
        exact habsent (List.contains_iff_mem.mp harg)

end Cameo.Daemon
