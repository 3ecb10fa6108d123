import Cameo.DisplayedCommand
import Cameo.Placement.Agents

/-!
# The key of a server

A server that can be reached from other machines asks its clients for a key.  The key is handed to
it in its environment alone: a list of agents that is resolved with another key has the same plans,
up to that entry.  What can be read of a command does not depend on the key, though a key may happen
to be spelled like an argument.
-/

namespace Cameo.Placement

/-! ## Commands with a key -/

def keyEnv (key : Option String) : List (String × String) :=
  key.toList.map fun secret ↦ ("LLAMA_API_KEY", secret)

def withKey (key : String) (command : CommandSpec) : CommandSpec :=
  { command with secretEnv := keyEnv (some key) }

def Binds (command : CommandSpec) (host : String) : Prop :=
  ∃ before after, command.args = before ++ ["--host", host] ++ after ∧ before.length = 11

/-- A server binds to an address that only its machine reaches, or asks for the key; and the key, if
there is one, is in its secret environment. -/
structure FailClosed (command : CommandSpec) (bind : String) (key : Option String) : Prop where
  binds : Binds command bind
  guarded : isLoopback bind = true ∨ key.isSome = true
  secret : command.secretEnv = keyEnv key

theorem secretEnv_buildLlamaServer (plan : PlacementPlan) (model : ModelMeta)
    (modelPath binary host : String) (port : UInt16) (apiKey : Option String) :
    (buildLlamaServer plan model modelPath binary host port apiKey).secretEnv = keyEnv apiKey := by
  cases apiKey <;> rfl

theorem binds_buildLlamaServer (plan : PlacementPlan) (model : ModelMeta)
    (modelPath binary host : String) (port : UInt16) (apiKey : Option String) :
    Binds (buildLlamaServer plan model modelPath binary host port apiKey) host :=
  ⟨["-m", modelPath, "-c", _, "-np", _, "--cont-batching", "-b", _, "-ub", _], _,
    by simp only [buildLlamaServer, List.append_assoc, List.cons_append, List.nil_append]; rfl, rfl⟩

/-- A key is not displayed. -/
theorem display_withKey {command : CommandSpec} {key : String} (other : String)
    (h : command.secretEnv = keyEnv (some key)) :
    (withKey other command).display = command.display := by
  refine display_secretFree command ?_
  rw [h]
  rfl

/-! ## Agents -/

variable {cluster : Cluster} {settings : Settings}

def Settings.withKey (settings : Settings) (key : String) : Settings :=
  { settings with serveApiKey := some key }

def LocalRunPlan.withKey (key : String) (plan : LocalRunPlan) : LocalRunPlan :=
  { plan with serve := Placement.withKey key plan.serve }

def AgentRunPlan.withKey (key : String) : AgentRunPlan → AgentRunPlan
  | .cloud name role provider model endpoint => .cloud name role provider model endpoint
  | .local plan => .local (plan.withKey key)

theorem bindAddress_loopback {host : String} (h : isLoopback host = true) :
    isLoopback (bindAddress host) = true := by
  unfold bindAddress
  split
  · exact h
  · decide +kernel

/-- A landing is on a host that only its machine reaches, or there is a key. -/
theorem guarded_of_land {agent : String} {model : ModelMeta} {target : PlacementTarget}
    {landing : Landing} (h : land agent model target cluster settings = .ok landing) :
    isLoopback landing.host = true ∨ settings.serveApiKey.isSome = true := by
  unfold land at h
  split at h
  · cases h
  split at h
  · cases h
  split at h
  · cases h
  split at h
  · cases h
  · rename_i hopen
    cases h
    rw [Bool.and_eq_true, Bool.not_eq_true', not_and_or, Bool.not_eq_false] at hopen
    exact hopen.imp_right fun hkey ↦ Option.isSome_iff_ne_none.mpr (by simpa using hkey)

/-- A plan of an agent is fail-closed, and says so if there is a key. -/
def LocalRunPlan.Closed (plan : LocalRunPlan) (key : Option String) : Prop :=
  FailClosed plan.serve plan.bind key ∧ plan.authenticated = key.isSome

theorem closed_runPlan {spec : AgentSpec} {path : String} {model : ModelMeta}
    {target : PlacementTarget} {landing : Landing}
    (h : land spec.name model target cluster settings = .ok landing) (port : UInt16) :
    (landing.runPlan spec path model settings port).Closed settings.serveApiKey where
  left := {
    binds := binds_buildLlamaServer _ _ _ _ _ _ _
    guarded := (guarded_of_land h).imp_left bindAddress_loopback
    secret := secretEnv_buildLlamaServer _ _ _ _ _ _ _ }
  right := rfl

theorem closed_resolveAgent {spec : AgentSpec} {port : UInt16} {plan : LocalRunPlan}
    (h : resolveAgent spec cluster settings port = .ok (.local plan)) :
    plan.Closed settings.serveApiKey := by
  unfold resolveAgent at h
  split at h
  · split at h <;> cases h
  · split at h
    · cases h
    · rename_i hland
      cases h
      exact closed_runPlan hland port

/-- Landing asks whether there is a key, and not which. -/
theorem land_withKey {key : String} (hkey : settings.serveApiKey = some key) (other agent : String)
    (model : ModelMeta) (target : PlacementTarget) :
    land agent model target cluster (settings.withKey other) =
      land agent model target cluster settings := by
  have hchoose : chooseNode agent model target cluster (settings.withKey other) =
      chooseNode agent model target cluster settings := rfl
  unfold land
  rw [hchoose, hkey]
  rfl

/-- With another key, an agent is resolved to the same plan with that key. -/
theorem resolveAgent_withKey {key : String} (hkey : settings.serveApiKey = some key)
    (other : String) (spec : AgentSpec) (port : UInt16) :
    resolveAgent spec cluster (settings.withKey other) port =
      (resolveAgent spec cluster settings port).map (AgentRunPlan.withKey other) := by
  unfold resolveAgent
  cases spec.engine with
  | cloud provider model =>
    dsimp only
    split <;> rfl
  | «local» path model target =>
    dsimp only
    rw [land_withKey hkey]
    split
    · rfl
    · rename_i landing _
      simp only [Landing.runPlan, hkey, Except.map, AgentRunPlan.withKey, LocalRunPlan.withKey]
      rfl

/-! ## A list of agents -/

def Resolving.withKey (key : String) (state : Resolving) : Resolving where
  port := state.port
  resident := state.resident.map fun entry ↦ (entry.1, entry.2.withKey key)
  out := state.out.map (Except.map (AgentRunPlan.withKey key))
  assigned := state.assigned

theorem lookup_map_withKey (key : String) (nodeAndPath : String × String)
    (resident : List ((String × String) × LocalRunPlan)) :
    (resident.map fun entry ↦ (entry.1, entry.2.withKey key)).lookup nodeAndPath =
      (resident.lookup nodeAndPath).map (LocalRunPlan.withKey key) := by
  induction resident with
  | nil => rfl
  | cons entry rest ih =>
    rw [List.map_cons, List.lookup_cons, List.lookup_cons, ih]
    split <;> rfl

theorem resolveNext_withKey {key : String} (hkey : settings.serveApiKey = some key)
    (other : String) (state : Resolving) (spec : AgentSpec) :
    resolveNext cluster (settings.withKey other) (state.withKey other) spec =
      (resolveNext cluster settings state spec).withKey other := by
  have hagent : resolveAgent spec cluster (settings.withKey other) state.port =
      (resolveAgent spec cluster settings state.port).map (AgentRunPlan.withKey other) :=
    resolveAgent_withKey hkey other spec state.port
  have hport : (state.withKey other).port = state.port := rfl
  unfold resolveNext
  rw [hport, hagent]
  cases resolveAgent spec cluster settings state.port with
  | error e => simp [Resolving.withKey, Except.map]
  | ok made =>
    cases made with
    | cloud name role provider model endpoint =>
      simp [Resolving.withKey, Except.map, AgentRunPlan.withKey]
    | «local» plan =>
      cases spec.engine with
      | cloud provider model => simp [Resolving.withKey, Except.map, AgentRunPlan.withKey]
      | «local» path model target =>
        have hname : (plan.withKey other).nodeName = plan.nodeName := rfl
        have hresident : (state.withKey other).resident =
            state.resident.map fun entry ↦ (entry.1, entry.2.withKey other) := rfl
        simp only [Except.map, AgentRunPlan.withKey]
        rw [hname, hresident, lookup_map_withKey]
        cases state.resident.lookup (plan.nodeName, path) with
        | none =>
          simp [Resolving.withKey, Except.map, AgentRunPlan.withKey, LocalRunPlan.withKey]
          rfl
        | some existing =>
          simp [Resolving.withKey, Except.map, AgentRunPlan.withKey, LocalRunPlan.withKey,
            reuseLocal]

/-- With another key, a list of agents is resolved to the same plans with that key. -/
theorem resolveAgents_withKey {key : String} (hkey : settings.serveApiKey = some key)
    (other : String) (specs : List AgentSpec) :
    resolveAgents specs cluster (settings.withKey other) =
      (resolveAgents specs cluster settings).map (Except.map (AgentRunPlan.withKey other)) := by
  have hrun (state : Resolving) :
      specs.foldl (resolveNext cluster (settings.withKey other)) (state.withKey other) =
        (specs.foldl (resolveNext cluster settings) state).withKey other := by
    induction specs generalizing state with
    | nil => rfl
    | cons spec rest ih => rw [List.foldl_cons, resolveNext_withKey hkey, ih, List.foldl_cons]
  have hstart : (⟨8100, [], [], []⟩ : Resolving) = Resolving.withKey other ⟨8100, [], [], []⟩ := rfl
  unfold resolveAgents resolving
  rw [hstart, hrun]
  rfl

/-- Every plan that the loop has made is fail-closed. -/
structure Resolving.Closed (state : Resolving) (key : Option String) : Prop where
  resident : ∀ entry ∈ state.resident, entry.2.Closed key
  out : ∀ plan, .ok (.local plan) ∈ state.out → plan.Closed key

theorem closed_resolveNext {state : Resolving} (h : state.Closed settings.serveApiKey)
    (spec : AgentSpec) : (resolveNext cluster settings state spec).Closed settings.serveApiKey := by
  have hout (answer : Except Error AgentRunPlan)
      (hanswer : ∀ plan, answer = .ok (.local plan) → plan.Closed settings.serveApiKey)
      (plan : LocalRunPlan) (hmem : .ok (.local plan) ∈ state.out ++ [answer]) :
      plan.Closed settings.serveApiKey := by
    rcases List.mem_append.mp hmem with hmem | hmem
    · exact h.out plan hmem
    · exact hanswer plan (List.mem_singleton.mp hmem).symm
  unfold resolveNext
  split
  · rename_i plan path _ _ hresolved _
    have hplan := closed_resolveAgent hresolved
    split
    · rename_i existing hlookup
      have hexisting : existing.Closed settings.serveApiKey := by
        obtain ⟨before, after, hentries, -⟩ := List.lookup_eq_some_iff.mp hlookup
        refine h.resident ((plan.nodeName, path), existing) ?_
        rw [hentries]
        exact List.mem_append_right before List.mem_cons_self
      refine ⟨h.resident, hout _ ?_⟩
      rintro reused ⟨⟩
      exact hexisting
    · refine ⟨?_, hout _ ?_⟩
      · intro entry hentry
        rcases List.mem_cons.mp hentry with rfl | hentry
        · exact hplan
        · exact h.resident entry hentry
      · rintro made ⟨⟩
        exact hplan
  · exact ⟨h.resident, hout _ fun plan hresolved ↦ closed_resolveAgent hresolved⟩

/-- Every local plan of a list of agents is fail-closed. -/
theorem closed_resolveAgents {specs : List AgentSpec} {plan : LocalRunPlan}
    (h : .ok (.local plan) ∈ resolveAgents specs cluster settings) :
    plan.Closed settings.serveApiKey := by
  have hrun (specs : List AgentSpec) (state : Resolving)
      (hstate : state.Closed settings.serveApiKey) :
      (specs.foldl (resolveNext cluster settings) state).Closed settings.serveApiKey := by
    induction specs generalizing state with
    | nil => exact hstate
    | cons spec rest ih => exact ih _ (closed_resolveNext hstate spec)
  exact (hrun specs ⟨8100, [], [], []⟩ ⟨nofun, nofun⟩).out plan h

end Cameo.Placement
