import Cameo.Placement.Agents

/-!
# The ports of agents

An agent *arrives* when it is the first to land on a node, by name, with a model path; every later
agent of that node and path shares the first one's endpoint.  The arrivals do not depend on the
ports, and the port of an arrival is the first port plus the number of cold arrivals before it, as
long as that is a port.  A warm arrival takes the next port without using it up, so the next arrival
on its node gets the endpoint of a process that serves another model.
-/

namespace Cameo.Placement

/-! ## Arrivals -/

/-- The first agent on a node with a model path: whether a process is started for it. -/
structure Arrival where
  key : String × String
  node : ℕ
  host : String
  cold : Bool
deriving DecidableEq

/-- What a local agent that lands would arrive as. -/
def arrivalOf (cluster : Cluster) (settings : Settings) (spec : AgentSpec) : Option Arrival :=
  match spec.engine with
  | .cloud _ _ => none
  | .local path model target =>
    match land spec.name model target cluster settings with
    | .error _ => none
    | .ok landing => some ⟨(landing.nodeName, path), landing.node, landing.host,
        !landing.info.isWarmFor model.name path⟩

/-- An agent arrives, unless one of its node and path has. -/
def arrive (cluster : Cluster) (settings : Settings) (arrivals : List Arrival) (spec : AgentSpec) :
    List Arrival :=
  match arrivalOf cluster settings spec with
  | none => arrivals
  | some arrival =>
    if arrivals.any fun earlier ↦ earlier.key = arrival.key then arrivals
    else arrivals ++ [arrival]

/-- The arrivals of a list of agents, in order. -/
def arrivalsOf (specs : List AgentSpec) (cluster : Cluster) (settings : Settings) : List Arrival :=
  specs.foldl (arrive cluster settings) []

/-- The cold arrivals before a position. -/
def coldBefore (arrivals : List Arrival) (n : ℕ) : ℕ := (arrivals.take n).countP Arrival.cold

def portAt (arrivals : List Arrival) (n : ℕ) : UInt16 :=
  .ofNat (min (8100 + coldBefore arrivals n) 65535)

section Counting

variable (arrivals : List Arrival)

theorem coldBefore_succ (n : ℕ) : coldBefore arrivals (n + 1) =
    coldBefore arrivals n + if arrivals[n]?.any Arrival.cold then 1 else 0 := by
  rw [coldBefore, List.take_add_one, List.countP_append, coldBefore]
  cases arrivals[n]? with
  | none => simp
  | some arrival => cases hcold : arrival.cold <;> simp [hcold]

theorem coldBefore_le {n m : ℕ} (h : n ≤ m) : coldBefore arrivals n ≤ coldBefore arrivals m := by
  induction h with
  | refl => exact le_rfl
  | step _ ih =>
    rw [coldBefore_succ]
    omega

/-- Between two positions with different counts there is a cold arrival. -/
theorem exists_cold_of_lt {n m : ℕ} (hle : n ≤ m)
    (h : coldBefore arrivals n < coldBefore arrivals m) :
    ∃ k arrival, n ≤ k ∧ k < m ∧ arrivals[k]? = some arrival ∧ arrival.cold = true ∧
      coldBefore arrivals k + 1 = coldBefore arrivals m := by
  induction hle with
  | refl => omega
  | step hle ih =>
    rename_i m
    rw [coldBefore_succ] at h ⊢
    cases hcold : arrivals[m]?.any Arrival.cold with
    | true =>
      obtain ⟨arrival, hget, hcold⟩ := (Option.any_eq_true _ _).mp hcold
      exact ⟨m, arrival, hle, Nat.lt_succ_self m, hget, hcold, rfl⟩
    | false =>
      rw [hcold] at h
      obtain ⟨k, arrival, hnk, hkm, hget, hisCold, hcount⟩ := ih (by simpa using h)
      exact ⟨k, arrival, hnk, Nat.lt_succ_of_lt hkm, hget, hisCold, by simpa using hcount⟩

/-- A cold arrival counts from the next position on. -/
theorem coldBefore_lt {k m : ℕ} {arrival : Arrival} (hlt : k < m)
    (hget : arrivals[k]? = some arrival) (hcold : arrival.cold = true) :
    coldBefore arrivals k < coldBefore arrivals m := by
  have hsucc : coldBefore arrivals (k + 1) = coldBefore arrivals k + 1 := by
    rw [coldBefore_succ, hget]
    simp [hcold]
  have hle : coldBefore arrivals (k + 1) ≤ coldBefore arrivals m := coldBefore_le arrivals hlt
  omega

theorem coldBefore_append {n : ℕ} (late : List Arrival) (h : n ≤ arrivals.length) :
    coldBefore (arrivals ++ late) n = coldBefore arrivals n := by
  rw [coldBefore, List.take_append_of_le_length h, coldBefore]

theorem portAt_append {n : ℕ} (late : List Arrival) (h : n ≤ arrivals.length) :
    portAt (arrivals ++ late) n = portAt arrivals n := by
  rw [portAt, coldBefore_append arrivals late h, portAt]

theorem toNat_portAt (n : ℕ) :
    (portAt arrivals n).toNat = min (8100 + coldBefore arrivals n) 65535 := by
  rw [portAt, UInt16.toNat_ofNat']
  omega

end Counting

theorem toNat_nextPort (port : UInt16) : (nextPort port).toNat = min (port.toNat + 1) 65535 := by
  have hlt := port.toNat_lt
  unfold nextPort
  split
  · rename_i hmax
    rw [hmax]
    rfl
  · rename_i hmax
    have hne : port.toNat ≠ 65535 := fun h ↦ hmax (UInt16.toNat_inj.mp h)
    rw [UInt16.toNat_add, UInt16.toNat_one]
    omega

/-- The counter after an arrival. -/
theorem nextPort_portAt (arrivals : List Arrival) (arrival : Arrival) :
    portAt (arrivals ++ [arrival]) (arrivals.length + 1) =
      if arrival.cold then nextPort (portAt arrivals arrivals.length)
      else portAt arrivals arrivals.length := by
  have hcount : coldBefore (arrivals ++ [arrival]) (arrivals.length + 1) =
      coldBefore arrivals arrivals.length + if arrival.cold then 1 else 0 := by
    rw [coldBefore_succ, coldBefore_append arrivals [arrival] le_rfl]
    simp
  apply UInt16.toNat_inj.mp
  rw [toNat_portAt, hcount]
  cases arrival.cold with
  | true =>
    simp only [if_true]
    rw [toNat_nextPort, toNat_portAt]
    omega
  | false =>
    simp only [Bool.false_eq_true, if_false]
    rw [toNat_portAt, Nat.add_zero]

/-- Endpoints of one host differ as their ports do. -/
theorem endpointOf_inj {host : String} {port other : UInt16}
    (h : endpointOf host port = endpointOf host other) : port = other := by
  unfold endpointOf at h
  exact UInt16.toNat_inj.mp (decimal_inj ((String.append_right_inj _).mp h))

/-! ## The loop -/

/-- An agent whose engine is a local model at a path, with the plan it got. -/
def LocalAnswer (pair : AgentSpec × Except Error AgentRunPlan) (path : String)
    (plan : LocalRunPlan) : Prop :=
  (∃ model target, pair.1.engine = .local path model target) ∧ pair.2 = .ok (.local plan)

/-- A plan has the node and the endpoint of the arrival at a position, and its key. -/
def ServedAt (arrivals : List Arrival) (n : ℕ) (key : String × String) (plan : LocalRunPlan) :
    Prop :=
  ∃ arrival, arrivals[n]? = some arrival ∧ arrival.key = key ∧ plan.nodeName = key.1 ∧
    plan.node = arrival.node ∧ plan.endpoint = endpointOf arrival.host (portAt arrivals n)

theorem ServedAt.append {arrivals : List Arrival} {n : ℕ} {key : String × String}
    {plan : LocalRunPlan} (h : ServedAt arrivals n key plan) (late : List Arrival) :
    ServedAt (arrivals ++ late) n key plan := by
  obtain ⟨arrival, hget, hkey, hname, hnode, hendpoint⟩ := h
  have hlt : n < arrivals.length := (List.getElem?_eq_some_iff.mp hget).1
  refine ⟨arrival, ?_, hkey, hname, hnode, ?_⟩
  · rw [List.getElem?_append_left hlt, hget]
  · rw [portAt_append arrivals late hlt.le, hendpoint]

/-- The state of the loop after some agents, against their arrivals. -/
structure Tracks (done : List AgentSpec) (state : Resolving) (arrivals : List Arrival) : Prop where
  length : state.out.length = done.length
  port : state.port = portAt arrivals arrivals.length
  assigned : ∀ n, state.assigned[n]? =
    arrivals[n]?.map fun arrival ↦ (portAt arrivals n, arrival.cold)
  resident : ∀ key plan, state.resident.lookup key = some plan →
    ∃ n, ServedAt arrivals n key plan
  absent : ∀ key, state.resident.lookup key = none → ∀ arrival ∈ arrivals, arrival.key ≠ key
  answers : ∀ pair ∈ done.zip state.out, ∀ path plan, LocalAnswer pair path plan →
    ∃ n, ServedAt arrivals n (plan.nodeName, path) plan
  covered : ∀ n, n < arrivals.length → ∃ pair ∈ done.zip state.out, ∃ path plan,
    LocalAnswer pair path plan ∧ ServedAt arrivals n (plan.nodeName, path) plan
  keys : (arrivals.map Arrival.key).Nodup

theorem tracks_nil : Tracks [] ⟨8100, [], [], []⟩ [] where
  length := rfl
  port := rfl
  assigned := fun _ ↦ rfl
  resident := nofun
  absent := fun _ _ _ hmem ↦ absurd hmem List.not_mem_nil
  answers := fun _ hmem ↦ absurd hmem List.not_mem_nil
  covered := fun _ hlt ↦ absurd hlt (Nat.not_lt_zero _)
  keys := List.nodup_nil

variable {cluster : Cluster} {settings : Settings}

section LocalEngine

variable {spec : AgentSpec} {path : String} {model : ModelMeta} {target : PlacementTarget}

theorem resolveAgent_local (h : spec.engine = .local path model target) (port : UInt16) :
    resolveAgent spec cluster settings port =
      (land spec.name model target cluster settings).map fun landing ↦
        .local (landing.runPlan spec path model settings port) := by
  unfold resolveAgent
  rw [h]
  dsimp only
  cases land spec.name model target cluster settings <;> rfl

theorem arrivalOf_local (h : spec.engine = .local path model target) :
    arrivalOf cluster settings spec =
      (land spec.name model target cluster settings).toOption.map fun landing ↦
        ⟨(landing.nodeName, path), landing.node, landing.host,
          !landing.info.isWarmFor model.name path⟩ := by
  unfold arrivalOf
  rw [h]
  dsimp only
  cases land spec.name model target cluster settings <;> rfl

end LocalEngine

/-- An agent that does not land gets an answer that is no local plan; one that lands gets the plan
of its node and path, or a new one on the next port. -/
theorem resolveNext_cases (state : Resolving) (spec : AgentSpec) :
    (arrivalOf cluster settings spec = none ∧ ∃ answer,
        (∀ path plan, ¬ LocalAnswer (spec, answer) path plan) ∧
        resolveNext cluster settings state spec =
          { state with out := state.out ++ [answer] }) ∨
      ∃ path plan arrival, LocalAnswer (spec, .ok (.local plan)) path plan ∧
        arrivalOf cluster settings spec = some arrival ∧
        arrival.key = (plan.nodeName, path) ∧ plan.node = arrival.node ∧
        plan.endpoint = endpointOf arrival.host state.port ∧
        ((∃ existing, state.resident.lookup arrival.key = some existing ∧
            resolveNext cluster settings state spec =
              { state with out := state.out ++ [.ok (.local (reuseLocal spec existing))] }) ∨
          (state.resident.lookup arrival.key = none ∧
            resolveNext cluster settings state spec =
              { port := if arrival.cold then nextPort state.port else state.port
                resident := (arrival.key, plan) :: state.resident
                out := state.out ++ [.ok (.local plan)]
                assigned := state.assigned ++ [(state.port, arrival.cold)] })) := by
  cases hengine : spec.engine with
  | cloud provider model =>
    refine .inl ⟨by rw [arrivalOf, hengine], resolveAgent spec cluster settings state.port, ?_, ?_⟩
    · rintro path plan ⟨⟨other, target, hlocal⟩, -⟩
      cases hengine.symm.trans hlocal
    · unfold resolveNext
      split
      · rename_i plan _ _ _ _ hlocal
        cases hengine.symm.trans hlocal
      · rfl
  | «local» path model target =>
    cases hland : land spec.name model target cluster settings with
    | error e =>
      have hresolved : resolveAgent spec cluster settings state.port = .error e := by
        rw [resolveAgent_local hengine, hland]
        rfl
      refine .inl ⟨by rw [arrivalOf_local hengine, hland]; rfl, .error e, ?_, ?_⟩
      · rintro _ plan ⟨-, hanswer⟩
        cases hanswer
      · rw [resolveNext, hresolved]
    | ok landing =>
      have hresolved : resolveAgent spec cluster settings state.port =
          .ok (.local (landing.runPlan spec path model settings state.port)) := by
        rw [resolveAgent_local hengine, hland]
        rfl
      refine .inr ⟨path, landing.runPlan spec path model settings state.port,
        ⟨(landing.nodeName, path), landing.node, landing.host,
          !landing.info.isWarmFor model.name path⟩,
        ⟨⟨model, target, hengine⟩, rfl⟩, by rw [arrivalOf_local hengine, hland]; rfl, rfl, rfl, rfl,
        ?_⟩
      unfold resolveNext
      rw [hresolved, hengine]
      dsimp only [Landing.runPlan]
      cases hlookup : state.resident.lookup (landing.nodeName, path) with
      | some existing => exact .inl ⟨existing, rfl, rfl⟩
      | none =>
        refine .inr ⟨rfl, ?_⟩
        cases landing.info.isWarmFor model.name path <;> rfl

theorem LocalAnswer.unique {pair : AgentSpec × Except Error AgentRunPlan} {path other : String}
    {plan otherPlan : LocalRunPlan} (h : LocalAnswer pair path plan)
    (hother : LocalAnswer pair other otherPlan) : path = other ∧ plan = otherPlan := by
  obtain ⟨⟨model, target, hengine⟩, hanswer⟩ := h
  obtain ⟨⟨otherModel, otherTarget, hotherEngine⟩, hotherAnswer⟩ := hother
  obtain ⟨hpath, -, -⟩ := EngineBinding.local.inj (hengine.symm.trans hotherEngine)
  cases hanswer.symm.trans hotherAnswer
  exact ⟨hpath, rfl⟩

/-- As many ports have been handed out as there are arrivals. -/
theorem Tracks.assigned_length {done : List AgentSpec} {state : Resolving}
    {arrivals : List Arrival} (h : Tracks done state arrivals) :
    state.assigned.length = arrivals.length := by
  apply le_antisymm
  · apply List.getElem?_eq_none_iff.mp
    rw [h.assigned, List.getElem?_eq_none le_rfl, Option.map_none]
  · apply List.getElem?_eq_none_iff.mp
    have hnone := h.assigned state.assigned.length
    rw [List.getElem?_eq_none le_rfl] at hnone
    exact Option.map_eq_none_iff.mp hnone.symm

section Answers

variable {done : List AgentSpec} {state : Resolving} {arrivals : List Arrival}

theorem Tracks.zip_append (h : Tracks done state arrivals) (spec : AgentSpec)
    (answer : Except Error AgentRunPlan) : (done ++ [spec]).zip (state.out ++ [answer]) =
      done.zip state.out ++ [(spec, answer)] :=
  List.zip_append h.length.symm

/-- An answer that hands out no port. -/
theorem Tracks.answer (h : Tracks done state arrivals) {spec : AgentSpec}
    {answer : Except Error AgentRunPlan}
    (hanswer : ∀ path plan, LocalAnswer (spec, answer) path plan →
      ∃ n, ServedAt arrivals n (plan.nodeName, path) plan) :
    Tracks (done ++ [spec]) { state with out := state.out ++ [answer] } arrivals := by
  exact {
    h with
    length := by simp [h.length]
    answers := by
      intro pair hpair
      rw [h.zip_append] at hpair
      rcases List.mem_append.mp hpair with hold | hnew
      · exact h.answers pair hold
      · rw [List.mem_singleton.mp hnew]
        exact hanswer
    covered := by
      intro n hlt
      obtain ⟨pair, hpair, hserved⟩ := h.covered n hlt
      refine ⟨pair, ?_, hserved⟩
      rw [h.zip_append]
      exact List.mem_append_left _ hpair }

/-- The ports handed out after an arrival. -/
theorem Tracks.assigned_append (h : Tracks done state arrivals) (arrival : Arrival) (n : ℕ) :
    (state.assigned ++ [(state.port, arrival.cold)])[n]? =
      (arrivals ++ [arrival])[n]?.map fun found ↦
        (portAt (arrivals ++ [arrival]) n, found.cold) := by
  have hassigned : state.assigned.length = arrivals.length := h.assigned_length
  rcases Nat.lt_or_ge n arrivals.length with hlt | hge
  · rw [List.getElem?_append_left (hassigned ▸ hlt), List.getElem?_append_left hlt, h.assigned,
      portAt_append arrivals [arrival] hlt.le]
  · rw [List.getElem?_append_right (hassigned ▸ hge), List.getElem?_append_right hge, hassigned]
    cases hoff : n - arrivals.length with
    | zero =>
      obtain rfl : n = arrivals.length := by omega
      rw [portAt_append arrivals [arrival] le_rfl, ← h.port]
      rfl
    | succ k => rfl

/-- A lookup after an arrival finds its plan, or what it has found before. -/
theorem lookup_arrival (resident : List ((String × String) × LocalRunPlan))
    (key other : String × String) (plan : LocalRunPlan) :
    ((other, plan) :: resident).lookup key =
      if key = other then some plan else resident.lookup key := by
  rw [List.lookup_cons]
  by_cases hsame : key = other
  · rw [if_pos hsame, beq_iff_eq.mpr hsame]
  · rw [if_neg hsame, beq_eq_false_iff_ne.mpr hsame]

/-- An arrival, on the next port. -/
theorem Tracks.arrival (h : Tracks done state arrivals) {spec : AgentSpec} {path : String}
    {plan : LocalRunPlan} {arrival : Arrival}
    (hanswer : LocalAnswer (spec, .ok (.local plan)) path plan)
    (hkey : arrival.key = (plan.nodeName, path)) (hnode : plan.node = arrival.node)
    (hendpoint : plan.endpoint = endpointOf arrival.host state.port)
    (hnew : state.resident.lookup arrival.key = none) :
    Tracks (done ++ [spec])
      { port := if arrival.cold then nextPort state.port else state.port
        resident := (arrival.key, plan) :: state.resident
        out := state.out ++ [.ok (.local plan)]
        assigned := state.assigned ++ [(state.port, arrival.cold)] }
      (arrivals ++ [arrival]) := by
  have hserved : ServedAt (arrivals ++ [arrival]) arrivals.length arrival.key plan := by
    refine ⟨arrival, List.getElem?_concat_length, rfl, ?_, hnode, ?_⟩
    · rw [hkey]
    · rw [portAt_append arrivals [arrival] le_rfl, ← h.port, hendpoint]
  constructor
  case length => simp [h.length]
  case port =>
    rw [List.length_append, List.length_singleton, nextPort_portAt, h.port]
  case assigned => exact h.assigned_append arrival
  case resident =>
    intro key other hlookup
    rw [lookup_arrival] at hlookup
    split at hlookup
    · rename_i hsame
      obtain rfl := Option.some.inj hlookup
      exact ⟨arrivals.length, hsame ▸ hserved⟩
    · obtain ⟨n, hn⟩ := h.resident key other hlookup
      exact ⟨n, hn.append _⟩
  case absent =>
    intro key hlookup other hother
    rw [lookup_arrival] at hlookup
    split at hlookup
    · cases hlookup
    · rename_i hne
      rcases List.mem_append.mp hother with hold | hlast
      · exact h.absent key hlookup other hold
      · rw [List.mem_singleton.mp hlast]
        exact Ne.symm hne
  case answers =>
    intro pair hpair otherPath other hlocal
    rw [h.zip_append] at hpair
    rcases List.mem_append.mp hpair with hold | hlast
    · obtain ⟨n, hn⟩ := h.answers pair hold otherPath other hlocal
      exact ⟨n, hn.append _⟩
    · rw [List.mem_singleton.mp hlast] at hlocal
      obtain ⟨rfl, rfl⟩ := hanswer.unique hlocal
      exact ⟨arrivals.length, hkey ▸ hserved⟩
  case covered =>
    intro n hlt
    rw [h.zip_append]
    rcases Nat.lt_or_ge n arrivals.length with hold | hge
    · obtain ⟨pair, hpair, otherPath, other, hlocal, hn⟩ := h.covered n hold
      exact ⟨pair, List.mem_append_left _ hpair, otherPath, other, hlocal, hn.append _⟩
    · rw [List.length_append, List.length_singleton] at hlt
      obtain rfl : n = arrivals.length := by omega
      exact ⟨_, List.mem_append_right _ (List.mem_singleton.mpr rfl), path, plan, hanswer,
        hkey ▸ hserved⟩
  case keys =>
    rw [List.map_append, List.nodup_append]
    refine ⟨h.keys, by simp, ?_⟩
    intro key hold other hlast
    obtain ⟨earlier, hearlier, rfl⟩ := List.mem_map.mp hold
    obtain rfl : other = arrival.key := by simpa using hlast
    exact h.absent arrival.key hnew earlier hearlier

end Answers

/-! ## A run over the agents -/

/-- One agent keeps the loop on the track of the arrivals. -/
theorem Tracks.step {done : List AgentSpec} {state : Resolving} {arrivals : List Arrival}
    (h : Tracks done state arrivals) (spec : AgentSpec) :
    Tracks (done ++ [spec]) (resolveNext cluster settings state spec)
      (arrive cluster settings arrivals spec) := by
  rcases @resolveNext_cases cluster settings state spec with
    ⟨hnone, answer, hforeign, hnext⟩ |
      ⟨path, plan, arrival, hlocal, harrival, hkey, hnode, hendpoint, hcase⟩
  · rw [hnext, arrive, hnone]
    exact h.answer fun path plan hanswer ↦ absurd hanswer (hforeign path plan)
  rw [arrive, harrival]
  dsimp only
  rcases hcase with ⟨existing, hlookup, hnext⟩ | ⟨hlookup, hnext⟩
  · -- The node serves the path for an earlier agent, whose plan is used again.
    obtain ⟨n, served, hget, hserved, hname, hrest⟩ := h.resident _ _ hlookup
    have hany : (arrivals.any fun earlier ↦ earlier.key = arrival.key) = true :=
      List.any_eq_true.mpr ⟨served, List.mem_of_getElem? hget, decide_eq_true hserved⟩
    rw [hnext, hany]
    refine h.answer fun otherPath other hanswer ↦ ⟨n, served, hget, ?_, rfl, ?_⟩
    · obtain ⟨⟨model, target, hengine⟩, -⟩ := hlocal
      obtain ⟨⟨otherModel, otherTarget, hother⟩, heq⟩ := hanswer
      obtain ⟨rfl, -, -⟩ := EngineBinding.local.inj (hengine.symm.trans hother)
      cases heq
      rw [hserved]
      exact Prod.ext hname.symm (by rw [hkey])
    · cases hanswer.2
      exact hrest
  · -- No earlier agent has arrived here.
    have hany : (arrivals.any fun earlier ↦ earlier.key = arrival.key) = false :=
      List.any_eq_false.mpr fun earlier hearlier heq ↦
        h.absent _ hlookup earlier hearlier (of_decide_eq_true heq)
    rw [hnext, hany]
    exact h.arrival hlocal hkey hnode hendpoint hlookup

/-- The whole loop tracks the arrivals of its agents. -/
theorem tracks_resolving (specs : List AgentSpec) (cluster : Cluster) (settings : Settings) :
    Tracks specs (resolving specs cluster settings) (arrivalsOf specs cluster settings) := by
  have hrun : ∀ (rest done : List AgentSpec) (state : Resolving) (arrivals : List Arrival),
      Tracks done state arrivals →
        Tracks (done ++ rest) (rest.foldl (resolveNext cluster settings) state)
          (rest.foldl (arrive cluster settings) arrivals) := by
    intro rest
    induction rest with
    | nil =>
      intro done state arrivals h
      rwa [List.append_nil]
    | cons spec rest ih =>
      intro done state arrivals h
      simpa using ih (done ++ [spec]) _ _ (h.step spec)
  exact hrun specs [] _ _ tracks_nil

/-! ## The node of an arrival -/

/-- A node is chosen under the name it has in the cluster. -/
theorem chooseNode_ok {agent : String} {model : ModelMeta} {target : PlacementTarget} {node : ℕ}
    {made : PlacementPlan} {nodeName : String}
    (h : chooseNode agent model target cluster settings = .ok (node, made, nodeName)) :
    ∃ info, cluster.nodes[node]? = some info ∧ nodeName = info.name := by
  unfold chooseNode at h
  cases target with
  | auto =>
    dsimp only at h
    split at h
    · cases h
    rename_i placed hplaced
    split at h
    · rename_i index name nodePlan hchosen
      cases h
      rcases placeOnFleet_ok hplaced with ⟨entry, hentry, other, hsingle⟩ | ⟨note, hmany⟩
      · cases hchosen.symm.trans hsingle
        exact ⟨entry.node, (mem_eligibleNodes.mp hentry).1, rfl⟩
      · cases hchosen.symm.trans hmany
    · cases h
  | node name =>
    dsimp only at h
    split at h
    · cases h
    rename_i index hindex
    split at h
    · cases h
    rename_i info hinfo
    split at h
    · cases h
    cases h
    obtain ⟨hlt, hname, -⟩ := List.findIdx?_eq_some_iff_getElem.mp hindex
    have heq : cluster.nodes[node] = info := (List.getElem?_eq_some_iff.mp hinfo).2
    refine ⟨info, hinfo, ?_⟩
    rw [← heq]
    exact (of_decide_eq_true hname).symm

/-- What the node of a landing says about it. -/
theorem land_ok {agent : String} {model : ModelMeta} {target : PlacementTarget} {landing : Landing}
    (h : land agent model target cluster settings = .ok landing) :
    ∃ info, cluster.nodes[landing.node]? = some info ∧ landing.nodeName = info.name ∧
      (hostOf info.address.toList).map String.ofList = some landing.host := by
  unfold land at h
  split at h
  · cases h
  rename_i node made nodeName hchosen
  obtain ⟨info, hinfo, hname⟩ := chooseNode_ok hchosen
  rw [hinfo] at h
  dsimp only at h
  split at h
  · cases h
  rename_i host hhost
  split at h
  · cases h
  cases h
  exact ⟨info, hinfo, hname, by rw [hhost, Option.map_some]⟩

/-- An arrival goes by the name and the host of its node. -/
def Arrival.Named (cluster : Cluster) (arrival : Arrival) : Prop :=
  ∃ info, cluster.nodes[arrival.node]? = some info ∧ arrival.key.1 = info.name ∧
    (hostOf info.address.toList).map String.ofList = some arrival.host

theorem arrivalOf_named {spec : AgentSpec} {arrival : Arrival}
    (h : arrivalOf cluster settings spec = some arrival) : arrival.Named cluster := by
  unfold arrivalOf at h
  split at h
  · cases h
  split at h
  · cases h
  rename_i hland
  cases h
  exact land_ok hland

/-- Every arrival of a list of agents goes by the name and the host of its node. -/
theorem arrivalsOf_named (specs : List AgentSpec) (cluster : Cluster) (settings : Settings) :
    ∀ arrival ∈ arrivalsOf specs cluster settings, arrival.Named cluster := by
  apply List.foldlRecOn specs (arrive cluster settings)
    (motive := fun arrivals ↦ ∀ arrival ∈ arrivals, arrival.Named cluster)
  · exact fun arrival hmem ↦ absurd hmem List.not_mem_nil
  · intro arrivals ih spec _ arrival hmem
    unfold arrive at hmem
    split at hmem
    · exact ih arrival hmem
    rename_i next hnext
    split at hmem
    · exact ih arrival hmem
    rcases List.mem_append.mp hmem with hold | hlast
    · exact ih arrival hold
    · rw [List.mem_singleton.mp hlast]
      exact arrivalOf_named hnext

theorem Arrival.Named.eq {arrival other : Arrival} (h : arrival.Named cluster)
    (hother : other.Named cluster) (hnode : arrival.node = other.node) :
    arrival.key.1 = other.key.1 ∧ arrival.host = other.host := by
  obtain ⟨info, hinfo, hname, hhost⟩ := h
  obtain ⟨otherInfo, hotherInfo, hotherName, hotherHost⟩ := hother
  rw [hnode, hotherInfo] at hinfo
  obtain rfl := Option.some.inj hinfo
  exact ⟨hname.trans hotherName.symm, Option.some.inj (hhost.symm.trans hotherHost)⟩

/-! ## When the endpoints are sound -/

/-- Plans on one node share an endpoint when and only when they serve the same model path, and no
port that a process was started on is handed out again. -/
structure EndpointsSound (specs : List AgentSpec) (cluster : Cluster) (settings : Settings) :
    Prop where
  apart : ∀ pair ∈ specs.zip (resolveAgents specs cluster settings),
    ∀ other ∈ specs.zip (resolveAgents specs cluster settings), ∀ path plan otherPath otherPlan,
      LocalAnswer pair path plan → LocalAnswer other otherPath otherPlan →
        plan.node = otherPlan.node → path ≠ otherPath → plan.endpoint ≠ otherPlan.endpoint
  shared : ∀ pair ∈ specs.zip (resolveAgents specs cluster settings),
    ∀ other ∈ specs.zip (resolveAgents specs cluster settings), ∀ path plan otherPlan,
      LocalAnswer pair path plan → LocalAnswer other path otherPlan →
        plan.node = otherPlan.node → plan.endpoint = otherPlan.endpoint
  unsaturated : (resolving specs cluster settings).assigned.Pairwise
    fun early late ↦ early.2 = true → early.1 ≠ late.1

/-- From an arrival to the next one on its node there is one that a process is started for, and
there is a port left for every arrival. -/
structure PortsSpread (arrivals : List Arrival) : Prop where
  spaced : ∀ (n m : ℕ) (early late : Arrival), n < m → arrivals[n]? = some early →
    arrivals[m]? = some late → early.node = late.node →
      ∃ (k : ℕ) (between : Arrival),
        n ≤ k ∧ k < m ∧ arrivals[k]? = some between ∧ between.cold = true
  within : ∀ n < arrivals.length, 8100 + coldBefore arrivals n ≤ 65535

/-- With a port left for every arrival, ports differ as the counts of cold arrivals do. -/
theorem portAt_eq_iff {arrivals : List Arrival}
    (hwithin : ∀ n < arrivals.length, 8100 + coldBefore arrivals n ≤ 65535) {n m : ℕ}
    (hn : n < arrivals.length) (hm : m < arrivals.length) :
    portAt arrivals n = portAt arrivals m ↔ coldBefore arrivals n = coldBefore arrivals m := by
  have hfirst := hwithin n hn
  have hsecond := hwithin m hm
  rw [← UInt16.toNat_inj, toNat_portAt, toNat_portAt]
  omega

/-- Ports differ when and only when a process is started from the one arrival to the other. -/
theorem portAt_ne_iff {arrivals : List Arrival}
    (hwithin : ∀ n < arrivals.length, 8100 + coldBefore arrivals n ≤ 65535) {n m : ℕ}
    (hlt : n < m) (hm : m < arrivals.length) :
    portAt arrivals n ≠ portAt arrivals m ↔ ∃ (k : ℕ) (between : Arrival),
      n ≤ k ∧ k < m ∧ arrivals[k]? = some between ∧ between.cold = true := by
  rw [ne_eq, portAt_eq_iff hwithin (hlt.trans hm) hm]
  have hmono := coldBefore_le arrivals hlt.le
  constructor
  · intro hne
    obtain ⟨k, between, hnk, hkm, hget, hcold, -⟩ :=
      exists_cold_of_lt arrivals hlt.le (lt_of_le_of_ne hmono hne)
    exact ⟨k, between, hnk, hkm, hget, hcold⟩
  · rintro ⟨k, between, hnk, hkm, hget, hcold⟩ heq
    have hbefore := coldBefore_le arrivals hnk
    have hafter := coldBefore_lt arrivals hkm hget hcold
    omega

theorem ServedAt.node_eq {arrivals : List Arrival} {n : ℕ} {key : String × String}
    {plan : LocalRunPlan} {arrival : Arrival} (h : ServedAt arrivals n key plan)
    (hget : arrivals[n]? = some arrival) : plan.node = arrival.node := by
  obtain ⟨served, hserved, -, -, hnode, -⟩ := h
  rw [hnode, Option.some.inj (hserved.symm.trans hget)]

/-- Plans on one node have its name, and the endpoints differ as the ports do. -/
theorem ServedAt.endpoint_eq_iff {arrivals : List Arrival}
    (hnamed : ∀ arrival ∈ arrivals, arrival.Named cluster) {n m : ℕ}
    {key otherKey : String × String} {plan other : LocalRunPlan} (h : ServedAt arrivals n key plan)
    (hother : ServedAt arrivals m otherKey other) (hnode : plan.node = other.node) :
    key.1 = otherKey.1 ∧
      (plan.endpoint = other.endpoint ↔ portAt arrivals n = portAt arrivals m) := by
  obtain ⟨arrival, hget, rfl, -, hat, hendpoint⟩ := h
  obtain ⟨later, hlater, rfl, -, hlaterAt, hlaterEndpoint⟩ := hother
  obtain ⟨hname, hhost⟩ := (hnamed arrival (List.mem_of_getElem? hget)).eq
    (hnamed later (List.mem_of_getElem? hlater)) (hat.symm.trans (hnode.trans hlaterAt))
  rw [hendpoint, hlaterEndpoint, hhost]
  exact ⟨hname, endpointOf_inj, congrArg (endpointOf later.host)⟩

/-- Plans of one key are served at one position. -/
theorem ServedAt.position_eq {arrivals : List Arrival} (hkeys : (arrivals.map Arrival.key).Nodup)
    {n m : ℕ} {key : String × String} {plan other : LocalRunPlan} (h : ServedAt arrivals n key plan)
    (hother : ServedAt arrivals m key other) : n = m := by
  obtain ⟨arrival, hget, hkey, -⟩ := h
  obtain ⟨later, hlater, hlaterKey, -⟩ := hother
  have hn : n < (arrivals.map Arrival.key).length := by
    rw [List.length_map]
    exact (List.getElem?_eq_some_iff.mp hget).1
  apply (List.getElem?_inj hn hkeys).mp
  rw [List.getElem?_map, List.getElem?_map, hget, hlater, Option.map_some, Option.map_some, hkey,
    hlaterKey]

/-- No port is used twice just when there is one for every arrival. -/
theorem unsaturated_iff (specs : List AgentSpec) (cluster : Cluster) (settings : Settings) :
    ((resolving specs cluster settings).assigned.Pairwise
        fun early late ↦ early.2 = true → early.1 ≠ late.1) ↔
      ∀ n < (arrivalsOf specs cluster settings).length,
        8100 + coldBefore (arrivalsOf specs cluster settings) n ≤ 65535 := by
  have htracks := tracks_resolving specs cluster settings
  generalize arrivalsOf specs cluster settings = arrivals at htracks ⊢
  generalize resolving specs cluster settings = state at htracks ⊢
  have hget {n : ℕ} (h : n < state.assigned.length) :
      ∃ arrival, arrivals[n]? = some arrival ∧
        state.assigned[n] = (portAt arrivals n, arrival.cold) := by
    have hsome := htracks.assigned n
    rw [List.getElem?_eq_getElem h] at hsome
    obtain ⟨arrival, hmem, heq⟩ := Option.map_eq_some_iff.mp hsome.symm
    exact ⟨arrival, hmem, heq.symm⟩
  rw [List.pairwise_iff_getElem, ← htracks.assigned_length]
  constructor
  · intro hpairs m hm
    by_contra hover
    have hpos : coldBefore arrivals 0 < coldBefore arrivals m := by
      rw [show coldBefore arrivals 0 = 0 from rfl]
      omega
    obtain ⟨k, arrival, -, hkm, hk, hcold, hcount⟩ :=
      exists_cold_of_lt arrivals (Nat.zero_le m) hpos
    have hklt : k < state.assigned.length := hkm.trans hm
    obtain ⟨early, hearly, hassigned⟩ := hget hklt
    obtain ⟨late, -, hlate⟩ := hget hm
    obtain rfl := Option.some.inj (hk.symm.trans hearly)
    refine hpairs k m hklt hm hkm ?_ ?_
    · rw [hassigned]
      exact hcold
    · rw [hassigned, hlate]
      apply UInt16.toNat_inj.mp
      rw [toNat_portAt, toNat_portAt]
      omega
  · intro hwithin n m hn hm hlt hcold hsame
    obtain ⟨early, hearly, hassigned⟩ := hget hn
    obtain ⟨late, -, hlate⟩ := hget hm
    rw [hassigned] at hcold hsame
    rw [hlate] at hsame
    rw [htracks.assigned_length] at hwithin hn hm
    have hcount := (portAt_eq_iff hwithin hn hm).mp hsame
    have hmore := coldBefore_lt arrivals hlt hearly hcold
    omega

/-- Sound endpoints take ports that spread out. -/
theorem EndpointsSound.portsSpread {specs : List AgentSpec}
    (h : EndpointsSound specs cluster settings) :
    PortsSpread (arrivalsOf specs cluster settings) := by
  have htracks := tracks_resolving specs cluster settings
  have hnamed := arrivalsOf_named specs cluster settings
  have hwithin := (unsaturated_iff specs cluster settings).mp h.unsaturated
  generalize arrivalsOf specs cluster settings = arrivals at *
  refine ⟨fun n m early late hlt hearly hlate hnode ↦ ?_, hwithin⟩
  have hm : m < arrivals.length := (List.getElem?_eq_some_iff.mp hlate).1
  obtain ⟨pair, hpair, path, plan, hplan, hat⟩ := htracks.covered n (hlt.trans hm)
  obtain ⟨other, hother, otherPath, otherPlan, hotherPlan, hlater⟩ := htracks.covered m hm
  have hnodes : plan.node = otherPlan.node := by
    rw [hat.node_eq hearly, hlater.node_eq hlate, hnode]
  obtain ⟨hname, hendpoint⟩ := hat.endpoint_eq_iff hnamed hlater hnodes
  have hpaths : path ≠ otherPath := by
    rintro rfl
    rw [show plan.nodeName = otherPlan.nodeName from hname] at hat
    exact hlt.ne (hat.position_eq htracks.keys hlater)
  apply (portAt_ne_iff hwithin hlt hm).mp
  exact fun hports ↦ h.apart pair hpair other hother path plan otherPath otherPlan hplan
    hotherPlan hnodes hpaths (hendpoint.mpr hports)

/-- Ports that spread out make sound endpoints. -/
theorem PortsSpread.endpointsSound {specs : List AgentSpec}
    (h : PortsSpread (arrivalsOf specs cluster settings)) :
    EndpointsSound specs cluster settings := by
  have htracks := tracks_resolving specs cluster settings
  have hnamed := arrivalsOf_named specs cluster settings
  have hunsaturated := unsaturated_iff specs cluster settings
  generalize arrivalsOf specs cluster settings = arrivals at *
  have hserved {pair : AgentSpec × Except Error AgentRunPlan}
      (hpair : pair ∈ specs.zip (resolveAgents specs cluster settings)) {path : String}
      {plan : LocalRunPlan} (hplan : LocalAnswer pair path plan) :
      ∃ n, ServedAt arrivals n (plan.nodeName, path) plan :=
    htracks.answers pair hpair path plan hplan
  have hports {n m : ℕ} {key otherKey : String × String} {plan otherPlan : LocalRunPlan}
      (hat : ServedAt arrivals n key plan) (hlater : ServedAt arrivals m otherKey otherPlan)
      (hnodes : plan.node = otherPlan.node) (hlt : n < m) :
      portAt arrivals n ≠ portAt arrivals m := by
    have ⟨arrival, hget, _⟩ := hat
    have ⟨later, hgetLater, _⟩ := hlater
    apply (portAt_ne_iff h.within hlt (List.getElem?_eq_some_iff.mp hgetLater).1).mpr
    apply h.spaced n m arrival later hlt hget hgetLater
    rw [← hat.node_eq hget, hnodes, hlater.node_eq hgetLater]
  constructor
  case apart =>
    intro pair hpair other hother path plan otherPath otherPlan hplan hotherPlan hnodes hpaths
    obtain ⟨n, hat⟩ := hserved hpair hplan
    obtain ⟨m, hlater⟩ := hserved hother hotherPlan
    rw [ne_eq, (hat.endpoint_eq_iff hnamed hlater hnodes).2]
    rcases Nat.lt_trichotomy n m with hlt | rfl | hlt
    · exact hports hat hlater hnodes hlt
    · -- One position is of one path.
      obtain ⟨arrival, hget, hkey, -⟩ := hat
      obtain ⟨later, hgetLater, hlaterKey, -⟩ := hlater
      obtain rfl := Option.some.inj (hget.symm.trans hgetLater)
      exact absurd (congrArg Prod.snd (hkey.symm.trans hlaterKey)) hpaths
    · exact (hports hlater hat hnodes.symm hlt).symm
  case shared =>
    intro pair hpair other hother path plan otherPlan hplan hotherPlan hnodes
    obtain ⟨n, hat⟩ := hserved hpair hplan
    obtain ⟨m, hlater⟩ := hserved hother hotherPlan
    obtain ⟨hname, hendpoint⟩ := hat.endpoint_eq_iff hnamed hlater hnodes
    rw [show plan.nodeName = otherPlan.nodeName from hname] at hat
    exact hendpoint.mpr (congrArg (portAt arrivals) (hat.position_eq htracks.keys hlater))
  case unsaturated => exact hunsaturated.mpr h.within

/-- The endpoints of a list of agents are sound just when the ports of its arrivals spread out. -/
theorem endpointsSound_iff (specs : List AgentSpec) (cluster : Cluster) (settings : Settings) :
    EndpointsSound specs cluster settings ↔ PortsSpread (arrivalsOf specs cluster settings) :=
  ⟨EndpointsSound.portsSpread, PortsSpread.endpointsSound⟩

/-! ## A warm node -/

/-- A node of one card that serves a model already. -/
def warmCluster : Cluster where
  nodes :=
    let topology : Topology :=
      ⟨[⟨.amd, some 24576, some 0, none, .dedicated, some "gfx1100"⟩], [], none⟩
    [⟨"box", "127.0.0.1:9000", topology, classifyTopology topology embeddedOverrides, ["coder"]⟩]
  network := .fastEthernet

def boxAgent (model : String) : AgentSpec where
  name := model
  role := "agent"
  engine := .local (model ++ ".gguf") (.dense model (.ofNat 3) .q4_K_M) (.node "box")

/-- The second agent is sent to the server of the first one's model. -/
theorem not_endpointsSound_warm :
    let settings : Settings := ⟨none, none, none, none⟩
    let specs := [boxAgent "coder", boxAgent "writer"]
    (resolveAgents specs warmCluster settings).map
        (fun answer ↦ answer.toOption.map AgentRunPlan.endpoint) =
      [some "http://127.0.0.1:8100", some "http://127.0.0.1:8100"] ∧
    ¬ EndpointsSound specs warmCluster settings := by
  refine ⟨by decide +kernel, ?_⟩
  intro h
  have harrivals : arrivalsOf [boxAgent "coder", boxAgent "writer"] warmCluster
      ⟨none, none, none, none⟩ = [⟨("box", "coder.gguf"), 0, "127.0.0.1", false⟩,
        ⟨("box", "writer.gguf"), 0, "127.0.0.1", true⟩] := by decide +kernel
  have hspaced := h.portsSpread.spaced
  rw [harrivals] at hspaced
  obtain ⟨k, between, -, hlt, hget, hcold⟩ := hspaced 0 1 _ _ Nat.one_pos rfl rfl rfl
  obtain rfl : k = 0 := Nat.lt_one_iff.mp hlt
  obtain rfl := Option.some.inj hget
  cases hcold

end Cameo.Placement
