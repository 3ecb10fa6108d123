import Cameo.Authority
import Cameo.Placement.Agents
import Cameo.Placement.FleetFit

/-!
# The layout of distributed serving

A model that no node holds is sharded: every worker runs an `rpc-server` on a port of its own, and
the head is given a list of all their authorities.  The hosts of the nodes are taken out of their
addresses, without the brackets of IPv6, and put together with the ports by formatting alone.
-/

namespace Cameo.Placement

/-! ## The layout -/

/-- `Error`, of the distributed layouts. -/
inductive RpcError where
  | notDistributable (count : ℕ)
  | invalidAddress (address : String)

/-- `RpcWorker`. -/
structure RpcWorker where
  host : String
  port : UInt16
  command : List String

/-- `RpcLayout`. -/
structure RpcLayout where
  workers : List RpcWorker
  endpoints : String

/-- `base_port.saturating_add(i as u16)`. -/
def rpcPort (basePort : UInt16) (i : ℕ) : UInt16 :=
  .ofNat (min (basePort.toNat + i % 65536) 65535)

def rpcWorker (basePort : UInt16) (i : ℕ) (host : List Char) : RpcWorker where
  host := String.ofList host
  port := rpcPort basePort i
  command := ["rpc-server", "--host", "0.0.0.0", "--port", toString (rpcPort basePort i).toNat]

/-- The text that stands for a worker in the list for the head. -/
def RpcWorker.endpoint (worker : RpcWorker) : String :=
  worker.host ++ ":" ++ toString worker.port.toNat

def rpcWorkers (basePort : UInt16) : ℕ → List String → Except RpcError (List RpcWorker)
  | _, [] => .ok []
  | i, address :: rest =>
    match hostOf address.toList with
    | none => .error (.invalidAddress address)
    | some host => (rpcWorkers basePort (i + 1) rest).map (rpcWorker basePort i host :: ·)

/-- `rpc_layout`. -/
def rpcLayout (nodeAddresses : List String) (basePort : UInt16) : Except RpcError RpcLayout :=
  if nodeAddresses.length < 2 then .error (.notDistributable nodeAddresses.length)
  else (rpcWorkers basePort 0 nodeAddresses).map fun workers ↦
    ⟨workers, ",".intercalate (workers.map RpcWorker.endpoint)⟩

/-! ## What the layout lists -/

def hostsOf (nodeAddresses : List String) : List (List Char) :=
  nodeAddresses.filterMap fun address ↦ hostOf address.toList

theorem rpcWorkers_ok {basePort : UInt16} {nodeAddresses : List String} {start : ℕ}
    {workers : List RpcWorker} (h : rpcWorkers basePort start nodeAddresses = .ok workers) :
    workers = (hostsOf nodeAddresses).mapIdx fun i ↦ rpcWorker basePort (start + i) := by
  induction nodeAddresses generalizing start workers with
  | nil =>
    cases h
    rfl
  | cons address rest ih =>
    rw [rpcWorkers] at h
    cases hhost : hostOf address.toList with
    | none =>
      rw [hhost] at h
      cases h
    | some host =>
      rw [hhost] at h
      dsimp only at h
      cases hrest : rpcWorkers basePort (start + 1) rest with
      | error e =>
        rw [hrest] at h
        cases h
      | ok later =>
        rw [hrest] at h
        cases h
        have hcons : hostsOf (address :: rest) = host :: hostsOf rest :=
          List.filterMap_cons_some (f := fun address : String ↦ hostOf address.toList) hhost
        rw [ih hrest, hcons, List.mapIdx_cons]
        congr 2
        funext i
        rw [Nat.add_assoc, Nat.add_comm 1 i]

theorem exists_hostOf_of_mem {nodeAddresses : List String} {host : List Char}
    (h : host ∈ hostsOf nodeAddresses) : ∃ address, hostOf address = some host := by
  obtain ⟨address, -, hhost⟩ := List.mem_filterMap.mp h
  exact ⟨address.toList, hhost⟩

def RpcWorker.authority (worker : RpcWorker) : List Char :=
  authorityText worker.host.toList worker.port

theorem toList_endpoint (worker : RpcWorker) : worker.endpoint.toList = worker.authority := by
  unfold RpcWorker.endpoint RpcWorker.authority authorityText
  simp only [String.toList_append, List.append_assoc]
  rfl

/-- The authorities of a layout are read back: one by one from the list for the head, each to the
host and the port of its worker, which no other worker has. -/
structure AuthoritiesReadBack (layout : RpcLayout) : Prop where
  listed : layout.endpoints.toList.splitOn ',' = layout.workers.map RpcWorker.authority
  parsed : ∀ worker ∈ layout.workers,
    ReadsBack worker.authority worker.host.toList worker.port
  distinct : layout.workers.Pairwise fun worker other ↦
    worker.host = other.host → worker.port ≠ other.port

/-- The hosts have no colon and no comma, and of two workers on one host the positions differ in
`u16` and at most one reaches the last port. -/
structure Emittable (hosts : List (List Char)) (basePort : UInt16) : Prop where
  plain : ∀ host ∈ hosts, ':' ∉ host ∧ ',' ∉ host
  roomy : ∀ i j host, i < j → hosts[i]? = some host → hosts[j]? = some host →
    i % 65536 ≠ j % 65536 ∧
      (basePort.toNat + i % 65536 < 65535 ∨ basePort.toNat + j % 65536 < 65535)

theorem rpcPort_ne_iff (basePort : UInt16) (i j : ℕ) :
    rpcPort basePort i ≠ rpcPort basePort j ↔ i % 65536 ≠ j % 65536 ∧
      (basePort.toNat + i % 65536 < 65535 ∨ basePort.toNat + j % 65536 < 65535) := by
  have hport (k : ℕ) : (rpcPort basePort k).toNat = min (basePort.toNat + k % 65536) 65535 := by
    rw [rpcPort, UInt16.toNat_ofNat']
    omega
  rw [ne_eq, ← UInt16.toNat_inj, hport, hport]
  omega

theorem not_mem_of_mem_splitOn {separator : Char} {text piece : List Char}
    (h : piece ∈ text.splitOn separator) : separator ∉ piece := by
  induction text generalizing piece with
  | nil =>
    rw [List.splitOn_nil, List.mem_singleton] at h
    rw [h]
    exact List.not_mem_nil
  | cons c rest ih =>
    rw [List.splitOn_cons_eq_if_modifyHead] at h
    split at h
    · rcases List.mem_cons.mp h with rfl | h
      · exact List.not_mem_nil
      · exact ih h
    · rename_i hne
      cases hpieces : rest.splitOn separator with
      | nil => exact absurd hpieces (List.splitOn_ne_nil _ _)
      | cons first others =>
        rw [hpieces, List.modifyHead_cons] at h
        rcases List.mem_cons.mp h with rfl | h
        · intro hmem
          rcases List.mem_cons.mp hmem with rfl | hmem
          · exact hne (beq_self_eq_true _)
          · exact ih (hpieces ▸ List.mem_cons_self) hmem
        · exact ih (hpieces ▸ List.mem_cons_of_mem first h)

/-- Some texts are read back from a list exactly if none has the separator in it. -/
theorem splitOn_intercalate_iff {separator : Char} {texts : List (List Char)} (h : texts ≠ []) :
    ([separator].intercalate texts).splitOn separator = texts ↔
      ∀ text ∈ texts, separator ∉ text := by
  constructor
  · intro hsplit text hmem
    rw [← hsplit] at hmem
    exact not_mem_of_mem_splitOn hmem
  · exact fun hfree ↦ List.splitOn_intercalate separator hfree h

theorem comma_mem_authorityText (host : List Char) (port : UInt16) :
    ',' ∈ authorityText host port ↔ ',' ∈ host := by
  have hdigits : ',' ∉ (toString port.toNat).toList := fun hmem ↦
    absurd (isDigit_of_mem_decimal hmem) (by decide)
  have hcolon : ',' ≠ ':' := by decide
  simp only [authorityText, List.mem_append, List.mem_cons, hcolon, hdigits, or_false]

section Workers

variable (basePort : UInt16) (hosts : List (List Char))

theorem getElem?_workers (i : ℕ) :
    (hosts.mapIdx (rpcWorker basePort))[i]? = hosts[i]?.map (rpcWorker basePort i) := by
  rw [List.getElem?_mapIdx]

/-- What every worker has depends on its host and not on its position. -/
theorem forall_workers_iff {property : RpcWorker → Prop} {ofHost : List Char → Prop}
    (h : ∀ i host, host ∈ hosts → (property (rpcWorker basePort i host) ↔ ofHost host)) :
    (∀ worker ∈ hosts.mapIdx (rpcWorker basePort), property worker) ↔
      ∀ host ∈ hosts, ofHost host := by
  constructor
  · intro hproperty host hmem
    obtain ⟨i, hi⟩ := List.mem_iff_getElem?.mp hmem
    refine (h i host hmem).mp (hproperty _ (List.mem_of_getElem? (i := i) ?_))
    rw [getElem?_workers, hi]
    rfl
  · intro hhost worker hmem
    obtain ⟨i, hi⟩ := List.mem_iff_getElem?.mp hmem
    rw [getElem?_workers] at hi
    obtain ⟨host, hat, rfl⟩ := Option.map_eq_some_iff.mp hi
    have hmemHost := List.mem_of_getElem? hat
    exact (h i host hmemHost).mpr (hhost host hmemHost)

/-- The workers of one host have ports of their own exactly if their positions leave room. -/
theorem pairwise_workers_iff :
    ((hosts.mapIdx (rpcWorker basePort)).Pairwise fun worker other ↦
      worker.host = other.host → worker.port ≠ other.port) ↔
      ∀ i j host, i < j → hosts[i]? = some host → hosts[j]? = some host →
        i % 65536 ≠ j % 65536 ∧
          (basePort.toNat + i % 65536 < 65535 ∨ basePort.toNat + j % 65536 < 65535) := by
  rw [List.pairwise_iff_getElem]
  constructor
  · intro hpairs i j host hlt hi hj
    have hworkerI := getElem?_workers basePort hosts i
    have hworkerJ := getElem?_workers basePort hosts j
    rw [hi] at hworkerI
    rw [hj] at hworkerJ
    obtain ⟨hboundI, heqI⟩ := List.getElem?_eq_some_iff.mp hworkerI
    obtain ⟨hboundJ, heqJ⟩ := List.getElem?_eq_some_iff.mp hworkerJ
    have hne := hpairs i j hboundI hboundJ hlt
    rw [heqI, heqJ] at hne
    exact (rpcPort_ne_iff basePort i j).mp (hne rfl)
  · intro hroomy i j hboundI hboundJ hlt hsame
    rw [List.getElem_mapIdx, List.getElem_mapIdx] at hsame ⊢
    have hi := List.getElem?_eq_getElem (l := hosts) (i := i) (by simpa using hboundI)
    have hj := List.getElem?_eq_getElem (l := hosts) (i := j) (by simpa using hboundJ)
    have hhost := congrArg String.toList hsame
    simp only [rpcWorker, String.toList_ofList] at hhost
    rw [← hhost] at hj
    exact (rpcPort_ne_iff basePort i j).mpr (hroomy i j _ hlt hi hj)

end Workers

theorem length_rpcWorkers {nodeAddresses : List String} {basePort : UInt16} {start : ℕ}
    {workers : List RpcWorker} (h : rpcWorkers basePort start nodeAddresses = .ok workers) :
    workers.length = nodeAddresses.length := by
  induction nodeAddresses generalizing start workers with
  | nil =>
    cases h
    rfl
  | cons address rest ih =>
    rw [rpcWorkers] at h
    split at h
    · cases h
    · cases hrest : rpcWorkers basePort (start + 1) rest with
      | error e =>
        rw [hrest] at h
        cases h
      | ok later =>
        rw [hrest] at h
        cases h
        rw [List.length_cons, List.length_cons, ih hrest]

theorem rpcLayout_ok {nodeAddresses : List String} {basePort : UInt16} {layout : RpcLayout}
    (h : rpcLayout nodeAddresses basePort = .ok layout) :
    layout.workers = (hostsOf nodeAddresses).mapIdx (rpcWorker basePort) ∧
      layout.endpoints = ",".intercalate (layout.workers.map RpcWorker.endpoint) ∧
      layout.workers ≠ [] := by
  unfold rpcLayout at h
  split at h
  · cases h
  rename_i hmany
  cases hworkers : rpcWorkers basePort 0 nodeAddresses with
  | error e =>
    rw [hworkers] at h
    cases h
  | ok workers =>
    rw [hworkers] at h
    cases h
    have hpositions := rpcWorkers_ok hworkers
    simp only [Nat.zero_add] at hpositions
    refine ⟨hpositions, rfl, List.ne_nil_of_length_pos ?_⟩
    have hlength := length_rpcWorkers hworkers
    dsimp only
    omega

/-- The authorities of a layout are read back exactly if they are emittable. -/
theorem authoritiesReadBack_iff {nodeAddresses : List String} {basePort : UInt16}
    {layout : RpcLayout} (h : rpcLayout nodeAddresses basePort = .ok layout) :
    AuthoritiesReadBack layout ↔ Emittable (hostsOf nodeAddresses) basePort := by
  obtain ⟨hworkers, hendpoints, hnonempty⟩ := rpcLayout_ok h
  have hlist : layout.endpoints.toList =
      [','].intercalate (layout.workers.map RpcWorker.authority) := by
    rw [hendpoints, String.toList_intercalate, List.map_map]
    congr 1
    exact List.map_congr_left fun worker _ ↦ toList_endpoint worker
  have hlisted : layout.endpoints.toList.splitOn ',' = layout.workers.map RpcWorker.authority ↔
      ∀ host ∈ hostsOf nodeAddresses, ',' ∉ host := by
    rw [hlist, splitOn_intercalate_iff (by simpa using hnonempty), List.forall_mem_map,
      hworkers]
    refine forall_workers_iff basePort _ fun i host _ ↦ not_congr ?_
    unfold RpcWorker.authority rpcWorker
    rw [comma_mem_authorityText, String.toList_ofList]
  have hparsed : (∀ worker ∈ layout.workers,
      ReadsBack worker.authority worker.host.toList worker.port) ↔
      ∀ host ∈ hostsOf nodeAddresses, ':' ∉ host := by
    rw [hworkers]
    refine forall_workers_iff basePort _ fun i host hmem ↦ ?_
    obtain ⟨address, haddress⟩ := exists_hostOf_of_mem hmem
    unfold RpcWorker.authority rpcWorker
    dsimp only
    rw [String.toList_ofList]
    exact readsBack_iff haddress _
  have hdistinct := pairwise_workers_iff basePort (hostsOf nodeAddresses)
  rw [← hworkers] at hdistinct
  constructor
  · intro hback
    have hfree := hparsed.mp hback.parsed
    have hcommas := hlisted.mp hback.listed
    exact ⟨fun host hmem ↦ ⟨hfree host hmem, hcommas host hmem⟩, hdistinct.mp hback.distinct⟩
  · intro hemit
    exact ⟨hlisted.mpr fun host hmem ↦ (hemit.plain host hmem).2,
      hparsed.mpr fun host hmem ↦ (hemit.plain host hmem).1, hdistinct.mpr hemit.roomy⟩

/-! ## The endpoint of an agent -/

/-- What comes after the scheme in the endpoint of an agent on a port is read back, to the host of
its node and that port. -/
def EndpointReadsBack (cluster : Cluster) (plan : LocalRunPlan) (port : UInt16) : Prop :=
  ∃ node host rest, cluster.nodes[plan.node]? = some node ∧
    hostOf node.address.toList = some host ∧ plan.endpoint = "http://" ++ rest ∧
    ReadsBack rest.toList host port

/-- The host of a local plan is that of its node. -/
theorem endpoint_of_resolveAgent {spec : AgentSpec} {cluster : Cluster} {settings : Settings}
    {port : UInt16} {plan : LocalRunPlan}
    (h : resolveAgent spec cluster settings port = .ok (.local plan)) :
    ∃ node host, cluster.nodes[plan.node]? = some node ∧ hostOf node.address.toList = some host ∧
      plan.endpoint = endpointOf (String.ofList host) port := by
  unfold resolveAgent at h
  split at h
  · split at h <;> cases h
  · split at h
    · cases h
    · rename_i landing hland
      cases h
      unfold land at hland
      split at hland
      · cases hland
      split at hland
      · cases hland
      rename_i info hinfo
      split at hland
      · cases hland
      rename_i host hhost
      split at hland
      · cases hland
      · cases hland
        exact ⟨info, host, hinfo, hhost, rfl⟩

theorem toList_afterScheme {host : List Char} {port : UInt16} {rest : String}
    (h : endpointOf (String.ofList host) port = "http://" ++ rest) :
    rest.toList = authorityText host port := by
  have htext := congrArg String.toList h
  simp only [endpointOf, String.toList_append, String.toList_ofList, List.append_assoc] at htext
  exact (List.append_cancel_left htext).symm

theorem endpointReadsBack_iff {spec : AgentSpec} {cluster : Cluster} {settings : Settings}
    {port : UInt16} {plan : LocalRunPlan}
    (h : resolveAgent spec cluster settings port = .ok (.local plan)) :
    EndpointReadsBack cluster plan port ↔ ∀ node host, cluster.nodes[plan.node]? = some node →
      hostOf node.address.toList = some host → ':' ∉ host := by
  obtain ⟨node, host, hnode, hhost, hendpoint⟩ := endpoint_of_resolveAgent h
  have hscheme : plan.endpoint =
      "http://" ++ (String.ofList host ++ ":" ++ toString port.toNat) := by
    rw [hendpoint, endpointOf, String.append_assoc, String.append_assoc, String.append_assoc]
  constructor
  · rintro ⟨node', host', rest, hnode', hhost', hrest, hreads⟩ other otherHost hother hotherHost
    obtain rfl := Option.some.inj (hnode'.symm.trans hother)
    obtain rfl := Option.some.inj (hhost'.symm.trans hotherHost)
    obtain rfl := Option.some.inj (hnode'.symm.trans hnode)
    obtain rfl := Option.some.inj (hhost'.symm.trans hhost)
    rw [toList_afterScheme (hendpoint.symm.trans hrest)] at hreads
    exact (readsBack_iff hhost port).mp hreads
  · intro hplain
    refine ⟨node, host, _, hnode, hhost, hscheme, ?_⟩
    rw [toList_afterScheme (hendpoint.symm.trans hscheme)]
    exact (readsBack_iff hhost port).mpr (hplain node host hnode hhost)

/-- The authorities of a layout, and of the endpoint of an agent, are read back to the hosts and the
ports that were assigned, each worker with its own, exactly if no host has a colon or, in a list, a
comma, and the ports of the workers on one host do not run together. -/
theorem emitted_readBack_iff {nodeAddresses : List String} {basePort : UInt16} {layout : RpcLayout}
    (h : rpcLayout nodeAddresses basePort = .ok layout) {spec : AgentSpec} {cluster : Cluster}
    {settings : Settings} {port : UInt16} {plan : LocalRunPlan}
    (hplan : resolveAgent spec cluster settings port = .ok (.local plan)) :
    AuthoritiesReadBack layout ∧ EndpointReadsBack cluster plan port ↔
      Emittable (hostsOf nodeAddresses) basePort ∧
        ∀ node host, cluster.nodes[plan.node]? = some node →
          hostOf node.address.toList = some host → ':' ∉ host := by
  rw [authoritiesReadBack_iff h, endpointReadsBack_iff hplan]

theorem exists_layout {answer : Except RpcError RpcLayout} (h : answer.toOption.isSome = true) :
    ∃ layout, answer = .ok layout := by
  cases answer with
  | error e => cases h
  | ok layout => exact ⟨layout, rfl⟩

theorem exists_localPlan {answer : Except Error AgentRunPlan}
    (h : (answer.toOption.any fun made ↦
      match made with
      | .local _ => true
      | .cloud .. => false) = true) : ∃ plan, answer = .ok (.local plan) := by
  cases answer with
  | error e => cases h
  | ok made =>
    cases made with
    | cloud name role provider model endpoint => cases h
    | «local» plan => exact ⟨plan, rfl⟩

def coder : AgentSpec := ⟨"coder", "coder", .local "m.gguf" slimModel .auto⟩

/-- Two named boxes, and an agent on a node with an IPv4 address. -/
theorem emitted_readBack_boxes : ∃ layout plan,
    rpcLayout ["box-a:9090", "box-b:9090"] 50052 = .ok layout ∧
      (AuthoritiesReadBack layout ∧ EndpointReadsBack (deskFleet 0) plan 8100 ↔
        Emittable (hostsOf ["box-a:9090", "box-b:9090"]) 50052 ∧
          ∀ node host, (deskFleet 0).nodes[plan.node]? = some node →
            hostOf node.address.toList = some host → ':' ∉ host) := by
  obtain ⟨layout, hlayout⟩ := @exists_layout (rpcLayout ["box-a:9090", "box-b:9090"] 50052)
    (by decide +kernel)
  obtain ⟨plan, hplan⟩ := @exists_localPlan
    (resolveAgent coder (deskFleet 0) ⟨none, none, none, some "fleet-key"⟩ 8100)
    (by decide +kernel)
  exact ⟨layout, plan, hlayout, emitted_readBack_iff hlayout hplan⟩

/-- The brackets of IPv6 addresses are gone. -/
theorem not_authoritiesReadBack_ipv6 :
    ¬ (∀ nodeAddresses basePort layout, rpcLayout nodeAddresses basePort = .ok layout →
      AuthoritiesReadBack layout) := by
  intro h
  obtain ⟨layout, hlayout⟩ := @exists_layout
    (rpcLayout ["[fd00::2]:9090", "[fd00::3]:9090"] 50052) (by decide +kernel)
  have hemit := (authoritiesReadBack_iff hlayout).mp (h _ _ layout hlayout)
  have hhosts : "fd00::2".toList ∈ hostsOf ["[fd00::2]:9090", "[fd00::3]:9090"] := by
    decide +kernel
  exact absurd (by decide : ':' ∈ "fd00::2".toList) (hemit.plain _ hhosts).1

end Cameo.Placement
