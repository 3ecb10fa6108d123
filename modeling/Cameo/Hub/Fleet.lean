import Cameo.Hub.Agent
import Cameo.Hub.PairRoute
import Mathlib.Logic.Function.Basic

/-!
# A hub and its nodes

Any number of nodes, one hub, and whoever else can reach it.  A connection carries one request; its
sections at the hub come between those of other connections, its answer may never arrive, and its
node may have given it up or crashed before.  The hub can die at any time, also while it persists
its roster, and start again from its state file.
-/

namespace Cameo.Hub

open Json Library Library.Durable

inductive Stage where
  | sent (req : Daemon.Request) (body : Option Value)
  | live (request : PairRequest)
  | issued (request : PairRequest) (credential : String)
  | redeemed (request : PairRequest) (credential label : String)
  | beating (beat : Beat)
  | answered (response : Daemon.Response)
  | closed

def Stage.request? : Stage → Option PairRequest
  | live request | issued request _ | redeemed request _ _ => some request
  | sent _ _ | beating _ | answered _ | closed => none

/-- A connection, with the node that has opened it, if it was one of the nodes. -/
structure Connection (ι : Type) where
  opener : Option ι
  stage : Stage

/-- The hub, its connections by their numbers, and the nodes, each with the connection that it is
waiting for. -/
structure Fleet (ι : Type) where
  farm : Farm
  pairings : PairingStore
  access : Daemon.AccessState
  connections : List (Connection ι)
  nodes : ι → Node
  awaiting : ι → Option ℕ

/-- The event is the node's own and no answer to a call. -/
def NodeEvent.isLocal : NodeEvent → Bool
  | receive _ => false
  | boot _ | save _ | crash _ _ | lose => true

/-- The operator's requests, and the readings of the roster. -/
def Op.isOperator : Op → Bool
  | register _ _ | pair _ _ _ _ _ | heartbeat _ _ _ _ => false
  | remove _ _ | list _ | onlineDescriptions _ | prune _ => true

inductive FleetEvent (ι : Type) where
  | node (i : ι) (event : NodeEvent) (hlocal : event.isLocal = true)
  /-- A node makes the call of its phase. -/
  | call (i : ι) (description : Option Value) (headers : Ordered.Map String String)
  /-- Somebody else sends a request. -/
  | foreign (req : Daemon.Request) (body : Option Value)
  /-- A node's call fails, whatever becomes of its request. -/
  | fail (i : ι) (error : String)
  | deliver (i : ι)
  /-- The first section of a request, and then the others of a pairing and of a heartbeat. -/
  | accept (n : ℕ) (now : Instant) (parseError : String)
  | issue (n : ℕ) (random : Randomness)
  | redeem (n : ℕ) (now : Instant)
  | enroll (n : ℕ) (io : PersistIo) (now : Instant)
  | refresh (n : ℕ) (now : Instant)
  /-- The operator asks for a code. -/
  | offer (label : String) (random : Randomness) (now : Instant)
  | operate (op : Op) (hop : op.isOperator = true)
  /-- The hub dies, possibly during an operation, and comes up again. -/
  | restart (during : Option Op) (cut : ℕ) (access : Daemon.AccessState) (io : LoadIo)
      (now : Instant)

/-- A call as the hub gets it: curl adds headers of its own. -/
def Call.request (call : Call) (headers : Ordered.Map String String) : Daemon.Request :=
  let others := headers.erase "authorization"
  ⟨"POST", "/" ++ call.path,
    match call.token with
    | some token => others.insert "authorization" ("Bearer " ++ token)
    | none => others,
    false, none⟩

/-- What the caller gets of a response: curl fails on an error status. -/
def transferred (response : Daemon.Response) : Answer :=
  if response.status ≥ 400 then .error ("status " ++ toString response.status)
  else .ok (some response.body)

variable {ι : Type} [DecidableEq ι] (codec : Codec) (hash : String → Digest) (cfg : ι → HubConfig)

namespace Fleet

def stage? (fleet : Fleet ι) (n : ℕ) : Option Stage :=
  fleet.connections[n]?.map Connection.stage

def advance (fleet : Fleet ι) (n : ℕ) (stage : Stage) : Fleet ι :=
  { fleet with
    connections := fleet.connections.modify n fun connection ↦ { connection with stage := stage } }

/-- A node's call comes to an end. -/
def answer (fleet : Fleet ι) (i : ι) (answer : Answer) : Fleet ι :=
  { fleet with
    nodes := Function.update fleet.nodes i
      (nodeStep codec (cfg i) (fleet.nodes i) (.receive answer))
    awaiting := Function.update fleet.awaiting i none }

structure Admission where
  stage : Stage
  pairings : PairingStore
  rateLimits : Daemon.RateLimiter
  op : Option Op

/-- The first section of a request.  The handlers for the operator are other events. -/
def admission (fleet : Fleet ι) (req : Daemon.Request) (body : Option Value) (now : Instant)
    (parseError : String) : Admission :=
  let (routed, rateLimits) := Daemon.route fleet.access now req
  match routed with
  | .refused response => ⟨.answered response, fleet.pairings, rateLimits, none⟩
  | .handler (.hub .pair) =>
    match admitPair hash fleet.pairings now parseError body with
    | (.error response, pairings) => ⟨.answered response, pairings, rateLimits, none⟩
    | (.ok request, pairings) => ⟨.live request, pairings, rateLimits, none⟩
  | .handler (.hub .register) =>
    match body.bind Registration.fromValue with
    | none => ⟨.answered (.error 400 ("invalid registration: " ++ parseError)), fleet.pairings,
        rateLimits, none⟩
    | some reg => ⟨.answered (registeredResponse (fleet.farm.register codec now reg).1),
        fleet.pairings, rateLimits, some (.register now reg)⟩
  | .handler (.hub .heartbeat) =>
    match authenticateHeartbeat hash fleet.access req body fleet.farm with
    | .error response => ⟨.answered response, fleet.pairings, rateLimits, none⟩
    | .ok beat => ⟨.beating beat, fleet.pairings, rateLimits, none⟩
  | .handler _ => ⟨.closed, fleet.pairings, rateLimits, none⟩

/-- The farm after an operation, if there is one. -/
def performed (op : Option Op) (farm : Farm) : Farm :=
  match op with
  | some op => Hub.step codec farm op
  | none => farm

/-- The hub comes up again, if its state file can be read; a hub without one starts anew.  An
attempt that fails changes nothing: nobody is answered before one succeeds, and what the
interrupted operation has left on the disk is that of the attempt that does. -/
def restarted (fleet : Fleet ι) (during : Option Op) (cut : ℕ) (io : LoadIo) (now : Instant) :
    Option Farm :=
  match fleet.farm.state with
  | none => some .new
  | some (location, disk) =>
    match Farm.open location io now (diskLeft codec fleet.farm during cut location disk) with
    | .ok farm => some farm
    | .error _ => none

/-- One event.  What cannot happen leaves everything as it is. -/
def step (fleet : Fleet ι) : FleetEvent ι → Fleet ι
  | .node i event _ => { fleet with
      nodes := Function.update fleet.nodes i (nodeStep codec (cfg i) (fleet.nodes i) event)
      awaiting := match event with
        | .crash _ _ => Function.update fleet.awaiting i none
        | _ => fleet.awaiting }
  | .call i description headers =>
    match fleet.awaiting i, (fleet.nodes i).phase.call? (cfg i) description with
    | none, some call => { fleet with
        connections := fleet.connections ++
          [⟨some i, .sent (call.request headers) (some call.body)⟩]
        awaiting := Function.update fleet.awaiting i (some fleet.connections.length) }
    | _, _ => fleet
  | .foreign req body =>
    { fleet with connections := fleet.connections ++ [⟨none, .sent req body⟩] }
  | .fail i error =>
    match fleet.awaiting i with
    | some _ => fleet.answer codec cfg i (.error error)
    | none => fleet
  | .deliver i =>
    match fleet.awaiting i with
    | none => fleet
    | some n =>
      match fleet.stage? n with
      | some (.answered response) =>
        (fleet.advance n .closed).answer codec cfg i (transferred response)
      | _ => fleet
  | .accept n now parseError =>
    match fleet.stage? n with
    | some (.sent req body) =>
      let admission := fleet.admission codec hash req body now parseError
      { fleet.advance n admission.stage with
        farm := performed codec admission.op fleet.farm
        pairings := admission.pairings
        access := { fleet.access with rateLimits := admission.rateLimits } }
    | _ => fleet
  | .issue n random =>
    match fleet.stage? n with
    | some (.live request) =>
      match issueCredential fleet.farm random request with
      | .error response => fleet.advance n (.answered response)
      | .ok credential => fleet.advance n (.issued request credential)
    | _ => fleet
  | .redeem n now =>
    match fleet.stage? n with
    | some (.issued request credential) =>
      match redeemCode hash fleet.pairings now request.code with
      | (.error response, pairings) =>
        { fleet.advance n (.answered response) with pairings := pairings }
      | (.ok label, pairings) =>
        { fleet.advance n (.redeemed request credential label) with pairings := pairings }
    | _ => fleet
  | .enroll n io now =>
    match fleet.stage? n with
    | some (.redeemed request credential label) =>
      let result := fleet.farm.pair codec io now request.registration (hash credential) label
      { fleet.advance n (.answered (enrollResponse credential result.1)) with
        farm := result.2 }
    | _ => fleet
  | .refresh n now =>
    match fleet.stage? n with
    | some (.beating beat) =>
      let result := fleet.farm.heartbeat codec now beat.nodeId beat.node beat.auth
      { fleet.advance n (.answered (heartbeatResponse result.1)) with farm := result.2 }
    | _ => fleet
  | .offer label random now =>
    { fleet with pairings := (fleet.pairings.beginAt hash label random now).2 }
  | .operate op _ => { fleet with farm := Hub.step codec fleet.farm op }
  | .restart during cut access io now =>
    match fleet.restarted codec during cut io now with
    | none => fleet
    | some farm => { fleet with
        farm := farm
        pairings := .new
        access := access
        connections := fleet.connections.map fun connection ↦ { connection with stage := .closed } }

/-- A fleet in which nobody has ever paired. -/
def first (farm : Farm) (access : Daemon.AccessState) : Fleet ι :=
  ⟨farm, .new, access, [], fun _ ↦ ⟨.stopped, ⟨none, .empty⟩⟩, fun _ ↦ none⟩

/-! ## What an event can do -/

def op? (fleet : Fleet ι) : FleetEvent ι → Option Op
  | .accept n now parseError =>
    match fleet.stage? n with
    | some (.sent req body) => (fleet.admission codec hash req body now parseError).op
    | _ => none
  | .enroll n io now =>
    match fleet.stage? n with
    | some (.redeemed request credential label) =>
      some (.pair io now request.registration (hash credential) label)
    | _ => none
  | .refresh n now =>
    match fleet.stage? n with
    | some (.beating beat) => some (.heartbeat now beat.nodeId beat.node beat.auth)
    | _ => none
  | .operate op _ => some op
  | .node _ _ _ | .call _ _ _ | .foreign _ _ | .fail _ _ | .deliver _ | .issue _ _ | .redeem _ _
  | .offer _ _ _ | .restart _ _ _ _ _ => none

inductive ConnectionChange (fleet : Fleet ι) (event : FleetEvent ι) (n : ℕ) :
    Option (Connection ι) → Option (Connection ι) → Prop
  | kept (connection : Option (Connection ι)) :
      ConnectionChange fleet event n connection connection
  | called {i : ι} {description : Option Value} {headers : Ordered.Map String String} {call : Call}
      (hevent : event = .call i description headers) (hn : n = fleet.connections.length)
      (hcall : (fleet.nodes i).phase.call? (cfg i) description = some call) :
      ConnectionChange fleet event n none
        (some ⟨some i, .sent (call.request headers) (some call.body)⟩)
  | foreign {req : Daemon.Request} {body : Option Value} (hn : n = fleet.connections.length) :
      ConnectionChange fleet event n none (some ⟨none, .sent req body⟩)
  | admitted {opener : Option ι} {req : Daemon.Request} {body : Option Value} {now : Instant}
      {parseError : String} {stage : Stage} (hevent : event = .accept n now parseError)
      (hstage : (fleet.admission codec hash req body now parseError).stage = stage) :
      ConnectionChange fleet event n (some ⟨opener, .sent req body⟩) (some ⟨opener, stage⟩)
  | issued {opener : Option ι} {request : PairRequest} {random : Randomness} {credential : String}
      (hevent : event = .issue n random) (hrandom : random.map secretOf = some credential) :
      ConnectionChange fleet event n (some ⟨opener, .live request⟩)
        (some ⟨opener, .issued request credential⟩)
  | redeemed {opener : Option ι} {request : PairRequest} {credential label : String} :
      ConnectionChange fleet event n (some ⟨opener, .issued request credential⟩)
        (some ⟨opener, .redeemed request credential label⟩)
  | refused {opener : Option ι} {stage : Stage} {request : PairRequest}
      {response : Daemon.Response} (hrequest : stage.request? = some request)
      (hrefusal : IsRefusal response) :
      ConnectionChange fleet event n (some ⟨opener, stage⟩) (some ⟨opener, .answered response⟩)
  | enrolled {opener : Option ι} {request : PairRequest} {credential label : String}
      {io : PersistIo} {now : Instant} (hevent : event = .enroll n io now) :
      ConnectionChange fleet event n (some ⟨opener, .redeemed request credential label⟩)
        (some ⟨opener, .answered (enrollResponse credential (fleet.farm.pair codec io now
          request.registration (hash credential) label).1)⟩)
  | refreshed {opener : Option ι} {beat : Beat} {now : Instant} (hevent : event = .refresh n now) :
      ConnectionChange fleet event n (some ⟨opener, .beating beat⟩)
        (some ⟨opener, .answered (heartbeatResponse
          (fleet.farm.heartbeat codec now beat.nodeId beat.node beat.auth).1)⟩)
  | closed {opener : Option ι} {stage : Stage} :
      ConnectionChange fleet event n (some ⟨opener, stage⟩) (some ⟨opener, .closed⟩)

variable {codec hash cfg} {fleet : Fleet ι}

omit [DecidableEq ι] in
theorem stage?_eq_some {n : ℕ} {stage : Stage} (h : fleet.stage? n = some stage) :
    ∃ opener, fleet.connections[n]? = some ⟨opener, stage⟩ := by
  obtain ⟨connection, hconnection, rfl⟩ := Option.map_eq_some_iff.mp h
  exact ⟨connection.opener, hconnection⟩

omit [DecidableEq ι] in
/-- A connection that advances changes as it may, and the others stay. -/
theorem change_advance {event : FleetEvent ι} {n : ℕ} {stage next : Stage}
    (hstage : fleet.stage? n = some stage)
    (hchange : ∀ opener, ConnectionChange codec hash cfg fleet event n (some ⟨opener, stage⟩)
      (some ⟨opener, next⟩)) (m : ℕ) :
    ConnectionChange codec hash cfg fleet event m fleet.connections[m]?
      (fleet.advance n next).connections[m]? := by
  rw [advance, List.getElem?_modify]
  by_cases hm : n = m
  · subst hm
    obtain ⟨opener, hconnection⟩ := stage?_eq_some hstage
    rw [hconnection]
    simp only [if_true]
    exact hchange opener
  · simp only [if_neg hm, id_map']
    exact .kept _

omit [DecidableEq ι] in
/-- A connection that is opened is the last, and the others stay. -/
theorem change_open {event : FleetEvent ι} {connection : Connection ι}
    (hchange : ConnectionChange codec hash cfg fleet event fleet.connections.length none
      (some connection)) (m : ℕ) :
    ConnectionChange codec hash cfg fleet event m fleet.connections[m]?
      (fleet.connections ++ [connection])[m]? := by
  by_cases hm : m < fleet.connections.length
  · rw [List.getElem?_append_left hm]
    exact .kept _
  · obtain hlast | hbeyond := (not_lt.mp hm).eq_or_lt
    · subst hlast
      rw [List.getElem?_concat_length, List.getElem?_eq_none le_rfl]
      exact hchange
    · rw [List.getElem?_eq_none (not_lt.mp hm), List.getElem?_eq_none (by
        rw [List.length_append, List.length_singleton]
        exact hbeyond)]
      exact .kept _

variable (codec hash cfg) in
theorem connection_step (fleet : Fleet ι) (event : FleetEvent ι) (m : ℕ) :
    ConnectionChange codec hash cfg fleet event m fleet.connections[m]?
      (step codec hash cfg fleet event).connections[m]? := by
  cases event with
  | node i event hlocal => exact .kept _
  | call i description headers =>
    simp only [step]
    split
    · rename_i call _ hcall
      exact change_open (.called rfl rfl hcall) m
    · exact .kept _
  | foreign req body => exact change_open (.foreign rfl) m
  | fail i error =>
    simp only [step]
    split
    · exact .kept _
    · exact .kept _
  | deliver i =>
    simp only [step]
    split
    · exact .kept _
    · split
      · rename_i hstage
        exact change_advance hstage (fun _ ↦ .closed) m
      · exact .kept _
  | accept n now parseError =>
    simp only [step]
    split
    · rename_i hstage
      exact change_advance hstage (fun _ ↦ .admitted rfl rfl) m
    · exact .kept _
  | issue n random =>
    simp only [step]
    split
    · rename_i request hstage
      cases hissue : issueCredential fleet.farm random request with
      | error response =>
        refine change_advance hstage (fun _ ↦ ?_) m
        unfold issueCredential at hissue
        split at hissue
        · cases hissue
          exact .refused rfl (isRefusal_error (by decide))
        · split at hissue
          · cases hissue
            exact .refused rfl (isRefusal_error (by decide))
          · cases hissue
      | ok credential =>
        refine change_advance hstage (fun _ ↦ .issued rfl ?_) m
        unfold issueCredential at hissue
        split at hissue
        · cases hissue
        · cases random with
          | none => cases hissue
          | some random =>
            cases hissue
            rfl
    · exact .kept _
  | redeem n now =>
    simp only [step]
    split
    · rename_i request credential hstage
      cases hredeem : redeemCode hash fleet.pairings now request.code with
      | mk result pairings =>
        cases result with
        | error response =>
          refine change_advance hstage (fun _ ↦ ?_) m
          unfold redeemCode at hredeem
          split at hredeem
          · cases hredeem
          · cases hredeem
            exact .refused rfl (isRefusal_error (by decide))
        | ok label => exact change_advance hstage (fun _ ↦ .redeemed) m
    · exact .kept _
  | enroll n io now =>
    simp only [step]
    split
    · rename_i hstage
      exact change_advance hstage (fun _ ↦ .enrolled rfl) m
    · exact .kept _
  | refresh n now =>
    simp only [step]
    split
    · rename_i hstage
      exact change_advance hstage (fun _ ↦ .refreshed rfl) m
    · exact .kept _
  | offer label random now => exact .kept _
  | operate op hop => exact .kept _
  | restart during cut access io now =>
    simp only [step]
    split
    · exact .kept _
    · dsimp only
      rw [List.getElem?_map]
      cases fleet.connections[m]? with
      | none => exact .kept _
      | some connection => exact .closed

variable (codec cfg) in
inductive NodeChange (fleet : Fleet ι) (event : FleetEvent ι) (i : ι) : Node → Prop
  | kept : NodeChange fleet event i (fleet.nodes i)
  | moved {change : NodeEvent} {hlocal : change.isLocal = true}
      (hevent : event = .node i change hlocal) :
      NodeChange fleet event i (nodeStep codec (cfg i) (fleet.nodes i) change)
  | failed (error : String) :
      NodeChange fleet event i
        (nodeStep codec (cfg i) (fleet.nodes i) (.receive (.error error)))
  | delivered {n : ℕ} {response : Daemon.Response} (hawaiting : fleet.awaiting i = some n)
      (hstage : fleet.stage? n = some (.answered response)) :
      NodeChange fleet event i
        (nodeStep codec (cfg i) (fleet.nodes i) (.receive (transferred response)))

variable (codec hash cfg) in
theorem node_step (fleet : Fleet ι) (event : FleetEvent ι) (i : ι) :
    NodeChange codec cfg fleet event i ((step codec hash cfg fleet event).nodes i) := by
  have hupdate {j : ι} {node : Node} (hchange : i = j → NodeChange codec cfg fleet event i node) :
      NodeChange codec cfg fleet event i (Function.update fleet.nodes j node i) := by
    by_cases hij : i = j
    · subst hij
      rw [Function.update_self]
      exact hchange rfl
    · rw [Function.update_of_ne hij]
      exact .kept
  cases event with
  | node j event hlocal =>
    refine hupdate ?_
    rintro rfl
    exact .moved rfl
  | call j description headers =>
    simp only [step]
    split <;> exact .kept
  | foreign req body => exact .kept
  | fail j error =>
    simp only [step]
    split
    · refine hupdate ?_
      rintro rfl
      exact .failed error
    · exact .kept
  | deliver j =>
    simp only [step]
    split
    · exact .kept
    · split
      · rename_i n hawaiting _ response hstage
        refine hupdate ?_
        rintro rfl
        exact .delivered hawaiting hstage
      · exact .kept
  | accept n now parseError =>
    simp only [step]
    split <;> exact .kept
  | issue n random =>
    simp only [step]
    split
    · split <;> exact .kept
    · exact .kept
  | redeem n now =>
    simp only [step]
    split
    · split <;> exact .kept
    · exact .kept
  | enroll n io now =>
    simp only [step]
    split <;> exact .kept
  | refresh n now =>
    simp only [step]
    split <;> exact .kept
  | offer label random now => exact .kept
  | operate op hop => exact .kept
  | restart during cut access io now =>
    simp only [step]
    split <;> exact .kept

/-- A node waits for what it has waited for, or for the connection that it opens. -/
theorem awaiting_step {event : FleetEvent ι} {i : ι} {n : ℕ}
    (h : (step codec hash cfg fleet event).awaiting i = some n) :
    fleet.awaiting i = some n ∨
      ∃ stage, (step codec hash cfg fleet event).connections[n]? = some ⟨some i, stage⟩ := by
  have hdropped {j : ι} (h : Function.update fleet.awaiting j none i = some n) :
      fleet.awaiting i = some n := by
    by_cases hij : i = j
    · subst hij
      rw [Function.update_self] at h
      cases h
    · rwa [Function.update_of_ne hij] at h
  cases event with
  | node j event hlocal =>
    left
    cases event with
    | crash io cut => exact hdropped h
    | _ => exact h
  | call j description headers =>
    simp only [step] at h ⊢
    split at h
    · dsimp only at h ⊢
      by_cases hij : i = j
      · subst hij
        rw [Function.update_self] at h
        obtain rfl := Option.some.inj h
        exact .inr ⟨_, List.getElem?_concat_length⟩
      · rw [Function.update_of_ne hij] at h
        exact .inl h
    · exact .inl h
  | foreign req body => exact .inl h
  | fail j error =>
    simp only [step] at h
    split at h
    · exact .inl (hdropped h)
    · exact .inl h
  | deliver j =>
    simp only [step] at h
    split at h
    · exact .inl h
    · split at h
      · exact .inl (hdropped h)
      · exact .inl h
  | accept m now parseError =>
    simp only [step] at h
    split at h <;> exact .inl h
  | issue m random =>
    simp only [step] at h
    split at h
    · split at h <;> exact .inl h
    · exact .inl h
  | redeem m now =>
    simp only [step] at h
    split at h
    · split at h <;> exact .inl h
    · exact .inl h
  | enroll m io now =>
    simp only [step] at h
    split at h <;> exact .inl h
  | refresh m now =>
    simp only [step] at h
    split at h <;> exact .inl h
  | offer label random now => exact .inl h
  | operate op hop => exact .inl h
  | restart during cut access io now =>
    simp only [step] at h
    split at h <;> exact .inl h

/-- The event is the hub's coming up again. -/
def Restarts (event : FleetEvent ι) : Prop :=
  ∃ during cut access io now, event = .restart during cut access io now

theorem farm_step {event : FleetEvent ι} (h : ¬ Restarts event) :
    (step codec hash cfg fleet event).farm =
      performed codec (op? codec hash fleet event) fleet.farm := by
  cases event with
  | node j event hlocal => rfl
  | call j description headers =>
    simp only [step]
    split <;> rfl
  | foreign req body => rfl
  | fail j error =>
    simp only [step]
    split <;> rfl
  | deliver j =>
    simp only [step]
    split
    · rfl
    · split <;> rfl
  | accept n now parseError =>
    simp only [step, op?]
    split <;> rfl
  | issue n random =>
    simp only [step]
    split
    · split <;> rfl
    · rfl
  | redeem n now =>
    simp only [step]
    split
    · split <;> rfl
    · rfl
  | enroll n io now =>
    simp only [step, op?]
    split <;> rfl
  | refresh n now =>
    simp only [step, op?]
    split <;> rfl
  | offer label random now => rfl
  | operate op hop => rfl
  | restart during cut access io now => exact absurd ⟨_, _, _, _, _, rfl⟩ h

end Fleet

end Cameo.Hub
