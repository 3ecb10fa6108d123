import Cameo.Address
import Cameo.Daemon.KeyRing
import Cameo.Daemon.Serve

/-!
# Who reaches which handler

`route` takes a request through three gates, each of which looks at another part of the key ring:
the origin check, the request rate and the authentication of the surface that the path names.  The
handlers themselves are modelled elsewhere or not at all; here a request ends in a response of the
gates or at a handler, which keeps the arguments it takes from the path.
-/

namespace Cameo.Daemon

open Library

/-! ## Requests -/

/-- `Request`, without the query, which no route reads, and the body, which no gate reads. -/
structure Request where
  method : String
  path : String
  headers : Ordered.Map String String
  fromUnix : Bool
  /-- The remote address, as a text. -/
  peerIp : Option String

namespace Request

/-- `Request::header`. -/
def header (req : Request) (name : String) : Option String :=
  req.headers.get? (toAsciiLowercase name)

/-- `Request::segments`. -/
def segments (req : Request) : List String :=
  ((req.path.toList.splitOn '/').filter (· ≠ [])).map String.ofList

/-- The host the request was addressed to, empty if it names none. -/
def host (req : Request) : String := (req.header "host").getD ""

end Request

/-- `bearer`. -/
def bearer (req : Request) : Option String :=
  ((req.header "authorization").bind (stripPrefix "Bearer ")).map trim

/-- The part of `AppState` that the gates read. -/
structure AccessState where
  keyring : KeyRing
  posture : Posture
  rateLimits : RateLimiter
  hubEnabled : Bool
  farmToken : Option String
  openInference : Bool
  /-- `drain.shutting_down()`. -/
  shuttingDown : Bool

/-! ## The gates -/

/-- `inference_is_open`. -/
def inferenceIsOpen (state : AccessState) : Bool :=
  state.openInference || (!state.keyring.requiresOperator && !state.keyring.requiresConsumer)

/-- `host_is_loopback`.  Of a bracketed host only what the brackets enclose is looked at, and of any
other host only what stands before its last colon. -/
def hostIsLoopback (host : String) : Bool :=
  let name := match host.toList with
    | '[' :: rest => rest.takeWhile (· ≠ ']')
    | text => ((rsplitOnce ':' text).map Prod.fst).getD text
  eqIgnoreAsciiCase (String.ofList name) "localhost" || String.ofList name = "::1" ||
    (Ipv4Addr.parse name).any Ipv4Addr.isLoopback

/-- What an `Origin` header says of the host. -/
def originHost (origin : String) : String :=
  String.ofList (trimEndMatches '/'
    (((splitOnce "://".toList origin.toList).map Prod.snd).getD origin.toList))

/-- `check_origin`. -/
def checkOrigin (state : AccessState) (req : Request) : Option Response :=
  if req.fromUnix then none
  else if (req.header "origin").any fun origin ↦
      origin = "null" || req.host = "" || !eqIgnoreAsciiCase (originHost origin) req.host then
    some (.error 403 "cross-origin request refused")
  else if (!state.keyring.requiresOperator && !state.keyring.requiresConsumer) ∧ req.host ≠ "" ∧
      !hostIsLoopback req.host then
    some (.error 403
      "a keyless daemon answers only to a loopback Host; configure a console key")
  else none

/-- The class of a request and how many of the class a client may make in a window. -/
def rateClass (state : AccessState) (req : Request) (segs : List String) : String × ℕ :=
  let authenticated := (state.keyring.roleOf (bearer req)).isSome
  let isProtected := segs.head? = some "api" ∨ segs.head? = some "hub" ∨ segs.head? = some "v1"
  let intentionallyOpen := (segs.head? = some "v1" ∧ inferenceIsOpen state) ∨
    (segs.head? = some "api" ∧ !state.keyring.requiresOperator)
  if segs = ["hub", "pair"] then ("pair", 10)
  else if isProtected ∧ !authenticated ∧ ¬ intentionallyOpen then ("auth", 30)
  else if segs.head? = some "v1" then ("inference", 600)
  else if isProtected then ("control", 300)
  else ("public", 300)

/-- `check_request_rate`, with the limiter it leaves. -/
def checkRequestRate (state : AccessState) (now : Instant) (req : Request) (segs : List String) :
    Option Response × RateLimiter :=
  if req.fromUnix then (none, state.rateLimits)
  else
    let (class', limit) := rateClass state req segs
    let (allowed, limiter) := state.rateLimits.allowAt
      (req.peerIp.getD "unknown" ++ ":" ++ class') limit
      (.fromSecs RateLimiter.windowSeconds) now
    (if allowed then none else some (.error 429 "request rate limit exceeded"), limiter)

/-- The operator socket of a self-hosted daemon. -/
def isLocalHarness (state : AccessState) (req : Request) : Bool :=
  req.fromUnix && state.posture.allowsLocalHarness

/-- `check_serve_auth`. -/
def checkServeAuth (state : AccessState) (req : Request) : Option Response :=
  if isLocalHarness state req || inferenceIsOpen state ||
      state.keyring.isConsumerOrBetter (bearer req) then none
  else some (.error 401 "missing or invalid api key")

/-- `check_engines_auth`. -/
def checkEnginesAuth (state : AccessState) (req : Request) : Option Response :=
  if isLocalHarness state req ||
      (!state.keyring.requiresOperator && !state.keyring.requiresConsumer) ||
      state.keyring.isConsumerOrBetter (bearer req) then none
  else some (.error 401 "missing or invalid api key")

/-- `check_auth`. -/
def checkAuth (state : AccessState) (req : Request) : Option Response :=
  if isLocalHarness state req || !state.keyring.requiresOperator ||
      state.keyring.isOperator (bearer req) then none
  else some (.error 401 "operator credential required")

/-- `check_farm_auth`. -/
def checkFarmAuth (state : AccessState) (req : Request) : Option Response :=
  match state.farmToken with
  | none => some (.error 403 "hub is not accepting registrations (no farm token configured)")
  | some key =>
    if keyMatches (bearer req) key then none
    else some (.error 401 "missing or invalid farm token")

/-! ## The routes -/

/-- The handlers under `/api`. -/
inductive ApiHandler where
  | drainStatus
  | drainResume
  | drainBegin
  | gpus
  | node
  | engines
  | capabilities
  | models
  | gcPartials
  | removeModel (name : String)
  | plan
  | listSessions
  | upsertSession
  | getSession (id : String)
  | removeSession (id : String)
  | leaseSession (id : String)
  | leaseStatus (id : String)
  | releaseLease (id : String)
  | ensureSessionVram (id : String)
  | sessionVram (id : String)
  | releaseSessionVram (id : String)
  | listServers
  | startServer
  | getServer (id : String)
  | stopServer (id : String)
deriving DecidableEq

/-- The handlers of `/api` that a `POST` or a `DELETE` reaches. -/
def ApiHandler.isMutating : ApiHandler → Bool
  | drainResume | drainBegin | gcPartials | removeModel _ | plan | upsertSession
  | removeSession _ | leaseSession _ | releaseLease _ | ensureSessionVram _
  | releaseSessionVram _ | startServer | stopServer _ => true
  | drainStatus | gpus | node | engines | capabilities | models | listSessions | getSession _
  | leaseStatus _ | sessionVram _ | listServers | getServer _ => false

/-- The handlers under `/hub`. -/
inductive HubHandler where
  | beginPairing
  | pair
  | register
  | heartbeat
  | listNodes
  | removeNode (id : String)
  | pushServer (id : String)
  | stopServer (id sid : String)
  | dispatch
deriving DecidableEq

/-- The handlers of `/hub` for the operator; nodes use the others. -/
def HubHandler.isAdmin : HubHandler → Bool
  | pair | register | heartbeat => false
  | beginPairing | listNodes | removeNode _ | pushServer _ | stopServer _ _ | dispatch => true

inductive Handler where
  | dashboard
  | healthz
  | readyz
  | metrics
  | version
  | servedModels
  | gatewayProxy (rest : List String)
  | hub (handler : HubHandler)
  | api (handler : ApiHandler)
deriving DecidableEq

def Handler.isControl : Handler → Bool
  | metrics => true
  | hub handler => handler.isAdmin
  | api handler => handler.isMutating
  | dashboard | healthz | readyz | version | servedModels | gatewayProxy _ => false

/-- Where a request ends: at a response of the gates, or at a handler. -/
inductive Routed where
  | refused (response : Response)
  | handler (handler : Handler)

def gated (denied : Option Response) (handler : Handler) : Routed :=
  match denied with
  | some response => .refused response
  | none => .handler handler

/-- `route_v1`. -/
def routeV1 (method : String) (rest : List String) : Routed :=
  match method, rest with
  | "GET", ["models"] => .handler .servedModels
  | "POST", ["chat", "completions"] | "POST", ["completions"] | "POST", ["embeddings"] =>
    .handler (.gatewayProxy rest)
  | _, _ => .refused (.error 404 "unknown /v1 route")

/-- The routes of `route_api`, by method and path. -/
def apiHandler? (method : String) (rest : List String) : Option ApiHandler :=
  match method, rest with
  | "GET", ["gpus"] => some .gpus
  | "GET", ["node"] => some .node
  | "GET", ["engines"] => some .engines
  | "GET", ["capabilities"] => some .capabilities
  | "GET", ["models"] => some .models
  | "POST", ["models", "gc"] => some .gcPartials
  | "DELETE", ["models", name] => some (.removeModel name)
  | "POST", ["plan"] => some .plan
  | "GET", ["sessions"] | "GET", ["knossos", "sessions"] => some .listSessions
  | "POST", ["sessions"] | "POST", ["knossos", "sessions"] => some .upsertSession
  | "GET", ["sessions", id] | "GET", ["knossos", "sessions", id] => some (.getSession id)
  | "DELETE", ["sessions", id] | "DELETE", ["knossos", "sessions", id] =>
    some (.removeSession id)
  | "POST", ["sessions", id, "lease"] | "POST", ["knossos", "sessions", id, "lease"] =>
    some (.leaseSession id)
  | "GET", ["sessions", id, "lease"] => some (.leaseStatus id)
  | "DELETE", ["sessions", id, "lease"] => some (.releaseLease id)
  | "POST", ["knossos", "sessions", id, "vram"] => some (.ensureSessionVram id)
  | "GET", ["knossos", "sessions", id, "vram"] => some (.sessionVram id)
  | "DELETE", ["knossos", "sessions", id, "vram"] => some (.releaseSessionVram id)
  | "GET", ["servers"] => some .listServers
  | "POST", ["servers"] => some .startServer
  | "GET", ["servers", id] => some (.getServer id)
  | "DELETE", ["servers", id] => some (.stopServer id)
  | _, _ => none

/-- `route_api`. -/
def routeApi (state : AccessState) (req : Request) (rest : List String) : Routed :=
  if state.shuttingDown ∧ req.method ≠ "GET" then .refused (.error 503 "daemon is shutting down")
  else if rest = ["drain"] then
    match req.method with
    | "GET" => .handler (.api .drainStatus)
    | "DELETE" => .handler (.api .drainResume)
    | "POST" => .handler (.api .drainBegin)
    | _ => .refused (.error 405 "unsupported drain method")
  else
    match apiHandler? req.method rest with
    | some handler => .handler (.api handler)
    | none => .refused (.error 404 "unknown API route")

/-- `route_hub`.  The heartbeat authenticates inside its handler. -/
def routeHub (state : AccessState) (req : Request) (rest : List String) : Routed :=
  let admin (handler : HubHandler) := gated (checkAuth state req) (.hub handler)
  match req.method, rest with
  | "POST", ["pairings"] => admin .beginPairing
  | "POST", ["pair"] => .handler (.hub .pair)
  | "POST", ["register"] => gated (checkFarmAuth state req) (.hub .register)
  | "POST", ["heartbeat"] => .handler (.hub .heartbeat)
  | "GET", ["nodes"] => admin .listNodes
  | "DELETE", ["nodes", id] => admin (.removeNode id)
  | "POST", ["nodes", id, "servers"] => admin (.pushServer id)
  | "DELETE", ["nodes", id, "servers", sid] => admin (.stopServer id sid)
  | "POST", ["dispatch"] => admin .dispatch
  | _, _ => .refused (.error 404 "unknown hub route")

/-- `route` past the checks that every request passes. -/
def routeSurface (state : AccessState) (req : Request) : Routed :=
  match req.method, req.segments with
  | "GET", [] => .handler .dashboard
  | "GET", ["healthz"] => .handler .healthz
  | "GET", ["readyz"] => .handler .readyz
  | "GET", ["metrics"] => gated (checkAuth state req) .metrics
  | "GET", ["version"] => .handler .version
  | _, "v1" :: rest =>
    match checkServeAuth state req with
    | some denied => .refused denied
    | none => routeV1 req.method rest
  | _, "hub" :: rest =>
    if state.hubEnabled then routeHub state req rest
    else .refused (.error 404 "this daemon is not a hub")
  | _, "api" :: rest =>
    let discovery := req.method = "GET" ∧ (rest = ["engines"] ∨ rest = ["capabilities"])
    match if discovery then checkEnginesAuth state req else checkAuth state req with
    | some denied => .refused denied
    | none => routeApi state req rest
  | _, _ => .refused (.error 404 "not found")

/-- `route`, with the limiter it leaves.  The sweep of stale session leases in between reads nothing
of the request. -/
def route (state : AccessState) (now : Instant) (req : Request) : Routed × RateLimiter :=
  match checkOrigin state req with
  | some denied => (.refused denied, state.rateLimits)
  | none =>
    match checkRequestRate state now req req.segments with
    | (some denied, limiter) => (.refused denied, limiter)
    | (none, limiter) => (routeSurface state req, limiter)

/-! ## The control surface -/

theorem of_gated_eq_handler {denied : Option Response} {handler reached : Handler}
    (h : gated denied handler = .handler reached) : denied = none ∧ handler = reached := by
  cases denied with
  | some response => cases h
  | none =>
    cases h
    exact ⟨rfl, rfl⟩

/-- A handler for the operator is reached through the operator's gate. -/
theorem checkAuth_of_routeHub {state : AccessState} {req : Request} {rest : List String}
    {handler : Handler} (h : routeHub state req rest = .handler handler)
    (hcontrol : handler.isControl = true) : checkAuth state req = none := by
  unfold routeHub at h
  split at h
  -- The three routes for nodes do not lead to a handler of the control surface.
  case h_2 | h_4 => cases h; cases hcontrol
  case h_3 =>
    obtain ⟨-, rfl⟩ := of_gated_eq_handler h
    cases hcontrol
  case h_10 => cases h
  all_goals exact (of_gated_eq_handler h).1

/-- The two discovery routes of `/api` read only. -/
theorem isControl_routeApi_discovery {state : AccessState} {req : Request} {rest : List String}
    {handler : Handler} (h : routeApi state req rest = .handler handler)
    (hdiscovery : req.method = "GET" ∧ (rest = ["engines"] ∨ rest = ["capabilities"])) :
    handler.isControl = false := by
  obtain ⟨hmethod, hrest⟩ := hdiscovery
  have hread : apiHandler? req.method rest = some .engines ∨
      apiHandler? req.method rest = some .capabilities := by
    rw [hmethod]
    rcases hrest with rfl | rfl
    · exact .inl rfl
    · exact .inr rfl
  have hdrain : rest ≠ ["drain"] := by
    rcases hrest with rfl | rfl <;> decide
  unfold routeApi at h
  rw [if_neg (fun hdown ↦ hdown.2 hmethod), if_neg hdrain] at h
  rcases hread with hread | hread
  · rw [hread] at h
    cases h
    rfl
  · rw [hread] at h
    cases h
    rfl

theorem isControl_routeV1 {method : String} {rest : List String} {handler : Handler}
    (h : routeV1 method rest = .handler handler) : handler.isControl = false := by
  unfold routeV1 at h
  split at h
  case h_5 => cases h
  all_goals cases h; rfl

/-- Every handler of the control surface stands behind the operator's gate. -/
theorem checkAuth_of_routeSurface {state : AccessState} {req : Request} {handler : Handler}
    (h : routeSurface state req = .handler handler) (hcontrol : handler.isControl = true) :
    checkAuth state req = none := by
  unfold routeSurface at h
  split at h
  case h_4 => exact (of_gated_eq_handler h).1
  case h_6 =>
    split at h
    · cases h
    · cases (isControl_routeV1 h).symm.trans hcontrol
  case h_7 =>
    split at h
    · exact checkAuth_of_routeHub h hcontrol
    · cases h
  case h_8 =>
    dsimp only at h
    split at h
    · cases h
    · rename_i hgate
      split at hgate
      · rename_i hdiscovery
        cases (isControl_routeApi_discovery h hdiscovery).symm.trans hcontrol
      · exact hgate
  case h_9 => cases h
  all_goals cases h; cases hcontrol

/-- A routed request has passed the origin check and ends where its surface sends it. -/
theorem of_route_eq_handler {state : AccessState} {now : Instant} {req : Request}
    {handler : Handler} (h : (route state now req).1 = .handler handler) :
    checkOrigin state req = none ∧ routeSurface state req = .handler handler := by
  unfold route at h
  split at h
  · cases h
  · rename_i horigin
    split at h
    · cases h
    · exact ⟨horigin, h⟩

theorem isOperator_of_checkAuth {state : AccessState} {req : Request}
    (h : checkAuth state req = none) (htcp : req.fromUnix = false)
    (hrequired : state.keyring.requiresOperator = true) :
    state.keyring.isOperator (bearer req) = true := by
  by_contra hnot
  simp [checkAuth, isLocalHarness, htcp, hrequired, hnot] at h

theorem loopback_of_checkOrigin {state : AccessState} {req : Request}
    (h : checkOrigin state req = none) (htcp : req.fromUnix = false)
    (hoperator : state.keyring.requiresOperator = false)
    (hconsumer : state.keyring.requiresConsumer = false) :
    req.host = "" ∨ hostIsLoopback req.host = true := by
  by_contra hnot
  obtain ⟨hhost, hloopback⟩ := not_or.mp hnot
  unfold checkOrigin at h
  rw [htcp, if_neg Bool.false_ne_true] at h
  split at h
  · cases h
  · rw [if_pos ⟨by simp [hoperator, hconsumer], hhost, by simpa using hloopback⟩] at h
    cases h

/-! ## A rebound page -/

/-- What a browser sends for a page whose name has been rebound to this machine. -/
def reboundRequest : Request where
  method := "POST"
  path := "/api/servers"
  headers := .ofList [("host", "attacker.example:9090"), ("origin", "http://attacker.example:9090")]
  fromUnix := false
  peerIp := some "127.0.0.1"

/-- A daemon just started with the given keys. -/
def freshAccess (ring : KeyRing) : AccessState where
  keyring := ring
  posture := .selfHost
  rateLimits := .new
  hubEnabled := false
  farmToken := none
  openInference := false
  shuttingDown := false

theorem segments_reboundRequest : reboundRequest.segments = ["api", "servers"] := by decide

section ConsumerOnly

variable {ring : KeyRing}

theorem checkOrigin_reboundRequest (hconsumer : ring.requiresConsumer = true) :
    checkOrigin (freshAccess ring) reboundRequest = none := by
  have hsame : (reboundRequest.header "origin").any (fun origin ↦ origin = "null" ||
      reboundRequest.host = "" ||
      !eqIgnoreAsciiCase (originHost origin) reboundRequest.host) = false := by
    decide
  have htcp : reboundRequest.fromUnix = false := rfl
  simp [checkOrigin, hsame, freshAccess, hconsumer, htcp]

theorem checkRequestRate_reboundRequest (hoperator : ring.requiresOperator = false)
    (now : Instant) :
    (checkRequestRate (freshAccess ring) now reboundRequest ["api", "servers"]).1 = none := by
  have hclass : rateClass (freshAccess ring) reboundRequest ["api", "servers"] =
      ("control", 300) := by
    simp [rateClass, freshAccess, hoperator]
  have hallowed : (RateLimiter.new.allowAt
      (reboundRequest.peerIp.getD "unknown" ++ ":" ++ "control") 300
      (.fromSecs RateLimiter.windowSeconds) now).1 = true :=
    RateLimiter.allowAt_new (by decide) _ _ _
  simp only [checkRequestRate, hclass]
  rw [if_neg (show ¬ reboundRequest.fromUnix = true by decide)]
  exact if_pos hallowed

theorem routeSurface_reboundRequest (hoperator : ring.requiresOperator = false) :
    routeSurface (freshAccess ring) reboundRequest = .handler (.api .startServer) := by
  have hmethod : reboundRequest.method = "POST" := rfl
  have hauth : checkAuth (freshAccess ring) reboundRequest = none := by
    simp [checkAuth, freshAccess, hoperator]
  have hapi : routeApi (freshAccess ring) reboundRequest ["servers"] =
      .handler (.api .startServer) := rfl
  rw [routeSurface, segments_reboundRequest, hmethod]
  simp only [hauth, hapi, if_neg (show ¬ ("POST" = "GET" ∧ _) from fun h ↦ absurd h.1 (by decide))]

/-- With keys for consumers only, neither the origin check nor the operator's gate stops the
page. -/
theorem route_reboundRequest (hoperator : ring.requiresOperator = false)
    (hconsumer : ring.requiresConsumer = true) (now : Instant) :
    (route (freshAccess ring) now reboundRequest).1 = .handler (.api .startServer) := by
  have hrate := checkRequestRate_reboundRequest hoperator now
  rw [route, checkOrigin_reboundRequest hconsumer, segments_reboundRequest]
  dsimp only
  split
  · rename_i heq
    rw [heq] at hrate
    cases hrate
  · exact routeSurface_reboundRequest hoperator

end ConsumerOnly

/-- The page has no operator credential and is not addressed to the loopback interface. -/
theorem not_trusted_reboundRequest (ring : KeyRing) :
    ¬ (ring.isOperator (bearer reboundRequest) = true ∨ reboundRequest.host = "" ∨
      hostIsLoopback reboundRequest.host = true) := by
  have hbearer : bearer reboundRequest = none := by decide
  have hhost : ¬ (reboundRequest.host = "" ∨ hostIsLoopback reboundRequest.host = true) := by
    decide
  rw [hbearer]
  rintro (h | h)
  · cases h
  · exact hhost h

/-- The control surface answers only to an operator or on the loopback interface exactly if the key
ring has a key for operators or none for consumers. -/
theorem control_closed_iff (ring : KeyRing) :
    (∀ (state : AccessState) (now : Instant) (req : Request) (handler : Handler),
      state.keyring = ring → req.fromUnix = false →
      (route state now req).1 = .handler handler → handler.isControl = true →
      ring.isOperator (bearer req) = true ∨ req.host = "" ∨ hostIsLoopback req.host = true) ↔
    (ring.requiresOperator = true ∨ ring.requiresConsumer = false) := by
  constructor
  · intro hclosed
    by_contra hnot
    obtain ⟨hoperator, hconsumer⟩ := not_or.mp hnot
    rw [Bool.not_eq_true] at hoperator
    rw [Bool.not_eq_false] at hconsumer
    exact not_trusted_reboundRequest ring (hclosed (freshAccess ring) 0 reboundRequest
      (.api .startServer) rfl rfl (route_reboundRequest hoperator hconsumer 0) rfl)
  · rintro hring state now req handler rfl htcp hroute hcontrol
    obtain ⟨horigin, hsurface⟩ := of_route_eq_handler hroute
    have hauth := checkAuth_of_routeSurface hsurface hcontrol
    cases hoperator : state.keyring.requiresOperator with
    | true => exact .inl (isOperator_of_checkAuth hauth htcp hoperator)
    | false =>
      have hconsumer : state.keyring.requiresConsumer = false :=
        hring.resolve_left (by simp [hoperator])
      exact .inr (loopback_of_checkOrigin horigin htcp hoperator hconsumer)

/-- A daemon with a serve key and no console key. -/
def serveKeyOnly : KeyRing := ⟨[⟨"serve-key-0123456789", .consumer, "serve"⟩]⟩

theorem control_open_to_rebound_page :
    ¬ ∀ (state : AccessState) (now : Instant) (req : Request) (handler : Handler),
      req.fromUnix = false → (route state now req).1 = .handler handler →
      handler.isControl = true →
      state.keyring.isOperator (bearer req) = true ∨ req.host = "" ∨
        hostIsLoopback req.host = true := by
  intro hclosed
  exact not_trusted_reboundRequest serveKeyOnly (hclosed (freshAccess serveKeyOnly) 0
    reboundRequest (.api .startServer) rfl (route_reboundRequest (by decide) (by decide) 0) rfl)

end Cameo.Daemon
