import Cameo.Daemon.Access
import Cameo.Daemon.Sessions
import Cameo.Hub.Registration
import Cameo.Http.Rendering

/-!
# Ids in paths

A session and a node are addressed by their id, percent-encoded as one segment of a path.  The
server decodes the path as a whole and then splits it, so an id with a slash is taken for several
segments, and it refuses control characters.  Neither is kept out of the ids that it accepts.
-/

namespace Cameo.Daemon

open Library

/-! ## Requests for an id -/

/-- A request as it is routed: with where it came from. -/
def received (request : Http.Request) (fromUnix : Bool) (peerIp : Option String) : Request :=
  ⟨request.method, request.path, request.headers, fromUnix, peerIp⟩

def sessionsPath : List Char := "/api/sessions/".toList

def nodesPath : List Char := "/hub/nodes/".toList

/-- The head of a request whose path carries an id as its last segment. -/
def clientHead (method : String) (front : List Char) (id : String)
    (headers : Ordered.Map String String) : Http.Head :=
  ⟨method, String.ofList (front ++ Http.percentEncode id), "HTTP/1.1", headers⟩

/-- Headers that a client can send with a request without a body. -/
structure Sendable (headers : Ordered.Map String String) : Prop where
  clean : ∀ name value, headers.get? name = some value → Http.CleanHeader name value
  host : (headers.get? "host").isSome = true
  coding : headers.get? "transfer-encoding" = none
  length : headers.get? "content-length" = none

/-- The daemon is a hub that is up, and the headers are the operator's. -/
structure Lets (state : AccessState) (headers : Ordered.Map String String) (fromUnix : Bool) :
    Prop where
  auth : ∀ req : Request, req.headers = headers → req.fromUnix = fromUnix →
    checkAuth state req = none
  up : state.shuttingDown = false
  hub : state.hubEnabled = true

/-- The stream with the head is a request that is routed to the handler. -/
def Reaches (field : Bool) (state : AccessState) (fromUnix : Bool) (peerIp : Option String)
    (head : Http.Head) (handler : Handler) : Prop :=
  ∃ request, Http.parseIncoming field (bytes head.render) = .ok (.request request, []) ∧
    routeSurface state (received request fromUnix peerIp) = .handler handler

/-- An id without slashes and ASCII control characters. -/
structure Addressable (id : String) : Prop where
  slash : '/' ∉ id.toList
  control : id.toList.any Http.isAsciiControl = false

/-! ## Segments -/

def pieces (id : String) : List String :=
  ((id.toList.splitOn '/').filter (· ≠ [])).map String.ofList

theorem pieces_eq_iff {id : String} (h : id ≠ "") : pieces id = [id] ↔ '/' ∉ id.toList := by
  constructor
  · intro hpieces hslash
    have hmem : id ∈ pieces id := hpieces ▸ List.mem_cons_self
    obtain ⟨piece, hpiece, hid⟩ := List.mem_map.mp hmem
    have hfree := not_of_mem_splitOnP (List.mem_filter.mp hpiece).1
    rw [← hid, String.toList_ofList] at hslash
    exact absurd (hfree '/' hslash) (by decide)
  · intro hfree
    have hsplit : id.toList.splitOn '/' = [id.toList] := by
      rw [List.splitOn_eq_splitOnP]
      refine List.splitOnP_eq_singleton fun c hc ↦ ?_
      rw [beq_eq_false_iff_ne]
      rintro rfl
      exact hfree hc
    have hne : id.toList ≠ [] := fun hnil ↦ h (String.toList_eq_nil_iff.mp hnil)
    rw [pieces, hsplit, List.filter_cons_of_pos (by simpa using hne), List.filter_nil,
      List.map_cons, List.map_nil, String.ofList_toList]

theorem splitOn_segment {segment : List Char} (h : '/' ∉ segment) (rest : List Char) :
    (segment ++ '/' :: rest).splitOn '/' = segment :: rest.splitOn '/' := by
  rw [List.splitOn_eq_splitOnP, List.splitOn_eq_splitOnP]
  refine @List.splitOnP_append_cons_of_forall_mem _ (· == '/') _ (fun c hc ↦ ?_) '/'
    (beq_self_eq_true '/') rest
  rw [beq_eq_false_iff_ne]
  rintro rfl
  exact h hc

/-- The segments of a path of two segments and an id. -/
theorem segments_of_path {req : Request} {first second : List Char} (hfirst : '/' ∉ first)
    (hfirst' : first ≠ []) (hsecond : '/' ∉ second) (hsecond' : second ≠ []) {id : String}
    (hpath : req.path.toList = '/' :: (first ++ '/' :: (second ++ '/' :: id.toList))) :
    req.segments = String.ofList first :: String.ofList second :: pieces id := by
  have hsplit : req.path.toList.splitOn '/' =
      [] :: first :: second :: id.toList.splitOn '/' := by
    rw [hpath, ← List.nil_append ('/' :: _), splitOn_segment List.not_mem_nil,
      splitOn_segment hfirst, splitOn_segment hsecond]
  rw [Request.segments, hsplit, List.filter_cons_of_neg (by simp),
    List.filter_cons_of_pos (by simpa using hfirst'),
    List.filter_cons_of_pos (by simpa using hsecond')]
  rfl

/-! ## Routes -/

/-- The handlers of one session, below the path of the sessions, are given its id alone. -/
theorem eq_of_apiHandler?_sessions {method : String} {rest : List String} {handler : ApiHandler}
    (h : apiHandler? method ("sessions" :: rest) = some handler) {id : String}
    (hid : handler = .getSession id ∨ handler = .removeSession id) : rest = [id] := by
  unfold apiHandler? at h
  split at h <;> cases h <;> simp_all

/-- A session is read by its id alone. -/
theorem apiHandler?_getSession (rest : List String) (id : String) :
    apiHandler? "GET" ("sessions" :: rest) = some (.getSession id) ↔ rest = [id] := by
  constructor
  · intro h
    exact eq_of_apiHandler?_sessions h (Or.inl rfl)
  · rintro rfl
    rfl

/-- A session is removed by its id alone. -/
theorem apiHandler?_removeSession (rest : List String) (id : String) :
    apiHandler? "DELETE" ("sessions" :: rest) = some (.removeSession id) ↔ rest = [id] := by
  constructor
  · intro h
    exact eq_of_apiHandler?_sessions h (Or.inr rfl)
  · rintro rfl
    rfl

/-- A node is removed by its id alone. -/
theorem routeHub_removeNode {state : AccessState} {req : Request} (hmethod : req.method = "DELETE")
    (hauth : checkAuth state req = none) (rest : List String) (id : String) :
    routeHub state req ("nodes" :: rest) = .handler (.hub (.removeNode id)) ↔ rest = [id] := by
  constructor
  · intro h
    unfold routeHub at h
    split at h <;> simp_all [gated]
  · rintro rfl
    unfold routeHub
    rw [hmethod]
    simp only [hauth, gated]

section Routes

variable {state : AccessState} {req : Request} {rest : List String}

theorem routeApi_of_sessions (hup : state.shuttingDown = false) {handler : ApiHandler} :
    routeApi state req ("sessions" :: rest) = .handler (.api handler) ↔
      apiHandler? req.method ("sessions" :: rest) = some handler := by
  have hdrain : "sessions" :: rest ≠ ["drain"] := by
    intro heq
    exact absurd (List.cons.inj heq).1 (by decide)
  rw [routeApi, if_neg (fun hdown ↦ Bool.false_ne_true (hup.symm.trans hdown.1)), if_neg hdrain]
  cases apiHandler? req.method ("sessions" :: rest) with
  | none => exact iff_of_false nofun nofun
  | some other =>
    dsimp only
    rw [Routed.handler.injEq, Handler.api.injEq, Option.some.injEq]

theorem routeSurface_of_sessions (hsegs : req.segments = "api" :: "sessions" :: rest)
    (hmethod : req.method = "GET" ∨ req.method = "DELETE") (hauth : checkAuth state req = none) :
    routeSurface state req = routeApi state req ("sessions" :: rest) := by
  have hdiscovery :
      ¬ ("sessions" :: rest = ["engines"] ∨ "sessions" :: rest = ["capabilities"]) := by
    rintro (heq | heq)
    · exact absurd (List.cons.inj heq).1 (by decide)
    · exact absurd (List.cons.inj heq).1 (by decide)
  rw [routeSurface, hsegs]
  rcases hmethod with hmethod | hmethod
  · rw [hmethod]
    simp only [true_and, if_neg hdiscovery, hauth]
  · rw [hmethod]
    simp only [hauth]
    rfl

theorem routeSurface_of_nodes (hsegs : req.segments = "hub" :: "nodes" :: rest)
    (hmethod : req.method = "DELETE") (hhub : state.hubEnabled = true) :
    routeSurface state req = routeHub state req ("nodes" :: rest) := by
  rw [routeSurface, hsegs, hmethod]
  simp only [if_pos hhub]

end Routes

/-! ## Reaching a handler -/

/-- A path before an id: it stands for itself and is not the proxy's. -/
structure IsFront (front : List Char) : Prop where
  plain : ∀ c ∈ front, Http.isPathChar c = true ∧ c ≠ '%'
  slash : front.head? = some '/'
  unproxied : ∀ rest, Http.fieldRoute (String.ofList (front ++ rest)) = none

theorem isFront_sessionsPath : IsFront sessionsPath where
  plain := by
    have hall : (sessionsPath.all fun c ↦ decide (Http.isPathChar c = true ∧ c ≠ '%')) = true := by
      decide
    exact fun c hc ↦ of_decide_eq_true (List.all_eq_true.mp hall c hc)
  slash := rfl
  unproxied := by
    intro rest
    rw [Http.fieldRoute, stripPrefix, String.toList_ofList]
    rfl

theorem isFront_nodesPath : IsFront nodesPath where
  plain := by
    have hall : (nodesPath.all fun c ↦ decide (Http.isPathChar c = true ∧ c ≠ '%')) = true := by
      decide
    exact fun c hc ↦ of_decide_eq_true (List.all_eq_true.mp hall c hc)
  slash := rfl
  unproxied := by
    intro rest
    rw [Http.fieldRoute, stripPrefix, String.toList_ofList]
    rfl

section Reaching

variable {method : String} {front : List Char} {headers : Ordered.Map String String}

theorem readable_clientHead (hmethod : method = "GET" ∨ method = "DELETE") (hfront : IsFront front)
    (hsend : Sendable headers) (id : String) : (clientHead method front id headers).Readable := by
  have hpath : ∀ c ∈ front ++ Http.percentEncode id, Http.isPathChar c = true := by
    intro c hc
    rcases List.mem_append.mp hc with hc | hc
    · exact (hfront.plain c hc).1
    · exact Http.isPathChar_of_mem_percentEncode id c hc
  refine ⟨?_, ?_, ?_, .inr rfl, fun _ ↦ hsend.host, hsend.clean⟩
  · rcases hmethod with rfl | rfl
    · exact show Http.isToken "GET" = true by decide
    · exact show Http.isToken "DELETE" = true by decide
  · rw [clientHead, Http.targetOk, String.toList_ofList, Bool.and_eq_true, Bool.and_eq_true,
      decide_eq_true_eq, decide_eq_true_eq, List.all_eq_true]
    refine ⟨⟨?_, fun hmem ↦ (Http.toNat_of_isPathChar (hpath _ hmem)).2.2.2 rfl⟩, ?_⟩
    · rw [List.head?_append, hfront.slash]
      rfl
    · intro c hc
      obtain ⟨hlow, hhigh, -⟩ := Http.toNat_of_isPathChar (hpath c hc)
      rw [Bool.and_eq_true, decide_eq_true_eq, decide_eq_true_eq]
      omega
  · intro c hc
    rw [clientHead, String.toList_ofList] at hc
    obtain ⟨hlow, hhigh, -⟩ := Http.toNat_of_isPathChar (hpath c hc)
    simp only [isWhitespace, decide_eq_false_iff_not]
    omega

/-- A request for an id is parsed if it fits the budget and the id has no control character, and
then it is routed by the id as it is. -/
theorem reaches_iff (hmethod : method = "GET" ∨ method = "DELETE") (hfront : IsFront front)
    (hsend : Sendable headers) (field : Bool) (state : AccessState) (fromUnix : Bool)
    (peerIp : Option String) (id : String) (handler : Handler) :
    Reaches field state fromUnix peerIp (clientHead method front id headers) handler ↔
      id.toList.any Http.isAsciiControl = false ∧
        (bytes (clientHead method front id headers).render).length ≤ Http.maxHead ∧
        routeSurface state ⟨method, String.ofList (front ++ id.toList), headers, fromUnix, peerIp⟩ =
          .handler handler := by
  have hreadable := readable_clientHead hmethod hfront hsend id
  have htarget := Http.splitTarget_percentEncode hfront.plain id
  constructor
  · rintro ⟨request, hparse, hrouted⟩
    obtain ⟨consumed, hconsumes, hstream⟩ := Http.parseIncoming_eq_ok_iff.mp hparse
    rw [List.append_nil] at hstream
    cases hconsumes with
    | @request lines head path query body hreads hroute hanswered hcoding hsplit hbody =>
      have hread : Http.parseHead (bytes (clientHead method front id headers).render ++ []) =
          .ok (head, body) := by
        rw [List.append_nil]
        exact Http.parseHead_eq_ok_iff.mpr ⟨lines, hreads, hstream⟩
      have hbudget := Http.render_length_le_of_parseHead hreadable hread
      rw [Http.parseHead_render hreadable hbudget, Except.ok.injEq, Prod.mk.injEq] at hread
      obtain ⟨rfl, rfl⟩ := hread
      rw [clientHead, htarget] at hsplit
      split at hsplit
      · cases hsplit
      · rename_i hcontrol
        cases hsplit
        exact ⟨Bool.eq_false_iff.mpr hcontrol, hbudget, hrouted⟩
  · rintro ⟨hcontrol, hbudget, hrouted⟩
    have hread := Http.parseHead_render hreadable hbudget []
    rw [List.append_nil] at hread
    obtain ⟨lines, hreads, hstream⟩ := Http.parseHead_eq_ok_iff.mp hread
    have hroute : Http.routeOf field (clientHead method front id headers).target = none := by
      cases field with
      | true => exact hfront.unproxied _
      | false => rfl
    have hanswered : Http.isAnswered method = true := by
      rcases hmethod with rfl | rfl <;> decide
    rw [hcontrol, if_neg Bool.false_ne_true] at htarget
    have hbody : Http.IsBody headers [] := by
      refine ⟨fun text htext ↦ ?_, fun _ ↦ rfl, Nat.zero_le _⟩
      rw [hsend.length] at htext
      cases htext
    have hconsumes := Http.Consumes.request hreads hroute hanswered hsend.coding htarget hbody
    refine ⟨_, Http.parseIncoming_eq_ok_iff.mpr ⟨_, hconsumes, ?_⟩, hrouted⟩
    rw [hstream, List.append_nil, List.append_nil]

/-- The request for an id fits the budget. -/
def Fits (method : String) (front : List Char) (headers : Ordered.Map String String)
    (id : String) : Prop :=
  (bytes (clientHead method front id headers).render).length ≤ Http.maxHead

instance (method : String) (front : List Char) (headers : Ordered.Map String String)
    (id : String) : Decidable (Fits method front headers id) :=
  inferInstanceAs (Decidable (_ ≤ _))

variable {state : AccessState} {fromUnix : Bool} {id : String}

/-- The segments of a decoded path. -/
theorem segments_of_sessionsPath (method : String) (headers : Ordered.Map String String)
    (fromUnix : Bool) (peerIp : Option String) (id : String) :
    (⟨method, String.ofList (sessionsPath ++ id.toList), headers, fromUnix, peerIp⟩ :
      Request).segments = "api" :: "sessions" :: pieces id :=
  @segments_of_path _ "api".toList "sessions".toList (by decide) (by decide) (by decide) (by decide)
    id (String.toList_ofList ..)

theorem segments_of_nodesPath (method : String) (headers : Ordered.Map String String)
    (fromUnix : Bool) (peerIp : Option String) (id : String) :
    (⟨method, String.ofList (nodesPath ++ id.toList), headers, fromUnix, peerIp⟩ :
      Request).segments = "hub" :: "nodes" :: pieces id :=
  @segments_of_path _ "hub".toList "nodes".toList (by decide) (by decide) (by decide) (by decide)
    id (String.toList_ofList ..)

/-- What an id takes to be routed by. -/
theorem addressable_fits_iff {fits : Prop} (h : id ≠ "") :
    id.toList.any Http.isAsciiControl = false ∧ fits ∧ pieces id = [id] ↔
      Addressable id ∧ fits := by
  rw [pieces_eq_iff h]
  exact ⟨fun ⟨hcontrol, hfits, hslash⟩ ↦ ⟨⟨hslash, hcontrol⟩, hfits⟩,
    fun ⟨haddressable, hfits⟩ ↦ ⟨haddressable.control, hfits, haddressable.slash⟩⟩

theorem reaches_getSession_iff (hsend : Sendable headers) (hlets : Lets state headers fromUnix)
    (field : Bool) (peerIp : Option String) (h : id ≠ "") :
    Reaches field state fromUnix peerIp (clientHead "GET" sessionsPath id headers)
        (.api (.getSession id)) ↔ Addressable id ∧ Fits "GET" sessionsPath headers id := by
  rw [reaches_iff (.inl rfl) isFront_sessionsPath hsend, ← addressable_fits_iff h,
    routeSurface_of_sessions (segments_of_sessionsPath _ _ _ _ id) (.inl rfl)
      (hlets.auth _ rfl rfl), routeApi_of_sessions hlets.up, apiHandler?_getSession]
  rfl

theorem reaches_removeSession_iff (hsend : Sendable headers) (hlets : Lets state headers fromUnix)
    (field : Bool) (peerIp : Option String) (h : id ≠ "") :
    Reaches field state fromUnix peerIp (clientHead "DELETE" sessionsPath id headers)
        (.api (.removeSession id)) ↔ Addressable id ∧ Fits "DELETE" sessionsPath headers id := by
  rw [reaches_iff (.inr rfl) isFront_sessionsPath hsend, ← addressable_fits_iff h,
    routeSurface_of_sessions (segments_of_sessionsPath _ _ _ _ id) (.inr rfl)
      (hlets.auth _ rfl rfl), routeApi_of_sessions hlets.up, apiHandler?_removeSession]
  rfl

theorem reaches_removeNode_iff (hsend : Sendable headers) (hlets : Lets state headers fromUnix)
    (field : Bool) (peerIp : Option String) (h : id ≠ "") :
    Reaches field state fromUnix peerIp (clientHead "DELETE" nodesPath id headers)
        (.hub (.removeNode id)) ↔ Addressable id ∧ Fits "DELETE" nodesPath headers id := by
  rw [reaches_iff (.inr rfl) isFront_nodesPath hsend, ← addressable_fits_iff h,
    routeSurface_of_nodes (segments_of_nodesPath _ _ _ _ id) rfl hlets.hub,
    routeHub_removeNode rfl (hlets.auth _ rfl rfl)]
  rfl

end Reaching

/-! ## Accepted ids -/

/-- An accepted session has an id. -/
theorem id_ne_of_upsertDurable {σ : Type} {board : Board} {nowMillis : ℕ} {seen : Instant}
    {session saved : Session} {persist : Session → σ → Except String Unit × σ} {s : σ}
    (h : (board.upsertDurable nowMillis seen session persist s).1 = .ok saved) : saved.id ≠ "" := by
  have hsaved : saved = board.prepared nowMillis session := by
    unfold Board.upsertDurable at h
    dsimp only at h
    split at h
    · cases h
    · cases h
      rfl
  rw [hsaved]
  change (if session.id = "" then "s" ++ toString nowMillis else session.id) ≠ ""
  split
  · simp
  · assumption

/-- A node has an id. -/
theorem assignedId_ne (reg : Hub.Registration) : Hub.assignedId reg ≠ "" := by
  have hpick : Hub.pickId reg ≠ "" := by
    unfold Hub.pickId
    cases hfind : ([reg.nodeId, reg.name, reg.address].map trim).find? (· ≠ "") with
    | none => decide
    | some candidate => simpa using List.find?_some hfind
  rw [Hub.assignedId_eq_capIdLen, Hub.capIdLen]
  split
  · cases htext : (Hub.pickId reg).toList with
    | nil => exact absurd (String.toList_eq_nil_iff.mp htext) hpick
    | cons c rest =>
      have hfits : c.utf8Size ≤ Hub.maxNodeIdLen := c.utf8Size_le_four.trans (by decide)
      rw [Hub.takeBytes, if_pos hfits]
      simp
  · exact hpick

/-- The ids under which sessions and nodes are accepted reach their handlers exactly if they have no
slash and no ASCII control character, and the request fits the budget. -/
theorem addressable_iff (field : Bool) {state : AccessState} {fromUnix : Bool}
    (peerIp : Option String) {headers : Ordered.Map String String} (hsend : Sendable headers)
    (hlets : Lets state headers fromUnix) :
    (∀ {σ : Type} (board : Board) (nowMillis : ℕ) (seen : Instant) (session : Session)
        (persist : Session → σ → Except String Unit × σ) (s : σ) (saved : Session),
      (board.upsertDurable nowMillis seen session persist s).1 = .ok saved →
        (Reaches field state fromUnix peerIp (clientHead "GET" sessionsPath saved.id headers)
          (.api (.getSession saved.id)) ↔
            Addressable saved.id ∧ Fits "GET" sessionsPath headers saved.id) ∧
        (Reaches field state fromUnix peerIp (clientHead "DELETE" sessionsPath saved.id headers)
          (.api (.removeSession saved.id)) ↔
            Addressable saved.id ∧ Fits "DELETE" sessionsPath headers saved.id)) ∧
    ∀ reg : Hub.Registration,
      Reaches field state fromUnix peerIp
        (clientHead "DELETE" nodesPath (Hub.assignedId reg) headers)
        (.hub (.removeNode (Hub.assignedId reg))) ↔
          Addressable (Hub.assignedId reg) ∧
            Fits "DELETE" nodesPath headers (Hub.assignedId reg) := by
  constructor
  · intro σ board nowMillis seen session persist s saved h
    have hid := id_ne_of_upsertDurable h
    exact ⟨reaches_getSession_iff hsend hlets field peerIp hid,
      reaches_removeSession_iff hsend hlets field peerIp hid⟩
  · intro reg
    exact reaches_removeNode_iff hsend hlets field peerIp (assignedId_ne reg)

def localHeaders : Ordered.Map String String := Ordered.Map.empty.insert "host" "hub"

theorem sendable_localHeaders : Sendable localHeaders where
  clean := by
    intro name value hget
    rw [localHeaders, Ordered.Map.get?_insert] at hget
    split at hget
    · rename_i hname
      rw [Option.some.injEq] at hget
      rw [← hname, ← hget]
      exact Http.cleanHeader_of_all (by decide) (by decide) (by decide)
        (by decide)
    · cases hget
  host := rfl
  coding := rfl
  length := rfl

/-- A hub without keys. -/
def openHub : AccessState := { freshAccess ⟨[]⟩ with hubEnabled := true }

theorem lets_openHub : Lets openHub localHeaders true where
  auth := fun req _ hunix ↦ by
    have hopen : KeyRing.requiresOperator ⟨[]⟩ = false := rfl
    simp [checkAuth, isLocalHarness, hunix, openHub, freshAccess, hopen]
  up := rfl
  hub := rfl

/-- A session with a space and a percent sign in its id. -/
theorem addressable_encoded :
    Reaches false openHub true none (clientHead "GET" sessionsPath "50% done" localHeaders)
      (.api (.getSession "50% done")) :=
  ((addressable_iff false none sendable_localHeaders lets_openHub).1 Board.new 0 0
    (.named "50% done") (fun _ s ↦ (.ok (), s)) () _ rfl).1.mpr
      ⟨⟨by decide, by decide⟩, by decide⟩

/-- A registration that gives its address alone. -/
def unnamed : Hub.Registration := ⟨"", "", "https://10.0.0.7:9090", none, "1.0.0", .null⟩

/-- A node that is enrolled under its address, and a session with a slash in its id. -/
theorem not_addressable_slash :
    ¬ Reaches false openHub true none
      (clientHead "DELETE" nodesPath (Hub.assignedId unnamed) localHeaders)
      (.hub (.removeNode (Hub.assignedId unnamed))) ∧
    (Board.new.upsertDurable 0 0 (.named "team/build") (fun _ s ↦ (.ok (), s)) ()).1.toBool =
      true ∧
    ¬ Reaches false openHub true none (clientHead "GET" sessionsPath "team/build" localHeaders)
      (.api (.getSession "team/build")) := by
  refine ⟨fun h ↦ ?_, rfl, fun h ↦ ?_⟩
  · have hid : Hub.assignedId unnamed = "https://10.0.0.7:9090" := by
      rw [Hub.assignedId_eq_capIdLen]
      decide
    have haddressable := ((reaches_removeNode_iff sendable_localHeaders lets_openHub false none
      (assignedId_ne unnamed)).mp h).1
    rw [hid] at haddressable
    exact absurd haddressable.slash (by decide)
  · have haddressable := ((reaches_getSession_iff sendable_localHeaders lets_openHub false none
      (by decide)).mp h).1
    exact absurd haddressable.slash (by decide)

end Cameo.Daemon
