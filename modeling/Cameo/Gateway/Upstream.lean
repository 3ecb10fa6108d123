import Cameo.Authority
import Cameo.Daemon.Addressable
import Cameo.Http.Rendering

/-!
# What the backend is asked

`gateway_proxy` forwards a request that the router has taken to it: its method, its path as it was
decoded, its content type and its body, with the backend's key in place of the client's.  The
backend reads exactly this request, wherever the client's bytes came from: no text of the client
ends a line of the head, and no other header of the client's arrives.
-/

namespace Cameo.Gateway

open Library Http

/-! ## The request -/

/-- `ProxyRequest`. -/
structure ProxyRequest where
  host : String
  port : UInt16
  method : String
  path : String
  contentType : String
  body : List UInt8
  backendKey : Option String

/-- The head that `connect_and_send` writes. -/
def ProxyRequest.head (req : ProxyRequest) : String :=
  s!"{req.method} {req.path} HTTP/1.1\r\nHost: {req.host}:{req.port.toNat}\r\n" ++
    s!"Content-Type: {req.contentType}\r\nContent-Length: {req.body.length}\r\n" ++
    "Connection: close\r\n" ++
    (match req.backendKey with
      | some key => s!"Authorization: Bearer {key}\r\n"
      | none => "") ++ "\r\n"

/-- The bytes that `connect_and_send` writes. -/
def ProxyRequest.raw (req : ProxyRequest) : List UInt8 := bytes req.head ++ req.body

/-- The request that `gateway_proxy` makes of a client's, for the endpoint at `host` and `port`. -/
def gatewayRequest (req : Request) (host : String) (port : UInt16) (key : Option String) :
    ProxyRequest where
  host := host
  port := port
  method := req.method
  path := req.path
  contentType := (req.headers.get? "content-type").getD "application/json"
  body := req.body
  backendKey := key

/-! ## What the router takes to the gateway -/

/-- The paths of the gateway, behind `v1`. -/
def gatewayPaths : List (List String) := [["chat", "completions"], ["completions"], ["embeddings"]]

theorem of_routeV1 {method : String} {rest path : List String}
    (h : Daemon.routeV1 method rest = .handler (.gatewayProxy path)) :
    method = "POST" ∧ rest ∈ gatewayPaths := by
  unfold Daemon.routeV1 at h
  split at h
  · cases h
  · exact ⟨rfl, by decide⟩
  · exact ⟨rfl, by decide⟩
  · exact ⟨rfl, by decide⟩
  · cases h

theorem routeHub_ne_gateway (state : Daemon.AccessState) (req : Daemon.Request)
    (rest path : List String) : Daemon.routeHub state req rest ≠ .handler (.gatewayProxy path) := by
  intro h
  unfold Daemon.routeHub at h
  dsimp only at h
  split at h
  all_goals first | cases h | cases (Daemon.of_gated_eq_handler h).2

theorem routeApi_ne_gateway (state : Daemon.AccessState) (req : Daemon.Request)
    (rest path : List String) : Daemon.routeApi state req rest ≠ .handler (.gatewayProxy path) := by
  intro h
  unfold Daemon.routeApi at h
  split at h
  · cases h
  · split at h
    · split at h
      all_goals cases h
    · split at h
      all_goals cases h

/-- The gateway gets what is posted to its three paths, whatever the gates look at. -/
theorem of_route {state : Daemon.AccessState} {now : Instant} {req : Daemon.Request}
    {path : List String}
    (h : (Daemon.route state now req).1 = .handler (.gatewayProxy path)) :
    req.method = "POST" ∧ ∃ rest ∈ gatewayPaths, req.segments = "v1" :: rest := by
  have hsurface : Daemon.routeSurface state req = .handler (.gatewayProxy path) := by
    unfold Daemon.route at h
    split at h
    · cases h
    · split at h
      · cases h
      · exact h
  unfold Daemon.routeSurface at hsurface
  split at hsurface
  case h_4 => cases (Daemon.of_gated_eq_handler hsurface).2
  case h_6 _ rest hsegments =>
    split at hsurface
    · cases hsurface
    · obtain ⟨hmethod, hrest⟩ := of_routeV1 hsurface
      exact ⟨hmethod, rest, hrest, hsegments⟩
  case h_7 =>
    split at hsurface
    · exact absurd hsurface (routeHub_ne_gateway _ _ _ _)
    · cases hsurface
  case h_8 =>
    dsimp only at hsurface
    split at hsurface
    · cases hsurface
    · exact absurd hsurface (routeApi_ne_gateway _ _ _ _)
  all_goals cases hsurface

/-! ## The path -/

def isRouteChar (c : Char) : Bool := c.isAlphanum || c = '/'

/-- Every character of a path is a slash or stands in a segment. -/
theorem mem_splitOn_of_mem {c : Char} {text : List Char} (h : c ∈ text) :
    c = '/' ∨ ∃ piece ∈ text.splitOn '/', c ∈ piece := by
  induction text with
  | nil => cases h
  | cons d text ih =>
    rw [List.splitOn_cons_eq_if_modifyHead]
    by_cases hd : d = '/'
    · rw [if_pos (beq_iff_eq.mpr hd)]
      rcases List.mem_cons.mp h with rfl | hmem
      · exact .inl hd
      · refine (ih hmem).imp_right fun ⟨piece, hpiece, hin⟩ ↦ ?_
        exact ⟨piece, List.mem_cons_of_mem _ hpiece, hin⟩
    · rw [if_neg (mt beq_iff_eq.mp hd)]
      cases hsplit : text.splitOn '/' with
      | nil => exact absurd hsplit (List.splitOn_ne_nil _ _)
      | cons first pieces =>
        rw [hsplit] at ih
        rw [List.modifyHead_cons]
        rcases List.mem_cons.mp h with rfl | hmem
        · exact .inr ⟨c :: first, List.mem_cons_self, List.mem_cons_self⟩
        · refine (ih hmem).imp_right fun ⟨piece, hpiece, hin⟩ ↦ ?_
          rcases List.mem_cons.mp hpiece with rfl | hrest
          · exact ⟨d :: piece, List.mem_cons_self, List.mem_cons_of_mem _ hin⟩
          · exact ⟨piece, List.mem_cons_of_mem _ hrest, hin⟩

theorem isRouteChar_of_segments {req : Daemon.Request} {rest : List String}
    (hrest : rest ∈ gatewayPaths) (h : req.segments = "v1" :: rest) :
    ∀ c ∈ req.path.toList, isRouteChar c = true := by
  have hall : (gatewayPaths.all fun rest ↦
      ("v1" :: rest).all fun segment ↦ segment.toList.all isRouteChar) = true := by decide
  intro c hc
  rcases mem_splitOn_of_mem hc with rfl | ⟨piece, hpiece, hmem⟩
  · decide
  · have hsegment : String.ofList piece ∈ "v1" :: rest := by
      rw [← h, Daemon.Request.segments]
      apply List.mem_map_of_mem
      rw [List.mem_filter, decide_eq_true_eq]
      exact ⟨hpiece, List.ne_nil_of_mem hmem⟩
    have hchars := List.all_eq_true.mp (List.all_eq_true.mp hall rest hrest) _ hsegment
    rw [String.toList_ofList] at hchars
    exact List.all_eq_true.mp hchars c hmem

/-- A text whose first byte is a slash begins with one. -/
theorem head?_of_bytes {text : String} {rest : List UInt8} (h : bytes text = 47 :: rest) :
    text.toList.head? = some '/' := by
  rw [bytes_eq_flatMap] at h
  cases htext : text.toList with
  | nil =>
    rw [htext] at h
    cases h
  | cons c chars =>
    rw [htext, List.flatMap_cons] at h
    have hfirst : 47 ∈ String.utf8EncodeChar c := by
      cases hencode : String.utf8EncodeChar c with
      | nil => exact absurd hencode String.utf8EncodeChar_ne_nil
      | cons byte bytes =>
        rw [hencode, List.cons_append, List.cons.injEq] at h
        exact h.1 ▸ List.mem_cons_self
    by_cases hascii : c.toNat < 0x80
    · rw [utf8EncodeChar_of_ascii hascii, List.mem_singleton, ← UInt8.toNat_inj,
        UInt8.toNat_ofNat', Nat.mod_eq_of_lt (by omega)] at hfirst
      rw [List.head?_cons, Option.some.injEq]
      exact Char.toNat_inj.mp hfirst.symm
    · exact absurd (le_of_mem_utf8EncodeChar (not_lt.mp hascii) _ hfirst) (by decide)

/-- Decoding keeps the slash that a target begins with. -/
theorem head?_of_splitTarget {target path : String} {query : Ordered.Map String String}
    (htarget : targetOk target = true) (h : splitTarget target = some (path, query)) :
    path.toList.head? = some '/' := by
  rw [targetOk, Bool.and_eq_true, Bool.and_eq_true, decide_eq_true_eq] at htarget
  obtain ⟨after, hafter⟩ := List.head?_eq_some_iff.mp htarget.1.1
  obtain ⟨tail, hfront⟩ : ∃ tail, ((splitOnce ['?'] target.toList).getD (target.toList, [])).1 =
      '/' :: tail := by
    cases hsplit : splitOnce ['?'] target.toList with
    | none => exact ⟨after, hafter⟩
    | some halves =>
      obtain ⟨left, right⟩ := halves
      have htext := (splitOnce_eq_some_iff.mp hsplit).1
      rw [hafter] at htext
      cases left with
      | nil => cases htext
      | cons c left =>
        cases htext
        exact ⟨left, rfl⟩
  simp only [splitTarget, Option.bind_eq_bind, Option.bind_eq_some_iff] at h
  obtain ⟨map, -, decoded, hdecode, h⟩ := h
  split at h
  · cases h
  · cases h
    rw [hfront, percentDecode, Option.bind_eq_some_iff] at hdecode
    obtain ⟨out, hout, htext⟩ := hdecode
    have hslash : bytes (String.ofList ('/' :: tail)) = 47 :: bytes (String.ofList tail) := by
      rw [bytes_eq_flatMap, bytes_eq_flatMap, String.toList_ofList, String.toList_ofList,
        List.flatMap_cons, utf8EncodeChar_of_ascii (by decide)]
      rfl
    rw [hslash, percentDecodeBytes_cons (by decide), Option.map_eq_some_iff] at hout
    obtain ⟨more, -, rfl⟩ := hout
    split at htext
    · cases htext
    · exact head?_of_bytes (bytes_of_fromUtf8 htext)

theorem pathChar_of_isRouteChar {c : Char} (h : isRouteChar c = true) :
    isPathChar c = true ∧ c ≠ '%' := by
  rw [isRouteChar, Bool.or_eq_true, decide_eq_true_eq] at h
  rcases h with halnum | rfl
  · refine ⟨by rw [isPathChar, isUnreserved, halnum]; rfl, ?_⟩
    rintro rfl
    exact absurd halnum (by decide)
  · exact ⟨by decide, by decide⟩

/-- A path of the gateway is read back as it is. -/
theorem splitTarget_routePath {path : String} (h : ∀ c ∈ path.toList, isRouteChar c = true) :
    splitTarget path = some (path, .empty) := by
  have hsplit := splitTarget_percentEncode (fun c hc ↦ pathChar_of_isRouteChar (h c hc)) ""
  have hempty : percentEncode "" = [] := by decide
  rwa [hempty, List.append_nil, String.ofList_toList, if_neg (by decide), String.toList_empty,
    List.append_nil, String.ofList_toList] at hsplit

theorem targetOk_routePath {path : String} (h : ∀ c ∈ path.toList, isRouteChar c = true)
    (hhead : path.toList.head? = some '/') : targetOk path = true := by
  have hchar (c : Char) (hc : c ∈ path.toList) :=
    toNat_of_isPathChar (pathChar_of_isRouteChar (h c hc)).1
  rw [targetOk, hhead, Bool.and_eq_true, Bool.and_eq_true]
  refine ⟨⟨decide_eq_true rfl, decide_eq_true ?_⟩, List.all_eq_true.mpr ?_⟩
  · exact fun hmem ↦ (hchar _ hmem).2.2.2 rfl
  · intro c hc
    obtain ⟨hlow, hhigh, -⟩ := hchar c hc
    rw [Bool.and_eq_true, decide_eq_true_eq, decide_eq_true_eq]
    omega

theorem unbroken_routePath {path : String} (h : ∀ c ∈ path.toList, isRouteChar c = true) :
    ∀ c ∈ path.toList, isWhitespace c = false := by
  intro c hc
  obtain ⟨hlow, hhigh, -⟩ := toNat_of_isPathChar (pathChar_of_isRouteChar (h c hc)).1
  simp only [isWhitespace, decide_eq_false_iff_not]
  omega

/-! ## The head -/

/-- A header whose value is clean, under a name that may have capitals. -/
structure Written (header : String × String) : Prop where
  name : isToken header.1 = true
  clean : CleanHeader (toAsciiLowercase header.1) header.2

def lowered (header : String × String) : String × String :=
  (toAsciiLowercase header.1, header.2)

theorem trimmedLine_written {header : String × String} (h : Written header) :
    Http.IsLine (headerLine header) ∧
      trimmedLine (headerLine header) = (headerLine header).toList :=
  trimmedLine_token (isToken_iff.mp h.name).2 h.clean.value

theorem headerFields_written {headers : List (String × String)}
    (h : ∀ header ∈ headers, Written header) :
    headerFields (headers.map headerLine) = some (headers.map lowered) := by
  induction headers with
  | nil => rfl
  | cons header headers ih =>
    obtain ⟨hfirst, hrest⟩ := List.forall_mem_cons.mp h
    rw [List.map_cons, headerFields_cons, (trimmedLine_written hfirst).2,
      headerField_headerLine hfirst.clean, Option.bind_some, ih hrest]
    rfl

namespace ProxyRequest

def line (req : ProxyRequest) : String := req.method ++ " " ++ req.path ++ " HTTP/1.1"

def written (req : ProxyRequest) : List (String × String) :=
  [("Host", s!"{req.host}:{req.port.toNat}"), ("Content-Type", req.contentType),
    ("Content-Length", toString req.body.length), ("Connection", "close")] ++
    (req.backendKey.map fun key ↦ ("Authorization", "Bearer " ++ key)).toList

def fields (req : ProxyRequest) : List (String × String) :=
  [("host", s!"{req.host}:{req.port.toNat}"), ("content-type", req.contentType),
    ("content-length", toString req.body.length), ("connection", "close")] ++
    (req.backendKey.map fun key ↦ ("authorization", "Bearer " ++ key)).toList

theorem map_lowered (req : ProxyRequest) : req.written.map lowered = req.fields := by
  have hnames : ["Host", "Content-Type", "Content-Length", "Connection", "Authorization"].map
      toAsciiLowercase =
        ["host", "content-type", "content-length", "connection", "authorization"] := by
    decide
  simp only [List.map_cons, List.map_nil, List.cons.injEq, and_true] at hnames
  obtain ⟨hhost, htype, hlength, hconnection, hkey⟩ := hnames
  cases hbackend : req.backendKey with
  | none => simp [written, fields, lowered, hhost, htype, hlength, hconnection, hbackend]
  | some key => simp [written, fields, lowered, hhost, htype, hlength, hconnection, hkey, hbackend]

def lines (req : ProxyRequest) : HeadLines := ⟨req.line, req.written.map headerLine, ""⟩

theorem head_eq_join (req : ProxyRequest) : req.head = req.line ++ "\r\n" ++
    String.join (req.written.map fun header ↦ headerLine header ++ "\r\n") ++ "\r\n" := by
  have hversion : " HTTP/1.1\r\nHost: " = " HTTP/1.1" ++ ("\r\n" ++ ("Host" ++ ": ")) := by
    decide
  have htype : "\r\nContent-Length: " = "\r\n" ++ ("Content-Length" ++ ": ") := by decide
  have hclose : "Connection: close\r\n" = "Connection" ++ (": " ++ ("close" ++ "\r\n")) := by
    decide
  have hkey : "Authorization: Bearer " = "Authorization" ++ (": " ++ "Bearer ") := by decide
  have hcontent : "Content-Type: " = "Content-Type" ++ ": " := by decide
  have htext (text : String) : toString text = text := rfl
  unfold head
  cases hbackend : req.backendKey with
  | none =>
    simp only [line, written, hbackend, hversion, htype, hclose, hcontent, htext, headerLine,
      Option.map_none, Option.toList_none, List.append_nil, List.map_cons, List.map_nil,
      String.join_cons, String.join_nil, String.append_assoc, String.append_empty]
  | some key =>
    simp only [line, written, hbackend, hversion, htype, hclose, hcontent, hkey, htext, headerLine,
      Option.map_some, Option.toList_some, List.cons_append, List.nil_append, List.map_cons,
      List.map_nil, String.join_cons, String.join_nil, String.append_assoc, String.append_empty]

theorem bytes_head (req : ProxyRequest) : bytes req.head = req.lines.raw := by
  rw [head_eq_join, bytes_append, bytes_append, bytes_append, bytes_join, List.flatMap_map,
    HeadLines.raw, fieldSection, lineBytes, bytes_append, lines, List.flatMap_map,
    List.append_assoc]
  rfl

def readHead (req : ProxyRequest) : Head :=
  ⟨req.method, req.path, "HTTP/1.1", insertAll .empty req.fields⟩

theorem nodup_fields (req : ProxyRequest) : (req.fields.map Prod.fst).Nodup := by
  cases hbackend : req.backendKey with
  | none => simp [fields, hbackend]
  | some key => simp [fields, hbackend]

theorem get?_readHead (req : ProxyRequest) (name value : String) :
    req.readHead.headers.get? name = some value ↔ (name, value) ∈ req.fields :=
  get?_insertAll req.nodup_fields name value

/-- A request that a reader can take: a posted route, values that stand in a line, and a head and a
body within the limits. -/
structure Forwardable (req : ProxyRequest) : Prop where
  method : req.method = "POST"
  path : ∀ c ∈ req.path.toList, isRouteChar c = true
  rooted : req.path.toList.head? = some '/'
  host : CleanHeader "host" s!"{req.host}:{req.port.toNat}"
  type : CleanHeader "content-type" req.contentType
  key : ∀ key, req.backendKey = some key → CleanHeader "authorization" ("Bearer " ++ key)
  budget : (bytes req.head).length ≤ maxHead
  body : req.body.length ≤ maxRequestBodyBytes

theorem cleanHeader_fields {req : ProxyRequest} (h : req.Forwardable) :
    ∀ field ∈ req.fields, CleanHeader field.1 field.2 := by
  have hlength : CleanHeader "content-length" (toString req.body.length) :=
    ⟨by decide, by decide, trim_decimal _, fun _ hc ↦ isValueChar_of_mem_decimal hc⟩
  have hclose : CleanHeader "connection" "close" := cleanHeader_of_all (by decide) (by decide)
    (by decide) (by decide)
  intro field hfield
  rw [fields, List.mem_append] at hfield
  rcases hfield with hfield | hkey
  · simp only [List.mem_cons, List.not_mem_nil, or_false] at hfield
    rcases hfield with rfl | rfl | rfl | rfl
    · exact h.host
    · exact h.type
    · exact hlength
    · exact hclose
  · obtain ⟨key, hbackend, rfl⟩ := Option.map_eq_some_iff.mp (Option.mem_toList.mp hkey)
    exact h.key key hbackend

theorem written_of_mem {req : ProxyRequest} (h : req.Forwardable) :
    ∀ header ∈ req.written, Written header := by
  have htokens : (["Host", "Content-Type", "Content-Length", "Connection",
      "Authorization"].all isToken) = true := by decide
  have htoken (name : String) (hname : name ∈ ["Host", "Content-Type", "Content-Length",
      "Connection", "Authorization"]) : isToken name = true :=
    List.all_eq_true.mp htokens name hname
  intro header hheader
  refine ⟨htoken header.1 ?_, ?_⟩
  · rw [written, List.mem_append] at hheader
    rcases hheader with hfixed | hkey
    · simp only [List.mem_cons, List.not_mem_nil, or_false] at hfixed
      rcases hfixed with rfl | rfl | rfl | rfl <;> simp
    · obtain ⟨key, -, rfl⟩ := Option.map_eq_some_iff.mp (Option.mem_toList.mp hkey)
      simp
  · apply cleanHeader_fields h (lowered header)
    rw [← map_lowered]
    exact List.mem_map_of_mem hheader

theorem readable_readHead {req : ProxyRequest} (h : req.Forwardable) : req.readHead.Readable where
  method := by
    rw [readHead, h.method]
    exact (by decide : isToken "POST" = true)
  target := targetOk_routePath h.path h.rooted
  unbroken := unbroken_routePath h.path
  version := .inr rfl
  host := by
    intro _
    rw [Option.isSome_iff_exists]
    exact ⟨_, (req.get?_readHead _ _).mpr List.mem_cons_self⟩
  headers := fun name value hget ↦
    cleanHeader_fields h (name, value) ((req.get?_readHead _ _).mp hget)

theorem line_readHead (req : ProxyRequest) : req.readHead.line = req.line := by
  have hversion : " HTTP/1.1" = " " ++ "HTTP/1.1" := by decide
  rw [Head.line, line, hversion, ← String.append_assoc]
  rfl

theorem reads_lines {req : ProxyRequest} (h : req.Forwardable) : req.lines.Reads req.readHead where
  line := by
    rw [lines, ← line_readHead]
    exact isLine_line (readable_readHead h)
  request := by
    rw [lines, ← line_readHead]
    exact requestLine_line (readable_readHead h)
  ends := by
    refine ⟨?_, show Http.IsLine "" by decide, show trimmedLine "" = [] by decide⟩
    intro line hline
    obtain ⟨header, hheader, rfl⟩ := List.mem_map.mp hline
    obtain ⟨hbreak, htrimmed⟩ := trimmedLine_written (written_of_mem h header hheader)
    refine ⟨hbreak, ?_⟩
    rw [htrimmed, headerLine_toList]
    simp
  headers := by
    refine addHeaders_eq_some_iff.mpr ⟨req.fields, ?_, req.nodup_fields, fun _ _ ↦ rfl, rfl⟩
    rw [lines, headerFields_written (written_of_mem h), map_lowered]
  host := (readable_readHead h).host
  budget := by
    rw [← bytes_head]
    exact h.budget

theorem isBody {req : ProxyRequest} (h : req.Forwardable) :
    IsBody req.readHead.headers req.body := by
  have hlength : req.readHead.headers.get? "content-length" = some (toString req.body.length) :=
    (req.get?_readHead _ _).mpr (by simp [fields])
  refine ⟨fun text htext ↦ ?_, fun hnone ↦ ?_, h.body⟩
  · obtain rfl := Option.some.inj (hlength.symm.trans htext)
    have hsmall : maxRequestBodyBytes < UInt64.size := by decide
    exact parseUsize_decimal (h.body.trans_lt hsmall)
  · rw [hlength] at hnone
    cases hnone

/-- A reader of requests takes a forwarded request as it is meant, and leaves what follows. -/
theorem parseIncoming_raw {req : ProxyRequest} (h : req.Forwardable) (more : List UInt8) :
    parseIncoming false (req.raw ++ more) =
      .ok (.request ⟨req.method, req.path, .empty, req.readHead.headers, req.body⟩, more) := by
  refine parseIncoming_eq_ok_iff.mpr ⟨req.lines.raw ++ req.body, ?_, ?_⟩
  · refine .request (reads_lines h) rfl ?_ ?_ (splitTarget_routePath h.path) (isBody h)
    · rw [readHead, h.method]
      exact (by decide : isAnswered "POST" = true)
    · cases hcoding : req.readHead.headers.get? "transfer-encoding" with
      | none => rfl
      | some value =>
        have hmem := (req.get?_readHead _ _).mp hcoding
        cases hbackend : req.backendKey with
        | none => simp [fields, hbackend] at hmem
        | some key => simp [fields, hbackend] at hmem
  · rw [raw, bytes_head]

end ProxyRequest

/-- What the backend reads of a request that the router has taken to the gateway: the method, the
path and the body of the client, and five headers, of which only the content type is the client's.
-/
theorem backend_reads_request {field : Bool} {stream rest : List UInt8} {req : Request}
    (hclient : parseIncoming field stream = .ok (.request req, rest))
    {state : Daemon.AccessState} {now : Instant} {fromUnix : Bool} {peerIp : Option String}
    {path : List String}
    (hroute : (Daemon.route state now (Daemon.received req fromUnix peerIp)).1 =
      .handler (.gatewayProxy path))
    {host : String} {port : UInt16} {key : Option String}
    (hhost : CleanHeader "host" s!"{host}:{port.toNat}")
    (hkey : ∀ text, key = some text → CleanHeader "authorization" ("Bearer " ++ text))
    (hbudget : (bytes (gatewayRequest req host port key).head).length ≤ maxHead)
    (more : List UInt8) :
    ∃ headers, parseIncoming false ((gatewayRequest req host port key).raw ++ more) =
        .ok (.request ⟨"POST", req.path, .empty, headers, req.body⟩, more) ∧
      ∀ name value, headers.get? name = some value ↔
        (name, value) ∈ [("host", s!"{host}:{port.toNat}"),
          ("content-type", (req.headers.get? "content-type").getD "application/json"),
          ("content-length", toString req.body.length), ("connection", "close")] ++
          (key.map fun text ↦ ("authorization", "Bearer " ++ text)).toList := by
  obtain ⟨hmethod, paths, hpaths, hsegments⟩ := of_route hroute
  obtain ⟨consumed, hconsumes, -⟩ := parseIncoming_eq_ok_iff.mp hclient
  cases hconsumes with
  | @request lines head target query body hreads hfield hanswered hcoding hsplit hbody =>
    have hreadable : head.Readable := readable_of_parseHead
      (parseHead_eq_ok_iff.mpr ⟨lines, hreads, (List.append_nil _).symm⟩)
    have htype : CleanHeader "content-type"
        ((head.headers.get? "content-type").getD "application/json") := by
      cases hget : head.headers.get? "content-type" with
      | none =>
        exact cleanHeader_of_all (by decide) (by decide) (by decide)
          (by decide)
      | some value => exact hreadable.headers _ value hget
    have hforwardable : (gatewayRequest ⟨head.method, target, query, head.headers, body⟩ host port
        key).Forwardable :=
      { method := hmethod
        path := isRouteChar_of_segments hpaths hsegments
        rooted := head?_of_splitTarget hreadable.target hsplit
        host := hhost
        type := htype
        key := hkey
        budget := hbudget
        body := hbody.small }
    refine ⟨(gatewayRequest ⟨head.method, target, query, head.headers, body⟩ host port
      key).readHead.headers, ?_, fun name value ↦ ?_⟩
    · rw [ProxyRequest.parseIncoming_raw hforwardable, hforwardable.method]
      rfl
    · exact ProxyRequest.get?_readHead _ name value

/-- A client's request, with an encoded slash, a query and a credential of its own. -/
def chatStream : List UInt8 :=
  bytes ("POST /v1//chat%2Fcompletions?trace=1 HTTP/1.1\r\nHost: node:9090\r\n" ++
    "Authorization: Bearer console-key-01234\r\nContent-Length: 2\r\n\r\n\x7b\x7d")

def asked : Parsed → Option Request
  | .request req => some req
  | .fieldRedirect _ | .field _ _ => none

theorem exists_request {stream : List UInt8} {check : Request → Bool}
    (h : ((parseIncoming false stream).toOption.any fun accepted ↦
      (asked accepted.1).any check) = true) :
    ∃ req rest, parseIncoming false stream = .ok (.request req, rest) ∧ check req = true := by
  cases hparse : parseIncoming false stream with
  | error error =>
    rw [hparse] at h
    cases h
  | ok accepted =>
    rw [hparse] at h
    obtain ⟨answer, rest⟩ := accepted
    cases answer with
    | request req => exact ⟨req, rest, rfl, h⟩
    | fieldRedirect location => cases h
    | field head target => cases h

theorem route_chat {req : Request} (hmethod : req.method = "POST")
    (hpath : req.path = "/v1//chat/completions") :
    (Daemon.route (Daemon.freshAccess ⟨[]⟩) 0 (Daemon.received req true none)).1 =
      .handler (.gatewayProxy ["chat", "completions"]) := by
  have hsegments : (Daemon.received req true none).segments = ["v1", "chat", "completions"] := by
    rw [Daemon.Request.segments, Daemon.received, hpath]
    exact (by decide : (("/v1//chat/completions".toList.splitOn '/').filter (· ≠ [])).map
      String.ofList = ["v1", "chat", "completions"])
  have hsurface : Daemon.routeSurface (Daemon.freshAccess ⟨[]⟩) (Daemon.received req true none) =
      .handler (.gatewayProxy ["chat", "completions"]) := by
    have hsame : (Daemon.received req true none).method = "POST" := hmethod
    rw [Daemon.routeSurface, hsegments, hsame]
    rfl
  exact hsurface

theorem backend_reads_request_chat :
    ∃ req rest headers, parseIncoming false chatStream = .ok (.request req, rest) ∧
      parseIncoming false
        (gatewayRequest req "127.0.0.1" 8080 (some "backend-key")).raw =
        .ok (.request ⟨"POST", "/v1//chat/completions", .empty, headers, [123, 125]⟩, []) ∧
      headers.get? "authorization" = some "Bearer backend-key" := by
  obtain ⟨req, rest, hclient, hcheck⟩ := @exists_request chatStream
    (fun req ↦ req.method = "POST" && req.path = "/v1//chat/completions" &&
      decide (req.body = [123, 125]) && decide ((bytes (gatewayRequest req "127.0.0.1" 8080
        (some "backend-key")).head).length ≤ maxHead)) (by decide +kernel)
  simp only [Bool.and_eq_true, decide_eq_true_eq] at hcheck
  obtain ⟨⟨⟨hmethod, hpath⟩, hbody⟩, hbudget⟩ := hcheck
  have hhost : CleanHeader "host" ("127.0.0.1" ++ ":" ++ toString (8080 : UInt16).toNat) :=
    cleanHeader_of_all (by decide) (by decide) (by decide)
      (by decide)
  have hkey (text : String) (htext : some "backend-key" = some text) :
      CleanHeader "authorization" ("Bearer " ++ text) := by
    cases htext
    exact cleanHeader_of_all (by decide) (by decide) (by decide)
      (by decide)
  obtain ⟨headers, hread, hheaders⟩ :=
    backend_reads_request hclient (route_chat hmethod hpath) hhost hkey hbudget []
  refine ⟨req, rest, headers, hclient, ?_, ?_⟩
  · rw [List.append_nil, hpath, hbody] at hread
    exact hread
  · rw [hheaders]
    simp

end Cameo.Gateway
