import Cameo.Http.Rendering

/-!
# The field proxy

`field_request_head` writes an accepted head again for the upstream, with five headers of its own.
The upstream reads the same request: method, version, the target without the prefix, and every other
header.  What the client itself said of the forwarding makes no difference.
-/

namespace Cameo.Http

open Library

/-! ## Addresses as texts -/

/-- `write!(f, "{:x}", segment)`. -/
def hexGroup (segment : ℕ) : List Char := Nat.toDigits 16 segment

/-- `fmt_subslice`: groups between colons. -/
def groupsText : List ℕ → List Char
  | [] => []
  | first :: tail => hexGroup first ++ tail.flatMap fun segment ↦ ':' :: hexGroup segment

structure Span where
  start : ℕ
  len : ℕ

def longestZeros (segments : List ℕ) : Span :=
  let extend (spans : Span × Span) (group : ℕ × ℕ) : Span × Span :=
    if group.1 = 0 then
      let current : Span := ⟨if spans.2.len = 0 then group.2 else spans.2.start, spans.2.len + 1⟩
      (if current.len > spans.1.len then current else spans.1, current)
    else (spans.1, ⟨0, 0⟩)
  (segments.zipIdx.foldl extend (⟨0, 0⟩, ⟨0, 0⟩)).1

/-- `Ipv4Addr`, as `Display` writes it. -/
def ipv4Text (ip : Ipv4Addr) : List Char :=
  Nat.toDigits 10 ip.a.toNat ++ '.' :: Nat.toDigits 10 ip.b.toNat ++ '.' ::
    Nat.toDigits 10 ip.c.toNat ++ '.' :: Nat.toDigits 10 ip.d.toNat

/-- `Ipv6Addr`, as `Display` writes it. -/
def ipv6Text (ip : Ipv6Addr) : List Char :=
  match ip with
  | [0, 0, 0, 0, 0, 0xffff, high, low] =>
    "::ffff:".toList ++
      ipv4Text ⟨.ofNat (high / 256), .ofNat high, .ofNat (low / 256), .ofNat low⟩
  | segments =>
    let zeroes := longestZeros segments
    if zeroes.len > 1 then
      groupsText (segments.take zeroes.start) ++ "::".toList ++
        groupsText (segments.drop (zeroes.start + zeroes.len))
    else groupsText segments

/-- `IpAddr::to_string`. -/
def ipText : IpAddr → String
  | .v4 ip => String.ofList (ipv4Text ip)
  | .v6 ip => String.ofList (ipv6Text ip)

/-- `SocketAddr`, as far as it is written. -/
inductive SocketAddr where
  | v4 (ip : Ipv4Addr) (port : UInt16)
  | v6 (ip : Ipv6Addr) (port : UInt16) (scopeId : UInt32)

/-- `SocketAddr::to_string`. -/
def socketText : SocketAddr → String
  | .v4 ip port => String.ofList (ipv4Text ip ++ ':' :: Nat.toDigits 10 port.toNat)
  | .v6 ip port scopeId =>
    let scope := if scopeId = 0 then [] else '%' :: Nat.toDigits 10 scopeId.toNat
    String.ofList ('[' :: ipv6Text ip ++ scope ++ "]:".toList ++ Nat.toDigits 10 port.toNat)

example :
    socketText (.v6 [0x2001, 0xdb8, 0, 0, 1, 0, 0, 1] 8080 0) = "[2001:db8::1:0:0:1]:8080" := by
  decide

/-! ## The rewritten head -/

def isUpgrade (connection : String) : Bool :=
  (connection.toList.splitOn ',').any fun t ↦ eqIgnoreAsciiCase (trim (String.ofList t)) "upgrade"

/-- `headers.insert` of a value that there is, and `headers.remove` otherwise. -/
def store (headers : Ordered.Map String String) (name : String) :
    Option String → Ordered.Map String String
  | some value => headers.insert name value
  | none => headers.erase name

/-- The headers that `field_request_head` forwards. -/
def fieldHeaders (client : Ordered.Map String String) (upstream : SocketAddr) (secure : Bool)
    (peerIp : Option IpAddr) : Ordered.Map String String :=
  let headers := client.insert "host" (socketText upstream)
  let headers := store headers "x-forwarded-host" (client.get? "host")
  let headers := headers.insert "x-forwarded-proto" (if secure then "https" else "http")
  let headers := store headers "x-forwarded-for" (peerIp.map ipText)
  if (headers.get? "connection").any isUpgrade then headers
  else headers.insert "connection" "close"

def fieldHead (head : Head) (target : String) (upstream : SocketAddr) (secure : Bool)
    (peerIp : Option IpAddr) : Head where
  method := head.method
  target := target
  version := head.version
  headers := fieldHeaders head.headers upstream secure peerIp

/-- `field_request_head`. -/
def fieldRequestHead (head : Head) (target : String) (upstream : SocketAddr) (secure : Bool)
    (peerIp : Option IpAddr) : String := (fieldHead head target upstream secure peerIp).render

/-! ## The texts of addresses -/

def isAddressChar (c : Char) : Bool := c ∈ "0123456789abcdef.:[]%".toList

theorem isAddressChar_of_mem_toDigits {base : ℕ} (hbase : 1 < base) (hle : base ≤ 16) (n : ℕ) :
    ∀ c ∈ Nat.toDigits base n, isAddressChar c = true := by
  have hdigit : ∀ d < 16, isAddressChar (Nat.digitChar d) = true := by decide
  induction n using Nat.strongRecOn with
  | ind n ih =>
    intro c hc
    rw [Nat.toDigits_eq_if hbase] at hc
    split at hc
    · rename_i hlt
      rw [List.mem_singleton.mp hc]
      exact hdigit n (hlt.trans_le hle)
    · rename_i hge
      rcases List.mem_append.mp hc with hc | hc
      · exact ih (n / base) (Nat.div_lt_self (by omega) hbase) c hc
      · rw [List.mem_singleton.mp hc]
        exact hdigit _ ((Nat.mod_lt _ (by omega)).trans_le hle)

theorem isAddressChar_of_mem_groupsText (segments : List ℕ) :
    ∀ c ∈ groupsText segments, isAddressChar c = true := by
  have hhex (n : ℕ) := isAddressChar_of_mem_toDigits (show 1 < 16 by decide) le_rfl n
  cases segments with
  | nil => exact nofun
  | cons first tail =>
    intro c hc
    rcases List.mem_append.mp hc with hc | hc
    · exact hhex first c hc
    · obtain ⟨segment, -, hc⟩ := List.mem_flatMap.mp hc
      rcases List.mem_cons.mp hc with rfl | hc
      · decide
      · exact hhex segment c hc

theorem isAddressChar_of_mem_ipv4Text (ip : Ipv4Addr) :
    ∀ c ∈ ipv4Text ip, isAddressChar c = true := by
  have hdecimal (n : ℕ) := isAddressChar_of_mem_toDigits (show 1 < 10 by decide) (by decide) n
  intro c hc
  simp only [ipv4Text, List.append_assoc, List.cons_append, List.mem_append, List.mem_cons] at hc
  rcases hc with hc | rfl | hc | rfl | hc | rfl | hc
  · exact hdecimal _ c hc
  · decide
  · exact hdecimal _ c hc
  · decide
  · exact hdecimal _ c hc
  · decide
  · exact hdecimal _ c hc

theorem isAddressChar_of_mem_ipv6Text (ip : Ipv6Addr) :
    ∀ c ∈ ipv6Text ip, isAddressChar c = true := by
  intro c hc
  unfold ipv6Text at hc
  split at hc
  · rcases List.mem_append.mp hc with hc | hc
    · exact List.all_eq_true.mp (by decide : "::ffff:".toList.all isAddressChar = true) c hc
    · exact isAddressChar_of_mem_ipv4Text _ c hc
  · dsimp only at hc
    split at hc
    · rcases List.mem_append.mp hc with hc | hc
      · rcases List.mem_append.mp hc with hc | hc
        · exact isAddressChar_of_mem_groupsText _ c hc
        · exact List.all_eq_true.mp (by decide : "::".toList.all isAddressChar = true) c hc
      · exact isAddressChar_of_mem_groupsText _ c hc
    · exact isAddressChar_of_mem_groupsText _ c hc

theorem isAddressChar_of_mem_ipText (ip : IpAddr) :
    ∀ c ∈ (ipText ip).toList, isAddressChar c = true := by
  cases ip with
  | v4 ip =>
    rw [ipText, String.toList_ofList]
    exact isAddressChar_of_mem_ipv4Text ip
  | v6 ip =>
    rw [ipText, String.toList_ofList]
    exact isAddressChar_of_mem_ipv6Text ip

theorem isAddressChar_of_mem_socketText (address : SocketAddr) :
    ∀ c ∈ (socketText address).toList, isAddressChar c = true := by
  have hdecimal (n : ℕ) := isAddressChar_of_mem_toDigits (show 1 < 10 by decide) (by decide) n
  cases address with
  | v4 ip port =>
    intro c hc
    rw [socketText, String.toList_ofList, List.mem_append, List.mem_cons] at hc
    rcases hc with hc | rfl | hc
    · exact isAddressChar_of_mem_ipv4Text ip c hc
    · decide
    · exact hdecimal _ c hc
  | v6 ip port scopeId =>
    intro c hc
    rw [socketText, String.toList_ofList] at hc
    simp only [List.mem_append, List.mem_cons, List.cons_append] at hc
    rcases hc with rfl | ((hc | hc) | hc) | hc
    · decide
    · exact isAddressChar_of_mem_ipv6Text ip c hc
    · split at hc
      · exact absurd hc List.not_mem_nil
      · rcases List.mem_cons.mp hc with rfl | hc
        · decide
        · exact hdecimal _ c hc
    · exact List.all_eq_true.mp (by decide : "]:".toList.all isAddressChar = true) c hc
    · exact hdecimal _ c hc

/-- The name of a header, with the text of an address. -/
theorem cleanHeader_of_address {name value : String} (htoken : isToken name = true)
    (hlower : toAsciiLowercase name = name) (h : ∀ c ∈ value.toList, isAddressChar c = true) :
    CleanHeader name value := by
  have hplain : ("0123456789abcdef.:[]%".toList.all fun c ↦
      !isWhitespace c && isValueChar c) = true := by decide
  have hchar : ∀ c ∈ value.toList, isWhitespace c = false ∧ isValueChar c = true := by
    intro c hc
    have hc' := List.all_eq_true.mp hplain c (of_decide_eq_true (h c hc))
    simpa using hc'
  refine ⟨htoken, hlower, ?_, fun c hc ↦ (hchar c hc).2⟩
  rw [trim, unpadded_iff.mp (unpadded_of_forall fun c hc ↦ (hchar c hc).1), String.ofList_toList]

/-! ## The forwarded headers -/

theorem get?_store (headers : Ordered.Map String String) (key : String) (value : Option String)
    (name : String) :
    (store headers key value).get? name = if name = key then value else headers.get? name := by
  cases value with
  | some text =>
    rw [store, Ordered.Map.get?_insert]
    by_cases h : name = key
    · rw [if_pos h, if_pos h.symm]
    · rw [if_neg h, if_neg (Ne.symm h)]
  | none => exact Ordered.Map.get?_erase headers key name

/-- The forwarded headers before the connection options. -/
def forwarded (client : Ordered.Map String String) (upstream : SocketAddr) (secure : Bool)
    (peerIp : Option IpAddr) (name : String) : Option String :=
  if name = "x-forwarded-for" then peerIp.map ipText
  else if name = "x-forwarded-proto" then some (if secure then "https" else "http")
  else if name = "x-forwarded-host" then client.get? "host"
  else if name = "host" then some (socketText upstream)
  else client.get? name

/-- What is forwarded under each name. -/
theorem get?_fieldHeaders (client : Ordered.Map String String) (upstream : SocketAddr)
    (secure : Bool) (peerIp : Option IpAddr) (name : String) :
    (fieldHeaders client upstream secure peerIp).get? name =
      if name = "connection" ∧ (client.get? "connection").any isUpgrade = false then some "close"
      else forwarded client upstream secure peerIp name := by
  have hset (headers : Ordered.Map String String) (key value other : String) :
      (headers.insert key value).get? other =
        if other = key then some value else headers.get? other :=
    get?_store headers key (some value) other
  unfold fieldHeaders
  dsimp only
  generalize hpeer : store _ "x-forwarded-for" (peerIp.map ipText) = peer
  have hforwarded (other : String) :
      peer.get? other = forwarded client upstream secure peerIp other := by
    rw [← hpeer, get?_store, hset, get?_store, hset]
    rfl
  rw [hforwarded "connection"]
  have hconnection : forwarded client upstream secure peerIp "connection" =
      client.get? "connection" := rfl
  rw [hconnection]
  cases hupgrade : (client.get? "connection").any isUpgrade with
  | true =>
    rw [if_pos rfl, if_neg (fun h ↦ Bool.noConfusion h.2)]
    exact hforwarded name
  | false =>
    rw [if_neg Bool.false_ne_true, hset, hforwarded]
    by_cases hname : name = "connection"
    · rw [if_pos hname, if_pos ⟨hname, rfl⟩]
    · rw [if_neg hname, if_neg (fun h ↦ hname h.1)]

/-! ## Faithfulness -/

theorem toList_of_forward {text target : String} (h : fieldRoute text = some (.forward target)) :
    text.toList = fieldPrefix.toList ++ target.toList ∧ target.toList.head? = some '/' := by
  rw [fieldRoute, Option.bind_eq_some_iff] at h
  obtain ⟨rest, hrest, h⟩ := h
  have htarget : rest = target ∧ rest.toList.head? = some '/' := by
    split at h
    · cases h
    · cases h
    · rename_i hslash
      cases h
      exact ⟨rfl, hslash⟩
    · cases h
  obtain ⟨rfl, hslash⟩ := htarget
  refine ⟨?_, hslash⟩
  unfold stripPrefix at hrest
  split at hrest
  · rename_i hprefix
    cases hrest
    rw [String.toList_ofList]
    exact List.prefix_iff_eq_append.mp (List.isPrefixOf_iff_prefix.mp hprefix) |>.symm
  · cases hrest

/-- The target without the prefix is as good as the one it is part of. -/
theorem targetOk_of_forward {text target : String}
    (hroute : fieldRoute text = some (.forward target)) (h : targetOk text = true) :
    targetOk target = true := by
  obtain ⟨htext, hslash⟩ := toList_of_forward hroute
  rw [targetOk, Bool.and_eq_true, Bool.and_eq_true, decide_eq_true_eq, decide_eq_true_eq,
    htext] at h
  rw [targetOk, Bool.and_eq_true, Bool.and_eq_true, decide_eq_true_eq, decide_eq_true_eq]
  refine ⟨⟨hslash, fun hmem ↦ h.1.2 (List.mem_append_right _ hmem)⟩, ?_⟩
  rw [List.all_append, Bool.and_eq_true] at h
  exact h.2.2

theorem cleanHeader_forwarded {client : Ordered.Map String String}
    (h : ∀ name value, client.get? name = some value → CleanHeader name value)
    {upstream : SocketAddr} {secure : Bool} {peerIp : Option IpAddr} {name value : String}
    (hget : forwarded client upstream secure peerIp name = some value) :
    CleanHeader name value := by
  unfold forwarded at hget
  split at hget
  · rename_i hname
    obtain ⟨ip, -, rfl⟩ := Option.map_eq_some_iff.mp hget
    rw [hname]
    exact cleanHeader_of_address (by decide) (by decide)
      (isAddressChar_of_mem_ipText ip)
  · split at hget
    · rename_i hname
      rw [Option.some.injEq] at hget
      rw [hname, ← hget]
      cases secure <;> exact cleanHeader_of_all (by decide) (by decide)
        (by decide) (by decide)
    · split at hget
      · rename_i hname
        have hhost := h "host" value hget
        rw [hname]
        exact ⟨by decide, by decide, hhost.trimmed, hhost.value⟩
      · split at hget
        · rename_i hname
          rw [Option.some.injEq] at hget
          rw [hname, ← hget]
          exact cleanHeader_of_address (by decide) (by decide)
            (isAddressChar_of_mem_socketText upstream)
        · exact h name value hget

/-- The head for the upstream can be read back. -/
theorem readable_fieldHead {head : Head} (h : head.Readable) {target : String}
    (hroute : fieldRoute head.target = some (.forward target)) (upstream : SocketAddr)
    (secure : Bool) (peerIp : Option IpAddr) :
    (fieldHead head target upstream secure peerIp).Readable where
  method := h.method
  target := targetOk_of_forward hroute h.target
  unbroken := by
    intro c hc
    refine h.unbroken c ?_
    rw [(toList_of_forward hroute).1]
    exact List.mem_append_right _ hc
  version := h.version
  host := by
    intro _
    rw [fieldHead, get?_fieldHeaders]
    rfl
  headers := by
    intro name value hget
    rw [fieldHead, get?_fieldHeaders] at hget
    split at hget
    · rename_i hclose
      rw [Option.some.injEq] at hget
      rw [hclose.1, ← hget]
      exact cleanHeader_of_all (by decide) (by decide) (by decide)
        (by decide)
    · exact cleanHeader_forwarded h.headers hget

/-- The headers that say what the client was forwarded from. -/
def forwardedNames : List String := ["x-forwarded-host", "x-forwarded-proto", "x-forwarded-for"]

/-- The headers that the proxy sets itself. -/
def rewrittenNames : List String := "host" :: "connection" :: forwardedNames

/-- The client's headers of other names are forwarded as they are. -/
theorem get?_fieldHeaders_of_not_rewritten {name : String} (h : name ∉ rewrittenNames)
    (client : Ordered.Map String String) (upstream : SocketAddr) (secure : Bool)
    (peerIp : Option IpAddr) :
    (fieldHeaders client upstream secure peerIp).get? name = client.get? name := by
  simp only [rewrittenNames, forwardedNames, List.mem_cons, List.not_mem_nil, or_false,
    not_or] at h
  obtain ⟨hhost, hconnection, hxhost, hproto, hfor⟩ := h
  rw [get?_fieldHeaders, if_neg fun hclose ↦ hconnection hclose.1, forwarded, if_neg hfor,
    if_neg hproto, if_neg hxhost, if_neg hhost]

/-- Clients that differ in the forwarding headers only are forwarded alike. -/
theorem fieldHeaders_congr {client other : Ordered.Map String String}
    (h : ∀ name, name ∉ forwardedNames → other.get? name = client.get? name)
    (upstream : SocketAddr) (secure : Bool) (peerIp : Option IpAddr) :
    fieldHeaders other upstream secure peerIp = fieldHeaders client upstream secure peerIp := by
  have hconnection := h "connection" (by decide)
  have hhost := h "host" (by decide)
  apply Ordered.Map.ext_get?
  intro name
  rw [get?_fieldHeaders, get?_fieldHeaders, hconnection, forwarded, forwarded, hhost]
  by_cases hname : name ∈ forwardedNames
  · simp only [forwardedNames, List.mem_cons, List.not_mem_nil, or_false] at hname
    rcases hname with rfl | rfl | rfl <;> rfl
  · rw [h name hname]

/-- What the upstream reads is the client's request without the prefix, with the proxy's own
headers in the place of the client's. -/
theorem fieldRequestHead_faithful {stream rest : List UInt8} {head : Head}
    (hhead : parseHead stream = .ok (head, rest)) {target : String}
    (hroute : fieldRoute head.target = some (.forward target)) (upstream : SocketAddr)
    (secure : Bool) (peerIp : Option IpAddr)
    (hsize : (bytes (fieldRequestHead head target upstream secure peerIp)).length ≤ maxHead) :
    (∃ again : Head,
      (∀ later, parseHead (bytes (fieldRequestHead head target upstream secure peerIp) ++ later) =
        .ok (again, later)) ∧
      again.method = head.method ∧ again.version = head.version ∧ again.target = target ∧
      (∀ name, name ∉ rewrittenNames → again.headers.get? name = head.headers.get? name) ∧
      again.headers.get? "connection" =
        if (head.headers.get? "connection").any isUpgrade then head.headers.get? "connection"
        else some "close") ∧
    ∀ other : Head, other.method = head.method → other.version = head.version →
      (∀ name, name ∉ forwardedNames → other.headers.get? name = head.headers.get? name) →
      fieldRequestHead other target upstream secure peerIp =
        fieldRequestHead head target upstream secure peerIp := by
  constructor
  · have hreadable := readable_fieldHead (readable_of_parseHead hhead) hroute upstream secure peerIp
    refine ⟨fieldHead head target upstream secure peerIp, parseHead_render hreadable hsize,
      rfl, rfl, rfl, fun name hname ↦ get?_fieldHeaders_of_not_rewritten hname _ _ _ _, ?_⟩
    rw [fieldHead, get?_fieldHeaders]
    cases (head.headers.get? "connection").any isUpgrade with
    | true => rfl
    | false => rfl
  · intro other hmethod hversion hheaders
    rw [fieldRequestHead, fieldRequestHead, fieldHead, fieldHead, hmethod, hversion,
      fieldHeaders_congr hheaders]

/-- An upgrade through the proxy, with a forwarding header of the client's. -/
def upgradeStream : List UInt8 :=
  bytes ("GET /field/live?x=1 HTTP/1.1\r\nHost: console:9090\r\nX-Forwarded-For: 192.0.2.1\r\n" ++
    "Connection: keep-alive, Upgrade\r\n\r\n")

def loopbackField : SocketAddr := .v4 ⟨127, 0, 0, 1⟩ 7070

theorem fieldRequestHead_faithful_upgrade :
    ∃ head rest again, parseHead upgradeStream = .ok (head, rest) ∧
      parseHead (bytes (fieldRequestHead head "/live?x=1" loopbackField true none)) =
        .ok (again, []) ∧
      again.headers.get? "connection" = some "keep-alive, Upgrade" := by
  obtain ⟨head, rest, hhead, hcheck⟩ := @exists_parseHead upgradeStream
    (fun head ↦ fieldRoute head.target = some (.forward "/live?x=1") &&
      decide ((bytes (fieldRequestHead head "/live?x=1" loopbackField true none)).length ≤
        maxHead) && head.headers.get? "connection" = some "keep-alive, Upgrade")
    (by decide +kernel)
  rw [Bool.and_eq_true, Bool.and_eq_true, decide_eq_true_eq, decide_eq_true_eq,
    decide_eq_true_eq] at hcheck
  obtain ⟨⟨hroute, hsize⟩, hconnection⟩ := hcheck
  obtain ⟨⟨again, hagain, -, -, -, -, hkept⟩, -⟩ :=
    fieldRequestHead_faithful hhead hroute loopbackField true none hsize
  refine ⟨head, rest, again, hhead, ?_, ?_⟩
  · have hwhole := hagain []
    rw [List.append_nil] at hwhole
    exact hwhole
  · rw [hkept, hconnection]
    decide

end Cameo.Http
