import Cameo.Http.Head
import Cameo.Http.Target

/-!
# Requests

`parse_incoming` reads the head of a request through its budget and the body, from the raw reader,
by its declared length.  An accepted request takes up exactly its head and its body: what follows is
left unread and makes no difference, and nothing shorter is accepted.
-/

namespace Cameo.Http

open Library

/-- `MAX_REQUEST_BODY_BYTES`. -/
def maxRequestBodyBytes : ℕ := 1024 * 1024

/-- `Request`, as `parse_incoming` makes it; where it came from is filled in later. -/
structure Request where
  method : String
  path : String
  query : Ordered.Map String String
  headers : Ordered.Map String String
  body : List UInt8

/-- `Parsed`. -/
inductive Parsed where
  | request (request : Request)
  | fieldRedirect (location : String)
  | field (head : Head) (target : String)

/-- `reader.read_exact`. -/
def readExact (length : ℕ) (reader : List UInt8) :
    Except ParseError (List UInt8 × List UInt8) :=
  if reader.length < length then .error (.io .unexpectedEof)
  else .ok (reader.take length, reader.drop length)

/-- The body of a request, with what is left of the stream. -/
def readBody (headers : Ordered.Map String String) (reader : List UInt8) :
    Except ParseError (List UInt8 × List UInt8) :=
  match headers.get? "content-length" with
  | none => .ok ([], reader)
  | some text =>
    match parseUsize text.toList with
    | none => .error .malformed
    | some length =>
      if length > maxRequestBodyBytes then .error .tooLarge else readExact length reader

/-- The field route of a target, if the proxy is on. -/
def routeOf (field : Bool) (target : String) : Option FieldRoute :=
  if field then fieldRoute target else none

def isAnswered (method : String) : Bool := method = "GET" || method = "POST" || method = "DELETE"

/-- `parse_incoming`, with what it leaves of the stream. -/
def parseIncoming (field : Bool) (stream : List UInt8) :
    Except ParseError (Parsed × List UInt8) := do
  let (head, reader) ← parseHead stream
  match routeOf field head.target with
  | some (.redirect location) => .ok (.fieldRedirect location, reader)
  | some (.forward target) => .ok (.field head target, reader)
  | none =>
    if !isAnswered head.method then .error .malformed
    -- A body in another framing would end elsewhere for a reverse proxy.
    else if (head.headers.get? "transfer-encoding").isSome then .error .malformed
    else
      match splitTarget head.target with
      | none => .error .malformed
      | some (path, query) =>
        let (body, reader) ← readBody head.headers reader
        .ok (.request ⟨head.method, path, query, head.headers, body⟩, reader)

/-! ## Reading a body -/

/-- The body that headers declare: as many bytes as the content length says, or none. -/
structure IsBody (headers : Ordered.Map String String) (body : List UInt8) : Prop where
  declared : ∀ text, headers.get? "content-length" = some text →
    parseUsize text.toList = some body.length
  absent : headers.get? "content-length" = none → body = []
  small : body.length ≤ maxRequestBodyBytes

theorem readExact_eq_ok_iff {length : ℕ} {reader body rest : List UInt8} :
    readExact length reader = .ok (body, rest) ↔ reader = body ++ rest ∧ body.length = length := by
  unfold readExact
  constructor
  · intro h
    split at h
    · cases h
    · rename_i hlong
      cases h
      exact ⟨(List.take_append_drop length reader).symm, by rw [List.length_take]; omega⟩
  · rintro ⟨rfl, rfl⟩
    rw [if_neg (by rw [List.length_append]; omega), List.take_left, List.drop_left]

theorem readBody_eq_ok_iff {headers : Ordered.Map String String} {reader body rest : List UInt8} :
    readBody headers reader = .ok (body, rest) ↔ IsBody headers body ∧ reader = body ++ rest := by
  unfold readBody
  cases hlength : headers.get? "content-length" with
  | none =>
    dsimp only
    constructor
    · intro h
      cases h
      refine ⟨⟨?_, fun _ ↦ rfl, Nat.zero_le _⟩, rfl⟩
      intro text htext
      rw [hlength] at htext
      cases htext
    · rintro ⟨hbody, rfl⟩
      rw [hbody.absent hlength]
      rfl
  | some text =>
    dsimp only
    constructor
    · intro h
      split at h
      · cases h
      · rename_i length hparsed
        split at h
        · cases h
        · rename_i hsmall
          obtain ⟨rfl, rfl⟩ := readExact_eq_ok_iff.mp h
          refine ⟨⟨?_, ?_, not_lt.mp hsmall⟩, rfl⟩
          · intro other hother
            rw [hlength] at hother
            cases hother
            exact hparsed
          · intro hnone
            rw [hlength] at hnone
            cases hnone
    · rintro ⟨hbody, rfl⟩
      rw [hbody.declared text hlength]
      dsimp only
      rw [if_neg (not_lt.mpr hbody.small)]
      exact readExact_eq_ok_iff.mpr ⟨rfl, rfl⟩

/-! ## What is accepted -/

/-- What `parse_incoming` reads of a stream that it accepts. -/
inductive Consumes (field : Bool) : List UInt8 → Parsed → Prop where
  | fieldRedirect {lines : HeadLines} {head : Head} {location : String}
      (hreads : lines.Reads head) (hroute : routeOf field head.target = some (.redirect location)) :
      Consumes field lines.raw (.fieldRedirect location)
  | field {lines : HeadLines} {head : Head} {target : String}
      (hreads : lines.Reads head) (hroute : routeOf field head.target = some (.forward target)) :
      Consumes field lines.raw (.field head target)
  | request {lines : HeadLines} {head : Head} {path : String}
      {query : Ordered.Map String String} {body : List UInt8}
      (hreads : lines.Reads head) (hroute : routeOf field head.target = none)
      (hmethod : isAnswered head.method = true)
      (hcoding : head.headers.get? "transfer-encoding" = none)
      (hsplit : splitTarget head.target = some (path, query))
      (hbody : IsBody head.headers body) :
      Consumes field (lines.raw ++ body)
        (.request ⟨head.method, path, query, head.headers, body⟩)

/-- An accepted stream begins with what is read of it, and the rest is left unread. -/
theorem parseIncoming_eq_ok_iff {field : Bool} {stream rest : List UInt8} {parsed : Parsed} :
    parseIncoming field stream = .ok (parsed, rest) ↔
      ∃ consumed, Consumes field consumed parsed ∧ stream = consumed ++ rest := by
  constructor
  · intro h
    rw [parseIncoming, bind_eq_ok] at h
    obtain ⟨⟨head, reader⟩, hhead, h⟩ := h
    obtain ⟨lines, hreads, rfl⟩ := parseHead_eq_ok_iff.mp hhead
    dsimp only at h
    split at h
    · rename_i location hroute
      cases h
      exact ⟨lines.raw, .fieldRedirect hreads hroute, rfl⟩
    · rename_i target hroute
      cases h
      exact ⟨lines.raw, .field hreads hroute, rfl⟩
    · rename_i hroute
      split at h
      · cases h
      · rename_i hmethod
        split at h
        · cases h
        · rename_i hcoding
          split at h
          · cases h
          · rename_i path query hsplit
            rw [bind_eq_ok] at h
            obtain ⟨⟨body, after⟩, hread, h⟩ := h
            cases h
            obtain ⟨hbody, rfl⟩ := readBody_eq_ok_iff.mp hread
            rw [Bool.not_eq_true, Bool.not_eq_false'] at hmethod
            rw [Bool.not_eq_true, Option.isSome_eq_false_iff, Option.isNone_iff_eq_none] at hcoding
            exact ⟨lines.raw ++ body, .request hreads hroute hmethod hcoding hsplit hbody,
              (List.append_assoc _ _ _).symm⟩
  · rintro ⟨consumed, hconsumes, rfl⟩
    rw [parseIncoming, bind_eq_ok]
    cases hconsumes with
    | fieldRedirect hreads hroute =>
      refine ⟨_, parseHead_eq_ok_iff.mpr ⟨_, hreads, rfl⟩, ?_⟩
      dsimp only
      rw [hroute]
    | field hreads hroute =>
      refine ⟨_, parseHead_eq_ok_iff.mpr ⟨_, hreads, rfl⟩, ?_⟩
      dsimp only
      rw [hroute]
    | request hreads hroute hmethod hcoding hsplit hbody =>
      refine ⟨_, parseHead_eq_ok_iff.mpr ⟨_, hreads, List.append_assoc _ _ _⟩, ?_⟩
      dsimp only
      rw [hroute, hmethod, hcoding, hsplit]
      dsimp only
      rw [readBody_eq_ok_iff.mpr ⟨hbody, rfl⟩]
      rfl

/-! ## Exactness -/

/-- A head that ends where its first empty line ends. -/
def IsHead (head : List UInt8) : Prop :=
  ∃ lines : HeadLines, IsLine lines.request ∧ Ends lines.fields lines.blank ∧ head = lines.raw

/-- The request is what the head and the body say, and within the limits. -/
structure Exact (head body : List UInt8) (request : Request) : Prop where
  budget : head.length ≤ maxHead
  /-- The names of the header lines are in lower case and no two of them are equal. -/
  headers : ∃ (lines : HeadLines) (pairs : List (String × String)), IsLine lines.request ∧
    Ends lines.fields lines.blank ∧ head = lines.raw ∧ headerFields lines.fields = some pairs ∧
    (pairs.map Prod.fst).Nodup ∧ (∀ pair ∈ pairs, toAsciiLowercase pair.1 = pair.1) ∧
    ∀ name value, request.headers.get? name = some value ↔ (name, value) ∈ pairs
  coding : request.headers.get? "transfer-encoding" = none
  length : IsBody request.headers body
  body : request.body = body

theorem asciiLower_idem (c : Char) : asciiLower (asciiLower c) = asciiLower c := by
  unfold asciiLower
  split
  · rename_i hupper
    rw [if_neg]
    rintro ⟨-, hle⟩
    have hlow : 65 ≤ c.toNat := hupper.1
    have hhigh : c.toNat ≤ 90 := hupper.2
    have hcode : (Char.ofNat (c.toNat + 32)).toNat ≤ 90 := hle
    rw [toNat_ofNat_of_scalar (by omega)] at hcode
    omega
  · rfl

theorem toAsciiLowercase_idem (text : String) :
    toAsciiLowercase (toAsciiLowercase text) = toAsciiLowercase text := by
  rw [toAsciiLowercase, toAsciiLowercase, String.toList_ofList, List.map_map]
  exact congrArg String.ofList (List.map_congr_left fun c _ ↦ asciiLower_idem c)

theorem lowercase_of_headerField {trimmed : List Char} {pair : String × String}
    (h : headerField trimmed = some pair) : toAsciiLowercase pair.1 = pair.1 := by
  rw [headerField, Option.bind_eq_some_iff] at h
  obtain ⟨⟨k, v⟩, -, h⟩ := h
  dsimp only at h
  split at h
  · cases h
  · rw [Option.some.injEq] at h
    rw [← h]
    exact toAsciiLowercase_idem _

theorem lowercase_of_headerFields {fields : List String} {pairs : List (String × String)}
    (h : headerFields fields = some pairs) : ∀ pair ∈ pairs, toAsciiLowercase pair.1 = pair.1 := by
  induction fields generalizing pairs with
  | nil =>
    cases h
    exact nofun
  | cons line fields ih =>
    rw [headerFields_cons, Option.bind_eq_some_iff] at h
    obtain ⟨first, hfirst, h⟩ := h
    obtain ⟨rest, hrest, rfl⟩ := Option.map_eq_some_iff.mp h
    exact List.forall_mem_cons.mpr ⟨lowercase_of_headerField hfirst, ih hrest⟩

theorem exact_of_reads {lines : HeadLines} {head : Head} {body : List UInt8}
    (hreads : lines.Reads head) (hcoding : head.headers.get? "transfer-encoding" = none)
    (hbody : IsBody head.headers body) {path : String} {query : Ordered.Map String String} :
    Exact lines.raw body ⟨head.method, path, query, head.headers, body⟩ := by
  obtain ⟨pairs, hpairs, hnodup, -, hheaders⟩ := addHeaders_eq_some_iff.mp hreads.headers
  refine ⟨hreads.budget, ⟨lines, pairs, hreads.line, hreads.ends, rfl, hpairs, hnodup,
    lowercase_of_headerFields hpairs, ?_⟩, hcoding, hbody, rfl⟩
  intro name value
  dsimp only
  rw [hheaders]
  exact get?_insertAll hnodup name value

theorem exists_reads {field : Bool} {consumed : List UInt8} {parsed : Parsed}
    (h : Consumes field consumed parsed) :
    ∃ lines head, HeadLines.Reads lines head ∧ lines.raw <+: consumed := by
  cases h with
  | fieldRedirect hreads _ => exact ⟨_, _, hreads, List.prefix_rfl⟩
  | field hreads _ => exact ⟨_, _, hreads, List.prefix_rfl⟩
  | request hreads _ _ _ _ _ => exact ⟨_, _, hreads, List.prefix_append _ _⟩

theorem error_of_not_ok {field : Bool} {stream : List UInt8}
    (h : ∀ parsed rest, parseIncoming field stream ≠ .ok (parsed, rest)) :
    ∃ e, parseIncoming field stream = .error e := by
  cases hparse : parseIncoming field stream with
  | error e => exact ⟨e, rfl⟩
  | ok accepted => exact absurd hparse (h accepted.1 accepted.2)

/-- An accepted request takes up exactly its head and its body.  Whatever follows is left unread,
anything shorter is rejected, and so is a stream without a head within the budget. -/
theorem requestReading_exact (field : Bool) (stream : List UInt8) :
    (∀ request rest, parseIncoming field stream = .ok (.request request, rest) →
      ∃ head body, stream = head ++ body ++ rest ∧ Exact head body request ∧
        (∀ later, parseIncoming field (head ++ body ++ later) = .ok (.request request, later)) ∧
        ∀ early, early <+: head ++ body → early ≠ head ++ body →
          ∃ e, parseIncoming field early = .error e) ∧
    ((¬ ∃ head, IsHead head ∧ head <+: stream ∧ head.length ≤ maxHead) →
      ∃ e, parseIncoming field stream = .error e) := by
  constructor
  · intro request rest h
    obtain ⟨consumed, hconsumes, rfl⟩ := parseIncoming_eq_ok_iff.mp h
    have hwhole (later : List UInt8) :
        parseIncoming field (consumed ++ later) = .ok (.request request, later) :=
      parseIncoming_eq_ok_iff.mpr ⟨consumed, hconsumes, rfl⟩
    cases hconsumes with
    | @request lines head path query body hreads hroute hmethod hcoding hsplit hbody =>
      refine ⟨lines.raw, body, rfl, exact_of_reads hreads hcoding hbody, hwhole, ?_⟩
      rintro early ⟨more, hmore⟩ hne
      refine error_of_not_ok fun parsed after hearly ↦ ?_
      -- What is accepted early on leaves the rest unread, but the whole leaves nothing.
      obtain ⟨taken, htaken, rfl⟩ := parseIncoming_eq_ok_iff.mp hearly
      have hagain : parseIncoming field (taken ++ (after ++ more)) =
          .ok (parsed, after ++ more) :=
        parseIncoming_eq_ok_iff.mpr ⟨taken, htaken, rfl⟩
      have hnothing := hwhole []
      rw [List.append_nil, ← hmore, List.append_assoc, hagain] at hnothing
      have hempty : after ++ more = [] := congrArg Prod.snd (Except.ok.inj hnothing)
      rw [List.append_eq_nil_iff] at hempty
      rw [hempty.2, List.append_nil] at hmore
      exact hne hmore
  · intro hnone
    refine error_of_not_ok fun parsed after h ↦ hnone ?_
    obtain ⟨consumed, hconsumes, rfl⟩ := parseIncoming_eq_ok_iff.mp h
    obtain ⟨lines, head, hreads, hprefix⟩ := exists_reads hconsumes
    exact ⟨lines.raw, ⟨lines, hreads.line, hreads.ends, rfl⟩,
      hprefix.trans (List.prefix_append _ _), hreads.budget⟩

end Cameo.Http
