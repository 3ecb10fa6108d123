import Cameo.Clock
import Cameo.Http.Rendering
import Cameo.Library.Subslice

/-!
# Responses

`write_response` frames a response and writes it through a `ControlledWriter`, which takes partial
writes, waits for a slow client and gives up when the drain is past its deadline.  Whatever the
socket does, the client has a beginning of the framed response, and all of it where the call
succeeds.  No header, whatever its text, ends the line it stands in.
-/

namespace Cameo.Http

open Library

/-- `IO_TIMEOUT`. -/
def ioTimeout : Duration := Duration.fromSecs 30

/-- `Response`, as `write_response` frames it when no stream takes the connection over. -/
structure Response where
  status : UInt16
  contentType : String
  body : List UInt8
  extraHeaders : List (String × String)

/-- `safe_header_name`. -/
def safeHeaderName (value : String) : Option String := if isToken value then some value else none

/-- `safe_header_value`. -/
def safeHeaderValue (value : String) : Option String :=
  if value.toList.all isValueChar then some value else none

/-- `reason_phrase`. -/
def reasonPhrase (status : UInt16) : String :=
  match status with
  | 200 => "OK"
  | 201 => "Created"
  | 202 => "Accepted"
  | 204 => "No Content"
  | 307 => "Temporary Redirect"
  | 400 => "Bad Request"
  | 401 => "Unauthorized"
  | 403 => "Forbidden"
  | 404 => "Not Found"
  | 405 => "Method Not Allowed"
  | 409 => "Conflict"
  | 413 => "Payload Too Large"
  | 429 => "Too Many Requests"
  | 500 => "Internal Server Error"
  | 501 => "Not Implemented"
  | 502 => "Bad Gateway"
  | 503 => "Service Unavailable"
  | 507 => "Insufficient Storage"
  | _ => "OK"

namespace Response

def announcedType (resp : Response) : String :=
  (safeHeaderValue resp.contentType).getD "application/octet-stream"

/-- The line of an extra header, if both of its parts are safe. -/
def extraLine (header : String × String) : Option String :=
  (safeHeaderName header.1).bind fun k ↦ (safeHeaderValue header.2).map fun v ↦ s!"{k}: {v}\r\n"

def fixedText : String :=
  "Connection: close\r\nX-Content-Type-Options: nosniff\r\nX-Frame-Options: DENY\r\n" ++
    "Referrer-Policy: no-referrer\r\n"

/-- The head that `write_response` writes. -/
def head (resp : Response) : String :=
  s!"HTTP/1.1 {resp.status.toNat} {reasonPhrase resp.status}\r\n" ++
    s!"Content-Type: {resp.announcedType}\r\n" ++
    s!"Content-Length: {resp.body.length}\r\n" ++ fixedText ++
    String.join (resp.extraHeaders.filterMap extraLine) ++ "\r\n"

def raw (resp : Response) : List UInt8 := bytes resp.head ++ resp.body

end Response

/-! ## Writing -/

/-- The result of one `write` of the socket. -/
inductive WriteOutcome where
  | wrote (count : ℕ)
  /-- `TimedOut` or `WouldBlock`. -/
  | stalled
  | interrupted
  /-- Every other error. -/
  | failed
deriving DecidableEq

/-- One round of the writer: whether the permit is cancelled before it, the write, and the clock
after it. -/
structure WriteEvent where
  cancelled : Bool
  outcome : WriteOutcome
  now : Instant
deriving DecidableEq

/-- How `write_all` fails. -/
inductive WriteError where
  | drained
  | writeZero
  | socket
deriving DecidableEq

/-- `ControlledWriter`, with what the socket has taken. -/
structure ControlledWriter where
  written : List UInt8
  /-- Whether there is a permit. -/
  controlled : Bool
  progress : Instant
deriving DecidableEq

/-- One round of writing a buffer that is not empty: what is left of it, unless the call fails. -/
def writeRound (buf : List UInt8) (writer : ControlledWriter) (event : WriteEvent) :
    Except WriteError (List UInt8 × ControlledWriter) :=
  if writer.controlled && event.cancelled then .error .drained
  else
    match event.outcome with
    | .wrote 0 => .error .writeZero
    | .wrote count => .ok (buf.drop count,
        { writer with written := writer.written ++ buf.take count, progress := event.now })
    | .stalled =>
      if writer.controlled ∧ writer.progress.elapsed event.now < ioTimeout then .ok (buf, writer)
      else .error .socket
    -- `write` returns and `write_all` calls it again.
    | .interrupted => .ok (buf, writer)
    | .failed => .error .socket

/-- `write_all`, up to the last of the events: the writer and, once the call has returned, its
result with the events after it. -/
def writeAll (buf : List UInt8) (writer : ControlledWriter) :
    List WriteEvent → ControlledWriter × Option (Except WriteError (List WriteEvent))
  | [] => (writer, if buf = [] then some (.ok []) else none)
  | event :: events =>
    if buf = [] then (writer, some (.ok (event :: events)))
    else
      match writeRound buf writer event with
      | .error error => (writer, some (.error error))
      | .ok (rest, after) => writeAll rest after events

/-- `write_response`, for a response without a stream. -/
def writeResponse (resp : Response) (controlled : Bool) (start : Instant) (flushed : Bool)
    (events : List WriteEvent) : ControlledWriter × Option (Except WriteError Unit) :=
  match writeAll (bytes resp.head) ⟨[], controlled, start⟩ events with
  | (writer, none) => (writer, none)
  | (writer, some (.error error)) => (writer, some (.error error))
  | (writer, some (.ok events)) =>
    match writeAll resp.body writer events with
    | (writer, none) => (writer, none)
    | (writer, some (.error error)) => (writer, some (.error error))
    | (writer, some (.ok _)) => (writer, some (if flushed then .ok () else .error .socket))

/-! ## What is on the wire -/

/-- A round writes a beginning of its buffer. -/
theorem exists_sent_of_round {buf rest : List UInt8} {writer after : ControlledWriter}
    {event : WriteEvent} (h : writeRound buf writer event = .ok (rest, after)) :
    ∃ sent, buf = sent ++ rest ∧ after.written = writer.written ++ sent ∧
      after.controlled = writer.controlled := by
  unfold writeRound at h
  split at h
  · cases h
  · split at h
    · cases h
    · cases h
      exact ⟨_, (List.take_append_drop _ buf).symm, rfl, rfl⟩
    · split at h
      · cases h
        exact ⟨[], rfl, (List.append_nil _).symm, rfl⟩
      · cases h
    · cases h
      exact ⟨[], rfl, (List.append_nil _).symm, rfl⟩
    · cases h

/-- What a call has written of its buffer, and what is left of it. -/
structure Sent (buf : List UInt8) (before after : ControlledWriter)
    (result : Option (Except WriteError (List WriteEvent))) (sent rest : List UInt8) : Prop where
  split : buf = sent ++ rest
  written : after.written = before.written ++ sent
  controlled : after.controlled = before.controlled
  done : (∃ left, result = some (.ok left)) ↔ rest = []

theorem exists_sent (buf : List UInt8) (writer : ControlledWriter) (events : List WriteEvent) :
    ∃ sent rest, Sent buf writer (writeAll buf writer events).1 (writeAll buf writer events).2
      sent rest := by
  induction events generalizing buf writer with
  | nil =>
    refine ⟨[], buf, rfl, (List.append_nil _).symm, rfl, ?_⟩
    by_cases hbuf : buf = []
    · exact iff_of_true ⟨[], if_pos hbuf⟩ hbuf
    · exact iff_of_false (by simp [writeAll, hbuf]) hbuf
  | cons event events ih =>
    rw [writeAll]
    split
    · rename_i hbuf
      exact ⟨[], buf, rfl, (List.append_nil _).symm, rfl, iff_of_true ⟨_, rfl⟩ hbuf⟩
    · rename_i hbuf
      split
      · exact ⟨[], buf, rfl, (List.append_nil _).symm, rfl, iff_of_false (by simp) hbuf⟩
      · rename_i left after hround
        obtain ⟨first, hsplit, hwritten, hcontrolled⟩ := exists_sent_of_round hround
        obtain ⟨sent, rest, h⟩ := ih left after
        refine ⟨first ++ sent, rest, ?_, ?_, h.controlled.trans hcontrolled, h.done⟩
        · rw [List.append_assoc, ← h.split, hsplit]
        · rw [h.written, hwritten, List.append_assoc]

/-- A call that has returned is not changed by later events. -/
theorem writeAll_append_of_some {buf : List UInt8} {writer after : ControlledWriter}
    {events : List WriteEvent} {result : Except WriteError (List WriteEvent)}
    (h : writeAll buf writer events = (after, some result)) (more : List WriteEvent) :
    writeAll buf writer (events ++ more) = (after, some (result.map (· ++ more))) := by
  induction events generalizing buf writer with
  | nil =>
    rw [writeAll, Prod.mk.injEq] at h
    obtain ⟨rfl, h⟩ := h
    split at h
    · rename_i hbuf
      cases h
      cases more with
      | nil => rw [List.append_nil, writeAll, if_pos hbuf]; rfl
      | cons event more => rw [List.nil_append, writeAll, if_pos hbuf]; rfl
    · cases h
  | cons event events ih =>
    rw [writeAll] at h
    rw [List.cons_append, writeAll]
    split at h
    · rename_i hbuf
      cases h
      rw [if_pos hbuf]
      rfl
    · rename_i hbuf
      rw [if_neg hbuf]
      split at h
      · cases h
        rfl
      · exact ih h

/-- A call that has not returned goes on with what is left of its buffer. -/
theorem writeAll_append_of_none {buf : List UInt8} {writer after : ControlledWriter}
    {events : List WriteEvent} (h : writeAll buf writer events = (after, none)) :
    ∃ rest, rest ≠ [] ∧ after.controlled = writer.controlled ∧
      ∀ more, writeAll buf writer (events ++ more) = writeAll rest after more := by
  induction events generalizing buf writer with
  | nil =>
    rw [writeAll, Prod.mk.injEq] at h
    obtain ⟨rfl, h⟩ := h
    split at h
    · cases h
    · rename_i hbuf
      exact ⟨buf, hbuf, rfl, fun _ ↦ rfl⟩
  | cons event events ih =>
    rw [writeAll] at h
    split at h
    · cases h
    · rename_i hbuf
      split at h
      · cases h
      · rename_i left next hround
        obtain ⟨rest, hrest, hcontrolled, hmore⟩ := ih h
        obtain ⟨-, -, -, hsame⟩ := exists_sent_of_round hround
        refine ⟨rest, hrest, hcontrolled.trans hsame, fun more ↦ ?_⟩
        rw [List.cons_append, writeAll, if_neg hbuf, hround]
        exact hmore more

/-- Once the permit is cancelled, a call that has not returned writes nothing more. -/
theorem writeAll_cancelled {buf : List UInt8} (hbuf : buf ≠ []) {writer : ControlledWriter}
    (hcontrolled : writer.controlled = true) {event : WriteEvent}
    (hcancelled : event.cancelled = true) (rest : List WriteEvent) :
    writeAll buf writer (event :: rest) = (writer, some (.error .drained)) := by
  rw [writeAll, if_neg hbuf, writeRound, hcontrolled, hcancelled]
  rfl

/-- A response is written in the order of its bytes, and completely when the call succeeds. -/
theorem exists_rest_of_writeResponse (resp : Response) (controlled : Bool) (start : Instant)
    (flushed : Bool) (events : List WriteEvent) :
    ∃ rest, resp.raw = (writeResponse resp controlled start flushed events).1.written ++ rest ∧
      ((writeResponse resp controlled start flushed events).2 = some (.ok ()) ↔
        rest = [] ∧ flushed = true) := by
  obtain ⟨sent, rest, h⟩ := exists_sent (bytes resp.head) ⟨[], controlled, start⟩ events
  rw [writeResponse]
  rcases hfirst : writeAll (bytes resp.head) ⟨[], controlled, start⟩ events with ⟨writer, result⟩
  rw [hfirst] at h
  have hwritten : writer.written = sent := h.written
  have hstopped (hrest : rest ≠ []) {result : Option (Except WriteError Unit)}
      (hresult : result ≠ some (.ok ())) : ∃ after, resp.raw = writer.written ++ after ∧
        (result = some (.ok ()) ↔ after = [] ∧ flushed = true) := by
    refine ⟨rest ++ resp.body, ?_, iff_of_false hresult ?_⟩
    · rw [Response.raw, h.split, hwritten, List.append_assoc]
    · exact fun hnil ↦ hrest (List.append_eq_nil_iff.mp hnil.1).1
  cases result with
  | none => exact hstopped (fun hrest ↦ nomatch h.done.mpr hrest) nofun
  | some result =>
    cases result with
    | error error => exact hstopped (fun hrest ↦ nomatch h.done.mpr hrest) nofun
    | ok left =>
      have hhead : bytes resp.head = sent := by
        rw [h.split, h.done.mp ⟨left, rfl⟩, List.append_nil]
      obtain ⟨more, after, hbody⟩ := exists_sent resp.body writer left
      dsimp only
      rcases hsecond : writeAll resp.body writer left with ⟨last, result⟩
      rw [hsecond] at hbody
      have hraw : resp.raw = last.written ++ after := by
        rw [hbody.written, hwritten, List.append_assoc, ← hbody.split, Response.raw, hhead]
      refine ⟨after, ?_⟩
      have hdone := hbody.done
      cases result with
      | none => exact ⟨hraw, iff_of_false nofun fun hnil ↦ nomatch hdone.mpr hnil.1⟩
      | some result =>
        cases result with
        | error error => exact ⟨hraw, iff_of_false nofun fun hnil ↦ nomatch hdone.mpr hnil.1⟩
        | ok left =>
          refine ⟨hraw, ?_⟩
          rw [and_iff_right (hdone.mp ⟨left, rfl⟩)]
          cases flushed <;> simp

theorem writeResponse_cancelled (resp : Response) (start : Instant) (flushed : Bool)
    (front : List WriteEvent) {event : WriteEvent} (hcancelled : event.cancelled = true)
    (rest : List WriteEvent) :
    (writeResponse resp true start flushed (front ++ event :: rest)).1.written =
      (writeResponse resp true start flushed front).1.written := by
  obtain ⟨_, _, h⟩ := exists_sent (bytes resp.head) ⟨[], true, start⟩ front
  rw [writeResponse, writeResponse]
  rcases hfirst : writeAll (bytes resp.head) ⟨[], true, start⟩ front with ⟨writer, result⟩
  rw [hfirst] at h
  cases result with
  | none =>
    obtain ⟨buf, hbuf, -, hmore⟩ := writeAll_append_of_none hfirst
    rw [hmore, writeAll_cancelled hbuf h.controlled hcancelled]
  | some result =>
    rw [writeAll_append_of_some hfirst]
    cases result with
    | error error => rfl
    | ok left =>
      dsimp only [Except.map]
      rcases hsecond : writeAll resp.body writer left with ⟨last, result⟩
      cases result with
      | none =>
        obtain ⟨buf, hbuf, hsame, hmore⟩ := writeAll_append_of_none hsecond
        rw [hmore, writeAll_cancelled hbuf (hsame.trans h.controlled) hcancelled]
      | some result =>
        rw [writeAll_append_of_some hsecond]
        cases result <;> rfl

/-- Whatever the socket does, the client has a beginning of the response as it is framed, all of
it exactly when the call succeeds or only the flush fails, and nothing that was written after the
drain's deadline had passed. -/
theorem response_on_the_wire (resp : Response) (controlled : Bool) (start : Instant)
    (flushed : Bool) (events : List WriteEvent) :
    (writeResponse resp controlled start flushed events).1.written <+: resp.raw ∧
    ((writeResponse resp controlled start flushed events).2 = some (.ok ()) ↔
      (writeResponse resp controlled start flushed events).1.written = resp.raw ∧
        flushed = true) ∧
    ∀ front event rest, events = front ++ event :: rest → controlled = true →
      event.cancelled = true →
        (writeResponse resp controlled start flushed events).1.written =
          (writeResponse resp controlled start flushed front).1.written := by
  obtain ⟨rest, hraw, hdone⟩ := exists_rest_of_writeResponse resp controlled start flushed events
  refine ⟨⟨rest, hraw.symm⟩, ?_, ?_⟩
  · rw [hdone, hraw, List.self_eq_append_right]
  · rintro front event rest rfl rfl hcancelled
    exact writeResponse_cancelled resp start flushed front hcancelled rest

/-! ## The lines of a head -/

/-- A header that stands in a line of its own: a token, and a value without control characters. -/
structure SafeHeader (header : String × String) : Prop where
  name : isToken header.1 = true
  value : ∀ c ∈ header.2.toList, isValueChar c = true

namespace Response

def statusLine (resp : Response) : String :=
  s!"HTTP/1.1 {resp.status.toNat} {reasonPhrase resp.status}"

def fixedFields : List (String × String) :=
  [("Connection", "close"), ("X-Content-Type-Options", "nosniff"), ("X-Frame-Options", "DENY"),
    ("Referrer-Policy", "no-referrer")]

def safeHeaders (resp : Response) : List (String × String) :=
  resp.extraHeaders.filter fun header ↦ isToken header.1 && header.2.toList.all isValueChar

def fields (resp : Response) : List (String × String) :=
  ("Content-Type", resp.announcedType) :: ("Content-Length", toString resp.body.length) ::
    (fixedFields ++ resp.safeHeaders)

/-- The lines before the empty one. -/
def lines (resp : Response) : List String := resp.statusLine :: resp.fields.map headerLine

theorem map_lines {α : Type} (f : String → α) (resp : Response) :
    resp.lines.map f = f resp.statusLine :: resp.fields.map fun field ↦ f (headerLine field) := by
  rw [lines, List.map_cons, List.map_map]
  rfl

/-- The head without the empty line. -/
def headText (resp : Response) : List Char :=
  joined ['\r', '\n'] resp.statusLine.toList (resp.fields.map fun field ↦ (headerLine field).toList)

def headBytes (resp : Response) : List UInt8 :=
  joined [13, 10] (bytes resp.statusLine) (resp.fields.map fun field ↦ bytes (headerLine field))

theorem extraLine_eq (header : String × String) :
    extraLine header = if isToken header.1 && header.2.toList.all isValueChar then
      some (headerLine header ++ "\r\n") else none := by
  unfold extraLine safeHeaderName safeHeaderValue
  cases isToken header.1 <;> cases header.2.toList.all isValueChar <;> rfl

theorem isValueChar_reasonPhrase (status : UInt16) :
    (reasonPhrase status).toList.all isValueChar = true := by
  unfold reasonPhrase
  split <;> decide

theorem safeHeader_of_all {header : String × String}
    (h : (isToken header.1 && header.2.toList.all isValueChar) = true) : SafeHeader header := by
  rw [Bool.and_eq_true] at h
  exact ⟨h.1, List.all_eq_true.mp h.2⟩

theorem safeHeader_fixedFields : ∀ field ∈ fixedFields, SafeHeader field := by
  have hall : (fixedFields.all fun field ↦
      isToken field.1 && field.2.toList.all isValueChar) = true := by decide
  exact fun field hfield ↦ safeHeader_of_all (List.all_eq_true.mp hall field hfield)

theorem isValueChar_announcedType (resp : Response) :
    ∀ c ∈ resp.announcedType.toList, isValueChar c = true := by
  unfold announcedType safeHeaderValue
  split
  · rename_i hsafe
    exact List.all_eq_true.mp hsafe
  · exact List.all_eq_true.mp (by decide)

theorem safeHeader_of_mem {resp : Response} {field : String × String} (h : field ∈ resp.fields) :
    SafeHeader field := by
  rw [fields, List.mem_cons, List.mem_cons, List.mem_append] at h
  rcases h with rfl | rfl | h | h
  · exact ⟨(by decide : isToken "Content-Type" = true), isValueChar_announcedType resp⟩
  · exact ⟨(by decide : isToken "Content-Length" = true),
      fun c hc ↦ isValueChar_of_mem_decimal hc⟩
  · exact safeHeader_fixedFields field h
  · exact safeHeader_of_all (List.mem_filter.mp h).2

theorem fixedText_eq : fixedText = String.join (fixedFields.map fun field ↦
    headerLine field ++ "\r\n") := by
  decide

theorem filterMap_extraLine (headers : List (String × String)) :
    headers.filterMap extraLine = (headers.filter fun header ↦
      isToken header.1 && header.2.toList.all isValueChar).map fun header ↦
        headerLine header ++ "\r\n" := by
  induction headers with
  | nil => rfl
  | cons header headers ih =>
    rw [List.filterMap_cons, List.filter_cons, extraLine_eq]
    cases hsafe : isToken header.1 && header.2.toList.all isValueChar with
    | false =>
      rw [if_neg Bool.false_ne_true, if_neg Bool.false_ne_true]
      exact ih
    | true =>
      rw [if_pos rfl, if_pos rfl, List.map_cons, ih]

/-- A head is its lines and the empty line. -/
theorem head_eq_join (resp : Response) : resp.head =
    resp.statusLine ++ "\r\n" ++
      String.join (resp.fields.map fun field ↦ headerLine field ++ "\r\n") ++ "\r\n" := by
  have htype : "Content-Type: " = "Content-Type" ++ ": " := by decide
  have hlength : "Content-Length: " = "Content-Length" ++ ": " := by decide
  have htext (text : String) : toString text = text := rfl
  unfold head
  simp only [fixedText_eq, filterMap_extraLine, fields, safeHeaders, List.map_cons,
    List.map_append, String.join_cons, String.join_append, headerLine, statusLine, htype, hlength,
    htext, String.append_assoc]

theorem bytes_head (resp : Response) : bytes resp.head = resp.headBytes ++ [13, 10, 13, 10] := by
  have hend : bytes "\r\n" = [13, 10] := by decide
  have hlines := joined_append_separator [13, 10] (bytes resp.statusLine)
    (resp.fields.map fun field ↦ bytes (headerLine field))
  calc bytes resp.head
    _ = resp.headBytes ++ [13, 10] ++ [13, 10] := by
      rw [head_eq_join, headBytes, hlines, bytes_append, bytes_append, bytes_append, bytes_join,
        hend, List.flatMap_map, List.flatMap_cons, List.flatMap_map]
      simp only [bytes_append, hend]
    _ = resp.headBytes ++ [13, 10, 13, 10] := List.append_assoc _ _ _

theorem bytes_headText (resp : Response) :
    bytes (String.ofList resp.headText) = resp.headBytes := by
  have hend : bytes (String.ofList ['\r', '\n']) = [13, 10] := by decide
  have hjoined (line : String) (fields : List (String × String)) :
      bytes (String.ofList (joined ['\r', '\n'] line.toList
        (fields.map fun field ↦ (headerLine field).toList))) =
      joined [13, 10] (bytes line) (fields.map fun field ↦ bytes (headerLine field)) := by
    induction fields generalizing line with
    | nil => rw [List.map_nil, List.map_nil, joined, joined, String.ofList_toList]
    | cons field fields ih =>
      rw [List.map_cons, List.map_cons, joined, joined, String.ofList_append, String.ofList_append,
        bytes_append, bytes_append, ih, hend, String.ofList_toList]
  exact hjoined resp.statusLine resp.fields

theorem isValueChar_of_isTokenChar {c : Char} (h : isTokenChar c = true) :
    isValueChar c = true := by
  have hsymbols : ("!#$%&'*+-.^_`|~".toList.all isValueChar) = true := by decide
  rw [isTokenChar, Bool.or_eq_true, decide_eq_true_eq] at h
  rcases h with halnum | hsymbol
  · have hcode := toNat_of_isAlphanum halnum
    have hcontrol : ¬ c.toNat < 0x20 := by omega
    simp [isValueChar, hcontrol]
  · exact List.all_eq_true.mp hsymbols c hsymbol

theorem statusLine_toList (resp : Response) : resp.statusLine.toList = "HTTP/1.1".toList ++
    ' ' :: ((toString resp.status.toNat).toList ++ ' ' :: (reasonPhrase resp.status).toList) := by
  change ("HTTP/1.1 " ++ toString resp.status.toNat ++ " " ++ reasonPhrase resp.status).toList = _
  rw [String.toList_append, String.toList_append, String.toList_append, List.append_assoc,
    List.append_assoc]
  rfl

/-- No line of a head is empty, and none holds a line end. -/
theorem clean_of_mem_lines {resp : Response} {line : String} (h : line ∈ resp.lines) :
    line.toList ≠ [] ∧ ∀ c ∈ line.toList, isValueChar c = true := by
  have hversion : ("HTTP/1.1".toList.all isValueChar) = true := by decide
  rw [lines, List.mem_cons, List.mem_map] at h
  rcases h with rfl | ⟨field, hfield, rfl⟩
  · rw [statusLine_toList]
    refine ⟨by simp, ?_⟩
    simp only [List.forall_mem_append, List.forall_mem_cons]
    exact ⟨List.all_eq_true.mp hversion, by decide, fun c hc ↦ isValueChar_of_mem_decimal hc,
      by decide,
      List.all_eq_true.mp (isValueChar_reasonPhrase resp.status)⟩
  · obtain ⟨hname, hvalue⟩ := safeHeader_of_mem hfield
    rw [headerLine_toList]
    refine ⟨by simp, ?_⟩
    simp only [List.forall_mem_append, List.forall_mem_cons]
    exact ⟨fun c hc ↦ isValueChar_of_isTokenChar ((isToken_iff.mp hname).2 c hc), by decide,
      by decide, hvalue⟩

end Response

end Cameo.Http
