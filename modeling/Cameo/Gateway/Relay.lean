import Cameo.Authority
import Cameo.Gateway.Streaming
import Cameo.Http.Response

/-!
# Responses through the buffered gateway

`forward_controlled` reads a backend's response to its end, within its limits, and takes it apart.
How the bytes are cut into reads makes no difference.  What a daemon writes as a response is passed
on with its status, its content type and its body if all of it has arrived, and is refused if
anything is missing.
-/

namespace Cameo.Gateway

open Library Http

/-! ## Reading to the end -/

/-- How `forward_controlled` fails: it is not connected, the drain is past its deadline, the
response is invalid or too large, or a read fails. -/
inductive ForwardError where
  | connect
  | drained
  | invalid
  | upstream
deriving DecidableEq

/-- The read loop of `forward_controlled`; none while it goes on. -/
def receive (lastProgress : Instant) (raw : List UInt8) :
    List ReadEvent → Option (Except ForwardError (List UInt8))
  | [] => none
  | event :: reads =>
    if event.cancelled then some (.error .drained)
    else if event.outcome = .timedOut ∧ lastProgress.elapsed event.now < proxyTimeout then
      receive lastProgress raw reads
    else
      match event.outcome with
      | .data [] | .reset => some (.ok raw)
      | .data bytes =>
        if raw.length + bytes.length > maxBufferedResponse then some (.error .invalid)
        else if (findSubslice (crlf ++ crlf) (raw ++ bytes)).getD (raw ++ bytes).length >
            maxResponseHeaders then some (.error .invalid)
        else receive event.now (raw ++ bytes) reads
      | .timedOut | .failed => some (.error .upstream)

def parsed (raw : List UInt8) : Except ForwardError BackendResponse :=
  match parseBackendResponse raw with
  | none => .error .invalid
  | some response => .ok response

/-- `forward_controlled`; none while it has not returned. -/
def forwardControlled (io : StreamIo) : Option (Except ForwardError BackendResponse) :=
  if io.connect.connects then (receive io.start [] io.reads).map fun result ↦ result.bind parsed
  else some (.error .connect)

/-- The reads deliver these bytes and then the end of the stream, without a wait that is too long
and before the request is cancelled. -/
inductive Delivers : Instant → List ReadEvent → List UInt8 → Prop where
  | ended {last : Instant} {event : ReadEvent} {later : List ReadEvent}
      (hcancelled : event.cancelled = false)
      (hend : event.outcome = .data [] ∨ event.outcome = .reset) :
      Delivers last (event :: later) []
  | waited {last : Instant} {event : ReadEvent} {reads : List ReadEvent} {bytes : List UInt8}
      (hcancelled : event.cancelled = false) (htimeout : event.outcome = .timedOut)
      (hshort : last.elapsed event.now < proxyTimeout) (hrest : Delivers last reads bytes) :
      Delivers last (event :: reads) bytes
  | read {last : Instant} {event : ReadEvent} {reads : List ReadEvent} {chunk bytes : List UInt8}
      (hcancelled : event.cancelled = false) (hdata : event.outcome = .data chunk)
      (hchunk : chunk ≠ []) (hrest : Delivers event.now reads bytes) :
      Delivers last (event :: reads) (chunk ++ bytes)

/-- What is received are the bytes that the reads deliver. -/
theorem exists_delivers_of_receive {last : Instant} {front raw : List UInt8}
    {reads : List ReadEvent} (h : receive last front reads = some (.ok raw)) :
    ∃ bytes, Delivers last reads bytes ∧ raw = front ++ bytes := by
  induction reads generalizing last front with
  | nil => cases h
  | cons event reads ih =>
    unfold receive at h
    split at h
    · cases h
    · rename_i hcancelled
      rw [Bool.not_eq_true] at hcancelled
      split at h
      · rename_i hwait
        obtain ⟨bytes, hdelivers, hraw⟩ := ih h
        exact ⟨bytes, .waited hcancelled hwait.1 hwait.2 hdelivers, hraw⟩
      · split at h
        · rename_i hend
          cases h
          exact ⟨[], .ended hcancelled (.inl hend), (List.append_nil _).symm⟩
        · rename_i hend
          cases h
          exact ⟨[], .ended hcancelled (.inr hend), (List.append_nil _).symm⟩
        · rename_i chunk hne hdata
          split at h
          · cases h
          · split at h
            · cases h
            · obtain ⟨bytes, hdelivers, hraw⟩ := ih h
              refine ⟨chunk ++ bytes, .read hcancelled hdata ?_ hdelivers, ?_⟩
              · rintro rfl
                exact hne rfl
              · rw [hraw, List.append_assoc]
        · cases h
        · cases h

/-- Bytes that keep the limits however they arrive: every beginning of them is short enough, with
the end of the head early in it or still to come. -/
def WithinLimits (raw : List UInt8) : Prop :=
  raw.length ≤ maxBufferedResponse ∧ ∀ part, part <+: raw →
    (findSubslice (crlf ++ crlf) part).getD part.length ≤ maxResponseHeaders

theorem receive_of_delivers {last : Instant} {front bytes : List UInt8} {reads : List ReadEvent}
    (h : Delivers last reads bytes) (hfits : WithinLimits (front ++ bytes)) :
    receive last front reads = some (.ok (front ++ bytes)) := by
  induction h generalizing front with
  | ended hcancelled hend =>
    rw [List.append_nil]
    unfold receive
    rcases hend with hend | hend
    · simp [hcancelled, hend]
    · simp [hcancelled, hend]
  | waited hcancelled htimeout hshort hrest ih =>
    unfold receive
    rw [if_neg (by simp [hcancelled]), if_pos ⟨htimeout, hshort⟩]
    exact ih hfits
  | @read last event reads chunk bytes hcancelled hdata hchunk hrest ih =>
    rw [← List.append_assoc] at hfits
    obtain ⟨item, rest, rfl⟩ := List.exists_cons_of_ne_nil hchunk
    have hlength := hfits.1
    rw [List.length_append, List.length_append] at hlength
    have hhead := hfits.2 _ (List.prefix_append (front ++ (item :: rest)) bytes)
    unfold receive
    rw [if_neg (by simp [hcancelled]), if_neg (by simp [hdata])]
    simp only [hdata]
    rw [if_neg (by omega), if_neg (by omega), ih hfits, List.append_assoc]

/-! ## Reading a daemon's response -/

theorem splitCrlf_of_not_mem {line : List Char} (h : '\r' ∉ line) : splitCrlf line = [line] := by
  induction line with
  | nil => rfl
  | cons c line ih =>
    obtain ⟨hne, hline⟩ := not_or.mp (mt List.mem_cons.mpr h)
    rw [splitCrlf.eq_3 c line (by rintro _ rfl; exact absurd rfl hne), ih hline]
    rfl

theorem splitCrlf_line {line : List Char} (h : '\r' ∉ line) (rest : List Char) :
    splitCrlf (line ++ '\r' :: '\n' :: rest) = line :: splitCrlf rest := by
  induction line with
  | nil => rfl
  | cons c line ih =>
    obtain ⟨hne, hline⟩ := not_or.mp (mt List.mem_cons.mpr h)
    rw [List.cons_append, splitCrlf.eq_3, ih hline]
    · rfl
    · rintro _ rfl
      exact absurd rfl hne

theorem splitCrlf_joined {line : List Char} {lines : List (List Char)}
    (h : ∀ item ∈ line :: lines, '\r' ∉ item) :
    splitCrlf (joined ['\r', '\n'] line lines) = line :: lines := by
  induction lines generalizing line with
  | nil => exact splitCrlf_of_not_mem (h line List.mem_cons_self)
  | cons next lines ih =>
    obtain ⟨hline, hrest⟩ := List.forall_mem_cons.mp h
    rw [joined, List.cons_append, List.cons_append, List.nil_append, splitCrlf_line hline, ih hrest]

/-- A header that is written is read back, with its name in lower case. -/
theorem headerField_safeHeader {header : String × String} (h : SafeHeader header) :
    headerField (headerLine header).toList =
      some (toAsciiLowercase header.1, trim header.2) := by
  obtain ⟨name, value⟩ := header
  rw [headerField, splitOnce_headerLine (isToken_iff.mp h.name).2, Option.map_some]
  dsimp only
  rw [String.ofList_toList, trim_blank, trim_of_isToken h.name]

/-- The headers that `parse_backend_response` looks at. -/
def framingNames : List String := ["content-type", "transfer-encoding", "content-length"]

/-- A response that the gateway can pass on: its status is a final one, its extra headers leave the
framing alone, and it is within the limits. -/
structure Relayable (resp : Response) : Prop where
  status : 200 ≤ resp.status ∧ resp.status ≤ 599
  headers : ∀ header ∈ resp.extraHeaders, toAsciiLowercase header.1 ∉ framingNames
  head : (bytes resp.head).length ≤ maxResponseHeaders
  fits : resp.raw.length ≤ maxBufferedResponse

theorem readHeader_of_other {header : String × String} (hsafe : SafeHeader header)
    (hother : toAsciiLowercase header.1 ∉ framingNames) (head : ResponseHead) :
    readHeader head (headerLine header).toList = some head := by
  simp only [framingNames, List.mem_cons, List.not_mem_nil, or_false, not_or] at hother
  unfold readHeader
  rw [headerField_safeHeader hsafe]
  simp only [Option.bind_eq_bind, Option.bind_some]
  rw [if_neg hother.1, if_neg hother.2.1, if_neg hother.2.2]

theorem foldlM_cons_of_eq_some {α β : Type} {f : β → α → Option β} {init next : β} {item : α}
    (h : f init item = some next) (rest : List α) :
    (item :: rest).foldlM f init = rest.foldlM f next := by
  rw [List.foldlM_cons, h]
  rfl

theorem foldlM_readHeader {headers : List (String × String)}
    (hsafe : ∀ header ∈ headers, SafeHeader header)
    (hother : ∀ header ∈ headers, toAsciiLowercase header.1 ∉ framingNames) (head : ResponseHead) :
    (headers.map fun header ↦ (headerLine header).toList).foldlM readHeader head = some head := by
  induction headers with
  | nil => rfl
  | cons header headers ih =>
    obtain ⟨hfirst, hrest⟩ := List.forall_mem_cons.mp hsafe
    obtain ⟨hname, hnames⟩ := List.forall_mem_cons.mp hother
    rw [List.map_cons, foldlM_cons_of_eq_some (readHeader_of_other hfirst hname head)]
    exact ih hrest hnames

theorem not_framing_of_fixed : ∀ header ∈ Response.fixedFields,
    toAsciiLowercase header.1 ∉ framingNames := by
  have hall : (Response.fixedFields.all fun header ↦
      toAsciiLowercase header.1 ∉ framingNames) = true := by decide
  exact fun header hheader ↦ of_decide_eq_true (List.all_eq_true.mp hall header hheader)

/-- The header loop finds the content type and the length of the body. -/
theorem foldlM_fields {resp : Response} (hresp : Relayable resp) :
    (resp.fields.map fun field ↦ (headerLine field).toList).foldlM readHeader
      ⟨"application/json", false, none⟩ =
      some ⟨trim resp.announcedType, false, some resp.body.length⟩ := by
  have hsafe (field : String × String) (hfield : field ∈ resp.fields) : SafeHeader field :=
    Response.safeHeader_of_mem hfield
  have hfits : resp.body.length < UInt64.size := by
    have hraw := hresp.fits
    rw [Response.raw, List.length_append] at hraw
    have hlarge : maxBufferedResponse < UInt64.size := by decide
    omega
  have htype : readHeader ⟨"application/json", false, none⟩
      (headerLine ("Content-Type", resp.announcedType)).toList =
      some ⟨trim resp.announcedType, false, none⟩ := by
    unfold readHeader
    rw [headerField_safeHeader (hsafe _ List.mem_cons_self)]
    simp only [Option.bind_eq_bind, Option.bind_some]
    rw [if_pos (by decide : toAsciiLowercase "Content-Type" = "content-type")]
  have hlength : readHeader ⟨trim resp.announcedType, false, none⟩
      (headerLine ("Content-Length", toString resp.body.length)).toList =
      some ⟨trim resp.announcedType, false, some resp.body.length⟩ := by
    have hname : toAsciiLowercase "Content-Length" = "content-length" := by decide
    have hdigits : (toString resp.body.length).toList.all isDigit = true :=
      all_digits_decimal resp.body.length
    unfold readHeader
    rw [headerField_safeHeader (hsafe _ (List.mem_cons_of_mem _ List.mem_cons_self))]
    simp only [Option.bind_eq_bind, Option.bind_some]
    rw [hname, if_neg (by decide), if_neg (by decide), if_pos rfl, trim_decimal,
      hdigits, decide_eq_false (decimal_ne_nil resp.body.length), parseUsize_decimal hfits]
    rfl
  rw [Response.fields, List.map_cons, List.map_cons, foldlM_cons_of_eq_some htype,
    foldlM_cons_of_eq_some hlength]
  apply foldlM_readHeader
  · exact fun field hfield ↦ hsafe field (List.mem_cons_of_mem _ (List.mem_cons_of_mem _ hfield))
  · intro field hfield
    rcases List.mem_append.mp hfield with hfixed | hextra
    · exact not_framing_of_fixed field hfixed
    · exact hresp.headers field (List.mem_filter.mp hextra).1

theorem statusOf_statusLine {resp : Response} (h : 200 ≤ resp.status ∧ resp.status ≤ 599) :
    statusOf resp.statusLine.toList = some resp.status := by
  have hversion : ("HTTP/1.1".toList.all fun c ↦ !isWhitespace c) = true := by decide
  unfold statusOf
  rw [Response.statusLine_toList, splitWhitespace_cons (by decide)
    (fun c hc ↦ (Bool.not_eq_true' _).mp (List.all_eq_true.mp hversion c hc)) (by decide),
    splitWhitespace_cons (decimal_ne_nil _) (fun c hc ↦ not_isWhitespace_of_mem_decimal hc)
      (by decide)]
  dsimp only
  rw [if_pos (.inl rfl), List.head?_cons, Option.bind_some, parseU16_decimal, Option.filter_some,
    if_pos (by simpa using h)]

/-- The head of a response ends where its first empty line ends, whatever follows. -/
theorem findSubslice_head (resp : Response) (rest : List UInt8) :
    findSubslice (crlf ++ crlf) (bytes resp.head ++ rest) = some resp.headBytes.length := by
  have hclean : ∀ item ∈ resp.lines.map bytes, item ≠ [] ∧ 13 ∉ item := by
    intro item hitem
    obtain ⟨line, hmem, rfl⟩ := List.mem_map.mp hitem
    obtain ⟨hne, hvalue⟩ := Response.clean_of_mem_lines hmem
    constructor
    · intro hnil
      have hempty := bytes_inj (hnil.trans (by decide : [] = bytes ""))
      exact hne (String.toList_eq_nil_iff.mpr hempty)
    · rw [mem_bytes_iff (by decide)]
      rintro ⟨c, hc, hcode⟩
      exact (ne_of_isValueChar (hvalue c hc)).1 (Char.toNat_inj.mp hcode)
  rw [Response.map_lines] at hclean
  rw [Response.bytes_head, List.append_assoc]
  exact findSubslice_joined (by decide) hclean rest

/-- A response with this head is taken apart if its body is as long as the head declares. -/
theorem parse_frame {resp : Response} (hresp : Relayable resp) {body : List UInt8}
    (hfits : (bytes resp.head ++ body).length ≤ maxBufferedResponse) :
    parseBackendResponse (bytes resp.head ++ body) =
      if resp.body.length = body.length then
        some ⟨resp.status, trim resp.announcedType, body⟩
      else none := by
  have htake : (bytes resp.head ++ body).take resp.headBytes.length =
      bytes (String.ofList resp.headText) := by
    rw [Response.bytes_headText, Response.bytes_head, List.append_assoc, List.take_left]
  have hdrop : (bytes resp.head ++ body).drop (resp.headBytes.length + 4) = body := by
    rw [Response.bytes_head]
    exact List.drop_left' (by rw [List.length_append]; rfl)
  have hlines : splitCrlf resp.headText = resp.statusLine.toList ::
      resp.fields.map fun field ↦ (headerLine field).toList := by
    apply splitCrlf_joined
    rw [← Response.map_lines String.toList]
    intro item hitem
    obtain ⟨line, hmem, rfl⟩ := List.mem_map.mp hitem
    exact fun hreturn ↦
      (ne_of_isValueChar ((Response.clean_of_mem_lines hmem).2 _ hreturn)).1 rfl
  have hhead : (bytes (String.ofList resp.headText)).length ≤ maxResponseHeaders := by
    have := hresp.head
    rw [Response.bytes_head, List.length_append] at this
    rw [Response.bytes_headText]
    omega
  unfold parseBackendResponse
  rw [findSubslice_head]
  simp only [Option.bind_eq_bind, Option.bind_some]
  rw [htake, hdrop, if_neg (by omega), fromUtf8_bytes]
  simp only [Option.bind_some, String.toList_ofList]
  rw [hlines, List.head?_cons, Option.bind_some, statusOf_statusLine hresp.status,
    Option.bind_some, List.tail_cons, foldlM_fields hresp]
  simp

/-! ## What arrives of a response -/

/-- A beginning of a response ends in its head or in its body. -/
theorem beginning_raw {resp : Response} {part : List UInt8} (h : part <+: resp.raw) :
    part.length < resp.headBytes.length + 4 ∨
      ∃ body, part = bytes resp.head ++ body ∧ body <+: resp.body := by
  have hlength : (bytes resp.head).length = resp.headBytes.length + 4 := by
    rw [Response.bytes_head, List.length_append]
    rfl
  by_cases hshort : part.length < resp.headBytes.length + 4
  · exact .inl hshort
  · obtain ⟨body, rfl⟩ := List.prefix_of_prefix_length_le (List.prefix_append _ resp.body) h
      (hlength.trans_le (not_lt.mp hshort))
    exact .inr ⟨body, rfl, (List.prefix_append_right_inj _).mp h⟩

theorem findSubslice_of_short {resp : Response} {part : List UInt8} (h : part <+: resp.raw)
    (hshort : part.length < resp.headBytes.length + 4) :
    findSubslice (crlf ++ crlf) part = none :=
  findSubslice_eq_none (findSubslice_head resp resp.body) h hshort

/-- The reads of a response keep the limits, wherever it breaks off. -/
theorem withinLimits_of_beginning {resp : Response} (hresp : Relayable resp) {part : List UInt8}
    (h : part <+: resp.raw) : WithinLimits part := by
  have hhead := hresp.head
  rw [Response.bytes_head, List.length_append, List.length_cons] at hhead
  refine ⟨h.length_le.trans hresp.fits, fun first hfirst ↦ ?_⟩
  rcases beginning_raw (hfirst.trans h) with hshort | ⟨body, rfl, -⟩
  · rw [findSubslice_of_short (hfirst.trans h) hshort, Option.getD_none]
    simp only [List.length_cons, List.length_nil] at hhead
    omega
  · rw [findSubslice_head, Option.getD_some]
    omega

/-- A response is taken apart as a whole or not at all. -/
theorem parse_beginning {resp : Response} (hresp : Relayable resp) {part : List UInt8}
    (h : part <+: resp.raw) : parseBackendResponse part =
      if part = resp.raw then some ⟨resp.status, trim resp.announcedType, resp.body⟩ else none := by
  rcases beginning_raw h with hshort | ⟨body, rfl, hbody⟩
  · rw [if_neg, parseBackendResponse, findSubslice_of_short h hshort]
    · rfl
    · rintro rfl
      have hfound := findSubslice_of_short h hshort
      rw [Response.raw, findSubslice_head] at hfound
      cases hfound
  · rw [parse_frame hresp (h.length_le.trans hresp.fits)]
    by_cases hwhole : body = resp.body
    · rw [hwhole, if_pos rfl, Response.raw, if_pos rfl]
    · rw [if_neg, if_neg]
      · exact fun hraw ↦ hwhole (List.append_cancel_left hraw)
      · exact fun hlength ↦ hwhole (hbody.eq_of_length hlength.symm)

/-- A buffered forward answers with what the delivered bytes say, however they are cut into reads
and whatever waits lie between them, and with nothing else. -/
theorem buffered_forward_exact {io : StreamIo} (hconnects : io.connect.connects = true) :
    (∀ response, forwardControlled io = some (.ok response) →
      ∃ raw, Delivers io.start io.reads raw ∧ parseBackendResponse raw = some response) ∧
    ∀ raw, Delivers io.start io.reads raw → WithinLimits raw →
      forwardControlled io = some (parsed raw) := by
  rw [forwardControlled, if_pos hconnects]
  constructor
  · intro response h
    obtain ⟨result, hreceive, hparsed⟩ := Option.map_eq_some_iff.mp h
    obtain ⟨raw, rfl, hraw⟩ := bind_eq_ok.mp hparsed
    obtain ⟨_, hdelivers, rfl⟩ := exists_delivers_of_receive hreceive
    refine ⟨raw, hdelivers, ?_⟩
    unfold parsed at hraw
    split at hraw
    · cases hraw
    · rename_i hresponse
      cases hraw
      exact hresponse
  · intro raw hdelivers hfits
    rw [receive_of_delivers hdelivers (by rwa [List.nil_append])]
    rfl

/-- A daemon's response goes through the buffered gateway as a whole or not at all, wherever the
daemon's writing breaks off and however what it wrote arrives. -/
theorem daemon_response_relayed {resp : Response} (hresp : Relayable resp) (controlled : Bool)
    (start : Instant) (flushed : Bool) (events : List WriteEvent) {io : StreamIo}
    (hconnects : io.connect.connects = true)
    (hdelivers : Delivers io.start io.reads
      (writeResponse resp controlled start flushed events).1.written) :
    forwardControlled io =
      some (if (writeResponse resp controlled start flushed events).1.written = resp.raw then
        .ok ⟨resp.status, trim resp.announcedType, resp.body⟩
      else .error .invalid) := by
  obtain ⟨rest, hraw, -⟩ := exists_rest_of_writeResponse resp controlled start flushed events
  have hwritten : (writeResponse resp controlled start flushed events).1.written <+: resp.raw :=
    ⟨rest, hraw.symm⟩
  rw [(buffered_forward_exact hconnects).2 _ hdelivers (withinLimits_of_beginning hresp hwritten),
    parsed, parse_beginning hresp hwritten]
  by_cases hwhole : (writeResponse resp controlled start flushed events).1.written = resp.raw
  · rw [if_pos hwhole, if_pos hwhole]
  · rw [if_neg hwhole, if_neg hwhole]

def greeting : Response := ⟨200, " text/plain", [104, 105], [("Cache-Control", "no-store")]⟩

theorem relayable_greeting : Relayable greeting where
  status := by decide
  headers := by
    have hall : (greeting.extraHeaders.all fun header ↦
        toAsciiLowercase header.1 ∉ framingNames) = true := by decide
    exact fun header hheader ↦ of_decide_eq_true (List.all_eq_true.mp hall header hheader)
  head := by decide +kernel
  fits := by decide +kernel

/-- The socket takes the head in two parts, then stalls for a moment. -/
def greetingWrites : List WriteEvent :=
  [⟨false, .wrote 17, 0⟩, ⟨false, .wrote 1000, 1⟩, ⟨false, .stalled, 2⟩, ⟨false, .wrote 2, 3⟩]

/-- A read that ends in the middle of the head, one that times out, and the rest. -/
def greetingReads : StreamIo :=
  ⟨⟨false, true, true, true, true, true, false⟩, 0,
    [⟨.data (greeting.raw.take 33), false, 1⟩, ⟨.timedOut, false, 2⟩,
      ⟨.data (greeting.raw.drop 33), false, 3⟩, ⟨.data [], false, 4⟩]⟩

theorem delivers_greeting : Delivers greetingReads.start greetingReads.reads greeting.raw := by
  have hparts : greeting.raw.take 33 ≠ [] ∧ greeting.raw.drop 33 ≠ [] := by decide
  have hdelivers : Delivers greetingReads.start greetingReads.reads
      (greeting.raw.take 33 ++ (greeting.raw.drop 33 ++ [])) :=
    .read rfl rfl hparts.1 (.waited rfl rfl (by decide) (.read rfl rfl hparts.2
      (.ended rfl (.inl rfl))))
  rwa [List.append_nil, List.take_append_drop] at hdelivers

theorem written_greeting :
    (writeResponse greeting true 0 true greetingWrites).1.written = greeting.raw := by
  decide +kernel

theorem buffered_forward_exact_greeting :
    forwardControlled greetingReads = some (parsed greeting.raw) :=
  (buffered_forward_exact (by decide)).2 _ delivers_greeting
    (withinLimits_of_beginning relayable_greeting List.prefix_rfl)

theorem daemon_response_relayed_greeting :
    forwardControlled greetingReads = some (.ok ⟨200, "text/plain", [104, 105]⟩) := by
  have h := daemon_response_relayed relayable_greeting true 0 true greetingWrites
    (by decide : greetingReads.connect.connects = true)
    (by rw [written_greeting]; exact delivers_greeting)
  rw [if_pos written_greeting] at h
  have htype : trim greeting.announcedType = "text/plain" := by decide
  rw [htype] at h
  exact h

end Cameo.Gateway
