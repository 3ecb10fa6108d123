import Cameo.Gateway.BackendResponse

/-!
# Streaming through the gateway

`forward_streaming_controlled` relays the bytes of the upstream as they come.  An upstream that
cannot be reached, and a drain that is past its deadline before a byte was relayed, are answered
with a complete error response.  The other ends of the loop do not ask whether anything was
relayed: when they come first, the client gets nothing.
-/

namespace Cameo.Gateway

/-- `PROXY_TIMEOUT`. -/
def proxyTimeout : Duration := Duration.fromSecs 300

/-! ## The client -/

/-- The client's side: what has been written, and how much more it takes, if there is a limit. -/
structure Sink where
  written : List UInt8
  room : Option ℕ
deriving DecidableEq

/-- How a call fails: a write to the client, a drain past its deadline, or a read from the
upstream. -/
inductive StreamError where
  | sink
  | drained
  | upstream
deriving DecidableEq

/-- `sink.write_all` and `sink.flush`. -/
def Sink.writeAll (data : List UInt8) (sink : Sink) : Except StreamError Unit × Sink :=
  match sink.room with
  | none => (.ok (), { sink with written := sink.written ++ data })
  | some room =>
    if data.length ≤ room then
      (.ok (), ⟨sink.written ++ data, some (room - data.length)⟩)
    else (.error .sink, ⟨sink.written ++ data.take room, some 0⟩)

/-- An error response, with its body after a head that declares the length. -/
def errorResponse (statusLine extra body : String) : String :=
  s!"HTTP/1.1 {statusLine}\r\nContent-Type: application/json\r\n" ++
    s!"Content-Length: {body.utf8ByteSize}\r\nConnection: close\r\n{extra}\r\n{body}"

/-- The response of `write_drain_error`. -/
def drainError : List UInt8 :=
  bytes (errorResponse "503 Service Unavailable" "Retry-After: 5\r\n"
    ("\x7b\"error\":\x7b\"message\":\"drain deadline exceeded\",\"type\":\"server_error\"," ++
      "\"code\":\"node_draining\"\x7d\x7d"))

/-- The response of `write_gateway_error`. -/
def gatewayError : List UInt8 :=
  bytes (errorResponse "502 Bad Gateway" ""
    ("\x7b\"error\":\x7b\"message\":\"upstream unavailable\",\"type\":\"server_error\"," ++
      "\"code\":\"upstream_unavailable\"\x7d\x7d"))

/-! ## The upstream -/

/-- The result of one `stream.read`; a read of no bytes is the end of the stream. -/
inductive ReadOutcome where
  | data (bytes : List UInt8)
  /-- `TimedOut` or `WouldBlock`. -/
  | timedOut
  | reset
  /-- Every other error. -/
  | failed
deriving DecidableEq

/-- One round of the relay loop: the read, whether the request is cancelled after it, and the
clock. -/
structure ReadEvent where
  outcome : ReadOutcome
  cancelled : Bool
  now : Instant
deriving DecidableEq

/-- The answers to `connect_and_send`. -/
structure ConnectIo where
  cancelled : Bool
  resolved : Bool
  connected : Bool
  /-- `drain.register`, for a request that is under control of the drain. -/
  registered : Bool
  configured : Bool
  sent : Bool
  /-- `cancelled` once more, after a failure. -/
  cancelledAfter : Bool
deriving DecidableEq

/-- Whether `connect_and_send` succeeds. -/
def ConnectIo.connects (io : ConnectIo) : Bool :=
  !io.cancelled && io.resolved && io.connected && io.registered && io.configured && io.sent

/-- The events of one call, up to now. -/
structure StreamIo where
  connect : ConnectIo
  start : Instant
  reads : List ReadEvent
deriving DecidableEq

/-- The relay loop; none while it goes on. -/
def relay (lastProgress : Instant) (relayed : Bool) (sink : Sink) :
    List ReadEvent → Option (Except StreamError Unit × Sink)
  | [] => none
  | event :: reads =>
    if event.cancelled then
      if !relayed then some (sink.writeAll drainError) else some (.error .drained, sink)
    else if event.outcome = .timedOut ∧ lastProgress.elapsed event.now < proxyTimeout then
      relay lastProgress relayed sink reads
    else
      match event.outcome with
      | .data [] | .reset => some (.ok (), sink)
      | .data bytes =>
        match sink.writeAll bytes with
        | (.ok (), sink) => relay event.now true sink reads
        | failed => some failed
      | .timedOut | .failed => some (.error .upstream, sink)

/-- `forward_streaming_controlled`; none while it has not returned. -/
def forwardStreamingControlled (io : StreamIo) (sink : Sink) :
    Option (Except StreamError Unit × Sink) :=
  if io.connect.connects then relay io.start false sink io.reads
  else if io.connect.cancelledAfter then some (sink.writeAll drainError)
  else some (sink.writeAll gatewayError)

/-! ## What the client gets -/

def ReadOutcome.bytes : ReadOutcome → List UInt8
  | .data bytes => bytes
  | _ => []

def upstreamBytes (reads : List ReadEvent) : List UInt8 := reads.flatMap fun event ↦
  event.outcome.bytes

/-- A response of the gateway's own that declares the length of its body and is complete. -/
def CompleteError (written : List UInt8) : Prop :=
  ∃ statusLine extra body response, written = bytes (errorResponse statusLine extra body) ∧
    parseBackendResponse written = some response ∧ response.body = bytes body ∧
    500 ≤ response.status

/-- The client has got the beginning of the upstream's response, or one error response. -/
def Answered (upstream written : List UInt8) : Prop :=
  written ≠ [] ∧ written <+: upstream ∨ CompleteError written

theorem completeError_drainError : CompleteError drainError :=
  ⟨_, _, _, ⟨503, "application/json", _⟩, rfl, by decide +kernel, rfl, by decide⟩

theorem completeError_gatewayError : CompleteError gatewayError :=
  ⟨_, _, _, ⟨502, "application/json", _⟩, rfl, by decide +kernel, rfl, by decide⟩

theorem not_answered_nil (upstream : List UInt8) : ¬ Answered upstream [] := by
  rintro (⟨hne, -⟩ | ⟨_, _, _, response, -, hparse, -⟩)
  · exact hne rfl
  · cases hparse

/-- Nothing is written beyond what was to be written. -/
theorem writeAll_written (data : List UInt8) (sink : Sink) :
    ∃ part, (sink.writeAll data).2.written = sink.written ++ part ∧ part <+: data ∧
      ((sink.writeAll data).1 = .ok () → part = data) := by
  unfold Sink.writeAll
  cases sink.room with
  | none => exact ⟨data, rfl, List.prefix_rfl, fun _ ↦ rfl⟩
  | some room =>
    dsimp only
    split
    · exact ⟨data, rfl, List.prefix_rfl, fun _ ↦ rfl⟩
    · exact ⟨data.take room, rfl, List.take_prefix _ _, nofun⟩

/-- Once a byte was relayed, whatever else is written comes from the upstream, in order. -/
theorem relay_relayed {lastProgress : Instant} {sink after : Sink} {reads : List ReadEvent}
    {result : Except StreamError Unit}
    (h : relay lastProgress true sink reads = some (result, after)) :
    ∃ more, after.written = sink.written ++ more ∧ more <+: upstreamBytes reads := by
  induction reads generalizing lastProgress sink with
  | nil => cases h
  | cons event reads ih =>
    have stopped : ∃ more, sink.written = sink.written ++ more ∧
        more <+: upstreamBytes (event :: reads) :=
      ⟨[], (List.append_nil _).symm, List.nil_prefix⟩
    have later {more : List UInt8} (hmore : more <+: upstreamBytes reads)
        (hquiet : event.outcome.bytes = []) : more <+: upstreamBytes (event :: reads) := by
      rwa [upstreamBytes, List.flatMap_cons, hquiet]
    rw [relay] at h
    split at h
    · cases h
      exact stopped
    split at h
    · rename_i hwait
      obtain ⟨more, hwritten, hmore⟩ := ih h
      exact ⟨more, hwritten, later hmore (by rw [hwait.1]; rfl)⟩
    split at h
    · cases h
      exact stopped
    · cases h
      exact stopped
    · rename_i bytes hne hdata
      obtain ⟨part, hpart, hpartial, hwhole⟩ := writeAll_written bytes sink
      have hbytes : upstreamBytes (event :: reads) = bytes ++ upstreamBytes reads := by
        rw [upstreamBytes, List.flatMap_cons, hdata]
        rfl
      rw [hbytes]
      split at h
      · rename_i next hwrite
        rw [hwrite] at hpart hwhole
        obtain ⟨more, hwritten, hmore⟩ := ih h
        obtain rfl := hwhole rfl
        refine ⟨part ++ more, ?_, (List.prefix_append_right_inj part).mpr hmore⟩
        rw [hwritten, hpart, List.append_assoc]
      · rename_i hfailed
        rw [Option.some.injEq] at h
        rw [h] at hpart
        exact ⟨part, hpart, hpartial.trans (List.prefix_append _ _)⟩
    · cases h
      exact stopped
    · cases h
      exact stopped

/-- The loop goes on waiting after the read. -/
def ReadEvent.waits (start : Instant) (event : ReadEvent) : Bool :=
  !event.cancelled && (event.outcome = .timedOut && start.elapsed event.now < proxyTimeout)

/-- The first read that the loop does not just wait for. -/
def firstDecisive (io : StreamIo) : Option ReadEvent :=
  io.reads.find? fun event ↦ !event.waits io.start

/-- The read brings bytes, or the request is cancelled. -/
def ReadEvent.Answers (event : ReadEvent) : Prop :=
  event.cancelled = true ∨ ∃ bytes, event.outcome = .data bytes ∧ bytes ≠ []

theorem relay_of_waits {start : Instant} {event : ReadEvent} (h : event.waits start = true)
    (relayed : Bool) (sink : Sink) (reads : List ReadEvent) :
    relay start relayed sink (event :: reads) = relay start relayed sink reads := by
  rw [ReadEvent.waits, Bool.and_eq_true, Bool.and_eq_true, Bool.not_eq_true'] at h
  rw [relay, if_neg (by rw [h.1]; exact nofun),
    if_pos ⟨of_decide_eq_true h.2.1, of_decide_eq_true h.2.2⟩]

theorem upstreamBytes_of_waits {start : Instant} {event : ReadEvent}
    (h : event.waits start = true) (reads : List ReadEvent) :
    upstreamBytes (event :: reads) = upstreamBytes reads := by
  rw [ReadEvent.waits, Bool.and_eq_true, Bool.and_eq_true] at h
  have hout : event.outcome = .timedOut := of_decide_eq_true h.2.1
  rw [upstreamBytes, List.flatMap_cons, hout]
  rfl

/-- Without a decisive read the loop is still waiting. -/
theorem relay_of_find_none {start : Instant} {relayed : Bool} {sink : Sink}
    {reads : List ReadEvent} (h : reads.find? (fun event ↦ !event.waits start) = none) :
    relay start relayed sink reads = none := by
  induction reads with
  | nil => rfl
  | cons event reads ih =>
    rw [List.find?_cons] at h
    split at h
    · cases h
    · rename_i hwaits
      rw [relay_of_waits (by simpa using hwaits)]
      exact ih h

/-- The loop comes to the first decisive read as it began. -/
theorem relay_of_find_some {start : Instant} {relayed : Bool} {sink : Sink}
    {reads : List ReadEvent} {event : ReadEvent}
    (h : reads.find? (fun event ↦ !event.waits start) = some event) :
    ∃ rest, relay start relayed sink reads = relay start relayed sink (event :: rest) ∧
      upstreamBytes reads = upstreamBytes (event :: rest) := by
  induction reads with
  | nil => cases h
  | cons head reads ih =>
    rw [List.find?_cons] at h
    split at h
    · cases h
      exact ⟨reads, rfl, rfl⟩
    · rename_i hwaits
      have hwaits : head.waits start = true := by simpa using hwaits
      rw [relay_of_waits hwaits, upstreamBytes_of_waits hwaits]
      exact ih h

/-- A decisive read that brings bytes or finds the request cancelled leaves the client answered. -/
theorem answered_of_answers {start : Instant} {event : ReadEvent} {rest : List ReadEvent}
    {result : Except StreamError Unit} {after : Sink} (hevent : event.Answers)
    (h : relay start false ⟨[], none⟩ (event :: rest) = some (result, after)) :
    Answered (upstreamBytes (event :: rest)) after.written := by
  rw [relay] at h
  split at h
  · cases h
    exact .inr completeError_drainError
  rename_i hcancelled
  obtain ⟨data, hdata, hne⟩ : ∃ bytes, event.outcome = .data bytes ∧ bytes ≠ [] :=
    hevent.resolve_left hcancelled
  rw [hdata, if_neg (fun hwait ↦ nomatch hwait.1)] at h
  cases data with
  | nil => exact absurd rfl hne
  | cons byte bytes =>
    obtain ⟨more, hwritten, hmore⟩ := relay_relayed h
    left
    rw [hwritten, upstreamBytes, List.flatMap_cons, hdata]
    exact ⟨List.cons_ne_nil _ _, (List.prefix_append_right_inj (byte :: bytes)).mpr hmore⟩

/-- Any other decisive read ends the call with nothing written. -/
theorem relay_of_not_answers {start : Instant} {event : ReadEvent} {rest : List ReadEvent}
    {sink : Sink} (hdecisive : event.waits start = false) (hevent : ¬ event.Answers) :
    ∃ result, relay start false sink (event :: rest) = some (result, sink) := by
  rw [ReadEvent.Answers, not_or] at hevent
  have hwait : ¬ (event.outcome = .timedOut ∧ start.elapsed event.now < proxyTimeout) := by
    rintro ⟨hout, helapsed⟩
    rw [ReadEvent.waits, hout, decide_eq_true helapsed, Bool.eq_false_iff.mpr hevent.1]
      at hdecisive
    cases hdecisive
  rw [relay, if_neg hevent.1, if_neg hwait]
  cases hout : event.outcome with
  | data bytes =>
    cases bytes with
    | nil => exact ⟨_, rfl⟩
    | cons byte bytes => exact absurd ⟨_, hout, List.cons_ne_nil _ _⟩ hevent.2
  | timedOut => exact ⟨_, rfl⟩
  | reset => exact ⟨_, rfl⟩
  | failed => exact ⟨_, rfl⟩

/-- A client whose side takes everything is answered, unless the call connects and the first read
that is not just waited for brings no bytes, the request not being cancelled. -/
theorem forwardStreaming_answered_iff (io : StreamIo) :
    (∀ result sink, forwardStreamingControlled io ⟨[], none⟩ = some (result, sink) →
        Answered (upstreamBytes io.reads) sink.written) ↔
      (io.connect.connects = true → ∀ event, firstDecisive io = some event → event.Answers) := by
  unfold forwardStreamingControlled
  by_cases hconnects : io.connect.connects = true
  · rw [if_pos hconnects]
    constructor
    · intro h _ event hevent
      by_contra hnot
      have hdecisive : event.waits io.start = false := by simpa using List.find?_some hevent
      obtain ⟨rest, hrelay, -⟩ := relay_of_find_some hevent
      obtain ⟨result, hstopped⟩ := relay_of_not_answers hdecisive hnot
      exact not_answered_nil _ (h result ⟨[], none⟩ (hrelay.trans hstopped))
    · intro h result sink hreturned
      cases hevent : firstDecisive io with
      | none =>
        rw [relay_of_find_none hevent] at hreturned
        cases hreturned
      | some event =>
        obtain ⟨rest, hrelay, hupstream⟩ := relay_of_find_some hevent
        rw [hrelay] at hreturned
        rw [hupstream]
        exact answered_of_answers (h hconnects event hevent) hreturned
  · rw [if_neg hconnects]
    refine iff_of_true ?_ (fun h ↦ absurd h hconnects)
    intro result sink hreturned
    split at hreturned
    · cases hreturned
      exact .inr completeError_drainError
    · cases hreturned
      exact .inr completeError_gatewayError

/-- The upstream takes the request and closes the connection: the client gets nothing. -/
theorem forwardStreaming_closed_early :
    let io : StreamIo := ⟨⟨false, true, true, true, true, true, false⟩, 0, [⟨.data [], false, 1⟩]⟩
    ∃ result sink, forwardStreamingControlled io ⟨[], none⟩ = some (result, sink) ∧
      ¬ Answered (upstreamBytes io.reads) sink.written :=
  ⟨.ok (), ⟨[], none⟩, rfl, not_answered_nil _⟩

end Cameo.Gateway
