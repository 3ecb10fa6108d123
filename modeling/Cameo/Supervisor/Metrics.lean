import Cameo.Library.Exposition
import Cameo.Supervisor.Operations
import Cameo.Text

/-!
# The metrics of the endpoints

The endpoint half of `/metrics`: a round for each endpoint pushes its samples to four buffers, and
the buffers are written behind their headers.  The samples of `cameo_endpoint_up` and
`cameo_endpoint_ready` share a buffer.
-/

namespace Cameo

open Library.Exposition

namespace Supervisor

/-! ## Escaping -/

/-- What `esc` pushes for a character. -/
def escapeChar : Char → List Char
  | '\\' => ['\\', '\\']
  | '"' => ['\\', '"']
  | '\n' => ['\\', 'n']
  | '\r' => ['\\', 'r']
  | c => [c]

/-- `esc`. -/
def esc (s : String) : String := String.ofList (s.toList.flatMap escapeChar)

theorem toList_esc (s : String) : (esc s).toList = s.toList.flatMap escapeChar := by
  rw [esc, String.toList_ofList]

theorem takeQuoted_escapeChar (c : Char) (text : List Char) :
    takeQuoted (escapeChar c ++ text) =
      (takeQuoted text).map fun (front, rest) ↦ (escapeChar c ++ front, rest) := by
  fun_cases escapeChar c with
  | case1 => rfl
  | case2 => rfl
  | case3 => rfl
  | case4 => rfl
  | case5 c hbackslash hquote =>
    exact takeQuoted_of_isPlain (by simpa [isPlain] using ⟨hquote, hbackslash⟩) text

/-- An escaped text ends at the quote behind it. -/
theorem closed_esc (s : String) : Closed (esc s).toList := by
  intro rest
  rw [toList_esc]
  induction s.toList with
  | nil => rfl
  | cons c text ih =>
    rw [List.flatMap_cons, List.append_assoc, takeQuoted_escapeChar, ih]
    rfl

theorem newline_not_mem_esc (s : String) : '\n' ∉ (esc s).toList := by
  rw [toList_esc, List.mem_flatMap]
  rintro ⟨c, -, hmem⟩
  revert hmem
  fun_cases escapeChar c with
  | case1 => decide
  | case2 => decide
  | case3 => decide
  | case4 => decide
  | case5 c _ _ hnewline =>
    intro hmem
    exact hnewline (List.mem_singleton.mp hmem).symm

theorem decode_escapeChar {c : Char} (h : c ≠ '\r') (text : List Char) :
    decode (escapeChar c ++ text) = (decode text).map (c :: ·) := by
  revert h
  fun_cases escapeChar c with
  | case1 =>
    intro _
    cases hrest : decode text <;> simp [decode, unescape, hrest]
  | case2 =>
    intro _
    cases hrest : decode text <;> simp [decode, unescape, hrest]
  | case3 =>
    intro _
    cases hrest : decode text <;> simp [decode, unescape, hrest]
  | case4 => exact fun h ↦ absurd rfl h
  | case5 c hbackslash hquote =>
    intro _
    exact decode_of_isPlain (by simpa [isPlain] using ⟨hquote, hbackslash⟩) text

/-- The escapes of the format give back a text without carriage returns; the escape of a carriage
return is none of them. -/
theorem decode_esc (s : String) :
    decode (esc s).toList = if '\r' ∈ s.toList then none else some s.toList := by
  rw [toList_esc]
  induction s.toList with
  | nil => rfl
  | cons c text ih =>
    rw [List.flatMap_cons]
    by_cases hc : c = '\r'
    · subst hc
      rw [if_pos List.mem_cons_self]
      rfl
    · rw [decode_escapeChar hc, ih]
      by_cases htext : '\r' ∈ text
      · rw [if_pos htext, if_pos (List.mem_cons_of_mem c htext)]
        rfl
      · rw [if_neg htext, if_neg (List.not_mem_cons_of_ne_of_not_mem (Ne.symm hc) htext)]
        rfl

theorem return_not_mem_of_decode {s : String} (h : ∃ value, decode (esc s).toList = some value) :
    '\r' ∉ s.toList := by
  intro hreturn
  obtain ⟨value, hvalue⟩ := h
  rw [decode_esc, if_pos hreturn] at hvalue
  cases hvalue

theorem decode_esc_of_not_mem {s : String} (h : '\r' ∉ s.toList) :
    decode (esc s).toList = some s.toList := by
  rw [decode_esc, if_neg h]

/-! ## The text -/

def sampleLine (metric labels value : String) : String :=
  metric ++ "\x7b" ++ labels ++ "\x7d " ++ value ++ "\n"

def endpointLabels (e : Endpoint) : String :=
  String.join ["id=\"", esc e.id, "\",model=\"", esc e.model, "\",port=\"", toString e.port,
    "\",backend=\"", esc e.backend, "\",state=\"", e.state.label, "\""]

def idLabel (e : Endpoint) : String := "id=\"" ++ esc e.id ++ "\""

def flag (holds : Bool) : String := if holds then "1" else "0"

/-- The uptime of an endpoint, zero for a clock that went backwards. -/
def uptimeSeconds (now : SystemTime) (e : Endpoint) : ℕ :=
  ((SystemTime.elapsed e.startedAt now).map Duration.asSecs).getD 0

/-- The buffers of `metrics`. -/
structure Buffers where
  up : String
  restarts : String
  uptime : String
  vram : String

/-- The round of `metrics` for a refreshed endpoint. -/
def Buffers.push (now : String → SystemTime) (buffers : Buffers) (e : Endpoint) : Buffers :=
  let labels := endpointLabels e
  { up := buffers.up ++ sampleLine "cameo_endpoint_up" labels (flag e.processRunning) ++
      sampleLine "cameo_endpoint_ready" labels (flag e.isReady)
    restarts := buffers.restarts ++
      sampleLine "cameo_endpoint_restarts_total" (idLabel e) (toString e.restarts)
    uptime := buffers.uptime ++
      sampleLine "cameo_endpoint_uptime_seconds" (idLabel e) (toString (uptimeSeconds (now e.id) e))
    vram := buffers.vram ++
      sampleLine "cameo_endpoint_vram_bytes" (idLabel e) (toString e.vramBytes) }

/-- What `metrics` writes before the first buffer. -/
def front (count : ℕ) : List String := [
  "# HELP cameo_up 1 if the control-plane daemon is serving.\n",
  "# TYPE cameo_up gauge\ncameo_up 1\n",
  "# HELP cameo_endpoints Number of tracked model endpoints.\n",
  "# TYPE cameo_endpoints gauge\ncameo_endpoints " ++ toString count ++ "\n",
  "# HELP cameo_endpoint_up 1 if the endpoint's process is running.\n",
  "# TYPE cameo_endpoint_up gauge\n",
  "# HELP cameo_endpoint_ready 1 if the endpoint passed its health probe.\n",
  "# TYPE cameo_endpoint_ready gauge\n"]

/-- The text of `metrics` for the refreshed endpoints. -/
def metricsText (now : String → SystemTime) (endpoints : List Endpoint) : String :=
  let buffers := endpoints.foldl (Buffers.push now) ⟨"", "", "", ""⟩
  String.join (front endpoints.length ++ [
    buffers.up,
    "# HELP cameo_endpoint_restarts_total Auto-restarts since creation.\n",
    "# TYPE cameo_endpoint_restarts_total counter\n",
    buffers.restarts,
    "# HELP cameo_endpoint_uptime_seconds Seconds since the current process started.\n",
    "# TYPE cameo_endpoint_uptime_seconds gauge\n",
    buffers.uptime,
    "# HELP cameo_endpoint_vram_bytes Estimated VRAM the endpoint holds.\n",
    "# TYPE cameo_endpoint_vram_bytes gauge\n",
    buffers.vram])

/-- `Supervisor::metrics`; each uptime reads the clock. -/
def metrics (io : String → RefreshIo) (now : String → SystemTime) (sup : Supervisor) :
    Outcome String :=
  let visited := refreshAll io sup.endpoints
  observe visited (metricsText now visited.map.entries) sup

/-! ## What is to be exposed -/

/-- The labels of an endpoint with the values that they stand for. -/
def endpointLabelValues (e : Endpoint) : List (List Char × List Char) :=
  [("id".toList, e.id.toList), ("model".toList, e.model.toList),
    ("port".toList, (toString e.port).toList), ("backend".toList, e.backend.toList),
    ("state".toList, e.state.label.toList)]

def cameoUp : Family :=
  ⟨"cameo_up".toList, "1 if the control-plane daemon is serving.".toList, "gauge".toList,
    [([], "1".toList)]⟩

def cameoEndpoints (count : ℕ) : Family :=
  ⟨"cameo_endpoints".toList, "Number of tracked model endpoints.".toList, "gauge".toList,
    [([], (toString count).toList)]⟩

def endpointUp (endpoints : List Endpoint) : Family :=
  ⟨"cameo_endpoint_up".toList, "1 if the endpoint's process is running.".toList, "gauge".toList,
    endpoints.map fun e ↦ (endpointLabelValues e, (flag e.processRunning).toList)⟩

def endpointReady (endpoints : List Endpoint) : Family :=
  ⟨"cameo_endpoint_ready".toList, "1 if the endpoint passed its health probe.".toList,
    "gauge".toList, endpoints.map fun e ↦ (endpointLabelValues e, (flag e.isReady).toList)⟩

/-- A number for each endpoint, labelled with the id alone. -/
def countFamily (metric docs kind : String) (count : Endpoint → ℕ) (endpoints : List Endpoint) :
    Family :=
  ⟨metric.toList, docs.toList, kind.toList,
    endpoints.map fun e ↦ ([("id".toList, e.id.toList)], (toString (count e)).toList)⟩

def endpointRestarts : List Endpoint → Family :=
  countFamily "cameo_endpoint_restarts_total" "Auto-restarts since creation." "counter"
    Endpoint.restarts

def endpointUptime (now : String → SystemTime) : List Endpoint → Family :=
  countFamily "cameo_endpoint_uptime_seconds" "Seconds since the current process started." "gauge"
    fun e ↦ uptimeSeconds (now e.id) e

def endpointVram : List Endpoint → Family :=
  countFamily "cameo_endpoint_vram_bytes" "Estimated VRAM the endpoint holds." "gauge"
    Endpoint.vramBytes

def endpointFamilies (now : String → SystemTime) (endpoints : List Endpoint) : List Family :=
  [cameoUp, cameoEndpoints endpoints.length, endpointUp endpoints, endpointReady endpoints,
    endpointRestarts endpoints, endpointUptime now endpoints, endpointVram endpoints]

/-! ## Reading a sample -/

theorem quoted_esc {name : List Char} (h : isName isLabelChar name = true) (s : String) :
    Quoted (name, (esc s).toList) := .of_closed h (closed_esc s) (newline_not_mem_esc s)

theorem isPlain_of_isDigit {text : List Char} (h : ∀ c ∈ text, c.isDigit = true) :
    text.all isPlain = true := by
  rw [List.all_eq_true]
  intro c hc
  have hdigit := h c hc
  unfold isPlain
  rw [Bool.and_eq_true, decide_eq_true_eq, decide_eq_true_eq]
  constructor
  · rintro rfl
    exact absurd hdigit (by decide)
  · rintro rfl
    exact absurd hdigit (by decide)

theorem isPlain_decimal (n : ℕ) : (toString n).toList.all isPlain = true :=
  isPlain_of_isDigit fun _ ↦ isDigit_of_mem_decimal

theorem isWord_decimal (n : ℕ) : IsWord (toString n).toList :=
  isWord_of_isDigit (decimal_ne_nil n) fun _ ↦ isDigit_of_mem_decimal

theorem quoted_decimal {name : List Char} (h : isName isLabelChar name = true) (n : ℕ) :
    Quoted (name, (toString n).toList) :=
  .of_closed h (closed_of_isPlain (isPlain_decimal n)) (isWord_decimal n).newline

theorem isPlain_label (state : EndpointState) : state.label.toList.all isPlain = true := by
  cases state <;> decide

theorem newline_not_mem_label (state : EndpointState) : '\n' ∉ state.label.toList := by
  cases state <;> decide

theorem toList_sampleLine {labels : String} {quoted : List (List Char × List Char)}
    (h : labels.toList = labelsText quoted) (metric value : String) :
    (sampleLine metric labels value).toList =
      terminate (sampleText metric.toList quoted value.toList) := by
  simp [sampleLine, terminate, sampleText, h]

def quotedLabels (e : Endpoint) : List (List Char × List Char) :=
  [("id".toList, (esc e.id).toList), ("model".toList, (esc e.model).toList),
    ("port".toList, (toString e.port).toList), ("backend".toList, (esc e.backend).toList),
    ("state".toList, e.state.label.toList)]

theorem toList_endpointLabels (e : Endpoint) :
    (endpointLabels e).toList = labelsText (quotedLabels e) := by
  rw [endpointLabels, String.toList_join]
  simp [quotedLabels, labelsText]

theorem toList_idLabel (e : Endpoint) :
    (idLabel e).toList = labelsText [("id".toList, (esc e.id).toList)] := by
  simp [idLabel, labelsText]

theorem quoted_quotedLabels (e : Endpoint) : ∀ label ∈ quotedLabels e, Quoted label := by
  unfold quotedLabels
  simp only [List.forall_mem_cons]
  exact ⟨quoted_esc rfl e.id, quoted_esc rfl e.model, quoted_decimal rfl e.port,
    quoted_esc rfl e.backend,
    .of_closed rfl (closed_of_isPlain (isPlain_label e.state)) (newline_not_mem_label e.state),
    List.forall_mem_nil _⟩

/-- A sample about an endpoint is read, if at all, as a sample of its metric. -/
theorem readText_endpointLabels {metric value : String}
    (hmetric : isName isMetricChar metric.toList = true) (hvalue : IsWord value.toList)
    (e : Endpoint) :
    readText (sampleLine metric (endpointLabels e) value).toList =
      (decodeLabels (quotedLabels e)).map fun labels ↦
        [.sample ⟨metric.toList, labels, value.toList⟩] := by
  rw [toList_sampleLine (toList_endpointLabels e)]
  exact readText_sample hmetric (List.cons_ne_nil _ _) (quoted_quotedLabels e) hvalue

/-- No label of an endpoint has a carriage return. -/
structure Unreturned (e : Endpoint) : Prop where
  id : '\r' ∉ e.id.toList
  model : '\r' ∉ e.model.toList
  backend : '\r' ∉ e.backend.toList

theorem decodeLabels_quotedLabels {e : Endpoint} (h : Unreturned e) :
    decodeLabels (quotedLabels e) = some (endpointLabelValues e) := by
  unfold quotedLabels
  simp only [decodeLabels, decode_esc_of_not_mem h.id, decode_esc_of_not_mem h.model,
    decode_esc_of_not_mem h.backend, decode_of_all_isPlain (isPlain_decimal e.port),
    decode_of_all_isPlain (isPlain_label e.state), Option.bind_some, Option.map_some]
  rfl

theorem unreturned_of_decodeLabels {e : Endpoint} {values : List (List Char × List Char)}
    (h : decodeLabels (quotedLabels e) = some values) : Unreturned e := by
  have hlabels := exists_of_decodeLabels h
  unfold quotedLabels at hlabels
  simp only [List.forall_mem_cons] at hlabels
  obtain ⟨hid, hmodel, -, hbackend, -⟩ := hlabels
  exact ⟨return_not_mem_of_decode hid, return_not_mem_of_decode hmodel,
    return_not_mem_of_decode hbackend⟩

theorem ended_endpointLabels (metric value : String) (e : Endpoint) :
    Ended (sampleLine metric (endpointLabels e) value).toList := by
  rw [toList_sampleLine (toList_endpointLabels e)]
  exact ended_terminate _

theorem says_endpointLabels {metric value : String}
    (hmetric : isName isMetricChar metric.toList = true) (hvalue : IsWord value.toList)
    {e : Endpoint} (h : Unreturned e) :
    Says (sampleLine metric (endpointLabels e) value).toList
      [.sample ⟨metric.toList, endpointLabelValues e, value.toList⟩] := by
  refine ⟨ended_endpointLabels metric value e, ?_⟩
  rw [readText_endpointLabels hmetric hvalue, decodeLabels_quotedLabels h]
  rfl

theorem says_idLabel {metric : String} (hmetric : isName isMetricChar metric.toList = true)
    (value : ℕ) {e : Endpoint} (h : Unreturned e) :
    Says (sampleLine metric (idLabel e) (toString value)).toList
      [.sample ⟨metric.toList, [("id".toList, e.id.toList)], (toString value).toList⟩] := by
  have hquoted : ∀ label ∈ [("id".toList, (esc e.id).toList)], Quoted label :=
    List.forall_mem_singleton.mpr (quoted_esc rfl e.id)
  rw [toList_sampleLine (toList_idLabel e)]
  refine ⟨ended_terminate _, ?_⟩
  rw [readText_sample hmetric (List.cons_ne_nil _ _) hquoted (isWord_decimal value)]
  simp only [decodeLabels, decode_esc_of_not_mem h.id, Option.bind_some, Option.map_some]

/-! ## Reading the text -/

/-- A buffer holds what the rounds push to it. -/
theorem toList_foldl_push {now : String → SystemTime} {buffer : Buffers → String}
    {part : Endpoint → String}
    (h : ∀ buffers e, buffer (buffers.push now e) = buffer buffers ++ part e)
    (endpoints : List Endpoint) (buffers : Buffers) :
    (buffer (endpoints.foldl (Buffers.push now) buffers)).toList =
      (buffer buffers).toList ++ endpoints.flatMap fun e ↦ (part e).toList := by
  induction endpoints generalizing buffers with
  | nil => simp
  | cons e endpoints ih =>
    rw [List.foldl_cons, ih, h, String.toList_append, List.flatMap_cons, List.append_assoc]

/-- What a round pushes to the first buffer. -/
def upPart (e : Endpoint) : String :=
  sampleLine "cameo_endpoint_up" (endpointLabels e) (flag e.processRunning) ++
    sampleLine "cameo_endpoint_ready" (endpointLabels e) (flag e.isReady)

/-- What a round pushes to another buffer. -/
def countPart (metric : String) (count : Endpoint → ℕ) (e : Endpoint) : String :=
  sampleLine metric (idLabel e) (toString (count e))

/-- The text of a family with a number for each endpoint. -/
def countText (help type metric : String) (count : Endpoint → ℕ) (endpoints : List Endpoint) :
    List Char :=
  help.toList ++ type.toList ++ endpoints.flatMap fun e ↦ (countPart metric count e).toList

theorem toList_metricsText (now : String → SystemTime) (endpoints : List Endpoint) :
    (metricsText now endpoints).toList =
      (front endpoints.length).flatMap String.toList ++
      ((endpoints.flatMap fun e ↦ (upPart e).toList) ++
      (countText "# HELP cameo_endpoint_restarts_total Auto-restarts since creation.\n"
        "# TYPE cameo_endpoint_restarts_total counter\n" "cameo_endpoint_restarts_total"
        Endpoint.restarts endpoints ++
      (countText "# HELP cameo_endpoint_uptime_seconds Seconds since the current process started.\n"
        "# TYPE cameo_endpoint_uptime_seconds gauge\n" "cameo_endpoint_uptime_seconds"
        (fun e ↦ uptimeSeconds (now e.id) e) endpoints ++
      countText "# HELP cameo_endpoint_vram_bytes Estimated VRAM the endpoint holds.\n"
        "# TYPE cameo_endpoint_vram_bytes gauge\n" "cameo_endpoint_vram_bytes"
        Endpoint.vramBytes endpoints))) := by
  have hup := @toList_foldl_push now Buffers.up upPart (fun _ _ ↦ String.append_assoc) endpoints
    ⟨"", "", "", ""⟩
  have hrestarts := @toList_foldl_push now Buffers.restarts
    (countPart "cameo_endpoint_restarts_total" Endpoint.restarts) (fun _ _ ↦ rfl) endpoints
    ⟨"", "", "", ""⟩
  have huptime := @toList_foldl_push now Buffers.uptime
    (countPart "cameo_endpoint_uptime_seconds" fun e ↦ uptimeSeconds (now e.id) e)
    (fun _ _ ↦ rfl) endpoints ⟨"", "", "", ""⟩
  have hvram := @toList_foldl_push now Buffers.vram
    (countPart "cameo_endpoint_vram_bytes" Endpoint.vramBytes) (fun _ _ ↦ rfl) endpoints
    ⟨"", "", "", ""⟩
  have hempty : "".toList = [] := rfl
  rw [hempty, List.nil_append] at hup hrestarts huptime hvram
  rw [metricsText, String.toList_join, List.flatMap_append]
  simp only [List.flatMap_cons, List.flatMap_nil, hup, hrestarts, huptime, hvram, countText,
    List.append_assoc, List.append_nil]

theorem isWord_flag (holds : Bool) : IsWord (flag holds).toList := by
  cases holds
  · exact isWord_of_isDigit (by decide) (List.all_eq_true.mp (by decide))
  · exact isWord_of_isDigit (by decide) (List.all_eq_true.mp (by decide))

theorem says_count {metric : String} (hmetric : isName isMetricChar metric.toList = true)
    (count : ℕ) :
    Says (metric ++ " " ++ toString count ++ "\n").toList
      [.sample ⟨metric.toList, [], (toString count).toList⟩] := by
  have htext : (metric ++ " " ++ toString count ++ "\n").toList =
      terminate (metric.toList ++ ' ' :: (toString count).toList) := by
    simp [terminate]
  rw [htext]
  exact ⟨ended_terminate _, readText_bare hmetric (isWord_decimal count)⟩

/-- The pushes of a header's type and of a count in one. -/
theorem says_typed_count {literal type metric : String} {lines : List Line}
    (hliteral : literal = type ++ (metric ++ " ")) (htype : Says type.toList lines)
    (hmetric : isName isMetricChar metric.toList = true) (count : ℕ) :
    Says (literal ++ toString count ++ "\n").toList
      (lines ++ [.sample ⟨metric.toList, [], (toString count).toList⟩]) := by
  rw [hliteral, String.append_assoc, String.append_assoc, String.toList_append,
    ← String.append_assoc]
  exact htype.append (says_count hmetric count)

/-- The first two metrics, and the headers of the next two. -/
def frontLines (count : ℕ) : List Line :=
  cameoUp.lines ++ (cameoEndpoints count).lines ++ (endpointUp []).lines ++ (endpointReady []).lines

theorem says_front (count : ℕ) : Says ((front count).flatMap String.toList) (frontLines count) := by
  have hup : Says "# HELP cameo_up 1 if the control-plane daemon is serving.\n".toList
      [.help cameoUp.metric cameoUp.docs] := .of_read (by decide +kernel)
  have hvalue : Says "# TYPE cameo_up gauge\ncameo_up 1\n".toList
      [.type cameoUp.metric cameoUp.kind, .sample ⟨cameoUp.metric, [], "1".toList⟩] :=
    .of_read (by decide +kernel)
  have hendpoints : Says "# HELP cameo_endpoints Number of tracked model endpoints.\n".toList
      [.help "cameo_endpoints".toList "Number of tracked model endpoints.".toList] :=
    .of_read (by decide +kernel)
  have htype : Says "# TYPE cameo_endpoints gauge\n".toList
      [.type "cameo_endpoints".toList "gauge".toList] := .of_read (by decide +kernel)
  have hsplit : "# TYPE cameo_endpoints gauge\ncameo_endpoints " =
      "# TYPE cameo_endpoints gauge\n" ++ ("cameo_endpoints" ++ " ") := by decide +kernel
  have hcount := says_typed_count hsplit htype rfl count
  have hheaders : Says
      (["# HELP cameo_endpoint_up 1 if the endpoint's process is running.\n",
        "# TYPE cameo_endpoint_up gauge\n",
        "# HELP cameo_endpoint_ready 1 if the endpoint passed its health probe.\n",
        "# TYPE cameo_endpoint_ready gauge\n"].flatMap String.toList)
      ((endpointUp []).lines ++ (endpointReady []).lines) := .of_read (by decide +kernel)
  exact hup.append (hvalue.append (hendpoints.append (hcount.append hheaders)))

def upSample (e : Endpoint) : Sample :=
  ⟨"cameo_endpoint_up".toList, endpointLabelValues e, (flag e.processRunning).toList⟩

def readySample (e : Endpoint) : Sample :=
  ⟨"cameo_endpoint_ready".toList, endpointLabelValues e, (flag e.isReady).toList⟩

theorem upSample_metric_ne (e : Endpoint) : (upSample e).metric ≠ (readySample e).metric := by
  have hne : "cameo_endpoint_up".toList ≠ "cameo_endpoint_ready".toList := by decide
  exact hne

/-- The samples of an endpoint in the first buffer. -/
def upLines (e : Endpoint) : List Line := [.sample (upSample e), .sample (readySample e)]

theorem says_upPart {e : Endpoint} (h : Unreturned e) : Says (upPart e).toList (upLines e) := by
  rw [upPart, String.toList_append]
  exact (says_endpointLabels rfl (isWord_flag _) h).append
    (says_endpointLabels rfl (isWord_flag _) h)

theorem says_countText {help type metric docs kind : String}
    (hmetric : isName isMetricChar metric.toList = true) {count : Endpoint → ℕ}
    {endpoints : List Endpoint} (h : ∀ e ∈ endpoints, Unreturned e)
    (hhead : readText (help.toList ++ type.toList) =
      some (Family.lines ⟨metric.toList, docs.toList, kind.toList, []⟩)) :
    Says (countText help type metric count endpoints)
      (countFamily metric docs kind count endpoints).lines :=
  .family (.of_read hhead) fun e he ↦ says_idLabel hmetric (count e) (h e he)

/-- What the metrics of endpoints without carriage returns say: the samples of
`cameo_endpoint_up` and `cameo_endpoint_ready` alternate behind both headers. -/
theorem says_metricsText (now : String → SystemTime) {endpoints : List Endpoint}
    (h : ∀ e ∈ endpoints, Unreturned e) :
    Says (metricsText now endpoints).toList
      (frontLines endpoints.length ++ (endpoints.flatMap upLines ++
        ((endpointRestarts endpoints).lines ++
          ((endpointUptime now endpoints).lines ++ (endpointVram endpoints).lines)))) := by
  rw [toList_metricsText]
  exact (says_front endpoints.length).append ((Says.flatMap fun e he ↦ says_upPart (h e he)).append
    ((says_countText rfl h (by decide +kernel)).append
      ((says_countText rfl h (by decide +kernel)).append
        (says_countText rfl h (by decide +kernel)))))

/-- In groups no endpoint comes: its first sample would stand behind the header of
`cameo_endpoint_ready`. -/
theorem eq_nil_of_readText {now : String → SystemTime} {endpoints : List Endpoint}
    {rest : List Char} {families : List Family}
    (h : readText ((metricsText now endpoints).toList ++ rest) =
      some (families.flatMap Family.lines)) : endpoints = [] := by
  cases endpoints with
  | nil => rfl
  | cons e endpoints =>
    have hfront := says_front (e :: endpoints).length
    have htext : ∃ tail, (metricsText now (e :: endpoints)).toList ++ rest =
        (front (e :: endpoints).length).flatMap String.toList ++
          ((sampleLine "cameo_endpoint_up" (endpointLabels e) (flag e.processRunning)).toList ++
            tail) := by
      rw [toList_metricsText, List.flatMap_cons, upPart, String.toList_append]
      simp only [List.append_assoc]
      exact ⟨_, rfl⟩
    obtain ⟨tail, htail⟩ := htext
    rw [htail] at h
    obtain ⟨before, after, hbefore, hafter, hlines⟩ := exists_of_readText_append hfront.ended h
    obtain rfl := Option.some.inj (hfront.read.symm.trans hbefore)
    obtain ⟨said, back, hsaid, -, rfl⟩ :=
      exists_of_readText_append (ended_endpointLabels _ _ e) hafter
    rw [readText_endpointLabels rfl (isWord_flag _)] at hsaid
    obtain ⟨labels, -, rfl⟩ := Option.map_eq_some_iff.mp hsaid
    have hheader (count : ℕ) : frontLines count =
        cameoUp.lines ++ (cameoEndpoints count).lines ++ (endpointUp []).lines ++
          [.help (endpointReady []).metric (endpointReady []).docs] ++
          [.type "cameo_endpoint_ready".toList "gauge".toList] := rfl
    rw [hheader, List.append_assoc, List.singleton_append, List.singleton_append] at hlines
    exact absurd (Exposes.metric_eq hlines).symm (upSample_metric_ne e)

theorem ended_upPart (e : Endpoint) : Ended (upPart e).toList := by
  rw [upPart, String.toList_append]
  exact ended_append (ended_endpointLabels _ _ e) (ended_endpointLabels _ _ e)

/-- Endpoints whose metrics can be read have no carriage returns in their labels. -/
theorem unreturned_of_readText {now : String → SystemTime} {endpoints : List Endpoint}
    {lines : List Line} (h : readText (metricsText now endpoints).toList = some lines) :
    ∀ e ∈ endpoints, Unreturned e := by
  intro e he
  rw [toList_metricsText] at h
  obtain ⟨-, after, -, hafter, -⟩ := exists_of_readText_append (says_front _).ended h
  obtain ⟨ups, -, hups, -, -⟩ :=
    exists_of_readText_append (ended_flatMap ended_upPart endpoints) hafter
  obtain ⟨said, hsaid⟩ := exists_of_readText_flatMap ended_upPart hups e he
  rw [upPart, String.toList_append] at hsaid
  obtain ⟨up, -, hup, -, -⟩ := exists_of_readText_append (ended_endpointLabels _ _ e) hsaid
  rw [readText_endpointLabels rfl (isWord_flag _)] at hup
  obtain ⟨values, hvalues, -⟩ := Option.map_eq_some_iff.mp hup
  exact unreturned_of_decodeLabels hvalues

theorem nodup_endpointFamilies (now : String → SystemTime) (endpoints : List Endpoint) :
    ((endpointFamilies now endpoints).map Family.metric).Nodup := by
  have hall : (["cameo_up", "cameo_endpoints", "cameo_endpoint_up", "cameo_endpoint_ready",
      "cameo_endpoint_restarts_total", "cameo_endpoint_uptime_seconds",
      "cameo_endpoint_vram_bytes"].map String.toList).Nodup := by
    decide
  exact hall

/-- Headers apart, the samples come metric by metric as long as there is one endpoint at most. -/
theorem metricsText_gathers_iff (now : String → SystemTime) (endpoints : List Endpoint) :
    Gathers (metricsText now endpoints).toList
        ((endpointFamilies now endpoints).flatMap Family.samples) ↔
      endpoints.length ≤ 1 ∧ ∀ e ∈ endpoints, Unreturned e := by
  constructor
  · rintro ⟨families, hnodup, hread, -⟩
    obtain ⟨lines, hlines, hsamples⟩ := Option.map_eq_some_iff.mp hread
    have hall := unreturned_of_readText hlines
    refine ⟨?_, hall⟩
    rcases endpoints with _ | ⟨e, _ | ⟨second, endpoints⟩⟩
    · exact Nat.zero_le 1
    · exact le_rfl
    · -- the samples of the second endpoint go back to `cameo_endpoint_up`
      obtain rfl := Option.some.inj ((says_metricsText now hall).read.symm.trans hlines)
      rw [sampled_append] at hsamples
      have hback : ∃ back, families.flatMap Family.samples = sampled (frontLines _) ++
          upSample e :: readySample e :: upSample second :: back := ⟨_, hsamples.symm⟩
      obtain ⟨back, hback⟩ := hback
      exact (metric_ne_of_samples hnodup hback (upSample_metric_ne e) rfl).elim
  · rintro ⟨hlength, hall⟩
    refine ⟨endpointFamilies now endpoints, nodup_endpointFamilies now endpoints, ?_, .refl _⟩
    rw [(says_metricsText now hall).read, Option.map_some]
    rcases endpoints with _ | ⟨e, _ | ⟨second, endpoints⟩⟩
    · rfl
    · rfl
    · exact absurd hlength (by simp)

end Supervisor

end Cameo
