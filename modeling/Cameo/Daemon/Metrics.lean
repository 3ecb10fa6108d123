import Cameo.Report.Facts
import Cameo.Supervisor.Metrics
import Cameo.Supervisor.System

/-!
# The metrics of the node

The answer to `/metrics`: the text about the endpoints, and behind it the text about the GPUs if
they can be detected.  It is a valid exposition as long as no endpoint is tracked and no model name
of a GPU has a carriage return.
-/

namespace Cameo.Daemon

open Library.Exposition Supervisor
open Report (DetectedGpu)

/-! ## The answer -/

structure TextResponse where
  status : ℕ
  contentType : String
  body : String

/-- The GPUs of known VRAM, each with its index and its VRAM. -/
def metered (assessments : List DetectedGpu) : List (ℕ × DetectedGpu × ℕ) :=
  assessments.zipIdx.filterMap fun (a, i) ↦ a.vramMb.map fun vram ↦ (i, a, vram)

def gpuLabels (i : ℕ) (a : DetectedGpu) : String :=
  String.join ["index=\"", toString i, "\",model=\"", esc a.model, "\",tier=\"",
    toString a.tier.asNumber, "\""]

def gpuLine (gpu : ℕ × DetectedGpu × ℕ) : String :=
  sampleLine "cameo_gpu_vram_megabytes" (gpuLabels gpu.1 gpu.2.1) (toString gpu.2.2)

/-- What is written before the lines of the GPUs. -/
def gpuFront (count : ℕ) : List String := [
  "# HELP cameo_gpu_count Number of detected GPUs.\n",
  "# TYPE cameo_gpu_count gauge\ncameo_gpu_count " ++ toString count ++ "\n",
  "# HELP cameo_gpu_vram_megabytes VRAM per GPU in MiB.\n",
  "# TYPE cameo_gpu_vram_megabytes gauge\n"]

def gpuText (assessments : List DetectedGpu) : String :=
  String.join (gpuFront assessments.length ++ (metered assessments).map gpuLine)

/-- `metrics_response`; `detected` are the assessments of `detect_cached`, if it gives any. -/
def metricsResponse (io : String → RefreshIo) (now : String → SystemTime)
    (detected : Option (List DetectedGpu)) (sup : Supervisor) : Outcome TextResponse :=
  let scraped := sup.metrics io now
  let body := scraped.result ++ (detected.map gpuText).getD ""
  ⟨⟨200, "text/plain; version=0.0.4; charset=utf-8", body⟩, scraped.sup, scraped.spawns⟩

/-! ## What is to be exposed -/

/-- The labels of a GPU with the values that they stand for. -/
def gpuLabelValues (i : ℕ) (a : DetectedGpu) : List (List Char × List Char) :=
  [("index".toList, (toString i).toList), ("model".toList, a.model.toList),
    ("tier".toList, (toString a.tier.asNumber).toList)]

def gpuCount (count : ℕ) : Family :=
  ⟨"cameo_gpu_count".toList, "Number of detected GPUs.".toList, "gauge".toList,
    [([], (toString count).toList)]⟩

def gpuVram (gpus : List (ℕ × DetectedGpu × ℕ)) : Family :=
  ⟨"cameo_gpu_vram_megabytes".toList, "VRAM per GPU in MiB.".toList, "gauge".toList,
    gpus.map fun gpu ↦ (gpuLabelValues gpu.1 gpu.2.1, (toString gpu.2.2).toList)⟩

def gpuFamilies (assessments : List DetectedGpu) : List Family :=
  [gpuCount assessments.length, gpuVram (metered assessments)]

/-- The samples that a scrape is to see: of the refreshed endpoints, and of the GPUs if they are
detected. -/
def metricSamples (io : String → RefreshIo) (now : String → SystemTime)
    (detected : Option (List DetectedGpu)) (sup : Supervisor) : List Sample :=
  (endpointFamilies now (refreshAll io sup.endpoints).map.entries ++
    (detected.map gpuFamilies).getD []).flatMap Family.samples

/-! ## Reading the GPUs -/

theorem mem_metered {assessments : List DetectedGpu} {i vram : ℕ} {a : DetectedGpu}
    (h : (i, a, vram) ∈ metered assessments) : a ∈ assessments ∧ a.vramMb = some vram := by
  obtain ⟨⟨b, j⟩, hmem, hb⟩ := List.mem_filterMap.mp h
  obtain ⟨n, hvram, heq⟩ := Option.map_eq_some_iff.mp hb
  cases heq
  exact ⟨List.fst_mem_of_mem_zipIdx hmem, hvram⟩

theorem exists_mem_metered {assessments : List DetectedGpu} {a : DetectedGpu} {vram : ℕ}
    (h : a ∈ assessments) (hvram : a.vramMb = some vram) :
    ∃ i, (i, a, vram) ∈ metered assessments := by
  obtain ⟨i, hi, rfl⟩ := List.mem_iff_getElem.mp h
  refine ⟨i, List.mem_filterMap.mpr ⟨(assessments[i], i), ?_, ?_⟩⟩
  · exact List.mem_zipIdx_iff_getElem?.mpr (List.getElem?_eq_getElem hi)
  · simp [hvram]

def quotedGpuLabels (i : ℕ) (a : DetectedGpu) : List (List Char × List Char) :=
  [("index".toList, (toString i).toList), ("model".toList, (esc a.model).toList),
    ("tier".toList, (toString a.tier.asNumber).toList)]

theorem toList_gpuLabels (i : ℕ) (a : DetectedGpu) :
    (gpuLabels i a).toList = labelsText (quotedGpuLabels i a) := by
  rw [gpuLabels, String.toList_join]
  simp [quotedGpuLabels, labelsText]

theorem quoted_quotedGpuLabels (i : ℕ) (a : DetectedGpu) :
    ∀ label ∈ quotedGpuLabels i a, Quoted label := by
  unfold quotedGpuLabels
  simp only [List.forall_mem_cons]
  exact ⟨quoted_decimal rfl i, quoted_esc rfl a.model, quoted_decimal rfl a.tier.asNumber,
    List.forall_mem_nil _⟩

theorem decodeLabels_quotedGpuLabels (i : ℕ) (a : DetectedGpu) :
    decodeLabels (quotedGpuLabels i a) =
      if '\r' ∈ a.model.toList then none else some (gpuLabelValues i a) := by
  unfold quotedGpuLabels
  simp only [decodeLabels, decode_esc, decode_of_all_isPlain (isPlain_decimal _)]
  split <;> rfl

theorem ended_gpuLine (gpu : ℕ × DetectedGpu × ℕ) : Ended (gpuLine gpu).toList := by
  rw [gpuLine, toList_sampleLine (toList_gpuLabels gpu.1 gpu.2.1)]
  exact ended_terminate _

def gpuSample (gpu : ℕ × DetectedGpu × ℕ) : Sample :=
  ⟨"cameo_gpu_vram_megabytes".toList, gpuLabelValues gpu.1 gpu.2.1, (toString gpu.2.2).toList⟩

theorem readText_gpuLine (gpu : ℕ × DetectedGpu × ℕ) :
    readText (gpuLine gpu).toList =
      if '\r' ∈ gpu.2.1.model.toList then none else some [.sample (gpuSample gpu)] := by
  have hne : quotedGpuLabels gpu.1 gpu.2.1 ≠ [] := List.cons_ne_nil _ _
  rw [gpuLine, toList_sampleLine (toList_gpuLabels gpu.1 gpu.2.1),
    readText_sample rfl hne (quoted_quotedGpuLabels _ _) (isWord_decimal _),
    decodeLabels_quotedGpuLabels]
  split <;> rfl

theorem says_gpuFront (count : ℕ) :
    Says ((gpuFront count).flatMap String.toList)
      ((gpuCount count).lines ++ (gpuVram []).lines) := by
  have hhelp : Says "# HELP cameo_gpu_count Number of detected GPUs.\n".toList
      [.help "cameo_gpu_count".toList "Number of detected GPUs.".toList] :=
    .of_read (by decide +kernel)
  have htype : Says "# TYPE cameo_gpu_count gauge\n".toList
      [.type "cameo_gpu_count".toList "gauge".toList] := .of_read (by decide +kernel)
  have hsplit : "# TYPE cameo_gpu_count gauge\ncameo_gpu_count " =
      "# TYPE cameo_gpu_count gauge\n" ++ ("cameo_gpu_count" ++ " ") := by decide +kernel
  have hcount := says_typed_count hsplit htype rfl count
  have hvram : Says (["# HELP cameo_gpu_vram_megabytes VRAM per GPU in MiB.\n",
      "# TYPE cameo_gpu_vram_megabytes gauge\n"].flatMap String.toList) (gpuVram []).lines :=
    .of_read (by decide +kernel)
  exact hhelp.append (hcount.append hvram)

theorem toList_gpuText (assessments : List DetectedGpu) :
    (gpuText assessments).toList = (gpuFront assessments.length).flatMap String.toList ++
      (metered assessments).flatMap fun gpu ↦ (gpuLine gpu).toList := by
  rw [gpuText, String.toList_join, List.flatMap_append, List.flatMap_map]

theorem lines_gpuVram (gpus : List (ℕ × DetectedGpu × ℕ)) :
    (gpuVram gpus).lines = (gpuVram []).lines ++ gpus.flatMap fun gpu ↦ [.sample (gpuSample gpu)] :=
  lines_map _ _ _ _ gpus

/-- What the GPU half says if no model name has a carriage return. -/
theorem says_gpuText {assessments : List DetectedGpu}
    (h : ∀ a ∈ assessments, a.vramMb ≠ none → '\r' ∉ a.model.toList) :
    Says (gpuText assessments).toList ((gpuFamilies assessments).flatMap Family.lines) := by
  have hline : ∀ gpu ∈ metered assessments,
      Says (gpuLine gpu).toList [.sample (gpuSample gpu)] := by
    rintro ⟨i, a, vram⟩ hgpu
    obtain ⟨hmem, hvram⟩ := mem_metered hgpu
    have hmodel : '\r' ∉ a.model.toList :=
      h a hmem (by rw [hvram]; exact Option.some_ne_none vram)
    exact ⟨ended_gpuLine _, by rw [readText_gpuLine, if_neg hmodel]⟩
  have hfamilies : (gpuFamilies assessments).flatMap Family.lines =
      (gpuCount assessments.length).lines ++ (gpuVram (metered assessments)).lines := by
    rw [gpuFamilies, List.flatMap_cons, List.flatMap_singleton]
  rw [toList_gpuText, hfamilies, lines_gpuVram, ← List.append_assoc]
  exact (says_gpuFront assessments.length).append (.flatMap hline)

/-- A GPU half that can be read has no carriage return in a model name. -/
theorem return_not_mem_of_readText {assessments : List DetectedGpu} {lines : List Line}
    (h : readText (gpuText assessments).toList = some lines) :
    ∀ a ∈ assessments, a.vramMb ≠ none → '\r' ∉ a.model.toList := by
  intro a hmem hvram hreturn
  rw [toList_gpuText] at h
  obtain ⟨-, later, -, hlater, -⟩ := exists_of_readText_append (says_gpuFront _).ended h
  obtain ⟨vram, hvram⟩ := Option.ne_none_iff_exists'.mp hvram
  obtain ⟨i, hgpu⟩ := exists_mem_metered hmem hvram
  obtain ⟨said, hsaid⟩ := exists_of_readText_flatMap ended_gpuLine hlater _ hgpu
  rw [readText_gpuLine, if_pos hreturn] at hsaid
  cases hsaid

/-! ## The exposition -/

theorem refreshAll_eq_nil_iff (io : String → RefreshIo) (map : EndpointMap) :
    (refreshAll io map).map.entries = [] ↔ map.entries = [] := by
  have hkeys : (refreshAll io map).map.entries.map Endpoint.id = map.entries.map Endpoint.id :=
    Library.Keyed.map_key_walk _ _ _ (fun endpoint ↦ Endpoint.id_refresh _ endpoint) _
  have hlength := congrArg List.length hkeys
  rw [List.length_map, List.length_map] at hlength
  rw [← List.length_eq_zero_iff, hlength, List.length_eq_zero_iff]

theorem says_detected {detected : Option (List DetectedGpu)}
    (h : ∀ a ∈ detected.getD [], a.vramMb ≠ none → '\r' ∉ a.model.toList) :
    Says ((detected.map gpuText).getD "").toList
      (((detected.map gpuFamilies).getD []).flatMap Family.lines) := by
  cases detected with
  | none => exact .nil
  | some assessments => exact says_gpuText h

/-- The metrics about endpoints and GPUs are different ones. -/
theorem nodup_metrics (now : String → SystemTime) (endpoints : List Endpoint)
    (detected : Option (List DetectedGpu)) :
    ((endpointFamilies now endpoints ++ (detected.map gpuFamilies).getD []).map
      Family.metric).Nodup := by
  have hall : ((["cameo_up", "cameo_endpoints", "cameo_endpoint_up", "cameo_endpoint_ready",
      "cameo_endpoint_restarts_total", "cameo_endpoint_uptime_seconds",
      "cameo_endpoint_vram_bytes"] ++ ["cameo_gpu_count", "cameo_gpu_vram_megabytes"]).map
      String.toList).Nodup := by
    decide
  cases detected with
  | none =>
    rw [Option.map_none, Option.getD_none, List.append_nil]
    exact nodup_endpointFamilies now endpoints
  | some assessments => exact hall

theorem toList_body (io : String → RefreshIo) (now : String → SystemTime)
    (detected : Option (List DetectedGpu)) (sup : Supervisor) :
    (metricsResponse io now detected sup).result.body.toList =
      (metricsText now (refreshAll io sup.endpoints).map.entries).toList ++
        ((detected.map gpuText).getD "").toList := String.toList_append

theorem entries_eq_nil_of_exposes {io : String → RefreshIo} {now : String → SystemTime}
    {detected : Option (List DetectedGpu)} {sup : Supervisor} {samples : List Sample}
    (h : Exposes (metricsResponse io now detected sup).result.body.toList samples) :
    (refreshAll io sup.endpoints).map.entries = [] := by
  obtain ⟨families, -, hread, -⟩ := h
  rw [toList_body] at hread
  exact eq_nil_of_readText hread

/-- The answer to `/metrics` is a valid exposition of what the node has exactly when no endpoint is
tracked and no GPU of known VRAM has a carriage return in its model name. -/
theorem metricsResponse_exposes_iff (io : String → RefreshIo) (now : String → SystemTime)
    (detected : Option (List DetectedGpu)) (sup : Supervisor) :
    Exposes (metricsResponse io now detected sup).result.body.toList
        (metricSamples io now detected sup) ↔
      sup.endpoints.entries = [] ∧
        ∀ a ∈ detected.getD [], a.vramMb ≠ none → '\r' ∉ a.model.toList := by
  have hnone := says_metricsText now (List.forall_mem_nil Unreturned)
  constructor
  · intro hexposes
    have hnil := entries_eq_nil_of_exposes hexposes
    refine ⟨(refreshAll_eq_nil_iff io sup.endpoints).mp hnil, ?_⟩
    obtain ⟨families, -, hread, -⟩ := hexposes
    rw [toList_body, hnil] at hread
    obtain ⟨-, gpuLines, -, hgpus, -⟩ := exists_of_readText_append hnone.ended hread
    cases detected with
    | none => exact List.forall_mem_nil _
    | some assessments => exact return_not_mem_of_readText hgpus
  · rintro ⟨hnil, hgpus⟩
    rw [toList_body, metricSamples, (refreshAll_eq_nil_iff io sup.endpoints).mpr hnil]
    refine ⟨endpointFamilies now [] ++ (detected.map gpuFamilies).getD [],
      nodup_metrics now [] detected, ?_, .refl _⟩
    rw [(hnone.append (says_detected hgpus)).read, List.flatMap_append]
    rfl

/-- Two models make `/metrics` invalid: neither are the lines of a metric together, nor its
samples. -/
theorem not_exposes_two_models :
    let sup := ((Sys.fresh .default).run .constant
      [.start (.simple "alpha" 8080 4 16 false) (.plain 0 ⟨100, 0⟩),
        .start (.simple "beta" 8081 4 16 false) (.plain 0 ⟨101, 1⟩)]).sup
    let io := fun _ ↦ RefreshIo.alive 0
    let now := fun _ ↦ 0
    sup.endpoints.entries.map Endpoint.id = ["alpha-8080", "beta-8081"] ∧
      ¬ Exposes (metricsResponse io now none sup).result.body.toList
        (metricSamples io now none sup) ∧
      ¬ Gathers (metricsResponse io now none sup).result.body.toList
        (metricSamples io now none sup) := by
  refine ⟨rfl, fun h ↦ ?_, fun h ↦ ?_⟩
  · exact absurd (entries_eq_nil_of_exposes h) (by decide)
  · have hempty : "".toList = [] := rfl
    rw [toList_body, metricSamples, Option.map_none, Option.getD_none, hempty, Option.map_none,
      Option.getD_none, List.append_nil, List.append_nil] at h
    exact absurd ((metricsText_gathers_iff _ _).mp h).1 (by decide)

end Cameo.Daemon
