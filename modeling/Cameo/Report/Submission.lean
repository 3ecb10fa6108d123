import Cameo.Json
import Cameo.Report.Facts

/-!
# Hardware reports

`cameo report` checks what a tester writes, gathers the facts of the host and makes a report of
them; with `--submit` it wraps the report into a submission with the tester's wish for credit.
-/

namespace Cameo.Report

open Json

/-! ## What the tester writes -/

/-- `Outcome`. -/
inductive Outcome where
  | passed
  | failed
  | degraded
  | notTested
deriving DecidableEq

def Outcome.label : Outcome → String
  | passed => "passed"
  | failed => "failed"
  | degraded => "degraded"
  | notTested => "not_tested"

/-- `Args`, less the path of the report file. -/
structure Args where
  submit : Bool
  endpoint : String
  boot : Option Outcome
  inference : Outcome
  smoke : Bool
  note : Option String
  errorExcerpt : Option String
  credit : Bool
  creditName : Option String

/-- `MAX_NOTE_CHARS`. -/
def maxNoteChars : ℕ := 1000

/-- `MAX_ERROR_CHARS`. -/
def maxErrorChars : ℕ := 2000

/-- `clean_user_text`. -/
def cleanUserText (value : Option String) (max : ℕ) (label : String) :
    Except String (Option String) :=
  match value with
  | none => .ok none
  | some value =>
    let value := trim value
    if value = "" then .ok none
    else if max < value.length then
      .error (label ++ " exceeds " ++ toString max ++ " characters")
    else if value.toList.any fun c ↦ isControl c && !decide (c = '\n' ∨ c = '\t') then
      .error (label ++ " contains unsupported control characters")
    else if Char.ofNat 0x1b ∈ value.toList then
      .error (label ++ " contains a terminal escape sequence")
    else .ok (some value)

/-- `validate_credit`. -/
def validateCredit (credit : Bool) (cleanName : Option String) (nameWasSupplied : Bool) :
    Except String Unit :=
  if credit && cleanName.isNone then
    .error "--credit requires --credit-name; omit both to submit anonymously"
  else if !credit && nameWasSupplied then
    .error "--credit-name requires the separate --credit consent flag"
  else .ok ()

/-- `validate_endpoint`. -/
def validateEndpoint (endpoint : String) : Except String Unit :=
  match stripPrefix "https://" endpoint with
  | none => .error "report submission endpoint must use https://"
  | some rest =>
    let authority := rest.toList.takeWhile (· ≠ '/')
    if authority = [] || '@' ∈ authority || '\\' ∈ endpoint.toList || '#' ∈ endpoint.toList ||
        endpoint.toList.any isWhitespace then
      .error "report submission endpoint is malformed"
    else .ok ()

/-! ## The report -/

/-- `OutcomeFact`. -/
structure OutcomeFact where
  result : Outcome
  evidenceSource : String

/-- `HardwareReport`, less its constant fields. -/
structure HardwareReport where
  reportId : String
  generatedAtUnix : ℕ
  artifact : ArtifactFacts
  platform : PlatformFacts
  hardware : HardwareFacts
  boot : OutcomeFact
  gpuDetection : OutcomeFact
  inference : OutcomeFact
  note : Option String
  errorExcerpt : Option String

/-- `Submission`, with its `CreditRequest`. -/
structure Submission where
  report : HardwareReport
  publish : Bool
  displayName : Option String
  permanenceAcknowledged : Bool

structure RandomBytes where
  bytes : List UInt8
  length_eq : bytes.length = 12

/-- Where the command runs: `--dry-run`, the result of the smoke run, the host, the seconds since
the Unix epoch if the clock is not before it, and the random bytes if there are any. -/
structure Environment where
  dryRun : Bool
  smokePassed : Bool
  host : Host
  clock : Option ℕ
  random : Option RandomBytes

def hexByte (byte : UInt8) : List Char :=
  [Nat.digitChar (byte.toNat / 16), Nat.digitChar (byte.toNat % 16)]

/-- `hex`. -/
def hex (bytes : List UInt8) : String := String.ofList (bytes.flatMap hexByte)

/-- `report_id`. -/
def reportId (random : RandomBytes) : String := "chr_" ++ hex random.bytes

def inferenceFact (args : Args) (env : Environment) : OutcomeFact :=
  if args.smoke then ⟨if env.smokePassed then .passed else .failed, "observed"⟩
  else ⟨args.inference, if args.inference = .notTested then "unavailable" else "tester_asserted"⟩

def bootFact (args : Args) (onCameoImage : Bool) : OutcomeFact :=
  match args.boot with
  | some outcome => ⟨outcome, "tester_asserted"⟩
  | none => if onCameoImage then ⟨.passed, "observed"⟩ else ⟨.notTested, "unavailable"⟩

def detectionFact (hardware : HardwareFacts) : OutcomeFact :=
  if hardware.status = "observed" then
    ⟨if hardware.gpus.any fun gpu ↦ gpu.vendor = "AMD" then .passed else .failed, "observed"⟩
  else ⟨.failed, "unavailable"⟩

def makeReport (args : Args) (env : Environment) (note errorExcerpt : Option String)
    (generatedAtUnix : ℕ) (random : RandomBytes) : HardwareReport :=
  let facts := collectFacts env.host
  { reportId := reportId random
    generatedAtUnix := generatedAtUnix
    artifact := facts.artifact
    platform := facts.platform
    hardware := facts.hardware
    boot := bootFact args facts.artifact.isoBuildId.isSome
    gpuDetection := detectionFact facts.hardware
    inference := inferenceFact args env
    note := note
    errorExcerpt := errorExcerpt }

/-- `run`, up to the submission that it shows to the tester; where the report file is written. -/
def run (args : Args) (env : Environment) : Except String (Option Submission) := do
  let note ← cleanUserText args.note maxNoteChars "note"
  let errorExcerpt ← cleanUserText args.errorExcerpt maxErrorChars "error excerpt"
  let creditName ← cleanUserText args.creditName 80 "credit name"
  validateCredit args.credit creditName args.creditName.isSome
  if args.smoke && args.inference ≠ .notTested then
    .error "--smoke records observed inference; do not combine it with --inference"
  else if args.smoke && env.dryRun then
    .error "--smoke cannot be combined with --dry-run because it must execute the model"
  else
    match env.clock, env.random with
    | none, _ => .error "system clock is before the Unix epoch"
    | some _, none => .error "generating report ID"
    | some generatedAtUnix, some random =>
      if !args.submit then .ok none
      else do
        validateEndpoint args.endpoint
        .ok (some ⟨makeReport args env note errorExcerpt generatedAtUnix random, args.credit,
          creditName, args.credit⟩)

/-! ## The payload -/

/-- What serde writes for a struct: its fields in their order, less the absent ones that are
skipped. -/
def objectOf (fields : List (String × Option Value)) : Value :=
  .object (fields.filterMap fun field ↦ field.2.map fun value ↦ (field.1, value))

def PlatformFacts.json (platform : PlatformFacts) : Value :=
  objectOf [
    ("os", some (.string platform.os)),
    ("architecture", some (.string platform.architecture)),
    ("kernel_version", platform.kernelVersion.map .string),
    ("cpu_model", platform.cpuModel.map .string)]

def ArtifactFacts.json (artifact : ArtifactFacts) : Value :=
  objectOf [
    ("cameo_version", some (.string artifact.cameoVersion)),
    ("iso_build_id", artifact.isoBuildId.map .string),
    ("edition", artifact.edition.map .string),
    ("source_revision", artifact.sourceRevision.map .string),
    ("source_dirty", artifact.sourceDirty.map .bool),
    ("knossos_revision", artifact.knossosRevision.map .string),
    ("arch_snapshot", artifact.archSnapshot.map .string),
    ("rocm_cli_version", artifact.rocmCliVersion.map .string)]

def GpuFacts.json (gpu : GpuFacts) : Value :=
  objectOf [
    ("model", some (.string gpu.model)),
    ("vendor", some (.string gpu.vendor)),
    ("pci_id", some (.string gpu.pciId)),
    ("gfx_target", gpu.gfxTarget.map .string),
    ("vram_total_bytes", gpu.vramTotalBytes.map .nat),
    ("is_apu", some (.bool gpu.isApu)),
    ("driver_version", gpu.driverVersion.map .string),
    ("cameo_tier", some (.nat gpu.cameoTier))]

def HardwareFacts.json (hardware : HardwareFacts) : Value :=
  objectOf [
    ("status", some (.string hardware.status)),
    ("gpus", some (.array (hardware.gpus.map GpuFacts.json))),
    ("system_ram_total_bytes", hardware.systemRamTotalBytes.map .nat),
    ("system_ram_available_bytes", hardware.systemRamAvailableBytes.map .nat)]

def OutcomeFact.json (outcome : OutcomeFact) : Value :=
  objectOf [
    ("result", some (.string outcome.result.label)),
    ("evidence_source", some (.string outcome.evidenceSource))]

def privacyJson : Value :=
  objectOf [
    ("allowlisted_fields_only", some (.bool true)),
    ("hostname", some (.bool false)),
    ("username", some (.bool false)),
    ("ip_or_mac", some (.bool false)),
    ("serial_numbers", some (.bool false)),
    ("credentials", some (.bool false)),
    ("raw_logs", some (.bool false)),
    ("prompts_or_model_output", some (.bool false))]

def HardwareReport.json (report : HardwareReport) : Value :=
  objectOf [
    ("schema_version", some (.string "cameo-hardware-report/v1")),
    ("report_id", some (.string report.reportId)),
    ("generated_at_unix", some (.nat report.generatedAtUnix)),
    ("artifact", some report.artifact.json),
    ("platform", some report.platform.json),
    ("hardware", some report.hardware.json),
    ("outcomes", some (objectOf [
      ("boot", some report.boot.json),
      ("gpu_detection", some report.gpuDetection.json),
      ("inference", some report.inference.json)])),
    ("note", report.note.map .string),
    ("error_excerpt", report.errorExcerpt.map .string),
    ("privacy", some privacyJson)]

def Submission.json (submission : Submission) : Value :=
  objectOf [
    ("schema_version", some (.string "cameo-hardware-submission/v1")),
    ("report", some submission.report.json),
    ("credit_request", some (objectOf [
      ("publish", some (.bool submission.publish)),
      ("display_name", submission.displayName.map .string),
      ("permanence_acknowledged", some (.bool submission.permanenceAcknowledged))]))]

end Cameo.Report
