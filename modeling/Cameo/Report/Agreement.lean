import Cameo.Library.Fallible
import Cameo.Report.Fields

/-!
# The command and the intake

Both implement `cameo-hardware-submission/v1`, but the command looks for control characters where
the intake looks for the whole category C, and the command passes 64-bit numbers on as they are.
What the command submits is accepted exactly if its texts have no other character of the category
and its numbers are ones that the intake holds exactly.
-/

namespace Cameo.Report

open Json Library

/-! ## What is submitted -/

structure Submitted (args : Args) (env : Environment) (submission : Submission) where
  note : Option String
  errorExcerpt : Option String
  generatedAtUnix : ℕ
  random : RandomBytes
  clock_eq : env.clock = some generatedAtUnix
  note_eq : cleanUserText args.note maxNoteChars "note" = .ok note
  errorExcerpt_eq : cleanUserText args.errorExcerpt maxErrorChars "error excerpt" =
    .ok errorExcerpt
  displayName_eq : cleanUserText args.creditName 80 "credit name" = .ok submission.displayName
  credit : validateCredit args.credit submission.displayName args.creditName.isSome = .ok ()
  report_eq : submission.report = makeReport args env note errorExcerpt generatedAtUnix random
  publish_eq : submission.publish = args.credit
  permanence_eq : submission.permanenceAcknowledged = args.credit

theorem run_ok {args : Args} {env : Environment} {submission : Submission}
    (h : run args env = .ok (some submission)) : Nonempty (Submitted args env submission) := by
  unfold run at h
  rw [bind_eq_ok] at h
  obtain ⟨note, hnote, h⟩ := h
  rw [bind_eq_ok] at h
  obtain ⟨errorExcerpt, hexcerpt, h⟩ := h
  rw [bind_eq_ok] at h
  obtain ⟨name, hname, h⟩ := h
  rw [bind_eq_ok] at h
  obtain ⟨_, hcredit, h⟩ := h
  split at h
  · cases h
  · split at h
    · cases h
    · split at h
      · cases h
      · cases h
      · rename_i hclock _
        split at h
        · cases h
        · rw [bind_eq_ok] at h
          obtain ⟨_, -, h⟩ := h
          cases h
          exact ⟨⟨note, errorExcerpt, _, _, hclock, hnote, hexcerpt, hname, hcredit, rfl, rfl,
            rfl⟩⟩

/-- A text of the tester is trimmed, left out if it is empty, and bounded. -/
theorem cleanUserText_ok {value : Option String} {max : ℕ} {label : String} {kept : Option String}
    (h : cleanUserText value max label = .ok kept) :
    kept = (value.map trim).filter (fun text ↦ decide (text ≠ "")) ∧
      ∀ found ∈ kept, found ≠ "" ∧ found.length ≤ max := by
  unfold cleanUserText at h
  cases value with
  | none =>
    cases h
    exact ⟨rfl, nofun⟩
  | some value =>
    dsimp only at h
    split at h
    · rename_i hempty
      cases h
      exact ⟨by rw [Option.map_some, hempty]; rfl, nofun⟩
    · rename_i hne
      split at h
      · cases h
      · rename_i hlength
        split at h
        · cases h
        · split at h
          · cases h
          · cases h
            have hkept : ((some value).map trim).filter (fun text ↦ decide (text ≠ "")) =
                some (trim value) :=
              Option.filter_eq_some_iff.mpr ⟨rfl, decide_eq_true hne⟩
            refine ⟨hkept.symm, fun found hfound ↦ ?_⟩
            cases hfound
            exact ⟨hne, not_lt.mp hlength⟩

/-- What is asked of a text holds of what is kept if it holds of the trimmed text. -/
theorem forall_kept_iff {value kept : Option String} (good : String → Prop) (hgood : good "")
    (h : kept = (value.map trim).filter (fun text ↦ decide (text ≠ ""))) :
    (∀ found ∈ kept, good found) ↔ ∀ text ∈ value, good (trim text) := by
  subst h
  cases value with
  | none => exact iff_of_true nofun nofun
  | some text =>
    by_cases hempty : trim text = ""
    · simp [hempty, hgood]
    · simp [hempty]

/-- A wish for credit is taken if its name is clean. -/
theorem validCredit_iff (category : Category) {publish : Bool} {name : Option String}
    (hname : ∀ found ∈ name, found ≠ "" ∧ found.length ≤ 80) (hwish : publish = name.isSome) :
    validCredit category (objectOf [
      ("publish", some (.bool publish)),
      ("display_name", name.map .string),
      ("permanence_acknowledged", some (.bool publish))]) = true ↔
      ∀ found ∈ name, Clean category found := by
  subst hwish
  cases name with
  | none => exact iff_of_true rfl nofun
  | some found =>
    obtain ⟨hne, hlength⟩ := hname found rfl
    have hread : validCredit category (objectOf [
        ("publish", some (.bool true)),
        ("display_name", some (.string found)),
        ("permanence_acknowledged", some (.bool true))]) =
        boundedString category 80 anyText false (.string found) := rfl
    have htaken : boundedString category 80 anyText false (.string found) = true ↔
        Clean category found := boundedString_iff hne hlength rfl
    simpa using hread ▸ htaken

/-- The texts that the tester and the host have for a submission have no character of the category
C, but for newlines and tabs in the note and in the excerpt, and its numbers are held exactly. -/
structure Presentable (category : Category) (args : Args) (env : Environment) : Prop where
  note : ∀ text ∈ args.note, CleanLines category (trim text)
  errorExcerpt : ∀ text ∈ args.errorExcerpt, CleanLines category (trim text)
  creditName : ∀ text ∈ args.creditName, Clean category (trim text)
  platform : ∀ text ∈ (collectFacts env.host).platform.texts, Clean category text
  artifact : ∀ text ∈ (collectFacts env.host).artifact.texts, Clean category text
  hardware : PresentableHardware category (collectFacts env.host).hardware
  clock : ∀ seconds ∈ env.clock, 1 ≤ seconds ∧ seconds ≤ maxSafeInteger

/-- Credit is asked for exactly if there is a name. -/
theorem credit_eq {args : Args} {env : Environment} {submission : Submission}
    (made : Submitted args env submission) : args.credit = submission.displayName.isSome := by
  have hcredit := made.credit
  unfold validateCredit at hcredit
  cases hwish : args.credit with
  | true =>
    rw [hwish] at hcredit
    cases hname : submission.displayName with
    | some name => rfl
    | none =>
      rw [hname] at hcredit
      cases hcredit
  | false =>
    rw [hwish] at hcredit
    cases hname : args.creditName with
    | some name =>
      rw [hname] at hcredit
      cases hcredit
    | none =>
      rw [(cleanUserText_ok made.displayName_eq).1, hname]
      rfl

/-- The intake takes the report of a submission if what was made of it is presentable. -/
theorem validReport_iff {category : Category} {args : Args} {env : Environment}
    {submission : Submission} (made : Submitted args env submission) (nowSeconds : ℕ) :
    validReport category nowSeconds submission.report.json = true ↔
      (made.generatedAtUnix ≤ maxSafeInteger ∧ 1 ≤ made.generatedAtUnix ∧
        made.generatedAtUnix ≤ nowSeconds + 86400) ∧
      (∀ text ∈ (collectFacts env.host).artifact.texts, Clean category text) ∧
      (∀ text ∈ (collectFacts env.host).platform.texts, Clean category text) ∧
      PresentableHardware category (collectFacts env.host).hardware ∧
      (∀ text ∈ made.note, CleanLines category text) ∧
      ∀ text ∈ made.errorExcerpt, CleanLines category text := by
  have hnote : ∀ found ∈ made.note, found ≠ "" ∧ found.length ≤ 1000 :=
    (cleanUserText_ok made.note_eq).2
  have hexcerpt : ∀ found ∈ made.errorExcerpt, found ≠ "" ∧ found.length ≤ 2000 :=
    (cleanUserText_ok made.errorExcerpt_eq).2
  have hversion : isOneOf ["cameo-hardware-report/v1"] (.string "cameo-hardware-report/v1") =
      true := by
    decide
  rw [made.report_eq]
  unfold validReport HardwareReport.json
  rw [validObject_objectOf rfl (by simp)]
  simp only [List.zip_cons_cons, List.zip_nil_right, List.forall_mem_cons, accepts_some, hversion,
    validOutcomes_report, validPrivacy_json, List.not_mem_nil, IsEmpty.forall_iff,
    implies_true, and_true, true_and]
  simp only [makeReport, boundedString_reportId, safeInteger_nat, validArtifact_iff,
    validPlatform_iff, validHardware_iff, accepts_lines_iff hnote, accepts_lines_iff hexcerpt,
    true_and]

/-- A submission is accepted exactly if it is made of presentable texts and numbers. -/
theorem validateSubmission_iff {category : Category} {args : Args} {env : Environment}
    {submission : Submission} {nowSeconds : ℕ} (h : run args env = .ok (some submission))
    (hclock : ∀ seconds ∈ env.clock, seconds ≤ nowSeconds + 86400) :
    validateSubmission category nowSeconds submission.json = true ↔
      Presentable category args env := by
  obtain ⟨made⟩ := run_ok h
  have hversion : isOneOf ["cameo-hardware-submission/v1"]
      (.string "cameo-hardware-submission/v1") = true := by
    decide
  have hname : ∀ found ∈ submission.displayName, found ≠ "" ∧ found.length ≤ 80 :=
    (cleanUserText_ok made.displayName_eq).2
  have hwish : args.credit = submission.displayName.isSome := credit_eq made
  have hcredit := validCredit_iff category hname hwish
  unfold validateSubmission Submission.json
  rw [made.publish_eq, made.permanence_eq, validObject_objectOf rfl (by simp)]
  simp only [List.zip_cons_cons, List.zip_nil_right, List.forall_mem_cons, accepts_some, hversion,
    hcredit, validReport_iff made, List.not_mem_nil, IsEmpty.forall_iff, implies_true, and_true,
    true_and]
  have hnote := forall_kept_iff (CleanLines category) nofun (cleanUserText_ok made.note_eq).1
  have hexcerpt := forall_kept_iff (CleanLines category) nofun
    (cleanUserText_ok made.errorExcerpt_eq).1
  have hdisplay := forall_kept_iff (Clean category) nofun
    (cleanUserText_ok made.displayName_eq).1
  rw [hnote, hexcerpt, hdisplay]
  constructor
  · rintro ⟨⟨⟨hsafe, hpositive, -⟩, hartifact, hplatform, hhardware, hnote, hexcerpt⟩, hcredit⟩
    refine ⟨hnote, hexcerpt, hcredit, hplatform, hartifact, hhardware, fun seconds hseconds ↦ ?_⟩
    rw [made.clock_eq] at hseconds
    cases hseconds
    exact ⟨hpositive, hsafe⟩
  · intro hgood
    obtain ⟨hpositive, hsafe⟩ := hgood.clock _ made.clock_eq
    exact ⟨⟨⟨hsafe, hpositive, hclock _ made.clock_eq⟩, hgood.artifact, hgood.platform,
      hgood.hardware, hgood.note, hgood.errorExcerpt⟩, hgood.creditName⟩

/-! ## A note with an emoji -/

/-- The ranges of the format characters and of the private-use characters. -/
def formatRanges : List (ℕ × ℕ) := [
  (0xad, 0xad), (0x600, 0x605), (0x61c, 0x61c), (0x6dd, 0x6dd), (0x70f, 0x70f), (0x890, 0x891),
  (0x8e2, 0x8e2), (0x180e, 0x180e), (0x200b, 0x200f), (0x202a, 0x202e), (0x2060, 0x2064),
  (0x2066, 0x206f), (0xe000, 0xf8ff), (0xfeff, 0xfeff), (0xfff9, 0xfffb), (0x110bd, 0x110bd),
  (0x110cd, 0x110cd), (0x13430, 0x1343f), (0x1bca0, 0x1bca3), (0x1d173, 0x1d17a),
  (0xe0001, 0xe0001), (0xe0020, 0xe007f), (0xf0000, 0xffffd), (0x100000, 0x10fffd)]

/-- The control, format and private-use characters.  The unassigned ones are left out. -/
def formatCategory : Category where
  isOther c := isControl c || formatRanges.any fun range ↦ range.1 ≤ c.toNat ∧ c.toNat ≤ range.2
  control c hc := by rw [hc]; rfl
  printable c hlow hhigh := by
    rw [Bool.or_eq_false_iff]
    constructor
    · simp [isControl]
      omega
    · rw [List.any_eq_false]
      intro range hrange
      have hstart : ∀ range ∈ formatRanges, 0x7e < range.1 := by decide
      have habove := hstart range hrange
      simp
      omega

def sampleHost : Host where
  os := ⟨"linux", by decide, by decide, by decide⟩
  architecture := ⟨"x86_64", by decide, by decide, by decide⟩
  osrelease := some "6.12.1-arch1-1\n"
  cpuinfo := some "processor\t: 0\nmodel name\t: AMD Ryzen 7 7700X 8-Core Processor\n"
  installed := none
  detected := some ⟨[{
    model := "Navi 31 [Radeon RX 7900 XT]"
    vendor := .amd
    pciId := ⟨"1002".toList, "744c".toList, by decide, by decide⟩
    gfxArch := some "gfx1100"
    vramMb := some 20464
    memory := .dedicated
    driverVersion := none
    tier := .tier1 }], some ⟨33554432000, 16777216000⟩⟩

def sampleEnvironment : Environment where
  dryRun := false
  smokePassed := false
  host := sampleHost
  clock := some 1790000000
  random := some ⟨[1, 2, 3, 4, 5, 6, 7, 8, 9, 10, 171, 205], rfl⟩

/-- `cameo report --submit` with a note. -/
def noteArgs (note : String) : Args where
  submit := true
  endpoint := "https://cameo.example/api/hardware-reports"
  boot := none
  inference := .passed
  smoke := false
  note := some note
  errorExcerpt := none
  credit := false
  creditName := none

def noteSubmission (note : String) : Submission :=
  ⟨makeReport (noteArgs note) sampleEnvironment (some note) none 1790000000
    ⟨[1, 2, 3, 4, 5, 6, 7, 8, 9, 10, 171, 205], rfl⟩, false, none, false⟩

/-- A plain note is presentable, and its submission is accepted. -/
theorem validateSubmission_plain :
    run (noteArgs "Runs well.") sampleEnvironment = .ok (some (noteSubmission "Runs well.")) ∧
      validateSubmission formatCategory 1790000000 (noteSubmission "Runs well.").json = true ∧
      Presentable formatCategory (noteArgs "Runs well.") sampleEnvironment := by
  have hrun : run (noteArgs "Runs well.") sampleEnvironment =
      .ok (some (noteSubmission "Runs well.")) := rfl
  have haccepted : validateSubmission formatCategory 1790000000
      (noteSubmission "Runs well.").json = true := by
    decide +kernel
  have hclock : ∀ seconds ∈ sampleEnvironment.clock, seconds ≤ 1790000000 + 86400 := by
    intro seconds hseconds
    cases hseconds
    decide
  exact ⟨hrun, haccepted, (validateSubmission_iff hrun hclock).mp haccepted⟩

/-- The emoji of a note has a zero-width joiner: the command submits it, the intake refuses it. -/
theorem not_validateSubmission_joiner :
    run (noteArgs "Runs well 👩\u200d💻") sampleEnvironment =
        .ok (some (noteSubmission "Runs well 👩\u200d💻")) ∧
      sampleEnvironment.clock = some 1790000000 ∧
      validateSubmission formatCategory 1790000000 (noteSubmission "Runs well 👩\u200d💻").json =
        false :=
  ⟨rfl, rfl, by decide +kernel⟩

end Cameo.Report
