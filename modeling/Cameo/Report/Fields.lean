import Cameo.Report.Intake
import Cameo.Report.Submission
import Mathlib.Data.Bool.AllAny

/-!
# The fields of a payload

What the intake finds in the fields that the command writes.  The command has bounded each text, so
the intake takes it if it has no character of the category C; the identifiers and the names that the
command makes itself are taken as they are, and a number if it can be held exactly.
-/

namespace Cameo.Report

open Json Placement

/-! ## Objects -/

theorem get?_objectOf {fields : List (String × Option Value)}
    (hnodup : (fields.map Prod.fst).Nodup) {field : String × Option Value} (h : field ∈ fields) :
    (objectOf fields).get? field.1 = field.2 := by
  induction fields with
  | nil => cases h
  | cons first rest ih =>
    obtain ⟨hnot, hrest⟩ := List.nodup_cons.mp hnodup
    unfold objectOf Value.get? at ih ⊢
    dsimp only at ih ⊢
    rcases List.mem_cons.mp h with rfl | hmem
    · cases hvalue : field.2 with
      | some value => simp [hvalue]
      | none =>
        rw [List.filterMap_cons_none (by rw [hvalue]; rfl), Option.map_eq_none_iff,
          List.find?_eq_none]
        intro pair hpair heq
        obtain ⟨other, hother, hsome⟩ := List.mem_filterMap.mp hpair
        obtain ⟨value, -, rfl⟩ := Option.map_eq_some_iff.mp hsome
        exact hnot (List.mem_map.mpr ⟨other, hother, of_decide_eq_true heq⟩)
    · have hne : first.1 ≠ field.1 := fun heq ↦
        hnot (heq ▸ List.mem_map.mpr ⟨field, hmem, rfl⟩)
      cases hvalue : first.2 with
      | some value =>
        rw [List.filterMap_cons_some (by rw [hvalue]; rfl), List.find?_cons_of_neg (by simpa)]
        exact ih hrest hmem
      | none =>
        rw [List.filterMap_cons_none (by rw [hvalue]; rfl)]
        exact ih hrest hmem

theorem mem_keys {fields : List (String × Option Value)} {key : String}
    (h : key ∈ (objectOf fields).keys) : key ∈ fields.map Prod.fst := by
  obtain ⟨pair, hpair, rfl⟩ := List.mem_map.mp h
  obtain ⟨field, hfield, hsome⟩ := List.mem_filterMap.mp hpair
  obtain ⟨value, -, rfl⟩ := Option.map_eq_some_iff.mp hsome
  exact List.mem_map.mpr ⟨field, hfield, rfl⟩

section Objects

variable {checks : List FieldCheck} {fields : List (String × Option Value)}

theorem name_eq_of_mem_zip (hnames : checks.map FieldCheck.name = fields.map Prod.fst)
    {pair : FieldCheck × String × Option Value} (h : pair ∈ checks.zip fields) :
    pair.1.name = pair.2.1 := by
  obtain ⟨n, hn, rfl⟩ := List.mem_iff_getElem.mp h
  have hat := congrArg (fun names ↦ names[n]?) hnames
  rw [List.length_zip, lt_min_iff] at hn
  simpa [List.getElem?_eq_getElem hn.1, List.getElem?_eq_getElem hn.2] using hat

theorem exists_mem_zip (hnames : checks.map FieldCheck.name = fields.map Prod.fst)
    {check : FieldCheck} (h : check ∈ checks) : ∃ field, (check, field) ∈ checks.zip fields := by
  have hlength : checks.length ≤ fields.length := by
    have hcount := congrArg List.length hnames
    rw [List.length_map, List.length_map] at hcount
    exact hcount.le
  rw [← List.map_fst_zip hlength] at h
  obtain ⟨⟨_, field⟩, hpair, rfl⟩ := List.mem_map.mp h
  exact ⟨field, hpair⟩

/-- The value of a key in an object is the one it was written with. -/
theorem get?_of_mem_zip (hnames : checks.map FieldCheck.name = fields.map Prod.fst)
    (hnodup : (fields.map Prod.fst).Nodup) {pair : FieldCheck × String × Option Value}
    (h : pair ∈ checks.zip fields) : (objectOf fields).get? pair.1.name = pair.2.2 := by
  rw [name_eq_of_mem_zip hnames h]
  exact get?_objectOf hnodup (List.of_mem_zip h).2

/-- An object that was written with the keys of the checks has exactly these if each required one
has a value. -/
theorem exactKeys_objectOf (hnames : checks.map FieldCheck.name = fields.map Prod.fst)
    (hnodup : (fields.map Prod.fst).Nodup)
    (haccepts : ∀ pair ∈ checks.zip fields, pair.1.accepts pair.2.2 = true) :
    exactKeys (objectOf fields) ((checks.filter FieldCheck.required).map FieldCheck.name)
      ((checks.filter fun check ↦ !check.required).map FieldCheck.name) = true := by
  unfold exactKeys
  simp only [Bool.and_eq_true, List.all_eq_true]
  refine ⟨⟨rfl, ?_⟩, ?_⟩
  · intro key hkey
    obtain ⟨check, hcheck, rfl⟩ := List.mem_map.mp hkey
    obtain ⟨hmem, hrequired⟩ := List.mem_filter.mp hcheck
    obtain ⟨field, hpair⟩ := exists_mem_zip hnames hmem
    have htaken := haccepts _ hpair
    rw [get?_of_mem_zip hnames hnodup hpair]
    cases hvalue : field.2 with
    | some value => rfl
    | none =>
      dsimp only at htaken
      rw [hvalue, FieldCheck.accepts, hrequired] at htaken
      cases htaken
  · intro key hkey
    have hname := mem_keys hkey
    rw [← hnames] at hname
    obtain ⟨check, hcheck, rfl⟩ := List.mem_map.mp hname
    apply decide_eq_true
    rw [List.mem_append]
    cases hrequired : check.required with
    | true =>
      exact .inl (List.mem_map.mpr ⟨check, List.mem_filter.mpr ⟨hcheck, hrequired⟩, rfl⟩)
    | false =>
      exact .inr (List.mem_map.mpr
        ⟨check, List.mem_filter.mpr ⟨hcheck, by rw [hrequired]; rfl⟩, rfl⟩)

/-- An object that was written with the keys of the checks is valid if each check takes its
value. -/
theorem validObject_objectOf (hnames : checks.map FieldCheck.name = fields.map Prod.fst)
    (hnodup : (fields.map Prod.fst).Nodup) :
    validObject checks (objectOf fields) = true ↔
      ∀ pair ∈ checks.zip fields, pair.1.accepts pair.2.2 = true := by
  unfold validObject
  rw [Bool.and_eq_true, List.all_eq_true]
  constructor
  · rintro ⟨-, haccepts⟩ pair hpair
    have htaken := haccepts pair.1 (List.of_mem_zip hpair).1
    rwa [get?_of_mem_zip hnames hnodup hpair] at htaken
  · intro haccepts
    refine ⟨exactKeys_objectOf hnames hnodup haccepts, fun check hcheck ↦ ?_⟩
    obtain ⟨field, hpair⟩ := exists_mem_zip hnames hcheck
    rw [get?_of_mem_zip hnames hnodup hpair]
    exact haccepts _ hpair

end Objects

/-! ## Texts -/

/-- A text without a character of the category C. -/
def Clean (category : Category) (text : String) : Prop :=
  ∀ c ∈ text.toList, category.isOther c = false

/-- A text whose only characters of the category C are newlines and tabs. -/
def CleanLines (category : Category) (text : String) : Prop :=
  ∀ c ∈ text.toList, category.isOther c = true → c = '\n' ∨ c = '\t'

theorem boundedString_iff {category : Category} {max : ℕ} {pattern : String → Bool}
    {text : String} (hne : text ≠ "") (hlength : text.length ≤ max)
    (hpattern : pattern text = true) :
    boundedString category max pattern false (.string text) = true ↔ Clean category text := by
  simp [boundedString, hne, hlength, hpattern, Clean]

theorem boundedString_lines_iff {category : Category} {max : ℕ} {text : String} (hne : text ≠ "")
    (hlength : text.length ≤ max) :
    boundedString category max anyText true (.string text) = true ↔ CleanLines category text := by
  simp only [boundedString, anyText, Bool.and_true, Bool.and_eq_true, decide_eq_true_eq, hne,
    hlength, List.all_eq_true, Bool.or_eq_true, Bool.not_eq_true', ne_eq, not_false_eq_true,
    true_and, CleanLines]
  refine forall₂_congr fun c _ ↦ ?_
  cases category.isOther c <;> simp

theorem clean_of_printable {category : Category} {text : String}
    (h : ∀ c ∈ text.toList, 0x20 ≤ c.toNat ∧ c.toNat ≤ 0x7e) : Clean category text :=
  fun c hc ↦ category.printable c (h c hc).1 (h c hc).2

/-- A fact that is kept is not empty and within its bound. -/
theorem cleanFact_bounds {value : Option String} {max : ℕ} {text : String}
    (h : cleanFact value max = some text) : text ≠ "" ∧ text.length ≤ max := by
  have hkept := (Option.filter_eq_some_iff.mp h).2
  simp only [Bool.and_eq_true, decide_eq_true_eq] at hkept
  exact hkept.1

theorem getD_cleanFact_bounds (value : Option String) {max : ℕ} {fallback : String}
    (h : fallback ≠ "" ∧ fallback.length ≤ max) :
    (cleanFact value max).getD fallback ≠ "" ∧
      ((cleanFact value max).getD fallback).length ≤ max := by
  cases hfact : cleanFact value max with
  | none => exact h
  | some text => exact cleanFact_bounds hfact

theorem boundedFact_bounds (value : String) {max : ℕ} (h : 7 ≤ max) :
    boundedFact value max ≠ "" ∧ (boundedFact value max).length ≤ max := by
  unfold boundedFact
  dsimp only
  split
  · exact ⟨by decide, h⟩
  · rename_i hkept
    rw [Bool.or_eq_true, not_or, decide_eq_true_eq] at hkept
    constructor
    · intro hempty
      apply hkept.1
      have hnil := congrArg String.toList hempty
      rw [String.toList_ofList] at hnil
      rcases List.take_eq_nil_iff.mp hnil with hzero | hchars
      · omega
      · exact String.toList_eq_nil_iff.mp hchars
    · rw [String.length_ofList, List.length_take]
      exact min_le_left _ _

/-- An optional text within its bound is taken if it is clean. -/
theorem accepts_text_iff {category : Category} {name : String} {max : ℕ} {text : Option String}
    (h : ∀ found ∈ text, found ≠ "" ∧ found.length ≤ max) :
    FieldCheck.accepts ⟨name, false, boundedString category max anyText false⟩
        (text.map .string) = true ↔ ∀ found ∈ text, Clean category found := by
  cases text with
  | none => simp [FieldCheck.accepts]
  | some found =>
    obtain ⟨hne, hlength⟩ := h found rfl
    simpa [FieldCheck.accepts] using boundedString_iff hne hlength rfl

/-- The same for lines of text. -/
theorem accepts_lines_iff {category : Category} {name : String} {max : ℕ} {text : Option String}
    (h : ∀ found ∈ text, found ≠ "" ∧ found.length ≤ max) :
    FieldCheck.accepts ⟨name, false, boundedString category max anyText true⟩
        (text.map .string) = true ↔ ∀ found ∈ text, CleanLines category found := by
  cases text with
  | none => simp [FieldCheck.accepts]
  | some found =>
    obtain ⟨hne, hlength⟩ := h found rfl
    simpa [FieldCheck.accepts] using boundedString_lines_iff hne hlength

theorem safeInteger_nat (minimum maximum n : ℕ) : safeInteger minimum maximum (.nat n) = true ↔
    n ≤ maxSafeInteger ∧ minimum ≤ n ∧ n ≤ maximum := by
  simp [safeInteger, wholeNumber?, Value.nat]

/-- An optional count of bytes is taken if it can be held exactly. -/
theorem accepts_bytes_iff {name : String} {bytes : Option ℕ} :
    FieldCheck.accepts ⟨name, false, safeInteger 0 maxSafeInteger⟩ (bytes.map .nat) = true ↔
      ∀ found ∈ bytes, found ≤ maxSafeInteger := by
  cases bytes with
  | none => simp [FieldCheck.accepts]
  | some found => simp [FieldCheck.accepts, safeInteger_nat]

theorem accepts_bool (name : String) (flag : Option Bool) :
    FieldCheck.accepts ⟨name, false, isBoolean⟩ (flag.map .bool) = true := by
  cases flag <;> rfl

/-! ## The facts of a host -/

def PlatformFacts.texts (platform : PlatformFacts) : List String :=
  platform.kernelVersion.toList ++ platform.cpuModel.toList

def ArtifactFacts.texts (artifact : ArtifactFacts) : List String :=
  artifact.cameoVersion :: (artifact.isoBuildId.toList ++ artifact.edition.toList ++
    artifact.sourceRevision.toList ++ artifact.knossosRevision.toList ++
    artifact.archSnapshot.toList ++ artifact.rocmCliVersion.toList)

/-- The texts of a GPU that are taken as they are found. -/
def GpuFacts.texts (gpu : GpuFacts) : List String := gpu.model :: gpu.driverVersion.toList

theorem clean_targetName (category : Category) (name : TargetName) :
    Clean category name.text := by
  apply clean_of_printable
  intro c hc
  have hplain := List.all_eq_true.mp name.plain c hc
  rw [Bool.or_eq_true, decide_eq_true_eq] at hplain
  rcases hplain with halpha | rfl
  · have hrange := toNat_of_isAlphanum halpha
    omega
  · decide

theorem cpuModel_bounds {cpuinfo : Option String} {text : String}
    (h : cpuModel cpuinfo = some text) : text ≠ "" ∧ text.length ≤ 160 := by
  obtain ⟨contents, -, hfound⟩ := Option.bind_eq_some_iff.mp h
  obtain ⟨line, -, hline⟩ := List.exists_of_findSome?_eq_some hfound
  unfold cpuModelLine at hline
  split at hline
  · cases hline
  · split at hline
    · exact cleanFact_bounds hline
    · cases hline

structure ArtifactBounds (artifact : ArtifactFacts) : Prop where
  cameoVersion : artifact.cameoVersion ≠ "" ∧ artifact.cameoVersion.length ≤ 64
  isoBuildId : ∀ found ∈ artifact.isoBuildId, found ≠ "" ∧ found.length ≤ 128
  edition : ∀ found ∈ artifact.edition, found ≠ "" ∧ found.length ≤ 32
  sourceRevision : ∀ found ∈ artifact.sourceRevision, found ≠ "" ∧ found.length ≤ 64
  knossosRevision : ∀ found ∈ artifact.knossosRevision, found ≠ "" ∧ found.length ≤ 64
  archSnapshot : ∀ found ∈ artifact.archSnapshot, found ≠ "" ∧ found.length ≤ 32
  rocmCliVersion : ∀ found ∈ artifact.rocmCliVersion, found ≠ "" ∧ found.length ≤ 64

theorem installedBuild_bounds (installed : Option InstalledBuild) :
    ArtifactBounds (installedBuild installed) := by
  have hpackage : packageVersion ≠ "" ∧ packageVersion.length ≤ 64 := by decide
  cases installed with
  | none =>
    exact ⟨hpackage, nofun, nofun, nofun, nofun, nofun, nofun⟩
  | some build =>
    constructor
    case cameoVersion =>
      dsimp only [installedBuild]
      exact getD_cleanFact_bounds _ hpackage
    all_goals exact fun _ ↦ cleanFact_bounds

/-- The intake takes the platform if its texts are clean. -/
theorem validPlatform_iff (category : Category) (host : Host) :
    validPlatform category (collectFacts host).platform.json = true ↔
      ∀ text ∈ (collectFacts host).platform.texts, Clean category text := by
  have hkernel : ∀ found ∈ kernelVersion host.osrelease, found ≠ "" ∧ found.length ≤ 128 :=
    fun found hfound ↦ cleanFact_bounds hfound
  have hcpu : ∀ found ∈ cpuModel host.cpuinfo, found ≠ "" ∧ found.length ≤ 160 :=
    fun found hfound ↦ cpuModel_bounds hfound
  have htarget (name : TargetName) :
      boundedString category 32 anyText false (.string name.text) = true :=
    (boundedString_iff name.ne_empty name.length_le rfl).mpr (clean_targetName category name)
  unfold validPlatform PlatformFacts.json
  rw [validObject_objectOf rfl (by simp)]
  simp only [collectFacts, List.zip_cons_cons, List.zip_nil_right, List.forall_mem_cons,
    accepts_text_iff hkernel, accepts_text_iff hcpu, PlatformFacts.texts, accepts_some,
    htarget, List.mem_append, Option.mem_toList, or_imp, forall_and]
  simp

/-- The intake takes the artifact if its texts are clean. -/
theorem validArtifact_iff (category : Category) (host : Host) :
    validArtifact category (collectFacts host).artifact.json = true ↔
      ∀ text ∈ (collectFacts host).artifact.texts, Clean category text := by
  change validArtifact category (installedBuild host.installed).json = true ↔
    ∀ text ∈ (installedBuild host.installed).texts, Clean category text
  have hbounds := installedBuild_bounds host.installed
  generalize installedBuild host.installed = artifact at hbounds ⊢
  have hversion : boundedString category 64 anyText false (.string artifact.cameoVersion) = true ↔
      Clean category artifact.cameoVersion :=
    boundedString_iff hbounds.cameoVersion.1 hbounds.cameoVersion.2 rfl
  unfold validArtifact ArtifactFacts.json
  rw [validObject_objectOf rfl (by simp)]
  simp only [List.zip_cons_cons, List.zip_nil_right, List.forall_mem_cons, accepts_some, hversion,
    accepts_text_iff hbounds.isoBuildId, accepts_text_iff hbounds.edition,
    accepts_text_iff hbounds.sourceRevision, accepts_bool,
    accepts_text_iff hbounds.knossosRevision, accepts_text_iff hbounds.archSnapshot,
    accepts_text_iff hbounds.rocmCliVersion, ArtifactFacts.texts, List.mem_append,
    Option.mem_toList, or_imp, forall_and]
  simp [and_assoc]

theorem boundedString_vendor (category : Category) (vendor : Vendor) :
    boundedString category 32 anyText false (.string vendor.label) = true := by
  have hbounds : vendor.label ≠ "" ∧ vendor.label.length ≤ 32 := by
    cases vendor <;> decide
  refine (boundedString_iff hbounds.1 hbounds.2 rfl).mpr (clean_of_printable ?_)
  cases vendor <;> exact List.all_iff_forall_prop.mp (by decide)

theorem printable_of_isLowerHex {c : Char} (h : isLowerHex c = true) :
    0x20 ≤ c.toNat ∧ c.toNat ≤ 0x7e := by
  have hall : ∀ c ∈ "0123456789abcdef".toList, 0x20 ≤ c.toNat ∧ c.toNat ≤ 0x7e :=
    List.all_iff_forall_prop.mp (by decide)
  exact hall c (of_decide_eq_true h)

theorem isHexDigit_of_isLowerHex {c : Char} (h : isLowerHex c = true) : isHexDigit c = true := by
  have hall : ∀ c ∈ "0123456789abcdef".toList, isHexDigit c = true :=
    List.all_eq_true.mp (by decide)
  exact hall c (of_decide_eq_true h)

theorem PciId.length_text (id : PciId) : id.text.length = 9 := by
  rw [PciId.text, String.length_ofList, List.length_append, List.length_cons,
    id.vendor_digits.1, id.device_digits.1]

theorem PciId.text_ne_empty (id : PciId) : id.text ≠ "" := by
  intro hempty
  have hlength := id.length_text
  rw [hempty] at hlength
  cases hlength

theorem pciIdPattern_text (id : PciId) : pciIdPattern id.text = true := by
  obtain ⟨hvendor, hvendorDigits⟩ := id.vendor_digits
  obtain ⟨hdevice, hdeviceDigits⟩ := id.device_digits
  have hchars : id.text.toList = id.vendor ++ ':' :: id.device := String.toList_ofList
  have htake : id.text.toList.take 4 = id.vendor := by
    rw [hchars, ← hvendor, List.take_left]
  have hcolon : id.text.toList[4]? = some ':' := by
    rw [hchars, List.getElem?_append_right hvendor.le, hvendor]
    rfl
  have hdrop : id.text.toList.drop 5 = id.device := by
    rw [hchars, List.append_cons, List.drop_left' (by simp [hvendor])]
  unfold pciIdPattern
  rw [id.length_text, htake, hcolon, hdrop]
  rw [List.all_eq_true] at hvendorDigits hdeviceDigits
  simp only [decide_true, Bool.true_and, Bool.and_eq_true, List.all_eq_true]
  exact ⟨⟨fun c hc ↦ isHexDigit_of_isLowerHex (hvendorDigits c hc), trivial⟩,
    fun c hc ↦ isHexDigit_of_isLowerHex (hdeviceDigits c hc)⟩

theorem clean_pciId (category : Category) (id : PciId) : Clean category id.text := by
  apply clean_of_printable
  intro c hc
  rw [PciId.text, String.toList_ofList, List.mem_append, List.mem_cons] at hc
  rcases hc with hvendor | rfl | hdevice
  · exact printable_of_isLowerHex (List.all_eq_true.mp id.vendor_digits.2 c hvendor)
  · decide
  · exact printable_of_isLowerHex (List.all_eq_true.mp id.device_digits.2 c hdevice)

/-- An architecture that is kept has the form that the intake asks for, and no other character. -/
theorem accepts_gfx (category : Category) (arch : Option String) :
    FieldCheck.accepts ⟨"gfx_target", false, boundedString category 32 gfxPattern false⟩
      ((cleanGfxTarget arch).map .string) = true := by
  cases hfact : cleanGfxTarget arch with
  | none => rfl
  | some target =>
    obtain ⟨hclean, hform⟩ := Option.filter_eq_some_iff.mp hfact
    obtain ⟨hne, hlength⟩ := cleanFact_bounds hclean
    obtain ⟨hhead, hlong, hchars⟩ := of_decide_eq_true hform
    have hpattern : gfxPattern target = true := by
      simp only [gfxPattern, hlong, decide_true, Bool.and_true, Bool.and_eq_true,
        List.isPrefixOf_iff_prefix, List.all_eq_true, Bool.or_eq_true]
      exact ⟨hhead, fun c hc ↦ (hchars c hc).symm⟩
    refine (boundedString_iff hne hlength hpattern).mpr (clean_of_printable fun c hc ↦ ?_)
    obtain ⟨rest, hrest⟩ := hhead
    rw [← hrest, List.mem_append] at hc
    rcases hc with hlead | htail
    · have hall : ∀ c ∈ "gfx".toList, 0x20 ≤ c.toNat ∧ c.toNat ≤ 0x7e :=
        List.all_iff_forall_prop.mp (by decide)
      exact hall c hlead
    · have halphanum : c.isAlphanum = true := by
        change ((c.isUpper || c.isLower) || c.isDigit) = true
        rw [Bool.or_eq_true, Bool.or_eq_true]
        exact (hchars c (hrest ▸ htail)).imp .inr id
      have hrange := toNat_of_isAlphanum halphanum
      omega

structure GpuBounds (gpu : GpuFacts) : Prop where
  model : gpu.model ≠ "" ∧ gpu.model.length ≤ 200
  driverVersion : ∀ found ∈ gpu.driverVersion, found ≠ "" ∧ found.length ≤ 128

theorem gpuFacts_bounds (gpu : DetectedGpu) : GpuBounds (gpuFacts gpu) := by
  constructor
  · dsimp only [gpuFacts]
    exact boundedFact_bounds _ (by decide)
  · dsimp only [gpuFacts]
    exact fun _ ↦ cleanFact_bounds

/-- A GPU is described by texts without a character of the category C, and its memory is held
exactly. -/
structure PresentableGpu (category : Category) (gpu : GpuFacts) : Prop where
  texts : ∀ text ∈ gpu.texts, Clean category text
  memory : ∀ bytes ∈ gpu.vramTotalBytes, bytes ≤ maxSafeInteger

/-- The intake takes the presentable GPUs. -/
theorem validGpu_iff (category : Category) (gpu : DetectedGpu) :
    validGpu category (gpuFacts gpu).json = true ↔ PresentableGpu category (gpuFacts gpu) := by
  have hmodel : boundedString category 200 anyText false (.string (gpuFacts gpu).model) = true ↔
      Clean category (gpuFacts gpu).model :=
    boundedString_iff (gpuFacts_bounds gpu).model.1 (gpuFacts_bounds gpu).model.2 rfl
  have hvendor : boundedString category 32 anyText false (.string (gpuFacts gpu).vendor) = true :=
    boundedString_vendor category gpu.vendor
  have hpci : boundedString category 9 pciIdPattern false (.string (gpuFacts gpu).pciId) = true :=
    (boundedString_iff gpu.pciId.text_ne_empty gpu.pciId.length_text.le
      (pciIdPattern_text gpu.pciId)).mpr (clean_pciId category gpu.pciId)
  have hgfx : FieldCheck.accepts ⟨"gfx_target", false, boundedString category 32 gfxPattern false⟩
      ((gpuFacts gpu).gfxTarget.map .string) = true :=
    accepts_gfx category gpu.gfxArch
  have hdriver := (gpuFacts_bounds gpu).driverVersion
  have htier : safeInteger 1 3 (.nat (gpuFacts gpu).cameoTier) = true := by
    change safeInteger 1 3 (.nat gpu.tier.asNumber) = true
    cases gpu.tier <;> decide
  generalize gpuFacts gpu = facts at hmodel hvendor hpci hgfx hdriver htier ⊢
  unfold validGpu GpuFacts.json
  rw [validObject_objectOf rfl (by simp)]
  simp only [List.zip_cons_cons, List.zip_nil_right, List.forall_mem_cons, accepts_some, hmodel,
    hvendor, hpci, hgfx, accepts_bytes_iff, accepts_text_iff hdriver, htier, isBoolean, true_and,
    List.not_mem_nil, IsEmpty.forall_iff, implies_true, and_true]
  constructor
  · rintro ⟨htext, hbytes, hversion⟩
    refine ⟨fun text hmem ↦ ?_, hbytes⟩
    rcases List.mem_cons.mp hmem with rfl | hmem
    · exact htext
    · exact hversion text (Option.mem_toList.mp hmem)
  · rintro ⟨htexts, hbytes⟩
    refine ⟨htexts _ (List.mem_cons_self ..), hbytes, fun text hmem ↦ ?_⟩
    exact htexts text (List.mem_cons_of_mem _ (Option.mem_toList.mpr hmem))

/-- The hardware's GPUs are presentable, and the memory of the host is held exactly. -/
structure PresentableHardware (category : Category) (hardware : HardwareFacts) : Prop where
  gpus : ∀ gpu ∈ hardware.gpus, PresentableGpu category gpu
  total : ∀ bytes ∈ hardware.systemRamTotalBytes, bytes ≤ maxSafeInteger
  available : ∀ bytes ∈ hardware.systemRamAvailableBytes, bytes ≤ maxSafeInteger

/-- At most 32 GPUs are reported, each from a detected one. -/
theorem hardwareFacts_gpus (detected : Option Detected) :
    (hardwareFacts detected).gpus.length ≤ 32 ∧
      ∀ gpu ∈ (hardwareFacts detected).gpus, ∃ found, gpu = gpuFacts found := by
  cases detected with
  | none => exact ⟨Nat.zero_le 32, nofun⟩
  | some found =>
    constructor
    · change ((found.assessments.take 32).map gpuFacts).length ≤ 32
      rw [List.length_map, List.length_take]
      exact min_le_left _ _
    · intro gpu hgpu
      obtain ⟨assessed, -, rfl⟩ := List.mem_map.mp hgpu
      exact ⟨assessed, rfl⟩

theorem hardwareFacts_status (detected : Option Detected) :
    isOneOf ["observed", "unverified"] (.string (hardwareFacts detected).status) = true := by
  cases detected <;> simp [hardwareFacts, isOneOf]

/-- The intake takes the presentable hardware. -/
theorem validHardware_iff (category : Category) (host : Host) :
    validHardware category (collectFacts host).hardware.json = true ↔
      PresentableHardware category (collectFacts host).hardware := by
  change validHardware category (hardwareFacts host.detected).json = true ↔
    PresentableHardware category (hardwareFacts host.detected)
  have hgpus := hardwareFacts_gpus host.detected
  have hstatus := hardwareFacts_status host.detected
  generalize hardwareFacts host.detected = hardware at hgpus hstatus ⊢
  have hlist : validGpus category (.array (hardware.gpus.map GpuFacts.json)) = true ↔
      ∀ gpu ∈ hardware.gpus, PresentableGpu category gpu := by
    simp only [validGpus, List.length_map, hgpus.1, decide_true, Bool.true_and, List.all_map,
      List.all_eq_true, Function.comp_apply]
    refine forall₂_congr fun gpu hgpu ↦ ?_
    obtain ⟨found, rfl⟩ := hgpus.2 gpu hgpu
    exact validGpu_iff category found
  unfold validHardware HardwareFacts.json
  rw [validObject_objectOf rfl (by simp)]
  simp only [List.zip_cons_cons, List.zip_nil_right, List.forall_mem_cons, accepts_some, hstatus,
    hlist, accepts_bytes_iff, List.not_mem_nil, IsEmpty.forall_iff, implies_true, and_true,
    true_and]
  exact ⟨fun ⟨hgpus, htotal, havailable⟩ ↦ ⟨hgpus, htotal, havailable⟩,
    fun h ↦ ⟨h.gpus, h.total, h.available⟩⟩

/-! ## What the command itself decides -/

/-- An outcome is taken with each of the three kinds of evidence. -/
theorem validOutcome_json (outcome : OutcomeFact)
    (h : outcome.evidenceSource ∈ ["observed", "tester_asserted", "unavailable"]) :
    validOutcome outcome.json = true := by
  have hresult : isOneOf ["passed", "failed", "degraded", "not_tested"]
      (.string outcome.result.label) = true := by
    cases outcome.result <;> decide
  have hevidence : isOneOf ["observed", "tester_asserted", "unavailable"]
      (.string outcome.evidenceSource) = true := decide_eq_true h
  unfold validOutcome OutcomeFact.json
  rw [validObject_objectOf rfl (by simp)]
  simp [accepts_some, hresult, hevidence]

theorem evidence_inferenceFact (args : Args) (env : Environment) :
    (inferenceFact args env).evidenceSource ∈ ["observed", "tester_asserted", "unavailable"] := by
  unfold inferenceFact
  split
  · simp
  · dsimp only
    split <;> simp

theorem evidence_bootFact (args : Args) (onCameoImage : Bool) :
    (bootFact args onCameoImage).evidenceSource ∈
      ["observed", "tester_asserted", "unavailable"] := by
  unfold bootFact
  split
  · simp
  · cases onCameoImage <;> simp

theorem evidence_detectionFact (hardware : HardwareFacts) :
    (detectionFact hardware).evidenceSource ∈ ["observed", "tester_asserted", "unavailable"] := by
  unfold detectionFact
  split <;> simp

theorem validOutcomes_report (args : Args) (env : Environment) (note errorExcerpt : Option String)
    (generatedAtUnix : ℕ) (random : RandomBytes) :
    let report := makeReport args env note errorExcerpt generatedAtUnix random
    validOutcomes (objectOf [
      ("boot", some report.boot.json),
      ("gpu_detection", some report.gpuDetection.json),
      ("inference", some report.inference.json)]) = true := by
  intro report
  have hboot := validOutcome_json report.boot (evidence_bootFact _ _)
  have hdetection := validOutcome_json report.gpuDetection (evidence_detectionFact _)
  have hinference := validOutcome_json report.inference (evidence_inferenceFact _ _)
  unfold validOutcomes
  rw [validObject_objectOf rfl (by simp)]
  simp [accepts_some, hboot, hdetection, hinference]

theorem validPrivacy_json : validPrivacy privacyJson = true := by decide +kernel

theorem isLowerHex_of_mem_hexByte {byte : UInt8} {c : Char} (h : c ∈ hexByte byte) :
    isLowerHex c = true := by
  have hdigit : ∀ n < 16, isLowerHex (Nat.digitChar n) = true := by decide
  have hbound := byte.toNat_lt
  rcases List.mem_cons.mp h with rfl | h
  · exact hdigit _ (by omega)
  · rw [List.mem_singleton.mp h]
    exact hdigit _ (by omega)

theorem isLowerHex_of_mem_hex {bytes : List UInt8} {c : Char} (h : c ∈ (hex bytes).toList) :
    isLowerHex c = true := by
  rw [hex, String.toList_ofList] at h
  obtain ⟨byte, -, hc⟩ := List.mem_flatMap.mp h
  exact isLowerHex_of_mem_hexByte hc

theorem length_hex (bytes : List UInt8) : (hex bytes).length = 2 * bytes.length := by
  rw [hex, String.length_ofList]
  induction bytes with
  | nil => rfl
  | cons byte rest ih =>
    rw [List.flatMap_cons, List.length_append, ih, List.length_cons]
    change 2 + 2 * rest.length = 2 * (rest.length + 1)
    omega

/-- The intake takes every report id. -/
theorem boundedString_reportId (category : Category) (random : RandomBytes) :
    boundedString category 28 reportIdPattern false (.string (reportId random)) = true := by
  have hchars : (reportId random).toList = "chr_".toList ++ (hex random.bytes).toList :=
    String.toList_append
  have hlength : (reportId random).length = 28 := by
    rw [reportId, String.length_append, length_hex, random.length_eq]
    rfl
  have hne : reportId random ≠ "" := by
    intro hempty
    rw [hempty] at hlength
    cases hlength
  have hpattern : reportIdPattern (reportId random) = true := by
    unfold reportIdPattern
    rw [hlength, hchars, List.drop_left' (show "chr_".toList.length = 4 from rfl)]
    simp only [decide_true, Bool.true_and, Bool.and_eq_true, List.isPrefixOf_iff_prefix,
      List.all_eq_true, decide_eq_true_eq]
    exact ⟨List.prefix_append _ _, fun c hc ↦ of_decide_eq_true (isLowerHex_of_mem_hex hc)⟩
  refine (boundedString_iff hne hlength.le hpattern).mpr (clean_of_printable fun c hc ↦ ?_)
  rw [hchars, List.mem_append] at hc
  rcases hc with hhead | htail
  · have hall : ∀ c ∈ "chr_".toList, 0x20 ≤ c.toNat ∧ c.toNat ≤ 0x7e :=
      List.all_iff_forall_prop.mp (by decide)
    exact hall c hhead
  · exact printable_of_isLowerHex (isLowerHex_of_mem_hex htail)

end Cameo.Report
