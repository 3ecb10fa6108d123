import Cameo.Library.Keyed
import Cameo.Update.Bundle
import Cameo.Update.Canonical
import Mathlib.Data.List.Dedup
import Mathlib.Data.List.Sort

/-!
# The bundle builder

`build_bundle` checks what it is given, copies every component under a name of its own and writes
the manifest.  Everything that the readers of a bundle look at is made here, so a bundle that is
built passes their checks, but for two that the builder leaves out: it does not bound the size of
the manifest, and it lets a NUL into a target.
-/

namespace Cameo.Update

open Json Library

/-! ## What is built from -/

/-- Sixty-four hexadecimal digits in lower case. -/
def IsLowerDigest (digest : String) : Prop :=
  digest.length = 64 ∧ ∀ c ∈ digest.toList, c ∈ "0123456789abcdef".toList

instance (digest : String) : Decidable (IsLowerDigest digest) :=
  @instDecidableAnd _ _ (instDecidableEqNat _ _) (List.decidableBAll _ _)

/-- What `hexdigest` gives. -/
structure HexDigest where
  text : String
  lower : IsLowerDigest text

/-- A component as it is given, with what is found at its source: whether the path is a link,
whether it leads to a regular file, the file's name and its SHA-256. -/
structure GivenComponent where
  source : String
  linked : Bool
  regular : Bool
  name : String
  digest : HexDigest
  target : String
  mode : ℤ

/-- The arguments of `build_bundle`, with whether the output and its staging path exist. -/
structure BuildInput where
  output : String
  staging : String
  outputExists : Bool
  stagingExists : Bool
  releaseId : String
  compatibilityId : String
  stateWrites : ℤ
  stateReads : List ℤ
  identities : Value
  components : List GivenComponent

/-- `normalize_target`. -/
def normalizeTarget (value : String) : Except String String := do
  let target := PosixPath.ofString value
  ensure (target.isAbsolute = true ∧ ".." ∉ target.parts) ("unsafe install target: " ++ value)
  ensure (Allowed target.toString) ("target is outside the product allowlist: " ++ value)
  .ok target.toString

/-- `f"{mode:o}"`. -/
def octalText (mode : ℤ) : String :=
  (if mode < 0 then "-" else "") ++ String.ofList (Nat.toDigits 8 mode.natAbs)

structure PreparedFile where
  target : String
  name : String
  digest : HexDigest
  mode : ℕ

def prepareComponent (seen : List String) (given : GivenComponent) :
    Except String PreparedFile := do
  ensure (given.linked = false) ("component is linked: " ++ given.source)
  ensure (given.regular = true)
    ("component is missing, linked, or not regular: " ++ given.source)
  let target ← normalizeTarget given.target
  ensure (target ∉ seen) ("duplicate install target: " ++ target)
  ensure (SafeMode given.mode)
    ("unsafe component mode for " ++ target ++ ": " ++ octalText given.mode)
  .ok ⟨target, given.name, given.digest, given.mode.toNat⟩

/-- The checks of the components, in order. -/
def prepareComponents (seen : List String) :
    List GivenComponent → Except String (List PreparedFile)
  | [] => .ok []
  | given :: rest => do
    let prepared ← prepareComponent seen given
    let others ← prepareComponents (prepared.target :: seen) rest
    .ok (prepared :: others)

/-! ## What is built -/

/-- `re.sub(r"[^A-Za-z0-9._-]", "_", name) or "component"`. -/
def safeName (name : String) : String :=
  if name = "" then "component"
  else String.ofList (name.toList.map fun c ↦
    if c.isAlphanum = true ∨ c ∈ ['.', '_', '-'] then c else '_')

/-- `f"{index:03d}-{safe_name}"`. -/
def payloadName (index : ℕ) (name : String) : String :=
  String.ofList (List.leftpad 3 '0' (Nat.toDigits 10 index)) ++ "-" ++ safeName name

structure PayloadFile where
  path : List String
  digest : HexDigest

def payloadFile (entry : PreparedFile × ℕ) : PayloadFile :=
  ⟨["payload", payloadName entry.2 entry.1.name], entry.1.digest⟩

def manifestEntry (entry : PreparedFile × ℕ) : Value :=
  .object
    [("mode", .string (String.ofList (List.leftpad 4 '0' (Nat.toDigits 8 entry.1.mode)))),
      ("sha256", .string entry.1.digest.text),
      ("source", .string ("payload/" ++ payloadName entry.2 entry.1.name)),
      ("target", .string entry.1.target)]

/-- The identity of a component, as `validate_component_identities` returns it. -/
def identityValue (identity : ComponentIdentity) : Value :=
  match identity.digest with
  | none => .object [("id", .string identity.id)]
  | some digest => .object [("digest", .string digest), ("id", .string identity.id)]

def identitiesValue (identities : List ComponentIdentity) : Value :=
  .object ((identities.map fun identity ↦ (identity.name, identityValue identity)).insertionSort
    fun left right ↦ left.1 ≤ right.1)

/-- The schemas that are read, `sorted(set(state_reads))`. -/
def sortedReads (reads : List ℤ) : List ℕ :=
  (reads.map Int.toNat).dedup.insertionSort (· ≤ ·)

def builtManifest (input : BuildInput) (identities : List ComponentIdentity)
    (prepared : List (PreparedFile × ℕ)) : Value :=
  .object
    [("compatibility", .object [("id", .string input.compatibilityId),
        ("state", .object [("reads", .array ((sortedReads input.stateReads).map .nat)),
          ("writes", .nat input.stateWrites.toNat)])]),
      ("files", .array (prepared.map manifestEntry)),
      ("identities", identitiesValue identities),
      ("release_id", .string input.releaseId),
      ("schema", .string updateSchema)]

structure Bundle where
  manifest : Value
  payload : List PayloadFile

/-- The components in the order of their targets, with their positions. -/
def ordered (prepared : List PreparedFile) : List (PreparedFile × ℕ) :=
  (prepared.insertionSort fun left right ↦ left.target ≤ right.target).zipIdx

/-- Python writes no longer integer than this. -/
def maxIntDigits : ℕ := 4300

/-- `build_bundle`, where every copy and write succeeds. -/
def buildBundle (input : BuildInput) : Except String Bundle := do
  ensure (SafeReleaseId input.releaseId) "release_id contains unsafe characters"
  ensure (stripsEmpty input.compatibilityId = false) "compatibility_id is empty"
  ensure (1 ≤ input.stateWrites) "state_writes must be a positive integer"
  ensure (input.stateReads ≠ [] ∧ input.stateWrites ∈ input.stateReads ∧
      ∀ item ∈ input.stateReads, 1 ≤ item)
    "state_reads must contain positive versions including state_writes"
  ensure (input.components ≠ []) "at least one update component is required"
  let identities ← validateComponentIdentities input.identities
  ensure (input.outputExists = false) ("refusing to replace existing output: " ++ input.output)
  let prepared ← prepareComponents [] input.components
  ensure (input.stagingExists = false) ("staging path already exists: " ++ input.staging)
  ensure (∀ item ∈ input.stateReads, (Nat.toDigits 10 item.toNat).length ≤ maxIntDigits)
    "Exceeds the limit (4300 digits) for integer string conversion"
  .ok ⟨builtManifest input identities (ordered prepared), (ordered prepared).map payloadFile⟩

/-! ## The bundle and its readers -/

def Bundle.tree (bundle : Bundle) : Tree where
  linked := fun _ ↦ false
  inside := fun _ ↦ true
  digest := fun parts ↦ (bundle.payload.find? fun file ↦ file.path = parts).map
    fun file ↦ file.digest.text
  inside_of_unlinked := fun _ _ _ ↦ rfl

def Bundle.file (bundle : Bundle) : ManifestFile where
  path := "manifest.json"
  linked := false
  regular := true
  size := canonicalSize bundle.manifest
  parsed := .ok bundle.manifest

structure Installable (bundle : Bundle) : Prop where
  accepted : Accepted bundle.tree bundle.file bundle.manifest
  loaded : loadJsonFile bundle.file updateSchema = .ok bundle.manifest
  later : AcceptedLater bundle.manifest

/-! ## Names and modes -/

/-- A character of a payload name is one that the builder keeps. -/
theorem mem_safeName {name : String} {c : Char} (h : c ∈ (safeName name).toList) :
    c.isAlphanum = true ∨ c ∈ ['.', '_', '-'] := by
  unfold safeName at h
  split at h
  · have hall : ∀ c ∈ "component".toList, c.isAlphanum = true :=
      List.all_eq_true.mp (by decide)
    exact .inl (hall c h)
  · rw [String.toList_ofList] at h
    obtain ⟨other, -, rfl⟩ := List.mem_map.mp h
    split
    · assumption
    · exact .inr (by decide)

theorem isDigit_of_mem_index {index : ℕ} {c : Char}
    (h : c ∈ List.leftpad 3 '0' (Nat.toDigits 10 index)) : c.isDigit = true := by
  rw [List.leftpad, List.mem_append] at h
  rcases h with hpad | hdigit
  · rw [List.eq_of_mem_replicate hpad]
    rfl
  · exact Nat.isDigit_of_mem_toDigits (show 0 < 10 by decide) le_rfl hdigit

theorem toList_payloadName (index : ℕ) (name : String) :
    (payloadName index name).toList =
      List.leftpad 3 '0' (Nat.toDigits 10 index) ++ '-' :: (safeName name).toList := by
  simp [payloadName]

/-- A payload name is made of letters, digits, dots, underscores and hyphens. -/
theorem mem_payloadName {index : ℕ} {name : String} {c : Char}
    (h : c ∈ (payloadName index name).toList) :
    c.isAlphanum = true ∨ c ∈ ['.', '_', '-'] := by
  rw [toList_payloadName, List.mem_append, List.mem_cons] at h
  rcases h with hdigit | rfl | hname
  · exact .inl (by simp [Char.isAlphanum, isDigit_of_mem_index hdigit])
  · exact .inr (by decide)
  · exact mem_safeName hname

def nameNumber (name : String) : ℕ :=
  Nat.ofDigitChars 10 (name.toList.takeWhile (· ≠ '-')) 0

def payloadNumber : List String → ℕ
  | [_, name] => nameNumber name
  | _ => 0

theorem nameNumber_payloadName (index : ℕ) (name : String) :
    nameNumber (payloadName index name) = index := by
  unfold nameNumber
  have hdigits : ∀ c ∈ List.leftpad 3 '0' (Nat.toDigits 10 index), decide (c ≠ '-') = true := by
    intro c hc
    apply decide_eq_true
    rintro rfl
    cases isDigit_of_mem_index hc
  rw [toList_payloadName, List.takeWhile_append_of_pos hdigits]
  simp [List.leftpad, Nat.ofDigitChars_append, Nat.ofDigitChars_replicate_zero]

/-- The number of a payload file can be read off its path. -/
theorem payloadNumber_path (entry : PreparedFile × ℕ) :
    payloadNumber (payloadFile entry).path = entry.2 := nameNumber_payloadName _ _

/-- The source of an entry is read as the path of the payload file. -/
theorem ofString_source (entry : PreparedFile × ℕ) :
    PosixPath.ofString ("payload/" ++ payloadName entry.2 entry.1.name) =
      ⟨"", (payloadFile entry).path⟩ := by
  have hdash : '-' ∈ (payloadName entry.2 entry.1.name).toList := by
    rw [toList_payloadName]
    exact List.mem_append_right _ List.mem_cons_self
  have hwell : PosixPath.WellFormed ⟨"", (payloadFile entry).path⟩ := by
    refine ⟨.inl rfl, ?_⟩
    intro part hpart
    rcases List.mem_cons.mp hpart with rfl | hname
    · decide
    · obtain rfl := List.mem_singleton.mp hname
      refine ⟨?_, ?_, ?_⟩
      · rintro heq
        rw [heq] at hdash
        cases hdash
      · rintro heq
        rw [heq] at hdash
        exact absurd hdash (by decide)
      · intro hslash
        exact absurd (mem_payloadName hslash) (by decide)
  rw [← PosixPath.ofString_toString hwell]
  rfl

/-- The text of a mode has four digits and is read as the mode. -/
theorem modeText {mode : ℕ} (h : SafeMode mode) :
    (List.leftpad 4 '0' (Nat.toDigits 8 mode)).length = 4 ∧
      (∀ c ∈ List.leftpad 4 '0' (Nat.toDigits 8 mode), c.isDigit = true) ∧
      octal? (String.ofList (List.leftpad 4 '0' (Nat.toDigits 8 mode))) = some (mode : ℤ) := by
  have hand : mode &&& 0o755 = mode := h.2
  have hlt : mode < 494 := Nat.lt_succ_of_le (hand ▸ Nat.and_le_right)
  have hall : ∀ mode < 494, mode &&& 0o755 = mode →
      (List.leftpad 4 '0' (Nat.toDigits 8 mode)).length = 4 ∧
        (List.leftpad 4 '0' (Nat.toDigits 8 mode)).all Char.isDigit = true ∧
        octal? (String.ofList (List.leftpad 4 '0' (Nat.toDigits 8 mode))) = some (mode : ℤ) := by
    decide +kernel
  obtain ⟨hlength, hdigits, hread⟩ := hall mode hlt hand
  exact ⟨hlength, List.all_eq_true.mp hdigits, hread⟩

end Cameo.Update
