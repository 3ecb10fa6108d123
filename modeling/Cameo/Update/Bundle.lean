import Cameo.Library.Fallible
import Cameo.Path
import Cameo.Update.Manifest

/-!
# Update bundles

A bundle is a directory with a manifest and the files that it names.  The verifier reads the
manifest and every file before an update begins; the manifest is checked once more by the
transaction.  The inactive slot is written, and its boot entry made, after that: a target and the
release are then held to checks of their own.
-/

namespace Cameo.Update

open Json Library

/-! ## Directories -/

/-- A directory, by what is found at the paths below it: the symbolic links, the paths that still
lead inside once all links are followed, and the SHA-256 of the regular files. -/
structure Tree where
  linked : List String → Bool
  inside : List String → Bool
  digest : List String → Option String
  inside_of_unlinked : ∀ parts : List String, ".." ∉ parts →
    (∀ lead ∈ parts.inits, lead ≠ [] → linked lead = false) → inside parts = true

/-- `ALLOWED`, `ALLOWED_TARGETS`. -/
def allowedTargets : List String :=
  ["/usr/local/bin/", "/usr/local/lib/cameo/", "/etc/systemd/system/cameo-", "/usr/share/cameo/"]

/-- `target.startswith(ALLOWED)`. -/
def Allowed (target : String) : Prop := ∃ lead ∈ allowedTargets, lead.toList <+: target.toList

instance (target : String) : Decidable (Allowed target) :=
  inferInstanceAs (Decidable (∃ lead ∈ allowedTargets, _))

/-- The operating system takes no path with a NUL. -/
def HasNul (path : String) : Prop := Char.ofNat 0 ∈ path.toList

instance (path : String) : Decidable (HasNul path) :=
  inferInstanceAs (Decidable (_ ∈ _))

/-! ## The verifier -/

/-- `MAX_MANIFEST`, `MAX_JSON_BYTES`. -/
def maxManifest : ℕ := 1024 * 1024

/-- `SCHEMA`. -/
def updateSchema : String := "cameo-update/v1"

/-- The file of a manifest, with what its bytes are read as. -/
structure ManifestFile where
  path : String
  linked : Bool
  regular : Bool
  size : ℕ
  parsed : Except String Value

/-- `load` of `update-verify`. -/
def load (file : ManifestFile) : Except String Value := do
  ensure (file.linked = false ∧ file.regular = true ∧ file.size ≤ maxManifest)
    "manifest missing, linked, or too large"
  let data ← file.parsed.mapError fun error ↦ "invalid manifest: " ++ error
  ensure (data.isObject = true ∧ text data "schema" = some updateSchema)
    "unsupported manifest schema"
  ensure ((nonempty? data "release_id").isSome = true) "missing release_id"
  let compatibility := data.index "compatibility"
  ensure (compatibility.isObject = true ∧ Filled compatibility "id") "missing compatibility id"
  let state := compatibility.index "state"
  ensure (state.isObject = true) "missing persistent-state schema contract"
  let some writes := positive? (state.index "writes") | .error "invalid state schema writes"
  let some reads := (state.index "reads").asArray.bind fun items ↦ items.mapM positive?
    | .error "invalid state schema reads"
  ensure (writes ∈ reads) "invalid state schema reads"
  let some (_ :: _) := (data.index "files").asArray | .error "manifest has no files"
  .ok data

structure Component where
  source : List String
  target : PosixPath
  mode : ℤ

/-- One item of `entries`, with its normalized target. -/
def bundleEntry (bundle : Tree) (seen : List String) (item : Value) :
    Except String (String × Component) := do
  ensure (item.isObject = true) "invalid file entry"
  let some source := nonempty? item "source" | .error "incomplete file entry"
  let some target := nonempty? item "target" | .error "incomplete file entry"
  let some digest := nonempty? item "sha256" | .error "incomplete file entry"
  let path := PosixPath.ofString source
  ensure (path.isAbsolute = false ∧ ".." ∉ path.parts) "unsafe bundle source"
  let normalized := normpath target
  ensure (Allowed normalized ∧ normalized ∉ seen) "unsafe or duplicate install target"
  ensure (∀ lead ∈ path.parts.inits, lead ≠ [] → bundle.linked lead = false)
    ("linked component path: " ++ source)
  ensure (¬ HasNul source) "embedded null byte"
  ensure (bundle.inside path.parts = true) "component escapes bundle"
  let some found := bundle.digest path.parts
    | .error ("missing or unsafe component: " ++ source)
  ensure (digest.length = 64 ∧ found.toList = digest.toList.map asciiLower)
    ("digest mismatch: " ++ source)
  let some mode := mode? item | .error "invalid component mode"
  ensure (SafeMode mode) "component mode grants unsafe permissions"
  .ok (normalized, ⟨path.parts, .ofString normalized, mode⟩)

/-- `entries`. -/
def entries (bundle : Tree) (seen : List String) : List Value → Except String (List Component)
  | [] => .ok []
  | item :: rest => do
    let (normalized, component) ← bundleEntry bundle seen item
    let components ← entries bundle (normalized :: seen) rest
    .ok (component :: components)

def manifestFiles (manifest : Value) : List Value := ((manifest.index "files").asArray).getD []

/-- `verify`. -/
def verify (bundle : Tree) (file : ManifestFile) : Except String Value := do
  let manifest ← load file
  let _ ← entries bundle [] (manifestFiles manifest)
  .ok manifest

/-- `load_json` of a file, with `_regular_bytes`. -/
def loadJsonFile (file : ManifestFile) (schema : String) : Except String Value := do
  ensure (file.linked = false ∧ file.regular = true ∧ file.size ≤ maxManifest)
    ("unsafe or oversized file: " ++ file.path)
  let value ← file.parsed.mapError fun error ↦ "invalid JSON in " ++ file.path ++ ": " ++ error
  ensure (value.isObject = true ∧ text value "schema" = some schema)
    ("unsupported schema in " ++ file.path)
  .ok value

/-! ## The later steps -/

/-- The form of a release that names a boot entry. -/
def SafeReleaseId (release : String) : Prop :=
  match release.toList with
  | [] => False
  | first :: rest => first.isAlphanum = true ∧ rest.length ≤ 63 ∧
      ∀ c ∈ rest, c.isAlphanum = true ∨ c ∈ ['.', '_', '-']

instance (release : String) : Decidable (SafeReleaseId release) := by
  unfold SafeReleaseId
  split
  · exact instDecidableFalse
  · exact @instDecidableAnd _ _ _ (@instDecidableAnd _ _ _ (List.decidableBAll _ _))

/-- `safe_release`. -/
def safeRelease (release : String) : Except String String := do
  ensure (SafeReleaseId release) "release_id is unsafe for a boot entry"
  .ok release

/-- `safe_target`; the path of the target below the root. -/
def safeTarget (root : Tree) (target : String) : Except String (List String) := do
  ensure (Allowed target ∧ ".." ∉ (PosixPath.ofString target).parts)
    ("unsafe install target: " ++ target)
  let parts := (PosixPath.ofString (lstripSlash target)).parts
  ensure (∀ lead ∈ parts.dropLast.inits, lead ≠ [] → root.linked lead = false)
    ("linked install target: " ++ target)
  ensure (¬ HasNul target) "embedded null byte"
  ensure (root.inside parts = true) "target is not in the subpath of the root"
  .ok parts

/-- The targets that `write_inactive` writes to. -/
def installTargets (root : Tree) : List Value → Except String (List (List String))
  | [] => .ok []
  | item :: rest => do
    let some target := text item "target" | .error "target"
    let parts ← safeTarget root target
    let others ← installTargets root rest
    .ok (parts :: others)

/-- A tree without links. -/
def Tree.Unlinked (tree : Tree) : Prop := ∀ parts, tree.linked parts = false

def emptyTree : Tree where
  linked := fun _ ↦ false
  inside := fun _ ↦ true
  digest := fun _ ↦ none
  inside_of_unlinked := fun _ _ _ ↦ rfl

/-- The steps after the drain take a manifest as it is built: the release names a boot entry, and
every target can be written to in a slot whose links do not get in the way. -/
def AcceptedLater (manifest : Value) : Prop :=
  (∃ release, text manifest "release_id" = some release ∧ safeRelease release = .ok release) ∧
    ∀ slot : Tree, slot.Unlinked →
      ∃ targets, installTargets slot (manifestFiles manifest) = .ok targets

/-! ## What the checks ask for -/

theorem ensure_bind_eq_ok {cond : Prop} [Decidable cond] {error : String} {β : Type}
    {rest : Unit → Except String β} {b : β} :
    (ensure cond error >>= rest) = .ok b ↔ cond ∧ rest () = .ok b := by
  rw [bind_eq_ok]
  constructor
  · rintro ⟨_, hcond, hrest⟩
    exact ⟨ensure_eq_ok.mp hcond, hrest⟩
  · rintro ⟨hcond, hrest⟩
    exact ⟨(), ensure_eq_ok.mpr hcond, hrest⟩

theorem safeRelease_eq_ok {release : String} :
    safeRelease release = .ok release ↔ SafeReleaseId release := by
  unfold safeRelease
  rw [ensure_bind_eq_ok]
  exact and_iff_left rfl

/-- In a tree without links a target is taken if it is allowed as it is written, goes up nowhere and
has no NUL. -/
theorem safeTarget_ok_iff {root : Tree} (h : root.Unlinked) {target : String} :
    (∃ parts, safeTarget root target = .ok parts) ↔
      Allowed target ∧ ".." ∉ (PosixPath.ofString target).parts ∧ ¬ HasNul target := by
  unfold safeTarget
  simp only [ensure_bind_eq_ok]
  constructor
  · rintro ⟨parts, ⟨hallowed, hdots⟩, -, hnul, -⟩
    exact ⟨hallowed, hdots, hnul⟩
  · rintro ⟨hallowed, hdots, hnul⟩
    refine ⟨_, ⟨hallowed, hdots⟩, fun _ _ _ ↦ h _, hnul, ?_, rfl⟩
    apply root.inside_of_unlinked
    · rwa [PosixPath.parts_lstripSlash]
    · exact fun _ _ _ ↦ h _

theorem installTargets_ok_iff {root : Tree} {items : List Value} :
    (∃ targets, installTargets root items = .ok targets) ↔
      ∀ item ∈ items, ∃ target, text item "target" = some target ∧
        ∃ parts, safeTarget root target = .ok parts := by
  induction items with
  | nil => exact ⟨fun _ _ hmem ↦ absurd hmem List.not_mem_nil, fun _ ↦ ⟨[], rfl⟩⟩
  | cons item rest ih =>
    rw [List.forall_mem_cons, ← ih, installTargets]
    cases text item "target" with
    | none => simp
    | some target =>
      simp only [bind_eq_ok, Option.some.injEq, exists_eq_left']
      constructor
      · rintro ⟨_, parts, hparts, others, hothers, -⟩
        exact ⟨⟨parts, hparts⟩, others, hothers⟩
      · rintro ⟨⟨parts, hparts⟩, others, hothers⟩
        exact ⟨_, parts, hparts, others, hothers, rfl⟩

/-- A component that passes the transaction's check has a target that goes up nowhere. -/
theorem validateComponent_ok {destinations : List String} {item : Value} {normalized : String}
    (h : validateComponent destinations item = .ok normalized) :
    ∃ target, text item "target" = some target ∧ ".." ∉ (PosixPath.ofString target).parts := by
  unfold validateComponent at h
  rw [ensure_bind_eq_ok] at h
  obtain ⟨-, h⟩ := h
  cases hsource : nonempty? item "source" with
  | none => rw [hsource] at h; cases h
  | some source =>
    cases htarget : nonempty? item "target" with
    | none => rw [hsource, htarget] at h; cases h
    | some target =>
      cases hdigest : nonempty? item "sha256" with
      | none => rw [hsource, htarget, hdigest] at h; cases h
      | some digest =>
        rw [hsource, htarget, hdigest] at h
        simp only [ensure_bind_eq_ok] at h
        obtain ⟨-, ⟨-, hdots⟩, -⟩ := h
        exact ⟨target, (Option.filter_eq_some_iff.mp htarget).1, hdots⟩

theorem validateComponents_ok {destinations : List String} {items : List Value}
    (h : validateComponents destinations items = .ok ()) :
    ∀ item ∈ items, ∃ target,
      text item "target" = some target ∧ ".." ∉ (PosixPath.ofString target).parts := by
  induction items generalizing destinations with
  | nil => exact fun _ hmem ↦ absurd hmem List.not_mem_nil
  | cons item rest ih =>
    unfold validateComponents at h
    rw [bind_eq_ok] at h
    obtain ⟨normalized, hitem, hrest⟩ := h
    exact List.forall_mem_cons.mpr ⟨validateComponent_ok hitem, ih hrest⟩

/-- A manifest that passes the transaction's check names a release, and the targets of its files go
up nowhere. -/
theorem validateManifest_ok {manifest : Value} (h : validateManifest manifest = .ok ()) :
    (∃ release, text manifest "release_id" = some release) ∧
      ∀ item ∈ manifestFiles manifest, ∃ target,
        text item "target" = some target ∧ ".." ∉ (PosixPath.ofString target).parts := by
  unfold validateManifest at h
  rw [ensure_bind_eq_ok] at h
  obtain ⟨hfilled, h⟩ := h
  rw [ensure_bind_eq_ok] at h
  obtain ⟨-, h⟩ := h
  rw [bind_eq_ok] at h
  obtain ⟨-, -, h⟩ := h
  rw [bind_eq_ok] at h
  obtain ⟨-, -, h⟩ := h
  obtain ⟨release, hrelease, -⟩ := (Option.any_eq_true _ _).mp hfilled
  refine ⟨⟨release, hrelease⟩, ?_⟩
  unfold manifestFiles
  cases hfiles : (manifest.index "files").asArray with
  | none => rw [hfiles] at h; cases h
  | some items =>
    cases items with
    | nil => rw [hfiles] at h; cases h
    | cons item rest =>
      rw [hfiles] at h
      exact validateComponents_ok h

/-- A manifest that both checks before the drain accept. -/
structure Accepted (bundle : Tree) (file : ManifestFile) (manifest : Value) : Prop where
  verified : verify bundle file = .ok manifest
  valid : validateManifest manifest = .ok ()

/-- What the later steps ask of a manifest that the transaction accepts. -/
theorem acceptedLater_iff_of_valid {manifest : Value} (h : validateManifest manifest = .ok ()) :
    AcceptedLater manifest ↔
      (∀ release, text manifest "release_id" = some release → SafeReleaseId release) ∧
        ∀ item ∈ manifestFiles manifest, ∀ target, text item "target" = some target →
          Allowed target ∧ ¬ HasNul target := by
  obtain ⟨⟨release, hrelease⟩, hitems⟩ := validateManifest_ok h
  unfold AcceptedLater
  constructor
  · rintro ⟨⟨_, hnamed, hsafe⟩, htargets⟩
    constructor
    · intro other hother
      rw [← Option.some.inj (hnamed.symm.trans hother)]
      exact safeRelease_eq_ok.mp hsafe
    · intro item hitem target htarget
      have hslot : emptyTree.Unlinked := fun _ ↦ rfl
      obtain ⟨found, hfound, hparts⟩ :=
        installTargets_ok_iff.mp (htargets emptyTree hslot) item hitem
      rw [← Option.some.inj (hfound.symm.trans htarget)]
      obtain ⟨hallowed, -, hnul⟩ := (safeTarget_ok_iff hslot).mp hparts
      exact ⟨hallowed, hnul⟩
  · rintro ⟨hsafe, htargets⟩
    refine ⟨⟨release, hrelease, safeRelease_eq_ok.mpr (hsafe release hrelease)⟩, ?_⟩
    intro slot hslot
    apply installTargets_ok_iff.mpr
    intro item hitem
    obtain ⟨target, htarget, hdots⟩ := hitems item hitem
    obtain ⟨hallowed, hnul⟩ := htargets item hitem target htarget
    exact ⟨target, htarget, (safeTarget_ok_iff hslot).mpr ⟨hallowed, hdots, hnul⟩⟩

/-- A manifest that passed both checks is taken by the later steps if the release has the form of a
boot entry and every target is allowed as it is written and has no NUL. -/
theorem acceptedLater_iff {bundle : Tree} {file : ManifestFile} {manifest : Value}
    (h : Accepted bundle file manifest) :
    AcceptedLater manifest ↔
      (∀ release, text manifest "release_id" = some release → SafeReleaseId release) ∧
        ∀ item ∈ manifestFiles manifest, ∀ target, text item "target" = some target →
          Allowed target ∧ ¬ HasNul target :=
  acceptedLater_iff_of_valid h.valid

/-! ## A bundle of one file -/

def emptyDigest : String := "e3b0c44298fc1c149afbf4c8996fb92427ae41e4649b934ca495991b7852b855"

def sampleBundle : Tree where
  linked := fun _ ↦ false
  inside := fun _ ↦ true
  digest := fun parts ↦ if parts = ["payload", "000-cameod"] then some emptyDigest else none
  inside_of_unlinked := fun _ _ _ ↦ rfl

/-- Its manifest, with a release and the target of the file. -/
def sampleManifest (release target : String) : Value :=
  .object
    [("compatibility", .object [("id", .string "amd-v1"),
        ("state", .object [("reads", .array [.nat 3, .nat 4]), ("writes", .nat 4)])]),
      ("files", .array [.object [("mode", .string "0755"), ("sha256", .string emptyDigest),
        ("source", .string "payload/000-cameod"), ("target", .string target)]]),
      ("identities", .object (requiredComponentIdentities.map fun name ↦
        (name, .object [("id", .string name)]))),
      ("release_id", .string release),
      ("schema", .string "cameo-update/v1")]

def sampleFile (manifest : Value) : ManifestFile :=
  ⟨"manifest.json", false, true, 1000, .ok manifest⟩

theorem acceptedLater_sample :
    Accepted sampleBundle (sampleFile (sampleManifest "2.0.0" "/usr/local/bin/cameod"))
        (sampleManifest "2.0.0" "/usr/local/bin/cameod") ∧
      AcceptedLater (sampleManifest "2.0.0" "/usr/local/bin/cameod") := by
  have h : Accepted sampleBundle (sampleFile (sampleManifest "2.0.0" "/usr/local/bin/cameod"))
      (sampleManifest "2.0.0" "/usr/local/bin/cameod") :=
    ⟨by decide +kernel, by decide +kernel⟩
  refine ⟨h, (acceptedLater_iff h).mpr ⟨?_, ?_⟩⟩
  · rintro release heq
    obtain rfl := Option.some.inj heq
    decide
  · intro item hitem target htarget
    obtain rfl := List.mem_singleton.mp hitem
    obtain rfl := Option.some.inj htarget
    decide +kernel

/-- A release with a space and a target with a doubled slash pass both checks, and are refused when
the slot has been written to. -/
theorem not_acceptedLater_spelling :
    (Accepted sampleBundle (sampleFile (sampleManifest "2.0.0 beta" "/usr/local/bin/cameod"))
        (sampleManifest "2.0.0 beta" "/usr/local/bin/cameod") ∧
      ¬ AcceptedLater (sampleManifest "2.0.0 beta" "/usr/local/bin/cameod")) ∧
    Accepted sampleBundle (sampleFile (sampleManifest "2.0.0" "/usr//local/bin/cameod"))
        (sampleManifest "2.0.0" "/usr//local/bin/cameod") ∧
      ¬ AcceptedLater (sampleManifest "2.0.0" "/usr//local/bin/cameod") := by
  refine ⟨⟨⟨by decide +kernel, by decide +kernel⟩, ?_⟩, ⟨by decide +kernel, by decide +kernel⟩, ?_⟩
  · rintro ⟨⟨release, hrelease, hsafe⟩, -⟩
    obtain rfl := Option.some.inj hrelease
    have hform := safeRelease_eq_ok.mp hsafe
    revert hform
    decide
  · rintro ⟨-, htargets⟩
    obtain ⟨targets, hok⟩ := htargets emptyTree fun _ ↦ rfl
    have hnone : (installTargets emptyTree
        (manifestFiles (sampleManifest "2.0.0" "/usr//local/bin/cameod"))).toOption = none := by
      decide +kernel
    rw [hok] at hnone
    cases hnone

end Cameo.Update
