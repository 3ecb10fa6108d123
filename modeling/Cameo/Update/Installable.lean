import Cameo.Update.Readers

/-!
# When a bundle can be installed

The size of the manifest is a sum over what the builder is given.  The readers take a bundle that is
built exactly if this sum is within their limit and no target has a NUL.
-/

namespace Cameo.Update

open Json Library

/-! ## The size of the manifest -/

def decimalSize (n : ℕ) : ℕ := (Nat.toDigits 10 n).length

/-- The digits of the number in a payload name. -/
def indexSize (index : ℕ) : ℕ := max 3 (decimalSize index)

/-- What a component adds to the manifest, its number and the comma after it apart. -/
def componentSize (name target : String) : ℕ :=
  122 + (safeName name).length + asciiStringSize target

/-- What an identity adds to the manifest, the comma after it apart. -/
def identitySize (identity : ComponentIdentity) : ℕ :=
  8 + asciiStringSize identity.name + asciiStringSize identity.id +
    if identity.digest.isSome then 76 else 0

def givenIdentities (input : BuildInput) : List ComponentIdentity :=
  (validateComponentIdentities input.identities).toOption.getD []

/-- The bytes of the manifest that is built from an input. -/
def manifestBytes (input : BuildInput) : ℕ :=
  136 + asciiStringSize input.compatibilityId + input.releaseId.length +
    decimalSize input.stateWrites.toNat +
    (((sortedReads input.stateReads).map decimalSize).sum +
      ((sortedReads input.stateReads).length - 1)) +
    ((givenIdentities input).map identitySize).sum +
    ((input.components.map fun given ↦
        componentSize given.name (PosixPath.ofString given.target).toString).sum +
      ((List.range input.components.length).map indexSize).sum + (input.components.length - 1))

/-- Letters, digits, dots, underscores and hyphens are not escaped. -/
theorem asciiCharSize_of_safe {c : Char} (h : c.isAlphanum = true ∨ c ∈ ['.', '_', '-']) :
    asciiCharSize c = 1 := by
  rcases h with halpha | hmark
  · have hrange := toNat_of_isAlphanum halpha
    unfold asciiCharSize
    rw [if_neg (by simp; omega), if_pos (by omega)]
  · have hall : ∀ c ∈ ['.', '_', '-'], asciiCharSize c = 1 :=
      List.all_iff_forall_prop.mp (by decide)
    exact hall c hmark

theorem asciiStringSize_release {release : String} (h : SafeReleaseId release) :
    asciiStringSize release = release.length + 2 := by
  apply asciiStringSize_of_plain
  intro c hc
  apply asciiCharSize_of_safe
  unfold SafeReleaseId at h
  cases hrelease : release.toList with
  | nil =>
    rw [hrelease] at hc
    cases hc
  | cons first rest =>
    rw [hrelease] at h hc
    rcases List.mem_cons.mp hc with rfl | hrest
    · exact .inl h.1
    · exact h.2.2 c hrest

theorem asciiStringSize_digest {digest : String} (h : IsLowerDigest digest) :
    asciiStringSize digest = 66 := by
  have hall : ∀ c ∈ "0123456789abcdef".toList, asciiCharSize c = 1 :=
    List.all_iff_forall_prop.mp (by decide)
  rw [asciiStringSize_of_plain fun c hc ↦ hall c (h.2 c hc), h.1]

theorem asciiStringSize_source (entry : PreparedFile × ℕ) :
    asciiStringSize ("payload/" ++ payloadName entry.2 entry.1.name) =
      indexSize entry.2 + (safeName entry.1.name).length + 11 := by
  rw [asciiStringSize_of_plain]
  · rw [String.length_append, ← @String.length_toList (payloadName _ _), toList_payloadName,
      List.length_append, List.length_cons, List.length_leftpad, String.length_toList]
    have hlead : "payload/".length = 8 := rfl
    unfold indexSize decimalSize
    omega
  · intro c hc
    rw [String.toList_append, List.mem_append] at hc
    rcases hc with hlead | hname
    · have hall : ∀ c ∈ "payload/".toList, asciiCharSize c = 1 :=
        List.all_iff_forall_prop.mp (by decide)
      exact hall c hlead
    · exact asciiCharSize_of_safe (mem_payloadName hname)

theorem asciiStringSize_mode {mode : ℕ} (h : SafeMode mode) :
    asciiStringSize (String.ofList (List.leftpad 4 '0' (Nat.toDigits 8 mode))) = 6 := by
  obtain ⟨hlength, hdigits, -⟩ := modeText h
  rw [asciiStringSize_of_plain, String.length_ofList, hlength]
  intro c hc
  rw [String.toList_ofList] at hc
  exact asciiCharSize_of_safe (.inl (by simp [Char.isAlphanum, hdigits c hc]))

/-- What the entry of a component adds. -/
theorem dumpsSize_manifestEntry {entry : PreparedFile × ℕ} (h : entry.1.Ready) :
    dumpsSize (manifestEntry entry) =
      componentSize entry.1.name entry.1.target + indexSize entry.2 := by
  have hmode : asciiStringSize "mode" = 6 := by decide
  have hsha : asciiStringSize "sha256" = 8 := by decide
  have hsource : asciiStringSize "source" = 8 := by decide
  have htarget : asciiStringSize "target" = 8 := by decide
  unfold manifestEntry
  simp only [dumpsSize, dumpsFieldsSize, hmode, hsha, hsource, htarget,
    asciiStringSize_mode h.mode, asciiStringSize_source,
    asciiStringSize_digest entry.1.digest.lower, componentSize]
  omega

theorem dumpsSize_identityValue {identity : ComponentIdentity}
    (h : ∀ digest, identity.digest = some digest → IsLowerDigest digest) :
    asciiStringSize identity.name + 1 + dumpsSize (identityValue identity) =
      identitySize identity := by
  have hid : asciiStringSize "id" = 4 := by decide
  have hdigest : asciiStringSize "digest" = 8 := by decide
  unfold identityValue identitySize
  cases hcase : identity.digest with
  | none =>
    simp only [dumpsSize, dumpsFieldsSize, hid, Option.isSome, Bool.false_eq_true, if_false]
    omega
  | some digest =>
    simp only [dumpsSize, dumpsFieldsSize, hid, hdigest, asciiStringSize_digest (h digest hcase),
      Option.isSome, if_true]
    omega

/-- Normalizing a target neither adds nor drops a NUL. -/
theorem hasNul_toString_ofString (text : String) :
    HasNul (PosixPath.ofString text).toString ↔ HasNul text := by
  have hread := PosixPath.ofString_toString (PosixPath.wellFormed_ofString text)
  unfold HasNul
  rw [← PosixPath.mem_parts_iff (by decide) (by decide),
    ← PosixPath.mem_parts_iff (by decide) (by decide), hread]

namespace Checked

variable {input : BuildInput} {identities : List ComponentIdentity} {prepared : List PreparedFile}

theorem givenIdentities_eq (h : Checked input identities prepared) :
    givenIdentities input = identities := by
  rw [givenIdentities, h.identities]
  rfl

/-- The identities in the manifest. -/
theorem dumpsSize_identities (h : Checked input identities prepared) :
    dumpsSize (identitiesValue identities) = (identities.map identitySize).sum + 11 := by
  obtain ⟨hnames, hall⟩ := validateComponentIdentities_ok h.identities
  have hperm := perm_identitiesFields identities
  have hlength : identities.length = 10 := by
    have hcount := congrArg List.length hnames
    rwa [List.length_map] at hcount
  unfold identitiesValue
  rw [dumpsSize, dumpsFieldsSize_eq, (hperm.map _).sum_eq, hperm.length_eq, List.map_map,
    List.length_map, hlength]
  have hsizes : identities.map ((fun field ↦ asciiStringSize field.1 + 1 + dumpsSize field.2) ∘
      fun identity ↦ (identity.name, identityValue identity)) = identities.map identitySize :=
    List.map_congr_left fun identity hidentity ↦
      dumpsSize_identityValue (hall identity hidentity).2
  rw [hsizes]

/-- The components in the manifest. -/
theorem dumpsSize_files (h : Checked input identities prepared) :
    dumpsItemsSize ((ordered prepared).map manifestEntry) =
      (input.components.map fun given ↦
        componentSize given.name (PosixPath.ofString given.target).toString).sum +
      ((List.range input.components.length).map indexSize).sum + (input.components.length - 1) := by
  have hgiven := (prepareComponents_ok h.prepared).2.2.2
  have hperm := perm_ordered prepared
  have hlength : prepared.length = input.components.length := by
    have hcount := congrArg List.length hgiven
    rwa [List.length_map, List.length_map] at hcount
  have hentries : ((ordered prepared).map manifestEntry).map dumpsSize =
      (ordered prepared).map fun entry ↦
        componentSize entry.1.name entry.1.target + indexSize entry.2 := by
    rw [List.map_map]
    exact List.map_congr_left fun entry hentry ↦ dumpsSize_manifestEntry (h.ready entry hentry)
  have hcomponents : ((ordered prepared).map fun entry ↦
      componentSize entry.1.name entry.1.target).sum = (input.components.map fun given ↦
        componentSize given.name (PosixPath.ofString given.target).toString).sum := by
    have hsame := congrArg (List.map fun pair : String × String ↦ componentSize pair.2 pair.1)
      hgiven
    rw [List.map_map, List.map_map] at hsame
    have hsum := (hperm.map fun item ↦ componentSize item.name item.target).sum_eq
    rw [List.map_map] at hsum
    exact hsum.trans (congrArg List.sum hsame)
  have hcount : (ordered prepared).length = input.components.length := by
    rw [← hlength, ← hperm.length_eq, List.length_map]
  have hindices : ((ordered prepared).map fun entry ↦ indexSize entry.2).sum =
      ((List.range input.components.length).map indexSize).sum := by
    have hpositions : (ordered prepared).map Prod.snd = List.range input.components.length := by
      unfold ordered at hcount ⊢
      rw [List.length_zipIdx] at hcount
      rw [List.zipIdx_map_snd, hcount, List.range_eq_range']
    rw [← hpositions, List.map_map]
    rfl
  rw [dumpsItemsSize_eq, hentries, List.sum_map_add, hcomponents, hindices, List.length_map, hcount]

/-- The bytes of the manifest, from the input. -/
theorem canonicalSize_eq (h : Checked input identities prepared) :
    canonicalSize h.bundle.manifest = manifestBytes input := by
  have hcompatibility : asciiStringSize "compatibility" = 15 := by decide
  have hid : asciiStringSize "id" = 4 := by decide
  have hstate : asciiStringSize "state" = 7 := by decide
  have hreads : asciiStringSize "reads" = 7 := by decide
  have hwrites : asciiStringSize "writes" = 8 := by decide
  have hfiles : asciiStringSize "files" = 7 := by decide
  have hidentities : asciiStringSize "identities" = 12 := by decide
  have hrelease : asciiStringSize "release_id" = 12 := by decide
  have hschema : asciiStringSize "schema" = 8 := by decide
  have hvalue : asciiStringSize updateSchema = 17 := by decide
  have hnumber (n : ℕ) : dumpsSize (.nat n) = decimalSize n := rfl
  have hversions : dumpsItemsSize ((sortedReads input.stateReads).map .nat) =
      ((sortedReads input.stateReads).map decimalSize).sum +
        ((sortedReads input.stateReads).length - 1) := by
    rw [dumpsItemsSize_eq, List.map_map, List.length_map]
    rfl
  unfold canonicalSize manifestBytes
  rw [h.givenIdentities_eq, ← h.dumpsSize_files]
  unfold bundle builtManifest
  simp only [dumpsSize, dumpsFieldsSize, hcompatibility, hid, hstate, hreads, hwrites, hfiles,
    hidentities, hrelease, hschema, hvalue, hnumber, hversions, h.dumpsSize_identities,
    asciiStringSize_release h.release]
  omega

/-- No target in the manifest has a NUL exactly when no given one has. -/
theorem noNul_iff (h : Checked input identities prepared) :
    (∀ entry ∈ ordered prepared, ¬ HasNul entry.1.target) ↔
      ∀ given ∈ input.components, ¬ HasNul given.target := by
  have hgiven := congrArg (List.map Prod.fst) (prepareComponents_ok h.prepared).2.2.2
  rw [List.map_map, List.map_map] at hgiven
  have htargets : (∀ target ∈ prepared.map PreparedFile.target, ¬ HasNul target) ↔
      ∀ given ∈ input.components, ¬ HasNul given.target := by
    rw [show prepared.map PreparedFile.target = _ from hgiven, List.forall_mem_map]
    exact forall₂_congr fun given _ ↦ not_congr (hasNul_toString_ofString given.target)
  rw [← htargets, List.forall_mem_map]
  constructor
  · intro hall item hitem
    obtain ⟨entry, hentry, rfl⟩ := List.mem_map.mp ((perm_ordered prepared).mem_iff.mpr hitem)
    exact hall entry hentry
  · intro hall entry hentry
    exact hall entry.1 ((perm_ordered prepared).mem_iff.mp (List.mem_map.mpr ⟨entry, hentry, rfl⟩))

/-- The later steps take the manifest if no target has a NUL. -/
theorem acceptedLater (h : Checked input identities prepared) :
    AcceptedLater h.bundle.manifest ↔ ∀ given ∈ input.components, ¬ HasNul given.target := by
  rw [acceptedLater_iff_of_valid h.valid, ← h.noNul_iff, h.manifestFiles_eq, List.forall_mem_map]
  constructor
  · rintro ⟨-, htargets⟩ entry hentry
    exact (htargets entry hentry _ (text_target entry)).2
  · intro hnul
    refine ⟨fun release hrelease ↦ ?_, fun entry hentry target htarget ↦ ?_⟩
    · rw [← Option.some.inj (h.text_release.symm.trans hrelease)]
      exact h.release
    · rw [← Option.some.inj ((text_target entry).symm.trans htarget)]
      exact ⟨(h.ready entry hentry).allowed, hnul entry hentry⟩

/-- Both checks before the drain accept the bundle if its manifest is small enough. -/
theorem accepted (h : Checked input identities prepared) :
    Accepted h.bundle.tree h.bundle.file h.bundle.manifest ↔
      canonicalSize h.bundle.manifest ≤ maxManifest := by
  rw [← h.load_iff]
  constructor
  · rintro ⟨hverified, -⟩
    unfold verify at hverified
    rw [bind_eq_ok] at hverified
    obtain ⟨manifest, hload, hverified⟩ := hverified
    rw [bind_eq_ok] at hverified
    obtain ⟨-, -, hmanifest⟩ := hverified
    cases hmanifest
    exact hload
  · intro hload
    obtain ⟨components, hentries⟩ := entries_manifestEntries h.ready h.digest_payload
      h.nodup_targets fun _ _ ↦ List.not_mem_nil
    refine ⟨?_, h.valid⟩
    unfold verify
    rw [hload, bind_eq_ok]
    refine ⟨_, rfl, ?_⟩
    rw [h.manifestFiles_eq, hentries]
    rfl

end Checked

/-- A bundle that is built is taken by every reader if its manifest is small enough and no target
has a NUL. -/
theorem installable_iff {input : BuildInput} {bundle : Bundle}
    (h : buildBundle input = .ok bundle) :
    Installable bundle ↔ manifestBytes input ≤ maxManifest ∧
      ∀ given ∈ input.components, ¬ HasNul given.target := by
  obtain ⟨identities, prepared, hchecked, rfl⟩ := buildBundle_ok h
  rw [← hchecked.canonicalSize_eq]
  constructor
  · rintro ⟨haccepted, -, hlater⟩
    exact ⟨hchecked.accepted.mp haccepted, hchecked.acceptedLater.mp hlater⟩
  · rintro ⟨hsize, hnul⟩
    exact ⟨hchecked.accepted.mpr hsize, hchecked.loadJsonFile_iff.mpr hsize,
      hchecked.acceptedLater.mpr hnul⟩

/-! ## Bundles of one file -/

def sampleComponent (target : String) : GivenComponent where
  source := "target/release/cameod"
  linked := false
  regular := true
  name := "cameod"
  digest := ⟨emptyDigest, by decide⟩
  target := target
  mode := 0o755

def sampleInput (compatibilityId target : String) : BuildInput where
  output := "/tmp/cameo-2.0.0"
  staging := "/tmp/.cameo-2.0.0.next-1"
  outputExists := false
  stagingExists := false
  releaseId := "2.0.0"
  compatibilityId := compatibilityId
  stateWrites := 4
  stateReads := [3, 4]
  identities := .object (requiredComponentIdentities.map fun name ↦
    (name, .object [("id", .string name)]))
  components := [sampleComponent target]

/-- The sample is built with any identity of the installation and any target that is allowed. -/
theorem buildBundle_sample {compatibilityId target normalized : String}
    (hcompatibility : stripsEmpty compatibilityId = false)
    (htarget : normalizeTarget target = .ok normalized) :
    ∃ identities prepared, ∃ h : Checked (sampleInput compatibilityId target) identities prepared,
      buildBundle (sampleInput compatibilityId target) = .ok h.bundle := by
  have hidentities : (validateComponentIdentities (sampleInput "" "").identities).toOption.isSome =
      true := by decide +kernel
  cases hcase : validateComponentIdentities (sampleInput "" "").identities with
  | error e =>
    rw [hcase] at hidentities
    cases hidentities
  | ok identities =>
    have hone : prepareComponent [] (sampleComponent target) =
        .ok ⟨normalized, "cameod", ⟨emptyDigest, by decide⟩, 0o755⟩ := by
      unfold prepareComponent
      rw [ensure_bind_eq_ok]
      refine ⟨rfl, ?_⟩
      rw [ensure_bind_eq_ok]
      refine ⟨rfl, ?_⟩
      rw [bind_eq_ok]
      refine ⟨normalized, htarget, ?_⟩
      rw [ensure_bind_eq_ok]
      refine ⟨List.not_mem_nil, ?_⟩
      rw [ensure_bind_eq_ok]
      exact ⟨show SafeMode 0o755 by decide, rfl⟩
    have h : Checked (sampleInput compatibilityId target) identities
        [⟨normalized, "cameod", ⟨emptyDigest, by decide⟩, 0o755⟩] := by
      refine ⟨show SafeReleaseId "2.0.0" by decide, hcompatibility,
        show (4 : ℤ) ∈ [3, 4] by decide, show ∀ item ∈ [(3 : ℤ), 4], 1 ≤ item by decide,
        List.cons_ne_nil _ _, hcase, ?_⟩
      rw [show (sampleInput compatibilityId target).components = [sampleComponent target] from rfl,
        prepareComponents, hone]
      rfl
    refine ⟨identities, _, h, h.buildBundle_eq rfl rfl ?_⟩
    exact show ∀ item ∈ [(3 : ℤ), 4], (Nat.toDigits 10 item.toNat).length ≤ maxIntDigits by decide

theorem installable_sample :
    ∃ bundle, buildBundle (sampleInput "amd-v1" "/usr/local/bin/cameod") = .ok bundle ∧
      Installable bundle := by
  have htarget : normalizeTarget "/usr/local/bin/cameod" = .ok "/usr/local/bin/cameod" := by
    decide +kernel
  have hcompatibility : stripsEmpty "amd-v1" = false := by decide
  obtain ⟨identities, prepared, h, hbuilt⟩ := buildBundle_sample hcompatibility htarget
  exact ⟨_, hbuilt, (installable_iff hbuilt).mpr ⟨by decide +kernel, by decide⟩⟩

theorem compatibility_le_manifestBytes (input : BuildInput) :
    asciiStringSize input.compatibilityId ≤ manifestBytes input := by
  unfold manifestBytes
  omega

/-- An identity of the installation of a mebibyte makes a manifest that no reader takes, and a NUL
in a target one that fails when the slot is written. -/
theorem not_installable_large :
    (∃ bundle, buildBundle (sampleInput (String.ofList (List.replicate maxManifest 'a'))
        "/usr/local/bin/cameod") = .ok bundle ∧ ¬ Installable bundle) ∧
      ∃ bundle, buildBundle (sampleInput "amd-v1"
        ("/usr/local/bin/cameod" ++ String.singleton (Char.ofNat 0))) = .ok bundle ∧
          ¬ Installable bundle := by
  constructor
  · have htarget : normalizeTarget "/usr/local/bin/cameod" = .ok "/usr/local/bin/cameod" := by
      decide +kernel
    have hcompatibility : stripsEmpty (String.ofList (List.replicate maxManifest 'a')) = false := by
      unfold stripsEmpty
      rw [String.toList_ofList]
      exact List.all_eq_false.mpr ⟨'a', List.mem_replicate.mpr ⟨by decide, rfl⟩, by decide⟩
    obtain ⟨identities, prepared, h, hbuilt⟩ := buildBundle_sample hcompatibility htarget
    refine ⟨_, hbuilt, fun hinstallable ↦ ?_⟩
    have hsize := h.accepted.mp hinstallable.accepted
    have hlarge : asciiStringSize (String.ofList (List.replicate maxManifest 'a')) =
        maxManifest + 2 := asciiStringSize_replicate (by decide) maxManifest
    have hle := compatibility_le_manifestBytes (sampleInput
      (String.ofList (List.replicate maxManifest 'a')) "/usr/local/bin/cameod")
    rw [h.canonicalSize_eq] at hsize
    exact absurd (hlarge.symm.trans_le (hle.trans hsize)) (by omega)
  · have htarget : normalizeTarget ("/usr/local/bin/cameod" ++ String.singleton (Char.ofNat 0)) =
        .ok ("/usr/local/bin/cameod" ++ String.singleton (Char.ofNat 0)) := by decide +kernel
    have hcompatibility : stripsEmpty "amd-v1" = false := by decide
    obtain ⟨identities, prepared, h, hbuilt⟩ := buildBundle_sample hcompatibility htarget
    refine ⟨_, hbuilt, fun hinstallable ↦ ?_⟩
    have hnul := h.acceptedLater.mp hinstallable.later (sampleComponent _) List.mem_cons_self
    exact hnul (by decide)

end Cameo.Update
