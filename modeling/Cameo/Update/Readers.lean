import Cameo.Update.Builder
import Mathlib.Data.Bool.AllAny

/-!
# Bundles before their readers

Every entry that the builder writes passes the check of the transaction and, with its file in the
bundle, that of the verifier; what it has checked of the release, the identities and the schemas is
what the readers ask for.  The bundle of a successful build is therefore read but for the size of
its manifest, and its targets are taken but for a NUL.
-/

namespace Cameo.Update

open Json Library

/-! ## What the builder has checked -/

/-- What holds of a component that is ready to be copied. -/
structure PreparedFile.Ready (prepared : PreparedFile) : Prop where
  absolute : (PosixPath.ofString prepared.target).isAbsolute = true
  dots : ".." ∉ (PosixPath.ofString prepared.target).parts
  printed : (PosixPath.ofString prepared.target).toString = prepared.target
  allowed : Allowed prepared.target
  mode : SafeMode prepared.mode

theorem prepareComponent_ok {seen : List String} {given : GivenComponent} {prepared : PreparedFile}
    (h : prepareComponent seen given = .ok prepared) :
    prepared.Ready ∧ prepared.target ∉ seen ∧
      prepared.target = (PosixPath.ofString given.target).toString ∧
      prepared.name = given.name := by
  unfold prepareComponent at h
  rw [ensure_bind_eq_ok] at h
  obtain ⟨-, h⟩ := h
  rw [ensure_bind_eq_ok] at h
  obtain ⟨-, h⟩ := h
  rw [bind_eq_ok] at h
  obtain ⟨target, htarget, h⟩ := h
  rw [ensure_bind_eq_ok] at h
  obtain ⟨hnew, h⟩ := h
  rw [ensure_bind_eq_ok] at h
  obtain ⟨hmode, h⟩ := h
  cases h
  unfold normalizeTarget at htarget
  rw [ensure_bind_eq_ok] at htarget
  obtain ⟨⟨habsolute, hdots⟩, htarget⟩ := htarget
  rw [ensure_bind_eq_ok] at htarget
  obtain ⟨hallowed, htarget⟩ := htarget
  cases htarget
  have hread := PosixPath.ofString_toString (PosixPath.wellFormed_ofString given.target)
  refine ⟨⟨?_, ?_, ?_, hallowed, ?_⟩, hnew, rfl, rfl⟩
  · rw [hread]
    exact habsolute
  · rw [hread]
    exact hdots
  · rw [hread]
  · rwa [Int.toNat_of_nonneg hmode.1]

/-- The components are ready, their targets differ, and they stand for what was given. -/
theorem prepareComponents_ok {seen : List String} {given : List GivenComponent}
    {prepared : List PreparedFile} (h : prepareComponents seen given = .ok prepared) :
    (∀ item ∈ prepared, item.Ready) ∧ (prepared.map PreparedFile.target).Nodup ∧
      (∀ item ∈ prepared, item.target ∉ seen) ∧
      prepared.map (fun item ↦ (item.target, item.name)) =
        given.map fun item ↦ ((PosixPath.ofString item.target).toString, item.name) := by
  induction given generalizing seen prepared with
  | nil =>
    cases h
    exact ⟨nofun, List.nodup_nil, nofun, rfl⟩
  | cons first rest ih =>
    unfold prepareComponents at h
    rw [bind_eq_ok] at h
    obtain ⟨one, hone, h⟩ := h
    rw [bind_eq_ok] at h
    obtain ⟨others, hothers, h⟩ := h
    cases h
    obtain ⟨hready, hnew, htarget, hname⟩ := prepareComponent_ok hone
    obtain ⟨hall, hnodup, hfresh, hmap⟩ := ih hothers
    refine ⟨List.forall_mem_cons.mpr ⟨hready, hall⟩, ?_, ?_, ?_⟩
    · refine List.nodup_cons.mpr ⟨fun hmem ↦ ?_, hnodup⟩
      obtain ⟨item, hitem, heq⟩ := List.mem_map.mp hmem
      exact hfresh item hitem (heq ▸ List.mem_cons_self)
    · exact List.forall_mem_cons.mpr
        ⟨hnew, fun item hitem hmem ↦ hfresh item hitem (List.mem_cons_of_mem _ hmem)⟩
    · rw [List.map_cons, List.map_cons, hmap, htarget, hname]

/-! ## The checks of the readers -/

/-- A digest in lower case is one, and stays as it is in lower case. -/
theorem isDigest_of_lower {digest : String} (h : IsLowerDigest digest) :
    IsDigest digest ∧ digest.toList.map asciiLower = digest.toList := by
  have hlower : ∀ c ∈ digest.toList, asciiLower c = c := by
    have hall : ∀ c ∈ "0123456789abcdef".toList, asciiLower c = c :=
      List.all_iff_forall_prop.mp (by decide)
    exact fun c hc ↦ hall c (h.2 c hc)
  refine ⟨⟨h.1, fun c hc ↦ ?_⟩, (List.map_congr_left hlower).trans (List.map_id _)⟩
  rw [hlower c hc]
  exact h.2 c hc

/-- The fields of an entry are there, and its mode is read. -/
theorem manifestEntry_fields {entry : PreparedFile × ℕ} (h : entry.1.Ready) :
    nonempty? (manifestEntry entry) "source" =
        some ("payload/" ++ payloadName entry.2 entry.1.name) ∧
      nonempty? (manifestEntry entry) "target" = some entry.1.target ∧
      nonempty? (manifestEntry entry) "sha256" = some entry.1.digest.text ∧
      mode? (manifestEntry entry) = some (entry.1.mode : ℤ) := by
  have htarget : entry.1.target ≠ "" := by
    intro heq
    have habsolute := h.absolute
    rw [heq] at habsolute
    exact absurd habsolute (by decide)
  have hdigest : entry.1.digest.text ≠ "" := by
    intro heq
    have hlength := entry.1.digest.lower.1
    rw [heq] at hlength
    cases hlength
  refine ⟨?_, ?_, ?_, ?_⟩
  · simp [nonempty?, text, manifestEntry, Value.get?, Value.asStr]
  · simp [nonempty?, text, manifestEntry, Value.get?, Value.asStr, htarget]
  · simp [nonempty?, text, manifestEntry, Value.get?, Value.asStr, hdigest]
  · have hmode := (modeText h.mode).2.2
    unfold manifestEntry
    generalize String.ofList (List.leftpad 4 '0' (Nat.toDigits 8 entry.1.mode)) = digits at hmode ⊢
    simp [mode?, Value.get?, hmode]

/-- The path of a payload file goes up nowhere. -/
theorem dots_not_mem_payloadFile (entry : PreparedFile × ℕ) : ".." ∉ (payloadFile entry).path := by
  intro hmem
  rcases List.mem_cons.mp hmem with heq | hname
  · exact absurd heq (by decide)
  · have hdash : '-' ∈ (payloadName entry.2 entry.1.name).toList := by
      rw [toList_payloadName]
      exact List.mem_append_right _ List.mem_cons_self
    rw [← List.mem_singleton.mp hname] at hdash
    exact absurd hdash (by decide)

/-- The transaction takes the entry of a component whose target is new. -/
theorem validateComponent_manifestEntry {entry : PreparedFile × ℕ} (h : entry.1.Ready)
    {destinations : List String} (hnew : entry.1.target ∉ destinations) :
    validateComponent destinations (manifestEntry entry) = .ok entry.1.target := by
  obtain ⟨hsource, htarget, hdigest, hmode⟩ := manifestEntry_fields h
  unfold validateComponent
  rw [hsource, htarget, hdigest, hmode]
  simp only [ensure_bind_eq_ok, ofString_source, h.printed]
  exact ⟨rfl, ⟨rfl, dots_not_mem_payloadFile entry⟩, ⟨h.absolute, h.dots⟩, hnew,
    (isDigest_of_lower entry.1.digest.lower).1, h.mode, trivial⟩

/-- The verifier takes the entry of a component whose target is new and whose file is in the
bundle. -/
theorem bundleEntry_manifestEntry {bundle : Bundle} {entry : PreparedFile × ℕ} (h : entry.1.Ready)
    (hfile : bundle.tree.digest (payloadFile entry).path = some entry.1.digest.text)
    {seen : List String} (hnew : entry.1.target ∉ seen) :
    ∃ component, bundleEntry bundle.tree seen (manifestEntry entry) =
      .ok (entry.1.target, component) := by
  obtain ⟨hsource, htarget, hdigest, hmode⟩ := manifestEntry_fields h
  have hnormal : normpath entry.1.target = entry.1.target :=
    (PosixPath.normpath_eq h.dots).trans h.printed
  have hnul : ¬ HasNul ("payload/" ++ payloadName entry.2 entry.1.name) := by
    intro hmem
    unfold HasNul at hmem
    rw [String.toList_append, List.mem_append] at hmem
    rcases hmem with hlead | hname
    · exact absurd hlead (by decide)
    · exact absurd (mem_payloadName hname) (by decide)
  obtain ⟨⟨hlength, -⟩, hlower⟩ := isDigest_of_lower entry.1.digest.lower
  refine ⟨⟨(payloadFile entry).path, .ofString entry.1.target, entry.1.mode⟩, ?_⟩
  unfold bundleEntry
  rw [hsource, htarget, hdigest, hmode]
  simp only [ensure_bind_eq_ok, ofString_source, hnormal, hfile]
  exact ⟨rfl, ⟨rfl, dots_not_mem_payloadFile entry⟩, ⟨h.allowed, hnew⟩, fun _ _ _ ↦ rfl, hnul, rfl,
    ⟨hlength, hlower.symm⟩, h.mode, trivial⟩

/-- The transaction takes entries with different targets. -/
theorem validateComponents_manifestEntries {prepared : List (PreparedFile × ℕ)}
    (hready : ∀ entry ∈ prepared, entry.1.Ready)
    (hnodup : (prepared.map fun entry ↦ entry.1.target).Nodup) {destinations : List String}
    (hnew : ∀ entry ∈ prepared, entry.1.target ∉ destinations) :
    validateComponents destinations (prepared.map manifestEntry) = .ok () := by
  induction prepared generalizing destinations with
  | nil => rfl
  | cons entry rest ih =>
    obtain ⟨hentry, hrest⟩ := List.forall_mem_cons.mp hready
    obtain ⟨hfresh, hfreshRest⟩ := List.forall_mem_cons.mp hnew
    obtain ⟨hnot, hnodupRest⟩ := List.nodup_cons.mp hnodup
    rw [List.map_cons, validateComponents, bind_eq_ok]
    refine ⟨_, validateComponent_manifestEntry hentry hfresh, ih hrest hnodupRest ?_⟩
    intro other hother hmem
    rcases List.mem_cons.mp hmem with heq | hold
    · exact hnot (List.mem_map.mpr ⟨other, hother, heq⟩)
    · exact hfreshRest other hother hold

/-- The verifier takes entries with different targets whose files are in the bundle. -/
theorem entries_manifestEntries {bundle : Bundle} {prepared : List (PreparedFile × ℕ)}
    (hready : ∀ entry ∈ prepared, entry.1.Ready)
    (hfiles : ∀ entry ∈ prepared,
      bundle.tree.digest (payloadFile entry).path = some entry.1.digest.text)
    (hnodup : (prepared.map fun entry ↦ entry.1.target).Nodup) {seen : List String}
    (hnew : ∀ entry ∈ prepared, entry.1.target ∉ seen) :
    ∃ components, entries bundle.tree seen (prepared.map manifestEntry) = .ok components := by
  induction prepared generalizing seen with
  | nil => exact ⟨[], rfl⟩
  | cons entry rest ih =>
    obtain ⟨hentry, hrest⟩ := List.forall_mem_cons.mp hready
    obtain ⟨hfile, hfilesRest⟩ := List.forall_mem_cons.mp hfiles
    obtain ⟨hfresh, hfreshRest⟩ := List.forall_mem_cons.mp hnew
    obtain ⟨hnot, hnodupRest⟩ := List.nodup_cons.mp hnodup
    obtain ⟨component, hcomponent⟩ := bundleEntry_manifestEntry hentry hfile hfresh
    have hnext : ∀ other ∈ rest, other.1.target ∉ entry.1.target :: seen := by
      intro other hother hmem
      rcases List.mem_cons.mp hmem with heq | hold
      · exact hnot (List.mem_map.mpr ⟨other, hother, heq⟩)
      · exact hfreshRest other hother hold
    obtain ⟨components, hcomponents⟩ := ih hrest hfilesRest hnodupRest hnext
    refine ⟨component :: components, ?_⟩
    rw [List.map_cons, entries, bind_eq_ok]
    refine ⟨_, hcomponent, ?_⟩
    dsimp only
    rw [bind_eq_ok]
    exact ⟨components, hcomponents, rfl⟩

/-! ## Identities -/

/-- What is left of a text that is not blank is not blank. -/
theorem stripsEmpty_strip {text : String} (h : stripsEmpty text = false) :
    stripsEmpty (String.ofList (strip text.toList)) = false := by
  have hkept {chars : List Char} {c : Char} (hmem : c ∈ chars) (hc : isSpace c = false) :
      c ∈ chars.dropWhile isSpace := by
    rw [← List.takeWhile_append_dropWhile (p := isSpace) (l := chars), List.mem_append] at hmem
    rcases hmem with htaken | hdropped
    · rw [List.all_eq_true.mp List.all_takeWhile c htaken] at hc
      cases hc
    · exact hdropped
  unfold stripsEmpty at h ⊢
  obtain ⟨c, hmem, hc⟩ := List.all_eq_false.mp h
  rw [Bool.not_eq_true] at hc
  rw [String.toList_ofList]
  refine List.all_eq_false.mpr ⟨c, ?_, by rw [hc]; simp⟩
  unfold strip
  exact List.mem_reverse.mpr (hkept (List.mem_reverse.mpr (hkept hmem hc)) hc)

theorem isLowerDigest_map {digest : String} (h : IsDigest digest) :
    IsLowerDigest (String.ofList (digest.toList.map asciiLower)) := by
  refine ⟨?_, fun c hc ↦ ?_⟩
  · rw [String.length_ofList, List.length_map, String.length_toList, h.1]
  · rw [String.toList_ofList] at hc
    obtain ⟨other, hother, rfl⟩ := List.mem_map.mp hc
    exact h.2 other hother

theorem isSpace_of_isAlphanum {c : Char} (h : c.isAlphanum = true) : isSpace c = false := by
  have hrange := toNat_of_isAlphanum h
  simp [isSpace, isWhitespace]
  omega

/-- A release is not blank: it starts with a letter or a digit. -/
theorem stripsEmpty_of_release {release : String} (h : SafeReleaseId release) :
    stripsEmpty release = false := by
  unfold SafeReleaseId at h
  unfold stripsEmpty
  cases hrelease : release.toList with
  | nil =>
    rw [hrelease] at h
    exact h.elim
  | cons first rest =>
    rw [hrelease] at h
    rw [List.all_cons, isSpace_of_isAlphanum h.1, Bool.false_and]

/-- An identity that is returned has the name asked for, and passes the check itself. -/
theorem validateComponentIdentity_ok {value : Value} {name : String}
    {identity : ComponentIdentity} (h : validateComponentIdentity value name = .ok identity) :
    identity.name = name ∧ stripsEmpty identity.id = false ∧
      ∀ digest, identity.digest = some digest → IsLowerDigest digest := by
  unfold validateComponentIdentity at h
  rw [ensure_bind_eq_ok] at h
  obtain ⟨-, h⟩ := h
  dsimp only at h
  split at h
  · rename_i id hid
    obtain ⟨-, hblank⟩ := Option.filter_eq_some_iff.mp hid
    have hid := stripsEmpty_strip (by simpa using hblank)
    split at h
    · cases h
      exact ⟨rfl, hid, nofun⟩
    · split at h
      · rename_i hdigest
        cases h
        exact ⟨rfl, hid, fun _ heq ↦ Option.some.inj heq ▸ isLowerDigest_map hdigest⟩
      · cases h
    · cases h
  · cases h

/-- An entry of a list without duplicate keys is found by its key. -/
theorem find?_of_mem {α κ : Type} [DecidableEq κ] {key : α → κ} {entries : List α}
    (h : (entries.map key).Nodup) {a : α} (ha : a ∈ entries) :
    entries.find? (fun b ↦ key b = key a) = some a :=
  (Keyed.Table.get?_eq_some_iff (⟨entries, h⟩ : Keyed.Table key) (key a) a).mpr ⟨ha, rfl⟩

section Identities

variable {value : Value} {identities : List ComponentIdentity}

/-- The identities that are returned are those of the required names, in their order. -/
theorem validateComponentIdentities_ok
    (h : validateComponentIdentities value = .ok identities) :
    identities.map ComponentIdentity.name = requiredComponentIdentities ∧
      ∀ identity ∈ identities, stripsEmpty identity.id = false ∧
        ∀ digest, identity.digest = some digest → IsLowerDigest digest := by
  unfold validateComponentIdentities at h
  rw [ensure_bind_eq_ok] at h
  obtain ⟨-, h⟩ := h
  rw [ensure_bind_eq_ok] at h
  obtain ⟨-, h⟩ := h
  have hall := mapM_ok h
  clear h
  generalize requiredComponentIdentities = names at hall
  induction hall with
  | nil => exact ⟨rfl, nofun⟩
  | cons hfirst _ ih =>
    obtain ⟨hnames, hrest⟩ := ih
    obtain ⟨hname, hid, hdigest⟩ := validateComponentIdentity_ok hfirst
    refine ⟨?_, List.forall_mem_cons.mpr ⟨⟨hid, hdigest⟩, hrest⟩⟩
    rw [List.map_cons, hname, hnames]

/-- The fields of the identities, sorted by name. -/
theorem perm_identitiesFields (identities : List ComponentIdentity) :
    ((identities.map fun identity ↦ (identity.name, identityValue identity)).insertionSort
      fun left right ↦ left.1 ≤ right.1).Perm
      (identities.map fun identity ↦ (identity.name, identityValue identity)) :=
  List.perm_insertionSort _ _

/-- An identity is found under its name. -/
theorem index_identitiesValue (hnodup : (identities.map ComponentIdentity.name).Nodup)
    {identity : ComponentIdentity} (h : identity ∈ identities) :
    (identitiesValue identities).index identity.name = identityValue identity := by
  have hperm := perm_identitiesFields identities
  have hkeys : (((identities.map fun identity ↦ (identity.name, identityValue identity))
      |>.insertionSort fun left right ↦ left.1 ≤ right.1).map Prod.fst).Nodup := by
    apply (hperm.map Prod.fst).nodup_iff.mpr
    rw [List.map_map]
    exact hnodup
  have hmem := hperm.mem_iff.mpr (List.mem_map.mpr ⟨identity, h, rfl⟩)
  have hfound := find?_of_mem hkeys hmem
  dsimp only at hfound
  unfold identitiesValue Value.index Value.get?
  dsimp only
  rw [hfound]
  rfl

theorem keys_identitiesValue (name : String) :
    name ∈ (identitiesValue identities).keys ↔
      name ∈ identities.map ComponentIdentity.name := by
  have hperm := (perm_identitiesFields identities).map Prod.fst
  rw [List.map_map] at hperm
  exact hperm.mem_iff

/-- Identities that are returned, written into a manifest and checked again, pass. -/
theorem validateComponentIdentities_identitiesValue
    (h : validateComponentIdentities value = .ok identities) :
    ∃ again, validateComponentIdentities (identitiesValue identities) = .ok again := by
  obtain ⟨hnames, hall⟩ := validateComponentIdentities_ok h
  have hnodup : (identities.map ComponentIdentity.name).Nodup := by
    rw [hnames]
    decide
  unfold validateComponentIdentities
  simp only [ensure_bind_eq_ok, keys_identitiesValue, hnames]
  suffices hmap : ∃ again, requiredComponentIdentities.mapM
      (validateComponentIdentity (identitiesValue identities)) = .ok again by
    obtain ⟨again, hagain⟩ := hmap
    exact ⟨again, rfl, ⟨fun _ hname ↦ hname, fun _ hname ↦ hname⟩, hagain⟩
  apply exists_mapM_ok
  intro name hname
  rw [← hnames] at hname
  obtain ⟨identity, hidentity, rfl⟩ := List.mem_map.mp hname
  obtain ⟨hid, hdigest⟩ := hall identity hidentity
  have hkept : (some identity.id).filter (fun id ↦ !stripsEmpty id) = some identity.id :=
    Option.filter_eq_some_iff.mpr ⟨rfl, by simpa using hid⟩
  unfold validateComponentIdentity
  rw [index_identitiesValue hnodup hidentity]
  unfold identityValue
  cases hcase : identity.digest with
  | none =>
    simp [Value.isObject, ensure, text, Value.get?, Value.index, Value.asStr, bind, Except.bind,
      hkept]
  | some digest =>
    simp [Value.isObject, ensure, text, Value.get?, Value.index, Value.asStr, bind, Except.bind,
      hkept, (isDigest_of_lower (hdigest digest hcase)).1]

end Identities

/-! ## Schemas -/

theorem mem_sortedReads {reads : List ℤ} {n : ℕ} :
    n ∈ sortedReads reads ↔ ∃ item ∈ reads, item.toNat = n := by
  unfold sortedReads
  rw [(List.perm_insertionSort _ _).mem_iff, List.mem_dedup, List.mem_map]

theorem positive?_nat {n : ℕ} (h : 1 ≤ n) : positive? (.nat n) = some n := by
  simp [positive?, Value.nat, Value.asU64, h]

theorem mapM_positive? {reads : List ℕ} (h : ∀ n ∈ reads, 1 ≤ n) :
    (reads.map Value.nat).mapM positive? = some reads := by
  induction reads with
  | nil => rfl
  | cons n rest ih =>
    obtain ⟨hn, hrest⟩ := List.forall_mem_cons.mp h
    rw [List.map_cons, List.mapM_cons, positive?_nat hn, ih hrest]
    rfl

/-- All the schemas of a list are collected. -/
theorem collectReads_nat {reads : List ℕ} (h : ∀ n ∈ reads, 1 ≤ n) (collected : List ℕ) :
    ∃ result, collectReads collected (reads.map Value.nat) = .ok result ∧
      ∀ n, n ∈ collected ∨ n ∈ reads → n ∈ result := by
  induction reads generalizing collected with
  | nil => exact ⟨collected, rfl, fun n hn ↦ hn.resolve_right List.not_mem_nil⟩
  | cons n rest ih =>
    obtain ⟨hn, hrest⟩ := List.forall_mem_cons.mp h
    obtain ⟨result, hresult, hmem⟩ :=
      ih hrest (if n ∈ collected then collected else collected ++ [n])
    refine ⟨result, ?_, ?_⟩
    · rw [List.map_cons, collectReads, positive?_nat hn]
      exact hresult
    · rintro other (hold | hnew)
      · apply hmem other (.inl _)
        split
        · exact hold
        · exact List.mem_append_left _ hold
      · rcases List.mem_cons.mp hnew with rfl | hlater
        · apply hmem other (.inl _)
          split
          · assumption
          · exact List.mem_append_right _ (List.mem_singleton.mpr rfl)
        · exact hmem other (.inr hlater)

/-! ## A bundle that is built -/

/-- What the builder has found when it writes the manifest. -/
structure Checked (input : BuildInput) (identities : List ComponentIdentity)
    (prepared : List PreparedFile) : Prop where
  release : SafeReleaseId input.releaseId
  compatibility : stripsEmpty input.compatibilityId = false
  reads_writes : input.stateWrites ∈ input.stateReads
  reads_pos : ∀ item ∈ input.stateReads, 1 ≤ item
  components : input.components ≠ []
  identities : validateComponentIdentities input.identities = .ok identities
  prepared : prepareComponents [] input.components = .ok prepared

theorem buildBundle_ok {input : BuildInput} {bundle : Bundle} (h : buildBundle input = .ok bundle) :
    ∃ identities prepared, Checked input identities prepared ∧
      bundle = ⟨builtManifest input identities (ordered prepared),
        (ordered prepared).map payloadFile⟩ := by
  unfold buildBundle at h
  rw [ensure_bind_eq_ok] at h
  obtain ⟨hrelease, h⟩ := h
  rw [ensure_bind_eq_ok] at h
  obtain ⟨hcompatibility, h⟩ := h
  rw [ensure_bind_eq_ok] at h
  obtain ⟨-, h⟩ := h
  rw [ensure_bind_eq_ok] at h
  obtain ⟨⟨-, hwrites, hpos⟩, h⟩ := h
  rw [ensure_bind_eq_ok] at h
  obtain ⟨hcomponents, h⟩ := h
  rw [bind_eq_ok] at h
  obtain ⟨identities, hidentities, h⟩ := h
  rw [ensure_bind_eq_ok] at h
  obtain ⟨-, h⟩ := h
  rw [bind_eq_ok] at h
  obtain ⟨prepared, hprepared, h⟩ := h
  rw [ensure_bind_eq_ok] at h
  obtain ⟨-, h⟩ := h
  rw [ensure_bind_eq_ok] at h
  obtain ⟨-, h⟩ := h
  cases h
  exact ⟨identities, prepared,
    ⟨hrelease, hcompatibility, hwrites, hpos, hcomponents, hidentities, hprepared⟩, rfl⟩

namespace Checked

variable {input : BuildInput} {identities : List ComponentIdentity} {prepared : List PreparedFile}

def bundle (_ : Checked input identities prepared) : Bundle :=
  ⟨builtManifest input identities (ordered prepared), (ordered prepared).map payloadFile⟩

/-- A bundle is built if nothing stands in its place and its numbers can be written. -/
theorem buildBundle_eq (h : Checked input identities prepared)
    (houtput : input.outputExists = false) (hstaging : input.stagingExists = false)
    (hdigits : ∀ item ∈ input.stateReads,
      (Nat.toDigits 10 item.toNat).length ≤ maxIntDigits) :
    buildBundle input = .ok h.bundle := by
  unfold buildBundle
  rw [ensure_bind_eq_ok]
  refine ⟨h.release, ?_⟩
  rw [ensure_bind_eq_ok]
  refine ⟨h.compatibility, ?_⟩
  rw [ensure_bind_eq_ok]
  refine ⟨h.reads_pos _ h.reads_writes, ?_⟩
  rw [ensure_bind_eq_ok]
  refine ⟨⟨List.ne_nil_of_mem h.reads_writes, h.reads_writes, h.reads_pos⟩, ?_⟩
  rw [ensure_bind_eq_ok]
  refine ⟨h.components, ?_⟩
  rw [bind_eq_ok]
  refine ⟨identities, h.identities, ?_⟩
  rw [ensure_bind_eq_ok]
  refine ⟨houtput, ?_⟩
  rw [bind_eq_ok]
  refine ⟨prepared, h.prepared, ?_⟩
  rw [ensure_bind_eq_ok]
  refine ⟨hstaging, ?_⟩
  rw [ensure_bind_eq_ok]
  exact ⟨hdigits, rfl⟩

theorem perm_ordered (prepared : List PreparedFile) :
    ((ordered prepared).map Prod.fst).Perm prepared := by
  unfold ordered
  rw [List.zipIdx_map_fst]
  exact List.perm_insertionSort _ _

theorem ready (h : Checked input identities prepared) :
    ∀ entry ∈ ordered prepared, entry.1.Ready := by
  intro entry hentry
  apply (prepareComponents_ok h.prepared).1
  exact (perm_ordered prepared).mem_iff.mp (List.mem_map.mpr ⟨entry, hentry, rfl⟩)

theorem nodup_targets (h : Checked input identities prepared) :
    ((ordered prepared).map fun entry ↦ entry.1.target).Nodup := by
  have hperm := (perm_ordered prepared).map PreparedFile.target
  rw [List.map_map] at hperm
  exact hperm.nodup_iff.mpr (prepareComponents_ok h.prepared).2.1

theorem ordered_ne_nil (h : Checked input identities prepared) : ordered prepared ≠ [] := by
  intro hnil
  apply h.components
  have hlength := congrArg List.length (prepareComponents_ok h.prepared).2.2.2
  have hzero := (perm_ordered prepared).length_eq
  rw [hnil] at hzero
  rw [List.length_map, List.length_map, ← hzero] at hlength
  exact List.length_eq_zero_iff.mp hlength.symm

/-- Every copied file is in the bundle under its own name. -/
theorem digest_payload (h : Checked input identities prepared) :
    ∀ entry ∈ ordered prepared,
      h.bundle.tree.digest (payloadFile entry).path = some entry.1.digest.text := by
  have hpaths : (((ordered prepared).map payloadFile).map PayloadFile.path).Nodup := by
    apply List.Nodup.of_map payloadNumber
    simp only [List.map_map, Function.comp_def, payloadNumber_path]
    unfold ordered
    rw [List.zipIdx_map_snd]
    exact List.nodup_range'
  intro entry hentry
  have hfound := find?_of_mem hpaths (List.mem_map.mpr ⟨entry, hentry, rfl⟩)
  exact congrArg (Option.map fun file ↦ file.digest.text) hfound

theorem reads_pos_sorted (h : Checked input identities prepared) :
    ∀ n ∈ sortedReads input.stateReads, 1 ≤ n := by
  intro n hn
  obtain ⟨item, hitem, rfl⟩ := mem_sortedReads.mp hn
  have hpos := h.reads_pos item hitem
  omega

theorem writes_mem_sorted (h : Checked input identities prepared) :
    input.stateWrites.toNat ∈ sortedReads input.stateReads :=
  mem_sortedReads.mpr ⟨input.stateWrites, h.reads_writes, rfl⟩

/-- The files of the manifest. -/
theorem manifestFiles_eq (h : Checked input identities prepared) :
    manifestFiles h.bundle.manifest = (ordered prepared).map manifestEntry := by
  simp [manifestFiles, bundle, builtManifest, Value.index, Value.get?, Value.asArray]

theorem text_target (entry : PreparedFile × ℕ) :
    text (manifestEntry entry) "target" = some entry.1.target := by
  simp [manifestEntry, text, Value.get?, Value.asStr]

theorem text_release (h : Checked input identities prepared) :
    text h.bundle.manifest "release_id" = some input.releaseId := by
  simp [bundle, builtManifest, text, Value.get?, Value.asStr]

def stateValue (input : BuildInput) : Value :=
  .object [("reads", .array ((sortedReads input.stateReads).map .nat)),
    ("writes", .nat input.stateWrites.toNat)]

theorem index_compatibility (h : Checked input identities prepared) :
    h.bundle.manifest.index "compatibility" =
      .object [("id", .string input.compatibilityId), ("state", stateValue input)] := by
  simp [bundle, builtManifest, Value.index, Value.get?, stateValue]

theorem index_identities (h : Checked input identities prepared) :
    h.bundle.manifest.index "identities" = identitiesValue identities := by
  simp [bundle, builtManifest, Value.index, Value.get?]

theorem index_files (h : Checked input identities prepared) :
    h.bundle.manifest.index "files" = .array ((ordered prepared).map manifestEntry) := by
  simp [bundle, builtManifest, Value.index, Value.get?]

theorem text_schema (h : Checked input identities prepared) :
    text h.bundle.manifest "schema" = some updateSchema := by
  simp [bundle, builtManifest, text, Value.get?, Value.asStr]

theorem get?_writes (input : BuildInput) :
    (stateValue input).get? "writes" = some (.nat input.stateWrites.toNat) := by
  simp [stateValue, Value.get?]

theorem get?_reads (input : BuildInput) : (stateValue input).get? "reads" =
    some (.array ((sortedReads input.stateReads).map .nat)) := by
  simp [stateValue, Value.get?]

theorem release_ne_nil (h : Checked input identities prepared) : input.releaseId ≠ "" := by
  intro heq
  have hrelease := h.release
  rw [heq] at hrelease
  exact hrelease

theorem writes_pos (h : Checked input identities prepared) : 1 ≤ input.stateWrites.toNat :=
  h.reads_pos_sorted _ h.writes_mem_sorted

theorem index_state (input : BuildInput) :
    Value.index "state" (.object [("id", .string input.compatibilityId),
      ("state", stateValue input)]) = stateValue input := by
  simp [Value.index, Value.get?]

theorem filled_compatibility (h : Checked input identities prepared) :
    Filled (.object [("id", .string input.compatibilityId), ("state", stateValue input)]) "id" := by
  simp [Filled, text, Value.get?, Value.asStr, h.compatibility]

/-- The verifier loads the manifest if it is not too large. -/
theorem load_iff (h : Checked input identities prepared) :
    load h.bundle.file = .ok h.bundle.manifest ↔ canonicalSize h.bundle.manifest ≤ maxManifest := by
  unfold load
  rw [ensure_bind_eq_ok]
  refine ⟨fun hload ↦ hload.1.2.2, fun hsize ↦ ⟨⟨rfl, rfl, hsize⟩, ?_⟩⟩
  rw [show h.bundle.file.parsed.mapError (fun error ↦ "invalid manifest: " ++ error) =
    .ok h.bundle.manifest from rfl, bind_eq_ok]
  refine ⟨_, rfl, ?_⟩
  have hrelease : (nonempty? h.bundle.manifest "release_id").isSome = true := by
    simp [nonempty?, h.text_release, Option.filter, h.release_ne_nil]
  rw [ensure_bind_eq_ok, ensure_bind_eq_ok, h.index_compatibility]
  refine ⟨⟨rfl, h.text_schema⟩, hrelease, ?_⟩
  rw [ensure_bind_eq_ok, index_state]
  refine ⟨⟨rfl, filled_compatibility h⟩, ?_⟩
  rw [ensure_bind_eq_ok, Value.index, get?_writes, Value.index, get?_reads]
  refine ⟨rfl, ?_⟩
  dsimp only [Value.asArray, Option.bind, Option.getD]
  rw [positive?_nat h.writes_pos]
  dsimp only
  rw [mapM_positive? h.reads_pos_sorted]
  dsimp only
  rw [ensure_bind_eq_ok, h.index_files]
  refine ⟨h.writes_mem_sorted, ?_⟩
  obtain ⟨entry, rest, hcons⟩ := List.exists_cons_of_ne_nil h.ordered_ne_nil
  rw [hcons]
  rfl

theorem loadJsonFile_iff (h : Checked input identities prepared) :
    loadJsonFile h.bundle.file updateSchema = .ok h.bundle.manifest ↔
      canonicalSize h.bundle.manifest ≤ maxManifest := by
  unfold loadJsonFile
  rw [ensure_bind_eq_ok]
  constructor
  · rintro ⟨⟨-, -, hsize⟩, -⟩
    exact hsize
  · intro hsize
    refine ⟨⟨rfl, rfl, hsize⟩, ?_⟩
    simp [Bundle.file, bundle, builtManifest, Value.isObject, text, Value.get?, Value.asStr, ensure,
      bind, Except.bind, Except.mapError]

/-- The transaction takes the contract on the persistent state. -/
theorem validateStateSupport_stateValue (h : Checked input identities prepared) :
    ∃ support, validateStateSupport (stateValue input) true = .ok support := by
  obtain ⟨result, hcollected, hmem⟩ := collectReads_nat h.reads_pos_sorted []
  have hwrites : input.stateWrites.toNat ∈ result := hmem _ (.inr h.writes_mem_sorted)
  unfold validateStateSupport
  rw [get?_writes, get?_reads]
  dsimp only [Value.asArray, Option.bind]
  rw [positive?_nat h.writes_pos]
  cases hsorted : sortedReads input.stateReads with
  | nil => exact absurd (hsorted ▸ h.writes_mem_sorted) List.not_mem_nil
  | cons first rest =>
    rw [hsorted, List.map_cons] at hcollected
    refine ⟨⟨_, result, hwrites⟩, ?_⟩
    rw [List.map_cons]
    dsimp only
    rw [hcollected, bind_eq_ok]
    exact ⟨result, rfl, dif_pos hwrites⟩

/-- The transaction takes the manifest. -/
theorem valid (h : Checked input identities prepared) :
    validateManifest h.bundle.manifest = .ok () := by
  have hrelease : Filled h.bundle.manifest "release_id" := by
    have hblank : stripsEmpty input.releaseId = false := stripsEmpty_of_release h.release
    simp [Filled, h.text_release, hblank]
  have hstate : ∃ support, stateSupportFromManifest h.bundle.manifest = .ok support := by
    obtain ⟨support, hsupport⟩ := h.validateStateSupport_stateValue
    unfold stateSupportFromManifest
    simp only [ensure_bind_eq_ok, h.index_compatibility, index_state]
    exact ⟨support, rfl, rfl, hsupport⟩
  obtain ⟨support, hsupport⟩ := hstate
  obtain ⟨again, hagain⟩ := validateComponentIdentities_identitiesValue h.identities
  unfold validateManifest
  rw [ensure_bind_eq_ok]
  refine ⟨hrelease, ?_⟩
  rw [ensure_bind_eq_ok, h.index_compatibility]
  refine ⟨⟨rfl, ?_⟩, ?_⟩
  · simp [text, Value.get?, Value.asStr]
  rw [hsupport, bind_eq_ok]
  refine ⟨support, rfl, ?_⟩
  rw [h.index_identities, hagain, bind_eq_ok, h.index_files]
  refine ⟨again, rfl, ?_⟩
  have hitems := validateComponents_manifestEntries h.ready h.nodup_targets
    fun _ _ ↦ List.not_mem_nil
  obtain ⟨entry, rest, hcons⟩ := List.exists_cons_of_ne_nil h.ordered_ne_nil
  rw [hcons] at hitems ⊢
  exact hitems

end Checked

end Cameo.Update
