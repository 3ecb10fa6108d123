import Cameo.Hub.Restore

/-!
# Failed pairings and removals

A pairing or removal that cannot be persisted takes its change of the roster back.  Two things it
does not take back: the row that a pairing has evicted from a full roster, and the file, once the
new one has been renamed over the old one and only the sync of the directory fails.
-/

namespace Cameo.Hub

open Json Library Library.Durable

variable {codec : Codec}

/-! ## Nothing has changed -/

/-- A later start finds the same identities. -/
def SameReload (before after : Option (Location × Disk)) : Prop :=
  ∀ location disk, before = some (location, disk) →
    ∃ disk', after = some (location, disk') ∧
      ∀ io now, LoadIo.Works io → reopened location io now disk' = reopened location io now disk

variable (codec) in
/-- A pairing that fails has changed nothing, up to age pruning. -/
def PairAtomic (io : PersistIo) (now : Instant) (reg : Registration) (digest : Digest)
    (label : String) (farm : Farm) : Prop :=
  ∀ e, (farm.pair codec io now reg digest label).1 = .error e →
    (farm.pair codec io now reg digest label).2.inner = prune now farm.inner ∧
      SameReload farm.state (farm.pair codec io now reg digest label).2.state

variable (codec) in
/-- A removal that fails has changed nothing. -/
def RemoveAtomic (io : PersistIo) (nodeId : String) (farm : Farm) : Prop :=
  ∀ e, (farm.remove codec io nodeId).1 = .error e →
    (farm.remove codec io nodeId).2.inner = farm.inner ∧
      SameReload farm.state (farm.remove codec io nodeId).2.state

/-! ## When nothing has changed -/

structure Persists (codec : Codec) (io : PersistIo) (payload : Value) (disk : Disk) : Prop where
  renames : Renames codec io payload disk
  synced : io.syncDirectory = .ok ()

/-- A start finds in the directory what it would find after the roster had been persisted. -/
def AlreadyHolds (location : Location) (roster : Roster) (disk : Disk) : Prop :=
  ∀ io now, LoadIo.Works io → reopened location io now disk =
    openNodes location.path now (persistedFarm roster)

variable (codec) in
/-- Either the roster is persisted, or the failure comes before the rename, or the rename changes
nothing. -/
def LeavesFile (io : PersistIo) (roster : Roster) (location : Location) (disk : Disk) : Prop :=
  Renames codec io (persistedFarm roster).toValue disk →
    io.syncDirectory = .ok () ∨ AlreadyHolds location roster disk

variable (codec) in
/-- The id is enrolled already; or the roster is persisted; or it is not full, and its file is left
as it is. -/
def PairUndoes (io : PersistIo) (now : Instant) (reg : Registration) (digest : Digest)
    (label : String) (farm : Farm) : Prop :=
  ((prune now farm.inner).get? (assignedId reg)).isSome = true ∨
    ∀ location disk, farm.state = some (location, disk) →
      let roster := withPaired codec now reg digest label (prune now farm.inner)
      Persists codec io (persistedFarm roster).toValue disk ∨
        ((prune now farm.inner).size < maxNodes ∧ LeavesFile codec io roster location disk)

variable (codec) in
/-- The id is not enrolled, or the file is left as it is. -/
def RemoveUndoes (io : PersistIo) (nodeId : String) (farm : Farm) : Prop :=
  farm.inner.get? nodeId = none ∨
    ∀ location disk, farm.state = some (location, disk) →
      LeavesFile codec io (farm.inner.erase nodeId) location disk

theorem sameReload_refl (state : Option (Location × Disk)) : SameReload state state :=
  fun _ disk hstate ↦ ⟨disk, hstate, fun _ _ _ ↦ rfl⟩

theorem sameReload_some {location : Location} {disk after : Disk} :
    SameReload (some (location, disk)) (some (location, after)) ↔
      ∀ io now, LoadIo.Works io →
        reopened location io now after = reopened location io now disk := by
  constructor
  · intro h
    obtain ⟨disk', hafter, hsame⟩ := h location disk rfl
    obtain rfl : after = disk' := by simpa using hafter
    exact hsame
  · rintro h location' disk' hstate
    obtain ⟨rfl, rfl⟩ : location = location' ∧ disk = disk' := by simpa using hstate
    exact ⟨after, rfl, h⟩

theorem persistLocked_of_persists {io : PersistIo} {roster : Roster} {location : Location}
    {disk : Disk} (h : Persists codec io (persistedFarm roster).toValue disk) :
    Farm.persistLocked codec io roster (some (location, disk)) =
      (.ok (), some (location, committed codec (persistedFarm roster).toValue disk)) := by
  rw [persistLocked_of_renames h.renames, h.synced]
  rfl

/-- A call that fails has left the file as it was exactly if it left it alone or wrote what was
there. -/
theorem persistLocked_of_not_persists {io : PersistIo} {roster : Roster} {disk : Disk}
    (location : Location) (h : ¬ Persists codec io (persistedFarm roster).toValue disk) :
    ∃ e after, Farm.persistLocked codec io roster (some (location, disk)) = (.error e, after) ∧
      (SameReload (some (location, disk)) after ↔ LeavesFile codec io roster location disk) := by
  by_cases hrenames : Renames codec io (persistedFarm roster).toValue disk
  · cases hsync : io.syncDirectory with
    | ok _ => exact absurd ⟨hrenames, hsync⟩ h
    | error e =>
      rw [persistLocked_of_renames hrenames, hsync]
      refine ⟨_, _, rfl, sameReload_some.trans ?_⟩
      have hwritten (io : LoadIo) (now : Instant) (hio : io.Works) :
          reopened location io now (committed codec (persistedFarm roster).toValue disk) =
            openNodes location.path now (persistedFarm roster) :=
        reopened_of_holds hio (holds_committedFile rfl hrenames.prepares.fits)
      constructor
      · intro hsame _
        exact .inr fun io now hio ↦ (hsame io now hio).symm.trans (hwritten io now hio)
      · intro hleaves io now hio
        have halready : AlreadyHolds location roster disk := by
          simpa [hsync] using hleaves hrenames
        exact (hwritten io now hio).trans (halready io now hio).symm
  · obtain ⟨e, stop, hpersist, huntouched⟩ := persistLocked_of_not_renames location hrenames
    refine ⟨e, _, hpersist, iff_of_true (sameReload_some.mpr fun io now _ ↦ ?_) ?_⟩
    · rw [reopened_eq, reopened_eq, huntouched.file_eq]
    · exact fun h ↦ absurd h hrenames

/-! ## Pairing -/

theorem makeRoom_eq_self_iff {roster : Roster} :
    makeRoom roster = roster ↔ roster.size < maxNodes := by
  refine ⟨fun h ↦ ?_, makeRoom_of_lt⟩
  by_contra hfull
  have hroom : (makeRoom roster).size + 1 = roster.size := by
    rw [makeRoom, if_pos (not_lt.mp hfull), evictOldest]
    cases holdest : oldest? roster with
    | none =>
      rw [oldest?, List.argmin_eq_none] at holdest
      have hempty : roster.size = 0 := by rw [Ordered.Map.size, holdest]; rfl
      exact absurd (hempty.trans_lt (by decide)) hfull
    | some entry => exact Ordered.Map.size_erase_of_get? (get?_of_oldest? holdest)
  rw [h] at hroom
  exact Nat.succ_ne_self _ hroom

/-- Taking the new row back leaves the roster with the room that was made for it. -/
theorem erase_withPaired {now : Instant} {reg : Registration} {digest : Digest} {label : String}
    {roster : Roster} (hnew : roster.get? (assignedId reg) = none) :
    (withPaired codec now reg digest label roster).erase (assignedId reg) = makeRoom roster := by
  have hroom : (makeRoom roster).get? (assignedId reg) = none := by
    rcases get?_makeRoom roster (assignedId reg) with ⟨e, -, hrow, -⟩ | hsame
    · cases hnew.symm.trans hrow
    · exact hsame.trans hnew
  rw [withPaired, Ordered.Map.erase_insert hroom]

theorem pairAtomic_iff (io : PersistIo) (now : Instant) (reg : Registration) (digest : Digest)
    (label : String) (farm : Farm) :
    PairAtomic codec io now reg digest label farm ↔
      PairUndoes codec io now reg digest label farm := by
  cases hrow : (prune now farm.inner).get? (assignedId reg) with
  | some row =>
    have henrolled : ((prune now farm.inner).get? (assignedId reg)).isSome = true := by
      rw [hrow]
      rfl
    refine iff_of_true ?_ (.inl henrolled)
    rw [PairAtomic, pair_of_enrolled io digest label henrolled]
    exact fun e _ ↦ ⟨rfl, sameReload_refl _⟩
  | none =>
    rw [PairAtomic, PairUndoes, pair_of_new io digest label hrow, hrow]
    cases hstate : farm.state with
    | none => simp [Farm.persistLocked]
    | some dir =>
      obtain ⟨location, disk⟩ := dir
      simp only [Option.isSome_none, Bool.false_eq_true, false_or, Option.some.injEq,
        Prod.mk.injEq, and_imp]
      by_cases hpersists : Persists codec io (persistedFarm (withPaired codec now reg digest label
          (prune now farm.inner))).toValue disk
      · rw [persistLocked_of_persists hpersists]
        simp [hpersists]
      · obtain ⟨e, after, hpersist, hreload⟩ := persistLocked_of_not_persists location hpersists
        rw [hpersist]
        simp [hpersists, erase_withPaired hrow, makeRoom_eq_self_iff, hreload]

theorem removeAtomic_iff (io : PersistIo) (nodeId : String) (farm : Farm) :
    RemoveAtomic codec io nodeId farm ↔ RemoveUndoes codec io nodeId farm := by
  cases hrow : farm.inner.get? nodeId with
  | none =>
    refine iff_of_true ?_ (.inl hrow)
    rw [RemoveAtomic, remove_of_unknown io hrow]
    exact fun e herror ↦ by cases herror
  | some row =>
    rw [RemoveAtomic, RemoveUndoes, remove_of_row io hrow, hrow]
    cases hstate : farm.state with
    | none => simp [Farm.persistLocked]
    | some dir =>
      obtain ⟨location, disk⟩ := dir
      simp only [reduceCtorEq, false_or, Option.some.injEq, Prod.mk.injEq, and_imp]
      by_cases hpersists : Persists codec io (persistedFarm (farm.inner.erase nodeId)).toValue disk
      · rw [persistLocked_of_persists hpersists]
        simp [LeavesFile, hpersists.synced]
      · obtain ⟨e, after, hpersist, hreload⟩ := persistLocked_of_not_persists location hpersists
        rw [hpersist]
        simp [hreload]

/-- A pairing that fails has changed nothing exactly if its id was enrolled, or the roster was not
full and its file was not replaced; a removal that fails, exactly if its file was not replaced. -/
theorem failure_changes_nothing_iff (farm : Farm) :
    (∀ io now reg digest label, PairAtomic codec io now reg digest label farm ↔
      PairUndoes codec io now reg digest label farm) ∧
    ∀ io nodeId, RemoveAtomic codec io nodeId farm ↔ RemoveUndoes codec io nodeId farm :=
  ⟨fun io now reg digest label ↦ pairAtomic_iff io now reg digest label farm,
    fun io nodeId ↦ removeAtomic_iff io nodeId farm⟩

/-- A disk on which everything but the sync of the directory works. -/
def syncFails : PersistIo :=
  { PersistIo.working 7 with syncDirectory := .error "Input/output error (os error 5)" }

/-- A pairing that is reported as failed is there after the next start. -/
theorem failed_pairing_comes_back :
    ¬ PairAtomic .compact syncFails 0 pairingReg (Vector.replicate 32 1) "desk" firstStart := by
  rw [pairAtomic_iff]
  rintro (henrolled | hundoes)
  · revert henrolled
    decide +kernel
  · rcases hundoes stateAt ⟨none, .empty⟩ rfl with hpersists | ⟨-, hleaves⟩
    · cases hpersists.synced
    · have hprepares : Prepares .compact syncFails (persistedFarm (withPaired .compact 0
          pairingReg (Vector.replicate 32 1) "desk" (prune 0 firstStart.inner))).toValue
          ⟨none, .empty⟩ :=
        ⟨by decide +kernel, rfl, fun h ↦ Bool.noConfusion h, rfl, rfl⟩
      rcases hleaves ⟨hprepares, rfl, rfl⟩ with hsync | halready
      · cases hsync
      · have hrows := congrArg (fun roster ↦ roster.toOption.map Ordered.Map.size)
          (halready ⟨.ok (), .ok (), ""⟩ 0 ⟨rfl, rfl⟩)
        revert hrows
        decide +kernel

end Cameo.Hub
