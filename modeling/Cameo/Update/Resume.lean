import Cameo.Update.Rerun

/-!
# Resuming a commit

A commit records the layout it is to write, blesses the trial, writes the layout, records the schema
of the target and closes the journal.  From wherever it is cut off, the next commit finds in the
journal what it has to write and accepts the layout whether it was written or not.  But it reads the
journal only up to 1 MiB, and the journal that was written holds the whole layout.
-/

namespace Cameo.Update

open Json Library Library.Durable Library.Durable.Program

variable {σ β : Type} {sha : Sha256 β} {ops : HostOperations σ β}

/-! ## What a commit leaves of a layout -/

/-- Two layouts that differ at most in the active slot and in the boot entry of a slot. -/
structure SameElsewhere (slot : Slot) (left right : Value) : Prop where
  field : ∀ name, name ≠ "active_slot" → name ≠ "slots" → right.get? name = left.get? name
  other : ∀ other, other ≠ slot → slotEntry right other = slotEntry left other
  entry : ∀ name, name ≠ "boot_entry" →
    (slotEntry right slot).get? name = (slotEntry left slot).get? name

namespace SameElsewhere

variable {slot : Slot} {left middle right : Value}

theorem refl : SameElsewhere slot left left :=
  ⟨fun _ _ _ ↦ rfl, fun _ _ ↦ rfl, fun _ _ ↦ rfl⟩

theorem symm (h : SameElsewhere slot left right) : SameElsewhere slot right left :=
  ⟨fun name hactive hslots ↦ (h.field name hactive hslots).symm,
    fun other hne ↦ (h.other other hne).symm, fun name hne ↦ (h.entry name hne).symm⟩

theorem withActive (layout : Value) (active : Slot) :
    SameElsewhere slot layout (withActive layout active) where
  field _ hactive _ := Value.get?_set_of_ne hactive.symm _ _
  other _ _ := slotEntry_withActive active _
  entry name _ := by rw [slotEntry_withActive]

theorem promoted {layout : Value} (h : LayoutOk layout) (entry : Option String) :
    SameElsewhere slot layout (promoted layout slot entry) where
  field _ hactive hslots := get?_promoted hactive hslots
  other _ hne := slotEntry_promoted_of_ne h.isObject hne.symm
  entry name hne := by
    rw [slotEntry_promoted_self h.isObject h.slots_isObject, Value.get?_set_of_ne hne.symm]

end SameElsewhere

section Committed

variable {disk : Disk β} {journal : Journal}

/-- The trial slot is active in the layout with the boot entry of the journal, nothing else of the
layout has changed, and the journal says that the transaction is committed. -/
structure Committed (layout : Value) (journal : Journal) (disk : Disk β) : Prop where
  phase : disk.journal.map Journal.phase = some .healthCommitted
  active : activeSlot disk.layout.value = some journal.inactiveSlot
  bootEntry : bootEntry disk.layout.value journal.inactiveSlot = journal.bootEntry
  same : SameElsewhere journal.inactiveSlot layout disk.layout.value

end Committed

/-! ## Resuming -/

section Resuming

variable {disk : Disk β} {journal : Journal}

theorem ends_prepareLayout (hworks : ops.Works) (hrecorded : disk.journal = some journal) :
    Ends (At disk fun _ ↦ True) (prepareLayout sha ops journal disk.layout.value) fun found world ↦
      found = ((journal.checked sha disk.layout).nextLayout.getD .null,
        journal.checked sha disk.layout) ∧
      At { disk with journal := some (journal.checked sha disk.layout) } (fun _ ↦ True) world := by
  unfold prepareLayout Journal.checked
  split
  · rename_i hphase
    refine ends_bind _ (ends_call_unit (hworks.healthCheck journal)) fun _ ↦ ?_
    refine ends_bind _ (ends_advance fun _ ↦ ?_) fun updated ↦ ends_of_fact ?_
    · change Phase.healthChecked.index = journal.phase.index + 1
      rw [hphase]
      rfl
    · rintro rfl
      exact ends_pure fun _ hworld ↦ ⟨rfl, hworld⟩
  · refine ends_pure fun world hworld ↦ ⟨rfl, ?_⟩
    rwa [← hrecorded]

end Resuming

/-- An adapter that records a schema is found to have recorded it. -/
def HostOperations.Records (ops : HostOperations σ β) (schema : σ → ℕ) : Prop :=
  ∀ writes before after, ops.recordPersistentSchema writes before = (.ok (), after) →
    schema after = writes

/-- From wherever a commit is cut off or fails that was begun in a world, a commit with a working
adapter ends the transaction.  The trial slot is then active in the layout with the boot entry of
the journal, nothing else of the layout has changed, and the schema of the target is recorded. -/
def Resumes (sha : Sha256 β) (schema : σ → ℕ) (again : HostOperations σ β) (world : World σ β)
    (journal : Journal) : Prop :=
  ∀ ops : HostOperations σ β, ops.Records schema → ∀ stop ∈ (commit sha ops).stops world,
    ∀ next : World σ β, next.disk = stop.disk → schema next.host = schema stop.host →
      Committed world.layout.value journal ((commit sha again).final next).disk ∧
      schema ((commit sha again).final next).host = journal.targetStateWrites ∧
      (stop.journal.map Journal.phase ≠ some .healthCommitted →
        ∃ updated, (commit sha again).Runs next updated ((commit sha again).final next) ∧
          updated.phase = .healthCommitted)

section Sizes

variable {world : World σ β} {journal : Journal}

/-- A commit of a boot trial passes through a disk with the prepared journal. -/
theorem checked_mem_stops (hworks : ops.Works) (hloadable : Loadable sha world.disk journal)
    (hcommit : Committable world.disk journal) :
    ∃ stop ∈ (commit sha ops).stops world,
      stop.disk = { world.disk with journal := some (journal.checked sha world.layout) } := by
  have hadmitted := admitted_iff.mpr ⟨hloadable, hworks.identify _ _⟩
  have hphase : (require (journal.phase = .bootTrial ∨ journal.phase = .healthChecked)
      "only a boot trial can be committed" : Program (World σ β) Unit).Runs world () world :=
    runs_require.mpr ⟨hcommit.phase, rfl⟩
  have htrial : (require (world.booted = journal.inactiveSlot)
      "health commit must run from the trial slot" :
        Program (World σ β) Unit).Runs world () world :=
    runs_require.mpr ⟨hcommit.trial, rfl⟩
  obtain ⟨prepared, stop, hruns, -, hstop, -⟩ :=
    ends_prepareLayout hworks hloadable.recorded world ⟨rfl, trivial⟩
  refine ⟨stop, ?_, hstop⟩
  refine Runs.stops_subset_bind (runs_loadJournal.mpr ⟨hadmitted, rfl⟩) ?_
  refine Runs.stops_subset_bind hphase ?_
  refine Runs.stops_subset_bind (runs_loadLayout.mpr ⟨hloadable.layout, rfl, rfl⟩) ?_
  refine Runs.stops_subset_bind
    (runs_observedActiveSlot.mpr ⟨hworks.identify _ _, rfl, rfl⟩) ?_
  refine Runs.stops_subset_bind htrial ?_
  exact stops_subset_bind hruns.mem_stops

/-- A journal that is too large is not read. -/
theorem loadJournal_oversized (hrecorded : world.journal = some journal)
    (hsize : maxJsonBytes < journal.size) :
    (loadJournal sha ops world).result = .error (oversized journalPath) := by
  have hfound : (look World.journal : Program (World σ β) _).Runs world (some journal) world :=
    runs_look.mpr ⟨hrecorded, rfl⟩
  have hjournal : (ofExcept ((some journal).elim (.error "cannot read the journal") .ok) :
      Program (World σ β) Journal).Runs world journal world := runs_ofExcept.mpr ⟨rfl, rfl⟩
  rw [loadJournal, bind_of_ok hfound, bind_of_ok hjournal, require, if_neg hsize.not_ge,
    bind_of_error rfl]

/-- A commit whose journal has become too large is refused. -/
theorem commit_oversized (hrecorded : world.journal = some journal)
    (hsize : maxJsonBytes < journal.size) :
    (commit sha ops world).result = .error (oversized journalPath) := by
  rw [commit, bind_of_error (loadJournal_oversized hrecorded hsize)]

/-- A commit that can be resumed has a journal that is not too large. -/
theorem Resumes.size {schema : σ → ℕ} {again : HostOperations σ β}
    (h : Resumes sha schema again world journal) (hloadable : Loadable sha world.disk journal)
    (hcommit : Committable world.disk journal) (hphase : journal.phase = .bootTrial)
    (hworks : again.Works) (hrecords : again.Records schema) :
    (journal.checked sha world.layout).size ≤ maxJsonBytes := by
  by_contra hlarge
  obtain ⟨stop, hmem, hstop⟩ := checked_mem_stops hworks hloadable hcommit
  have hrecorded : stop.journal = some (journal.checked sha world.layout) :=
    congrArg Disk.journal hstop
  have hchecked : stop.journal.map Journal.phase = some .healthChecked := by
    rw [hrecorded, Journal.checked, if_pos hphase]
    rfl
  obtain ⟨-, -, hends⟩ := h again hrecords stop hmem stop rfl rfl
  obtain ⟨updated, hruns, -⟩ := hends (by rw [hchecked]; decide)
  have herror := hruns.1.symm.trans (commit_oversized hrecorded (not_le.mp hlarge))
  cases herror

end Sizes

end Cameo.Update
