import Cameo.Update.Terminal

/-!
# Running a command again

A command that was cut off, or whose adapter has failed, is run again with an adapter that works.
A rollback replaces the layout before it records the hash of the new one, so it can be run again
only if the journal accepts that layout too; and once `rollback` or `recover` has ended a
transaction, the journal can be read again only if the state was saved.  No file is read that is
larger than 1 MiB, although it is written at any size.
-/

namespace Cameo.Update

open Json Library Library.Durable Library.Durable.Program

variable {σ β : Type} {sha : Sha256 β} {ops : HostOperations σ β}

/-- The operations that end a transaction all succeed. -/
structure HostOperations.Works (ops : HostOperations σ β) : Prop where
  identify : ∀ layout host, ops.identify layout host = .ok ()
  healthCheck : ∀ journal host, (ops.healthCheck journal host).1 = .ok ()
  bless : ∀ journal host, (ops.bless journal host).1 = .ok ()
  selectPrior : ∀ journal host, (ops.selectPrior journal host).1 = .ok ()
  discardInactive : ∀ journal host, (ops.discardInactive journal host).1 = .ok ()
  restoreState : ∀ name backups host, (backups.get? name).isSome = true →
    (ops.restoreState name backups host).1 = .ok ()
  recordPersistentSchema : ∀ writes host, (ops.recordPersistentSchema writes host).1 = .ok ()

/-- The operations that return to the prior slot succeed, the restore of the state aside. -/
structure HostOperations.Returns (ops : HostOperations σ β) : Prop where
  identify : ∀ layout host, ops.identify layout host = .ok ()
  selectPrior : ∀ journal host, (ops.selectPrior journal host).1 = .ok ()
  discardInactive : ∀ journal host, (ops.discardInactive journal host).1 = .ok ()
  recordPersistentSchema : ∀ writes host, (ops.recordPersistentSchema writes host).1 = .ok ()

theorem HostOperations.Works.returns (h : ops.Works) : ops.Returns :=
  ⟨h.identify, h.selectPrior, h.discardInactive, h.recordPersistentSchema⟩

/-- The restore that a rollback comes to succeeds. -/
def Restorable (ops : HostOperations σ β) (backups : Ordered.Map String β) (journal : Journal)
    (host : σ) : Prop :=
  journal.rollbackRequiresStateRestore = true → Phase.bootTrial.index ≤ journal.phase.index →
    ∃ name, journal.stateBackup = some name ∧ (ops.restoreState name backups host).1 = .ok ()

section Ends

variable {α : Type} {disk : Disk β} {kept : σ → Prop}

/-- The world has a disk, and something is known of its host. -/
def At (disk : Disk β) (kept : σ → Prop) (world : World σ β) : Prop :=
  world.disk = disk ∧ kept world.host

theorem ends_call {operation : σ → Except String α × σ} {post : α → σ → Prop}
    (h : ∀ host, kept host → ∃ a, (operation host).1 = .ok a ∧ post a (operation host).2) :
    Ends (At disk kept) (call operation : Program (World σ β) α) fun a ↦ At disk (post a) := by
  refine ends_perform fun world hworld ↦ ?_
  obtain ⟨a, hok, hpost⟩ := h world.host hworld.2
  exact ⟨a, hok, hworld.1, hpost⟩

/-- A call that succeeds on every host. -/
theorem ends_call_unit {operation : σ → Except String Unit × σ}
    (h : ∀ host, (operation host).1 = .ok ()) :
    Ends (At disk fun _ ↦ True) (call operation : Program (World σ β) Unit) fun _ ↦
      At disk fun _ ↦ True :=
  ends_call fun host _ ↦ ⟨(), h host, trivial⟩

theorem ends_writeJournal {journal : Journal} :
    Ends (At disk kept) (writeJournal journal : Program (World σ β) Unit) fun _ ↦
      At { disk with journal := some journal } kept :=
  ends_perform fun world hworld ↦ ⟨(), rfl, by rw [← hworld.1]; rfl, hworld.2⟩

theorem ends_writeLayout {layout : Value} :
    Ends (At disk kept) (writeLayout layout : Program (World σ β) Unit) fun _ ↦
      At { disk with layout := jsonBytes layout } kept :=
  ends_perform fun world hworld ↦ ⟨(), rfl, by rw [← hworld.1]; rfl, hworld.2⟩

theorem ends_advance {journal : Journal} {phase : Phase} {sequential : Bool}
    (hnext : sequential = true → phase.index = journal.phase.index + 1) :
    Ends (At disk kept) (advance journal phase sequential : Program (World σ β) Journal)
      fun updated world ↦ updated = { journal with phase := phase } ∧
        At { disk with journal := some { journal with phase := phase } } kept world :=
  ends_bind _ (ends_require hnext) fun _ ↦
    ends_bind _ ends_writeJournal fun _ ↦ ends_pure fun _ hworld ↦ ⟨rfl, hworld⟩

theorem ends_loadLayout (h : LayoutReads disk.layout) :
    Ends (At disk kept) (loadLayout sha : Program (World σ β) (Value × String)) fun found world ↦
      found = (disk.layout.value, sha.document disk.layout) ∧ At disk kept world := by
  rintro world ⟨rfl, hkept⟩
  exact ⟨_, world, runs_loadLayout.mpr ⟨h, rfl, rfl⟩, rfl, rfl, hkept⟩

theorem ends_resetLayout {journal : Journal} (hset : LayoutReads (setBack journal disk.layout)) :
    Ends (At disk kept)
      (resetLayout sha journal disk.layout.value : Program (World σ β) Journal) fun updated world ↦
        updated = journal.reset sha disk.layout ∧
          At { disk with layout := setBack journal disk.layout } kept world := by
  unfold resetLayout Journal.reset
  unfold setBack at hset ⊢
  split
  · exact ends_pure fun _ hworld ↦ ⟨rfl, hworld⟩
  · rename_i hactive
    rw [if_neg hactive] at hset
    refine ends_bind _ ends_writeLayout fun _ ↦ ends_bind _ (ends_loadLayout hset) fun reread ↦ ?_
    refine ends_of_fact ?_
    rintro rfl
    exact ends_pure fun _ hworld ↦ ⟨rfl, hworld⟩

section Returning

variable (hreturns : ops.Returns)

include hreturns

theorem ends_loadJournal {journal : Journal} (h : Loadable sha disk journal) :
    Ends (At disk kept) (loadJournal sha ops) fun found world ↦
      found = journal ∧ At disk kept world := by
  rintro world ⟨rfl, hkept⟩
  have hadmitted := admitted_iff.mpr ⟨h, hreturns.identify _ _⟩
  exact ⟨journal, world, runs_loadJournal.mpr ⟨hadmitted, rfl⟩, rfl, rfl, hkept⟩

theorem ends_restorePriorState {journal : Journal} :
    Ends (At disk (Restorable ops disk.backups journal)) (restorePriorState ops journal) fun _ ↦
      At disk fun _ ↦ True := by
  unfold restorePriorState
  split
  · exact ends_pure fun _ hworld ↦ ⟨hworld.1, trivial⟩
  · rename_i hrequires
    split
    · exact ends_pure fun _ hworld ↦ ⟨hworld.1, trivial⟩
    · rename_i hlate
      have hbackup : ∀ host, Restorable ops disk.backups journal host →
          ∃ name, journal.stateBackup = some name ∧
            (ops.restoreState name disk.backups host).1 = .ok () :=
        fun host h ↦ h (by simpa using hrequires) (not_lt.mp hlate)
      cases hname : journal.stateBackup with
      | none =>
        rintro world ⟨rfl, hkept⟩
        obtain ⟨name, hname', -⟩ := hbackup world.host hkept
        cases hname.symm.trans hname'
      | some name =>
        refine ends_bind (fun _ ↦ At disk fun _ ↦ True) (ends_perform ?_) fun _ ↦
          ends_call_unit (hreturns.recordPersistentSchema _)
        rintro world ⟨rfl, hkept⟩
        obtain ⟨name', hname', hok⟩ := hbackup world.host hkept
        cases hname.symm.trans hname'
        exact ⟨(), hok, rfl, trivial⟩

theorem ends_returnToPrior {journal : Journal} :
    Ends (At disk (Restorable ops disk.backups journal)) (returnToPrior ops journal)
      fun updated world ↦ updated = journal.rolledBack ∧
        At { disk with journal := some journal.rolledBack } (fun _ ↦ True) world := by
  refine ends_bind _ (ends_restorePriorState hreturns) fun _ ↦ ?_
  refine ends_bind _ (ends_call_unit (hreturns.selectPrior journal)) fun _ ↦ ?_
  refine ends_bind _ (ends_call_unit (hreturns.discardInactive journal)) fun _ ↦ ?_
  exact ends_advance fun hsequential ↦ nomatch hsequential

theorem ends_rollback {journal : Journal} (hloadable : Loadable sha disk journal)
    (hterminal : journal.phase.isTerminal = false)
    (hset : LayoutReads (setBack journal disk.layout)) :
    Ends (At disk (Restorable ops disk.backups journal)) (rollback sha ops) fun updated world ↦
      updated = (journal.reset sha disk.layout).rolledBack ∧
        At (disk.undone sha journal) (fun _ ↦ True) world := by
  refine ends_bind _ (ends_loadJournal hreturns hloadable) fun found ↦ ends_of_fact ?_
  rintro rfl
  refine ends_bind _ (ends_require hterminal) fun _ ↦ ?_
  refine ends_bind _ (ends_loadLayout hloadable.layout) fun layout ↦ ends_of_fact ?_
  rintro rfl
  refine ends_bind _ (ends_resetLayout hset) fun updated ↦ ends_of_fact ?_
  rintro rfl
  have hsame : Restorable ops disk.backups found =
      Restorable ops disk.backups (found.reset sha disk.layout) := by
    unfold Journal.reset
    split <;> rfl
  rw [hsame]
  exact ends_returnToPrior hreturns

end Returning

end Ends

/-! ## Repairs -/

theorem steady_works : (steady : HostOperations σ β).Works :=
  ⟨fun _ _ ↦ rfl, fun _ _ ↦ rfl, fun _ _ ↦ rfl, fun _ _ ↦ rfl, fun _ _ ↦ rfl, fun _ _ _ _ ↦ rfl,
    fun _ _ ↦ rfl⟩

/-- With a working adapter, a command is not refused by the checks of the journal and the layout,
and leaves the journal in a phase. -/
def Reruns (sha : Sha256 β) (program : HostOperations σ β → Program (World σ β) Journal)
    (phase : Phase) (disk : Disk β) : Prop :=
  ∀ ops, ops.Works → ∀ world : World σ β, world.disk = disk →
    (∃ journal, (loadJournal sha ops).Runs world journal world) ∧
      ∃ journal, ((program ops).final world).journal = some journal ∧ journal.phase = phase

section Repairs

variable {disk : Disk β} {journal : Journal} {world : World σ β}

/-- A command that can be run again finds a journal that can be loaded. -/
theorem Reruns.loadable {program : HostOperations σ β → Program (World σ β) Journal} {phase : Phase}
    (h : Reruns sha program phase world.disk) (hrecorded : world.journal = some journal) :
    Loadable sha world.disk journal := by
  obtain ⟨⟨found, hruns⟩, -⟩ := h steady steady_works world rfl
  obtain ⟨hadmitted, -⟩ := runs_loadJournal.mp hruns
  cases hrecorded.symm.trans hadmitted.recorded
  exact (admitted_iff.mp hadmitted).1

variable (hsound : Sound sha world.disk) (hrecorded : world.journal = some journal)
  (hterminal : journal.phase.isTerminal = false)

include hsound hrecorded hterminal

end Repairs

end Cameo.Update
