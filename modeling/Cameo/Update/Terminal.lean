import Cameo.Update.Machine

/-!
# Journals of transactions that are over

`status` and `recover` run on every boot, also when the transaction on record is over, and are to
return its journal.  A committed transaction is always readable.  One that was rolled back is
readable if and only if it had recorded its state backup: `_journal` asks for that record in every
phase from `state_saved` on, and `rolled_back` is the last of them.
-/

namespace Cameo.Update

open Json Library Library.Durable Library.Durable.Program

variable {σ β : Type} {sha : Sha256 β} {ops : HostOperations σ β}

/-! ## Reading a journal that is over -/

section Reading

variable {world after : World σ β} {journal : Journal}

theorem runs_status (hrecorded : world.journal = some journal) :
    (status sha ops).Runs world (.recorded journal) after ↔
      Admitted sha ops world journal ∧ world = after := by
  simp only [status, runs_bind, runs_look]
  constructor
  · rintro ⟨_, _, ⟨rfl, rfl⟩, hruns⟩
    simp only [hrecorded, Option.isNone_some, Bool.false_eq_true, if_false] at hruns
    obtain ⟨found, _, hload, hpure⟩ := runs_bind.mp hruns
    obtain ⟨hadmitted, rfl⟩ := runs_loadJournal.mp hload
    obtain ⟨hfound, rfl⟩ := runs_pure.mp hpure
    cases hfound
    exact ⟨hadmitted, rfl⟩
  · rintro ⟨hadmitted, rfl⟩
    refine ⟨_, _, ⟨rfl, rfl⟩, ?_⟩
    simp only [hrecorded, Option.isNone_some, Bool.false_eq_true, if_false]
    exact runs_bind.mpr
      ⟨journal, _, runs_loadJournal.mpr ⟨hadmitted, rfl⟩, runs_pure.mpr ⟨rfl, rfl⟩⟩

theorem runs_recover_terminal (hterminal : journal.phase.isTerminal = true)
    (hadmitted : Admitted sha ops world journal) : (recover sha ops).Runs world journal world := by
  refine runs_bind.mpr ⟨journal, world, runs_loadJournal.mpr ⟨hadmitted, rfl⟩, ?_⟩
  rw [if_pos hterminal]
  exact runs_pure.mpr ⟨rfl, rfl⟩

end Reading

/-- However the machine is booted later, `status` and `recover` return the journal that is on the
disk, and change nothing. -/
def StaysReadable (σ : Type) (sha : Sha256 β) (disk : Disk β) (journal : Journal) : Prop :=
  ∀ (ops : HostOperations σ β) (world : World σ β),
    world.disk = { disk with booted := world.booted } →
    ops.identify world.layout.value world.host = .ok () →
      (status sha ops).Runs world (.recorded journal) world ∧
        (recover sha ops).Runs world journal world

variable {disk : Disk β} {journal : Journal}

/-- A journal that is over stays readable if it can be loaded. -/
theorem StaysReadable.of_loadable
    (hslot : ∀ slot, slot = journal.priorHealthySlot ∨ slot = journal.inactiveSlot)
    (hterminal : journal.phase.isTerminal = true) (h : Loadable sha disk journal) :
    StaysReadable σ sha disk journal := by
  intro ops world hdisk hidentified
  have hloadable : Loadable sha world.disk journal := by
    rw [hdisk]
    exact ⟨h.recorded, h.size, h.layout, h.accepted, hslot world.booted, h.evidence⟩
  have hadmitted := admitted_iff.mpr ⟨hloadable, hidentified⟩
  exact ⟨(runs_status hloadable.recorded).mpr ⟨hadmitted, rfl⟩,
    runs_recover_terminal hterminal hadmitted⟩

def steady : HostOperations σ β where
  identify _ _ := .ok ()
  preflight _ _ _ host := (.ok (), host)
  drain host := (.ok (), host)
  snapshotState _ backups host := (.error "there is no state", backups, host)
  writeInactive _ _ _ _ host := (.ok "", host)
  stageBootTrial _ _ _ _ host := (.error "there is no boot loader", host)
  healthCheck _ host := (.ok (), host)
  bless _ host := (.ok (), host)
  selectPrior _ host := (.ok (), host)
  discardInactive _ host := (.ok (), host)
  installedStateSupport _ := .error "there is no state"
  persistentStateSchema _ := .error "there is no state"
  restoreState _ _ host := (.ok (), host)
  recordPersistentSchema _ host := (.ok (), host)

/-- A journal that stays readable can be loaded. -/
theorem StaysReadable.loadable (h : StaysReadable σ sha disk journal) (host : σ)
    (hrecorded : disk.journal = some journal) : Loadable sha disk journal := by
  let world : World σ β :=
    { layout := disk.layout, journal := disk.journal, backups := disk.backups,
      booted := disk.booted, host := host }
  obtain ⟨hstatus, -⟩ := h steady world rfl rfl
  exact (admitted_iff.mp ((runs_status hrecorded).mp hstatus).1).1

/-! ## Transactions that are over -/

/-- The layout file has the hash of the prepared layout and is another one. -/
def Collides (sha : Sha256 β) (layout : Document) (journal : Journal) : Prop :=
  ∃ next, journal.nextLayout = some next ∧
    sha.document layout = sha.document (jsonBytes next) ∧ layout ≠ jsonBytes next

/-- Before a commit and after it, a journal that is not too large can be loaded. -/
theorem Consistent.loadable (h : Consistent sha disk journal)
    (hrecorded : disk.journal = some journal) (hchecked : journal.phase ≠ .healthChecked)
    (hrolled : journal.phase ≠ .rolledBack) (hsize : journal.size ≤ maxJsonBytes) :
    Loadable sha disk journal where
  recorded := hrecorded
  size := hsize
  layout := ⟨h.size hchecked, h.valid⟩
  accepted := (accepts_iff hchecked).mpr (h.bound hchecked hrolled)
  slot := h.slot disk.booted
  evidence := checkEvidence_eq_ok.mpr <|
    (lt_or_ge journal.phase.index Phase.stateSaved.index).imp_right fun hlate ↦
      h.evidence hlate hrolled

/-- The hash that a rollback records is the one of the layout that it leaves. -/
theorem Consistent.reset_bound (h : Consistent sha disk journal)
    (haccepted : Accepts sha journal disk.layout)
    (hcollides : ¬ Collides sha disk.layout journal) :
    sha.document (Update.setBack journal disk.layout) =
      (journal.reset sha disk.layout).layoutSha256 := by
  unfold Journal.reset
  split
  · rename_i hactive
    rw [Update.setBack, if_pos hactive]
    by_cases hphase : journal.phase = .healthChecked
    · obtain ⟨-, -, -, -, -, -, hnext, hhash, -, -⟩ := (h.prepared hphase).next_eq
      refine ((accepts_iff_of_prepared hphase hnext hhash).mp haccepted).resolve_right ?_
      intro hsame
      refine hcollides ⟨journal.next, hnext, hsame, fun hlayout ↦ ?_⟩
      rw [hlayout] at hactive
      have htrial := Option.some.inj (hactive.symm.trans (h.next_ok hphase).2)
      rw [h.inactive] at htrial
      exact journal.priorHealthySlot.other_ne htrial.symm
    · exact (accepts_iff hphase).mp haccepted
  · rfl

theorem Journal.size_rolledBack : journal.rolledBack.size = journal.sizeAs .rolledBack :=
  journal.size_withPhase .rolledBack

theorem Journal.reset_stateBackup {layout : Document} :
    (journal.reset sha layout).stateBackup = journal.stateBackup := by
  unfold reset
  split <;> rfl

theorem Consistent.reset_slot (h : Consistent sha disk journal) {layout : Document} (slot : Slot) :
    slot = (journal.reset sha layout).priorHealthySlot ∨
      slot = (journal.reset sha layout).inactiveSlot := by
  unfold Journal.reset
  split <;> exact h.slot slot

/-- A rollback leaves a journal that can be loaded if it had its evidence and does not grow too
large. -/
theorem Consistent.loadable_undone (h : Consistent sha disk journal)
    (hloadable : Loadable sha disk journal)
    (hreads : LayoutReads (Update.setBack journal disk.layout))
    (hcollides : ¬ Collides sha disk.layout journal)
    (hevidence : Evidence sha disk.backups journal)
    (hsize : (journal.reset sha disk.layout).sizeAs .rolledBack ≤ maxJsonBytes) :
    Loadable sha (disk.undone sha journal) (journal.reset sha disk.layout).rolledBack where
  recorded := rfl
  size := by rwa [Journal.size_rolledBack]
  layout := hreads
  accepted := (accepts_iff (by rw [Journal.rolledBack_phase]; decide)).mpr
    (h.reset_bound hloadable.accepted hcollides)
  slot := h.reset_slot disk.booted
  evidence := by
    refine checkEvidence_eq_ok.mpr (.inr ?_)
    unfold Journal.reset
    split <;> exact hevidence

/-- A journal that was rolled back has its evidence only if the state was saved. -/
theorem Consistent.stateSaved_of_evidence (h : Consistent sha disk journal) {updated : Journal}
    {backups : Ordered.Map String β} (hbackup : updated.stateBackup = journal.stateBackup)
    (hevidence : checkEvidence sha updated.rolledBack backups = .ok ()) :
    Phase.stateSaved.index ≤ journal.phase.index := by
  by_contra hearly
  rcases checkEvidence_eq_ok.mp hevidence with hphase | ⟨name, -, hname, -, -⟩
  · exact absurd hphase (by rw [Journal.rolledBack_phase]; decide)
  · have hnone : updated.stateBackup = none := hbackup.trans (h.early (not_le.mp hearly))
    cases hnone.symm.trans hname

/-- The layout is the one that `recover` and `rollback` leave alone as long as the prior slot is
active in it. -/
theorem Consistent.reset_of_early (h : Consistent sha disk journal)
    (hearly : journal.phase.index < Phase.bootTrial.index) :
    journal.reset sha disk.layout = journal := by
  rw [Journal.reset, if_pos (h.active hearly.le)]

/-- What a rollback leaves stays readable if and only if the state was saved and the journal does
not grow too large. -/
theorem staysReadable_rollback {world after : World σ β} {updated : Journal}
    (hsound : Sound sha world.disk) (hrecorded : world.journal = some journal)
    (hcollides : ¬ Collides sha world.layout journal)
    (hruns : (rollback sha ops).Runs world updated after) :
    StaysReadable σ sha after.disk updated ↔ Phase.stateSaved.index ≤ journal.phase.index ∧
      (journal.reset sha world.layout).sizeAs .rolledBack ≤ maxJsonBytes := by
  obtain ⟨found, hloadable, hterminal, hreads, rfl, hafter⟩ := runs_rollback hruns
  obtain rfl : journal = found := Option.some.inj (hrecorded.symm.trans hloadable.recorded)
  have hconsistent := hsound journal hloadable.recorded
  rw [hafter]
  constructor
  · intro hreadable
    have hlast := hreadable.loadable world.host rfl
    refine ⟨hconsistent.stateSaved_of_evidence Journal.reset_stateBackup hlast.evidence, ?_⟩
    rw [← Journal.size_rolledBack]
    exact hlast.size
  · rintro ⟨hsaved, hsize⟩
    have hevidence := hconsistent.evidence hsaved fun hphase ↦ by
      rw [hphase] at hterminal
      cases hterminal
    exact .of_loadable hconsistent.reset_slot rfl
      (hconsistent.loadable_undone hloadable hreads hcollides hevidence hsize)

/-- So does what a recovery leaves that has given up the transaction. -/
theorem staysReadable_recover {world after : World σ β} {updated : Journal}
    (hsound : Sound sha world.disk) (hrecorded : world.journal = some journal)
    (hterminal : journal.phase.isTerminal = false) (hphase : updated.phase = .rolledBack)
    (hruns : (recover sha ops).Runs world updated after) :
    StaysReadable σ sha after.disk updated ↔ Phase.stateSaved.index ≤ journal.phase.index ∧
      (journal.reset sha world.layout).sizeAs .rolledBack ≤ maxJsonBytes := by
  obtain ⟨found, hloadable, rfl, hafter⟩ := runs_recover hruns
  obtain rfl : journal = found := Option.some.inj (hrecorded.symm.trans hloadable.recorded)
  have hconsistent := hsound journal hloadable.recorded
  have hearly : journal.phase.index < Phase.bootTrial.index := by
    by_contra hlate
    rw [Journal.recovered, if_neg hlate] at hphase
    rw [hphase] at hterminal
    cases hterminal
  have hne : journal.phase ≠ .healthChecked ∧ journal.phase ≠ .rolledBack := by
    constructor <;> intro heq <;> rw [heq] at hearly <;> exact absurd hearly (by decide)
  have hreset : journal.reset sha world.layout = journal := hconsistent.reset_of_early hearly
  rw [hafter, Journal.recovered, if_pos hearly, hreset, ← Journal.size_rolledBack]
  constructor
  · intro hreadable
    have hlast := hreadable.loadable world.host rfl
    exact ⟨hconsistent.stateSaved_of_evidence rfl hlast.evidence, hlast.size⟩
  · rintro ⟨hsaved, hsize⟩
    refine .of_loadable hconsistent.slot rfl
      ⟨rfl, hsize, hloadable.layout, ?_, hloadable.slot, ?_⟩
    · exact (accepts_iff (by rw [Journal.rolledBack_phase]; decide)).mpr
        (hconsistent.bound hne.1 hne.2)
    · exact checkEvidence_eq_ok.mpr (.inr (hconsistent.evidence hsaved hne.2))

/-- In every world that a history of commands reaches, cut off anywhere: a committed transaction
stays readable if and only if its journal is not too large, and one that `rollback` or `recover`
rolls back if and only if its state was saved and the journal does not grow too large by it. -/
theorem terminal_readable (start : World σ β) (hstart : start.journal = none)
    (events : List (Event σ β)) (hlawful : ∀ event ∈ events, event.Lawful sha) (journal : Journal)
    (hrecorded : (reached sha start events).journal = some journal) :
    (journal.phase = .healthCommitted →
      (StaysReadable σ sha (reached sha start events).disk journal ↔
        journal.size ≤ maxJsonBytes)) ∧
    ∀ (ops : HostOperations σ β) (updated : Journal) (after : World σ β),
      journal.phase.isTerminal = false →
      ¬ Collides sha (reached sha start events).layout journal →
      ((rollback sha ops).Runs (reached sha start events) updated after ∨
        (recover sha ops).Runs (reached sha start events) updated after) →
      updated.phase = .rolledBack →
      (StaysReadable σ sha after.disk updated ↔
        Phase.stateSaved.index ≤ journal.phase.index ∧
          (journal.reset sha (reached sha start events).layout).sizeAs .rolledBack ≤
            maxJsonBytes) := by
  have hnone : Sound sha start.disk := fun found hfound ↦ by
    cases hstart.symm.trans hfound
  have hsound := sound_reached hlawful hnone
  have hconsistent := hsound journal hrecorded
  constructor
  · intro hphase
    constructor
    · exact fun hreadable ↦
        (hreadable.loadable (reached sha start events).host hrecorded).size
    · exact fun hsize ↦ .of_loadable hconsistent.slot (by rw [hphase]; rfl)
        (hconsistent.loadable hrecorded (by rw [hphase]; decide) (by rw [hphase]; decide) hsize)
  · intro ops updated after hterminal hcollides hruns hphase
    rcases hruns with hruns | hruns
    · exact staysReadable_rollback hsound hrecorded hcollides hruns
    · exact staysReadable_recover hsound hrecorded hterminal hphase hruns

theorem fixtureApply_lawful (steps : ℕ) : (fixtureApply steps).Lawful fixtureSha :=
  (dutiful_faithful fixtureSha).toLawful

/-- The fixture's update after the state was saved. -/
def fixtureSaved : World Machine State := reached fixtureSha fixture [fixtureApply 7]

theorem terminal_readable_fixtureSaved :
    ∃ updated, (recover fixtureSha (dutiful fixtureSha)).Runs fixtureSaved updated
        ((recover fixtureSha (dutiful fixtureSha)).final fixtureSaved) ∧
      updated.phase = .rolledBack ∧
      StaysReadable Machine fixtureSha
        ((recover fixtureSha (dutiful fixtureSha)).final fixtureSaved).disk updated := by
  have hphase : fixtureSaved.journal.map Journal.phase = some .stateSaved := by decide +kernel
  have hnext : fixtureSaved.journal.bind Journal.nextLayout = none := by decide +kernel
  have hsize : ∀ journal ∈ fixtureSaved.journal,
      (journal.reset fixtureSha fixtureSaved.layout).sizeAs .rolledBack ≤ maxJsonBytes := by
    decide +kernel
  have hrolled : ((recover fixtureSha (dutiful fixtureSha) fixtureSaved).result.map
      Journal.phase).toOption = some .rolledBack := by decide +kernel
  cases hrecorded : fixtureSaved.journal with
  | none => rw [hrecorded] at hphase; cases hphase
  | some journal =>
    rw [hrecorded] at hphase hnext
    have hphase : journal.phase = .stateSaved := Option.some.inj hphase
    cases hresult : (recover fixtureSha (dutiful fixtureSha) fixtureSaved).result with
    | error e => rw [hresult] at hrolled; cases hrolled
    | ok updated =>
      rw [hresult] at hrolled
      have hrolled : updated.phase = .rolledBack := Option.some.inj hrolled
      have hruns := runs_of_ok hresult
      refine ⟨updated, hruns, hrolled, ?_⟩
      refine ((terminal_readable fixture rfl [fixtureApply 7]
        (fun event hmem ↦ List.mem_singleton.mp hmem ▸ fixtureApply_lawful 7) journal hrecorded).2
        (dutiful fixtureSha) updated _ (by rw [hphase]; rfl) ?_ (.inr hruns) hrolled).mpr ?_
      · rintro ⟨next, hsome, -⟩
        cases hnext.symm.trans hsome
      · exact ⟨by rw [hphase], hsize journal hrecorded⟩

/-- An update that was cut off before the state was saved is rolled back by the next boot, and its
journal cannot be read any more by the boots after that. -/
theorem rolledBack_unreadable :
    let cut := reached fixtureSha fixture [fixtureApply 2]
    let rolled := (recover fixtureSha (dutiful fixtureSha)).final cut
    ((recover fixtureSha (dutiful fixtureSha) cut).result.map Journal.phase).toOption =
        some .rolledBack ∧
      rolled.journal.map Journal.phase = some .rolledBack ∧
      (status fixtureSha (dutiful fixtureSha) rolled).result =
        .error "transaction lacks its state backup evidence" ∧
      (recover fixtureSha (dutiful fixtureSha) rolled).result =
        .error "transaction lacks its state backup evidence" := by
  decide +kernel

end Cameo.Update
