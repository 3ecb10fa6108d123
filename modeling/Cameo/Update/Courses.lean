import Cameo.Update.Phases

/-!
# What the commands do to the disk

A command reads and replaces the layout, the journal and the backups in a fixed order, with calls of
the adapter in between that touch none of them.  For each command, whatever holds of the few disks
it can pass through holds wherever it is cut off, and a complete course ends with the last of them.
-/

namespace Cameo.Update

open Json Library Library.Durable Library.Durable.Program

variable {σ β : Type}

/-- The files of the transaction and the slot that is booted. -/
structure Disk (β : Type) where
  layout : Document
  journal : Option Journal
  backups : Ordered.Map String β
  booted : Slot

def World.disk (world : World σ β) : Disk β where
  layout := world.layout
  journal := world.journal
  backups := world.backups
  booted := world.booted

/-- What `_journal` asks of the disk. -/
structure Loadable (sha : Sha256 β) (disk : Disk β) (journal : Journal) : Prop where
  recorded : disk.journal = some journal
  size : journal.size ≤ maxJsonBytes
  layout : LayoutReads disk.layout
  accepted : Accepts sha journal disk.layout
  slot : disk.booted = journal.priorHealthySlot ∨ disk.booted = journal.inactiveSlot
  evidence : checkEvidence sha journal disk.backups = .ok ()

variable {sha : Sha256 β} {ops : HostOperations σ β}

theorem admitted_iff {world : World σ β} {journal : Journal} :
    Admitted sha ops world journal ↔
      Loadable sha world.disk journal ∧ ops.identify world.layout.value world.host = .ok () :=
  ⟨fun h ↦ ⟨⟨h.recorded, h.size, h.layout, h.accepted, h.slot, h.evidence⟩, h.identified⟩,
    fun ⟨h, hidentified⟩ ↦
      ⟨h.recorded, h.size, h.layout, h.accepted, hidentified, h.slot, h.evidence⟩⟩

/-! ## Steps -/

section Steps

variable {α : Type} {stop : Disk β → Prop} {disk : Disk β}

/-- From a disk, a program is cut off on disks of a kind only, and ends as a postcondition says. -/
def Courses (disk : Disk β) (program : Program (World σ β) α) (stop : Disk β → Prop)
    (post : α → Disk β → Prop) : Prop :=
  Triple (fun world ↦ world.disk = disk) program (fun _ after ↦ stop after.disk)
    fun a after ↦ post a after.disk

/-- What holds of the disks on the way holds of every disk on which the program is cut off. -/
theorem Courses.stops {program : Program (World σ β) α} {post : α → Disk β → Prop}
    (h : Courses disk program stop post) (hstart : stop disk) {world : World σ β}
    (hworld : world.disk = disk) : ∀ found ∈ program.stops world, stop found.disk :=
  Triple.stops_invariant h (fun world ↦ stop world.disk) hworld (by rwa [hworld])
    fun _ _ _ hstop ↦ hstop

/-- It also holds of the disk that the program leaves. -/
theorem Courses.final {program : Program (World σ β) α} {post : α → Disk β → Prop}
    (h : Courses disk program stop post) (hstart : stop disk) {world : World σ β}
    (hworld : world.disk = disk) : stop (program.final world).disk :=
  h.stops hstart hworld _ List.getLastD_mem_cons

theorem courses_bind {γ : Type} {program : Program (World σ β) α}
    {next : α → Program (World σ β) γ} (middle : α → Disk β → Prop) {post : γ → Disk β → Prop}
    (hfirst : Courses disk program stop middle)
    (hrest : ∀ a passed, middle a passed → Courses passed (next a) stop post) :
    Courses disk (program >>= next) stop post :=
  triple_bind _ hfirst fun a world hmiddle ↦ hrest a world.disk hmiddle world rfl

/-- The same rule where more than the disk matters in the end. -/
theorem triple_bind_courses {γ : Type} {program : Program (World σ β) α}
    {next : α → Program (World σ β) γ} {kept : World σ β → Prop} (middle : α → Disk β → Prop)
    {post : γ → World σ β → Prop}
    (hfirst : Courses disk program (fun passed ↦ ∀ world, world.disk = passed → kept world) middle)
    (hrest : ∀ a passed, middle a passed →
      Triple (fun world ↦ world.disk = passed) (next a) (fun _ after ↦ kept after) post) :
    Triple (fun world ↦ world.disk = disk) (program >>= next) (fun _ after ↦ kept after) post :=
  triple_bind _ (hfirst.weaken (fun _ h ↦ h) (fun _ after hkept ↦ hkept after rfl) fun _ _ h ↦ h)
    fun a world hmiddle ↦ hrest a world.disk hmiddle world rfl

theorem courses_pure {a : α} {post : α → Disk β → Prop} (h : post a disk) :
    Courses disk (pure a : Program (World σ β) α) stop post :=
  triple_pure fun world hworld ↦ by rwa [hworld]

theorem courses_still {program : Program (World σ β) α} {post : α → Disk β → Prop}
    (hstill : program.Still)
    (hpost : ∀ world a after, world.disk = disk → program.Runs world a after → post a after.disk) :
    Courses disk program stop post :=
  hstill.triple hpost

theorem courses_require {cond : Prop} [Decidable cond] {e : String} :
    Courses disk (require cond e : Program (World σ β) Unit) stop
      fun _ passed ↦ cond ∧ passed = disk :=
  triple_require fun hcond _ hworld ↦ ⟨hcond, hworld⟩

/-- A step from a disk to a disk. -/
theorem courses_perform {step : World σ β → Except String α × World σ β} (after : Disk β)
    (hstep : ∀ world, world.disk = disk → (step world).2.disk = after) (hstop : stop after) :
    Courses disk (perform step) stop fun _ passed ↦ passed = after := by
  refine triple_perform (fun world hworld ↦ ?_) fun world a found hworld hfound ↦ ?_
  · rwa [hstep world hworld]
  · have hafter := hstep world hworld
    rwa [hfound] at hafter

/-- A call of the adapter stays on the disk. -/
theorem courses_call (hstop : stop disk) (operation : σ → Except String α × σ) :
    Courses disk (call operation : Program (World σ β) α) stop fun _ passed ↦ passed = disk :=
  courses_perform disk (fun _ hworld ↦ hworld) hstop

theorem courses_restoreState (hstop : stop disk) (backup : String) :
    Courses disk (restoreState ops backup) stop fun _ passed ↦ passed = disk :=
  courses_perform disk (fun _ hworld ↦ hworld) hstop

theorem courses_writeJournal {journal : Journal}
    (hstop : stop { disk with journal := some journal }) :
    Courses disk (writeJournal journal : Program (World σ β) Unit) stop
      fun _ passed ↦ passed = { disk with journal := some journal } :=
  courses_perform _ (fun _ hworld ↦ by rw [← hworld]; rfl) hstop

theorem courses_writeLayout {layout : Value}
    (hstop : stop { disk with layout := jsonBytes layout }) :
    Courses disk (writeLayout layout : Program (World σ β) Unit) stop
      fun _ passed ↦ passed = { disk with layout := jsonBytes layout } :=
  courses_perform _ (fun _ hworld ↦ by rw [← hworld]; rfl) hstop

theorem courses_advance {journal : Journal} {phase : Phase} {sequential : Bool}
    (hstop : stop { disk with journal := some { journal with phase := phase } }) :
    Courses disk (advance journal phase sequential : Program (World σ β) Journal) stop
      fun updated passed ↦ updated = { journal with phase := phase } ∧
        passed = { disk with journal := some { journal with phase := phase } } := by
  refine courses_bind _ courses_require fun _ passed hpassed ↦ ?_
  obtain ⟨-, rfl⟩ := hpassed
  refine courses_bind _ (courses_writeJournal hstop) fun _ passed hpassed ↦ ?_
  exact courses_pure ⟨rfl, hpassed⟩

theorem courses_loadLayout :
    Courses disk (loadLayout sha : Program (World σ β) (Value × String)) stop
      fun found passed ↦ LayoutReads disk.layout ∧
        found = (disk.layout.value, sha.document disk.layout) ∧ passed = disk := by
  refine courses_still still_loadLayout fun world found after hworld hruns ↦ ?_
  obtain ⟨hlayout, rfl, rfl⟩ := runs_loadLayout.mp hruns
  subst hworld
  exact ⟨hlayout, rfl, rfl⟩

theorem courses_observedActiveSlot {layout : Value} :
    Courses disk (observedActiveSlot ops layout) stop
      fun slot passed ↦ slot = disk.booted ∧ passed = disk := by
  refine courses_still still_observedActiveSlot fun world slot after hworld hruns ↦ ?_
  obtain ⟨-, rfl, rfl⟩ := runs_observedActiveSlot.mp hruns
  subst hworld
  exact ⟨rfl, rfl⟩

theorem courses_loadJournal :
    Courses disk (loadJournal sha ops) stop
      fun journal passed ↦ Loadable sha disk journal ∧ passed = disk := by
  refine courses_still still_loadJournal fun world journal after hworld hruns ↦ ?_
  obtain ⟨hadmitted, rfl⟩ := runs_loadJournal.mp hruns
  subst hworld
  exact ⟨(admitted_iff.mp hadmitted).1, rfl⟩

end Steps

/-! ## Ending a transaction -/

section Ending

variable {stop : Disk β → Prop} {disk : Disk β} {journal : Journal}

theorem courses_restorePriorState (hstop : stop disk) :
    Courses disk (restorePriorState ops journal) stop fun _ passed ↦ passed = disk := by
  unfold restorePriorState
  split
  · exact courses_pure rfl
  · split
    · exact courses_pure rfl
    · split
      · exact triple_fail
      · refine courses_bind _ (courses_restoreState hstop _) fun _ passed hpassed ↦ ?_
        subst hpassed
        exact courses_call hstop _

def Journal.rolledBack (journal : Journal) : Journal := { journal with phase := .rolledBack }

@[simp]
theorem Journal.rolledBack_phase : journal.rolledBack.phase = .rolledBack := rfl

theorem courses_returnToPrior (hstop : stop disk)
    (hrolled : stop { disk with journal := some journal.rolledBack }) :
    Courses disk (returnToPrior ops journal) stop fun updated passed ↦
      updated = journal.rolledBack ∧ passed = { disk with journal := some journal.rolledBack } := by
  refine courses_bind _ (courses_restorePriorState hstop) fun _ passed hpassed ↦ ?_
  subst hpassed
  refine courses_bind _ (courses_call hstop _) fun _ passed hpassed ↦ ?_
  subst hpassed
  refine courses_bind _ (courses_call hstop _) fun _ passed hpassed ↦ ?_
  subst hpassed
  exact courses_advance hrolled

/-- The layout file with the prior slot active. -/
def setBack (journal : Journal) (layout : Document) : Document :=
  if activeSlot layout.value = some journal.priorHealthySlot then layout
  else jsonBytes (withActive layout.value journal.priorHealthySlot)

/-- What a rollback makes of the journal when it sets the layout back. -/
def Journal.reset (sha : Sha256 β) (journal : Journal) (layout : Document) : Journal :=
  if Update.activeSlot layout.value = some journal.priorHealthySlot then journal
  else { journal with
    layoutSha256 := sha.document (setBack journal layout)
    nextLayoutSha256 := none
    nextLayout := none }

theorem courses_resetLayout (hlayout : LayoutReads disk.layout)
    (hstop : stop { disk with layout := setBack journal disk.layout }) :
    Courses disk (resetLayout sha journal disk.layout.value : Program (World σ β) Journal) stop
      fun updated passed ↦ (updated = journal.reset sha disk.layout ∧
        LayoutReads (setBack journal disk.layout)) ∧
        passed = { disk with layout := setBack journal disk.layout } := by
  unfold resetLayout Journal.reset
  unfold setBack at hstop ⊢
  split at hstop
  · rename_i hactive
    simp only [if_pos hactive]
    exact courses_pure ⟨⟨rfl, hlayout⟩, rfl⟩
  · rename_i hactive
    simp only [if_neg hactive]
    refine courses_bind _ (courses_writeLayout hstop) fun _ passed hpassed ↦ ?_
    subst hpassed
    refine courses_bind _ courses_loadLayout fun found passed hpassed ↦ ?_
    obtain ⟨hreads, rfl, rfl⟩ := hpassed
    exact courses_pure ⟨⟨rfl, hreads⟩, rfl⟩

/-- The disk after a rollback. -/
def Disk.undone (sha : Sha256 β) (disk : Disk β) (journal : Journal) : Disk β :=
  { disk with
    layout := setBack journal disk.layout
    journal := some (journal.reset sha disk.layout).rolledBack }

theorem courses_rollback
    (hstart : stop disk)
    (hset : ∀ journal, Loadable sha disk journal → journal.phase.isTerminal = false →
      stop { disk with layout := setBack journal disk.layout })
    (hend : ∀ journal, Loadable sha disk journal → journal.phase.isTerminal = false →
      LayoutReads (setBack journal disk.layout) → stop (disk.undone sha journal)) :
    Courses disk (rollback sha ops) stop fun updated passed ↦ ∃ journal,
      Loadable sha disk journal ∧ journal.phase.isTerminal = false ∧
        LayoutReads (setBack journal disk.layout) ∧
        updated = (journal.reset sha disk.layout).rolledBack ∧
        passed = disk.undone sha journal := by
  refine courses_bind _ courses_loadJournal fun journal passed hpassed ↦ ?_
  obtain ⟨hloadable, rfl⟩ := hpassed
  refine courses_bind _ courses_require fun _ passed hpassed ↦ ?_
  obtain ⟨hterminal, rfl⟩ := hpassed
  refine courses_bind _ courses_loadLayout fun found passed hpassed ↦ ?_
  obtain ⟨-, rfl, rfl⟩ := hpassed
  have hset := hset journal hloadable hterminal
  refine courses_bind _ (courses_resetLayout hloadable.layout hset) fun updated passed hpassed ↦ ?_
  obtain ⟨⟨rfl, hreads⟩, rfl⟩ := hpassed
  refine (courses_returnToPrior hset (hend journal hloadable hterminal hreads)).weaken
    (fun _ h ↦ h) (fun _ _ h ↦ h) ?_
  rintro updated world ⟨rfl, hworld⟩
  exact ⟨journal, hloadable, hterminal, hreads, rfl, hworld⟩

/-- What a complete rollback has done. -/
theorem runs_rollback {world after : World σ β} {updated : Journal}
    (h : (rollback sha ops).Runs world updated after) :
    ∃ journal, Loadable sha world.disk journal ∧ journal.phase.isTerminal = false ∧
      LayoutReads (setBack journal world.layout) ∧
      updated = (journal.reset sha world.layout).rolledBack ∧
      after.disk = world.disk.undone sha journal := by
  have hcourses : Courses world.disk (rollback sha ops) (fun _ ↦ True) _ :=
    courses_rollback trivial (fun _ _ _ ↦ trivial) fun _ _ _ _ ↦ trivial
  exact (hcourses world rfl).2 updated after h

theorem Phase.bootTrial_le_of_isTerminal {phase : Phase} (h : phase.isTerminal = true) :
    Phase.bootTrial.index ≤ phase.index := by
  cases phase with
  | healthCommitted => decide
  | rolledBack => decide
  | _ => cases h

/-- What `recover` does to the journal. -/
def Journal.recovered (journal : Journal) : Journal :=
  if journal.phase.index < Phase.bootTrial.index then journal.rolledBack else journal

theorem courses_recover
    (hstart : stop disk)
    (hend : ∀ journal, Loadable sha disk journal →
      journal.phase.index < Phase.bootTrial.index →
      stop { disk with journal := some journal.rolledBack }) :
    Courses disk (recover sha ops) stop fun updated passed ↦ ∃ journal,
      Loadable sha disk journal ∧ updated = journal.recovered ∧
        passed = { disk with journal := some journal.recovered } := by
  have hsame {journal : Journal} (hloadable : Loadable sha disk journal)
      (hphase : ¬ journal.phase.index < Phase.bootTrial.index) :
      ∃ found, Loadable sha disk found ∧ journal = found.recovered ∧
        disk = { disk with journal := some found.recovered } := by
    refine ⟨journal, hloadable, ?_, ?_⟩
    · rw [Journal.recovered, if_neg hphase]
    · rw [Journal.recovered, if_neg hphase, ← hloadable.recorded]
  refine courses_bind _ courses_loadJournal fun journal passed hpassed ↦ ?_
  obtain ⟨hloadable, rfl⟩ := hpassed
  split
  · rename_i hterminal
    exact courses_pure (hsame hloadable (Phase.bootTrial_le_of_isTerminal hterminal).not_gt)
  · split
    · rename_i hphase
      refine (courses_returnToPrior hstart (hend journal hloadable hphase)).weaken (fun _ h ↦ h)
        (fun _ _ h ↦ h) ?_
      rintro updated world ⟨rfl, hworld⟩
      refine ⟨journal, hloadable, ?_, ?_⟩
      · rw [Journal.recovered, if_pos hphase]
      · rw [Journal.recovered, if_pos hphase]
        exact hworld
    · rename_i hphase
      refine courses_bind _ courses_loadLayout fun found passed hpassed ↦ ?_
      obtain ⟨-, rfl, rfl⟩ := hpassed
      refine courses_bind _ courses_observedActiveSlot fun slot passed hpassed ↦ ?_
      obtain ⟨rfl, rfl⟩ := hpassed
      split
      · refine courses_bind _ (courses_restorePriorState hstart) fun _ passed hpassed ↦ ?_
        subst hpassed
        exact courses_pure (hsame hloadable hphase)
      · exact courses_pure (hsame hloadable hphase)

/-- What a complete recovery has done. -/
theorem runs_recover {world after : World σ β} {updated : Journal}
    (h : (recover sha ops).Runs world updated after) :
    ∃ journal, Loadable sha world.disk journal ∧ updated = journal.recovered ∧
      after.disk = { world.disk with journal := some journal.recovered } := by
  have hcourses : Courses world.disk (recover sha ops) (fun _ ↦ True) _ :=
    courses_recover trivial fun _ _ _ ↦ trivial
  exact (hcourses world rfl).2 updated after h

end Ending

/-! ## Committing -/

section Committing

variable {stop : Disk β → Prop} {disk : Disk β} {journal : Journal}

/-- What `commit` asks beyond a journal that can be loaded. -/
structure Committable (disk : Disk β) (journal : Journal) : Prop where
  phase : journal.phase = .bootTrial ∨ journal.phase = .healthChecked
  trial : disk.booted = journal.inactiveSlot

/-- The journal with the layout that `commit` is to write. -/
def Journal.checked (sha : Sha256 β) (journal : Journal) (layout : Document) : Journal :=
  if journal.phase = .bootTrial then
    { journal with
      phase := .healthChecked
      nextLayoutSha256 := some (sha.document (jsonBytes
        (promoted layout.value journal.inactiveSlot journal.bootEntry)))
      nextLayout := some (promoted layout.value journal.inactiveSlot journal.bootEntry) }
  else journal

/-- The layout that `commit` writes. -/
def Journal.next (journal : Journal) : Value :=
  if Update.activeSlot (journal.nextLayout.getD .null) = some journal.inactiveSlot then
    journal.nextLayout.getD .null
  else promoted (journal.nextLayout.getD .null) journal.inactiveSlot journal.bootEntry

def Journal.committed (sha : Sha256 β) (journal : Journal) : Journal :=
  { journal with
    phase := .healthCommitted
    layoutSha256 := sha.document (jsonBytes journal.next)
    nextLayoutSha256 := none
    nextLayout := none }

theorem Journal.checked_targetStateWrites (layout : Document) :
    (journal.checked sha layout).targetStateWrites = journal.targetStateWrites := by
  unfold checked
  split <;> rfl

theorem courses_prepareLayout (hstop : stop disk)
    (hchecked : stop { disk with journal := some (journal.checked sha disk.layout) })
    (hrecorded : disk.journal = some journal) :
    Courses disk (prepareLayout sha ops journal disk.layout.value) stop fun found passed ↦
      found = ((journal.checked sha disk.layout).nextLayout.getD .null,
        journal.checked sha disk.layout) ∧
      passed = { disk with journal := some (journal.checked sha disk.layout) } := by
  unfold prepareLayout
  unfold Journal.checked at hchecked ⊢
  split at hchecked
  · rename_i hphase
    simp only [if_pos hphase]
    refine courses_bind _ (courses_call hstop _) fun _ passed hpassed ↦ ?_
    subst hpassed
    refine courses_bind _ (courses_advance hchecked) fun updated passed hpassed ↦ ?_
    obtain ⟨rfl, rfl⟩ := hpassed
    exact courses_pure ⟨rfl, rfl⟩
  · rename_i hphase
    simp only [if_neg hphase]
    refine courses_pure ⟨rfl, ?_⟩
    rw [← hrecorded]

/-- The disks that a commit passes through before it ends. -/
inductive Committing (sha : Sha256 β) (disk : Disk β) (journal : Journal) : Disk β → Prop where
  | checked : Committing sha disk journal
      { disk with journal := some (journal.checked sha disk.layout) }
  | written : Committing sha disk journal
      { disk with
        journal := some (journal.checked sha disk.layout)
        layout := jsonBytes (journal.checked sha disk.layout).next }

/-- The adapter has recorded a schema and left the host so. -/
def Recording (ops : HostOperations σ β) (writes : ℕ) (host : σ) : Prop :=
  ∃ before, ops.recordPersistentSchema writes before = (.ok (), host)

def Disk.committed (sha : Sha256 β) (disk : Disk β) (journal : Journal) : Disk β :=
  { disk with
    journal := some ((journal.checked sha disk.layout).committed sha)
    layout := jsonBytes (journal.checked sha disk.layout).next }

/-- The end of a commit. -/
theorem triple_record_advance {kept : World σ β → Prop} {writes : ℕ}
    (hstart : ∀ world, world.disk = disk → kept world)
    (hdone : ∀ world,
      world.disk = { disk with journal := some { journal with phase := .healthCommitted } } →
        Recording ops writes world.host → kept world) :
    Triple (fun world ↦ world.disk = disk)
      (do
        call (ops.recordPersistentSchema writes)
        advance journal .healthCommitted true)
      (fun _ after ↦ kept after) fun updated after ↦
        updated = { journal with phase := .healthCommitted } ∧
          after.disk = { disk with journal := some { journal with phase := .healthCommitted } } ∧
          Recording ops writes after.host := by
  have hwrite (world : World σ β) (hworld : world.disk = disk) :
      { world with journal := some { journal with phase := .healthCommitted } }.disk =
        { disk with journal := some { journal with phase := .healthCommitted } } := by
    rw [← hworld]
    rfl
  refine triple_bind (fun _ world ↦ world.disk = disk ∧ Recording ops writes world.host)
    (triple_perform ?_ ?_) fun _ ↦ ?_
  · exact fun world hworld ↦ hstart _ hworld
  · rintro world ⟨⟩ after hworld hcall
    obtain ⟨hok, rfl⟩ := Prod.mk.inj hcall
    exact ⟨hworld, world.host, Prod.ext hok rfl⟩
  refine triple_bind (fun _ world ↦ world.disk = disk ∧ Recording ops writes world.host)
    (triple_require fun _ _ hworld ↦ hworld) fun _ ↦ ?_
  refine triple_bind (fun _ after ↦
    after.disk = { disk with journal := some { journal with phase := .healthCommitted } } ∧
      Recording ops writes after.host) (triple_perform ?_ ?_) fun _ ↦ ?_
  · exact fun world ⟨hworld, hrecording⟩ ↦ hdone _ (hwrite world hworld) hrecording
  · rintro world ⟨⟩ after ⟨hworld, hrecording⟩ hstep
    obtain ⟨-, rfl⟩ := Prod.mk.inj hstep
    exact ⟨hwrite world hworld, hrecording⟩
  · exact triple_pure fun _ hafter ↦ ⟨rfl, hafter⟩

/-- What holds of the worlds that a commit passes through holds wherever it is cut off.  On the last
of their disks the schema of the target was recorded. -/
theorem triple_commit_recording {kept : World σ β → Prop}
    (hstart : ∀ world, world.disk = disk → kept world)
    (hkept : ∀ journal passed, Loadable sha disk journal → Committable disk journal →
      Committing sha disk journal passed → ∀ world, world.disk = passed → kept world)
    (hdone : ∀ journal, Loadable sha disk journal → Committable disk journal →
      LayoutReads (jsonBytes (journal.checked sha disk.layout).next) →
        ∀ world, world.disk = disk.committed sha journal →
          Recording ops journal.targetStateWrites world.host → kept world) :
    Triple (fun world ↦ world.disk = disk) (commit sha ops) (fun _ after ↦ kept after)
      fun updated after ↦ ∃ journal, Loadable sha disk journal ∧ Committable disk journal ∧
        updated = (journal.checked sha disk.layout).committed sha ∧
        after.disk = disk.committed sha journal ∧
        Recording ops journal.targetStateWrites after.host := by
  refine triple_bind_courses _ courses_loadJournal fun journal passed hpassed ↦ ?_
  obtain ⟨hloadable, rfl⟩ := hpassed
  refine triple_bind_courses _ courses_require fun _ passed hpassed ↦ ?_
  obtain ⟨hphase, rfl⟩ := hpassed
  refine triple_bind_courses _ courses_loadLayout fun found passed hpassed ↦ ?_
  obtain ⟨-, rfl, rfl⟩ := hpassed
  refine triple_bind_courses _ courses_observedActiveSlot fun slot passed hpassed ↦ ?_
  obtain ⟨rfl, rfl⟩ := hpassed
  refine triple_bind_courses _ courses_require fun _ passed hpassed ↦ ?_
  obtain ⟨htrial, rfl⟩ := hpassed
  have hcommit : Committable passed journal := ⟨hphase, htrial⟩
  have hkept := fun found ↦ hkept journal found hloadable hcommit
  refine triple_bind_courses _
    (courses_prepareLayout hstart (hkept _ .checked) hloadable.recorded)
    fun prepared found hpassed ↦ ?_
  obtain ⟨rfl, rfl⟩ := hpassed
  refine triple_bind_courses _ (courses_call (hkept _ .checked) _) fun _ found hpassed ↦ ?_
  subst hpassed
  refine triple_bind_courses _ (courses_writeLayout (hkept _ .written)) fun _ found hpassed ↦ ?_
  subst hpassed
  refine triple_bind_courses _ courses_loadLayout fun loaded found hpassed ↦ ?_
  obtain ⟨hreads, rfl, rfl⟩ := hpassed
  have htarget : (journal.checked sha passed.layout).targetStateWrites =
      journal.targetStateWrites := Journal.checked_targetStateWrites passed.layout
  refine Triple.weaken (triple_record_advance (hkept _ .written) ?_) (fun _ h ↦ h)
    (fun _ _ h ↦ h) ?_
  · intro world hworld hrecording
    rw [htarget] at hrecording
    exact hdone journal hloadable hcommit hreads world hworld hrecording
  · rintro updated world ⟨rfl, hworld, hrecording⟩
    rw [htarget] at hrecording
    exact ⟨journal, hloadable, hcommit, rfl, hworld, hrecording⟩

theorem courses_commit (hstart : stop disk)
    (hstop : ∀ journal passed, Loadable sha disk journal → Committable disk journal →
      Committing sha disk journal passed → stop passed)
    (hdone : ∀ journal, Loadable sha disk journal → Committable disk journal →
      LayoutReads (jsonBytes (journal.checked sha disk.layout).next) →
        stop (disk.committed sha journal)) :
    Courses disk (commit sha ops) stop fun updated passed ↦ ∃ journal,
      Loadable sha disk journal ∧ Committable disk journal ∧
        updated = (journal.checked sha disk.layout).committed sha ∧
        passed = disk.committed sha journal := by
  refine (triple_commit_recording ?_ ?_ ?_).weaken (fun _ h ↦ h) (fun _ _ h ↦ h) ?_
  · rintro world rfl
    exact hstart
  · rintro journal passed hloadable hcommit hpassed world rfl
    exact hstop journal _ hloadable hcommit hpassed
  · intro journal hloadable hcommit hreads world hworld _
    rw [hworld]
    exact hdone journal hloadable hcommit hreads
  · rintro updated world ⟨journal, hloadable, hcommit, hupdated, hworld, -⟩
    exact ⟨journal, hloadable, hcommit, hupdated, hworld⟩

end Committing

/-! ## Applying -/

section Applying

variable {stop : Disk β → Prop} {disk : Disk β} {manifest : Document}

/-- The journal that `apply` begins with on a disk. -/
structure Begins (sha : Sha256 β) (manifest : Document) (disk : Disk β) (first : Journal) :
    Prop where
  ended : ∀ journal ∈ disk.journal, journal.phase.isTerminal = true
  layout : LayoutReads disk.layout
  active : activeSlot disk.layout.value = some disk.booted
  first : ∃ prior target,
    first = newJournal sha manifest disk.layout.value (sha.document disk.layout) disk.booted prior
      target

/-- The first journal with what is recorded when the state is saved. -/
def Journal.saved (first : Journal) (name hash : String) : Journal :=
  { first with phase := .stateSaved, stateBackup := some name, stateBackupSha256 := some hash }

/-- The disks that `apply` passes through once it has begun. -/
inductive Applying (sha : Sha256 β) (ops : HostOperations σ β) (manifest : Document) (disk : Disk β)
    (first : Journal) : Disk β → Prop where
  | early (phase : Phase) (h : phase.index < Phase.stateSaved.index) :
    Applying sha ops manifest disk first { disk with journal := some { first with phase := phase } }
  | snapshot (host : σ) :
    Applying sha ops manifest disk first
      { disk with
        journal := some { first with phase := .drained }
        backups := (ops.snapshotState (backupName sha manifest) disk.backups host).2.1 }
  | saved (hash : String) (backups : Ordered.Map String β) (journal : Journal)
      (hsaved : ∃ host after, ops.snapshotState (backupName sha manifest) disk.backups host =
        (.ok hash, backups, after))
      (hjournal : journal = first.saved (backupName sha manifest) hash ∨
        (∃ generation, journal = { first.saved (backupName sha manifest) hash with
          phase := .inactiveWritten, generation := generation }) ∨
        ∃ generation entry layout slot host after,
          ops.stageBootTrial layout manifest.value slot generation host = (.ok entry, after) ∧
          journal = { first.saved (backupName sha manifest) hash with
            phase := .bootTrial, generation := some generation, bootEntry := some entry }) :
    Applying sha ops manifest disk first { disk with journal := some journal, backups := backups }

theorem courses_prepare {manifestPath : String} :
    Courses disk (prepare sha ops manifestPath manifest) stop fun found passed ↦
      (Begins sha manifest disk found.2 ∧ found.1 = disk.layout.value) ∧ passed = disk := by
  refine courses_still still_prepare fun world found after hworld hruns ↦ ?_
  obtain ⟨prior, target, hready, rfl, rfl⟩ := runs_prepare.mp hruns
  subst hworld
  exact ⟨⟨⟨hready.ended, hready.layout, hready.active, prior, target, rfl⟩, rfl⟩, rfl⟩

theorem courses_snapshotState {name : String}
    (hstop : ∀ host, stop { disk with backups := (ops.snapshotState name disk.backups host).2.1 }) :
    Courses disk (snapshotState ops name) stop fun hash passed ↦ ∃ host after backups,
      ops.snapshotState name disk.backups host = (.ok hash, backups, after) ∧
        passed = { disk with backups := backups } := by
  refine triple_perform (fun world hworld ↦ ?_) fun world hash after hworld hcall ↦ ?_
  · subst hworld
    exact hstop world.host
  · obtain ⟨hresult, rfl⟩ := Prod.mk.inj hcall
    subst hworld
    exact ⟨world.host, _, _, Prod.ext hresult rfl, rfl⟩

/-- A call of the adapter says what it returned. -/
theorem courses_call_eq {α : Type} (hstop : stop disk) (operation : σ → Except String α × σ) :
    Courses disk (call operation : Program (World σ β) α) stop fun a passed ↦
      (∃ host after, operation host = (.ok a, after)) ∧ passed = disk := by
  refine triple_perform (fun world hworld ↦ ?_) fun world a after hworld hcall ↦ ?_
  · change stop world.disk
    rwa [hworld]
  · obtain ⟨hresult, rfl⟩ := Prod.mk.inj hcall
    exact ⟨⟨world.host, _, Prod.ext hresult rfl⟩, hworld⟩

theorem courses_apply {bundle manifestPath : String}
    (hstop : ∀ first passed, Begins sha manifest disk first →
      Applying sha ops manifest disk first passed → stop passed) :
    Courses disk (apply sha ops bundle manifestPath manifest) stop fun _ _ ↦ True := by
  refine courses_bind _ courses_prepare fun prepared passed hpassed ↦ ?_
  obtain ⟨layout, first⟩ := prepared
  obtain ⟨⟨hbegins, rfl⟩, rfl⟩ := hpassed
  have hstop (found : Disk β) (h : Applying sha ops manifest passed first found) : stop found :=
    hstop first found hbegins h
  have hverified : first = { first with phase := .verified } := by
    obtain ⟨prior, target, rfl⟩ := hbegins.first
    rfl
  have hfirst : stop { passed with journal := some first } := by
    rw [hverified]
    exact hstop _ (.early .verified (by decide))
  refine courses_bind _ (courses_writeJournal hfirst) fun _ found hpassed ↦ ?_
  subst hpassed
  refine courses_bind _ (courses_call hfirst _) fun _ found hpassed ↦ ?_
  subst hpassed
  have hpreflighted := hstop _ (.early .preflighted (by decide))
  refine courses_bind _ (courses_advance hpreflighted) fun updated found hpassed ↦ ?_
  obtain ⟨rfl, rfl⟩ := hpassed
  refine courses_bind _ (courses_call hpreflighted _) fun _ found hpassed ↦ ?_
  subst hpassed
  have hdrained := hstop _ (.early .drained (by decide))
  refine courses_bind _ (courses_advance hdrained) fun updated found hpassed ↦ ?_
  obtain ⟨rfl, rfl⟩ := hpassed
  refine courses_bind _ (courses_snapshotState fun host ↦ hstop _ (.snapshot host))
    fun hash found hpassed ↦ ?_
  obtain ⟨host, after, backups, hsnapshot, rfl⟩ := hpassed
  have hsaved (journal : Journal) hjournal :=
    hstop _ (.saved hash backups journal ⟨host, after, hsnapshot⟩ hjournal)
  refine courses_bind _ (courses_advance (hsaved _ (.inl rfl))) fun updated found hpassed ↦ ?_
  obtain ⟨rfl, rfl⟩ := hpassed
  refine courses_bind _ (courses_call (hsaved _ (.inl rfl)) _) fun generation found hpassed ↦ ?_
  subst hpassed
  have hwritten := hsaved _ (.inr (.inl ⟨some generation, rfl⟩))
  refine courses_bind _ (courses_advance hwritten) fun updated found hpassed ↦ ?_
  obtain ⟨rfl, rfl⟩ := hpassed
  refine courses_bind _ (courses_call_eq hwritten _) fun entry found hpassed ↦ ?_
  obtain ⟨⟨host, after, hentry⟩, rfl⟩ := hpassed
  refine (courses_advance (hsaved _ (.inr (.inr
    ⟨generation, entry, _, _, host, after, hentry, rfl⟩)))).weaken (fun _ h ↦ h) (fun _ _ h ↦ h) ?_
  exact fun _ _ _ ↦ trivial

end Applying

end Cameo.Update
