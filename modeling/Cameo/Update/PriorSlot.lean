import Cameo.Update.Rerun

/-!
# What the prior slot meets

The prior slot is not to be selected, or left running, when the persistent state is in a schema that
the prior release cannot read.  Whether the snapshot is restored first depends on the phase on
record.  A trial that is booted before its phase is recorded, or that still runs after the rollback,
writes a state that nothing restores.  Otherwise the prior slot can read what it meets, in every run
of commands, power losses, reboots and writes.
-/

namespace Cameo.Update

open Json Library Library.Durable Library.Durable.Program

/-! ## Runs of the machine -/

def Journal.writesOf (journal : Journal) (slot : Slot) : ℕ :=
  if slot = journal.inactiveSlot then journal.targetStateWrites else journal.priorStateWrites

/-- The trial may have been booted and was not given up. -/
def Phase.trying : Phase → Bool
  | bootTrial | healthChecked | healthCommitted => true
  | _ => false

theorem Phase.bootTrial_le_of_trying {phase : Phase} (h : phase.trying = true) :
    Phase.bootTrial.index ≤ phase.index := by
  cases phase with
  | bootTrial => decide
  | healthChecked => decide
  | healthCommitted => decide
  | _ => cases h

theorem Phase.trying_of_bootTrial_le {phase : Phase} (hterminal : phase.isTerminal = false)
    (h : Phase.bootTrial.index ≤ phase.index) : phase.trying = true := by
  cases phase with
  | bootTrial => rfl
  | healthChecked => rfl
  | healthCommitted => rfl
  | rolledBack => cases hterminal
  | _ => exact absurd h (by decide)

/-- The machine is booted again: into the slot that the boot loader was last told to use, or into
the prior slot if the other one is still being assessed. -/
def Reboots (world : World Machine State) (booted : Slot) (host : Machine) : Prop :=
  host = world.host ∧ (booted = world.host.told ∨ world.host.assessing = true ∧
    world.journal.map Journal.priorHealthySlot = some booted)

/-- The release in the booted slot writes the persistent state, in the schema it writes. -/
def Rewrites (world : World Machine State) (booted : Slot) (host : Machine) : Prop :=
  booted = world.booted ∧ host = { world.host with state := host.state } ∧
    ∀ journal ∈ world.journal, host.state.schema = journal.writesOf booted

instance (world : World Machine State) (booted : Slot) (host : Machine) :
    Decidable (Reboots world booted host) := inferInstanceAs (Decidable (_ ∧ _))

instance (world : World Machine State) (booted : Slot) (host : Machine) :
    Decidable (Rewrites world booted host) := inferInstanceAs (Decidable (_ ∧ _))

def Possible (sha : Sha256 State) (world : World Machine State) : Event Machine State → Prop
  | .issue command _ => command.operations.Faithful sha
  | .outside booted host => Reboots world booted host ∨ Rewrites world booted host

/-- The part of `Possible` that does not depend on an adapter. -/
def Happens (world : World Machine State) : Event Machine State → Prop
  | .issue _ _ => True
  | .outside booted host => Reboots world booted host ∨ Rewrites world booted host

instance (world : World Machine State) : (event : Event Machine State) →
    Decidable (Happens world event)
  | .issue _ _ => .isTrue trivial
  | .outside _ _ => inferInstanceAs (Decidable (_ ∨ _))

/-- An update begins when the running release can read the state, and the release in the other slot
writes what the prior release cannot read only while the journal says that it is being tried. -/
def Heeded (world : World Machine State) : Event Machine State → Prop
  | .issue (.apply ops _ _ _) _ => ∀ installed support,
      ops.installedStateSupport world.host = .ok installed →
        validateStateSupport installed true = .ok support →
          world.host.state.schema ∈ support.reads
  | .issue _ _ => True
  | .outside booted host => host.state ≠ world.host.state → ∀ journal ∈ world.journal,
      booted = journal.inactiveSlot → journal.targetStateWrites ∉ journal.priorStateReads →
        journal.phase.trying = true

/-! ## The invariant -/

/-- What a journal says about the state and the boot loader. -/
structure Covers (world : World Machine State) (journal : Journal) : Prop where
  inactive : journal.inactiveSlot = journal.priorHealthySlot.other
  writes : journal.priorStateWrites ∈ journal.priorStateReads
  requires : journal.rollbackRequiresStateRestore = false →
    journal.targetStateWrites ∈ journal.priorStateReads
  readable : (journal.phase.trying = true → journal.rollbackRequiresStateRestore = false) →
    world.host.state.schema ∈ journal.priorStateReads
  backup : Phase.stateSaved.index ≤ journal.phase.index → journal.phase.isTerminal = false →
    ∃ name state, journal.stateBackup = some name ∧ world.backups.get? name = some state ∧
      state.schema ∈ journal.priorStateReads
  committed : journal.phase = .healthCommitted → world.booted = journal.inactiveSlot ∧
    world.host.told = journal.inactiveSlot ∧ world.host.assessing = false

/-- Every selection of the prior slot was readable, and the journal covers what is there. -/
structure Guarded (world : World Machine State) : Prop where
  selections : ∀ selection ∈ world.host.selections, selection.Readable
  journal : ∀ journal, world.journal = some journal → Covers world journal

variable {sha : Sha256 State} {ops : HostOperations Machine State} {world : World Machine State}
  {journal : Journal}

/-- A journal that is not committed covers every host whose state it covers. -/
theorem Covers.host (h : Covers world journal) (hphase : journal.phase ≠ .healthCommitted)
    {host : Machine}
    (hstate : (journal.phase.trying = true → journal.rollbackRequiresStateRestore = false) →
      host.state.schema ∈ journal.priorStateReads) : Covers { world with host := host } journal :=
  ⟨h.inactive, h.writes, h.requires, hstate, h.backup, fun hcommitted ↦ absurd hcommitted hphase⟩

namespace Guarded

variable (h : Guarded world)

include h

theorem layout (layout : Document) : Guarded { world with layout := layout } :=
  ⟨h.selections, fun found hfound ↦
    have hcovers := h.journal found hfound
    ⟨hcovers.inactive, hcovers.writes, hcovers.requires, hcovers.readable, hcovers.backup,
      hcovers.committed⟩⟩

theorem host (hrecorded : world.journal = some journal) (hphase : journal.phase ≠ .healthCommitted)
    {host : Machine}
    (hstate : (journal.phase.trying = true → journal.rollbackRequiresStateRestore = false) →
      host.state.schema ∈ journal.priorStateReads)
    (hselections : ∀ selection ∈ host.selections, selection.Readable) :
    Guarded { world with host := host } := by
  refine ⟨hselections, fun found hfound ↦ ?_⟩
  obtain rfl : journal = found := Option.some.inj (hrecorded.symm.trans hfound)
  exact (h.journal journal hrecorded).host hphase hstate

/-- A host that differs in what it records and in the boot loader. -/
theorem sameState (hrecorded : world.journal = some journal)
    (hphase : journal.phase ≠ .healthCommitted) {host : Machine}
    (hstate : host.state = world.host.state)
    (hselections : host.selections = world.host.selections) :
    Guarded { world with host := host } := by
  refine h.host hrecorded hphase ?_ (by rw [hselections]; exact h.selections)
  rw [hstate]
  exact (h.journal journal hrecorded).readable

theorem record (hjournal : Covers world journal) :
    Guarded { world with journal := some journal } := by
  refine ⟨h.selections, fun found hfound ↦ ?_⟩
  cases hfound
  exact ⟨hjournal.inactive, hjournal.writes, hjournal.requires, hjournal.readable, hjournal.backup,
    hjournal.committed⟩

end Guarded

/-! ## Steps -/

section Steps

variable {σ β α : Type} {world : World σ β} {kept : World σ β → Prop}

theorem passes_loadJournal {sha : Sha256 β} {ops : HostOperations σ β} :
    Passes world (loadJournal sha ops) kept fun journal after ↦
      Admitted sha ops world journal ∧ world = after :=
  passes_still still_loadJournal fun _ _ hruns ↦ runs_loadJournal.mp hruns

theorem passes_loadLayout {sha : Sha256 β} :
    Passes world (loadLayout sha) kept fun found after ↦ LayoutReads world.layout ∧
      (world.layout.value, sha.document world.layout) = found ∧ world = after :=
  passes_still still_loadLayout fun _ _ hruns ↦ runs_loadLayout.mp hruns

theorem passes_observedActiveSlot {ops : HostOperations σ β} {layout : Value} :
    Passes world (observedActiveSlot ops layout) kept fun slot after ↦
      world.booted = slot ∧ world = after :=
  passes_still still_observedActiveSlot fun _ _ hruns ↦ (runs_observedActiveSlot.mp hruns).2

theorem passes_writeJournal {journal : Journal}
    (hkept : kept { world with journal := some journal }) :
    Passes world (writeJournal journal) kept fun _ after ↦
      { world with journal := some journal } = after :=
  passes_perform hkept fun _ _ hstep ↦ (Prod.mk.inj hstep).2

theorem passes_writeLayout {layout : Value}
    (hkept : kept { world with layout := jsonBytes layout }) :
    Passes world (writeLayout layout) kept fun _ after ↦
      { world with layout := jsonBytes layout } = after :=
  passes_perform hkept fun _ _ hstep ↦ (Prod.mk.inj hstep).2

theorem passes_advance {journal : Journal} {phase : Phase} {sequential : Bool}
    (hkept : kept { world with journal := some { journal with phase := phase } }) :
    Passes world (advance journal phase sequential) kept fun updated after ↦
      { journal with phase := phase } = updated ∧
        { world with journal := some { journal with phase := phase } } = after := by
  refine passes_bind _ passes_require fun _ after hafter ↦ ?_
  obtain ⟨-, rfl⟩ := hafter
  refine passes_bind _ (passes_writeJournal hkept) fun _ after hafter ↦ ?_
  exact passes_pure ⟨rfl, hafter⟩

/-- A call of the adapter, and the host it leaves. -/
theorem passes_call {operation : σ → Except String α × σ}
    (hkept : kept { world with host := (operation world.host).2 }) :
    Passes world (call operation) kept fun a after ↦ ∃ host,
      operation world.host = (.ok a, host) ∧ { world with host := host } = after := by
  refine passes_perform hkept fun a after hstep ↦ ?_
  obtain ⟨hok, hafter⟩ := Prod.mk.inj hstep
  exact ⟨_, Prod.ext hok rfl, hafter⟩

/-- A call of the adapter that leaves the host alone. -/
theorem passes_call_same {operation : σ → Except String α × σ}
    (hsame : ∀ host, (operation host).2 = host) (hkept : kept world) :
    Passes world (call operation) kept fun _ after ↦ world = after := by
  refine (passes_call ?_).weaken ?_
  · rw [hsame]
    exact hkept
  · rintro a after ⟨host, hcall, rfl⟩
    have hhost := hsame world.host
    rw [hcall] at hhost
    dsimp only at hhost
    rw [hhost]

/-- The journal that a rollback goes on with differs from the recorded one in what it says of the
layout. -/
theorem passes_resetLayout {sha : Sha256 β} {journal : Journal} {layout : Value}
    (hkept : ∀ layout, kept { world with layout := layout }) :
    Passes world (resetLayout sha journal layout) kept fun updated after ↦
      (∃ hash next next', updated = { journal with
        layoutSha256 := hash, nextLayoutSha256 := next, nextLayout := next' }) ∧
      ∃ layout, after = { world with layout := layout } := by
  unfold resetLayout
  split
  · exact passes_pure ⟨⟨_, _, _, rfl⟩, world.layout, rfl⟩
  · refine passes_bind _ (passes_writeLayout (hkept _)) fun _ after hafter ↦ ?_
    subst hafter
    refine passes_bind _ passes_loadLayout fun found after hfound ↦ ?_
    obtain ⟨-, rfl, rfl⟩ := hfound
    exact passes_pure ⟨⟨_, _, _, rfl⟩, _, rfl⟩

end Steps

/-- A snapshot that is taken holds the state. -/
theorem passes_snapshotState {kept : World Machine State → Prop} (hops : ops.Faithful sha)
    {name : String} (hkept : ∀ backups, kept { world with backups := backups }) :
    Passes world (snapshotState ops name) kept fun _ after ↦ ∃ saved,
      saved.get? name = some world.host.state ∧ { world with backups := saved } = after := by
  have hsame := hops.saves name world.backups world.host
  refine passes_perform ?_ fun hash after hstep ↦ ?_
  · dsimp only
    rw [hsame]
    exact hkept _
  · obtain ⟨hok, rfl⟩ := Prod.mk.inj hstep
    rw [hsame]
    exact ⟨_, hops.saved _ _ _ hash _ _ (Prod.ext hok rfl), rfl⟩

theorem ne_healthCommitted_of_isTerminal (h : journal.phase.isTerminal = false) :
    journal.phase ≠ .healthCommitted := by
  intro hphase
  rw [hphase] at h
  cases h

/-! ## Ending a transaction -/

section Ending

variable (hops : ops.Faithful sha) (h : Guarded world) (hrecorded : world.journal = some journal)
  (hterminal : journal.phase.isTerminal = false)

include hops h hrecorded hterminal

/-- Once the prior state is restored, the prior release can read it. -/
theorem passes_restorePriorState {layoutSha256 : String} {nextLayoutSha256 : Option String}
    {nextLayout : Option Value} :
    Passes world
      (restorePriorState ops { journal with
        layoutSha256 := layoutSha256, nextLayoutSha256 := nextLayoutSha256,
        nextLayout := nextLayout })
      Guarded fun _ after ↦ ∃ host, after = { world with host := host } ∧
        host.state.schema ∈ journal.priorStateReads ∧
        host.selections = world.host.selections := by
  have hcovers := h.journal journal hrecorded
  have hphase := ne_healthCommitted_of_isTerminal hterminal
  unfold restorePriorState
  split
  · rename_i hrequires
    exact passes_pure ⟨world.host, rfl, hcovers.readable fun _ ↦ hrequires, rfl⟩
  · split
    · rename_i hearly
      exact passes_pure ⟨world.host, rfl,
        hcovers.readable fun htrying ↦
          absurd hearly (Phase.bootTrial_le_of_trying htrying).not_gt, rfl⟩
    · rename_i hlate
      obtain ⟨name, state, hname, hstate, hreadable⟩ :=
        hcovers.backup (le_trans (by decide) (not_lt.mp hlate)) hterminal
      simp only [hname]
      have hrestored (host : Machine) (hhost : host.state = state)
          (hselections : host.selections = world.host.selections) :
          Guarded { world with host := host } :=
        h.host hrecorded hphase (fun _ ↦ by rw [hhost]; exact hreadable)
          (by rw [hselections]; exact h.selections)
      refine passes_bind (fun _ after ↦ ∃ host, after = { world with host := host } ∧
        host.state = state ∧ host.selections = world.host.selections) (passes_perform ?_ ?_)
        fun _ after hafter ↦ ?_
      · rcases hops.restoreState name world.backups world.host with
          ⟨found, hfound, heffect⟩ | ⟨heffect, -⟩
        · obtain rfl : state = found := Option.some.inj (hstate.symm.trans hfound)
          dsimp only
          rw [heffect]
          exact hrestored _ rfl rfl
        · dsimp only
          rw [heffect]
          exact h
      · intro u after hstep
        obtain ⟨hok, rfl⟩ := Prod.mk.inj hstep
        rcases hops.restoreState name world.backups world.host with
          ⟨found, hfound, heffect⟩ | ⟨-, hfails⟩
        · obtain rfl : state = found := Option.some.inj (hstate.symm.trans hfound)
          exact ⟨_, rfl, by rw [heffect]; rfl, by rw [heffect]; rfl⟩
        · exact absurd hok (hfails u)
      · obtain ⟨host, rfl, hhost, hselections⟩ := hafter
        obtain ⟨value, heffect⟩ := hops.recordPersistentSchema journal.priorStateWrites host
        refine (passes_call ?_).weaken ?_
        · rw [heffect]
          exact hrestored _ hhost hselections
        · rintro u after ⟨found, hcall, rfl⟩
          rw [hcall] at heffect
          rw [show found = host.recording value from heffect]
          exact ⟨_, rfl, by rw [Machine.recording, hhost]; exact hreadable, hselections⟩

/-- The prior slot is selected when the prior release can read the state. -/
theorem passes_returnToPrior {layoutSha256 : String} {nextLayoutSha256 : Option String}
    {nextLayout : Option Value} :
    Passes world
      (returnToPrior ops { journal with
        layoutSha256 := layoutSha256, nextLayoutSha256 := nextLayoutSha256,
        nextLayout := nextLayout })
      Guarded fun updated after ↦
        after.host.state.schema ∈ updated.priorStateReads := by
  have hcovers := h.journal journal hrecorded
  have hphase := ne_healthCommitted_of_isTerminal hterminal
  refine passes_bind _ (passes_restorePriorState hops h hrecorded hterminal) fun _ after hafter ↦ ?_
  obtain ⟨host, rfl, hreadable, hselections⟩ := hafter
  -- every host on the way has the restored state, and selections that were readable
  have hguarded (found : Machine) (hstate : found.state = host.state)
      (hfound : found.selections = host.selections ∨
        found.selections = ⟨host.state.schema, journal.priorStateReads⟩ :: host.selections) :
      Guarded { world with host := found } := by
    refine h.host hrecorded hphase (fun _ ↦ by rw [hstate]; exact hreadable) ?_
    rcases hfound with hfound | hfound
    · rw [hfound, hselections]
      exact h.selections
    · rw [hfound, hselections]
      exact List.forall_mem_cons.mpr ⟨hreadable, h.selections⟩
  refine passes_bind (fun _ after ↦ ∃ found, after = { world with host := found } ∧
    found.state = host.state ∧
    found.selections = ⟨host.state.schema, journal.priorStateReads⟩ :: host.selections)
    ((passes_call ?_).weaken ?_) fun _ after hafter ↦ ?_
  · rcases hops.selectPrior _ host with heffect | ⟨heffect, -⟩
    · rw [heffect]
      exact hguarded _ rfl (.inr rfl)
    · rw [heffect]
      exact hguarded _ rfl (.inr rfl)
  · rintro u after ⟨found, hcall, rfl⟩
    rw [(hops.selectPrior _ host).of_ok hcall]
    exact ⟨_, rfl, rfl, rfl⟩
  obtain ⟨found, rfl, hstate, hfound⟩ := hafter
  have hguarded := hguarded found hstate (.inr hfound)
  refine passes_bind _ (passes_call_same (hops.discardInactive _) hguarded) fun _ after hafter ↦ ?_
  subst hafter
  refine (passes_advance (hguarded.record ?_)).weaken ?_
  · refine ⟨hcovers.inactive, hcovers.writes, hcovers.requires, fun _ ↦ ?_, fun _ hover ↦ ?_,
      fun hcommitted ↦ nomatch hcommitted⟩
    · rw [hstate]
      exact hreadable
    · cases hover
  · rintro updated after ⟨rfl, rfl⟩
    rw [hstate]
    exact hreadable

end Ending

section Commands

variable (hops : ops.Faithful sha) (h : Guarded world)

include hops h

theorem passes_rollback :
    Passes world (rollback sha ops) Guarded fun updated after ↦
      after.host.state.schema ∈ updated.priorStateReads := by
  refine passes_bind _ passes_loadJournal fun journal after hafter ↦ ?_
  obtain ⟨hadmitted, rfl⟩ := hafter
  refine passes_bind _ passes_require fun _ after hafter ↦ ?_
  obtain ⟨hterminal, rfl⟩ := hafter
  refine passes_bind _ passes_loadLayout fun found after hafter ↦ ?_
  obtain ⟨-, rfl, rfl⟩ := hafter
  refine passes_bind _ (passes_resetLayout h.layout) fun updated after hafter ↦ ?_
  obtain ⟨⟨hash, next, next', rfl⟩, layout, rfl⟩ := hafter
  exact passes_returnToPrior hops (h.layout layout) hadmitted.recorded hterminal

/-- A recovery in the prior slot leaves it with a state that it can read. -/
theorem passes_recover :
    Passes world (recover sha ops) Guarded fun updated after ↦
      world.booted = updated.priorHealthySlot →
        after.host.state.schema ∈ updated.priorStateReads := by
  refine passes_bind _ passes_loadJournal fun journal after hafter ↦ ?_
  obtain ⟨hadmitted, rfl⟩ := hafter
  have hcovers := h.journal journal hadmitted.recorded
  split
  · rename_i hover
    refine passes_pure fun hbooted ↦ hcovers.readable fun htrying ↦ ?_
    cases hphase : journal.phase with
    | healthCommitted =>
      -- the trial slot is booted when its commit is over
      have htrial := hbooted.symm.trans (hcovers.committed hphase).1
      rw [hcovers.inactive] at htrial
      exact absurd htrial.symm journal.priorHealthySlot.other_ne
    | rolledBack => rw [hphase] at htrying; cases htrying
    | _ => rw [hphase] at hover; cases hover
  · rename_i hover
    have hterminal : journal.phase.isTerminal = false := by simpa using hover
    split
    · exact (passes_returnToPrior hops h hadmitted.recorded hterminal).weaken
        fun _ _ hreadable _ ↦ hreadable
    · refine passes_bind _ passes_loadLayout fun found after hafter ↦ ?_
      obtain ⟨-, rfl, rfl⟩ := hafter
      refine passes_bind _ passes_observedActiveSlot fun slot after hafter ↦ ?_
      obtain ⟨rfl, rfl⟩ := hafter
      split
      · refine passes_bind _ (passes_restorePriorState hops h hadmitted.recorded hterminal)
          fun _ after hafter ↦ ?_
        obtain ⟨host, rfl, hreadable, -⟩ := hafter
        exact passes_pure fun _ ↦ hreadable
      · rename_i hbooted
        exact passes_pure fun hprior ↦ absurd hprior hbooted

/-- The promoted layout is recorded when the trial is healthy. -/
theorem passes_prepareLayout {layout : Value} (hrecorded : world.journal = some journal)
    (hphase : journal.phase = .bootTrial ∨ journal.phase = .healthChecked) :
    Passes world (prepareLayout sha ops journal layout) Guarded fun prepared after ↦
      Guarded after ∧ after.journal = some prepared.2 ∧ prepared.2.phase = .healthChecked ∧
        prepared.2.inactiveSlot = journal.inactiveSlot ∧ after.booted = world.booted := by
  have hcovers := h.journal journal hrecorded
  unfold prepareLayout
  split
  · rename_i htrial
    refine passes_bind _ (passes_call_same (hops.healthCheck journal) h) fun _ after hafter ↦ ?_
    subst hafter
    have hchecked : Guarded { world with journal := some { journal with
        phase := .healthChecked
        nextLayoutSha256 := some (sha.document (jsonBytes
          (promoted layout journal.inactiveSlot journal.bootEntry)))
        nextLayout := some (promoted layout journal.inactiveSlot journal.bootEntry) } } := by
      refine h.record ⟨hcovers.inactive, hcovers.writes, hcovers.requires, fun hrequires ↦ ?_,
        fun _ _ ↦ hcovers.backup (by rw [htrial]; decide) (by rw [htrial]; rfl),
        fun hcommitted ↦ nomatch hcommitted⟩
      exact hcovers.readable fun _ ↦ hrequires rfl
    refine passes_bind _ (passes_advance hchecked) fun updated after hafter ↦ ?_
    obtain ⟨rfl, rfl⟩ := hafter
    exact passes_pure ⟨hchecked, rfl, rfl, rfl, rfl⟩
  · rename_i hother
    exact passes_pure ⟨h, hrecorded, hphase.resolve_left hother, rfl, rfl⟩

/-- When a commit is over, the boot loader was told to keep the trial slot, which is booted. -/
theorem passes_commit : Passes world (commit sha ops) Guarded fun _ _ ↦ True := by
  refine passes_bind _ passes_loadJournal fun journal after hafter ↦ ?_
  obtain ⟨hadmitted, rfl⟩ := hafter
  refine passes_bind _ passes_require fun _ after hafter ↦ ?_
  obtain ⟨hphase, rfl⟩ := hafter
  refine passes_bind _ passes_loadLayout fun found after hafter ↦ ?_
  obtain ⟨-, rfl, rfl⟩ := hafter
  refine passes_bind _ passes_observedActiveSlot fun slot after hafter ↦ ?_
  obtain ⟨rfl, rfl⟩ := hafter
  refine passes_bind _ passes_require fun _ after hafter ↦ ?_
  obtain ⟨htrial, rfl⟩ := hafter
  refine passes_bind _ (passes_prepareLayout hops h hadmitted.recorded hphase)
    fun prepared after hafter ↦ ?_
  obtain ⟨next, checked⟩ := prepared
  obtain ⟨h, hrecorded, hphase, hinactive, hbooted⟩ := hafter
  dsimp only at hrecorded hphase hinactive
  have hne : checked.phase ≠ .healthCommitted := by rw [hphase]; decide
  have hcovers := h.journal checked hrecorded
  have hbless : Guarded { after with host := after.host.keeps checked.inactiveSlot } :=
    h.sameState hrecorded hne rfl rfl
  refine passes_bind (fun _ found ↦
    { after with host := after.host.keeps checked.inactiveSlot } = found)
    ((passes_call ?_).weaken ?_) fun _ found hfound ↦ ?_
  · rcases hops.bless checked after.host with heffect | ⟨heffect, -⟩
    · rw [heffect]
      exact hbless
    · rw [heffect]
      exact h
  · rintro u found ⟨host, hcall, rfl⟩
    rw [(hops.bless checked after.host).of_ok hcall]
  subst hfound
  refine passes_bind _ (passes_writeLayout (hbless.layout _)) fun _ found hfound ↦ ?_
  subst hfound
  refine passes_bind _ passes_loadLayout fun reread found hfound ↦ ?_
  obtain ⟨-, rfl, rfl⟩ := hfound
  obtain ⟨value, heffect⟩ := hops.recordPersistentSchema checked.targetStateWrites
    (after.host.keeps checked.inactiveSlot)
  have hrecord := (hbless.layout (jsonBytes
    (if activeSlot next = some checked.inactiveSlot then next
      else promoted next checked.inactiveSlot checked.bootEntry))).sameState hrecorded hne
    (show ((after.host.keeps checked.inactiveSlot).recording value).state = after.host.state
      from rfl) rfl
  refine passes_bind _ (passes_call ?_) fun _ found hfound ↦ ?_
  · rw [heffect]
    exact hrecord
  obtain ⟨host, hcall, rfl⟩ := hfound
  rw [hcall] at heffect
  rw [show host = (after.host.keeps checked.inactiveSlot).recording value from heffect]
  refine Passes.weaken (passes_advance (hrecord.record ?_)) fun _ _ _ ↦ trivial
  refine ⟨hcovers.inactive, hcovers.writes, hcovers.requires, fun hrequires ↦ ?_, fun _ hover ↦ ?_,
    fun _ ↦ ⟨?_, rfl, rfl⟩⟩
  · exact hcovers.readable fun _ ↦ hrequires rfl
  · cases hover
  · exact (hbooted.trans htrial).trans hinactive.symm

end Commands

/-! ## Applying -/

section Applying

variable {state : State}

/-- An update is under way that has begun with a state the prior release can read. -/
structure Underway (state : State) (world : World Machine State) (journal : Journal) : Prop where
  inactive : journal.inactiveSlot = journal.priorHealthySlot.other
  writes : journal.priorStateWrites ∈ journal.priorStateReads
  requires : journal.rollbackRequiresStateRestore = false →
    journal.targetStateWrites ∈ journal.priorStateReads
  readable : state.schema ∈ journal.priorStateReads
  state : world.host.state = state
  selections : ∀ selection ∈ world.host.selections, selection.Readable

/-- The journal names a backup of the state. -/
def Saves (state : State) (world : World Machine State) (journal : Journal) : Prop :=
  ∃ name, journal.stateBackup = some name ∧ world.backups.get? name = some state

theorem Underway.guarded (h : Underway state world journal)
    (hrecorded : world.journal = some journal) (hphase : journal.phase ≠ .healthCommitted)
    (hsaves : Phase.stateSaved.index ≤ journal.phase.index → Saves state world journal) :
    Guarded world := by
  refine ⟨h.selections, fun found hfound ↦ ?_⟩
  obtain rfl : journal = found := Option.some.inj (hrecorded.symm.trans hfound)
  refine ⟨h.inactive, h.writes, h.requires, fun _ ↦ by rw [h.state]; exact h.readable,
    fun hlate _ ↦ ?_, fun hcommitted ↦ absurd hcommitted hphase⟩
  obtain ⟨name, hname, hget⟩ := hsaves hlate
  exact ⟨name, state, hname, hget, h.readable⟩

/-- The next phase of an update is recorded. -/
theorem passes_advance_underway (h : Underway state world journal) {phase : Phase}
    {sequential : Bool} (hphase : phase ≠ .healthCommitted)
    (hsaves : Phase.stateSaved.index ≤ phase.index → Saves state world journal) :
    Passes world (advance journal phase sequential) Guarded fun updated after ↦
      Underway state after updated ∧ after.journal = some updated ∧ updated.phase = phase ∧
        (Saves state world journal → Saves state after updated) := by
  have hnext : Underway state { world with journal := some { journal with phase := phase } }
      { journal with phase := phase } :=
    ⟨h.inactive, h.writes, h.requires, h.readable, h.state, h.selections⟩
  refine (passes_advance (hnext.guarded rfl hphase hsaves)).weaken ?_
  rintro updated after ⟨rfl, rfl⟩
  exact ⟨hnext, rfl, rfl, id⟩

/-- A step of an update that leaves the state and the selections alone. -/
theorem Underway.same (h : Underway state world journal) (after : World Machine State)
    (hstate : after.host.state = world.host.state)
    (hselections : after.host.selections = world.host.selections) :
    Underway state after journal :=
  ⟨h.inactive, h.writes, h.requires, h.readable, hstate.trans h.state,
    by rw [hselections]; exact h.selections⟩

theorem underway_first {manifest : Document} {prior target : StateSupport} (h : Guarded world)
    (hreadable : world.host.state.schema ∈ prior.reads) :
    Underway world.host.state world (firstJournal sha manifest world prior target) where
  inactive := rfl
  writes := prior.reads_writes
  requires hrequires := by simpa [firstJournal, newJournal] using hrequires
  readable := hreadable
  state := rfl
  selections := h.selections

/-- An update keeps the state that it begins with, and saves it. -/
theorem passes_apply (hops : ops.Faithful sha) (h : Guarded world) {bundle manifestPath : String}
    {manifest : Document}
    (hreads : ∀ installed support, ops.installedStateSupport world.host = .ok installed →
      validateStateSupport installed true = .ok support →
        world.host.state.schema ∈ support.reads) :
    Passes world (apply sha ops bundle manifestPath manifest) Guarded fun _ _ ↦ True := by
  refine passes_bind _ (passes_still still_prepare fun _ _ hruns ↦ runs_prepare.mp hruns)
    fun prepared after hafter ↦ ?_
  obtain ⟨prior, target, hready, rfl, rfl⟩ := hafter
  obtain ⟨installed, hinstalled, hprior⟩ := hready.prior
  have hunder : Underway world.host.state world (firstJournal sha manifest world prior target) :=
    underway_first h (hreads installed prior hinstalled hprior)
  have hverified : (firstJournal sha manifest world prior target).phase = .verified := rfl
  dsimp only
  generalize firstJournal sha manifest world prior target = first at hunder hverified ⊢
  generalize world.host.state = state at hunder ⊢
  have hunder := hunder.same { world with journal := some first } rfl rfl
  have hguarded := hunder.guarded rfl (by rw [hverified]; decide)
    (fun hlate ↦ absurd hlate (by rw [hverified]; decide))
  refine passes_bind _ (passes_writeJournal hguarded) fun _ after hafter ↦ ?_
  subst hafter
  refine passes_bind _ (passes_call_same (hops.preflight _ _ _) hguarded) fun _ after hafter ↦ ?_
  subst hafter
  refine passes_bind _ (passes_advance_underway hunder (by decide)
    fun hlate ↦ absurd hlate (by decide)) fun journal after hafter ↦ ?_
  obtain ⟨hunder, hrecorded, hphase, -⟩ := hafter
  have hguarded := hunder.guarded hrecorded (by rw [hphase]; decide)
    (fun hlate ↦ absurd hlate (by rw [hphase]; decide))
  refine passes_bind _ (passes_call_same hops.drain hguarded) fun _ found hfound ↦ ?_
  subst hfound
  refine passes_bind _ (passes_advance_underway hunder (by decide)
    fun hlate ↦ absurd hlate (by decide)) fun journal after hafter ↦ ?_
  obtain ⟨hunder, hrecorded, hphase, -⟩ := hafter
  refine passes_bind _ (passes_snapshotState hops fun backups ↦ ?_) fun hash found hfound ↦ ?_
  · exact (hunder.same { after with backups := backups } rfl rfl).guarded hrecorded
      (by rw [hphase]; decide) fun hlate ↦ absurd hlate (by rw [hphase]; decide)
  obtain ⟨saved, hsaved, rfl⟩ := hfound
  rw [hunder.state] at hsaved
  have hunder : Underway state { after with backups := saved } { journal with
      stateBackup := some (backupName sha manifest), stateBackupSha256 := some hash } :=
    ⟨hunder.inactive, hunder.writes, hunder.requires, hunder.readable, hunder.state,
      hunder.selections⟩
  have hsaves : Saves state { after with backups := saved } { journal with
      stateBackup := some (backupName sha manifest), stateBackupSha256 := some hash } :=
    ⟨_, rfl, hsaved⟩
  refine passes_bind _ (passes_advance_underway hunder (by decide) fun _ ↦ hsaves)
    fun journal after hafter ↦ ?_
  obtain ⟨hunder, hrecorded, hphase, hkeeps⟩ := hafter
  have hsaves := hkeeps hsaves
  have hguarded := hunder.guarded hrecorded (by rw [hphase]; decide) fun _ ↦ hsaves
  refine passes_bind _ (passes_call_same (hops.writeInactive _ _ _ _) hguarded)
    fun generation found hfound ↦ ?_
  subst hfound
  have hunder : Underway state after { journal with generation := some generation } :=
    ⟨hunder.inactive, hunder.writes, hunder.requires, hunder.readable, hunder.state,
      hunder.selections⟩
  refine passes_bind _ (passes_advance_underway hunder (by decide) fun _ ↦ hsaves)
    fun journal after hafter ↦ ?_
  obtain ⟨hunder, hrecorded, hphase, hkeeps⟩ := hafter
  have hsaves := hkeeps hsaves
  have hguarded := hunder.guarded hrecorded (by rw [hphase]; decide) fun _ ↦ hsaves
  have hne : journal.phase ≠ .healthCommitted := by
    rw [hphase]
    decide
  refine passes_bind _ (passes_call ?_) fun entry found hfound ↦ ?_
  · rcases hops.stageBootTrial _ _ _ _ after.host with heffect | ⟨heffect, -⟩
    · rw [heffect]
      exact hguarded.sameState hrecorded hne rfl rfl
    · rw [heffect]
      exact hguarded
  obtain ⟨host, hcall, rfl⟩ := hfound
  rw [(hops.stageBootTrial _ _ _ _ after.host).of_ok hcall]
  have hunder : Underway state { after with host := after.host.tries journal.inactiveSlot }
      { journal with bootEntry := some entry } :=
    ⟨hunder.inactive, hunder.writes, hunder.requires, hunder.readable, hunder.state,
      hunder.selections⟩
  exact Passes.weaken (passes_advance_underway hunder (by decide) fun _ ↦ hsaves)
    fun _ _ _ ↦ trivial

end Applying

/-! ## Runs -/

theorem guarded_command {command : Command Machine State} {steps : ℕ} (h : Guarded world)
    (hops : command.operations.Faithful sha) (hheeded : Heeded world (.issue command steps)) :
    Guarded ((Event.issue command steps).after sha world) := by
  have hmem := Event.after_mem_stops sha world command steps
  cases command with
  | apply ops bundle manifestPath manifest =>
    exact (passes_apply hops h hheeded).stops h _ hmem
  | commit ops => exact (passes_commit hops h).stops h _ hmem
  | rollback ops => exact (passes_rollback hops h).stops h _ hmem
  | recover ops => exact (passes_recover hops h).stops h _ hmem

/-- A reboot changes what is booted, which matters when a commit is over. -/
theorem guarded_reboots {booted : Slot} {host : Machine} (h : Guarded world)
    (hreboots : Reboots world booted host) :
    Guarded { world with booted := booted, host := host } := by
  obtain ⟨rfl, hbooted⟩ := hreboots
  refine ⟨h.selections, fun found hfound ↦ ?_⟩
  have hcovers := h.journal found hfound
  refine ⟨hcovers.inactive, hcovers.writes, hcovers.requires, hcovers.readable, hcovers.backup,
    fun hcommitted ↦ ?_⟩
  obtain ⟨-, htold, hassessing⟩ := hcovers.committed hcommitted
  rcases hbooted with rfl | ⟨hassess, -⟩
  · exact ⟨htold, htold, hassessing⟩
  · cases hassessing.symm.trans hassess

/-- A write of the state is one that the journal covers, or one that the trial may make. -/
theorem guarded_rewrites {booted : Slot} {host : Machine} (h : Guarded world)
    (hrewrites : Rewrites world booted host) (hheeded : Heeded world (.outside booted host)) :
    Guarded { world with booted := booted, host := host } := by
  obtain ⟨rfl, hhost, hschema⟩ := hrewrites
  have hselections : host.selections = world.host.selections := by rw [hhost]
  have hboot : host.told = world.host.told ∧ host.assessing = world.host.assessing := by
    rw [hhost]
    exact ⟨rfl, rfl⟩
  refine ⟨by rw [hselections]; exact h.selections, fun journal hrecorded ↦ ?_⟩
  have hcovers := h.journal journal hrecorded
  refine ⟨hcovers.inactive, hcovers.writes, hcovers.requires, fun hrequires ↦ ?_, hcovers.backup,
    fun hcommitted ↦ ?_⟩
  · by_cases hstate : host.state = world.host.state
    · rw [hstate]
      exact hcovers.readable hrequires
    · rw [hschema journal hrecorded, Journal.writesOf]
      split
      · rename_i htrial
        by_contra hunreadable
        have htrying := hheeded hstate journal hrecorded htrial hunreadable
        exact hunreadable (hcovers.requires (hrequires htrying))
      · exact hcovers.writes
  · rw [hboot.1, hboot.2]
    exact hcovers.committed hcommitted

theorem guarded_event {event : Event Machine State} (h : Guarded world)
    (hpossible : Possible sha world event) (hheeded : Heeded world event) :
    Guarded (event.after sha world) := by
  cases event with
  | issue command steps => exact guarded_command h hpossible hheeded
  | outside booted host =>
    rcases hpossible with hreboots | hrewrites
    · exact guarded_reboots h hreboots
    · exact guarded_rewrites h hrewrites hheeded

/-- In every run that begins without a transaction and heeds the two conditions, with commands that
fail or are cut off anywhere: the state could be read by the prior release whenever `select_prior`
was called, and whenever `recover` or `rollback` leaves the prior slot running. -/
theorem prior_slot_reads_state (start : World Machine State) (hstart : start.journal = none)
    (hselections : start.host.selections = []) (events : List (Event Machine State))
    (hmeets : Run.Meets (Event.after sha)
      (fun world event ↦ Possible sha world event ∧ Heeded world event) start events) :
    (∀ selection ∈ (reached sha start events).host.selections, selection.Readable) ∧
    ∀ (ops : HostOperations Machine State) (journal : Journal) (after : World Machine State),
      ops.Faithful sha →
      ((recover sha ops).Runs (reached sha start events) journal after ∨
        (rollback sha ops).Runs (reached sha start events) journal after) →
      (reached sha start events).booted = journal.priorHealthySlot →
      after.host.state.schema ∈ journal.priorStateReads := by
  have hnone : Guarded start := by
    refine ⟨fun selection hselection ↦ ?_, fun journal hrecorded ↦ ?_⟩
    · rw [hselections] at hselection
      cases hselection
    · cases hstart.symm.trans hrecorded
  have h : Guarded (reached sha start events) := Run.invariant_run Guarded
    (fun world event h hevent ↦ guarded_event h hevent.1 hevent.2) hnone hmeets
  refine ⟨h.selections, fun ops journal after hops hruns hbooted ↦ ?_⟩
  rcases hruns with hruns | hruns
  · exact (passes_recover hops h).of_runs hruns hbooted
  · exact (passes_rollback hops h).of_runs hruns

/-- The fixture's machine after a trial was staged, with a state in the target's schema. -/
def fixtureMigrated : Machine := { fixtureMachine.tries .B with state := ⟨4, "migrated"⟩ }

/-- The fixture's update is applied up to a step, the trial is booted and writes the state, and the
transaction is ended. -/
def fixtureRun (steps : ℕ) (command : Command Machine State) : List (Event Machine State) :=
  [fixtureApply steps, .outside .B (fixtureMachine.tries .B), .outside .B fixtureMigrated,
    .issue command 100]

theorem prior_slot_reads_state_fixture :
    (reached fixtureSha fixture
        (fixtureRun 11 (.rollback (dutiful fixtureSha)))).host.selections ≠ [] ∧
      ∀ selection ∈ (reached fixtureSha fixture
        (fixtureRun 11 (.rollback (dutiful fixtureSha)))).host.selections, selection.Readable := by
  have hops := dutiful_faithful fixtureSha
  have hreads : (validateStateSupport fixtureMachine.installed true).toOption.map
      StateSupport.reads = some [1, 2, 3] := by decide +kernel
  have hrun : Run.Meets (Event.after fixtureSha) Happens fixture
      (fixtureRun 11 (.rollback (dutiful fixtureSha))) ∧
      (reached fixtureSha fixture
        (fixtureRun 11 (.rollback (dutiful fixtureSha)))).host.selections ≠ [] ∧
      (fixtureMachine.tries .B).state = ((fixtureApply 11).after fixtureSha fixture).host.state ∧
      ∀ journal ∈ ((Event.outside .B (fixtureMachine.tries .B)).after fixtureSha
        ((fixtureApply 11).after fixtureSha fixture)).journal, journal.phase.trying = true := by
    decide +kernel
  obtain ⟨⟨-, hboots, hwrites, -⟩, hselections, hsame, hphase⟩ := hrun
  refine ⟨hselections, (prior_slot_reads_state fixture rfl rfl
    (fixtureRun 11 (.rollback (dutiful fixtureSha)))
    ⟨⟨hops, ?_⟩, ⟨hboots, fun hstate ↦ absurd hsame hstate⟩,
      ⟨hwrites, fun _ journal hrecorded _ _ ↦ hphase journal hrecorded⟩, ⟨hops, trivial⟩,
      trivial⟩).1⟩
  intro installed support hinstalled hsupport
  cases hinstalled
  rw [show validateStateSupport fixtureMachine.installed true = .ok support from hsupport] at hreads
  rw [show support.reads = [1, 2, 3] from Option.some.inj hreads]
  decide

/-- The trial of an update is staged and the power is lost before that is recorded.  The trial is
booted and writes the state.  A recovery then selects the prior slot without restoring the snapshot,
although the prior release cannot read the state. -/
theorem prior_slot_selected_unreadable :
    Run.Meets (Event.after fixtureSha) (Possible fixtureSha) fixture
        (fixtureRun 10 (.recover (dutiful fixtureSha))) ∧
      (reached fixtureSha fixture
        (fixtureRun 10 (.recover (dutiful fixtureSha)))).host.selections = [⟨4, [1, 2, 3]⟩] ∧
      ¬ (⟨4, [1, 2, 3]⟩ : Selection).Readable := by
  have hops := dutiful_faithful fixtureSha
  have hrun : Run.Meets (Event.after fixtureSha) Happens fixture
      (fixtureRun 10 (.recover (dutiful fixtureSha))) ∧
      (reached fixtureSha fixture
        (fixtureRun 10 (.recover (dutiful fixtureSha)))).host.selections = [⟨4, [1, 2, 3]⟩] := by
    decide +kernel
  obtain ⟨⟨-, hboots, hwrites, -⟩, hselections⟩ := hrun
  exact ⟨⟨hops, hboots, hwrites, hops, trivial⟩, hselections, by decide⟩

end Cameo.Update
