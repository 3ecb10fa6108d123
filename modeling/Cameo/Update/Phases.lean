import Cameo.Update.Transaction

/-!
# The phases of a transaction

The journals on disk over a history of commands, each of which may fail or be cut off at any step.
A transaction advances phase by phase or is rolled back, and a new one begins only when the one on
record is over.
-/

namespace Cameo.Update

open Json Library Library.Durable Library.Durable.Program

variable {σ β : Type}

/-! ## Histories -/

inductive Command (σ β : Type) where
  | apply (ops : HostOperations σ β) (bundle manifestPath : String) (manifest : Document)
  | commit (ops : HostOperations σ β)
  | rollback (ops : HostOperations σ β)
  | recover (ops : HostOperations σ β)

def Command.program (sha : Sha256 β) : Command σ β → Program (World σ β) Journal
  | .apply ops bundle manifestPath manifest => Update.apply sha ops bundle manifestPath manifest
  | .commit ops => Update.commit sha ops
  | .rollback ops => Update.rollback sha ops
  | .recover ops => Update.recover sha ops

/-- What happens to a machine: a command that is cut off after a number of steps, if it has not
ended by then, or anything that leaves the files of the transaction alone, such as a reboot. -/
inductive Event (σ β : Type) where
  | issue (command : Command σ β) (steps : ℕ)
  | outside (booted : Slot) (host : σ)

/-- The worlds after each step of an event. -/
def Event.passed (sha : Sha256 β) (world : World σ β) : Event σ β → List (World σ β)
  | .issue command steps => (command.program sha world).passed.take steps
  | .outside booted host => [{ world with booted := booted, host := host }]

/-- The world after an event. -/
def Event.after (sha : Sha256 β) (world : World σ β) (event : Event σ β) : World σ β :=
  (event.passed sha world).getLastD world

/-- A command is cut off somewhere on its way. -/
theorem Event.after_mem_stops (sha : Sha256 β) (world : World σ β) (command : Command σ β)
    (steps : ℕ) :
    (Event.issue command steps).after sha world ∈ (command.program sha).stops world := by
  have hlast : (Event.issue command steps).after sha world ∈
      world :: (command.program sha world).passed.take steps := List.getLastD_mem_cons
  rcases List.mem_cons.mp hlast with hlast | hlast
  · rw [hlast]
    exact List.mem_cons_self
  · exact List.mem_cons_of_mem world (List.mem_of_mem_take hlast)

/-- The worlds after each step of a history. -/
def history (sha : Sha256 β) (world : World σ β) : List (Event σ β) → List (World σ β)
  | [] => []
  | event :: events => event.passed sha world ++ history sha (event.after sha world) events

/-! ## The discipline -/

namespace Journal

def transaction (journal : Journal) : Journal :=
  { journal with
    phase := .verified, layoutSha256 := "", stateBackup := none, stateBackupSha256 := none,
    generation := none, bootEntry := none, nextLayoutSha256 := none, nextLayout := none }

/-- How the journal on disk may change: not at all, by one phase of the same transaction or to
`rolled_back`, or, where a transaction can begin, to its beginning when the old one is over. -/
inductive Advances (begins : Prop) : Option Journal → Option Journal → Prop where
  | same (journal : Option Journal) : Advances begins journal journal
  | next {old new : Journal} (htransaction : new.transaction = old.transaction)
      (hterminal : old.phase.isTerminal = false)
      (hphase : new.phase.index = old.phase.index + 1 ∨ new.phase = .rolledBack) :
    Advances begins (some old) (some new)
  | begin {old : Option Journal} {new : Journal} (hbegins : begins)
      (hold : ∀ journal ∈ old, journal.phase.isTerminal = true) (hphase : new.phase = .verified) :
    Advances begins old (some new)

theorem Advances.mono {begins begins' : Prop} {old new : Option Journal}
    (h : Advances begins old new) (hbegins : begins → begins') : Advances begins' old new := by
  cases h with
  | same => exact .same _
  | next htransaction hterminal hphase => exact .next htransaction hterminal hphase
  | begin hbegin hold hphase => exact .begin (hbegins hbegin) hold hphase

end Journal

/-- A step that keeps the discipline, and begins a transaction only where one can begin. -/
def Disciplined (begins : Prop) (before after : World σ β) : Prop :=
  Journal.Advances begins before.journal after.journal

/-- A program that leaves the journal alone. -/
def Quiet {α : Type} (program : Program (World σ β) α) : Prop :=
  ∀ (begins : Prop) (found : Option Journal),
    Triple (fun world ↦ world.journal = found) program (Disciplined begins)
      fun _ world ↦ world.journal = found

variable {begins : Prop}

section Quiet

variable {α γ : Type}

theorem Quiet.of_still {program : Program (World σ β) α} (h : program.Still)
    (hruns : ∀ world a after, program.Runs world a after → world = after) : Quiet program := by
  intro begins found
  refine h.triple fun world a after hpre hrun ↦ ?_
  rw [← hruns world a after hrun]
  exact hpre

theorem quiet_perform {step : World σ β → Except String α × World σ β}
    (h : ∀ world, (step world).2.journal = world.journal) : Quiet (perform step) := by
  intro begins found
  refine triple_perform (fun world _ ↦ ?_) fun world a after hpre hstep ↦ ?_
  · rw [Disciplined, h]
    exact .same _
  · have hjournal := h world
    rw [hstep] at hjournal
    exact hjournal.trans hpre

theorem quiet_bind {program : Program (World σ β) α} {next : α → Program (World σ β) γ}
    (hfirst : Quiet program) (hrest : ∀ a, Quiet (next a)) : Quiet (program >>= next) :=
  fun begins found ↦ triple_bind _ (hfirst begins found) fun a ↦ hrest a begins found

theorem quiet_call (operation : σ → Except String α × σ) :
    Quiet (call operation : Program (World σ β) α) := quiet_perform fun _ ↦ rfl

variable (sha : Sha256 β) (ops : HostOperations σ β)

theorem quiet_require (cond : Prop) [Decidable cond] (e : String) :
    Quiet (require cond e : Program (World σ β) Unit) :=
  .of_still still_require fun _ _ _ hruns ↦ (runs_require.mp hruns).2

theorem quiet_observedActiveSlot (layout : Value) : Quiet (observedActiveSlot ops layout) :=
  .of_still still_observedActiveSlot fun _ _ _ hruns ↦ (runs_observedActiveSlot.mp hruns).2.2

theorem quiet_loadLayout : Quiet (loadLayout sha : Program (World σ β) (Value × String)) :=
  .of_still still_loadLayout fun _ _ _ hruns ↦ (runs_loadLayout.mp hruns).2.2

theorem quiet_writeLayout (layout : Value) :
    Quiet (writeLayout layout : Program (World σ β) Unit) := quiet_perform fun _ ↦ rfl

theorem quiet_snapshotState (destination : String) : Quiet (snapshotState ops destination) :=
  quiet_perform fun _ ↦ rfl

theorem quiet_restoreState (backup : String) : Quiet (restoreState ops backup) :=
  quiet_perform fun _ ↦ rfl

theorem quiet_restorePriorState (journal : Journal) : Quiet (restorePriorState ops journal) := by
  have hstill : Quiet (pure () : Program (World σ β) Unit) :=
    .of_still still_pure fun _ _ _ hruns ↦ (runs_pure.mp hruns).2
  unfold restorePriorState
  split
  · exact hstill
  · split
    · exact hstill
    · split
      · exact .of_still still_fail fun _ _ _ hruns ↦ (not_runs_fail hruns).elim
      · exact quiet_bind (quiet_restoreState ops _) fun _ ↦ quiet_call _

end Quiet

/-! ## The commands -/

/-- The journal on disk is this one, up to what is recorded of it with the next phase. -/
def Recorded (journal : Journal) (world : World σ β) : Prop :=
  ∃ old, world.journal = some old ∧ old.phase = journal.phase ∧
    old.transaction = journal.transaction

theorem triple_quiet {α : Type} {program : Program (World σ β) α} (h : Quiet program)
    (journal : Journal) :
    Triple (Recorded journal) program (Disciplined begins) fun _ ↦ Recorded journal := by
  rintro world ⟨old, hold, hphase, htransaction⟩
  obtain ⟨hchain, hpost⟩ := h begins (some old) world hold
  exact ⟨hchain, fun a after hruns ↦ ⟨old, hpost a after hruns, hphase, htransaction⟩⟩

/-- A journal with more recorded in it is advanced. -/
theorem triple_advance {old journal : Journal} {phase : Phase} {sequential : Bool}
    (hphase : old.phase = journal.phase) (htransaction : old.transaction = journal.transaction)
    (hterminal : old.phase.isTerminal = false)
    (hsequential : sequential = true ∨ phase = .rolledBack) :
    Triple (Recorded old) (advance journal phase sequential : Program (World σ β) Journal)
      (Disciplined begins) fun updated world ↦
        updated = { journal with phase := phase } ∧ Recorded updated world := by
  refine triple_bind (fun _ world ↦
    (sequential = true → phase.index = journal.phase.index + 1) ∧ Recorded old world)
    (triple_require fun hnext world hpre ↦ ⟨hnext, hpre⟩) fun _ ↦ ?_
  refine triple_bind (fun _ ↦ Recorded { journal with phase := phase })
    (triple_perform ?_ ?_) fun _ ↦ triple_pure fun world hrecorded ↦ ⟨rfl, hrecorded⟩
  · rintro world ⟨hnext, found, hfound, hsame, hidentity⟩
    rw [Disciplined, hfound]
    refine .next (hidentity.trans htransaction).symm (hsame ▸ hterminal) ?_
    rcases hsequential with hsequential | rfl
    · exact .inl ((hsame.trans hphase) ▸ hnext hsequential)
    · exact .inr rfl
  · rintro world a after - heq
    cases heq
    exact ⟨_, rfl, rfl, rfl⟩

section Commands

variable (sha : Sha256 β) (ops : HostOperations σ β)

/-- An advance to the next phase, and what follows. -/
theorem triple_advance_bind {α : Type} {old journal : Journal} {phase : Phase}
    {next : Journal → Program (World σ β) α} (hphase : old.phase = journal.phase)
    (htransaction : old.transaction = journal.transaction)
    (hterminal : old.phase.isTerminal = false)
    (hnext : ∀ updated, updated.phase = phase →
      Triple (Recorded updated) (next updated) (Disciplined begins) fun _ _ ↦ True) :
    Triple (Recorded old) (advance journal phase true >>= next) (Disciplined begins)
      fun _ _ ↦ True := by
  refine triple_bind _ (triple_advance hphase htransaction hterminal (.inl rfl)) fun updated ↦
    triple_of_fact ?_
  rintro rfl
  exact hnext _ rfl

/-- An advance at the end of a program. -/
theorem triple_advance_last {old journal : Journal} {phase : Phase} {sequential : Bool}
    (hphase : old.phase = journal.phase) (htransaction : old.transaction = journal.transaction)
    (hterminal : old.phase.isTerminal = false)
    (hsequential : sequential = true ∨ phase = .rolledBack) :
    Triple (Recorded old) (advance journal phase sequential : Program (World σ β) Journal)
      (Disciplined begins) fun _ _ ↦ True :=
  (triple_advance hphase htransaction hterminal hsequential).weaken (fun _ h ↦ h)
    (fun _ _ h ↦ h) fun _ _ _ ↦ trivial

theorem triple_quiet_bind {α γ : Type} {program : Program (World σ β) γ} {journal : Journal}
    {next : γ → Program (World σ β) α} (hquiet : Quiet program)
    (hnext : ∀ a, Triple (Recorded journal) (next a) (Disciplined begins) fun _ _ ↦ True) :
    Triple (Recorded journal) (program >>= next) (Disciplined begins) fun _ _ ↦ True :=
  triple_bind _ (triple_quiet hquiet journal) hnext

theorem triple_apply (bundle manifestPath : String) (manifest : Document)
    (found : Option Journal) :
    Triple (fun world ↦ world.journal = found) (apply sha ops bundle manifestPath manifest)
      (Disciplined True) fun _ _ ↦ True := by
  refine triple_bind (fun prepared world ↦ prepared.2.phase = .verified ∧
    world.journal = found ∧ ∀ journal ∈ found, journal.phase.isTerminal = true) ?_ ?_
  · refine still_prepare.triple fun world prepared after hfound hruns ↦ ?_
    obtain ⟨prior, target, hready, rfl, rfl⟩ := runs_prepare.mp hruns
    subst hfound
    exact ⟨rfl, rfl, hready.ended⟩
  · rintro ⟨layout, journal⟩
    refine triple_of_fact fun hverified ↦ ?_
    have hbegin : Triple (fun world : World σ β ↦
        world.journal = found ∧ ∀ old ∈ found, old.phase.isTerminal = true)
        (writeJournal journal) (Disciplined True) fun _ ↦ Recorded journal := by
      refine triple_perform ?_ ?_
      · rintro world ⟨rfl, hover⟩
        exact .begin trivial hover hverified
      · rintro world a after - heq
        cases heq
        exact ⟨journal, rfl, rfl, rfl⟩
    refine triple_bind _ hbegin fun _ ↦ triple_quiet_bind (quiet_call _) fun _ ↦ ?_
    refine triple_advance_bind rfl rfl (by rw [hverified]; rfl) fun journal hphase ↦ ?_
    refine triple_quiet_bind (quiet_call _) fun _ ↦ ?_
    refine triple_advance_bind rfl rfl (by rw [hphase]; rfl) fun journal hphase ↦ ?_
    refine triple_quiet_bind (quiet_snapshotState ops _) fun _ ↦ ?_
    refine triple_advance_bind rfl rfl (by rw [hphase]; rfl) fun journal hphase ↦ ?_
    refine triple_quiet_bind (quiet_call _) fun _ ↦ ?_
    refine triple_advance_bind rfl rfl (by rw [hphase]; rfl) fun journal hphase ↦ ?_
    refine triple_quiet_bind (quiet_call _) fun _ ↦ ?_
    exact triple_advance_last rfl rfl (by rw [hphase]; rfl) (.inl rfl)

/-- The journal that is loaded is the one on disk. -/
theorem triple_loadJournal (found : Option Journal) :
    Triple (fun world ↦ world.journal = found) (loadJournal sha ops) (Disciplined begins)
      fun journal ↦ Recorded journal := by
  refine still_loadJournal.triple fun world journal after _ hruns ↦ ?_
  obtain ⟨hadmitted, rfl⟩ := runs_loadJournal.mp hruns
  exact ⟨journal, hadmitted.recorded, rfl, rfl⟩

theorem triple_prepareLayout {journal : Journal} (layout : Value)
    (hphase : journal.phase = .bootTrial ∨ journal.phase = .healthChecked) :
    Triple (Recorded journal) (prepareLayout sha ops journal layout) (Disciplined begins)
      fun prepared world ↦ prepared.2.phase = .healthChecked ∧ Recorded prepared.2 world := by
  unfold prepareLayout
  split
  · rename_i htrial
    refine triple_bind _ (triple_quiet (quiet_call _) journal) fun _ ↦ ?_
    refine triple_bind _ (triple_advance rfl rfl (by rw [htrial]; rfl) (.inl rfl)) fun updated ↦
      triple_of_fact ?_
    rintro rfl
    exact triple_pure fun world hrecorded ↦ ⟨rfl, hrecorded⟩
  · rename_i hother
    exact triple_pure fun world hrecorded ↦ ⟨hphase.resolve_left hother, hrecorded⟩

theorem triple_commit (found : Option Journal) :
    Triple (fun world ↦ world.journal = found) (commit sha ops) (Disciplined begins)
      fun _ _ ↦ True := by
  refine triple_bind _ (triple_loadJournal sha ops found) fun journal ↦ ?_
  refine triple_bind (fun _ world ↦ (journal.phase = .bootTrial ∨
    journal.phase = .healthChecked) ∧ Recorded journal world)
    (triple_require fun hphase world hrecorded ↦ ⟨hphase, hrecorded⟩) fun _ ↦ ?_
  refine triple_of_fact fun hphase ↦ triple_quiet_bind (quiet_loadLayout sha) fun _ ↦ ?_
  refine triple_quiet_bind (quiet_observedActiveSlot ops _) fun _ ↦ ?_
  refine triple_quiet_bind (quiet_require _ _) fun _ ↦ ?_
  refine triple_bind _ (triple_prepareLayout sha ops _ hphase) fun ⟨next, journal⟩ ↦ ?_
  refine triple_of_fact fun hchecked ↦ triple_quiet_bind (quiet_call _) fun _ ↦ ?_
  refine triple_quiet_bind (quiet_writeLayout _) fun _ ↦ ?_
  refine triple_quiet_bind (quiet_loadLayout sha) fun _ ↦ ?_
  refine triple_quiet_bind (quiet_call _) fun _ ↦ ?_
  exact triple_advance_last rfl rfl (by rw [hchecked]; rfl) (.inl rfl)

theorem triple_returnToPrior {old journal : Journal} (hphase : old.phase = journal.phase)
    (htransaction : old.transaction = journal.transaction)
    (hterminal : old.phase.isTerminal = false) :
    Triple (Recorded old) (returnToPrior ops journal) (Disciplined begins) fun _ _ ↦ True := by
  refine triple_quiet_bind (quiet_restorePriorState ops journal) fun _ ↦ ?_
  refine triple_quiet_bind (quiet_call _) fun _ ↦ triple_quiet_bind (quiet_call _) fun _ ↦ ?_
  exact triple_advance_last hphase htransaction hterminal (.inr rfl)

theorem triple_resetLayout {journal : Journal} (layout : Value) :
    Triple (Recorded journal) (resetLayout sha journal layout : Program (World σ β) Journal)
      (Disciplined begins) fun updated world ↦ (journal.phase = updated.phase ∧
        journal.transaction = updated.transaction) ∧ Recorded journal world := by
  unfold resetLayout
  split
  · exact triple_pure fun world hrecorded ↦ ⟨⟨rfl, rfl⟩, hrecorded⟩
  · refine triple_bind _ (triple_quiet (quiet_writeLayout _) journal) fun _ ↦ ?_
    refine triple_bind _ (triple_quiet (quiet_loadLayout sha) journal) fun _ ↦ ?_
    exact triple_pure fun world hrecorded ↦ ⟨⟨rfl, rfl⟩, hrecorded⟩

theorem triple_rollback (found : Option Journal) :
    Triple (fun world ↦ world.journal = found) (rollback sha ops) (Disciplined begins)
      fun _ _ ↦ True := by
  refine triple_bind _ (triple_loadJournal sha ops found) fun journal ↦ ?_
  refine triple_bind (fun _ world ↦ journal.phase.isTerminal = false ∧ Recorded journal world)
    (triple_require fun hphase world hrecorded ↦ ⟨hphase, hrecorded⟩) fun _ ↦ ?_
  refine triple_of_fact fun hterminal ↦ triple_quiet_bind (quiet_loadLayout sha) fun _ ↦ ?_
  refine triple_bind _ (triple_resetLayout sha _) fun updated ↦ triple_of_fact fun hsame ↦ ?_
  exact triple_returnToPrior ops hsame.1 hsame.2 hterminal

theorem triple_recover (found : Option Journal) :
    Triple (fun world ↦ world.journal = found) (recover sha ops) (Disciplined begins)
      fun _ _ ↦ True := by
  refine triple_bind _ (triple_loadJournal sha ops found) fun journal ↦ ?_
  split
  · exact triple_pure fun _ _ ↦ trivial
  · rename_i hterminal
    split
    · exact triple_returnToPrior ops rfl rfl (by simpa using hterminal)
    · refine triple_quiet_bind (quiet_loadLayout sha) fun _ ↦ ?_
      refine triple_quiet_bind (quiet_observedActiveSlot ops _) fun _ ↦ ?_
      split
      · exact triple_quiet_bind (quiet_restorePriorState ops journal) fun _ ↦
          triple_pure fun _ _ ↦ trivial
      · exact triple_pure fun _ _ ↦ trivial

end Commands

/-! ## Histories keep the discipline -/

def Event.Applies : Event σ β → Prop
  | .issue (.apply ..) _ => True
  | _ => False

variable (sha : Sha256 β)

theorem disciplined_program (command : Command σ β) (steps : ℕ) (world : World σ β) :
    List.IsChain (Disciplined (Event.issue command steps).Applies)
      (world :: (command.program sha world).passed) := by
  cases command with
  | apply ops bundle manifestPath manifest =>
    exact (triple_apply sha ops bundle manifestPath manifest world.journal world rfl).1
  | commit ops => exact (triple_commit sha ops world.journal world rfl).1
  | rollback ops => exact (triple_rollback sha ops world.journal world rfl).1
  | recover ops => exact (triple_recover sha ops world.journal world rfl).1

theorem disciplined_event (event : Event σ β) (world : World σ β) :
    List.IsChain (Disciplined event.Applies) (world :: event.passed sha world) := by
  cases event with
  | issue command steps =>
    exact (disciplined_program sha command steps world).take (steps + 1)
  | outside booted host =>
    exact List.isChain_cons_cons.mpr ⟨.same _, .singleton _⟩

theorem disciplined_history (events : List (Event σ β)) (world : World σ β) :
    List.IsChain (Disciplined (∃ event ∈ events, event.Applies))
      (world :: history sha world events) := by
  induction events generalizing world with
  | nil => exact .singleton world
  | cons event events ih =>
    have hfirst := (disciplined_event sha event world).imp fun before after h ↦
      Journal.Advances.mono h fun happlies ↦
        (⟨event, List.mem_cons_self, happlies⟩ : ∃ other ∈ event :: events, other.Applies)
    have hrest := (ih (event.after sha world)).imp fun before after h ↦
      Journal.Advances.mono h fun ⟨other, hmem, happlies⟩ ↦
        (⟨other, List.mem_cons_of_mem event hmem, happlies⟩ :
          ∃ other ∈ event :: events, other.Applies)
    exact isChain_append hfirst hrest

/-- In every history of commands that fail or are cut off anywhere, each change of the journal on
disk is an advance by one phase, a rollback of a transaction that is not over, or the beginning of a
transaction when there is none on record that is not over.  Without an apply none begins. -/
theorem phases_disciplined (world : World σ β) (events : List (Event σ β)) :
    List.IsChain (Journal.Advances (∃ event ∈ events, event.Applies))
      (world.journal :: (history sha world events).map World.journal) := by
  rw [← List.map_cons, List.isChain_map]
  exact disciplined_history sha events world

end Cameo.Update
