import Cameo.Library.Durable
import Cameo.Update.Canonical
import Cameo.Update.Manifest

/-!
# The host update transaction

`HostTransaction`: an update is applied to the inactive slot, tried by a boot, and then committed or
rolled back.  The journal file says how far it has come; the layout file and the state backup are
bound to it by their hashes.  What is done to block devices, the boot loader and the persistent
state is left to the operations of an adapter, over a host state of its own.

The operations are programs over what survives a power loss, with a step for every file that is
replaced and for every call of the adapter that acts on the host.
-/

namespace Cameo.Update

open Json Library Library.Durable Library.Durable.Program

/-! ## Files -/

/-- A file that holds a JSON value.  Many byte strings read as the same value.  Their length and
their hash can tell them apart, so those of a length are numbered; `json_bytes` writes the first. -/
structure Document where
  value : Value
  spelling : ℕ
  size : ℕ
deriving DecidableEq

/-- `json_bytes`. -/
def jsonBytes (value : Value) : Document := ⟨value, 0, canonicalSize value⟩

/-- `sha256_bytes` of documents and `sha256_file` of state backups. -/
structure Sha256 (β : Type) where
  document : Document → String
  file : β → String

/-! ## The journal -/

/-- `PHASES`. -/
inductive Phase where
  | verified
  | preflighted
  | drained
  | stateSaved
  | inactiveWritten
  | bootTrial
  | healthChecked
  | healthCommitted
  | rolledBack
deriving DecidableEq

namespace Phase

def label : Phase → String
  | verified => "verified"
  | preflighted => "preflighted"
  | drained => "drained"
  | stateSaved => "state_saved"
  | inactiveWritten => "inactive_written"
  | bootTrial => "boot_trial"
  | healthChecked => "health_checked"
  | healthCommitted => "health_committed"
  | rolledBack => "rolled_back"

/-- `PHASES.index(phase)`. -/
def index : Phase → ℕ
  | verified => 0
  | preflighted => 1
  | drained => 2
  | stateSaved => 3
  | inactiveWritten => 4
  | bootTrial => 5
  | healthChecked => 6
  | healthCommitted => 7
  | rolledBack => 8

/-- `phase in TERMINAL_PHASES`. -/
def isTerminal : Phase → Bool
  | healthCommitted | rolledBack => true
  | _ => false

end Phase

/-- The journal of a transaction.  A state backup is named by its file in the backup directory. -/
structure Journal where
  phase : Phase
  releaseId : String
  activeSlot : Slot
  inactiveSlot : Slot
  priorHealthySlot : Slot
  priorBootEntry : String
  layoutSha256 : String
  manifestSha256 : String
  stateBackup : Option String
  stateBackupSha256 : Option String
  generation : Option String
  bootEntry : Option String
  priorStateWrites : ℕ
  priorStateReads : List ℕ
  targetStateWrites : ℕ
  targetStateReads : List ℕ
  rollbackRequiresStateRestore : Bool
  nextLayoutSha256 : Option String
  nextLayout : Option Value
deriving DecidableEq

def backupPath (name : String) : String := "/var/lib/cameo/update/backups/" ++ name

namespace Journal

/-- The object of a journal.  The fields of a prepared layout are there only with one. -/
def toValue (journal : Journal) : Value :=
  .object
    ([("active_slot", .string journal.activeSlot.label),
      ("boot_entry", .option .string journal.bootEntry),
      ("generation", .option .string journal.generation),
      ("inactive_slot", .string journal.inactiveSlot.label),
      ("layout_sha256", .string journal.layoutSha256),
      ("manifest_sha256", .string journal.manifestSha256)] ++
    (journal.nextLayout.toList.map fun layout ↦ ("next_layout", layout)) ++
    (journal.nextLayoutSha256.toList.map fun hash ↦ ("next_layout_sha256", .string hash)) ++
    [("phase", .string journal.phase.label),
      ("prior_boot_entry", .string journal.priorBootEntry),
      ("prior_healthy_slot", .string journal.priorHealthySlot.label),
      ("prior_state_reads", .array (journal.priorStateReads.map .nat)),
      ("prior_state_writes", .nat journal.priorStateWrites),
      ("release_id", .string journal.releaseId),
      ("rollback_requires_state_restore", .bool journal.rollbackRequiresStateRestore),
      ("schema", .string "cameo-update-journal/v2"),
      ("state_backup", .option (fun name ↦ .string (backupPath name)) journal.stateBackup),
      ("state_backup_sha256", .option .string journal.stateBackupSha256),
      ("target_state_reads", .array (journal.targetStateReads.map .nat)),
      ("target_state_writes", .nat journal.targetStateWrites)])

def size (journal : Journal) : ℕ := (jsonBytes journal.toValue).size

/-- The bytes of the journal file with another phase in it. -/
def sizeAs (journal : Journal) (phase : Phase) : ℕ :=
  journal.size + phase.label.length - journal.phase.label.length

theorem size_withPhase (journal : Journal) (phase : Phase) :
    { journal with phase := phase }.size = journal.sizeAs phase := by
  have hlabel (found : Phase) : asciiStringSize found.label = found.label.length + 2 := by
    cases found <;> decide
  simp only [sizeAs, size, jsonBytes, canonicalSize, toValue, dumpsSize, dumpsFieldsSize_eq,
    List.map_append, List.map_cons, List.sum_append, List.sum_cons, List.length_append,
    List.length_cons, hlabel]
  omega

end Journal

/-- What survives a power loss, and the slot that is booted.  The journal file is only ever replaced
as a whole. -/
structure World (σ β : Type) where
  layout : Document
  journal : Option Journal
  backups : Ordered.Map String β
  booted : Slot
  host : σ

/-- `HostOperations`.  An operation answers and leaves the host in some state also when it fails;
`identify` are the checks of `observed_active_slot`, which answers with the booted slot. -/
structure HostOperations (σ β : Type) where
  identify : Value → σ → Except String Unit
  preflight : Value → Value → Slot → σ → Except String Unit × σ
  drain : σ → Except String Unit × σ
  snapshotState : String → Ordered.Map String β → σ →
    Except String String × Ordered.Map String β × σ
  writeInactive : Value → Value → String → Slot → σ → Except String String × σ
  stageBootTrial : Value → Value → Slot → String → σ → Except String String × σ
  healthCheck : Journal → σ → Except String Unit × σ
  bless : Journal → σ → Except String Unit × σ
  selectPrior : Journal → σ → Except String Unit × σ
  discardInactive : Journal → σ → Except String Unit × σ
  installedStateSupport : σ → Except String Value
  persistentStateSchema : σ → Except String Value
  restoreState : String → Ordered.Map String β → σ → Except String Unit × σ
  recordPersistentSchema : ℕ → σ → Except String Unit × σ

variable {σ β : Type}

/-! ## Steps -/

def call {α : Type} (operation : σ → Except String α × σ) : Program (World σ β) α :=
  perform fun world ↦
    let out := operation world.host
    (out.1, { world with host := out.2 })

/-- `operations.snapshot_state`, which writes the backup file. -/
def snapshotState (ops : HostOperations σ β) (destination : String) : Program (World σ β) String :=
  perform fun world ↦
    let out := ops.snapshotState destination world.backups world.host
    (out.1, { world with backups := out.2.1, host := out.2.2 })

/-- `operations.restore_state`, which reads the backup file. -/
def restoreState (ops : HostOperations σ β) (backup : String) : Program (World σ β) Unit :=
  perform fun world ↦
    let out := ops.restoreState backup world.backups world.host
    (out.1, { world with host := out.2 })

def ask {α : Type} (question : σ → Except String α) : Program (World σ β) α := do
  let answer ← look fun world ↦ question world.host
  ofExcept answer

/-- `operations.observed_active_slot`. -/
def observedActiveSlot (ops : HostOperations σ β) (layout : Value) : Program (World σ β) Slot := do
  ask (ops.identify layout)
  look World.booted

/-- `atomic_json` of the journal. -/
def writeJournal (journal : Journal) : Program (World σ β) Unit :=
  write fun world ↦ { world with journal := some journal }

/-- `atomic_json` of the layout. -/
def writeLayout (layout : Value) : Program (World σ β) Unit :=
  write fun world ↦ { world with layout := jsonBytes layout }

/-- `_advance`. -/
def advance (journal : Journal) (phase : Phase) (sequential : Bool) :
    Program (World σ β) Journal := do
  require (sequential = true → phase.index = journal.phase.index + 1)
    ("non-sequential transition " ++ journal.phase.label ++ " -> " ++ phase.label)
  let updated := { journal with phase := phase }
  writeJournal updated
  return updated

/-! ## Reading -/

/-- The error of `_regular_bytes` for a file that is too large. -/
def oversized (path : String) : String := "unsafe or oversized file: " ++ path

/-- `load_json` of a document that was read, less its result. -/
def loadJson (path expectedSchema : String) (document : Document) : Except String Unit := do
  ensure (document.size ≤ maxJsonBytes) (oversized path)
  ensure (document.value.get? "schema" = some (.string expectedSchema))
    ("unsupported schema in " ++ path)

def journalPath : String := "/var/lib/cameo/update/transaction.json"

def checkLayout (document : Document) : Except String Unit := do
  loadJson "/etc/cameo/update-layout.json" layoutSchema document
  validateLayout document.value

def listRepr (items : List String) : String :=
  "[" ++ ", ".intercalate (items.map fun item ↦ "'" ++ item ++ "'") ++ "]"

variable (sha : Sha256 β)

/-- `_layout`: the layout, and the hash of its file. -/
def loadLayout : Program (World σ β) (Value × String) := do
  let document ← look World.layout
  ofExcept (checkLayout document)
  return (document.value, sha.document document)

def acceptedLayouts (journal : Journal) : Except String (List String) :=
  if journal.phase = .healthChecked then
    match journal.nextLayout with
    | none => .error "health commit lacks its prepared layout"
    | some next =>
      if some (sha.document (jsonBytes next)) = journal.nextLayoutSha256 then
        .ok [journal.layoutSha256, sha.document (jsonBytes next)]
      else .error "prepared layout hash mismatch"
  else .ok [journal.layoutSha256]

def checkEvidence (journal : Journal) (backups : Ordered.Map String β) : Except String Unit :=
  if journal.phase.index < Phase.stateSaved.index then .ok ()
  else
    match journal.stateBackup, journal.stateBackupSha256 with
    | some backup, some hash =>
      ensure ((backups.get? backup).map sha.file = some hash) "state backup evidence changed"
    | _, _ => .error "transaction lacks its state backup evidence"

/-- `_journal`. -/
def loadJournal (ops : HostOperations σ β) : Program (World σ β) Journal := do
  let found ← look World.journal
  let journal ← ofExcept (found.elim (.error "cannot read the journal") .ok)
  require (journal.size ≤ maxJsonBytes) (oversized journalPath)
  let (layout, observedLayout) ← loadLayout sha
  let accepted ← ofExcept (acceptedLayouts sha journal)
  require (observedLayout ∈ accepted)
    ("installed layout changed during the transaction (observed " ++ observedLayout ++
      ", expected " ++ listRepr (accepted.dedup.insertionSort (· ≤ ·)) ++ ")")
  let observed ← observedActiveSlot ops layout
  require (observed = journal.priorHealthySlot ∨ observed = journal.inactiveSlot)
    "booted slot does not belong to this transaction"
  let backups ← look World.backups
  ofExcept (checkEvidence sha journal backups)
  return journal

section Reading

variable {sha} {ops : HostOperations σ β} {world after : World σ β}

theorem runs_ask {α : Type} {question : σ → Except String α} {a : α} :
    (ask question : Program (World σ β) α).Runs world a after ↔
      question world.host = .ok a ∧ world = after := by
  simp [ask, runs_bind]

theorem runs_ask_bind {α γ : Type} {question : σ → Except String α}
    {next : α → Program (World σ β) γ} {result : γ} :
    ((ask question : Program (World σ β) α) >>= next).Runs world result after ↔
      ∃ a, question world.host = .ok a ∧ (next a).Runs world result after :=
  runs_bind_of_iff fun _ _ ↦ runs_ask

theorem runs_observedActiveSlot {layout : Value} {slot : Slot} :
    (observedActiveSlot ops layout).Runs world slot after ↔
      ops.identify layout world.host = .ok () ∧ world.booted = slot ∧ world = after := by
  simp only [observedActiveSlot, runs_bind, runs_ask, runs_look]
  constructor
  · rintro ⟨_, _, ⟨hidentified, rfl⟩, rfl, rfl⟩
    exact ⟨hidentified, rfl, rfl⟩
  · rintro ⟨hidentified, rfl, rfl⟩
    exact ⟨(), world, ⟨hidentified, rfl⟩, rfl, rfl⟩

theorem runs_observedActiveSlot_bind {layout : Value} {γ : Type}
    {next : Slot → Program (World σ β) γ} {result : γ} :
    (observedActiveSlot ops layout >>= next).Runs world result after ↔
      ops.identify layout world.host = .ok () ∧ (next world.booted).Runs world result after := by
  rw [runs_bind_of_iff fun _ _ ↦ runs_observedActiveSlot.trans and_assoc.symm]
  simp only [and_assoc, exists_and_left, exists_eq_left']

theorem still_ask {α : Type} {question : σ → Except String α} :
    (ask question : Program (World σ β) α).Still :=
  still_bind still_look fun _ ↦ still_ofExcept

theorem still_observedActiveSlot {layout : Value} : (observedActiveSlot ops layout).Still :=
  still_bind still_ask fun _ ↦ still_look

theorem still_loadLayout : (loadLayout sha : Program (World σ β) (Value × String)).Still :=
  still_bind still_look fun _ ↦ still_bind still_ofExcept fun _ ↦ still_pure

theorem still_loadJournal : (loadJournal sha ops).Still :=
  still_bind still_look fun _ ↦ still_bind still_ofExcept fun _ ↦
    still_bind still_require fun _ ↦ still_bind still_loadLayout fun _ ↦
      still_bind still_ofExcept fun _ ↦ still_bind still_require fun _ ↦
        still_bind still_observedActiveSlot fun _ ↦ still_bind still_require fun _ ↦
          still_bind still_look fun _ ↦ still_bind still_ofExcept fun _ ↦ still_pure

structure LayoutReads (document : Document) : Prop where
  size : document.size ≤ maxJsonBytes
  valid : LayoutOk document.value

theorem loadJson_eq_ok {path expectedSchema : String} {document : Document} {u : Unit} :
    loadJson path expectedSchema document = .ok u ↔ document.size ≤ maxJsonBytes ∧
      document.value.get? "schema" = some (.string expectedSchema) := by
  simp only [loadJson, andThen_eq_ok, ensure_eq_ok]

theorem checkLayout_eq_ok {document : Document} {u : Unit} :
    checkLayout document = .ok u ↔ LayoutReads document := by
  simp only [checkLayout, andThen_eq_ok, loadJson_eq_ok, validateLayout_eq_ok]
  constructor
  · intro h
    exact ⟨h.1.1, h.2⟩
  · intro h
    exact ⟨⟨h.size, h.valid.schema⟩, h.valid⟩

theorem runs_loadLayout {found : Value × String} :
    (loadLayout sha).Runs world found after ↔
      LayoutReads world.layout ∧ (world.layout.value, sha.document world.layout) = found ∧
        world = after := by
  simp only [loadLayout, runs_bind, runs_look, runs_ofExcept, checkLayout_eq_ok, runs_pure]
  constructor
  · rintro ⟨_, _, ⟨rfl, rfl⟩, _, _, ⟨hlayout, rfl⟩, rfl, rfl⟩
    exact ⟨hlayout, rfl, rfl⟩
  · rintro ⟨hlayout, rfl, rfl⟩
    exact ⟨_, _, ⟨rfl, rfl⟩, (), _, ⟨hlayout, rfl⟩, rfl, rfl⟩

theorem runs_loadLayout_bind {γ : Type} {next : Value × String → Program (World σ β) γ}
    {result : γ} :
    (loadLayout sha >>= next).Runs world result after ↔ LayoutReads world.layout ∧
      (next (world.layout.value, sha.document world.layout)).Runs world result after := by
  rw [runs_bind_of_iff fun _ _ ↦ runs_loadLayout.trans and_assoc.symm]
  simp only [and_assoc, exists_and_left, exists_eq_left']

/-- The layout file is one that a journal accepts. -/
def Accepts (sha : Sha256 β) (journal : Journal) (layout : Document) : Prop :=
  ∃ hashes, acceptedLayouts sha journal = .ok hashes ∧ sha.document layout ∈ hashes

/-- What `_journal` asks before it returns the journal. -/
structure Admitted (sha : Sha256 β) (ops : HostOperations σ β) (world : World σ β)
    (journal : Journal) : Prop where
  recorded : world.journal = some journal
  size : journal.size ≤ maxJsonBytes
  layout : LayoutReads world.layout
  accepted : Accepts sha journal world.layout
  identified : ops.identify world.layout.value world.host = .ok ()
  slot : world.booted = journal.priorHealthySlot ∨ world.booted = journal.inactiveSlot
  evidence : checkEvidence sha journal world.backups = .ok ()

theorem runs_loadJournal {journal : Journal} :
    (loadJournal sha ops).Runs world journal after ↔
      Admitted sha ops world journal ∧ world = after := by
  rw [loadJournal, runs_look_bind, runs_ofExcept_bind]
  simp only [runs_require_bind, runs_loadLayout_bind, runs_ofExcept_bind,
    runs_observedActiveSlot_bind, runs_look_bind, runs_pure]
  constructor
  · rintro ⟨found, hfound, hsize, hlayout, hashes, haccepted, hmem, hidentified, hslot, _,
      hevidence, rfl, rfl⟩
    have hjournal : world.journal = some found := by
      cases hjournal : world.journal with
      | none => rw [hjournal] at hfound; cases hfound
      | some other => rw [hjournal] at hfound; cases hfound; rfl
    exact ⟨⟨hjournal, hsize, hlayout, ⟨hashes, haccepted, hmem⟩, hidentified, hslot, hevidence⟩,
      rfl⟩
  · rintro ⟨hadmitted, rfl⟩
    obtain ⟨hashes, haccepted, hmem⟩ := hadmitted.accepted
    have hfound : world.journal.elim (.error "cannot read the journal") .ok =
        (.ok journal : Except String Journal) := by
      rw [hadmitted.recorded]
      rfl
    exact ⟨journal, hfound, hadmitted.size, hadmitted.layout, hashes, haccepted, hmem,
      hadmitted.identified, hadmitted.slot, (), hadmitted.evidence, rfl, rfl⟩

end Reading

/-- What `status` reports. -/
inductive Status where
  | idle (activeSlot : Slot)
  | recorded (journal : Journal)
deriving DecidableEq

/-- `status`. -/
def status (ops : HostOperations σ β) : Program (World σ β) Status := do
  let found ← look World.journal
  if found.isNone then
    let (layout, _) ← loadLayout sha
    let slot ← observedActiveSlot ops layout
    return .idle slot
  else
    let journal ← loadJournal sha ops
    return .recorded journal

/-! ## Applying -/

/-- The journal that `apply` begins with. -/
def newJournal (manifest : Document) (layout : Value) (layoutSha256 : String) (active : Slot)
    (priorSupport targetSupport : StateSupport) : Journal where
  phase := .verified
  releaseId := (text manifest.value "release_id").getD ""
  activeSlot := active
  inactiveSlot := active.other
  priorHealthySlot := active
  priorBootEntry := (bootEntry layout active).getD ""
  layoutSha256 := layoutSha256
  manifestSha256 := sha.document manifest
  stateBackup := none
  stateBackupSha256 := none
  generation := none
  bootEntry := none
  priorStateWrites := priorSupport.writes
  priorStateReads := priorSupport.reads
  targetStateWrites := targetSupport.writes
  targetStateReads := targetSupport.reads
  rollbackRequiresStateRestore := decide (targetSupport.writes ∉ priorSupport.reads)
  nextLayoutSha256 := none
  nextLayout := none

/-- What `apply` checks before it records anything; the layout and the new journal. -/
def prepare (ops : HostOperations σ β) (manifestPath : String) (manifest : Document) :
    Program (World σ β) (Value × Journal) := do
  let old ← look World.journal
  require (∀ journal ∈ old, journal.size ≤ maxJsonBytes) (oversized journalPath)
  require (∀ journal ∈ old, journal.phase.isTerminal = true)
    "unfinished update requires recover or rollback"
  let (layout, layoutSha256) ← loadLayout sha
  ofExcept (loadJson manifestPath "cameo-update/v1" manifest)
  ofExcept (validateManifest manifest.value)
  let installed ← ask ops.installedStateSupport
  let priorSupport ← ofExcept (validateStateSupport installed true)
  let recorded ← ask ops.persistentStateSchema
  let persistent ← ofExcept (validateStateSupport recorded false)
  let targetSupport ← ofExcept (stateSupportFromManifest manifest.value)
  require (persistent.writes ∈ targetSupport.reads)
    ("refusing update; persistent state schema " ++ toString persistent.writes ++
      " cannot be read by release " ++ (text manifest.value "release_id").getD "")
  let active ← observedActiveSlot ops layout
  require (activeSlot layout = some active) "recorded and booted active slots differ"
  return (layout, newJournal sha manifest layout layoutSha256 active priorSupport targetSupport)

/-- What `apply` asks before it records anything. -/
structure Ready (ops : HostOperations σ β) (manifestPath : String) (manifest : Document)
    (world : World σ β) (priorSupport targetSupport : StateSupport) : Prop where
  sizes : ∀ journal ∈ world.journal, journal.size ≤ maxJsonBytes
  ended : ∀ journal ∈ world.journal, journal.phase.isTerminal = true
  layout : LayoutReads world.layout
  schema : loadJson manifestPath "cameo-update/v1" manifest = .ok ()
  valid : validateManifest manifest.value = .ok ()
  prior : ∃ installed, ops.installedStateSupport world.host = .ok installed ∧
    validateStateSupport installed true = .ok priorSupport
  target : stateSupportFromManifest manifest.value = .ok targetSupport
  persistent : ∃ recorded persistent, ops.persistentStateSchema world.host = .ok recorded ∧
    validateStateSupport recorded false = .ok persistent ∧ persistent.writes ∈ targetSupport.reads
  identified : ops.identify world.layout.value world.host = .ok ()
  active : activeSlot world.layout.value = some world.booted

/-- The journal that `apply` records first. -/
def firstJournal (manifest : Document) (world : World σ β)
    (priorSupport targetSupport : StateSupport) : Journal :=
  newJournal sha manifest world.layout.value (sha.document world.layout) world.booted priorSupport
    targetSupport

theorem still_prepare {sha : Sha256 β} {ops : HostOperations σ β} {manifestPath : String}
    {manifest : Document} : (prepare sha ops manifestPath manifest).Still :=
  still_bind still_look fun _ ↦ still_bind still_require fun _ ↦
    still_bind still_require fun _ ↦ still_bind still_loadLayout fun _ ↦
      still_bind still_ofExcept fun _ ↦ still_bind still_ofExcept fun _ ↦
        still_bind still_ask fun _ ↦ still_bind still_ofExcept fun _ ↦
          still_bind still_ask fun _ ↦ still_bind still_ofExcept fun _ ↦
            still_bind still_ofExcept fun _ ↦ still_bind still_require fun _ ↦
              still_bind still_observedActiveSlot fun _ ↦
                still_bind still_require fun _ ↦ still_pure

theorem runs_prepare {sha : Sha256 β} {ops : HostOperations σ β} {manifestPath : String}
    {manifest : Document} {world after : World σ β} {found : Value × Journal} :
    (prepare sha ops manifestPath manifest).Runs world found after ↔
      ∃ priorSupport targetSupport,
        Ready ops manifestPath manifest world priorSupport targetSupport ∧
          (world.layout.value, firstJournal sha manifest world priorSupport targetSupport) = found ∧
          world = after := by
  rw [prepare, runs_look_bind]
  simp only [runs_require_bind, runs_loadLayout_bind, runs_ofExcept_bind, runs_ask_bind,
    runs_observedActiveSlot_bind, runs_pure]
  constructor
  · rintro ⟨hsizes, hended, hlayout, _, hschema, _, hmanifest, installed, hinstalled, prior, hprior,
      recorded, hrecorded, persistent, hpersistent, target, htarget, hreadable, hidentified,
      hactive, rfl, rfl⟩
    exact ⟨prior, target, ⟨hsizes, hended, hlayout, hschema, hmanifest,
      ⟨installed, hinstalled, hprior⟩, htarget,
      ⟨recorded, persistent, hrecorded, hpersistent, hreadable⟩, hidentified, hactive⟩, rfl, rfl⟩
  · rintro ⟨prior, target, hready, rfl, rfl⟩
    obtain ⟨installed, hinstalled, hprior⟩ := hready.prior
    obtain ⟨recorded, persistent, hrecorded, hpersistent, hreadable⟩ := hready.persistent
    exact ⟨hready.sizes, hready.ended, hready.layout, (), hready.schema, (), hready.valid,
      installed, hinstalled, prior, hprior, recorded, hrecorded, persistent, hpersistent, target,
      hready.target, hreadable, hready.identified, hready.active, rfl, rfl⟩

def backupName (manifest : Document) : String := sha.document manifest ++ ".json"

/-- `apply`. -/
def apply (ops : HostOperations σ β) (bundle manifestPath : String) (manifest : Document) :
    Program (World σ β) Journal := do
  let (layout, journal) ← prepare sha ops manifestPath manifest
  writeJournal journal
  call (ops.preflight layout (manifest.value.set "_bundle" (.string bundle)) journal.inactiveSlot)
  let journal ← advance journal .preflighted true
  call ops.drain
  let journal ← advance journal .drained true
  let backupHash ← snapshotState ops (backupName sha manifest)
  let journal ← advance { journal with
    stateBackup := some (backupName sha manifest), stateBackupSha256 := some backupHash }
    .stateSaved true
  let generation ← call (ops.writeInactive layout manifest.value bundle journal.inactiveSlot)
  let journal ← advance { journal with generation := some generation } .inactiveWritten true
  let entry ← call (ops.stageBootTrial layout manifest.value journal.inactiveSlot generation)
  advance { journal with bootEntry := some entry } .bootTrial true

/-! ## Ending a transaction -/

/-- The layout that `commit` is to write, which it records first if it has not done so. -/
def prepareLayout (ops : HostOperations σ β) (journal : Journal) (layout : Value) :
    Program (World σ β) (Value × Journal) :=
  if journal.phase = .bootTrial then do
    call (ops.healthCheck journal)
    let next := promoted layout journal.inactiveSlot journal.bootEntry
    let journal ← advance { journal with
      nextLayoutSha256 := some (sha.document (jsonBytes next)), nextLayout := some next }
      .healthChecked true
    return (next, journal)
  else return (journal.nextLayout.getD .null, journal)

/-- `commit`. -/
def commit (ops : HostOperations σ β) : Program (World σ β) Journal := do
  let journal ← loadJournal sha ops
  require (journal.phase = .bootTrial ∨ journal.phase = .healthChecked)
    "only a boot trial can be committed"
  let (layout, _) ← loadLayout sha
  let observed ← observedActiveSlot ops layout
  require (observed = journal.inactiveSlot) "health commit must run from the trial slot"
  let (layout, journal) ← prepareLayout sha ops journal layout
  call (ops.bless journal)
  let layout := if activeSlot layout = some journal.inactiveSlot then layout
    else promoted layout journal.inactiveSlot journal.bootEntry
  writeLayout layout
  let (_, layoutSha256) ← loadLayout sha
  call (ops.recordPersistentSchema journal.targetStateWrites)
  advance { journal with
    layoutSha256 := layoutSha256, nextLayoutSha256 := none, nextLayout := none }
    .healthCommitted true

/-- `_restore_prior_state`. -/
def restorePriorState (ops : HostOperations σ β) (journal : Journal) : Program (World σ β) Unit :=
  if journal.rollbackRequiresStateRestore = false then return ()
  else if journal.phase.index < Phase.bootTrial.index then return ()
  else
    match journal.stateBackup with
    | none => fail ("refusing to boot the prior slot; persistent state was migrated " ++
        "and no restore snapshot exists")
    | some backup => do
      restoreState ops backup
      call (ops.recordPersistentSchema journal.priorStateWrites)

def returnToPrior (ops : HostOperations σ β) (journal : Journal) : Program (World σ β) Journal := do
  restorePriorState ops journal
  call (ops.selectPrior journal)
  call (ops.discardInactive journal)
  advance journal .rolledBack false

/-- The part of `rollback` that makes the prior slot active in the layout again. -/
def resetLayout (journal : Journal) (layout : Value) : Program (World σ β) Journal :=
  if activeSlot layout = some journal.priorHealthySlot then return journal
  else do
    writeLayout (withActive layout journal.priorHealthySlot)
    let (_, layoutSha256) ← loadLayout sha
    return { journal with
      layoutSha256 := layoutSha256, nextLayoutSha256 := none, nextLayout := none }

/-- `rollback`. -/
def rollback (ops : HostOperations σ β) : Program (World σ β) Journal := do
  let journal ← loadJournal sha ops
  require (journal.phase.isTerminal = false) "transaction is already terminal"
  let (layout, _) ← loadLayout sha
  let journal ← resetLayout sha journal layout
  returnToPrior ops journal

/-- What `recover` does once a trial was staged. -/
def assess (ops : HostOperations σ β) (journal : Journal) : Program (World σ β) Journal := do
  let (layout, _) ← loadLayout sha
  let observed ← observedActiveSlot ops layout
  if observed = journal.priorHealthySlot then
    -- boot assessment has already returned to the old slot
    restorePriorState ops journal
    return journal
  else return journal

/-- `recover`. -/
def recover (ops : HostOperations σ β) : Program (World σ β) Journal := do
  let journal ← loadJournal sha ops
  if journal.phase.isTerminal then return journal
  else if journal.phase.index < Phase.bootTrial.index then returnToPrior ops journal
  else assess sha ops journal

end Cameo.Update
