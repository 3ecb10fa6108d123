import Cameo.Update.Consistency

/-!
# A machine with two slots

What the operations of an adapter do to the machine, as far as a transaction depends on it: the
persistent state and its schema, and the slot that the boot loader was last told to use.  An
operation that fails may have had its effect or not.  The calls of `select_prior` and the restored
snapshots are recorded for the properties that are stated about them.
-/

namespace Cameo.Update

open Json Library Library.Durable Library.Durable.Program

/-- The persistent state: the schema it is written in, and what it holds. -/
structure State where
  schema : ℕ
  content : String
deriving DecidableEq

/-- What a call of `select_prior` has met: the schema of the state, and what the prior release can
read. -/
structure Selection where
  schema : ℕ
  reads : List ℕ
deriving DecidableEq

/-- The prior release can read the state. -/
def Selection.Readable (selection : Selection) : Prop := selection.schema ∈ selection.reads

instance (selection : Selection) : Decidable selection.Readable :=
  inferInstanceAs (Decidable (_ ∈ _))

structure Machine where
  /-- The state support of the running release. -/
  installed : Value
  /-- The recorded schema of the persistent state. -/
  recorded : Value
  state : State
  /-- The slot that the boot loader was last told to use. -/
  told : Slot
  /-- The boot loader may still return from the slot it was told to use. -/
  assessing : Bool
  selections : List Selection
  restores : ℕ
deriving DecidableEq

/-- A call has its effect if it succeeds, and may have it if it fails. -/
def HasEffect {α : Type} (result : Except String α × Machine) (before effect : Machine) : Prop :=
  result.2 = effect ∨ result.2 = before ∧ ∀ a, result.1 ≠ .ok a

theorem HasEffect.of_ok {α : Type} {result : Except String α × Machine} {before effect : Machine}
    (h : HasEffect result before effect) {a : α} {after : Machine} (hok : result = (.ok a, after)) :
    after = effect := by
  subst hok
  exact h.resolve_right fun hbefore ↦ hbefore.2 a rfl

namespace Machine

variable (machine : Machine)

/-- The boot loader is told to try a slot. -/
def tries (slot : Slot) : Machine := { machine with told := slot, assessing := true }

def keeps (slot : Slot) : Machine := { machine with told := slot, assessing := false }

/-- A call of `select_prior` was made. -/
def selecting (journal : Journal) : Machine :=
  { machine with
    selections := ⟨machine.state.schema, journal.priorStateReads⟩ :: machine.selections }

/-- The boot loader is told to use the prior slot. -/
def selects (journal : Journal) : Machine :=
  { machine.selecting journal with told := journal.priorHealthySlot }

def restored (state : State) : Machine :=
  { machine with state := state, restores := machine.restores + 1 }

def recording (value : Value) : Machine := { machine with recorded := value }

end Machine

/-- What the operations of an adapter do to the machine. -/
structure HostOperations.Faithful (sha : Sha256 State) (ops : HostOperations Machine State) : Prop
    extends ops.Lawful sha where
  preflight : ∀ layout manifest slot host, (ops.preflight layout manifest slot host).2 = host
  drain : ∀ host, (ops.drain host).2 = host
  saves : ∀ name backups host, (ops.snapshotState name backups host).2.2 = host
  saved : ∀ name backups host hash saved after,
    ops.snapshotState name backups host = (.ok hash, saved, after) →
      saved.get? name = some host.state
  writeInactive : ∀ layout manifest bundle slot host,
    (ops.writeInactive layout manifest bundle slot host).2 = host
  stageBootTrial : ∀ layout manifest slot generation host,
    HasEffect (ops.stageBootTrial layout manifest slot generation host) host (host.tries slot)
  healthCheck : ∀ journal host, (ops.healthCheck journal host).2 = host
  bless : ∀ journal host, HasEffect (ops.bless journal host) host (host.keeps journal.inactiveSlot)
  selectPrior : ∀ journal host,
    HasEffect (ops.selectPrior journal host) (host.selecting journal) (host.selects journal)
  discardInactive : ∀ journal host, (ops.discardInactive journal host).2 = host
  restoreState : ∀ name backups host,
    (∃ state, backups.get? name = some state ∧
      (ops.restoreState name backups host).2 = host.restored state) ∨
    (ops.restoreState name backups host).2 = host ∧
      ∀ u, (ops.restoreState name backups host).1 ≠ .ok u
  recordPersistentSchema : ∀ writes host, ∃ value,
    (ops.recordPersistentSchema writes host).2 = host.recording value

/-- The schema record of `record_persistent_schema`. -/
def schemaRecord (writes : ℕ) : Value :=
  .object [("reads", .array [.nat writes]), ("schema", .string "cameo-state-support/v1"),
    ("writes", .nat writes)]

def Machine.restoring (machine : Machine) : Option State → Except String Unit × Machine
  | some state => (.ok (), machine.restored state)
  | none => (.error "cannot read the backup", machine)

def dutiful (sha : Sha256 State) : HostOperations Machine State where
  identify _ _ := .ok ()
  preflight _ _ _ host := (.ok (), host)
  drain host := (.ok (), host)
  snapshotState name backups host :=
    (.ok (sha.file host.state), backups.insert name host.state, host)
  writeInactive _ _ _ _ host := (.ok "generation-2", host)
  stageBootTrial _ _ slot _ host := (.ok ("cameo-" ++ slot.label ++ "+3"), host.tries slot)
  healthCheck _ host := (.ok (), host)
  bless journal host := (.ok (), host.keeps journal.inactiveSlot)
  selectPrior journal host := (.ok (), host.selects journal)
  discardInactive _ host := (.ok (), host)
  installedStateSupport host := .ok host.installed
  persistentStateSchema host := .ok host.recorded
  restoreState name backups host := host.restoring (backups.get? name)
  recordPersistentSchema writes host := (.ok (), host.recording (schemaRecord writes))

theorem dutiful_faithful (sha : Sha256 State) : (dutiful sha).Faithful sha where
  snapshot name backups host hash saved after h := by
    cases h
    rw [Ordered.Map.get?_insert, if_pos rfl]
    rfl
  entry layout manifest slot generation host entry after h := by
    cases h
    cases slot <;> decide
  preflight _ _ _ _ := rfl
  drain _ := rfl
  saves _ _ _ := rfl
  saved name backups host hash saved after h := by
    cases h
    rw [Ordered.Map.get?_insert, if_pos rfl]
  writeInactive _ _ _ _ _ := rfl
  stageBootTrial _ _ _ _ _ := .inl rfl
  healthCheck _ _ := rfl
  bless _ _ := .inl rfl
  selectPrior _ _ := .inl rfl
  discardInactive _ _ := rfl
  restoreState name backups host := by
    change (∃ state, backups.get? name = some state ∧
        (host.restoring (backups.get? name)).2 = host.restored state) ∨
      (host.restoring (backups.get? name)).2 = host ∧
        ∀ u, (host.restoring (backups.get? name)).1 ≠ .ok u
    cases backups.get? name with
    | none => exact .inr ⟨rfl, fun _ hok ↦ nomatch hok⟩
    | some state => exact .inl ⟨state, rfl, rfl⟩
  recordPersistentSchema writes host := ⟨schemaRecord writes, rfl⟩

/-! ## The fixture of the tests -/

def fixtureSha : Sha256 State where
  document document := toString document.spelling ++
    (text document.value "release_id").getD "-" ++ (text document.value "active_slot").getD "-" ++
    (bootEntry document.value .A).getD "-" ++ (bootEntry document.value .B).getD "-"
  file state := toString state.schema ++ state.content

/-- The layout of the fixture.  It is not spelled as `json_bytes` spells it, but with blanks. -/
def fixtureLayout : Document where
  value := .object
    [("active_slot", .string "A"),
      ("boot", .object [("device_id", .string "disk-1"), ("partuuid", .string "esp")]),
      ("bootloader", .string "systemd-boot"),
      ("firmware", .string "uefi"),
      ("persistent", .object [("device_id", .string "disk-1"), ("partuuid", .string "state")]),
      ("schema", .string "cameo-update-layout/v2"),
      ("slots", .object
        [("A", .object [("boot_entry", .string "cameo-A"), ("device_id", .string "disk-1"),
            ("partuuid", .string "slot-a")]),
          ("B", .object [("boot_entry", .null), ("device_id", .string "disk-1"),
            ("partuuid", .string "slot-b")])])]
  spelling := 1
  size := 480

/-- A manifest of the fixture, for a release that writes schema 4. -/
def fixtureManifest : Document where
  value := .object
    [("compatibility", .object [("id", .string "amd-v1"),
        ("state", .object [("reads", .array [.nat 3, .nat 4]), ("writes", .nat 4)])]),
      ("files", .array [.object [("sha256", .string
            "0000000000000000000000000000000000000000000000000000000000000000"),
          ("source", .string "payload"), ("target", .string "/usr/local/bin/cameo")]]),
      ("identities", .object (requiredComponentIdentities.map fun name ↦
        (name, .object [("id", .string name)]))),
      ("release_id", .string "2.0.0"),
      ("schema", .string "cameo-update/v1")]
  spelling := 1
  size := 700

/-- The machine of the fixture before the update. -/
def fixtureMachine : Machine where
  installed := .object [("reads", .array [.nat 1, .nat 2, .nat 3]), ("writes", .nat 3)]
  recorded := schemaRecord 3
  state := ⟨3, "verified state"⟩
  told := .A
  assessing := false
  selections := []
  restores := 0

/-- The world of the fixture before the update. -/
def fixture : World Machine State where
  layout := fixtureLayout
  journal := none
  backups := .empty
  booted := .A
  host := fixtureMachine

/-- The fixture's update, cut off after a number of steps. -/
def fixtureApply (steps : ℕ) : Event Machine State :=
  .issue (.apply (dutiful fixtureSha) "/bundle" "/bundle/manifest.json" fixtureManifest) steps

end Cameo.Update
