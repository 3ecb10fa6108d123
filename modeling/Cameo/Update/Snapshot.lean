import Cameo.Store.Archive
import Cameo.Update.Rerun

/-!
# The state snapshot of the Linux adapter

`snapshot_state` exports the endpoints directory with `cameod state backup`, or writes a marker if
there is no such directory.  `restore_state` hands the file to `cameod state restore`, which
restores into a new directory only and knows nothing of the marker.  So the snapshot of a directory
can be restored if and only if the directory was removed by then, and the marker cannot be restored
at all.
-/

namespace Cameo.Update

open Json Library Library.Durable Library.Durable.Program Store

/-- The host of the Linux adapter: the endpoints directory on the persistent partition, if there is
one, and the rest. -/
structure LinuxHost (σ : Type) where
  endpoints : Option Directory
  rest : σ

namespace LinuxOperations

/-- The marker for no endpoint state, `{"schema": "cameo-empty-state/v1"}`.  It has none of the
fields that serde asks of a snapshot. -/
def emptyState : FileData := .corrupt

/-- `run` of a `cameod` command, which exits with 1 if it fails. -/
def run {α : Type} : Except String α → Except String α
  | .ok a => .ok a
  | .error _ => .error "command failed (1): cameod "

/-- Creating a file that must not exist. -/
def createNew (backups : Ordered.Map String FileData) (path : String) : Except String Unit :=
  if (backups.get? path).isSome then .error ("[Errno 17] File exists: '" ++ path ++ "'")
  else .ok ()

/-- `sha256_file` of a backup. -/
def sha256File (sha : Sha256 FileData) (backups : Ordered.Map String FileData) (path : String) :
    Except String String :=
  match backups.get? path with
  | none => .error ("[Errno 2] No such file or directory: '" ++ path ++ "'")
  | some file => .ok (sha.file file)

/-- The marker is written, with the answers for creating and writing the file. -/
def writeMarker (io : BackupIo) : Except String Unit × Option FileData :=
  match io.create with
  | .error e => (.error e, none)
  | .ok () =>
    match io.write with
    | .error e => (.error e, some io.left)
    | .ok () => (.ok (), some emptyState)

/-- What `snapshot_state` writes, and whether it comes to an end. -/
def exportState (codec : Codec) (io : BackupIo) :
    Option Directory → Except String Unit × Option FileData
  | some directory =>
    let out := EndpointStore.backup codec io directory
    (run out.1, out.2)
  | none => writeMarker io

/-- The answers for a destination, which cannot be created if it is there. -/
def creating (io : BackupIo) (backups : Ordered.Map String FileData) (destination : String) :
    BackupIo :=
  { io with
    create := do
      createNew backups destination
      io.create }

/-- The backups with what was written, and the hash of the file. -/
def settle (sha : Sha256 FileData) (destination : String) (backups : Ordered.Map String FileData)
    (out : Except String Unit × Option FileData) :
    Except String String × Ordered.Map String FileData :=
  let saved := out.2.elim backups (backups.insert destination)
  ((do
    out.1
    sha256File sha saved destination), saved)

/-- `snapshot_state`: the hash of the file, and the backups. -/
def snapshotState (codec : Codec) (sha : Sha256 FileData) (io : BackupIo) (destination : String)
    (backups : Ordered.Map String FileData) (endpoints : Option Directory) :
    Except String String × Ordered.Map String FileData :=
  settle sha destination backups (exportState codec (creating io backups destination) endpoints)

/-- `restore_state`: its answer, and the endpoints directory. -/
def restoreState (codec : Codec) (io : RestoreIo) (backup : String)
    (backups : Ordered.Map String FileData) (endpoints : Option Directory) :
    Except String Unit × Option Directory :=
  match backups.get? backup with
  | none => (run (.error "No such file or directory (os error 2)"), endpoints)
  | some file =>
    let out := EndpointStore.restore codec { io with present := endpoints.isSome } file
    (run out.1, out.2.or endpoints)

end LinuxOperations

/-- `LinuxOperations`, with what its other operations do to the host left open. -/
def linuxOperations {σ : Type} (codec : Codec) (sha : Sha256 FileData) (saving : BackupIo)
    (restoring : RestoreIo) (base : HostOperations (LinuxHost σ) FileData) :
    HostOperations (LinuxHost σ) FileData :=
  { base with
    snapshotState := fun destination backups host ↦
      let out := LinuxOperations.snapshotState codec sha saving destination backups host.endpoints
      (out.1, out.2, host)
    restoreState := fun backup backups host ↦
      let out := LinuxOperations.restoreState codec restoring backup backups host.endpoints
      (out.1, { host with endpoints := out.2 }) }

namespace LinuxOperations

variable {codec : Codec} {sha : Sha256 FileData} {io : BackupIo} {destination hash : String}
  {backups saved : Ordered.Map String FileData} {endpoints : Option Directory}

theorem exportState_some (directory : Directory) :
    exportState codec io (some directory) =
      (run (EndpointStore.backup codec io directory).1,
        (EndpointStore.backup codec io directory).2) := rfl

theorem exportState_none : exportState codec io none = writeMarker io := rfl

theorem exportState_of_not_created {e : String} (hcreate : io.create = .error e) :
    ∃ e, exportState codec io endpoints = (.error e, none) := by
  cases endpoints with
  | none =>
    refine ⟨e, ?_⟩
    rw [exportState_none, writeMarker, hcreate]
  | some directory =>
    have hbackup : ∃ e, EndpointStore.backup codec io directory = (.error e, none) :=
      EndpointStore.backup_of_not_created hcreate
    obtain ⟨e', hbackup⟩ := hbackup
    refine ⟨"command failed (1): cameod ", ?_⟩
    rw [exportState_some, hbackup]
    rfl

theorem exportState_none_eq_ok {file : FileData}
    (h : exportState codec io none = (.ok (), some file)) : file = emptyState := by
  rw [exportState_none, writeMarker] at h
  cases hcreate : io.create with
  | error e => rw [hcreate] at h; cases h
  | ok _ =>
    cases hwrite : io.write with
    | error e => rw [hcreate, hwrite] at h; cases h
    | ok _ =>
      rw [hcreate, hwrite] at h
      cases h
      rfl

theorem exportState_some_eq_ok {directory : Directory} {file : FileData}
    (h : exportState codec io (some directory) = (.ok (), some file)) :
    EndpointStore.backup codec io directory = (.ok (), some file) := by
  rw [exportState_some] at h
  obtain ⟨hanswer, hfile⟩ := Prod.mk.inj h
  cases hbackup : (EndpointStore.backup codec io directory).1 with
  | error e => rw [hbackup] at hanswer; cases hanswer
  | ok _ => exact Prod.ext hbackup hfile

/-- What is exported is a file. -/
theorem exportState_of_ok (hok : (exportState codec io endpoints).1 = .ok ()) :
    ∃ file, exportState codec io endpoints = (.ok (), some file) := by
  cases endpoints with
  | none =>
    rw [exportState_none, writeMarker] at hok ⊢
    cases hcreate : io.create with
    | error e => rw [hcreate] at hok; cases hok
    | ok _ =>
      cases hwrite : io.write with
      | error e => rw [hcreate, hwrite] at hok; cases hok
      | ok _ => exact ⟨emptyState, rfl⟩
  | some directory =>
    rw [exportState_some] at hok ⊢
    cases hanswer : (EndpointStore.backup codec io directory).1 with
    | error e => rw [hanswer] at hok; cases hok
    | ok _ =>
      obtain ⟨file, hfile⟩ := EndpointStore.backup_of_ok hanswer
      rw [hfile]
      exact ⟨file, rfl⟩

theorem creating_of_present (h : (backups.get? destination).isSome = true) :
    ∃ e, (creating io backups destination).create = .error e := by
  unfold creating createNew
  rw [if_pos h]
  exact ⟨_, rfl⟩

theorem creating_of_absent (h : backups.get? destination = none) :
    creating io backups destination = io := by
  unfold creating createNew
  rw [h]
  rfl

/-- No snapshot is taken if the file is there. -/
theorem snapshotState_of_present (h : (backups.get? destination).isSome = true) :
    ∃ e, snapshotState codec sha io destination backups endpoints = (.error e, backups) := by
  obtain ⟨e, hcreate⟩ := creating_of_present h
  have hexport : ∃ e, exportState codec (creating io backups destination) endpoints =
      (.error e, none) := exportState_of_not_created hcreate
  obtain ⟨e', hexport⟩ := hexport
  rw [snapshotState, hexport]
  exact ⟨e', rfl⟩

/-- A snapshot is taken if the file is not there and the state can be exported. -/
theorem snapshotState_of_absent (h : backups.get? destination = none) {file : FileData}
    (hexport : exportState codec io endpoints = (.ok (), some file)) :
    snapshotState codec sha io destination backups endpoints =
      (.ok (sha.file file), backups.insert destination file) := by
  have hread : (backups.insert destination file).get? destination = some file := by
    rw [Ordered.Map.get?_insert, if_pos rfl]
  rw [snapshotState, creating_of_absent h, hexport]
  dsimp only [settle, Option.elim]
  rw [sha256File, hread]
  rfl

/-- A snapshot that is taken has created its file, and returns its hash. -/
theorem snapshotState_eq_ok
    (h : snapshotState codec sha io destination backups endpoints = (.ok hash, saved)) :
    backups.get? destination = none ∧ ∃ file, exportState codec io endpoints = (.ok (), some file) ∧
      saved = backups.insert destination file ∧ sha.file file = hash := by
  cases hfound : backups.get? destination with
  | some found =>
    have hpresent : ∃ e, snapshotState codec sha io destination backups endpoints =
        (.error e, backups) := snapshotState_of_present (by rw [hfound]; rfl)
    obtain ⟨e, hfails⟩ := hpresent
    cases hfails.symm.trans h
  | none =>
    cases hanswer : (exportState codec io endpoints).1 with
    | error e =>
      rw [snapshotState, creating_of_absent hfound, settle, hanswer] at h
      cases (Prod.mk.inj h).1
    | ok _ =>
      obtain ⟨file, hexport⟩ := exportState_of_ok hanswer
      rw [snapshotState_of_absent hfound hexport] at h
      obtain ⟨hhash, hsaved⟩ := Prod.mk.inj h
      exact ⟨rfl, file, hexport, hsaved.symm, Except.ok.inj hhash⟩

/-- Nothing is restored over a directory that is there. -/
theorem restoreState_of_present {io : RestoreIo} (h : endpoints.isSome = true) (backup : String) :
    (restoreState codec io backup backups endpoints).1 = .error "command failed (1): cameod " := by
  unfold restoreState
  cases backups.get? backup with
  | none => rfl
  | some file =>
    have hrestore : ∃ e, EndpointStore.restore codec { io with present := endpoints.isSome } file =
        (.error e, none) := EndpointStore.restore_of_present h
    obtain ⟨e, hrestore⟩ := hrestore
    dsimp only
    rw [hrestore]
    rfl

/-- The marker is not restored. -/
theorem restoreState_of_emptyState {io : RestoreIo} {backup : String}
    (h : backups.get? backup = some emptyState) :
    (restoreState codec io backup backups endpoints).1 = .error "command failed (1): cameod " := by
  have hrestore : ∃ e, EndpointStore.restore codec { io with present := endpoints.isSome }
      emptyState = (.error e, none) := EndpointStore.restore_corrupt
  obtain ⟨e, hrestore⟩ := hrestore
  unfold restoreState
  rw [h]
  dsimp only
  rw [hrestore]
  rfl

/-- A snapshot is restored where there is no directory. -/
theorem restoreState_of_read (hspells : codec.Spells) {backup : String} {file : FileData}
    {number : ℕ} {state : IntentState} (hfile : backups.get? backup = some file)
    (hread : readSnapshot codec file = .ok ⟨3, number, codec.digest state, state⟩)
    (suffix : String) :
    ∃ restored, restoreState codec (.ok suffix) backup backups none = (.ok (), some restored) ∧
      EndpointStore.OpensTo codec restored state := by
  obtain ⟨hlimit, hvalid⟩ := Directory.written_of_readSnapshot hread
  have hsize : codec.size ⟨3, 1, codec.digest state, state⟩ ≤ limit :=
    (hspells _ _ _ 1 number (le_max_of_le_left (by decide))).trans hlimit
  obtain ⟨restored, hrestore, hcommitted⟩ := Directory.restore_of_read hread hsize suffix
  refine ⟨restored, ?_, ?_⟩
  · unfold restoreState
    rw [hfile]
    change (run (EndpointStore.restore codec (.ok suffix) file).1,
      (EndpointStore.restore codec (.ok suffix) file).2.or none) = _
    rw [hrestore]
    rfl
  · have hreadable := (Directory.acceptable_of_validate hvalid).readable
    exact ⟨_, hcommitted.holds.open_eq hreadable, rfl⟩

end LinuxOperations

/-! ## The round trip -/

/-- A snapshot of the endpoints, restored over what is there now, gives back their state.  A
directory that does not exist is opened as an empty one. -/
def RoundTrips (codec : Codec) (suffix destination : String)
    (saved : Ordered.Map String FileData) (before after : Option Directory) : Prop :=
  ∃ restored state,
    LinuxOperations.restoreState codec (.ok suffix) destination saved after =
      (.ok (), some restored) ∧
    EndpointStore.OpensTo codec (before.getD .empty) state ∧
    EndpointStore.OpensTo codec restored state

/-- A rollback whose journal names a backup comes to its end, if the other operations of the adapter
succeed. -/
def RollsBack (σ : Type) (codec : Codec) (sha : Sha256 FileData) (saving : BackupIo)
    (suffix destination : String) (saved : Ordered.Map String FileData)
    (after : Option Directory) : Prop :=
  ∀ (base : HostOperations (LinuxHost σ) FileData) (world : World (LinuxHost σ) FileData)
    (journal : Journal), base.Returns → Consistent sha world.disk journal →
    Loadable sha world.disk journal → journal.phase.isTerminal = false →
    journal.stateBackup = some destination → world.backups = saved →
    world.host.endpoints = after →
    ∃ updated last,
      (rollback sha (linuxOperations codec sha saving (.ok suffix) base)).Runs world updated last ∧
      updated.phase = .rolledBack

section RoundTrip

variable {σ : Type} {codec : Codec} {sha : Sha256 FileData} {saving : BackupIo}
  {suffix destination hash : String} {backups saved : Ordered.Map String FileData}
  {before after : Option Directory}

theorem RoundTrips.rollsBack (h : RoundTrips codec suffix destination saved before after) :
    RollsBack σ codec sha saving suffix destination saved after := by
  intro base world journal hreturns hconsistent hloadable hterminal hbackup hsaved hafter
  obtain ⟨restored, state, hrestore, -, -⟩ := h
  have hlinux : (linuxOperations codec sha saving (.ok suffix) base).Returns :=
    ⟨hreturns.identify, hreturns.selectPrior, hreturns.discardInactive,
      hreturns.recordPersistentSchema⟩
  have hrestorable : Restorable (linuxOperations codec sha saving (.ok suffix) base)
      world.disk.backups journal world.host := by
    refine fun _ _ ↦ ⟨destination, hbackup, ?_⟩
    change (LinuxOperations.restoreState codec (.ok suffix) destination world.backups
      world.host.endpoints).1 = .ok ()
    rw [hsaved, hafter, hrestore]
  obtain ⟨updated, last, hruns, rfl, -⟩ := ends_rollback hlinux hloadable hterminal
    (hconsistent.reads_setBack hterminal hloadable.layout.size) world ⟨rfl, hrestorable⟩
  exact ⟨_, last, hruns, rfl⟩

/-- A snapshot gives back the state, and a rollback with it comes to its end, if and only if there
was an endpoints directory when it was taken and there is none when it is restored. -/
theorem snapshot_round_trips_iff (hspells : codec.Spells)
    (hsnapshot : LinuxOperations.snapshotState codec sha saving destination backups before =
      (.ok hash, saved)) :
    RoundTrips codec suffix destination saved before after ∧
        RollsBack σ codec sha saving suffix destination saved after ↔
      before.isSome = true ∧ after = none := by
  obtain ⟨-, file, hexport, rfl, -⟩ := LinuxOperations.snapshotState_eq_ok hsnapshot
  have hfile : (backups.insert destination file).get? destination = some file := by
    rw [Ordered.Map.get?_insert, if_pos rfl]
  constructor
  · rintro ⟨⟨restored, state, hrestore, -, -⟩, -⟩
    have hok := congrArg Prod.fst hrestore
    constructor
    · cases before with
      | some directory => rfl
      | none =>
        obtain rfl := LinuxOperations.exportState_none_eq_ok hexport
        rw [LinuxOperations.restoreState_of_emptyState hfile] at hok
        cases hok
    · cases after with
      | none => rfl
      | some directory =>
        rw [LinuxOperations.restoreState_of_present rfl] at hok
        cases hok
  · rintro ⟨hsome, rfl⟩
    obtain ⟨directory, rfl⟩ := Option.isSome_iff_exists.mp hsome
    have hbackup := LinuxOperations.exportState_some_eq_ok hexport
    obtain ⟨number, state, hopens, hread⟩ := EndpointStore.read_of_backup hbackup
    obtain ⟨restored, hrestore, hrestored⟩ :=
      LinuxOperations.restoreState_of_read hspells hfile hread suffix
    have hround : RoundTrips codec suffix destination _ (some directory) none :=
      ⟨restored, state, hrestore, hopens, hrestored⟩
    exact ⟨hround, hround.rollsBack⟩

end RoundTrip

def fixtureEndpoints : Directory :=
  (EndpointStore.fresh.commit .constant (.ok "00") (.oneEndpoint "model")).2.directory

/-- A hash of the fixture's documents and of state backups. -/
def fixtureFileSha : Sha256 FileData where
  document := fixtureSha.document
  file
    | .snapshot snapshot => "snapshot " ++ toString snapshot.generation
    | .corrupt => "marker"

def fixtureBackups : Ordered.Map String FileData :=
  Ordered.Map.empty.insert "backup.json" (.snapshot ⟨3, 1, "", .oneEndpoint "model"⟩)

theorem fixtureEndpoints_saved :
    LinuxOperations.snapshotState .constant fixtureFileSha .ok "backup.json" .empty
      (some fixtureEndpoints) = (.ok "snapshot 1", fixtureBackups) := by
  rfl

theorem snapshot_round_trips_fixture :
    RoundTrips .constant "01" "backup.json" fixtureBackups (some fixtureEndpoints) none ∧
      RollsBack Unit .constant fixtureFileSha .ok "01" "backup.json" fixtureBackups none :=
  (snapshot_round_trips_iff (fun _ _ _ _ _ _ ↦ le_rfl) fixtureEndpoints_saved).mpr ⟨rfl, rfl⟩

/-- The snapshot of a machine with an endpoint cannot be restored while its directory is there, and
the marker of a machine without endpoints cannot be restored at all. -/
theorem snapshot_not_restored :
    (LinuxOperations.snapshotState .constant fixtureFileSha .ok "backup.json" .empty
        (some fixtureEndpoints) = (.ok "snapshot 1", fixtureBackups) ∧
      ∀ suffix, ¬ RoundTrips .constant suffix "backup.json" fixtureBackups (some fixtureEndpoints)
        (some fixtureEndpoints)) ∧
    ∃ saved, LinuxOperations.snapshotState .constant fixtureFileSha .ok "backup.json" .empty none =
        (.ok "marker", saved) ∧
      ∀ suffix after, ¬ RoundTrips .constant suffix "backup.json" saved none after := by
  refine ⟨⟨fixtureEndpoints_saved, ?_⟩, _, rfl, ?_⟩
  · rintro suffix ⟨restored, state, hrestore, -, -⟩
    have hok := congrArg Prod.fst hrestore
    rw [LinuxOperations.restoreState_of_present rfl] at hok
    cases hok
  · rintro suffix after ⟨restored, state, hrestore, -, -⟩
    have hok := congrArg Prod.fst hrestore
    rw [LinuxOperations.restoreState_of_emptyState rfl] at hok
    cases hok

end Cameo.Update
