import Cameo.Store.Journal

/-!
# Backup and restore

`backup` copies the state of a directory into one snapshot file, and `restore` commits the state of
such a file as the first generation of a new directory.  Both read back what they have written
before they succeed.

`Committed` describes a directory right after a commit has succeeded.  An opening accepts it as soon
as the identities in its state do, and a backup of it can be restored into a directory that is
committed again, under generation one.
-/

namespace Cameo.Store

open Json Library

/-- A larger generation number is not written in fewer bytes. -/
def Codec.Grows (codec : Codec) : Prop :=
  ∀ version digest state lower higher, lower ≤ higher →
    codec.size ⟨version, lower, digest, state⟩ ≤ codec.size ⟨version, higher, digest, state⟩

/-- A generation number that is no larger, or that has one digit, is not written in more bytes. -/
def Codec.Spells (codec : Codec) : Prop :=
  ∀ version digest state lower higher, lower ≤ max 9 higher →
    codec.size ⟨version, lower, digest, state⟩ ≤ codec.size ⟨version, higher, digest, state⟩

/-! ## The operations -/

/-- The answers during one `inspect`. -/
structure InspectIo where
  isDir : Bool
  store : OpenIo

/-- The answers during one `backup`. -/
structure BackupIo where
  isDir : Bool
  store : OpenIo
  /-- Checking the destination's path. -/
  path : Except String Unit
  /-- Creating the destination, which must not exist. -/
  create : Except String Unit
  /-- Writing and syncing it, and what a failure leaves in it. -/
  write : Except String Unit
  left : FileData
  /-- Reading it back. -/
  read : Except String Unit

/-- The answers during one `restore`. -/
structure RestoreIo where
  /-- Reading the backup. -/
  read : Except String Unit
  /-- Checking the destination's path. -/
  path : Except String Unit
  /-- Whether the destination exists. -/
  present : Bool
  /-- `getrandom`, for the name of the staging directory. -/
  random : Except String Unit
  /-- Creating the staging directory. -/
  create : Except String Unit
  staging : OpenIo
  commit : CommitIo
  verify : InspectIo
  /-- Whether the destination exists by now. -/
  appeared : Bool
  rename : Except String Unit
  /-- Syncing the parent directory. -/
  syncParent : Except String Unit
  inspect : InspectIo

def InspectIo.ok : InspectIo := ⟨true, .ok⟩

def BackupIo.ok : BackupIo := ⟨true, .ok, .ok (), .ok (), .ok (), .corrupt, .ok ()⟩

def RestoreIo.ok (suffix : String) : RestoreIo :=
  ⟨.ok (), .ok (), false, .ok (), .ok (), .ok, .ok suffix, .ok, false, .ok (), .ok (), .ok⟩

namespace EndpointStore

variable (codec : Codec)

/-- `EndpointStore::inspect`. -/
def inspect (io : InspectIo) (directory : Directory) : Except String Value :=
  if !io.isDir then .error "endpoint state directory does not exist"
  else do
    let store ← EndpointStore.open codec io.store directory
    return .ofFields [
      ("version", .nat 3),
      ("generation", .nat store.generation),
      ("endpoints", .nat store.state.endpoints.size),
      ("integrity", .string "verified"),
      ("scope", .string "endpoint intents only; no model or live process verification")]

def archived (store : EndpointStore) : Snapshot :=
  ⟨3, store.generation, codec.digest store.state, store.state⟩

/-- The fallible calls of `backup` before it writes. -/
def prepareBackup (io : BackupIo) (directory : Directory) : Except String EndpointStore := do
  if !io.isDir then
    throw "endpoint state directory does not exist"
  let store ← EndpointStore.open codec io.store directory
  io.path
  io.create
  return store

/-- `EndpointStore::backup`: its answer, and the file it leaves, if it has created one. -/
def backup (io : BackupIo) (directory : Directory) : Except String Unit × Option FileData :=
  match prepareBackup codec io directory with
  | .error e => (.error e, none)
  | .ok store =>
    match io.write with
    | .error e => (.error e, some io.left)
    | .ok () =>
      let file := FileData.snapshot (store.archived codec)
      ((do
        io.read
        let _ ← readSnapshot codec file), some file)

/-- The part of `restore` up to the rename: the staging directory, filled and verified. -/
def stage (io : RestoreIo) (source : FileData) : Except String Directory := do
  io.read
  let snapshot ← readSnapshot codec source
  io.path
  if io.present then
    throw "restore requires a new destination directory"
  io.random
  io.create
  let store ← EndpointStore.open codec io.staging .empty
  let committed := store.commit codec io.commit snapshot.state
  committed.1
  let _ ← inspect codec io.verify committed.2.directory
  if io.appeared then
    throw "restore destination appeared during verification"
  io.rename
  return committed.2.directory

/-- `EndpointStore::restore`: its answer, and the directory at the destination, if it has been
renamed into place. -/
def restore (io : RestoreIo) (source : FileData) : Except String Unit × Option Directory :=
  match stage codec io source with
  | .error e => (.error e, none)
  | .ok directory =>
    ((do
      io.syncParent
      let _ ← inspect codec io.inspect directory), some directory)

end EndpointStore

/-! ## What the operations have read -/

namespace EndpointStore

variable {codec : Codec} {directory : Directory} {file : FileData}

/-- A backup writes once the directory was opened and the file created. -/
theorem prepareBackup_eq_ok {io : BackupIo} {store : EndpointStore}
    (h : prepareBackup codec io directory = .ok store) :
    EndpointStore.open codec io.store directory = .ok store ∧ io.create = .ok () := by
  unfold prepareBackup at h
  cases hdir : io.isDir with
  | false => rw [hdir] at h; cases h
  | true =>
    cases hopen : EndpointStore.open codec io.store directory with
    | error e => rw [hdir, hopen] at h; cases h
    | ok opened =>
      cases hpath : io.path with
      | error e => rw [hdir, hopen, hpath] at h; cases h
      | ok _ =>
        cases hcreate : io.create with
        | error e => rw [hdir, hopen, hpath, hcreate] at h; cases h
        | ok _ =>
          rw [hdir, hopen, hpath, hcreate] at h
          exact ⟨h, rfl⟩

/-- A backup whose file cannot be created leaves none. -/
theorem backup_of_not_created {io : BackupIo} {e : String} (hcreate : io.create = .error e) :
    ∃ e, backup codec io directory = (.error e, none) := by
  unfold backup
  cases hprepare : prepareBackup codec io directory with
  | error e => exact ⟨e, rfl⟩
  | ok store => cases hcreate.symm.trans (prepareBackup_eq_ok hprepare).2

/-- A backup that succeeds leaves a file. -/
theorem backup_of_ok {io : BackupIo} (hok : (backup codec io directory).1 = .ok ()) :
    ∃ file, backup codec io directory = (.ok (), some file) := by
  unfold backup at hok ⊢
  split at hok
  · cases hok
  · split at hok
    · cases hok
    · exact ⟨_, Prod.ext hok rfl⟩

/-- The file of a backup that succeeds can be read, and holds the state of the directory. -/
theorem read_of_backup {io : BackupIo} (h : backup codec io directory = (.ok (), some file)) :
    ∃ number state, OpensTo codec directory state ∧
      readSnapshot codec file = .ok ⟨3, number, codec.digest state, state⟩ := by
  unfold backup at h
  split at h
  · cases h
  · rename_i store hprepare
    obtain ⟨hopen, -⟩ := prepareBackup_eq_ok hprepare
    split at h
    · cases h
    · obtain ⟨hok, hfile⟩ := Prod.mk.inj h
      cases hfile
      cases hread : readSnapshot codec (.snapshot (store.archived codec)) with
      | error e =>
        rw [hread] at hok
        cases hio : io.read with
        | error e => rw [hio] at hok; cases hok
        | ok _ => rw [hio] at hok; cases hok
      | ok snapshot =>
        obtain rfl := FileData.snapshot.inj (readSnapshot_eq_ok hread)
        have hstate : store.state.Acceptable :=
          Directory.acceptable_of_validate (Directory.written_of_readSnapshot hread).2
        refine ⟨store.generation, store.state, ?_, rfl⟩
        exact ⟨_, (Directory.holds_open hopen).open_eq hstate.readable, rfl⟩

/-- A restore over something that is there fails and leaves it. -/
theorem restore_of_present {io : RestoreIo} (hpresent : io.present = true) :
    ∃ e, restore codec io file = (.error e, none) := by
  unfold restore
  cases hstage : stage codec io file with
  | error e => exact ⟨e, rfl⟩
  | ok directory =>
    unfold stage at hstage
    rw [hpresent] at hstage
    cases hread : io.read with
    | error e => rw [hread] at hstage; cases hstage
    | ok _ =>
      cases hsnapshot : readSnapshot codec file with
      | error e => rw [hread, hsnapshot] at hstage; cases hstage
      | ok snapshot =>
        cases hpath : io.path with
        | error e => rw [hread, hsnapshot, hpath] at hstage; cases hstage
        | ok _ => rw [hread, hsnapshot, hpath] at hstage; cases hstage

/-- A restore of a file that is no snapshot fails and leaves nothing. -/
theorem restore_corrupt {io : RestoreIo} : ∃ e, restore codec io .corrupt = (.error e, none) := by
  unfold restore stage
  cases io.read with
  | error e => exact ⟨e, rfl⟩
  | ok _ => exact ⟨_, rfl⟩

end EndpointStore

/-! ## Directories after a commit -/

namespace EndpointStore

variable {codec : Codec} {io : CommitIo} {store : EndpointStore} {state : IntentState}

/-- A commit succeeds exactly if it advances the generation. -/
theorem ok_iff_generation_lt : (commit codec io store state).1 = .ok () ↔
    store.generation < (commit codec io store state).2.generation := by
  rcases state_commit codec io store state with ⟨hok, -, hnext⟩ | ⟨⟨e, herror⟩, -, hsame⟩
  · simp [hok, hnext]
  · simp [herror, hsame]

end EndpointStore

namespace Directory

/-- The newest generation of a directory is one that a commit has written. -/
structure Committed (codec : Codec) (directory : Directory) (number : ℕ) (state : IntentState) :
    Prop where
  newest : directory.newest? = some (number, .snapshot ⟨3, number, codec.digest state, state⟩)
  positive : 0 < number
  sessions : state.sessions.size ≤ 4096
  leases : state.leases.size ≤ 4096
  endpoints : state.endpoints.size ≤ 256
  size : codec.size ⟨3, number, codec.digest state, state⟩ ≤ limit

variable {codec : Codec} {directory : Directory} {number : ℕ} {state : IntentState}

/-- A commit that succeeds leaves its directory committed. -/
theorem committed_commit {io : CommitIo} {store : EndpointStore} (h : store.Bounded)
    (hok : (store.commit codec io state).1 = .ok ()) :
    Committed codec (store.commit codec io state).2.directory (store.generation + 1) state := by
  have hfits := (EndpointStore.renames_of_ok hok).fits
  exact ⟨(EndpointStore.advances_commit codec io state h).2 hok, Nat.succ_pos _, hfits.sessions,
    hfits.leases, hfits.endpoints, hfits.size⟩

theorem Committed.written (h : Committed codec directory number state) :
    Written codec ⟨3, number, codec.digest state, state⟩ number state :=
  ⟨rfl, rfl, h.size, validate_written h.sessions h.leases h.endpoints⟩

theorem Committed.holds (h : Committed codec directory number state) :
    Holds codec directory number state :=
  .inr ⟨_, h.newest, h.written⟩

/-- Inspecting a committed directory succeeds. -/
theorem Committed.inspect (h : Committed codec directory number state)
    (hreadable : state.Readable) :
    ∃ report, EndpointStore.inspect codec .ok directory = .ok report := by
  have hopen := h.holds.open_eq hreadable
  unfold EndpointStore.inspect InspectIo.ok
  dsimp only
  rw [hopen]
  exact ⟨_, rfl⟩

/-- A backup of a committed directory is the snapshot that was committed. -/
theorem Committed.backup (h : Committed codec directory number state)
    (hreadable : state.Readable) :
    EndpointStore.backup codec .ok directory =
      (.ok (), some (.snapshot ⟨3, number, codec.digest state, state⟩)) := by
  have hopen := h.holds.open_eq hreadable
  have hread := readSnapshot_of_written h.written hreadable
  have hprepare : EndpointStore.prepareBackup codec .ok directory =
      .ok ⟨directory, number, state, [directory]⟩ := by
    unfold EndpointStore.prepareBackup BackupIo.ok
    dsimp only
    rw [hopen]
    rfl
  unfold EndpointStore.backup
  rw [hprepare]
  dsimp only [BackupIo.ok, EndpointStore.archived]
  rw [hread]
  rfl

/-- A snapshot file that can be read is restored under generation one. -/
theorem restore_of_read {file : FileData}
    (hread : readSnapshot codec file = .ok ⟨3, number, codec.digest state, state⟩)
    (hsize : codec.size ⟨3, 1, codec.digest state, state⟩ ≤ limit) (suffix : String) :
    ∃ restored, EndpointStore.restore codec (.ok suffix) file = (.ok (), some restored) ∧
      Committed codec restored 1 state := by
  have hstate : state.Acceptable := acceptable_of_validate (written_of_readSnapshot hread).2
  have hok : (EndpointStore.fresh.commit codec (.ok suffix) state).1 = .ok () :=
    (EndpointStore.commit_ok_iff rfl (by decide)).mpr
      ⟨⟨hstate.sessions, hstate.leases, hstate.endpoints, hsize⟩, by decide⟩
  have hopen : EndpointStore.open codec .ok .empty = .ok EndpointStore.fresh := rfl
  have hcommitted : Committed codec (EndpointStore.fresh.commit codec (.ok suffix)
      state).2.directory 1 state := committed_commit (EndpointStore.bounded_open hopen) hok
  obtain ⟨report, hreport⟩ := hcommitted.inspect hstate.readable
  have hstage : EndpointStore.stage codec (.ok suffix) file =
      .ok (EndpointStore.fresh.commit codec (.ok suffix) state).2.directory := by
    unfold EndpointStore.stage RestoreIo.ok
    dsimp only
    rw [hread, hopen]
    dsimp only [bind, Except.bind]
    rw [hok]
    dsimp only
    rw [hreport]
    rfl
  refine ⟨_, ?_, hcommitted⟩
  unfold EndpointStore.restore
  rw [hstage]
  dsimp only [RestoreIo.ok]
  rw [hreport]
  rfl

/-- A backup of a committed directory is restored under generation one. -/
theorem Committed.restore (hgrows : codec.Grows) (h : Committed codec directory number state)
    (hreadable : state.Readable) (suffix : String) :
    ∃ restored, EndpointStore.restore codec (.ok suffix)
        (.snapshot ⟨3, number, codec.digest state, state⟩) = (.ok (), some restored) ∧
      Committed codec restored 1 state := by
  have hsize : codec.size ⟨3, 1, codec.digest state, state⟩ ≤ limit :=
    calc codec.size ⟨3, 1, codec.digest state, state⟩
        ≤ codec.size ⟨3, number, codec.digest state, state⟩ := hgrows _ _ _ _ _ h.positive
      _ ≤ limit := h.size
  exact restore_of_read (readSnapshot_of_written h.written hreadable) hsize suffix

end Directory

end Cameo.Store
