import Cameo.Clock
import Cameo.Store.Directory

/-!
# The endpoint store

`EndpointStore` commits an `IntentState` by writing a pending file, syncing it, renaming it to the
next generation number and syncing the directory, and only then updates its memory and prunes old
generations.  `CommitIo` answers every fallible call on that path.  `passed` is a history variable:
the directory contents the store has gone through since it was opened, newest first, so that a
daemon crash inside a commit can be placed after any of its file operations.

The digest and the length of the serialized snapshot come from sha2 and serde_json; they are the
parameter `Codec`.
-/

namespace Cameo.Store

open Json Library

/-- `LIMIT`: the largest snapshot file, in bytes. -/
def limit : ℕ := 4 * 1024 * 1024

/-- What the store uses of sha2 and serde_json: the digest of a state and the length of a
serialized snapshot. -/
structure Codec where
  digest : IntentState → String
  size : Snapshot → ℕ

def Codec.constant : Codec := ⟨fun _ ↦ "", fun _ ↦ 0⟩

/-! ## Reading a generation -/

def leaseIdentityOk (lease : String × Value) : Bool :=
  lease.1 ≠ "" && (lease.2.index "session_id").asStr = some lease.1 &&
    (lease.2.index "model").asStr.any (· ≠ "") &&
    (lease.2.index "endpoint_id").asStr.any (· ≠ "")

def sessionIdentityOk (session : String × Value) : Bool :=
  session.1 ≠ "" && (session.2.index "id").asStr = some session.1

/-- The validation `read_snapshot` makes of a parsed snapshot. -/
def Snapshot.validate (codec : Codec) (snapshot : Snapshot) : Except String Unit :=
  if !(1 ≤ snapshot.version ∧ snapshot.version ≤ 3) ∨
      snapshot.sha256 ≠ codec.digest snapshot.state then
    .error "endpoint snapshot version/integrity mismatch"
  else if snapshot.state.endpoints.size > 256 then
    .error "too many persisted endpoints"
  else if snapshot.state.leases.size > 4096 ∨
      (snapshot.version = 1 ∧ snapshot.state.leases.size ≠ 0) then
    .error "invalid persisted lease collection"
  else if !snapshot.state.leases.entries.all leaseIdentityOk then
    .error "invalid persisted lease identity"
  else if snapshot.state.sessions.size > 4096 ∨
      (snapshot.version < 3 ∧ snapshot.state.sessions.size ≠ 0) then
    .error "invalid persisted session collection"
  else if !snapshot.state.sessions.entries.all sessionIdentityOk then
    .error "invalid persisted session identity"
  else .ok ()

/-- `read_snapshot`, given the file's metadata and bytes. -/
def readSnapshot (codec : Codec) : FileData → Except String Snapshot
  | .corrupt => .error "corrupt endpoint snapshot; explicit recovery is required"
  | .snapshot value =>
    if codec.size value > limit then .error "invalid endpoint snapshot file"
    else (value.validate codec).map fun _ ↦ value

theorem readSnapshot_eq_ok {codec : Codec} {data : FileData} {snapshot : Snapshot}
    (h : readSnapshot codec data = .ok snapshot) : data = .snapshot snapshot := by
  cases data with
  | corrupt => cases h
  | snapshot value =>
    simp only [readSnapshot] at h
    split at h
    · cases h
    · cases hvalid : value.validate codec with
      | error e => rw [hvalid] at h; cases h
      | ok _ => rw [hvalid] at h; cases h; rfl

/-- `EndpointStore`, with the contents of its directory and their history since the opening. -/
structure EndpointStore where
  directory : Directory
  generation : ℕ
  state : IntentState
  passed : List Directory

/-- The answers to the fallible calls of `EndpointStore::open`: everything up to the exclusive
lock, the directory listing, and reading the newest file. -/
structure OpenIo where
  lock : Except String Unit
  list : Except String Unit
  read : Except String Unit

namespace EndpointStore

/-- `EndpointStore::has_history`. -/
def hasHistory (store : EndpointStore) : Bool := store.generation > 0

/-- `EndpointStore::open`. -/
def «open» (codec : Codec) (io : OpenIo) (directory : Directory) :
    Except String EndpointStore := do
  io.lock
  io.list
  match directory.newest? with
  | none => return ⟨directory, 0, .default, [directory]⟩
  | some (number, data) =>
    io.read
    let snapshot ← readSnapshot codec data
    if snapshot.generation ≠ number then
      throw "endpoint snapshot version/integrity mismatch; explicit recovery is required"
    if snapshot.state.endpoints.size > 256 then
      throw "too many persisted endpoints"
    return ⟨directory, number, snapshot.state, [directory]⟩

/-- An opened store holds exactly what its newest generation says. -/
theorem open_eq_ok {codec : Codec} {io : OpenIo} {directory : Directory} {store : EndpointStore}
    (h : EndpointStore.open codec io directory = .ok store) :
    store.directory = directory ∧ store.passed = [directory] ∧
      ((directory.newest? = none ∧ store.generation = 0 ∧ store.state = .default) ∨
        ∃ snapshot, directory.newest? = some (store.generation, .snapshot snapshot) ∧
          snapshot.state = store.state) := by
  unfold EndpointStore.open at h
  cases hlock : io.lock with
  | error e => rw [hlock] at h; cases h
  | ok _ =>
    cases hlist : io.list with
    | error e => rw [hlock, hlist] at h; cases h
    | ok _ =>
      rw [hlock, hlist] at h
      cases hnewest : directory.newest? with
      | none =>
        rw [hnewest] at h
        cases h
        exact ⟨rfl, rfl, .inl ⟨rfl, rfl, rfl⟩⟩
      | some file =>
        rw [hnewest] at h
        obtain ⟨number, data⟩ := file
        cases hread : io.read with
        | error e => simp only [hread] at h; cases h
        | ok _ =>
          cases hsnap : readSnapshot codec data with
          | error e => simp only [hread, hsnap] at h; cases h
          | ok snapshot =>
            simp only [hread, hsnap, bind, Except.bind, pure, Except.pure, throw, throwThe,
              MonadExceptOf.throw] at h
            split at h
            · cases h
            · split at h
              · cases h
              · cases h
                exact ⟨rfl, rfl, .inr ⟨snapshot, by rw [readSnapshot_eq_ok hsnap], rfl⟩⟩

end EndpointStore

/-! ## Committing a state -/

/-- The answers to the fallible calls of one `commit`. -/
structure CommitIo where
  /-- `getrandom`, as the hex suffix of the pending file. -/
  random : Except String String
  /-- Creating the pending file. -/
  create : Except String Unit
  /-- Writing and syncing it. -/
  write : Except String Unit
  /-- Renaming it to its generation. -/
  rename : Except String Unit
  /-- Syncing the directory. -/
  syncDirectory : Except String Unit
  /-- Whether the pending file is removed after a failure. -/
  removePending : Bool
  /-- Whether the directory can be listed for pruning. -/
  list : Bool
  /-- Whether an old generation can be removed. -/
  prune : ℕ → Bool

def CommitIo.ok (suffix : String) : CommitIo :=
  ⟨.ok suffix, .ok (), .ok (), .ok (), .ok (), true, true, fun _ ↦ true⟩

namespace EndpointStore

def advance (store : EndpointStore) (directory : Directory) : EndpointStore :=
  { store with directory := directory, passed := directory :: store.passed }

def createPending (store : EndpointStore) (suffix : String) : EndpointStore :=
  store.advance (store.directory.insert (.pending suffix, .corrupt))

def writePending (store : EndpointStore) (suffix : String) (snapshot : Snapshot) :
    EndpointStore :=
  store.advance (store.directory.insert (.pending suffix, .snapshot snapshot))

def renamePending (store : EndpointStore) (suffix : String) (snapshot : Snapshot) :
    EndpointStore :=
  store.advance ((store.directory.erase (.pending suffix)).insert
    (.generation snapshot.generation, .snapshot snapshot))

/-- The fallible middle of `commit`: write the pending file and rename it. -/
def publish (io : CommitIo) (suffix : String) (snapshot : Snapshot) (store : EndpointStore) :
    Except String Unit × EndpointStore :=
  match io.create with
  | .error e => (.error e, store)
  | .ok () =>
    if (store.directory.get? (.pending suffix)).isSome then (.error "file exists", store)
    else
      let created := store.createPending suffix
      match io.write with
      | .error e => (.error e, created)
      | .ok () =>
        let written := created.writePending suffix snapshot
        if (written.directory.get? (.generation snapshot.generation)).isSome then
          (.error "endpoint generation already exists", written)
        else
          match io.rename with
          | .error e => (.error e, written)
          | .ok () =>
            let renamed := written.renamePending suffix snapshot
            match io.syncDirectory with
            | .error e => (.error e, renamed)
            | .ok () => (.ok (), renamed)

def removeGenerations (io : CommitIo) : List (ℕ × FileData) → EndpointStore → EndpointStore
  | [], store => store
  | file :: rest, store =>
    removeGenerations io rest
      (if io.prune file.1 then store.advance (store.directory.erase (.generation file.1))
      else store)

/-- Keep the two newest generations. -/
def prune (io : CommitIo) (store : EndpointStore) : EndpointStore :=
  if io.list then
    let entries := store.directory.generations
    removeGenerations io (entries.take (entries.length - 2)) store
  else store

/-- `EndpointStore::commit`. -/
def commit (codec : Codec) (io : CommitIo) (store : EndpointStore) (state : IntentState) :
    Except String Unit × EndpointStore :=
  if state.sessions.size > 4096 then (.error "session limit is 4096", store)
  else if state.leases.size > 4096 then (.error "lease limit is 4096", store)
  else if state.endpoints.size > 256 then (.error "endpoint limit is 256", store)
  else if store.generation + 1 > u64Max then (.error "endpoint generation exhausted", store)
  else
    let generation := store.generation + 1
    let snapshot : Snapshot := ⟨3, generation, codec.digest state, state⟩
    if codec.size snapshot > limit then (.error "endpoint state exceeds 4 MiB", store)
    else
      match io.random with
      | .error e => (.error e, store)
      | .ok suffix =>
        match publish io suffix snapshot store with
        | (.error e, failed) =>
          (.error e, if io.removePending then
            failed.advance (failed.directory.erase (.pending suffix)) else failed)
        | (.ok (), published) =>
          (.ok (), prune io { published with generation := generation, state := state })

/-- Where publication can end: before the rename with an error, or after it, whether or not the
directory was synced. -/
theorem publish_cases (io : CommitIo) (suffix : String) (snapshot : Snapshot)
    (store : EndpointStore) :
    let created := store.createPending suffix
    let written := created.writePending suffix snapshot
    let result := publish io suffix snapshot store
    ((∃ e, result.1 = .error e) ∧
        (result.2 = store ∨ result.2 = created ∨ result.2 = written)) ∨
      result.2 = written.renamePending suffix snapshot := by
  dsimp only
  unfold publish
  cases io.create with
  | error e => exact .inl ⟨⟨e, rfl⟩, .inl rfl⟩
  | ok _ =>
    dsimp only
    split
    · exact .inl ⟨⟨_, rfl⟩, .inl rfl⟩
    cases io.write with
    | error e => exact .inl ⟨⟨e, rfl⟩, .inr (.inl rfl)⟩
    | ok _ =>
      dsimp only
      split
      · exact .inl ⟨⟨_, rfl⟩, .inr (.inr rfl)⟩
      cases io.rename with
      | error e => exact .inl ⟨⟨e, rfl⟩, .inr (.inr rfl)⟩
      | ok _ => cases io.syncDirectory <;> exact .inr rfl

theorem state_publish (io : CommitIo) (suffix : String) (snapshot : Snapshot)
    (store : EndpointStore) :
    (publish io suffix snapshot store).2.state = store.state ∧
      (publish io suffix snapshot store).2.generation = store.generation := by
  rcases publish_cases io suffix snapshot store with ⟨-, h | h | h⟩ | h <;> rw [h] <;>
    exact ⟨rfl, rfl⟩

theorem state_removeGenerations (io : CommitIo) (files : List (ℕ × FileData))
    (store : EndpointStore) :
    (removeGenerations io files store).state = store.state ∧
      (removeGenerations io files store).generation = store.generation := by
  induction files generalizing store with
  | nil => exact ⟨rfl, rfl⟩
  | cons file rest ih =>
    rw [removeGenerations, (ih _).1, (ih _).2]
    split <;> exact ⟨rfl, rfl⟩

theorem state_prune (io : CommitIo) (store : EndpointStore) :
    (prune io store).state = store.state ∧ (prune io store).generation = store.generation := by
  unfold prune
  split
  · exact state_removeGenerations io _ store
  · exact ⟨rfl, rfl⟩

/-- The two outcomes of a commit, as far as memory goes: the new state under the next generation,
or the old state under the old one. -/
theorem state_commit (codec : Codec) (io : CommitIo) (store : EndpointStore)
    (state : IntentState) :
    ((commit codec io store state).1 = .ok () ∧
        (commit codec io store state).2.state = state ∧
        (commit codec io store state).2.generation = store.generation + 1) ∨
      ((∃ e, (commit codec io store state).1 = .error e) ∧
        (commit codec io store state).2.state = store.state ∧
        (commit codec io store state).2.generation = store.generation) := by
  unfold commit
  split
  · exact .inr ⟨⟨_, rfl⟩, rfl, rfl⟩
  split
  · exact .inr ⟨⟨_, rfl⟩, rfl, rfl⟩
  split
  · exact .inr ⟨⟨_, rfl⟩, rfl, rfl⟩
  split
  · exact .inr ⟨⟨_, rfl⟩, rfl, rfl⟩
  dsimp only
  split
  · exact .inr ⟨⟨_, rfl⟩, rfl, rfl⟩
  split
  · exact .inr ⟨⟨_, rfl⟩, rfl, rfl⟩
  rename_i suffix _
  have hpublish := state_publish io suffix
    ⟨3, store.generation + 1, codec.digest state, state⟩ store
  split
  · rename_i e failed heq
    rw [heq] at hpublish
    refine .inr ⟨⟨_, rfl⟩, ?_⟩
    dsimp only
    split <;> exact hpublish
  · rename_i published heq
    obtain ⟨hstate, hgeneration⟩ :=
      state_prune io { published with generation := store.generation + 1, state := state }
    exact .inl ⟨rfl, hstate, hgeneration⟩

theorem state_commit_of_ok {codec : Codec} {io : CommitIo} {store : EndpointStore}
    {state : IntentState} (h : (commit codec io store state).1 = .ok ()) :
    (commit codec io store state).2.state = state := by
  rcases state_commit codec io store state with ⟨-, hstate, -⟩ | ⟨⟨e, herror⟩, -⟩
  · exact hstate
  · rw [h] at herror
    cases herror

end EndpointStore

end Cameo.Store
