import Cameo.Library.Run
import Cameo.Store.Atomicity

/-!
# The life of a state directory

A journal is what happens to one state directory: commits that return, crashes inside a commit after
any of its file operations, exits between commits, and openings.  `committed` and `attempted` are
history variables: the last state whose commit succeeded or that an opening read, and the state
whose commit a crash interrupted.  As long as no commit that returns fails after its rename, the
directory holds one of the two.
-/

namespace Cameo.Store

open Json Library

/-- `read_snapshot` accepts the identities of the persisted leases and sessions. -/
def IntentState.Readable (state : IntentState) : Prop :=
  state.leases.entries.all leaseIdentityOk ∧ state.sessions.entries.all sessionIdentityOk

/-- `read_snapshot` accepts the collections of a state. -/
structure IntentState.Acceptable (state : IntentState) : Prop where
  sessions : state.sessions.size ≤ 4096
  leases : state.leases.size ≤ 4096
  endpoints : state.endpoints.size ≤ 256
  readable : state.Readable

structure Journal where
  directory : Directory
  store : Option EndpointStore
  committed : IntentState
  attempted : Option IntentState

inductive Event where
  | commit (io : CommitIo) (state : IntentState)
  | crash (io : CommitIo) (state : IntentState) (point : ℕ)
  | exit
  | «open» (io : OpenIo)

namespace Journal

variable (codec : Codec)

/-- The directory contents a commit goes through. -/
def crashPoints (io : CommitIo) (store : EndpointStore) (state : IntentState) : List Directory :=
  let passed := (store.commit codec io state).2.passed
  passed.take (passed.length - store.passed.length)

def step (journal : Journal) (event : Event) : Journal :=
  match event, journal.store with
  | .commit io state, some store =>
    let result := store.commit codec io state
    ⟨result.2.directory, some result.2,
      match result.1 with
      | .ok () => state
      | .error _ => journal.committed, none⟩
  | .crash io state point, some store =>
    ⟨(crashPoints codec io store state).getD point store.directory, none, journal.committed,
      some state⟩
  | .exit, some store => ⟨store.directory, none, journal.committed, none⟩
  | .open io, none =>
    match EndpointStore.open codec io journal.directory with
    | .ok store => ⟨store.directory, some store, store.state, none⟩
    | .error _ => journal
  | _, _ => journal

/-- A journal begins with an opened store. -/
def start (store : EndpointStore) : Journal := ⟨store.directory, some store, store.state, none⟩

/-- No commit that returns fails after its rename. -/
def Clean (journal : Journal) (event : Event) : Prop :=
  match event, journal.store with
  | .commit io state, some store => ¬ EndpointStore.FailsAfterRename codec io store state
  | _, _ => True

end Journal

namespace Directory

/-- The newest generation is a snapshot of a state, and it reads back if its identities do. -/
structure Written (codec : Codec) (snapshot : Snapshot) (number : ℕ) (state : IntentState) :
    Prop where
  same : snapshot.state = state
  generation : snapshot.generation = number
  size : codec.size snapshot ≤ limit
  valid : state.Readable → snapshot.validate codec = .ok ()

/-- A directory holds a state at a generation. -/
def Holds (codec : Codec) (directory : Directory) (number : ℕ) (state : IntentState) : Prop :=
  (directory.newest? = none ∧ number = 0 ∧ state = .default) ∨
    ∃ snapshot, directory.newest? = some (number, .snapshot snapshot) ∧
      Written codec snapshot number state

theorem Holds.congr {codec : Codec} {left right : Directory} {number : ℕ} {state : IntentState}
    (h : Holds codec left number state) (heq : right.newest? = left.newest?) :
    Holds codec right number state := by
  unfold Holds
  rw [heq]
  exact h

theorem validate_written {codec : Codec} {number : ℕ} {state : IntentState}
    (hsessions : state.sessions.size ≤ 4096) (hleases : state.leases.size ≤ 4096)
    (hendpoints : state.endpoints.size ≤ 256) (hreadable : state.Readable) :
    Snapshot.validate codec ⟨3, number, codec.digest state, state⟩ = .ok () := by
  unfold Snapshot.validate
  rw [if_neg (by simp), if_neg (by dsimp only; omega), if_neg (by dsimp only; omega),
    if_neg (by simp [hreadable.1]), if_neg (by dsimp only; omega), if_neg (by simp [hreadable.2])]

/-- A directory whose newest generation was written by a commit. -/
theorem holds_next {codec : Codec} {store : EndpointStore} {state : IntentState}
    {directory : Directory} (hfits : store.Fits codec state)
    (h : directory.newest? =
      some (store.generation + 1, .snapshot (store.next codec state))) :
    Holds codec directory (store.generation + 1) state :=
  .inr ⟨_, h, rfl, rfl, hfits.size,
    validate_written hfits.sessions hfits.leases hfits.endpoints⟩

theorem acceptable_of_validate {codec : Codec} {snapshot : Snapshot}
    (h : snapshot.validate codec = .ok ()) : snapshot.state.Acceptable := by
  unfold Snapshot.validate at h
  split at h
  · cases h
  split at h
  · cases h
  rename_i hendpoints
  split at h
  · cases h
  rename_i hleases
  split at h
  · cases h
  rename_i hleaseIds
  split at h
  · cases h
  rename_i hsessions
  split at h
  · cases h
  rename_i hsessionIds
  exact ⟨by omega, by omega, by omega, by simpa using hleaseIds, by simpa using hsessionIds⟩

theorem readSnapshot_of_written {codec : Codec} {snapshot : Snapshot} {number : ℕ}
    {state : IntentState} (h : Written codec snapshot number state) (hreadable : state.Readable) :
    readSnapshot codec (.snapshot snapshot) = .ok snapshot := by
  unfold readSnapshot
  dsimp only
  rw [if_neg (by have := h.size; omega), h.valid hreadable]
  rfl

/-- Opening a directory that holds a readable state succeeds and reads it. -/
theorem Holds.open_eq {codec : Codec} {directory : Directory} {number : ℕ} {state : IntentState}
    (h : Holds codec directory number state) (hreadable : state.Readable) :
    EndpointStore.open codec .ok directory = .ok ⟨directory, number, state, [directory]⟩ := by
  unfold EndpointStore.open
  rcases h with ⟨hnewest, rfl, rfl⟩ | ⟨snapshot, hnewest, hwritten⟩
  · rw [hnewest]
    rfl
  · have hvalid := hwritten.valid hreadable
    rw [hnewest]
    dsimp only [OpenIo.ok, bind, Except.bind]
    rw [readSnapshot_of_written hwritten hreadable]
    dsimp only
    rw [if_neg (by simp [hwritten.generation]),
      if_neg (by have := (acceptable_of_validate hvalid).endpoints; omega), hwritten.same]
    rfl

/-- Whatever an opening reads from a directory is the state it holds. -/
theorem Holds.state_of_open {codec : Codec} {io : OpenIo} {directory : Directory} {number : ℕ}
    {state : IntentState} {opened : EndpointStore} (h : Holds codec directory number state)
    (hopen : EndpointStore.open codec io directory = .ok opened) :
    opened.state = state ∧ opened.generation = number := by
  obtain ⟨-, -, ⟨hnone, hzero, hdefault⟩ | ⟨snapshot', hnewest', hstate'⟩⟩ :=
    EndpointStore.open_eq_ok hopen
  · rcases h with ⟨-, rfl, rfl⟩ | ⟨snapshot, hnewest, hwritten⟩
    · exact ⟨hdefault, hzero⟩
    · cases hnone.symm.trans hnewest
  · rcases h with ⟨hnewest, -, -⟩ | ⟨snapshot, hnewest, hwritten⟩
    · cases hnewest'.symm.trans hnewest
    · cases hnewest'.symm.trans hnewest
      exact ⟨hstate'.symm.trans hwritten.same, rfl⟩

/-- An opening that succeeds on a numbered directory has read its newest file. -/
theorem reads_of_open {codec : Codec} {io : OpenIo} {directory : Directory}
    {opened : EndpointStore} (h : EndpointStore.open codec io directory = .ok opened)
    {number : ℕ} {data : FileData} (hnewest : directory.newest? = some (number, data)) :
    io.read = .ok () ∧ ∃ snapshot, readSnapshot codec data = .ok snapshot ∧
      snapshot.generation = number ∧ opened.generation = number ∧
      opened.state = snapshot.state := by
  unfold EndpointStore.open at h
  cases hlock : io.lock with
  | error e => rw [hlock] at h; cases h
  | ok _ =>
    cases hlist : io.list with
    | error e => rw [hlock, hlist] at h; cases h
    | ok _ =>
      rw [hlock, hlist, hnewest] at h
      cases hread : io.read with
      | error e => simp only [hread] at h; cases h
      | ok _ =>
        cases hsnap : readSnapshot codec data with
        | error e => simp only [hread, hsnap] at h; cases h
        | ok snapshot =>
          simp only [hread, hsnap, bind, Except.bind, pure, Except.pure, throw, throwThe,
            MonadExceptOf.throw] at h
          split at h
          · cases h
          · rename_i hgeneration
            split at h
            · cases h
            · cases h
              exact ⟨rfl, snapshot, rfl, not_not.mp hgeneration, rfl, rfl⟩

theorem written_of_readSnapshot {codec : Codec} {snapshot : Snapshot} {data : FileData}
    (h : readSnapshot codec data = .ok snapshot) :
    codec.size snapshot ≤ limit ∧ snapshot.validate codec = .ok () := by
  obtain rfl := readSnapshot_eq_ok h
  simp only [readSnapshot] at h
  split at h
  · cases h
  · rename_i hsize
    cases hvalid : snapshot.validate codec with
    | error e => rw [hvalid] at h; cases h
    | ok _ => exact ⟨not_lt.mp hsize, rfl⟩

/-- A directory that has been opened holds what was read from it. -/
theorem holds_open {codec : Codec} {io : OpenIo} {directory : Directory} {store : EndpointStore}
    (h : EndpointStore.open codec io directory = .ok store) :
    Holds codec directory store.generation store.state := by
  obtain ⟨-, -, hnone | ⟨snapshot, hnewest, hstate⟩⟩ := EndpointStore.open_eq_ok h
  · exact .inl hnone
  · obtain ⟨-, snapshot', hread, hgeneration, -, -⟩ := reads_of_open h hnewest
    cases readSnapshot_eq_ok hread
    obtain ⟨hsize, hvalid⟩ := written_of_readSnapshot hread
    exact .inr ⟨snapshot, hnewest, hstate, hgeneration, hsize, fun _ ↦ hvalid⟩

/-- The newest generation is never passed over: if it cannot be read, the opening fails. -/
theorem open_error_of_unreadable (codec : Codec) (io : OpenIo) {directory : Directory}
    {number : ℕ} {data : FileData} (hnewest : directory.newest? = some (number, data))
    (h : io.read ≠ .ok () ∨ data = .corrupt ∨
      ∃ snapshot, data = .snapshot snapshot ∧
        snapshot.sha256 ≠ codec.digest snapshot.state) :
    ∃ e, EndpointStore.open codec io directory = .error e := by
  cases hopen : EndpointStore.open codec io directory with
  | error e => exact ⟨e, rfl⟩
  | ok opened =>
    obtain ⟨hread, snapshot, hsnap, -⟩ := reads_of_open hopen hnewest
    have hdata := readSnapshot_eq_ok hsnap
    rcases h with h | h | ⟨snapshot', heq, hdigest⟩
    · exact absurd hread h
    · cases hdata.symm.trans h
    · cases hdata.symm.trans heq
      have hvalid := (written_of_readSnapshot hsnap).2
      unfold Snapshot.validate at hvalid
      rw [if_pos (.inr hdigest)] at hvalid
      cases hvalid

end Directory

namespace EndpointStore

/-- The directory holds the store's own state, at the store's own generation. -/
def InSync (codec : Codec) (store : EndpointStore) : Prop :=
  store.directory.Holds codec store.generation store.state

theorem InSync.bounded {codec : Codec} {store : EndpointStore} (h : store.InSync codec) :
    store.Bounded := by
  intro number data hread
  rcases h with ⟨hnewest, -, -⟩ | ⟨snapshot, hnewest, -⟩
  · cases hnewest.symm.trans hread
  · cases hnewest.symm.trans hread
    exact Nat.le_succ _

/-- The name of the next generation is free in a directory that is in sync. -/
theorem InSync.not_ahead {codec : Codec} {store : EndpointStore} (h : store.InSync codec) :
    ¬ store.Ahead := by
  intro hahead
  obtain ⟨⟨name, data⟩, hfile⟩ := Option.isSome_iff_exists.mp hahead
  obtain ⟨hmem, rfl⟩ := (Keyed.Table.get?_eq_some_iff _ _ _).mp hfile
  rcases h with ⟨hnewest, -, -⟩ | ⟨snapshot, hnewest, -⟩
  · exact (Directory.newest?_eq_none_iff _).mp hnewest _ _ hmem
  · have hle := ((Directory.newest?_eq_some_iff _ _ _).mp hnewest).2 _ _ hmem
    omega

theorem commit_of_not_fits {codec : Codec} {io : CommitIo} {store : EndpointStore}
    {state : IntentState} (h : ¬ store.Fits codec state) :
    (commit codec io store state).2 = store := by
  unfold commit
  split
  · rfl
  split
  · rfl
  split
  · rfl
  split
  · rfl
  dsimp only
  split
  · rfl
  · rename_i hsessions hleases hendpoints _ hsize
    exact absurd ⟨by omega, by omega, by omega, not_lt.mp hsize⟩ h

/-- A commit that does not fail after its rename leaves store and directory in sync. -/
theorem inSync_commit {codec : Codec} {io : CommitIo} {store : EndpointStore}
    {state : IntentState} (h : store.InSync codec)
    (hclean : ¬ FailsAfterRename codec io store state) :
    (commit codec io store state).2.InSync codec := by
  unfold InSync
  rcases state_commit codec io store state with
    ⟨hok, hstate, hgeneration⟩ | ⟨⟨e, herror⟩, hstate, hgeneration⟩
  · rw [hstate, hgeneration]
    exact Directory.holds_next (renames_of_ok hok).fits
      ((advances_commit codec io state h.bounded).2 hok)
  · rw [hstate, hgeneration]
    exact Directory.Holds.congr h
      (Directory.newest?_congr_get? (get?_commit_of_error herror hclean))

/-- At every point of a commit the directory holds the store's state, or the new one. -/
theorem holds_crashPoints {codec : Codec} (io : CommitIo) {store : EndpointStore}
    (state : IntentState) (h : store.InSync codec) :
    ∀ directory ∈ Journal.crashPoints codec io store state,
      directory.Holds codec store.generation store.state ∨
        directory.Holds codec (store.generation + 1) state := by
  intro directory hmem
  by_cases hfits : store.Fits codec state
  · obtain ⟨fresh, hpassed, hfresh⟩ := (advances_commit codec io state h.bounded).1.passed
    have hpoints : Journal.crashPoints codec io store state = fresh := by
      rw [Journal.crashPoints, hpassed, List.length_append, Nat.add_sub_cancel,
        List.take_left']
      rfl
    rcases hfresh directory (hpoints ▸ hmem) with hnewest | hnewest
    · exact .inl (Directory.Holds.congr h hnewest)
    · exact .inr (Directory.holds_next hfits hnewest)
  · rw [Journal.crashPoints, commit_of_not_fits hfits, Nat.sub_self, List.take_zero] at hmem
    exact absurd hmem List.not_mem_nil

end EndpointStore

namespace Journal

variable {codec : Codec}

/-- The directory holds the last committed state or, after a crash, the one being committed. -/
def Kept (codec : Codec) (journal : Journal) : Prop :=
  match journal.store with
  | some store => store.directory = journal.directory ∧ store.state = journal.committed ∧
      store.InSync codec
  | none => ∃ number, journal.directory.Holds codec number journal.committed ∨
      ∃ state, journal.attempted = some state ∧ journal.directory.Holds codec number state

theorem Kept.holds {journal : Journal} (h : journal.Kept codec) :
    ∃ number, journal.directory.Holds codec number journal.committed ∨
      ∃ state, journal.attempted = some state ∧ journal.directory.Holds codec number state := by
  obtain ⟨directory, store, committed, attempted⟩ := journal
  cases store with
  | none => exact h
  | some store =>
    obtain ⟨rfl, rfl, hsync⟩ := h
    exact ⟨store.generation, .inl hsync⟩

theorem kept_step {journal : Journal} {event : Event} (h : journal.Kept codec)
    (hclean : journal.Clean codec event) : (journal.step codec event).Kept codec := by
  obtain ⟨directory, store, committed, attempted⟩ := journal
  cases store with
  | none =>
    cases event with
    | commit io state => exact h
    | crash io state point => exact h
    | exit => exact h
    | «open» io =>
      simp only [step]
      cases hopen : EndpointStore.open codec io directory with
      | error e => exact h
      | ok opened =>
        obtain ⟨hdirectory, -, -⟩ := EndpointStore.open_eq_ok hopen
        refine ⟨rfl, rfl, ?_⟩
        unfold EndpointStore.InSync
        rw [hdirectory]
        exact Directory.holds_open hopen
  | some store =>
    obtain ⟨rfl, rfl, hsync⟩ := h
    cases event with
    | commit io state =>
      refine ⟨rfl, ?_, EndpointStore.inSync_commit hsync hclean⟩
      rcases EndpointStore.state_commit codec io store state with
        ⟨hok, hnew, -⟩ | ⟨⟨e, herror⟩, hold, -⟩
      · simp only [step, hok, hnew]
      · simp only [step, herror, hold]
    | crash io state point =>
      have hpoints := EndpointStore.holds_crashPoints io state hsync
      simp only [Kept, step, List.getD_eq_getElem?_getD]
      cases hpoint : (crashPoints codec io store state)[point]? with
      | none => exact ⟨store.generation, .inl hsync⟩
      | some found =>
        rcases hpoints found (List.mem_of_getElem? hpoint) with hholds | hholds
        · exact ⟨store.generation, .inl hholds⟩
        · exact ⟨store.generation + 1, .inr ⟨state, rfl, hholds⟩⟩
    | exit => exact ⟨store.generation, .inl hsync⟩
    | «open» io => exact ⟨rfl, rfl, hsync⟩

/-- In every run without a commit that fails after its rename, an opening reads the last committed
state or the one a crash interrupted, and it succeeds if these are readable; and no opening passes
over a newest generation that it cannot read or whose digest is wrong. -/
theorem open_reads_committed_or_attempted (codec : Codec) {io : OpenIo} {directory : Directory}
    {store : EndpointStore} (hopen : EndpointStore.open codec io directory = .ok store)
    {events : List Event} (hclean : Run.Meets (step codec) (Clean codec) (start store) events)
    {early : List Event} (hearly : early <+: events) :
    let journal := Run.run (step codec) (start store) early
    (∀ io opened, EndpointStore.open codec io journal.directory = .ok opened →
      opened.state = journal.committed ∨ journal.attempted = some opened.state) ∧
    (journal.committed.Readable → (∀ state ∈ journal.attempted, state.Readable) →
      ∃ opened, EndpointStore.open codec .ok journal.directory = .ok opened) ∧
    ∀ (io : OpenIo) (directory : Directory) (number : ℕ) (data : FileData),
      directory.newest? = some (number, data) →
      (io.read ≠ .ok () ∨ data = .corrupt ∨
        ∃ snapshot, data = .snapshot snapshot ∧
          snapshot.sha256 ≠ codec.digest snapshot.state) →
      ∃ e, EndpointStore.open codec io directory = .error e := by
  have hstart : (start store).Kept codec := by
    refine ⟨rfl, rfl, ?_⟩
    unfold EndpointStore.InSync
    rw [(EndpointStore.open_eq_ok hopen).1]
    exact Directory.holds_open hopen
  have hkept : (Run.run (step codec) (start store) early).Kept codec :=
    Run.invariant_reached (Kept codec) (fun _ _ h hclean ↦ kept_step h hclean) hstart hclean hearly
  obtain ⟨number, hholds⟩ := hkept.holds
  refine ⟨fun io opened hreopen ↦ ?_, fun hcommitted hattempted ↦ ?_,
    fun io directory number data hnewest h ↦
      Directory.open_error_of_unreadable codec io hnewest h⟩
  · rcases hholds with hholds | ⟨state, hstate, hholds⟩
    · exact .inl (hholds.state_of_open hreopen).1
    · rw [hstate, (hholds.state_of_open hreopen).1]
      exact .inr rfl
  · rcases hholds with hholds | ⟨state, hstate, hholds⟩
    · exact ⟨_, hholds.open_eq hcommitted⟩
    · exact ⟨_, hholds.open_eq (hattempted state hstate)⟩

/-- A crash inside a second commit, before its rename, leaves the first one to be read. -/
theorem open_reads_first_commit :
    let events := [Event.commit (.ok "a") (.oneEndpoint "alpha"),
      .crash (.ok "b") (.oneEndpoint "beta") 0]
    let journal := Run.run (step .constant) (start .fresh) events
    ∀ opened, EndpointStore.open .constant .ok journal.directory = .ok opened →
      opened.state = .oneEndpoint "alpha" ∨ opened.state = .oneEndpoint "beta" := by
  intro events journal opened hopen
  have hclean : Run.Meets (step .constant) (Clean .constant) (start .fresh) events := by
    refine ⟨?_, trivial, trivial⟩
    rintro ⟨-, e, hsync⟩
    cases hsync
  have hfresh : EndpointStore.open .constant .ok .empty = .ok EndpointStore.fresh := rfl
  rcases (open_reads_committed_or_attempted .constant hfresh hclean (List.prefix_refl _)).1
    .ok opened hopen with h | h
  · exact .inl h
  · exact .inr (Option.some.inj h).symm

/-- After a commit that fails at its directory sync, a crash inside the next commit leaves the state
of the failed one to be read. -/
theorem open_reads_failed_commit :
    let events := [Event.commit (.unsynced "a") (.oneEndpoint "alpha"),
      .crash (.ok "b") (.oneEndpoint "beta") 0]
    let journal := Run.run (step .constant) (start .fresh) events
    ∃ opened, EndpointStore.open .constant .ok journal.directory = .ok opened ∧
      opened.state ≠ journal.committed ∧ journal.attempted ≠ some opened.state := by
  refine ⟨_, rfl, fun h ↦ ?_, fun h ↦ ?_⟩
  · exact absurd (congrArg (fun state ↦ (state.endpoints.get? "alpha").isSome) h) (by decide)
  · exact absurd (congrArg (fun state ↦ (state.endpoints.get? "alpha").isSome)
      (Option.some.inj h)) (by decide)

end Journal

end Cameo.Store
