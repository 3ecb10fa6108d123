import Cameo.Store.Durability
import Mathlib.Data.Fintype.EquivFin

/-!
# Failed and interrupted commits

A commit is all or nothing except in one place.  Once the pending file has been renamed, the next
generation exists; if the directory then cannot be synced, `commit` reports an error and keeps its
old state and generation in memory.  The directory is ahead of the store from then on: an opening
reads the state that was reported as not committed, and every later commit of this store finds its
target name taken.

`Renames` says which commits get as far as the rename.  All others leave every generation file as it
was, which is what the results about failures and crashes rest on.
-/

namespace Cameo.Store

open Json Library

def OpenIo.ok : OpenIo := ⟨.ok (), .ok (), .ok ()⟩

/-- A snapshot without endpoints, leases or sessions, numbered by at most twenty digits, is far
below the size limit. -/
def Codec.SmallDefault (codec : Codec) : Prop :=
  ∀ generation ≤ u64Max + 1,
    codec.size ⟨3, generation, codec.digest .default, .default⟩ ≤ limit

def IntentState.oneEndpoint (id : String) : IntentState :=
  ⟨Ordered.Map.empty.insert id (.object [("model", .string id)]), .empty, .empty⟩

def CommitIo.unsynced (suffix : String) : CommitIo :=
  { CommitIo.ok suffix with syncDirectory := .error "input/output error" }

def CommitIo.unrenamed (suffix : String) : CommitIo :=
  { CommitIo.ok suffix with rename := .error "input/output error" }

namespace Directory

/-- An opening reads the generation files only, by their lookups. -/
theorem newest?_congr_get? {left right : Directory}
    (h : ∀ number, left.get? (.generation number) = right.get? (.generation number)) :
    left.newest? = right.newest? := by
  apply newest?_congr
  intro number data
  have hleft := left.get?_eq_some_iff (.generation number) (.generation number, data)
  have hright := right.get?_eq_some_iff (.generation number) (.generation number, data)
  simp only [and_true] at hleft hright
  rw [← hleft, ← hright, h]

/-- Some pending name is always free. -/
theorem exists_pending_free (directory : Directory) :
    ∃ suffix, directory.get? (.pending suffix) = none := by
  obtain ⟨suffix, hsuffix⟩ := Infinite.exists_notMem_finset
    (directory.entries.filterMap fun file ↦
      match file.1 with
      | .pending suffix => some suffix
      | .generation _ => none).toFinset
  refine ⟨suffix, (Keyed.Table.get?_eq_none_iff _ _).mpr ?_⟩
  rintro ⟨name, data⟩ hmem rfl
  apply hsuffix
  rw [List.mem_toFinset, List.mem_filterMap]
  exact ⟨_, hmem, rfl⟩

end Directory

namespace EndpointStore

/-- An opening with working I/O succeeds and reads a state. -/
def OpensTo (codec : Codec) (directory : Directory) (state : IntentState) : Prop :=
  ∃ opened, EndpointStore.open codec .ok directory = .ok opened ∧ opened.state = state

/-- What an opening reads is a function of the newest generation file. -/
theorem open_congr (codec : Codec) (io : OpenIo) {left right : Directory}
    (h : left.newest? = right.newest?) :
    (EndpointStore.open codec io left).map (fun store ↦ (store.generation, store.state)) =
      (EndpointStore.open codec io right).map fun store ↦ (store.generation, store.state) := by
  unfold EndpointStore.open
  rw [h]
  cases io.lock with
  | error e => rfl
  | ok _ =>
    cases io.list with
    | error e => rfl
    | ok _ =>
      cases right.newest? with
      | none => rfl
      | some file =>
        cases io.read with
        | error e => rfl
        | ok _ =>
          dsimp only [bind, Except.bind]
          cases readSnapshot codec file.2 with
          | error e => rfl
          | ok snapshot =>
            dsimp only
            split
            · rfl
            · split <;> rfl

theorem opensTo_congr {codec : Codec} {left right : Directory} {state : IntentState}
    (h : left.newest? = right.newest?) :
    OpensTo codec left state ↔ OpensTo codec right state := by
  have hmaps (directory : Directory) : OpensTo codec directory state ↔
      ∃ generation, (EndpointStore.open codec .ok directory).map
        (fun store ↦ (store.generation, store.state)) = .ok (generation, state) := by
    constructor
    · rintro ⟨opened, hopen, rfl⟩
      exact ⟨opened.generation, by rw [hopen]; rfl⟩
    · rintro ⟨generation, hmap⟩
      cases hopen : EndpointStore.open codec .ok directory with
      | error e => rw [hopen] at hmap; cases hmap
      | ok opened =>
        rw [hopen] at hmap
        cases hmap
        exact ⟨opened, hopen, rfl⟩
  rw [hmaps, hmaps, open_congr codec .ok h]

/-! ## How far a commit gets -/

/-- The limits `commit` enforces on a state. -/
structure Fits (codec : Codec) (store : EndpointStore) (state : IntentState) : Prop where
  sessions : state.sessions.size ≤ 4096
  leases : state.leases.size ≤ 4096
  endpoints : state.endpoints.size ≤ 256
  size : codec.size (store.next codec state) ≤ limit

/-- The directory has a generation the store does not know of. -/
def Ahead (store : EndpointStore) : Prop :=
  (store.directory.get? (.generation (store.generation + 1))).isSome

instance (store : EndpointStore) : Decidable store.Ahead := inferInstanceAs (Decidable (_ = true))

/-- Publication reaches its rename and the rename succeeds. -/
structure Publishes (io : CommitIo) (store : EndpointStore) (suffix : String) : Prop where
  create : io.create = .ok ()
  pending : store.directory.get? (.pending suffix) = none
  write : io.write = .ok ()
  target : ¬ store.Ahead
  rename : io.rename = .ok ()

/-- The commit gets as far as its rename, and the rename succeeds. -/
structure Renames (codec : Codec) (io : CommitIo) (store : EndpointStore) (state : IntentState) :
    Prop where
  fits : store.Fits codec state
  generation : store.generation < u64Max
  published : ∃ suffix, io.random = .ok suffix ∧ Publishes io store suffix

/-- The commit fails after its rename: the directory cannot be synced. -/
def FailsAfterRename (codec : Codec) (io : CommitIo) (store : EndpointStore)
    (state : IntentState) : Prop :=
  Renames codec io store state ∧ ∃ e, io.syncDirectory = .error e

/-- The store as it stands right after the rename. -/
def renamed (codec : Codec) (store : EndpointStore) (state : IntentState) (suffix : String) :
    EndpointStore :=
  let snapshot := store.next codec state
  ((store.createPending suffix).writePending suffix snapshot).renamePending suffix snapshot

section Lookups

variable (store : EndpointStore) (suffix : String) (snapshot : Snapshot) (number : ℕ)

theorem get?_createPending : (store.createPending suffix).directory.get? (.generation number) =
    store.directory.get? (.generation number) := by
  simp only [createPending, advance]
  rw [Keyed.Table.get?_insert, if_neg (by simp)]

theorem get?_writePending :
    (store.writePending suffix snapshot).directory.get? (.generation number) =
      store.directory.get? (.generation number) := by
  simp only [writePending, advance]
  rw [Keyed.Table.get?_insert, if_neg (by simp)]

theorem get?_erase_pending (directory : Directory) :
    (directory.erase (.pending suffix)).get? (.generation number) =
      directory.get? (.generation number) :=
  Keyed.Table.get?_erase_of_ne _ (by simp)

end Lookups

theorem publish_of_publishes (codec : Codec) {io : CommitIo} {store : EndpointStore}
    {suffix : String} (h : Publishes io store suffix) (state : IntentState) :
    publish io suffix (store.next codec state) store =
      (io.syncDirectory, store.renamed codec state suffix) := by
  have htarget : ¬ (((store.createPending suffix).writePending suffix
      (store.next codec state)).directory.get?
        (.generation (store.next codec state).generation)).isSome := by
    rw [get?_writePending, get?_createPending]
    exact h.target
  unfold publish
  rw [h.create, h.write, h.rename]
  dsimp only
  rw [if_neg (by simp [h.pending]), if_neg htarget]
  cases io.syncDirectory <;> rfl

/-- A publication that does not get through its rename leaves every generation file alone. -/
theorem publish_of_not_publishes (codec : Codec) {io : CommitIo} {store : EndpointStore}
    {suffix : String} (h : ¬ Publishes io store suffix) (state : IntentState) :
    (∃ e, (publish io suffix (store.next codec state) store).1 = .error e) ∧
      ∀ number, (publish io suffix (store.next codec state) store).2.directory.get?
        (.generation number) = store.directory.get? (.generation number) := by
  have hwritten (number : ℕ) : ((store.createPending suffix).writePending suffix
      (store.next codec state)).directory.get? (.generation number) =
        store.directory.get? (.generation number) := by
    rw [get?_writePending, get?_createPending]
  unfold publish
  cases hcreate : io.create with
  | error e => exact ⟨⟨e, rfl⟩, fun _ ↦ rfl⟩
  | ok _ =>
    dsimp only
    split
    · exact ⟨⟨_, rfl⟩, fun _ ↦ rfl⟩
    · rename_i hpending
      cases hwrite : io.write with
      | error e => exact ⟨⟨e, rfl⟩, get?_createPending store suffix⟩
      | ok _ =>
        dsimp only
        split
        · exact ⟨⟨_, rfl⟩, hwritten⟩
        · rename_i htarget
          cases hrename : io.rename with
          | error e => exact ⟨⟨e, rfl⟩, hwritten⟩
          | ok _ =>
            refine absurd ⟨hcreate, by simpa using hpending, hwrite, ?_, hrename⟩ h
            rw [hwritten] at htarget
            exact htarget

/-- A commit that gets through its rename is decided by the directory sync. -/
theorem commit_of_renames {codec : Codec} {io : CommitIo} {store : EndpointStore}
    {state : IntentState} (h : Renames codec io store state) :
    ∃ suffix, Publishes io store suffix ∧
      commit codec io store state =
        match io.syncDirectory with
        | .error e =>
          (.error e, if io.removePending then (store.renamed codec state suffix).advance
              ((store.renamed codec state suffix).directory.erase (.pending suffix))
            else store.renamed codec state suffix)
        | .ok () => (.ok (), prune io { store.renamed codec state suffix with
            generation := store.generation + 1
            state := state }) := by
  obtain ⟨hfits, hgeneration, suffix, hrandom, hpublishes⟩ := h
  refine ⟨suffix, hpublishes, ?_⟩
  have hpublish := publish_of_publishes codec hpublishes state
  rw [next] at hpublish
  have hsize := hfits.size
  rw [next] at hsize
  unfold commit
  rw [if_neg (by have := hfits.sessions; omega), if_neg (by have := hfits.leases; omega),
    if_neg (by have := hfits.endpoints; omega), if_neg (by omega)]
  dsimp only
  rw [if_neg (by omega), hrandom]
  dsimp only
  rw [hpublish]
  cases io.syncDirectory <;> rfl

/-- A commit that does not get through its rename fails and leaves every generation file alone. -/
theorem commit_of_not_renames {codec : Codec} {io : CommitIo} {store : EndpointStore}
    {state : IntentState} (h : ¬ Renames codec io store state) :
    (∃ e, (commit codec io store state).1 = .error e) ∧
      ∀ number, (commit codec io store state).2.directory.get? (.generation number) =
        store.directory.get? (.generation number) := by
  unfold commit
  split
  · exact ⟨⟨_, rfl⟩, fun _ ↦ rfl⟩
  split
  · exact ⟨⟨_, rfl⟩, fun _ ↦ rfl⟩
  split
  · exact ⟨⟨_, rfl⟩, fun _ ↦ rfl⟩
  split
  · exact ⟨⟨_, rfl⟩, fun _ ↦ rfl⟩
  dsimp only
  split
  · exact ⟨⟨_, rfl⟩, fun _ ↦ rfl⟩
  rename_i hsessions hleases hendpoints hgeneration hsize
  cases hrandom : io.random with
  | error e => exact ⟨⟨e, rfl⟩, fun _ ↦ rfl⟩
  | ok suffix =>
    dsimp only
    have hpublishes : ¬ Publishes io store suffix := by
      intro hpublishes
      exact h ⟨⟨by omega, by omega, by omega, not_lt.mp hsize⟩, by omega, suffix, hrandom,
        hpublishes⟩
    obtain ⟨⟨e, herror⟩, hkept⟩ := publish_of_not_publishes codec hpublishes state
    rw [next] at herror hkept
    split
    · rename_i e' failed heq
      rw [heq] at hkept
      refine ⟨⟨_, rfl⟩, fun number ↦ ?_⟩
      dsimp only
      split
      · exact (get?_erase_pending suffix number _).trans (hkept number)
      · exact hkept number
    · rename_i published heq
      rw [heq] at herror
      cases herror

/-- A commit that succeeds has got through its rename. -/
theorem renames_of_ok {codec : Codec} {io : CommitIo} {store : EndpointStore}
    {state : IntentState} (hok : (commit codec io store state).1 = .ok ()) :
    Renames codec io store state := by
  by_contra hnot
  obtain ⟨⟨e, herror⟩, -⟩ := commit_of_not_renames hnot
  cases hok.symm.trans herror

/-! ## Failed commits -/

/-- With working calls, a commit into a directory that has the two names free succeeds exactly if
the state is within the limits and the counter is. -/
theorem commit_ok_iff {codec : Codec} {store : EndpointStore} {state : IntentState}
    {suffix : String} (hpending : store.directory.get? (.pending suffix) = none)
    (htarget : ¬ store.Ahead) :
    (commit codec (.ok suffix) store state).1 = .ok () ↔
      store.Fits codec state ∧ store.generation < u64Max := by
  constructor
  · intro hok
    have hrenames := renames_of_ok hok
    exact ⟨hrenames.fits, hrenames.generation⟩
  · rintro ⟨hfits, hgeneration⟩
    have hrenames : Renames codec (.ok suffix) store state :=
      ⟨hfits, hgeneration, suffix, rfl, rfl, hpending, rfl, htarget, rfl⟩
    obtain ⟨_, -, heq⟩ := commit_of_renames hrenames
    rw [heq]
    rfl

/-- With working I/O the store commits every state within the limits. -/
def CanCommit (codec : Codec) (store : EndpointStore) : Prop :=
  ∀ state suffix, store.Fits codec state → store.directory.get? (.pending suffix) = none →
    (commit codec (.ok suffix) store state).1 = .ok ()

theorem get?_renamed (codec : Codec) (store : EndpointStore) (state : IntentState)
    (suffix : String) :
    (store.renamed codec state suffix).directory.get? (.generation (store.generation + 1)) =
      some (.generation (store.generation + 1), .snapshot (store.next codec state)) := by
  simp only [renamed, renamePending, advance, next]
  rw [Keyed.Table.get?_insert, if_pos rfl]

/-- A store can commit exactly when its counter and the name of its next generation are free. -/
theorem canCommit_iff {codec : Codec} (hdefault : Codec.SmallDefault codec)
    {store : EndpointStore} (hcounter : store.generation ≤ u64Max) :
    store.CanCommit codec ↔ store.generation < u64Max ∧ ¬ store.Ahead := by
  constructor
  · intro h
    obtain ⟨suffix, hsuffix⟩ := store.directory.exists_pending_free
    have hok := h .default suffix
      ⟨by decide, by decide, by decide, hdefault _ (Nat.succ_le_succ hcounter)⟩ hsuffix
    obtain ⟨-, hgeneration, _, -, hpublishes⟩ := renames_of_ok hok
    exact ⟨hgeneration, hpublishes.target⟩
  · rintro ⟨hgeneration, htarget⟩ state suffix hfits hsuffix
    exact (commit_ok_iff hsuffix htarget).mpr ⟨hfits, hgeneration⟩

/-- A commit that fails after its rename leaves the directory ahead of the store. -/
theorem ahead_of_failsAfterRename {codec : Codec} {io : CommitIo} {store : EndpointStore}
    {state : IntentState} (h : FailsAfterRename codec io store state) :
    (commit codec io store state).2.Ahead := by
  obtain ⟨hrenames, e, hsync⟩ := h
  obtain ⟨suffix, -, heq⟩ := commit_of_renames hrenames
  rw [heq, hsync]
  unfold Ahead
  dsimp only
  split
  · change ((store.renamed codec state suffix).directory.erase (.pending suffix)).get?
      (.generation (store.generation + 1)) |>.isSome
    rw [get?_erase_pending, get?_renamed]
    rfl
  · change (store.renamed codec state suffix).directory.get?
      (.generation (store.generation + 1)) |>.isSome
    rw [get?_renamed]
    rfl

/-- A commit that fails keeps the generation files, unless it fails after its rename. -/
theorem get?_commit_of_error {codec : Codec} {io : CommitIo} {store : EndpointStore}
    {state : IntentState} {e : String} (herror : (commit codec io store state).1 = .error e)
    (h : ¬ FailsAfterRename codec io store state) (number : ℕ) :
    (commit codec io store state).2.directory.get? (.generation number) =
      store.directory.get? (.generation number) := by
  by_cases hrenames : Renames codec io store state
  · obtain ⟨suffix, -, heq⟩ := commit_of_renames hrenames
    cases hsync : io.syncDirectory with
    | error e' => exact absurd ⟨hrenames, e', hsync⟩ h
    | ok _ =>
      rw [heq, hsync] at herror
      cases herror
  · exact (commit_of_not_renames hrenames).2 number

theorem generation_commit_of_error {codec : Codec} {io : CommitIo} {store : EndpointStore}
    {state : IntentState} {e : String} (herror : (commit codec io store state).1 = .error e) :
    (commit codec io store state).2.generation = store.generation := by
  rcases state_commit codec io store state with ⟨hok, -⟩ | ⟨-, -, hgeneration⟩
  · cases hok.symm.trans herror
  · exact hgeneration

/-- The store and its directory agree: an opening reads the store's own state, and the name of the
next generation is free. -/
structure InStep (codec : Codec) (store : EndpointStore) : Prop where
  opens : OpensTo codec store.directory store.state
  target : ¬ store.Ahead

/-- After a failed commit the old state can be read back and the store can still commit, exactly if
the store was in step with its directory and the failure did not come after the rename. -/
theorem commit_error_recoverable_iff {codec : Codec} (hdefault : Codec.SmallDefault codec)
    (io : CommitIo) (store : EndpointStore) (hcounter : store.generation ≤ u64Max)
    (state : IntentState) {e : String} (herror : (commit codec io store state).1 = .error e) :
    (OpensTo codec (commit codec io store state).2.directory store.state ∧
        (commit codec io store state).2.CanCommit codec) ↔
      store.InStep codec ∧ store.generation < u64Max ∧
        ¬ FailsAfterRename codec io store state := by
  have hgeneration := generation_commit_of_error herror
  rw [canCommit_iff hdefault (hgeneration ▸ hcounter), hgeneration]
  by_cases hfails : FailsAfterRename codec io store state
  · have hahead := ahead_of_failsAfterRename hfails
    constructor
    · rintro ⟨-, -, htarget⟩
      exact absurd hahead htarget
    · rintro ⟨-, -, hnot⟩
      exact absurd hfails hnot
  · have hkept := get?_commit_of_error herror hfails
    have hopens : OpensTo codec (commit codec io store state).2.directory store.state ↔
        OpensTo codec store.directory store.state :=
      opensTo_congr (Directory.newest?_congr_get? hkept)
    have htarget : (commit codec io store state).2.Ahead ↔ store.Ahead := by
      unfold Ahead
      rw [generation_commit_of_error herror, hkept]
    rw [hopens, htarget]
    constructor
    · rintro ⟨hread, hgeneration, hfree⟩
      exact ⟨⟨hread, hfree⟩, hgeneration, hfails⟩
    · rintro ⟨⟨hread, hfree⟩, hgeneration, -⟩
      exact ⟨hread, hgeneration, hfree⟩

def fresh : EndpointStore := ⟨.empty, 0, .default, [.empty]⟩

theorem opensTo_fresh : OpensTo Codec.constant fresh.directory fresh.state := ⟨fresh, rfl, rfl⟩

/-- A commit whose rename fails can be repeated. -/
theorem commit_error_recoverable_unrenamed :
    let after := (commit Codec.constant (CommitIo.unrenamed "a") fresh (.oneEndpoint "alpha")).2
    OpensTo Codec.constant after.directory .default ∧ after.CanCommit Codec.constant := by
  refine (commit_error_recoverable_iff (fun _ _ ↦ Nat.zero_le _) (CommitIo.unrenamed "a") fresh
    (Nat.zero_le _) (.oneEndpoint "alpha") rfl).mpr ⟨⟨opensTo_fresh, by decide⟩, by decide, ?_⟩
  rintro ⟨⟨-, -, _, -, hpublishes⟩, -⟩
  cases hpublishes.rename

/-- A commit whose directory sync fails cannot be repeated, and an opening reads the state that was
reported as not committed. -/
theorem commit_unsynced_not_recoverable :
    let result := commit Codec.constant (CommitIo.unsynced "a") fresh (.oneEndpoint "alpha")
    result.1 = .error "input/output error" ∧
      OpensTo Codec.constant result.2.directory (.oneEndpoint "alpha") ∧
      ¬ OpensTo Codec.constant result.2.directory fresh.state ∧
      ¬ result.2.CanCommit Codec.constant := by
  have hopens : OpensTo Codec.constant (commit Codec.constant (CommitIo.unsynced "a") fresh
      (.oneEndpoint "alpha")).2.directory (.oneEndpoint "alpha") := ⟨_, rfl, rfl⟩
  refine ⟨rfl, hopens, ?_, ?_⟩
  · rintro ⟨opened, hopen, hstate⟩
    obtain ⟨opened', hopen', hstate'⟩ := hopens
    have hsame : opened = opened' := Except.ok.inj (hopen.symm.trans hopen')
    have hsize := congrArg (fun state ↦ state.endpoints.size)
      (hstate.symm.trans (hsame ▸ hstate'))
    exact absurd hsize (by decide)
  · rw [canCommit_iff (fun _ _ ↦ Nat.zero_le _) (Nat.zero_le _)]
    rintro ⟨-, hfree⟩
    exact hfree rfl

end EndpointStore

end Cameo.Store
