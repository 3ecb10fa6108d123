import Cameo.Store.EndpointStore

/-!
# What a crash inside a commit leaves behind

Whatever file operation a crash follows, an opening afterwards reads what it would have read before
the commit, or the new snapshot.  A commit can fail after its rename, when the directory cannot be
synced; then memory keeps the old state under the old generation while the directory already has
the next one.  So the directory is only known to be numbered up to the next generation, which is
`Bounded`.
-/

namespace Cameo.Store

open Json Library

namespace Directory

theorem nodup_generations (directory : Directory) : directory.generations.Nodup := by
  apply (List.perm_insertionSort _ _).nodup_iff.mpr
  refine List.Nodup.filterMap ?_ directory.nodup.of_map
  rintro ⟨name, data⟩ ⟨name', data'⟩ file hfile hfile'
  cases name with
  | pending suffix => cases hfile
  | generation number =>
    cases name' with
    | pending suffix => cases hfile'
    | generation number' =>
      cases hfile
      cases hfile'
      rfl

/-- Pruning spares the newest generation. -/
theorem lt_of_mem_take_generations {directory : Directory} {number : ℕ} {data : FileData}
    (h : directory.newest? = some (number, data)) {file : ℕ × FileData}
    (hmem : file ∈ directory.generations.take (directory.generations.length - 2)) :
    file.1 < number := by
  obtain ⟨rest, hrest⟩ := List.getLast?_eq_some_iff.mp h
  have hle : directory.generations.length - 2 ≤ rest.length := by
    rw [hrest, List.length_append, List.length_singleton]
    omega
  rw [hrest, List.take_append_of_le_length (hrest ▸ hle)] at hmem
  have hfile := List.mem_of_mem_take hmem
  have hmemFile : file ∈ directory.generations := by
    rw [hrest]
    exact List.mem_append_left _ hfile
  have hmemLast : (number, data) ∈ directory.generations := by
    rw [hrest]
    exact List.mem_append_right _ (List.mem_singleton.mpr rfl)
  have hnodup := hrest ▸ directory.nodup_generations
  have hbound := ((newest?_eq_some_iff _ _ _).mp h).2 file.1 file.2
    ((mem_generations _ _ _).mp hmemFile)
  refine lt_of_le_of_ne hbound fun heq ↦ ?_
  -- two files of one number are one file, but the list has no duplicates
  have hsame := Keyed.Table.eq_of_key_eq ((mem_generations _ _ _).mp hmemFile)
    ((mem_generations _ _ _).mp hmemLast) (congrArg FileName.generation heq)
  have hlast : file = (number, data) := Prod.ext heq (Prod.mk.inj hsame).2
  exact List.disjoint_of_nodup_append hnodup (hlast ▸ hfile) (List.mem_singleton.mpr rfl)

end Directory

namespace EndpointStore

/-- The store went through directory contents that all have a property, up to the present ones. -/
structure Advances (Q : Directory → Prop) (before after : EndpointStore) : Prop where
  passed : ∃ fresh, after.passed = fresh ++ before.passed ∧ ∀ directory ∈ fresh, Q directory
  directory : Q after.directory

section Advances

variable {Q : Directory → Prop} {first second third : EndpointStore}

theorem Advances.of_same (hpassed : second.passed = first.passed)
    (hdirectory : second.directory = first.directory) (h : Q first.directory) :
    Advances Q first second :=
  ⟨⟨[], hpassed, nofun⟩, hdirectory ▸ h⟩

theorem Advances.advance (store : EndpointStore) {directory : Directory} (h : Q directory) :
    Advances Q store (store.advance directory) :=
  ⟨⟨[directory], rfl, fun _ hmem ↦ List.mem_singleton.mp hmem ▸ h⟩, h⟩

theorem Advances.trans (h : Advances Q first second) (h' : Advances Q second third) :
    Advances Q first third := by
  obtain ⟨early, hearly, hqEarly⟩ := h.passed
  obtain ⟨late, hlate, hqLate⟩ := h'.passed
  refine ⟨⟨late ++ early, ?_, ?_⟩, h'.directory⟩
  · rw [hlate, hearly, List.append_assoc]
  · intro directory hmem
    rcases List.mem_append.mp hmem with hmem | hmem
    · exact hqLate directory hmem
    · exact hqEarly directory hmem

theorem Advances.mono {R : Directory → Prop} (h : Advances Q first second)
    (hwider : ∀ directory, Q directory → R directory) : Advances R first second := by
  obtain ⟨fresh, hpassed, hq⟩ := h.passed
  exact ⟨⟨fresh, hpassed, fun directory hmem ↦ hwider directory (hq directory hmem)⟩,
    hwider _ h.directory⟩

end Advances

/-- An opening would read no generation above the next one. -/
def Bounded (store : EndpointStore) : Prop :=
  ∀ number data, store.directory.newest? = some (number, data) → number ≤ store.generation + 1

def next (codec : Codec) (store : EndpointStore) (state : IntentState) : Snapshot :=
  ⟨3, store.generation + 1, codec.digest state, state⟩

theorem Bounded.number_le {store : EndpointStore} (h : store.Bounded) {number : ℕ}
    {data : FileData} (hmem : (FileName.generation number, data) ∈ store.directory.entries) :
    number ≤ store.generation + 1 := by
  cases hnewest : store.directory.newest? with
  | none => exact absurd hmem ((Directory.newest?_eq_none_iff _).mp hnewest _ _)
  | some file =>
    exact (((Directory.newest?_eq_some_iff _ _ _).mp hnewest).2 number data hmem).trans
      (h file.1 file.2 hnewest)

theorem bounded_open {codec : Codec} {io : OpenIo} {directory : Directory} {store : EndpointStore}
    (h : EndpointStore.open codec io directory = .ok store) : store.Bounded := by
  obtain ⟨hdirectory, -, ⟨hnewest, -, -⟩ | ⟨snapshot, hnewest, -⟩⟩ := open_eq_ok h
  · intro number data hread
    rw [hdirectory, hnewest] at hread
    cases hread
  · intro number data hread
    rw [hdirectory, hnewest] at hread
    cases hread
    exact Nat.le_succ _

section Commit

variable (codec : Codec) (io : CommitIo) (state : IntentState) {store : EndpointStore}

/-- The three file operations of a publication, as an opening sees them. -/
theorem newest?_publish_steps (h : store.Bounded) (suffix : String) :
    let created := store.createPending suffix
    let written := created.writePending suffix (store.next codec state)
    let renamed := written.renamePending suffix (store.next codec state)
    created.directory.newest? = store.directory.newest? ∧
      written.directory.newest? = store.directory.newest? ∧
      renamed.directory.newest? =
        some (store.generation + 1, .snapshot (store.next codec state)) := by
  have hwritten : ((store.createPending suffix).writePending suffix
      (store.next codec state)).directory.newest? = store.directory.newest? :=
    (Directory.newest?_insert_pending _ _ _).trans (Directory.newest?_insert_pending _ _ _)
  refine ⟨Directory.newest?_insert_pending _ _ _, hwritten, ?_⟩
  apply Directory.newest?_insert_generation
  intro other contents hmem
  have hbounded : ((store.createPending suffix).writePending suffix
      (store.next codec state)).Bounded := by
    intro number data hread
    exact h number data (hwritten ▸ hread)
  exact hbounded.number_le ((Keyed.Table.mem_erase _ _ _).mp hmem).1

/-- What an opening can read at any point of a publication: what it read before or, once renamed,
the new snapshot; at the end of a successful one, the new snapshot. -/
theorem advances_publish (h : store.Bounded) (suffix : String) :
    Advances (fun directory ↦ directory.newest? = store.directory.newest? ∨
        directory.newest? = some (store.generation + 1, .snapshot (store.next codec state)))
      store (publish io suffix (store.next codec state) store).2 ∧
    ((publish io suffix (store.next codec state) store).1 = .ok () →
      (publish io suffix (store.next codec state) store).2.directory.newest? =
        some (store.generation + 1, .snapshot (store.next codec state))) := by
  obtain ⟨hcreated, hwritten, hrenamed⟩ := newest?_publish_steps codec state h suffix
  have hstart : Advances (fun directory ↦ directory.newest? = store.directory.newest? ∨
      directory.newest? = some (store.generation + 1, .snapshot (store.next codec state)))
      store store := .of_same rfl rfl (.inl rfl)
  have hcreate := hstart.trans (.advance store (.inl hcreated))
  have hwrite := hcreate.trans (.advance _ (.inl hwritten))
  have hrename := hwrite.trans (.advance _ (.inr hrenamed))
  rcases publish_cases io suffix (store.next codec state) store with
    ⟨⟨e, herror⟩, heq | heq | heq⟩ | heq
  · rw [heq]
    exact ⟨hstart, fun hok ↦ by cases hok.symm.trans herror⟩
  · rw [heq]
    exact ⟨hcreate, fun hok ↦ by cases hok.symm.trans herror⟩
  · rw [heq]
    exact ⟨hwrite, fun hok ↦ by cases hok.symm.trans herror⟩
  · rw [heq]
    exact ⟨hrename, fun _ ↦ hrenamed⟩

/-- Pruning is invisible to an opening, at every point. -/
theorem advances_prune {number : ℕ} {data : FileData}
    (h : store.directory.newest? = some (number, data)) :
    Advances (fun directory ↦ directory.newest? = some (number, data)) store (prune io store) := by
  have hfiles (files : List (ℕ × FileData)) (hlt : ∀ file ∈ files, file.1 < number)
      {store : EndpointStore} (h : store.directory.newest? = some (number, data)) :
      Advances (fun directory ↦ directory.newest? = some (number, data)) store
        (removeGenerations io files store) := by
    induction files generalizing store with
    | nil => exact .of_same rfl rfl h
    | cons file rest ih =>
      have hrest := fun other hmem ↦ hlt other (List.mem_cons_of_mem _ hmem)
      unfold removeGenerations
      split
      · have herased := Directory.newest?_erase_older h (hlt file List.mem_cons_self)
        exact (Advances.advance store herased).trans (ih hrest herased)
      · exact ih hrest h
  unfold prune
  split
  · exact hfiles _ (fun file hmem ↦ Directory.lt_of_mem_take_generations h hmem) h
  · exact .of_same rfl rfl h

/-- At every point of a commit an opening would read what it read before, or the new snapshot; at
the end of a successful one it reads the new snapshot. -/
theorem advances_commit (h : store.Bounded) :
    Advances (fun directory ↦ directory.newest? = store.directory.newest? ∨
        directory.newest? = some (store.generation + 1, .snapshot (store.next codec state)))
      store (commit codec io store state).2 ∧
    ((commit codec io store state).1 = .ok () →
      (commit codec io store state).2.directory.newest? =
        some (store.generation + 1, .snapshot (store.next codec state))) := by
  have hstart : Advances (fun directory ↦ directory.newest? = store.directory.newest? ∨
      directory.newest? = some (store.generation + 1, .snapshot (store.next codec state)))
      store store := .of_same rfl rfl (.inl rfl)
  unfold commit
  split
  · exact ⟨hstart, nofun⟩
  split
  · exact ⟨hstart, nofun⟩
  split
  · exact ⟨hstart, nofun⟩
  split
  · exact ⟨hstart, nofun⟩
  dsimp only
  split
  · exact ⟨hstart, nofun⟩
  split
  · exact ⟨hstart, nofun⟩
  rename_i suffix _
  obtain ⟨hpublish, hok⟩ := advances_publish codec io state h suffix
  split
  · rename_i e failed heq
    have hfailed := congrArg Prod.snd heq
    dsimp only at hfailed
    subst hfailed
    refine ⟨?_, nofun⟩
    dsimp only
    split
    · refine hpublish.trans (.advance _ ?_)
      rw [Directory.newest?_erase_pending]
      exact hpublish.directory
    · exact hpublish
  · rename_i published heq
    have hpublished := congrArg Prod.snd heq
    dsimp only at hpublished
    subst hpublished
    have hnewest := hok (congrArg Prod.fst heq)
    let adopted := { (publish io suffix (store.next codec state) store).2 with
      generation := store.generation + 1
      state := state }
    have hprune : Advances _ adopted (prune io adopted) := advances_prune io hnewest
    have hadopted := hpublish.trans (@Advances.of_same _ _ adopted rfl rfl hpublish.directory)
    exact ⟨hadopted.trans (hprune.mono fun _ hread ↦ .inr hread), fun _ ↦ hprune.directory⟩

theorem bounded_commit (h : store.Bounded) : (commit codec io store state).2.Bounded := by
  intro number data hread
  have hgeneration : store.generation ≤ (commit codec io store state).2.generation := by
    rcases state_commit codec io store state with ⟨-, -, heq⟩ | ⟨-, -, heq⟩ <;> omega
  rcases (advances_commit codec io state h).1.directory with hnewest | hnewest
  · have hle := h number data (hnewest ▸ hread)
    omega
  · rw [hnewest] at hread
    cases hread
    omega

end Commit

end EndpointStore

/-! ## Durable properties

A property of durable states together with its reading on disk.  If every committed state has it,
then memory has it, an opening reads it, and so does an opening after a crash inside a commit. -/

/-- A property of durable states and what it means for the newest generation. -/
structure DurableProperty where
  state : IntentState → Prop
  readable : Option (ℕ × FileData) → Prop
  blank : readable none → state .default
  read : ∀ {number : ℕ} {snapshot : Snapshot},
    readable (some (number, .snapshot snapshot)) → state snapshot.state
  write : ∀ (generation : ℕ) {snapshot : Snapshot},
    state snapshot.state → readable (some (generation + 1, .snapshot snapshot))
  /-- The daemon treats generation zero as an empty history. -/
  zero : ∀ {data : FileData}, readable (some (0, data)) → readable none

namespace EndpointStore

/-- A store whose memory and directory both have a durable property. -/
structure Keeps (p : DurableProperty) (store : EndpointStore) : Prop where
  bounded : store.Bounded
  state : p.state store.state
  readable : p.readable store.directory.newest?
  history : store.generation = 0 → p.readable none

variable {p : DurableProperty}

/-- An opened store has the properties of what it read. -/
theorem keeps_open {codec : Codec} {io : OpenIo} {directory : Directory} {store : EndpointStore}
    (h : EndpointStore.open codec io directory = .ok store)
    (hread : p.readable directory.newest?) : store.Keeps p := by
  have hbounded := bounded_open h
  obtain ⟨hdirectory, -, ⟨hnewest, -, hstate⟩ | ⟨snapshot, hnewest, hstate⟩⟩ := open_eq_ok h
  · have hblank : p.readable none := hnewest ▸ hread
    refine ⟨hbounded, ?_, hdirectory ▸ hread, fun _ ↦ hblank⟩
    rw [hstate]
    exact p.blank hblank
  · rw [hnewest] at hread
    refine ⟨hbounded, ?_, by rwa [hdirectory, hnewest], ?_⟩
    · rw [← hstate]
      exact p.read hread
    · intro hzero
      rw [hzero] at hread
      exact p.zero hread

/-- A commit of a state with the property keeps it, in memory, on disk and at every crash point. -/
theorem keeps_commit (codec : Codec) (io : CommitIo) {store : EndpointStore} {state : IntentState}
    (h : store.Keeps p) (hstate : p.state state) :
    (commit codec io store state).2.Keeps p ∧
      Advances (fun directory ↦ p.readable directory.newest?) store
        (commit codec io store state).2 := by
  have hadvances : Advances (fun directory ↦ p.readable directory.newest?) store
      (commit codec io store state).2 := by
    refine (advances_commit codec io state h.bounded).1.mono ?_
    rintro directory (hnewest | hnewest)
    · rw [hnewest]
      exact h.readable
    · rw [hnewest]
      exact p.write store.generation hstate
  have hbounded := bounded_commit codec io state h.bounded
  rcases state_commit codec io store state with ⟨-, hnew, hnext⟩ | ⟨-, hold, hsame⟩
  · refine ⟨⟨hbounded, by rwa [hnew], hadvances.directory, fun hzero ↦ ?_⟩, hadvances⟩
    omega
  · refine ⟨⟨hbounded, by rw [hold]; exact h.state, hadvances.directory, fun hzero ↦ ?_⟩,
      hadvances⟩
    exact h.history (hsame ▸ hzero)

/-- A successful commit establishes the properties of the committed state. -/
theorem keeps_commit_of_ok (codec : Codec) {io : CommitIo} {store : EndpointStore}
    {state : IntentState} (hbounded : store.Bounded) (hstate : p.state state)
    (hok : (commit codec io store state).1 = .ok ()) :
    (commit codec io store state).2.Keeps p := by
  have hread : p.readable (commit codec io store state).2.directory.newest? := by
    rw [(advances_commit codec io state hbounded).2 hok]
    exact p.write store.generation hstate
  rcases state_commit codec io store state with ⟨-, hnew, hnext⟩ | ⟨⟨e, herror⟩, -⟩
  · refine ⟨bounded_commit codec io state hbounded, by rwa [hnew], hread, fun hzero ↦ ?_⟩
    omega
  · cases hok.symm.trans herror

end EndpointStore

end Cameo.Store
