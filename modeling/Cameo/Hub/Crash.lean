import Cameo.Hub.Atomicity

/-!
# A crash while the state is persisted

The daemon can die between any two file operations of `persist_state`, and a rename that has not
been synced may be lost.  The state file is then the old or the new one, and it opens.  The
temporary file is another matter: nobody removes one that a dead process has left, and it is created
exclusively under a name made of the process id.  A daemon that comes back under the same id, as
process 1 of a container does, can never persist anything again.
-/

namespace Cameo.Hub

open Json Library Library.Durable

variable {codec : Codec}

/-! ## What a crash leaves -/

/-- A directory that a crash can leave of a call that has come from one directory to another: the
state file of either, and no temporary files but those of the two. -/
structure Survives (before stop left : Disk) : Prop where
  file : left.file = before.file ∨ left.file = stop.file
  temps : ∀ pid, (left.temps.get? pid).isSome = true →
    (before.temps.get? pid).isSome = true ∨ (stop.temps.get? pid).isSome = true

/-- The hub dies while an operation persists a roster. -/
structure CrashesIn (codec : Codec) (location : Location) (farm : Farm) (op : Op) (before : Disk)
    (roster : Roster) (left : Disk) : Prop where
  reached : Reached codec location farm
  state : farm.state = some (location, before)
  routed : Routed op
  call : ∃ io, persisting? codec farm op = some (io, roster) ∧
    ∃ stop ∈ (persistState codec location io (persistedFarm roster)).stops before,
      Survives before stop left

/-- Wherever a call is cut off, the file is the old one or the new one. -/
theorem file_of_mem_stops {location : Location} {io : PersistIo} {state : PersistedFarm}
    {before stop : Disk} (h : stop ∈ (persistState codec location io state).stops before) :
    stop.file = before.file ∨
      (codec.size state.toValue ≤ maxFarmStateBytes ∧
        stop.file = some (committedFile codec (some state.toValue))) := by
  rcases List.mem_cons.mp h with rfl | hpassed
  · exact .inl rfl
  · by_cases hrenames : Renames codec io state.toValue before
    · rw [persistState_of_renames hrenames] at hpassed
      simp only [List.mem_cons, List.not_mem_nil, or_false] at hpassed
      rcases hpassed with rfl | rfl | rfl
      · exact .inl rfl
      · exact .inl rfl
      · exact .inr ⟨hrenames.prepares.fits, rfl⟩
    · obtain ⟨e, passed, hcourse, huntouched⟩ := persistState_of_not_renames location hrenames
      rw [hcourse] at hpassed
      exact .inl (huntouched stop hpassed).file_eq

theorem open_of_holds {location : Location} {io : LoadIo} {disk : Disk} {state : PersistedFarm}
    (hio : io.Works) (now : Instant) (hfile : Holds disk.file state)
    (hintact : Intact state.nodes) :
    Farm.open location io now disk =
      .ok ⟨loaded (staleAt now) state.nodes .empty, some (location, disk)⟩ :=
  open_eq_ok_iff.mpr ⟨state, hfile _ _ hio, openNodes_eq_ok_iff.mpr ⟨hintact, rfl⟩, rfl⟩

/-- After a crash the hub starts, with the old identities or the new ones. -/
theorem CrashesIn.opens {location : Location} {farm : Farm} {op : Op} {before left : Disk}
    {roster : Roster} (h : CrashesIn codec location farm op before roster left) {io : LoadIo}
    (hio : io.Works) (now : Instant) :
    ∃ restarted, Farm.open location io now left = .ok restarted ∧
      restarted.state = some (location, left) ∧
      (reopened location io now before = .ok restarted.inner ∨
        restarted.inner = offline (staleAt now) roster) := by
  obtain ⟨io', hpersisting, stop, hstop, hsurvives⟩ := h.call
  obtain ⟨old, hold, hintact⟩ := h.reached.sound.file location before h.state
  obtain ⟨hroom, hderives⟩ := sound_persisting h.routed h.reached.sound hpersisting
  have hfile : left.file = before.file ∨ Holds left.file (persistedFarm roster) := by
    rcases hsurvives.file with hbefore | hstopped
    · exact .inl hbefore
    · rcases file_of_mem_stops hstop with hsame | ⟨hfits, hnew⟩
      · exact .inl (hstopped.trans hsame)
      · exact .inr (hstopped.trans hnew ▸ holds_committedFile rfl hfits)
  rcases hfile with hsame | hnew
  · refine ⟨_, open_of_holds hio now (hsame ▸ hold) hintact, rfl, .inl ?_⟩
    exact (reopened_of_holds hio hold).trans (openNodes_eq_ok_iff.mpr ⟨hintact, rfl⟩)
  · exact ⟨_, open_of_holds hio now hnew (intact_persistedFarm hroom hderives), rfl,
      .inr (loaded_persistedFarm hderives _)⟩

/-! ## Persisting after a restart -/

/-- The operation, if it persists anything, is one of a process whose disk works. -/
def Working (pid : ℕ) : Op → Prop
  | .pair io _ _ _ _ | .remove io _ => io = .working pid
  | .register _ _ | .heartbeat _ _ _ _ | .list _ | .onlineDescriptions _ | .prune _ => True

variable (codec) in
/-- The pairing of a new id or the removal of an enrolled one, with a file that is not too large. -/
def Admissible (farm : Farm) (op : Op) : Prop :=
  ∃ io roster, persisting? codec farm op = some (io, roster) ∧
    codec.size (persistedFarm roster).toValue ≤ maxFarmStateBytes

variable (codec) in
def Succeeds (farm : Farm) : Op → Prop
  | .pair io now reg digest label => ∃ id, (farm.pair codec io now reg digest label).1 = .ok id
  | .remove io nodeId => ∃ known, (farm.remove codec io nodeId).1 = .ok known
  | .register _ _ | .heartbeat _ _ _ _ | .list _ | .onlineDescriptions _ | .prune _ => True

theorem persists_working_iff {pid : ℕ} {payload : Value} {disk : Disk} :
    Persists codec (.working pid) payload disk ↔
      codec.size payload ≤ maxFarmStateBytes ∧ disk.temps.get? pid = none := by
  constructor
  · intro h
    exact ⟨h.renames.prepares.fits, h.renames.prepares.unused⟩
  · rintro ⟨hfits, hunused⟩
    have hprepares : Prepares codec (.working pid) payload disk :=
      ⟨hfits, rfl, fun _ ↦ rfl, hunused, rfl⟩
    exact ⟨⟨hprepares, rfl, rfl⟩, rfl⟩

theorem persistLocked_eq_ok_iff {io : PersistIo} {roster : Roster} {location : Location}
    {disk : Disk} : (Farm.persistLocked codec io roster (some (location, disk))).1 = .ok () ↔
      Persists codec io (persistedFarm roster).toValue disk := by
  by_cases h : Persists codec io (persistedFarm roster).toValue disk
  · rw [persistLocked_of_persists h]
    exact iff_of_true rfl h
  · obtain ⟨e, after, hpersist, -⟩ := persistLocked_of_not_persists location h
    rw [hpersist]
    exact iff_of_false (fun herror ↦ by cases herror) h

theorem persistState_of_not_fits {location : Location} {io : PersistIo} {state : PersistedFarm}
    (disk : Disk) (h : ¬ codec.size state.toValue ≤ maxFarmStateBytes) :
    persistState codec location io state disk =
      ⟨.error "farm state exceeds its 4 MiB limit", []⟩ := by
  rw [persistState, prepareParent, if_pos (not_le.mp h)]
  rfl

/-- A process whose disk works neither leaves nor removes a temporary file under its name. -/
theorem temps_persistLocked (codec : Codec) (pid : ℕ) (roster : Roster) (location : Location)
    (disk : Disk) :
    ∃ after, (Farm.persistLocked codec (.working pid) roster (some (location, disk))).2 =
        some (location, after) ∧ after.temps.get? pid = disk.temps.get? pid := by
  by_cases hfits : codec.size (persistedFarm roster).toValue ≤ maxFarmStateBytes
  · by_cases hunused : disk.temps.get? pid = none
    · rw [persistLocked_of_persists (persists_working_iff.mpr ⟨hfits, hunused⟩)]
      exact ⟨_, rfl, rfl⟩
    · have hnot : ¬ Renames codec (.working pid) (persistedFarm roster).toValue disk :=
        fun h ↦ hunused h.prepares.unused
      obtain ⟨e, stop, hpersist, huntouched⟩ := persistLocked_of_not_renames location hnot
      rw [hpersist]
      refine ⟨stop, rfl, ?_⟩
      rcases huntouched with rfl | ⟨hnone, -⟩
      · rfl
      · exact absurd hnone hunused
  · rw [Farm.persistLocked, Program.final, persistState_of_not_fits disk hfits]
    exact ⟨disk, rfl, rfl⟩

theorem working_of_persisting {farm : Farm} {op : Op} {pid : ℕ} {io : PersistIo} {roster : Roster}
    (hworking : Working pid op) (h : persisting? codec farm op = some (io, roster)) :
    io = .working pid := by
  cases op with
  | pair io' now reg digest label =>
    rw [persisting?] at h
    split at h
    · cases h
    · exact (congrArg Prod.fst (Option.some.inj h)).symm.trans hworking
  | remove io' nodeId =>
    rw [persisting?] at h
    split at h
    · exact (congrArg Prod.fst (Option.some.inj h)).symm.trans hworking
    · cases h
  | register now reg => cases h
  | heartbeat now nodeId node auth => cases h
  | list now => cases h
  | onlineDescriptions now => cases h
  | prune now => cases h

theorem succeeds_iff {farm : Farm} {op : Op} {io : PersistIo} {roster : Roster}
    (h : persisting? codec farm op = some (io, roster)) :
    Succeeds codec farm op ↔ (Farm.persistLocked codec io roster farm.state).1 = .ok () := by
  cases op with
  | pair io' now reg digest label =>
    rw [persisting?] at h
    split at h
    · cases h
    · rename_i hnew
      obtain ⟨rfl, rfl⟩ : io' = io ∧
          withPaired codec now reg digest label (prune now farm.inner) = roster := by
        simpa using h
      rw [Succeeds, pair_of_new io' digest label (Option.not_isSome_iff_eq_none.mp hnew)]
      dsimp only
      split <;> rename_i hpersist <;> simp [hpersist]
  | remove io' nodeId =>
    rw [persisting?] at h
    split at h
    · rename_i hrow
      obtain ⟨rfl, rfl⟩ : io' = io ∧ farm.inner.erase nodeId = roster := by simpa using h
      obtain ⟨row, hrow⟩ := Option.isSome_iff_exists.mp hrow
      rw [Succeeds, remove_of_row io' hrow]
      split <;> rename_i hpersist <;> simp [hpersist]
    · cases h
  | register now reg => cases h
  | heartbeat now nodeId node auth => cases h
  | list now => cases h
  | onlineDescriptions now => cases h
  | prune now => cases h

/-! ## The leftover -/

/-- What is in the directory under the temporary name of a process. -/
def HasTemp (location : Location) (pid : ℕ) (temp : Option (Option Value)) (farm : Farm) : Prop :=
  ∃ disk, farm.state = some (location, disk) ∧ disk.temps.get? pid = temp

theorem hasTemp_step {location : Location} {farm : Farm} {op : Op} {pid : ℕ}
    {temp : Option (Option Value)} (hworking : Working pid op)
    (h : HasTemp location pid temp farm) : HasTemp location pid temp (step codec farm op) := by
  obtain ⟨disk, hstate, htemp⟩ := h
  rw [HasTemp, state_step]
  cases hpersisting : persisting? codec farm op with
  | none => exact ⟨disk, hstate, htemp⟩
  | some call =>
    obtain ⟨io, roster⟩ := call
    obtain rfl := working_of_persisting hworking hpersisting
    obtain ⟨after, hafter, hsame⟩ := temps_persistLocked codec pid roster location disk
    rw [← hstate] at hafter
    exact ⟨after, hafter, hsame.trans htemp⟩

theorem hasTemp_run {location : Location} {farm : Farm} {ops : List Op} {pid : ℕ}
    {temp : Option (Option Value)} (hworking : ∀ op ∈ ops, Working pid op)
    (h : HasTemp location pid temp farm) :
    HasTemp location pid temp (Run.run (step codec) farm ops) := by
  induction ops generalizing farm with
  | nil => exact h
  | cons op ops ih =>
    obtain ⟨hop, hops⟩ := List.forall_mem_cons.mp hworking
    exact ih hops (hasTemp_step hop h)

/-- Where the disk works, what can be persisted is persisted exactly if there is no leftover. -/
theorem succeeds_iff_of_hasTemp {location : Location} {farm : Farm} {op : Op} {pid : ℕ}
    {temp : Option (Option Value)} (hworking : Working pid op) (hop : Admissible codec farm op)
    (h : HasTemp location pid temp farm) : Succeeds codec farm op ↔ temp = none := by
  obtain ⟨io, roster, hpersisting, hfits⟩ := hop
  obtain ⟨disk, hstate, rfl⟩ := h
  obtain rfl := working_of_persisting hworking hpersisting
  rw [succeeds_iff hpersisting, hstate, persistLocked_eq_ok_iff, persists_working_iff]
  exact and_iff_right hfits

/-- After a crash the hub starts with the old identities or the new ones, and from then on every
pairing and removal succeeds, or none, according to whether the crash has left a temporary file of
the process id that the hub has now. -/
theorem crash_recovers_iff {location : Location} {farm : Farm} {op : Op} {before left : Disk}
    {roster : Roster} (h : CrashesIn codec location farm op before roster left) {io : LoadIo}
    (hio : io.Works) (now : Instant) (pid : ℕ) :
    ∃ restarted, Farm.open location io now left = .ok restarted ∧
      (reopened location io now before = .ok restarted.inner ∨
        restarted.inner = offline (staleAt now) roster) ∧
      ∀ ops later, (∀ op ∈ ops, Working pid op) → Working pid later →
        Admissible codec (Run.run (step codec) restarted ops) later →
        (Succeeds codec (Run.run (step codec) restarted ops) later ↔
          left.temps.get? pid = none) := by
  obtain ⟨restarted, hopen, hstate, hloaded⟩ := h.opens hio now
  refine ⟨restarted, hopen, hloaded, fun ops later hops hlater hadmissible ↦ ?_⟩
  have hstart : HasTemp location pid (left.temps.get? pid) restarted := ⟨left, hstate, rfl⟩
  exact succeeds_iff_of_hasTemp hlater hadmissible (hasTemp_run hops hstart)

/-! ## A container -/

/-- The directory after a crash in the first pairing: process 7 has created its temporary file. -/
def crashedDisk : Disk := withTemp (.working 7) none ⟨none, .empty⟩

def firstRoster : Roster :=
  withPaired .compact 0 pairingReg (Vector.replicate 32 1) "desk" .empty

theorem fits_firstRoster :
    Codec.compact.size (persistedFarm firstRoster).toValue ≤ maxFarmStateBytes := by
  decide +kernel

theorem crashesIn_firstPairing : CrashesIn .compact stateAt firstStart
    (firstPairing (.working 7)) ⟨none, .empty⟩ firstRoster crashedDisk where
  reached := ⟨_, _, _, firstStart, [], open_firstStart, by simp, rfl⟩
  state := rfl
  routed := by
    have h : checkPairing pairingReg = none := by decide +kernel
    exact h
  call := by
    refine ⟨.working 7, ?_, crashedDisk, ?_, .inr rfl, fun _ h ↦ .inr h⟩
    · rw [firstPairing, persisting?, if_neg (by decide +kernel)]
      rfl
    · have hrenames : Renames .compact (.working 7) (persistedFarm firstRoster).toValue
          ⟨none, .empty⟩ := (persists_working_iff.mpr ⟨fits_firstRoster, rfl⟩).renames
      rw [Program.stops, persistState_of_renames hrenames]
      simp [crashedDisk]

/-- The hub as it starts after the crash. -/
def restartedHub : Farm := ⟨.empty, some (stateAt, crashedDisk)⟩

theorem admissible_firstPairing (pid : ℕ) :
    Admissible .compact restartedHub (firstPairing (.working pid)) := by
  refine ⟨.working pid, firstRoster, ?_, fits_firstRoster⟩
  have hnew : ((prune 0 restartedHub.inner).get? (assignedId pairingReg)).isSome = false := rfl
  rw [firstPairing, persisting?, hnew]
  rfl

theorem crash_recovers_under_new_pid :
    ∃ restarted, Farm.open stateAt ⟨.ok (), .ok (), ""⟩ 0 crashedDisk = .ok restarted ∧
      (reopened stateAt ⟨.ok (), .ok (), ""⟩ 0 ⟨none, .empty⟩ = .ok restarted.inner ∨
        restarted.inner = offline (staleAt 0) firstRoster) ∧
      ∀ ops later, (∀ op ∈ ops, Working 8 op) → Working 8 later →
        Admissible .compact (Run.run (step .compact) restarted ops) later →
        (Succeeds .compact (Run.run (step .compact) restarted ops) later ↔
          crashedDisk.temps.get? 8 = none) :=
  crash_recovers_iff crashesIn_firstPairing ⟨rfl, rfl⟩ 0 8

/-- After a crash and a restart under the same process id, no pairing succeeds. -/
theorem crash_blocks_same_pid :
    ¬ ∀ location farm op before roster left,
      CrashesIn .compact location farm op before roster left →
      ∀ io, LoadIo.Works io → ∀ now pid,
        ∃ restarted, Farm.open location io now left = .ok restarted ∧
          (reopened location io now before = .ok restarted.inner ∨
            restarted.inner = offline (staleAt now) roster) ∧
          ∀ later, Working pid later → Admissible .compact restarted later →
            Succeeds .compact restarted later := by
  intro hclaim
  obtain ⟨restarted, hopen, -, hlater⟩ := hclaim _ _ _ _ _ _ crashesIn_firstPairing
    ⟨.ok (), .ok (), ""⟩ ⟨rfl, rfl⟩ 0 7
  have hrestarted : Farm.open stateAt ⟨.ok (), .ok (), ""⟩ 0 crashedDisk = .ok restartedHub := rfl
  obtain rfl : restartedHub = restarted := Except.ok.inj (hrestarted.symm.trans hopen)
  have htemp : HasTemp stateAt 7 (some none) restartedHub := ⟨crashedDisk, rfl, rfl⟩
  have hworking : Working 7 (firstPairing (.working 7)) := rfl
  have hsucceeds := hlater _ hworking (admissible_firstPairing 7)
  cases (succeeds_iff_of_hasTemp hworking (admissible_firstPairing 7) htemp).mp hsucceeds

end Cameo.Hub
