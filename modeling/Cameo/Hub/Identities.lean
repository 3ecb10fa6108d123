import Cameo.Hub.Reload

/-!
# Durable identities

Whatever its disk answers, the state file of a running hub can be opened again: it holds the paired
rows of one of the rosters it has had, each under the id that its registration derives.  In a run
whose pairings and removals all succeed below the node ceiling, it holds those of the present
roster.
-/

namespace Cameo.Hub

open Json Library Library.Durable

variable {codec : Codec}

/-! ## Persisting a roster -/

theorem Untouched.file_eq {io : PersistIo} {disk stop : Disk} (h : Untouched io disk stop) :
    stop.file = disk.file := by
  rcases h with rfl | ⟨-, content, rfl⟩
  · rfl
  · rfl

/-- A call that gets past the rename leaves the roster in the file, whatever it returns. -/
theorem persistLocked_of_renames {io : PersistIo} {roster : Roster} {location : Location}
    {disk : Disk} (h : Renames codec io (persistedFarm roster).toValue disk) :
    Farm.persistLocked codec io roster (some (location, disk)) =
      (explain ("syncing farm state directory " ++ location.parent) io.syncDirectory,
        some (location, committed codec (persistedFarm roster).toValue disk)) := by
  rw [Farm.persistLocked, Program.final, persistState_of_renames h]
  rfl

/-- A call that does not get past the rename fails and leaves the file as it is. -/
theorem persistLocked_of_not_renames {io : PersistIo} {roster : Roster} {disk : Disk}
    (location : Location) (h : ¬ Renames codec io (persistedFarm roster).toValue disk) :
    ∃ e stop, Farm.persistLocked codec io roster (some (location, disk)) =
        (.error e, some (location, stop)) ∧ Untouched io disk stop := by
  obtain ⟨e, passed, hcourse, huntouched⟩ := persistState_of_not_renames location h
  refine ⟨e, passed.getLastD disk, ?_, ?_⟩
  · rw [Farm.persistLocked, Program.final, hcourse]
  · rcases List.mem_cons.mp (List.getLastD_mem_cons : passed.getLastD disk ∈ disk :: passed) with
      hsame | hpassed
    · exact .inl hsame
    · exact huntouched _ hpassed

/-- After a call the file is the old one or holds the roster. -/
theorem persistLocked_file (codec : Codec) (io : PersistIo) (roster : Roster)
    (location : Location) (disk : Disk) :
    ∃ after, (Farm.persistLocked codec io roster (some (location, disk))).2 =
        some (location, after) ∧
      (after.file = disk.file ∨ Holds after.file (persistedFarm roster)) := by
  by_cases h : Renames codec io (persistedFarm roster).toValue disk
  · rw [persistLocked_of_renames h]
    exact ⟨_, rfl, .inr (holds_committedFile rfl h.prepares.fits)⟩
  · obtain ⟨e, stop, hpersist, huntouched⟩ := persistLocked_of_not_renames location h
    rw [hpersist]
    exact ⟨stop, rfl, .inl huntouched.file_eq⟩

/-- After a successful call the file holds the roster. -/
theorem persistLocked_ok {io : PersistIo} {roster : Roster} {location : Location} {disk : Disk}
    (h : (Farm.persistLocked codec io roster (some (location, disk))).1 = .ok ()) :
    ∃ after, (Farm.persistLocked codec io roster (some (location, disk))).2 =
        some (location, after) ∧ Holds after.file (persistedFarm roster) := by
  by_cases hrenames : Renames codec io (persistedFarm roster).toValue disk
  · rw [persistLocked_of_renames hrenames]
    exact ⟨_, rfl, holds_committedFile rfl hrenames.prepares.fits⟩
  · obtain ⟨e, stop, hpersist, -⟩ := persistLocked_of_not_renames location hrenames
    rw [hpersist] at h
    cases h

/-! ## Ids that derive again -/

/-- A pairing has passed the checks of its route. -/
def Routed : Op → Prop
  | .pair _ _ reg _ _ => checkPairing reg = none
  | .register _ _ | .heartbeat _ _ _ _ | .remove _ _ | .list _ | .onlineDescriptions _
  | .prune _ => True

theorem rederives_of_rowChange {farm : Farm} {op : Op} {after : Roster} (hrouted : Routed op)
    (h : Rederives farm.inner)
    (hchange : ∀ id, RowChange codec farm op id ((op.found farm).get? id) (after.get? id)) :
    Rederives after := by
  intro id e hafter hpaired
  have hrow := hchange id
  rw [hafter] at hrow
  generalize hfound : (op.found farm).get? id = before at hrow
  cases hrow with
  | kept => exact h id e (get?_of_get?_found hfound) hpaired
  | @refreshed e _ _ _ name version hnamed node now =>
    obtain ⟨rfl, rfl⟩ := hnamed hpaired
    obtain ⟨hnodeId, hderived⟩ := h id e (get?_of_get?_found hfound) hpaired
    exact ⟨hnodeId, (assignedId_withNode e.reg node).trans hderived⟩
  | @enrolled _ reg hop hid hreg henrollment =>
    cases op with
    | pair io now reg' digest label =>
      obtain rfl : reg' = reg := Option.some.inj hop
      rw [hreg, hid]
      exact ⟨rfl, assignedId_of_checkPairing hrouted codec⟩
    | register now reg' =>
      have hlegacy : Enrollment.legacyToken = e.enrollment := Option.some.inj henrollment
      rw [← hlegacy] at hpaired
      cases hpaired
    | heartbeat now nodeId node auth => cases hop
    | remove io nodeId => cases hop
    | list now => cases hop
    | onlineDescriptions now => cases hop
    | prune now => cases hop

theorem rederives_erase {roster : Roster} (h : Rederives roster) (id : String) :
    Rederives (roster.erase id) := by
  intro id' e hrow hpaired
  rw [Ordered.Map.get?_erase] at hrow
  split at hrow
  · cases hrow
  · exact h id' e hrow hpaired

def withPaired (codec : Codec) (now : Instant) (reg : Registration) (digest : Digest)
    (label : String) (roster : Roster) : Roster :=
  (makeRoom roster).insert (assignedId reg)
    ⟨storedRegistration codec reg, now, .paired digest label⟩

theorem rederives_withPaired {farm : Farm} {now : Instant} {reg : Registration} {digest : Digest}
    {label : String} (hrouted : checkPairing reg = none)
    (h : Rederives farm.inner) (hnew : (prune now farm.inner).get? (assignedId reg) = none) :
    Rederives (withPaired codec now reg digest label (prune now farm.inner)) := by
  have hop : (Op.pair (.working 0) now reg digest label).registers? = some reg := rfl
  have hroute : Routed (.pair (.working 0) now reg digest label) := hrouted
  have hchange (id : String) : RowChange codec farm (.pair (.working 0) now reg digest label) id
      ((prune now farm.inner).get? id)
      ((withPaired codec now reg digest label (prune now farm.inner)).get? id) :=
    rowChange_enroll hop hnew now rfl id
  exact rederives_of_rowChange hroute h hchange

theorem pair_of_new {farm : Farm} (io : PersistIo) {now : Instant} {reg : Registration}
    (digest : Digest) (label : String)
    (hnew : (prune now farm.inner).get? (assignedId reg) = none) :
    farm.pair codec io now reg digest label =
      let roster := withPaired codec now reg digest label (prune now farm.inner)
      match Farm.persistLocked codec io roster farm.state with
      | (.error e, state) => (.error e, ⟨roster.erase (assignedId reg), state⟩)
      | (.ok (), state) => (.ok (assignedId reg), ⟨roster, state⟩) := by
  have hnone : ¬ ((prune now farm.inner).get? (assignedId reg)).isSome = true := by simp [hnew]
  unfold Farm.pair
  simp only
  rw [if_neg hnone]
  rfl

theorem remove_of_row {farm : Farm} (io : PersistIo) {nodeId : String} {row : Enrolled}
    (hrow : farm.inner.get? nodeId = some row) :
    farm.remove codec io nodeId =
      match Farm.persistLocked codec io (farm.inner.erase nodeId) farm.state with
      | (.error e, state) => (.error e, ⟨farm.inner, state⟩)
      | (.ok (), state) => (.ok true, ⟨farm.inner.erase nodeId, state⟩) := by
  unfold Farm.remove
  simp only [hrow]
  rcases Farm.persistLocked codec io (farm.inner.erase nodeId) farm.state with ⟨result, state⟩
  cases result with
  | error e => simp [Ordered.Map.insert_erase hrow]
  | ok done => simp

theorem pair_of_enrolled {farm : Farm} (io : PersistIo) {now : Instant} {reg : Registration}
    (digest : Digest) (label : String)
    (h : ((prune now farm.inner).get? (assignedId reg)).isSome = true) :
    farm.pair codec io now reg digest label =
      (.error ("node_id '" ++ assignedId reg ++
        "' is already enrolled; remove it before pairing a replacement"),
        { farm with inner := prune now farm.inner }) :=
  if_pos h

theorem state_pair_of_new {farm : Farm} (io : PersistIo) {now : Instant} {reg : Registration}
    (digest : Digest) (label : String)
    (hnew : (prune now farm.inner).get? (assignedId reg) = none) :
    (farm.pair codec io now reg digest label).2.state = (Farm.persistLocked codec io
      (withPaired codec now reg digest label (prune now farm.inner)) farm.state).2 := by
  rw [pair_of_new io digest label hnew]
  dsimp only
  split <;> rename_i hpersist <;> rw [hpersist]

theorem remove_of_unknown {farm : Farm} (io : PersistIo) {nodeId : String}
    (h : farm.inner.get? nodeId = none) : farm.remove codec io nodeId = (.ok false, farm) := by
  unfold Farm.remove
  rw [h]

theorem state_remove_of_row {farm : Farm} (io : PersistIo) {nodeId : String} {row : Enrolled}
    (hrow : farm.inner.get? nodeId = some row) : (farm.remove codec io nodeId).2.state =
      (Farm.persistLocked codec io (farm.inner.erase nodeId) farm.state).2 := by
  rw [remove_of_row io hrow]
  split <;> rename_i hpersist <;> rw [hpersist]

/-- Operations other than pairings and removals have nothing to persist. -/
theorem state_register (farm : Farm) (now : Instant) (reg : Registration) :
    (farm.register codec now reg).2.state = farm.state := by
  unfold Farm.register
  dsimp only
  split
  · split <;> rfl
  · rfl

theorem state_heartbeat (farm : Farm) (now : Instant) (nodeId : String) (node : Option Value)
    (auth : HeartbeatAuth) : (farm.heartbeat codec now nodeId node auth).2.state = farm.state := by
  unfold Farm.heartbeat
  dsimp only
  split
  · split <;> rfl
  · rfl

variable (codec) in
/-- The roster that the operation persists, with the answers of the disk. -/
def persisting? (farm : Farm) : Op → Option (PersistIo × Roster)
  | .pair io now reg digest label =>
    if ((prune now farm.inner).get? (assignedId reg)).isSome then none
    else some (io, withPaired codec now reg digest label (prune now farm.inner))
  | .remove io nodeId =>
    if (farm.inner.get? nodeId).isSome then some (io, farm.inner.erase nodeId) else none
  | .register _ _ | .heartbeat _ _ _ _ | .list _ | .onlineDescriptions _ | .prune _ => none

/-- What an operation does to the directory. -/
theorem state_step (farm : Farm) (op : Op) :
    (step codec farm op).state =
      match persisting? codec farm op with
      | some (io, roster) => (Farm.persistLocked codec io roster farm.state).2
      | none => farm.state := by
  cases op with
  | pair io now reg digest label =>
    change (farm.pair codec io now reg digest label).2.state = _
    cases hrow : (prune now farm.inner).get? (assignedId reg) with
    | some e =>
      have henrolled : ((prune now farm.inner).get? (assignedId reg)).isSome = true := by
        rw [hrow]
        rfl
      rw [pair_of_enrolled io digest label henrolled, persisting?, if_pos henrolled]
    | none =>
      rw [state_pair_of_new io digest label hrow, persisting?, if_neg (by simp [hrow])]
  | remove io nodeId =>
    change (farm.remove codec io nodeId).2.state = _
    cases hrow : farm.inner.get? nodeId with
    | none => rw [remove_of_unknown io hrow, persisting?, if_neg (by simp [hrow])]
    | some row => rw [state_remove_of_row io hrow, persisting?, if_pos (by simp [hrow])]
  | register now reg => exact state_register farm now reg
  | heartbeat now nodeId node auth => exact state_heartbeat farm now nodeId node auth
  | list now => rfl
  | onlineDescriptions now => rfl
  | prune now => rfl

/-! ## The ceiling -/

theorem size_makeRoom_le {roster : Roster} (h : roster.size ≤ maxNodes) :
    (makeRoom roster).size + 1 ≤ maxNodes := by
  unfold makeRoom
  split
  · rename_i hfull
    unfold evictOldest
    cases holdest : oldest? roster with
    | none =>
      rw [oldest?, List.argmin_eq_none] at holdest
      have hempty : roster.size = 0 := by rw [Ordered.Map.size, holdest]; rfl
      simp only [maxNodes] at *
      omega
    | some entry =>
      have hsize := Ordered.Map.size_erase_of_get? (get?_of_oldest? holdest)
      dsimp only
      omega
  · omega

theorem makeRoom_of_lt {roster : Roster} (h : roster.size < maxNodes) : makeRoom roster = roster :=
  if_neg (not_le.mpr h)

theorem size_insert_makeRoom_le {roster : Roster} (h : roster.size ≤ maxNodes) (id : String)
    (row : Enrolled) : ((makeRoom roster).insert id row).size ≤ maxNodes :=
  (Ordered.Map.size_insert_le _ _ _).trans (size_makeRoom_le h)

theorem size_prune_le (now : Instant) (roster : Roster) : (prune now roster).size ≤ roster.size :=
  Ordered.Map.size_retain_le _ _

theorem size_register_le {farm : Farm} {now : Instant}
    (h : (prune now farm.inner).size ≤ maxNodes) (reg : Registration) :
    (farm.register codec now reg).2.inner.size ≤ maxNodes := by
  unfold Farm.register
  dsimp only
  split
  · rename_i e hrow
    split
    · exact h
    · exact (Ordered.Map.size_insert_of_mem (by simp [hrow]) _).le.trans h
  · exact size_insert_makeRoom_le h _ _

theorem size_pair_le {farm : Farm} {now : Instant} (h : (prune now farm.inner).size ≤ maxNodes)
    (io : PersistIo) (reg : Registration) (digest : Digest) (label : String) :
    (farm.pair codec io now reg digest label).2.inner.size ≤ maxNodes := by
  unfold Farm.pair
  dsimp only
  split
  · exact h
  · split
    · exact (Ordered.Map.size_erase_le _ _).trans (size_insert_makeRoom_le h _ _)
    · exact size_insert_makeRoom_le h _ _

theorem size_heartbeat_le {farm : Farm} {now : Instant}
    (h : (prune now farm.inner).size ≤ maxNodes) (nodeId : String) (node : Option Value)
    (auth : HeartbeatAuth) :
    (farm.heartbeat codec now nodeId node auth).2.inner.size ≤ maxNodes := by
  unfold Farm.heartbeat
  dsimp only
  split
  · rename_i e hrow
    split
    · exact (Ordered.Map.size_insert_of_mem (by simp [hrow]) _).le.trans h
    · exact h
  · exact h

theorem size_remove_le {farm : Farm} (h : farm.inner.size ≤ maxNodes) (io : PersistIo)
    (nodeId : String) : (farm.remove codec io nodeId).2.inner.size ≤ maxNodes := by
  cases hrow : farm.inner.get? nodeId with
  | none => rwa [remove_of_unknown io hrow]
  | some row =>
    rw [remove_of_row io hrow]
    split
    · exact h
    · exact (Ordered.Map.size_erase_le _ _).trans h

/-- No operation takes the roster over the ceiling. -/
theorem size_step_le {farm : Farm} (h : farm.inner.size ≤ maxNodes) (op : Op) :
    (step codec farm op).inner.size ≤ maxNodes := by
  have hprune (now : Instant) : (prune now farm.inner).size ≤ maxNodes :=
    (size_prune_le now farm.inner).trans h
  cases op with
  | register now reg => exact size_register_le (hprune now) reg
  | pair io now reg digest label => exact size_pair_le (hprune now) io reg digest label
  | heartbeat now nodeId node auth => exact size_heartbeat_le (hprune now) nodeId node auth
  | remove io nodeId => exact size_remove_le h io nodeId
  | list now => exact hprune now
  | onlineDescriptions now => exact hprune now
  | prune now => exact hprune now

/-! ## The file of a running hub -/

/-- A farm under the ceiling whose paired rows derive their ids again and whose file opens. -/
structure Sound (farm : Farm) : Prop where
  room : farm.inner.size ≤ maxNodes
  derives : Rederives farm.inner
  file : ∀ location disk, farm.state = some (location, disk) →
    ∃ state, Holds disk.file state ∧ Intact state.nodes

theorem rederives_loaded {stale : Instant} {nodes : List PersistedNode} {roster : Roster}
    (hroster : Rederives roster) (hnodes : ∀ node ∈ nodes, Loadable node) :
    Rederives (loaded stale nodes roster) := by
  induction nodes generalizing roster with
  | nil => exact hroster
  | cons node rest ih =>
    obtain ⟨hnode, hrest⟩ := List.forall_mem_cons.mp hnodes
    refine ih ?_ hrest
    intro id e hrow hpaired
    rw [Ordered.Map.get?_insert] at hrow
    split at hrow
    · rename_i hid
      obtain rfl := Option.some.inj hrow
      exact ⟨hid, hnode.derived.trans hid⟩
    · exact hroster id e hrow hpaired

theorem size_loaded_le (stale : Instant) (nodes : List PersistedNode) (roster : Roster) :
    (loaded stale nodes roster).size ≤ roster.size + nodes.length := by
  induction nodes generalizing roster with
  | nil => exact le_rfl
  | cons node rest ih =>
    have hinsert := Ordered.Map.size_insert_le roster node.reg.nodeId (node.row stale)
    have hrest := ih (roster.insert node.reg.nodeId (node.row stale))
    rw [List.length_cons]
    exact hrest.trans (by omega)

theorem sound_open {location : Location} {io : LoadIo} {now : Instant} {disk : Disk} {farm : Farm}
    (h : Farm.open location io now disk = .ok farm) : Sound farm := by
  obtain ⟨state, hload, hnodes, hstate⟩ := open_eq_ok_iff.mp h
  obtain ⟨hintact, hroster⟩ := openNodes_eq_ok_iff.mp hnodes
  refine ⟨?_, ?_, ?_⟩
  · rw [← hroster]
    have hsize := size_loaded_le (staleAt now) state.nodes .empty
    exact hsize.trans ((Nat.zero_add _).le.trans hintact.room)
  · rw [← hroster]
    exact rederives_loaded (fun _ _ hrow ↦ by cases hrow) hintact.loadable
  · intro location' disk' hstate'
    obtain ⟨rfl, rfl⟩ : location = location' ∧ disk = disk' := by
      simpa using hstate.symm.trans hstate'
    exact ⟨state, holds_of_loadState hload, hintact⟩

/-- Only rosters under the ceiling are persisted, and only ids that derive again. -/
theorem sound_persisting {farm : Farm} {op : Op} {io : PersistIo} {roster : Roster}
    (hrouted : Routed op) (h : Sound farm)
    (hpersisting : persisting? codec farm op = some (io, roster)) :
    roster.size ≤ maxNodes ∧ Rederives roster := by
  cases op with
  | pair io' now reg digest label =>
    rw [persisting?] at hpersisting
    split at hpersisting
    · cases hpersisting
    · rename_i hnew
      rw [Option.not_isSome_iff_eq_none] at hnew
      obtain ⟨-, rfl⟩ : io' = io ∧
          withPaired codec now reg digest label (prune now farm.inner) = roster := by
        simpa using hpersisting
      exact ⟨size_insert_makeRoom_le ((size_prune_le now farm.inner).trans h.room) _ _,
        rederives_withPaired hrouted h.derives hnew⟩
  | remove io' nodeId =>
    rw [persisting?] at hpersisting
    split at hpersisting
    · obtain ⟨-, rfl⟩ : io' = io ∧ farm.inner.erase nodeId = roster := by
        simpa using hpersisting
      exact ⟨(Ordered.Map.size_erase_le _ _).trans h.room, rederives_erase h.derives nodeId⟩
    · cases hpersisting
  | register now reg => cases hpersisting
  | heartbeat now nodeId node auth => cases hpersisting
  | list now => cases hpersisting
  | onlineDescriptions now => cases hpersisting
  | prune now => cases hpersisting

theorem sound_step {farm : Farm} {op : Op} (hrouted : Routed op) (h : Sound farm) :
    Sound (step codec farm op) := by
  refine ⟨size_step_le h.room op, ?_, ?_⟩
  · exact rederives_of_rowChange hrouted h.derives (step_row codec farm op)
  intro location disk hstate
  rw [state_step] at hstate
  cases hpersisting : persisting? codec farm op with
  | none =>
    rw [hpersisting] at hstate
    exact h.file location disk hstate
  | some call =>
    obtain ⟨io, roster⟩ := call
    obtain ⟨hroom, hderives⟩ := sound_persisting hrouted h hpersisting
    rw [hpersisting] at hstate
    cases hbefore : farm.state with
    | none =>
      rw [hbefore] at hstate
      cases hstate
    | some dir =>
      rw [hbefore] at hstate
      obtain ⟨after, hafter, hfile⟩ := persistLocked_file codec io roster dir.1 dir.2
      obtain ⟨rfl, rfl⟩ : dir.1 = location ∧ after = disk := by
        simpa using hafter.symm.trans hstate
      rcases hfile with hsame | hholds
      · rw [hsame]
        exact h.file _ _ hbefore
      · exact ⟨_, hholds, intact_persistedFarm hroom hderives⟩

variable (codec) in
/-- The farms of a hub that keeps its identities at a location: what a sequence of operations makes
of a farm that it has opened there, each pairing being checked by its route. -/
def Reached (location : Location) (farm : Farm) : Prop :=
  ∃ io now disk start ops, Farm.open location io now disk = .ok start ∧ (∀ op ∈ ops, Routed op) ∧
    farm = Run.run (step codec) start ops

theorem Reached.sound {location : Location} {farm : Farm} (h : Reached codec location farm) :
    Sound farm := by
  obtain ⟨io, now, disk, start, ops, hopen, hrouted, rfl⟩ := h
  have hstart : Sound start := sound_open hopen
  clear hopen
  induction ops generalizing start with
  | nil => exact hstart
  | cons op ops ih =>
    obtain ⟨hop, hops⟩ := List.forall_mem_cons.mp hrouted
    exact ih _ hops (sound_step hop hstart)

end Cameo.Hub
