import Cameo.Hub.Farm
import Cameo.Library.Run

/-!
# What happens to a row

Every operation on the farm first drops the nodes that have been silent for too long and then
changes at most two rows: its own, and the one it evicts from a full roster.  `RowChange` lists what
an operation can do to the row of an id; what a run does to rows follows from it.
-/

namespace Cameo.Hub

open Json Library

/-- The operations on a farm, with their readings of the clock and the answers of the disk. -/
inductive Op where
  | register (now : Instant) (reg : Registration)
  | pair (io : PersistIo) (now : Instant) (reg : Registration) (digest : Digest) (label : String)
  | heartbeat (now : Instant) (nodeId : String) (node : Option Value) (auth : HeartbeatAuth)
  | remove (io : PersistIo) (nodeId : String)
  | list (now : Instant)
  | onlineDescriptions (now : Instant)
  | prune (now : Instant)

namespace Op

/-- The roster as the operation finds it, without the nodes that it drops for their silence. -/
def found (farm : Farm) : Op → Roster
  | remove _ _ => farm.inner
  | register now _ | pair _ now _ _ _ | heartbeat now _ _ _ | list now | onlineDescriptions now
  | prune now => Hub.prune now farm.inner

def registers? : Op → Option Registration
  | register _ reg | pair _ _ reg _ _ => some reg
  | heartbeat _ _ _ _ | remove _ _ | list _ | onlineDescriptions _ | prune _ => none

def enrolls? (op : Op) : Option String := op.registers?.map assignedId

def enrollment? : Op → Option Enrollment
  | register _ _ => some .legacyToken
  | pair _ _ _ digest label => some (.paired digest label)
  | heartbeat _ _ _ _ | remove _ _ | list _ | onlineDescriptions _ | prune _ => none

/-- The credential path of an operation that refreshes rows: a registration comes with the shared
farm token. -/
def auth? : Op → Option HeartbeatAuth
  | register _ _ => some .legacyToken
  | heartbeat _ _ _ auth => some auth
  | pair _ _ _ _ _ | remove _ _ | list _ | onlineDescriptions _ | prune _ => none

end Op

variable (codec : Codec)

def step (farm : Farm) : Op → Farm
  | .register now reg => (farm.register codec now reg).2
  | .pair io now reg digest label => (farm.pair codec io now reg digest label).2
  | .heartbeat now nodeId node auth => (farm.heartbeat codec now nodeId node auth).2
  | .remove io nodeId => (farm.remove codec io nodeId).2
  | .list now => (farm.list now).2
  | .onlineDescriptions now => (farm.onlineDescriptions now).2
  | .prune now => { farm with inner := prune now farm.inner }

/-- The operation removes an id, and the removal is persisted. -/
def Removes (farm : Farm) (id : String) (op : Op) : Prop :=
  ∃ io, op = .remove io id ∧ (farm.remove codec io id).1 = .ok true

/-- The row that the operation evicts: the least recently seen one, if a new id comes into a full
roster. -/
def evicted? (farm : Farm) (op : Op) : Option (String × Enrolled) :=
  match op.enrolls? with
  | some id =>
    if ((op.found farm).get? id).isNone ∧ (op.found farm).size ≥ maxNodes then
      oldest? (op.found farm)
    else none
  | none => none

/-- What an operation can do to the row of an id. -/
inductive RowChange (farm : Farm) (op : Op) (id : String) : Option Enrolled → Option Enrolled → Prop
  | kept (row : Option Enrolled) : RowChange farm op id row row
  | refreshed {e : Enrolled} {auth : HeartbeatAuth} (hauth : op.auth? = some auth)
      (hcovers : auth.covers e.enrollment = true) {name version : String}
      (hnamed : e.enrollment.isPaired = true → name = e.reg.name ∧ version = e.reg.cameoVersion)
      (node : Value) (now : Instant) :
      RowChange farm op id (some e) (some { e with
        reg := { e.reg with name := name, cameoVersion := version, node := node }
        lastSeen := now })
  | evicted {e : Enrolled} (hevicted : evicted? farm op = some (id, e)) :
      RowChange farm op id (some e) none
  | enrolled {e : Enrolled} {reg : Registration} (hop : op.registers? = some reg)
      (hid : id = assignedId reg) (hreg : e.reg = storedRegistration codec reg)
      (henrollment : op.enrollment? = some e.enrollment) :
      RowChange farm op id none (some e)
  | removed {e : Enrolled} (hremoves : Removes codec farm id op) :
      RowChange farm op id (some e) none

/-! ## Making room -/

theorem get?_of_oldest? {roster : Roster} {entry : String × Enrolled}
    (h : oldest? roster = some entry) : roster.get? entry.1 = some entry.2 :=
  (roster.mem_entries_iff _ _).mp (List.argmin_mem h)

theorem get?_makeRoom (roster : Roster) (id : String) :
    (∃ e, (roster.size ≥ maxNodes ∧ oldest? roster = some (id, e)) ∧
        roster.get? id = some e ∧ (makeRoom roster).get? id = none) ∨
      (makeRoom roster).get? id = roster.get? id := by
  unfold makeRoom
  split
  · rename_i hfull
    unfold evictOldest
    cases holdest : oldest? roster with
    | none => exact .inr rfl
    | some entry =>
      dsimp only
      rw [Ordered.Map.get?_erase]
      by_cases hid : id = entry.1
      · left
        subst hid
        exact ⟨entry.2, ⟨hfull, rfl⟩, get?_of_oldest? holdest, if_pos rfl⟩
      · exact .inr (if_neg hid)
  · exact .inr rfl

/-! ## Every operation -/

variable {codec}

/-- A new id is enrolled: the row of any id is kept, evicted or the new one. -/
theorem rowChange_enroll {farm : Farm} {op : Op} {reg : Registration}
    (hop : op.registers? = some reg) (hnew : (op.found farm).get? (assignedId reg) = none)
    (now : Instant) {enrollment : Enrollment} (henrollment : op.enrollment? = some enrollment)
    (id : String) :
    RowChange codec farm op id ((op.found farm).get? id)
      (((makeRoom (op.found farm)).insert (assignedId reg)
        ⟨storedRegistration codec reg, now, enrollment⟩).get? id) := by
  rw [Ordered.Map.get?_insert]
  by_cases hid : assignedId reg = id
  · subst hid
    rw [if_pos rfl, hnew]
    exact .enrolled hop rfl rfl henrollment
  · rw [if_neg hid]
    rcases get?_makeRoom (op.found farm) id with ⟨e, hfull, hrow, hgone⟩ | hkept
    · rw [hrow, hgone]
      refine .evicted ?_
      rw [evicted?, Op.enrolls?, hop]
      exact (if_pos ⟨by rw [hnew]; rfl, hfull.1⟩).trans hfull.2
    · rw [hkept]
      exact .kept _

/-- A row is replaced: every other row is kept. -/
theorem rowChange_insert {farm : Farm} {op : Op} {roster : Roster} {nodeId : String}
    {e row : Enrolled} (hrow : roster.get? nodeId = some e)
    (hchange : RowChange codec farm op nodeId (some e) (some row)) (id : String) :
    RowChange codec farm op id (roster.get? id) ((roster.insert nodeId row).get? id) := by
  rw [Ordered.Map.get?_insert]
  by_cases hid : nodeId = id
  · subst hid
    rw [if_pos rfl, hrow]
    exact hchange
  · rw [if_neg hid]
    exact .kept _

theorem rowChange_register (now : Instant) (reg : Registration) (farm : Farm) (id : String) :
    RowChange codec farm (.register now reg) id ((prune now farm.inner).get? id)
      ((farm.register codec now reg).2.inner.get? id) := by
  unfold Farm.register
  dsimp only
  split
  · rename_i e hrow
    split
    · exact .kept _
    · rename_i hlegacy
      refine rowChange_insert hrow (.refreshed rfl ?_ (fun h ↦ absurd h hlegacy) _ _) id
      cases henrollment : e.enrollment with
      | legacyToken => rfl
      | paired digest label => simp [henrollment, Enrollment.isPaired] at hlegacy
  · rename_i hnew
    have hop : (Op.register now reg).registers? = some reg := rfl
    exact rowChange_enroll hop hnew now rfl id

theorem rowChange_heartbeat (now : Instant) (nodeId : String) (node : Option Value)
    (auth : HeartbeatAuth) (farm : Farm) (id : String) :
    RowChange codec farm (.heartbeat now nodeId node auth) id ((prune now farm.inner).get? id)
      ((farm.heartbeat codec now nodeId node auth).2.inner.get? id) := by
  unfold Farm.heartbeat
  dsimp only
  split
  · rename_i e hrow
    split
    · rename_i hcovers
      exact rowChange_insert hrow (.refreshed rfl hcovers (fun _ ↦ ⟨rfl, rfl⟩) _ _) id
    · exact .kept _
  · exact .kept _

/-- A failed enrollment takes the new row back. -/
theorem rowChange_erase {farm : Farm} {op : Op} {before after : Roster} {nodeId : String}
    (hnew : before.get? nodeId = none)
    (h : ∀ id, RowChange codec farm op id (before.get? id) (after.get? id)) (id : String) :
    RowChange codec farm op id (before.get? id) ((after.erase nodeId).get? id) := by
  rw [Ordered.Map.get?_erase]
  by_cases hid : id = nodeId
  · rw [if_pos hid, hid, hnew]
    exact .kept _
  · rw [if_neg hid]
    exact h id

theorem rowChange_pair (io : PersistIo) (now : Instant) (reg : Registration) (digest : Digest)
    (label : String) (farm : Farm) (id : String) :
    RowChange codec farm (.pair io now reg digest label) id ((prune now farm.inner).get? id)
      ((farm.pair codec io now reg digest label).2.inner.get? id) := by
  unfold Farm.pair
  dsimp only
  split
  · exact .kept _
  · rename_i hnew
    rw [Option.not_isSome_iff_eq_none] at hnew
    have hop : (Op.pair io now reg digest label).registers? = some reg := rfl
    split
    · exact rowChange_erase hnew (rowChange_enroll hop hnew now rfl) id
    · exact rowChange_enroll hop hnew now rfl id

theorem rowChange_remove (io : PersistIo) (nodeId : String) (farm : Farm) (id : String) :
    RowChange codec farm (.remove io nodeId) id (farm.inner.get? id)
      ((farm.remove codec io nodeId).2.inner.get? id) := by
  have hremoves (h : (farm.remove codec io nodeId).1 = .ok true) :
      Removes codec farm nodeId (.remove io nodeId) := ⟨io, rfl, h⟩
  unfold Farm.remove at *
  cases hrow : farm.inner.get? nodeId with
  | none => exact .kept _
  | some row =>
    simp only [hrow] at hremoves
    dsimp only
    cases hpersist : Farm.persistLocked codec io (farm.inner.erase nodeId) farm.state with
    | mk result state =>
      simp only [hpersist] at hremoves
      cases result with
      | error e =>
        dsimp only
        rw [Ordered.Map.insert_erase hrow]
        exact .kept _
      | ok _ =>
        dsimp only
        rw [Ordered.Map.get?_erase]
        by_cases hid : id = nodeId
        · subst hid
          rw [if_pos rfl, hrow]
          exact .removed (hremoves rfl)
        · rw [if_neg hid]
          exact .kept _

/-- What one operation does to any row. -/
theorem step_row (codec : Codec) (farm : Farm) (op : Op) (id : String) :
    RowChange codec farm op id ((op.found farm).get? id) ((step codec farm op).inner.get? id) := by
  cases op with
  | register now reg => exact rowChange_register now reg farm id
  | pair io now reg digest label => exact rowChange_pair io now reg digest label farm id
  | heartbeat now nodeId node auth => exact rowChange_heartbeat now nodeId node auth farm id
  | remove io nodeId => exact rowChange_remove io nodeId farm id
  | list now => exact .kept _
  | onlineDescriptions now => exact .kept _
  | prune now => exact .kept _

/-- Age pruning leaves the rows that it keeps as they are. -/
theorem get?_found (farm : Farm) (op : Op) (id : String) :
    (op.found farm).get? id = farm.inner.get? id ∨
      ∃ e, farm.inner.get? id = some e ∧ e.enrollment.isPaired = false ∧
        (op.found farm).get? id = none := by
  have hprune (now : Instant) : (prune now farm.inner).get? id = farm.inner.get? id ∨
      ∃ e, farm.inner.get? id = some e ∧ e.enrollment.isPaired = false ∧
        (prune now farm.inner).get? id = none := by
    rw [prune, Ordered.Map.get?_retain]
    cases hrow : farm.inner.get? id with
    | none => exact .inl rfl
    | some e =>
      cases hsurvives : survives now e with
      | true => exact .inl (Option.filter_some_pos hsurvives)
      | false =>
        refine .inr ⟨e, rfl, ?_, Option.filter_some_neg (by simp [hsurvives])⟩
        rw [survives, Bool.or_eq_false_iff] at hsurvives
        exact hsurvives.1
  cases op with
  | remove io nodeId => exact .inl rfl
  | _ => exact hprune _

/-- Every operation finds the paired rows. -/
theorem get?_found_of_isPaired {farm : Farm} {id : String} {e : Enrolled} (op : Op)
    (hrow : farm.inner.get? id = some e) (hpaired : e.enrollment.isPaired = true) :
    (op.found farm).get? id = some e := by
  rcases get?_found farm op id with h | ⟨e', hrow', hlegacy, -⟩
  · exact h.trans hrow
  · cases hrow.symm.trans hrow'
    cases hlegacy.symm.trans hpaired

/-- What an operation finds was there before it. -/
theorem get?_of_get?_found {farm : Farm} {op : Op} {id : String} {e : Enrolled}
    (h : (op.found farm).get? id = some e) : farm.inner.get? id = some e := by
  rcases get?_found farm op id with hsame | ⟨e', -, -, hgone⟩
  · exact hsame.symm.trans h
  · cases hgone.symm.trans h

/-! ## The first credential wins -/

variable (codec) in
/-- The id is there once the operation has dropped the silent nodes, and still is at its end. -/
def StaysEnrolled (id : String) (farm : Farm) (op : Op) : Prop :=
  ((op.found farm).get? id).isSome = true ∧ ((step codec farm op).inner.get? id).isSome = true

/-- Two states of a row agree on where the node is called, with which key, and on its enrollment. -/
structure SameCredentials (e e' : Enrolled) : Prop where
  address : e'.reg.address = e.reg.address
  key : e'.reg.key = e.reg.key
  enrollment : e'.enrollment = e.enrollment

variable (codec) in
/-- An operation with the shared farm token changes neither the last sign of life nor the
description of a paired row. -/
def TokenLeavesPaired (farm : Farm) (op : Op) : Prop :=
  op.auth? = some .legacyToken → ∀ id e e', farm.inner.get? id = some e →
    e.enrollment.isPaired = true → (step codec farm op).inner.get? id = some e' →
    e'.lastSeen = e.lastSeen ∧ e'.reg.node = e.reg.node

theorem sameCredentials_step {farm : Farm} {op : Op} {id : String} {e : Enrolled}
    (hrow : farm.inner.get? id = some e) (hstays : StaysEnrolled codec id farm op) :
    ∃ e', (step codec farm op).inner.get? id = some e' ∧ SameCredentials e e' := by
  obtain ⟨found, hfound⟩ := Option.isSome_iff_exists.mp hstays.1
  obtain ⟨e', hafter⟩ := Option.isSome_iff_exists.mp hstays.2
  obtain rfl : found = e := Option.some.inj ((get?_of_get?_found hfound).symm.trans hrow)
  have hchange := step_row codec farm op id
  rw [hfound, hafter] at hchange
  refine ⟨e', hafter, ?_⟩
  cases hchange with
  | kept => exact ⟨rfl, rfl, rfl⟩
  | refreshed hauth hcovers hnamed node now => exact ⟨rfl, rfl, rfl⟩

theorem tokenLeavesPaired (farm : Farm) (op : Op) : TokenLeavesPaired codec farm op := by
  intro htoken id e e' hrow hpaired hafter
  have hchange := step_row codec farm op id
  rw [get?_found_of_isPaired op hrow hpaired, hafter] at hchange
  cases hchange with
  | kept => exact ⟨rfl, rfl⟩
  | refreshed hauth hcovers hnamed node now =>
    -- The farm token covers legacy rows only.
    cases Option.some.inj (htoken.symm.trans hauth)
    cases henrollment : e.enrollment with
    | legacyToken => simp [henrollment, Enrollment.isPaired] at hpaired
    | paired digest label => simp [henrollment, HeartbeatAuth.covers] at hcovers

/-- While an id stays enrolled, its callback address, its callback key and its enrollment never
change, and the shared farm token never touches a paired row. -/
theorem first_credential_wins (start : Farm) (ops : List Op) :
    (∀ id e, start.inner.get? id = some e →
      Run.Meets (step codec) (StaysEnrolled codec id) start ops →
      ∃ e', (Run.run (step codec) start ops).inner.get? id = some e' ∧ SameCredentials e e') ∧
    Run.Meets (step codec) (TokenLeavesPaired codec) start ops := by
  refine ⟨?_, Run.Meets.of_forall tokenLeavesPaired start ops⟩
  intro id e hrow hstays
  refine Run.invariant_run (fun farm ↦ ∃ e', farm.inner.get? id = some e' ∧ SameCredentials e e')
    ?_ ⟨e, hrow, rfl, rfl, rfl⟩ hstays
  rintro farm op ⟨now, hnow, hsame⟩ hstep
  obtain ⟨e', hafter, hsame'⟩ := sameCredentials_step hnow hstep
  exact ⟨e', hafter, hsame'.address.trans hsame.address, hsame'.key.trans hsame.key,
    hsame'.enrollment.trans hsame.enrollment⟩

/-! ## Revocation -/

/-- Where the operation evicts a row, that row is not a paired one. -/
def EvictsLegacyOnly (farm : Farm) (op : Op) : Prop :=
  (evicted? farm op).all fun entry ↦ !entry.2.enrollment.isPaired

variable (codec) in
/-- The operation drops no paired row, unless it is a successful removal of its id. -/
def LeavesByRemoval (farm : Farm) (op : Op) : Prop :=
  ∀ id e, farm.inner.get? id = some e → e.enrollment.isPaired = true →
    (∃ e', (step codec farm op).inner.get? id = some e' ∧ e'.enrollment = e.enrollment) ∨
      Removes codec farm id op

theorem leavesByRemoval_of_evictsLegacyOnly {farm : Farm} {op : Op}
    (h : EvictsLegacyOnly farm op) : LeavesByRemoval codec farm op := by
  intro id e hrow hpaired
  have hchange := step_row codec farm op id
  rw [get?_found_of_isPaired op hrow hpaired] at hchange
  generalize (step codec farm op).inner.get? id = after at hchange
  cases hchange with
  | kept => exact .inl ⟨e, rfl, rfl⟩
  | refreshed hauth hcovers hnamed node now => exact .inl ⟨_, rfl, rfl⟩
  | evicted hevicted =>
    rw [EvictsLegacyOnly, hevicted] at h
    simp [hpaired] at h
  | removed hremoves => exact .inr hremoves

end Cameo.Hub
