import Cameo.Hub.Roster

/-!
# A full roster

A paired identity is meant to last until an operator revokes it; age pruning spares it.  The safety
ceiling does not: a new id that comes into a full roster takes the place of the least recently seen
row, whatever its enrollment.  A paired row is lost in a run exactly where that row is a paired one.
-/

namespace Cameo.Hub

open Json Library

variable {codec : Codec}

/-! ## The evicted row -/

theorem get?_insert_makeRoom {roster : Roster} {id newId : String} {e row : Enrolled}
    (hfull : roster.size ≥ maxNodes) (holdest : oldest? roster = some (id, e))
    (hnew : roster.get? newId = none) : ((makeRoom roster).insert newId row).get? id = none := by
  have hne : newId ≠ id := by
    rintro rfl
    cases hnew.symm.trans (get?_of_oldest? holdest)
  rw [Ordered.Map.get?_insert, if_neg hne, makeRoom, if_pos hfull, evictOldest, holdest]
  exact (Ordered.Map.get?_erase roster id id).trans (if_pos rfl)

theorem evicted?_eq_some {farm : Farm} {op : Op} {entry : String × Enrolled}
    (h : evicted? farm op = some entry) :
    ∃ newId, op.enrolls? = some newId ∧ (op.found farm).get? newId = none ∧
      (op.found farm).size ≥ maxNodes ∧ oldest? (op.found farm) = some entry := by
  unfold evicted? at h
  split at h
  · rename_i newId hnewId
    split at h
    · rename_i hcond
      exact ⟨newId, hnewId, Option.isNone_iff_eq_none.mp hcond.1, hcond.2, h⟩
    · cases h
  · cases h

/-- The evicted row is gone, also where the enrollment that evicted it fails. -/
theorem get?_step_of_evicted {farm : Farm} {op : Op} {id : String} {e : Enrolled}
    (h : evicted? farm op = some (id, e)) : (step codec farm op).inner.get? id = none := by
  obtain ⟨newId, hnewId, hnew, hfull, holdest⟩ := evicted?_eq_some h
  cases op with
  | register now reg =>
    obtain rfl : assignedId reg = newId := Option.some.inj hnewId
    have hregister : (farm.register codec now reg).2.inner =
        (makeRoom (prune now farm.inner)).insert (assignedId reg)
          ⟨storedRegistration codec reg, now, .legacyToken⟩ := by
      unfold Farm.register
      simp only [show (prune now farm.inner).get? (assignedId reg) = none from hnew]
    exact (congrArg (·.get? id) hregister).trans (get?_insert_makeRoom hfull holdest hnew)
  | pair io now reg digest label =>
    obtain rfl : assignedId reg = newId := Option.some.inj hnewId
    have hnone : ¬ ((prune now farm.inner).get? (assignedId reg)).isSome = true := by
      simp [show (prune now farm.inner).get? (assignedId reg) = none from hnew]
    have hgone : ((makeRoom (prune now farm.inner)).insert (assignedId reg)
        ⟨storedRegistration codec reg, now, .paired digest label⟩).get? id = none :=
      get?_insert_makeRoom hfull holdest hnew
    change (farm.pair codec io now reg digest label).2.inner.get? id = none
    unfold Farm.pair
    simp only
    rw [if_neg hnone]
    split
    · dsimp only
      rw [Ordered.Map.get?_erase]
      split
      · rfl
      · exact hgone
    · exact hgone
  | heartbeat now nodeId node auth => cases hnewId
  | remove io nodeId => cases hnewId
  | list now => cases hnewId
  | onlineDescriptions now => cases hnewId
  | prune now => cases hnewId

/-- An operation drops a paired row otherwise than by its removal exactly if it evicts one. -/
theorem leavesByRemoval_iff (farm : Farm) (op : Op) :
    LeavesByRemoval codec farm op ↔ EvictsLegacyOnly farm op := by
  refine ⟨fun h ↦ ?_, leavesByRemoval_of_evictsLegacyOnly⟩
  rw [EvictsLegacyOnly, Option.all_eq_true]
  rintro ⟨id, e⟩ hevicted
  obtain ⟨newId, hnewId, -, -, holdest⟩ := evicted?_eq_some hevicted
  by_contra hpaired
  rw [Bool.not_eq_true, Bool.not_eq_false'] at hpaired
  have hrow := get?_of_get?_found (get?_of_oldest? holdest)
  rcases h id e hrow hpaired with ⟨e', hafter, -⟩ | ⟨io, rfl, -⟩
  · cases (get?_step_of_evicted hevicted).symm.trans hafter
  · cases hnewId

/-- In a run, paired rows are dropped by successful removals only exactly if no step of the run
evicts a paired row. -/
theorem paired_leaves_by_removal_iff (start : Farm) (ops : List Op) :
    Run.Meets (step codec) (LeavesByRemoval codec) start ops ↔
      Run.Meets (step codec) EvictsLegacyOnly start ops :=
  Run.meets_congr leavesByRemoval_iff start ops

/-! ## A crowd of paired nodes -/

/-- The id of a node of the crowd, one letter of its own. -/
def crowdId (n : ℕ) : String := String.singleton (Char.ofNat (0x4e00 + n))

def crowdReg (n : ℕ) : Registration :=
  ⟨crowdId n, "", "https://node.example", some "callback-key-0123", "", .null⟩

def crowdPair (n : ℕ) : Op :=
  .pair (.working 1) 0 (crowdReg n) (Vector.replicate 32 0) "crowd"

theorem toNat_ofNat {n : ℕ} (h : n < 10001) : (Char.ofNat (0x4e00 + n)).toNat = 0x4e00 + n := by
  have hvalid : (0x4e00 + n).isValidChar := .inl (by omega)
  rw [Char.ofNat, dif_pos hvalid]
  rfl

theorem crowdId_inj {m n : ℕ} (hm : m < 10001) (hn : n < 10001) (h : crowdId m = crowdId n) :
    m = n := by
  have hchar : Char.ofNat (0x4e00 + m) = Char.ofNat (0x4e00 + n) := by
    have hlist := congrArg String.toList h
    simpa [crowdId] using hlist
  have hcode := congrArg Char.toNat hchar
  rw [toNat_ofNat hm, toNat_ofNat hn] at hcode
  omega

theorem assignedId_crowdReg {n : ℕ} (h : n < 10001) : assignedId (crowdReg n) = crowdId n := by
  have hspace : isWhitespace (Char.ofNat (0x4e00 + n)) = false := by
    simp only [isWhitespace, toNat_ofNat h]
    simp
    omega
  have htrim : trim (crowdId n) = crowdId n := by
    simp [trim, trimChars, crowdId, hspace]
  have hne : crowdId n ≠ "" := by simp [crowdId]
  have hpick : pickId (crowdReg n) = crowdId n := by
    simp [pickId, crowdReg, htrim, hne]
  have hsize : (crowdId n).utf8ByteSize ≤ 4 := by
    rw [crowdId, String.utf8ByteSize_singleton]
    exact Char.utf8Size_le_four _
  have hcap : capIdLen (crowdId n) = crowdId n := by
    rw [capIdLen, if_neg]
    simp only [maxNodeIdLen]
    omega
  rw [assignedId_eq_capIdLen, hpick, hcap]

/-- A farm without a state file whose rows are the first nodes of the crowd, all of them paired. -/
structure Crowded (n : ℕ) (farm : Farm) : Prop where
  state : farm.state = none
  size : farm.inner.size = n
  row : ∀ id e, farm.inner.get? id = some e →
    e.enrollment.isPaired = true ∧ ∃ m < n, id = crowdId m

theorem Crowded.prune_eq {n : ℕ} {farm : Farm} (h : Crowded n farm) (now : Instant) :
    prune now farm.inner = farm.inner := by
  refine Ordered.Map.retain_eq_self fun id e hrow ↦ ?_
  simp [survives, (h.row id e hrow).1]

theorem Crowded.get?_eq_none {n : ℕ} {farm : Farm} (h : Crowded n farm) (hn : n < 10001) :
    farm.inner.get? (crowdId n) = none := by
  cases hrow : farm.inner.get? (crowdId n) with
  | none => rfl
  | some e =>
    obtain ⟨m, hm, heq⟩ := (h.row _ e hrow).2
    have := crowdId_inj hn (hm.trans hn) heq
    omega

theorem Crowded.step {n : ℕ} {farm : Farm} (h : Crowded n farm) (hn : n < 10000) :
    Crowded (n + 1) (step codec farm (crowdPair n)) := by
  have hid := assignedId_crowdReg (show n < 10001 by omega)
  have hnew := h.get?_eq_none (by omega)
  have hroom : makeRoom farm.inner = farm.inner := by
    rw [makeRoom, if_neg]
    rw [h.size]
    simp only [maxNodes]
    omega
  have hstep : Hub.step codec farm (crowdPair n) = ⟨farm.inner.insert (crowdId n)
      ⟨storedRegistration codec (crowdReg n), 0, .paired (Vector.replicate 32 0) "crowd"⟩,
      none⟩ := by
    change (farm.pair codec (.working 1) 0 (crowdReg n) (Vector.replicate 32 0) "crowd").2 = _
    simp only [Farm.pair, h.prune_eq, hid, hnew, hroom, h.state, Farm.persistLocked]
    rfl
  rw [hstep]
  refine ⟨rfl, ?_, fun id e hrow ↦ ?_⟩
  · exact (Ordered.Map.size_insert_of_get?_eq_none hnew _).trans (by rw [h.size])
  · rw [Ordered.Map.get?_insert] at hrow
    split at hrow
    · rename_i heq
      obtain rfl := Option.some.inj hrow
      exact ⟨rfl, n, Nat.lt_succ_self n, heq.symm⟩
    · obtain ⟨hpaired, m, hm, heq⟩ := h.row id e hrow
      exact ⟨hpaired, m, by omega, heq⟩

/-- Pairing the crowd, one node after the other. -/
def crowd (n : ℕ) : List Op := (List.range n).map crowdPair

theorem crowded_run {n : ℕ} (hn : n ≤ 10000) : Crowded n (Run.run (step codec) .new (crowd n)) := by
  induction n with
  | zero => exact ⟨rfl, rfl, fun id e hrow ↦ by cases hrow⟩
  | succ n ih =>
    rw [crowd, List.range_succ, List.map_append, Run.run_append]
    exact (ih (by omega)).step (by omega)

/-- One more node comes, and one of the crowd goes. -/
theorem Crowded.not_evictsLegacyOnly {farm : Farm} (h : Crowded 10000 farm) :
    ¬ EvictsLegacyOnly farm (.register 0 (crowdReg 10000)) := by
  obtain ⟨entry, holdest⟩ : ∃ entry, oldest? farm.inner = some entry := by
    rw [← Option.isSome_iff_exists, Option.isSome_iff_ne_none, oldest?, ne_eq, List.argmin_eq_none]
    intro hempty
    have hsize := h.size
    rw [Ordered.Map.size, hempty] at hsize
    cases hsize
  have hevicted : evicted? farm (.register 0 (crowdReg 10000)) = some entry := by
    have hid : assignedId (crowdReg 10000) = crowdId 10000 := assignedId_crowdReg (by omega)
    have hnew : farm.inner.get? (crowdId 10000) = none := h.get?_eq_none (by omega)
    have hfull : farm.inner.size ≥ maxNodes := h.size.ge
    rw [evicted?, Op.enrolls?, Op.registers?, Option.map_some, Op.found, h.prune_eq, hid]
    exact (if_pos ⟨Option.isNone_iff_eq_none.mpr hnew, hfull⟩).trans holdest
  have hpaired := (h.row _ _ (get?_of_oldest? holdest)).1
  rw [EvictsLegacyOnly, hevicted]
  simp [hpaired]

/-- A single registration with the farm token costs one of ten thousand paired nodes its row. -/
theorem full_roster_drops_paired_node :
    ¬ Run.Meets (step .compact) (LeavesByRemoval .compact) .new
      (crowd 10000 ++ [.register 0 (crowdReg 10000)]) := by
  have hcrowded : Crowded 10000 (Run.run (step .compact) .new (crowd 10000)) :=
    crowded_run le_rfl
  rw [Run.meets_append]
  rintro ⟨-, hlast⟩
  generalize Run.run (step .compact) .new (crowd 10000) = farm at hlast hcrowded
  exact hcrowded.not_evictsLegacyOnly ((leavesByRemoval_iff _ _).mp hlast.1)

end Cameo.Hub
