import Cameo.Hub.Identities

/-!
# Identities after a restart

The state file follows the roster.  Below the node ceiling, pairings and removals that succeed leave
in it the paired rows of the roster, and nothing else changes what it keeps of a row; so a restart
gives back exactly the paired rows, offline and without their descriptions.
-/

namespace Cameo.Hub

open Json Library Library.Durable

variable {codec : Codec}

/-! ## Operations with nothing to persist -/

theorem size_found_le (farm : Farm) (op : Op) : (op.found farm).size ≤ farm.inner.size := by
  cases op with
  | remove io nodeId => exact le_rfl
  | _ => exact size_prune_le _ _

/-- Below the ceiling nothing is evicted. -/
theorem evicted?_of_lt {farm : Farm} (h : farm.inner.size < maxNodes) (op : Op) :
    evicted? farm op = none := by
  have hsize : ¬ (op.found farm).size ≥ maxNodes :=
    not_le.mpr ((size_found_le farm op).trans_lt h)
  unfold evicted?
  split
  · exact if_neg fun hfull ↦ hsize hfull.2
  · rfl

theorem identity?_of_legacy {e : Enrolled} (h : e.enrollment.isPaired = false) :
    e.identity? = none :=
  if_neg (by simp [h])

/-- An operation that neither pairs nor removes keeps what the file has of every row. -/
theorem identity?_step {farm : Farm} {op : Op} (hbelow : farm.inner.size < maxNodes)
    (hlegacy : ∀ enrollment, op.enrollment? = some enrollment → enrollment = .legacyToken)
    (hstays : ∀ id, ¬ Removes codec farm id op) (id : String) :
    ((step codec farm op).inner.get? id).bind Enrolled.identity? =
      (farm.inner.get? id).bind Enrolled.identity? := by
  have hfound : ((op.found farm).get? id).bind Enrolled.identity? =
      (farm.inner.get? id).bind Enrolled.identity? := by
    rcases get?_found farm op id with hsame | ⟨e, hrow, hunpaired, hgone⟩
    · rw [hsame]
    · rw [hrow, hgone, Option.bind_some, identity?_of_legacy hunpaired, Option.bind_none]
  rw [← hfound]
  have hchange := step_row codec farm op id
  generalize (step codec farm op).inner.get? id = after at hchange
  generalize (op.found farm).get? id = before at hchange
  cases hchange with
  | kept => rfl
  | @refreshed e _ _ _ name version hnamed node now =>
    cases hpaired : e.enrollment.isPaired with
    | false => simp [Enrolled.identity?, hpaired]
    | true =>
      obtain ⟨rfl, rfl⟩ := hnamed hpaired
      simp [Enrolled.identity?]
  | evicted hevicted => cases (evicted?_of_lt hbelow op).symm.trans hevicted
  | @enrolled e reg hop hid hreg henrollment =>
    rw [Option.bind_some, identity?_of_legacy (by rw [hlegacy _ henrollment]; rfl),
      Option.bind_none]
  | removed hremoves => exact (hstays id hremoves).elim

/-! ## A file that follows the roster -/

/-- A farm below the ceiling whose file, at a location, holds its paired rows. -/
structure InSync (location : Location) (farm : Farm) : Prop where
  below : farm.inner.size < maxNodes
  derives : Rederives farm.inner
  file : ∃ disk, farm.state = some (location, disk) ∧
    Holds disk.file (persistedFarm farm.inner)

variable (codec) in
/-- A pairing is accepted by its route and succeeds, a removal succeeds, and the roster stays below
the ceiling. -/
def Accepted (farm : Farm) (op : Op) : Prop :=
  (step codec farm op).inner.size < maxNodes ∧
    match op with
    | .pair io now reg digest label =>
      checkPairing reg = none ∧
        ∃ id, (farm.pair codec io now reg digest label).1 = .ok id
    | .remove io nodeId => ∃ known, (farm.remove codec io nodeId).1 = .ok known
    | .register _ _ | .heartbeat _ _ _ _ | .list _ | .onlineDescriptions _ | .prune _ => True

theorem Accepted.routed {farm : Farm} {op : Op} (h : Accepted codec farm op) : Routed op := by
  cases op with
  | pair io now reg digest label => exact h.2.1
  | _ => trivial

/-- An accepted pairing leaves its roster in the file. -/
theorem file_pair {location : Location} {farm : Farm} {disk : Disk} {io : PersistIo} {now : Instant}
    {reg : Registration} {digest : Digest} {label id : String}
    (hstate : farm.state = some (location, disk))
    (hok : (farm.pair codec io now reg digest label).1 = .ok id) :
    ∃ after, (farm.pair codec io now reg digest label).2.state = some (location, after) ∧
      Holds after.file (persistedFarm (farm.pair codec io now reg digest label).2.inner) := by
  cases hrow : (prune now farm.inner).get? (assignedId reg) with
  | some e =>
    rw [pair_of_enrolled io digest label (by rw [hrow]; rfl)] at hok
    cases hok
  | none =>
    rw [pair_of_new io digest label hrow, hstate] at hok ⊢
    dsimp only at hok ⊢
    cases hpersist : Farm.persistLocked codec io
        (withPaired codec now reg digest label (prune now farm.inner)) (some (location, disk)) with
    | mk result state =>
      rw [hpersist] at hok
      cases result with
      | error e => cases hok
      | ok _ =>
        have hdone := persistLocked_ok (by rw [hpersist])
        rwa [hpersist] at hdone

theorem file_remove {location : Location} {farm : Farm} {disk : Disk} {io : PersistIo}
    {nodeId : String} {known : Bool} (hstate : farm.state = some (location, disk))
    (hfile : Holds disk.file (persistedFarm farm.inner))
    (hok : (farm.remove codec io nodeId).1 = .ok known) :
    ∃ after, (farm.remove codec io nodeId).2.state = some (location, after) ∧
      Holds after.file (persistedFarm (farm.remove codec io nodeId).2.inner) := by
  cases hrow : farm.inner.get? nodeId with
  | none =>
    rw [remove_of_unknown io hrow]
    exact ⟨disk, hstate, hfile⟩
  | some row =>
    rw [remove_of_row io hrow, hstate] at hok ⊢
    cases hpersist : Farm.persistLocked codec io (farm.inner.erase nodeId)
        (some (location, disk)) with
    | mk result state =>
      rw [hpersist] at hok
      cases result with
      | error e => cases hok
      | ok _ =>
        have hdone := persistLocked_ok (by rw [hpersist])
        rwa [hpersist] at hdone

/-- An operation that neither pairs nor removes leaves the file as it is, and the roster persists as
the same file. -/
theorem file_of_quiet {location : Location} {farm : Farm} {op : Op} (h : InSync location farm)
    (hsame : (step codec farm op).state = farm.state)
    (hlegacy : ∀ enrollment, op.enrollment? = some enrollment → enrollment = .legacyToken)
    (hstays : ∀ io nodeId, op ≠ .remove io nodeId) :
    ∃ disk, (step codec farm op).state = some (location, disk) ∧
      Holds disk.file (persistedFarm (step codec farm op).inner) := by
  obtain ⟨disk, hstate, hfile⟩ := h.file
  refine ⟨disk, hsame.trans hstate, ?_⟩
  rwa [persistedFarm_congr (identity?_step h.below hlegacy
    fun id ⟨io, hremove, _⟩ ↦ hstays io id hremove)]

theorem inSync_step {location : Location} {farm : Farm} {op : Op} (h : InSync location farm)
    (haccepted : Accepted codec farm op) : InSync location (step codec farm op) := by
  obtain ⟨disk, hstate, hfile⟩ := h.file
  refine ⟨haccepted.1, ?_, ?_⟩
  · exact rederives_of_rowChange haccepted.routed h.derives (step_row codec farm op)
  cases op with
  | pair io now reg digest label =>
    obtain ⟨id, hok⟩ := haccepted.2.2
    exact file_pair hstate hok
  | remove io nodeId =>
    obtain ⟨known, hok⟩ := haccepted.2
    exact file_remove hstate hfile hok
  | register now reg =>
    exact file_of_quiet h (state_register farm now reg)
      (fun _ hlegacy ↦ (Option.some.inj hlegacy).symm) (fun _ _ ↦ by simp)
  | heartbeat now nodeId node auth =>
    exact file_of_quiet h (state_heartbeat farm now nodeId node auth) (fun _ h ↦ by cases h)
      (fun _ _ ↦ by simp)
  | list now => exact file_of_quiet h rfl (fun _ h ↦ by cases h) (fun _ _ ↦ by simp)
  | onlineDescriptions now => exact file_of_quiet h rfl (fun _ h ↦ by cases h) (fun _ _ ↦ by simp)
  | prune now => exact file_of_quiet h rfl (fun _ h ↦ by cases h) (fun _ _ ↦ by simp)

/-- A hub that starts without a state file. -/
theorem inSync_start {location : Location} {io : LoadIo} {now : Instant} {disk : Disk} {farm : Farm}
    (hopen : Farm.open location io now disk = .ok farm) (hfile : disk.file = none) :
    InSync location farm := by
  obtain ⟨state, hload, hnodes, hstate⟩ := open_eq_ok_iff.mp hopen
  rw [hfile] at hload
  obtain rfl : state = ⟨farmStateVersion, []⟩ := (holds_of_loadState hload).unique holds_none
  obtain ⟨-, hempty⟩ := openNodes_eq_ok_iff.mp hnodes
  have hinner : farm.inner = .empty := hempty.symm
  refine ⟨?_, ?_, disk, hstate, ?_⟩
  · rw [hinner]
    decide
  · rw [hinner]
    exact fun _ _ hrow ↦ by cases hrow
  · rw [hinner, hfile]
    exact holds_none

/-- Accepted pairings and removals below the node ceiling, among any other operations, leave a file
that opens, and opening it gives back exactly the paired rows, without their descriptions. -/
theorem reload_restores_paired {location : Location} {io : LoadIo} {now : Instant} {disk : Disk}
    {start : Farm} (hopen : Farm.open location io now disk = .ok start) (hfile : disk.file = none)
    {ops : List Op} (hops : Run.Meets (step codec) (Accepted codec) start ops) :
    ∃ after, (Run.run (step codec) start ops).state = some (location, after) ∧
      ∀ io now, LoadIo.Works io → reopened location io now after =
        .ok (offline (staleAt now) (Run.run (step codec) start ops).inner) := by
  have hsync : InSync location (Run.run (step codec) start ops) :=
    Run.invariant_run (InSync location) (fun _ _ hfarm hop ↦ inSync_step hfarm hop)
      (inSync_start hopen hfile) hops
  obtain ⟨after, hstate, hholds⟩ := hsync.file
  exact ⟨after, hstate, fun io now hio ↦
    reopened_of_holds_persistedFarm hio hholds hsync.below.le hsync.derives⟩

/-! ## A first start -/

def stateAt : Location := ⟨"/var/lib/cameo/mesh-identities.json", "/var/lib/cameo"⟩

/-- A hub that has been opened on an empty directory. -/
def firstStart : Farm := ⟨.empty, some (stateAt, ⟨none, .empty⟩)⟩

def pairingReg : Registration :=
  ⟨" gpu-box ", "", "https://node.example", some "callback-key-0123", "0.4.0", .null⟩

/-- The pairing of the node, with the answers of the disk. -/
def firstPairing (io : PersistIo) : Op := .pair io 0 pairingReg (Vector.replicate 32 1) "desk"

theorem open_firstStart :
    Farm.open stateAt ⟨.ok (), .ok (), ""⟩ 0 ⟨none, .empty⟩ = .ok firstStart := rfl

theorem reload_restores_first_pairing : ∃ after,
    (Run.run (step .compact) firstStart [firstPairing (.working 7)]).state =
        some (stateAt, after) ∧
    ∀ io now, LoadIo.Works io → reopened stateAt io now after = .ok (offline (staleAt now)
      (Run.run (step .compact) firstStart [firstPairing (.working 7)]).inner) := by
  refine reload_restores_paired open_firstStart rfl ⟨⟨?_, ?_, "gpu-box", ?_⟩, trivial⟩
  · decide +kernel
  · decide +kernel
  · decide +kernel

end Cameo.Hub
