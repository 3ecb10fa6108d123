import Cameo.Hub.Dispatch
import Cameo.Supervisor.System

/-!
# The VRAM that a node holds

The supervisor counts an endpoint as resident while it has a process.  The hub reads the node's
description instead and counts the endpoints in state `running`: those that have a process, have
answered a probe and carry no error.  An endpoint that is still starting, or that failed with its
process not confirmed dead, holds VRAM that the hub does not see.
-/

namespace Cameo.Hub

open Json Library Supervisor

/-- `node_json`, from the serialized topology and assessments, the answer of `Supervisor::list` and
the sessions. -/
def nodeJson (name version : String) (topology gpus : Value) (endpoints sessions : List Value) :
    Value :=
  .ofFields [
    ("name", .string name),
    ("cameo_version", .string version),
    ("topology", topology),
    ("gpus", gpus),
    ("endpoints", .array endpoints),
    ("sessions", .array sessions)]

theorem get?_nodeJson_endpoints (name version : String) (topology gpus : Value)
    (endpoints sessions : List Value) :
    (nodeJson name version topology gpus endpoints sessions).get? "endpoints" =
      some (.array endpoints) := by
  rw [nodeJson, Value.get?_ofFields (by simp)]
  rfl

def heldVram (map : EndpointMap) : ℕ :=
  map.total fun endpoint ↦ if endpoint.processRunning then endpoint.vramBytes else 0

/-! ## What the hub counts -/

def countedVram (e : Value) : ℕ :=
  if (e.get? "state").bind Value.asStr = some "running" then
    ((e.get? "vram_bytes").bind Value.asU64).getD 0
  else 0

theorem usedVramBytes_foldl_countEndpoint (entries : List Value) {load : Placement.NodeLoad}
    (h : load.usedVramBytes ≤ u64Max) :
    (entries.foldl countEndpoint load).usedVramBytes =
      min (load.usedVramBytes + (entries.map countedVram).sum) u64Max := by
  induction entries generalizing load with
  | nil => simp [h]
  | cons e rest ih =>
    have hone : (countEndpoint load e).usedVramBytes =
        saturatingAdd load.usedVramBytes (countedVram e) := by
      unfold countEndpoint countedVram
      by_cases hstate : (e.get? "state").bind Value.asStr = some "running"
      · rw [if_neg (not_not.mpr hstate), if_pos hstate]
      · rw [if_pos hstate, if_neg hstate]
        exact (min_eq_left h).symm
    have hbound : (countEndpoint load e).usedVramBytes ≤ u64Max := by
      rw [hone]
      exact min_le_right _ _
    rw [List.foldl_cons, ih hbound, hone, List.map_cons, List.sum_cons, saturatingAdd]
    omega

/-- The hub sums what it counts, and saturates. -/
theorem usedVramBytes_loadFromEndpoints (entries : List Value) :
    (loadFromEndpoints (some (.array entries))).usedVramBytes =
      min (entries.map countedVram).sum u64Max := by
  have hfold := @usedVramBytes_foldl_countEndpoint entries ⟨[], 0⟩ (Nat.zero_le _)
  rw [Nat.zero_add] at hfold
  exact hfold

/-! ## What the node lists -/

theorem get?_viewJson (now : SystemTime) (endpoint : Endpoint) :
    (endpoint.viewJson now).get? "state" = some (.string endpoint.state.label) ∧
      (endpoint.viewJson now).get? "vram_bytes" = some (.nat endpoint.vramBytes) := by
  unfold Endpoint.viewJson
  constructor <;>
    rw [Value.get?_ofFields (by simp)] <;> rfl

theorem label_eq_running_iff (state : EndpointState) :
    state.label = "running" ↔ state = .running := by
  cases state <;> simp [EndpointState.label]

/-- The hub counts a listed endpoint if its state is `running`. -/
theorem countedVram_view (now : SystemTime) (leases : Value) (endpoint : Endpoint) :
    countedVram ((endpoint.viewJson now).set "lease_count" leases) =
      if endpoint.state = .running then endpoint.vramBytes else 0 := by
  obtain ⟨hstate, hvram⟩ := get?_viewJson now endpoint
  rw [countedVram, Value.get?_set_of_ne (by simp), Value.get?_set_of_ne (by simp), hstate, hvram]
  simp [Value.asStr, Value.asU64, Value.nat, label_eq_running_iff]

/-- An intent without an endpoint counts for nothing. -/
theorem countedVram_recoveryView (id : String) (intent : Value) (error : String) :
    countedVram (recoveryView id intent error) = 0 := by
  rw [countedVram, recoveryView, Value.get?_ofFields (by simp)]
  simp [Value.asStr]

/-- A running endpoint has a process. -/
theorem processRunning_of_state {endpoint : Endpoint} (h : endpoint.state = .running) :
    endpoint.processRunning = true := by
  unfold Endpoint.state at h
  split at h
  · cases h
  · split at h
    · rename_i hready
      exact (Bool.and_eq_true_iff.mp hready).1
    · split at h <;> cases h

/-- The VRAM of the endpoints in state `running`. -/
def runningVram (map : EndpointMap) : ℕ :=
  map.total fun endpoint ↦ if endpoint.state = .running then endpoint.vramBytes else 0

/-- What a node lists counts for the VRAM of its running endpoints. -/
theorem sum_countedVram_list (io : String → RefreshIo) (now : String → SystemTime)
    (sup : Supervisor) :
    ((sup.list io now).result.map countedVram).sum =
      runningVram (sup.list io now).sup.endpoints := by
  have hmissing (pairs : List (String × Value)) (error : String) :
      ((pairs.map fun pair ↦ recoveryView pair.1 pair.2 error).map countedVram).sum = 0 := by
    rw [List.map_map]
    apply List.sum_eq_zero
    intro counted hmem
    obtain ⟨pair, -, rfl⟩ := List.mem_map.mp hmem
    exact countedVram_recoveryView pair.1 pair.2 error
  unfold Supervisor.list
  dsimp only
  rw [observe, List.map_append, List.sum_append, hmissing, Nat.add_zero, List.map_map,
    runningVram, Keyed.Table.total]
  have hcounted : countedVram ∘ (fun endpoint : Endpoint ↦ (endpoint.viewJson (now endpoint.id)).set
      "lease_count" (.nat (leaseCount sup.leases endpoint.id))) =
      fun endpoint : Endpoint ↦ if endpoint.state = .running then endpoint.vramBytes else 0 := by
    funext endpoint
    rw [Function.comp_apply, countedVram_view]
  rw [hcounted]
  exact ((List.perm_insertionSort _ _).map _).sum_eq

/-- The running endpoints hold all the VRAM exactly when no other endpoint with a process has
any. -/
theorem heldVram_le_iff (map : EndpointMap) :
    heldVram map ≤ runningVram map ↔
      ∀ endpoint ∈ map.entries, endpoint.processRunning = true → endpoint.vramBytes > 0 →
        endpoint.state = .running := by
  have hle (endpoint : Endpoint) (_ : endpoint ∈ map.entries) :
      (if endpoint.state = .running then endpoint.vramBytes else 0) ≤
        if endpoint.processRunning then endpoint.vramBytes else 0 := by
    by_cases hstate : endpoint.state = .running
    · rw [if_pos hstate, if_pos (processRunning_of_state hstate)]
    · rw [if_neg hstate]
      exact Nat.zero_le _
  constructor
  · intro h endpoint hmem hprocess hvram
    by_contra hstate
    have hlt : runningVram map < heldVram map := by
      refine List.sum_lt_sum _ _ hle ⟨endpoint, hmem, ?_⟩
      rw [if_neg hstate, if_pos hprocess]
      exact hvram
    exact Nat.not_le.mpr hlt h
  · intro h
    apply List.sum_le_sum
    intro endpoint hmem
    by_cases hprocess : endpoint.processRunning = true
    · rw [if_pos hprocess]
      by_cases hvram : endpoint.vramBytes > 0
      · rw [if_pos (h endpoint hmem hprocess hvram)]
      · omega
    · rw [if_neg hprocess]
      exact Nat.zero_le _

/-! ## Agreement -/

/-- What the hub derives from a node's description covers the VRAM the node holds exactly when every
endpoint with a process and a VRAM figure is in state `running`, and the figures add up in `u64`. -/
theorem held_le_derived_iff (name version : String) (topology gpus : Value) (sessions : List Value)
    (io : String → RefreshIo) (now : String → SystemTime) (sup : Supervisor) :
    let listed := sup.list io now
    let desc := nodeJson name version topology gpus listed.result sessions
    heldVram listed.sup.endpoints ≤ (loadFromEndpoints (desc.get? "endpoints")).usedVramBytes ↔
      (∀ endpoint ∈ listed.sup.endpoints.entries, endpoint.processRunning = true →
          endpoint.vramBytes > 0 → endpoint.state = .running) ∧
        heldVram listed.sup.endpoints ≤ u64Max := by
  dsimp only
  rw [get?_nodeJson_endpoints, usedVramBytes_loadFromEndpoints, sum_countedVram_list, le_min_iff,
    heldVram_le_iff]

/-- A model that was just started, in a node state that a run reaches: its process is live and the
hub counts nothing. -/
theorem not_held_le_derived_starting :
    let sup := ((Sys.fresh default).run .constant
      [.start (.simple "alpha" 8080 8 16 false) (.plain 4000000000 ⟨101, 1⟩)]).sup
    let listed := sup.list (fun _ ↦ .alive 5000000000) (fun _ ↦ 5000000000)
    let desc := nodeJson "node" "0.2.0-beta.4" .null (.array []) listed.result []
    Initial .constant default ∧ heldVram listed.sup.endpoints = 8 ∧
      (loadFromEndpoints (desc.get? "endpoints")).usedVramBytes = 0 ∧
      ¬ heldVram listed.sup.endpoints ≤
        (loadFromEndpoints (desc.get? "endpoints")).usedVramBytes := by
  refine ⟨.default, ?_⟩
  decide +kernel

end Cameo.Hub
