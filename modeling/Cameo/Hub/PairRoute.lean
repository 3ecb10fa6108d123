import Cameo.Hub.Crash
import Cameo.Hub.Credential
import Cameo.Hub.Heartbeat
import Cameo.Hub.Pairing
import Cameo.Hub.PairingStore

/-!
# The sections of the pairing route

The pairing route looks at the codes, at the roster, at the codes again and at the roster again, and
locks each of them for itself, so requests of other connections come in between.  Here are its four
sections, and those of the other two routes for nodes, with what they answer.
-/

namespace Cameo.Hub

open Json Library

/-- `PairRequest`. -/
structure PairRequest where
  code : String
  registration : Registration

/-- `serde_json::from_value` of a pairing request. -/
def PairRequest.fromValue (value : Value) : Option PairRequest := do
  let value ← value.asStruct 2
  let code ← value.required Value.asStr "code" 0
  let registration ← value.required Registration.fromValue "registration" 1
  return ⟨code, registration⟩

section Model

variable (codec : Codec) (hash : String → Digest)

/-- The first section: the request is checked, and that its code is live.  `parseError` is what the
JSON parser says of a body that it cannot read. -/
def admitPair (store : PairingStore) (now : Instant) (parseError : String) (body : Option Value) :
    Except Daemon.Response PairRequest × PairingStore :=
  match body.bind PairRequest.fromValue with
  | none => (.error (.error 400 ("invalid pairing body: " ++ parseError)), store)
  | some request =>
    match checkPairing request.registration with
    | some denied => (.error denied, store)
    | none =>
      let (live, store) := store.isLive hash request.code now
      if !live then (.error (.error 401 "invalid or expired pairing code"), store)
      else (.ok request, store)

/-- The second section: the id must be new, and a device credential is drawn. -/
def issueCredential (farm : Farm) (random : Randomness) (request : PairRequest) :
    Except Daemon.Response String :=
  if farm.contains (requestedId request.registration) then
    .error (.error 409 "node id is already enrolled; remove it before replacement")
  else
    match randomSecret random with
    | .error e => .error (.error 503 e)
    | .ok credential => .ok credential

/-- The third section: the code is consumed. -/
def redeemCode (store : PairingStore) (now : Instant) (code : String) :
    Except Daemon.Response String × PairingStore :=
  match store.consumeAt hash code now with
  | (.ok label, store) => (.ok label, store)
  | (.error e, store) => (.error (.error 401 e), store)

def pairedResponse (nodeId credential : String) : Daemon.Response :=
  ⟨201, .ofFields [
    ("node_id", .string nodeId),
    ("device_credential", .string credential),
    ("credential_displayed_once", .bool true),
    ("trust", .string "paired")]⟩

def enrollResponse (credential : String) : Except String String → Daemon.Response
  | .ok nodeId => pairedResponse nodeId credential
  | .error e => .error 409 e

def registeredResponse (nodeId : String) : Daemon.Response :=
  ⟨200, .ofFields [("node_id", .string nodeId), ("known", .bool true)]⟩

def heartbeatResponse (known : Bool) : Daemon.Response := ⟨200, .ofFields [("known", .bool known)]⟩

end Model

/-! ## Refusals -/

/-- A response of `Response::error`. -/
def IsRefusal (response : Daemon.Response) : Prop :=
  ∃ status message, 400 ≤ status ∧ response = .error status message

theorem isRefusal_error {status : ℕ} {message : String} (h : 400 ≤ status) :
    IsRefusal (.error status message) := ⟨status, message, h, rfl⟩

section Gates

open Daemon

variable {state : AccessState} {req : Request} {response : Response}

theorem isRefusal_of_checkOrigin (h : checkOrigin state req = some response) :
    IsRefusal response := by
  unfold checkOrigin at h
  split at h
  · cases h
  · split at h
    · cases h
      exact isRefusal_error (by decide)
    · split at h
      · cases h
        exact isRefusal_error (by decide)
      · cases h

theorem isRefusal_of_checkRequestRate {now : Instant} {segs : List String}
    (h : (checkRequestRate state now req segs).1 = some response) : IsRefusal response := by
  unfold checkRequestRate at h
  split at h
  · cases h
  · dsimp only at h
    split at h
    · cases h
    · cases h
      exact isRefusal_error (by decide)

theorem isRefusal_of_checkAuth (h : checkAuth state req = some response) :
    IsRefusal response := by
  unfold checkAuth at h
  split at h
  · cases h
  · cases h
    exact isRefusal_error (by decide)

theorem isRefusal_of_checkFarmAuth (h : checkFarmAuth state req = some response) :
    IsRefusal response := by
  unfold checkFarmAuth at h
  split at h
  · cases h
    exact isRefusal_error (by decide)
  · split at h
    · cases h
    · cases h
      exact isRefusal_error (by decide)

theorem isRefusal_of_gated {denied : Option Response} {handler : Handler}
    (hdenied : ∀ denial, denied = some denial → IsRefusal denial)
    (h : gated denied handler = .refused response) : IsRefusal response := by
  cases denied with
  | none => cases h
  | some denial =>
    cases h
    exact hdenied _ rfl

/-- A request for a path of the hub is refused with an error, if it is refused. -/
theorem isRefusal_of_routeHub {rest : List String}
    (h : routeHub state req rest = .refused response) : IsRefusal response := by
  unfold routeHub at h
  split at h
  case h_2 | h_4 => cases h
  case h_3 => exact isRefusal_of_gated (fun _ ↦ isRefusal_of_checkFarmAuth) h
  case h_10 =>
    cases h
    exact isRefusal_error (by decide)
  all_goals exact isRefusal_of_gated (fun _ ↦ isRefusal_of_checkAuth) h

theorem isRefusal_of_routeApi {rest : List String}
    (h : routeApi state req rest = .refused response) : IsRefusal response := by
  unfold routeApi at h
  split at h
  · cases h
    exact isRefusal_error (by decide)
  · split at h
    · split at h <;> cases h
      exact isRefusal_error (by decide)
    · split at h
      · cases h
      · cases h
        exact isRefusal_error (by decide)

theorem isRefusal_of_checkServeAuth (h : checkServeAuth state req = some response) :
    IsRefusal response := by
  unfold checkServeAuth at h
  split at h
  · cases h
  · cases h
    exact isRefusal_error (by decide)

theorem isRefusal_of_checkEnginesAuth (h : checkEnginesAuth state req = some response) :
    IsRefusal response := by
  unfold checkEnginesAuth at h
  split at h
  · cases h
  · cases h
    exact isRefusal_error (by decide)

theorem isRefusal_of_routeV1 {method : String} {rest : List String}
    (h : routeV1 method rest = .refused response) : IsRefusal response := by
  unfold routeV1 at h
  split at h <;> cases h
  exact isRefusal_error (by decide)

theorem isRefusal_of_routeSurface (h : routeSurface state req = .refused response) :
    IsRefusal response := by
  unfold routeSurface at h
  split at h
  case h_1 | h_2 | h_3 | h_5 => cases h
  case h_4 => exact isRefusal_of_gated (fun _ ↦ isRefusal_of_checkAuth) h
  case h_6 =>
    split at h
    · rename_i hdenied
      cases h
      exact isRefusal_of_checkServeAuth hdenied
    · exact isRefusal_of_routeV1 h
  case h_7 =>
    split at h
    · exact isRefusal_of_routeHub h
    · cases h
      exact isRefusal_error (by decide)
  case h_8 =>
    dsimp only at h
    split at h
    · rename_i hdenied
      cases h
      split at hdenied
      · exact isRefusal_of_checkEnginesAuth hdenied
      · exact isRefusal_of_checkAuth hdenied
    · exact isRefusal_of_routeApi h
  case h_9 =>
    cases h
    exact isRefusal_error (by decide)

theorem isRefusal_of_route {now : Instant} (h : (route state now req).1 = .refused response) :
    IsRefusal response := by
  unfold route at h
  split at h
  · rename_i hdenied
    cases h
    exact isRefusal_of_checkOrigin hdenied
  · split at h
    · rename_i hdenied
      cases h
      exact isRefusal_of_checkRequestRate (by rw [hdenied])
    · exact isRefusal_of_routeSurface h

end Gates

theorem isRefusal_of_checkPairing {reg : Registration} {response : Daemon.Response}
    (h : checkPairing reg = some response) : IsRefusal response := by
  unfold checkPairing at h
  split at h
  · cases h
    exact isRefusal_error (by decide)
  · split at h
    · cases h
      exact isRefusal_error (by decide)
    · split at h
      · cases h
        exact isRefusal_error (by decide)
      · split at h
        · cases h
          exact isRefusal_error (by decide)
        · cases h

/-- A pairing that is not admitted is refused; of one that is, the registration has been checked. -/
theorem admitPair_cases {hash : String → Digest} {store after : PairingStore} {now : Instant}
    {parseError : String} {body : Option Value} {result : Except Daemon.Response PairRequest}
    (h : admitPair hash store now parseError body = (result, after)) :
    (∃ response, result = .error response ∧ IsRefusal response) ∨
      ∃ request, result = .ok request ∧ checkPairing request.registration = none := by
  unfold admitPair at h
  split at h
  · cases h
    exact .inl ⟨_, rfl, isRefusal_error (by decide)⟩
  · rename_i request _
    split at h
    · rename_i hdenied
      cases h
      exact .inl ⟨_, rfl, isRefusal_of_checkPairing hdenied⟩
    · rename_i hchecked
      dsimp only at h
      split at h
      · cases h
        exact .inl ⟨_, rfl, isRefusal_error (by decide)⟩
      · cases h
        exact .inr ⟨request, rfl, hchecked⟩

theorem isRefusal_of_authenticateHeartbeat {hash : String → Digest} {access : Daemon.AccessState}
    {req : Daemon.Request} {body : Option Value} {farm : Farm} {response : Daemon.Response}
    (h : authenticateHeartbeat hash access req body farm = .error response) :
    IsRefusal response := by
  unfold authenticateHeartbeat at h
  split at h
  · cases h
    exact isRefusal_error (by decide)
  · split at h
    · cases h
      exact isRefusal_error (by decide)
    · split at h
      · cases h
      · split at h
        · rename_i hdenied
          cases h
          exact isRefusal_of_checkFarmAuth hdenied
        · cases h

/-! ## Answers with a credential -/

/-- An object without the field of the secret is no credential. -/
theorem fromValue_of_not_mem {fields : List (String × Value)} (h : (fields.map Prod.fst).Nodup)
    (hnone : "device_credential" ∉ fields.map Prod.fst) :
    DeviceCredential.fromValue (.ofFields fields) = none := by
  have hfind : fields.find? (fun pair ↦ pair.1 = "device_credential") = none := by
    rw [List.find?_eq_none]
    intro pair hpair hname
    exact hnone (List.mem_map.mpr ⟨pair, hpair, of_decide_eq_true hname⟩)
  have hget : (Value.ofFields fields).get? "device_credential" = none := by
    rw [Value.get?_ofFields h, hfind, Option.map_none]
  simp only [Value.ofFields] at hget ⊢
  simp [DeviceCredential.fromValue, Value.asStruct, Value.required, Value.field?, hget]

theorem fromValue_of_isRefusal {response : Daemon.Response} (h : IsRefusal response) :
    DeviceCredential.fromValue response.body = none := by
  obtain ⟨status, message, -, rfl⟩ := h
  exact fromValue_of_not_mem (by decide : ["error", "status"].Nodup)
    (by decide : "device_credential" ∉ ["error", "status"])

theorem fromValue_registeredResponse (nodeId : String) :
    DeviceCredential.fromValue (registeredResponse nodeId).body = none :=
  fromValue_of_not_mem (by decide : ["node_id", "known"].Nodup)
    (by decide : "device_credential" ∉ ["node_id", "known"])

theorem fromValue_heartbeatResponse (known : Bool) :
    DeviceCredential.fromValue (heartbeatResponse known).body = none :=
  fromValue_of_not_mem (by decide : ["known"].Nodup) (by decide : "device_credential" ∉ ["known"])

theorem fromValue_pairedResponse (nodeId credential : String) :
    DeviceCredential.fromValue (pairedResponse nodeId credential).body =
      some ⟨nodeId, credential⟩ := by
  refine DeviceCredential.fromValue_ofFields ?_ rfl rfl
  exact (by decide :
    ["node_id", "device_credential", "credential_displayed_once", "trust"].Nodup)

/-- The answer to a pairing carries a credential only if the roster has taken the node. -/
theorem of_fromValue_enrollResponse {credential : String} {result : Except String String}
    {found : DeviceCredential}
    (h : DeviceCredential.fromValue (enrollResponse credential result).body = some found) :
    result = .ok found.nodeId ∧ credential = found.deviceCredential := by
  cases result with
  | ok nodeId =>
    obtain rfl := Option.some.inj ((fromValue_pairedResponse nodeId credential).symm.trans h)
    exact ⟨rfl, rfl⟩
  | error e =>
    rw [enrollResponse, fromValue_of_isRefusal (isRefusal_error (by decide))] at h
    cases h

/-! ## The row of a paired node -/

variable {codec : Codec} {hash : String → Digest}

/-- The operation neither removes an id nor evicts it. -/
def SparesRow (id : String) (farm : Farm) (op : Op) : Prop :=
  (∀ io, op ≠ .remove io id) ∧ ∀ e, evicted? farm op ≠ some (id, e)

/-- The state has the paired record of an id. -/
def HasRecord (id : String) (digest : Digest) (state : PersistedFarm) : Prop :=
  ∃ node ∈ state.nodes, node.reg.nodeId = id ∧ ∃ label, node.enrollment = .paired digest label

/-- An id is bound to a digest: in the roster, and in the file if there is one. -/
structure Binds (id : String) (digest : Digest) (farm : Farm) : Prop where
  row : rowDigest farm id = some digest
  file : ∀ location disk, farm.state = some (location, disk) →
    ∃ state, Holds disk.file state ∧ HasRecord id digest state

/-- An operation that spares a paired row keeps its digest. -/
theorem rowDigest_step_of_spares {farm : Farm} {op : Op} {id : String} {digest : Digest}
    (hspares : SparesRow id farm op) (h : rowDigest farm id = some digest) :
    rowDigest (step codec farm op) id = some digest := by
  obtain ⟨e, label, hrow, henrollment⟩ := rowDigest_eq_some_iff.mp h
  have hpaired : e.enrollment.isPaired = true := by rw [henrollment]; rfl
  have hchange := step_row codec farm op id
  rw [get?_found_of_isPaired op hrow hpaired] at hchange
  generalize hafter : (step codec farm op).inner.get? id = after at hchange
  cases hchange with
  | kept => exact rowDigest_eq_some_iff.mpr ⟨e, label, hafter, henrollment⟩
  | refreshed hauth hcovers hnamed node now =>
    exact rowDigest_eq_some_iff.mpr ⟨_, label, hafter, henrollment⟩
  | evicted hevicted => exact absurd hevicted (hspares.2 e)
  | removed hremoves =>
    obtain ⟨io, hop, -⟩ := hremoves
    exact absurd hop (hspares.1 io)

/-- A roster is persisted with the records of its paired rows. -/
theorem hasRecord_of_row {roster : Roster} (hderives : Rederives roster) {id : String}
    {e : Enrolled} {digest : Digest} {label : String} (hrow : roster.get? id = some e)
    (henrollment : e.enrollment = .paired digest label) :
    HasRecord id digest (persistedFarm roster) := by
  have hpaired : e.enrollment.isPaired = true := by rw [henrollment]; rfl
  refine ⟨⟨{ e.reg with node := .null }, e.enrollment⟩, ?_, (hderives id e hrow hpaired).1,
    label, henrollment⟩
  refine List.mem_map.mpr ⟨(id, e), List.mem_filter.mpr ⟨?_, hpaired⟩, rfl⟩
  exact (roster.mem_entries_iff id e).mpr hrow

/-- A roster that an operation persists still has the row of an id that it spares. -/
theorem hasRecord_persisting {farm : Farm} {op : Op} {id : String} {digest : Digest}
    (hrouted : Routed op) (hsound : Sound farm) (hspares : SparesRow id farm op)
    (h : rowDigest farm id = some digest) {io : PersistIo} {roster : Roster}
    (hpersisting : persisting? codec farm op = some (io, roster)) :
    HasRecord id digest (persistedFarm roster) := by
  obtain ⟨e, label, hrow, henrollment⟩ := rowDigest_eq_some_iff.mp h
  have hpaired : e.enrollment.isPaired = true := by rw [henrollment]; rfl
  have hderives := (sound_persisting hrouted hsound hpersisting).2
  refine hasRecord_of_row hderives (e := e) ?_ henrollment
  have hfound := get?_found_of_isPaired op hrow hpaired
  cases op with
  | pair io' now reg digest' label' =>
    rw [persisting?] at hpersisting
    split at hpersisting
    · cases hpersisting
    · rename_i hnew
      cases hpersisting
      have hnone : (prune now farm.inner).get? (assignedId reg) = none :=
        Option.not_isSome_iff_eq_none.mp hnew
      have hne : assignedId reg ≠ id := by
        rintro rfl
        cases hnone.symm.trans hfound
      rw [withPaired, Ordered.Map.get?_insert, if_neg hne]
      rcases get?_makeRoom (prune now farm.inner) id with ⟨e', hfull, -, -⟩ | hkept
      · refine absurd ?_ (hspares.2 e')
        have henrolls : (Op.pair io now reg digest' label').enrolls? = some (assignedId reg) := rfl
        rw [evicted?, henrolls]
        exact (if_pos ⟨by simpa [Op.found] using hnone, hfull.1⟩).trans hfull.2
      · rw [hkept]
        exact hfound
  | remove io' nodeId =>
    rw [persisting?] at hpersisting
    split at hpersisting
    · cases hpersisting
      have hne : id ≠ nodeId := by
        rintro rfl
        exact hspares.1 io rfl
      rw [Ordered.Map.get?_erase, if_neg hne]
      exact hrow
    · cases hpersisting
  | register now reg => cases hpersisting
  | heartbeat now nodeId node auth => cases hpersisting
  | list now => cases hpersisting
  | onlineDescriptions now => cases hpersisting
  | prune now => cases hpersisting

/-- An operation keeps the binding of an id that it spares, whatever the disk answers. -/
theorem binds_step {farm : Farm} {op : Op} {id : String} {digest : Digest} (hrouted : Routed op)
    (hsound : Sound farm) (hspares : SparesRow id farm op) (h : Binds id digest farm) :
    Binds id digest (step codec farm op) := by
  refine ⟨rowDigest_step_of_spares hspares h.row, ?_⟩
  intro location after hafter
  rw [state_step] at hafter
  cases hpersisting : persisting? codec farm op with
  | none =>
    rw [hpersisting] at hafter
    exact h.file location after hafter
  | some call =>
    obtain ⟨io, roster⟩ := call
    rw [hpersisting] at hafter
    dsimp only at hafter
    cases hstate : farm.state with
    | none =>
      rw [hstate] at hafter
      cases hafter
    | some place =>
      obtain ⟨location', disk⟩ := place
      rw [hstate] at hafter
      obtain ⟨after', hpersist, hfile⟩ := persistLocked_file codec io roster location' disk
      rw [hpersist] at hafter
      cases hafter
      rcases hfile with hsame | hnew
      · obtain ⟨state, hholds, hrecord⟩ := h.file location disk hstate
        exact ⟨state, hsame ▸ hholds, hrecord⟩
      · exact ⟨_, hnew, hasRecord_persisting hrouted hsound hspares h.row hpersisting⟩

/-- A pairing that succeeds binds its id. -/
theorem binds_pair {farm : Farm} {io : PersistIo} {now : Instant} {reg : Registration}
    {digest : Digest} {label id : String} (hrouted : checkPairing reg = none) (hsound : Sound farm)
    (hok : (farm.pair codec io now reg digest label).1 = .ok id) :
    id = assignedId reg ∧ Binds id digest (farm.pair codec io now reg digest label).2 := by
  cases hnew : (prune now farm.inner).get? (assignedId reg) with
  | some e =>
    rw [pair_of_enrolled io digest label (by rw [hnew]; rfl)] at hok
    cases hok
  | none =>
    have hpersisting : persisting? codec farm (.pair io now reg digest label) =
        some (io, withPaired codec now reg digest label (prune now farm.inner)) := by
      rw [persisting?, if_neg (by simp [hnew])]
    have hroute : Routed (.pair io now reg digest label) := hrouted
    have hderives := (sound_persisting hroute hsound hpersisting).2
    have hrow : (withPaired codec now reg digest label (prune now farm.inner)).get?
        (assignedId reg) = some ⟨storedRegistration codec reg, now, .paired digest label⟩ := by
      rw [withPaired, Ordered.Map.get?_insert, if_pos rfl]
    rw [pair_of_new io digest label hnew] at hok ⊢
    dsimp only at hok ⊢
    cases hpersist : Farm.persistLocked codec io
        (withPaired codec now reg digest label (prune now farm.inner)) farm.state with
    | mk result state =>
      rw [hpersist] at hok
      cases result with
      | error e => cases hok
      | ok _ =>
        cases hok
        refine ⟨rfl, rowDigest_eq_some_iff.mpr ⟨_, label, hrow, rfl⟩, ?_⟩
        intro location after hafter
        cases hstate : farm.state with
        | none =>
          rw [hstate] at hpersist
          cases hpersist
          cases hafter
        | some place =>
          obtain ⟨location', disk⟩ := place
          rw [hstate] at hpersist
          obtain ⟨after', hdone, hholds⟩ := persistLocked_ok (by rw [hpersist])
          rw [hpersist] at hdone
          cases hdone
          cases hafter
          exact ⟨_, hholds, hasRecord_of_row hderives hrow rfl⟩

/-! ### After a restart -/

theorem get?_loaded_of_not_mem (stale : Instant) {nodes : List PersistedNode} {id : String}
    (h : id ∉ nodes.map fun node ↦ node.reg.nodeId) (roster : Roster) :
    (loaded stale nodes roster).get? id = roster.get? id := by
  induction nodes generalizing roster with
  | nil => rfl
  | cons head rest ih =>
    obtain ⟨hne, hrest⟩ := not_or.mp (List.mem_cons.not.mp h)
    calc (loaded stale (head :: rest) roster).get? id
        = (roster.insert head.reg.nodeId (head.row stale)).get? id := ih hrest _
      _ = roster.get? id := by rw [Ordered.Map.get?_insert, if_neg (Ne.symm hne)]

theorem get?_loaded_of_mem (stale : Instant) {nodes : List PersistedNode}
    (hnodup : (nodes.map fun node ↦ node.reg.nodeId).Nodup) {node : PersistedNode}
    (hnode : node ∈ nodes) (roster : Roster) :
    (loaded stale nodes roster).get? node.reg.nodeId = some (node.row stale) := by
  induction nodes generalizing roster with
  | nil => cases hnode
  | cons head rest ih =>
    rw [List.map_cons, List.nodup_cons] at hnodup
    rcases List.mem_cons.mp hnode with rfl | hrest
    · refine (get?_loaded_of_not_mem stale hnodup.1 _).trans ?_
      rw [Ordered.Map.get?_insert, if_pos rfl]
    · exact ih hnodup.2 hrest _

/-- A hub that opens a file with the record of an id binds the id. -/
theorem binds_open {location : Location} {io : LoadIo} {now : Instant} {disk : Disk} {farm : Farm}
    {id : String} {digest : Digest} {state : PersistedFarm} (hholds : Holds disk.file state)
    (hrecord : HasRecord id digest state) (hopen : Farm.open location io now disk = .ok farm) :
    Binds id digest farm := by
  obtain ⟨loadedState, hload, hnodes, hstate⟩ := open_eq_ok_iff.mp hopen
  obtain rfl := (holds_of_loadState hload).unique hholds
  obtain ⟨hintact, hroster⟩ := openNodes_eq_ok_iff.mp hnodes
  obtain ⟨node, hnode, rfl, label, henrollment⟩ := hrecord
  refine ⟨rowDigest_eq_some_iff.mpr ⟨node.row (staleAt now), label, ?_, henrollment⟩, ?_⟩
  · rw [← hroster]
    exact get?_loaded_of_mem _ hintact.nodup hnode _
  · intro location' disk' hplace
    cases hstate.symm.trans hplace
    exact ⟨_, hholds, node, hnode, rfl, label, henrollment⟩

/-- The directory of a hub that has died, possibly while an operation was persisting. -/
def diskLeft (codec : Codec) (farm : Farm) (during : Option Op) (cut : ℕ) (location : Location)
    (disk : Disk) : Disk :=
  match during.bind (persisting? codec farm) with
  | none => disk
  | some (io, roster) =>
    (((persistState codec location io (persistedFarm roster)).stops disk)[cut]?).getD disk

/-- An id that is bound is in the file that a dying hub leaves, if the operation it dies in spares
the id. -/
theorem hasRecord_diskLeft {farm : Farm} {during : Option Op} {location : Location} {disk : Disk}
    {id : String} {digest : Digest} (hsound : Sound farm)
    (hduring : ∀ op, during = some op → Routed op ∧ SparesRow id farm op)
    (hstate : farm.state = some (location, disk)) (h : Binds id digest farm) (cut : ℕ) :
    ∃ state, Holds (diskLeft codec farm during cut location disk).file state ∧
      HasRecord id digest state := by
  obtain ⟨state, hholds, hrecord⟩ := h.file location disk hstate
  unfold diskLeft
  split
  · exact ⟨state, hholds, hrecord⟩
  · rename_i io roster hpersisting
    obtain ⟨op, rfl, hpersisting⟩ := Option.bind_eq_some_iff.mp hpersisting
    obtain ⟨hrouted, hspares⟩ := hduring op rfl
    cases hstop : ((persistState codec location io (persistedFarm roster)).stops disk)[cut]? with
    | none => exact ⟨state, hholds, hrecord⟩
    | some stop =>
      rw [Option.getD_some]
      rcases file_of_mem_stops (List.mem_of_getElem? hstop) with hsame | ⟨hfits, hnew⟩
      · exact ⟨state, hsame ▸ hholds, hrecord⟩
      · refine ⟨_, hnew ▸ holds_committedFile rfl hfits, ?_⟩
        exact hasRecord_persisting hrouted hsound hspares h.row hpersisting

end Cameo.Hub
