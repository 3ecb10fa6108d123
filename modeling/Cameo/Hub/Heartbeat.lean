import Cameo.Daemon.Access
import Cameo.Hub.Identities

/-!
# Heartbeats

The heartbeat route takes the lock of the roster twice: once to authenticate the credential against
the row, and once to refresh the row.  Requests of other connections come in between, so the hub is
modelled with the heartbeats that are between their two sections.  A refreshed row is the one that
the credential was checked against, unless the id has been removed and paired again meanwhile.
-/

namespace Cameo.Hub

open Json Library

/-- A heartbeat between its two sections: what it brings, and what it was authenticated with. -/
structure Beat where
  nodeId : String
  node : Option Value
  auth : HeartbeatAuth
  presented : Option String
deriving DecidableEq

/-- The hub: its farm, and the heartbeats under way. -/
structure Serving where
  farm : Farm
  beats : List Beat

/-- The operation belongs to another route than the heartbeats. -/
def Op.isOther : Op → Bool
  | heartbeat _ _ _ _ => false
  | register _ _ | pair _ _ _ _ _ | remove _ _ | list _ | onlineDescriptions _ | prune _ => true

inductive Event where
  /-- A request of another route has its turn. -/
  | other (op : Op) (hother : op.isOther = true)
  /-- A heartbeat is authenticated; `body` is its body, if that is JSON. -/
  | authenticate (access : Daemon.AccessState) (req : Daemon.Request) (body : Option Value)
  /-- One of the heartbeats under way refreshes its row. -/
  | update (index : ℕ) (now : Instant)

section Model

variable (codec : Codec) (hash : String → Digest)

def authenticateHeartbeat (access : Daemon.AccessState) (req : Daemon.Request)
    (body : Option Value) (farm : Farm) : Except Daemon.Response Beat :=
  match body with
  | none => .error (.error 400 "heartbeat body must be JSON")
  | some v =>
    match (v.get? "node_id").bind Value.asStr with
    | none => .error (.error 400 "heartbeat needs a node_id")
    | some nodeId =>
      if farm.authenticatePaired hash nodeId (Daemon.bearer req) then
        .ok ⟨nodeId, v.get? "node", .pairedDevice, Daemon.bearer req⟩
      else
        match Daemon.checkFarmAuth access req with
        | some denied => .error denied
        | none => .ok ⟨nodeId, v.get? "node", .legacyToken, Daemon.bearer req⟩

def serve (hub : Serving) : Event → Serving
  | .other op _ => { hub with farm := step codec hub.farm op }
  | .authenticate access req body =>
    match authenticateHeartbeat hash access req body hub.farm with
    | .error _ => hub
    | .ok beat => { hub with beats := hub.beats ++ [beat] }
  | .update index now =>
    match hub.beats[index]? with
    | none => hub
    | some beat =>
      ⟨(hub.farm.heartbeat codec now beat.nodeId beat.node beat.auth).2, hub.beats.eraseIdx index⟩

/-- The digest of the credential that a row is bound to. -/
def rowDigest (farm : Farm) (id : String) : Option Digest :=
  match (farm.inner.get? id).map Enrolled.enrollment with
  | some (.paired digest _) => some digest
  | _ => none

/-- A heartbeat that refreshes a paired row has been authenticated with the credential of which the
row holds the digest. -/
def BoundToRow (hub : Serving) : Event → Prop
  | .update index now => ∀ beat, hub.beats[index]? = some beat →
      (hub.farm.heartbeat codec now beat.nodeId beat.node beat.auth).1 = true →
      ∀ digest, rowDigest hub.farm beat.nodeId = some digest →
        beat.presented.map hash = some digest
  | .other _ _ | .authenticate _ _ _ => True

/-- A pairing succeeds only while no heartbeat is under way that has been authenticated for the same
id, unless it was with the same credential. -/
def PairsUnattended (hub : Serving) : Event → Prop
  | .other (.pair io now reg digest label) _ =>
    (hub.farm.pair codec io now reg digest label).1 = .ok (assignedId reg) →
      ∀ beat ∈ hub.beats, beat.auth = .pairedDevice → beat.nodeId = assignedId reg →
        beat.presented.map hash = some digest
  | .other _ _ | .authenticate _ _ _ | .update _ _ => True

/-- Every heartbeat under way that has been authenticated by a device credential still has that of
its row, if the row is a paired one. -/
def Bound (hub : Serving) : Prop :=
  ∀ beat ∈ hub.beats, beat.auth = .pairedDevice →
    ∀ digest, rowDigest hub.farm beat.nodeId = some digest → beat.presented.map hash = some digest

end Model

variable {codec : Codec} {hash : String → Digest}

/-! ## The digest of a row -/

theorem rowDigest_eq_some_iff {farm : Farm} {id : String} {digest : Digest} :
    rowDigest farm id = some digest ↔
      ∃ e label, farm.inner.get? id = some e ∧ e.enrollment = .paired digest label := by
  unfold rowDigest
  cases hrow : farm.inner.get? id with
  | none => simp
  | some e =>
    cases henrollment : e.enrollment with
    | legacyToken => simp [henrollment]
    | paired digest' label => simp [henrollment]

/-- A device credential is checked against the digest of the row. -/
theorem map_hash_of_authenticatePaired {farm : Farm} {nodeId : String} {presented : Option String}
    (h : farm.authenticatePaired hash nodeId presented = true) {digest : Digest}
    (hdigest : rowDigest farm nodeId = some digest) : presented.map hash = some digest := by
  obtain ⟨e, label, hrow, henrollment⟩ := rowDigest_eq_some_iff.mp hdigest
  cases presented with
  | none => simp [Farm.authenticatePaired] at h
  | some credential =>
    have hmatches : ctDigestEq digest (hash credential) = true := by
      simpa [Farm.authenticatePaired, hrow, henrollment, credentialMatches] using h
    rw [Option.map_some, (ctDigestEq_iff _ _).mp hmatches]

/-- A row gets its digest when it is paired, and keeps it. -/
theorem rowDigest_step {farm : Farm} {op : Op} {id : String} {digest : Digest}
    (h : rowDigest (step codec farm op) id = some digest) :
    rowDigest farm id = some digest ∨
      ∃ io now reg label, op = .pair io now reg digest label ∧ id = assignedId reg ∧
        (farm.pair codec io now reg digest label).1 = .ok (assignedId reg) := by
  obtain ⟨e, label, hafter, henrollment⟩ := rowDigest_eq_some_iff.mp h
  have hchange := step_row codec farm op id
  rw [hafter] at hchange
  generalize hfound : (op.found farm).get? id = before at hchange
  cases hchange with
  | kept =>
    exact .inl (rowDigest_eq_some_iff.mpr ⟨e, label, get?_of_get?_found hfound, henrollment⟩)
  | refreshed hauth hcovers hnamed node now =>
    exact .inl (rowDigest_eq_some_iff.mpr ⟨_, label, get?_of_get?_found hfound, henrollment⟩)
  | @enrolled _ reg hop hid hreg hkind =>
    right
    rw [henrollment] at hkind
    cases op with
    | pair io now reg' digest' label' =>
      obtain ⟨rfl, rfl⟩ : digest' = digest ∧ label' = label := by
        simpa [Op.enrollment?] using hkind
      obtain rfl : reg' = reg := Option.some.inj hop
      subst hid
      have hpair : (farm.pair codec io now reg' digest' label').2.inner.get? (assignedId reg') =
          some e := hafter
      refine ⟨io, now, reg', label', rfl, rfl, ?_⟩
      rw [pair_of_new io digest' label' hfound] at hpair ⊢
      dsimp only at hpair ⊢
      split at hpair
      · rw [Ordered.Map.get?_erase, if_pos rfl] at hpair
        cases hpair
      · rfl
    | register now reg' => cases hkind
    | heartbeat now nodeId node auth => cases hkind
    | remove io nodeId => cases hkind
    | list now => cases hkind
    | onlineDescriptions now => cases hkind
    | prune now => cases hkind

/-! ## Runs -/

theorem bound_other {hub : Serving} {op : Op} {hother : op.isOther = true} (h : Bound hash hub)
    (hpairs : PairsUnattended codec hash hub (.other op hother)) :
    Bound hash (serve codec hash hub (.other op hother)) := by
  intro beat hbeat hauth digest hdigest
  rcases rowDigest_step hdigest with hbefore | ⟨io, now, reg, label, rfl, hid, hok⟩
  · exact h beat hbeat hauth digest hbefore
  · exact hpairs hok beat hbeat hauth hid

theorem bound_authenticate {hub : Serving} (h : Bound hash hub) (access : Daemon.AccessState)
    (req : Daemon.Request) (body : Option Value) :
    Bound hash (serve codec hash hub (.authenticate access req body)) := by
  unfold serve
  dsimp only
  split
  · exact h
  · rename_i beat hbeat
    intro other hother hauth digest hdigest
    rcases List.mem_append.mp hother with hold | hnew
    · exact h other hold hauth digest hdigest
    · obtain rfl := List.mem_singleton.mp hnew
      -- It is authenticated as a device only where its credential matches the row.
      unfold authenticateHeartbeat at hbeat
      split at hbeat
      · cases hbeat
      · split at hbeat
        · cases hbeat
        · split at hbeat
          · rename_i hmatches
            obtain rfl := Except.ok.inj hbeat
            exact map_hash_of_authenticatePaired hmatches hdigest
          · split at hbeat
            · cases hbeat
            · obtain rfl := Except.ok.inj hbeat
              cases hauth

theorem bound_update {hub : Serving} (h : Bound hash hub) (index : ℕ) (now : Instant) :
    Bound hash (serve codec hash hub (.update index now)) := by
  unfold serve
  dsimp only
  split
  · exact h
  · rename_i beat hbeat
    intro other hother hauth digest hdigest
    have hrow : rowDigest hub.farm other.nodeId = some digest := by
      have hstep : rowDigest (step codec hub.farm (.heartbeat now beat.nodeId beat.node beat.auth))
          other.nodeId = some digest := hdigest
      rcases rowDigest_step hstep with hbefore | ⟨io, now', reg, label, hop, -⟩
      · exact hbefore
      · cases hop
    exact h other (List.mem_of_mem_eraseIdx hother) hauth digest hrow

theorem bound_step {hub : Serving} {event : Event} (h : Bound hash hub)
    (hpairs : PairsUnattended codec hash hub event) : Bound hash (serve codec hash hub event) := by
  cases event with
  | other op hother => exact bound_other h hpairs
  | authenticate access req body => exact bound_authenticate h access req body
  | update index now => exact bound_update h index now

/-- The credential path of a heartbeat that refreshes a paired row. -/
theorem auth_of_heartbeat {farm : Farm} {now : Instant} {nodeId : String} {node : Option Value}
    {auth : HeartbeatAuth} {digest : Digest}
    (h : (farm.heartbeat codec now nodeId node auth).1 = true)
    (hdigest : rowDigest farm nodeId = some digest) : auth = .pairedDevice := by
  obtain ⟨e, label, hrow, henrollment⟩ := rowDigest_eq_some_iff.mp hdigest
  have hpaired : e.enrollment.isPaired = true := by rw [henrollment]; rfl
  have hfound : (prune now farm.inner).get? nodeId = some e :=
    get?_found_of_isPaired (.heartbeat now nodeId node auth) hrow hpaired
  unfold Farm.heartbeat at h
  simp only [hfound, henrollment] at h
  cases auth with
  | pairedDevice => rfl
  | legacyToken => simp [HeartbeatAuth.covers] at h

theorem boundToRow_of_bound {hub : Serving} (h : Bound hash hub) (event : Event) :
    BoundToRow codec hash hub event := by
  cases event with
  | update index now =>
    intro beat hbeat hrefreshes digest hdigest
    exact h beat (List.mem_of_getElem? hbeat) (auth_of_heartbeat hrefreshes hdigest) digest hdigest
  | other op hother => trivial
  | authenticate access req body => trivial

/-- In a run in which no id is paired while a heartbeat authenticated for it is under way, every
heartbeat that refreshes a paired row has been authenticated with the credential of that row. -/
theorem heartbeat_bound_to_row {start : Farm} {events : List Event}
    (h : Run.Meets (serve codec hash) (PairsUnattended codec hash) ⟨start, []⟩ events) :
    Run.Meets (serve codec hash) (BoundToRow codec hash) ⟨start, []⟩ events := by
  refine h.of_invariant (Bound hash) ?_ ?_ ?_
  · exact fun hub event hbound hpairs ↦ bound_step hbound hpairs
  · exact fun hub event hbound _ ↦ boundToRow_of_bound hbound event
  · exact fun beat hbeat ↦ absurd hbeat List.not_mem_nil

/-! ## A node that is replaced -/

def oldCredential : String := "00112233445566778899aabbccddeeff00112233445566778899aabbccddeeff"

def oldDigest : Digest :=
  #v[42, 138, 191, 168, 203, 153, 6, 41, 4, 55, 133, 65, 147, 202, 107, 202,
    65, 212, 212, 226, 109, 29, 69, 75, 214, 106, 53, 21, 128, 149, 231, 55]

def newDigest : Digest :=
  #v[133, 136, 205, 252, 214, 210, 176, 213, 33, 188, 240, 191, 94, 112, 23, 192,
    106, 63, 74, 16, 161, 114, 217, 175, 20, 54, 32, 94, 58, 242, 5, 173]

def deviceReg : Registration :=
  ⟨"gpu-box", "", "https://node.example", some "callback-key-0123", "0.4.0", .null⟩

def oldDeviceRequest : Daemon.Request :=
  ⟨"POST", "/hub/heartbeat", .ofList [("authorization", "Bearer " ++ oldCredential)], false, none⟩

/-- The replaced device is paired, and a heartbeat of it is authenticated. -/
def authenticated : List Event := [
  .other (.pair (.working 1) 0 deviceReg oldDigest "desk") rfl,
  .authenticate { Daemon.freshAccess ⟨[]⟩ with hubEnabled := true } oldDeviceRequest
    (some (.ofFields [("node_id", .string "gpu-box")]))]

/-- Before the heartbeat refreshes the row, the device is removed and another one paired. -/
def replaced : List Event := authenticated ++ [
  .other (.remove (.working 1) "gpu-box") rfl,
  .other (.pair (.working 1) 0 deviceReg newDigest "desk") rfl]

theorem heartbeat_bound_to_first_row :
    Run.Meets (serve .compact fun _ ↦ oldDigest) (BoundToRow .compact fun _ ↦ oldDigest)
      ⟨.new, []⟩ (authenticated ++ [.update 0 0]) :=
  heartbeat_bound_to_row
    ⟨fun _ _ hbeat ↦ absurd hbeat List.not_mem_nil, trivial, trivial, trivial⟩

/-- The heartbeat of a device that has been removed refreshes the row of its replacement. -/
theorem removed_device_refreshes_replacement :
    ¬ Run.Meets (serve .compact fun _ ↦ oldDigest) (BoundToRow .compact fun _ ↦ oldDigest)
      ⟨.new, []⟩ (replaced ++ [.update 0 0]) := by
  have hbeat : (Run.run (serve .compact fun _ ↦ oldDigest) ⟨.new, []⟩ replaced).beats[0]? =
      some ⟨"gpu-box", none, .pairedDevice, some oldCredential⟩ := by decide +kernel
  have hrefreshes : ((Run.run (serve .compact fun _ ↦ oldDigest) ⟨.new, []⟩
      replaced).farm.heartbeat .compact 0 "gpu-box" none .pairedDevice).1 = true := by
    decide +kernel
  have hdigest : rowDigest (Run.run (serve .compact fun _ ↦ oldDigest) ⟨.new, []⟩ replaced).farm
      "gpu-box" = some newDigest := by decide +kernel
  rw [Run.meets_append]
  rintro ⟨-, hlast, -⟩
  have hsame : oldDigest = newDigest := Option.some.inj (hlast _ hbeat hrefreshes _ hdigest)
  revert hsame
  decide +kernel

end Cameo.Hub
