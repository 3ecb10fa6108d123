import Cameo.Hub.StateFile
import Mathlib.Data.List.MinMax

/-!
# The farm

The hub's registry of nodes: a mutex over a map from node ids to records, and the file of the paired
ones.  A node enrolls by the shared farm token or by pairing; it is dropped when it has been silent
for too long, when the registry is full, or when an operator removes it.  Every function reads the
clock before it locks the map, so the readings along a run are not ordered.
-/

namespace Cameo.Hub

open Json Library Library.Durable

/-- `ONLINE_WINDOW`. -/
def onlineWindow : Duration := .fromSecs 45

/-- `DROP_AFTER`. -/
def dropAfter : Duration := .fromSecs (15 * 60)

/-- `MAX_NODES`. -/
def maxNodes : ℕ := 10000

/-- `MAX_NODE_BLOB_BYTES`. -/
def maxNodeBlobBytes : ℕ := 64 * 1024

abbrev Roster := Ordered.Map String Enrolled

/-- `Farm`: the roster, and where its state file is, with the directory of that file. -/
structure Farm where
  inner : Roster
  state : Option (Location × Disk)

/-- `HeartbeatAuth`. -/
inductive HeartbeatAuth where
  | legacyToken
  | pairedDevice
deriving DecidableEq

/-- A credential path refreshes the records of its own kind only. -/
def HeartbeatAuth.covers (auth : HeartbeatAuth) (enrollment : Enrollment) : Bool :=
  match enrollment, auth with
  | .legacyToken, .legacyToken => true
  | .paired _ _, .pairedDevice => true
  | _, _ => false

/-! ## The roster -/

/-- A record that age pruning keeps. -/
def survives (now : Instant) (e : Enrolled) : Bool :=
  e.enrollment.isPaired || e.lastSeen.elapsed now < dropAfter

/-- `prune`. -/
def prune (now : Instant) (roster : Roster) : Roster := roster.retain (survives now)

/-- The least recently seen record, the first by its id among several. -/
def oldest? (roster : Roster) : Option (String × Enrolled) :=
  roster.entries.argmin fun entry ↦ entry.2.lastSeen

/-- `evict_oldest`. -/
def evictOldest (roster : Roster) : Roster :=
  match oldest? roster with
  | some entry => roster.erase entry.1
  | none => roster

/-- A new record goes into a full roster in place of the oldest. -/
def makeRoom (roster : Roster) : Roster :=
  if roster.size ≥ maxNodes then evictOldest roster else roster

def persistedFarm (roster : Roster) : PersistedFarm where
  version := farmStateVersion
  nodes := (roster.entries.filter fun entry ↦ entry.2.enrollment.isPaired).map fun entry ↦
    ⟨{ entry.2.reg with node := .null }, entry.2.enrollment⟩

variable (codec : Codec)

/-- `blob_too_big`. -/
def blobTooBig (node : Value) : Bool := node ≠ .null && codec.size node > maxNodeBlobBytes

/-- A registration as it is stored: under the assigned id, without an oversize description. -/
def storedRegistration (reg : Registration) : Registration :=
  { reg with
    nodeId := assignedId reg
    node := if blobTooBig codec reg.node then .null else reg.node }

theorem storedRegistration_nodeId (reg : Registration) :
    (storedRegistration codec reg).nodeId = assignedId reg := rfl

/-- A node's description with the hub's own word on its trust, as far as there is a place for it. -/
def Enrolled.description (e : Enrolled) : Value :=
  match e.reg.node with
  | .object fields => Value.set (.object fields) "_cameo_hub"
      (.ofFields [("trust", .string e.enrollment.trustName)])
  | other => other

/-- `gpu_summary`. -/
def gpuSummary (node : Value) : Value :=
  match (node.get? "gpus").bind Value.asArray with
  | some gpus => .array (gpus.map fun a ↦
      let field (name : String) := (a.get? "gpu").bind fun gpu ↦ gpu.get? name
      .ofFields [
        ("model", (field "model").getD (.string "GPU")),
        ("vram_mb", (field "vram_mb").getD .null),
        ("vram_used_mb", (field "vram_used_mb").getD .null),
        ("tier", (a.get? "tier").getD .null)])
  | none => .array []

def Enrolled.view (now : Instant) (e : Enrolled) : Value :=
  let age := e.lastSeen.elapsed now
  let label := match e.enrollment with
    | .paired _ label => Value.string label
    | .legacyToken => .null
  .ofFields [
    ("node_id", .string e.reg.nodeId),
    ("name", .string (if e.reg.name = "" then e.reg.nodeId else e.reg.name)),
    ("address", .string e.reg.address),
    ("cameo_version", .string e.reg.cameoVersion),
    ("trust", .string e.enrollment.trustName),
    ("pairing_label", label),
    ("online", .bool (age < onlineWindow)),
    ("age_secs", .nat age.asSecs),
    ("gpus", gpuSummary e.reg.node),
    ("endpoints", (e.reg.node.get? "endpoints").getD (.array [])),
    ("sessions", (e.reg.node.get? "sessions").getD (.array []))]

/-! ## Opening -/

def loadNode (stale : Instant) (roster : Roster) (node : PersistedNode) : Except String Roster :=
  let id := assignedId node.reg
  if !node.enrollment.isPaired then .error "farm state may persist paired identities only"
  else if id ≠ node.reg.nodeId ∨ (roster.get? id).isSome then
    .error ("farm state has an invalid or duplicate node id '" ++ id ++ "'")
  else .ok (roster.insert id ⟨node.reg, stale, node.enrollment⟩)

/-- A time at which a node counts as offline, if the clock goes back that far. -/
def staleAt (now : Instant) : Instant := if onlineWindow ≤ now then now - onlineWindow else now

namespace Farm

/-- `Farm::new`. -/
def new : Farm := ⟨.empty, none⟩

/-- `Farm::open`. -/
def «open» (location : Location) (io : LoadIo) (now : Instant) (disk : Disk) :
    Except String Farm := do
  let persisted ← loadState location.path io disk.file
  if persisted.nodes.length > maxNodes then
    throw ("farm state " ++ location.path ++ " contains more than " ++ toString maxNodes ++
      " nodes")
  let roster ← persisted.nodes.foldlM (loadNode (staleAt now)) .empty
  return ⟨roster, some (location, disk)⟩

/-! ## Changes -/

/-- `persist_locked`. -/
def persistLocked (io : PersistIo) (roster : Roster) :
    Option (Location × Disk) → Except String Unit × Option (Location × Disk)
  | none => (.ok (), none)
  | some (location, disk) =>
    let course := persistState codec location io (persistedFarm roster)
    ((course disk).result, some (location, course.final disk))

/-- `Farm::register`. -/
def register (now : Instant) (reg : Registration) (farm : Farm) : String × Farm :=
  let id := assignedId reg
  let stored := storedRegistration codec reg
  let roster := prune now farm.inner
  match roster.get? id with
  | some e =>
    if e.enrollment.isPaired then (id, { farm with inner := roster })
    else
      let reg := { e.reg with
        name := stored.name, cameoVersion := stored.cameoVersion, node := stored.node }
      (id, { farm with inner := roster.insert id { e with reg := reg, lastSeen := now } })
  | none =>
    (id, { farm with inner := (makeRoom roster).insert id ⟨stored, now, .legacyToken⟩ })

/-- `Farm::pair`. -/
def pair (io : PersistIo) (now : Instant) (reg : Registration) (digest : Digest) (label : String)
    (farm : Farm) : Except String String × Farm :=
  let id := assignedId reg
  let stored := storedRegistration codec reg
  let roster := prune now farm.inner
  if (roster.get? id).isSome then
    (.error ("node_id '" ++ id ++ "' is already enrolled; remove it before pairing a replacement"),
      { farm with inner := roster })
  else
    let enrolled := (makeRoom roster).insert id ⟨stored, now, .paired digest label⟩
    match persistLocked codec io enrolled farm.state with
    | (.error e, state) => (.error e, ⟨enrolled.erase id, state⟩)
    | (.ok (), state) => (.ok id, ⟨enrolled, state⟩)

/-- `Farm::remove`. -/
def remove (io : PersistIo) (nodeId : String) (farm : Farm) : Except String Bool × Farm :=
  match farm.inner.get? nodeId with
  | none => (.ok false, farm)
  | some row =>
    let roster := farm.inner.erase nodeId
    match persistLocked codec io roster farm.state with
    | (.error e, state) => (.error e, ⟨roster.insert nodeId row, state⟩)
    | (.ok (), state) => (.ok true, ⟨roster, state⟩)

/-- `Farm::heartbeat`. -/
def heartbeat (now : Instant) (nodeId : String) (node : Option Value) (auth : HeartbeatAuth)
    (farm : Farm) : Bool × Farm :=
  let roster := prune now farm.inner
  match roster.get? nodeId with
  | some e =>
    if auth.covers e.enrollment then
      let description := match node with
        | some n => if n ≠ .null ∧ !blobTooBig codec n then n else e.reg.node
        | none => e.reg.node
      let row := { e with reg := { e.reg with node := description }, lastSeen := now }
      (true, { farm with inner := roster.insert nodeId row })
    else (false, { farm with inner := roster })
  | none => (false, { farm with inner := roster })

/-! ## Readings -/

/-- `Farm::contains`. -/
def contains (nodeId : String) (farm : Farm) : Bool := (farm.inner.get? nodeId).isSome

/-- `Farm::authenticate_paired`, given `hash_secret`. -/
def authenticatePaired (hash : String → Digest) (nodeId : String) (credential : Option String)
    (farm : Farm) : Bool :=
  match credential, (farm.inner.get? nodeId).map Enrolled.enrollment with
  | some presented, some (.paired digest _) => credentialMatches hash digest presented
  | _, _ => false

/-- `Farm::online_descriptions`. -/
def onlineDescriptions (now : Instant) (farm : Farm) : List (String × Value) × Farm :=
  let roster := prune now farm.inner
  let online := roster.entries.filter fun entry ↦ entry.2.lastSeen.elapsed now < onlineWindow
  (online.map fun entry ↦ (entry.2.reg.nodeId, entry.2.description), { farm with inner := roster })

/-- `Farm::list`. -/
def list (now : Instant) (farm : Farm) : List Value × Farm :=
  let roster := prune now farm.inner
  (roster.entries.map fun entry ↦ entry.2.view now, { farm with inner := roster })

end Farm

end Cameo.Hub
