import Cameo.Hub.Pairing
import Cameo.Hub.Roster
import Cameo.Library.Fallible

/-!
# Loading the state file

The state file holds the paired rows without their descriptions.  The loader derives each id again
from the record and refuses the whole file when one differs; for the ids that the pairing route
accepts the two agree, so opening the file gives back the paired rows of the farm that wrote it.
-/

namespace Cameo.Hub

open Json Library Library.Durable

variable {codec : Codec}

/-! ## What is durable about a row -/

/-- What the state file keeps of a row. -/
def Enrolled.identity? (e : Enrolled) : Option PersistedNode :=
  if e.enrollment.isPaired then some ⟨{ e.reg with node := .null }, e.enrollment⟩ else none

/-- The rows that the state file keeps, by their ids. -/
def identities (roster : Roster) : Ordered.Map String PersistedNode :=
  roster.filterMap Enrolled.identity?

theorem persistedFarm_nodes (roster : Roster) :
    (persistedFarm roster).nodes = (identities roster).entries.map Prod.snd := by
  simp only [persistedFarm, identities, Ordered.Map.filterMap]
  induction roster.entries with
  | nil => rfl
  | cons entry rest ih =>
    cases hpaired : entry.2.enrollment.isPaired with
    | true => simp [hpaired, Enrolled.identity?, ih]
    | false => simp [hpaired, Enrolled.identity?, ih]

/-- The file of two rosters is the same if what they keep of every row is. -/
theorem persistedFarm_congr {left right : Roster}
    (h : ∀ id, (left.get? id).bind Enrolled.identity? = (right.get? id).bind Enrolled.identity?) :
    persistedFarm left = persistedFarm right := by
  have hsame : identities left = identities right := by
    apply Ordered.Map.ext_get?
    intro id
    rw [identities, identities, Ordered.Map.get?_filterMap, Ordered.Map.get?_filterMap, h]
  have hnodes : (persistedFarm left).nodes = (persistedFarm right).nodes := by
    rw [persistedFarm_nodes, persistedFarm_nodes, hsame]
  simpa only [persistedFarm, PersistedFarm.mk.injEq, true_and] using hnodes

def PersistedNode.row (stale : Instant) (node : PersistedNode) : Enrolled :=
  ⟨node.reg, stale, node.enrollment⟩

/-- The paired rows of a roster as they are after a restart: offline and without a description. -/
def offline (stale : Instant) (roster : Roster) : Roster :=
  roster.filterMap fun e ↦ e.identity?.map (PersistedNode.row stale)

/-- Every paired row is under the id that its registration derives. -/
def Rederives (roster : Roster) : Prop :=
  ∀ id e, roster.get? id = some e → e.enrollment.isPaired = true →
    e.reg.nodeId = id ∧ assignedId e.reg = id

theorem assignedId_withNode (reg : Registration) (node : Value) :
    assignedId { reg with node := node } = assignedId reg := by
  rw [assignedId_eq_capIdLen, assignedId_eq_capIdLen, pickId, pickId]

/-! ## The loader -/

/-- A record that the loader takes: a paired one whose registration derives its id. -/
structure Loadable (node : PersistedNode) : Prop where
  paired : node.enrollment.isPaired = true
  derived : assignedId node.reg = node.reg.nodeId

/-- Records that the loader takes together. -/
structure Intact (nodes : List PersistedNode) : Prop where
  room : nodes.length ≤ maxNodes
  loadable : ∀ node ∈ nodes, Loadable node
  nodup : (nodes.map fun node ↦ node.reg.nodeId).Nodup

theorem loadNode_eq_ok_iff {stale : Instant} {roster after : Roster} {node : PersistedNode} :
    loadNode stale roster node = .ok after ↔
      Loadable node ∧ roster.get? node.reg.nodeId = none ∧
        roster.insert node.reg.nodeId (node.row stale) = after := by
  unfold loadNode
  by_cases hpaired : node.enrollment.isPaired = true
  · by_cases hderived : assignedId node.reg = node.reg.nodeId
    · rw [if_neg (by simp [hpaired]), hderived]
      cases hnew : roster.get? node.reg.nodeId with
      | none => simp [PersistedNode.row, Loadable.mk hpaired hderived]
      | some e => simp
    · have hnot : ¬ Loadable node := fun h ↦ hderived h.derived
      simp [hpaired, hderived, hnot]
  · have hnot : ¬ Loadable node := fun h ↦ hpaired h.paired
    simp [hpaired, hnot]

def loaded (stale : Instant) (nodes : List PersistedNode) (roster : Roster) : Roster :=
  nodes.foldl (fun acc node ↦ acc.insert node.reg.nodeId (node.row stale)) roster

/-- The records are all loaded exactly if each is loadable and its id is new. -/
theorem foldlM_loadNode_eq_ok_iff {stale : Instant} {nodes : List PersistedNode}
    {roster after : Roster} :
    nodes.foldlM (loadNode stale) roster = .ok after ↔
      (∀ node ∈ nodes, Loadable node ∧ roster.get? node.reg.nodeId = none) ∧
        (nodes.map fun node ↦ node.reg.nodeId).Nodup ∧ loaded stale nodes roster = after := by
  induction nodes generalizing roster with
  | nil => simp [loaded, pure, Except.pure]
  | cons node rest ih =>
    have hget (other : PersistedNode) :
        (roster.insert node.reg.nodeId (node.row stale)).get? other.reg.nodeId = none ↔
          node.reg.nodeId ≠ other.reg.nodeId ∧ roster.get? other.reg.nodeId = none := by
      rw [Ordered.Map.get?_insert]
      split <;> simp_all
    simp only [List.foldlM_cons, bind_eq_ok, loadNode_eq_ok_iff, ih]
    constructor
    · rintro ⟨-, ⟨hload, hnew, rfl⟩, hrest, hnodup, hafter⟩
      refine ⟨List.forall_mem_cons.mpr ⟨⟨hload, hnew⟩, fun other hother ↦ ?_⟩, ?_, hafter⟩
      · obtain ⟨hload, hnew⟩ := hrest other hother
        exact ⟨hload, ((hget other).mp hnew).2⟩
      · refine List.nodup_cons.mpr ⟨fun hmem ↦ ?_, hnodup⟩
        obtain ⟨other, hother, hsame⟩ := List.mem_map.mp hmem
        exact ((hget other).mp (hrest other hother).2).1 hsame.symm
    · rintro ⟨hall, hnodup, hafter⟩
      obtain ⟨⟨hload, hnew⟩, hrest⟩ := List.forall_mem_cons.mp hall
      obtain ⟨hfresh, hnodup⟩ := List.nodup_cons.mp hnodup
      refine ⟨_, ⟨hload, hnew, rfl⟩, fun other hother ↦ ?_, hnodup, hafter⟩
      refine ⟨(hrest other hother).1, (hget other).mpr ⟨fun hsame ↦ ?_, (hrest other hother).2⟩⟩
      exact hfresh (List.mem_map.mpr ⟨other, hother, hsame.symm⟩)

/-- `Farm::open` once it has read the file. -/
def openNodes (path : String) (now : Instant) (state : PersistedFarm) : Except String Roster :=
  if state.nodes.length > maxNodes then
    .error ("farm state " ++ path ++ " contains more than " ++ toString maxNodes ++ " nodes")
  else state.nodes.foldlM (loadNode (staleAt now)) .empty

theorem openNodes_eq_ok_iff {path : String} {now : Instant} {state : PersistedFarm}
    {roster : Roster} :
    openNodes path now state = .ok roster ↔
      Intact state.nodes ∧ loaded (staleAt now) state.nodes .empty = roster := by
  unfold openNodes
  by_cases hroom : state.nodes.length > maxNodes
  · have hnot : ¬ Intact state.nodes := fun h ↦ not_lt.mpr h.room hroom
    simp [hroom, hnot]
  · rw [if_neg hroom, foldlM_loadNode_eq_ok_iff]
    constructor
    · rintro ⟨hload, hnodup, hroster⟩
      exact ⟨⟨not_lt.mp hroom, fun node hnode ↦ (hload node hnode).1, hnodup⟩, hroster⟩
    · rintro ⟨hintact, hroster⟩
      refine ⟨fun node hnode ↦ ⟨hintact.loadable node hnode, ?_⟩, hintact.nodup, hroster⟩
      exact Ordered.Map.get?_empty _

/-! ## Opening the file -/

/-- The roster that opening a directory gives. -/
def reopened (location : Location) (io : LoadIo) (now : Instant) (disk : Disk) :
    Except String Roster :=
  (Farm.open location io now disk).map Farm.inner

structure LoadIo.Works (io : LoadIo) : Prop where
  inspect : io.inspect = .ok ()
  read : io.read = .ok ()

def Holds (file : Option StateFile) (state : PersistedFarm) : Prop :=
  ∀ path io, io.Works → loadState path io file = .ok state

variable {location : Location} {io : LoadIo} {now : Instant} {disk : Disk} {state : PersistedFarm}

theorem open_eq_ok_iff {farm : Farm} :
    Farm.open location io now disk = .ok farm ↔
      ∃ state, loadState location.path io disk.file = .ok state ∧
        openNodes location.path now state = .ok farm.inner ∧
          farm.state = some (location, disk) := by
  unfold Farm.open openNodes
  cases loadState location.path io disk.file with
  | error e => simp [bind, Except.bind]
  | ok state =>
    by_cases hroom : state.nodes.length > maxNodes
    · simp [bind, Except.bind, hroom, throw, throwThe, MonadExceptOf.throw]
    · simp only [bind, Except.bind, if_neg hroom, pure, Except.pure]
      cases hnodes : state.nodes.foldlM (loadNode (staleAt now)) .empty with
      | error e => simp [hroom, hnodes]
      | ok roster =>
        obtain ⟨inner, dir⟩ := farm
        simp [hroom, hnodes, eq_comm]

theorem Holds.unique {file : Option StateFile} {other : PersistedFarm} (h : Holds file state)
    (hother : Holds file other) : state = other := by
  have hworks : LoadIo.Works ⟨.ok (), .ok (), ""⟩ := ⟨rfl, rfl⟩
  exact Except.ok.inj ((h "" _ hworks).symm.trans (hother "" _ hworks))

theorem reopened_eq (location : Location) (io : LoadIo) (now : Instant) (disk : Disk) :
    reopened location io now disk =
      (loadState location.path io disk.file).bind (openNodes location.path now) := by
  unfold reopened Farm.open openNodes
  cases loadState location.path io disk.file with
  | error e => rfl
  | ok state =>
    by_cases hroom : state.nodes.length > maxNodes
    · simp [bind, Except.bind, hroom, throw, throwThe, MonadExceptOf.throw, Except.map]
    · simp only [bind, Except.bind, if_neg hroom, pure, Except.pure]
      cases state.nodes.foldlM (loadNode (staleAt now)) .empty with
      | error e => rfl
      | ok roster => rfl

/-- Opening a file that loads. -/
theorem reopened_of_holds (hio : io.Works) (hfile : Holds disk.file state) :
    reopened location io now disk = openNodes location.path now state := by
  rw [reopened_eq, hfile location.path io hio]
  rfl

/-- Without a state file there are no identities. -/
theorem holds_none : Holds none ⟨farmStateVersion, []⟩ := by
  intro path io hio
  simp only [loadState, hio.inspect]

theorem holds_committedFile (hversion : state.version = farmStateVersion)
    (hfits : codec.size state.toValue ≤ maxFarmStateBytes) :
    Holds (some (committedFile codec (some state.toValue))) state := by
  intro path io hio
  have hmode : ¬ (0o600 &&& 0o077 ≠ 0) := by decide
  have hregular : ¬ ((!true || decide (codec.size state.toValue > maxFarmStateBytes)) = true) := by
    simpa using hfits
  simp only [loadState, hio.inspect, hio.read, committedFile, Option.map_some, Option.getD_some,
    Option.bind_some, PersistedFarm.fromValue_toValue]
  rw [if_neg hregular, if_neg hmode, if_neg (not_not.mpr hversion)]

/-- A file that has been loaded once loads the same again. -/
theorem holds_of_loadState {path : String} {file : Option StateFile}
    (h : loadState path io file = .ok state) : Holds file state := by
  intro path' io' hio'
  unfold loadState at *
  simp only [hio'.inspect, hio'.read]
  cases hinspect : io.inspect with
  | error e => simp [hinspect] at h
  | ok _ =>
    simp only [hinspect] at h
    cases file with
    | none => exact h
    | some file =>
      dsimp only at h ⊢
      split at h
      · cases h
      · split at h
        · cases h
        · rename_i hregular hmode
          rw [if_neg hregular, if_neg hmode]
          cases hread : io.read with
          | error e => simp [hread] at h
          | ok _ =>
            simp only [hread] at h
            cases hcontent : file.content.bind PersistedFarm.fromValue with
            | none => simp [hcontent] at h
            | some content =>
              simp only [hcontent] at h
              dsimp only
              split at h
              · cases h
              · rename_i hversion
                rw [if_neg hversion]
                exact h

/-! ## The file of a roster -/

theorem loadable_of_mem_identities {roster : Roster} (hderives : Rederives roster)
    {pair : String × PersistedNode} (h : pair ∈ (identities roster).entries) :
    Loadable pair.2 ∧ pair.2.reg.nodeId = pair.1 := by
  obtain ⟨id, node⟩ := pair
  have hnode := ((identities roster).mem_entries_iff id node).mp h
  rw [identities, Ordered.Map.get?_filterMap] at hnode
  obtain ⟨e, hrow, hidentity⟩ := Option.bind_eq_some_iff.mp hnode
  unfold Enrolled.identity? at hidentity
  split at hidentity
  · rename_i hpaired
    obtain rfl := Option.some.inj hidentity
    obtain ⟨hnodeId, hderived⟩ := hderives id e hrow hpaired
    refine ⟨⟨hpaired, ?_⟩, hnodeId⟩
    rw [assignedId_withNode, hderived]
    exact hnodeId.symm
  · cases hidentity

theorem intact_persistedFarm {roster : Roster} (hroom : roster.size ≤ maxNodes)
    (hderives : Rederives roster) : Intact (persistedFarm roster).nodes := by
  rw [persistedFarm_nodes]
  refine ⟨?_, ?_, ?_⟩
  · rw [List.length_map]
    exact (Ordered.Map.size_filterMap_le _ _).trans hroom
  · intro node hnode
    obtain ⟨pair, hpair, rfl⟩ := List.mem_map.mp hnode
    exact (loadable_of_mem_identities hderives hpair).1
  · rw [List.map_map]
    have hkeys : (identities roster).entries.map ((fun node ↦ node.reg.nodeId) ∘ Prod.snd) =
        (identities roster).entries.map Prod.fst :=
      List.map_congr_left fun pair hpair ↦ (loadable_of_mem_identities hderives hpair).2
    rw [hkeys]
    exact (identities roster).nodup_keys

/-- Loading what a roster persists gives its paired rows. -/
theorem loaded_persistedFarm {roster : Roster} (hderives : Rederives roster) (stale : Instant) :
    loaded stale (persistedFarm roster).nodes .empty = offline stale roster := by
  have hinsert : loaded stale (persistedFarm roster).nodes .empty =
      (identities roster).entries.foldl
        (fun acc pair ↦ acc.insert pair.1 (pair.2.row stale)) .empty := by
    rw [persistedFarm_nodes, loaded, List.foldl_map]
    refine List.foldl_ext _ _ _ fun acc pair hpair ↦ ?_
    rw [(loadable_of_mem_identities hderives hpair).2]
  have hfind (id : String) : ((identities roster).entries.find? fun pair ↦ pair.1 = id).map
      Prod.snd = (roster.get? id).bind Enrolled.identity? :=
    Ordered.Map.get?_filterMap _ _ _
  rw [hinsert]
  apply Ordered.Map.ext_get?
  intro id
  have hrow : ((roster.get? id).bind Enrolled.identity?).map (PersistedNode.row stale) =
      (roster.get? id).bind fun e ↦ e.identity?.map (PersistedNode.row stale) := by
    rw [Option.map_bind]
    rfl
  rw [Ordered.Map.get?_foldl_insert _ (identities roster).nodup_keys, Ordered.Map.get?_empty,
    offline, Ordered.Map.get?_filterMap, Option.or_none, ← hrow, ← hfind, Option.map_map]
  rfl

/-- Opening a file that holds what a roster persists gives back its paired rows. -/
theorem reopened_of_holds_persistedFarm {roster : Roster} (hio : io.Works)
    (hfile : Holds disk.file (persistedFarm roster)) (hroom : roster.size ≤ maxNodes)
    (hderives : Rederives roster) :
    reopened location io now disk = .ok (offline (staleAt now) roster) := by
  rw [reopened_of_holds hio hfile, openNodes_eq_ok_iff]
  exact ⟨intact_persistedFarm hroom hderives, loaded_persistedFarm hderives _⟩

end Cameo.Hub
