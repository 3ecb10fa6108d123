import Cameo.Hub.Registration
import Cameo.Library.Durable

/-!
# The file of paired identities

The hub keeps its paired identities in one file, which it replaces as a whole: a temporary file
named after the process is created exclusively, written and synced, renamed over the old file, and
then the directory is synced.  `persist_state` is a program over the directory, so that it can be
cut off between any two of its file operations.  The branches for Windows are left out.
-/

namespace Cameo.Hub

open Json Library Library.Durable

/-- What the hub uses of serde_json: the length of a serialized value. -/
structure Codec where
  size : Value → ℕ

def Codec.compact : Codec := ⟨Value.textSize⟩

/-- `MAX_FARM_STATE_BYTES`. -/
def maxFarmStateBytes : ℕ := 4 * 1024 * 1024

/-- `FARM_STATE_VERSION`. -/
def farmStateVersion : UInt32 := 1

/-! ## What is persisted -/

/-- `PersistedNode`. -/
structure PersistedNode where
  reg : Registration
  enrollment : Enrollment
deriving DecidableEq

/-- `PersistedFarm`. -/
structure PersistedFarm where
  version : UInt32
  nodes : List PersistedNode
deriving DecidableEq

/-- `serde_json::to_value` of a node. -/
def PersistedNode.toValue (node : PersistedNode) : Value :=
  .ofFields [("reg", node.reg.toValue), ("enrollment", node.enrollment.toValue)]

/-- `serde_json::from_value` of a node. -/
def PersistedNode.fromValue (value : Value) : Option PersistedNode := do
  let reg ← (value.get? "reg").bind Registration.fromValue
  let enrollment ← (value.get? "enrollment").bind Enrollment.fromValue
  return ⟨reg, enrollment⟩

theorem PersistedNode.fromValue_toValue (node : PersistedNode) :
    fromValue node.toValue = some node := by
  have hnodup : ([("reg", node.reg.toValue), ("enrollment", node.enrollment.toValue)].map
      (Prod.fst : String × Value → String)).Nodup := (by decide : ["reg", "enrollment"].Nodup)
  have hfields := Value.get?_ofFields hnodup
  simp [fromValue, toValue, hfields, Registration.fromValue_toValue,
    Enrollment.fromValue_toValue]

namespace PersistedFarm

/-- `serde_json::to_value` of the state. -/
def toValue (state : PersistedFarm) : Value :=
  .ofFields [("version", .nat state.version.toNat),
    ("nodes", .array (state.nodes.map PersistedNode.toValue))]

/-- `serde_json::from_value` of the state. -/
def fromValue (value : Value) : Option PersistedFarm := do
  let version ← (value.get? "version").bind Value.asU32
  let items ← (value.get? "nodes").bind Value.asArray
  let nodes ← items.mapM PersistedNode.fromValue
  return ⟨version, nodes⟩

/-- The state reads back as it was written. -/
theorem fromValue_toValue (state : PersistedFarm) : fromValue state.toValue = some state := by
  have hnodup : ([("version", .nat state.version.toNat),
      ("nodes", .array (state.nodes.map PersistedNode.toValue))].map
        (Prod.fst : String × Value → String)).Nodup := (by decide : ["version", "nodes"].Nodup)
  have hfields := Value.get?_ofFields hnodup
  have hnodes : (state.nodes.map PersistedNode.toValue).mapM PersistedNode.fromValue =
      some state.nodes := by
    induction state.nodes with
    | nil => rfl
    | cons node rest ih => simp [ih, PersistedNode.fromValue_toValue]
  simp [fromValue, toValue, hfields, Value.asArray, hnodes]

end PersistedFarm

/-! ## The directory -/

/-- An entry at the path of the state file, with the JSON value it holds, if it holds one. -/
structure StateFile where
  /-- A regular file, not a symbolic link. -/
  isRegular : Bool
  mode : ℕ
  length : ℕ
  content : Option Value
deriving DecidableEq

/-- The directory of the state file: the file, and the temporary files by the process that has
created them, with what they hold once they have been written. -/
structure Disk where
  file : Option StateFile
  temps : Ordered.Map ℕ (Option Value)

/-- The answers to the fallible calls of `load_state`. -/
structure LoadIo where
  inspect : Except String Unit
  read : Except String Unit
  /-- What the JSON parser says of a file that it cannot read. -/
  parseError : String

/-- `load_state`. -/
def loadState (path : String) (io : LoadIo) (file : Option StateFile) :
    Except String PersistedFarm :=
  match io.inspect, file with
  | .error e, _ => .error ("inspecting farm state " ++ path ++ ": " ++ e)
  | .ok (), none => .ok ⟨farmStateVersion, []⟩
  | .ok (), some file =>
    if !file.isRegular || file.length > maxFarmStateBytes then
      .error ("farm state " ++ path ++ " must be a regular file no larger than " ++
        toString maxFarmStateBytes ++ " bytes")
    else if file.mode &&& 0o077 ≠ 0 then
      .error ("farm state " ++ path ++ " is accessible by group/others; run chmod 600")
    else
      match io.read, file.content.bind PersistedFarm.fromValue with
      | .error e, _ => .error ("reading farm state " ++ path ++ ": " ++ e)
      | .ok (), none => .error ("parsing farm state " ++ path ++ ": " ++ io.parseError)
      | .ok (), some state =>
        if state.version ≠ farmStateVersion then
          .error ("unsupported farm state version " ++ toString state.version ++ " in " ++ path)
        else .ok state

/-- The answers to the fallible calls of `persist_state`. -/
structure PersistIo where
  /-- `std::process::id()`. -/
  pid : ℕ
  createDirAll : Except String Unit
  /-- Whether the directory was not there before. -/
  createdParent : Bool
  secureParent : Except String Unit
  createTemp : Except String Unit
  /-- Writing and syncing the temporary file. -/
  write : Except String Unit
  /-- Whether the temporary file can be removed after a failure. -/
  cleanup : Bool
  rename : Except String Unit
  syncDirectory : Except String Unit

def PersistIo.working (pid : ℕ) : PersistIo where
  pid := pid
  createDirAll := .ok ()
  createdParent := false
  secureParent := .ok ()
  createTemp := .ok ()
  write := .ok ()
  cleanup := true
  rename := .ok ()
  syncDirectory := .ok ()

/-- Where the state file is: its path, and the directory it is in. -/
structure Location where
  path : String
  parent : String

/-- The path of a process's temporary file. -/
def Location.temp (location : Location) (pid : ℕ) : String :=
  location.parent ++ "/.mesh-identities.tmp-" ++ toString pid

/-! ## Persisting -/

variable (codec : Codec) (location : Location) (io : PersistIo)

def explain (context : String) : Except String Unit → Except String Unit
  | .ok () => .ok ()
  | .error e => .error (context ++ ": " ++ e)

/-- The directory once the temporary file of a call is there, with what it holds. -/
def withTemp (content : Option Value) (disk : Disk) : Disk :=
  { disk with temps := disk.temps.insert io.pid content }

/-- The temporary file is created, but not if there is one. -/
def createTemp (disk : Disk) : Except String Unit × Disk :=
  let context := "creating farm state temp " ++ location.temp io.pid
  if (disk.temps.get? io.pid).isSome then
    (explain context (.error "File exists (os error 17)"), disk)
  else
    match io.createTemp with
    | .error e => (explain context (.error e), disk)
    | .ok () => (.ok (), withTemp io none disk)

/-- The temporary file is written and synced. -/
def writeTemp (payload : Value) (disk : Disk) : Except String (Except String Unit) × Disk :=
  match io.write with
  | .error e => (.ok (.error e), disk)
  | .ok () => (.ok (.ok ()), withTemp io (some payload) disk)

/-- The temporary file is removed after a failure, if that is possible. -/
def removeTemp (disk : Disk) : Disk :=
  if io.cleanup then { disk with temps := disk.temps.erase io.pid } else disk

def committedFile (content : Option Value) : StateFile :=
  ⟨true, 0o600, (content.map codec.size).getD 0, content⟩

/-- The temporary file is renamed to the state file. -/
def renameTemp (disk : Disk) : Except String (Except String Unit) × Disk :=
  match io.rename with
  | .error e => (.ok (.error e), disk)
  | .ok () => (.ok (.ok ()), {
      file := some (committedFile codec (disk.temps.get? io.pid).join)
      temps := disk.temps.erase io.pid })

/-- `persist_state` up to the creation of the temporary file. -/
def prepareParent (payload : Value) : Except String Unit :=
  if codec.size payload > maxFarmStateBytes then .error "farm state exceeds its 4 MiB limit"
  else
    match io.createDirAll with
    | .error e => .error ("creating farm state directory " ++ location.parent ++ ": " ++ e)
    | .ok () =>
      if io.createdParent then
        explain ("securing state directory " ++ location.parent) io.secureParent
      else .ok ()

/-- A step whose failure removes the temporary file. -/
def orRemoveTemp (context : String) (step : Disk → Except String (Except String Unit) × Disk) :
    Program Disk Unit := do
  match ← Program.perform step with
  | .error e => do
    Program.write (removeTemp io)
    Program.fail (context ++ ": " ++ e)
  | .ok () => pure ()

/-- `persist_state` once the temporary file is there. -/
def commitTemp (payload : Value) : Program Disk Unit := do
  orRemoveTemp io ("writing farm state temp " ++ location.temp io.pid) (writeTemp io payload)
  orRemoveTemp io ("committing farm state " ++ location.path) (renameTemp codec io)
  Program.ofExcept
    (explain ("syncing farm state directory " ++ location.parent) io.syncDirectory)

/-- `persist_state`. -/
def persistState (state : PersistedFarm) : Program Disk Unit := do
  Program.ofExcept (prepareParent codec location io state.toValue)
  Program.perform (createTemp location io)
  commitTemp codec location io state.toValue

/-! ## The course of a call -/

variable {codec location io}

/-- The call gets as far as a new temporary file. -/
structure Prepares (codec : Codec) (io : PersistIo) (payload : Value) (disk : Disk) : Prop where
  fits : codec.size payload ≤ maxFarmStateBytes
  createDirAll : io.createDirAll = .ok ()
  secureParent : io.createdParent = true → io.secureParent = .ok ()
  unused : disk.temps.get? io.pid = none
  createTemp : io.createTemp = .ok ()

/-- The call gets past the rename. -/
structure Renames (codec : Codec) (io : PersistIo) (payload : Value) (disk : Disk) : Prop where
  prepares : Prepares codec io payload disk
  write : io.write = .ok ()
  rename : io.rename = .ok ()

theorem explain_eq_ok_iff (context : String) (answer : Except String Unit) :
    explain context answer = .ok () ↔ answer = .ok () := by
  cases answer with
  | error e => simp [explain]
  | ok _ => simp [explain]

theorem prepareParent_eq_ok_iff (payload : Value) :
    prepareParent codec location io payload = .ok () ↔
      codec.size payload ≤ maxFarmStateBytes ∧ io.createDirAll = .ok () ∧
        (io.createdParent = true → io.secureParent = .ok ()) := by
  unfold prepareParent
  by_cases hfits : codec.size payload > maxFarmStateBytes
  · simp [hfits]
  · rw [if_neg hfits, not_lt] at *
    cases hdir : io.createDirAll with
    | error e => simp
    | ok _ =>
      cases hparent : io.createdParent with
      | false => simpa using hfits
      | true => simp [explain_eq_ok_iff, hfits]

theorem createTemp_of_unused {disk : Disk} (hunused : disk.temps.get? io.pid = none)
    (hcreate : io.createTemp = .ok ()) :
    createTemp location io disk = (.ok (), withTemp io none disk) := by
  simp [createTemp, hunused, hcreate]

/-- Where no temporary file comes to be, nothing changes. -/
theorem createTemp_error (location : Location) {disk : Disk}
    (h : ¬ (disk.temps.get? io.pid = none ∧ io.createTemp = .ok ())) :
    ∃ e, createTemp location io disk = (.error e, disk) := by
  unfold createTemp
  split
  · exact ⟨_, rfl⟩
  · rename_i hunused
    split
    · exact ⟨_, rfl⟩
    · rename_i hcreate
      exact absurd ⟨by simpa using hunused, hcreate⟩ h

theorem orRemoveTemp_ok {context : String} {disk after : Disk}
    {step : Disk → Except String (Except String Unit) × Disk}
    (h : step disk = (.ok (.ok ()), after)) :
    orRemoveTemp io context step disk = ⟨.ok (), [after]⟩ := by
  have hruns : (Program.perform step).Runs disk (.ok ()) after := Program.runs_perform.mpr h
  rw [orRemoveTemp, Program.bind_of_ok hruns, Program.perform, h]
  rfl

theorem orRemoveTemp_error {context e : String} {disk after : Disk}
    {step : Disk → Except String (Except String Unit) × Disk}
    (h : step disk = (.ok (.error e), after)) :
    orRemoveTemp io context step disk =
      ⟨.error (context ++ ": " ++ e), [after, removeTemp io after]⟩ := by
  have hruns : (Program.perform step).Runs disk (.error e) after := Program.runs_perform.mpr h
  rw [orRemoveTemp, Program.bind_of_ok hruns, Program.perform, h]
  rfl

/-- The directory once a payload has been renamed over the state file. -/
def committed (codec : Codec) (payload : Value) (disk : Disk) : Disk :=
  { disk with file := some (committedFile codec (some payload)) }

theorem withTemp_withTemp (content written : Option Value) (disk : Disk) :
    withTemp io written (withTemp io content disk) = withTemp io written disk := by
  simp only [withTemp, Ordered.Map.insert_insert]

theorem renameTemp_withTemp {payload : Value} {disk : Disk}
    (hunused : disk.temps.get? io.pid = none) (hrename : io.rename = .ok ()) :
    renameTemp codec io (withTemp io (some payload) disk) =
      (.ok (.ok ()), committed codec payload disk) := by
  simp [renameTemp, hrename, withTemp, committed, Ordered.Map.get?_insert,
    Ordered.Map.erase_insert hunused]

theorem writeTemp_withTemp {payload : Value} {disk : Disk} (hwrite : io.write = .ok ()) :
    writeTemp io payload (withTemp io none disk) =
      (.ok (.ok ()), withTemp io (some payload) disk) := by
  rw [writeTemp, hwrite]
  simp only [withTemp_withTemp]

theorem commitTemp_of_ok {payload : Value} {disk : Disk} (hunused : disk.temps.get? io.pid = none)
    (hwrite : io.write = .ok ()) (hrename : io.rename = .ok ()) :
    commitTemp codec location io payload (withTemp io none disk) =
      ⟨explain ("syncing farm state directory " ++ location.parent) io.syncDirectory,
        [withTemp io (some payload) disk, committed codec payload disk]⟩ := by
  rw [commitTemp, Program.bind_of_step (orRemoveTemp_ok (writeTemp_withTemp hwrite)),
    Program.bind_of_step (orRemoveTemp_ok (renameTemp_withTemp hunused hrename))]
  cases io.syncDirectory with
  | error e => rfl
  | ok _ => rfl

/-- The directories a call leaves that has not got past the rename: the old one, or the old one with
the call's temporary file. -/
def Untouched (io : PersistIo) (disk stop : Disk) : Prop :=
  stop = disk ∨ (disk.temps.get? io.pid = none ∧ ∃ content, stop = withTemp io content disk)

theorem untouched_removeTemp {disk : Disk} {content : Option Value}
    (hunused : disk.temps.get? io.pid = none) :
    Untouched io disk (removeTemp io (withTemp io content disk)) := by
  unfold removeTemp
  split
  · left
    simp only [withTemp, Ordered.Map.erase_insert hunused]
  · exact .inr ⟨hunused, content, rfl⟩

theorem commitTemp_of_not_ok (codec : Codec) (location : Location) (payload : Value) {disk : Disk}
    (hunused : disk.temps.get? io.pid = none) (h : ¬ (io.write = .ok () ∧ io.rename = .ok ())) :
    ∃ e passed, commitTemp codec location io payload (withTemp io none disk) =
        ⟨.error e, passed⟩ ∧ ∀ stop ∈ passed, Untouched io disk stop := by
  unfold commitTemp
  cases hwrite : io.write with
  | error e =>
    have hstep : writeTemp io payload (withTemp io none disk) =
        (.ok (.error e), withTemp io none disk) := by
      rw [writeTemp, hwrite]
    refine ⟨_, _, Program.bind_of_failed (orRemoveTemp_error hstep), ?_⟩
    intro stop hstop
    simp only [List.mem_cons, List.not_mem_nil, or_false] at hstop
    rcases hstop with rfl | rfl
    · exact .inr ⟨hunused, none, rfl⟩
    · exact untouched_removeTemp hunused
  | ok _ =>
    cases hrename : io.rename with
    | ok _ => exact absurd ⟨hwrite, hrename⟩ h
    | error e =>
      have hstep : renameTemp codec io (withTemp io (some payload) disk) =
          (.ok (.error e), withTemp io (some payload) disk) := by
        rw [renameTemp, hrename]
      rw [Program.bind_of_step (orRemoveTemp_ok (writeTemp_withTemp hwrite)),
        Program.bind_of_failed (orRemoveTemp_error hstep)]
      refine ⟨_, _, rfl, ?_⟩
      intro stop hstop
      simp only [List.mem_cons, List.not_mem_nil, or_false] at hstop
      rcases hstop with rfl | rfl | rfl
      · exact .inr ⟨hunused, some payload, rfl⟩
      · exact .inr ⟨hunused, some payload, rfl⟩
      · exact untouched_removeTemp hunused

/-- A call that gets past the rename has the result of the directory's sync. -/
theorem persistState_of_renames {state : PersistedFarm} {disk : Disk}
    (h : Renames codec io state.toValue disk) :
    persistState codec location io state disk =
      ⟨explain ("syncing farm state directory " ++ location.parent) io.syncDirectory,
        [withTemp io none disk, withTemp io (some state.toValue) disk,
          committed codec state.toValue disk]⟩ := by
  have hparent : prepareParent codec location io state.toValue = .ok () :=
    (prepareParent_eq_ok_iff _).mpr
      ⟨h.prepares.fits, h.prepares.createDirAll, h.prepares.secureParent⟩
  have hcreate : Program.perform (createTemp location io) disk =
      ⟨.ok (), [withTemp io none disk]⟩ := by
    rw [Program.perform, createTemp_of_unused h.prepares.unused h.prepares.createTemp]
  rw [persistState, hparent]
  change (Program.perform (createTemp location io) >>= _) disk = _
  rw [Program.bind_of_step hcreate, commitTemp_of_ok h.prepares.unused h.write h.rename]

/-- A call that does not get past the rename fails and leaves the state file as it is. -/
theorem persistState_of_not_renames (location : Location) {state : PersistedFarm} {disk : Disk}
    (h : ¬ Renames codec io state.toValue disk) :
    ∃ e passed, persistState codec location io state disk = ⟨.error e, passed⟩ ∧
      ∀ stop ∈ passed, Untouched io disk stop := by
  unfold persistState
  cases hparent : prepareParent codec location io state.toValue with
  | error e => exact ⟨e, [], rfl, by simp⟩
  | ok _ =>
    change ∃ e passed, (Program.perform (createTemp location io) >>= _) disk = _ ∧ _
    by_cases hcreate : disk.temps.get? io.pid = none ∧ io.createTemp = .ok ()
    · obtain ⟨hunused, hcreate⟩ := hcreate
      have htemp : Program.perform (createTemp location io) disk =
          ⟨.ok (), [withTemp io none disk]⟩ := by
        rw [Program.perform, createTemp_of_unused hunused hcreate]
      have hcommit : ¬ (io.write = .ok () ∧ io.rename = .ok ()) := by
        rintro ⟨hwrite, hrename⟩
        obtain ⟨hfits, hdir, hsecure⟩ := (prepareParent_eq_ok_iff _).mp hparent
        exact h ⟨⟨hfits, hdir, hsecure, hunused, hcreate⟩, hwrite, hrename⟩
      obtain ⟨e, passed, hcourse, hpassed⟩ :=
        commitTemp_of_not_ok codec location state.toValue hunused hcommit
      refine ⟨e, withTemp io none disk :: passed, ?_, ?_⟩
      · rw [Program.bind_of_step htemp, hcourse]
      · intro stop hstop
        rcases List.mem_cons.mp hstop with rfl | hstop
        · exact .inr ⟨hunused, none, rfl⟩
        · exact hpassed stop hstop
    · obtain ⟨e, hfailed⟩ := createTemp_error location hcreate
      refine ⟨e, [disk], ?_, by simp [Untouched]⟩
      rw [Program.bind_of_failed (by rw [Program.perform, hfailed])]

end Cameo.Hub
