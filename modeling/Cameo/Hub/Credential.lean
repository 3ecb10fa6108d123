import Cameo.Hub.Identities
import Cameo.Hub.PairingStore

/-!
# The credential of a paired node

A node keeps the identity that a hub has given it in a file of its own.  The file is written beside
its place and renamed into it, and a file that is there is not replaced; the directory is not
synced.  What the node writes it can read again, and a crash leaves the whole credential or none.
-/

namespace Cameo.Hub

open Json Library Library.Durable

/-- `DeviceCredential`. -/
structure DeviceCredential where
  nodeId : String
  deviceCredential : String
deriving DecidableEq

namespace DeviceCredential

def fields (credential : DeviceCredential) : List (String × Value) := [
  ("node_id", .string credential.nodeId),
  ("device_credential", .string credential.deviceCredential)]

/-- `serde_json::to_value` of a credential. -/
def toValue (credential : DeviceCredential) : Value := .ofFields credential.fields

/-- `serde_json::from_value` of a credential. -/
def fromValue (value : Value) : Option DeviceCredential := do
  let value ← value.asStruct 2
  let nodeId ← value.required Value.asStr "node_id" 0
  let deviceCredential ← value.required Value.asStr "device_credential" 1
  return ⟨nodeId, deviceCredential⟩

/-- A credential is read from its two fields, whatever else is in the object. -/
theorem fromValue_ofFields {fields : List (String × Value)} (h : (fields.map Prod.fst).Nodup)
    {credential : DeviceCredential}
    (hid : fields.find? (fun pair ↦ pair.1 = "node_id") =
      some ("node_id", .string credential.nodeId))
    (hsecret : fields.find? (fun pair ↦ pair.1 = "device_credential") =
      some ("device_credential", .string credential.deviceCredential)) :
    fromValue (.ofFields fields) = some credential := by
  have hget := Value.get?_ofFields h
  have hnode : (Value.ofFields fields).get? "node_id" = some (.string credential.nodeId) := by
    rw [hget, hid, Option.map_some]
  have hdevice : (Value.ofFields fields).get? "device_credential" =
      some (.string credential.deviceCredential) := by
    rw [hget, hsecret, Option.map_some]
  simp only [Value.ofFields] at hnode hdevice ⊢
  simp [fromValue, Value.asStruct, Value.required, Value.field?, hnode, hdevice, Value.asStr]

theorem fromValue_toValue (credential : DeviceCredential) :
    fromValue credential.toValue = some credential := by
  have hnodup : (credential.fields.map Prod.fst).Nodup :=
    (by decide : ["node_id", "device_credential"].Nodup)
  exact fromValue_ofFields hnodup rfl rfl

end DeviceCredential

/-- `validate_device_credential`. -/
def validateDeviceCredential (credential : DeviceCredential) : Except String Unit :=
  if trim credential.nodeId = "" ∨ credential.nodeId.utf8ByteSize > 256 then
    .error "stored device credential has an invalid node_id"
  else if credential.deviceCredential.utf8ByteSize ≠ 64 ∨
      ¬ credential.deviceCredential.toList.all fun c ↦ (digitOf 16 c).isSome then
    .error "stored device credential has an invalid secret"
  else .ok ()

/-! ## Loading -/

def maxCredentialBytes : ℕ := 8 * 1024

/-- `load_device_credential`. -/
def loadDeviceCredential (path : String) (io : LoadIo) (file : Option StateFile) :
    Except String (Option DeviceCredential) :=
  match io.inspect, file with
  | .error e, _ => .error ("inspecting " ++ path ++ ": " ++ e)
  | .ok (), none => .ok none
  | .ok (), some file =>
    if !file.isRegular || file.length > maxCredentialBytes then
      .error ("device credential " ++ path ++ " must be a regular file no larger than 8 KiB")
    else if file.mode &&& 0o077 ≠ 0 then
      .error ("device credential " ++ path ++ " is accessible by group/others; run chmod 600")
    else
      match io.read, file.content.bind DeviceCredential.fromValue with
      | .error e, _ => .error ("reading " ++ path ++ ": " ++ e)
      | .ok (), none => .error ("parsing " ++ path ++ ": " ++ io.parseError)
      | .ok (), some credential => do
        validateDeviceCredential credential
        return some credential

/-! ## Saving -/

/-- Where a credential is kept: its path, the directory it is in, and its name in it. -/
structure CredentialPath extends Location where
  name : Option String

def CredentialPath.tempFile (path : CredentialPath) (pid : ℕ) : String :=
  path.parent ++ "/." ++ path.name.getD "cameo-mesh-credential" ++ ".tmp-" ++ toString pid

/-- The answers to the fallible calls of `save_device_credential`, which syncs no directory. -/
structure SaveIo extends PersistIo where
  /-- Whether `Path::exists` sees a file that is there; of a dangling link it does not. -/
  sees : Bool

section Save

variable (codec : Codec) (path : CredentialPath) (io : SaveIo)

/-- The directory is created, for the owner alone if it was not there before. -/
def createCredentialParent : Except String Unit :=
  match io.createDirAll with
  | .error e => .error ("creating credential directory " ++ path.parent ++ ": " ++ e)
  | .ok () =>
    if io.createdParent then
      explain ("securing credential directory " ++ path.parent) io.secureParent
    else .ok ()

/-- The temporary file is created, but not if there is one. -/
def createCredentialTemp (disk : Disk) : Except String Unit × Disk :=
  let context := "creating " ++ path.tempFile io.pid
  if (disk.temps.get? io.pid).isSome then
    (explain context (.error "File exists (os error 17)"), disk)
  else
    match io.createTemp with
    | .error e => (explain context (.error e), disk)
    | .ok () => (.ok (), withTemp io.toPersistIo none disk)

/-- `save_device_credential`. -/
def saveDeviceCredential (credential : DeviceCredential) : Program Disk Unit := do
  Program.ofExcept (validateDeviceCredential credential)
  let found ← Program.look fun disk ↦ disk.file.isSome && io.sees
  Program.require (found = false) ("refusing to overwrite existing device credential " ++
    path.path ++ "; remove it only when intentionally re-pairing")
  Program.ofExcept (createCredentialParent path io)
  Program.perform (createCredentialTemp path io)
  orRemoveTemp io.toPersistIo ("writing " ++ path.tempFile io.pid)
    (writeTemp io.toPersistIo credential.toValue)
  orRemoveTemp io.toPersistIo ("committing device credential " ++ path.path)
    (renameTemp codec io.toPersistIo)

end Save

variable {codec : Codec} {path : CredentialPath} {io : SaveIo} {credential : DeviceCredential}

/-- A step whose failure removes the temporary file, kept apart from what it is for. -/
theorem passes_orRemoveTemp {io : PersistIo} {context : String} {disk : Disk}
    {step : Disk → Except String (Except String Unit) × Disk} {kept : Disk → Prop}
    {post : Unit → Disk → Prop} (hkept : kept (step disk).2)
    (hremoved : kept (removeTemp io (step disk).2))
    (hpost : ∀ after, step disk = (.ok (.ok ()), after) → post () after) :
    Program.Passes disk (orRemoveTemp io context step) kept post := by
  refine Program.passes_bind (fun answer after ↦ step disk = (.ok answer, after)) ?_ ?_
  · exact Program.passes_perform hkept fun _ _ hstep ↦ hstep
  · intro answer after hstep
    cases answer with
    | ok _ => exact Program.passes_pure (hpost after hstep)
    | error e =>
      refine Program.passes_bind (fun _ _ ↦ True) ?_ fun _ _ _ ↦ Program.passes_fail
      refine Program.passes_perform ?_ fun _ _ _ ↦ trivial
      rwa [hstep] at hremoved

def credentialFile (codec : Codec) (credential : DeviceCredential) : StateFile :=
  committedFile codec (some credential.toValue)

/-- Wherever a save is cut off, the file is the old one or holds the credential, and it holds the
credential if the save comes to its end.  A file that is seen is not replaced. -/
theorem passes_saveDeviceCredential (codec : Codec) (path : CredentialPath) (io : SaveIo)
    (credential : DeviceCredential) (disk : Disk) :
    Program.Passes disk (saveDeviceCredential codec path io credential)
      (fun stop ↦ stop.file = disk.file ∨
        (validateDeviceCredential credential = .ok () ∧ (disk.file.isSome && io.sees) = false ∧
          stop.file = some (credentialFile codec credential)))
      fun _ after ↦ validateDeviceCredential credential = .ok () ∧
        after.file = some (credentialFile codec credential) := by
  refine Program.passes_bind (fun _ after ↦ validateDeviceCredential credential = .ok () ∧
    disk = after) (Program.passes_still Program.still_ofExcept
      fun _ _ h ↦ Program.runs_ofExcept.mp h) ?_
  rintro _ _ ⟨hvalid, rfl⟩
  refine Program.passes_bind (fun found after ↦ (disk.file.isSome && io.sees) = found ∧
    disk = after) (Program.passes_still Program.still_look fun _ _ h ↦ Program.runs_look.mp h) ?_
  rintro _ _ ⟨rfl, rfl⟩
  refine Program.passes_bind _ Program.passes_require ?_
  rintro _ _ ⟨hunseen, rfl⟩
  refine Program.passes_bind (fun _ after ↦ disk = after)
    (Program.passes_still Program.still_ofExcept fun _ _ h ↦ (Program.runs_ofExcept.mp h).2) ?_
  rintro _ _ rfl
  -- The temporary file is created, filled and renamed; only the last touches the file itself.
  refine Program.passes_bind (fun _ after ↦ after.file = disk.file ∧
    after.temps.get? io.pid = some none) (Program.passes_perform ?_ ?_) ?_
  · left
    unfold createCredentialTemp
    dsimp only
    split
    · rfl
    · split <;> rfl
  · intro _ after hcreate
    unfold createCredentialTemp at hcreate
    dsimp only at hcreate
    split at hcreate
    · cases hcreate
    · split at hcreate
      · cases hcreate
      · cases hcreate
        exact ⟨rfl, by simp [withTemp, Ordered.Map.get?_insert]⟩
  rintro _ created ⟨hfile, htemp⟩
  have hremove (d : Disk) : (removeTemp io.toPersistIo d).file = d.file := by
    unfold removeTemp
    split <;> rfl
  have hwrite : (writeTemp io.toPersistIo credential.toValue created).2.file = disk.file := by
    unfold writeTemp
    split
    · exact hfile
    · exact hfile
  refine Program.passes_bind (fun _ after ↦ after.file = disk.file ∧
    after.temps.get? io.pid = some (some credential.toValue))
      (passes_orRemoveTemp (.inl hwrite) (.inl ((hremove _).trans hwrite)) ?_) ?_
  · intro after hwritten
    unfold writeTemp at hwritten
    split at hwritten
    · cases hwritten
    · cases hwritten
      exact ⟨hfile, by simp [withTemp, Ordered.Map.get?_insert]⟩
  rintro _ written ⟨hfile, htemp⟩
  have hrename : (renameTemp codec io.toPersistIo written).2.file = disk.file ∨
      (renameTemp codec io.toPersistIo written).2.file =
        some (credentialFile codec credential) := by
    unfold renameTemp
    split
    · exact .inl hfile
    · right
      dsimp only
      rw [htemp]
      rfl
  have hkept : (renameTemp codec io.toPersistIo written).2.file = disk.file ∨
      (validateDeviceCredential credential = .ok () ∧ (disk.file.isSome && io.sees) = false ∧
        (renameTemp codec io.toPersistIo written).2.file =
          some (credentialFile codec credential)) :=
    hrename.imp_right fun h ↦ ⟨hvalid, hunseen, h⟩
  refine passes_orRemoveTemp hkept (by rwa [hremove]) ?_
  intro after hrenamed
  unfold renameTemp at hrenamed
  split at hrenamed
  · cases hrenamed
  · cases hrenamed
    refine ⟨hvalid, ?_⟩
    rw [htemp]
    rfl

/-! ## What is saved loads again -/

theorem charSize_le (c : Char) : Value.charSize c ≤ 6 * c.utf8Size := by
  have hpos := c.utf8Size_pos
  unfold Value.charSize
  split
  · omega
  · split <;> omega

/-- A JSON text takes at most six bytes for one of the string. -/
theorem stringSize_le (s : String) : Value.stringSize s ≤ 6 * s.utf8ByteSize + 2 := by
  have hsum (text : List Char) : (text.map Value.charSize).sum ≤ 6 * String.utf8Len text := by
    induction text with
    | nil => rfl
    | cons c rest ih =>
      have hc := charSize_le c
      rw [List.map_cons, List.sum_cons, String.utf8Len_cons]
      omega
  have hlength : s.utf8ByteSize = String.utf8Len s.toList := by
    rw [← String.utf8ByteSize_ofList, String.ofList_toList]
  rw [Value.stringSize, hlength]
  exact Nat.add_le_add_right (hsum s.toList) 2

theorem DeviceCredential.toValue_eq (credential : DeviceCredential) : credential.toValue = .object [
    ("device_credential", .string credential.deviceCredential),
    ("node_id", .string credential.nodeId)] := by
  have hlt : "device_credential" < "node_id" := by decide +kernel
  simp only [toValue, fields, Value.ofFields, Ordered.collect,
    List.foldl_cons, List.foldl_nil, Ordered.insertEntry, hlt, if_true]

/-- A credential that passes the checks fits into the largest file that is read. -/
theorem size_credential_le (h : validateDeviceCredential credential = .ok ()) :
    Codec.compact.size credential.toValue ≤ maxCredentialBytes := by
  unfold validateDeviceCredential at h
  split at h
  · cases h
  · rename_i hid
    split at h
    · cases h
    · rename_i hsecret
      obtain ⟨-, hid⟩ := not_or.mp hid
      obtain ⟨hsecret, -⟩ := not_or.mp hsecret
      have hidSize := stringSize_le credential.nodeId
      have hsecretSize := stringSize_le credential.deviceCredential
      have hnames : Value.stringSize "device_credential" = 19 ∧ Value.stringSize "node_id" = 9 := by
        decide +kernel
      rw [DeviceCredential.toValue_eq]
      simp only [Codec.compact, Value.textSize, Value.fieldsSize, hnames.1, hnames.2,
        maxCredentialBytes]
      omega

/-- A file that a save has left loads as the credential. -/
theorem load_credentialFile (h : validateDeviceCredential credential = .ok ()) (path : String)
    {io : LoadIo} (hio : io.Works) :
    loadDeviceCredential path io (some (credentialFile .compact credential)) =
      .ok (some credential) := by
  have hmode : ¬ (0o600 &&& 0o077 ≠ 0) := by decide
  have hregular : ¬ ((!true || decide (Codec.compact.size credential.toValue >
      maxCredentialBytes)) = true) := by
    simpa using size_credential_le h
  simp only [loadDeviceCredential, hio.inspect, hio.read, credentialFile, committedFile,
    Option.map_some, Option.getD_some, if_neg hregular, if_neg hmode, Option.bind_some,
    DeviceCredential.fromValue_toValue, h]
  rfl

/-- There is no file, or a credential is loaded that has passed the checks and is in the file. -/
theorem load_cases {path : String} {io : LoadIo} {file : Option StateFile}
    {found : Option DeviceCredential} (h : loadDeviceCredential path io file = .ok found) :
    (file = none ∧ found = none) ∨ ∃ credential, found = some credential ∧
      validateDeviceCredential credential = .ok () ∧
      (file.bind StateFile.content).bind DeviceCredential.fromValue = some credential := by
  unfold loadDeviceCredential at h
  split at h
  · cases h
  · cases h
    exact .inl ⟨rfl, rfl⟩
  · rename_i file _
    split at h
    · cases h
    · split at h
      · cases h
      · split at h
        · cases h
        · cases h
        · rename_i credential _ hcontent
          cases hvalid : validateDeviceCredential credential with
          | error e =>
            rw [hvalid] at h
            cases h
          | ok _ =>
            rw [hvalid] at h
            cases h
            exact .inr ⟨credential, rfl, hvalid, hcontent⟩

theorem load_none (path : String) (io : LoadIo) :
    loadDeviceCredential path io none = .ok none ∨
      ∃ e, loadDeviceCredential path io none = .error e := by
  unfold loadDeviceCredential
  cases io.inspect with
  | error e => exact .inr ⟨_, rfl⟩
  | ok _ => exact .inl rfl

/-- Wherever a save is cut off, loading gives what it gave before or the credential, and the first
where there was a file; after a save that succeeds it gives the credential. -/
theorem save_atomic (path : CredentialPath) (io : SaveIo) (credential : DeviceCredential)
    (disk : Disk) {loadIo : LoadIo} (hio : loadIo.Works) :
    let save := saveDeviceCredential .compact path io credential
    let load := loadDeviceCredential path.path loadIo
    (∀ stop ∈ save.stops disk, load stop.file = load disk.file ∨
      ((disk.file.isSome && io.sees) = false ∧ load stop.file = .ok (some credential))) ∧
      ((save disk).result = .ok () → load (save.final disk).file = .ok (some credential)) := by
  have hpasses := passes_saveDeviceCredential .compact path io credential disk
  refine ⟨?_, ?_⟩
  · intro stop hstop
    rcases hpasses.stops (.inl rfl) stop hstop with hsame | ⟨hvalid, hunseen, hsaved⟩
    · exact .inl (by rw [hsame])
    · exact .inr ⟨hunseen, by rw [hsaved, load_credentialFile hvalid path.path hio]⟩
  · intro hok
    obtain ⟨hvalid, hsaved⟩ := hpasses.of_runs (Program.runs_of_ok hok)
    rw [hsaved, load_credentialFile hvalid path.path hio]

def boxCredential : DeviceCredential := ⟨"gpu-box", secretOf (.replicate 32 255)⟩

def boxPath : CredentialPath := ⟨⟨"/var/lib/cameo/mesh.json", "/var/lib/cameo"⟩, some "mesh.json"⟩

theorem save_atomic_box :
    let save := saveDeviceCredential .compact boxPath ⟨.working 2, true⟩ boxCredential
    let load := loadDeviceCredential boxPath.path ⟨.ok (), .ok (), ""⟩
    (∀ stop ∈ save.stops ⟨none, .empty⟩, load stop.file = load none ∨
      load stop.file = .ok (some boxCredential)) ∧
      load (save.final ⟨none, .empty⟩).file = .ok (some boxCredential) := by
  have hatomic := save_atomic boxPath ⟨.working 2, true⟩ boxCredential ⟨none, .empty⟩
    (⟨rfl, rfl⟩ : LoadIo.Works ⟨.ok (), .ok (), ""⟩)
  refine ⟨fun stop hstop ↦ (hatomic.1 stop hstop).imp_right And.right, hatomic.2 ?_⟩
  decide +kernel

end Cameo.Hub
