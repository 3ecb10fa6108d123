import Cameo.Hub.Credential
import Cameo.Library.Run
import Cameo.Report.Facts

/-!
# The agent of a node

A node that is given a hub runs an agent, which loads the node's credential or pairs for one, or
else registers with the farm token, and then sends heartbeats for good.  `run` is cut at its calls
to the hub: a phase says which call comes next, and an answer, which may be anything, leads to the
next phase.  What a node says of itself over all its lives follows from its configuration and its
credential file.
-/

namespace Cameo.Hub

open Json Library Library.Durable

/-- `HubConfig`. -/
structure HubConfig where
  farmToken : Option String
  pairingCode : Option String
  credentialFile : Option CredentialPath
  nodeName : String
  callbackAddress : String
  nodeKey : Option String

/-! ## Calls -/

def registrationBody (cfg : HubConfig) (description : Option Value) : Value :=
  .ofFields [
    ("name", .string cfg.nodeName),
    ("address", .string cfg.callbackAddress),
    ("key", .option .string cfg.nodeKey),
    ("cameo_version", .string Report.packageVersion),
    ("node", description.getD .null)]

def heartbeatBody (nodeId : String) (description : Option Value) : Value :=
  .ofFields [("node_id", .string nodeId), ("node", description.getD .null)]

def pairBody (cfg : HubConfig) (code : String) (description : Option Value) : Value :=
  .ofFields [("code", .string code), ("registration", registrationBody cfg description)]

structure Call where
  path : String
  body : Value
  token : Option String

/-- What comes of a call: the error of a failed transfer, or the value of the body, if any. -/
abbrev Answer := Except String (Option Value)

/-- `node_id_from_response`. -/
def nodeIdFromResponse (body : Option Value) : Option String :=
  body.bind fun value ↦ (value.get? "node_id").bind Value.asStr

/-- What a heartbeat's answer says of the node, if it says it. -/
def knownFromResponse (body : Option Value) : Option Bool :=
  body.bind fun value ↦ (value.get? "known").bind Value.asBool

/-! ## Phases -/

/-- Where `run` is. -/
inductive Phase where
  /-- The agent has returned, or the node is down. -/
  | stopped
  | pairing (code : String)
  | saving (credential : DeviceCredential)
  | paired (credential : DeviceCredential)
  | registering
  | registered (nodeId : String)
deriving DecidableEq

/-- `run` up to its first call. -/
def HubConfig.start (cfg : HubConfig) (io : LoadIo) (file : Option StateFile) : Phase :=
  match cfg.credentialFile.map fun path ↦ loadDeviceCredential path.path io file with
  | some (.ok (some credential)) => .paired credential
  | some (.error _) => .stopped
  | some (.ok none) | none =>
    match cfg.pairingCode, cfg.credentialFile with
    | some code, some _ => .pairing code
    | some _, none => .stopped
    | none, _ => .registering

namespace Phase

/-- The call that a phase makes.  Without a farm token a registration fails before it is sent. -/
def call? (cfg : HubConfig) (description : Option Value) : Phase → Option Call
  | pairing code => some ⟨"hub/pair", pairBody cfg code description, none⟩
  | paired credential => some ⟨"hub/heartbeat", heartbeatBody credential.nodeId description,
      some credential.deviceCredential⟩
  | registering => cfg.farmToken.map fun token ↦
      ⟨"hub/register", registrationBody cfg description, some token⟩
  | registered nodeId =>
    some ⟨"hub/heartbeat", heartbeatBody nodeId description, cfg.farmToken⟩
  | stopped | saving _ => none

/-- The phase after an answer.  A paired node goes on whatever the hub says; a registered one
registers again when the hub does not know it or cannot be reached. -/
def receive (answer : Answer) : Phase → Phase
  | pairing _ =>
    match answer with
    | .error _ => stopped
    | .ok body =>
      match body.bind DeviceCredential.fromValue with
      | some credential => saving credential
      | none => stopped
  | registering =>
    match answer with
    | .error _ => registering
    | .ok body =>
      match nodeIdFromResponse body with
      | some nodeId => registered nodeId
      | none => registering
  | registered nodeId =>
    match answer with
    | .error _ => registering
    | .ok body => if (knownFromResponse body).getD true then registered nodeId else registering
  | paired credential => paired credential
  | saving credential => saving credential
  | stopped => stopped

def credential? : Phase → Option DeviceCredential
  | saving credential | paired credential => some credential
  | stopped | pairing _ | registering | registered _ => none

end Phase

/-! ## A node -/

/-- A node: its agent, and the directory of its credential. -/
structure Node where
  phase : Phase
  disk : Disk

inductive NodeEvent where
  /-- The node comes up. -/
  | boot (io : LoadIo)
  | receive (answer : Answer)
  | save (io : SaveIo)
  /-- The node goes down, and while it saves a credential at some point of that. -/
  | crash (io : SaveIo) (cut : ℕ)
  /-- The credential file is gone: somebody has removed it, or its name was never on the disk. -/
  | lose

variable (codec : Codec) (cfg : HubConfig)

def Node.left (io : SaveIo) (cut : ℕ) (node : Node) : Disk :=
  match node.phase, cfg.credentialFile with
  | .saving credential, some path =>
    (((saveDeviceCredential codec path io credential).stops node.disk)[cut]?).getD node.disk
  | _, _ => node.disk

/-- The node once the agent has saved its credential, or failed to. -/
def Node.save (io : SaveIo) (node : Node) : Node :=
  match node.phase, cfg.credentialFile with
  | .saving credential, some path =>
    let save := saveDeviceCredential codec path io credential
    match (save node.disk).result with
    | .ok () => ⟨.paired credential, save.final node.disk⟩
    | .error _ => ⟨.stopped, save.final node.disk⟩
  | _, _ => node

def nodeStep (node : Node) : NodeEvent → Node
  | .boot io =>
    match node.phase with
    | .stopped => { node with phase := cfg.start io node.disk.file }
    | _ => node
  | .receive answer => { node with phase := node.phase.receive answer }
  | .save io => node.save codec cfg io
  | .crash io cut => ⟨.stopped, node.left codec cfg io cut⟩
  | .lose => { node with disk := { node.disk with file := none } }

variable {codec cfg}

/-! ## What a save leaves -/

/-- The file holds a credential that loads. -/
def Bears (credential : DeviceCredential) (file : Option StateFile) : Prop :=
  validateDeviceCredential credential = .ok () ∧
    (file.bind StateFile.content).bind DeviceCredential.fromValue = some credential

theorem Bears.unique {credential other : DeviceCredential} {file : Option StateFile}
    (h : Bears credential file) (hother : Bears other file) : other = credential :=
  Option.some.inj (hother.2.symm.trans h.2)

theorem not_bears_none {credential : DeviceCredential} : ¬ Bears credential none := by
  rintro ⟨-, h⟩
  cases h

theorem bears_credentialFile {credential : DeviceCredential}
    (h : validateDeviceCredential credential = .ok ()) :
    Bears credential (some (credentialFile codec credential)) :=
  ⟨h, DeviceCredential.fromValue_toValue credential⟩

/-- Loading the file gives the credential or fails. -/
theorem Bears.load {credential : DeviceCredential} {file : Option StateFile}
    (h : Bears credential file) (path : String) (io : LoadIo) :
    loadDeviceCredential path io file = .ok (some credential) ∨
      ∃ e, loadDeviceCredential path io file = .error e := by
  cases hload : loadDeviceCredential path io file with
  | error e => exact .inr ⟨e, rfl⟩
  | ok found =>
    left
    rcases load_cases hload with ⟨rfl, -⟩ | ⟨other, rfl, -, hother⟩
    · exact absurd h not_bears_none
    · rw [Option.some.inj (hother.symm.trans h.2)]

/-- Where a save is cut off, the file is the old one or bears the credential. -/
theorem file_left (codec : Codec) (cfg : HubConfig) (io : SaveIo) (cut : ℕ) (node : Node) :
    (node.left codec cfg io cut).file = node.disk.file ∨
      ∃ credential, node.phase = .saving credential ∧
        Bears credential (node.left codec cfg io cut).file := by
  unfold Node.left
  split
  · rename_i credential path hphase hpath
    cases hstop : ((saveDeviceCredential codec path io credential).stops node.disk)[cut]? with
    | none => exact .inl rfl
    | some stop =>
      have hstops := (passes_saveDeviceCredential codec path io credential node.disk).stops
        (.inl rfl) stop (List.mem_of_getElem? hstop)
      rcases hstops with hsame | ⟨hvalid, -, hsaved⟩
      · exact .inl hsame
      · right
        rw [Option.getD_some, hsaved]
        exact ⟨credential, hphase, bears_credentialFile hvalid⟩
  · exact .inl rfl

/-- After a save the agent is paired and the file bears its credential, or the agent has stopped;
or there was nothing to save. -/
theorem save_cases (codec : Codec) (cfg : HubConfig) (io : SaveIo) (node : Node) :
    (∃ credential, node.phase = .saving credential ∧
        ((node.save codec cfg io).phase = .paired credential ∨
          (node.save codec cfg io).phase = .stopped) ∧
        Bears credential (node.save codec cfg io).disk.file) ∨
      ((node.save codec cfg io).disk.file = node.disk.file ∧
        ((node.save codec cfg io).phase = .stopped ∨ node.save codec cfg io = node)) := by
  unfold Node.save
  split
  · rename_i credential path hphase hpath
    have hpasses := passes_saveDeviceCredential codec path io credential node.disk
    dsimp only
    split
    · rename_i hok
      obtain ⟨hvalid, hsaved⟩ := hpasses.of_runs (Program.runs_of_ok hok)
      refine .inl ⟨credential, hphase, .inl rfl, ?_⟩
      rw [hsaved]
      exact bears_credentialFile hvalid
    · have hfinal : (saveDeviceCredential codec path io credential).final node.disk ∈
          (saveDeviceCredential codec path io credential).stops node.disk :=
        List.getLastD_mem_cons
      rcases hpasses.stops (.inl rfl) _ hfinal with hsame | ⟨hvalid, -, hsaved⟩
      · exact .inr ⟨hsame, .inl rfl⟩
      · refine .inl ⟨credential, hphase, .inr rfl, ?_⟩
        rw [hsaved]
        exact bears_credentialFile hvalid
  · exact .inr ⟨rfl, .inr rfl⟩

/-- A credential that a node has was in its memory or its file before, or comes in an answer. -/
theorem credential_step {node : Node} {event : NodeEvent} {credential : DeviceCredential}
    (h : (nodeStep codec cfg node event).phase.credential? = some credential ∨
      Bears credential (nodeStep codec cfg node event).disk.file) :
    (node.phase.credential? = some credential ∨ Bears credential node.disk.file) ∨
      ∃ body, event = .receive (.ok (some body)) ∧
        DeviceCredential.fromValue body = some credential := by
  cases event with
  | boot io =>
    left
    simp only [nodeStep] at h
    split at h
    · refine h.elim (fun hphase ↦ .inr ?_) .inr
      -- What the agent starts with it has just loaded.
      simp only [HubConfig.start] at hphase
      cases hpath : cfg.credentialFile with
      | none =>
        simp only [hpath, Option.map_none] at hphase
        split at hphase <;> cases hphase
      | some path =>
        simp only [hpath, Option.map_some] at hphase
        cases hload : loadDeviceCredential path.path io node.disk.file with
        | error e =>
          rw [hload] at hphase
          cases hphase
        | ok found =>
          rcases load_cases hload with ⟨-, rfl⟩ | ⟨other, rfl, hvalid, hcontent⟩
          · rw [hload] at hphase
            dsimp only at hphase
            split at hphase <;> cases hphase
          · rw [hload] at hphase
            cases hphase
            exact ⟨hvalid, hcontent⟩
    · exact h
  | receive answer =>
    rcases h with hphase | hfile
    · simp only [nodeStep, Phase.receive.eq_def] at hphase
      split at hphase
      · split at hphase
        · cases hphase
        · rename_i body
          split at hphase
          · rename_i found hfound
            cases hphase
            obtain ⟨value, rfl, hvalue⟩ := Option.bind_eq_some_iff.mp hfound
            exact .inr ⟨value, rfl, hvalue⟩
          · cases hphase
      · split at hphase
        · cases hphase
        · split at hphase <;> cases hphase
      · split at hphase
        · cases hphase
        · split at hphase <;> cases hphase
      all_goals
        rename_i hbefore
        exact .inl (.inl (by rw [hbefore]; exact hphase))
    · exact .inl (.inr hfile)
  | save io =>
    left
    rcases save_cases codec cfg io node with ⟨other, hphase, hafter, hbears⟩ | ⟨hsame, hnode⟩
    · left
      rcases h with hmemory | hfile
      · rcases hafter with hpaired | hstopped
        · simp only [nodeStep, hpaired] at hmemory
          rw [hphase]
          exact hmemory
        · simp only [nodeStep, hstopped] at hmemory
          cases hmemory
      · rw [hphase, hbears.unique hfile]
        rfl
    · rcases hnode with hstopped | hnode
      · rcases h with hmemory | hfile
        · simp only [nodeStep, hstopped] at hmemory
          cases hmemory
        · exact .inr (hsame ▸ hfile)
      · rwa [nodeStep, hnode] at h
  | crash io cut =>
    left
    rcases h with hmemory | hfile
    · cases hmemory
    · rcases file_left codec cfg io cut node with hsame | ⟨other, hphase, hbears⟩
      · exact .inr (hsame ▸ hfile)
      · left
        rw [hphase, hbears.unique hfile]
        rfl
  | lose =>
    rcases h with hmemory | hfile
    · exact .inl (.inl hmemory)
    · exact absurd hfile not_bears_none

/-! ## One identity -/

/-- A node that is down or presents the credential that its file bears. -/
structure IdentifiedBy (credential : DeviceCredential) (node : Node) : Prop where
  file : Bears credential node.disk.file
  phase : node.phase = .stopped ∨ node.phase = .paired credential

structure Unpaired (code : String) (node : Node) : Prop where
  file : node.disk.file = none
  phase : node.phase = .stopped ∨ node.phase = .pairing code ∨
    ∃ credential, node.phase = .saving credential

variable {path : CredentialPath} {code : String} {credential : DeviceCredential} {node : Node}

theorem identifiedBy_step (hfile : cfg.credentialFile = some path)
    (h : IdentifiedBy credential node) {event : NodeEvent} (hkeeps : event ≠ .lose) :
    IdentifiedBy credential (nodeStep codec cfg node event) := by
  have hnotSaving (other : DeviceCredential) : node.phase ≠ .saving other := by
    rcases h.phase with hphase | hphase
    · simp [hphase]
    · simp [hphase]
  cases event with
  | boot io =>
    refine ⟨?_, ?_⟩
    · simp only [nodeStep]
      split
      · exact h.file
      · exact h.file
    · rcases h.phase with hphase | hphase
      · simp only [nodeStep, hphase, HubConfig.start, hfile, Option.map_some]
        rcases h.file.load path.path io with hload | ⟨e, hload⟩
        · rw [hload]
          exact .inr rfl
        · rw [hload]
          exact .inl rfl
      · simp only [nodeStep, hphase]
        exact .inr trivial
  | receive answer =>
    refine ⟨h.file, ?_⟩
    rcases h.phase with hphase | hphase
    · exact .inl (by simp only [nodeStep, hphase, Phase.receive])
    · exact .inr (by simp only [nodeStep, hphase, Phase.receive])
  | save io =>
    rcases save_cases codec cfg io node with ⟨other, hphase, -⟩ | ⟨hsame, hnode⟩
    · exact absurd hphase (hnotSaving other)
    · refine ⟨hsame ▸ h.file, ?_⟩
      rcases hnode with hstopped | hnode
      · exact .inl hstopped
      · rw [nodeStep, hnode]
        exact h.phase
  | crash io cut =>
    refine ⟨?_, .inl rfl⟩
    rcases file_left codec cfg io cut node with hsame | ⟨other, hphase, -⟩
    · exact hsame ▸ h.file
    · exact absurd hphase (hnotSaving other)
  | lose => exact absurd rfl hkeeps

/-- A node that pairs gets its identity by a save, whole or cut off. -/
theorem unpaired_step (hcode : cfg.pairingCode = some code)
    (hfile : cfg.credentialFile = some path) (h : Unpaired code node) (event : NodeEvent) :
    Unpaired code (nodeStep codec cfg node event) ∨
      ∃ credential, IdentifiedBy credential (nodeStep codec cfg node event) := by
  cases event with
  | boot io =>
    left
    refine ⟨?_, ?_⟩
    · simp only [nodeStep]
      split
      · exact h.file
      · exact h.file
    · rcases h.phase with hphase | hphase | ⟨credential, hphase⟩
      · simp only [nodeStep, hphase, HubConfig.start, hfile, hcode, Option.map_some, h.file]
        rcases load_none path.path io with hload | ⟨e, hload⟩
        · rw [hload]
          exact .inr (.inl rfl)
        · rw [hload]
          exact .inl rfl
      · simp only [nodeStep, hphase]
        exact .inr (.inl trivial)
      · simp only [nodeStep, hphase]
        exact .inr (.inr ⟨credential, rfl⟩)
  | receive answer =>
    refine .inl ⟨h.file, ?_⟩
    simp only [nodeStep]
    rcases h.phase with hphase | hphase | ⟨credential, hphase⟩
    · exact .inl (by rw [hphase]; rfl)
    · rw [hphase]
      cases answer with
      | error e => exact .inl rfl
      | ok body =>
        simp only [Phase.receive]
        cases body.bind DeviceCredential.fromValue with
        | some credential => exact .inr (.inr ⟨credential, rfl⟩)
        | none => exact .inl rfl
    · exact .inr (.inr ⟨credential, by rw [hphase]; rfl⟩)
  | save io =>
    rcases save_cases codec cfg io node with ⟨credential, -, hphase, hbears⟩ | ⟨hsame, hnode⟩
    · exact .inr ⟨credential, hbears, hphase.symm⟩
    · refine .inl ⟨hsame.trans h.file, ?_⟩
      rcases hnode with hstopped | hnode
      · exact .inl hstopped
      · rw [nodeStep, hnode]
        exact h.phase
  | crash io cut =>
    rcases file_left codec cfg io cut node with hsame | ⟨credential, -, hbears⟩
    · exact .inl ⟨hsame.trans h.file, .inl rfl⟩
    · exact .inr ⟨credential, hbears, .inl rfl⟩
  | lose => exact .inl ⟨rfl, h.phase⟩

/-- What a node presents that has no credential yet, or just one. -/
theorem call_of_unpaired (h : Unpaired code node) {description : Option Value} {call : Call}
    (hcall : node.phase.call? cfg description = some call) :
    call = ⟨"hub/pair", pairBody cfg code description, none⟩ := by
  rcases h.phase with hphase | hphase | ⟨credential, hphase⟩
  · rw [hphase] at hcall
    cases hcall
  · rw [hphase] at hcall
    exact (Option.some.inj hcall).symm
  · rw [hphase] at hcall
    cases hcall

theorem call_of_identifiedBy (h : IdentifiedBy credential node) {description : Option Value}
    {call : Call} (hcall : node.phase.call? cfg description = some call) :
    call = ⟨"hub/heartbeat", heartbeatBody credential.nodeId description,
      some credential.deviceCredential⟩ := by
  rcases h.phase with hphase | hphase
  · rw [hphase] at hcall
    cases hcall
  · rw [hphase] at hcall
    exact (Option.some.inj hcall).symm

/-- A node that is set up to pair and begins without a credential file, whatever it is answered and
wherever it crashes, makes two kinds of calls only as long as nobody takes its file away: pairings
with its code and without a token, and heartbeats for one id with one secret.  In particular it
never shows a farm token. -/
theorem one_identity (hcode : cfg.pairingCode = some code) (hfile : cfg.credentialFile = some path)
    (hphase : node.phase = .stopped) (hnone : node.disk.file = none) {events : List NodeEvent}
    (hkeeps : ∀ event ∈ events, event ≠ .lose) :
    ∃ credential : DeviceCredential, ∀ early, early <+: events → ∀ description call,
      (Run.run (nodeStep codec cfg) node early).phase.call? cfg description = some call →
        call = ⟨"hub/pair", pairBody cfg code description, none⟩ ∨
        call = ⟨"hub/heartbeat", heartbeatBody credential.nodeId description,
          some credential.deviceCredential⟩ := by
  have hreached {early : List NodeEvent} (hearly : early <+: events) :
      Unpaired code (Run.run (nodeStep codec cfg) node early) ∨
        ∃ credential, IdentifiedBy credential (Run.run (nodeStep codec cfg) node early) := by
    refine Run.invariant_run_of_forall
      (fun node ↦ Unpaired code node ∨ ∃ credential, IdentifiedBy credential node) ?_
      (.inl ⟨hnone, .inl hphase⟩) fun event hevent ↦ hkeeps event (hearly.subset hevent)
    rintro node event (hunpaired | ⟨credential, hidentified⟩) hevent
    · exact unpaired_step hcode hfile hunpaired event
    · exact .inr ⟨credential, identifiedBy_step hfile hidentified hevent⟩
  -- An identity that the node has at some point it still has at the end.
  have hlasts {early : List NodeEvent} (hearly : early <+: events) {credential : DeviceCredential}
      (h : IdentifiedBy credential (Run.run (nodeStep codec cfg) node early)) :
      IdentifiedBy credential (Run.run (nodeStep codec cfg) node events) := by
    obtain ⟨late, rfl⟩ := hearly
    have hlate : ∀ event ∈ late, event ≠ .lose := fun event hevent ↦
      hkeeps event (List.mem_append_right _ hevent)
    rw [Run.run_append]
    refine Run.invariant_run_of_forall (IdentifiedBy credential) ?_ h hlate
    exact fun _ _ hnode hevent ↦ identifiedBy_step hfile hnode hevent
  rcases hreached (List.prefix_refl events) with hunpaired | ⟨credential, hidentified⟩
  · refine ⟨⟨"", ""⟩, fun early hearly description call hcall ↦ .inl ?_⟩
    rcases hreached hearly with hearlier | ⟨other, hother⟩
    · exact call_of_unpaired hearlier hcall
    · have hbears := (hlasts hearly hother).file
      rw [hunpaired.file] at hbears
      exact absurd hbears not_bears_none
  · refine ⟨credential, fun early hearly description call hcall ↦ ?_⟩
    rcases hreached hearly with hearlier | ⟨other, hother⟩
    · exact .inl (call_of_unpaired hearlier hcall)
    · obtain rfl := hidentified.file.unique (hlasts hearly hother).file
      exact .inr (call_of_identifiedBy hother hcall)

/-- A node that is set up to pair. -/
def boxConfig (name : String) (code : Vector UInt8 32) : HubConfig where
  farmToken := some "farm-secret"
  pairingCode := some (secretOf code)
  credentialFile := some boxPath
  nodeName := name
  callbackAddress := "https://node.example"
  nodeKey := some "callback-key-0123"

/-- The node is paired, crashes, comes up again and is told that it is unknown. -/
def boxLife : List NodeEvent := [
  .boot ⟨.ok (), .ok (), ""⟩,
  .receive (.ok (some boxCredential.toValue)),
  .save ⟨.working 2, true⟩,
  .crash ⟨.working 2, true⟩ 0,
  .boot ⟨.ok (), .ok (), ""⟩,
  .receive (.ok (some (.ofFields [("known", .bool false)])))]

theorem one_identity_box :
    let cfg := boxConfig "gpu-box" (.replicate 32 0)
    let node : Node := ⟨.stopped, ⟨none, .empty⟩⟩
    (Run.run (nodeStep .compact cfg) node boxLife).phase = .paired boxCredential ∧
      ∃ credential : DeviceCredential, ∀ early, early <+: boxLife → ∀ description call,
        (Run.run (nodeStep .compact cfg) node early).phase.call? cfg description = some call →
          call = ⟨"hub/pair", pairBody cfg (secretOf (.replicate 32 0)) description, none⟩ ∨
          call = ⟨"hub/heartbeat", heartbeatBody credential.nodeId description,
            some credential.deviceCredential⟩ := by
  refine ⟨by decide +kernel, one_identity rfl rfl rfl rfl ?_⟩
  simp [boxLife]

end Cameo.Hub
