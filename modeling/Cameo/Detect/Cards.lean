import Cameo.Address
import Cameo.Library.KeyMatch
import Cameo.Placement.Topology

/-!
# The architectures of the detected cards

`lspci` lists the cards, `rocminfo` the agents with their architectures, in orders of their own.
`correlate_rocm_agents` attributes agents to cards in three passes: by a distinctive device id, by
the bus, device and function, and by elimination.
-/

namespace Cameo.Detect

/-! ## Cards and agents -/

/-- `GpuInfo`, with the PCI identity that detection goes by. -/
structure GpuInfo extends Placement.GpuInfo where
  pciId : String
  pciAddr : Option String
deriving DecidableEq

/-- `Bdf`. -/
structure Bdf where
  bus : UInt8
  device : UInt8
  function : UInt8
deriving DecidableEq

/-- `RocmAgent`. -/
structure RocmAgent where
  gfx : String
  chipId : Option UInt16
  bdf : Option Bdf
deriving DecidableEq

/-- The part of `pci_addr_re` after the domain: two digits, a colon, two digits, a dot, and a digit
up to seven. -/
def bdfDigits : List Char → Option (List Char × List Char × Char)
  | [b₁, b₂, ':', d₁, d₂, '.', f] =>
    if [b₁, b₂, d₁, d₂].all isHexDigit ∧ '0' ≤ f ∧ f ≤ '7' then some ([b₁, b₂], [d₁, d₂], f)
    else none
  | _ => none

/-- The domain of `pci_addr_re`: four digits and a colon. -/
def withoutDomain : List Char → Option (List Char)
  | d₁ :: d₂ :: d₃ :: d₄ :: ':' :: rest =>
    if [d₁, d₂, d₃, d₄].all isHexDigit then some rest else none
  | _ => none

/-- `Bdf::parse`, from a PCI address with or without its domain. -/
def Bdf.parse (addr : String) : Option Bdf :=
  let text := trimChars addr.toList
  (bdfDigits text <|> (withoutDomain text).bind bdfDigits).map fun captured ↦
    { bus := .ofNat (valueOf 16 captured.1)
      device := .ofNat (valueOf 16 captured.2.1)
      function := .ofNat (valueOf 10 [captured.2.2]) }

/-- `u16::from_str_radix(text, 16)`. -/
def parseHexU16 (text : List Char) : Option UInt16 :=
  let digits := withoutPlus text
  if digits = [] ∨ !digits.all isHexDigit then none
  else if h : valueOf 16 digits < UInt16.size then some (.ofNatLT _ h) else none

/-- `pci_device_id`. -/
def pciDeviceId (pciId : String) : Option UInt16 :=
  (pciId.toList.splitOn ':')[1]?.bind parseHexU16

/-- The bus, device and function of a card whose address is known. -/
def GpuInfo.bdf (gpu : GpuInfo) : Option Bdf := gpu.pciAddr.bind Bdf.parse

/-! ## Correlation -/

/-- The variables of `correlate_rocm_agents`.  The pairs attributed so far are a record that the
code does not keep. -/
structure Correlation where
  gpus : List GpuInfo
  taken : List Bool
  matched : ℕ
  attributed : List (ℕ × ℕ)

/-- A card is given the architecture of an agent. -/
def Correlation.attribute (agents : List RocmAgent) (st : Correlation) (gi ai : ℕ) :
    Correlation where
  gpus := st.gpus.modify gi fun gpu ↦ { gpu with gfxArch := agents[ai]?.map RocmAgent.gfx }
  taken := st.taken.set ai true
  matched := st.matched + 1
  attributed := st.attributed ++ [(gi, ai)]

def hits (agents : List RocmAgent) (taken : List Bool) (wanted : RocmAgent → Bool) : List ℕ :=
  (List.range agents.length).filter fun ai ↦ taken[ai]? = some false && agents[ai]?.any wanted

section Passes

variable {κ : Type} [DecidableEq κ] (agents : List RocmAgent)

/-- One card's turn in a pass that goes by a key. -/
def Correlation.claimBy (key : ℕ → GpuInfo → Option κ) (agentKey : RocmAgent → Option κ)
    (st : Correlation) (gi : ℕ) : Correlation :=
  match st.gpus[gi]? with
  | none => st
  | some gpu =>
    if gpu.gfxArch.isSome then st
    else
      match key gi gpu with
      | none => st
      | some wanted =>
        match hits agents st.taken fun agent ↦ agentKey agent = some wanted with
        | [ai] => st.attribute agents gi ai
        | _ => st

/-- `dev_ids`. -/
def devIds (gpus : List GpuInfo) : List (Option UInt16) :=
  gpus.map fun gpu ↦ pciDeviceId gpu.pciId

/-- `distinctive`: the device ids that no other card has. -/
def distinctive (gpus : List GpuInfo) : List (Option UInt16) :=
  (devIds gpus).map fun d ↦ d.filter fun _ ↦ (devIds gpus).countP (· = d) = 1

def Correlation.byChipId (gpus : List GpuInfo) (st : Correlation) : Correlation :=
  (List.range st.gpus.length).foldl
    (claimBy agents (fun gi _ ↦ (distinctive gpus)[gi]?.join) RocmAgent.chipId) st

def Correlation.byAddress (st : Correlation) : Correlation :=
  (List.range st.gpus.length).foldl (claimBy agents (fun _ gpu ↦ gpu.bdf) RocmAgent.bdf) st

/-- `free_gpus`. -/
def freeGpus (st : Correlation) : List ℕ :=
  (List.range st.gpus.length).filter fun i ↦ st.gpus[i]?.any (·.gfxArch.isNone)

/-- `free_agents`. -/
def freeAgents (st : Correlation) : List ℕ :=
  (List.range agents.length).filter fun i ↦ st.taken[i]? = some false

def Correlation.byElimination (st : Correlation) : Correlation :=
  match freeGpus st, freeAgents agents st with
  | [gi], [ai] => st.attribute agents gi ai
  | _, _ => st

/-- The run of `correlate_rocm_agents`. -/
def correlation (gpus : List GpuInfo) : Correlation :=
  let st : Correlation :=
    { gpus, taken := List.replicate agents.length false, matched := 0, attributed := [] }
  ((st.byChipId agents gpus).byAddress agents).byElimination agents

/-- `correlate_rocm_agents`: the cards with their architectures, and how many were given one. -/
def correlateRocmAgents (gpus : List GpuInfo) : List GpuInfo × ℕ :=
  ((correlation agents gpus).gpus, (correlation agents gpus).matched)

end Passes

/-! ## What the record says -/

variable {gpus : List GpuInfo} {agents : List RocmAgent} {st : Correlation} {gi ai : ℕ}

/-- A card given the architecture of an agent. -/
def GpuInfo.withArch (gpu : GpuInfo) (agent : RocmAgent) : GpuInfo :=
  { gpu with gfxArch := some agent.gfx }

@[simp]
theorem attribute_attributed : (st.attribute agents gi ai).attributed =
    st.attributed ++ [(gi, ai)] := rfl

theorem attribute_gpus_of_ne {gi' : ℕ} (h : gi ≠ gi') :
    (st.attribute agents gi ai).gpus[gi']? = st.gpus[gi']? :=
  List.getElem?_modify_ne _ st.gpus h

theorem attribute_gpus_self {gpu : GpuInfo} {agent : RocmAgent} (hgpu : st.gpus[gi]? = some gpu)
    (hagent : agents[ai]? = some agent) :
    (st.attribute agents gi ai).gpus[gi]? = some (gpu.withArch agent) := by
  unfold Correlation.attribute
  rw [List.getElem?_modify_eq, hgpu, hagent]
  rfl

/-- The variables agree with the pairs attributed: these cards had no architecture and have their
agents', the other cards are as they were, and the agents are taken. -/
structure Recorded (gpus : List GpuInfo) (agents : List RocmAgent) (st : Correlation) : Prop where
  paired : Library.Paired st.attributed
  given : ∀ {gi ai}, (gi, ai) ∈ st.attributed → ∃ gpu agent, gpus[gi]? = some gpu ∧
    gpu.gfxArch = none ∧ agents[ai]? = some agent ∧ st.gpus[gi]? = some (gpu.withArch agent)
  kept : ∀ gi ∉ st.attributed.map Prod.fst, st.gpus[gi]? = gpus[gi]?
  length : st.gpus.length = gpus.length
  taken : ∀ {ai}, st.taken[ai]? = some false ↔
    ai < agents.length ∧ ai ∉ st.attributed.map Prod.snd
  matched : st.matched = st.attributed.length

theorem Recorded.attribute (h : Recorded gpus agents st) {gpu : GpuInfo}
    (hgpu : gpus[gi]? = some gpu) (hnone : gpu.gfxArch = none)
    (hopen : gi ∉ st.attributed.map Prod.fst) (hai : ai < agents.length)
    (hfree : ai ∉ st.attributed.map Prod.snd) :
    Recorded gpus agents (st.attribute agents gi ai) where
  paired := h.paired.concat hopen hfree
  given := by
    intro gi' ai' hmem
    obtain hmem | hmem := List.mem_append.mp hmem
    · obtain ⟨gpu', agent, hgpu', hnone', hagent, hst⟩ := h.given hmem
      have hne : gi ≠ gi' := fun heq ↦ hopen (heq ▸ List.mem_map_of_mem hmem)
      exact ⟨gpu', agent, hgpu', hnone', hagent, (attribute_gpus_of_ne hne).trans hst⟩
    · obtain ⟨rfl, rfl⟩ := Prod.mk.inj (List.mem_singleton.mp hmem)
      have hagent : agents[ai']? = some agents[ai'] := List.getElem?_eq_getElem hai
      exact ⟨gpu, agents[ai'], hgpu, hnone, hagent,
        attribute_gpus_self ((h.kept gi' hopen).trans hgpu) hagent⟩
  kept := by
    intro gi' hmem
    rw [attribute_attributed, List.map_append, List.mem_append, not_or] at hmem
    have hne : gi ≠ gi' := fun heq ↦ hmem.2 (List.mem_singleton.mpr heq.symm)
    rw [attribute_gpus_of_ne hne, h.kept gi' hmem.1]
  length := (List.length_modify _ _ _).trans h.length
  taken := by
    intro ai'
    rw [attribute_attributed, List.map_append, List.mem_append, not_or, ← and_assoc, ← h.taken,
      List.map_singleton, List.mem_singleton]
    change (st.taken.set ai true)[ai']? = some false ↔ _
    by_cases heq : ai = ai'
    · subst heq
      rw [List.getElem?_set_self']
      simp
    · rw [List.getElem?_set_ne heq, and_iff_left (Ne.symm heq)]
  matched := by
    rw [attribute_attributed, List.length_append, List.length_singleton, ← h.matched]
    rfl

theorem recorded_start (gpus : List GpuInfo) (agents : List RocmAgent) :
    Recorded gpus agents
      { gpus, taken := List.replicate agents.length false, matched := 0, attributed := [] } where
  paired := .nil
  given := nofun
  kept := fun _ _ ↦ rfl
  length := rfl
  taken := by
    intro ai
    rw [List.getElem?_replicate]
    simp
  matched := rfl

/-! ## The passes by key -/

section Passes

variable {κ : Type} [DecidableEq κ] {key : ℕ → GpuInfo → Option κ} {agentKey : RocmAgent → Option κ}

/-- The key that a card without an architecture goes by. -/
def cardKey (gpus : List GpuInfo) (key : ℕ → GpuInfo → Option κ) (i : ℕ) : Option κ :=
  gpus[i]?.bind fun gpu ↦ if gpu.gfxArch.isSome then none else key i gpu

def keyAt (agents : List RocmAgent) (agentKey : RocmAgent → Option κ) (j : ℕ) : Option κ :=
  agents[j]?.bind agentKey

theorem hits_eq (h : Recorded gpus agents st) {wanted : κ}
    (hkey : cardKey gpus key gi = some wanted) :
    hits agents st.taken (fun agent ↦ agentKey agent = some wanted) =
      Library.candidates (cardKey gpus key) (keyAt agents agentKey) agents.length
        st.attributed gi := by
  refine List.filter_congr fun ai hai ↦ ?_
  have hfree : (st.taken[ai]? = some false) ↔ ai ∉ st.attributed.map Prod.snd :=
    h.taken.trans (and_iff_right (List.mem_range.mp hai))
  rw [Bool.eq_iff_iff, Bool.and_eq_true, decide_eq_true_eq, decide_eq_true_eq, hfree, hkey, keyAt,
    Option.any_eq_true, Option.bind_eq_some_iff]
  simp

/-- An open card is given its only candidate. -/
theorem claimBy_eq (h : Recorded gpus agents st) (hopen : gi ∉ st.attributed.map Prod.fst) :
    st.claimBy agents key agentKey gi =
      match Library.candidates (cardKey gpus key) (keyAt agents agentKey) agents.length
        st.attributed gi with
      | [ai] => st.attribute agents gi ai
      | _ => st := by
  unfold Correlation.claimBy
  rw [h.kept gi hopen]
  cases hcard : cardKey gpus key gi with
  | none =>
    rw [Library.candidates_eq_nil hcard]
    cases hgpu : gpus[gi]? with
    | none => rfl
    | some gpu =>
      rw [cardKey, hgpu, Option.bind_some] at hcard
      dsimp only
      split at hcard
      · rw [if_pos ‹_›]
      · rw [if_neg ‹_›, hcard]
  | some wanted =>
    rw [← hits_eq h hcard]
    obtain ⟨gpu, hgpu, hkey⟩ := Option.bind_eq_some_iff.mp hcard
    rw [hgpu]
    dsimp only
    split at hkey
    · exact absurd hkey nofun
    · rw [if_neg ‹_›, hkey]

/-- A card's turn in a pass is its claim. -/
theorem Recorded.claimBy (h : Recorded gpus agents st) (gi : ℕ) :
    Recorded gpus agents (st.claimBy agents key agentKey gi) ∧
      (st.claimBy agents key agentKey gi).attributed =
        Library.claim (cardKey gpus key) (keyAt agents agentKey) agents.length
          st.attributed gi := by
  by_cases hopen : gi ∈ st.attributed.map Prod.fst
  · obtain ⟨⟨gi, ai⟩, hmem, rfl⟩ := List.mem_map.mp hopen
    obtain ⟨gpu, agent, -, -, -, hst⟩ := h.given hmem
    have hsame : st.claimBy agents key agentKey gi = st := by
      unfold Correlation.claimBy
      rw [hst]
      rfl
    rw [hsame, Library.claim, if_pos hopen]
    exact ⟨h, rfl⟩
  · rw [claimBy_eq h hopen]
    obtain ⟨ai, -, hai, hclaim⟩ | ⟨hnone, hclaim⟩ := Library.claim_cases (cardKey gpus key)
      (keyAt agents agentKey) agents.length st.attributed gi
    · rw [hclaim, hai]
      obtain ⟨hlt, hfree, hsome, -⟩ := Library.mem_candidates.mp (hai ▸ List.mem_singleton_self ai)
      obtain ⟨wanted, hwanted⟩ := Option.isSome_iff_exists.mp hsome
      obtain ⟨gpu, hgpu, hkey⟩ := Option.bind_eq_some_iff.mp hwanted
      have hunset : gpu.gfxArch = none := by
        by_contra harch
        rw [if_pos (Option.isSome_iff_ne_none.mpr harch)] at hkey
        exact absurd hkey nofun
      exact ⟨h.attribute hgpu hunset hopen hlt hfree, rfl⟩
    · rw [hclaim]
      split
      · rename_i ai hai
        exact absurd hai ((hnone.resolve_left hopen) ai)
      · exact ⟨h, rfl⟩

/-- A pass by a key is a pass of claims. -/
theorem Recorded.pass (h : Recorded gpus agents st) (key : ℕ → GpuInfo → Option κ)
    (agentKey : RocmAgent → Option κ) (n : ℕ) :
    Recorded gpus agents ((List.range n).foldl (Correlation.claimBy agents key agentKey) st) ∧
      ((List.range n).foldl (Correlation.claimBy agents key agentKey) st).attributed =
        Library.claimAll (cardKey gpus key) (keyAt agents agentKey) agents.length n
          st.attributed := by
  induction n with
  | zero => exact ⟨h, rfl⟩
  | succ n ih =>
    obtain ⟨hrecorded, hattributed⟩ := ih
    rw [Library.claimAll_succ, ← hattributed, List.range_succ, List.foldl_append]
    exact hrecorded.claimBy n

omit [DecidableEq κ] in
theorem cardKey_eq_some_iff {wanted : κ} :
    cardKey gpus key gi = some wanted ↔
      ∃ gpu, gpus[gi]? = some gpu ∧ gpu.gfxArch = none ∧ key gi gpu = some wanted := by
  rw [cardKey, Option.bind_eq_some_iff]
  refine exists_congr fun gpu ↦ and_congr_right fun _ ↦ ?_
  cases harch : gpu.gfxArch with
  | none => simp
  | some arch => simp

omit [DecidableEq κ] in
theorem keyAt_eq_some_iff {wanted : κ} :
    keyAt agents agentKey ai = some wanted ↔
      ∃ agent, agents[ai]? = some agent ∧ agentKey agent = some wanted :=
  Option.bind_eq_some_iff

end Passes

end Cameo.Detect
