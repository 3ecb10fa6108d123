import Cameo.Detect.Pairs

/-!
# Whose architecture a card is given

What attribution by keys promises: each agent goes to one card at most, an architecture already
there stays, the count is that of the cards newly given one, and card and agent agree in everything
both tell.  A device id, an address and what is left over each settle a pair without looking at the
other facts, so the promise is kept exactly where these agree as well.
-/

namespace Cameo.Detect

variable {gpus : List GpuInfo} {agents : List RocmAgent} {gpu : GpuInfo} {agent : RocmAgent}

/-! ## What card and agent tell of each other -/

/-- The chip id of the agent is the device id of the card, where both are known. -/
def ChipIdsAgree (gpu : GpuInfo) (agent : RocmAgent) : Prop :=
  ∀ id own, agent.chipId = some id → pciDeviceId gpu.pciId = some own → id = own

/-- The bus, device and function of the agent are those of the card, where both are known. -/
def BdfsAgree (gpu : GpuInfo) (agent : RocmAgent) : Prop :=
  ∀ bdf own, agent.bdf = some bdf → gpu.bdf = some own → bdf = own

/-- An AMD card that the agent does not contradict. -/
structure Consistent (gpu : GpuInfo) (agent : RocmAgent) : Prop where
  amd : gpu.vendor = .amd
  chipIds : ChipIdsAgree gpu agent
  bdfs : BdfsAgree gpu agent

def newlySet (before after : List GpuInfo) : List ℕ :=
  Library.positions (before.zip after) fun card ↦
    card.1.gfxArch.isNone && card.2.gfxArch.isSome

/-- No architecture is given to the wrong card. -/
structure GivenRightly (gpus : List GpuInfo) (agents : List RocmAgent) : Prop where
  once : ((correlation agents gpus).attributed.map Prod.snd).Nodup
  kept : ∀ {i : ℕ} {gpu : GpuInfo}, gpus[i]? = some gpu → gpu.gfxArch ≠ none →
    (correlateRocmAgents agents gpus).1[i]? = some gpu
  counted : (correlateRocmAgents agents gpus).2 =
    (newlySet gpus (correlateRocmAgents agents gpus).1).length
  given : ∀ {i}, i ∈ newlySet gpus (correlateRocmAgents agents gpus).1 ↔
    ∃ j gpu agent, (i, j) ∈ (correlation agents gpus).attributed ∧ gpus[i]? = some gpu ∧
      agents[j]? = some agent ∧
      (correlateRocmAgents agents gpus).1[i]? = some (gpu.withArch agent)
  consistent : ∀ {i j gpu agent}, (i, j) ∈ (correlation agents gpus).attributed →
    gpus[i]? = some gpu → agents[j]? = some agent → Consistent gpu agent

/-- Card and agent agree in what does not settle the pair as well. -/
structure MatchesAgree (gpus : List GpuInfo) (agents : List RocmAgent) : Prop where
  device : ∀ {i j : ℕ} {gpu : GpuInfo} {agent : RocmAgent}, DeviceMatch gpus agents i j →
    gpus[i]? = some gpu → agents[j]? = some agent → gpu.vendor = .amd ∧ BdfsAgree gpu agent
  address : ∀ {i j : ℕ} {gpu : GpuInfo} {agent : RocmAgent}, AddressMatch gpus agents i j →
    gpus[i]? = some gpu → agents[j]? = some agent → gpu.vendor = .amd ∧ ChipIdsAgree gpu agent
  leftOver : ∀ {i j : ℕ} {gpu : GpuInfo} {agent : RocmAgent}, LeftOver gpus agents i j →
    gpus[i]? = some gpu → agents[j]? = some agent →
    gpu.vendor = .amd ∧ ChipIdsAgree gpu agent ∧ BdfsAgree gpu agent

/-! ## What always holds -/

variable {i j : ℕ}

theorem DeviceMatch.chipIdsAgree (h : DeviceMatch gpus agents i j) (hgpu : gpus[i]? = some gpu)
    (hagent : agents[j]? = some agent) : ChipIdsAgree gpu agent := by
  obtain ⟨gpu', agent', id, hgpu', hagent', -, hid, hchip, -⟩ := h
  obtain rfl := Option.some.inj (hgpu.symm.trans hgpu')
  obtain rfl := Option.some.inj (hagent.symm.trans hagent')
  intro id' own hid' hown
  rw [← Option.some_inj, ← hid', ← hown, hid, hchip]

theorem AddressMatch.bdfsAgree (h : AddressMatch gpus agents i j) (hgpu : gpus[i]? = some gpu)
    (hagent : agents[j]? = some agent) : BdfsAgree gpu agent := by
  obtain ⟨gpu', agent', bdf, hgpu', hagent', hbdf, hbdf', -⟩ := h
  obtain rfl := Option.some.inj (hgpu.symm.trans hgpu'.1)
  obtain rfl := Option.some.inj (hagent.symm.trans hagent'.1)
  intro bdf' own hreported hown
  rw [← Option.some_inj, ← hreported, ← hown, hbdf, hbdf']

/-- A card that had an architecture is not in any pair. -/
theorem Recorded.kept_of_set {st : Correlation} (h : Recorded gpus agents st)
    (hgpu : gpus[i]? = some gpu) (hset : gpu.gfxArch ≠ none) : st.gpus[i]? = some gpu := by
  refine (h.kept i fun hmem ↦ ?_).trans hgpu
  obtain ⟨⟨i, j⟩, hpair, rfl⟩ := List.mem_map.mp hmem
  obtain ⟨gpu', agent, hgpu', hnone, -⟩ := h.given hpair
  obtain rfl := Option.some.inj (hgpu.symm.trans hgpu')
  exact hset hnone

/-- The cards newly set are those in a pair. -/
theorem Recorded.mem_newlySet_iff {st : Correlation} (h : Recorded gpus agents st) :
    i ∈ newlySet gpus st.gpus ↔ i ∈ st.attributed.map Prod.fst := by
  rw [newlySet, Library.mem_positions]
  constructor
  · rintro ⟨⟨before, after⟩, hzip, hset⟩
    obtain ⟨hbefore, hafter⟩ := List.getElem?_zip_eq_some.mp hzip
    obtain ⟨hnone, hsome⟩ := Bool.and_eq_true_iff.mp hset
    by_contra hopen
    rw [h.kept i hopen] at hafter
    have hsame : before = after := Option.some.inj (hbefore.symm.trans hafter)
    rw [← hsame, Option.isNone_iff_eq_none.mp hnone] at hsome
    exact absurd hsome Bool.false_ne_true
  · intro hmem
    obtain ⟨⟨i, j⟩, hpair, rfl⟩ := List.mem_map.mp hmem
    obtain ⟨gpu, agent, hgpu, hnone, -, hst⟩ := h.given hpair
    refine ⟨(gpu, gpu.withArch agent), List.getElem?_zip_eq_some.mpr ⟨hgpu, hst⟩, ?_⟩
    exact Bool.and_eq_true_iff.mpr ⟨Option.isNone_iff_eq_none.mpr hnone, rfl⟩

/-- As many cards are newly set as the code counts. -/
theorem Recorded.length_newlySet {st : Correlation} (h : Recorded gpus agents st) :
    (newlySet gpus st.gpus).length = st.matched := by
  have hperm : (newlySet gpus st.gpus).Perm (st.attributed.map Prod.fst) :=
    (List.perm_ext_iff_of_nodup (Library.nodup_positions _ _) h.paired.left).mpr
      fun _ ↦ h.mem_newlySet_iff
  rw [hperm.length_eq, List.length_map, h.matched]

/-! ## Where the promise is kept -/

/-- Each agent goes to one card at most, architectures stay and are counted, and card and agent
agree, exactly where what settles a pair is not contradicted by what does not. -/
theorem givenRightly_iff (gpus : List GpuInfo) (agents : List RocmAgent) :
    GivenRightly gpus agents ↔ MatchesAgree gpus agents := by
  have hrecorded := recorded_correlation gpus agents
  constructor
  · intro h
    constructor
    · intro i j gpu agent hmatch hgpu hagent
      have := h.consistent (mem_attributed_iff.mpr (.inl hmatch)) hgpu hagent
      exact ⟨this.amd, this.bdfs⟩
    · intro i j gpu agent hmatch hgpu hagent
      have := h.consistent (mem_attributed_iff.mpr (.inr (.inl hmatch))) hgpu hagent
      exact ⟨this.amd, this.chipIds⟩
    · intro i j gpu agent hmatch hgpu hagent
      have := h.consistent (mem_attributed_iff.mpr (.inr (.inr hmatch))) hgpu hagent
      exact ⟨this.amd, this.chipIds, this.bdfs⟩
  · intro h
    constructor
    · exact hrecorded.paired.right
    · exact hrecorded.kept_of_set
    · exact hrecorded.length_newlySet.symm
    · intro i
      refine hrecorded.mem_newlySet_iff.trans ⟨fun hmem ↦ ?_, ?_⟩
      · obtain ⟨⟨i, j⟩, hpair, rfl⟩ := List.mem_map.mp hmem
        obtain ⟨gpu, agent, hgpu, -, hagent, hst⟩ := hrecorded.given hpair
        exact ⟨j, gpu, agent, hpair, hgpu, hagent, hst⟩
      · rintro ⟨j, gpu, agent, hpair, -⟩
        exact List.mem_map_of_mem hpair
    · intro i j gpu agent hpair hgpu hagent
      obtain hmatch | hmatch | hmatch := mem_attributed_iff.mp hpair
      · obtain ⟨hamd, hbdfs⟩ := h.device hmatch hgpu hagent
        exact ⟨hamd, hmatch.chipIdsAgree hgpu hagent, hbdfs⟩
      · obtain ⟨hamd, hchipIds⟩ := h.address hmatch hgpu hagent
        exact ⟨hamd, hchipIds, hmatch.bdfsAgree hgpu hagent⟩
      · obtain ⟨hamd, hchipIds, hbdfs⟩ := h.leftOver hmatch hgpu hagent
        exact ⟨hamd, hchipIds, hbdfs⟩

/-- A card of which only the identity and the architecture are known. -/
def bareCard (vendor : Placement.Vendor) (pciId : String) (pciAddr gfxArch : Option String) :
    GpuInfo where
  vendor := vendor
  vramMb := none
  vramUsedMb := none
  gttMb := none
  memory := .unknown
  gfxArch := gfxArch
  pciId := pciId
  pciAddr := pciAddr

/-- A machine whose AMD card already has its architecture, with an APU and an NVIDIA card that
have none. -/
def mixedCards : List GpuInfo :=
  [bareCard .amd "1002:744c" (some "0000:03:00.0") (some "gfx1100"),
    bareCard .amd "1002:15bf" (some "0000:c5:00.0") none,
    bareCard .nvidia "10de:2684" (some "0000:01:00.0") none]

def mixedAgents : List RocmAgent :=
  [{ gfx := "gfx1100", chipId := some 0x744c, bdf := some ⟨3, 0, 0⟩ },
    { gfx := "gfx1103", chipId := some 0x15bf, bdf := some ⟨0xc5, 0, 0⟩ }]

/-- The agent of the card that has its architecture is left over, and so is the NVIDIA card. -/
theorem not_givenRightly_mixed : ¬ GivenRightly mixedCards mixedAgents := by
  intro h
  have hpair : (2, 0) ∈ (correlation mixedAgents mixedCards).attributed := by decide +kernel
  have := (h.consistent hpair rfl rfl).amd
  exact absurd this (by decide)

end Cameo.Detect
