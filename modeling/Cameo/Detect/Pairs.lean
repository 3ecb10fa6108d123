import Cameo.Detect.Cards

/-!
# Which cards and agents are paired

The pairs that `correlate_rocm_agents` attributes, described without its passes: by a device id that
is distinctive on both sides, by an address, and by elimination.
-/

namespace Cameo.Detect

variable {gpus : List GpuInfo} {agents : List RocmAgent} {st : Correlation} {gi ai : ℕ}

/-! ## The pairs, without the passes -/

section Pairs

variable (gpus : List GpuInfo) (agents : List RocmAgent)

/-- A card without an architecture and an agent share a device id that no other card and no other
agent has. -/
def DeviceMatch (i j : ℕ) : Prop :=
  ∃ gpu agent id, gpus[i]? = some gpu ∧ agents[j]? = some agent ∧ gpu.gfxArch = none ∧
    pciDeviceId gpu.pciId = some id ∧ agent.chipId = some id ∧
    (∀ i' gpu', gpus[i']? = some gpu' → pciDeviceId gpu'.pciId = some id → i' = i) ∧
    ∀ j' agent', agents[j']? = some agent' → agent'.chipId = some id → j' = j

/-- A card without an architecture that no device id settles. -/
def OpenCard (i : ℕ) (gpu : GpuInfo) : Prop :=
  gpus[i]? = some gpu ∧ gpu.gfxArch = none ∧ ∀ j, ¬ DeviceMatch gpus agents i j

/-- An agent that no device id settles. -/
def FreeAgent (j : ℕ) (agent : RocmAgent) : Prop :=
  agents[j]? = some agent ∧ ∀ i, ¬ DeviceMatch gpus agents i j

/-- The first open card at an address, and the only free agent that reports it. -/
def AddressMatch (i j : ℕ) : Prop :=
  ∃ gpu agent bdf, OpenCard gpus agents i gpu ∧ FreeAgent gpus agents j agent ∧
    gpu.bdf = some bdf ∧ agent.bdf = some bdf ∧
    (∀ j' agent', FreeAgent gpus agents j' agent' → agent'.bdf = some bdf → j' = j) ∧
    ∀ i' gpu', OpenCard gpus agents i' gpu' → gpu'.bdf = some bdf → i ≤ i'

/-- An open card that no address settles. -/
def LeftCard (i : ℕ) : Prop :=
  (∃ gpu, OpenCard gpus agents i gpu) ∧ ∀ j, ¬ AddressMatch gpus agents i j

/-- A free agent that no address settles. -/
def LeftAgent (j : ℕ) : Prop :=
  (∃ agent, FreeAgent gpus agents j agent) ∧ ∀ i, ¬ AddressMatch gpus agents i j

/-- The only card and the only agent left. -/
def LeftOver (i j : ℕ) : Prop :=
  LeftCard gpus agents i ∧ LeftAgent gpus agents j ∧
    (∀ i', LeftCard gpus agents i' → i' = i) ∧ ∀ j', LeftAgent gpus agents j' → j' = j

end Pairs

/-- A distinctive device id is that of one card only. -/
theorem distinctive_eq_some_iff {id : UInt16} :
    (distinctive gpus)[gi]?.join = some id ↔
      ∃ gpu, gpus[gi]? = some gpu ∧ pciDeviceId gpu.pciId = some id ∧
        ∀ i' gpu', gpus[i']? = some gpu' → pciDeviceId gpu'.pciId = some id → i' = gi := by
  rw [distinctive, devIds, List.map_map, List.getElem?_map]
  cases hgpu : gpus[gi]? with
  | none => simp
  | some gpu =>
    rw [Option.map_some, Option.join_some, Function.comp_apply, Option.filter_eq_some_iff]
    have hsole (hid : pciDeviceId gpu.pciId = some id) :
        (gpus.map fun gpu ↦ pciDeviceId gpu.pciId).countP (· = some id) = 1 ↔
          ∀ i' gpu', gpus[i']? = some gpu' → pciDeviceId gpu'.pciId = some id → i' = gi := by
      rw [List.countP_map, Library.countP_eq_one_iff hgpu (decide_eq_true hid)]
      simp only [Function.comp_apply, decide_eq_true_eq]
    constructor
    · rintro ⟨hid, hone⟩
      rw [decide_eq_true_eq, hid] at hone
      exact ⟨gpu, rfl, hid, (hsole hid).mp hone⟩
    · rintro ⟨_, heq, hid, hunique⟩
      obtain rfl := Option.some.inj heq
      refine ⟨hid, ?_⟩
      rw [decide_eq_true_eq, hid]
      exact (hsole hid).mpr hunique

/-- The device id by which a card claims. -/
def chipKey (gpus : List GpuInfo) : ℕ → Option UInt16 :=
  cardKey gpus fun gi _ ↦ (distinctive gpus)[gi]?.join

def addressKey (gpus : List GpuInfo) : ℕ → Option Bdf := cardKey gpus fun _ gpu ↦ gpu.bdf

theorem chipKey_eq_some_iff {id : UInt16} :
    chipKey gpus gi = some id ↔
      ∃ gpu, gpus[gi]? = some gpu ∧ gpu.gfxArch = none ∧ pciDeviceId gpu.pciId = some id ∧
        ∀ i' gpu', gpus[i']? = some gpu' → pciDeviceId gpu'.pciId = some id → i' = gi := by
  rw [chipKey, cardKey_eq_some_iff]
  refine exists_congr fun gpu ↦ and_congr_right fun hgpu ↦ and_congr_right fun _ ↦ ?_
  rw [distinctive_eq_some_iff]
  constructor
  · rintro ⟨gpu', hgpu', h⟩
    obtain rfl := Option.some.inj (hgpu.symm.trans hgpu')
    exact h
  · exact fun h ↦ ⟨gpu, hgpu, h⟩

/-! ### What the run attributes -/

/-- The pairs after pass 1. -/
def chipPairs (gpus : List GpuInfo) (agents : List RocmAgent) : List (ℕ × ℕ) :=
  Library.claimAll (chipKey gpus) (keyAt agents RocmAgent.chipId) agents.length gpus.length []

/-- The pairs after pass 2. -/
def addressPairs (gpus : List GpuInfo) (agents : List RocmAgent) : List (ℕ × ℕ) :=
  Library.claimAll (addressKey gpus) (keyAt agents RocmAgent.bdf) agents.length gpus.length
    (chipPairs gpus agents)

/-- The state after pass 2. -/
def keyed (agents : List RocmAgent) (gpus : List GpuInfo) : Correlation :=
  (Correlation.byChipId agents gpus
    { gpus, taken := List.replicate agents.length false, matched := 0, attributed := [] }).byAddress
    agents

theorem recorded_keyed (gpus : List GpuInfo) (agents : List RocmAgent) :
    Recorded gpus agents (keyed agents gpus) ∧
      (keyed agents gpus).attributed = addressPairs gpus agents := by
  obtain ⟨hfirst, hchip⟩ := (recorded_start gpus agents).pass
    (fun gi _ ↦ (distinctive gpus)[gi]?.join) RocmAgent.chipId gpus.length
  obtain ⟨hsecond, haddress⟩ := hfirst.pass (fun _ gpu ↦ gpu.bdf) RocmAgent.bdf
    gpus.length
  rw [hchip] at haddress
  unfold keyed Correlation.byAddress Correlation.byChipId
  rw [hfirst.length]
  exact ⟨hsecond, haddress⟩

section Pairs

variable {i j : ℕ}

theorem mem_chipPairs_iff : (i, j) ∈ chipPairs gpus agents ↔ DeviceMatch gpus agents i j := by
  rw [chipPairs, Library.mem_claimAll_iff, or_iff_right List.not_mem_nil, Library.claims_iff]
  constructor
  · rintro ⟨-, id, hcard, hagent, -, -, hunique, -⟩
    obtain ⟨gpu, hgpu, hnone, hid, hcards⟩ := chipKey_eq_some_iff.mp hcard
    obtain ⟨agent, hagent, hchip⟩ := keyAt_eq_some_iff.mp hagent
    refine ⟨gpu, agent, id, hgpu, hagent, hnone, hid, hchip, hcards, ?_⟩
    intro j' agent' hagent' hchip'
    exact hunique j' (List.getElem?_eq_some_iff.mp hagent').1 List.not_mem_nil
      (keyAt_eq_some_iff.mpr ⟨agent', hagent', hchip'⟩)
  · rintro ⟨gpu, agent, id, hgpu, hagent, hnone, hid, hchip, hcards, hagents⟩
    have hlt : i < gpus.length := (List.getElem?_eq_some_iff.mp hgpu).1
    have hlt' : j < agents.length := (List.getElem?_eq_some_iff.mp hagent).1
    refine ⟨hlt, id, chipKey_eq_some_iff.mpr ⟨gpu, hgpu, hnone, hid, hcards⟩,
      keyAt_eq_some_iff.mpr ⟨agent, hagent, hchip⟩, List.not_mem_nil, ⟨hlt', List.not_mem_nil⟩,
      ?_, ?_⟩
    · intro j' _ _ hj'
      obtain ⟨agent', hagent', hchip'⟩ := keyAt_eq_some_iff.mp hj'
      exact hagents j' agent' hagent' hchip'
    · intro i' _ hi'
      obtain ⟨gpu', hgpu', -, hid', -⟩ := chipKey_eq_some_iff.mp hi'
      exact (hcards i' gpu' hgpu' hid').ge

theorem not_mem_fst_chipPairs_iff :
    i ∉ (chipPairs gpus agents).map Prod.fst ↔ ∀ j, ¬ DeviceMatch gpus agents i j := by
  rw [Library.mem_lefts_iff, not_exists]
  exact forall_congr' fun j ↦ not_congr mem_chipPairs_iff

theorem not_mem_snd_chipPairs_iff :
    j ∉ (chipPairs gpus agents).map Prod.snd ↔ ∀ i, ¬ DeviceMatch gpus agents i j := by
  rw [Library.mem_rights_iff, not_exists]
  exact forall_congr' fun i ↦ not_congr mem_chipPairs_iff

theorem addressKey_eq_some_iff {bdf : Bdf} :
    addressKey gpus i = some bdf ↔
      ∃ gpu, gpus[i]? = some gpu ∧ gpu.gfxArch = none ∧ gpu.bdf = some bdf :=
  cardKey_eq_some_iff

/-- An open card that goes by an address. -/
theorem open_and_addressKey_iff {bdf : Bdf} :
    i ∉ (chipPairs gpus agents).map Prod.fst ∧ addressKey gpus i = some bdf ↔
      ∃ gpu, OpenCard gpus agents i gpu ∧ gpu.bdf = some bdf := by
  rw [not_mem_fst_chipPairs_iff, addressKey_eq_some_iff]
  constructor
  · rintro ⟨hopen, gpu, hgpu, hnone, hbdf⟩
    exact ⟨gpu, ⟨hgpu, hnone, hopen⟩, hbdf⟩
  · rintro ⟨gpu, ⟨hgpu, hnone, hopen⟩, hbdf⟩
    exact ⟨hopen, gpu, hgpu, hnone, hbdf⟩

/-- A free agent that reports an address. -/
theorem free_and_keyAt_iff {bdf : Bdf} :
    j ∉ (chipPairs gpus agents).map Prod.snd ∧ keyAt agents RocmAgent.bdf j = some bdf ↔
      ∃ agent, FreeAgent gpus agents j agent ∧ agent.bdf = some bdf := by
  rw [not_mem_snd_chipPairs_iff, keyAt_eq_some_iff]
  constructor
  · rintro ⟨hfree, agent, hagent, hbdf⟩
    exact ⟨agent, ⟨hagent, hfree⟩, hbdf⟩
  · rintro ⟨agent, ⟨hagent, hfree⟩, hbdf⟩
    exact ⟨hfree, agent, hagent, hbdf⟩

theorem FreeAgent.lt {agent : RocmAgent} (h : FreeAgent gpus agents j agent) : j < agents.length :=
  (List.getElem?_eq_some_iff.mp h.1).1

theorem OpenCard.lt {gpu : GpuInfo} (h : OpenCard gpus agents i gpu) : i < gpus.length :=
  (List.getElem?_eq_some_iff.mp h.1).1

/-- What pass 2 claims. -/
theorem claims_address_iff :
    Library.Claims (addressKey gpus) (keyAt agents RocmAgent.bdf) agents.length
      (chipPairs gpus agents) i j ↔ AddressMatch gpus agents i j := by
  rw [Library.claims_iff]
  constructor
  · rintro ⟨bdf, hcard, hagent, hopen, ⟨-, hfree⟩, hunique, hfirst⟩
    obtain ⟨gpu, hgpu, hgpuBdf⟩ := open_and_addressKey_iff.mp ⟨hopen, hcard⟩
    obtain ⟨agent, hagent, hagentBdf⟩ := free_and_keyAt_iff.mp ⟨hfree, hagent⟩
    refine ⟨gpu, agent, bdf, hgpu, hagent, hgpuBdf, hagentBdf, ?_, ?_⟩
    · intro j' agent' hagent' hbdf'
      obtain ⟨hfree', hkey'⟩ := free_and_keyAt_iff.mpr ⟨agent', hagent', hbdf'⟩
      exact hunique j' hagent'.lt hfree' hkey'
    · intro i' gpu' hgpu' hbdf'
      obtain ⟨hopen', hkey'⟩ := open_and_addressKey_iff.mpr ⟨gpu', hgpu', hbdf'⟩
      exact hfirst i' hopen' hkey'
  · rintro ⟨gpu, agent, bdf, hgpu, hagent, hgpuBdf, hagentBdf, hunique, hfirst⟩
    obtain ⟨hopen, hcard⟩ := open_and_addressKey_iff.mpr ⟨gpu, hgpu, hgpuBdf⟩
    obtain ⟨hfree, hkey⟩ := free_and_keyAt_iff.mpr ⟨agent, hagent, hagentBdf⟩
    refine ⟨bdf, hcard, hkey, hopen, ⟨hagent.lt, hfree⟩, ?_, ?_⟩
    · intro j' _ hfree' hkey'
      obtain ⟨agent', hagent', hbdf'⟩ := free_and_keyAt_iff.mp ⟨hfree', hkey'⟩
      exact hunique j' agent' hagent' hbdf'
    · intro i' hopen' hkey'
      obtain ⟨gpu', hgpu', hbdf'⟩ := open_and_addressKey_iff.mp ⟨hopen', hkey'⟩
      exact hfirst i' gpu' hgpu' hbdf'

theorem mem_addressPairs_iff : (i, j) ∈ addressPairs gpus agents ↔
    DeviceMatch gpus agents i j ∨ AddressMatch gpus agents i j := by
  rw [addressPairs, Library.mem_claimAll_iff, mem_chipPairs_iff, claims_address_iff]
  refine or_congr_right (and_iff_right_of_imp ?_)
  rintro ⟨gpu, agent, bdf, hgpu, -⟩
  exact hgpu.lt

/-- The cards left are those without an architecture that are in no pair. -/
theorem leftCard_iff : LeftCard gpus agents i ↔
    (∃ gpu, gpus[i]? = some gpu ∧ gpu.gfxArch = none) ∧
      i ∉ (addressPairs gpus agents).map Prod.fst := by
  have hmem : i ∈ (addressPairs gpus agents).map Prod.fst ↔
      ∃ j, DeviceMatch gpus agents i j ∨ AddressMatch gpus agents i j :=
    Library.mem_lefts_iff.trans (exists_congr fun j ↦ mem_addressPairs_iff)
  rw [hmem, LeftCard]
  constructor
  · rintro ⟨⟨gpu, hgpu, hnone, hopen⟩, hleft⟩
    exact ⟨⟨gpu, hgpu, hnone⟩, fun ⟨j, hj⟩ ↦ hj.elim (hopen j) (hleft j)⟩
  · rintro ⟨⟨gpu, hgpu, hnone⟩, hleft⟩
    exact ⟨⟨gpu, hgpu, hnone, fun j hj ↦ hleft ⟨j, .inl hj⟩⟩, fun j hj ↦ hleft ⟨j, .inr hj⟩⟩

/-- The agents left are those in no pair. -/
theorem leftAgent_iff : LeftAgent gpus agents j ↔
    j < agents.length ∧ j ∉ (addressPairs gpus agents).map Prod.snd := by
  have hmem : j ∈ (addressPairs gpus agents).map Prod.snd ↔
      ∃ i, DeviceMatch gpus agents i j ∨ AddressMatch gpus agents i j :=
    Library.mem_rights_iff.trans (exists_congr fun i ↦ mem_addressPairs_iff)
  rw [hmem, LeftAgent]
  constructor
  · rintro ⟨⟨agent, hagent⟩, hleft⟩
    exact ⟨hagent.lt, fun ⟨i, hi⟩ ↦ hi.elim (hagent.2 i) (hleft i)⟩
  · rintro ⟨hlt, hleft⟩
    exact ⟨⟨agents[j], List.getElem?_eq_getElem hlt, fun i hi ↦ hleft ⟨i, .inl hi⟩⟩,
      fun i hi ↦ hleft ⟨i, .inr hi⟩⟩

theorem mem_freeGpus_iff (h : Recorded gpus agents st) : i ∈ freeGpus st ↔
    (∃ gpu, gpus[i]? = some gpu ∧ gpu.gfxArch = none) ∧ i ∉ st.attributed.map Prod.fst := by
  rw [freeGpus, List.mem_filter, List.mem_range, Option.any_eq_true]
  constructor
  · rintro ⟨-, gpu, hgpu, hnone⟩
    have hleft : i ∉ st.attributed.map Prod.fst := by
      intro hmem
      obtain ⟨⟨i, j⟩, hpair, rfl⟩ := List.mem_map.mp hmem
      obtain ⟨gpu', agent, -, -, -, hst⟩ := h.given hpair
      obtain rfl := Option.some.inj (hgpu.symm.trans hst)
      exact absurd hnone nofun
    exact ⟨⟨gpu, (h.kept i hleft).symm.trans hgpu, Option.isNone_iff_eq_none.mp hnone⟩, hleft⟩
  · rintro ⟨⟨gpu, hgpu, hnone⟩, hleft⟩
    have hst : st.gpus[i]? = some gpu := (h.kept i hleft).trans hgpu
    exact ⟨(List.getElem?_eq_some_iff.mp hst).1, gpu, hst, Option.isNone_iff_eq_none.mpr hnone⟩

theorem mem_freeAgents_iff (h : Recorded gpus agents st) : j ∈ freeAgents agents st ↔
    j < agents.length ∧ j ∉ st.attributed.map Prod.snd := by
  rw [freeAgents, List.mem_filter, List.mem_range, decide_eq_true_eq, h.taken]
  exact and_iff_right_of_imp And.left

/-- What pass 3 does. -/
theorem byElimination_cases (agents : List RocmAgent) (st : Correlation) :
    (∃ gi ai, freeGpus st = [gi] ∧ freeAgents agents st = [ai] ∧
      st.byElimination agents = st.attribute agents gi ai) ∨
    ((∀ gi ai, ¬ (freeGpus st = [gi] ∧ freeAgents agents st = [ai])) ∧
      st.byElimination agents = st) := by
  unfold Correlation.byElimination
  split
  · rename_i gi ai hgpus hagents
    exact .inl ⟨gi, ai, hgpus, hagents, rfl⟩
  · rename_i hnone
    exact .inr ⟨fun gi ai h ↦ hnone gi ai h.1 h.2, rfl⟩

theorem correlation_eq (agents : List RocmAgent) (gpus : List GpuInfo) :
    correlation agents gpus = (keyed agents gpus).byElimination agents := rfl

/-- The free cards of pass 3 are those left. -/
theorem mem_freeGpus_keyed_iff : i ∈ freeGpus (keyed agents gpus) ↔ LeftCard gpus agents i := by
  obtain ⟨hrecorded, hattributed⟩ := recorded_keyed gpus agents
  rw [mem_freeGpus_iff hrecorded, hattributed, leftCard_iff]

/-- The free agents of pass 3 are those left. -/
theorem mem_freeAgents_keyed_iff :
    j ∈ freeAgents agents (keyed agents gpus) ↔ LeftAgent gpus agents j := by
  obtain ⟨hrecorded, hattributed⟩ := recorded_keyed gpus agents
  rw [mem_freeAgents_iff hrecorded, hattributed, leftAgent_iff]

/-- The only card and the only agent that pass 3 finds are those left. -/
theorem leftOver_iff : LeftOver gpus agents i j ↔
    freeGpus (keyed agents gpus) = [i] ∧ freeAgents agents (keyed agents gpus) = [j] := by
  have hgpus : (freeGpus (keyed agents gpus)).Nodup := List.nodup_range.filter _
  have hagents : (freeAgents agents (keyed agents gpus)).Nodup := List.nodup_range.filter _
  rw [Library.eq_singleton_iff_of_nodup hgpus, Library.eq_singleton_iff_of_nodup hagents]
  simp only [mem_freeGpus_keyed_iff, mem_freeAgents_keyed_iff, LeftOver]
  tauto

/-- The variables agree with the record at the end, and the pairs are those of the three kinds. -/
theorem recorded_correlation (gpus : List GpuInfo) (agents : List RocmAgent) :
    Recorded gpus agents (correlation agents gpus) := by
  obtain ⟨hrecorded, -⟩ := recorded_keyed gpus agents
  rw [correlation_eq]
  obtain ⟨gi, ai, hgpu, hagent, heq⟩ | ⟨-, heq⟩ := byElimination_cases agents (keyed agents gpus)
  · rw [heq]
    obtain ⟨⟨gpu, hgpu, hnone⟩, hopen⟩ :=
      (mem_freeGpus_iff hrecorded).mp (hgpu ▸ List.mem_singleton_self gi)
    obtain ⟨hlt, hfree⟩ :=
      (mem_freeAgents_iff hrecorded).mp (hagent ▸ List.mem_singleton_self ai)
    exact hrecorded.attribute hgpu hnone hopen hlt hfree
  · rw [heq]
    exact hrecorded

theorem mem_attributed_iff : (i, j) ∈ (correlation agents gpus).attributed ↔
    DeviceMatch gpus agents i j ∨ AddressMatch gpus agents i j ∨ LeftOver gpus agents i j := by
  obtain ⟨-, hattributed⟩ := recorded_keyed gpus agents
  rw [← or_assoc, ← mem_addressPairs_iff, ← hattributed, leftOver_iff, correlation_eq]
  obtain ⟨gi, ai, hgpu, hagent, heq⟩ | ⟨hnone, heq⟩ :=
    byElimination_cases agents (keyed agents gpus)
  · rw [heq, attribute_attributed, List.mem_append, List.mem_singleton, hgpu, hagent,
      List.singleton_inj, List.singleton_inj, Prod.mk.injEq, eq_comm, @eq_comm _ j]
  · rw [heq]
    exact (or_iff_left (hnone i j)).symm

end Pairs

end Cameo.Detect
