import Cameo.Detect.Attribution

/-!
# Attribution and the order of the lists

The cards and the agents are listed in orders of their own.  What a device id settles and what is
left over do not depend on them; an address that two cards share goes to the card listed first.
The order does not matter exactly where elimination then gives the other card the same
architecture.
-/

namespace Cameo.Detect

/-! ## The attribution, by values -/

section Values

variable (gpus : List GpuInfo) (agents : List RocmAgent)

def chipAgent (gpu : GpuInfo) : Option RocmAgent :=
  if gpu.gfxArch.isSome then none
  else
    (pciDeviceId gpu.pciId).bind fun id ↦
      if gpus.countP (fun other ↦ pciDeviceId other.pciId = some id) = 1 then
        Library.sole agents fun agent ↦ agent.chipId = some id
      else none

/-- A card without an architecture that no device id settles. -/
def isOpen (gpu : GpuInfo) : Bool := gpu.gfxArch.isNone && (chipAgent gpus agents gpu).isNone

/-- An agent that no device id settles. -/
def isFree (agent : RocmAgent) : Bool := gpus.all fun gpu ↦ chipAgent gpus agents gpu ≠ some agent

/-- The agent that an address names: the only free one that reports it. -/
def namedAgent (gpu : GpuInfo) : Option RocmAgent :=
  gpu.bdf.bind fun bdf ↦
    Library.sole agents fun agent ↦ isFree gpus agents agent && decide (agent.bdf = some bdf)

def isNamed (agent : RocmAgent) : Bool :=
  gpus.any fun gpu ↦ isOpen gpus agents gpu && decide (namedAgent gpus agents gpu = some agent)

/-- The architecture that elimination gives: there is one open card more than agents named, and one
free agent that is not named. -/
def leftArch : Option String :=
  if gpus.countP (isOpen gpus agents) =
      agents.countP (fun agent ↦ isFree gpus agents agent && isNamed gpus agents agent) + 1 then
    (Library.sole agents fun agent ↦ isFree gpus agents agent && !isNamed gpus agents agent).map
      RocmAgent.gfx
  else none

/-- The architecture of a card, if its address is its own or elimination gives the same. -/
def archOf (gpu : GpuInfo) : Option String :=
  gpu.gfxArch.or <| ((chipAgent gpus agents gpu).map RocmAgent.gfx).or <|
    ((namedAgent gpus agents gpu).map RocmAgent.gfx).or (leftArch gpus agents)

/-- How many open cards an agent is named by. -/
def contenders (agent : RocmAgent) : ℕ :=
  gpus.countP fun gpu ↦ isOpen gpus agents gpu && decide (namedAgent gpus agents gpu = some agent)

/-- Where an agent is named by two open cards, elimination gives its architecture as well. -/
def ContendersAlike : Prop :=
  ∀ agent, 2 ≤ contenders gpus agents agent → leftArch gpus agents = some agent.gfx

/-- The lists in another order give every card the same architecture, and as many of them. -/
def OrderFree : Prop :=
  ∀ gpus' agents', gpus'.Perm gpus → agents'.Perm agents →
    (gpus'.zip (correlateRocmAgents agents' gpus').1).Perm
        (gpus.zip (correlateRocmAgents agents gpus).1) ∧
      (correlateRocmAgents agents' gpus').2 = (correlateRocmAgents agents gpus).2

end Values

/-! ## The values do not depend on the order -/

section Order

variable {gpus gpus' : List GpuInfo} {agents agents' : List RocmAgent}

theorem chipAgent_perm (hgpus : gpus'.Perm gpus) (hagents : agents'.Perm agents) :
    chipAgent gpus' agents' = chipAgent gpus agents := by
  funext gpu
  unfold chipAgent
  simp only [hgpus.countP_eq, Library.sole_perm hagents]

theorem isOpen_perm (hgpus : gpus'.Perm gpus) (hagents : agents'.Perm agents) :
    isOpen gpus' agents' = isOpen gpus agents := by
  unfold isOpen
  rw [chipAgent_perm hgpus hagents]

theorem isFree_perm (hgpus : gpus'.Perm gpus) (hagents : agents'.Perm agents) :
    isFree gpus' agents' = isFree gpus agents := by
  funext agent
  unfold isFree
  rw [chipAgent_perm hgpus hagents, hgpus.all_eq]

theorem namedAgent_perm (hgpus : gpus'.Perm gpus) (hagents : agents'.Perm agents) :
    namedAgent gpus' agents' = namedAgent gpus agents := by
  funext gpu
  unfold namedAgent
  simp only [isFree_perm hgpus hagents, Library.sole_perm hagents]

theorem isNamed_perm (hgpus : gpus'.Perm gpus) (hagents : agents'.Perm agents) :
    isNamed gpus' agents' = isNamed gpus agents := by
  funext agent
  unfold isNamed
  rw [isOpen_perm hgpus hagents, namedAgent_perm hgpus hagents, hgpus.any_eq]

theorem leftArch_perm (hgpus : gpus'.Perm gpus) (hagents : agents'.Perm agents) :
    leftArch gpus' agents' = leftArch gpus agents := by
  unfold leftArch
  simp only [isOpen_perm hgpus hagents, isFree_perm hgpus hagents, isNamed_perm hgpus hagents,
    hgpus.countP_eq, hagents.countP_eq, Library.sole_perm hagents]

theorem archOf_perm (hgpus : gpus'.Perm gpus) (hagents : agents'.Perm agents) :
    archOf gpus' agents' = archOf gpus agents := by
  unfold archOf
  rw [chipAgent_perm hgpus hagents, namedAgent_perm hgpus hagents, leftArch_perm hgpus hagents]

theorem ContendersAlike.perm (h : ContendersAlike gpus agents) (hgpus : gpus'.Perm gpus)
    (hagents : agents'.Perm agents) : ContendersAlike gpus' agents' := by
  unfold ContendersAlike contenders
  rw [isOpen_perm hgpus hagents, namedAgent_perm hgpus hagents, leftArch_perm hgpus hagents]
  intro agent hcontenders
  rw [hgpus.countP_eq] at hcontenders
  exact h agent hcontenders

end Order

/-! ## Positions and values -/

section Positions

variable {gpus : List GpuInfo} {agents : List RocmAgent} {gpu : GpuInfo} {agent : RocmAgent}
  {i j : ℕ}

theorem mem_of_chipAgent (h : chipAgent gpus agents gpu = some agent) : agent ∈ agents := by
  unfold chipAgent at h
  split at h
  · exact absurd h nofun
  · obtain ⟨id, -, hsole⟩ := Option.bind_eq_some_iff.mp h
    split at hsole
    · exact (Library.of_filter_eq_singleton (Library.sole_eq_some_iff.mp hsole)).1
    · exact absurd hsole nofun

/-- What a device id settles. -/
theorem deviceMatch_iff (hgpu : gpus[i]? = some gpu) (hagent : agents[j]? = some agent) :
    DeviceMatch gpus agents i j ↔ chipAgent gpus agents gpu = some agent := by
  unfold chipAgent
  constructor
  · rintro ⟨gpu', agent', id, hgpu', hagent', hnone, hid, hchip, hcards, hagents⟩
    obtain rfl := Option.some.inj (hgpu.symm.trans hgpu')
    obtain rfl := Option.some.inj (hagent.symm.trans hagent')
    rw [if_neg (by rw [hnone]; exact Bool.false_ne_true), hid, Option.bind_some, if_pos]
    · refine Library.sole_eq_some_iff.mpr
        ((Library.filter_eq_singleton_iff hagent (decide_eq_true hchip)).mpr ?_)
      exact fun j' agent' hagent' hchip' ↦ hagents j' agent' hagent' (of_decide_eq_true hchip')
    · refine (Library.countP_eq_one_iff hgpu (decide_eq_true hid)).mpr ?_
      exact fun i' gpu' hgpu' hid' ↦ hcards i' gpu' hgpu' (of_decide_eq_true hid')
  · intro h
    split at h
    · exact absurd h nofun
    · rename_i hset
      obtain ⟨id, hid, hsole⟩ := Option.bind_eq_some_iff.mp h
      split at hsole
      · rename_i hcount
        have hfilter := Library.sole_eq_some_iff.mp hsole
        have hchip := (Library.of_filter_eq_singleton hfilter).2
        refine ⟨gpu, agent, id, hgpu, hagent, Option.not_isSome_iff_eq_none.mp hset, hid,
          of_decide_eq_true hchip, ?_, ?_⟩
        · intro i' gpu' hgpu' hid'
          exact (Library.countP_eq_one_iff hgpu (decide_eq_true hid)).mp hcount i' gpu' hgpu'
            (decide_eq_true hid')
        · intro j' agent' hagent' hchip'
          exact (Library.filter_eq_singleton_iff hagent hchip).mp hfilter j' agent' hagent'
            (decide_eq_true hchip')
      · exact absurd hsole nofun

theorem openCard_iff : OpenCard gpus agents i gpu ↔
    gpus[i]? = some gpu ∧ isOpen gpus agents gpu = true := by
  refine and_congr_right fun hgpu ↦ ?_
  rw [isOpen, Bool.and_eq_true, Option.isNone_iff_eq_none, Option.isNone_iff_eq_none]
  refine and_congr_right fun _ ↦ ?_
  rw [Option.eq_none_iff_forall_ne_some]
  constructor
  · intro h agent hchip
    obtain ⟨j, hj⟩ := List.mem_iff_getElem?.mp (mem_of_chipAgent hchip)
    exact h j ((deviceMatch_iff hgpu hj).mpr hchip)
  · rintro h j hmatch
    obtain ⟨-, agent, -, -, hagent, -⟩ := id hmatch
    exact h agent ((deviceMatch_iff hgpu hagent).mp hmatch)

theorem freeAgent_iff : FreeAgent gpus agents j agent ↔
    agents[j]? = some agent ∧ isFree gpus agents agent = true := by
  refine and_congr_right fun hagent ↦ ?_
  rw [isFree, List.all_eq_true]
  constructor
  · intro h gpu hmem
    obtain ⟨i, hi⟩ := List.mem_iff_getElem?.mp hmem
    exact decide_eq_true fun hchip ↦ h i ((deviceMatch_iff hi hagent).mpr hchip)
  · rintro h i hmatch
    obtain ⟨gpu, -, -, hgpu, -⟩ := id hmatch
    have := h gpu (List.mem_of_getElem? hgpu)
    exact of_decide_eq_true this ((deviceMatch_iff hgpu hagent).mp hmatch)

/-- What an address names. -/
theorem namedAgent_eq_some_iff (hagent : agents[j]? = some agent) :
    namedAgent gpus agents gpu = some agent ↔
      ∃ bdf, gpu.bdf = some bdf ∧ FreeAgent gpus agents j agent ∧ agent.bdf = some bdf ∧
        ∀ j' agent', FreeAgent gpus agents j' agent' → agent'.bdf = some bdf → j' = j := by
  rw [namedAgent, Option.bind_eq_some_iff]
  refine exists_congr fun bdf ↦ and_congr_right fun _ ↦ ?_
  rw [Library.sole_eq_some_iff]
  constructor
  · intro hfilter
    have hboth := (Library.of_filter_eq_singleton hfilter).2
    obtain ⟨hfree, hbdf⟩ := Bool.and_eq_true_iff.mp hboth
    refine ⟨freeAgent_iff.mpr ⟨hagent, hfree⟩, of_decide_eq_true hbdf, ?_⟩
    intro j' agent' hfree' hbdf'
    obtain ⟨hagent', hfree'⟩ := freeAgent_iff.mp hfree'
    exact (Library.filter_eq_singleton_iff hagent hboth).mp hfilter j' agent' hagent'
      (Bool.and_eq_true_iff.mpr ⟨hfree', decide_eq_true hbdf'⟩)
  · rintro ⟨hfree, hbdf, hunique⟩
    refine (Library.filter_eq_singleton_iff hagent (Bool.and_eq_true_iff.mpr
      ⟨(freeAgent_iff.mp hfree).2, decide_eq_true hbdf⟩)).mpr ?_
    intro j' agent' hagent' hboth
    obtain ⟨hfree', hbdf'⟩ := Bool.and_eq_true_iff.mp hboth
    exact hunique j' agent' (freeAgent_iff.mpr ⟨hagent', hfree'⟩) (of_decide_eq_true hbdf')

theorem mem_of_namedAgent (h : namedAgent gpus agents gpu = some agent) : agent ∈ agents := by
  obtain ⟨bdf, -, hsole⟩ := Option.bind_eq_some_iff.mp h
  exact (Library.of_filter_eq_singleton (Library.sole_eq_some_iff.mp hsole)).1

theorem AddressMatch.isOpen_and_named (h : AddressMatch gpus agents i j)
    (hgpu : gpus[i]? = some gpu) (hagent : agents[j]? = some agent) :
    isOpen gpus agents gpu = true ∧ namedAgent gpus agents gpu = some agent := by
  obtain ⟨gpu', agent', bdf, hopen, hfree, hbdf, hbdf', hunique, -⟩ := h
  obtain rfl := Option.some.inj (hgpu.symm.trans hopen.1)
  obtain rfl := Option.some.inj (hagent.symm.trans hfree.1)
  exact ⟨(openCard_iff.mp hopen).2,
    (namedAgent_eq_some_iff hagent).mpr ⟨bdf, hbdf, hfree, hbdf', hunique⟩⟩

/-- An agent that is named goes to the first open card that names it. -/
theorem exists_addressMatch (hopen : OpenCard gpus agents i gpu) (hagent : agents[j]? = some agent)
    (hnamed : namedAgent gpus agents gpu = some agent) :
    ∃ i₀ ≤ i, AddressMatch gpus agents i₀ j := by
  classical
  obtain ⟨bdf, hbdf, hfree, hbdf', hunique⟩ := (namedAgent_eq_some_iff hagent).mp hnamed
  have hex : ∃ i₀ gpu₀, OpenCard gpus agents i₀ gpu₀ ∧ gpu₀.bdf = some bdf := ⟨i, gpu, hopen, hbdf⟩
  obtain ⟨gpu₀, hopen₀, hbdf₀⟩ := Nat.find_spec hex
  have hfirst : ∀ i' gpu', OpenCard gpus agents i' gpu' → gpu'.bdf = some bdf →
      Nat.find hex ≤ i' :=
    fun i' gpu' hopen' hbdf' ↦ Nat.find_min' hex ⟨gpu', hopen', hbdf'⟩
  exact ⟨Nat.find hex, hfirst i gpu hopen hbdf, gpu₀, agent, bdf, hopen₀, hfree, hbdf₀, hbdf',
    hunique, hfirst⟩

theorem isNamed_iff (hagent : agents[j]? = some agent) :
    isNamed gpus agents agent = true ↔ ∃ i, AddressMatch gpus agents i j := by
  rw [isNamed, List.any_eq_true]
  constructor
  · rintro ⟨gpu, hmem, hboth⟩
    obtain ⟨hopen, hnamed⟩ := Bool.and_eq_true_iff.mp hboth
    obtain ⟨i, hi⟩ := List.mem_iff_getElem?.mp hmem
    obtain ⟨i₀, -, hmatch⟩ :=
      exists_addressMatch (openCard_iff.mpr ⟨hi, hopen⟩) hagent (of_decide_eq_true hnamed)
    exact ⟨i₀, hmatch⟩
  · rintro ⟨i, hmatch⟩
    obtain ⟨gpu, -, -, hopen, -⟩ := id hmatch
    obtain ⟨hopen', hnamed⟩ := hmatch.isOpen_and_named hopen.1 hagent
    exact ⟨gpu, List.mem_of_getElem? hopen.1,
      Bool.and_eq_true_iff.mpr ⟨hopen', decide_eq_true hnamed⟩⟩

theorem leftAgent_iff_not_named (hagent : agents[j]? = some agent) : LeftAgent gpus agents j ↔
    (isFree gpus agents agent && !isNamed gpus agents agent) = true := by
  rw [Bool.and_eq_true, Bool.not_eq_true', ← Bool.not_eq_true, isNamed_iff hagent, LeftAgent,
    not_exists]
  refine and_congr_left fun _ ↦ ⟨?_, fun hfree ↦ ⟨agent, freeAgent_iff.mpr ⟨hagent, hfree⟩⟩⟩
  rintro ⟨agent', hfree⟩
  obtain rfl := Option.some.inj (hagent.symm.trans hfree.1)
  exact (freeAgent_iff.mp hfree).2

end Positions

/-! ## Counting what is left -/

section Left

variable {gpus : List GpuInfo} {agents : List RocmAgent} {gpu : GpuInfo} {agent : RocmAgent}
  {i j : ℕ}

/-- The pairs that pass 2 adds. -/
theorem exists_addressed (gpus : List GpuInfo) (agents : List RocmAgent) :
    ∃ new, Library.Paired new ∧ ∀ {i j}, (i, j) ∈ new ↔ AddressMatch gpus agents i j := by
  obtain ⟨new, hnew⟩ := Library.exists_claimAll_eq (addressKey gpus) (keyAt agents RocmAgent.bdf)
    agents.length gpus.length (chipPairs gpus agents)
  have hpaired : Library.Paired (chipPairs gpus agents ++ new) := by
    rw [← hnew]
    exact (Library.Paired.nil.claimAll gpus.length).claimAll gpus.length
  have hmem : ∀ {i j}, (i, j) ∈ chipPairs gpus agents ++ new ↔
      DeviceMatch gpus agents i j ∨ AddressMatch gpus agents i j := by
    intro i j
    rw [← hnew]
    exact mem_addressPairs_iff
  obtain ⟨hleft, hright⟩ := hpaired
  rw [List.map_append] at hleft hright
  refine ⟨new, ⟨(List.nodup_append.mp hleft).2.1, (List.nodup_append.mp hright).2.1⟩, ?_⟩
  intro i j
  constructor
  · intro h
    refine (hmem.mp (List.mem_append_right _ h)).resolve_left fun hmatch ↦ ?_
    exact (List.nodup_append.mp hleft).2.2 i (List.mem_map_of_mem (mem_chipPairs_iff.mpr hmatch)) i
      (List.mem_map_of_mem h) rfl
  · intro h
    obtain ⟨gpu, -, -, hopen, -⟩ := id h
    refine (List.mem_append.mp (hmem.mpr (.inr h))).resolve_left fun hchip ↦ ?_
    exact hopen.2.2 j (mem_chipPairs_iff.mp hchip)

/-- As many open cards are settled by an address as agents are named by one. -/
theorem countP_isOpen (gpus : List GpuInfo) (agents : List RocmAgent) :
    gpus.countP (isOpen gpus agents) =
      agents.countP (fun agent ↦ isFree gpus agents agent && isNamed gpus agents agent) +
        (freeGpus (keyed agents gpus)).length := by
  obtain ⟨new, hpaired, hnew⟩ := exists_addressed gpus agents
  have hcards : (Library.positions gpus (isOpen gpus agents)).Perm
      (new.map Prod.fst ++ freeGpus (keyed agents gpus)) := by
    have hnodup : (new.map Prod.fst ++ freeGpus (keyed agents gpus)).Nodup := by
      refine List.nodup_append.mpr ⟨hpaired.left, List.nodup_range.filter _, ?_⟩
      rintro i hi _ hleft rfl
      obtain ⟨⟨i, j⟩, hpair, rfl⟩ := List.mem_map.mp hi
      exact (mem_freeGpus_keyed_iff.mp hleft).2 j (hnew.mp hpair)
    refine (List.perm_ext_iff_of_nodup (Library.nodup_positions _ _) hnodup).mpr fun i ↦ ?_
    rw [Library.mem_positions, List.mem_append, mem_freeGpus_keyed_iff, LeftCard]
    simp only [← openCard_iff]
    have hmem : i ∈ new.map Prod.fst ↔ ∃ j, AddressMatch gpus agents i j :=
      Library.mem_lefts_iff.trans (exists_congr fun j ↦ hnew)
    rw [hmem]
    constructor
    · intro hopen
      by_cases hex : ∃ j, AddressMatch gpus agents i j
      · exact .inl hex
      · exact .inr ⟨hopen, not_exists.mp hex⟩
    · rintro (⟨j, gpu, -, -, hopen, -⟩ | ⟨hopen, -⟩)
      · exact ⟨gpu, hopen⟩
      · exact hopen
  have hagents : (Library.positions agents fun agent ↦
      isFree gpus agents agent && isNamed gpus agents agent).Perm (new.map Prod.snd) := by
    refine (List.perm_ext_iff_of_nodup (Library.nodup_positions _ _) hpaired.right).mpr fun j ↦ ?_
    have hmem : j ∈ new.map Prod.snd ↔ ∃ i, AddressMatch gpus agents i j :=
      Library.mem_rights_iff.trans (exists_congr fun i ↦ hnew)
    rw [Library.mem_positions, hmem]
    constructor
    · rintro ⟨agent, hagent, hboth⟩
      exact (isNamed_iff hagent).mp (Bool.and_eq_true_iff.mp hboth).2
    · rintro ⟨i, hmatch⟩
      obtain ⟨-, agent, -, -, hfree, -⟩ := id hmatch
      exact ⟨agent, hfree.1, Bool.and_eq_true_iff.mpr
        ⟨(freeAgent_iff.mp hfree).2, (isNamed_iff hfree.1).mpr ⟨i, hmatch⟩⟩⟩
  rw [List.countP_eq_length_filter, ← Library.length_positions, hcards.length_eq,
    List.length_append, List.countP_eq_length_filter, ← Library.length_positions,
    hagents.length_eq, List.length_map, List.length_map]

/-- What elimination gives a card that is left. -/
theorem leftArch_eq_some_iff (hleft : LeftCard gpus agents i) {arch : String} :
    leftArch gpus agents = some arch ↔
      ∃ j agent, LeftOver gpus agents i j ∧ agents[j]? = some agent ∧ agent.gfx = arch := by
  have hnodup : (freeGpus (keyed agents gpus)).Nodup := List.nodup_range.filter _
  have hone : gpus.countP (isOpen gpus agents) =
      agents.countP (fun agent ↦ isFree gpus agents agent && isNamed gpus agents agent) + 1 ↔
      ∀ i', LeftCard gpus agents i' → i' = i := by
    rw [countP_isOpen, Nat.add_left_cancel_iff, List.length_eq_one_iff]
    constructor
    · rintro ⟨i₀, hi₀⟩ i' hi'
      have hsole : ∀ i', LeftCard gpus agents i' → i' = i₀ := fun i' h ↦
        List.mem_singleton.mp (hi₀ ▸ mem_freeGpus_keyed_iff.mpr h)
      exact (hsole i' hi').trans (hsole i hleft).symm
    · intro hsole
      exact ⟨i, (Library.eq_singleton_iff_of_nodup hnodup).mpr ⟨mem_freeGpus_keyed_iff.mpr hleft,
        fun i' hi' ↦ hsole i' (mem_freeGpus_keyed_iff.mp hi')⟩⟩
  unfold leftArch
  constructor
  · intro h
    split at h
    · rename_i hcount
      obtain ⟨agent, hsole, rfl⟩ := Option.map_eq_some_iff.mp h
      have hfilter := Library.sole_eq_some_iff.mp hsole
      obtain ⟨hmem, hboth⟩ := Library.of_filter_eq_singleton hfilter
      obtain ⟨j, hj⟩ := List.mem_iff_getElem?.mp hmem
      have hagent := (leftAgent_iff_not_named hj).mpr hboth
      refine ⟨j, agent, ⟨hleft, hagent, hone.mp hcount, ?_⟩, hj, rfl⟩
      intro j' hj'
      obtain ⟨agent', hagent'⟩ := hj'.1
      exact (Library.filter_eq_singleton_iff hj hboth).mp hfilter j' agent' hagent'.1
        ((leftAgent_iff_not_named hagent'.1).mp hj')
    · exact absurd h nofun
  · rintro ⟨j, agent, ⟨-, hagent, hcards, hagents⟩, hj, rfl⟩
    rw [if_pos (hone.mpr hcards), Option.map_eq_some_iff]
    refine ⟨agent, Library.sole_eq_some_iff.mpr ?_, rfl⟩
    refine (Library.filter_eq_singleton_iff hj ((leftAgent_iff_not_named hj).mp hagent)).mpr ?_
    exact fun j' agent' hj' hboth ↦ hagents j' ((leftAgent_iff_not_named hj').mpr hboth)

end Left

/-! ## What each card is given -/

section Given

variable {gpus : List GpuInfo} {agents : List RocmAgent} {gpu : GpuInfo} {agent : RocmAgent}
  {i j : ℕ}

def GpuInfo.setArch (gpu : GpuInfo) (arch : Option String) : GpuInfo := { gpu with gfxArch := arch }

theorem given_of_pair (h : (i, j) ∈ (correlation agents gpus).attributed)
    (hgpu : gpus[i]? = some gpu) (hagent : agents[j]? = some agent) :
    (correlateRocmAgents agents gpus).1[i]? = some (gpu.setArch (some agent.gfx)) := by
  obtain ⟨gpu', agent', hgpu', -, hagent', hst⟩ := (recorded_correlation gpus agents).given h
  obtain rfl := Option.some.inj (hgpu.symm.trans hgpu')
  obtain rfl := Option.some.inj (hagent.symm.trans hagent')
  exact hst

/-- A card that is left is given what elimination gives. -/
theorem given_of_left (hleft : LeftCard gpus agents i) (hgpu : gpus[i]? = some gpu) :
    (correlateRocmAgents agents gpus).1[i]? = some (gpu.setArch (leftArch gpus agents)) := by
  obtain ⟨gpu', hgpu', hnone, hopen⟩ := hleft.1
  obtain rfl := Option.some.inj (hgpu.symm.trans hgpu')
  cases harch : leftArch gpus agents with
  | some arch =>
    obtain ⟨j, agent, hover, hagent, rfl⟩ := (leftArch_eq_some_iff hleft).mp harch
    exact given_of_pair (mem_attributed_iff.mpr (.inr (.inr hover))) hgpu hagent
  | none =>
    have hkept := (recorded_correlation gpus agents).kept i fun hmem ↦ by
      obtain ⟨⟨i, j⟩, hpair, rfl⟩ := List.mem_map.mp hmem
      obtain hmatch | hmatch | hover := mem_attributed_iff.mp hpair
      · exact hopen j hmatch
      · exact hleft.2 j hmatch
      · obtain ⟨agent, hagent⟩ := hover.2.1.1
        have := (leftArch_eq_some_iff hleft).mpr ⟨j, agent, hover, hagent.1, rfl⟩
        exact absurd (harch.symm.trans this) nofun
    rw [GpuInfo.setArch, ← hnone]
    exact hkept.trans hgpu

/-- The first open card whose address names an agent is given its architecture. -/
theorem given_of_address (hmatch : AddressMatch gpus agents i j) (hgpu : gpus[i]? = some gpu)
    (hagent : agents[j]? = some agent) :
    (correlateRocmAgents agents gpus).1[i]? = some (gpu.setArch (some agent.gfx)) :=
  given_of_pair (mem_attributed_iff.mpr (.inr (.inl hmatch))) hgpu hagent

/-- A card named with another card first is left. -/
theorem leftCard_of_named (hopen : OpenCard gpus agents i gpu) (hagent : agents[j]? = some agent)
    (hnamed : namedAgent gpus agents gpu = some agent) {i₀ : ℕ}
    (hmatch : AddressMatch gpus agents i₀ j) (hne : i ≠ i₀) : LeftCard gpus agents i := by
  refine ⟨⟨gpu, hopen⟩, fun j' hmatch' ↦ hne ?_⟩
  obtain ⟨new, hpaired, hnew⟩ := exists_addressed gpus agents
  obtain ⟨-, agent', -, -, hfree', -⟩ := id hmatch'
  obtain ⟨-, hnamed'⟩ := hmatch'.isOpen_and_named hopen.1 hfree'.1
  obtain rfl := Option.some.inj (hnamed.symm.trans hnamed')
  obtain ⟨bdf, -, -, hbdf, hunique⟩ := (namedAgent_eq_some_iff hagent).mp hnamed
  obtain rfl := hunique j' agent hfree' hbdf
  exact hpaired.left_unique (hnew.mpr hmatch') (hnew.mpr hmatch)

/-- A card named with another card first is a contender. -/
theorem two_le_contenders (hopen : OpenCard gpus agents i gpu) (hagent : agents[j]? = some agent)
    (hnamed : namedAgent gpus agents gpu = some agent) {i₀ : ℕ}
    (hmatch : AddressMatch gpus agents i₀ j) (hne : i ≠ i₀) : 2 ≤ contenders gpus agents agent := by
  obtain ⟨gpu₀, -, -, hopen₀, -⟩ := id hmatch
  obtain ⟨hopen₀', hnamed₀⟩ := hmatch.isOpen_and_named hopen₀.1 hagent
  refine Library.two_le_countP (Library.mem_positions.mpr ⟨gpu, hopen.1, ?_⟩)
    (Library.mem_positions.mpr ⟨gpu₀, hopen₀.1, ?_⟩) hne
  · exact Bool.and_eq_true_iff.mpr ⟨(openCard_iff.mp hopen).2, decide_eq_true hnamed⟩
  · exact Bool.and_eq_true_iff.mpr ⟨hopen₀', decide_eq_true hnamed₀⟩

/-- Every card is given its architecture by values, where contenders are alike. -/
theorem given_eq_archOf (h : ContendersAlike gpus agents) (hgpu : gpus[i]? = some gpu) :
    (correlateRocmAgents agents gpus).1[i]? = some (gpu.setArch (archOf gpus agents gpu)) := by
  cases hset : gpu.gfxArch with
  | some arch =>
    have hkept := (recorded_correlation gpus agents).kept_of_set hgpu (by rw [hset]; exact nofun)
    rw [correlateRocmAgents, hkept, archOf, hset, Option.some_or, GpuInfo.setArch, ← hset]
  | none =>
    rw [archOf, hset, Option.none_or]
    cases hchip : chipAgent gpus agents gpu with
    | some agent =>
      obtain ⟨j, hagent⟩ := List.mem_iff_getElem?.mp (mem_of_chipAgent hchip)
      exact given_of_pair (mem_attributed_iff.mpr (.inl ((deviceMatch_iff hgpu hagent).mpr hchip)))
        hgpu hagent
    | none =>
      have hopen : OpenCard gpus agents i gpu := openCard_iff.mpr ⟨hgpu, by
        rw [isOpen, hset, hchip]
        rfl⟩
      cases hnamed : namedAgent gpus agents gpu with
      | none =>
        refine given_of_left ⟨⟨gpu, hopen⟩, fun j hmatch ↦ ?_⟩ hgpu
        obtain ⟨-, agent, -, -, hfree, -⟩ := id hmatch
        exact absurd (hnamed.symm.trans (hmatch.isOpen_and_named hgpu hfree.1).2) nofun
      | some agent =>
        obtain ⟨j, hagent⟩ := List.mem_iff_getElem?.mp (mem_of_namedAgent hnamed)
        obtain ⟨i₀, -, hmatch⟩ := exists_addressMatch hopen hagent hnamed
        by_cases heq : i = i₀
        · subst heq
          exact given_of_address hmatch hgpu hagent
        · have hleft := leftCard_of_named hopen hagent hnamed hmatch heq
          have harch := h agent (two_le_contenders hopen hagent hnamed hmatch heq)
          rw [given_of_left hleft hgpu, harch]
          rfl

end Given

/-! ## Where the order does not matter -/

section Order

variable {gpus : List GpuInfo} {agents : List RocmAgent}

/-- The cards as attribution leaves them, where contenders are alike. -/
theorem correlateRocmAgents_eq_map (h : ContendersAlike gpus agents) :
    (correlateRocmAgents agents gpus).1 =
      gpus.map fun gpu ↦ gpu.setArch (archOf gpus agents gpu) := by
  refine List.ext_getElem? fun i ↦ ?_
  rw [List.getElem?_map]
  cases hgpu : gpus[i]? with
  | some gpu => exact given_eq_archOf h hgpu
  | none =>
    rw [Option.map_none, List.getElem?_eq_none_iff]
    exact (recorded_correlation gpus agents).length.trans_le (List.getElem?_eq_none_iff.mp hgpu)

/-- As many cards are counted as differ in whether they have an architecture. -/
theorem count_eq (gpus : List GpuInfo) (agents : List RocmAgent) :
    (correlateRocmAgents agents gpus).2 =
      (gpus.zip (correlateRocmAgents agents gpus).1).countP fun card ↦
        card.1.gfxArch.isNone && card.2.gfxArch.isSome := by
  have := (recorded_correlation gpus agents).length_newlySet
  rw [newlySet, Library.length_positions, ← List.countP_eq_length_filter] at this
  exact this.symm

/-- The position of a card whose address no other card has. -/
theorem position_unique (h : (gpus.filterMap (·.pciAddr)).Nodup) {i i' : ℕ} {gpu : GpuInfo}
    (hi : gpus[i]? = some gpu) (hi' : gpus[i']? = some gpu) (haddr : gpu.pciAddr ≠ none) :
    i = i' := by
  obtain ⟨addr, haddr⟩ := Option.ne_none_iff_exists'.mp haddr
  have hone : gpus.countP (fun other ↦ decide (other.pciAddr = some addr)) ≤ 1 := by
    refine le_trans (le_of_eq ?_) (List.nodup_iff_count_le_one.mp h addr)
    rw [List.count, List.countP_filterMap]
    refine List.countP_congr fun other _ ↦ ?_
    cases other.pciAddr <;> simp
  by_contra hne
  have := Library.two_le_countP (p := fun other ↦ decide (other.pciAddr = some addr))
    (Library.mem_positions.mpr ⟨gpu, hi, decide_eq_true haddr⟩)
    (Library.mem_positions.mpr ⟨gpu, hi', decide_eq_true haddr⟩) hne
  omega

/-- An agent named by open cards goes to one of them. -/
theorem exists_of_contenders {agent : RocmAgent} (h : 1 ≤ contenders gpus agents agent) :
    ∃ j i₀, agents[j]? = some agent ∧ AddressMatch gpus agents i₀ j := by
  obtain ⟨gpu, hmem, hboth⟩ := List.countP_pos_iff.mp h
  obtain ⟨hopen, hnamed⟩ := Bool.and_eq_true_iff.mp hboth
  obtain ⟨i, hi⟩ := List.mem_iff_getElem?.mp hmem
  obtain ⟨j, hj⟩ := List.mem_iff_getElem?.mp (mem_of_namedAgent (of_decide_eq_true hnamed))
  obtain ⟨i₀, -, hmatch⟩ :=
    exists_addressMatch (openCard_iff.mpr ⟨hi, hopen⟩) hj (of_decide_eq_true hnamed)
  exact ⟨j, i₀, hj, hmatch⟩

/-- A named card that is listed first is given the architecture of the agent. -/
theorem given_first {gpu : GpuInfo} {rest : List GpuInfo} {agent : RocmAgent} {j : ℕ}
    (hperm : (gpu :: rest).Perm gpus) (hopen : isOpen gpus agents gpu = true)
    (hagent : agents[j]? = some agent) (hnamed : namedAgent gpus agents gpu = some agent) :
    (correlateRocmAgents agents (gpu :: rest)).1[0]? = some (gpu.setArch (some agent.gfx)) := by
  have hopen' : OpenCard (gpu :: rest) agents 0 gpu :=
    openCard_iff.mpr ⟨rfl, by rw [isOpen_perm hperm (.refl agents), hopen]⟩
  have hnamed' : namedAgent (gpu :: rest) agents gpu = some agent := by
    rw [namedAgent_perm hperm (.refl agents), hnamed]
  obtain ⟨i₀, hle, hmatch⟩ := exists_addressMatch hopen' hagent hnamed'
  obtain rfl := Nat.le_zero.mp hle
  exact given_of_address hmatch rfl hagent

/-- The order of the lists does not matter exactly where cards that share an address which one
agent reports are given the same architecture by elimination. -/
theorem orderFree_iff (gpus : List GpuInfo) (agents : List RocmAgent)
    (h : (gpus.filterMap (·.pciAddr)).Nodup) :
    OrderFree gpus agents ↔ ContendersAlike gpus agents := by
  constructor
  · intro hfree agent hcontenders
    obtain ⟨j, i₀, hagent, hmatch⟩ := exists_of_contenders (le_of_lt hcontenders)
    obtain ⟨i, gpu, hne, hgpu, hboth⟩ := Library.exists_ne_of_two_le_countP hcontenders i₀
    obtain ⟨hopen, hnamed⟩ := Bool.and_eq_true_iff.mp hboth
    have hnamed := of_decide_eq_true hnamed
    have hleft := leftCard_of_named (openCard_iff.mpr ⟨hgpu, hopen⟩) hagent hnamed hmatch hne
    -- The card that is left is listed first, and goes by its address.
    obtain ⟨front, back, hsplit⟩ := List.append_of_mem (List.mem_of_getElem? hgpu)
    have hperm : (gpu :: (front ++ back)).Perm gpus := hsplit ▸ List.perm_middle.symm
    have hfirst := given_first hperm hopen hagent hnamed
    have hmem : (gpu, gpu.setArch (some agent.gfx)) ∈
        gpus.zip (correlateRocmAgents agents gpus).1 := by
      refine (hfree _ agents hperm (.refl agents)).1.mem_iff.mp ?_
      exact List.mem_of_getElem? (List.getElem?_zip_eq_some.mpr ⟨rfl, hfirst⟩)
    obtain ⟨i', hi'⟩ := List.mem_iff_getElem?.mp hmem
    obtain ⟨hgpu', hgiven⟩ := List.getElem?_zip_eq_some.mp hi'
    obtain ⟨bdf, hbdf, -⟩ := (namedAgent_eq_some_iff hagent).mp hnamed
    have haddr : gpu.pciAddr ≠ none := by
      intro hnone
      rw [GpuInfo.bdf, hnone] at hbdf
      exact absurd hbdf nofun
    obtain rfl := position_unique h hgpu hgpu' haddr
    have hsame := Option.some.inj ((given_of_left hleft hgpu).symm.trans hgiven)
    exact congrArg (fun gpu : GpuInfo ↦ gpu.gfxArch) hsame
  · intro halike gpus' agents' hgpus hagents
    have hzip : (gpus'.zip (correlateRocmAgents agents' gpus').1).Perm
        (gpus.zip (correlateRocmAgents agents gpus).1) := by
      rw [correlateRocmAgents_eq_map halike, correlateRocmAgents_eq_map (halike.perm hgpus hagents),
        archOf_perm hgpus hagents, ← List.map_prod_left_eq_zip, ← List.map_prod_left_eq_zip]
      exact hgpus.map _
    refine ⟨hzip, ?_⟩
    rw [count_eq, count_eq, hzip.countP_eq]

end Order

/-- Two like cards on equal buses of two domains. -/
def twinCards : List GpuInfo :=
  [bareCard .amd "1002:744c" (some "0000:0a:00.0") none,
    bareCard .amd "1002:744c" (some "0001:0a:00.0") none]

def twinAgents : List RocmAgent :=
  [{ gfx := "gfx1100", chipId := some 0x744c, bdf := some ⟨0xa, 0, 0⟩ }]

theorem orderFree_iff_twins :
    (twinCards.filterMap (·.pciAddr)).Nodup ∧
      (OrderFree twinCards twinAgents ↔ ContendersAlike twinCards twinAgents) :=
  ⟨by decide, orderFree_iff twinCards twinAgents (by decide)⟩

/-- Whichever of the two cards is listed first is given the architecture. -/
theorem not_orderFree_twins :
    (twinCards.filterMap (·.pciAddr)).Nodup ∧ ¬ OrderFree twinCards twinAgents := by
  refine ⟨by decide, fun h ↦ ?_⟩
  have hzip := (h twinCards.reverse twinAgents twinCards.reverse_perm (.refl twinAgents)).1
  have hmem : (twinCards[1], twinCards[1].setArch (some "gfx1100")) ∈
      twinCards.reverse.zip (correlateRocmAgents twinAgents twinCards.reverse).1 := by
    decide +kernel
  have hnot : (twinCards[1], twinCards[1].setArch (some "gfx1100")) ∉
      twinCards.zip (correlateRocmAgents twinAgents twinCards).1 := by
    decide +kernel
  exact hnot (hzip.mem_iff.mp hmem)

end Cameo.Detect
