import Mathlib.Data.String.Basic
import Cameo.Library.Champion
import Cameo.Placement.Mesh

/-!
# The choice of the mesh scheduler

The scheduler's pass keeps the best of the candidates that pass the hard constraints.  For latency
and for the balanced preference the ranks are compared field by field, so that the pass ends with
a candidate that no other one outranks.
-/

namespace Cameo.Placement

open Library

/-! ## The hard constraints -/

namespace MeshCandidate

/-- The eight constraints that a node has to pass before it is ranked. -/
structure Admissible (mesh : MeshCandidate) (req : MeshRequest) : Prop where
  trust : mesh.trust = .paired ∨ (req.allowLegacyToken = true ∧ mesh.trust = .legacyToken)
  health : mesh.health = .ready ∨ mesh.health = .degraded
  reclaim : mesh.ownerReclaim = false
  protocol : mesh.protocolMajor = req.protocolMajor
  privacy : req.privacy = .localOnly → mesh.isLocal = true
  card : cardOk mesh.placement req.placement = true
  memory : mesh.load.serves req.placement.model.name = true ∨ (freeVram mesh.placement).2 = false ∨
    req.placement.need ≤ (freeVram mesh.placement).1
  deadline : ∀ deadlineMs, req.deadlineMs = some deadlineMs →
    predictedCompletionMs mesh req.expectedOutputTokens ≤ deadlineMs

def rankOf (mesh : MeshCandidate) (req : MeshRequest) : Rank where
  affinity := req.sessionAffinity = some mesh.nodeId
  warm := mesh.warmFor req
  ready := mesh.health = .ready
  predictedMs := predictedCompletionMs mesh req.expectedOutputTokens
  tokensPerSecond := mesh.tokensPerSecond
  free := (freeVram mesh.placement).1
  inflight := mesh.inflight
  nodeId := mesh.nodeId

theorem permits_eq_true {mesh : MeshCandidate} {req : MeshRequest} :
    mesh.permits req = true ↔
      (mesh.trust = .paired ∨ (req.allowLegacyToken = true ∧ mesh.trust = .legacyToken)) ∧
      (mesh.health = .ready ∨ mesh.health = .degraded) ∧ mesh.ownerReclaim = false ∧
      mesh.protocolMajor = req.protocolMajor ∧
      (req.privacy = .localOnly → mesh.isLocal = true) := by
  simp [permits, imp_iff_not_or]

theorem hasRoom_eq_true {mesh : MeshCandidate} {req : MeshRequest} :
    mesh.hasRoom req = true ↔
      mesh.load.serves req.placement.model.name = true ∨ (freeVram mesh.placement).2 = false ∨
        req.placement.need ≤ (freeVram mesh.placement).1 := by
  simp [hasRoom, warmFor, or_assoc]

/-- Exactly the nodes that pass every constraint are ranked. -/
theorem rank?_eq_some_iff {mesh : MeshCandidate} {req : MeshRequest} {rank : Rank} :
    mesh.rank? req = some rank ↔ mesh.Admissible req ∧ mesh.rankOf req = rank := by
  have hgates : (mesh.permits req && cardOk mesh.placement req.placement && mesh.hasRoom req &&
      req.deadlineMs.all (predictedCompletionMs mesh req.expectedOutputTokens ≤ ·)) = true ↔
      mesh.Admissible req := by
    simp only [Bool.and_eq_true, permits_eq_true, hasRoom_eq_true, Option.all_eq_true,
      decide_eq_true_eq]
    constructor
    · rintro ⟨⟨⟨⟨htrust, hhealth, hreclaim, hprotocol, hprivacy⟩, hcard⟩, hmemory⟩, hdeadline⟩
      exact ⟨htrust, hhealth, hreclaim, hprotocol, hprivacy, hcard, hmemory, hdeadline⟩
    · intro h
      exact ⟨⟨⟨⟨h.trust, h.health, h.reclaim, h.protocol, h.privacy⟩, h.card⟩, h.memory⟩,
        h.deadline⟩
  unfold rank?
  dsimp only
  split
  · rename_i hall
    rw [Option.some.injEq]
    exact ⟨fun heq ↦ ⟨hgates.mp hall, heq⟩, fun h ↦ h.2⟩
  · rename_i hnot
    constructor
    · intro h
      cases h
    · intro h
      exact absurd (hgates.mpr h.1) hnot

theorem rank?_eq_none_iff {mesh : MeshCandidate} {req : MeshRequest} :
    mesh.rank? req = none ↔ ¬mesh.Admissible req := by
  constructor
  · intro hnone hadmissible
    have hsome := rank?_eq_some_iff.mpr ⟨hadmissible, rfl⟩
    rw [hnone] at hsome
    cases hsome
  · intro hnot
    cases hrank : mesh.rank? req with
    | none => rfl
    | some rank => exact absurd (rank?_eq_some_iff.mp hrank).1 hnot

end MeshCandidate

/-! ## The pass -/

def ranked (req : MeshRequest) (entries : List (MeshCandidate × ℕ)) : List (ℕ × Rank) :=
  entries.filterMap fun entry ↦ (entry.1.rank? req).map fun rank ↦ (entry.2, rank)

def outranks (preference : MeshPreference) (entry other : ℕ × Rank) : Bool :=
  entry.2.betterThan other.2 preference

/-- The pass keeps the best of the candidates that are ranked. -/
theorem foldl_considerCandidate (req : MeshRequest) (entries : List (MeshCandidate × ℕ))
    (acc : ℕ × Option (ℕ × Rank)) :
    (entries.foldl (considerCandidate req) acc).2 =
      (ranked req entries).foldl (challenge (outranks req.preference)) acc.2 := by
  induction entries generalizing acc with
  | nil => rfl
  | cons entry rest ih =>
    rw [List.foldl_cons, ih]
    unfold ranked
    rw [List.filterMap_cons]
    cases hrank : entry.1.rank? req with
    | none =>
      simp only [considerCandidate, hrank, Option.map_none]
    | some rank =>
      simp only [considerCandidate, hrank, Option.map_some, List.foldl_cons]
      unfold challenge outranks
      split
      · rfl
      · rfl

/-- The pass of the router ends with the champion of the candidates that are ranked. -/
theorem pass_eq_champion (req : MeshRequest) (candidates : List MeshCandidate) :
    (candidates.zipIdx.foldl (considerCandidate req) (0, none)).2 =
      champion (outranks req.preference) (ranked req candidates.zipIdx) :=
  foldl_considerCandidate req candidates.zipIdx (0, none)

theorem mem_ranked {req : MeshRequest} {candidates : List MeshCandidate} {entry : ℕ × Rank} :
    entry ∈ ranked req candidates.zipIdx ↔
      ∃ mesh, candidates[entry.1]? = some mesh ∧ mesh.rank? req = some entry.2 := by
  simp only [ranked, List.mem_filterMap, Option.map_eq_some_iff]
  constructor
  · rintro ⟨⟨mesh, index⟩, hmem, rank, hrank, rfl⟩
    exact ⟨mesh, List.mem_zipIdx_iff_getElem?.mp hmem, hrank⟩
  · rintro ⟨mesh, hmesh, hrank⟩
    exact ⟨(mesh, entry.1), List.mem_zipIdx_iff_getElem?.mpr hmesh, entry.2, hrank, rfl⟩

/-- Something is chosen, and it is the best of the candidates that are ranked. -/
theorem routeMesh_eq_ok_iff {candidates : List MeshCandidate} {req : MeshRequest}
    {choice : MeshRouteChoice} :
    routeMesh candidates req = .ok choice ↔
      ∃ index rank mesh, champion (outranks req.preference) (ranked req candidates.zipIdx) =
          some (index, rank) ∧ candidates[index]? = some mesh ∧
        choice = choiceOf req index mesh rank := by
  unfold routeMesh
  split
  · rename_i hempty
    rw [List.isEmpty_iff] at hempty
    subst hempty
    constructor
    · intro h
      cases h
    · rintro ⟨index, rank, mesh, hbest, -⟩
      cases hbest
  · dsimp only
    rw [pass_eq_champion]
    cases hbest : champion (outranks req.preference) (ranked req candidates.zipIdx) with
    | none => simp
    | some best =>
      obtain ⟨mesh, hmesh, -⟩ := mem_ranked.mp (champion_mem hbest)
      simp only [hmesh, Except.ok.injEq, Option.some.injEq]
      constructor
      · rintro rfl
        exact ⟨best.1, best.2, mesh, rfl, hmesh, rfl⟩
      · rintro ⟨index, rank, mesh', rfl, hmesh', rfl⟩
        obtain rfl : mesh = mesh' := Option.some.inj (hmesh.symm.trans hmesh')
        rfl

/-- If a candidate passes every constraint, then one is chosen. -/
theorem exists_routeMesh_eq_ok {candidates : List MeshCandidate} {req : MeshRequest}
    {mesh : MeshCandidate} (hmem : mesh ∈ candidates) (h : mesh.Admissible req) :
    ∃ choice, routeMesh candidates req = .ok choice := by
  obtain ⟨index, hindex⟩ := List.mem_iff_getElem?.mp hmem
  have hranked : (index, mesh.rankOf req) ∈ ranked req candidates.zipIdx :=
    mem_ranked.mpr ⟨mesh, hindex, MeshCandidate.rank?_eq_some_iff.mpr ⟨h, rfl⟩⟩
  cases hbest : champion (outranks req.preference) (ranked req candidates.zipIdx) with
  | none =>
    rw [champion_eq_none_iff.mp hbest] at hranked
    cases hranked
  | some best =>
    obtain ⟨chosen, hchosen, -⟩ := mem_ranked.mp (champion_mem hbest)
    exact ⟨_, routeMesh_eq_ok_iff.mpr ⟨best.1, best.2, chosen, hbest, hchosen, rfl⟩⟩

/-- All candidates are refused when there are some and none of them is ranked. -/
theorem routeMesh_eq_noneEligible_iff {candidates : List MeshCandidate} {req : MeshRequest} :
    (∃ why, routeMesh candidates req = .error (.noneEligible why)) ↔
      candidates ≠ [] ∧ ∀ mesh ∈ candidates, mesh.rank? req = none := by
  have hnone : champion (outranks req.preference) (ranked req candidates.zipIdx) = none ↔
      ∀ mesh ∈ candidates, mesh.rank? req = none := by
    rw [champion_eq_none_iff, List.eq_nil_iff_forall_not_mem]
    constructor
    · intro h mesh hmesh
      obtain ⟨index, hindex⟩ := List.mem_iff_getElem?.mp hmesh
      cases hrank : mesh.rank? req with
      | none => rfl
      | some rank => exact absurd (mem_ranked.mpr ⟨mesh, hindex, hrank⟩) (h (index, rank))
    · intro h entry hentry
      obtain ⟨mesh, hmesh, hrank⟩ := mem_ranked.mp hentry
      rw [h mesh (List.mem_of_getElem? hmesh)] at hrank
      cases hrank
  rw [← hnone]
  unfold routeMesh
  split
  · rename_i hempty
    rw [List.isEmpty_iff] at hempty
    simp [hempty]
  · rename_i hne
    rw [List.isEmpty_iff] at hne
    dsimp only
    rw [pass_eq_champion]
    cases hbest : champion (outranks req.preference) (ranked req candidates.zipIdx) with
    | none => simp [hne]
    | some best =>
      obtain ⟨mesh, hmesh, -⟩ := mem_ranked.mp (champion_mem hbest)
      simp [hmesh]

/-! ## The order of the ranks -/

/-- What ranks are compared by where the rate does not count, the best first. -/
def Rank.key (rank : Rank) : Bool ×ₗ Bool ×ₗ Bool ×ₗ ℕ ×ₗ ℕᵒᵈ ×ₗ ℕ ×ₗ String :=
  toLex (!rank.affinity, toLex (!rank.warm, toLex (!rank.ready, toLex (rank.predictedMs,
    toLex (OrderDual.toDual rank.free, toLex (rank.inflight.toNat, rank.nodeId))))))

/-- Counts of sessions are compared as numbers. -/
theorem ite_ne_inflight (a b : UInt32) (rest : Bool) :
    (if a ≠ b then decide (a < b) else rest) =
      if a.toNat ≠ b.toNat then decide (a.toNat < b.toNat) else rest := by
  simp only [ne_eq, UInt32.toNat_inj, UInt32.lt_iff_toNat_lt]

/-- For latency and the balanced preference, one rank is better than another exactly when it comes
first. -/
theorem Rank.betterThan_iff_key_lt {preference : MeshPreference} (h : preference ≠ .throughput)
    (rank other : Rank) : rank.betterThan other preference = true ↔ rank.key < other.key := by
  have htail := ite_ne_iff_toLex_lt (a := rank.inflight.toNat) (b := other.inflight.toNat)
    (decide_eq_true_iff (p := rank.nodeId < other.nodeId))
  have hfree := ite_ne_iff_toLex_lt (a := OrderDual.toDual rank.free)
    (b := OrderDual.toDual other.free) htail
  have hpredicted := ite_ne_iff_toLex_lt (a := rank.predictedMs) (b := other.predictedMs) hfree
  have hready := ite_ne_iff_toLex_lt (a := !rank.ready) (b := !other.ready) hpredicted
  have hwarm := ite_ne_iff_toLex_lt (a := !rank.warm) (b := !other.warm) hready
  have haffinity := ite_ne_iff_toLex_lt (a := !rank.affinity) (b := !other.affinity) hwarm
  rw [← ite_ne_flag, ← ite_ne_flag, ← ite_ne_flag] at haffinity
  unfold key
  rw [← haffinity]
  unfold betterThan
  dsimp only
  rw [ite_ne_inflight]
  cases preference with
  | throughput => exact absurd rfl h
  | latency => rfl
  | balanced => rfl

/-! ## What is chosen -/

/-- Whatever the scheduler chooses is a candidate that passes every hard constraint, and it refuses
all of a list of candidates exactly when none of them does.  For latency and the balanced
preference no other admissible candidate ranks better than the chosen one. -/
theorem routeMesh_admissible_and_best (candidates : List MeshCandidate) (req : MeshRequest) :
    (∀ choice, routeMesh candidates req = .ok choice →
      ∃ mesh, candidates[choice.index]? = some mesh ∧ choice.nodeId = mesh.nodeId ∧
        mesh.Admissible req ∧
        (req.preference = .latency ∨ req.preference = .balanced →
          ∀ other ∈ candidates, other.Admissible req →
            (other.rankOf req).betterThan (mesh.rankOf req) req.preference = false)) ∧
    ((∃ why, routeMesh candidates req = .error (.noneEligible why)) ↔
      candidates ≠ [] ∧ ∀ mesh ∈ candidates, ¬mesh.Admissible req) := by
  constructor
  · intro choice hchoice
    obtain ⟨index, rank, mesh, hbest, hmesh, rfl⟩ := routeMesh_eq_ok_iff.mp hchoice
    obtain ⟨mesh', hmesh', hrank⟩ := mem_ranked.mp (champion_mem hbest)
    obtain rfl : mesh = mesh' := Option.some.inj (hmesh.symm.trans hmesh')
    obtain ⟨hadmissible, rfl⟩ := MeshCandidate.rank?_eq_some_iff.mp hrank
    refine ⟨mesh, hmesh, rfl, hadmissible, ?_⟩
    intro hpreference other hother hotherAdmissible
    have hkey (entry entry' : ℕ × Rank) :
        outranks req.preference entry entry' = true ↔ entry.2.key < entry'.2.key := by
      apply Rank.betterThan_iff_key_lt
      rintro hthroughput
      rw [hthroughput] at hpreference
      rcases hpreference with hlatency | hbalanced
      · cases hlatency
      · cases hbalanced
    obtain ⟨otherIndex, hotherIndex⟩ := List.mem_iff_getElem?.mp hother
    have hranked : (otherIndex, other.rankOf req) ∈ ranked req candidates.zipIdx :=
      mem_ranked.mpr ⟨other, hotherIndex,
        MeshCandidate.rank?_eq_some_iff.mpr ⟨hotherAdmissible, rfl⟩⟩
    have hleast := champion_le hkey hbest _ hranked
    rw [← Bool.not_eq_true]
    intro hbetter
    exact absurd ((hkey (otherIndex, other.rankOf req) (index, mesh.rankOf req)).mp hbetter)
      (not_lt.mpr hleast)
  · rw [routeMesh_eq_noneEligible_iff]
    simp only [MeshCandidate.rank?_eq_none_iff]

def readyNode (nodeId : String) (vramMb : ℕ) (tokensPerSecond : F64) : MeshCandidate where
  nodeId := nodeId
  node := ⟨nodeId, "10.0.0.2:9000",
    ⟨[⟨.amd, some vramMb, none, none, .dedicated, some "gfx1100"⟩], [], none⟩, [], []⟩
  load := ⟨[], 0⟩
  isLocal := true
  trust := .paired
  health := .ready
  protocolMajor := 1
  ownerReclaim := false
  inflight := 0
  estimatedTtftMs := 100
  tokensPerSecond := tokensPerSecond

def smallRequest (preference : MeshPreference) : MeshRequest where
  placement := ⟨.dense "tiny" (.ofNat 1) .q4_K_M, .inference, none⟩
  sessionAffinity := none
  privacy := .pool
  preference := preference
  deadlineMs := none
  expectedOutputTokens := 256
  priority := 0
  allowLegacyToken := false
  protocolMajor := 1

/-- Of two nodes that differ in memory the one with more is chosen, and the other does not rank
better. -/
theorem routeMesh_two_nodes :
    let small := readyNode "a" 12288 (.ofNat 30)
    let large := readyNode "b" 24576 (.ofNat 30)
    let req := smallRequest .balanced
    (routeMesh [small, large] req).toOption.map MeshRouteChoice.nodeId = some "b" ∧
      ∃ mesh : MeshCandidate, large.nodeId = mesh.nodeId ∧ mesh.Admissible req ∧
        (small.Admissible req →
          (small.rankOf req).betterThan (mesh.rankOf req) req.preference = false) := by
  have hchosen : (routeMesh [readyNode "a" 12288 (.ofNat 30), readyNode "b" 24576 (.ofNat 30)]
      (smallRequest .balanced)).toOption.map MeshRouteChoice.nodeId = some "b" := by
    decide +kernel
  refine ⟨hchosen, ?_⟩
  cases hroute : routeMesh [readyNode "a" 12288 (.ofNat 30), readyNode "b" 24576 (.ofNat 30)]
      (smallRequest .balanced) with
  | error e =>
    rw [hroute] at hchosen
    cases hchosen
  | ok choice =>
    rw [hroute] at hchosen
    have hid : choice.nodeId = "b" := Option.some.inj hchosen
    obtain ⟨mesh, -, hmesh, hadmissible, hbest⟩ :=
      (routeMesh_admissible_and_best _ _).1 choice hroute
    refine ⟨mesh, hid.symm.trans hmesh, hadmissible, ?_⟩
    exact hbest (Or.inr rfl) _ List.mem_cons_self

end Cameo.Placement
