import Mathlib.Algebra.Order.Ring.Rat
import Mathlib.Data.Rat.Floor
import Mathlib.Data.List.Rotate
import Cameo.Placement.MeshChoice

/-!
# The order of the roster

Whether the node that the scheduler chooses depends on the order in which the candidates stand.
Two token rates that differ by no more than a tolerance are treated as one, which is not transitive:
a node may win over a second by its rate, the second over a third by its memory, and the third over
the first by its memory again.  The order then decides.

The scheduler does three things with a rate, and what follows holds whatever they are: with the
`f64` arithmetic of the source, and with rates that are exact rational numbers.
-/

namespace Cameo.Placement

open Library

/-! ## Rates -/

structure RateReading (ρ : Type) where
  /-- The milliseconds in which so many tokens are generated. -/
  generationMs : ρ → ℕ → ℕ
  /-- The rates differ by more than the tolerance. -/
  apart : ρ → ρ → Bool
  /-- The first rate is greater. -/
  greater : ρ → ρ → Bool

def f64Reading : RateReading F64 where
  generationMs tokensPerSecond tokens :=
    let rate :=
      if tokensPerSecond.isFinite ∧ FloatValue.zero.lt tokensPerSecond then tokensPerSecond
      else .ofNat 20
    (.ofNat tokens / rate * .ofNat 1000 : F64).ceilToUnsigned u64Max
  apart rate other := FloatValue.epsilon.lt (rate - other).abs
  greater rate other := other.lt rate

def exactReading : RateReading ℚ where
  generationMs tokensPerSecond tokens :=
    let rate := if 0 < tokensPerSecond then tokensPerSecond else 20
    min ⌈tokens / rate * 1000⌉.toNat u64Max
  apart rate other := decide (1 / 2 ^ 52 < |rate - other|)
  greater rate other := decide (other < rate)

/-- Whether two rates are apart does not depend on which is named first, and if they are then one
of them is greater. -/
structure RateReading.Lawful {ρ : Type} (reading : RateReading ρ) : Prop where
  apart_comm : ∀ rate other, reading.apart rate other = reading.apart other rate
  greater_of_apart : ∀ rate other, reading.apart rate other = true →
    reading.greater rate other = !reading.greater other rate

theorem lawful_exactReading : exactReading.Lawful where
  apart_comm rate other := by
    simp only [exactReading, abs_sub_comm]
  greater_of_apart rate other happart := by
    have hne : rate ≠ other := by
      rintro rfl
      rw [exactReading, decide_eq_true_eq, sub_self, abs_zero] at happart
      exact absurd happart (by norm_num)
    simp only [exactReading]
    rcases lt_or_gt_of_ne hne with hlt | hgt
    · simp [hlt, hlt.not_gt]
    · simp [hgt, hgt.not_gt]

/-- No value is further from itself than the tolerance. -/
theorem epsilon_lt_sub_self (negative : Bool) (units : ℕ) :
    FloatValue.epsilon.lt (.finite negative units - .finite negative units : F64).abs = false := by
  have hzero : FloatValue.epsilon.lt (FloatValue.round false 0 1 : F64).abs = false := by
    decide +kernel
  rw [FloatValue.finite_sub_finite, sub_self, Int.natAbs_zero, FloatValue.abs_round, hzero]

theorem lawful_f64Reading : f64Reading.Lawful where
  apart_comm rate other := by
    simp only [f64Reading, FloatValue.abs_sub_comm rate other]
  greater_of_apart rate other happart := by
    simp only [f64Reading] at happart ⊢
    exact FloatValue.lt_of_apart epsilon_lt_sub_self happart

/-! ## The scheduler with such rates -/

namespace RateReading

variable {ρ : Type} (reading : RateReading ρ)

/-- `predicted_completion_ms`, of a candidate and its rate. -/
def predictedMs (contender : MeshCandidate × ρ) (expectedTokens : UInt32) : ℕ :=
  let mesh := contender.1
  let ttft := if mesh.estimatedTtftMs = 0 then 750 else mesh.estimatedTtftMs
  let generation := reading.generationMs contender.2 (max expectedTokens.toNat 1)
  let queue := saturatingMul mesh.inflight.toNat 250
  let healthPenalty := if mesh.health = .degraded then 2 else 1
  saturatingMul (saturatingAdd (saturatingAdd ttft generation) queue) healthPenalty

/-- The rank of a candidate that passes every hard constraint, next to its rate. -/
def rank? (req : MeshRequest) (contender : MeshCandidate × ρ) : Option (Rank × ρ) :=
  let mesh := contender.1
  let predictedMs := reading.predictedMs contender req.expectedOutputTokens
  if mesh.permits req && cardOk mesh.placement req.placement && mesh.hasRoom req &&
      req.deadlineMs.all (predictedMs ≤ ·) then
    some ({ mesh.rankOf req with predictedMs := predictedMs }, contender.2)
  else none

/-- `Rank::better_than`, of ranks next to their rates. -/
def betterThan (preference : MeshPreference) (entry other : Rank × ρ) : Bool :=
  let rank := entry.1
  let rank' := other.1
  let byUsage :=
    if rank.free ≠ rank'.free then decide (rank.free > rank'.free)
    else if rank.inflight ≠ rank'.inflight then decide (rank.inflight < rank'.inflight)
    else decide (rank.nodeId < rank'.nodeId)
  if rank.affinity ≠ rank'.affinity then rank.affinity
  else if rank.warm ≠ rank'.warm then rank.warm
  else if rank.ready ≠ rank'.ready then rank.ready
  else
    match preference with
    | .latency | .balanced =>
      if rank.predictedMs ≠ rank'.predictedMs then decide (rank.predictedMs < rank'.predictedMs)
      else byUsage
    | .throughput =>
      if reading.apart entry.2 other.2 then reading.greater entry.2 other.2 else byUsage

def ranks (contenders : List (MeshCandidate × ρ)) (req : MeshRequest) : List (Rank × ρ) :=
  contenders.filterMap (reading.rank? req)

/-- The node that the scheduler's pass chooses. -/
def chosenId (contenders : List (MeshCandidate × ρ)) (req : MeshRequest) : Option String :=
  (champion (reading.betterThan req.preference) (reading.ranks contenders req)).map
    fun best ↦ best.1.nodeId

/-- There is nothing to choose from, or one of the candidates that are ranked is better than every
other one. -/
def HasFavourite (contenders : List (MeshCandidate × ρ)) (req : MeshRequest) : Prop :=
  reading.ranks contenders req = [] ∨
    ∃ best ∈ reading.ranks contenders req, ∀ other ∈ reading.ranks contenders req,
      other.1.nodeId ≠ best.1.nodeId → reading.betterThan req.preference best other = true

variable {reading}

theorem rank?_eq_some {req : MeshRequest} {contender : MeshCandidate × ρ} {entry : Rank × ρ}
    (h : reading.rank? req contender = some entry) : entry.1.nodeId = contender.1.nodeId := by
  unfold rank? at h
  dsimp only at h
  split at h
  · obtain rfl := Option.some.inj h
    rfl
  · cases h

/-- Ranks of candidates with different node ids have different node ids. -/
theorem nodeId_injOn_ranks {contenders : List (MeshCandidate × ρ)} {req : MeshRequest}
    (hids : (contenders.map fun contender ↦ contender.1.nodeId).Nodup) {entry other : Rank × ρ}
    (hentry : entry ∈ reading.ranks contenders req) (hother : other ∈ reading.ranks contenders req)
    (hsame : entry.1.nodeId = other.1.nodeId) : entry = other := by
  obtain ⟨contender, hmem, hrank⟩ := List.mem_filterMap.mp hentry
  obtain ⟨contender', hmem', hrank'⟩ := List.mem_filterMap.mp hother
  have hcontender : contender = contender' := by
    refine List.inj_on_of_nodup_map hids hmem hmem' ?_
    rw [← rank?_eq_some hrank, ← rank?_eq_some hrank', hsame]
  rw [hcontender] at hrank
  exact Option.some.inj (hrank.symm.trans hrank')

/-- Of two ranks with different node ids exactly one is better. -/
theorem betterThan_eq_not (hlawful : reading.Lawful) (preference : MeshPreference)
    {entry other : Rank × ρ} (hids : entry.1.nodeId ≠ other.1.nodeId) :
    reading.betterThan preference entry other = !reading.betterThan preference other entry := by
  have hnode : decide (entry.1.nodeId < other.1.nodeId) =
      !decide (other.1.nodeId < entry.1.nodeId) := by
    rcases lt_or_gt_of_ne hids with hlt | hgt
    · simp [hlt, hlt.not_gt]
    · simp [hgt, hgt.not_gt]
  have hinflight := ite_ne_eq_not (a := entry.1.inflight.toNat) (b := other.1.inflight.toNat) hnode
  have husage := ite_ne_eq_not (a := OrderDual.toDual entry.1.free)
    (b := OrderDual.toDual other.1.free) hinflight
  unfold betterThan
  dsimp only
  simp only [ite_ne_flag, ite_ne_inflight]
  refine ite_ne_eq_not (ite_ne_eq_not (ite_ne_eq_not ?_))
  cases preference with
  | latency => exact ite_ne_eq_not husage
  | balanced => exact ite_ne_eq_not husage
  | throughput =>
    change (if reading.apart entry.2 other.2 = true then _ else _) =
      !if reading.apart other.2 entry.2 = true then _ else _
    rw [hlawful.apart_comm other.2 entry.2]
    by_cases happart : reading.apart entry.2 other.2 = true
    · rw [if_pos happart, if_pos happart]
      exact hlawful.greater_of_apart _ _ happart
    · rw [if_neg happart, if_neg happart]
      exact husage

/-- The chosen node is the same in every order exactly when there is a favourite. -/
theorem chosenId_perm_iff (hlawful : reading.Lawful) {contenders : List (MeshCandidate × ρ)}
    {req : MeshRequest} (hids : (contenders.map fun contender ↦ contender.1.nodeId).Nodup) :
    (∀ order, order.Perm contenders →
      reading.chosenId order req = reading.chosenId contenders req) ↔
      reading.HasFavourite contenders req := by
  have hinj {entry other : Rank × ρ} (hentry : entry ∈ reading.ranks contenders req)
      (hother : other ∈ reading.ranks contenders req) :
      entry.1.nodeId = other.1.nodeId ↔ entry = other :=
    ⟨nodeId_injOn_ranks hids hentry hother, fun heq ↦ heq ▸ rfl⟩
  have hdecides : Decides (reading.betterThan req.preference) (reading.ranks contenders req) :=
    fun entry hentry other hother hne ↦
      betterThan_eq_not hlawful req.preference fun hsame ↦ hne ((hinj hentry hother).mp hsame)
  -- The id tells which of the ranks has been kept.
  have hchosen (order : List (MeshCandidate × ρ)) (hperm : order.Perm contenders) :
      reading.chosenId order req = reading.chosenId contenders req ↔
        champion (reading.betterThan req.preference) (reading.ranks order req) =
          champion (reading.betterThan req.preference) (reading.ranks contenders req) := by
    constructor
    · intro hsame
      unfold chosenId at hsame
      have hranks : (reading.ranks order req).Perm (reading.ranks contenders req) :=
        hperm.filterMap _
      cases hbest : champion (reading.betterThan req.preference) (reading.ranks order req) with
      | none =>
        rw [hbest, Option.map_none, eq_comm, Option.map_eq_none_iff] at hsame
        rw [hsame]
      | some best =>
        rw [hbest, Option.map_some, eq_comm, Option.map_eq_some_iff] at hsame
        obtain ⟨best', hbest', hid⟩ := hsame
        rw [hbest', (hinj (champion_mem hbest')
          (hranks.mem_iff.mp (champion_mem hbest))).mp hid]
    · intro hsame
      unfold chosenId
      rw [hsame]
  have hperm := champion_filterMap_perm_iff hdecides
  calc (∀ order, order.Perm contenders →
        reading.chosenId order req = reading.chosenId contenders req)
      ↔ ∀ order : List (MeshCandidate × ρ), order.Perm contenders →
          champion (reading.betterThan req.preference) (reading.ranks order req) =
            champion (reading.betterThan req.preference) (reading.ranks contenders req) :=
        forall₂_congr hchosen
    _ ↔ reading.ranks contenders req = [] ∨ ∃ best,
          BeatsAll (reading.betterThan req.preference) (reading.ranks contenders req) best := hperm
    _ ↔ reading.HasFavourite contenders req := by
        refine or_congr Iff.rfl (exists_congr fun best ↦ and_congr_right fun hbest ↦ ?_)
        refine forall₂_congr fun other hother ↦ ?_
        rw [ne_eq, ne_eq, hinj hother hbest]

/-- Where the rate does not count there is always a favourite: the first in the order of the
ranks. -/
theorem hasFavourite_of_ne_throughput (hlawful : reading.Lawful)
    (contenders : List (MeshCandidate × ρ)) {req : MeshRequest}
    (hpreference : req.preference ≠ .throughput) : reading.HasFavourite contenders req := by
  have hkey (entry other : Rank × ρ) :
      reading.betterThan req.preference entry other = true ↔ entry.1.key < other.1.key := by
    rw [← Rank.betterThan_iff_key_lt hpreference]
    unfold betterThan Rank.betterThan
    cases hcase : req.preference with
    | latency => exact Iff.rfl
    | balanced => exact Iff.rfl
    | throughput => exact absurd hcase hpreference
  cases hbest : champion (reading.betterThan req.preference) (reading.ranks contenders req) with
  | none => exact Or.inl (champion_eq_none_iff.mp hbest)
  | some best =>
    refine Or.inr ⟨best, champion_mem hbest, ?_⟩
    intro other hother hids
    have hleast := champion_le hkey hbest other hother
    have hbeaten : reading.betterThan req.preference other best = false := by
      rw [← Bool.not_eq_true, hkey]
      exact not_lt.mpr hleast
    rw [betterThan_eq_not hlawful req.preference hids.symm, hbeaten]
    rfl

end RateReading

/-! ## The scheduler of the source -/

def withRates (candidates : List MeshCandidate) : List (MeshCandidate × F64) :=
  candidates.map fun mesh ↦ (mesh, mesh.tokensPerSecond)

theorem f64Reading_rank? (req : MeshRequest) (mesh : MeshCandidate) :
    f64Reading.rank? req (mesh, mesh.tokensPerSecond) =
      (mesh.rank? req).map fun rank ↦ (rank, rank.tokensPerSecond) := by
  have hpredicted : f64Reading.predictedMs (mesh, mesh.tokensPerSecond) req.expectedOutputTokens =
      predictedCompletionMs mesh req.expectedOutputTokens := by
    simp only [RateReading.predictedMs, predictedCompletionMs, f64Reading]
  unfold RateReading.rank? MeshCandidate.rank?
  dsimp only
  rw [hpredicted]
  split
  · rfl
  · rfl

theorem f64Reading_betterThan (preference : MeshPreference) (rank other : Rank) :
    f64Reading.betterThan preference (rank, rank.tokensPerSecond) (other, other.tokensPerSecond) =
      rank.betterThan other preference := by
  unfold RateReading.betterThan Rank.betterThan
  cases preference with
  | latency => rfl
  | balanced => rfl
  | throughput => simp only [f64Reading]

/-- The scheduler of the source is the one with the arithmetic of the source. -/
theorem chosenId_routeMesh (candidates : List MeshCandidate) (req : MeshRequest) :
    (routeMesh candidates req).toOption.map MeshRouteChoice.nodeId =
      f64Reading.chosenId (withRates candidates) req := by
  have hchampion : (champion (outranks req.preference) (ranked req candidates.zipIdx)).map
      (fun entry ↦ (entry.2, entry.2.tokensPerSecond)) =
      champion (f64Reading.betterThan req.preference)
        (f64Reading.ranks (withRates candidates) req) := by
    have hranks : f64Reading.ranks (withRates candidates) req =
        (ranked req candidates.zipIdx).map fun entry ↦ (entry.2, entry.2.tokensPerSecond) := by
      unfold RateReading.ranks withRates ranked
      rw [List.filterMap_map, List.map_filterMap]
      calc candidates.filterMap _
          = (candidates.zipIdx.map Prod.fst).filterMap fun mesh ↦
              f64Reading.rank? req (mesh, mesh.tokensPerSecond) := by
            rw [List.zipIdx_map_fst]
            rfl
        _ = candidates.zipIdx.filterMap _ := by
            rw [List.filterMap_map]
            refine List.filterMap_congr fun entry _ ↦ ?_
            rw [Function.comp_apply, f64Reading_rank?, Option.map_map]
            rfl
    rw [hranks]
    apply map_champion
    intro entry other
    exact (f64Reading_betterThan req.preference entry.2 other.2).symm
  unfold RateReading.chosenId
  rw [← hchampion, Option.map_map]
  cases hbest : champion (outranks req.preference) (ranked req candidates.zipIdx) with
  | none =>
    cases hroute : routeMesh candidates req with
    | error e => rfl
    | ok choice =>
      obtain ⟨index, rank, mesh, hsome, -⟩ := routeMesh_eq_ok_iff.mp hroute
      rw [hbest] at hsome
      cases hsome
  | some best =>
    obtain ⟨mesh, hmesh, hrank⟩ := mem_ranked.mp (champion_mem hbest)
    have hroute := routeMesh_eq_ok_iff.mpr ⟨best.1, best.2, mesh, hbest, hmesh, rfl⟩
    obtain ⟨-, hid⟩ := MeshCandidate.rank?_eq_some_iff.mp hrank
    rw [hroute]
    change some mesh.nodeId = some best.2.nodeId
    rw [← hid]
    rfl

/-- Every order of the candidates next to their rates comes from an order of the candidates. -/
theorem perm_withRates_iff {order : List (MeshCandidate × F64)} {candidates : List MeshCandidate} :
    order.Perm (withRates candidates) ↔
      ∃ candidates', candidates'.Perm candidates ∧ order = withRates candidates' := by
  constructor
  · intro hperm
    refine ⟨order.map Prod.fst, ?_, ?_⟩
    · have hfst := hperm.map Prod.fst
      rwa [withRates, List.map_map, show Prod.fst ∘ (fun mesh : MeshCandidate ↦
        (mesh, mesh.tokensPerSecond)) = id from rfl, List.map_id] at hfst
    · have hself : ∀ contender ∈ order, (contender.1, contender.1.tokensPerSecond) = contender := by
        intro contender hmem
        obtain ⟨mesh, -, rfl⟩ := List.mem_map.mp (hperm.mem_iff.mp hmem)
        rfl
      rw [withRates, List.map_map]
      exact ((List.map_congr_left hself).trans (List.map_id order)).symm
  · rintro ⟨candidates', hperm, rfl⟩
    exact hperm.map _

/-- The chosen node does not depend on the order of the candidates exactly when the preference is
not throughput or there is a favourite, with the arithmetic of the source and with exact rates. -/
theorem chosen_node_perm_iff (candidates : List MeshCandidate)
    (contenders : List (MeshCandidate × ℚ)) (req : MeshRequest)
    (hids : (candidates.map MeshCandidate.nodeId).Nodup)
    (hcontenders : (contenders.map fun contender ↦ contender.1.nodeId).Nodup) :
    ((∀ order, order.Perm candidates →
        (routeMesh order req).toOption.map MeshRouteChoice.nodeId =
          (routeMesh candidates req).toOption.map MeshRouteChoice.nodeId) ↔
      (req.preference = .throughput → f64Reading.HasFavourite (withRates candidates) req)) ∧
    ((∀ order, order.Perm contenders →
        exactReading.chosenId order req = exactReading.chosenId contenders req) ↔
      (req.preference = .throughput → exactReading.HasFavourite contenders req)) := by
  constructor
  · have hrates : ((withRates candidates).map fun contender ↦ contender.1.nodeId).Nodup := by
      rw [withRates, List.map_map]
      exact hids
    rw [imp_iff_or_not, or_iff_left_of_imp
      (RateReading.hasFavourite_of_ne_throughput lawful_f64Reading _),
      ← RateReading.chosenId_perm_iff lawful_f64Reading hrates]
    simp only [chosenId_routeMesh, perm_withRates_iff]
    constructor
    · rintro h order ⟨candidates', hperm, rfl⟩
      exact h candidates' hperm
    · intro h order hperm
      exact h _ ⟨order, hperm, rfl⟩
  · rw [imp_iff_or_not, or_iff_left_of_imp
      (RateReading.hasFavourite_of_ne_throughput lawful_exactReading _),
      ← RateReading.chosenId_perm_iff lawful_exactReading hcontenders]

/-- Three nodes whose rates differ by the tolerance, the fastest with the least memory. -/
def closeRates : List (ℚ × MeshCandidate) :=
  [(1, readyNode "a" 24576 (.ofRatio 1 1)),
    (1 + 1 / 2 ^ 52, readyNode "b" 16384 (.ofRatio (2 ^ 52 + 1) (2 ^ 52))),
    (1 + 1 / 2 ^ 51, readyNode "c" 12288 (.ofRatio (2 ^ 52 + 2) (2 ^ 52)))]

/-- The first of them beats the second and the second the third by memory, and the third the first
by its rate: the pass ends with the third, or with the second if it begins with the third. -/
theorem chosen_node_depends_on_order :
    let roster := closeRates.map Prod.snd
    let exactRoster := closeRates.map Prod.swap
    let req := smallRequest .throughput
    (roster.map MeshCandidate.nodeId).Nodup ∧ (roster.rotate 2).Perm roster ∧
      (routeMesh roster req).toOption.map MeshRouteChoice.nodeId = some "c" ∧
      (routeMesh (roster.rotate 2) req).toOption.map MeshRouteChoice.nodeId = some "b" ∧
      (exactRoster.rotate 2).Perm exactRoster ∧
      exactReading.chosenId exactRoster req = some "c" ∧
      exactReading.chosenId (exactRoster.rotate 2) req = some "b" := by
  refine ⟨by decide +kernel, List.rotate_perm _ _, by decide +kernel, by decide +kernel,
    List.rotate_perm _ _, by decide +kernel, by decide +kernel⟩

/-- For latency the same nodes may stand in any order. -/
theorem chosen_node_closeRates_latency :
    let roster := closeRates.map Prod.snd
    let exactRoster := closeRates.map Prod.swap
    let req := smallRequest .latency
    (roster.map MeshCandidate.nodeId).Nodup ∧
      (routeMesh (roster.rotate 2) req).toOption.map MeshRouteChoice.nodeId =
        (routeMesh roster req).toOption.map MeshRouteChoice.nodeId ∧
      exactReading.chosenId (exactRoster.rotate 2) req = exactReading.chosenId exactRoster req := by
  have hids : ((closeRates.map Prod.snd).map MeshCandidate.nodeId).Nodup := by decide +kernel
  have hcontenders : ((closeRates.map Prod.swap).map
      fun contender : MeshCandidate × ℚ ↦ contender.1.nodeId).Nodup := by decide +kernel
  have hlatency : (smallRequest .latency).preference ≠ .throughput := by decide
  obtain ⟨hsource, hexact⟩ := chosen_node_perm_iff _ _ (smallRequest .latency) hids hcontenders
  exact ⟨hids, hsource.mpr (fun h ↦ absurd h hlatency) _ (List.rotate_perm _ _),
    hexact.mpr (fun h ↦ absurd h hlatency) _ (List.rotate_perm _ _)⟩

end Cameo.Placement
