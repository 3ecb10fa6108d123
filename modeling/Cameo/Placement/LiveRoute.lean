import Cameo.Library.Champion
import Cameo.Placement.Fleet

/-!
# The live router

`route` looks at the load of the nodes.  Of those whose card satisfies the request and that serve
the model or have room for it, it takes the first of the best: a node that serves the model comes
before one that does not, then the one with more free VRAM, then the one with fewer endpoints.
-/

namespace Cameo.Placement

open Library

/-- `RouteChoice`. -/
structure RouteChoice where
  index : ℕ
  nodeName : String
  warm : Bool
  freeVramBytes : ℕ
  reason : String
deriving DecidableEq

/-- `Ranked`, with the candidate it is the rank of. -/
structure Ranked where
  candidate : Candidate
  index : ℕ
  warm : Bool
  free : ℕ
  endpoints : ℕ

/-- `Ranked::better_than`. -/
def Ranked.betterThan (rank other : Ranked) : Bool :=
  if rank.warm ≠ other.warm then rank.warm
  else if rank.free ≠ other.free then decide (rank.free > other.free)
  else decide (rank.endpoints < other.endpoints)

/-- The rank of a candidate whose card satisfies the request, if the model is there or there is
room for it. -/
def rankCandidate (req : RouteRequest) (c : Candidate) (index : ℕ) : Option Ranked :=
  let warm := c.load.serves req.model.name
  if warm || !(freeVram c).2 || plainNeed req.model req.task ≤ (freeVram c).1 then
    some ⟨c, index, warm, (freeVram c).1, c.load.serving.length⟩
  else none

/-- One candidate of the router's pass: how many satisfy the card constraint, and the best. -/
def routeCandidate (req : RouteRequest) (acc : ℕ × Option Ranked) (entry : Candidate × ℕ) :
    ℕ × Option Ranked :=
  if !cardOk entry.1 req then acc
  else
    match rankCandidate req entry.1 entry.2 with
    | none => (acc.1 + 1, acc.2)
    | some rank =>
      (acc.1 + 1, if acc.2.all fun best ↦ rank.betterThan best then some rank else acc.2)

def noCardMessage : String := "no node meets the card/tier requirement"

/-- `route`. -/
def route (candidates : List Candidate) (req : RouteRequest) : Except RouteError RouteChoice :=
  if candidates.isEmpty then .error .noCandidates
  else
    let pass := candidates.zipIdx.foldl (routeCandidate req) (0, none)
    match pass.2 with
    | some rank =>
      let name := rank.candidate.node.name
      .ok ⟨rank.index, name, rank.warm, rank.free,
        if rank.warm then
          "'" ++ name ++ "' already serves " ++ req.model.name ++
            " — delegating warm (no reload)"
        else "'" ++ name ++ "' is the least-loaded eligible node (" ++
          (gib rank.free).fixed 1 ++ " GiB free)"⟩
    | none =>
      if pass.1 = 0 then .error (.noneEligible noCardMessage)
      else .error (.noneEligible (toString pass.1 ++
        " node(s) meet the card requirement but none can hold " ++ req.model.name))

/-! ## What is chosen -/

section Choice

variable {candidates : List Candidate} {req : RouteRequest}

/-- A candidate that the router may choose: its card satisfies the request, and the model is there
or there is room for it, as far as the VRAM is known. -/
structure Candidate.Suits (c : Candidate) (req : RouteRequest) : Prop where
  card : cardOk c req = true
  room : c.load.serves req.model.name = true ∨ (freeVram c).2 = false ∨
    plainNeed req.model req.task ≤ (freeVram c).1

def Candidate.rankOf (c : Candidate) (req : RouteRequest) (index : ℕ) : Ranked :=
  ⟨c, index, c.load.serves req.model.name, (freeVram c).1, c.load.serving.length⟩

theorem rankCandidate_eq_some_iff {c : Candidate} {index : ℕ} {rank : Ranked}
    (hcard : cardOk c req = true) :
    rankCandidate req c index = some rank ↔ c.Suits req ∧ rank = c.rankOf req index := by
  have hroom : (c.load.serves req.model.name || !(freeVram c).2 ||
      decide (plainNeed req.model req.task ≤ (freeVram c).1)) = true ↔ c.Suits req := by
    rw [Bool.or_eq_true, Bool.or_eq_true, Bool.not_eq_true', decide_eq_true_eq, or_assoc]
    exact ⟨fun h ↦ ⟨hcard, h⟩, Candidate.Suits.room⟩
  unfold rankCandidate
  dsimp only
  split
  · rename_i hsome
    rw [Option.some.injEq]
    exact ⟨fun heq ↦ ⟨hroom.mp hsome, heq.symm⟩, fun h ↦ h.2.symm⟩
  · rename_i hnone
    exact ⟨nofun, fun h ↦ absurd (hroom.mpr h.1) hnone⟩

/-- The candidates that suit the request, by rank. -/
def suitable (req : RouteRequest) (entries : List (Candidate × ℕ)) : List Ranked :=
  entries.filterMap fun entry ↦
    if cardOk entry.1 req then rankCandidate req entry.1 entry.2 else none

/-- The router's pass keeps the best of the candidates that suit the request. -/
theorem foldl_routeCandidate (entries : List (Candidate × ℕ)) (acc : ℕ × Option Ranked) :
    (entries.foldl (routeCandidate req) acc).2 =
      (suitable req entries).foldl (challenge Ranked.betterThan) acc.2 := by
  induction entries generalizing acc with
  | nil => rfl
  | cons entry rest ih =>
    rw [List.foldl_cons, ih]
    unfold suitable
    rw [List.filterMap_cons]
    cases hcard : cardOk entry.1 req with
    | false => simp [routeCandidate, hcard]
    | true =>
      cases hrank : rankCandidate req entry.1 entry.2 with
      | none => simp [routeCandidate, hcard, hrank]
      | some rank => simp [routeCandidate, hcard, hrank, challenge]

theorem mem_suitable {rank : Ranked} :
    rank ∈ suitable req candidates.zipIdx ↔
      ∃ c, candidates[rank.index]? = some c ∧ c.Suits req ∧ rank = c.rankOf req rank.index := by
  simp only [suitable, List.mem_filterMap]
  constructor
  · rintro ⟨⟨c, index⟩, hmem, hsome⟩
    split at hsome
    · rename_i hcard
      obtain ⟨hsuits, rfl⟩ := (rankCandidate_eq_some_iff hcard).mp hsome
      exact ⟨c, List.mem_zipIdx_iff_getElem?.mp hmem, hsuits, rfl⟩
    · cases hsome
  · rintro ⟨c, hc, hsuits, hrank⟩
    refine ⟨(c, rank.index), List.mem_zipIdx_iff_getElem?.mpr hc, ?_⟩
    rw [if_pos hsuits.card]
    exact (rankCandidate_eq_some_iff hsuits.card).mpr ⟨hsuits, hrank⟩

/-- Ranks are listed in the order of the candidates. -/
theorem pairwise_suitable :
    (suitable req candidates.zipIdx).Pairwise fun rank other ↦ rank.index < other.index := by
  unfold suitable
  rw [List.pairwise_filterMap]
  have hplaces : candidates.zipIdx.Pairwise fun entry other ↦ entry.2 < other.2 := by
    rw [List.pairwise_iff_getElem]
    intro i j hi hj hlt
    simpa using hlt
  refine hplaces.imp fun hlt rank hrank other hother ↦ ?_
  have hindex {entry : Candidate × ℕ} {rank : Ranked}
      (h : (if cardOk entry.1 req then rankCandidate req entry.1 entry.2 else none) = some rank) :
      rank.index = entry.2 := by
    split at h
    · rename_i hcard
      rw [((rankCandidate_eq_some_iff hcard).mp h).2]
      rfl
    · cases h
  rw [hindex hrank, hindex hother]
  exact hlt

def Ranked.key (rank : Ranked) : Bool ×ₗ ℕᵒᵈ ×ₗ ℕ :=
  toLex (!rank.warm, toLex (OrderDual.toDual rank.free, rank.endpoints))

theorem Ranked.betterThan_iff_key_lt (rank other : Ranked) :
    rank.betterThan other = true ↔ rank.key < other.key := by
  have hfree := ite_ne_iff_toLex_lt (a := OrderDual.toDual rank.free)
    (b := OrderDual.toDual other.free) (decide_eq_true_iff (p := rank.endpoints < other.endpoints))
  have hwarm := ite_ne_iff_toLex_lt (a := !rank.warm) (b := !other.warm) hfree
  rw [← ite_ne_flag] at hwarm
  exact hwarm

/-- The first of the best candidates that suit a request. -/
structure IsRouted (candidates : List Candidate) (req : RouteRequest) (index : ℕ) (c : Candidate) :
    Prop where
  mem : candidates[index]? = some c
  suits : c.Suits req
  best : ∀ other place, candidates[place]? = some other → other.Suits req →
    toLex ((c.rankOf req index).key, index) ≤ toLex ((other.rankOf req place).key, place)

theorem pass_eq_some_iff {rank : Ranked} :
    (candidates.zipIdx.foldl (routeCandidate req) (0, none)).2 = some rank ↔
      ∃ c, IsRouted candidates req rank.index c ∧ rank = c.rankOf req rank.index := by
  rw [foldl_routeCandidate]
  change champion Ranked.betterThan (suitable req candidates.zipIdx) = some rank ↔ _
  rw [champion_eq_some_iff Ranked.betterThan_iff_key_lt pairwise_suitable]
  constructor
  · rintro ⟨hmem, hleast⟩
    obtain ⟨c, hc, hsuits, hrank⟩ := mem_suitable.mp hmem
    refine ⟨c, ⟨hc, hsuits, fun other place hother hfits ↦ ?_⟩, hrank⟩
    rw [← hrank]
    exact hleast _ (mem_suitable.mpr ⟨other, hother, hfits, rfl⟩)
  · rintro ⟨c, ⟨hc, hsuits, hbest⟩, hrank⟩
    refine ⟨mem_suitable.mpr ⟨c, hc, hsuits, hrank⟩, fun item hitem ↦ ?_⟩
    obtain ⟨other, hother, hfits, hsame⟩ := mem_suitable.mp hitem
    rw [hrank, hsame]
    exact hbest other item.index hother hfits

/-- The router chooses the first of the best candidates that suit the request, and refuses exactly
when none does. -/
theorem route_suits_and_best (candidates : List Candidate) (req : RouteRequest) :
    (∀ choice, route candidates req = .ok choice →
      ∃ c, IsRouted candidates req choice.index c ∧ choice.nodeName = c.node.name ∧
        choice.warm = c.load.serves req.model.name ∧ choice.freeVramBytes = (freeVram c).1) ∧
    ((∃ e, route candidates req = .error e) ↔ ∀ c ∈ candidates, ¬ c.Suits req) := by
  have hpass := @pass_eq_some_iff candidates req
  unfold route
  cases hnone : candidates.isEmpty with
  | true =>
    rw [List.isEmpty_iff] at hnone
    subst hnone
    simp
  | false =>
    dsimp only
    rw [if_neg Bool.false_ne_true]
    cases hkept : (candidates.zipIdx.foldl (routeCandidate req) (0, none)).2 with
    | some rank =>
      obtain ⟨c, hrouted, hrank⟩ := hpass.mp hkept
      constructor
      · intro choice hchoice
        cases hchoice
        exact ⟨c, hrouted, congrArg (·.candidate.node.name) hrank, congrArg Ranked.warm hrank,
          congrArg Ranked.free hrank⟩
      · refine iff_of_false nofun fun hall ↦ ?_
        exact hall c (List.mem_of_getElem? hrouted.mem) hrouted.suits
    | none =>
      have hall : ∀ c ∈ candidates, ¬ c.Suits req := by
        intro c hc hsuits
        obtain ⟨index, hindex⟩ := List.mem_iff_getElem?.mp hc
        have hmem : c.rankOf req index ∈ suitable req candidates.zipIdx :=
          mem_suitable.mpr ⟨c, hindex, hsuits, rfl⟩
        rw [foldl_routeCandidate] at hkept
        rw [champion_eq_none_iff.mp hkept] at hmem
        cases hmem
      dsimp only
      constructor
      · intro choice hchoice
        split at hchoice
        · cases hchoice
        · cases hchoice
      · refine iff_of_true ?_ hall
        split
        · exact ⟨_, rfl⟩
        · exact ⟨_, rfl⟩

end Choice

end Cameo.Placement
