import Cameo.Placement.Fleet

/-!
# The card a node is judged by

The planner serves a model with the best card of a node, the first one of the best tier.  The gates
of the routers look at the first assessment instead, and the classifier keeps the order in which the
cards were detected.  The two agree on every request exactly when no card comes before a better one:
a machine that lists its APU first is turned away from work that its discrete card would do.
-/

namespace Cameo.Placement

/-! ## The gates -/

def cardSatisfies (card : Option TierAssessment) (task : Task) (minTier : Option UInt8) : Bool :=
  (task ≠ .training || card.any TierAssessment.trainingSupported) &&
    minTier.all fun t ↦ card.any fun assessment ↦ assessment.tier.asNumber ≤ t.toNat

/-- Every gate lets a node pass exactly when the card that `plan` would select satisfies the
request. -/
structure GatesAgree (node : NodeInfo) : Prop where
  route : ∀ load req, cardOk ⟨node, load⟩ req =
    cardSatisfies (topAssessment node.assessments) req.task req.minTier
  mesh : ∀ (mesh : MeshCandidate) (req : MeshRequest), mesh.node = node →
    cardOk mesh.placement req.placement =
      cardSatisfies (topAssessment node.assessments) req.placement.task req.placement.minTier
  fleet : ∀ task, fleetEligible task node =
    cardSatisfies (topAssessment node.assessments) task none

/-- `card_ok` asks the first card. -/
theorem cardOk_eq (c : Candidate) (req : RouteRequest) :
    cardOk c req = cardSatisfies c.node.assessments.head? req.task req.minTier := by
  unfold cardOk cardSatisfies NodeInfo.trainingCapable
  cases c.node.assessments.head? with
  | none => cases req.task <;> cases req.minTier <;> simp
  | some card => cases req.task <;> cases req.minTier <;> cases card.trainingSupported <;> simp

/-- `place_on_fleet` asks the first card. -/
theorem fleetEligible_eq (task : Task) (node : NodeInfo) :
    fleetEligible task node = cardSatisfies node.assessments.head? task none := by
  unfold fleetEligible cardSatisfies NodeInfo.trainingCapable
  cases node.assessments.head? with
  | none => cases task <;> simp
  | some card => cases task <;> simp

/-! ## The best card -/

/-- The selected card is one of the best tier. -/
theorem topAssessment_spec {assessments : List TierAssessment} {top : TierAssessment}
    (h : topAssessment assessments = some top) :
    top ∈ assessments ∧ ∀ card ∈ assessments, top.tier.asNumber ≤ card.tier.asNumber := by
  induction assessments generalizing top with
  | nil => cases h
  | cons card rest ih =>
    rw [topAssessment] at h
    split at h
    · rename_i hnone
      obtain rfl := Option.some.inj h
      have hempty : rest = [] := by
        cases rest with
        | nil => rfl
        | cons next later =>
          rw [topAssessment] at hnone
          split at hnone <;> cases hnone
      rw [hempty]
      simp
    · rename_i best hbest
      obtain ⟨hmem, hleast⟩ := ih hbest
      obtain rfl := Option.some.inj h
      split
      · rename_i hlt
        refine ⟨List.mem_cons_of_mem _ hmem, ?_⟩
        intro other hother
        rcases List.mem_cons.mp hother with rfl | hother
        · exact hlt.le
        · exact hleast other hother
      · rename_i hle
        refine ⟨List.mem_cons_self, ?_⟩
        intro other hother
        rcases List.mem_cons.mp hother with rfl | hother
        · exact le_rfl
        · exact (Nat.not_lt.mp hle).trans (hleast other hother)

/-- The first card is selected if no other has a better tier. -/
theorem topAssessment_cons {first : TierAssessment} {rest : List TierAssessment}
    (h : ∀ card ∈ rest, first.tier.asNumber ≤ card.tier.asNumber) :
    topAssessment (first :: rest) = some first := by
  rw [topAssessment]
  split
  · rfl
  · rename_i best hbest
    rw [if_neg (Nat.not_lt.mpr (h best (topAssessment_spec hbest).1))]

/-- Two cards that satisfy the same requests for a tier have the same tier. -/
theorem asNumber_eq_of_satisfies {left right : TierAssessment}
    (h : ∀ minTier, cardSatisfies (some left) .inference minTier =
      cardSatisfies (some right) .inference minTier) :
    left.tier.asNumber = right.tier.asNumber := by
  have hsatisfies (card : TierAssessment) (t : UInt8) :
      cardSatisfies (some card) .inference (some t) = decide (card.tier.asNumber ≤ t.toNat) := by
    simp [cardSatisfies]
  have hone := h (some 1)
  have htwo := h (some 2)
  rw [hsatisfies, hsatisfies] at hone htwo
  generalize left.tier = a at hone htwo ⊢
  generalize right.tier = b at hone htwo ⊢
  cases a <;> cases b <;> simp [Tier.asNumber] at hone htwo ⊢

/-- The gates agree with the planner on every request exactly when no card of the node has a better
tier than the first. -/
theorem gatesAgree_iff (node : NodeInfo) :
    GatesAgree node ↔ ∀ first ∈ node.assessments.head?, ∀ card ∈ node.assessments,
      first.tier.asNumber ≤ card.tier.asNumber := by
  constructor
  · intro h first hfirst card hcard
    cases htop : topAssessment node.assessments with
    | none =>
      cases hcards : node.assessments with
      | nil => simp [hcards] at hcard
      | cons head rest =>
        rw [hcards, topAssessment] at htop
        split at htop <;> cases htop
    | some top =>
      -- An idle candidate with a request for each tier tells the two cards apart.
      have hsame (minTier : Option UInt8) :
          cardSatisfies (some first) .inference minTier =
            cardSatisfies (some top) .inference minTier := by
        have hroute := h.route ⟨[], 0⟩ ⟨.dense "" .zero .f16, .inference, minTier⟩
        rw [cardOk_eq, htop, Option.mem_def.mp hfirst] at hroute
        exact hroute
      rw [asNumber_eq_of_satisfies hsame]
      exact (topAssessment_spec htop).2 card hcard
  · intro h
    have htop : topAssessment node.assessments = node.assessments.head? := by
      cases hcards : node.assessments with
      | nil => rfl
      | cons first rest =>
        rw [hcards] at h
        exact topAssessment_cons fun card hcard ↦
          h first rfl card (List.mem_cons_of_mem _ hcard)
    constructor
    · intro load req
      rw [cardOk_eq, htop]
    · rintro mesh req rfl
      rw [cardOk_eq, htop]
      rfl
    · intro task
      rw [fleetEligible_eq, htop]

/-! ## An APU before a discrete card -/

/-- A desktop as detection lists it: the APU first, then a discrete card of the first tier. -/
def mixedTopology : Topology where
  gpus := [
    ⟨.amd, some 512, some 0, some 8192, .shared, some "gfx1036"⟩,
    ⟨.amd, some 24576, some 0, none, .dedicated, some "gfx1100"⟩]
  links := []
  hostMem := some ⟨34359738368, 30064771072⟩

def mixedNode : NodeInfo :=
  ⟨"desktop", "10.0.0.2:9000", mixedTopology, classifyTopology mixedTopology embeddedOverrides, []⟩

/-- Every gate turns the desktop away, although its planner trains the model on the discrete card,
which is of the first tier. -/
theorem not_gatesAgree_mixed :
    let model := ModelMeta.dense "llama" (.ofNat 3) .q4_K_M
    cardOk ⟨mixedNode, ⟨[], 0⟩⟩ ⟨model, .training, none⟩ = false ∧
      cardOk ⟨mixedNode, ⟨[], 0⟩⟩ ⟨model, .inference, some 1⟩ = false ∧
      fleetEligible .training mixedNode = false ∧
      (plan mixedNode.topology mixedNode.assessments model .training
        ⟨none, none, none, none⟩).toOption.map PlacementPlan.backend = some .rocm ∧
      cardSatisfies (topAssessment mixedNode.assessments) .training (some 1) = true ∧
      ¬ GatesAgree mixedNode := by
  refine ⟨by decide +kernel, by decide +kernel, by decide +kernel, by decide +kernel,
    by decide +kernel, ?_⟩
  intro h
  have hfleet := h.fleet .training
  revert hfleet
  decide +kernel

end Cameo.Placement
