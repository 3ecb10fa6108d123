import Cameo.Hub.Booking
import Cameo.Placement.MeshChoice

/-!
# The models that are routed

The planner refuses a model whose parameter count is not positive or above its ceiling.  A dispatch
is sized with whatever count the client gives, and it is routed without the planner's check: a count
that the planner refuses goes through wherever any model of the client's request would.
-/

namespace Cameo.Hub

open Json Library Placement

/-! ## What the planner checks -/

/-- The parameter count that a request gives, if it does, is one that the planner accepts. -/
def DispatchBody.ParamsInRange (body : DispatchBody) : Prop :=
  ∀ params ∈ body.params, FloatValue.zero.lt (FloatValue.ofBits params.1) = true ∧
    (FloatValue.ofBits params.1).le maxParamsB = true

/-- The planner's check of a parameter count. -/
def PlannerAccepts (paramsB : F64) : Prop :=
  paramsB.isFinite = true ∧ paramsB.le .zero = false ∧ maxParamsB.lt paramsB = false

instance (paramsB : F64) : Decidable (PlannerAccepts paramsB) :=
  inferInstanceAs (Decidable (_ ∧ _ ∧ _))

/-- A description with the defaults of the source is valid if its parameter count is. -/
theorem validate_dense_iff (name : String) (paramsB : F64) (quant : QuantLevel) (isMoe : Bool) :
    ({ ModelMeta.dense name paramsB quant with isMoe := isMoe } : ModelMeta).validate = .ok () ↔
      PlannerAccepts paramsB := by
  have hlayers : ¬ (defaultLayers paramsB = 0 ∨ (defaultLayers paramsB).toNat > maxLayers) := by
    unfold defaultLayers
    split_ifs <;> decide
  unfold ModelMeta.validate ModelMeta.dense PlannerAccepts
  dsimp only
  by_cases hfinite : paramsB.isFinite = true
  · by_cases hzero : paramsB.le .zero = true
    · simp [hfinite, hzero]
    · by_cases hmax : maxParamsB.lt paramsB = true
      · simp [hfinite, hzero, hmax]
      · rw [if_neg (by simp [hfinite]), if_neg hzero, if_neg hmax, if_neg (by decide),
          if_neg (by decide), if_neg (by decide), if_neg (by decide), if_neg hlayers,
          if_neg (by decide), if_neg (by decide)]
        simp [hfinite, hzero, hmax]
  · simp [hfinite]

/-- The counts that the hub knows by name, and the one it assumes otherwise, are in range. -/
theorem plannerAccepts_assumed (name : String) :
    PlannerAccepts ((paramsBFor name).getD (.ofNat 7)) := by
  have hhalf : PlannerAccepts (.ofRatio 5 10) := by decide +kernel
  have hone : PlannerAccepts (.ofRatio 11 10) := by decide +kernel
  have hthree : PlannerAccepts (.ofNat 3) := by decide +kernel
  have hseven : PlannerAccepts (.ofNat 7) := by decide +kernel
  cases hknown : paramsBFor name with
  | none =>
    rw [Option.getD_none]
    exact hseven
  | some paramsB =>
    rw [Option.getD_some]
    unfold paramsBFor at hknown
    obtain ⟨entry, hfind, rfl⟩ := Option.map_eq_some_iff.mp hknown
    have hmem := List.mem_of_find?_eq_some hfind
    generalize (.ofRatio 5 10 : F64) = half at hhalf hmem
    generalize (.ofRatio 11 10 : F64) = one at hone hmem
    generalize (.ofNat 3 : F64) = three at hthree hmem
    simp only [List.mem_cons, List.not_mem_nil, or_false] at hmem
    rcases hmem with rfl | rfl | rfl
    · exact hhalf
    · exact hone
    · exact hthree

/-- The description of a request is valid exactly when the parameter count it gives is in range. -/
theorem validate_modelMeta_iff (body : DispatchBody) :
    body.modelMeta.validate = .ok () ↔ body.ParamsInRange := by
  have hmeta : body.modelMeta = { ModelMeta.dense body.model
      (((body.params.map fun bits ↦ FloatValue.ofBits bits.1).or (paramsBFor body.model)).getD
        (.ofNat 7)) ((QuantLevel.parse body.quant).getD .q4_K_M) with isMoe := body.moe } := by
    unfold DispatchBody.modelMeta
    cases body.moe with
    | false => rfl
    | true => rfl
  have hmax : ∃ units, maxParamsB = .finite false units := ⟨100000 * 2 ^ 1074, by decide +kernel⟩
  rw [hmeta, validate_dense_iff]
  unfold DispatchBody.ParamsInRange
  cases hparams : body.params with
  | none => simpa using plannerAccepts_assumed body.model
  | some params =>
    simp only [Option.map_some, Option.some_or, Option.getD_some, Option.mem_def,
      Option.some.injEq, forall_eq']
    obtain ⟨limit, hlimit⟩ := hmax
    unfold PlannerAccepts
    rw [hlimit]
    simp [FloatValue.ofBits, FloatValue.isFinite, FloatValue.le, FloatValue.lt, FloatValue.zero]

/-! ## Deadlines that nobody meets -/

/-- From so many units on an `f64` is infinite. -/
def infiniteUnits : ℕ := 2 ^ 53 * 2 ^ 2045

theorem fraction_lt {fraction : ℕ} (hfraction : fraction < 2 ^ 52) (top : ℕ) :
    fraction < 2 ^ 53 * 2 ^ top :=
  calc fraction < 2 ^ 53 := hfraction.trans (by decide)
    _ ≤ 2 ^ 53 * 2 ^ top := Nat.le_mul_of_pos_right _ (Nat.two_pow_pos top)

theorem significand_lt {fraction exponent top : ℕ} (hfraction : fraction < 2 ^ 52)
    (hexponent : exponent ≤ top) : (2 ^ 52 + fraction) * 2 ^ exponent < 2 ^ 53 * 2 ^ top :=
  calc (2 ^ 52 + fraction) * 2 ^ exponent
      ≤ (2 ^ 52 + fraction) * 2 ^ top :=
        Nat.mul_le_mul_left _ (Nat.pow_le_pow_right (by decide) hexponent)
    _ < 2 ^ 53 * 2 ^ top := Nat.mul_lt_mul_of_pos_right (by omega) (Nat.two_pow_pos _)

/-- The finite numbers that JSON can hold. -/
theorem ofBits_eq_finite (params : Value.FiniteF64) :
    ∃ negative units, FloatValue.ofBits params.1 = .finite negative units ∧
      units < infiniteUnits := by
  refine ⟨_, _, rfl, ?_⟩
  have hexponent : params.1 / 2 ^ 52 % 2 ^ 11 ≤ 2046 := by
    have hfinite := params.2
    simp only [isFiniteF64, Bool.and_eq_true, decide_eq_true_eq] at hfinite
    have hlt := Nat.mod_lt (params.1 / 2 ^ 52) (show 0 < 2 ^ 11 by decide)
    omega
  have hfraction : params.1 % 2 ^ 52 < 2 ^ 52 := Nat.mod_lt _ (by decide)
  generalize params.1 / 2 ^ 52 % 2 ^ 11 = exponent at hexponent
  generalize params.1 % 2 ^ 52 = fraction at hfraction
  unfold infiniteUnits
  split
  · exact fraction_lt hfraction _
  · exact significand_lt hfraction (by omega)

def IsSpeed (rate : F64) : Prop :=
  ∃ units, rate = .finite false units ∧ 0 < units ∧ units < infiniteUnits

theorem isSpeed_default : IsSpeed (.ofNat 20) :=
  ⟨20 * 2 ^ 1074, by decide +kernel, by decide +kernel, by decide +kernel⟩

theorem isSpeed_reportedSpeed (mesh : Option Value) : IsSpeed (reportedSpeed mesh) := by
  unfold reportedSpeed
  dsimp only
  generalize (mesh.bind (Value.get? "tokens_per_second")).bind Value.asF64 = reported
  cases hfilter : Option.filter (fun v : F64 ↦ v.isFinite && FloatValue.zero.lt v)
      (reported.map fun bits ↦ FloatValue.ofBits bits.1) with
  | none =>
    rw [Option.getD_none]
    exact isSpeed_default
  | some rate =>
    rw [Option.getD_some]
    obtain ⟨hmap, hpositive⟩ := Option.filter_eq_some_iff.mp hfilter
    obtain ⟨params, -, rfl⟩ := Option.map_eq_some_iff.mp hmap
    obtain ⟨negative, units, hunits, hbound⟩ := ofBits_eq_finite params
    rw [hunits] at hpositive ⊢
    have hlt : (0 : ℤ) < FloatValue.signed negative units := by
      simpa [FloatValue.isFinite, FloatValue.zero, FloatValue.lt, FloatValue.signed] using
        hpositive
    cases negative with
    | true =>
      have hsign : (0 : ℤ) < -(units : ℤ) := hlt
      omega
    | false => exact ⟨units, rfl, Int.ofNat_lt.mp hlt, hbound⟩

/-- Every completion takes two milliseconds: one until the first token comes and one after. -/
theorem two_le_predictedCompletionMs {mesh : MeshCandidate} (h : IsSpeed mesh.tokensPerSecond)
    (expectedTokens : UInt32) : 2 ≤ predictedCompletionMs mesh expectedTokens := by
  obtain ⟨units, hunits, hpos, hbound⟩ := h
  have hrate : 16 * units ≤ 2 ^ (⟨53, 1074, 1024⟩ : FloatFormat).unitBits *
      2 ^ (⟨53, 1074, 1024⟩ : FloatFormat).unitBits := by
    have hmax : 16 * infiniteUnits ≤ 2 ^ (⟨53, 1074, 1024⟩ : FloatFormat).unitBits *
        2 ^ (⟨53, 1074, 1024⟩ : FloatFormat).unitBits := by decide +kernel
    exact (Nat.mul_le_mul_left 16 hbound.le).trans hmax
  have hgeneration := (FloatValue.atLeast_thousandths (by decide) (by decide)
    (Nat.lt_of_lt_of_le Nat.zero_lt_one (le_max_right expectedTokens.toNat 1)) hpos
    hrate).one_le_ceilToUnsigned (show 1 ≤ u64Max by decide)
  have hfinite : mesh.tokensPerSecond.isFinite = true ∧
      FloatValue.zero.lt mesh.tokensPerSecond = true := by
    rw [hunits]
    exact ⟨rfl, decide_eq_true (Int.ofNat_lt.mpr hpos)⟩
  unfold predictedCompletionMs
  dsimp only
  rw [if_pos hfinite, hunits]
  generalize FloatValue.ceilToUnsigned u64Max _ = generation at hgeneration ⊢
  unfold saturatingMul saturatingAdd u64Max
  split_ifs <;> omega

/-! ## Whom nobody serves -/

/-- No node is eligible for the request, whatever the roster is. -/
def DispatchBody.IsUnroutable (body : DispatchBody) : Prop :=
  body.privacy = .localOnly ∨ body.deadlineMs = some 1

theorem parseNode_speed {nodeId : String} {desc : Value} {p : ParsedNode}
    (h : parseNode nodeId desc = some p) : IsSpeed p.tokensPerSecond := by
  unfold parseNode at h
  obtain ⟨topology, -, h⟩ := Option.bind_eq_some_iff.mp h
  obtain ⟨assessments, -, h⟩ := Option.bind_eq_some_iff.mp h
  obtain rfl := Option.some.inj h
  exact isSpeed_reportedSpeed _

theorem not_isUnroutable_of_decide {roster : List (String × Value)} {body : DispatchBody}
    {reservedByNode : Ordered.Map String ℕ} {dispatch : Dispatch}
    (h : decideWithReserved roster body reservedByNode = .ok dispatch) : ¬ body.IsUnroutable := by
  obtain ⟨p, rank, hp, hrank, -⟩ := decideWithReserved_eq_ok h
  have hadmissible := (MeshCandidate.rank?_eq_some_iff.mp hrank).1
  rintro (hlocal | hdeadline)
  · exact Bool.false_ne_true (hadmissible.privacy hlocal)
  · obtain ⟨entry, -, hparse⟩ := List.mem_filterMap.mp (List.mem_of_getElem? hp)
    have hlate := hadmissible.deadline 1 hdeadline
    have htwo := @two_le_predictedCompletionMs (p.candidate reservedByNode)
      (parseNode_speed hparse) body.meshRequest.expectedOutputTokens
    omega

def Decided (book : AdmissionBook) : Prop :=
  ∀ key item, book.byRequest.get? key = some item →
    ∃ body roster reservedByNode dispatch, item.fingerprint = body.toValue ∧
      decideWithReserved roster body reservedByNode = .ok dispatch

theorem decided_step {book : AdmissionBook} (h : Decided book) (op : BookOp) :
    Decided (bookStep book op) := by
  intro key item hrow
  cases op with
  | admitRequest now roster body =>
    have hlive : Decided (book.live now) := fun key item hrow ↦ h key item (get?_live.mp hrow).1
    have hadmits := admits_admitRequest now roster body book
    change (book.admitRequest now roster body).2.byRequest.get? key = some item at hrow
    generalize (book.admitRequest now roster body).1 = result at hadmits
    generalize (book.admitRequest now roster body).2 = after at hadmits hrow
    cases hadmits with
    | replayed hfound hsame => exact hlive key item hrow
    | conflict hfound hdiffers message => exact hlive key item hrow
    | refused hnew e => exact hlive key item hrow
    | advised hnew dispatch => exact hlive key item hrow
    | @granted hnew hexecute dispatch hdispatch =>
      rw [AdmissionBook.grant, Ordered.Map.get?_insert] at hrow
      split at hrow
      · obtain rfl := Option.some.inj hrow
        exact ⟨body, roster, _, dispatch, rfl, hdispatch⟩
      · exact hlive key item hrow
  | finish admissionId success =>
    simp only [bookStep, AdmissionBook.finish] at hrow
    split at hrow
    · rename_i entry hentry
      rw [Ordered.Map.get?_insert] at hrow
      split at hrow
      · obtain rfl := Option.some.inj hrow
        exact h entry.1 entry.2
          ((book.byRequest.mem_entries_iff _ _).mp (List.mem_of_find?_eq_some hentry))
      · exact h key item hrow
    · exact h key item hrow

/-- Whatever is answered to a request in a run of the book was decided for it. -/
theorem decided_of_admitRequest {ops : List BookOp} {now : Instant}
    {roster : List (String × Value)} {body : DispatchBody} {outcome : AdmissionOutcome}
    (h : ((Run.run bookStep .new ops).admitRequest now roster body).1 = .ok outcome) :
    ∃ roster reservedByNode dispatch,
      decideWithReserved roster body reservedByNode = .ok dispatch := by
  have hdecided : Decided (Run.run bookStep .new ops) :=
    Run.invariant_run_of_step Decided (fun _ op hbook ↦ decided_step hbook op) ops
      fun _ _ hrow ↦ by cases hrow
  generalize Run.run bookStep .new ops = book at h hdecided
  unfold AdmissionBook.admitRequest at h
  dsimp only at h
  split at h
  · rename_i existing hfound
    split at h
    · cases h
    · rename_i hsame
      obtain ⟨requestId, -, hrow⟩ := Option.bind_eq_some_iff.mp hfound
      obtain ⟨body', roster', reservedByNode, dispatch, hfingerprint, hdispatch⟩ :=
        hdecided _ _ (get?_live.mp hrow).1
      obtain rfl := DispatchBody.toValue_inj (hfingerprint.symm.trans (not_not.mp hsame))
      exact ⟨roster', reservedByNode, dispatch, hdispatch⟩
  · cases hdispatch : decideWithReserved roster body
        (activeReservedByNode (book.live now).byRequest) with
    | error e =>
      rw [hdispatch] at h
      cases h
    | ok dispatch => exact ⟨roster, _, dispatch, hdispatch⟩

/-! ## Whom one node serves -/

/-- The fastest speed that is a power of two. -/
def topSpeed : Value.FiniteF64 := ⟨2046 * 2 ^ 52, by decide +kernel⟩

/-- What a node reports of itself that is as fast as can be. -/
def openMeshFields (protocolMajor : UInt16) : List (String × Value) := [
  ("protocol_major", .nat protocolMajor.toNat), ("estimated_ttft_ms", .nat 1),
  ("tokens_per_second", .f64 topSpeed)]

def openMesh (protocolMajor : UInt16) : Value := .ofFields (openMeshFields protocolMajor)

/-- The fields of a paired node of the request's protocol that passes every other constraint. -/
def openFields (protocolMajor : UInt16) : List (String × Value) := [
  ("topology", .ofFields [("gpus", .array []), ("links", .array []), ("host_mem", .null)]),
  ("gpus", .array [.ofFields [
    ("gpu", cardValue), ("tier", .string "Tier1"), ("training_supported", .bool true),
    ("rationale", .string "gfx1100 is officially ROCm-supported.")]]),
  ("mesh", openMesh protocolMajor),
  ("_cameo_hub", .ofFields [("trust", .string "paired")])]

def openRoster (protocolMajor : UInt16) : List (String × Value) :=
  [("open-box", .ofFields (openFields protocolMajor))]

theorem get?_openFields (protocolMajor : UInt16) (field : String) :
    (Value.ofFields (openFields protocolMajor)).get? field =
      ((openFields protocolMajor).find? fun pair ↦ pair.1 = field).map Prod.snd := by
  have hnodup : ((openFields protocolMajor).map Prod.fst).Nodup :=
    (by decide : ["topology", "gpus", "mesh", "_cameo_hub"].Nodup)
  exact Value.get?_ofFields hnodup field

theorem get?_openMesh (protocolMajor : UInt16) (field : String) :
    (openMesh protocolMajor).get? field =
      ((openMeshFields protocolMajor).find? fun pair ↦ pair.1 = field).map Prod.snd := by
  have hnodup : ((openMeshFields protocolMajor).map Prod.fst).Nodup :=
    (by decide : ["protocol_major", "estimated_ttft_ms", "tokens_per_second"].Nodup)
  exact Value.get?_ofFields hnodup field

/-- What the node reports, as the hub reads it. -/
theorem reported_openMesh (protocolMajor : UInt16) :
    let mesh := some (openMesh protocolMajor)
    reportedSpeed mesh = FloatValue.ofBits topSpeed.1 ∧ reportedHealth mesh = .ready ∧
      ((mesh.bind (Value.get? "protocol_major")).bind Value.asU16).getD 1 = protocolMajor ∧
      ((mesh.bind (Value.get? "owner_reclaim")).bind Value.asBool).getD false = false ∧
      ((mesh.bind (Value.get? "inflight")).bind Value.asU32).getD 0 = 0 ∧
      ((mesh.bind (Value.get? "estimated_ttft_ms")).bind Value.asU64).getD 750 = 1 := by
  have hreport (field : String) : (some (openMesh protocolMajor)).bind (Value.get? field) =
      ((openMeshFields protocolMajor).find? fun pair ↦ pair.1 = field).map Prod.snd :=
    get?_openMesh protocolMajor field
  have hrate : ((openMeshFields protocolMajor).find? fun pair ↦ pair.1 = "tokens_per_second") =
      some ("tokens_per_second", .f64 topSpeed) := rfl
  have hnumber : ((openMeshFields protocolMajor).find? fun pair ↦ pair.1 = "protocol_major") =
      some ("protocol_major", .nat protocolMajor.toNat) := rfl
  have hpositive : ((FloatValue.ofBits topSpeed.1).isFinite &&
      FloatValue.zero.lt (FloatValue.ofBits topSpeed.1)) = true := by decide +kernel
  dsimp only
  refine ⟨?_, ?_, ?_, ?_, ?_, ?_⟩
  · unfold reportedSpeed
    dsimp only
    rw [hreport, hrate, Option.map_some, Option.bind_some, Value.asF64_f64, Option.map_some,
      Option.filter_some, if_pos hpositive, Option.getD_some]
  · unfold reportedHealth
    rw [hreport]
    rfl
  · rw [hreport, hnumber, Option.map_some, Option.bind_some, Value.asU16_nat, Option.getD_some]
  · rw [hreport]
    rfl
  · rw [hreport]
    rfl
  · rw [hreport]
    rfl

/-- What the hub makes of the node. -/
theorem parsedNodes_openRoster (protocolMajor : UInt16) :
    ∃ p, parsedNodes (openRoster protocolMajor) = [p] ∧ p.info.topology.gpus = [] ∧
      p.info.assessments.map (fun a ↦ (a.tier.asNumber, a.trainingSupported)) = [(1, true)] ∧
      p.trust = .paired ∧ p.health = .ready ∧ p.protocolMajor = protocolMajor ∧
      p.ownerReclaim = false ∧ p.inflight = 0 ∧ p.estimatedTtftMs = 1 ∧
      p.tokensPerSecond = FloatValue.ofBits topSpeed.1 := by
  have htopology : (Topology.fromValue (.ofFields [("gpus", .array []), ("links", .array []),
      ("host_mem", .null)])).map Topology.gpus = some [] := by decide +kernel
  have hassessments : (Value.asList TierAssessment.fromValue (.array [.ofFields [
      ("gpu", cardValue), ("tier", .string "Tier1"), ("training_supported", .bool true),
      ("rationale", .string "gfx1100 is officially ROCm-supported.")]])).map
        (List.map fun a ↦ (a.tier.asNumber, a.trainingSupported)) = some [(1, true)] := by
    decide +kernel
  obtain ⟨topology, htopology, hgpus⟩ := Option.map_eq_some_iff.mp htopology
  obtain ⟨assessments, hassessments, hcards⟩ := Option.map_eq_some_iff.mp hassessments
  have hget := get?_openFields protocolMajor
  have hmesh : (Value.ofFields (openFields protocolMajor)).get? "mesh" =
      some (openMesh protocolMajor) := hget "mesh"
  obtain ⟨hspeed, hhealth, hmajor, hreclaim, hinflight, httft⟩ := reported_openMesh protocolMajor
  have htrust : describedTrust (.ofFields (openFields protocolMajor)) = .paired := by
    unfold describedTrust
    rw [show (Value.ofFields (openFields protocolMajor)).get? "_cameo_hub" = some _ from
      hget "_cameo_hub"]
    decide +kernel
  unfold parsedNodes openRoster
  rw [List.filterMap_cons, List.filterMap_nil]
  unfold parseNode
  rw [show (Value.ofFields (openFields protocolMajor)).get? "topology" = some _ from
    hget "topology", Option.bind_some, htopology,
    show (Value.ofFields (openFields protocolMajor)).get? "gpus" = some _ from hget "gpus",
    Option.bind_some, hassessments, hmesh]
  exact ⟨_, rfl, hgpus, hcards, htrust, hhealth, hmajor, hreclaim, hinflight, httft, hspeed⟩

/-- What the validation of a request says of its tiers, tokens and deadline. -/
theorem DispatchBody.of_validate {body : DispatchBody} (h : body.validate = .ok ()) :
    (∀ tier ∈ body.minTier, 1 ≤ tier.toNat) ∧ body.expectedOutputTokens.toNat ≤ 1000000 ∧
      body.deadlineMs ≠ some 0 := by
  unfold validate at h
  obtain ⟨-, h⟩ := Library.ite_error_eq_ok.mp h
  obtain ⟨-, h⟩ := Library.ite_error_eq_ok.mp h
  obtain ⟨-, h⟩ := Library.ite_error_eq_ok.mp h
  obtain ⟨htier, h⟩ := Library.ite_error_eq_ok.mp h
  obtain ⟨-, h⟩ := Library.ite_error_eq_ok.mp h
  obtain ⟨-, h⟩ := Library.ite_error_eq_ok.mp h
  obtain ⟨htokens, h⟩ := Library.ite_error_eq_ok.mp h
  obtain ⟨hdeadline, -⟩ := Library.ite_error_eq_ok.mp h
  refine ⟨?_, ?_, hdeadline⟩
  · intro tier hmem
    rw [Option.mem_def.mp hmem, Option.any_some, Bool.not_eq_true, Bool.or_eq_false_iff] at htier
    exact UInt8.le_iff_toNat_le.mp (UInt8.not_lt.mp (of_decide_eq_false htier.1))
  · exact UInt32.le_iff_toNat_le.mp (UInt32.not_lt.mp (not_or.mp htokens).2)

/-- At the top speed a million tokens take no more than a millisecond. -/
theorem predictedCompletionMs_le_two {mesh : MeshCandidate} {expectedTokens : UInt32}
    (hspeed : mesh.tokensPerSecond = FloatValue.ofBits topSpeed.1) (hhealth : mesh.health = .ready)
    (hinflight : mesh.inflight = 0) (httft : mesh.estimatedTtftMs = 1)
    (htokens : expectedTokens.toNat ≤ 1000000) :
    predictedCompletionMs mesh expectedTokens ≤ 2 := by
  obtain ⟨units, hunits, hpos, hrate⟩ : ∃ units, FloatValue.ofBits topSpeed.1 =
      .finite false units ∧ 0 < units ∧ 2 ^ 22 * (2 ^ (⟨53, 1074, 1024⟩ : FloatFormat).unitBits *
        2 ^ (⟨53, 1074, 1024⟩ : FloatFormat).unitBits) ≤ units * 2 ^ 73 :=
    ⟨2 ^ 52 * 2 ^ 2045, by decide +kernel, by decide +kernel, by decide +kernel⟩
  have hmax : max expectedTokens.toNat 1 < 2 ^ 20 := by omega
  have hgeneration := @FloatValue.AtMost.ceilToUnsigned_le_one _ u64Max _
    (FloatValue.atMost_thousandths (by decide) (by decide) (by decide) hmax hpos hrate)
  have hfinite : mesh.tokensPerSecond.isFinite = true ∧
      FloatValue.zero.lt mesh.tokensPerSecond = true := by
    rw [hspeed, hunits]
    exact ⟨rfl, decide_eq_true (Int.ofNat_lt.mpr hpos)⟩
  unfold predictedCompletionMs
  dsimp only
  rw [if_pos hfinite, hspeed, hunits, hhealth, hinflight, httft]
  generalize FloatValue.ceilToUnsigned u64Max _ = generation at hgeneration ⊢
  have hzero : (0 : UInt32).toNat = 0 := rfl
  rw [hzero, if_neg (by decide), if_neg (by decide)]
  unfold saturatingMul saturatingAdd u64Max
  omega

/-- The node passes every constraint of a valid request that some node can serve. -/
theorem admissible_openRoster {body : DispatchBody} (hvalid : body.validate = .ok ())
    (hroutable : ¬ body.IsUnroutable) {p : ParsedNode}
    (hp : parsedNodes (openRoster body.protocolMajor) = [p])
    (reservedByNode : Ordered.Map String ℕ) :
    (p.candidate reservedByNode).Admissible body.meshRequest := by
  obtain ⟨p', hp', hgpus, hcards, htrust, hhealth, hmajor, hreclaim, hinflight, httft, hspeed⟩ :=
    parsedNodes_openRoster body.protocolMajor
  obtain rfl : p = p' := (List.cons.inj (hp.symm.trans hp')).1
  obtain ⟨htier, htokens, hdeadline⟩ := DispatchBody.of_validate hvalid
  obtain ⟨hpool, hlate⟩ := not_or.mp hroutable
  obtain ⟨card, rest, hassessments, hcard, -⟩ := List.map_eq_cons_iff.mp hcards
  obtain ⟨hnumber, htraining⟩ := Prod.mk.inj hcard
  refine ⟨Or.inl htrust, Or.inl hhealth, hreclaim, hmajor, fun hlocal ↦ absurd hlocal hpool, ?_,
    Or.inr (Or.inl ?_), ?_⟩
  · have hcapable : (p.candidate reservedByNode).placement.node.trainingCapable = true := by
      change ((p.info.assessments.head?).map TierAssessment.trainingSupported).getD false = true
      rw [hassessments]
      exact htraining
    unfold cardOk
    rw [if_neg (by simp [hcapable])]
    cases hmin : body.meshRequest.placement.minTier with
    | none => rfl
    | some tier =>
      have hle : card.tier.asNumber ≤ tier.toNat := by
        rw [hnumber]
        exact htier tier hmin
      change ((p.info.assessments.head?).map fun a ↦
        decide (a.tier.asNumber ≤ tier.toNat)).getD false = true
      rw [hassessments]
      exact decide_eq_true hle
  · change (!p.info.topology.gpus.isEmpty && _) = false
    rw [hgpus]
    rfl
  · intro deadlineMs hsome
    have htwo := @predictedCompletionMs_le_two (p.candidate reservedByNode) _ hspeed hhealth
      hinflight httft htokens
    have hsome' : body.deadlineMs = some deadlineMs := hsome
    rw [hsome'] at hdeadline hlate
    have hzero : deadlineMs ≠ 0 := fun h ↦ hdeadline (congrArg some h)
    have hone : deadlineMs ≠ 1 := fun h ↦ hlate (congrArg some h)
    exact htwo.trans (by omega)

/-! ## What is routed -/

/-- An empty book routes whatever request the roster has an eligible node for. -/
theorem exists_admitRequest_new_eq_ok {roster : List (String × Value)} {body : DispatchBody}
    {mesh : MeshCandidate} (now : Instant)
    (hmem : mesh ∈ candidates roster (activeReservedByNode Ordered.Map.empty))
    (h : mesh.Admissible body.meshRequest) :
    ∃ outcome, (AdmissionBook.new.admitRequest now roster body).1 = .ok outcome := by
  have hempty : (AdmissionBook.new.live now).byRequest = .empty := rfl
  have hnew : body.requestId.bind (AdmissionBook.new.live now).byRequest.get? = none := by
    rw [hempty]
    cases body.requestId with
    | none => rfl
    | some requestId => rfl
  obtain ⟨choice, hroute⟩ := exists_routeMesh_eq_ok hmem h
  have hdispatch : decideWithReserved roster body
      (activeReservedByNode (AdmissionBook.new.live now).byRequest) =
        .ok ⟨choice, choice.nodeId⟩ := by
    rw [hempty]
    unfold decideWithReserved
    rw [hroute]
    rfl
  have hroom : ¬ (AdmissionBook.new.live now).byRequest.size ≥ maxAdmissions := by
    rw [hempty]
    decide
  unfold AdmissionBook.admitRequest
  dsimp only
  rw [hnew, hdispatch]
  dsimp only
  rw [if_neg hroom]
  split
  · exact ⟨_, rfl⟩
  · exact ⟨_, rfl⟩

/-- A valid request that some node can serve is routed to the node of the open roster. -/
theorem exists_admitRequest_openRoster {body : DispatchBody} (hvalid : body.validate = .ok ())
    (hroutable : ¬ body.IsUnroutable) :
    ∃ outcome, (AdmissionBook.new.admitRequest 0 (openRoster body.protocolMajor) body).1 =
      .ok outcome := by
  obtain ⟨p, hp, -⟩ := parsedNodes_openRoster body.protocolMajor
  have hmem : p.candidate (activeReservedByNode .empty) ∈
      candidates (openRoster body.protocolMajor) (activeReservedByNode .empty) := by
    unfold candidates
    rw [hp]
    exact List.mem_singleton_self _
  exact exists_admitRequest_new_eq_ok 0 hmem (admissible_openRoster hvalid hroutable hp _)

/-- Whatever the roster and the history of the book are, the hub routes a request only if its model
is valid. -/
def DispatchBody.RoutedOnlyIfValid (body : DispatchBody) : Prop :=
  ∀ (ops : List BookOp) (now : Instant) (roster : List (String × Value))
    (outcome : AdmissionOutcome),
    ((Run.run bookStep .new ops).admitRequest now roster body).1 = .ok outcome →
      body.modelMeta.validate = .ok ()

/-- For a request that the hub accepts: its model is routed only if it is valid exactly when the
parameter count that it gives is in range or nobody can serve it. -/
theorem routedOnlyIfValid_iff (body : DispatchBody) (hbody : body.validate = .ok ()) :
    body.RoutedOnlyIfValid ↔ body.ParamsInRange ∨ body.IsUnroutable := by
  constructor
  · intro h
    by_cases hroutable : body.IsUnroutable
    · exact Or.inr hroutable
    · obtain ⟨outcome, hok⟩ := exists_admitRequest_openRoster hbody hroutable
      exact Or.inl ((validate_modelMeta_iff body).mp (h [] 0 _ outcome hok))
  · rintro (hparams | hunroutable) ops now roster outcome hok
    · exact (validate_modelMeta_iff body).mpr hparams
    · obtain ⟨roster', reservedByNode, dispatch, hdispatch⟩ := decided_of_admitRequest hok
      exact absurd hunroutable (not_isUnroutable_of_decide hdispatch)

theorem chatBody_routedOnlyIfValid : chatBody.RoutedOnlyIfValid ↔
    chatBody.ParamsInRange ∨ chatBody.IsUnroutable :=
  routedOnlyIfValid_iff chatBody (by decide +kernel)

/-- A request for a model without parameters. -/
def weightlessBody : DispatchBody := { chatBody with params := some ⟨0, by decide⟩ }

/-- The hub accepts the request and routes it to the only node there is, and the planner refuses
its model. -/
theorem weightless_model_is_routed : weightlessBody.validate = .ok () ∧
    ¬ (∀ (roster : List (String × Value)) (outcome : AdmissionOutcome),
      (AdmissionBook.new.admitRequest 0 roster weightlessBody).1 = .ok outcome →
        weightlessBody.modelMeta.validate = .ok ()) := by
  have hrouted : ((AdmissionBook.new.admitRequest 0 cpuRoster weightlessBody).1.toOption).isSome =
      true := by decide +kernel
  have hinvalid : weightlessBody.modelMeta.validate ≠ .ok () := by decide +kernel
  refine ⟨by decide +kernel, fun h ↦ ?_⟩
  cases hresult : (AdmissionBook.new.admitRequest 0 cpuRoster weightlessBody).1 with
  | error e =>
    rw [hresult] at hrouted
    cases hrouted
  | ok outcome => exact hinvalid (h cpuRoster outcome hresult)

end Cameo.Hub
