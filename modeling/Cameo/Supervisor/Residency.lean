import Cameo.Supervisor.Effects

/-!
# VRAM residency

Sums of `vram_bytes` over the tracked endpoints, and what starts and restarts do to them.

Admission counts the unleased endpoints that run.  Two kinds of endpoints escape its sum: leased
ones, so that the total after a start can exceed the budget although admission was satisfied; and
exited ones that await their restart, which take their VRAM back later without admission.
-/

namespace Cameo.Supervisor

open Library Store

def vramWhere (p : Endpoint → Bool) (map : EndpointMap) : ℕ :=
  map.total fun endpoint ↦ if p endpoint then endpoint.vramBytes else 0

/-- The VRAM of the endpoints with a running process. -/
def liveVram (map : EndpointMap) : ℕ := vramWhere Endpoint.processRunning map

/-- The VRAM of the endpoints that run or await their restart. -/
def capacityVram (map : EndpointMap) : ℕ := vramWhere Endpoint.holdsCapacity map

/-- A disjoint union of predicates adds up. -/
theorem vramWhere_split {p q r : Endpoint → Bool} (map : EndpointMap)
    (h : ∀ endpoint ∈ map.entries, r endpoint = (p endpoint || q endpoint))
    (hdisjoint : ∀ endpoint ∈ map.entries, (p endpoint && q endpoint) = false) :
    vramWhere r map = vramWhere p map + vramWhere q map := by
  unfold vramWhere
  rw [← Keyed.Table.total_add]
  apply Keyed.Table.total_congr
  intro endpoint hmem
  have hunion := h endpoint hmem
  have hnotBoth := hdisjoint endpoint hmem
  cases hp : p endpoint <;> cases hq : q endpoint <;> simp_all

theorem vramWhere_retain (p keep : Endpoint → Bool) (map : EndpointMap) :
    vramWhere p (map.retain keep) = vramWhere (fun endpoint ↦ keep endpoint && p endpoint) map := by
  rw [vramWhere, Keyed.Table.total_retain]
  apply Keyed.Table.total_congr
  intro endpoint _
  cases hkeep : keep endpoint <;> simp [hkeep]

theorem vramWhere_insert (p : Endpoint → Bool) (map : EndpointMap) (new : Endpoint) :
    vramWhere p (map.insert new) =
      vramWhere (fun endpoint ↦ endpoint.id ≠ new.id && p endpoint) map +
        if p new then new.vramBytes else 0 := by
  rw [vramWhere, Keyed.Table.total_insert, Keyed.Table.erase, ← vramWhere_retain]
  rfl

/-- Endpoints matched by id, with the same VRAM and a weaker predicate, sum to less. -/
theorem vramWhere_le_of_kept {p q : Endpoint → Bool} {before after : EndpointMap}
    (h : ∀ endpoint ∈ after.entries, p endpoint = true →
      ∃ old ∈ before.entries, Endpoint.Kept old endpoint ∧ q old = true) :
    vramWhere p after ≤ vramWhere q before := by
  apply Keyed.Table.total_le_of_matched
  intro endpoint hmem hweight
  have hp : p endpoint = true := by
    by_contra hnot
    simp [hnot] at hweight
  obtain ⟨old, hold, hkept, hq⟩ := h endpoint hmem hp
  exact ⟨old, hold, hkept.id.symm, by simp [hp, hq, hkept.vramBytes]⟩

theorem vramWhere_mono {p q : Endpoint → Bool} {map : EndpointMap}
    (h : ∀ endpoint ∈ map.entries, p endpoint = true → q endpoint = true) :
    vramWhere p map ≤ vramWhere q map :=
  vramWhere_le_of_kept fun endpoint hmem hp ↦ ⟨endpoint, hmem, .refl endpoint, h endpoint hmem hp⟩

/-! ## What admission counts -/

/-- The other endpoints that run, are not leased, and are not among the victims. -/
def keptUnleased (id : String) (leased victims : List String) (endpoint : Endpoint) : Bool :=
  !victims.contains endpoint.id &&
    (endpoint.id ≠ id && endpoint.processRunning && !leased.contains endpoint.id)

def keptLeased (id : String) (leased : List String) (endpoint : Endpoint) : Bool :=
  endpoint.id ≠ id && endpoint.processRunning && leased.contains endpoint.id

/-- The residents admission keeps, as a sum over the endpoint map. -/
theorem keptVram_countedResidents (req : StartRequest) (leased victims : List String)
    (map : EndpointMap) :
    keptVram (countedResidents req leased map) victims =
      vramWhere (keptUnleased req.id leased victims) map := by
  unfold keptVram countedResidents excludeLeasedResidents residentsOf sumVram vramWhere
    Keyed.Table.total
  induction map.entries with
  | nil => rfl
  | cons endpoint rest ih =>
    unfold keptUnleased at ih ⊢
    by_cases hid : endpoint.id = req.id
    · simpa [hid] using ih
    · cases hrunning : endpoint.processRunning with
      | false => simpa [hid, hrunning] using ih
      | true =>
        by_cases hzero : endpoint.vramBytes = 0
        · simpa [hid, hrunning, hzero] using ih
        · have hpos : 0 < endpoint.vramBytes := Nat.pos_of_ne_zero hzero
          by_cases hleased : endpoint.id ∈ leased <;> by_cases hvictim : endpoint.id ∈ victims <;>
            simpa [hid, hrunning, hpos, hleased, hvictim] using ih

theorem nodup_countedResidents (req : StartRequest) (leased : List String) (map : EndpointMap) :
    ((countedResidents req leased map).map ResidentVram.id).Nodup := by
  refine map.nodup.sublist ?_
  unfold countedResidents excludeLeasedResidents residentsOf
  refine (List.filter_sublist.map _).trans ?_
  rw [List.map_map]
  exact List.filter_sublist.map _

theorem sumVram_countedResidents (req : StartRequest) (leased : List String) (map : EndpointMap) :
    sumVram (countedResidents req leased map) ≤ liveVram map :=
  calc
    sumVram (countedResidents req leased map) = keptVram (countedResidents req leased map) [] :=
      (keptVram_nil _).symm
    _ = vramWhere (keptUnleased req.id leased []) map := keptVram_countedResidents req leased [] map
    _ ≤ liveVram map := by
      apply vramWhere_mono
      intro endpoint _ hkeeps
      simp only [keptUnleased, Bool.and_eq_true] at hkeeps
      exact hkeeps.2.1.2

/-- A victim runs and is not leased. -/
theorem victim_not_leased {req : StartRequest} {leased : List String} {map : EndpointMap}
    {id : String}
    (h : id ∈ (admitVram req.vramBudget req.vramNeed (countedResidents req leased map)).victims) :
    id ∉ leased ∧ id ≠ req.id ∧ ∃ endpoint ∈ map.entries, endpoint.id = id ∧
      endpoint.processRunning = true := by
  obtain ⟨resident, hmem, rfl⟩ := mem_victims h
  simp only [countedResidents, excludeLeasedResidents, residentsOf, List.mem_filter, List.mem_map]
    at hmem
  obtain ⟨⟨endpoint, ⟨hmem, hresident⟩, rfl⟩, hunleased⟩ := hmem
  simp only [Bool.and_eq_true, decide_eq_true_eq] at hresident
  exact ⟨by simpa using hunleased, hresident.1.1, endpoint, hmem, rfl, hresident.1.2⟩

/-! ## A successful start -/

/-- The endpoint map as admission sees it: after the refreshes of the port check and of admission
itself. -/
def admissionMap (req : StartRequest) (io : StartIo) (sup : Supervisor) : EndpointMap :=
  (refreshAll io.residents (checkPort req io sup.endpoints).map).map

theorem admissionMap_congr {req other : StartRequest} (hid : req.id = other.id)
    (hport : req.port = other.port) (io : StartIo) (sup : Supervisor) :
    admissionMap req io sup = admissionMap other io sup := by
  simp only [admissionMap, checkPort, hid, hport]

def admission (req : StartRequest) (io : StartIo) (sup : Supervisor) : Admission :=
  admitVram req.vramBudget req.vramNeed
    (countedResidents req (leasedIds sup.leases) (admissionMap req io sup))

/-- The VRAM the new process holds once the start has looked at it. -/
def launchedVram (req : StartRequest) (io : StartIo) : ℕ :=
  if ((newEndpoint req io).refresh io.view).1.processRunning then req.vramNeed else 0

/-- The victims of a successful start with a known budget, and the map they are taken from. -/
theorem decided_ok {req : StartRequest} {io : StartIo} {sup : Supervisor} {victims : List String}
    (hbudget : req.vramBudget > 0) (hneed : req.vramNeed > 0)
    (h : (decided req io sup).result = .ok victims) :
    admission req io sup ≠ .refuse ∧ victims = (admission req io sup).victims ∧
      (victims ≠ [] → req.allowEvict = true) ∧
      (decided req io sup).map = admissionMap req io sup := by
  unfold decided at h ⊢
  rcases arbitrate_cases io (leasedIds sup.leases) (checkPort req io sup.endpoints).map hbudget
    hneed with
    ⟨hdecision, hconsent, hstage⟩ | ⟨ids, -, -, hstage⟩ | ⟨-, message, hstage | hstage⟩
  · rw [hstage] at h ⊢
    cases h
    refine ⟨hdecision, rfl, ?_, rfl⟩
    intro hvictims
    cases hcase : admission req io sup with
    | evict ids => exact hconsent ids hcase
    | admitted =>
      change (admission req io sup).victims ≠ [] at hvictims
      rw [hcase] at hvictims
      exact absurd rfl hvictims
    | refuse =>
      change (admission req io sup).victims ≠ [] at hvictims
      rw [hcase] at hvictims
      exact absurd rfl hvictims
  · rw [hstage] at h
    cases h
  · rw [hstage] at h
    cases h
  · rw [hstage] at h
    cases h

/-- A request that names victims does not fit beside the unleased endpoints. -/
theorem budget_lt_of_victims {req : StartRequest} {io : StartIo} {sup : Supervisor}
    {victims : List String} (h : (decided req io sup).result = .ok victims) (hne : victims ≠ []) :
    0 < req.vramBudget ∧ 0 < req.vramNeed ∧
      req.vramBudget < vramWhere (keptUnleased req.id (leasedIds sup.leases) [])
        (admissionMap req io sup) + req.vramNeed := by
  by_cases hknown : req.vramBudget > 0 ∧ req.vramNeed > 0
  · refine ⟨hknown.1, hknown.2, ?_⟩
    obtain ⟨hdecision, rfl, -, -⟩ := decided_ok hknown.1 hknown.2 h
    have hneed : req.vramNeed ≤ req.vramBudget := by
      by_contra hlarge
      exact hdecision ((admitVram_eq_refuse_iff _ _ _).mpr (not_le.mp hlarge))
    have hfull : ¬ saturatingAdd (usedVram (countedResidents req (leasedIds sup.leases)
        (admissionMap req io sup))) req.vramNeed ≤ req.vramBudget := by
      intro hfits
      refine hne ?_
      rw [admission, (admitVram_eq_admitted_iff _ hneed).mpr hfits]
      rfl
    rw [← keptVram_countedResidents, keptVram_nil]
    rw [usedVram_eq_min, saturatingAdd] at hfull
    omega
  · rw [decided, arbitrate_skipped hknown] at h
    cases h
    exact absurd rfl hne

theorem vramWhere_launched {req : StartRequest} {io : StartIo} {sup : Supervisor}
    {victims : List String} {out : Outcome (Except StartError Json.Value)}
    (h : Launched req io sup victims out) (p : Endpoint → Bool) :
    vramWhere p out.sup.endpoints =
      vramWhere (fun endpoint ↦ !victims.contains endpoint.id &&
          (endpoint.id ≠ req.id && p endpoint)) (decided req io sup).map +
        if p ((newEndpoint req io).refresh io.view).1 then req.vramNeed else 0 := by
  have hnew := Endpoint.kept_refresh io.view (newEndpoint req io)
  rw [h.endpoints, vramWhere_insert, vramWhere_retain, hnew.id, hnew.vramBytes]
  rfl

/-- After a successful start with a known budget, the live VRAM is that of the leased endpoints, of
the unleased ones admission kept, and of the new process. -/
theorem liveVram_start (codec : Codec) {req : StartRequest} {io : StartIo} {sup : Supervisor}
    {view : Json.Value} (h : (start codec req io sup).result = .ok view)
    (hbudget : req.vramBudget > 0) (hneed : req.vramNeed > 0) :
    liveVram (start codec req io sup).sup.endpoints =
      vramWhere (keptLeased req.id (leasedIds sup.leases)) (admissionMap req io sup) +
        keptVram (countedResidents req (leasedIds sup.leases) (admissionMap req io sup))
          (admission req io sup).victims +
        launchedVram req io := by
  obtain ⟨victims, hlaunched⟩ := start_ok codec h
  obtain ⟨-, rfl, -, hmap⟩ := decided_ok hbudget hneed hlaunched.decided
  rw [liveVram, vramWhere_launched hlaunched, hmap, keptVram_countedResidents, launchedVram]
  congr 1
  apply vramWhere_split
  · intro endpoint _
    have hdisjoint (hvictim : endpoint.id ∈ (admission req io sup).victims) :
        endpoint.id ∉ leasedIds sup.leases := (victim_not_leased hvictim).1
    by_cases hvictim : endpoint.id ∈ (admission req io sup).victims
    · simp [keptLeased, keptUnleased, hvictim, hdisjoint hvictim]
    · by_cases hleased : endpoint.id ∈ leasedIds sup.leases <;>
        simp [keptLeased, keptUnleased, hvictim, hleased]
  · intro endpoint _
    by_cases hleased : endpoint.id ∈ leasedIds sup.leases <;>
      simp [keptLeased, keptUnleased, hleased]

/-- As long as no sum saturates, the residents admission keeps fit beside the request. -/
theorem kept_fits {req : StartRequest} {io : StartIo} {sup : Supervisor} {victims : List String}
    (hbudget : req.vramBudget > 0) (hneed : req.vramNeed > 0) (hmax : req.vramBudget < u64Max)
    (hlive : liveVram (admissionMap req io sup) ≤ u64Max)
    (h : (decided req io sup).result = .ok victims) :
    keptVram (countedResidents req (leasedIds sup.leases) (admissionMap req io sup)) victims +
      req.vramNeed ≤ req.vramBudget := by
  obtain ⟨hdecision, rfl, -, -⟩ := decided_ok hbudget hneed h
  have hsum := (sumVram_countedResidents req (leasedIds sup.leases) _).trans hlive
  exact admitVram_kept_fits hmax hsum (nodup_countedResidents req _ _) hdecision

/-- A successful start with a known budget leaves the live VRAM within it exactly when the live
leased endpoints, which admission leaves out, fit into what the residents admission keeps and the
new process leave of the budget.  Those two are within the budget as long as no sum saturates. -/
theorem liveVram_start_le_budget_iff (codec : Codec) {req : StartRequest} {io : StartIo}
    {sup : Supervisor} {view : Json.Value} (h : (start codec req io sup).result = .ok view)
    (hbudget : req.vramBudget > 0) (hneed : req.vramNeed > 0) :
    let admitted := keptVram (countedResidents req (leasedIds sup.leases)
      (admissionMap req io sup)) (admission req io sup).victims + launchedVram req io
    (liveVram (start codec req io sup).sup.endpoints ≤ req.vramBudget ↔
      admitted ≤ req.vramBudget ∧
        vramWhere (keptLeased req.id (leasedIds sup.leases)) (admissionMap req io sup) ≤
          req.vramBudget - admitted) ∧
    (req.vramBudget < u64Max → liveVram (admissionMap req io sup) ≤ u64Max →
      admitted ≤ req.vramBudget) := by
  dsimp only
  constructor
  · rw [liveVram_start codec h hbudget hneed]
    omega
  · intro hmax hlive
    obtain ⟨victims, hlaunched⟩ := start_ok codec h
    have hfits := kept_fits hbudget hneed hmax hlive hlaunched.decided
    obtain ⟨-, rfl, -, -⟩ := decided_ok hbudget hneed hlaunched.decided
    have hlaunch : launchedVram req io ≤ req.vramNeed := by
      unfold launchedVram
      split <;> omega
    omega

/-- An endpoint of 8 that is ready and leased, with a budget of 16. -/
def leasedAlpha : List Label :=
  [.start (.simple "alpha" 8080 8 16 true) (.plain 0 ⟨101, 1⟩)] ++ healthyPass 1000000000 ++
    [.call (.lease "session" "alpha" (.plain 2000000000))]

/-- Beside the leased endpoint of 8, a model of 4 starts within the budget of 16. -/
theorem liveVram_start_le_budget_iff_leasedAlpha :
    let sup := ((Sys.fresh .default).run .constant leasedAlpha).sup
    liveVram (start .constant (.simple "beta" 8081 4 16 true)
      (.plain 3000000000 ⟨102, 2⟩) sup).sup.endpoints ≤ 16 :=
  (liveVram_start_le_budget_iff _ (by rfl) (by decide) (by decide)).1.mpr (by decide)

/-- Beside the leased endpoint of 8, a model of 10 is started too: 18 of 16 are in use. -/
theorem not_liveVram_start_le_budget :
    let sup := ((Sys.fresh .default).run .constant leasedAlpha).sup
    let out := start .constant (.simple "beta" 8081 10 16 true)
      (.plain 3000000000 ⟨102, 2⟩) sup
    out.result.toBool = true ∧ ¬ liveVram out.sup.endpoints ≤ 16 := by
  decide

/-! ## Automatic restarts -/

/-- The VRAM that other endpoints take back when they are restarted. -/
def awaitingVram (id : String) (map : EndpointMap) : ℕ :=
  vramWhere (fun endpoint ↦ endpoint.id ≠ id && endpoint.awaitsRestart) map

/-- Starts are made with one budget, while no lease exists. -/
def OneBudget (budget : ℕ) (sys : Sys) : Label → Prop
  | .start req _ => req.vramBudget = budget ∧ sys.sup.leases = .empty
  | .call _ => True

/-- The request fits beside the residents that are kept, and the endpoints that await their restart
fit into what is then left of the budget.  The first part follows from admission, unless the budget
is so large that the saturated sum never exceeds it. -/
def LeavesRoom (req : StartRequest) (map : EndpointMap) (victims : List String) : Prop :=
  let admitted := keptVram (residentsOf req.id map) victims + req.vramNeed
  (u64Max ≤ req.vramBudget → admitted ≤ req.vramBudget) ∧
    awaitingVram req.id map ≤ req.vramBudget - admitted

/-- The condition on a step: when a start that needs VRAM passes the port check and admission, it
leaves room for the endpoints that await their restart. -/
def RestartsFit (sys : Sys) : Label → Prop
  | .start req io => 0 < req.vramNeed → (checkPort req io sys.sup.endpoints).result = .ok () →
      ∀ victims, (decided req io sys.sup).result = .ok victims →
        LeavesRoom req (decided req io sys.sup).map victims
  | .call _ => True

/-- Operations on existing endpoints only ever free VRAM. -/
theorem capacityVram_le_of_kept {before after : EndpointMap}
    (h : ∀ endpoint ∈ after.entries, ∃ old ∈ before.entries, Endpoint.Kept old endpoint) :
    capacityVram after ≤ capacityVram before := by
  apply vramWhere_le_of_kept
  intro endpoint hmem hholds
  obtain ⟨old, hold, hkept⟩ := h endpoint hmem
  exact ⟨old, hold, hkept, hkept.capacity hholds⟩

theorem liveVram_le_capacityVram (map : EndpointMap) : liveVram map ≤ capacityVram map :=
  vramWhere_mono fun endpoint _ hrunning ↦ by simp [Endpoint.holdsCapacity, hrunning]

/-- Without leases, admission counts every other resident. -/
theorem countedResidents_unleased (req : StartRequest) (map : EndpointMap) :
    countedResidents req [] map = residentsOf req.id map :=
  List.filter_eq_self.mpr fun _ _ ↦ rfl

/-- The other endpoints that hold capacity are the kept residents and those awaiting a restart. -/
theorem capacityVram_others_le (id : String) (victims : List String) (map : EndpointMap) :
    vramWhere (fun endpoint ↦ !victims.contains endpoint.id &&
        (endpoint.id ≠ id && endpoint.holdsCapacity)) map ≤
      vramWhere (keptUnleased id [] victims) map + awaitingVram id map := by
  have hsplit := vramWhere_split map (p := keptUnleased id [] victims)
    (q := fun endpoint ↦ !victims.contains endpoint.id &&
      (endpoint.id ≠ id && endpoint.awaitsRestart))
    (r := fun endpoint ↦ !victims.contains endpoint.id &&
      (endpoint.id ≠ id && endpoint.holdsCapacity))
    (by
      intro endpoint _
      by_cases hvictim : endpoint.id ∈ victims <;> by_cases hid : endpoint.id = id <;>
        simp [keptUnleased, Endpoint.holdsCapacity, hvictim, hid])
    (by
      intro endpoint _
      cases hchild : endpoint.child <;>
        simp [keptUnleased, Endpoint.processRunning, Endpoint.awaitsRestart, hchild])
  rw [hsplit]
  apply Nat.add_le_add_left
  apply vramWhere_mono
  intro endpoint _ hawaits
  exact (Bool.and_eq_true _ _ ▸ hawaits).2

/-- Without leases, and as long as the capacity is within the budget, all residents count. -/
theorem kept_fits_unleased {req : StartRequest} {io : StartIo} {sup : Supervisor}
    {victims : List String} (hbudget : 0 < req.vramBudget) (hmax : req.vramBudget < u64Max)
    (hneed : 0 < req.vramNeed) (hleases : sup.leases = .empty)
    (hcapacity : capacityVram (decided req io sup).map ≤ req.vramBudget)
    (h : (decided req io sup).result = .ok victims) :
    keptVram (residentsOf req.id (decided req io sup).map) victims + req.vramNeed ≤
      req.vramBudget := by
  obtain ⟨-, -, -, hmap⟩ := decided_ok hbudget hneed h
  have hids : leasedIds sup.leases = [] := by rw [hleases]; rfl
  rw [hmap] at hcapacity ⊢
  have hlive : liveVram (admissionMap req io sup) ≤ u64Max :=
    calc
      liveVram (admissionMap req io sup) ≤ capacityVram (admissionMap req io sup) :=
        liveVram_le_capacityVram _
      _ ≤ req.vramBudget := hcapacity
      _ ≤ u64Max := hmax.le
  have hfits := kept_fits hbudget hneed hmax hlive h
  rwa [hids, countedResidents_unleased] at hfits

/-- A start made with the budget, without leases, and with room for the restarts, keeps the
capacity within the budget. -/
theorem capacityVram_start (codec : Codec) {sup : Supervisor} {req : StartRequest} {io : StartIo}
    (hbudget : 0 < req.vramBudget) (hleases : sup.leases = .empty)
    (hfit : 0 < req.vramNeed → (checkPort req io sup.endpoints).result = .ok () →
      ∀ victims, (decided req io sup).result = .ok victims →
        LeavesRoom req (decided req io sup).map victims)
    (h : capacityVram sup.endpoints ≤ req.vramBudget) :
    capacityVram (start codec req io sup).sup.endpoints ≤ req.vramBudget := by
  cases hresult : (start codec req io sup).result with
  | error e =>
    exact (capacityVram_le_of_kept fun _ ↦ (evolved_start_of_error codec hresult).kept).trans h
  | ok view =>
    obtain ⟨victims, hlaunched⟩ := start_ok codec hresult
    have hcapacity : capacityVram (decided req io sup).map ≤ req.vramBudget :=
      (capacityVram_le_of_kept fun _ ↦ (decided_refreshes req io sup).evolved.kept).trans h
    rw [capacityVram, vramWhere_launched hlaunched]
    by_cases hneed : req.vramNeed = 0
    · simp only [hneed, ite_self, Nat.add_zero]
      refine (vramWhere_mono fun endpoint _ hholds ↦ ?_).trans hcapacity
      simp only [Bool.and_eq_true] at hholds
      exact hholds.2.2
    · have hpos : 0 < req.vramNeed := Nat.pos_of_ne_zero hneed
      obtain ⟨hlarge, hroom⟩ := hfit hpos hlaunched.port victims hlaunched.decided
      have hkept : keptVram (residentsOf req.id (decided req io sup).map) victims +
          req.vramNeed ≤ req.vramBudget := by
        rcases Nat.lt_or_ge req.vramBudget u64Max with hmax | hmax
        · exact kept_fits_unleased hbudget hmax hpos hleases hcapacity hlaunched.decided
        · exact hlarge hmax
      have hothers := capacityVram_others_le req.id victims (decided req io sup).map
      rw [← keptVram_countedResidents, countedResidents_unleased] at hothers
      calc
        _ ≤ keptVram (residentsOf req.id (decided req io sup).map) victims +
            awaitingVram req.id (decided req io sup).map + req.vramNeed := by
          apply Nat.add_le_add hothers
          split <;> omega
        _ ≤ req.vramBudget := by omega

theorem capacityVram_step (codec : Codec) {budget : ℕ} (hbudget : 0 < budget) (sys : Sys)
    (label : Label) (h : capacityVram sys.sup.endpoints ≤ budget)
    (hcond : OneBudget budget sys label ∧ RestartsFit sys label) :
    capacityVram (sys.step codec label).sup.endpoints ≤ budget := by
  cases label with
  | start req io =>
    obtain ⟨⟨rfl, hleases⟩, hfit⟩ := hcond
    exact capacityVram_start codec hbudget hleases hfit h
  | call call =>
    exact (capacityVram_le_of_kept fun _ hmem ↦ kept_perform codec sys call hmem).trans h

/-- In every run with one budget and no leases whose starts leave room for pending restarts, the
live VRAM stays within the budget in every state. -/
theorem liveVram_le_of_restartsFit {codec : Codec} {sup : Supervisor} {budget : ℕ}
    (hinitial : Initial codec sup) (hbudget : 0 < budget) {labels : List Label}
    (hmeets : Run.Meets (Sys.step codec)
      (fun sys label ↦ OneBudget budget sys label ∧ RestartsFit sys label) (.fresh sup) labels)
    {early : List Label} (hearly : early <+: labels) :
    liveVram ((Sys.fresh sup).run codec early).sup.endpoints ≤ budget := by
  refine (liveVram_le_capacityVram _).trans ?_
  refine Run.invariant_reached (fun sys ↦ capacityVram sys.sup.endpoints ≤ budget)
    (fun sys label h hcond ↦ capacityVram_step codec hbudget sys label h hcond) ?_ hmeets hearly
  change capacityVram sup.endpoints ≤ budget
  rw [hinitial.endpoints.1]
  exact Nat.zero_le _

/-- Two models of 4 and 6 within a budget of 10: nothing awaits a restart. -/
def twoModels : List Label := [
  .start (.simple "alpha" 8080 4 10 true) (.plain 0 ⟨101, 1⟩),
  .start (.simple "beta" 8081 6 10 true) (.plain 0 ⟨102, 2⟩)]

theorem liveVram_le_of_restartsFit_two :
    liveVram ((Sys.fresh .default).run .constant twoModels).sup.endpoints ≤ 10 := by
  have hmeets : Run.Meets (Sys.step .constant)
      (fun sys label ↦ OneBudget 10 sys label ∧ RestartsFit sys label) (.fresh .default)
      twoModels := by
    refine ⟨⟨⟨rfl, rfl⟩, fun _ _ _ _ ↦ ⟨fun hlarge ↦ absurd hlarge (by decide), ?_⟩⟩,
      ⟨⟨rfl, rfl⟩, fun _ _ _ _ ↦ ⟨fun hlarge ↦ absurd hlarge (by decide), ?_⟩⟩, trivial⟩
    · rw [show awaitingVram _ _ = 0 by decide]
      exact Nat.zero_le _
    · rw [show awaitingVram _ _ = 0 by decide]
      exact Nat.zero_le _
  exact liveVram_le_of_restartsFit .default (by decide) hmeets (List.prefix_refl _)

/-- A model of 8 crashes, another of 8 is admitted during the restart backoff, and the first one
is then restarted: 16 of 10 are in use. -/
def restartBeyondBudget : List Label := [
  .start (.simple "alpha" 8080 8 10 true) (.plain 0 ⟨101, 1⟩),
  .call (.servedModels fun _ ↦ .exited 10000000000),
  .start (.simple "beta" 8081 8 10 true) (.plain 11000000000 ⟨102, 2⟩),
  .call (.servedModels fun _ ↦ .respawn 13000000000 ⟨103, 3⟩)]

theorem not_liveVram_le_restartBeyondBudget :
    Run.Meets (Sys.step .constant) (OneBudget 10) (.fresh .default) restartBeyondBudget ∧
      ¬ liveVram ((Sys.fresh .default).run .constant restartBeyondBudget).sup.endpoints ≤ 10 :=
  ⟨⟨⟨rfl, rfl⟩, trivial, ⟨rfl, rfl⟩, trivial, trivial⟩, by decide⟩

end Cameo.Supervisor
