import Cameo.Supervisor.Residency

/-!
# Consent to eviction

A start never touches a leased endpoint other than by refreshing it, and without consent it
touches no endpoint so.  What it does not do is notice that leased endpoints take room: admission
counts the unleased residents alone, so a model that fits only if unleased endpoints go is started
beside them, without naming victims, whenever it would fit if the leased ones were not there.
-/

namespace Cameo.Supervisor

open Json Library Store

/-- The endpoint is still tracked and was only reaped or restarted, or it was the exited prior
tenant of the started id, which the new endpoint replaces. -/
def Untouched (req : StartRequest) (out : Outcome (Except StartError Value))
    (endpoint : Endpoint) : Prop :=
  (∃ after ∈ out.sup.endpoints.entries, Refreshes (fun spawn ↦ spawn ∈ out.spawns) endpoint after) ∨
    (endpoint.id = req.id ∧ out.result.toBool = true)

/-- The room for the request can be made only by evicting unleased endpoints: nothing else refuses
it, it does not fit beside the live endpoints, and it fits beside the leased ones. -/
structure OnlyByEviction (req : StartRequest) (io : StartIo) (sup : Supervisor) : Prop where
  latch : sup.shuttingDown = false
  port : (checkPort req io sup.endpoints).result = .ok ()
  budget : 0 < req.vramBudget
  need : 0 < req.vramNeed
  full : req.vramBudget <
    vramWhere (fun endpoint ↦ endpoint.id ≠ req.id && endpoint.processRunning)
      (admissionMap req io sup) + req.vramNeed
  room : vramWhere (keptLeased req.id (leasedIds sup.leases)) (admissionMap req io sup) +
    req.vramNeed ≤ req.vramBudget

structure ConsentKept (codec : Codec) (req : StartRequest) (io : StartIo) (sup : Supervisor) :
    Prop where
  leased : ∀ endpoint ∈ sup.endpoints.entries, endpoint.id ∈ leasedIds sup.leases →
    Untouched req (start codec req io sup) endpoint
  others : req.allowEvict = false → ∀ endpoint ∈ sup.endpoints.entries,
    Untouched req (start codec req io sup) endpoint
  named : req.allowEvict = false → OnlyByEviction req io sup → ∃ ids,
    (start codec req io sup).result = .error (.evictionRequired ids) ∧
      (decided { req with allowEvict := true } io sup).result = .ok ids ∧
      MapRefreshes (fun spawn ↦ spawn ∈ (start codec req io sup).spawns) sup.endpoints
        (start codec req io sup).sup.endpoints ∧
      (start codec req io sup).sup.store = sup.store

variable (codec : Codec)

/-- An endpoint that is refreshed by the first two stages and is not among the victims is
untouched. -/
theorem untouched_of_not_victim {req : StartRequest} {io : StartIo} {sup : Supervisor}
    {endpoint : Endpoint} (hmem : endpoint ∈ sup.endpoints.entries)
    (hnot : ∀ victims, (decided req io sup).result = .ok victims → endpoint.id ∉ victims) :
    Untouched req (start codec req io sup) endpoint := by
  obtain ⟨later, hlater, hrefreshes⟩ := (decided_refreshes req io sup).exists_after hmem
  have hid : later.id = endpoint.id := hrefreshes.evolved.id
  generalize hout : start codec req io sup = out
  have hstarted := started codec req io sup
  rw [hout] at hstarted
  have hsurvives (victims : List String) (hvictims : endpoint.id ∉ victims) :
      later ∈ (evict codec io victims
        { sup with endpoints := (decided req io sup).map }).2.endpoints.entries :=
    mem_evict_of_not_mem codec hlater (hid ▸ hvictims)
  cases hstarted with
  | latched _ => exact .inl ⟨endpoint, hmem, .refl⟩
  | taken _ _ =>
    exact .inl ((checkPort_refreshes req io sup.endpoints).exists_after hmem)
  | refused _ _ _ => exact .inl ⟨later, hlater, hrefreshes⟩
  | @unevicted _ victims _ _ hdecided' _ =>
    exact .inl ⟨later, hsurvives victims (hnot victims hdecided'), hrefreshes⟩
  | @launched victims _ _ hdecided' _ launched hlaunch =>
    have hmem' := hsurvives victims (hnot victims hdecided')
    have hwider (spawn : Spawn) (hspawn : spawn ∈ (checkPort req io sup.endpoints).spawns ++
        (decided req io sup).spawns) := List.mem_append_left launched.spawns hspawn
    rcases launch_cases codec req io
      (evict codec io victims { sup with endpoints := (decided req io sup).map }).2 with
      ⟨e, heq, -⟩ | ⟨heq, -⟩
    · refine .inl ⟨later, ?_, hrefreshes.mono hwider⟩
      rw [← hlaunch, heq]
      dsimp only
      rw [commitIntent, endpoints_commitWith]
      exact hmem'
    · by_cases hown : endpoint.id = req.id
      · refine .inr ⟨hown, ?_⟩
        rw [← hlaunch, heq]
        rfl
      · refine .inl ⟨later, ?_, hrefreshes.mono hwider⟩
        rw [← hlaunch, heq]
        refine (Keyed.Table.mem_insert _ _ _).mpr (.inr ⟨hmem', ?_⟩)
        rw [Endpoint.id_refresh, hid]
        exact hown

/-- The victims of a request, if it has any, are neither leased nor named without consent. -/
theorem not_mem_victims {req : StartRequest} {io : StartIo} {sup : Supervisor} {id : String}
    {victims : List String} (h : (decided req io sup).result = .ok victims) (hmem : id ∈ victims) :
    id ∉ leasedIds sup.leases ∧ req.allowEvict = true := by
  by_cases hknown : req.vramBudget > 0 ∧ req.vramNeed > 0
  · obtain ⟨-, rfl, hconsent, -⟩ := decided_ok hknown.1 hknown.2 h
    exact ⟨(victim_not_leased hmem).1, hconsent (List.ne_nil_of_mem hmem)⟩
  · rw [decided, arbitrate_skipped hknown] at h
    cases h
    cases hmem

/-- Without consent, admission that names victims refuses the start and names them; with consent
it goes on with the same victims. -/
theorem decided_evict {req : StartRequest} {io : StartIo} {sup : Supervisor} {ids : List String}
    (hbudget : 0 < req.vramBudget) (hneed : 0 < req.vramNeed) (hdenied : req.allowEvict = false)
    (h : admission req io sup = .evict ids) :
    (decided req io sup).result = .error (.evictionRequired ids) ∧
      (decided { req with allowEvict := true } io sup).result = .ok ids := by
  constructor
  · unfold decided
    rcases arbitrate_cases io (leasedIds sup.leases) (checkPort req io sup.endpoints).map hbudget
      hneed with
      ⟨-, hconsent, -⟩ | ⟨named, hnamed, -, hstage⟩ | ⟨hrefuse, -⟩
    · rw [hconsent ids h] at hdenied
      cases hdenied
    · rw [hstage]
      cases h.symm.trans hnamed
      rfl
    · cases h.symm.trans hrefuse
  · unfold decided
    rcases @arbitrate_cases { req with allowEvict := true } io (leasedIds sup.leases)
      (checkPort req io sup.endpoints).map hbudget hneed with
      ⟨-, -, hstage⟩ | ⟨named, -, hnot, -⟩ | ⟨hrefuse, -⟩
    · refine (congrArg Stage.result hstage).trans ?_
      exact congrArg (fun decision ↦ Except.ok (Admission.victims decision)) h
    · cases hnot
    · cases h.symm.trans hrefuse

/-- A start that admission lets through without victims names none. -/
theorem start_ne_evictionRequired {req : StartRequest} {io : StartIo} {sup : Supervisor}
    (hlatch : sup.shuttingDown = false) (hport : (checkPort req io sup.endpoints).result = .ok ())
    (hdecided : (decided req io sup).result = .ok []) (ids : List String) :
    (start codec req io sup).result ≠ .error (.evictionRequired ids) := by
  have hstarted := started codec req io sup
  generalize start codec req io sup = out at hstarted
  intro herror
  cases hstarted with
  | latched hlatch' => rw [hlatch] at hlatch'; cases hlatch'
  | taken _ hport' => rw [hport] at hport'; cases hport'
  | refused _ _ hdecided' => rw [hdecided] at hdecided'; cases hdecided'
  | unevicted _ _ hdecided' hevict =>
    rw [hdecided] at hdecided'
    cases hdecided'
    cases hevict
  | @launched victims _ _ _ _ launched hlaunch =>
    rcases launch_cases codec req io
      (evict codec io victims { sup with endpoints := (decided req io sup).map }).2 with
      ⟨e, heq, -⟩ | ⟨heq, -⟩ <;>
    · rw [← hlaunch, heq] at herror
      cases herror

/-- A start respects consent exactly when it is not the case that it was denied eviction, could
make room only by it, and yet finds room beside the unleased residents. -/
theorem consentKept_iff (req : StartRequest) (io : StartIo) (sup : Supervisor) :
    ConsentKept codec req io sup ↔
      (req.allowEvict = false → OnlyByEviction req io sup →
        req.vramBudget < saturatingAdd
          (usedVram (countedResidents req (leasedIds sup.leases) (admissionMap req io sup)))
          req.vramNeed) := by
  constructor
  · intro hkept hdenied honly
    obtain ⟨ids, herror, -⟩ := hkept.named hdenied honly
    have hneed : req.vramNeed ≤ req.vramBudget := le_of_add_le_right honly.room
    by_contra hroom
    have hadmit : admission req io sup = .admitted :=
      (admitVram_eq_admitted_iff _ hneed).mpr (not_lt.mp hroom)
    have hdecided : (decided req io sup).result = .ok [] := by
      unfold decided
      rcases arbitrate_cases io (leasedIds sup.leases) (checkPort req io sup.endpoints).map
        honly.budget honly.need with
        ⟨-, -, hstage⟩ | ⟨named, hnamed, -⟩ | ⟨hrefuse, -⟩
      · rw [hstage]
        exact congrArg (fun decision ↦ Except.ok (Admission.victims decision)) hadmit
      · cases hadmit.symm.trans hnamed
      · cases hadmit.symm.trans hrefuse
    exact start_ne_evictionRequired codec honly.latch honly.port hdecided ids herror
  · intro hfull
    refine ⟨?_, ?_, ?_⟩
    · intro endpoint hmem hleased
      exact untouched_of_not_victim codec hmem fun victims hdecided hvictim ↦
        (not_mem_victims hdecided hvictim).1 hleased
    · intro hdenied endpoint hmem
      refine untouched_of_not_victim codec hmem fun victims hdecided hvictim ↦ ?_
      rw [(not_mem_victims hdecided hvictim).2] at hdenied
      cases hdenied
    · intro hdenied honly
      have hneed : req.vramNeed ≤ req.vramBudget := le_of_add_le_right honly.room
      cases hcase : admission req io sup with
      | refuse => exact absurd ((admitVram_eq_refuse_iff _ _ _).mp hcase) (not_lt.mpr hneed)
      | admitted =>
        have hfits := (admitVram_eq_admitted_iff _ hneed).mp hcase
        exact absurd (hfull hdenied honly) (not_lt.mpr hfits)
      | evict ids =>
        obtain ⟨herror, hwith⟩ := decided_evict honly.budget honly.need hdenied hcase
        have hstart := start_of_refused codec honly.latch honly.port herror
        refine ⟨ids, by rw [hstart], hwith, ?_, by rw [hstart]⟩
        rw [hstart]
        exact decided_refreshes req io sup

/-- Beside a leased endpoint of 8 and an unleased one of 4, with a budget of 16, a model of 8 has
room only if the unleased one goes; without consent it is started all the same. -/
theorem not_consentKept_leased :
    ¬ ConsentKept .constant (.simple "beta" 8082 8 16 false) (.plain 4000000000 ⟨103, 3⟩)
      ((Sys.fresh .default).run .constant (leasedAlpha ++
        [.start (.simple "gamma" 8081 4 16 true) (.plain 3000000000 ⟨102, 2⟩)])).sup := by
  intro hkept
  have honly : OnlyByEviction (.simple "beta" 8082 8 16 false) (.plain 4000000000 ⟨103, 3⟩)
      ((Sys.fresh .default).run .constant (leasedAlpha ++
        [.start (.simple "gamma" 8081 4 16 true) (.plain 3000000000 ⟨102, 2⟩)])).sup :=
    ⟨by decide, by rfl, by decide, by decide, by decide, by decide⟩
  obtain ⟨ids, herror, -⟩ := hkept.named rfl honly
  have hok : (start .constant (.simple "beta" 8082 8 16 false) (.plain 4000000000 ⟨103, 3⟩)
      ((Sys.fresh .default).run .constant (leasedAlpha ++
        [.start (.simple "gamma" 8081 4 16 true)
          (.plain 3000000000 ⟨102, 2⟩)])).sup).result.toBool = true := by decide
  rw [herror] at hok
  cases hok

end Cameo.Supervisor
