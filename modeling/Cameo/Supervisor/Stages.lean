import Cameo.Supervisor.Start

/-!
# What the stages of a start do

One lemma for each stage of `start`, and the inversion `started`, which lists where a start can
end.  The port check and the arbitration only refresh; the eviction removes or parks victims; the
launch adds one endpoint.
-/

namespace Cameo.Supervisor

open Json Library Store

/-! ## The port check -/

theorem checkPort_refreshes (req : StartRequest) (io : StartIo) (map : EndpointMap) :
    MapRefreshes (fun spawn ↦ spawn ∈ (checkPort req io map).spawns) map
      (checkPort req io map).map := by
  have hown := visit_refreshes (fun endpoint ↦ endpoint.id = req.id) Endpoint.processRunning
    (fun _ ↦ io.existing) map
  unfold checkPort
  dsimp only
  split
  · exact hown
  · have hothers := visit_refreshes
      (fun endpoint ↦ endpoint.id ≠ req.id && endpoint.port = req.port) Endpoint.processRunning
      io.holders (visit (fun endpoint ↦ endpoint.id = req.id) Endpoint.processRunning
        (fun _ ↦ io.existing) map).map
    have hboth := (hown.mono fun _ ↦ List.mem_append_left _).trans
      (hothers.mono fun _ ↦ List.mem_append_right _)
    split <;> exact hboth

theorem checkPort_spawns {req : StartRequest} {io : StartIo} {map : EndpointMap} {spawn : Spawn}
    (h : spawn ∈ (checkPort req io map).spawns) : spawn.cause = .restart := by
  unfold checkPort at h
  dsimp only at h
  split at h
  · dsimp only at h
    exact (visit_spawns h).1
  · split at h <;> rcases List.mem_append.mp h with h | h <;> exact (visit_spawns h).1

/-- A port check that passes has left alone every endpoint but those of the id and of the port,
has refreshed the latter, and has found none of them running. -/
theorem checkPort_ok {req : StartRequest} {io : StartIo} {map : EndpointMap}
    (h : (checkPort req io map).result = .ok ()) {endpoint : Endpoint}
    (hmem : endpoint ∈ (checkPort req io map).map.entries) :
    (endpoint.id = req.id ∧ endpoint.processRunning = false) ∨
      (endpoint.id ≠ req.id ∧ endpoint.port = req.port ∧ endpoint.processRunning = false ∧
        ∃ old ∈ map.entries, endpoint = (old.refresh (io.holders old.id)).1) ∨
      (endpoint.id ≠ req.id ∧ endpoint.port ≠ req.port ∧ endpoint ∈ map.entries) := by
  unfold checkPort at h hmem
  dsimp only at h hmem
  split at h
  · cases h
  · rename_i hown
    simp only [hown] at hmem
    split at h
    · cases h
    · rename_i hothers
      simp only [hothers] at hmem
      obtain ⟨middle, hmiddle, hlate⟩ := visit_not_found hothers hmem
      obtain ⟨old, hold, hearly⟩ := visit_not_found hown hmiddle
      simp only [Bool.and_eq_true, decide_eq_true_eq, Bool.and_eq_false_iff,
        decide_eq_false_iff_not, not_not] at hearly hlate
      rcases hearly with ⟨howner, rfl, hidle⟩ | ⟨hother, rfl⟩
      · have hid : (old.refresh io.existing).1.id = req.id := (Endpoint.id_refresh _ _).trans howner
        rcases hlate with ⟨⟨hne, -⟩, -⟩ | ⟨-, rfl⟩
        · exact absurd hid hne
        · exact .inl ⟨hid, hidle⟩
      · rcases hlate with ⟨⟨-, hport⟩, rfl, hidle⟩ | ⟨hne, rfl⟩
        · have hevolved := Endpoint.kept_refresh (io.holders middle.id) middle
          exact .inr (.inl ⟨fun h ↦ hother (hevolved.id.symm.trans h),
            hevolved.port.trans hport, hidle, middle, hold, rfl⟩)
        · exact .inr (.inr ⟨hother, hne.resolve_left hother, hold⟩)

/-! ## The arbitration -/

theorem arbitrate_refreshes (req : StartRequest) (io : StartIo) (leased : List String)
    (map : EndpointMap) :
    MapRefreshes (fun spawn ↦ spawn ∈ (arbitrate req io leased map).spawns) map
      (arbitrate req io leased map).map := by
  have hall := visit_refreshes (fun _ ↦ true) (fun _ ↦ false) io.residents map
  unfold arbitrate
  split
  · dsimp only
    split
    · exact hall
    · split <;> exact hall
    · exact (hall.mono fun _ ↦ List.mem_append_left _).trans
        ((visit_refreshes _ _ _ _).mono fun _ ↦ List.mem_append_right _)
  · exact .refl map

theorem arbitrate_spawns {req : StartRequest} {io : StartIo} {leased : List String}
    {map : EndpointMap} {spawn : Spawn} (h : spawn ∈ (arbitrate req io leased map).spawns) :
    spawn.cause = .restart := by
  have hall (hspawn : spawn ∈ (refreshAll io.residents map).spawns) : spawn.cause = .restart :=
    (visit_spawns hspawn).1
  unfold arbitrate at h
  split at h
  · dsimp only at h
    split at h
    · exact hall h
    · split at h <;> exact hall h
    · rcases List.mem_append.mp h with h | h
      · exact hall h
      · exact (visit_spawns h).1
  · cases h

def countedResidents (req : StartRequest) (leased : List String) (map : EndpointMap) :
    List ResidentVram := excludeLeasedResidents (residentsOf req.id map) leased

/-- The three ways in which arbitration lets a start go on or stops it, when the budget is known
and the model needs VRAM. -/
theorem arbitrate_cases {req : StartRequest} (io : StartIo) (leased : List String)
    (map : EndpointMap) (hbudget : req.vramBudget > 0) (hneed : req.vramNeed > 0) :
    let refreshed := refreshAll io.residents map
    let decision := admitVram req.vramBudget req.vramNeed
      (countedResidents req leased refreshed.map)
    let stage := arbitrate req io leased map
    (decision ≠ .refuse ∧ (∀ ids, decision = .evict ids → req.allowEvict = true) ∧
        stage = ⟨.ok decision.victims, refreshed.map, refreshed.spawns⟩) ∨
      (∃ ids, decision = .evict ids ∧ req.allowEvict = false ∧
        stage = ⟨.error (.evictionRequired ids), refreshed.map, refreshed.spawns⟩) ∨
      (decision = .refuse ∧
        (∃ message, stage.result = .error (.leasedCapacity message) ∨
          stage.result = .error (.wontFit message))) := by
  dsimp only
  unfold arbitrate countedResidents
  rw [if_pos ⟨hbudget, hneed⟩]
  dsimp only
  cases admitVram req.vramBudget req.vramNeed (excludeLeasedResidents
    (residentsOf req.id (refreshAll io.residents map).map) leased) with
  | admitted => exact .inl ⟨nofun, nofun, rfl⟩
  | evict ids =>
    cases req.allowEvict with
    | true => exact .inl ⟨nofun, fun _ _ ↦ rfl, rfl⟩
    | false => exact .inr (.inl ⟨ids, rfl, rfl, rfl⟩)
  | refuse =>
    refine .inr (.inr ⟨rfl, ?_⟩)
    dsimp only
    split
    · exact ⟨_, .inl rfl⟩
    · exact ⟨_, .inr rfl⟩

/-- Without a known budget or need, arbitration does nothing. -/
theorem arbitrate_skipped {req : StartRequest} {io : StartIo} {leased : List String}
    {map : EndpointMap} (h : ¬ (req.vramBudget > 0 ∧ req.vramNeed > 0)) :
    arbitrate req io leased map = ⟨.ok [], map, []⟩ := by
  rw [arbitrate, if_neg h]

/-! ## The eviction -/

/-- Marking evolves every entry, and marks exactly the victims. -/
theorem mem_markVictims {victims : List String} {map : EndpointMap} {endpoint : Endpoint}
    (h : endpoint ∈ (markVictims victims map).entries) :
    ∃ old ∈ map.entries, Endpoint.Evolved (fun _ ↦ False) old endpoint ∧
      (endpoint.id ∉ victims → endpoint = old) ∧
      (endpoint.id ∈ victims → endpoint.error.isSome) := by
  obtain ⟨old, hold, rfl⟩ := List.mem_map.mp h
  refine ⟨old, hold, ?_⟩
  simp only [List.contains_eq_mem, decide_eq_true_eq]
  split
  · rename_i hvictim
    exact ⟨Endpoint.evolved_park old _, fun hnot ↦ absurd hvictim hnot, fun _ ↦ rfl⟩
  · rename_i hvictim
    exact ⟨.refl old, fun _ ↦ rfl, fun hin ↦ absurd hin hvictim⟩

/-- Stopping the victims touches no other entry; a victim still tracked afterwards is as before or
parked by the failed stop. -/
theorem mem_stopVictims {stops : String → TerminationIo} {victims : List String}
    {map : EndpointMap} {endpoint : Endpoint}
    (h : endpoint ∈ (stopVictims stops victims map).2.entries) :
    endpoint ∈ map.entries ∨ (endpoint.id ∈ victims ∧ endpoint.error.isSome ∧
      ∃ old ∈ map.entries, Endpoint.Evolved (fun _ ↦ False) old endpoint) := by
  induction victims generalizing map with
  | nil => exact .inl h
  | cons victim rest ih =>
    have hrest (hlater : endpoint ∈ (stopVictims stops rest (map.erase victim)).2.entries) :
        endpoint ∈ map.entries ∨ (endpoint.id ∈ victim :: rest ∧ endpoint.error.isSome ∧
          ∃ old ∈ map.entries, Endpoint.Evolved (fun _ ↦ False) old endpoint) := by
      rcases ih hlater with hmem | ⟨hvictim, herror, old, hold, hevolved⟩
      · exact .inl ((map.mem_erase _ _).mp hmem).1
      · exact .inr ⟨List.mem_cons_of_mem _ hvictim, herror, old,
          ((map.mem_erase _ _).mp hold).1, hevolved⟩
    unfold stopVictims at h
    split at h
    · exact hrest h
    · rename_i old hget
      split at h
      · rename_i e parked hstop
        have hparked : (old.stopOwned (stops victim)).2 = parked := by rw [hstop]
        have hevolved := Endpoint.evolved_stopOwned (P := fun _ ↦ False) (stops victim) old
        have herror := Endpoint.error_stopOwned (stops victim) old
        rw [hparked] at hevolved herror
        rcases (map.mem_insert parked endpoint).mp h with rfl | ⟨hmem, -⟩
        · refine .inr ⟨?_, herror, old, Keyed.Table.mem_of_get? hget, hevolved⟩
          rw [hevolved.id, Keyed.Table.key_of_get? hget]
          exact List.mem_cons_self
        · exact .inl hmem
      · exact hrest h

/-- Stopping the victims keeps every other entry. -/
theorem mem_stopVictims_of_not_mem {stops : String → TerminationIo} {victims : List String}
    {map : EndpointMap} {endpoint : Endpoint} (h : endpoint ∈ map.entries)
    (hother : endpoint.id ∉ victims) : endpoint ∈ (stopVictims stops victims map).2.entries := by
  induction victims generalizing map with
  | nil => exact h
  | cons victim rest ih =>
    rw [List.mem_cons, not_or] at hother
    obtain ⟨hne, hrest⟩ := hother
    have hkept : endpoint ∈ (map.erase victim).entries := (map.mem_erase _ _).mpr ⟨h, hne⟩
    unfold stopVictims
    split
    · exact ih hkept hrest
    · rename_i old hget
      split
      · rename_i e parked hstop
        have hevolved := Endpoint.evolved_stopOwned (P := fun _ ↦ False) (stops victim) old
        rw [hstop] at hevolved
        refine (map.mem_insert parked endpoint).mpr (.inr ⟨h, ?_⟩)
        rw [hevolved.id, Keyed.Table.key_of_get? hget]
        exact hne
      · exact ih hkept hrest

/-- When every stop is confirmed, exactly the victims are gone. -/
theorem stopVictims_ok {stops : String → TerminationIo} {victims : List String}
    {map : EndpointMap} (h : (stopVictims stops victims map).1 = .ok ()) :
    (stopVictims stops victims map).2 =
      map.retain fun endpoint ↦ !victims.contains endpoint.id := by
  induction victims generalizing map with
  | nil => simp [stopVictims, Keyed.Table.ext_iff]
  | cons victim rest ih =>
    have hrest (hok : (stopVictims stops rest (map.erase victim)).1 = .ok ()) :
        (stopVictims stops rest (map.erase victim)).2 =
          map.retain fun endpoint ↦ !(victim :: rest).contains endpoint.id := by
      rw [ih hok]
      apply Keyed.Table.ext
      simp only [Keyed.Table.erase, Keyed.Table.entries_retain, List.filter_filter]
      apply List.filter_congr
      intro endpoint _
      by_cases hid : endpoint.id = victim <;> simp [hid]
    cases hget : map.get? victim with
    | none =>
      simp only [stopVictims, hget] at h ⊢
      exact hrest h
    | some old =>
      cases hstop : old.stopOwned (stops victim) with
      | mk result stopped =>
        cases result with
        | error e =>
          simp only [stopVictims, hget, hstop] at h
          cases h
        | ok _ =>
          simp only [stopVictims, hget, hstop] at h ⊢
          exact hrest h

variable (codec : Codec)

section Retract

variable (io : CommitIo) (victims : List String) (sup : Supervisor)

@[simp]
theorem endpoints_retractIntents :
    (retractIntents codec io victims sup).2.endpoints = sup.endpoints := by
  unfold retractIntents
  split
  · rfl
  · exact endpoints_commitWith _ _ _ _

@[simp]
theorem leases_retractIntents :
    (retractIntents codec io victims sup).2.leases = sup.leases := by
  unfold retractIntents
  split
  · rfl
  · exact leases_commitWith _ _ _ _

@[simp]
theorem shuttingDown_retractIntents :
    (retractIntents codec io victims sup).2.shuttingDown = sup.shuttingDown := by
  unfold retractIntents
  split
  · rfl
  · exact shuttingDown_commitWith _ _ _ _

/-- A retraction takes the victims' intents out of the durable state, or changes nothing. -/
theorem durable_retractIntents :
    ((retractIntents codec io victims sup).1 = .ok () ∧
        (retractIntents codec io victims sup).2.durable = sup.durable.map fun state ↦
          { state with endpoints := intended victims none state.endpoints }) ∨
      ((∃ e, (retractIntents codec io victims sup).1 = .error e) ∧
        (retractIntents codec io victims sup).2.durable = sup.durable) := by
  unfold retractIntents
  split
  · rename_i hempty
    rw [List.isEmpty_iff.mp hempty]
    exact .inl ⟨rfl, by simp [intended]⟩
  · cases hcommit : (commitIntent codec io victims none sup).1 with
    | ok _ => exact .inl ⟨rfl, durable_commitWith_of_ok codec hcommit⟩
    | error e => exact .inr ⟨⟨e, rfl⟩, durable_commitWith_of_error codec hcommit⟩

end Retract

/-- The outcomes of an eviction: a failed retraction, which changes neither the endpoints nor the
durable state, or a retraction after which every victim still tracked is parked. -/
theorem evict_cases (io : StartIo) (victims : List String) (sup : Supervisor) :
    ((∃ e, (evict codec io victims sup).1 = .error (.persistence e)) ∧
        (evict codec io victims sup).2.endpoints = sup.endpoints ∧
        (evict codec io victims sup).2.durable = sup.durable) ∨
      ((evict codec io victims sup).1 =
          (stopVictims io.stops victims (markVictims victims sup.endpoints)).1 ∧
        (evict codec io victims sup).2.endpoints =
          (stopVictims io.stops victims (markVictims victims sup.endpoints)).2 ∧
        (evict codec io victims sup).2.durable = sup.durable.map fun state ↦
          { state with endpoints := intended victims none state.endpoints }) := by
  have hendpoints := endpoints_retractIntents codec io.retract victims sup
  have hdurable := durable_retractIntents codec io.retract victims sup
  unfold evict
  split
  · rename_i e failed hretract
    rw [hretract] at hendpoints hdurable
    rcases hdurable with ⟨hok, -⟩ | ⟨-, hsame⟩
    · cases hok
    · exact .inl ⟨⟨e, rfl⟩, hendpoints, hsame⟩
  · rename_i committed hretract
    rw [hretract] at hendpoints hdurable
    dsimp only at hendpoints
    rcases hdurable with ⟨-, hretracted⟩ | ⟨⟨e, herror⟩, -⟩
    · exact .inr ⟨by rw [hendpoints], by rw [hendpoints], hretracted⟩
    · cases herror

theorem leases_evict (io : StartIo) (victims : List String) (sup : Supervisor) :
    (evict codec io victims sup).2.leases = sup.leases ∧
      (evict codec io victims sup).2.shuttingDown = sup.shuttingDown := by
  have hleases := leases_retractIntents codec io.retract victims sup
  have hlatch := shuttingDown_retractIntents codec io.retract victims sup
  unfold evict
  split <;> rename_i heq <;> rw [heq] at hleases hlatch <;> exact ⟨hleases, hlatch⟩

/-- The entries after an eviction, whatever its outcome. -/
theorem mem_evict {io : StartIo} {victims : List String} {sup : Supervisor} {endpoint : Endpoint}
    (h : endpoint ∈ (evict codec io victims sup).2.endpoints.entries) :
    ∃ old ∈ sup.endpoints.entries, Endpoint.Evolved (fun _ ↦ False) old endpoint ∧
      (endpoint.id ∉ victims → endpoint = old) := by
  rcases evict_cases codec io victims sup with ⟨-, hsame, -⟩ | ⟨-, hstopped, -⟩
  · rw [hsame] at h
    exact ⟨endpoint, h, .refl endpoint, fun _ ↦ rfl⟩
  · rw [hstopped] at h
    rcases mem_stopVictims h with hmarked | ⟨hvictim, -, marked, hmarked, hparked⟩
    · obtain ⟨old, hold, hevolved, hother, -⟩ := mem_markVictims hmarked
      exact ⟨old, hold, hevolved, hother⟩
    · obtain ⟨old, hold, hevolved, -, -⟩ := mem_markVictims hmarked
      exact ⟨old, hold, hevolved.trans hparked, fun hnot ↦ absurd hvictim hnot⟩

/-- An eviction keeps every entry that is not a victim. -/
theorem mem_evict_of_not_mem {io : StartIo} {victims : List String} {sup : Supervisor}
    {endpoint : Endpoint} (h : endpoint ∈ sup.endpoints.entries) (hother : endpoint.id ∉ victims) :
    endpoint ∈ (evict codec io victims sup).2.endpoints.entries := by
  rcases evict_cases codec io victims sup with ⟨-, hsame, -⟩ | ⟨-, hstopped, -⟩
  · rw [hsame]
    exact h
  · rw [hstopped]
    refine mem_stopVictims_of_not_mem (List.mem_map.mpr ⟨endpoint, h, ?_⟩) hother
    simp [hother]

/-- A completed eviction has removed exactly the victims. -/
theorem evict_ok {io : StartIo} {victims : List String} {sup : Supervisor}
    (h : (evict codec io victims sup).1 = .ok ()) :
    (evict codec io victims sup).2.endpoints =
      sup.endpoints.retain fun endpoint ↦ !victims.contains endpoint.id := by
  rcases evict_cases codec io victims sup with ⟨⟨e, herror⟩, -⟩ | ⟨hresult, hstopped, -⟩
  · rw [h] at herror
    cases herror
  · rw [h] at hresult
    rw [hstopped, stopVictims_ok hresult.symm]
    apply Keyed.Table.ext
    simp only [markVictims, Keyed.Table.entries_retain, Keyed.Table.entries_map, List.filter_map]
    have hpred : sup.endpoints.entries.filter ((fun endpoint ↦ !victims.contains endpoint.id) ∘
        fun endpoint ↦ if victims.contains endpoint.id then
          { endpoint with
            error := some "eviction requested; awaiting confirmed exit"
            ready := false }
        else endpoint) =
        sup.endpoints.entries.filter fun endpoint ↦ !victims.contains endpoint.id := by
      apply List.filter_congr
      intro endpoint _
      by_cases hvictim : endpoint.id ∈ victims <;> simp [hvictim]
    rw [hpred, List.map_congr_left (g := fun endpoint ↦ endpoint), List.map_id']
    intro endpoint hkept
    have hother : endpoint.id ∉ victims := by simpa using (List.mem_filter.mp hkept).2
    simp [hother]

/-! ## The launch -/

/-- A launch fails without touching endpoints or durable state, or commits the intent and tracks
the new endpoint. -/
theorem launch_cases (req : StartRequest) (io : StartIo) (sup : Supervisor) :
    (∃ e, launch codec req io sup = ⟨.error (.persistence e),
          (commitIntent codec io.intend [] (some (req.id, req.intent)) sup).2, []⟩ ∧
        (launch codec req io sup).sup.durable = sup.durable) ∨
      (launch codec req io sup = ⟨
          .ok (((newEndpoint req io).refresh io.view).1.viewJson io.viewAt),
          { (commitIntent codec io.intend [] (some (req.id, req.intent)) sup).2 with
            endpoints := sup.endpoints.insert ((newEndpoint req io).refresh io.view).1 },
          startSpawn req io ++ ((newEndpoint req io).refresh io.view).2⟩ ∧
        (launch codec req io sup).sup.durable = sup.durable.map fun state ↦
          { state with endpoints := state.endpoints.insert req.id req.intent }) := by
  have hendpoints : (commitIntent codec io.intend [] (some (req.id, req.intent)) sup).2.endpoints =
      sup.endpoints := endpoints_commitWith _ _ _ _
  unfold launch
  split
  · rename_i e failed hcommit
    refine .inl ⟨e, by rw [hcommit], ?_⟩
    have hdurable := durable_commitWith_of_error codec (congrArg Prod.fst hcommit)
    obtain ⟨-, rfl⟩ := commitWith_eq codec hcommit
    exact hdurable
  · rename_i committed hcommit
    rw [hcommit] at hendpoints
    refine .inr ⟨?_, ?_⟩
    · rw [hcommit, ← hendpoints]
      rfl
    · have hdurable := durable_commitWith_of_ok codec (congrArg Prod.fst hcommit)
      obtain ⟨-, rfl⟩ := commitWith_eq codec hcommit
      exact hdurable

/-! ## The whole start -/

/-- Where a start can end.  `port` and `decided` name what its first two stages leave. -/
inductive Started (req : StartRequest) (io : StartIo) (sup : Supervisor)
    (port : Stage Unit) (decided : Stage (List String)) :
    Outcome (Except StartError Value) → Prop where
  | latched (hlatch : sup.shuttingDown = true) :
    Started req io sup port decided ⟨.error .shuttingDown, sup, []⟩
  | taken {e : StartError} (hlatch : sup.shuttingDown = false) (hport : port.result = .error e) :
    Started req io sup port decided ⟨.error e, { sup with endpoints := port.map }, port.spawns⟩
  | refused {e : StartError} (hlatch : sup.shuttingDown = false) (hport : port.result = .ok ())
      (hdecided : decided.result = .error e) :
    Started req io sup port decided
      ⟨.error e, { sup with endpoints := decided.map }, port.spawns ++ decided.spawns⟩
  | unevicted {e : StartError} {victims : List String} (hlatch : sup.shuttingDown = false)
      (hport : port.result = .ok ()) (hdecided : decided.result = .ok victims)
      (hevict : (evict codec io victims { sup with endpoints := decided.map }).1 = .error e) :
    Started req io sup port decided
      ⟨.error e, (evict codec io victims { sup with endpoints := decided.map }).2,
        port.spawns ++ decided.spawns⟩
  | launched {victims : List String} (hlatch : sup.shuttingDown = false)
      (hport : port.result = .ok ()) (hdecided : decided.result = .ok victims)
      (hevict : (evict codec io victims { sup with endpoints := decided.map }).1 = .ok ())
      {out : Outcome (Except StartError Value)}
      (hout : launch codec req io
        (evict codec io victims { sup with endpoints := decided.map }).2 = out) :
    Started req io sup port decided
      ⟨out.result, out.sup, port.spawns ++ decided.spawns ++ out.spawns⟩

/-- The arbitration a start makes, after its port check. -/
def decided (req : StartRequest) (io : StartIo) (sup : Supervisor) : Stage (List String) :=
  arbitrate req io (leasedIds sup.leases) (checkPort req io sup.endpoints).map

/-- Port check and arbitration only refresh endpoints. -/
theorem decided_refreshes (req : StartRequest) (io : StartIo) (sup : Supervisor) :
    MapRefreshes (fun spawn ↦ spawn ∈ (checkPort req io sup.endpoints).spawns ++
      (decided req io sup).spawns) sup.endpoints (decided req io sup).map := by
  have hport := checkPort_refreshes req io sup.endpoints
  have hdecided := arbitrate_refreshes req io (leasedIds sup.leases)
    (checkPort req io sup.endpoints).map
  exact (hport.mono fun _ ↦ List.mem_append_left _).trans
    (hdecided.mono fun _ ↦ List.mem_append_right _)

theorem started (req : StartRequest) (io : StartIo) (sup : Supervisor) :
    Started codec req io sup (checkPort req io sup.endpoints) (decided req io sup)
      (start codec req io sup) := by
  unfold start decided
  split
  · rename_i hlatch
    exact .latched hlatch
  · rename_i hlatch
    rw [Bool.not_eq_true] at hlatch
    dsimp only
    split
    · rename_i e hport
      exact .taken hlatch hport
    · rename_i hport
      split
      · rename_i e hdecided
        exact .refused hlatch hport hdecided
      · rename_i victims hdecided
        split
        · rename_i e failed hevict
          have hfailed := congrArg Prod.snd hevict
          dsimp only at hfailed
          subst hfailed
          exact .unevicted hlatch hport hdecided (congrArg Prod.fst hevict)
        · rename_i evicted hevict
          refine .launched hlatch hport hdecided (congrArg Prod.fst hevict) ?_
          rw [congrArg Prod.snd hevict]

/-- A failed start only evolves the endpoints it found. -/
theorem evolved_start_of_error {req : StartRequest} {io : StartIo} {sup : Supervisor}
    {e : StartError} (h : (start codec req io sup).result = .error e) :
    MapEvolved (fun spawn ↦ spawn ∈ (start codec req io sup).spawns) sup.endpoints
      (start codec req io sup).sup.endpoints := by
  have hdecided := (decided_refreshes req io sup).evolved
  generalize hout : start codec req io sup = out at h
  have hstarted := started codec req io sup
  rw [hout] at hstarted
  cases hstarted with
  | latched _ => exact .refl _
  | taken _ _ => exact (checkPort_refreshes req io sup.endpoints).evolved
  | refused _ _ _ => exact hdecided
  | @unevicted _ victims _ _ _ _ =>
    refine hdecided.trans ?_
    intro endpoint hmem
    obtain ⟨old, hold, hevolved, -⟩ := mem_evict codec hmem
    exact ⟨old, hold, hevolved.mono fun _ ↦ False.elim⟩
  | @launched victims _ _ _ _ launched hlaunch =>
    rcases launch_cases codec req io
      (evict codec io victims { sup with endpoints := (decided req io sup).map }).2 with
      ⟨e', heq, -⟩ | ⟨heq, -⟩
    · rw [← hlaunch, heq]
      refine (hdecided.mono fun _ ↦ List.mem_append_left _).trans ?_
      intro endpoint hmem
      rw [commitIntent, endpoints_commitWith] at hmem
      obtain ⟨old, hold, hevolved, -⟩ := mem_evict codec hmem
      exact ⟨old, hold, hevolved.mono fun _ ↦ False.elim⟩
    · rw [← hlaunch, heq] at h
      cases h

/-- A start that admission refuses ends with the refusal. -/
theorem start_of_refused {req : StartRequest} {io : StartIo} {sup : Supervisor} {e : StartError}
    (hlatch : sup.shuttingDown = false) (hport : (checkPort req io sup.endpoints).result = .ok ())
    (hdecided : (decided req io sup).result = .error e) :
    start codec req io sup = ⟨.error e, { sup with endpoints := (decided req io sup).map },
      (checkPort req io sup.endpoints).spawns ++ (decided req io sup).spawns⟩ := by
  unfold decided at hdecided ⊢
  simp only [start, hlatch, hport, hdecided]
  rfl

/-- No start touches the leases or the shutdown latch. -/
theorem leases_start (req : StartRequest) (io : StartIo) (sup : Supervisor) :
    (start codec req io sup).sup.leases = sup.leases ∧
      (start codec req io sup).sup.shuttingDown = sup.shuttingDown := by
  have hstarted := started codec req io sup
  generalize start codec req io sup = out at hstarted
  cases hstarted with
  | latched _ => exact ⟨rfl, rfl⟩
  | taken _ _ => exact ⟨rfl, rfl⟩
  | refused _ _ _ => exact ⟨rfl, rfl⟩
  | unevicted _ _ _ _ => exact leases_evict _ _ _ _
  | @launched victims _ _ _ _ launched hlaunch =>
    have hevict := leases_evict codec io victims
      { sup with endpoints := (decided req io sup).map }
    rw [← hlaunch]
    rcases launch_cases codec req io
      (evict codec io victims { sup with endpoints := (decided req io sup).map }).2 with
      ⟨e, heq, -⟩ | ⟨heq, -⟩ <;>
    · rw [heq]
      simpa [commitIntent] using hevict

/-- What holds after a start that succeeded with the given victims. -/
structure Launched (req : StartRequest) (io : StartIo) (sup : Supervisor)
    (victims : List String) (out : Outcome (Except StartError Value)) : Prop where
  latch : sup.shuttingDown = false
  port : (checkPort req io sup.endpoints).result = .ok ()
  decided : (decided req io sup).result = .ok victims
  view : out.result = .ok (((newEndpoint req io).refresh io.view).1.viewJson io.viewAt)
  endpoints : out.sup.endpoints = ((Supervisor.decided req io sup).map.retain fun endpoint ↦
    !victims.contains endpoint.id).insert ((newEndpoint req io).refresh io.view).1
  durable : out.sup.durable = sup.durable.map fun state ↦
    { state with
      endpoints := (intended victims none state.endpoints).insert req.id req.intent }
  spawns : out.spawns = (checkPort req io sup.endpoints).spawns ++
    (Supervisor.decided req io sup).spawns ++
      (startSpawn req io ++ ((newEndpoint req io).refresh io.view).2)

theorem Launched.mem {req : StartRequest} {io : StartIo} {sup : Supervisor}
    {victims : List String} {out : Outcome (Except StartError Value)}
    (h : Launched req io sup victims out) :
    ((newEndpoint req io).refresh io.view).1 ∈ out.sup.endpoints.entries := by
  rw [h.endpoints]
  exact (Keyed.Table.mem_insert _ _ _).mpr (.inl rfl)

theorem start_ok {req : StartRequest} {io : StartIo} {sup : Supervisor} {view : Value}
    (h : (start codec req io sup).result = .ok view) :
    ∃ victims, Launched req io sup victims (start codec req io sup) := by
  generalize hout : start codec req io sup = out at h
  have hstarted := started codec req io sup
  rw [hout] at hstarted
  cases hstarted with
  | latched _ => cases h
  | taken _ _ => cases h
  | refused _ _ _ => cases h
  | unevicted _ _ _ _ => cases h
  | @launched victims hlatch hport hdecided hevict launched hlaunch =>
    have hdurable : (evict codec io victims
        { sup with endpoints := (decided req io sup).map }).2.durable = sup.durable.map fun state ↦
          { state with endpoints := intended victims none state.endpoints } := by
      rcases evict_cases codec io victims { sup with endpoints := (decided req io sup).map } with
        ⟨⟨e, herror⟩, -⟩ | ⟨-, -, hretracted⟩
      · rw [hevict] at herror
        cases herror
      · exact hretracted
    rcases launch_cases codec req io
      (evict codec io victims { sup with endpoints := (decided req io sup).map }).2 with
      ⟨e', heq, -⟩ | ⟨heq, hadded⟩
    · rw [← hlaunch, heq] at h
      cases h
    · rw [hlaunch] at heq hadded
      refine ⟨victims, hlatch, hport, hdecided, by rw [heq], ?_, ?_, by rw [heq]⟩
      · rw [heq, evict_ok codec hevict]
      · rw [hadded, hdurable, Option.map_map]
        rfl

/-- The endpoints after a start: evolutions of those before, or the new one. -/
theorem mem_start {req : StartRequest} {io : StartIo} {sup : Supervisor} {endpoint : Endpoint}
    (h : endpoint ∈ (start codec req io sup).sup.endpoints.entries) :
    (∃ old ∈ sup.endpoints.entries,
        Endpoint.Evolved (fun spawn ↦ spawn ∈ (start codec req io sup).spawns) old endpoint) ∨
      (Endpoint.Evolved (fun spawn ↦ spawn ∈ (start codec req io sup).spawns)
          (newEndpoint req io) endpoint ∧
        ∀ spawn ∈ startSpawn req io, spawn ∈ (start codec req io sup).spawns) := by
  cases hresult : (start codec req io sup).result with
  | error e => exact .inl (evolved_start_of_error codec hresult endpoint h)
  | ok view =>
    obtain ⟨victims, hlaunched⟩ := start_ok codec hresult
    rw [hlaunched.endpoints, Keyed.Table.mem_insert, Keyed.Table.entries_retain,
      List.mem_filter] at h
    rw [hlaunched.spawns]
    rcases h with rfl | ⟨⟨hmem, -⟩, -⟩
    · refine .inr ⟨Endpoint.evolved_refresh io.view _ fun spawn hspawn ↦ ?_, fun spawn hspawn ↦ ?_⟩
      · exact List.mem_append_right _ (List.mem_append_right _ hspawn)
      · exact List.mem_append_right _ (List.mem_append_left _ hspawn)
    · have hdecided := (decided_refreshes req io sup).evolved
      exact .inl ((hdecided.mono fun _ ↦ List.mem_append_left _) endpoint hmem)

end Cameo.Supervisor
