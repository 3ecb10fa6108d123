import Cameo.Supervisor.Residency

/-!
# Starts that cannot persist their intent

A start commits twice: once to retract the intents of its victims, and once, after the victims have
been stopped, to record its own.  The route reports either failure as one in which no processes were
changed.  That is so exactly if the first commit is the one that failed or there was nothing to
evict.
-/

namespace Cameo.Supervisor

open Json Library Store

def evictionIds (req : StartRequest) (io : StartIo) (sup : Supervisor) : List String :=
  if req.vramBudget > 0 ∧ req.vramNeed > 0 then (admission req io sup).victims else []

/-- The tracked endpoints and their processes are those of before, up to reaping: every endpoint was
at most refreshed, and no process was spawned but by the restarts this includes. -/
structure ProcessesKept (sup : Supervisor) (out : Outcome (Except StartError Value)) : Prop where
  endpoints : MapRefreshes (fun spawn ↦ spawn ∈ out.spawns) sup.endpoints out.sup.endpoints
  spawns : ∀ spawn ∈ out.spawns, spawn.cause = .restart

theorem evictionIds_of_decided {req : StartRequest} {io : StartIo} {sup : Supervisor}
    {victims : List String} (h : (decided req io sup).result = .ok victims) :
    evictionIds req io sup = victims := by
  unfold evictionIds
  split
  · rename_i hknown
    exact (decided_ok hknown.1 hknown.2 h).2.1.symm
  · rename_i hknown
    rw [decided, arbitrate_skipped hknown] at h
    cases h
    rfl

/-- Every victim of a start is tracked when the eviction begins. -/
theorem mem_of_evictionIds {req : StartRequest} {io : StartIo} {sup : Supervisor} {id : String}
    {victims : List String} (h : (decided req io sup).result = .ok victims) (hmem : id ∈ victims) :
    ∃ endpoint ∈ (decided req io sup).map.entries, endpoint.id = id := by
  by_cases hknown : req.vramBudget > 0 ∧ req.vramNeed > 0
  · obtain ⟨-, rfl, -, hmap⟩ := decided_ok hknown.1 hknown.2 h
    obtain ⟨-, -, endpoint, hendpoint, hid, -⟩ := victim_not_leased hmem
    exact ⟨endpoint, hmap ▸ hendpoint, hid⟩
  · rw [decided, arbitrate_skipped hknown] at h
    cases h
    cases hmem

/-! ## Where a persistence error comes from -/

theorem checkPort_error {req : StartRequest} {io : StartIo} {map : EndpointMap} {e : StartError}
    (h : (checkPort req io map).result = .error e) : ∃ id, e = .portInUse id := by
  unfold checkPort at h
  dsimp only at h
  split at h
  · cases h
    exact ⟨_, rfl⟩
  · split at h
    · cases h
      exact ⟨_, rfl⟩
    · cases h

theorem arbitrate_error {req : StartRequest} {io : StartIo} {leased : List String}
    {map : EndpointMap} {e : StartError} (h : (arbitrate req io leased map).result = .error e) :
    (∃ ids, e = .evictionRequired ids) ∨
      ∃ message, e = .leasedCapacity message ∨ e = .wontFit message := by
  by_cases hknown : req.vramBudget > 0 ∧ req.vramNeed > 0
  · rcases arbitrate_cases io leased map hknown.1 hknown.2 with
      ⟨-, -, hstage⟩ | ⟨ids, -, -, hstage⟩ | ⟨-, message, hstage | hstage⟩
    · rw [hstage] at h
      cases h
    · rw [hstage] at h
      cases h
      exact .inl ⟨ids, rfl⟩
    · rw [hstage] at h
      cases h
      exact .inr ⟨message, .inl rfl⟩
    · rw [hstage] at h
      cases h
      exact .inr ⟨message, .inr rfl⟩
  · rw [arbitrate_skipped hknown] at h
    cases h

theorem stopVictims_error {stops : String → TerminationIo} {victims : List String}
    {map : EndpointMap} {e : StartError} (h : (stopVictims stops victims map).1 = .error e) :
    ∃ message, e = .termination message := by
  induction victims generalizing map with
  | nil => cases h
  | cons victim rest ih =>
    unfold stopVictims at h
    split at h
    · exact ih h
    · split at h
      · cases h
        exact ⟨_, rfl⟩
      · exact ih h

variable (codec : Codec)

/-- A commit looks at the store only. -/
theorem retractIntents_result (io : CommitIo) (victims : List String) (sup : Supervisor)
    (map : EndpointMap) :
    (retractIntents codec io victims { sup with endpoints := map }).1 =
      (retractIntents codec io victims sup).1 := by
  unfold retractIntents
  split <;> rfl

/-- An eviction fails to persist only in its retraction, and has then stopped nothing. -/
theorem evict_persistence {io : StartIo} {victims : List String} {sup : Supervisor} {e : String}
    (h : (evict codec io victims sup).1 = .error (.persistence e)) :
    (∃ e, (retractIntents codec io.retract victims sup).1 = .error e) ∧
      (evict codec io victims sup).2.endpoints = sup.endpoints := by
  have hendpoints := endpoints_retractIntents codec io.retract victims sup
  unfold evict at h ⊢
  split at h
  · rename_i e' failed hretract
    rw [hretract] at hendpoints ⊢
    exact ⟨⟨e', rfl⟩, hendpoints⟩
  · obtain ⟨message, hmessage⟩ := stopVictims_error h
    cases hmessage

/-- An eviction that completes has retracted the intents of its victims. -/
theorem retractIntents_of_evict {io : StartIo} {victims : List String} {sup : Supervisor}
    (h : (evict codec io victims sup).1 = .ok ()) :
    (retractIntents codec io.retract victims sup).1 = .ok () := by
  unfold evict at h
  split at h
  · cases h
  · rename_i committed hretract
    rw [hretract]

/-- The two places where a start fails to persist: before the victims are stopped, or after. -/
theorem start_persistence {req : StartRequest} {io : StartIo} {sup : Supervisor} {e : String}
    (h : (start codec req io sup).result = .error (.persistence e)) :
    ∃ victims, (decided req io sup).result = .ok victims ∧
      (start codec req io sup).spawns =
        (checkPort req io sup.endpoints).spawns ++ (decided req io sup).spawns ∧
      (((∃ e, (retractIntents codec io.retract victims sup).1 = .error e) ∧
          (start codec req io sup).sup.endpoints = (decided req io sup).map) ∨
        ((retractIntents codec io.retract victims sup).1 = .ok () ∧
          (start codec req io sup).sup.endpoints = (decided req io sup).map.retain fun endpoint ↦
            !victims.contains endpoint.id)) := by
  have hstarted := started codec req io sup
  generalize start codec req io sup = out at h hstarted ⊢
  cases hstarted with
  | latched _ => cases h
  | taken _ hport =>
    cases h
    obtain ⟨id, hid⟩ := checkPort_error hport
    cases hid
  | refused _ _ hdecided =>
    cases h
    rcases arbitrate_error hdecided with ⟨ids, hids⟩ | ⟨message, hmessage | hmessage⟩
    · cases hids
    · cases hmessage
    · cases hmessage
  | @unevicted _ victims _ _ hdecided hevict =>
    cases h
    obtain ⟨herror, hendpoints⟩ := evict_persistence codec hevict
    rw [retractIntents_result] at herror
    exact ⟨victims, hdecided, rfl, .inl ⟨herror, hendpoints⟩⟩
  | @launched victims _ _ hdecided hevict launched hlaunch =>
    have hretract := retractIntents_of_evict codec hevict
    rw [retractIntents_result] at hretract
    rcases launch_cases codec req io
      (evict codec io victims { sup with endpoints := (decided req io sup).map }).2 with
      ⟨e', heq, -⟩ | ⟨heq, -⟩
    · rw [hlaunch] at heq
      refine ⟨victims, hdecided, by rw [heq]; exact List.append_nil _, .inr ⟨hretract, ?_⟩⟩
      rw [heq]
      dsimp only
      rw [commitIntent, endpoints_commitWith, evict_ok codec hevict]
    · rw [← hlaunch, heq] at h
      cases h

/-- A start that fails to persist its intent has changed no process exactly if it had nothing to
evict, or failed to retract the intents of its victims. -/
theorem processesKept_iff {req : StartRequest} {io : StartIo} {sup : Supervisor} {e : String}
    (h : (start codec req io sup).result = .error (.persistence e)) :
    ProcessesKept sup (start codec req io sup) ↔
      evictionIds req io sup = [] ∨
        ∃ e, (commitIntent codec io.retract (evictionIds req io sup) none sup).1 = .error e := by
  obtain ⟨victims, hdecided, hspawns, hends⟩ := start_persistence codec h
  rw [evictionIds_of_decided hdecided]
  have hrestarts : ∀ spawn ∈ (start codec req io sup).spawns, spawn.cause = .restart := by
    intro spawn hspawn
    rw [hspawns] at hspawn
    rcases List.mem_append.mp hspawn with hspawn | hspawn
    · exact checkPort_spawns hspawn
    · exact arbitrate_spawns hspawn
  have hrefreshes := decided_refreshes req io sup
  rw [← hspawns] at hrefreshes
  rcases hends with ⟨⟨e', herror⟩, hendpoints⟩ | ⟨hretracted, hendpoints⟩
  · have hkept : ProcessesKept sup (start codec req io sup) :=
      ⟨by rwa [hendpoints], hrestarts⟩
    refine ⟨fun _ ↦ ?_, fun _ ↦ hkept⟩
    unfold retractIntents at herror
    split at herror
    · cases herror
    · exact .inr ⟨e', herror⟩
  · constructor
    · -- a victim is tracked before the eviction and not after it
      intro hkept
      refine .inl (List.eq_nil_iff_forall_not_mem.mpr fun id hmem ↦ ?_)
      obtain ⟨victim, hvictim, rfl⟩ := mem_of_evictionIds hdecided hmem
      have hlength := hkept.endpoints.length_eq.symm.trans hrefreshes.length_eq
      rw [hendpoints, Keyed.Table.entries_retain] at hlength
      have hall := List.length_filter_eq_length_iff.mp hlength victim hvictim
      simp [hmem] at hall
    · have hnothing (hempty : victims = []) : ProcessesKept sup (start codec req io sup) := by
        refine ⟨?_, hrestarts⟩
        have hsame : (decided req io sup).map.retain (fun endpoint ↦
            !([] : List String).contains endpoint.id) = (decided req io sup).map := by
          apply Keyed.Table.ext
          simp
        rw [hendpoints, hempty, hsame]
        exact hrefreshes
      rintro (hempty | ⟨e', herror⟩)
      · exact hnothing hempty
      · unfold retractIntents at hretracted
        split at hretracted
        · rename_i hempty
          exact hnothing (List.isEmpty_iff.mp hempty)
        · cases hretracted.symm.trans herror

/-- A commit that cannot write its pending file. -/
def unwritable (suffix : String) : CommitIo :=
  { CommitIo.ok suffix with write := .error "no space left on device" }

/-- A supervisor with a store and one running model. -/
def runningAlpha : Supervisor :=
  ((Sys.fresh openedEmpty).run .constant
    [.start (.simple "alpha" 8080 8 16 false) (.plain 0 ⟨100, 0⟩)]).sup

/-- When the victims' intents cannot be retracted, the model that was to be evicted goes on. -/
theorem processesKept_unretracted :
    ProcessesKept runningAlpha (start .constant (.simple "beta" 8081 10 16 true)
      { StartIo.plain 0 ⟨101, 1⟩ with retract := unwritable "06" } runningAlpha) :=
  (processesKept_iff .constant rfl).mpr (.inr ⟨"no space left on device", rfl⟩)

/-- When the newcomer's intent cannot be persisted, the model evicted for it is gone. -/
theorem not_processesKept_unintended :
    let out := start .constant (.simple "beta" 8081 10 16 true)
      { StartIo.plain 0 ⟨101, 1⟩ with intend := unwritable "06" } runningAlpha
    out.result = .error (.persistence "no space left on device") ∧
      runningAlpha.endpoints.entries.map Endpoint.processRunning = [true] ∧
      out.sup.endpoints.entries = [] ∧ ¬ ProcessesKept runningAlpha out := by
  refine ⟨rfl, rfl, rfl, fun h ↦ ?_⟩
  exact absurd h.endpoints.length_eq (by decide)

end Cameo.Supervisor
