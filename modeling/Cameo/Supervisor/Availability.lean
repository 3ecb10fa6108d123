import Cameo.Supervisor.Persistence

/-!
# Models that no endpoint is ready to serve

A claim needs a ready endpoint, and only the application of a health probe makes one ready.  So
while no endpoint that serves a model is ready, starts do not change that, and every claim of the
model is refused.
-/

namespace Cameo.Supervisor

open Json Library Store

/-- No endpoint that serves the model is ready. -/
def NoneReady (model : String) (map : EndpointMap) : Prop :=
  ∀ endpoint ∈ map.entries, endpoint.model = model → endpoint.isReady = false

theorem Endpoint.Evolved.isReady {P : Spawn → Prop} {before after : Endpoint}
    (h : Endpoint.Evolved P before after) (hready : after.isReady = true) :
    before.isReady = true := by
  simp only [Endpoint.isReady, Bool.and_eq_true, Option.isNone_iff_eq_none] at hready ⊢
  obtain ⟨⟨hchild, hready⟩, herror⟩ := hready
  obtain ⟨child, hchild⟩ := Option.isSome_iff_exists.mp hchild
  have hclear : before.error = none := by
    cases hbefore : before.error with
    | none => rfl
    | some e =>
      have hafter := h.error (by simp [hbefore])
      simp [herror] at hafter
  rcases h.child child hchild with ⟨hold, -, hwas⟩ | ⟨-, hnot⟩
  · exact ⟨⟨by simp [hold], hwas hready⟩, hclear⟩
  · cases hready.symm.trans hnot

theorem Endpoint.model_refresh (io : RefreshIo) (endpoint : Endpoint) :
    (endpoint.refresh io).1.model = endpoint.model := by
  have hreap : (endpoint.reap io).model = endpoint.model := by
    rcases reap_cases io endpoint with h | ⟨-, code, restarts, h⟩ | ⟨-, e, h⟩ <;> rw [h]
  rw [refresh, ← hreap]
  rcases maybeRestart_cases io (endpoint.reap io) with ⟨error, h, -⟩ | ⟨-, child, h⟩ <;> rw [h]
  rfl

theorem Refreshes.model {P : Spawn → Prop} {before after : Endpoint}
    (h : Refreshes P before after) : after.model = before.model := by
  induction h with
  | refl => rfl
  | tail _ hstep ih =>
    obtain ⟨io, rfl, -⟩ := hstep
    exact (Endpoint.model_refresh io _).trans ih

namespace NoneReady

variable {model : String}

/-- Refreshing makes no endpoint ready. -/
theorem refreshes {P : Spawn → Prop} {before after : EndpointMap} (h : NoneReady model before)
    (hrefreshes : MapRefreshes P before after) : NoneReady model after := by
  intro endpoint hmem hmodel
  obtain ⟨old, hold, hrefreshed⟩ := exists_of_forall₂ hrefreshes hmem
  have hnot := h old hold (hrefreshed.model.symm.trans hmodel)
  cases hready : endpoint.isReady with
  | false => rfl
  | true => cases hnot.symm.trans (hrefreshed.evolved.isReady hready)

theorem retain {map : EndpointMap} (h : NoneReady model map) (keep : Endpoint → Bool) :
    NoneReady model (map.retain keep) := by
  intro endpoint hmem
  rw [Keyed.Table.entries_retain] at hmem
  exact h endpoint (List.mem_filter.mp hmem).1

theorem insert {map : EndpointMap} (h : NoneReady model map) {endpoint : Endpoint}
    (hnot : endpoint.isReady = false) : NoneReady model (map.insert endpoint) := by
  intro other hmem
  rcases (map.mem_insert endpoint other).mp hmem with rfl | ⟨hold, -⟩
  · exact fun _ ↦ hnot
  · exact h other hold

end NoneReady

variable (codec : Codec) {model : String}

/-- A claim that finds no endpoint leaves none ready, and no lease changed. -/
theorem lease_unavailable {sessionId refused : String} {io : LeaseIo} {sup : Supervisor}
    (h : (sup.lease codec sessionId model io).result = .error (.unavailable refused)) :
    NoneReady model (sup.lease codec sessionId model io).sup.endpoints ∧
      (sup.lease codec sessionId model io).sup.leases = sup.leases := by
  unfold lease at h ⊢
  dsimp only at h ⊢
  split at h
  · rename_i hfound
    refine ⟨?_, rfl⟩
    intro endpoint hmem hmodel
    obtain ⟨old, -, hvisited⟩ := visit_not_found hfound hmem
    rcases hvisited with ⟨-, -, hmissed⟩ | ⟨hpick, -⟩
    · simpa [hmodel] using hmissed
    · cases hpick
  · split at h <;> cases h

/-- A model that no endpoint is ready to serve cannot be claimed. -/
theorem lease_of_noneReady (sessionId : String) (io : LeaseIo) {sup : Supervisor}
    (h : NoneReady model sup.endpoints) :
    (sup.lease codec sessionId model io).result = .error (.unavailable model) := by
  unfold lease
  dsimp only
  split
  · rfl
  · rename_i endpoint hfound
    obtain ⟨hhit, hmem, -⟩ := Keyed.walk_found _ _ _ hfound
    have hrefreshed := h.refreshes (visit_refreshes (fun _ ↦ true)
      (fun endpoint ↦ endpoint.model = model && endpoint.isReady) io.refresh sup.endpoints)
    simp only [Bool.and_eq_true, decide_eq_true_eq] at hhit
    cases hhit.2.symm.trans (hrefreshed endpoint hmem hhit.1)

/-- A new endpoint is not ready, also after the refresh of its first view. -/
theorem isReady_newEndpoint (req : StartRequest) (io : StartIo) :
    ((newEndpoint req io).refresh io.view).1.isReady = false := by
  cases hready : ((newEndpoint req io).refresh io.view).1.isReady with
  | false => rfl
  | true =>
    have hevolved := Endpoint.evolved_refresh (P := fun _ ↦ True) io.view (newEndpoint req io)
      fun _ _ ↦ trivial
    have hbefore := hevolved.isReady hready
    simp [Endpoint.isReady, newEndpoint] at hbefore

/-- A start that spawns its process makes no endpoint ready and changes no lease. -/
theorem start_noneReady {req : StartRequest} {io : StartIo} {sup : Supervisor}
    (h : NoneReady model sup.endpoints) {spawn : Spawn}
    (hspawn : spawn ∈ (start codec req io sup).spawns) (hcause : spawn.cause = .start) :
    NoneReady model (start codec req io sup).sup.endpoints ∧
      ∃ view, (start codec req io sup).result = .ok view := by
  have hstarted := started codec req io sup
  generalize start codec req io sup = out at hstarted hspawn ⊢
  have hport (hmem : spawn ∈ (checkPort req io sup.endpoints).spawns) : False := by
    cases hcause.symm.trans (checkPort_spawns hmem)
  have hdecision (hmem : spawn ∈ (decided req io sup).spawns) : False := by
    cases hcause.symm.trans (arbitrate_spawns hmem)
  have hstages (hmem : spawn ∈ (checkPort req io sup.endpoints).spawns ++
      (decided req io sup).spawns) : False := (List.mem_append.mp hmem).elim hport hdecision
  cases hstarted with
  | latched _ => cases hspawn
  | taken _ _ => exact (hport hspawn).elim
  | refused _ _ _ => exact (hstages hspawn).elim
  | unevicted _ _ _ _ => exact (hstages hspawn).elim
  | @launched victims _ _ _ hevict launched hlaunch =>
    rcases launch_cases codec req io
      (evict codec io victims { sup with endpoints := (decided req io sup).map }).2 with
      ⟨e, heq, -⟩ | ⟨heq, -⟩
    · rw [← hlaunch, heq] at hspawn
      exact (hstages (by simpa using hspawn)).elim
    · rw [← hlaunch, heq]
      refine ⟨?_, _, rfl⟩
      dsimp only
      rw [evict_ok codec hevict]
      exact ((h.refreshes (decided_refreshes req io sup)).retain _).insert
        (isReady_newEndpoint req io)

end Cameo.Supervisor
