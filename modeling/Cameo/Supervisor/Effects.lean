import Cameo.Supervisor.System

/-!
# What calls do to endpoints

Every call but a start and the application of probes *evolves* the endpoint map: each endpoint
after it is an evolution of one before it, and the processes it spawned are restarts of tracked
endpoints that have restarts enabled.  Applying probes keeps everything but readiness.
-/

namespace Cameo.Supervisor

open Json Library Store

/-- An operation that only evolves tracked endpoints and only spawns enabled restarts. -/
structure Evolves (before after : EndpointMap) (spawns : List Spawn) : Prop where
  evolved : MapEvolved (fun spawn ↦ spawn ∈ spawns) before after
  restarts : ∀ spawn ∈ spawns, spawn.cause = .restart ∧
    ∃ endpoint ∈ before.entries, endpoint.restartEnabled = true ∧ spawn.endpointId = endpoint.id

namespace Evolves

theorem refl (map : EndpointMap) : Evolves map map [] := ⟨.refl map, nofun⟩

theorem trans {first second third : EndpointMap} {early late : List Spawn}
    (h : Evolves first second early) (h' : Evolves second third late) :
    Evolves first third (early ++ late) where
  evolved := (h.evolved.mono fun _ ↦ List.mem_append_left _).trans
    (h'.evolved.mono fun _ ↦ List.mem_append_right _)
  restarts := by
    intro spawn hspawn
    rcases List.mem_append.mp hspawn with hspawn | hspawn
    · exact h.restarts spawn hspawn
    · obtain ⟨hcause, middle, hmiddle, henabled, hid⟩ := h'.restarts spawn hspawn
      obtain ⟨old, hold, hevolved⟩ := h.evolved middle hmiddle
      exact ⟨hcause, old, hold, hevolved.restartEnabled henabled, hid.trans hevolved.id⟩

/-- An operation that spawns nothing and rewrites endpoints by evolutions. -/
theorem of_silent {before after : EndpointMap}
    (h : MapEvolved (fun _ ↦ False) before after) : Evolves before after [] :=
  ⟨h.mono fun _ ↦ False.elim, nofun⟩

/-- Rewriting every endpoint by an evolution. -/
theorem of_map (map : EndpointMap) {f : Endpoint → Endpoint}
    (h : ∀ endpoint, Endpoint.Evolved (fun _ ↦ False) endpoint (f endpoint)) :
    Evolves map (map.map f fun endpoint ↦ (h endpoint).id) [] := by
  apply of_silent
  intro endpoint hmem
  obtain ⟨old, hold, rfl⟩ := List.mem_map.mp hmem
  exact ⟨old, hold, h old⟩

theorem of_erase (map : EndpointMap) (id : String) : Evolves map (map.erase id) [] := by
  apply of_silent
  intro endpoint hmem
  exact ⟨endpoint, ((map.mem_erase id endpoint).mp hmem).1, .refl endpoint⟩

end Evolves

theorem evolves_visit (pick hit : Endpoint → Bool) (io : String → RefreshIo)
    (map : EndpointMap) :
    Evolves map (visit pick hit io map).map (visit pick hit io map).spawns :=
  ⟨(visit_refreshes pick hit io map).evolved, fun _ hspawn ↦ visit_spawns hspawn⟩

theorem evolves_leaseView (io : LeaseViewIo) (lease : Lease) (map : EndpointMap) :
    Evolves map (leaseView io lease map).map (leaseView io lease map).spawns := by
  unfold leaseView
  split
  · exact .refl map
  · split
    · exact .refl map
    · dsimp only
      exact evolves_visit _ _ _ _

section Operations

variable (codec : Codec) (sup : Supervisor)

theorem evolves_stop (id : String) (io : StopIo) :
    Evolves sup.endpoints (sup.stop codec id io).sup.endpoints
      (sup.stop codec id io).spawns := by
  unfold stop
  dsimp only
  split
  · exact .refl _
  · split
    · rename_i heq
      obtain ⟨-, rfl⟩ := commitWith_eq codec heq
      exact .refl _
    · rename_i heq
      obtain ⟨-, rfl⟩ := commitWith_eq codec heq
      split
      · exact .of_erase _ _
      · rename_i endpoint hget
        split
        · rename_i e parked hstop
          have hevolved := Endpoint.evolved_stopOwned (P := fun _ ↦ False) io.termination
            endpoint
          rw [hstop] at hevolved
          apply Evolves.of_silent
          intro other hmem
          rcases (sup.endpoints.mem_insert parked other).mp hmem with rfl | ⟨hmem, -⟩
          · exact ⟨endpoint, Keyed.Table.mem_of_get? hget, hevolved⟩
          · exact ⟨other, hmem, .refl other⟩
        · exact .of_erase _ _

theorem evolves_touch (id : String) (now : SystemTime) :
    Evolves sup.endpoints (sup.touch id now).sup.endpoints (sup.touch id now).spawns := by
  refine Evolves.of_map _ fun endpoint ↦ ?_
  split
  · exact ⟨⟨rfl, rfl, rfl, rfl, fun h ↦ h, fun h ↦ h, fun h ↦ h⟩,
      fun _ h ↦ .inl ⟨h, rfl, fun h ↦ h⟩⟩
  · exact .refl endpoint

theorem evolves_lease (sessionId model : String) (io : LeaseIo) :
    Evolves sup.endpoints (sup.lease codec sessionId model io).sup.endpoints
      (sup.lease codec sessionId model io).spawns := by
  have hvisit := evolves_visit (fun _ ↦ true)
    (fun endpoint ↦ endpoint.model = model && endpoint.isReady) io.refresh sup.endpoints
  unfold lease
  dsimp only
  split
  · exact hvisit
  · split
    · rename_i heq
      obtain ⟨-, rfl⟩ := commitWith_eq codec heq
      exact hvisit
    · rename_i heq
      obtain ⟨-, rfl⟩ := commitWith_eq codec heq
      exact hvisit.trans (evolves_leaseView _ _ _)

/-- Persisting leases leaves endpoints alone and spawns nothing. -/
theorem evolves_adoptLeases {α : Type} (io : CommitIo) (next : LeaseMap) (answer : α) :
    Evolves sup.endpoints (adoptLeases codec io next answer sup).sup.endpoints
      (adoptLeases codec io next answer sup).spawns := by
  unfold adoptLeases
  split <;> rename_i heq <;>
  · obtain ⟨-, rfl⟩ := commitWith_eq codec heq
    exact .refl _

theorem evolves_release (sessionId : String) (io : CommitIo) :
    Evolves sup.endpoints (sup.release codec sessionId io).sup.endpoints
      (sup.release codec sessionId io).spawns := by
  unfold release
  split
  · exact .refl _
  · exact evolves_adoptLeases codec sup io _ true

theorem evolves_renewLease (sessionId : String) (io : RenewIo) :
    Evolves sup.endpoints (sup.renewLease codec sessionId io).sup.endpoints
      (sup.renewLease codec sessionId io).spawns := by
  unfold renewLease
  split
  · exact .refl _
  · split
    · exact .refl _
    · split <;> exact evolves_adoptLeases codec sup io.commit _ ()

theorem evolves_expireLeases (now : ℕ) (instants : String → Instant) (io : CommitIo) :
    Evolves sup.endpoints (sup.expireLeases codec now instants io).sup.endpoints
      (sup.expireLeases codec now instants io).spawns := by
  unfold expireLeases
  dsimp only
  split
  · exact evolves_adoptLeases codec sup io _ ()
  · exact .refl _

theorem evolves_leaseStatus (sessionId : String) (io : LeaseViewIo) :
    Evolves sup.endpoints (sup.leaseStatus sessionId io).sup.endpoints
      (sup.leaseStatus sessionId io).spawns := by
  unfold leaseStatus
  split
  · exact .refl _
  · exact evolves_leaseView _ _ _

theorem evolves_persistSession (session : SessionRecord) (io : CommitIo) :
    Evolves sup.endpoints (sup.persistSession codec session io).sup.endpoints
      (sup.persistSession codec session io).spawns := by
  simp only [persistSession, endpoints_commitWith]
  exact .refl _

theorem evolves_removeSession (id : String) (io : CommitIo) :
    Evolves sup.endpoints (sup.removeSession codec id io).sup.endpoints
      (sup.removeSession codec id io).spawns := by
  unfold removeSession
  dsimp only
  split <;> rename_i heq <;>
  · obtain ⟨-, rfl⟩ := commitWith_eq codec heq
    exact .refl _

theorem evolves_disableRestarts :
    Evolves sup.endpoints sup.disableRestarts.sup.endpoints sup.disableRestarts.spawns := by
  refine Evolves.of_map _ fun endpoint ↦ ?_
  refine ⟨⟨rfl, rfl, rfl, rfl, fun h ↦ h, nofun, ?_⟩, fun _ h ↦ .inl ⟨h, rfl, fun h ↦ h⟩⟩
  intro hholds
  have hrunning : endpoint.processRunning = true := by
    simpa [Endpoint.holdsCapacity, Endpoint.processRunning, Endpoint.awaitsRestart] using hholds
  simp [Endpoint.holdsCapacity, hrunning]

theorem evolves_stopAll (io : ShutdownIo) :
    Evolves sup.endpoints (sup.stopAll io).sup.endpoints (sup.stopAll io).spawns := by
  refine Evolves.of_map _ fun endpoint ↦ ?_
  unfold shutdownOne
  split
  · exact .refl endpoint
  · exact Endpoint.evolved_stopOwned _ endpoint

theorem evolves_schedule (io : ScheduleIo) :
    Evolves sup.endpoints (sup.schedule io).sup.endpoints (sup.schedule io).spawns := by
  have hrefresh := evolves_visit (fun _ ↦ true) (fun _ ↦ false) io.refresh sup.endpoints
  have hschedule := Evolves.of_map (refreshAll io.refresh sup.endpoints).map
    fun endpoint ↦ Endpoint.evolved_scheduleHealthProbe (io.dueAt endpoint.id)
      (io.now endpoint.id) endpoint
  have hboth := hrefresh.trans hschedule
  rw [List.append_nil] at hboth
  exact hboth

theorem evolves_persistObservations (observations : List Observation) (io : CommitIo) :
    Evolves sup.endpoints (sup.persistObservations codec observations io).sup.endpoints
      (sup.persistObservations codec observations io).spawns := by
  unfold persistObservations
  dsimp only
  split
  · exact .refl _
  · split
    · simp only [endpoints_commitWith]
      exact .refl _
    · exact .refl _

theorem evolves_rehash (rank : String → ℕ) :
    Evolves sup.endpoints (sup.rehash rank).sup.endpoints (sup.rehash rank).spawns := by
  apply Evolves.of_silent
  intro endpoint hmem
  exact ⟨endpoint, (List.perm_insertionSort _ _).subset hmem, .refl endpoint⟩

end Operations

/-! ## Calls as steps -/

theorem kept_applyProbe {map : EndpointMap} {answer : HealthProbe × Except String Unit}
    {endpoint : Endpoint} (h : endpoint ∈ (applyProbe map answer).entries) :
    ∃ old ∈ map.entries, Endpoint.Kept old endpoint := by
  rcases (map.mem_modify _ _ _ endpoint).mp h with ⟨hmem, -⟩ | ⟨old, hold, -, rfl⟩
  · exact ⟨endpoint, hmem, .refl endpoint⟩
  · exact ⟨old, hold, Endpoint.kept_applyHealthProbe _ _ old⟩

theorem kept_applyProbes (results : List (HealthProbe × Except String Unit)) {map : EndpointMap}
    {endpoint : Endpoint} (h : endpoint ∈ (results.foldl applyProbe map).entries) :
    ∃ old ∈ map.entries, Endpoint.Kept old endpoint := by
  induction results generalizing map with
  | nil => exact ⟨endpoint, h, .refl endpoint⟩
  | cons answer rest ih =>
    obtain ⟨middle, hmiddle, hlate⟩ := ih h
    obtain ⟨old, hold, hearly⟩ := kept_applyProbe hmiddle
    exact ⟨old, hold, hearly.trans hlate⟩

/-- What a call can do to endpoints and history: evolve the endpoints and record its restarts, or
apply the results of the probes in flight. -/
theorem perform_cases (codec : Codec) (sys : Sys) (call : Call) :
    (∃ spawns, Evolves sys.sup.endpoints (call.perform codec sys).sup.endpoints spawns ∧
        (call.perform codec sys).history = sys.history ++ spawns.map .spawned) ∨
      (∃ results, sys.maintenance = .probed results ∧
        (call.perform codec sys).sup.endpoints = results.foldl applyProbe sys.sup.endpoints ∧
        (call.perform codec sys).history =
          sys.history ++ results.map fun answer ↦ .applied answer.1 answer.2) := by
  have hidle (h : call.perform codec sys = sys) :
      ∃ spawns, Evolves sys.sup.endpoints (call.perform codec sys).sup.endpoints spawns ∧
        (call.perform codec sys).history = sys.history ++ spawns.map .spawned := by
    rw [h]
    exact ⟨[], .refl _, by simp⟩
  cases call with
  | stop id io => exact .inl ⟨_, evolves_stop codec _ id io, rfl⟩
  | touch id now => exact .inl ⟨_, evolves_touch _ id now, rfl⟩
  | endpointForModel model io => exact .inl ⟨_, evolves_visit _ _ _ _, rfl⟩
  | servedModels io => exact .inl ⟨_, evolves_visit _ _ _ _, rfl⟩
  | engineProfiles includeVram io => exact .inl ⟨_, evolves_visit _ _ _ _, rfl⟩
  | list io now => exact .inl ⟨_, evolves_visit _ _ _ _, rfl⟩
  | get id io now =>
    exact .inl ⟨_, evolves_visit (fun endpoint ↦ endpoint.id = id) (fun _ ↦ true)
      (fun _ ↦ io) _, rfl⟩
  | lease sessionId model io => exact .inl ⟨_, evolves_lease codec _ sessionId model io, rfl⟩
  | release sessionId io => exact .inl ⟨_, evolves_release codec _ sessionId io, rfl⟩
  | renewLease sessionId io => exact .inl ⟨_, evolves_renewLease codec _ sessionId io, rfl⟩
  | leaseStatus sessionId io => exact .inl ⟨_, evolves_leaseStatus _ sessionId io, rfl⟩
  | persistSession session io => exact .inl ⟨_, evolves_persistSession codec _ session io, rfl⟩
  | removeSession id io => exact .inl ⟨_, evolves_removeSession codec _ id io, rfl⟩
  | raiseLatch => exact .inl ⟨[], .refl _, rfl⟩
  | disableRestarts => exact .inl ⟨_, evolves_disableRestarts _, rfl⟩
  | stopAll io => exact .inl ⟨_, evolves_stopAll _ io, rfl⟩
  | expireLeases now instants io =>
    cases hphase : sys.maintenance with
    | idle =>
      simp only [Call.perform, hphase]
      exact .inl ⟨_, evolves_expireLeases codec _ _ instants io, rfl⟩
    | _ => exact .inl (hidle (by simp [Call.perform, hphase]))
  | schedule io =>
    cases hphase : sys.maintenance with
    | expired =>
      simp only [Call.perform, hphase]
      exact .inl ⟨_, evolves_schedule _ io, rfl⟩
    | _ => exact .inl (hidle (by simp [Call.perform, hphase]))
  | probe answers =>
    cases hphase : sys.maintenance with
    | scheduled probes =>
      simp only [Call.perform, hphase]
      exact .inl ⟨[], .refl _, by simp⟩
    | _ => exact .inl (hidle (by simp [Call.perform, hphase]))
  | applyProbes now =>
    cases hphase : sys.maintenance with
    | probed results =>
      simp only [Call.perform, hphase]
      exact .inr ⟨results, rfl, rfl, rfl⟩
    | _ => exact .inl (hidle (by simp [Call.perform, hphase]))
  | persistObservations io =>
    cases hphase : sys.maintenance with
    | observed observations =>
      simp only [Call.perform, hphase]
      exact .inl ⟨_, evolves_persistObservations codec _ observations io, rfl⟩
    | _ => exact .inl (hidle (by simp [Call.perform, hphase]))
  | rehash rank => exact .inl ⟨_, evolves_rehash _ rank, rfl⟩

/-- Every endpoint after a call is one before it, kept. -/
theorem kept_perform (codec : Codec) (sys : Sys) (call : Call) {endpoint : Endpoint}
    (h : endpoint ∈ (call.perform codec sys).sup.endpoints.entries) :
    ∃ old ∈ sys.sup.endpoints.entries, Endpoint.Kept old endpoint := by
  rcases perform_cases codec sys call with ⟨spawns, hevolves, -⟩ | ⟨results, -, hendpoints, -⟩
  · obtain ⟨old, hold, hevolved⟩ := hevolves.evolved endpoint h
    exact ⟨old, hold, hevolved.toKept⟩
  · rw [hendpoints] at h
    exact kept_applyProbes results h

end Cameo.Supervisor
