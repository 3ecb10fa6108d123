import Cameo.Supervisor.Effects

/-!
# Readiness belongs to the current process

Health probes run outside the endpoint lock, so a result may arrive after the probed process was
replaced.  `apply_health_probe` compares pid and start time.  As long as no two process instances
share both, an endpoint is ready only if a successful probe of the very instance it has now was
applied after that instance was started.
-/

namespace Cameo.Supervisor

open Library Store

/-- Every spawn is an instance of its own, and instances differ in pid or start time. -/
structure DistinctInstances (history : List Event) : Prop where
  serials : ((spawnsOf history).map fun spawn ↦ spawn.child.serial).Nodup
  keys : ((spawnsOf history).map fun spawn ↦ (spawn.child.pid, spawn.startedAt)).Nodup

/-- The process of the endpoint was spawned for it, at its start time. -/
def SpawnRecorded (history : List Event) (endpoint : Endpoint) : Prop :=
  ∀ child, endpoint.child = some child →
    ∃ cause, .spawned ⟨cause, endpoint.id, child, endpoint.startedAt⟩ ∈ history

/-- A probe was taken from a spawned instance. -/
def ProbeRecorded (history : List Event) (probe : HealthProbe) : Prop :=
  ∃ spawn, .spawned spawn ∈ history ∧ spawn.child.pid = probe.processId ∧
    spawn.startedAt = probe.startedAt ∧ spawn.child.serial = probe.serial

/-- If the endpoint is marked ready, its process was spawned and later a successful probe of that
instance was applied. -/
def ReadyProven (history : List Event) (endpoint : Endpoint) : Prop :=
  ∀ child, endpoint.child = some child → endpoint.ready = true → ∃ cause probe,
    List.Sublist [.spawned ⟨cause, endpoint.id, child, endpoint.startedAt⟩,
        .applied probe (.ok ())] history ∧
      probe.endpointId = endpoint.id ∧ probe.serial = child.serial

def Maintenance.probes : Maintenance → List HealthProbe
  | .scheduled probes => probes
  | .probed results => results.map Prod.fst
  | _ => []

/-- What the history says about processes, probes and readiness. -/
structure Recorded (sys : Sys) : Prop where
  spawned : ∀ endpoint ∈ sys.sup.endpoints.entries, SpawnRecorded sys.history endpoint
  probes : ∀ probe ∈ sys.maintenance.probes, ProbeRecorded sys.history probe
  ready : DistinctInstances sys.history →
    ∀ endpoint ∈ sys.sup.endpoints.entries, ReadyProven sys.history endpoint

theorem DistinctInstances.of_append {early late : List Event}
    (h : DistinctInstances (early ++ late)) : DistinctInstances early := by
  have hsub : (spawnsOf early).Sublist (spawnsOf (early ++ late)) := by
    rw [spawnsOf_append]
    exact List.sublist_append_left _ _
  exact ⟨h.serials.sublist (hsub.map _), h.keys.sublist (hsub.map _)⟩

/-- Spawned instances with one pid and start time are one instance. -/
theorem DistinctInstances.eq_of_key {history : List Event} (h : DistinctInstances history)
    {first second : Spawn} (hfirst : .spawned first ∈ history) (hsecond : .spawned second ∈ history)
    (hpid : first.child.pid = second.child.pid) (hstarted : first.startedAt = second.startedAt) :
    first = second :=
  List.inj_on_of_nodup_map h.keys (mem_spawnsOf.mpr hfirst) (mem_spawnsOf.mpr hsecond)
    (Prod.ext hpid hstarted)

/-! ## Evolutions -/

section Evolved

variable {history events : List Event} {P : Spawn → Prop} {old new : Endpoint}

theorem SpawnRecorded.of_evolved (h : SpawnRecorded history old)
    (hevolved : Endpoint.Evolved P old new)
    (hallowed : ∀ spawn, P spawn → .spawned spawn ∈ events) :
    SpawnRecorded (history ++ events) new := by
  intro child hchild
  rcases hevolved.child child hchild with ⟨hold, hstarted, -⟩ | ⟨hspawn, -⟩
  · obtain ⟨cause, hmem⟩ := h child hold
    refine ⟨cause, List.mem_append_left _ ?_⟩
    rw [hevolved.id, hstarted]
    exact hmem
  · exact ⟨.restart, List.mem_append_right _ (hallowed _ hspawn)⟩

theorem ReadyProven.of_evolved (h : ReadyProven history old)
    (hevolved : Endpoint.Evolved P old new) : ReadyProven (history ++ events) new := by
  intro child hchild hready
  rcases hevolved.child child hchild with ⟨hold, hstarted, hwas⟩ | ⟨-, hnot⟩
  · obtain ⟨cause, probe, hsublist, hid, hserial⟩ := h child hold (hwas hready)
    refine ⟨cause, probe, ?_, hid.trans hevolved.id.symm, hserial⟩
    rw [hevolved.id, hstarted]
    exact hsublist.trans (List.sublist_append_left _ _)
  · cases hready.symm.trans hnot

end Evolved

theorem ProbeRecorded.append {history : List Event} {probe : HealthProbe}
    (h : ProbeRecorded history probe) (events : List Event) :
    ProbeRecorded (history ++ events) probe := by
  obtain ⟨spawn, hmem, hrest⟩ := h
  exact ⟨spawn, List.mem_append_left _ hmem, hrest⟩

/-! ## Starts -/

theorem recorded_start (codec : Codec) {sys : Sys} (req : StartRequest) (io : StartIo)
    (h : Recorded sys) : Recorded (sys.step codec (.start req io)) := by
  have hallowed (spawn : Spawn) (hspawn : spawn ∈ (start codec req io sys.sup).spawns) :
      Event.spawned spawn ∈ (start codec req io sys.sup).spawns.map .spawned :=
    List.mem_map_of_mem hspawn
  -- the new endpoint has the process its start spawned, and is not ready
  have hnewSpawn
      (hspawns : ∀ spawn ∈ startSpawn req io, spawn ∈ (start codec req io sys.sup).spawns) :
      ∀ child, (newEndpoint req io).child = some child →
        Event.spawned ⟨.start, req.id, child, io.startedAt⟩ ∈
          (start codec req io sys.sup).spawns.map .spawned := by
    intro child hchild
    apply hallowed
    apply hspawns
    cases hspawn : io.spawn with
    | error e => simp [newEndpoint, hspawn, Except.toOption] at hchild
    | ok spawned =>
      simp only [newEndpoint, hspawn, Except.toOption, Option.some.injEq] at hchild
      subst hchild
      simp [startSpawn, hspawn]
  refine ⟨?_, ?_, ?_⟩
  · intro endpoint hmem
    rcases mem_start codec hmem with ⟨old, hold, hevolved⟩ | ⟨hevolved, hspawns⟩
    · exact (h.spawned old hold).of_evolved hevolved hallowed
    · intro child hchild
      rcases hevolved.child child hchild with ⟨hnew, hstarted, -⟩ | ⟨hspawn, -⟩
      · refine ⟨.start, List.mem_append_right _ ?_⟩
        rw [hevolved.id, hstarted]
        exact hnewSpawn hspawns child hnew
      · exact ⟨.restart, List.mem_append_right _ (hallowed _ hspawn)⟩
  · intro probe hprobe
    exact (h.probes probe hprobe).append _
  · intro hdistinct endpoint hmem
    rcases mem_start codec hmem with ⟨old, hold, hevolved⟩ | ⟨hevolved, -⟩
    · exact (h.ready hdistinct.of_append old hold).of_evolved hevolved
    · intro child hchild hready
      rcases hevolved.child child hchild with ⟨-, -, hwas⟩ | ⟨-, hnot⟩
      · cases hwas hready
      · cases hready.symm.trans hnot

/-! ## Calls -/

/-- The probes in flight after a call were in flight before it, or name the process an endpoint
now has. -/
theorem probes_perform (codec : Codec) (sys : Sys) (call : Call) {probe : HealthProbe}
    (h : probe ∈ (call.perform codec sys).maintenance.probes) :
    probe ∈ sys.maintenance.probes ∨
      ∃ endpoint ∈ (call.perform codec sys).sup.endpoints.entries, ∃ child,
        endpoint.child = some child ∧ child.pid = probe.processId ∧
          endpoint.startedAt = probe.startedAt ∧ child.serial = probe.serial := by
  cases call with
  | expireLeases now instants io =>
    simp only [Call.perform] at h
    split at h
    · cases h
    · exact .inl h
  | schedule io =>
    cases hphase : sys.maintenance with
    | expired =>
      simp only [Call.perform, hphase] at h ⊢
      obtain ⟨refreshed, hmem, hdue⟩ := List.mem_filterMap.mp h
      exact .inr ⟨_, List.mem_map.mpr ⟨refreshed, hmem, rfl⟩,
        Endpoint.child_of_scheduleHealthProbe hdue⟩
    | _ =>
      simp only [Call.perform, hphase] at h
      exact .inl (hphase ▸ h)
  | probe answers =>
    cases hphase : sys.maintenance with
    | scheduled probes =>
      simp only [Call.perform, hphase, Maintenance.probes, List.map_map, List.mem_map,
        Function.comp_apply] at h
      obtain ⟨earlier, hmem, rfl⟩ := h
      exact .inl hmem
    | _ =>
      simp only [Call.perform, hphase] at h
      exact .inl (hphase ▸ h)
  | applyProbes now =>
    simp only [Call.perform] at h
    split at h
    · cases h
    · exact .inl h
  | persistObservations io =>
    simp only [Call.perform] at h
    split at h
    · cases h
    · exact .inl h
  | _ => exact .inl h

/-- A probe result that finds the process it was taken from proves the endpoint ready. -/
theorem readyProven_applyHealthProbe {history : List Event} {endpoint : Endpoint}
    {probe : HealthProbe} {result : Except String Unit}
    (hdistinct : DistinctInstances history) (hprobe : ProbeRecorded history probe)
    (hspawned : SpawnRecorded history endpoint) (hid : endpoint.id = probe.endpointId)
    (hsame : endpoint.sameProcess probe = true) :
    ReadyProven (history ++ [.applied probe result]) (endpoint.applyHealthProbe probe result) := by
  intro child hchild hready
  rw [Endpoint.child_applyHealthProbe] at hchild
  have hok : result = .ok () := by
    cases hresult : result with
    | ok _ => rfl
    | error e => simp [Endpoint.applyHealthProbe, hsame, hresult] at hready
  obtain ⟨cause, hrecorded⟩ := hspawned child hchild
  obtain ⟨spawn, hspawn, hpid, hstarted, hserial⟩ := hprobe
  simp only [Endpoint.sameProcess, hchild, Option.map_some, Bool.and_eq_true, decide_eq_true_eq,
    Option.some.injEq] at hsame
  have hinstance := hdistinct.eq_of_key hrecorded hspawn (hsame.1.trans hpid.symm)
    (hsame.2.trans hstarted.symm)
  refine ⟨cause, probe, ?_, ?_, ?_⟩
  · rw [id_applyHealthProbe, Endpoint.startedAt_applyHealthProbe, hok]
    exact List.Sublist.append (List.singleton_sublist.mpr hrecorded) (List.Sublist.refl _)
  · rw [id_applyHealthProbe, hid]
  · rw [← hserial, ← hinstance]

/-- Applying one probe result keeps the records, if the probe was taken from a spawned
instance. -/
theorem recorded_applyProbe {map : EndpointMap} {history : List Event}
    {answer : HealthProbe × Except String Unit} (hprobe : ProbeRecorded history answer.1)
    (hspawned : ∀ endpoint ∈ map.entries, SpawnRecorded history endpoint)
    (hready : DistinctInstances history → ∀ endpoint ∈ map.entries, ReadyProven history endpoint) :
    (∀ endpoint ∈ (applyProbe map answer).entries,
        SpawnRecorded (history ++ [.applied answer.1 answer.2]) endpoint) ∧
      (DistinctInstances (history ++ [.applied answer.1 answer.2]) →
        ∀ endpoint ∈ (applyProbe map answer).entries,
          ReadyProven (history ++ [.applied answer.1 answer.2]) endpoint) := by
  have hkept (endpoint : Endpoint) : Endpoint.Evolved (fun _ ↦ False) endpoint endpoint :=
    .refl endpoint
  constructor
  · intro endpoint hmem
    rcases (map.mem_modify _ _ _ endpoint).mp hmem with ⟨hmem, -⟩ | ⟨old, hold, -, rfl⟩
    · exact (hspawned endpoint hmem).of_evolved (hkept endpoint) fun _ ↦ False.elim
    · intro child hchild
      rw [Endpoint.child_applyHealthProbe] at hchild
      obtain ⟨cause, hrecorded⟩ := hspawned old hold child hchild
      refine ⟨cause, List.mem_append_left _ ?_⟩
      rw [id_applyHealthProbe, Endpoint.startedAt_applyHealthProbe]
      exact hrecorded
  · intro hdistinct endpoint hmem
    have hbefore := hready hdistinct.of_append
    rcases (map.mem_modify _ _ _ endpoint).mp hmem with ⟨hmem, -⟩ | ⟨old, hold, hid, rfl⟩
    · exact (hbefore endpoint hmem).of_evolved (hkept endpoint)
    · by_cases hsame : old.sameProcess answer.1 = true
      · exact readyProven_applyHealthProbe hdistinct.of_append hprobe (hspawned old hold) hid hsame
      · -- a probe of an earlier instance changes nothing
        have hunchanged : old.applyHealthProbe answer.1 answer.2 = old := by
          unfold Endpoint.applyHealthProbe
          rw [if_neg hsame]
        rw [hunchanged]
        exact (hbefore old hold).of_evolved (hkept old)

/-- Applying all results keeps the records. -/
theorem recorded_applyProbes (results : List (HealthProbe × Except String Unit))
    {map : EndpointMap} {history : List Event}
    (hprobes : ∀ answer ∈ results, ProbeRecorded history answer.1)
    (hspawned : ∀ endpoint ∈ map.entries, SpawnRecorded history endpoint)
    (hready : DistinctInstances history → ∀ endpoint ∈ map.entries, ReadyProven history endpoint) :
    (∀ endpoint ∈ (results.foldl applyProbe map).entries,
        SpawnRecorded (history ++ results.map fun answer ↦ .applied answer.1 answer.2) endpoint) ∧
      (DistinctInstances (history ++ results.map fun answer ↦ .applied answer.1 answer.2) →
        ∀ endpoint ∈ (results.foldl applyProbe map).entries,
          ReadyProven (history ++ results.map fun answer ↦ .applied answer.1 answer.2)
            endpoint) := by
  induction results generalizing map history with
  | nil => simpa using ⟨hspawned, hready⟩
  | cons answer rest ih =>
    obtain ⟨hspawned', hready'⟩ := recorded_applyProbe
      (hprobes answer List.mem_cons_self) hspawned hready
    have hrest := ih (fun other hmem ↦ (hprobes other (List.mem_cons_of_mem _ hmem)).append _)
      hspawned' hready'
    have hevents : history ++ (answer :: rest).map (fun answer ↦ Event.applied answer.1 answer.2) =
        (history ++ [.applied answer.1 answer.2]) ++
          rest.map fun answer ↦ .applied answer.1 answer.2 := by
      simp
    rw [hevents]
    exact hrest

theorem recorded_perform (codec : Codec) {sys : Sys} (call : Call) (h : Recorded sys) :
    Recorded (call.perform codec sys) := by
  have hprobes (hspawned : ∀ endpoint ∈ (call.perform codec sys).sup.endpoints.entries,
        SpawnRecorded (call.perform codec sys).history endpoint)
      (hhistory : ∃ events, (call.perform codec sys).history = sys.history ++ events) :
      ∀ probe ∈ (call.perform codec sys).maintenance.probes,
        ProbeRecorded (call.perform codec sys).history probe := by
    intro probe hprobe
    rcases probes_perform codec sys call hprobe with hold | ⟨endpoint, hmem, child, hchild, hpid,
      hstarted, hserial⟩
    · obtain ⟨events, hevents⟩ := hhistory
      rw [hevents]
      exact (h.probes probe hold).append events
    · obtain ⟨cause, hrecorded⟩ := hspawned endpoint hmem child hchild
      exact ⟨_, hrecorded, hpid, hstarted, hserial⟩
  rcases perform_cases codec sys call with ⟨spawns, hevolves, hhistory⟩ |
    ⟨results, hphase, hendpoints, hhistory⟩
  · have hspawned : ∀ endpoint ∈ (call.perform codec sys).sup.endpoints.entries,
        SpawnRecorded (call.perform codec sys).history endpoint := by
      intro endpoint hmem
      obtain ⟨old, hold, hevolved⟩ := hevolves.evolved endpoint hmem
      rw [hhistory]
      exact (h.spawned old hold).of_evolved hevolved fun _ hspawn ↦ List.mem_map_of_mem hspawn
    refine ⟨hspawned, hprobes hspawned ⟨_, hhistory⟩, ?_⟩
    intro hdistinct endpoint hmem
    obtain ⟨old, hold, hevolved⟩ := hevolves.evolved endpoint hmem
    rw [hhistory] at hdistinct ⊢
    exact (h.ready hdistinct.of_append old hold).of_evolved hevolved
  · have hanswers : ∀ answer ∈ results, ProbeRecorded sys.history answer.1 := by
      intro answer hanswer
      apply h.probes
      rw [hphase]
      exact List.mem_map_of_mem hanswer
    have happlied := recorded_applyProbes results hanswers h.spawned h.ready
    rw [← hendpoints, ← hhistory] at happlied
    exact ⟨happlied.1, hprobes happlied.1 ⟨_, hhistory⟩, happlied.2⟩

/-! ## Runs -/

/-- In every run in which no two process instances share pid and start time, an endpoint is ready
only if its present process was spawned and, after that, a successful probe of that instance was
applied. -/
theorem ready_of_current_instance {codec : Codec} {sup : Supervisor}
    (hinitial : Initial codec sup) (labels : List Label)
    (hdistinct : DistinctInstances ((Sys.fresh sup).run codec labels).history)
    {endpoint : Endpoint}
    (hmem : endpoint ∈ ((Sys.fresh sup).run codec labels).sup.endpoints.entries)
    (hready : endpoint.isReady = true) :
    ∃ child cause probe, endpoint.child = some child ∧
      List.Sublist [.spawned ⟨cause, endpoint.id, child, endpoint.startedAt⟩,
        .applied probe (.ok ())] ((Sys.fresh sup).run codec labels).history ∧
      probe.endpointId = endpoint.id ∧ probe.serial = child.serial := by
  have hrecorded : Recorded ((Sys.fresh sup).run codec labels) := by
    refine Run.invariant_run_of_step Recorded ?_ labels ?_
    · intro sys label h
      cases label with
      | start req io => exact recorded_start codec req io h
      | call call => exact recorded_perform codec call h
    · have hnone (endpoint : Endpoint) : endpoint ∉ (Sys.fresh sup).sup.endpoints.entries := by
        change endpoint ∉ sup.endpoints.entries
        rw [hinitial.endpoints.1]
        exact List.not_mem_nil
      exact ⟨fun endpoint hmem ↦ absurd hmem (hnone endpoint), nofun,
        fun _ endpoint hmem ↦ absurd hmem (hnone endpoint)⟩
  simp only [Endpoint.isReady, Bool.and_eq_true] at hready
  obtain ⟨child, hchild⟩ := Option.isSome_iff_exists.mp hready.1.1
  obtain ⟨cause, probe, hproven⟩ := hrecorded.ready hdistinct endpoint hmem child hchild
    hready.1.2
  exact ⟨child, cause, probe, hchild, hproven⟩

/-- A started endpoint that answered its first probe. -/
def servedAlpha : List Label :=
  .start (.simple "alpha" 8080 8 16 true) (.plain 0 ⟨101, 1⟩) :: healthyPass 1000000000

theorem ready_of_current_instance_servedAlpha :
    ∃ endpoint ∈ ((Sys.fresh .default).run .constant servedAlpha).sup.endpoints.entries,
      ∃ child cause probe, endpoint.child = some child ∧
        List.Sublist [.spawned ⟨cause, endpoint.id, child, endpoint.startedAt⟩,
          .applied probe (.ok ())] ((Sys.fresh .default).run .constant servedAlpha).history ∧
        probe.endpointId = endpoint.id ∧ probe.serial = child.serial := by
  have hexists : ∃ endpoint ∈
      ((Sys.fresh .default).run .constant servedAlpha).sup.endpoints.entries,
      endpoint.isReady = true := by
    decide
  obtain ⟨endpoint, hmem, hready⟩ := hexists
  exact ⟨endpoint, hmem,
    ready_of_current_instance .default servedAlpha ⟨by decide, by decide⟩ hmem hready⟩

end Cameo.Supervisor
