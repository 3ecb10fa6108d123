import Mathlib.Logic.Relation
import Cameo.Supervisor.Endpoint

/-!
# What an endpoint can become

`refresh` either keeps the process, drops it, or replaces it by a freshly spawned one; it never
clears an error and never touches what identifies the endpoint.  An endpoint *awaits restart* when
its process is gone and a later `refresh` may respawn it, and it *holds capacity* when it runs or
awaits restart: no operation on an existing endpoint ever lets it start holding capacity.

`Kept` collects what every operation on an existing endpoint respects.  `Evolved` adds where its
process can come from; it holds of every operation but the application of a health probe, and its
parameter `P` bounds the processes spawned on the way.
-/

namespace Cameo.Supervisor

namespace Endpoint

/-- The process is gone and a later refresh may respawn it. -/
def awaitsRestart (endpoint : Endpoint) : Bool :=
  endpoint.restartEnabled && endpoint.error.isNone && endpoint.child.isNone &&
    endpoint.lastExitAt.isSome && endpoint.restarts < maxRestarts

/-- The endpoint has a process or may get one back without a new start. -/
def holdsCapacity (endpoint : Endpoint) : Bool :=
  endpoint.processRunning || endpoint.awaitsRestart

theorem awaitsRestart_iff (endpoint : Endpoint) :
    endpoint.awaitsRestart = true ↔
      endpoint.restartEnabled = true ∧ endpoint.error = none ∧ endpoint.child = none ∧
        endpoint.lastExitAt.isSome ∧ endpoint.restarts < maxRestarts := by
  simp [awaitsRestart, and_assoc]

/-! ## Inversion of `refresh` -/

/-- A reaping leaves the endpoint alone, drops an exited child, or parks the endpoint. -/
theorem reap_cases (io : RefreshIo) (endpoint : Endpoint) :
    reap io endpoint = endpoint ∨
      (endpoint.processRunning = true ∧ ∃ code restarts,
        reap io endpoint = { endpoint with
          exitCode := code, child := none, lastExitAt := some io.exitAt, restarts := restarts }) ∨
      (endpoint.processRunning = true ∧ ∃ e,
        reap io endpoint = { endpoint with error := some e, ready := false }) := by
  unfold reap
  cases hchild : endpoint.child with
  | none => exact .inl rfl
  | some child =>
    have hrunning : endpoint.processRunning = true := by simp [processRunning, hchild]
    cases io.tryWait with
    | exited code => exact .inr (.inl ⟨hrunning, code, _, rfl⟩)
    | running => exact .inl rfl
    | failed e => exact .inr (.inr ⟨hrunning, _, rfl⟩)

/-- A restart either happens, for an endpoint that awaited it, or changes at most the error. -/
theorem maybeRestart_cases (io : RefreshIo) (endpoint : Endpoint) :
    (∃ error, maybeRestart io endpoint = ({ endpoint with error := error }, []) ∧
        (endpoint.error.isSome → error.isSome)) ∨
      (endpoint.awaitsRestart = true ∧ ∃ child,
        maybeRestart io endpoint = (endpoint.restarted child io.startedAt,
          [⟨.restart, endpoint.id, child, io.startedAt⟩])) := by
  unfold maybeRestart
  split
  · exact .inl ⟨endpoint.error, rfl, fun h ↦ h⟩
  · rename_i henabled
    dsimp only
    split
    · rename_i hattempt
      obtain ⟨hchild, herror, hsince, hbudget⟩ := restartDecision_eq_attempt hattempt
      have hexit : endpoint.lastExitAt.isSome := by
        cases hlast : endpoint.lastExitAt with
        | none => simp [hlast] at hsince
        | some at_ => rfl
      have hawaits : endpoint.awaitsRestart = true := by
        rw [awaitsRestart_iff]
        simp only [Bool.not_eq_true, Bool.not_eq_false'] at henabled
        exact ⟨henabled, by simpa using herror, by simpa using hchild, hexit, hbudget⟩
      split
      · exact .inr ⟨hawaits, _, rfl⟩
      · exact .inl ⟨_, rfl, fun _ ↦ rfl⟩
    · exact .inl ⟨_, rfl, fun _ ↦ rfl⟩
    · exact .inl ⟨endpoint.error, rfl, fun h ↦ h⟩
    · exact .inl ⟨endpoint.error, rfl, fun h ↦ h⟩

/-! ## Evolution -/

/-- What no operation on an existing endpoint changes, and which facts it can only lose. -/
structure Kept (before after : Endpoint) : Prop where
  id : after.id = before.id
  model : after.model = before.model
  port : after.port = before.port
  vramBytes : after.vramBytes = before.vramBytes
  error : before.error.isSome → after.error.isSome
  restartEnabled : after.restartEnabled = true → before.restartEnabled = true
  capacity : after.holdsCapacity = true → before.holdsCapacity = true

namespace Kept

variable {first second third : Endpoint}

theorem refl (endpoint : Endpoint) : Kept endpoint endpoint :=
  ⟨rfl, rfl, rfl, rfl, fun h ↦ h, fun h ↦ h, fun h ↦ h⟩

theorem trans (h : Kept first second) (h' : Kept second third) : Kept first third where
  id := h'.id.trans h.id
  model := h'.model.trans h.model
  port := h'.port.trans h.port
  vramBytes := h'.vramBytes.trans h.vramBytes
  error := fun herror ↦ h'.error (h.error herror)
  restartEnabled := fun henabled ↦ h.restartEnabled (h'.restartEnabled henabled)
  capacity := fun hholds ↦ h.capacity (h'.capacity hholds)

end Kept

/-- What any sequence of refreshes, probe schedulings, uses and stops can do to an endpoint, when
the processes spawned on the way are all allowed. -/
structure Evolved (P : Spawn → Prop) (before after : Endpoint) : Prop
    extends Kept before after where
  child : ∀ child, after.child = some child →
    (before.child = some child ∧ after.startedAt = before.startedAt ∧
        (after.ready = true → before.ready = true)) ∨
      (P ⟨.restart, after.id, child, after.startedAt⟩ ∧ after.ready = false)

namespace Evolved

variable {P : Spawn → Prop} {first second third : Endpoint}

theorem refl (endpoint : Endpoint) : Evolved P endpoint endpoint :=
  ⟨.refl endpoint, fun _ h ↦ .inl ⟨h, rfl, fun h ↦ h⟩⟩

theorem trans (h : Evolved P first second) (h' : Evolved P second third) :
    Evolved P first third where
  toKept := h.toKept.trans h'.toKept
  child := by
    intro child hchild
    rcases h'.child child hchild with ⟨hsecond, hstarted, hready⟩ | hspawned
    · rcases h.child child hsecond with ⟨hfirst, hstarted', hready'⟩ | ⟨hallowed, hnot⟩
      · exact .inl ⟨hfirst, hstarted.trans hstarted', fun hr ↦ hready' (hready hr)⟩
      · refine .inr ⟨?_, ?_⟩
        · rw [h'.id, hstarted]
          exact hallowed
        · cases hthird : third.ready with
          | false => rfl
          | true => rw [hready hthird] at hnot; cases hnot
    · exact .inr hspawned

theorem mono {Wider : Spawn → Prop} (h : Evolved P first second)
    (hwider : ∀ spawn, P spawn → Wider spawn) : Evolved Wider first second :=
  { h with
    child := fun child hchild ↦ (h.child child hchild).imp_right fun hspawned ↦
      ⟨hwider _ hspawned.1, hspawned.2⟩ }

end Evolved

/-- Marking an endpoint as failed and not ready is an evolution. -/
theorem evolved_park {P : Spawn → Prop} (endpoint : Endpoint) (error : String) :
    Evolved P endpoint { endpoint with error := some error, ready := false } := by
  refine ⟨⟨rfl, rfl, rfl, rfl, fun _ ↦ rfl, fun h ↦ h, ?_⟩, fun _ h ↦ .inl ⟨h, rfl, nofun⟩⟩
  intro hholds
  have hrunning : endpoint.processRunning = true := by
    simpa [holdsCapacity, processRunning, awaitsRestart] using hholds
  simp [holdsCapacity, hrunning]

/-- Applying a health probe keeps everything but readiness. -/
theorem kept_applyHealthProbe (probe : HealthProbe) (result : Except String Unit)
    (endpoint : Endpoint) : Kept endpoint (applyHealthProbe probe result endpoint) := by
  unfold applyHealthProbe
  split
  · split <;> exact ⟨rfl, rfl, rfl, rfl, fun h ↦ h, fun h ↦ h, fun h ↦ h⟩
  · exact ⟨rfl, rfl, rfl, rfl, fun h ↦ h, fun h ↦ h, fun h ↦ h⟩

theorem child_applyHealthProbe (probe : HealthProbe) (result : Except String Unit)
    (endpoint : Endpoint) : (applyHealthProbe probe result endpoint).child = endpoint.child := by
  unfold applyHealthProbe
  split
  · split <;> rfl
  · rfl

theorem startedAt_applyHealthProbe (probe : HealthProbe) (result : Except String Unit)
    (endpoint : Endpoint) :
    (applyHealthProbe probe result endpoint).startedAt = endpoint.startedAt := by
  unfold applyHealthProbe
  split
  · split <;> rfl
  · rfl

/-- A scheduled probe names the process the endpoint has. -/
theorem child_of_scheduleHealthProbe {dueAt now : SystemTime} {endpoint : Endpoint}
    {probe : HealthProbe} (h : (scheduleHealthProbe dueAt now endpoint).2 = some probe) :
    ∃ child, (scheduleHealthProbe dueAt now endpoint).1.child = some child ∧
      child.pid = probe.processId ∧
      (scheduleHealthProbe dueAt now endpoint).1.startedAt = probe.startedAt ∧
      child.serial = probe.serial := by
  unfold scheduleHealthProbe at h ⊢
  cases hchild : endpoint.child with
  | none => simp [hchild] at h
  | some child =>
    simp only [hchild] at h ⊢
    split at h
    · rename_i hdue
      cases h
      rw [if_pos hdue]
      exact ⟨child, rfl, rfl, rfl, rfl⟩
    · cases h

/-- Changing only the error, without clearing it, is an evolution. -/
theorem evolved_error {P : Spawn → Prop} (endpoint : Endpoint) {error : Option String}
    (h : endpoint.error.isSome → error.isSome) :
    Evolved P endpoint { endpoint with error := error } where
  id := rfl
  model := rfl
  port := rfl
  vramBytes := rfl
  error := h
  restartEnabled := fun henabled ↦ henabled
  capacity := by
    intro hholds
    simp only [holdsCapacity, processRunning, Bool.or_eq_true, awaitsRestart_iff] at hholds ⊢
    rcases hholds with hrunning | ⟨henabled, herror, hrest⟩
    · exact .inl hrunning
    · refine .inr ⟨henabled, ?_, hrest⟩
      cases hbefore : endpoint.error with
      | none => rfl
      | some e =>
        rw [herror] at h
        exact absurd (h (by simp [hbefore])) (by simp)
  child := fun _ hchild ↦ .inl ⟨hchild, rfl, fun hready ↦ hready⟩

theorem evolved_reap {P : Spawn → Prop} (io : RefreshIo) (endpoint : Endpoint) :
    Evolved P endpoint (reap io endpoint) := by
  rcases reap_cases io endpoint with h | ⟨hrunning, code, restarts, h⟩ | ⟨hrunning, e, h⟩
  · rw [h]
    exact .refl endpoint
  · rw [h]
    exact ⟨⟨rfl, rfl, rfl, rfl, fun herror ↦ herror, fun henabled ↦ henabled,
      fun _ ↦ by simp [holdsCapacity, hrunning]⟩, nofun⟩
  · rw [h]
    exact ⟨⟨rfl, rfl, rfl, rfl, fun _ ↦ rfl, fun henabled ↦ henabled,
      fun _ ↦ by simp [holdsCapacity, hrunning]⟩, fun _ hchild ↦ .inl ⟨hchild, rfl, nofun⟩⟩

theorem evolved_maybeRestart {P : Spawn → Prop} (io : RefreshIo) (endpoint : Endpoint)
    (h : ∀ spawn ∈ (maybeRestart io endpoint).2, P spawn) :
    Evolved P endpoint (maybeRestart io endpoint).1 := by
  rcases maybeRestart_cases io endpoint with ⟨error, heq, herror⟩ | ⟨hawaits, child, heq⟩
  · rw [heq]
    exact evolved_error endpoint herror
  · rw [heq] at h ⊢
    have hspawn := h _ (List.mem_singleton.mpr rfl)
    refine ⟨⟨rfl, rfl, rfl, rfl, fun herror ↦ herror, fun henabled ↦ henabled,
      fun _ ↦ by simp [holdsCapacity, hawaits]⟩, ?_⟩
    intro other hother
    cases hother
    exact .inr ⟨hspawn, rfl⟩

/-- A refresh evolves the endpoint. -/
theorem evolved_refresh {P : Spawn → Prop} (io : RefreshIo) (endpoint : Endpoint)
    (h : ∀ spawn ∈ (endpoint.refresh io).2, P spawn) :
    Evolved P endpoint (endpoint.refresh io).1 :=
  (evolved_reap io endpoint).trans (evolved_maybeRestart io (reap io endpoint) h)

theorem kept_refresh (io : RefreshIo) (endpoint : Endpoint) :
    Kept endpoint (endpoint.refresh io).1 :=
  (evolved_refresh io endpoint fun _ h ↦ h).toKept

/-- A refresh keeps the command an endpoint runs, and what its plan says of the VRAM. -/
theorem placement_refresh (io : RefreshIo) (endpoint : Endpoint) :
    (endpoint.refresh io).1.command = endpoint.command ∧
      (endpoint.refresh io).1.fitsVram = endpoint.fitsVram := by
  have hreap : (reap io endpoint).command = endpoint.command ∧
      (reap io endpoint).fitsVram = endpoint.fitsVram := by
    rcases reap_cases io endpoint with h | ⟨-, code, restarts, h⟩ | ⟨-, e, h⟩
    · rw [h]
      exact ⟨rfl, rfl⟩
    · rw [h]
      exact ⟨rfl, rfl⟩
    · rw [h]
      exact ⟨rfl, rfl⟩
  unfold refresh
  rcases maybeRestart_cases io (reap io endpoint) with ⟨error, h, -⟩ | ⟨-, child, h⟩
  · rw [h]
    exact hreap
  · rw [h]
    exact hreap

@[simp]
theorem id_refresh (io : RefreshIo) (endpoint : Endpoint) :
    (endpoint.refresh io).1.id = endpoint.id :=
  (kept_refresh io endpoint).id

/-- A refresh spawns only for the endpoint it refreshes, and only with restarts enabled. -/
theorem refresh_spawn {io : RefreshIo} {endpoint : Endpoint} {spawn : Spawn}
    (h : spawn ∈ (endpoint.refresh io).2) :
    endpoint.restartEnabled = true ∧ spawn.cause = .restart ∧
      spawn.endpointId = endpoint.id := by
  have hreap : Evolved (fun _ ↦ False) endpoint (reap io endpoint) := evolved_reap io endpoint
  rcases maybeRestart_cases io (reap io endpoint) with ⟨error, heq, -⟩ | ⟨hawaits, child, heq⟩
  · rw [refresh, heq] at h
    cases h
  · rw [refresh, heq, List.mem_singleton] at h
    refine ⟨hreap.restartEnabled ((awaitsRestart_iff _).mp hawaits).1, ?_, ?_⟩
    · rw [h]
    · rw [h]
      exact hreap.id

/-- Scheduling a probe evolves the endpoint. -/
theorem evolved_scheduleHealthProbe {P : Spawn → Prop} (dueAt now : SystemTime)
    (endpoint : Endpoint) :
    Evolved P endpoint (scheduleHealthProbe dueAt now endpoint).1 := by
  unfold scheduleHealthProbe
  split
  · exact .refl endpoint
  · dsimp only
    split
    · exact ⟨⟨rfl, rfl, rfl, rfl, fun h ↦ h, fun h ↦ h, fun h ↦ h⟩,
        fun _ h ↦ .inl ⟨h, rfl, fun h ↦ h⟩⟩
    · exact .refl endpoint

theorem kept_scheduleHealthProbe (dueAt now : SystemTime) (endpoint : Endpoint) :
    Kept endpoint (scheduleHealthProbe dueAt now endpoint).1 :=
  (evolved_scheduleHealthProbe (P := fun _ ↦ False) dueAt now endpoint).toKept

/-- Stopping evolves the endpoint, whether or not the exit is confirmed. -/
theorem evolved_stopOwned {P : Spawn → Prop} (io : TerminationIo) (endpoint : Endpoint) :
    Evolved P endpoint (endpoint.stopOwned io).2 := by
  unfold stopOwned
  dsimp only
  split
  · exact ⟨⟨rfl, rfl, rfl, rfl, fun _ ↦ rfl, fun h ↦ h, by simp [holdsCapacity, processRunning,
      awaitsRestart]⟩, nofun⟩
  · rename_i child hchild
    have hholds : endpoint.holdsCapacity = true := by
      simp [holdsCapacity, processRunning, hchild]
    split
    · exact ⟨⟨rfl, rfl, rfl, rfl, fun _ ↦ rfl, fun h ↦ h, fun _ ↦ hholds⟩,
        fun _ h ↦ .inl ⟨h, rfl, nofun⟩⟩
    · exact ⟨⟨rfl, rfl, rfl, rfl, fun _ ↦ rfl, fun h ↦ h, fun _ ↦ hholds⟩, nofun⟩

theorem kept_stopOwned (io : TerminationIo) (endpoint : Endpoint) :
    Kept endpoint (endpoint.stopOwned io).2 :=
  (evolved_stopOwned (P := fun _ ↦ False) io endpoint).toKept

/-- A stopped endpoint is parked. -/
theorem error_stopOwned (io : TerminationIo) (endpoint : Endpoint) :
    (endpoint.stopOwned io).2.error.isSome := by
  unfold stopOwned
  dsimp only
  split
  · rfl
  · split <;> rfl

end Endpoint

end Cameo.Supervisor
