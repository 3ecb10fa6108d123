import Cameo.Supervisor.Effects

/-!
# Nothing is spawned after shutdown

`begin_shutdown` first raises the latch and then, under the endpoint lock, disables every restart.
A start that was under way between the two may still add an endpoint, but the second half finds it.
From then on no endpoint can be started or restarted; terminating the owned processes does not
touch the store.
-/

namespace Cameo.Supervisor

open Library Store

/-- The latch is up and no endpoint restarts. -/
def ShutDown (sys : Sys) : Prop :=
  sys.sup.shuttingDown = true ∧
    ∀ endpoint ∈ sys.sup.endpoints.entries, endpoint.restartEnabled = false

/-! ## The latch stays up -/

section Latch

variable (codec : Codec) (sup : Supervisor)

theorem shuttingDown_stop (id : String) (io : StopIo) :
    (sup.stop codec id io).sup.shuttingDown = sup.shuttingDown := by
  unfold stop
  dsimp only
  split
  · rfl
  · split <;> rename_i heq <;> obtain ⟨-, rfl⟩ := commitWith_eq codec heq
    · rfl
    · split
      · rfl
      · split <;> rfl

theorem shuttingDown_adoptLeases {α : Type} (io : CommitIo) (next : LeaseMap) (answer : α) :
    (adoptLeases codec io next answer sup).sup.shuttingDown = sup.shuttingDown := by
  unfold adoptLeases
  split <;> rename_i heq <;> obtain ⟨-, rfl⟩ := commitWith_eq codec heq <;> rfl

theorem shuttingDown_lease (sessionId model : String) (io : LeaseIo) :
    (sup.lease codec sessionId model io).sup.shuttingDown = sup.shuttingDown := by
  unfold lease
  dsimp only
  split
  · rfl
  · split <;> rename_i heq <;> obtain ⟨-, rfl⟩ := commitWith_eq codec heq <;> rfl

theorem shuttingDown_release (sessionId : String) (io : CommitIo) :
    (sup.release codec sessionId io).sup.shuttingDown = sup.shuttingDown := by
  unfold release
  split
  · rfl
  · exact shuttingDown_adoptLeases codec sup io _ true

theorem shuttingDown_renewLease (sessionId : String) (io : RenewIo) :
    (sup.renewLease codec sessionId io).sup.shuttingDown = sup.shuttingDown := by
  unfold renewLease
  split
  · rfl
  · split
    · rfl
    · split <;> exact shuttingDown_adoptLeases codec sup io.commit _ ()

theorem shuttingDown_expireLeases (now : ℕ) (instants : String → Instant) (io : CommitIo) :
    (sup.expireLeases codec now instants io).sup.shuttingDown = sup.shuttingDown := by
  unfold expireLeases
  dsimp only
  split
  · exact shuttingDown_adoptLeases codec sup io _ ()
  · rfl

theorem shuttingDown_removeSession (id : String) (io : CommitIo) :
    (sup.removeSession codec id io).sup.shuttingDown = sup.shuttingDown := by
  unfold removeSession
  dsimp only
  split <;> rename_i heq <;> obtain ⟨-, rfl⟩ := commitWith_eq codec heq <;> rfl

theorem shuttingDown_persistObservations (observations : List Observation) (io : CommitIo) :
    (sup.persistObservations codec observations io).sup.shuttingDown = sup.shuttingDown := by
  unfold persistObservations
  dsimp only
  split
  · rfl
  · split <;> rfl

end Latch

/-- No call lowers the latch. -/
theorem shuttingDown_perform (codec : Codec) {sys : Sys} (call : Call)
    (h : sys.sup.shuttingDown = true) : (call.perform codec sys).sup.shuttingDown = true := by
  cases call with
  | stop id io => exact (shuttingDown_stop codec sys.sup id io).trans h
  | lease sessionId model io => exact (shuttingDown_lease codec sys.sup sessionId model io).trans h
  | release sessionId io => exact (shuttingDown_release codec sys.sup sessionId io).trans h
  | renewLease sessionId io => exact (shuttingDown_renewLease codec sys.sup sessionId io).trans h
  | removeSession id io => exact (shuttingDown_removeSession codec sys.sup id io).trans h
  | leaseStatus sessionId io =>
    simp only [Call.perform, Sys.after, leaseStatus]
    split <;> exact h
  | raiseLatch => rfl
  | expireLeases now instants io =>
    simp only [Call.perform]
    split
    · exact (shuttingDown_expireLeases codec sys.sup _ instants io).trans h
    · exact h
  | persistObservations io =>
    simp only [Call.perform]
    split
    · exact (shuttingDown_persistObservations codec sys.sup _ io).trans h
    · exact h
  | schedule io | probe answers | applyProbes now =>
    simp only [Call.perform]
    split <;> exact h
  | _ => exact h

theorem shuttingDown_step (codec : Codec) {sys : Sys} (label : Label)
    (h : sys.sup.shuttingDown = true) : (sys.step codec label).sup.shuttingDown = true := by
  cases label with
  | start req io => exact (leases_start codec req io sys.sup).2.trans h
  | call call => exact shuttingDown_perform codec call h

/-! ## After the shutdown has begun -/

/-- A step after the beginning of the shutdown spawns nothing and leaves it begun. -/
theorem shutDown_step (codec : Codec) (sys : Sys) (label : Label) (h : ShutDown sys) :
    ShutDown (sys.step codec label) ∧
      spawnsOf (sys.step codec label).history = spawnsOf sys.history := by
  obtain ⟨hlatch, hdisabled⟩ := h
  have hlatch' := shuttingDown_step codec label hlatch
  cases label with
  | start req io =>
    have hstart : start codec req io sys.sup = ⟨.error .shuttingDown, sys.sup, []⟩ := by
      rw [start, if_pos hlatch]
    simp only [Sys.step, Sys.after, hstart, List.map_nil, List.append_nil, and_true]
    exact ⟨hlatch, hdisabled⟩
  | call call =>
    refine ⟨⟨hlatch', ?_⟩, ?_⟩
    · intro endpoint hmem
      obtain ⟨old, hold, hkept⟩ := kept_perform codec sys call hmem
      cases henabled : endpoint.restartEnabled with
      | false => rfl
      | true => exact (hkept.restartEnabled henabled).symm.trans (hdisabled old hold)
    · rcases perform_cases codec sys call with
        ⟨spawns, hevolves, hhistory⟩ | ⟨results, -, -, hhistory⟩
      · have hnone : spawns = [] := by
          rw [List.eq_nil_iff_forall_not_mem]
          intro spawn hspawn
          obtain ⟨-, endpoint, hmem, henabled, -⟩ := hevolves.restarts spawn hspawn
          cases henabled.symm.trans (hdisabled endpoint hmem)
        rw [Sys.step, hhistory, hnone, List.map_nil, List.append_nil]
      · rw [Sys.step, hhistory, spawnsOf_append, spawnsOf_applied, List.append_nil]

/-- After the beginning of the shutdown, no run spawns anything. -/
theorem spawnsOf_run_of_shutDown (codec : Codec) {sys : Sys} (h : ShutDown sys)
    (labels : List Label) : spawnsOf (sys.run codec labels).history = spawnsOf sys.history := by
  induction labels generalizing sys with
  | nil => rfl
  | cons label labels ih =>
    obtain ⟨hafter, hspawns⟩ := shutDown_step codec sys label h
    exact (ih hafter).trans hspawns

/-- The locked parts of `shutdown_owned`, whose first two are `begin_shutdown`. -/
def shutdownCalls (io : ShutdownIo) : List Call := [.raiseLatch, .disableRestarts, .stopAll io]

/-- Performed one after the other, they are `shutdown_owned`. -/
theorem sup_run_shutdownCalls (codec : Codec) (io : ShutdownIo) (sys : Sys) :
    (sys.run codec ((shutdownCalls io).map .call)).sup = (shutdownOwned io sys.sup).sup := rfl

/-- Once a `begin_shutdown` has returned, whatever came before it, between its halves and after
it, no process is spawned any more; and no part of `shutdown_owned` changes the durable store, so
every endpoint intent is held as before. -/
theorem no_spawn_after_begin_shutdown (codec : Codec) (sys : Sys) (early middle late : List Label) :
    let begun := sys.run codec
      (early ++ .call .raiseLatch :: (middle ++ [.call .disableRestarts]))
    spawnsOf (begun.run codec late).history = spawnsOf begun.history ∧
      ∀ io, ∀ call ∈ shutdownCalls io, ∀ state : Sys,
        (call.perform codec state).sup.store = state.sup.store := by
  have hraised (state : Sys) (labels : List Label) (h : state.sup.shuttingDown = true) :
      (state.run codec labels).sup.shuttingDown = true :=
    Run.invariant_run_of_step (fun state : Sys ↦ state.sup.shuttingDown = true)
      (fun _ label ↦ shuttingDown_step codec label) labels h
  refine ⟨?_, ?_⟩
  · apply spawnsOf_run_of_shutDown
    rw [Sys.run, Run.run_append, Run.run_cons, Run.run_append]
    refine ⟨shuttingDown_perform codec .disableRestarts (hraised _ middle rfl), ?_⟩
    intro endpoint hmem
    obtain ⟨old, -, rfl⟩ := List.mem_map.mp hmem
    rfl
  · intro io call hcall state
    simp only [shutdownCalls, List.mem_cons, List.not_mem_nil, or_false] at hcall
    rcases hcall with rfl | rfl | rfl <;> rfl

end Cameo.Supervisor
