import Cameo.Library.Run
import Cameo.Supervisor.Operations
import Cameo.Supervisor.Stages

/-!
# The supervisor as a labelled system

A state of the system is a supervisor, where its maintenance thread stands, and the history of
spawned processes and applied probes.  A label is one call, with the answers of the operating
system to it.  Calls hold the endpoint lock, so each is one step; `begin_shutdown` and `maintain`
release their locks half-way and are one step for each locked part.  `rehash` stands for the
unspecified iteration order of the endpoint map.
-/

namespace Cameo.Supervisor

open Json Library Store

/-- Where the maintenance thread stands between two locked parts of `maintain`. -/
inductive Maintenance where
  | idle
  | expired
  | scheduled (probes : List HealthProbe)
  | probed (results : List (HealthProbe × Except String Unit))
  | observed (observations : List Observation)

/-- What happened to processes, as far as readiness depends on it. -/
inductive Event where
  | spawned (spawn : Spawn)
  | applied (probe : HealthProbe) (result : Except String Unit)

/-- The processes spawned in a history, in order. -/
def spawnsOf (history : List Event) : List Spawn := history.filterMap fun
  | .spawned spawn => some spawn
  | .applied _ _ => none

theorem spawnsOf_append (early late : List Event) :
    spawnsOf (early ++ late) = spawnsOf early ++ spawnsOf late := List.filterMap_append

@[simp]
theorem spawnsOf_applied (results : List (HealthProbe × Except String Unit)) :
    spawnsOf (results.map fun answer ↦ .applied answer.1 answer.2) = [] := by
  rw [spawnsOf, List.filterMap_map]
  exact List.filterMap_eq_nil_iff.mpr fun _ _ ↦ rfl

theorem mem_spawnsOf {history : List Event} {spawn : Spawn} :
    spawn ∈ spawnsOf history ↔ .spawned spawn ∈ history := by
  rw [spawnsOf, List.mem_filterMap]
  constructor
  · rintro ⟨event, hmem, hevent⟩
    cases event with
    | spawned other => cases hevent; exact hmem
    | applied probe result => cases hevent
  · intro hmem
    exact ⟨_, hmem, rfl⟩

structure Sys where
  sup : Supervisor
  maintenance : Maintenance
  history : List Event

/-- The system around a supervisor that was just opened. -/
def Sys.fresh (sup : Supervisor) : Sys := ⟨sup, .idle, []⟩

inductive Call where
  | stop (id : String) (io : StopIo)
  | touch (id : String) (now : SystemTime)
  | endpointForModel (model : String) (io : String → RefreshIo)
  | servedModels (io : String → RefreshIo)
  | engineProfiles (includeVram : Bool) (io : String → RefreshIo)
  | list (io : String → RefreshIo) (now : String → SystemTime)
  | get (id : String) (io : RefreshIo) (now : SystemTime)
  | lease (sessionId model : String) (io : LeaseIo)
  | release (sessionId : String) (io : CommitIo)
  | renewLease (sessionId : String) (io : RenewIo)
  | leaseStatus (sessionId : String) (io : LeaseViewIo)
  | persistSession (session : SessionRecord) (io : CommitIo)
  | removeSession (id : String) (io : CommitIo)
  | raiseLatch
  | disableRestarts
  | stopAll (io : ShutdownIo)
  | expireLeases (now : SystemTime) (instants : String → Instant) (io : CommitIo)
  | schedule (io : ScheduleIo)
  | probe (answers : HealthProbe → Except String Unit)
  | applyProbes (now : String → SystemTime)
  | persistObservations (io : CommitIo)
  | rehash (rank : String → ℕ)

inductive Label where
  | start (req : StartRequest) (io : StartIo)
  | call (call : Call)

/-- The endpoint map in another iteration order. -/
def rehash (rank : String → ℕ) (sup : Supervisor) : Outcome Unit :=
  ⟨(), { sup with
    endpoints := sup.endpoints.reorder
      (sup.endpoints.entries.insertionSort fun a b ↦ rank a.id ≤ rank b.id)
      (List.perm_insertionSort _ _) }, []⟩

/-- The system after an operation, in a maintenance phase. -/
def Sys.after {α : Type} (sys : Sys) (out : Outcome α) (maintenance : Maintenance) : Sys :=
  ⟨out.sup, maintenance, sys.history ++ out.spawns.map .spawned⟩

/-- The system after a call; a maintenance part out of turn does nothing. -/
def Call.perform (codec : Codec) (sys : Sys) : Call → Sys
  | .stop id io => sys.after (sys.sup.stop codec id io) sys.maintenance
  | .touch id now => sys.after (sys.sup.touch id now) sys.maintenance
  | .endpointForModel model io => sys.after (sys.sup.endpointForModel model io) sys.maintenance
  | .servedModels io => sys.after (sys.sup.servedModels io) sys.maintenance
  | .engineProfiles includeVram io =>
    sys.after (sys.sup.engineProfiles includeVram io) sys.maintenance
  | .list io now => sys.after (sys.sup.list io now) sys.maintenance
  | .get id io now => sys.after (sys.sup.get id io now) sys.maintenance
  | .lease sessionId model io =>
    sys.after (sys.sup.lease codec sessionId model io) sys.maintenance
  | .release sessionId io => sys.after (sys.sup.release codec sessionId io) sys.maintenance
  | .renewLease sessionId io =>
    sys.after (sys.sup.renewLease codec sessionId io) sys.maintenance
  | .leaseStatus sessionId io => sys.after (sys.sup.leaseStatus sessionId io) sys.maintenance
  | .persistSession session io =>
    sys.after (sys.sup.persistSession codec session io) sys.maintenance
  | .removeSession id io => sys.after (sys.sup.removeSession codec id io) sys.maintenance
  | .raiseLatch => sys.after sys.sup.raiseLatch sys.maintenance
  | .disableRestarts => sys.after sys.sup.disableRestarts sys.maintenance
  | .stopAll io => sys.after (sys.sup.stopAll io) sys.maintenance
  | .expireLeases now instants io =>
    match sys.maintenance with
    | .idle => sys.after (sys.sup.expireLeases codec (epochSeconds now) instants io) .expired
    | _ => sys
  | .schedule io =>
    match sys.maintenance with
    | .expired =>
      let out := sys.sup.schedule io
      sys.after out (.scheduled out.result)
    | _ => sys
  | .probe answers =>
    match sys.maintenance with
    | .scheduled probes =>
      { sys with maintenance := .probed (probes.map fun probe ↦ (probe, answers probe)) }
    | _ => sys
  | .applyProbes now =>
    match sys.maintenance with
    | .probed results =>
      let out := sys.sup.applyProbes results now
      ⟨out.sup, .observed out.result,
        sys.history ++ results.map fun answer ↦ .applied answer.1 answer.2⟩
    | _ => sys
  | .persistObservations io =>
    match sys.maintenance with
    | .observed observations =>
      sys.after (sys.sup.persistObservations codec observations io) .idle
    | _ => sys
  | .rehash rank => sys.after (sys.sup.rehash rank) sys.maintenance

def Sys.step (codec : Codec) (sys : Sys) : Label → Sys
  | .start req io => sys.after (sys.sup.start codec req io) sys.maintenance
  | .call call => call.perform codec sys

/-- The system after a list of labels. -/
def Sys.run (codec : Codec) (sys : Sys) (labels : List Label) : Sys :=
  Run.run (Sys.step codec) sys labels

inductive Initial (codec : Codec) : Supervisor → Prop where
  | default : Initial codec .default
  | opened {io : SupervisorOpenIo} {directory : Directory} {sup : Supervisor}
      (h : (Supervisor.open codec io directory).result = .ok sup) : Initial codec sup

/-- A daemon begins without endpoints and without the latch. -/
theorem Initial.endpoints {codec : Codec} {sup : Supervisor} (h : Initial codec sup) :
    sup.endpoints = .empty ∧ sup.shuttingDown = false := by
  cases h with
  | default => exact ⟨rfl, rfl⟩
  | opened h =>
    obtain ⟨hendpoints, hlatch, -⟩ := open_ok codec h
    exact ⟨hendpoints, hlatch⟩

/-! ## Scripted answers

Building blocks for concrete runs: every clock reads one given time. -/

/-- A refresh that finds the process running, or finds nothing to do. -/
def RefreshIo.alive (now : SystemTime) : RefreshIo :=
  ⟨.running, now, now, now, .error "not attempted", now⟩

def RefreshIo.exited (now : SystemTime) : RefreshIo :=
  { RefreshIo.alive now with tryWait := .exited (some 1) }

def RefreshIo.respawn (now : SystemTime) (child : Child) : RefreshIo :=
  { RefreshIo.alive now with spawn := .ok child }

/-- A termination confirmed at the first poll after the kill. -/
def TerminationIo.prompt : TerminationIo := ⟨.ok false, .ok (), .ok true, [(.ok true, 0)]⟩

/-- A start in which every call succeeds and no process exits. -/
def StartIo.plain (now : SystemTime) (child : Child) : StartIo where
  existing := .alive now
  holders := fun _ ↦ .alive now
  residents := fun _ ↦ .alive now
  leased := fun _ ↦ .alive now
  retract := .ok "00"
  stops := fun _ ↦ .prompt
  intend := .ok "01"
  spawn := .ok child
  startedAt := now
  lastUsed := now
  view := .alive now
  viewAt := now

/-- A request for a model on a port, with its VRAM need and the budget. -/
def StartRequest.simple (model : String) (port need budget : ℕ) (allowEvict : Bool) :
    StartRequest where
  intent := .ofFields [("model", .string model), ("port", .nat port)]
  model := model
  host := "127.0.0.1"
  port := port
  backend := "Vulkan"
  fitsVram := true
  notes := []
  contextTokens := 4096
  command := ⟨"llama-server", ["-m", model], [], []⟩
  vramNeed := need
  vramBudget := budget
  allowEvict := allowEvict

/-- One pass of the maintenance thread in which every endpoint answers its probe. -/
def healthyPass (now : SystemTime) : List Label := [
  .call (.expireLeases now (fun _ ↦ 0) (.ok "02")),
  .call (.schedule ⟨fun _ ↦ .alive now, fun _ ↦ now, fun _ ↦ now⟩),
  .call (.probe fun _ ↦ .ok ()),
  .call (.applyProbes fun _ ↦ now),
  .call (.persistObservations (.ok "03"))]

/-- A claim at a given time, with every endpoint alive. -/
def LeaseIo.plain (now : SystemTime) : LeaseIo :=
  ⟨fun _ ↦ .alive now, now, 0, .ok "04", ⟨now, 0, .alive now⟩⟩

/-- An opening at a given time in which every call succeeds. -/
def SupervisorOpenIo.plain (now : SystemTime) : SupervisorOpenIo :=
  ⟨⟨.ok (), .ok (), .ok ()⟩, now, fun _ ↦ 0, .ok "05"⟩

def openedEmpty : Supervisor := ⟨false, .empty, .empty, some ⟨.empty, 0, .default, [.empty]⟩⟩

theorem initial_openedEmpty (codec : Codec) : Initial codec openedEmpty :=
  @Initial.opened codec (.plain 0) .empty openedEmpty rfl

end Cameo.Supervisor
