import Cameo.Daemon.Serve
import Cameo.Library.Run
import Cameo.Supervisor.Survival

/-!
# The daemon over its restarts

The daemon is down, with what its last life left in the state directory, or up, with a supervisor
and the intents that recovery has still to replay.  It may crash between any two steps, and inside
a step after any file operation: a process is only spawned after the commits of its start, so a
crash after the spawn is a crash after the step.  `recoveries` is a history variable.

The maintenance thread runs from the opening on, so recovery is interleaved with its phases;
requests are interleaved with recovery as well, which includes the daemon's order of serving them
after it.
-/

namespace Cameo.Daemon

open Json Library Store Supervisor

inductive Phase where
  | down (disk : Directory)
  | up (sys : Sys) (queue : List (String × Value))

/-- The daemon, and the endpoints whose process `recover_endpoints` has spawned so far. -/
structure State where
  phase : Phase
  recoveries : List String

inductive Step where
  | boot (io : SupervisorOpenIo)
  | call (call : Call)
  | manual (body : ModelRequest) (allowEvict : Bool) (io : ServeIo)
  | autostart (io : AutostartIo)
  | recover (io : RecoverIo)

/-- A step that completes, a crash between steps, or a crash inside a step. -/
inductive Label where
  | step (step : Step)
  | crash
  | crashDuring (step : Step) (point : ℕ)

/-- What the daemon is, and whose process a recovery has spawned, after a step taken while up. -/
structure Served where
  sys : Sys
  queue : List (String × Value)
  recovered : List String

def startedIds (spawns : List Spawn) : List String :=
  (spawns.filter fun spawn ↦ spawn.cause = .start).map Spawn.endpointId

/-- A daemon before its first boot. -/
def State.initial : State := ⟨.down .empty, []⟩

/-- The directory an opening would find. -/
def Phase.disk : Phase → Directory
  | .down disk => disk
  | .up sys _ => (sys.sup.store.map EndpointStore.directory).getD .empty

variable (codec : Codec)

/-- A step taken while up. -/
def serve (sys : Sys) (queue : List (String × Value)) : Step → Served
  | .boot _ => ⟨sys, queue, []⟩
  | .call call => ⟨call.perform codec sys, queue, []⟩
  | .manual body allowEvict io =>
    ⟨sys.after (startServerWithEviction codec io body allowEvict sys.sup) sys.maintenance, queue,
      []⟩
  | .autostart io => ⟨sys.after (maybeAutostart codec io sys.sup) sys.maintenance, queue, []⟩
  | .recover io =>
    match queue with
    | [] => ⟨sys, [], []⟩
    | (_, intent) :: rest =>
      let out := recoverEndpoint codec io intent sys.sup
      ⟨sys.after out sys.maintenance, rest, startedIds out.spawns⟩

/-- The daemon after an opening: up, with all intents to recover, or still down. -/
def boot (io : SupervisorOpenIo) (disk : Directory) : Phase :=
  let opened := Supervisor.open codec io disk
  match opened.result with
  | .ok sup => .up (.fresh sup) sup.recoveryIntents
  | .error _ => .down (opened.passed.headD disk)

/-- The daemon after a step. -/
def State.perform (state : State) (step : Step) : State :=
  match state.phase with
  | .down disk =>
    match step with
    | .boot io => { state with phase := boot codec io disk }
    | _ => state
  | .up sys queue =>
    let served := serve codec sys queue step
    ⟨.up served.sys served.queue, state.recoveries ++ served.recovered⟩

/-- The directory contents a step goes through. -/
def crashPoints (step : Step) : Phase → List Directory
  | .down disk =>
    match step with
    | .boot io => (Supervisor.open codec io disk).passed
    | _ => []
  | .up sys queue =>
    let passed := (serve codec sys queue step).sys.sup.passed
    passed.take (passed.length - sys.sup.passed.length)

def State.step (state : State) : Label → State
  | .step step => state.perform codec step
  | .crash => { state with phase := .down state.phase.disk }
  | .crashDuring step point =>
    let disk := (crashPoints codec step state.phase).getD point state.phase.disk
    { state with phase := .down disk }

/-- The daemon after a list of labels. -/
def State.run (state : State) (labels : List Label) : State :=
  Run.run (State.step codec) state labels

def Label.step? : Label → Option Step
  | .step taken => some taken
  | .crash => none
  | .crashDuring begun _ => some begun

/-- A step taken while up is a call, a start, or nothing, as far as the supervisor goes. -/
theorem sup_serve (sys : Sys) (queue : List (String × Value)) (step : Step) :
    (∃ call, step = .call call ∧ (serve codec sys queue step).sys = call.perform codec sys) ∨
      (serve codec sys queue step).sys.sup = sys.sup ∨
      ∃ req io, (serve codec sys queue step).sys.sup = (sys.sup.start codec req io).sup := by
  have hinner (io : ServeIo) (body : ModelRequest) (allowEvict : Bool) (attempts : ℕ) :
      (startServerInner codec io body allowEvict attempts sys.sup).sup = sys.sup ∨
        ∃ req io', (startServerInner codec io body allowEvict attempts sys.sup).sup =
          (sys.sup.start codec req io').sup := by
    rcases startServerInner_cases codec io body allowEvict attempts sys.sup with
      ⟨response, heq⟩ | ⟨req, _, -, -, -, heq⟩
    · exact .inl (by rw [heq])
    · exact .inr ⟨req, io.start, by rw [heq]⟩
  cases step with
  | boot io => exact .inr (.inl rfl)
  | call call => exact .inl ⟨call, rfl, rfl⟩
  | manual body allowEvict io => exact .inr (hinner io body allowEvict 0)
  | autostart io =>
    simp only [serve, Sys.after, maybeAutostart]
    split
    · exact .inr (.inl rfl)
    split
    · exact .inr (.inl rfl)
    split
    · exact .inr (hinner io.serve _ true 0)
    · exact .inr (.inl rfl)
  | recover io =>
    cases queue with
    | nil => exact .inr (.inl rfl)
    | cons entry rest =>
      rcases recoverEndpoint_cases codec io entry.2 sys.sup with
        ⟨response, heq⟩ | ⟨_, req, _, _, -, -, -, -, -, heq⟩
      · exact .inr (.inl (congrArg Outcome.sup heq))
      · exact .inr (.inr ⟨req, io.serve.start, congrArg Outcome.sup heq⟩)

/-! ## Openings -/

variable {codec} {p : DurableProperty}

/-- An opening keeps a durable property at every point, if migrating the leases does. -/
theorem survives_open {io : SupervisorOpenIo} {disk : Directory} (hread : p.readable disk.newest?)
    (hmigrate : ∀ state leases, p.state state →
      recoverLeases (epochSeconds io.now) io.instants state.leases.entries .empty = .ok leases →
      p.state { state with leases := migratedLeases leases state.leases }) :
    (∀ directory ∈ (Supervisor.open codec io disk).passed, p.readable directory.newest?) ∧
      ∀ sup, (Supervisor.open codec io disk).result = .ok sup → sup.Keeps p := by
  unfold Supervisor.open
  split
  · exact ⟨fun directory hmem ↦ List.mem_singleton.mp hmem ▸ hread, nofun⟩
  · rename_i store hstore
    have hkeeps := EndpointStore.keeps_open hstore hread
    have hpassed : ∀ directory ∈ store.passed, p.readable directory.newest? := by
      rw [(EndpointStore.open_eq_ok hstore).2.1]
      exact fun directory hmem ↦ List.mem_singleton.mp hmem ▸ hread
    dsimp only
    split
    · exact ⟨hpassed, nofun⟩
    · rename_i leases hleases
      split
      · obtain ⟨hafter, ⟨fresh, heq, hfresh⟩, -⟩ := EndpointStore.keeps_commit codec io.commit
          hkeeps (hmigrate store.state leases hkeeps.state hleases)
        have hall : ∀ directory ∈ (store.commit codec io.commit
            { store.state with leases := migratedLeases leases store.state.leases }).2.passed,
            p.readable directory.newest? := by
          rw [heq]
          intro directory hmem
          rcases List.mem_append.mp hmem with hmem | hmem
          · exact hfresh directory hmem
          · exact hpassed directory hmem
        split
        · rename_i failed hcommit
          rw [hcommit] at hall
          exact ⟨hall, nofun⟩
        · rename_i committed hcommit
          rw [hcommit] at hall hafter
          refine ⟨hall, fun sup hsup ↦ ?_⟩
          cases hsup
          exact ⟨committed, rfl, hafter⟩
      · refine ⟨hpassed, fun sup hsup ↦ ?_⟩
        cases hsup
        exact ⟨store, rfl, hkeeps⟩

/-! ## Invariants over restarts -/

/-- The crash points of an operation that survives are readable. -/
theorem readable_take {before after : Supervisor} (h : Survives p before after) :
    ∀ directory ∈ after.passed.take (after.passed.length - before.passed.length),
      p.readable directory.newest? := by
  obtain ⟨fresh, heq, hfresh⟩ := h.passed
  rw [heq, List.length_append, Nat.add_sub_cancel, List.take_left]
  exact hfresh

/-- A property of the daemon that may depend on the recoveries so far: a durable one, and more
while the daemon is up. -/
structure Invariant (codec : Codec) (cond : State → Step → Prop) where
  durable : List String → DurableProperty
  up : List String → Sys → List (String × Value) → Prop
  keeps : ∀ {recoveries sys queue}, up recoveries sys queue → sys.sup.Keeps (durable recoveries)
  opens : ∀ {recoveries io disk}, (durable recoveries).readable disk.newest? →
    (∀ directory ∈ (Supervisor.open codec io disk).passed,
        (durable recoveries).readable directory.newest?) ∧
      ∀ sup, (Supervisor.open codec io disk).result = .ok sup →
        up recoveries (.fresh sup) sup.recoveryIntents
  serves : ∀ {recoveries sys queue step}, up recoveries sys queue →
    cond ⟨.up sys queue, recoveries⟩ step →
    up (recoveries ++ (serve codec sys queue step).recovered) (serve codec sys queue step).sys
        (serve codec sys queue step).queue ∧
      Survives (durable recoveries) sys.sup (serve codec sys queue step).sys.sup

namespace Invariant

variable {cond : State → Step → Prop} (inv : Invariant codec cond)

/-- The property, of a daemon that is down or up. -/
def Holds (state : State) : Prop :=
  match state.phase with
  | .down disk => (inv.durable state.recoveries).readable disk.newest?
  | .up sys queue => inv.up state.recoveries sys queue

/-- What an opening would read after a crash. -/
theorem readable_disk {state : State} (h : inv.Holds state) :
    (inv.durable state.recoveries).readable state.phase.disk.newest? := by
  obtain ⟨phase, recoveries⟩ := state
  cases phase with
  | down disk => exact h
  | up sys queue =>
    obtain ⟨store, hstore, hkeeps⟩ := inv.keeps h
    simp only [Phase.disk, hstore]
    exact hkeeps.readable

theorem readable_crashPoints {state : State} {step : Step} (h : inv.Holds state)
    (hcond : cond state step) :
    ∀ directory ∈ crashPoints codec step state.phase,
      (inv.durable state.recoveries).readable directory.newest? := by
  obtain ⟨phase, recoveries⟩ := state
  cases phase with
  | down disk =>
    cases step with
    | boot io => exact (inv.opens h).1
    | _ => exact fun directory hmem ↦ absurd hmem List.not_mem_nil
  | up sys queue => exact readable_take (inv.serves h hcond).2

theorem holds_perform {state : State} {step : Step} (h : inv.Holds state)
    (hcond : cond state step) : inv.Holds (state.perform codec step) := by
  obtain ⟨phase, recoveries⟩ := state
  cases phase with
  | down disk =>
    cases step with
    | boot io =>
      obtain ⟨hpassed, hup⟩ := inv.opens h
      simp only [State.perform, boot, Holds]
      cases hresult : (Supervisor.open codec io disk).result with
      | ok sup => exact hup sup hresult
      | error e =>
        cases hlist : (Supervisor.open codec io disk).passed with
        | nil => exact h
        | cons directory rest => exact hpassed directory (by rw [hlist]; exact List.mem_cons_self)
    | _ => exact h
  | up sys queue => exact (inv.serves h hcond).1

theorem holds_step {state : State} {label : Label} (h : inv.Holds state)
    (hcond : ∀ step, label.step? = some step → cond state step) :
    inv.Holds (state.step codec label) := by
  cases label with
  | step step => exact inv.holds_perform h (hcond step rfl)
  | crash =>
    have hdisk := inv.readable_disk h
    exact hdisk
  | crashDuring step point =>
    have hpoints := inv.readable_crashPoints h (hcond step rfl)
    simp only [State.step, Holds]
    rw [List.getD_eq_getElem?_getD]
    cases hpoint : (crashPoints codec step state.phase)[point]? with
    | none => exact inv.readable_disk h
    | some directory => exact hpoints directory (List.mem_of_getElem? hpoint)

/-- The invariant rule of the daemon. -/
theorem holds_run {state : State} {labels : List Label} (h : inv.Holds state)
    (hmeets : Run.Meets (State.step codec)
      (fun state label ↦ ∀ step, label.step? = some step → cond state step) state labels) :
    inv.Holds (state.run codec labels) :=
  Run.invariant_run inv.Holds (fun _ _ ↦ inv.holds_step) h hmeets

end Invariant

end Cameo.Daemon
