import Cameo.Json
import Cameo.Library.Keyed
import Cameo.Library.Run

/-!
# The gateway drain

A `Drain` is a mutex over one `State`.  A public function locks it once or several times, and other
threads may run between two of its critical sections; `Call.sections` lists them in order.  The
clock is read inside the critical sections, so its readings never decrease along a run.

The gateway adds what the state does not record: the permits that are alive, the sockets that have
been shut down, and the calls in progress and returned.  A permit is dropped once, by its owner.
-/

namespace Cameo.Gateway

open Json Library

/-- `Connection`: a stream, by its kind and its handle. -/
inductive Connection where
  | tcp (handle : ℕ)
  | unix (handle : ℕ)
deriving DecidableEq

/-- `State`, what the mutex protects. -/
structure State where
  shutdown : Bool
  active : ℕ
  started : Option Instant
  deadline : Duration
  generation : ℕ
  cancelledThrough : Option ℕ
  nextSocket : ℕ
  sockets : Ordered.Map ℕ (ℕ × Connection)

namespace State

/-- `Drain::default()`. -/
def default : State := ⟨false, 0, none, 0, 0, none, 0, .empty⟩

/-! ## Critical sections -/

/-- `Drain::admit`, with the generation of the permit. -/
def admitRequest (state : State) : Option ℕ × State :=
  if state.started.isSome then (none, state)
  else (some state.generation, { state with active := state.active + 1 })

/-- The critical section of `Drain::begin`. -/
def begin (deadline : Duration) (now : Instant) (state : State) : State :=
  if state.started.isNone then { state with started := some now, deadline := deadline } else state

/-- The critical section of `Drain::resume`, after its `poll`. -/
def reopen (state : State) : State :=
  if state.shutdown then state
  else if state.started.isSome then
    { state with started := none, generation := saturatingAdd state.generation 1 }
  else state

/-- The first critical section of `Drain::begin_shutdown`. -/
def sealShutdown (state : State) : State := { state with shutdown := true }

/-- `Drain::draining`. -/
def draining (state : State) : Bool := state.started.isSome

/-- The drain in progress has reached its deadline. -/
def expired (now : Instant) (state : State) : Bool :=
  state.started.any fun since ↦ decide (state.deadline ≤ since.elapsed now)

/-- `Drain::poll`, with the sockets that it shuts down. -/
def poll (now : Instant) (state : State) : List Connection × State :=
  if state.expired now then
    ((state.sockets.entries.filter fun socket ↦ socket.2.1 ≤ state.generation).map fun socket ↦
        socket.2.2,
      { state with cancelledThrough := some state.generation })
  else ([], state)

/-- The critical section of `Drain::cancelled`, after its `poll`. -/
def cancelled (generation : ℕ) (state : State) : Bool :=
  state.cancelledThrough.any fun last ↦ decide (generation ≤ last)

/-- The critical section of `Drain::register_connection`, after its `poll`, with the identifier of
the registration. -/
def enroll (generation : ℕ) (stream : Connection) (state : State) : Except String ℕ × State :=
  if state.cancelled generation then (.error "drain deadline exceeded", state)
  else if state.nextSocket + 1 > u64Max then (.error "socket registration exhausted", state)
  else
    (.ok state.nextSocket,
      { state with
        nextSocket := state.nextSocket + 1
        sockets := state.sockets.insert state.nextSocket (generation, stream) })

/-- The `state` text of a status report. -/
def phase (now : Instant) (state : State) : String :=
  match state.started with
  | none => "accepting"
  | some since =>
    if state.active = 0 then "drained"
    else if state.deadline ≤ since.elapsed now then "deadline_exceeded"
    else "draining"

/-- The report of `Drain::status`, after its `poll`. -/
def status (now : Instant) (state : State) : Value :=
  .ofFields
    [("scope", .string "cameo_gateway"), ("state", .string (state.phase now)),
      ("active_requests", .nat state.active), ("accepting", .bool state.started.isNone),
      ("gateway_idle", .bool (state.started.isSome && state.active = 0)),
      ("deadline_seconds",
        .option (fun deadline ↦ .nat (Duration.asSecs deadline))
          (state.started.map fun _ ↦ state.deadline))]

/-- `Drop for Permit`. -/
def dropPermit (state : State) : State := { state with active := state.active - 1 }

/-- `Drop for SocketRegistration`. -/
def dropRegistration (id : ℕ) (state : State) : State :=
  { state with sockets := state.sockets.erase id }

end State

/-! ## Calls and their interleavings -/

inductive Section where
  | admitRequest
  | begin (deadline : Duration)
  | reopen
  | sealShutdown
  | poll
  | cancelled (generation : ℕ)
  | enroll (generation : ℕ) (stream : Connection)
  | status
  | dropPermit (id : ℕ)
  | dropRegistration (id : ℕ)
deriving DecidableEq

/-- A call of a public function of `Drain`, or the drop of a permit or a registration. -/
inductive Call where
  | admitRequest
  | begin (deadline : Duration)
  | resume
  | beginShutdown (deadline : Duration)
  | cancelled (generation : ℕ)
  | register (generation : ℕ) (stream : Connection)
  | poll
  | status
  | dropPermit (id : ℕ)
  | dropRegistration (id : ℕ)
deriving DecidableEq

def Call.sections : Call → List Section
  | .admitRequest => [.admitRequest]
  | .begin deadline => [.begin deadline, .poll, .status]
  | .resume => [.poll, .reopen, .poll, .status]
  | .beginShutdown deadline => [.sealShutdown, .begin deadline, .poll, .status]
  | .cancelled generation => [.poll, .cancelled generation]
  | .register generation stream => [.poll, .enroll generation stream]
  | .poll => [.poll]
  | .status => [.poll, .status]
  | .dropPermit id => [.dropPermit id]
  | .dropRegistration id => [.dropRegistration id]

/-- `Permit`, under a number of its own. -/
structure Permit where
  id : ℕ
  generation : ℕ
deriving DecidableEq

/-- The drain state with the permits alive, the sockets shut down, and the calls in progress, by
thread, with the sections they have still to run. -/
structure Sys where
  state : State
  clock : Instant
  permits : Keyed.Table Permit.id
  issued : ℕ
  closed : List Connection
  threads : ℕ → Option (Call × List Section)
  returned : List Call

/-- A thread begins a call, or runs the next section of its call some time later. -/
inductive Label where
  | call (thread : ℕ) (call : Call)
  | run (thread : ℕ) (elapsed : Duration)
deriving DecidableEq

namespace Sys

def initial (clock : Instant) : Sys := ⟨.default, clock, .empty, 0, [], fun _ ↦ none, []⟩

/-- Run one critical section, at the gateway's clock. -/
def execute (sys : Sys) : Section → Sys
  | .admitRequest =>
    match sys.state.admitRequest with
    | (none, state) => { sys with state := state }
    | (some generation, state) =>
      { sys with
        state := state
        permits := sys.permits.insert ⟨sys.issued, generation⟩
        issued := sys.issued + 1 }
  | .begin deadline =>
    { sys with state := sys.state.begin deadline sys.clock }
  | .reopen => { sys with state := sys.state.reopen }
  | .sealShutdown => { sys with state := sys.state.sealShutdown }
  | .poll =>
    let polled := sys.state.poll sys.clock
    { sys with state := polled.2, closed := polled.1 ++ sys.closed }
  | .enroll generation stream =>
    { sys with state := (sys.state.enroll generation stream).2 }
  | .cancelled _ | .status => sys
  | .dropPermit id =>
    -- a permit that is not alive has no owner to drop it
    if (sys.permits.get? id).isSome then
      { sys with state := sys.state.dropPermit, permits := sys.permits.erase id }
    else sys
  | .dropRegistration id => { sys with state := sys.state.dropRegistration id }

/-- Put a thread at the rest of its call. -/
def continueWith (sys : Sys) (thread : ℕ) (call : Call) (rest : List Section) : Sys :=
  match rest with
  | [] =>
    { sys with
      threads := Function.update sys.threads thread none
      returned := call :: sys.returned }
  | _ :: _ => { sys with threads := Function.update sys.threads thread (some (call, rest)) }

def later (sys : Sys) (elapsed : Duration) : Sys := { sys with clock := sys.clock + elapsed }

def step (sys : Sys) : Label → Sys
  | .call thread call =>
    match sys.threads thread with
    | none => sys.continueWith thread call call.sections
    | some _ => sys
  | .run thread elapsed =>
    match sys.threads thread with
    | some (call, head :: rest) =>
      ((sys.later elapsed).execute head).continueWith thread call rest
    | _ => sys

/-- The gateway after a list of labels. -/
def run (sys : Sys) (labels : List Label) : Sys := Run.run step sys labels

/-! ## Invariants of all interleavings -/

/-- Starting a call or returning from one changes the bookkeeping of the threads only. -/
theorem continueWith_eq (sys : Sys) (thread : ℕ) (call : Call) (rest : List Section) :
    ∃ threads returned, sys.continueWith thread call rest =
      { sys with threads := threads, returned := returned } := by
  cases rest <;> exact ⟨_, _, rfl⟩

/-- A step changes the bookkeeping of the threads only, or runs a section at a later time. -/
theorem step_cases (sys : Sys) (label : Label) :
    (∃ threads returned, sys.step label = { sys with threads := threads, returned := returned }) ∨
      ∃ thread elapsed call head rest threads returned, label = .run thread elapsed ∧
        sys.threads thread = some (call, head :: rest) ∧
        sys.step label =
          { (sys.later elapsed).execute head with
            threads := threads
            returned := returned } := by
  cases label with
  | call thread call =>
    left
    simp only [step]
    split
    · exact continueWith_eq _ _ _ _
    · exact ⟨_, _, rfl⟩
  | run thread elapsed =>
    simp only [step]
    split
    · rename_i call head rest hthread
      right
      obtain ⟨threads, returned, heq⟩ := continueWith_eq
        ((sys.later elapsed).execute head) thread call rest
      exact ⟨thread, elapsed, call, head, rest, threads, returned, rfl, hthread, heq⟩
    · exact .inl ⟨_, _, rfl⟩

/-- A property of the gateway that the passing of time and every section keep holds along every
run, whatever the threads do. -/
theorem run_of_execute {P : Sys → Prop}
    (hthreads : ∀ sys threads returned, P sys →
      P { sys with threads := threads, returned := returned })
    (hlater : ∀ sys elapsed, P sys → P (sys.later elapsed))
    (hexecute : ∀ sys head, P sys → P (sys.execute head))
    {sys : Sys} (h : P sys) (labels : List Label) : P (sys.run labels) := by
  apply Run.invariant_run_of_step P _ labels h
  intro sys label h
  rcases step_cases sys label with
    ⟨threads, returned, heq⟩ | ⟨-, elapsed, -, head, -, threads, returned, -, -, heq⟩
  · rw [heq]
    exact hthreads _ _ _ h
  · rw [heq]
    exact hthreads _ _ _ (hexecute _ _ (hlater _ _ h))

/-- What running a section can do to the gateway. -/
inductive Effect (sys : Sys) : Section → Sys → Prop where
  | quiet (head : Section) : Effect sys head sys
  | admitted (hopen : sys.state.started = none) :
    Effect sys .admitRequest
      { sys with
        state := { sys.state with active := sys.state.active + 1 }
        permits := sys.permits.insert ⟨sys.issued, sys.state.generation⟩
        issued := sys.issued + 1 }
  | begun (deadline : Duration) (hopen : sys.state.started = none) :
    Effect sys (.begin deadline)
      { sys with state := { sys.state with started := some sys.clock, deadline := deadline } }
  | reopened (hshutdown : sys.state.shutdown = false) (hstarted : sys.state.started.isSome) :
    Effect sys .reopen
      { sys with
        state := { sys.state with
          started := none
          generation := saturatingAdd sys.state.generation 1 } }
  | sealed : Effect sys .sealShutdown { sys with state := sys.state.sealShutdown }
  | expired (hexpired : sys.state.expired sys.clock) :
    Effect sys .poll
      { sys with
        state := { sys.state with cancelledThrough := some sys.state.generation }
        closed := (sys.state.poll sys.clock).1 ++ sys.closed }
  | enrolled (generation : ℕ) (stream : Connection)
    (hlive : sys.state.cancelled generation = false) :
    Effect sys (.enroll generation stream)
      { sys with
        state := { sys.state with
          nextSocket := sys.state.nextSocket + 1
          sockets := sys.state.sockets.insert sys.state.nextSocket (generation, stream) } }
  | dropped (id : ℕ) (permit : Permit) (hpermit : sys.permits.get? id = some permit) :
    Effect sys (.dropPermit id)
      { sys with state := sys.state.dropPermit, permits := sys.permits.erase id }
  | unregistered (id : ℕ) :
    Effect sys (.dropRegistration id) { sys with state := sys.state.dropRegistration id }

theorem effect_execute (sys : Sys) (head : Section) : Effect sys head (sys.execute head) := by
  cases head with
  | admitRequest =>
    simp only [execute, State.admitRequest]
    split
    · rename_i state heq
      split at heq <;> cases heq
      exact .quiet _
    · rename_i generation state heq
      split at heq
      · cases heq
      · rename_i hopen
        cases heq
        exact .admitted (by simpa using hopen)
  | begin deadline =>
    simp only [execute, State.begin]
    split
    · rename_i hopen
      exact .begun deadline (Option.isNone_iff_eq_none.mp hopen)
    · exact .quiet _
  | reopen =>
    simp only [execute, State.reopen]
    split
    · exact .quiet _
    rename_i hshutdown
    split
    · rename_i hstarted
      exact .reopened (by simpa using hshutdown) hstarted
    · exact .quiet _
  | sealShutdown => exact .sealed
  | poll =>
    by_cases hexpired : sys.state.expired sys.clock
    · have heq : sys.execute .poll =
          { sys with
            state := { sys.state with cancelledThrough := some sys.state.generation }
            closed := (sys.state.poll sys.clock).1 ++ sys.closed } := by
        simp only [execute, State.poll, if_pos hexpired]
      rw [heq]
      exact .expired hexpired
    · have heq : sys.execute .poll = sys := by
        simp only [execute, State.poll, if_neg hexpired, List.nil_append]
      rw [heq]
      exact .quiet _
  | cancelled generation => exact .quiet _
  | enroll generation stream =>
    simp only [execute, State.enroll]
    split
    · exact .quiet _
    rename_i hlive
    split
    · exact .quiet _
    · exact .enrolled generation stream (by simpa using hlive)
  | status => exact .quiet _
  | dropPermit id =>
    simp only [execute]
    split
    · rename_i hsome
      obtain ⟨permit, hpermit⟩ := Option.isSome_iff_exists.mp hsome
      exact .dropped id permit hpermit
    · exact .quiet _
  | dropRegistration id => exact .unregistered id

/-- The counter of active requests counts the permits alive, and these carry generations that have
been reached. -/
structure Counted (sys : Sys) : Prop where
  counter : sys.state.generation ≤ u64Max
  active : sys.state.active = sys.permits.total fun _ ↦ 1
  issued : ∀ permit ∈ sys.permits.entries, permit.id < sys.issued
  generation : ∀ permit ∈ sys.permits.entries, permit.generation ≤ sys.state.generation

theorem counted_of_effect {before after : Sys} {head : Section} (h : before.Counted)
    (heffect : Effect before head after) : after.Counted := by
  obtain ⟨hcounter, hactive, hissued, hgeneration⟩ := h
  cases heffect with
  | quiet head => exact ⟨hcounter, hactive, hissued, hgeneration⟩
  | admitted hopen =>
    have hfree : before.permits.get? before.issued = none := by
      rw [Keyed.Table.get?_eq_none_iff]
      intro permit hmem
      exact (hissued permit hmem).ne
    refine ⟨hcounter, ?_, ?_, ?_⟩
    · have hsplit := before.permits.total_eq_erase_add (fun _ ↦ 1) before.issued
      rw [hfree] at hsplit
      rw [Keyed.Table.total_insert, hactive, hsplit]
      rfl
    · intro permit hmem
      rcases (Keyed.Table.mem_insert _ _ _).mp hmem with rfl | ⟨hmem, -⟩
      · exact Nat.lt_succ_self _
      · exact (hissued permit hmem).trans (Nat.lt_succ_self _)
    · intro permit hmem
      rcases (Keyed.Table.mem_insert _ _ _).mp hmem with rfl | ⟨hmem, -⟩
      · exact le_rfl
      · exact hgeneration permit hmem
  | begun deadline hopen => exact ⟨hcounter, hactive, hissued, hgeneration⟩
  | reopened hshutdown hstarted =>
    have hgrows : before.state.generation ≤ saturatingAdd before.state.generation 1 := by
      simp only [saturatingAdd]
      omega
    exact ⟨min_le_right _ _, hactive, hissued,
      fun permit hmem ↦ (hgeneration permit hmem).trans hgrows⟩
  | sealed => exact ⟨hcounter, hactive, hissued, hgeneration⟩
  | expired hexpired => exact ⟨hcounter, hactive, hissued, hgeneration⟩
  | enrolled generation stream hlive => exact ⟨hcounter, hactive, hissued, hgeneration⟩
  | dropped id permit hpermit =>
    refine ⟨hcounter, ?_, ?_, ?_⟩
    · have hsplit := before.permits.total_eq_erase_add (fun _ ↦ 1) id
      rw [hpermit] at hsplit
      simp only [State.dropPermit]
      rw [hactive, hsplit]
      rfl
    · intro permit hmem
      exact hissued permit ((Keyed.Table.mem_erase _ _ _).mp hmem).1
    · intro permit hmem
      exact hgeneration permit ((Keyed.Table.mem_erase _ _ _).mp hmem).1
  | unregistered id => exact ⟨hcounter, hactive, hissued, hgeneration⟩

theorem counted_initial (clock : Instant) : (initial clock).Counted :=
  ⟨Nat.zero_le _, rfl, fun _ hmem ↦ absurd hmem List.not_mem_nil,
    fun _ hmem ↦ absurd hmem List.not_mem_nil⟩

theorem counted_run (clock : Instant) (labels : List Label) :
    ((initial clock).run labels).Counted :=
  run_of_execute (P := Counted) (fun _ _ _ h ↦ ⟨h.counter, h.active, h.issued, h.generation⟩)
    (fun _ _ h ↦ ⟨h.counter, h.active, h.issued, h.generation⟩)
    (fun sys head h ↦ counted_of_effect h (effect_execute sys head)) (counted_initial clock) labels

/-! ## Shutdown -/

/-- A shutdown has sealed the drain and started it: nothing reopens it. -/
structure Sealed (state : State) : Prop where
  shutdown : state.shutdown
  started : state.started.isSome

section Shutdown

variable {before after : Sys} {head : Section} {deadline : Duration} {rest : List Section}

theorem threads_of_effect (heffect : Effect before head after) :
    after.threads = before.threads ∧ after.returned = before.returned := by
  cases heffect <;> exact ⟨rfl, rfl⟩

theorem shutdown_of_effect (heffect : Effect before head after) (h : before.state.shutdown) :
    after.state.shutdown := by
  cases heffect with
  | sealed => rfl
  | reopened hshutdown hstarted => exact absurd h (by simp [hshutdown])
  | _ => exact h

theorem sealed_of_effect (heffect : Effect before head after) (h : Sealed before.state) :
    Sealed after.state := by
  refine ⟨shutdown_of_effect heffect h.shutdown, ?_⟩
  cases heffect with
  | begun deadline hopen => rfl
  | reopened hshutdown hstarted => exact absurd h.shutdown (by simp [hshutdown])
  | _ => exact h.started

/-- How far a shutdown call with these sections left has got. -/
def Reached (state : State) (deadline : Duration) (rest : List Section) : Prop :=
  rest = (Call.beginShutdown deadline).sections ∨
    (state.shutdown ∧ rest = [.begin deadline, .poll, .status]) ∨
    (Sealed state ∧ (rest = [.poll, .status] ∨ rest = [.status]))

theorem reached_of_effect (heffect : Effect before head after)
    (h : Reached before.state deadline rest) : Reached after.state deadline rest := by
  rcases h with h | ⟨hshutdown, h⟩ | ⟨hsealed, h⟩
  · exact .inl h
  · exact .inr (.inl ⟨shutdown_of_effect heffect hshutdown, h⟩)
  · exact .inr (.inr ⟨sealed_of_effect heffect hsealed, h⟩)

theorem started_begin (deadline : Duration) (now : Instant) (state : State) :
    (state.begin deadline now).started.isSome := by
  unfold State.begin
  split
  · rfl
  · rename_i hstarted
    exact Option.isSome_iff_ne_none.mpr (by simpa using hstarted)

/-- A shutdown call that runs its next section gets to the next stage, and is sealed at the end. -/
theorem reached_execute (sys : Sys) (h : Reached sys.state deadline (head :: rest)) :
    (rest ≠ [] → Reached (sys.execute head).state deadline rest) ∧
      (rest = [] → Sealed (sys.execute head).state) := by
  rcases h with h | ⟨hshutdown, h⟩ | ⟨hsealed, h | h⟩
  · cases h
    exact ⟨fun _ ↦ .inr (.inl ⟨rfl, rfl⟩), nofun⟩
  · cases h
    have hbegun : Sealed (sys.execute (.begin deadline)).state :=
      ⟨shutdown_of_effect (effect_execute _ _) hshutdown, started_begin _ _ _⟩
    exact ⟨fun _ ↦ .inr (.inr ⟨hbegun, .inl rfl⟩), nofun⟩
  · cases h
    exact ⟨fun _ ↦ .inr (.inr ⟨sealed_of_effect (effect_execute _ _) hsealed, .inr rfl⟩), nofun⟩
  · cases h
    exact ⟨fun h ↦ absurd rfl h, fun _ ↦ sealed_of_effect (effect_execute _ _) hsealed⟩

end Shutdown

theorem sealed_run {sys : Sys} (h : Sealed sys.state) (labels : List Label) :
    Sealed (sys.run labels).state :=
  run_of_execute (P := fun sys ↦ Sealed sys.state) (fun _ _ _ h ↦ h) (fun _ _ h ↦ h)
    (fun sys head h ↦ sealed_of_effect (effect_execute sys head) h) h labels

/-- Shutdown calls run their sections in order: one that has returned has sealed the drain. -/
structure ShutdownOrder (sys : Sys) : Prop where
  running : ∀ thread deadline rest,
    sys.threads thread = some (.beginShutdown deadline, rest) → Reached sys.state deadline rest
  returned : ∀ deadline, .beginShutdown deadline ∈ sys.returned → Sealed sys.state

theorem shutdownOrder_continueWith {sys : Sys} (h : sys.ShutdownOrder) (thread : ℕ) {call : Call}
    {rest : List Section}
    (hcall : ∀ deadline, call = .beginShutdown deadline →
      (rest ≠ [] → Reached sys.state deadline rest) ∧ (rest = [] → Sealed sys.state)) :
    (sys.continueWith thread call rest).ShutdownOrder := by
  cases rest with
  | nil =>
    refine ⟨fun other deadline rest hother ↦ ?_, fun deadline hmem ↦ ?_⟩
    · simp only [continueWith, Function.update_apply] at hother
      split at hother
      · cases hother
      · exact h.running other deadline rest hother
    · rcases List.mem_cons.mp hmem with heq | hmem
      · exact (hcall deadline heq.symm).2 rfl
      · exact h.returned deadline hmem
  | cons head rest =>
    refine ⟨fun other deadline rest' hother ↦ ?_, h.returned⟩
    simp only [continueWith, Function.update_apply] at hother
    split at hother
    · cases hother
      exact (hcall deadline rfl).1 nofun
    · exact h.running other deadline rest' hother

theorem shutdownOrder_step {sys : Sys} (h : sys.ShutdownOrder) (label : Label) :
    (sys.step label).ShutdownOrder := by
  cases label with
  | call thread call =>
    simp only [step]
    split
    · apply shutdownOrder_continueWith h
      rintro deadline rfl
      exact ⟨fun _ ↦ .inl rfl, nofun⟩
    · exact h
  | run thread elapsed =>
    simp only [step]
    split
    · rename_i call head rest hthread
      have heffect := effect_execute (sys.later elapsed) head
      obtain ⟨hthreads, hreturned⟩ := threads_of_effect heffect
      apply shutdownOrder_continueWith
      · refine ⟨fun other deadline rest hother ↦ ?_, fun deadline hmem ↦ ?_⟩
        · exact reached_of_effect heffect (h.running other deadline rest (hthreads ▸ hother))
        · exact sealed_of_effect heffect (h.returned deadline (hreturned ▸ hmem))
      · rintro deadline rfl
        exact reached_execute (sys.later elapsed) (h.running thread deadline _ hthread)
    · exact h

theorem shutdownOrder_run (clock : Instant) (labels : List Label) :
    ((initial clock).run labels).ShutdownOrder :=
  Run.invariant_run_of_step ShutdownOrder (fun _ label h ↦ shutdownOrder_step h label) labels
    ⟨nofun, fun _ hmem ↦ absurd hmem List.not_mem_nil⟩

/-! ## Admission -/

theorem index_status_gateway_idle (now : Instant) (state : State) :
    (state.status now).index "gateway_idle" =
      .bool (state.started.isSome && state.active = 0) := by
  unfold State.status Value.index
  rw [Value.get?_ofFields (by simp)]
  rfl

/-- Admission over all interleavings: the counter counts the live permits and a live permit never
finds it at zero, no request is admitted while a drain is in progress, a gateway reported idle has
no live permit, and once a shutdown call has returned no request is ever admitted again. -/
theorem admission_run (clock : Instant) (labels : List Label) :
    let sys := (initial clock).run labels
    sys.state.active = sys.permits.entries.length ∧
      (∀ permit ∈ sys.permits.entries, 0 < sys.state.active) ∧
      (sys.state.draining → sys.state.admitRequest.1 = none) ∧
      (∀ now, (sys.state.status now).index "gateway_idle" = .bool true →
        sys.permits.entries = []) ∧
      ∀ deadline, .beginShutdown deadline ∈ sys.returned →
        ∀ later, (sys.run later).state.admitRequest.1 = none := by
  intro sys
  have hcounted : sys.Counted := counted_run clock labels
  have hactive : sys.state.active = sys.permits.entries.length := by
    rw [hcounted.active, Keyed.Table.total]
    simp
  have hrefused (state : State) (hstarted : state.started.isSome) :
      state.admitRequest.1 = none := by
    rw [State.admitRequest, if_pos hstarted]
  refine ⟨hactive, ?_, hrefused sys.state, ?_, ?_⟩
  · intro permit hmem
    rw [hactive]
    exact List.length_pos_of_mem hmem
  · intro now hidle
    rw [index_status_gateway_idle] at hidle
    have hzero : sys.state.active = 0 := by
      have h := Value.bool.inj hidle
      simp only [Bool.and_eq_true, decide_eq_true_eq] at h
      exact h.2
    exact List.length_eq_zero_iff.mp (hactive ▸ hzero)
  · intro deadline hmem later
    have hsealed := (shutdownOrder_run clock labels).returned deadline hmem
    exact hrefused _ (sealed_run hsealed later).started

end Sys

end Cameo.Gateway
