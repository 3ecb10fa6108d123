import Cameo.Gateway.Drain

/-!
# Cancellation of drained requests

A poll past the deadline of a drain moves the watermark `cancelledThrough` up to the current
generation and shuts down the sockets registered under it.  Resuming counts the generation up, so
that requests admitted afterwards lie above the watermark, until the counter saturates.
-/

namespace Cameo.Gateway

open Json Library

namespace Sys

/-- The watermark lies below the generation of an open gateway, unless the counter is saturated;
a drain has begun in the past; and the sockets of cancelled generations have been shut down. -/
structure Marked (sys : Sys) : Prop where
  counter : sys.state.generation ≤ u64Max
  watermark : ∀ last, sys.state.cancelledThrough = some last → last ≤ sys.state.generation
  current : sys.state.cancelledThrough = some sys.state.generation →
    sys.state.started.isSome ∨ sys.state.generation = u64Max
  since : ∀ since, sys.state.started = some since → since ≤ sys.clock
  shut : ∀ id owner stream, sys.state.sockets.get? id = some (owner, stream) →
    sys.state.cancelled owner → stream ∈ sys.closed

theorem cancelled_iff (state : State) (generation : ℕ) :
    state.cancelled generation ↔
      ∃ last, state.cancelledThrough = some last ∧ generation ≤ last := by
  unfold State.cancelled
  cases state.cancelledThrough <;> simp

/-- A poll past the deadline shuts down the sockets of all generations so far. -/
theorem mem_poll {state : State} {now : Instant} (hexpired : state.expired now) {id owner : ℕ}
    {stream : Connection} (h : state.sockets.get? id = some (owner, stream))
    (howner : owner ≤ state.generation) : stream ∈ (state.poll now).1 := by
  have hmem := (state.sockets.mem_entries_iff id (owner, stream)).mpr h
  rw [State.poll, if_pos hexpired]
  exact List.mem_map.mpr ⟨_, List.mem_filter.mpr ⟨hmem, by simpa using howner⟩, rfl⟩

theorem marked_of_effect {before after : Sys} {head : Section} (heffect : Effect before head after)
    (h : before.Marked) : after.Marked := by
  obtain ⟨hcounter, hwatermark, hcurrent, hsince, hshut⟩ := h
  cases heffect with
  | quiet head => exact ⟨hcounter, hwatermark, hcurrent, hsince, hshut⟩
  | admitted hopen => exact ⟨hcounter, hwatermark, hcurrent, hsince, hshut⟩
  | begun deadline hopen =>
    refine ⟨hcounter, hwatermark, fun _ ↦ .inl rfl, fun since hstarted ↦ ?_, hshut⟩
    cases hstarted
    exact le_rfl
  | reopened hshutdown hstarted =>
    have hgrows : before.state.generation ≤ saturatingAdd before.state.generation 1 := by
      simp only [saturatingAdd]
      omega
    refine ⟨min_le_right _ _, fun last hlast ↦ (hwatermark last hlast).trans hgrows,
      fun hlast ↦ .inr ?_, fun since hsome ↦ ?_, hshut⟩
    · -- the watermark has not passed the old generation, so the counter cannot have moved
      have hle := hwatermark _ hlast
      simp only [saturatingAdd] at hle ⊢
      omega
    · cases hsome
  | sealed => exact ⟨hcounter, hwatermark, hcurrent, hsince, hshut⟩
  | expired hexpired =>
    refine ⟨hcounter, ?_, fun _ ↦ .inl ?_, hsince, fun id owner stream hsocket howner ↦ ?_⟩
    · intro last hlast
      cases hlast
      exact le_rfl
    · cases hstarted : before.state.started with
      | none => simp [State.expired, hstarted] at hexpired
      | some since => rfl
    · obtain ⟨last, hlast, hle⟩ := (cancelled_iff _ _).mp howner
      cases hlast
      exact List.mem_append_left _ (mem_poll hexpired hsocket hle)
  | enrolled generation stream hlive =>
    refine ⟨hcounter, hwatermark, hcurrent, hsince, fun id owner stream' hsocket howner ↦ ?_⟩
    simp only [Ordered.Map.get?_insert] at hsocket
    split at hsocket
    · cases hsocket
      exact absurd howner (by simpa [State.cancelled] using hlive)
    · exact hshut id owner stream' hsocket howner
  | dropped id permit hpermit => exact ⟨hcounter, hwatermark, hcurrent, hsince, hshut⟩
  | unregistered id =>
    refine ⟨hcounter, hwatermark, hcurrent, hsince, fun id' owner stream hsocket howner ↦ ?_⟩
    simp only [State.dropRegistration, Ordered.Map.get?_erase] at hsocket
    split at hsocket
    · cases hsocket
    · exact hshut id' owner stream hsocket howner

theorem marked_later {sys : Sys} (h : sys.Marked) (elapsed : Duration) :
    (sys.later elapsed).Marked :=
  ⟨h.counter, h.watermark, h.current,
    fun since hstarted ↦ (h.since since hstarted).trans (Nat.le_add_right _ _), h.shut⟩

theorem marked_run {sys : Sys} (h : sys.Marked) (labels : List Label) : (sys.run labels).Marked :=
  run_of_execute (P := Marked)
    (fun _ _ _ h ↦ ⟨h.counter, h.watermark, h.current, h.since, h.shut⟩)
    (fun _ elapsed h ↦ marked_later h elapsed)
    (fun sys head h ↦ marked_of_effect (effect_execute sys head) h) h labels

theorem marked_initial (clock : Instant) : (initial clock).Marked :=
  ⟨Nat.zero_le _, nofun, nofun, nofun, nofun⟩

/-- What has been cancelled stays cancelled. -/
theorem cancelled_of_effect {before after : Sys} {head : Section} {generation : ℕ}
    (heffect : Effect before head after) (hmarked : before.Marked)
    (h : before.state.cancelled generation) : after.state.cancelled generation := by
  cases heffect with
  | expired hexpired =>
    obtain ⟨last, hlast, hle⟩ := (cancelled_iff _ _).mp h
    exact (cancelled_iff _ _).mpr ⟨_, rfl, hle.trans (hmarked.watermark last hlast)⟩
  | _ => exact h

theorem cancelled_run {sys : Sys} {generation : ℕ} (hmarked : sys.Marked)
    (h : sys.state.cancelled generation) (labels : List Label) :
    (sys.run labels).state.cancelled generation :=
  (run_of_execute (P := fun sys ↦ sys.Marked ∧ sys.state.cancelled generation)
    (fun _ _ _ h ↦ ⟨⟨h.1.counter, h.1.watermark, h.1.current, h.1.since, h.1.shut⟩, h.2⟩)
    (fun _ elapsed h ↦ ⟨marked_later h.1 elapsed, h.2⟩)
    (fun sys head h ↦ ⟨marked_of_effect (effect_execute sys head) h.1,
      cancelled_of_effect (effect_execute sys head) h.1 h.2⟩) ⟨hmarked, h⟩ labels).2

/-! ## Requests admitted after a drain -/

/-- The step finds a drain at its deadline that began at an instant or later. -/
def Expires (instant : Instant) (sys : Sys) (label : Label) : Prop :=
  ∃ thread elapsed call rest, label = .run thread elapsed ∧
    sys.threads thread = some (call, .poll :: rest) ∧
    (∃ since, sys.state.started = some since ∧ instant ≤ since) ∧
    sys.state.expired (sys.clock + elapsed)

/-- The drain in progress, if there is one, began at an instant or later, and a generation is not
cancelled. -/
structure Spared (instant : Instant) (generation : ℕ) (sys : Sys) : Prop where
  clock : instant ≤ sys.clock
  since : ∀ since, sys.state.started = some since → instant ≤ since
  live : sys.state.cancelled generation = false

theorem spared_of_effect {before after : Sys} {head : Section} {instant : Instant} {generation : ℕ}
    (heffect : Effect before head after)
    (hpoll : head = .poll → ¬ before.state.expired before.clock)
    (h : before.Spared instant generation) : after.Spared instant generation := by
  obtain ⟨hclock, hsince, hlive⟩ := h
  cases heffect with
  | begun deadline hopen =>
    refine ⟨hclock, fun since hstarted ↦ ?_, hlive⟩
    cases hstarted
    exact hclock
  | reopened hshutdown hstarted => exact ⟨hclock, nofun, hlive⟩
  | expired hexpired => exact absurd hexpired (hpoll rfl)
  | _ => exact ⟨hclock, hsince, hlive⟩

/-- A generation is spared until a drain that began since has expired. -/
theorem spared_run {sys : Sys} {instant : Instant} {generation : ℕ}
    (h : sys.Spared instant generation) {labels : List Label}
    (hmeets : Run.Meets step (fun sys label ↦ ¬ Expires instant sys label) sys labels) :
    (sys.run labels).Spared instant generation := by
  apply Run.invariant_run (Spared instant generation) _ h hmeets
  intro sys label h hquiet
  rcases step_cases sys label with
    ⟨threads, returned, heq⟩ |
      ⟨thread, elapsed, call, head, rest, threads, returned, hlabel, hthread, heq⟩
  · rw [heq]
    exact ⟨h.clock, h.since, h.live⟩
  · rw [heq]
    have hlater : (sys.later elapsed).Spared instant generation :=
      ⟨h.clock.trans (Nat.le_add_right _ _), h.since, h.live⟩
    have hpoll : head = .poll → ¬ (sys.later elapsed).state.expired (sys.later elapsed).clock := by
      rintro rfl hexpired
      refine hquiet ⟨thread, elapsed, call, rest, hlabel, hthread, ?_, hexpired⟩
      cases hstarted : sys.state.started with
      | none => simp [later, State.expired, hstarted] at hexpired
      | some since => exact ⟨since, rfl, h.since since hstarted⟩
    have hafter := spared_of_effect (effect_execute (sys.later elapsed) head) hpoll hlater
    exact ⟨hafter.clock, hafter.since, hafter.live⟩

/-- A step that issues a permit finds the gateway open, and the permit has its generation. -/
theorem issued_of_step {sys : Sys} {label : Label} {permit : Permit}
    (hnew : permit ∈ (sys.step label).permits.entries) (hold : permit ∉ sys.permits.entries) :
    sys.state.started = none ∧ permit.generation = sys.state.generation ∧
      (sys.step label).state.started = none ∧
      (sys.step label).state.cancelledThrough = sys.state.cancelledThrough := by
  rcases step_cases sys label with
    ⟨threads, returned, heq⟩ |
      ⟨thread, elapsed, call, head, rest, threads, returned, hlabel, hthread, heq⟩
  · rw [heq] at hnew
    exact absurd hnew hold
  · rw [heq] at hnew ⊢
    have heffect := effect_execute (sys.later elapsed) head
    generalize (sys.later elapsed).execute head = after at heffect hnew ⊢
    cases heffect with
    | admitted hopen =>
      rcases (Keyed.Table.mem_insert _ _ _).mp hnew with rfl | ⟨hmem, -⟩
      · exact ⟨hopen, rfl, hopen, rfl⟩
      · exact absurd hmem hold
    | dropped id dropped hdropped =>
      exact absurd ((Keyed.Table.mem_erase _ _ _).mp hnew).1 hold
    | _ => exact absurd hnew hold

/-- Cancellation over all interleavings: what is cancelled stays cancelled; a permit is not
cancelled until a drain that began after its admission has expired, unless the generation counter
had saturated; a poll past the deadline cancels all generations so far and shuts down their sockets;
the registered sockets of a cancelled generation have been shut down, and none can be registered. -/
theorem cancellation_run (clock : Instant) (labels : List Label) :
    let sys := (initial clock).run labels
    (∀ generation later, sys.state.cancelled generation →
      (sys.run later).state.cancelled generation) ∧
    (∀ label permit later, permit ∈ (sys.step label).permits.entries →
      permit ∉ sys.permits.entries → sys.state.generation < u64Max →
      Run.Meets step (fun found next ↦ ¬ Expires (sys.step label).clock found next)
        (sys.step label) later →
      ((sys.step label).run later).state.cancelled permit.generation = false) ∧
    (sys.state.expired sys.clock →
      (∀ generation ≤ sys.state.generation, (sys.execute .poll).state.cancelled generation) ∧
      ∀ id owner stream, (sys.execute .poll).state.sockets.get? id = some (owner, stream) →
        (sys.execute .poll).state.cancelled owner → stream ∈ (sys.execute .poll).closed) ∧
    (∀ id owner stream, sys.state.sockets.get? id = some (owner, stream) →
      sys.state.cancelled owner → stream ∈ sys.closed) ∧
    ∀ generation stream, sys.state.cancelled generation →
      sys.state.enroll generation stream = (.error "drain deadline exceeded", sys.state) := by
  intro sys
  have hmarked : sys.Marked := marked_run (marked_initial clock) labels
  have hpolled := marked_of_effect (effect_execute sys .poll) hmarked
  refine ⟨fun generation later h ↦ cancelled_run hmarked h later, ?_, ?_, hmarked.shut, ?_⟩
  · intro label permit later hnew hold hcounter hmeets
    obtain ⟨hopen, hgeneration, hstill, hthrough⟩ := issued_of_step hnew hold
    refine (spared_run ⟨le_rfl, fun since hsince ↦ ?_, ?_⟩ hmeets).live
    · cases hstill.symm.trans hsince
    rw [Bool.eq_false_iff]
    intro hcancelled
    obtain ⟨last, hlast, hle⟩ := (cancelled_iff _ _).mp hcancelled
    rw [hthrough] at hlast
    have hbound := hmarked.watermark last hlast
    have hsame : last = sys.state.generation := by omega
    rcases hmarked.current (hsame ▸ hlast) with hstarted | hsaturated
    · simp [hopen] at hstarted
    · omega
  · intro hexpired
    refine ⟨fun generation hle ↦ (cancelled_iff _ _).mpr ⟨sys.state.generation, ?_, hle⟩,
      hpolled.shut⟩
    simp only [execute, State.poll, if_pos hexpired]
  · intro generation stream hcancelled
    rw [State.enroll, if_pos hcancelled]

/-! ## Saturation -/

/-- A drain of no duration begins and is resumed. -/
def drainCycle : List Label :=
  [.call 0 (.begin 0), .run 0 0, .run 0 0, .run 0 0,
    .call 0 .resume, .run 0 0, .run 0 0, .run 0 0, .run 0 0]

/-- The gateway accepts requests and no call is in progress in the first thread. -/
structure Idle (sys : Sys) : Prop where
  thread : sys.threads 0 = none
  shutdown : sys.state.shutdown = false
  started : sys.state.started = none

theorem run_drainCycle {sys : Sys} (h : sys.Idle) :
    (sys.run drainCycle).Idle ∧
      (sys.run drainCycle).state.generation = saturatingAdd sys.state.generation 1 ∧
      (sys.run drainCycle).state.cancelledThrough = some sys.state.generation ∧
      (sys.run drainCycle).permits = sys.permits := by
  obtain ⟨hthread, hshutdown, hstarted⟩ := h
  obtain ⟨⟨shutdown, active, started, deadline, generation, through, next, sockets⟩, clock, permits,
    issued, closed, threads, returned⟩ := sys
  dsimp only at hthread hshutdown hstarted
  subst hshutdown hstarted
  refine ⟨⟨?_, ?_, ?_⟩, ?_, ?_, ?_⟩ <;>
    simp [run, drainCycle, step, hthread, continueWith, Call.sections, later, execute, State.begin,
      State.poll, State.expired, State.reopen]

/-- So many drain cycles, one after the other. -/
def drainCycles (count : ℕ) : List Label := (List.replicate count drainCycle).flatten

theorem run_drainCycles_succ (sys : Sys) (count : ℕ) :
    sys.run (drainCycles (count + 1)) = (sys.run (drainCycles count)).run drainCycle := by
  rw [drainCycles, List.replicate_succ', List.flatten_concat]
  exact Run.run_append _ _ _ _

theorem run_drainCycles (clock : Instant) (count : ℕ) :
    ((initial clock).run (drainCycles count)).Idle ∧
      ((initial clock).run (drainCycles count)).state.generation = min count u64Max ∧
      ((initial clock).run (drainCycles count)).permits = .empty := by
  induction count with
  | zero => exact ⟨⟨rfl, rfl, rfl⟩, (Nat.zero_min _).symm, rfl⟩
  | succ count ih =>
    obtain ⟨hidle, hgeneration, hpermits⟩ := ih
    obtain ⟨hidle', hgeneration', -, hpermits'⟩ := run_drainCycle hidle
    rw [run_drainCycles_succ]
    refine ⟨hidle', ?_, hpermits'.trans hpermits⟩
    rw [hgeneration', hgeneration, saturatingAdd]
    omega

/-- A request is admitted by the first thread. -/
def admission : List Label := [.call 0 .admitRequest, .run 0 0]

theorem run_admission {sys : Sys} (h : sys.Idle) :
    (sys.run admission).permits = sys.permits.insert ⟨sys.issued, sys.state.generation⟩ ∧
      (sys.run admission).state.cancelledThrough = sys.state.cancelledThrough := by
  obtain ⟨hthread, -, hstarted⟩ := h
  constructor <;>
    simp [run, admission, step, hthread, continueWith, Call.sections, later, execute,
      State.admitRequest, hstarted]

/-- After more resumed drains than the counter has values, a request admitted by the open gateway
is cancelled from the start. -/
theorem cancelled_at_admission {count : ℕ} (hcount : u64Max ≤ count) :
    let sys := (initial 0).run (drainCycles (count + 1))
    sys.state.started = none ∧
      ∃ permit ∈ (sys.run admission).permits.entries, permit ∉ sys.permits.entries ∧
        (sys.run admission).state.cancelled permit.generation := by
  intro sys
  obtain ⟨hidle, hgeneration, hpermits⟩ : sys.Idle ∧
      sys.state.generation = min (count + 1) u64Max ∧ sys.permits = .empty :=
    run_drainCycles 0 (count + 1)
  have hthrough : sys.state.cancelledThrough = some (min count u64Max) := by
    obtain ⟨hidle', hgeneration', -⟩ := run_drainCycles 0 count
    rw [← hgeneration', ← (run_drainCycle hidle').2.2.1, ← run_drainCycles_succ]
  obtain ⟨hpermits', hthrough'⟩ := run_admission hidle
  refine ⟨hidle.started, ⟨sys.issued, sys.state.generation⟩, ?_, ?_, ?_⟩
  · rw [hpermits']
    exact (Keyed.Table.mem_insert _ _ _).mpr (.inl rfl)
  · rw [hpermits]
    exact List.not_mem_nil
  · refine (cancelled_iff _ _).mpr ⟨_, hthrough'.trans hthrough, ?_⟩
    dsimp only
    rw [hgeneration]
    omega

/-- The deadline of a drain that was resumed cancels a request admitted afterwards. -/
theorem cancelled_at_admission_saturated :
    let sys := (initial 0).run (drainCycles (u64Max + 1))
    sys.state.started = none ∧
      ∃ permit ∈ (sys.run admission).permits.entries, permit ∉ sys.permits.entries ∧
        (sys.run admission).state.cancelled permit.generation :=
  cancelled_at_admission le_rfl

/-! ## The deadline of a shutdown -/

/-- A drain that a shutdown has sealed, with its beginning and its deadline. -/
structure SealedSince (since : Instant) (deadline : Duration) (state : State) : Prop where
  shutdown : state.shutdown
  started : state.started = some since
  deadline : state.deadline = deadline

theorem sealedSince_of_effect {before after : Sys} {head : Section} {since : Instant}
    {deadline : Duration} (heffect : Effect before head after)
    (h : SealedSince since deadline before.state) : SealedSince since deadline after.state := by
  obtain ⟨hshutdown, hstarted, hdeadline⟩ := h
  cases heffect with
  | begun deadline' hopen => cases hopen.symm.trans hstarted
  | reopened hopen hsome => simp [hshutdown] at hopen
  | sealed => exact ⟨rfl, hstarted, hdeadline⟩
  | _ => exact ⟨hshutdown, hstarted, hdeadline⟩

/-- A sealed drain keeps its beginning and its deadline. -/
theorem sealedSince_run {sys : Sys} {since : Instant} {deadline : Duration}
    (h : SealedSince since deadline sys.state) (labels : List Label) :
    SealedSince since deadline (sys.run labels).state :=
  run_of_execute (P := fun sys ↦ SealedSince since deadline sys.state) (fun _ _ _ h ↦ h)
    (fun _ _ h ↦ h) (fun sys head h ↦ sealedSince_of_effect (effect_execute sys head) h) h labels

/-- All live permits have been cancelled, and none can be added. -/
structure AllCancelled (sys : Sys) : Prop where
  marked : sys.Marked
  closed : Sealed sys.state
  permits : ∀ permit ∈ sys.permits.entries, sys.state.cancelled permit.generation

theorem allCancelled_of_effect {before after : Sys} {head : Section}
    (heffect : Effect before head after) (h : before.AllCancelled) : after.AllCancelled := by
  refine ⟨marked_of_effect heffect h.marked, sealed_of_effect heffect h.closed,
    fun permit hmem ↦ cancelled_of_effect heffect h.marked (h.permits permit ?_)⟩
  have hstarted := h.closed.started
  cases heffect with
  | admitted hopen => simp [hopen] at hstarted
  | dropped id dropped hdropped => exact ((Keyed.Table.mem_erase _ _ _).mp hmem).1
  | _ => exact hmem

theorem allCancelled_run {sys : Sys} (h : sys.AllCancelled) (labels : List Label) :
    (sys.run labels).AllCancelled :=
  run_of_execute (P := AllCancelled)
    (fun _ _ _ h ↦
      ⟨⟨h.marked.counter, h.marked.watermark, h.marked.current, h.marked.since, h.marked.shut⟩,
        h.closed, h.permits⟩)
    (fun _ elapsed h ↦ ⟨marked_later h.marked elapsed, h.closed, h.permits⟩)
    (fun sys head h ↦ allCancelled_of_effect (effect_execute sys head) h) h labels

/-- A poll of an expired drain cancels every permit. -/
theorem cancelled_poll {sys : Sys} (hcounted : sys.Counted) (hexpired : sys.state.expired sys.clock)
    {permit : Permit} (hmem : permit ∈ sys.permits.entries) :
    (sys.execute .poll).state.cancelled permit.generation := by
  refine (cancelled_iff _ _).mpr ⟨sys.state.generation, ?_, hcounted.generation permit hmem⟩
  simp only [execute, State.poll, if_pos hexpired]

theorem expired_iff {state : State} {since now : Instant} (hstarted : state.started = some since)
    (hsince : since ≤ now) : state.expired now ↔ since + state.deadline ≤ now := by
  rw [State.expired, hstarted, Option.any_some, decide_eq_true_eq, Instant.elapsed,
    Nat.le_sub_iff_add_le' hsince]

/-- Running the section of `begin` that a call has next. -/
theorem step_begin {sys : Sys} {thread : ℕ} {call : Call} {deadline : Duration}
    {rest : List Section} (hthread : sys.threads thread = some (call, .begin deadline :: rest))
    (elapsed : Duration) :
    (sys.step (.run thread elapsed)).state = sys.state.begin deadline (sys.clock + elapsed) ∧
      (sys.step (.run thread elapsed)).clock = sys.clock + elapsed ∧
      (sys.step (.run thread elapsed)).permits = sys.permits := by
  simp only [step, hthread]
  obtain ⟨threads, returned, heq⟩ := continueWith_eq
    ((sys.later elapsed).execute (.begin deadline)) thread call rest
  rw [heq]
  exact ⟨rfl, rfl, rfl⟩

theorem shutdown_of_reached {state : State} {deadline : Duration} {rest : List Section}
    (h : Reached state deadline (.begin deadline :: rest)) : state.shutdown := by
  rcases h with h | ⟨hshutdown, -⟩ | ⟨-, h | h⟩
  · cases h
  · exact hshutdown
  · cases h
  · cases h

theorem run_snoc (sys : Sys) (labels : List Label) (label : Label) :
    sys.run (labels ++ [label]) = (sys.run labels).step label :=
  Run.run_append step sys labels [label]

theorem counted_later {sys : Sys} (h : sys.Counted) (wait : Duration) :
    (sys.later wait).Counted := by
  obtain ⟨hcounter, hactive, hissued, hgeneration⟩ := h
  exact ⟨hcounter, hactive, hissued, hgeneration⟩

/-- A poll after the end of a sealed drain cancels every permit. -/
theorem cancelled_of_ended {sys : Sys} {since : Instant} {duration wait : Duration}
    (hcounted : sys.Counted) (hsealed : SealedSince since duration sys.state)
    (hended : since + duration ≤ sys.clock + wait) {permit : Permit}
    (hmem : permit ∈ sys.permits.entries) :
    ((sys.later wait).execute .poll).state.cancelled permit.generation := by
  obtain ⟨-, hstarted, hduration⟩ := hsealed
  have hexpired : (sys.later wait).state.expired (sys.later wait).clock := by
    refine (expired_iff hstarted ((Nat.le_add_right _ _).trans hended)).mpr ?_
    rw [hduration]
    exact hended
  exact cancelled_poll (counted_later hcounted wait) hexpired hmem

/-- A poll before the end of a drain changes nothing. -/
theorem state_poll_of_not_expired {sys : Sys} (h : ¬ sys.state.expired sys.clock) :
    (sys.execute .poll).state = sys.state := by
  simp only [execute, State.poll]
  exact congrArg Prod.snd (if_neg h)

/-- Once all permits are cancelled, they are at every later poll. -/
theorem cancelled_of_allCancelled {sys : Sys} (h : sys.AllCancelled) (later : List Label)
    (wait : Duration) {permit : Permit} (hmem : permit ∈ (sys.run later).permits.entries) :
    (((sys.run later).later wait).execute .poll).state.cancelled permit.generation := by
  have hrun := allCancelled_run h later
  exact cancelled_of_effect (effect_execute _ .poll) (marked_later hrun.marked wait)
    (hrun.permits permit hmem)

/-- After a shutdown call has run its `begin`, every poll from then on that comes its deadline later
cancels all permits exactly if no drain was in progress, the one in progress ends no later, or
nothing was left to cancel. -/
theorem shutdown_deadline_iff (clock : Instant) (labels : List Label) {thread : ℕ}
    {deadline : Duration} {rest : List Section}
    (hthread : ((initial clock).run labels).threads thread =
      some (.beginShutdown deadline, .begin deadline :: rest)) (elapsed : Duration) :
    let sys := (initial clock).run labels
    let now := sys.clock + elapsed
    let begun := sys.step (.run thread elapsed)
    (∀ later wait, now + deadline ≤ (begun.run later).clock + wait →
      ∀ permit ∈ (begun.run later).permits.entries,
        (((begun.run later).later wait).execute .poll).state.cancelled permit.generation) ↔
    (sys.state.started = none ∨
      (∃ since, sys.state.started = some since ∧
        since + sys.state.deadline ≤ now + deadline) ∨
      ∀ permit ∈ sys.permits.entries, sys.state.cancelled permit.generation) := by
  intro sys now begun
  obtain ⟨hstate, hclock, hpermits⟩ : begun.state = sys.state.begin deadline now ∧
      begun.clock = now ∧ begun.permits = sys.permits := step_begin hthread elapsed
  have hshutdown : sys.state.shutdown :=
    shutdown_of_reached ((shutdownOrder_run clock labels).running thread deadline _ hthread)
  have hmarked : sys.Marked := marked_run (marked_initial clock) labels
  have hcounted (later : List Label) : (begun.run later).Counted := by
    have h := counted_run clock ((labels ++ [.run thread elapsed]) ++ later)
    rwa [run, Run.run_append, ← run, ← run, run_snoc] at h
  -- whatever drain is in progress at the poll, it has ended by `now + deadline`
  have hends {since : Instant} {duration : Duration}
      (hsealed : SealedSince since duration begun.state)
      (hle : since + duration ≤ now + deadline) (later : List Label) (wait : Duration)
      (hwait : now + deadline ≤ (begun.run later).clock + wait) :
      ∀ permit ∈ (begun.run later).permits.entries,
        (((begun.run later).later wait).execute .poll).state.cancelled permit.generation :=
    fun _ hmem ↦ cancelled_of_ended (hcounted later) (sealedSince_run hsealed later)
      (hle.trans hwait) hmem
  cases hstarted : sys.state.started with
  | none =>
    have hsealed : SealedSince now deadline begun.state := by
      rw [hstate, State.begin, hstarted]
      exact ⟨hshutdown, rfl, rfl⟩
    exact ⟨fun _ ↦ .inl rfl, fun _ ↦ hends hsealed le_rfl⟩
  | some since =>
    have hkept : begun.state = sys.state := by
      rw [hstate, State.begin, hstarted]
      rfl
    have hsealed : SealedSince since sys.state.deadline begun.state := by
      rw [hkept]
      exact ⟨hshutdown, hstarted, rfl⟩
    by_cases hle : since + sys.state.deadline ≤ now + deadline
    · exact ⟨fun _ ↦ .inr (.inl ⟨since, rfl, hle⟩), fun _ ↦ hends hsealed hle⟩
    · constructor
      · -- the poll right at the shutdown's deadline still finds the older drain running
        intro h
        refine .inr (.inr fun permit hmem ↦ ?_)
        have hsince := hmarked.since since hstarted
        have hpoll := h [] deadline (by rw [run, Run.run_nil, hclock]) permit
          (by rw [run, Run.run_nil, hpermits]; exact hmem)
        rw [run, Run.run_nil] at hpoll
        have hexpired : ¬ (begun.later deadline).state.expired (begun.later deadline).clock := by
          change ¬ begun.state.expired (begun.clock + deadline)
          rw [hkept, hclock, expired_iff hstarted (hsince.trans (Nat.le_add_right_of_le
            (Nat.le_add_right _ _)))]
          exact hle
        rw [state_poll_of_not_expired hexpired] at hpoll
        exact hkept ▸ hpoll
      · rintro (h | ⟨since', h, hle'⟩ | h)
        · cases h
        · cases h
          exact absurd hle' hle
        · intro later wait _ permit hmem
          have hmarked' : begun.Marked := by
            have hrun := marked_run (marked_initial clock) (labels ++ [.run thread elapsed])
            rwa [run_snoc] at hrun
          have hall : begun.AllCancelled := by
            refine ⟨hmarked', ⟨?_, ?_⟩, fun permit hmem ↦ ?_⟩
            · rw [hkept]
              exact hshutdown
            · rw [hkept, hstarted]
              rfl
            · rw [hkept]
              exact h permit (hpermits ▸ hmem)
          exact cancelled_of_allCancelled hall later wait hmem

/-- A request is admitted, and a shutdown of thirty seconds has sealed the gateway. -/
def sealedShutdown : List Label :=
  [.call 0 .admitRequest, .run 0 0, .call 2 (.beginShutdown (Duration.fromSecs 30)), .run 2 0]

/-- Without a drain in progress the shutdown's deadline is honoured. -/
theorem shutdown_deadline_honoured :
    let sys := (initial 0).run sealedShutdown
    ∀ later wait, Duration.fromSecs 30 ≤ ((sys.step (.run 2 0)).run later).clock + wait →
      ∀ permit ∈ ((sys.step (.run 2 0)).run later).permits.entries,
        ((((sys.step (.run 2 0)).run later).later wait).execute .poll).state.cancelled
          permit.generation := by
  intro sys later wait hwait
  exact (shutdown_deadline_iff 0 sealedShutdown rfl 0).mpr (.inl rfl) later wait hwait

/-- The same after an operator has begun a drain of an hour. -/
def sealedDuringDrain : List Label :=
  [.call 0 .admitRequest, .run 0 0, .call 1 (.begin (Duration.fromSecs 3600)), .run 1 0, .run 1 0,
    .run 1 0, .call 2 (.beginShutdown (Duration.fromSecs 30)), .run 2 0]

/-- During a longer drain the poll at the shutdown's deadline cancels nothing. -/
theorem shutdown_deadline_missed :
    let begun := ((initial 0).run sealedDuringDrain).step (.run 2 0)
    ((initial 0).run sealedDuringDrain).threads 2 =
        some (.beginShutdown (Duration.fromSecs 30),
          [.begin (Duration.fromSecs 30), .poll, .status]) ∧
      ((initial 0).run sealedDuringDrain).clock = 0 ∧
      ∃ permit ∈ begun.permits.entries,
        ((begun.later (Duration.fromSecs 30)).execute .poll).state.cancelled
          permit.generation = false :=
  ⟨rfl, rfl, ⟨0, 0⟩, List.mem_singleton.mpr rfl, rfl⟩

end Sys

end Cameo.Gateway
