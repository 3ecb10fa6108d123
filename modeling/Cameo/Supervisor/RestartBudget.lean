import Cameo.Supervisor.Lifecycle
import Cameo.Supervisor.System

/-!
# The restart budget

One endpoint from its start on: its processes exit, reads refresh it, probes and stops come in
between.  The supervisor restarts it at most five times unless a process has served long enough.
It takes the uptime when it reaps a process, not when the process exits: a process that crashes
shortly before the five minutes are over and is reaped after them gives the budget back.
-/

namespace Cameo.Supervisor

open Library

/-- An endpoint over time, with what only the operating system knows: whether its process has
exited.  The clock is the latest reading so far. -/
structure Watch where
  endpoint : Endpoint
  exited : Bool
  /-- The exits of its processes. -/
  exits : List SystemTime
  /-- The automatic restarts. -/
  respawns : List Spawn
  clock : SystemTime

inductive WatchEvent where
  /-- Its process exits. -/
  | exits (now : SystemTime)
  /-- A read refreshes it. -/
  | refresh (io : RefreshIo)
  | scheduleProbe (dueAt now : SystemTime)
  | applyProbe (probe : HealthProbe) (result : Except String Unit)
  /-- An eviction marks it. -/
  | park (error : String)
  | stop (io : TerminationIo)
  /-- A shutdown disables restarts. -/
  | disable

namespace Watch

def ofStart (req : StartRequest) (io : StartIo) : Watch :=
  ⟨newEndpoint req io, false, [], [], io.startedAt⟩

def step (watch : Watch) : WatchEvent → Watch
  | .exits now => { watch with exited := true, exits := watch.exits ++ [now], clock := now }
  | .refresh io =>
    let refreshed := watch.endpoint.refresh io
    { watch with
      endpoint := refreshed.1
      -- A restart puts a new process in the place of the one that has exited.
      exited := watch.exited && refreshed.2.isEmpty
      respawns := watch.respawns ++ refreshed.2
      clock := io.startedAt }
  | .scheduleProbe dueAt now =>
    { watch with endpoint := (watch.endpoint.scheduleHealthProbe dueAt now).1, clock := now }
  | .applyProbe probe result =>
    { watch with endpoint := watch.endpoint.applyHealthProbe probe result }
  | .park error =>
    { watch with endpoint := { watch.endpoint with error := some error, ready := false } }
  | .stop io => { watch with endpoint := (watch.endpoint.stopOwned io).2 }
  | .disable => { watch with endpoint := { watch.endpoint with restartEnabled := false } }

end Watch

/-- An answer of `try_wait` that is true to whether the process has exited. -/
def WaitResult.agrees (exited : Bool) : WaitResult → Bool
  | .exited _ => exited
  | .running => !exited
  | .failed _ => true

/-- `try_wait` reports an exit. -/
def WaitResult.isExited : WaitResult → Bool
  | .exited _ => true
  | _ => false

namespace Watch

/-- Only a process that runs exits, `try_wait` tells the truth, and the clock is not set back. -/
def Possible (watch : Watch) : WatchEvent → Prop
  | .exits now => watch.endpoint.child.isSome = true ∧ watch.exited = false ∧ watch.clock ≤ now
  | .refresh io =>
    (watch.endpoint.child.isSome = true → io.tryWait.agrees watch.exited = true) ∧
      watch.clock ≤ io.exitAt ∧ io.exitAt ≤ io.uptimeAt ∧ io.uptimeAt ≤ io.restartAt ∧
      io.restartAt ≤ io.startedAt
  | .scheduleProbe dueAt now => watch.clock ≤ dueAt ∧ dueAt ≤ now
  | _ => True

instance (watch : Watch) : ∀ event, Decidable (watch.Possible event)
  | .exits _ => inferInstanceAs (Decidable (_ ∧ _))
  | .refresh _ => inferInstanceAs (Decidable (_ ∧ _))
  | .scheduleProbe _ _ => inferInstanceAs (Decidable (_ ∧ _))
  | .applyProbe _ _ | .park _ | .stop _ | .disable => inferInstanceAs (Decidable True)

/-- The time from the start of the process to a reading of the clock. -/
def livedAt (watch : Watch) (now : SystemTime) : Duration :=
  (SystemTime.elapsed watch.endpoint.startedAt now).getD 0

/-- A process that exits has lived less than what resets the budget. -/
def ShortLived (watch : Watch) : WatchEvent → Prop
  | .exits now => watch.livedAt now < stableUptimeReset
  | _ => True

instance (watch : Watch) : ∀ event, Decidable (watch.ShortLived event)
  | .exits _ => inferInstanceAs (Decidable (_ < _))
  | .refresh _ | .scheduleProbe _ _ | .applyProbe _ _ | .park _ | .stop _ | .disable =>
    inferInstanceAs (Decidable True)

/-- A process that is reaped is reaped before what resets the budget has passed since its start. -/
def ReapedInTime (watch : Watch) : WatchEvent → Prop
  | .refresh io => watch.endpoint.child.isSome = true → io.tryWait.isExited = true →
      watch.livedAt io.uptimeAt < stableUptimeReset
  | _ => True

instance (watch : Watch) : ∀ event, Decidable (watch.ReapedInTime event)
  | .refresh _ => inferInstanceAs (Decidable (_ → _ → _))
  | .exits _ | .scheduleProbe _ _ | .applyProbe _ _ | .park _ | .stop _ | .disable =>
    inferInstanceAs (Decidable True)

/-- At most five automatic restarts, none of a parked endpoint, and none within the backoff after
an exit. -/
structure WithinBudget (watch : Watch) : Prop where
  respawns : watch.respawns.length ≤ maxRestarts
  counter : watch.endpoint.restarts ≤ maxRestarts
  parked : watch.endpoint.error.isSome = true → ∀ later,
    (Run.run step watch later).respawns = watch.respawns
  spaced : ∀ spawn ∈ watch.respawns, ∀ exit ∈ watch.exits,
    spawn.startedAt ≤ exit ∨ exit + restartBackoff ≤ spawn.startedAt

/-! ## What a refresh does -/

/-- A reading that is a duration or more after an earlier one. -/
theorem add_le_of_elapsed {earlier now : ℤ} {bound : ℕ} (hle : earlier ≤ now)
    (h : ¬(now - earlier).toNat < bound) : earlier + bound ≤ now := by
  omega

/-- A refresh that restarts finds the backoff over since the recorded exit. -/
theorem backoff_of_maybeRestart {io : RefreshIo} {endpoint : Endpoint}
    (h : (endpoint.maybeRestart io).2 ≠ []) :
    ∃ exit, endpoint.lastExitAt = some exit ∧ exit + restartBackoff ≤ io.restartAt := by
  unfold Endpoint.maybeRestart at h
  split at h
  · exact absurd rfl h
  dsimp only at h
  split at h
  · rename_i hattempt
    cases hexit : endpoint.lastExitAt with
    | none =>
      obtain ⟨-, -, hsince, -⟩ := restartDecision_eq_attempt hattempt
      rw [hexit] at hsince
      cases hsince
    | some exit =>
      refine ⟨exit, rfl, ?_⟩
      rw [hexit, Option.bind_some] at hattempt
      unfold SystemTime.elapsed at hattempt
      split at hattempt
      · rename_i hle
        unfold restartDecision at hattempt
        split at hattempt
        · cases hattempt
        dsimp only at hattempt
        split at hattempt
        · cases hattempt
        · rename_i hover
          exact add_le_of_elapsed hle hover
      · obtain ⟨-, -, hsince, -⟩ := restartDecision_eq_attempt hattempt
        cases hsince
  · exact absurd rfl h
  · exact absurd rfl h
  · exact absurd rfl h

/-- A refresh restarts nothing, or an endpoint that awaits it once its exited process is reaped. -/
theorem refresh_cases (io : RefreshIo) (endpoint : Endpoint) :
    (∃ error, endpoint.refresh io = ({ endpoint.reap io with error := error }, [])) ∨
      ((endpoint.reap io).awaitsRestart = true ∧
        (∃ exit, (endpoint.reap io).lastExitAt = some exit ∧
          exit + restartBackoff ≤ io.restartAt) ∧
        ∃ child, endpoint.refresh io = ((endpoint.reap io).restarted child io.startedAt,
          [⟨.restart, (endpoint.reap io).id, child, io.startedAt⟩])) := by
  rcases Endpoint.maybeRestart_cases io (endpoint.reap io) with
    ⟨error, heq, -⟩ | ⟨hawaits, child, heq⟩
  · exact .inl ⟨error, heq⟩
  · have hrestarts : ((endpoint.reap io).maybeRestart io).2 ≠ [] := by
      rw [heq]
      exact List.cons_ne_nil _ _
    exact .inr ⟨hawaits, backoff_of_maybeRestart hrestarts, child, heq⟩

/-- A parked endpoint stays parked, and a refresh does not restart it. -/
theorem refresh_of_parked {endpoint : Endpoint} (h : endpoint.error.isSome = true)
    (io : RefreshIo) :
    (endpoint.refresh io).1.error.isSome = true ∧ (endpoint.refresh io).2 = [] := by
  refine ⟨(Endpoint.kept_refresh io endpoint).error h, ?_⟩
  have hparked : (endpoint.reap io).error.isSome = true :=
    (Endpoint.evolved_reap (P := fun _ ↦ False) io endpoint).error h
  rcases refresh_cases io endpoint with ⟨error, heq⟩ | ⟨hawaits, -⟩
  · rw [heq]
  · rw [((Endpoint.awaitsRestart_iff _).mp hawaits).2.1] at hparked
    cases hparked

/-- Nothing restarts a parked endpoint. -/
theorem respawns_of_parked {watch : Watch} (h : watch.endpoint.error.isSome = true)
    (later : List WatchEvent) : (Run.run step watch later).respawns = watch.respawns := by
  refine (Run.invariant_run_of_step (fun now : Watch ↦ now.endpoint.error.isSome = true ∧
    now.respawns = watch.respawns) ?_ later ⟨h, rfl⟩).2
  rintro now event ⟨hparked, hsame⟩
  cases event with
  | exits at_ => exact ⟨hparked, hsame⟩
  | refresh io =>
    obtain ⟨hstays, hnone⟩ := refresh_of_parked hparked io
    refine ⟨hstays, ?_⟩
    rw [step, hnone, List.append_nil]
    exact hsame
  | scheduleProbe dueAt at_ =>
    exact ⟨(Endpoint.kept_scheduleHealthProbe dueAt at_ now.endpoint).error hparked, hsame⟩
  | applyProbe probe result =>
    exact ⟨(Endpoint.kept_applyHealthProbe probe result now.endpoint).error hparked, hsame⟩
  | park error => exact ⟨rfl, hsame⟩
  | stop io => exact ⟨(Endpoint.kept_stopOwned io now.endpoint).error hparked, hsame⟩
  | disable => exact ⟨hparked, hsame⟩

/-! ## The invariants -/

/-- The endpoint keeps its count of restarts, and gets neither a process nor an exit. -/
structure Quiet (before after : Endpoint) : Prop where
  restarts : after.restarts = before.restarts
  child : after.child = before.child ∨ after.child = none
  lastExitAt : after.lastExitAt = before.lastExitAt ∨ after.lastExitAt = none

theorem Quiet.refl (endpoint : Endpoint) : Quiet endpoint endpoint := ⟨rfl, .inl rfl, .inl rfl⟩

theorem quiet_scheduleHealthProbe (dueAt now : SystemTime) (endpoint : Endpoint) :
    Quiet endpoint (endpoint.scheduleHealthProbe dueAt now).1 := by
  unfold Endpoint.scheduleHealthProbe
  split
  · exact .refl endpoint
  · dsimp only
    split
    · exact ⟨rfl, .inl rfl, .inl rfl⟩
    · exact .refl endpoint

theorem quiet_applyHealthProbe (probe : HealthProbe) (result : Except String Unit)
    (endpoint : Endpoint) : Quiet endpoint (endpoint.applyHealthProbe probe result) := by
  unfold Endpoint.applyHealthProbe
  split
  · split <;> exact ⟨rfl, .inl rfl, .inl rfl⟩
  · exact .refl endpoint

theorem quiet_stopOwned (io : TerminationIo) (endpoint : Endpoint) :
    Quiet endpoint (endpoint.stopOwned io).2 := by
  unfold Endpoint.stopOwned
  dsimp only
  split
  · exact ⟨rfl, .inr rfl, .inr rfl⟩
  · split
    · exact ⟨rfl, .inl rfl, .inl rfl⟩
    · exact ⟨rfl, .inr rfl, .inr rfl⟩

/-- The count of restarts is theirs, and within the budget. -/
def Counted (watch : Watch) : Prop :=
  watch.respawns.length = watch.endpoint.restarts ∧ watch.endpoint.restarts ≤ maxRestarts

theorem Counted.of_quiet {watch after : Watch} (h : watch.Counted)
    (hquiet : Quiet watch.endpoint after.endpoint) (hsame : after.respawns = watch.respawns) :
    after.Counted := by
  rw [Counted, hquiet.restarts, hsame]
  exact h

/-- A process that is reaped in time leaves the count as it is. -/
theorem restarts_reap {watch : Watch} {io : RefreshIo} (h : watch.ReapedInTime (.refresh io)) :
    (watch.endpoint.reap io).restarts = watch.endpoint.restarts := by
  unfold Endpoint.reap
  cases hchild : watch.endpoint.child with
  | none => rfl
  | some child =>
    cases hwait : io.tryWait with
    | exited code =>
      have hshort := h (by rw [hchild]; rfl) (by rw [hwait]; rfl)
      exact if_neg (not_le.mpr hshort)
    | running => rfl
    | failed e => rfl

theorem counted_step {watch : Watch} {event : WatchEvent} (h : watch.Counted)
    (htime : watch.ReapedInTime event) : (watch.step event).Counted := by
  cases event with
  | exits now => exact h
  | refresh io =>
    have hsame := restarts_reap htime
    rcases refresh_cases io watch.endpoint with ⟨error, heq⟩ | ⟨hawaits, -, child, heq⟩
    · rw [Counted, step]
      dsimp only
      rw [heq, List.append_nil]
      dsimp only
      rw [hsame]
      exact h
    · have hroom := ((Endpoint.awaitsRestart_iff _).mp hawaits).2.2.2.2
      rw [Counted, step]
      dsimp only
      rw [heq, List.length_append, h.1]
      dsimp only [Endpoint.restarted]
      rw [hsame] at hroom ⊢
      exact ⟨rfl, hroom⟩
  | scheduleProbe dueAt now => exact h.of_quiet (quiet_scheduleHealthProbe _ _ _) rfl
  | applyProbe probe result => exact h.of_quiet (quiet_applyHealthProbe _ _ _) rfl
  | park error => exact h
  | stop io => exact h.of_quiet (quiet_stopOwned _ _) rfl
  | disable => exact h

/-- Everything recorded lies in the past, an exit is recorded after it has happened, and restarts
keep the backoff. -/
structure Clocked (watch : Watch) : Prop where
  exits : ∀ exit ∈ watch.exits, exit ≤ watch.clock
  respawns : ∀ spawn ∈ watch.respawns, spawn.startedAt ≤ watch.clock
  recorded : ∀ last, watch.endpoint.lastExitAt = some last → watch.endpoint.child = none ∧
    ∀ exit ∈ watch.exits, exit ≤ last
  spaced : ∀ spawn ∈ watch.respawns, ∀ exit ∈ watch.exits,
    spawn.startedAt ≤ exit ∨ exit + restartBackoff ≤ spawn.startedAt

/-- Without an exit and a restart, it is kept if a recorded exit is the last one. -/
theorem Clocked.of_recorded {watch after : Watch} (h : watch.Clocked)
    (hexits : after.exits = watch.exits) (hrespawns : after.respawns = watch.respawns)
    (hclock : watch.clock ≤ after.clock)
    (hrecorded : ∀ last, after.endpoint.lastExitAt = some last →
      after.endpoint.child = none ∧ ∀ exit ∈ watch.exits, exit ≤ last) : after.Clocked where
  exits := by
    rw [hexits]
    exact fun exit hexit ↦ (h.exits exit hexit).trans hclock
  respawns := by
    rw [hrespawns]
    exact fun spawn hspawn ↦ (h.respawns spawn hspawn).trans hclock
  recorded := by
    rw [hexits]
    exact hrecorded
  spaced := by
    rw [hexits, hrespawns]
    exact h.spaced

theorem Clocked.of_quiet {watch after : Watch} (h : watch.Clocked)
    (hquiet : Quiet watch.endpoint after.endpoint) (hexits : after.exits = watch.exits)
    (hrespawns : after.respawns = watch.respawns) (hclock : watch.clock ≤ after.clock) :
    after.Clocked := by
  refine h.of_recorded hexits hrespawns hclock ?_
  intro last hlast
  rcases hquiet.lastExitAt with hsame | hnone
  · obtain ⟨hchild, hlate⟩ := h.recorded last (hsame.symm.trans hlast)
    exact ⟨hquiet.child.elim (fun hkept ↦ hkept.trans hchild) id, hlate⟩
  · rw [hnone] at hlast
    cases hlast

/-- A process exits: no exit is recorded, and every restart lies before this one. -/
theorem Clocked.exited {watch : Watch} (h : watch.Clocked) {now : SystemTime}
    (hchild : watch.endpoint.child.isSome = true) (hclock : watch.clock ≤ now) :
    (watch.step (.exits now)).Clocked where
  exits := by
    intro exit hexit
    rcases List.mem_append.mp hexit with hexit | hexit
    · exact (h.exits exit hexit).trans hclock
    · exact (List.mem_singleton.mp hexit).le
  respawns := fun spawn hspawn ↦ (h.respawns spawn hspawn).trans hclock
  recorded := by
    intro last hlast
    rw [(h.recorded last hlast).1] at hchild
    cases hchild
  spaced := by
    intro spawn hspawn exit hexit
    rcases List.mem_append.mp hexit with hexit | hexit
    · exact h.spaced spawn hspawn exit hexit
    · rw [List.mem_singleton.mp hexit]
      exact .inl ((h.respawns spawn hspawn).trans hclock)

/-- A restart that comes after the backoff of every exit. -/
theorem Clocked.respawned {watch after : Watch} (h : watch.Clocked) {spawn : Spawn}
    (hexits : after.exits = watch.exits) (hrespawns : after.respawns = watch.respawns ++ [spawn])
    (hclock : watch.clock ≤ after.clock) (hnow : spawn.startedAt ≤ after.clock)
    (hfresh : after.endpoint.lastExitAt = none)
    (hlate : ∀ exit ∈ watch.exits, exit + restartBackoff ≤ spawn.startedAt) : after.Clocked where
  exits := by
    rw [hexits]
    exact fun exit hexit ↦ (h.exits exit hexit).trans hclock
  respawns := by
    rw [hrespawns]
    intro other hother
    rcases List.mem_append.mp hother with hother | hother
    · exact (h.respawns other hother).trans hclock
    · exact List.mem_singleton.mp hother ▸ hnow
  recorded := by
    intro last hlast
    rw [hfresh] at hlast
    cases hlast
  spaced := by
    rw [hexits, hrespawns]
    intro other hother exit hexit
    rcases List.mem_append.mp hother with hother | hother
    · exact h.spaced other hother exit hexit
    · rw [List.mem_singleton.mp hother]
      exact .inr (hlate exit hexit)

/-- After a reaping, a recorded exit comes after all exits so far. -/
theorem recorded_reap {watch : Watch} (h : watch.Clocked) {io : RefreshIo}
    (hclock : watch.clock ≤ io.exitAt) {last : SystemTime}
    (hlast : (watch.endpoint.reap io).lastExitAt = some last) :
    (watch.endpoint.reap io).child = none ∧ ∀ exit ∈ watch.exits, exit ≤ last := by
  rcases Endpoint.reap_cases io watch.endpoint with heq | ⟨-, code, restarts, heq⟩ | ⟨-, e, heq⟩
  · rw [heq] at hlast ⊢
    exact h.recorded last hlast
  · rw [heq] at hlast ⊢
    cases hlast
    exact ⟨rfl, fun exit hexit ↦ (h.exits exit hexit).trans hclock⟩
  · rw [heq] at hlast ⊢
    exact h.recorded last hlast

theorem clocked_step {watch : Watch} {event : WatchEvent} (h : watch.Clocked)
    (hpossible : watch.Possible event) : (watch.step event).Clocked := by
  cases event with
  | exits now =>
    obtain ⟨hchild, -, hclock⟩ := hpossible
    exact h.exited hchild hclock
  | refresh io =>
    obtain ⟨-, hexit, huptime, hrestart, hstarted⟩ := hpossible
    have hclock : watch.clock ≤ io.startedAt :=
      hexit.trans (huptime.trans (hrestart.trans hstarted))
    rcases refresh_cases io watch.endpoint with
      ⟨error, heq⟩ | ⟨-, ⟨last, hlast, hbackoff⟩, child, heq⟩
    · have hquiet : (watch.step (.refresh io)).endpoint =
          { watch.endpoint.reap io with error := error } := congrArg Prod.fst heq
      have hsame : (watch.step (.refresh io)).respawns = watch.respawns := by
        rw [step, heq]
        exact List.append_nil _
      refine h.of_recorded rfl hsame hclock ?_
      rw [hquiet]
      exact fun last hlast ↦ recorded_reap h hexit hlast
    · have hfresh : (watch.step (.refresh io)).endpoint =
          (watch.endpoint.reap io).restarted child io.startedAt := congrArg Prod.fst heq
      have hmore : (watch.step (.refresh io)).respawns = watch.respawns ++
          [⟨.restart, (watch.endpoint.reap io).id, child, io.startedAt⟩] := by
        rw [step, heq]
      refine h.respawned rfl hmore hclock le_rfl (hfresh ▸ rfl) ?_
      intro exit hpast
      have hlate := (recorded_reap h hexit hlast).2 exit hpast
      calc exit + restartBackoff ≤ last + restartBackoff := Int.add_le_add_right hlate _
        _ ≤ io.restartAt := hbackoff
        _ ≤ io.startedAt := hstarted
  | scheduleProbe dueAt now =>
    exact h.of_quiet (quiet_scheduleHealthProbe _ _ _) rfl rfl (hpossible.1.trans hpossible.2)
  | applyProbe probe result => exact h.of_quiet (quiet_applyHealthProbe _ _ _) rfl rfl le_rfl
  | park error => exact h.of_quiet ⟨rfl, .inl rfl, .inl rfl⟩ rfl rfl le_rfl
  | stop io => exact h.of_quiet (quiet_stopOwned _ _) rfl rfl le_rfl
  | disable => exact h.of_quiet ⟨rfl, .inl rfl, .inl rfl⟩ rfl rfl le_rfl

/-! ## The budget -/

theorem counted_ofStart (req : StartRequest) (io : StartIo) : (ofStart req io).Counted :=
  ⟨rfl, Nat.zero_le _⟩

theorem clocked_ofStart (req : StartRequest) (io : StartIo) : (ofStart req io).Clocked :=
  ⟨nofun, nofun, nofun, nofun⟩

/-- The budget holds in every state that is reached while each process is reaped within five
minutes of its start. -/
theorem withinBudget_of_reapedInTime (req : StartRequest) (io : StartIo) (events : List WatchEvent)
    (hpossible : Run.Meets step Possible (ofStart req io) events)
    (htime : Run.Meets step ReapedInTime (ofStart req io) events) :
    ∀ early, early <+: events → WithinBudget (Run.run step (ofStart req io) early) := by
  intro early hearly
  have hcounted : (Run.run step (ofStart req io) early).Counted :=
    Run.invariant_reached Counted (fun _ _ ↦ counted_step) (counted_ofStart req io) htime hearly
  have hclocked : (Run.run step (ofStart req io) early).Clocked :=
    Run.invariant_reached Clocked (fun _ _ ↦ clocked_step) (clocked_ofStart req io) hpossible
      hearly
  exact {
    respawns := hcounted.1.trans_le hcounted.2
    counter := hcounted.2
    parked := respawns_of_parked
    spaced := hclocked.spaced }

def atEpoch : Watch := ofStart (.simple "alpha" 8001 0 0 false) (.plain 0 ⟨100, 0⟩)

/-- Processes that exit after a time of service, are reaped at another time since their start, and
are replaced two seconds later. -/
def crashes (service reaped : ℕ) (count : ℕ) : List WatchEvent :=
  (List.range count).flatMap fun (k : ℕ) ↦
    let start : SystemTime := k * Duration.fromSecs (reaped + 2)
    [.exits (start + Duration.fromSecs service),
      .refresh (.exited (start + Duration.fromSecs reaped)),
      .refresh (.respawn (start + Duration.fromSecs (reaped + 2)) ⟨101 + k, 1 + k⟩)]

/-- A crash after ten seconds, reaped a second later, six times over. -/
theorem withinBudget_quickCrashes : WithinBudget (Run.run step atEpoch (crashes 10 11 6)) :=
  withinBudget_of_reapedInTime (.simple "alpha" 8001 0 0 false) (.plain 0 ⟨100, 0⟩)
    (crashes 10 11 6) (by decide) (by decide) _ (List.prefix_refl _)

/-- Processes that crash after 299 seconds and are reaped two seconds later are replaced a sixth
time. -/
theorem not_withinBudget_reapedLate :
    Run.Meets step Possible atEpoch (crashes 299 301 6) ∧
      Run.Meets step ShortLived atEpoch (crashes 299 301 6) ∧
      ¬ WithinBudget (Run.run step atEpoch (crashes 299 301 6)) :=
  ⟨by decide, by decide, fun h ↦ absurd h.respawns (by decide)⟩

end Watch

end Cameo.Supervisor
