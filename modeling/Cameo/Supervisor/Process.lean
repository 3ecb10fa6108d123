import Cameo.Clock

/-!
# Owned processes and the restart policy

The supervisor owns its children through handles.  A `Child` is the handle of one process
instance: `pid` is what the operating system reports and may be reused, `serial` names the
instance itself and is read by no operation of the daemon.  What the operating system answers to
`try_wait` and `kill` is an argument of each operation that asks.
-/

namespace Cameo.Supervisor

/-- `std::process::Child`. -/
structure Child where
  pid : ℕ
  serial : ℕ
deriving DecidableEq

/-- The answers to `Child::try_wait`. -/
inductive WaitResult where
  | exited (code : Option ℤ)
  | running
  | failed (error : String)

/-! ## Confirmed termination -/

/-- The answers during `confirm_termination`: the first poll, the kill, the poll after a failed
kill, and the polls of the waiting loop, each with the time elapsed when the deadline is checked
after it. -/
structure TerminationIo where
  first : Except String Bool
  kill : Except String Unit
  afterKillFailure : Except String Bool
  polls : List (Except String Bool × Duration)

/-- The waiting loop of `confirm_termination`.  The loop polls until an answer or the deadline, so
a trace that ends earlier stands for a poll that is still outstanding at the deadline. -/
def awaitExit (timeout : Duration) : List (Except String Bool × Duration) → Except String Unit
  | [] => .error "owned process has not exited before the stop deadline"
  | (poll, elapsed) :: rest =>
    match poll with
    | .error e => .error ("cannot confirm process exit: " ++ e)
    | .ok true => .ok ()
    | .ok false =>
      if elapsed ≥ timeout then .error "owned process has not exited before the stop deadline"
      else awaitExit timeout rest

/-- `confirm_termination`. -/
def confirmTermination (io : TerminationIo) (timeout : Duration) : Except String Unit :=
  match io.first with
  | .error e => .error ("cannot observe owned process: " ++ e)
  | .ok true => .ok ()
  | .ok false =>
    match io.kill with
    | .error e =>
      match io.afterKillFailure with
      | .ok true => .ok ()
      | _ => .error ("cannot terminate owned process: " ++ e)
    | .ok () => awaitExit timeout io.polls

/-! ## Restart policy -/

/-- `MAX_RESTARTS`. -/
def maxRestarts : ℕ := 5

/-- `RESTART_BACKOFF`. -/
def restartBackoff : Duration := .fromSecs 2

/-- `STABLE_UPTIME_RESET`. -/
def stableUptimeReset : Duration := .fromSecs 300

/-- What to do with an endpoint whose child process is gone. -/
inductive Restart where
  | notApplicable
  | backoff
  | attempt
  | exhausted
deriving DecidableEq

/-- `restarts_after_exit`. -/
def restartsAfterExit (restarts : ℕ) (uptime : Duration) : ℕ :=
  if uptime ≥ stableUptimeReset then 0 else restarts

/-- `restart_decision`. -/
def restartDecision (running parked : Bool) (sinceExit : Option Duration) (restarts : ℕ) :
    Restart :=
  if running || parked then .notApplicable
  else
    match sinceExit with
    | none => .notApplicable
    | some elapsed =>
      if elapsed < restartBackoff then .backoff
      else if restarts ≥ maxRestarts then .exhausted
      else .attempt

/-- A restart is attempted only for a process that is gone, is not parked, has exited at a known
time and has restarts left. -/
theorem restartDecision_eq_attempt {running parked : Bool} {sinceExit : Option Duration}
    {restarts : ℕ} (h : restartDecision running parked sinceExit restarts = .attempt) :
    running = false ∧ parked = false ∧ sinceExit.isSome ∧ restarts < maxRestarts := by
  unfold restartDecision at h
  split at h
  · cases h
  · rename_i hgone
    cases sinceExit with
    | none => cases h
    | some elapsed =>
      dsimp only at h
      split at h
      · cases h
      · split at h
        · cases h
        · rename_i hbudget
          simp only [Bool.or_eq_true, not_or, Bool.not_eq_true] at hgone
          exact ⟨hgone.1, hgone.2, rfl, not_le.mp hbudget⟩

end Cameo.Supervisor
