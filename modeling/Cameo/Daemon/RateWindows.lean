import Cameo.Daemon.KeyRing
import Cameo.Library.FixedWindow
import Cameo.Library.Run

/-!
# The limiter over whole runs

The limiter keeps the windows of all its clients in one bounded table.  Seen from one client, the
table is a counter in fixed windows: what other clients do can drop the client's window only after
it has ended, and can keep the client out only by filling the table.
-/

namespace Cameo.Daemon.RateLimiter

open Library FixedWindow

/-- What each client is allowed: so many requests in windows of so long. -/
structure Policy where
  limit : String → ℕ
  duration : String → Duration

structure Call where
  key : String
  now : Instant

variable (policy : Policy)

def answer (limiter : RateLimiter) (call : Call) : Bool × RateLimiter :=
  limiter.allowAt call.key (policy.limit call.key) (policy.duration call.key) call.now

def step (limiter : RateLimiter) (call : Call) : RateLimiter := (answer policy limiter call).2

def answersTo (key : String) : RateLimiter → List Call → List Bool
  | _, [] => []
  | limiter, call :: later =>
    if call.key = key then
      (answer policy limiter call).1 :: answersTo key (step policy limiter call) later
    else answersTo key (step policy limiter call) later

/-- The times at which requests of one client have been allowed. -/
def allowedTimes (key : String) : RateLimiter → List Call → List Instant
  | _, [] => []
  | limiter, call :: later =>
    if call.key = key ∧ (answer policy limiter call).1 = true then
      call.now :: allowedTimes key (step policy limiter call) later
    else allowedTimes key (step policy limiter call) later

def callsOf (key : String) (calls : List Call) : List Call := calls.filter fun call ↦ call.key = key

/-- Every request of a client finds the client in the table, or the table not full. -/
def HasRoom (key : String) (limiter : RateLimiter) (calls : List Call) : Prop :=
  Run.Meets (step policy) (fun limiter call ↦ call.key = key →
    limiter.windows.size < maxIdentities ∨ (limiter.windows.get? key).isSome) limiter calls

/-! ## One request -/

/-- The table has no place for a client, even after the windows that have ended are dropped. -/
def Refuses (limiter : RateLimiter) (key : String) (now : Instant) : Prop :=
  maxIdentities ≤ limiter.windows.size ∧ (limiter.windows.get? key).isNone = true ∧
    maxIdentities ≤ (limiter.windows.retain fun value ↦ value.resetAt > now).size

instance (limiter : RateLimiter) (key : String) (now : Instant) :
    Decidable (limiter.Refuses key now) := inferInstanceAs (Decidable (_ ∧ _ ∧ _))

def counterOf (limiter : RateLimiter) (key : String) : Option Counter :=
  (limiter.windows.get? key).map fun value ↦ ⟨value.resetAt, value.count⟩

theorem counterOf_retain (limiter : RateLimiter) (key : String) (now : Instant) :
    counterOf ⟨limiter.windows.retain fun value ↦ value.resetAt > now⟩ key =
      live now (limiter.counterOf key) := by
  unfold counterOf live
  rw [Ordered.Map.get?_retain]
  cases limiter.windows.get? key with
  | none => rfl
  | some value =>
    by_cases h : now < value.resetAt
    · simp [Option.filter, h]
    · simp [Option.filter, h]

theorem counterOf_insert (windows : Ordered.Map String Window) (key other : String)
    (value : Window) :
    counterOf ⟨windows.insert key value⟩ other =
      if key = other then some ⟨value.resetAt, value.count⟩ else counterOf ⟨windows⟩ other := by
  unfold counterOf
  rw [Ordered.Map.get?_insert]
  split
  · rfl
  · rfl

/-- The table in which a client is looked for: without the windows that have ended, if it is full
and the client is not in it. -/
def tableFor (limiter : RateLimiter) (key : String) (now : Instant) : Ordered.Map String Window :=
  if maxIdentities ≤ limiter.windows.size ∧ (limiter.windows.get? key).isNone = true then
    limiter.windows.retain fun value ↦ value.resetAt > now
  else limiter.windows

/-- The sweep drops only windows that have ended. -/
theorem live_tableFor (limiter : RateLimiter) (key other : String) (now : Instant) :
    live now (counterOf ⟨limiter.tableFor key now⟩ other) = live now (limiter.counterOf other) := by
  unfold tableFor
  split
  · rw [counterOf_retain, live_live le_rfl]
  · rfl

section

variable {limiter : RateLimiter} {key : String} {limit : ℕ} {duration : Duration} {now : Instant}

theorem size_tableFor_lt (h : ¬ limiter.Refuses key now) :
    (limiter.tableFor key now).size < maxIdentities ∨
      ((limiter.tableFor key now).get? key).isSome := by
  unfold tableFor
  split
  · rename_i hcrowded
    exact Or.inl (Nat.lt_of_not_le fun hfull ↦ h ⟨hcrowded.1, hcrowded.2, hfull⟩)
  · rename_i hroom
    rcases Nat.lt_or_ge limiter.windows.size maxIdentities with hlt | hge
    · exact Or.inl hlt
    · right
      rw [← Option.not_isNone, Bool.not_eq_true']
      exact Bool.eq_false_of_not_eq_true fun hnone ↦ hroom ⟨hge, hnone⟩

def entryFor (limiter : RateLimiter) (key : String) (duration : Duration) (now : Instant) :
    Window :=
  let found := ((limiter.tableFor key now).get? key).getD ⟨now + duration, 0⟩
  if found.resetAt ≤ now then ⟨now + duration, 0⟩ else found

theorem allowAt_eq (hlimit : limit ≠ 0) :
    limiter.allowAt key limit duration now =
      if limiter.Refuses key now then (false, ⟨limiter.tableFor key now⟩)
      else
        let entry := limiter.entryFor key duration now
        if limit ≤ entry.count then (false, ⟨(limiter.tableFor key now).insert key entry⟩)
        else (true, ⟨(limiter.tableFor key now).insert key
          { entry with count := entry.count + 1 }⟩) := by
  have hrefuses : ((maxIdentities ≤ limiter.windows.size ∧
      (limiter.windows.get? key).isNone = true) ∧
      maxIdentities ≤ (limiter.tableFor key now).size) ↔ limiter.Refuses key now := by
    unfold tableFor Refuses
    constructor
    · rintro ⟨hcrowded, hfull⟩
      rw [if_pos hcrowded] at hfull
      exact ⟨hcrowded.1, hcrowded.2, hfull⟩
    · intro h
      rw [if_pos ⟨h.1, h.2.1⟩]
      exact ⟨⟨h.1, h.2.1⟩, h.2.2⟩
  simp only [← hrefuses]
  unfold allowAt
  rw [if_neg hlimit]
  rfl

/-- It is the window of the client that has not ended, or a new one. -/
theorem entryFor_eq (limiter : RateLimiter) (key : String) (duration : Duration) (now : Instant) :
    (⟨(limiter.entryFor key duration now).resetAt, (limiter.entryFor key duration now).count⟩ :
      Counter) = (live now (limiter.counterOf key)).getD ⟨now + duration, 0⟩ := by
  rw [← live_tableFor limiter key key now]
  unfold entryFor counterOf live
  dsimp only
  cases (limiter.tableFor key now).get? key with
  | none =>
    by_cases hzero : now + duration ≤ now
    · simp [hzero]
    · simp [hzero]
  | some value =>
    by_cases hover : value.resetAt ≤ now
    · simp [Option.filter, hover, hover.not_gt]
    · simp [Option.filter, hover, Nat.lt_of_not_le hover]

/-- A client that is not kept out is answered as its own counter answers. -/
theorem allowAt_of_not_refuses (duration : Duration) (hlimit : limit ≠ 0)
    (h : ¬ limiter.Refuses key now) :
    ∃ value : Window,
      (request limit duration (limiter.counterOf key) now).2 = some ⟨value.resetAt, value.count⟩ ∧
      limiter.allowAt key limit duration now =
        ((request limit duration (limiter.counterOf key) now).1,
          ⟨(limiter.tableFor key now).insert key value⟩) := by
  rw [allowAt_eq hlimit, if_neg h]
  unfold request
  rw [← entryFor_eq]
  dsimp only
  split
  · exact ⟨_, rfl, rfl⟩
  · exact ⟨{ limiter.entryFor key duration now with
      count := (limiter.entryFor key duration now).count + 1 }, rfl, rfl⟩

end

/-! ## One client among others -/

variable {policy} {limiter : RateLimiter} {call : Call} {key : String}

/-- Requests of other clients leave the live window of a client alone. -/
theorem live_step_of_ne (hne : call.key ≠ key) :
    live call.now ((step policy limiter call).counterOf key) =
      live call.now (limiter.counterOf key) := by
  unfold step answer
  by_cases hlimit : policy.limit call.key = 0
  · rw [allowAt, if_pos hlimit]
  · by_cases hrefuses : limiter.Refuses call.key call.now
    · rw [allowAt_eq hlimit, if_pos hrefuses]
      exact live_tableFor limiter call.key key call.now
    · obtain ⟨value, -, hallow⟩ := allowAt_of_not_refuses (policy.duration call.key) hlimit
        hrefuses
      rw [hallow, counterOf_insert, if_neg hne]
      exact live_tableFor limiter call.key key call.now

/-- So does a request for which there is no room, and it is not allowed. -/
theorem answer_of_refuses (hlimit : policy.limit call.key ≠ 0)
    (h : limiter.Refuses call.key call.now) :
    (answer policy limiter call).1 = false ∧
      live call.now ((step policy limiter call).counterOf call.key) =
        live call.now (limiter.counterOf call.key) := by
  unfold step answer
  rw [allowAt_eq hlimit, if_pos h]
  exact ⟨rfl, live_tableFor limiter call.key call.key call.now⟩

/-- A request for which there is room is answered as by a counter with the client's live window. -/
theorem answer_of_not_refuses (hlimit : policy.limit call.key ≠ 0)
    (h : ¬ limiter.Refuses call.key call.now) {counter : Option Counter}
    (hlive : live call.now (limiter.counterOf call.key) = live call.now counter) :
    (answer policy limiter call).1 =
      (request (policy.limit call.key) (policy.duration call.key) counter call.now).1 ∧
    (step policy limiter call).counterOf call.key =
      (request (policy.limit call.key) (policy.duration call.key) counter call.now).2 := by
  obtain ⟨value, hvalue, hallow⟩ := allowAt_of_not_refuses (policy.duration call.key) hlimit h
  rw [request_congr hlive] at hvalue hallow
  unfold step answer
  rw [hallow, counterOf_insert, if_pos rfl, hvalue]
  exact ⟨rfl, rfl⟩

/-- Counters with one live window have one at every later request. -/
theorem live_later {later : List Call} (hfirst : ∀ next ∈ later, call.now ≤ next.now)
    {left right : Option Counter} (h : live call.now left = live call.now right) :
    ∀ next ∈ later, live next.now left = live next.now right :=
  fun next hnext ↦ live_congr (hfirst next hnext) h

/-- The times of a client's requests for which there was room. -/
def heard (policy : Policy) (key : String) : RateLimiter → List Call → List Instant
  | _, [] => []
  | limiter, call :: later =>
    if call.key = key ∧ ¬ limiter.Refuses call.key call.now then
      call.now :: heard policy key (step policy limiter call) later
    else heard policy key (step policy limiter call) later

/-- Over a whole run a client is allowed what its own counter admits. -/
theorem allowedTimes_eq_admitted (hlimit : policy.limit key ≠ 0) {calls : List Call}
    (hsorted : calls.Pairwise fun early late ↦ early.now ≤ late.now) {counter : Option Counter}
    (hlive : ∀ call ∈ calls, live call.now (limiter.counterOf key) = live call.now counter) :
    allowedTimes policy key limiter calls =
      admitted (policy.limit key) (policy.duration key) counter
        (heard policy key limiter calls) := by
  induction calls generalizing limiter counter with
  | nil => rfl
  | cons call later ih =>
    obtain ⟨hfirst, hsorted⟩ := List.pairwise_cons.mp hsorted
    have hnow := hlive call List.mem_cons_self
    unfold allowedTimes heard
    by_cases hkey : call.key = key
    · subst hkey
      by_cases hrefuses : limiter.Refuses call.key call.now
      · obtain ⟨hanswer, hkept⟩ := answer_of_refuses hlimit hrefuses
        rw [if_neg (by simp [hanswer]), if_neg (fun h ↦ h.2 hrefuses)]
        exact ih hsorted (live_later hfirst (hkept.trans hnow))
      · obtain ⟨hdecision, hcounter⟩ := answer_of_not_refuses hlimit hrefuses hnow
        have hrest : allowedTimes policy call.key (step policy limiter call) later =
            admitted (policy.limit call.key) (policy.duration call.key)
              ((step policy limiter call).counterOf call.key)
              (heard policy call.key (step policy limiter call) later) :=
          ih hsorted fun _ _ ↦ rfl
        by_cases hallowed : (answer policy limiter call).1 = true
        · rw [if_pos ⟨rfl, hallowed⟩, if_pos ⟨rfl, hrefuses⟩, admitted_cons, ← hdecision,
            ← hcounter, if_pos hallowed, hrest]
        · rw [if_neg (fun h ↦ hallowed h.2), if_pos ⟨rfl, hrefuses⟩, admitted_cons, ← hdecision,
            ← hcounter, if_neg hallowed, hrest]
    · rw [if_neg (fun h ↦ hkey h.1), if_neg (fun h ↦ hkey h.1)]
      exact ih hsorted (live_later hfirst ((live_step_of_ne hkey).trans hnow))

/-- The answers to a client that always finds room are those of its own counter. -/
theorem answersTo_eq_decisions (hlimit : policy.limit key ≠ 0) {calls : List Call}
    (hsorted : calls.Pairwise fun early late ↦ early.now ≤ late.now) {counter : Option Counter}
    (hlive : ∀ call ∈ calls, live call.now (limiter.counterOf key) = live call.now counter)
    (hroom : HasRoom policy key limiter calls) :
    answersTo policy key limiter calls =
      decisions (policy.limit key) (policy.duration key) counter
        ((callsOf key calls).map Call.now) := by
  induction calls generalizing limiter counter with
  | nil => rfl
  | cons call later ih =>
    obtain ⟨hfirst, hsorted⟩ := List.pairwise_cons.mp hsorted
    have hnow := hlive call List.mem_cons_self
    unfold answersTo callsOf
    by_cases hkey : call.key = key
    · subst hkey
      have hopen : ¬ limiter.Refuses call.key call.now := by
        rintro ⟨hfull, habsent, -⟩
        rcases hroom.1 rfl with hlt | hpresent
        · exact absurd hfull (Nat.not_le.mpr hlt)
        · rw [Option.isNone_iff_eq_none] at habsent
          rw [habsent] at hpresent
          cases hpresent
      obtain ⟨hdecision, hcounter⟩ := answer_of_not_refuses hlimit hopen hnow
      rw [if_pos rfl, List.filter_cons_of_pos (by simp), List.map_cons, decisions,
        ← hdecision, ← hcounter]
      exact congrArg _ (ih hsorted (fun _ _ ↦ rfl) hroom.2)
    · rw [if_neg hkey, List.filter_cons_of_neg (by simpa using hkey)]
      exact ih hsorted (live_later hfirst ((live_step_of_ne hkey).trans hnow)) hroom.2

/-- A client with no allowance is never allowed anything. -/
theorem answersTo_of_limit_eq_zero (hlimit : policy.limit key = 0) (calls : List Call) :
    answersTo policy key limiter calls = List.replicate (callsOf key calls).length false ∧
      allowedTimes policy key limiter calls = [] := by
  induction calls generalizing limiter with
  | nil => exact ⟨rfl, rfl⟩
  | cons call later ih =>
    obtain ⟨hanswers, hallowed⟩ := @ih (step policy limiter call)
    unfold answersTo allowedTimes callsOf
    by_cases hkey : call.key = key
    · subst hkey
      have hanswer : (answer policy limiter call).1 = false := by
        unfold answer allowAt
        rw [if_pos hlimit]
      rw [if_pos rfl, if_neg (by simp [hanswer]), List.filter_cons_of_pos (by simp),
        List.length_cons, List.replicate_succ, hanswer]
      exact ⟨congrArg _ hanswers, hallowed⟩
    · rw [if_neg hkey, if_neg (fun h ↦ hkey h.1), List.filter_cons_of_neg (by simpa using hkey)]
      exact ⟨hanswers, hallowed⟩

/-! ## The table -/

theorem size_tableFor_le (limiter : RateLimiter) (key : String) (now : Instant) :
    (limiter.tableFor key now).size ≤ limiter.windows.size := by
  unfold tableFor
  split
  · exact Ordered.Map.size_retain_le _ _
  · exact le_rfl

theorem size_step_le (policy : Policy) (limiter : RateLimiter) (call : Call)
    (h : limiter.windows.size ≤ maxIdentities) :
    (step policy limiter call).windows.size ≤ maxIdentities := by
  unfold step answer
  by_cases hlimit : policy.limit call.key = 0
  · rwa [allowAt, if_pos hlimit]
  · have htable := size_tableFor_le limiter call.key call.now
    by_cases hrefuses : limiter.Refuses call.key call.now
    · rw [allowAt_eq hlimit, if_pos hrefuses]
      exact htable.trans h
    · obtain ⟨value, -, hallow⟩ := allowAt_of_not_refuses (policy.duration call.key) hlimit hrefuses
      rw [hallow]
      rcases size_tableFor_lt hrefuses with hlt | hpresent
      · exact (Ordered.Map.size_insert_le _ _ _).trans hlt
      · exact (Ordered.Map.size_insert_of_mem hpresent value).le.trans (htable.trans h)

/-! ## Whole runs -/

/-- In every run of the limiter no client is allowed more than its limit in any of its windows, the
table stays within its capacity, and a client that always finds room gets the same answers whatever
other clients do. -/
theorem windows_capacity_isolation (policy : Policy) (key : String) {calls : List Call}
    (hsorted : calls.Pairwise fun early late ↦ early.now ≤ late.now) :
    (∀ window ∈ FixedWindow.windows (policy.duration key) (allowedTimes policy key .new calls),
      window.length ≤ policy.limit key) ∧
    (Run.run (step policy) .new calls).windows.size ≤ maxIdentities ∧
    ∀ calls' : List Call, calls'.Pairwise (fun early late ↦ early.now ≤ late.now) →
      callsOf key calls' = callsOf key calls →
      HasRoom policy key .new calls → HasRoom policy key .new calls' →
      answersTo policy key .new calls' = answersTo policy key .new calls := by
  refine ⟨?_, ?_, ?_⟩
  · by_cases hlimit : policy.limit key = 0
    · rw [(answersTo_of_limit_eq_zero hlimit calls).2]
      intro window hwindow
      rw [FixedWindow.windows] at hwindow
      cases hwindow
    · rw [allowedTimes_eq_admitted hlimit hsorted fun _ _ ↦ rfl]
      exact length_le_of_mem_windows _ _ _
  · exact Run.invariant_run_of_step
      (fun limiter : RateLimiter ↦ limiter.windows.size ≤ maxIdentities) (size_step_le policy) calls
      (Nat.zero_le _)
  · intro calls' hsorted' hsame hroom hroom'
    by_cases hlimit : policy.limit key = 0
    · rw [(answersTo_of_limit_eq_zero hlimit calls).1, (answersTo_of_limit_eq_zero hlimit calls').1,
        hsame]
    · rw [answersTo_eq_decisions hlimit hsorted (fun _ _ ↦ rfl) hroom,
        answersTo_eq_decisions hlimit hsorted' (fun _ _ ↦ rfl) hroom', hsame]

/-- Two requests in sixty nanoseconds: the third is refused and the fourth opens a new window, with
another client in between or without it. -/
theorem windows_capacity_isolation_two_clients :
    let policy : Policy := ⟨fun _ ↦ 2, fun _ ↦ 60⟩
    let calls : List Call := [⟨"a", 0⟩, ⟨"b", 5⟩, ⟨"a", 10⟩, ⟨"a", 20⟩, ⟨"a", 60⟩]
    allowedTimes policy "a" .new calls = [0, 10, 60] ∧
      (Run.run (step policy) .new calls).windows.size ≤ maxIdentities ∧
      answersTo policy "a" .new [⟨"a", 0⟩, ⟨"a", 10⟩, ⟨"a", 20⟩, ⟨"a", 60⟩] =
        answersTo policy "a" .new calls := by
  dsimp only
  have hall := @windows_capacity_isolation ⟨fun _ ↦ 2, fun _ ↦ 60⟩ "a"
    [⟨"a", 0⟩, ⟨"b", 5⟩, ⟨"a", 10⟩, ⟨"a", 20⟩, ⟨"a", 60⟩] (by decide)
  refine ⟨by decide +kernel, hall.2.1, hall.2.2 _ (by decide) rfl ?_ ?_⟩
  · unfold HasRoom
    decide +kernel
  · unfold HasRoom
    decide +kernel

end Cameo.Daemon.RateLimiter
