import Cameo.Daemon.System
import Cameo.Supervisor.LeaseAgreement

/-!
# Deadlines of recovered leases

An opening turns every persisted lease into a recovered one, with a deadline no later than the
persisted one and at most the lease time away, and commits that deadline.  Heartbeats skip recovered
leases and expiry only drops them, so until the session claims a ready endpoint again its deadline
can only come down, over any number of restarts and however the clocks jump.
-/

namespace Cameo.Daemon

open Json Library Store Supervisor

theorem boundedDeadline_le_ttl (now deadline : ℕ) :
    boundedDeadline now deadline ≤ saturatingAdd now leaseTtlSecs := by
  unfold boundedDeadline
  split
  · exact le_rfl
  · exact min_le_right _ _

theorem boundedDeadline_le {deadline : ℕ} (h : 0 < deadline) (now : ℕ) :
    boundedDeadline now deadline ≤ deadline := by
  unfold boundedDeadline
  rw [if_neg h.ne']
  exact min_le_left _ _

theorem boundedDeadline_pos (now deadline : ℕ) : 0 < boundedDeadline now deadline := by
  have hadded : 0 < saturatingAdd now leaseTtlSecs :=
    lt_min (Nat.add_pos_right now (by decide)) (by decide)
  unfold boundedDeadline
  split
  · exact hadded
  · rename_i hne
    exact lt_min (Nat.pos_of_ne_zero hne) hadded

/-- A persisted lease has a deadline, within a bound. -/
def Within (deadline : ℕ) (value : Value) : Prop :=
  ∀ lease, Lease.fromValue value = some lease → 0 < lease.expiresAt ∧ lease.expiresAt ≤ deadline

/-- The durable property: the session's lease, if there is one, has a deadline within a bound. -/
def deadlineBound (sessionId : String) (deadline : ℕ) : DurableProperty where
  state state := ∀ value, state.leases.get? sessionId = some value → Within deadline value
  readable newest :=
    match newest with
    | some (_, .snapshot snapshot) =>
      ∀ value, snapshot.state.leases.get? sessionId = some value → Within deadline value
    | _ => True
  blank := fun _ value hvalue ↦ by simp [IntentState.default] at hvalue
  read := fun h ↦ h
  write := fun _ _ h ↦ h
  zero := fun _ ↦ trivial

/-- What holds while up: the session's lease, if there is one, is a recovered one with its deadline
within the bound, in memory and in the store. -/
structure Bounded (sessionId : String) (deadline : ℕ) (sys : Sys) : Prop where
  keeps : sys.sup.Keeps (deadlineBound sessionId deadline)
  lease : ∀ lease, sys.sup.leases.get? sessionId = some lease →
    lease.recovered = true ∧ 0 < lease.expiresAt ∧ lease.expiresAt ≤ deadline

/-- The only step that ends a recovered lease's state: the session claims an endpoint that is
ready. -/
inductive ClaimsReady (sessionId : String) : Phase → Step → Prop where
  | claim {sys : Sys} {queue : List (String × Value)} {model : String} {io : LeaseIo}
      {endpoint : Endpoint}
      (hfound : (visit (fun _ ↦ true) (fun endpoint ↦ endpoint.model = model && endpoint.isReady)
        io.refresh sys.sup.endpoints).found = some endpoint)
      (hready : endpoint.isReady = true) :
    ClaimsReady sessionId (.up sys queue) (.call (.lease sessionId model io))

/-! ## Openings -/

/-- What an opening recovers of a session's lease. -/
theorem get?_recovered {now : ℕ} {instants : String → Instant} {state : IntentState}
    {leases : LeaseMap} (h : recoverLeases now instants state.leases.entries .empty = .ok leases)
    {sessionId : String} {lease : Lease} (hlease : leases.get? sessionId = some lease) :
    ∃ value persisted, state.leases.get? sessionId = some value ∧
      Lease.fromValue value = some persisted ∧ lease.recovered = true ∧
      lease.expiresAt = boundedDeadline now persisted.expiresAt := by
  rcases get?_recoverLeases state.leases.nodup_keys h sessionId with
    ⟨value, recovered, hmem, hrecover, hget⟩ | ⟨-, hget⟩
  · obtain ⟨persisted, hvalue, -, heq⟩ := recoverLease_ok hrecover
    rw [hget] at hlease
    cases hlease
    exact ⟨value, persisted, (state.leases.mem_entries_iff sessionId value).mp hmem, hvalue,
      by rw [heq], by rw [heq]⟩
  · rw [hget] at hlease
    cases hlease

section Steps

variable {codec : Codec} {sessionId : String} {deadline : ℕ} {sys : Sys}

theorem within_toValue {lease : Lease} (h : 0 < lease.expiresAt ∧ lease.expiresAt ≤ deadline) :
    Within deadline lease.toValue := by
  intro read hread
  rw [Lease.fromValue_toValue] at hread
  cases hread
  exact h

/-- An opening only lowers a deadline. -/
theorem bounded_recovered {now : ℕ} {instants : String → Instant} {state : IntentState}
    {leases : LeaseMap} (hstate : (deadlineBound sessionId deadline).state state)
    (h : recoverLeases now instants state.leases.entries .empty = .ok leases) {lease : Lease}
    (hlease : leases.get? sessionId = some lease) :
    lease.recovered = true ∧ 0 < lease.expiresAt ∧ lease.expiresAt ≤ deadline := by
  obtain ⟨value, persisted, hget, hvalue, hrecovered, hdeadline⟩ := get?_recovered h hlease
  obtain ⟨hpos, hle⟩ := hstate value hget persisted hvalue
  rw [hdeadline]
  exact ⟨hrecovered, boundedDeadline_pos _ _, (boundedDeadline_le hpos now).trans hle⟩

theorem bounded_open {io : SupervisorOpenIo} {disk : Directory}
    (h : (deadlineBound sessionId deadline).readable disk.newest?) :
    (∀ directory ∈ (Supervisor.open codec io disk).passed,
        (deadlineBound sessionId deadline).readable directory.newest?) ∧
      ∀ sup, (Supervisor.open codec io disk).result = .ok sup →
        Bounded sessionId deadline (.fresh sup) := by
  have hopen := @survives_open codec _ io disk h (by
    intro state leases hstate hleases value hvalue
    rw [get?_migratedLeases] at hvalue
    cases hlease : leases.get? sessionId with
    | none =>
      rw [hlease] at hvalue
      exact hstate value hvalue
    | some lease =>
      rw [hlease] at hvalue
      cases hvalue
      exact within_toValue (bounded_recovered hstate hleases hlease).2)
  refine ⟨hopen.1, fun sup hsup ↦ ⟨hopen.2 sup hsup, fun lease hlease ↦ ?_⟩⟩
  obtain ⟨-, -, store, hstore, hleases, -⟩ := open_ok codec hsup
  have hkeeps := EndpointStore.keeps_open hstore h
  exact bounded_recovered hkeeps.state hleases hlease

/-! ## Steps -/

/-- A call that does not claim a ready endpoint for the session leaves its recovered lease alone or
drops it. -/
theorem get?_onLeases {queue : List (String × Value)} {call : Call} {update : Update}
    (h : Bounded sessionId deadline sys) (hcommits : Commits sys call update)
    (hcond : ¬ ClaimsReady sessionId (.up sys queue) (.call call)) {lease : Lease}
    (hlease : (update.onLeases sys.sup.leases).get? sessionId = some lease) :
    sys.sup.leases.get? sessionId = some lease := by
  rcases hcommits.lease_cases hlease with hsame | ⟨model, io, endpoint, rfl, hfound, -⟩ |
    ⟨io, old, hold, hactive, -⟩
  · exact hsame
  · have hhit := (Keyed.walk_found _ _ _ hfound).1
    simp only [Bool.and_eq_true] at hhit
    exact absurd (.claim hfound hhit.2) hcond
  · cases hactive.symm.trans (h.lease old hold).1

/-- The durable lease of the session after an update: that of before, or the one in memory. -/
theorem within_apply {queue : List (String × Value)} {call : Call} {update : Update}
    (h : Bounded sessionId deadline sys) (hcommits : Commits sys call update)
    (hcond : ¬ ClaimsReady sessionId (.up sys queue) (.call call)) {state : IntentState}
    (hstate : (deadlineBound sessionId deadline).state state) :
    (deadlineBound sessionId deadline).state (update.apply sys.sup.leases state) := by
  have hmemory : (deadlineBound sessionId deadline).state
      { state with leases := leaseValues (update.onLeases sys.sup.leases) } := by
    intro value hvalue
    rw [get?_leaseValues] at hvalue
    obtain ⟨lease, hlease, rfl⟩ := Option.map_eq_some_iff.mp hvalue
    exact within_toValue (h.lease lease (get?_onLeases h hcommits hcond hlease)).2
  cases hcommits with
  | claim hfound => exact hmemory
  | renew hlease hactive => exact hmemory
  | keepLeases keep => exact hmemory
  | forget id io =>
    intro value hvalue
    simp only [Update.apply, Ordered.Map.get?_erase] at hvalue
    split at hvalue
    · cases hvalue
    · exact hstate value hvalue
  | _ => exact hstate

theorem bounded_perform {queue : List (String × Value)} (call : Call)
    (h : Bounded sessionId deadline sys)
    (hcond : ¬ ClaimsReady sessionId (.up sys queue) (.call call)) :
    Bounded sessionId deadline (call.perform codec sys) ∧
      Survives (deadlineBound sessionId deadline) sys.sup (call.perform codec sys).sup := by
  have hpersists := persists_perform codec sys call
  have hsurvives : Survives (deadlineBound sessionId deadline) sys.sup
      (call.perform codec sys).sup := by
    refine hpersists.survives h.keeps fun update hupdate state hstate ↦ ?_
    exact within_apply h (commits_of_update hupdate) hcond hstate
  refine ⟨⟨hsurvives.keeps, fun lease hlease ↦ ?_⟩, hsurvives⟩
  rcases hpersists.memory with ⟨-, hsame⟩ | ⟨update, hupdate, -, hnew⟩
  · exact h.lease lease (hsame ▸ hlease)
  · rw [hnew] at hlease
    exact h.lease lease (get?_onLeases h (commits_of_update hupdate) hcond hlease)

/-- A step taken while up keeps the bound, unless it claims a ready endpoint for the session. -/
theorem bounded_serve {queue : List (String × Value)} (step : Step)
    (h : Bounded sessionId deadline sys) (hcond : ¬ ClaimsReady sessionId (.up sys queue) step) :
    Bounded sessionId deadline (serve codec sys queue step).sys ∧
      Survives (deadlineBound sessionId deadline) sys.sup
        (serve codec sys queue step).sys.sup := by
  rcases sup_serve codec sys queue step with ⟨call, rfl, hsys⟩ | hsup | ⟨req, io, hsup⟩
  · rw [hsys]
    exact bounded_perform call h hcond
  · have hsurvives : Survives (deadlineBound sessionId deadline) sys.sup
        (serve codec sys queue step).sys.sup := .of_store h.keeps (by rw [hsup])
    refine ⟨⟨hsurvives.keeps, fun lease hlease ↦ ?_⟩, hsurvives⟩
    exact h.lease lease (hsup ▸ hlease)
  · have hsurvives : Survives (deadlineBound sessionId deadline) sys.sup
        (serve codec sys queue step).sys.sup := by
      rw [hsup]
      exact survives_start h.keeps (fun _ _ hstate ↦ hstate) fun _ hstate ↦ hstate
    refine ⟨⟨hsurvives.keeps, fun lease hlease ↦ ?_⟩, hsurvives⟩
    rw [hsup, (leases_start codec req io sys.sup).1] at hlease
    exact h.lease lease hlease

end Steps

/-- The bound on the session's deadline, as long as it claims no ready endpoint. -/
def bounded (codec : Codec) (sessionId : String) (deadline : ℕ) :
    Invariant codec fun state step ↦ ¬ ClaimsReady sessionId state.phase step where
  durable _ := deadlineBound sessionId deadline
  up _ sys _ := Bounded sessionId deadline sys
  keeps := Bounded.keeps
  opens := bounded_open
  serves := bounded_serve _

/-! ## What every run keeps -/

/-- The durable property that says nothing. -/
def anything : DurableProperty :=
  ⟨fun _ ↦ True, fun _ ↦ True, fun _ ↦ trivial, fun _ ↦ trivial, fun _ _ _ ↦ trivial,
    fun _ ↦ trivial⟩

/-- What holds while up, in every run: memory agrees with the store, and recovered leases have a
deadline. -/
structure Sound (sys : Sys) : Prop where
  keeps : sys.sup.Keeps anything
  agrees : Agrees sys.sup
  deadlines : ∀ sessionId lease, sys.sup.leases.get? sessionId = some lease →
    lease.recovered = true → 0 < lease.expiresAt

theorem sound_perform (codec : Codec) {sys : Sys} (call : Call) (h : Sound sys) :
    Sound (call.perform codec sys) ∧
      Survives anything sys.sup (call.perform codec sys).sup := by
  have hpersists := persists_perform codec sys call
  have hsurvives : Survives anything sys.sup (call.perform codec sys).sup :=
    hpersists.survives h.keeps fun _ _ _ _ ↦ trivial
  refine ⟨⟨hsurvives.keeps, hpersists.agrees h.agrees, ?_⟩, hsurvives⟩
  intro sessionId lease hlease hrecovered
  rcases hpersists.memory with ⟨-, hsame⟩ | ⟨update, hupdate, -, hnew⟩
  · exact h.deadlines sessionId lease (hsame ▸ hlease) hrecovered
  rw [hnew] at hlease
  rcases (commits_of_update hupdate).lease_cases hlease with hbefore | ⟨_, _, _, -, -, rfl⟩ |
    ⟨io, old, -, hactive, rfl⟩
  · exact h.deadlines sessionId lease hbefore hrecovered
  · cases hrecovered
  · cases hactive.symm.trans hrecovered

theorem sound_serve (codec : Codec) {sys : Sys} (queue : List (String × Value)) (step : Step)
    (h : Sound sys) :
    Sound (serve codec sys queue step).sys ∧
      Survives anything sys.sup (serve codec sys queue step).sys.sup := by
  rcases sup_serve codec sys queue step with ⟨call, rfl, hsys⟩ | hsup | ⟨req, io, hsup⟩
  · rw [hsys]
    exact sound_perform codec call h
  · exact ⟨⟨hsup ▸ h.keeps, hsup ▸ h.agrees, hsup ▸ h.deadlines⟩,
      .of_store h.keeps (by rw [hsup])⟩
  · obtain ⟨middle, early, late, hearly, hlate, -, -⟩ := persists_start codec sys.sup req io
    have hsurvives : Survives anything sys.sup (serve codec sys queue step).sys.sup := by
      rw [hsup]
      exact survives_start h.keeps (fun _ _ _ ↦ trivial) fun _ _ ↦ trivial
    refine ⟨⟨hsurvives.keeps, ?_, ?_⟩, hsurvives⟩
    · rw [hsup]
      exact hlate.agrees (hearly.agrees h.agrees)
    · rw [hsup, (leases_start codec req io sys.sup).1]
      exact h.deadlines

theorem sound_open {codec : Codec} {io : SupervisorOpenIo} {disk : Directory} {sup : Supervisor}
    (h : (Supervisor.open codec io disk).result = .ok sup) : Sound (.fresh sup) := by
  have hopen := @survives_open codec anything io disk trivial fun _ _ _ _ ↦ trivial
  refine ⟨hopen.2 sup h, agrees_open h, fun sessionId lease hlease _ ↦ ?_⟩
  obtain ⟨-, -, store, -, hleases, -⟩ := open_ok codec h
  obtain ⟨_, _, -, -, -, hdeadline⟩ := get?_recovered hleases hlease
  rw [hdeadline]
  exact boundedDeadline_pos _ _

def sound (codec : Codec) : Invariant codec fun _ _ ↦ True where
  durable _ := anything
  up _ sys _ := Sound sys
  keeps := Sound.keeps
  opens := fun _ ↦ ⟨fun _ _ ↦ trivial, fun _ ↦ sound_open⟩
  serves := fun h _ ↦ sound_serve codec _ _ h

/-! ## Runs -/

def HasDeadline (directory : Directory) (sessionId : String) (deadline : ℕ) : Prop :=
  ∃ number snapshot value lease, directory.newest? = some (number, .snapshot snapshot) ∧
    snapshot.state.leases.get? sessionId = some value ∧ Lease.fromValue value = some lease ∧
    lease.expiresAt = deadline

/-- The daemon is up and the session's lease is a recovered one, with this deadline in memory and
on disk. -/
def RecoveredAt (sessionId : String) (deadline : ℕ) (phase : Phase) : Prop :=
  ∃ sys queue lease, phase = .up sys queue ∧ sys.sup.leases.get? sessionId = some lease ∧
    lease.recovered = true ∧ lease.expiresAt = deadline ∧
    HasDeadline phase.disk sessionId deadline

/-- The session's lease, if there still is one, is a recovered one that is never reported active,
and its deadline is within the bound, in memory and on disk. -/
structure StillRecovered (sessionId : String) (deadline : ℕ) (phase : Phase) : Prop where
  memory : ∀ sys queue lease, phase = .up sys queue →
    sys.sup.leases.get? sessionId = some lease →
    lease.recovered = true ∧ lease.expiresAt ≤ deadline ∧
      ∀ io, (leaseView io lease sys.sup.endpoints).state ≠ .active
  disk : ∀ later, HasDeadline phase.disk sessionId later → 0 < later ∧ later ≤ deadline

/-- After an opening that recovered a lease, the newest generation is the state in memory. -/
theorem newest?_open {codec : Codec} {io : SupervisorOpenIo} {disk : Directory} {sup : Supervisor}
    (h : (Supervisor.open codec io disk).result = .ok sup) {sessionId : String} {lease : Lease}
    (hlease : sup.leases.get? sessionId = some lease) :
    ∃ store number snapshot, sup.store = some store ∧
      store.directory.newest? = some (number, .snapshot snapshot) ∧
      snapshot.state = store.state := by
  obtain ⟨-, -, store, hopen, hleases, ⟨-, hstore⟩ | ⟨committed, hcommit, hstore⟩⟩ :=
    open_ok codec h
  · obtain ⟨hdirectory, -, ⟨-, -, hstate⟩ | ⟨snapshot, hnewest, hstate⟩⟩ :=
      EndpointStore.open_eq_ok hopen
    · obtain ⟨value, _, hget, -, -, -⟩ := get?_recovered hleases hlease
      rw [hstate] at hget
      cases hget
    · exact ⟨store, _, snapshot, hstore, hdirectory ▸ hnewest, hstate⟩
  · have hok := congrArg Prod.fst hcommit
    have hnewest := (EndpointStore.advances_commit codec io.commit
      { store.state with leases := migratedLeases sup.leases store.state.leases }
      (EndpointStore.bounded_open hopen)).2 hok
    have hstate := EndpointStore.state_commit_of_ok hok
    rw [hcommit] at hnewest hstate
    exact ⟨committed, _, _, hstore, hnewest, hstate.symm⟩

/-- What the durable state says of a lease in memory. -/
theorem deadline_of_agrees {leases : LeaseMap} {state : IntentState} (h : LeasesAgree leases state)
    {sessionId : String} {lease : Lease} (hlease : leases.get? sessionId = some lease) :
    ∃ value persisted, state.leases.get? sessionId = some value ∧
      Lease.fromValue value = some persisted ∧ persisted.expiresAt = lease.expiresAt := by
  have hrecord := h sessionId
  rw [leaseRecord, hlease, durableRecord] at hrecord
  obtain ⟨value, hvalue, hsome⟩ := Option.map_eq_some_iff.mp hrecord
  obtain ⟨persisted, hpersisted, heq⟩ := Option.map_eq_some_iff.mp hsome
  exact ⟨value, persisted, hvalue, hpersisted, congrArg LeaseRecord.expiresAt heq⟩

/-- An opening makes every persisted lease a recovered one whose deadline is durable and at most
the lease time away. -/
theorem recoveredAt_boot {codec : Codec} {io : SupervisorOpenIo} {disk : Directory}
    {sup : Supervisor} (h : (Supervisor.open codec io disk).result = .ok sup) {sessionId : String}
    {lease : Lease} (hlease : sup.leases.get? sessionId = some lease) :
    RecoveredAt sessionId lease.expiresAt (boot codec io disk) ∧
      lease.expiresAt ≤ saturatingAdd (epochSeconds io.now) leaseTtlSecs := by
  have hboot : boot codec io disk = .up (.fresh sup) sup.recoveryIntents := by
    simp only [boot, h]
  obtain ⟨-, -, _, -, hleases, -⟩ := open_ok codec h
  obtain ⟨_, _, -, -, hrecovered, hdeadline⟩ := get?_recovered hleases hlease
  obtain ⟨store, number, snapshot, hstore, hnewest, hstate⟩ := newest?_open h hlease
  have hagrees : LeasesAgree sup.leases store.state :=
    agrees_open h store.state (by rw [durable, hstore]; rfl)
  obtain ⟨value, persisted, hvalue, hpersisted, hsame⟩ := deadline_of_agrees hagrees hlease
  refine ⟨⟨.fresh sup, _, lease, hboot, hlease, hrecovered, rfl, ?_⟩, ?_⟩
  · rw [hboot]
    refine ⟨number, snapshot, value, persisted, ?_, hstate ▸ hvalue, hpersisted, hsame⟩
    simpa [Phase.disk, Sys.fresh, hstore] using hnewest
  · rw [hdeadline]
    exact boundedDeadline_le_ttl _ _

/-- A recovered lease with a durable deadline is bounded by it. -/
theorem bounded_of_recoveredAt {sessionId : String} {deadline : ℕ} {sys : Sys}
    {queue : List (String × Value)} (hsound : Sound sys)
    (h : RecoveredAt sessionId deadline (.up sys queue)) : Bounded sessionId deadline sys := by
  obtain ⟨_, _, lease, hphase, hlease, hrecovered, rfl, hdisk⟩ := h
  cases hphase
  have hpos := hsound.deadlines sessionId lease hlease hrecovered
  obtain ⟨store, hstore, hkeeps⟩ := hsound.keeps
  refine ⟨⟨store, hstore, hkeeps.bounded, ?_, ?_, fun _ ↦ trivial⟩, ?_⟩
  · obtain ⟨value, persisted, hvalue, hpersisted, hsame⟩ :=
      deadline_of_agrees (hsound.agrees store.state (by rw [durable, hstore]; rfl)) hlease
    intro other hother read hread
    rw [hvalue] at hother
    cases hother
    rw [hpersisted] at hread
    cases hread
    rw [hsame]
    exact ⟨hpos, le_rfl⟩
  · obtain ⟨number, snapshot, value, persisted, hnewest, hvalue, hpersisted, hsame⟩ := hdisk
    simp only [Phase.disk, hstore, Option.map_some, Option.getD_some] at hnewest
    rw [hnewest]
    intro other hother read hread
    rw [hvalue] at hother
    cases hother
    rw [hpersisted] at hread
    cases hread
    rw [hsame]
    exact ⟨hpos, le_rfl⟩
  · intro other hother
    rw [hlease] at hother
    cases hother
    exact ⟨hrecovered, hpos, le_rfl⟩

theorem stillRecovered_of_bounded {codec : Codec} {sessionId : String} {deadline : ℕ}
    {state : State} (h : (bounded codec sessionId deadline).Holds state) :
    StillRecovered sessionId deadline state.phase := by
  have hdisk := (bounded codec sessionId deadline).readable_disk h
  constructor
  · intro sys queue lease hphase hlease
    rw [Invariant.Holds, hphase] at h
    obtain ⟨hrecovered, -, hle⟩ := h.lease lease hlease
    refine ⟨hrecovered, hle, fun io hactive ↦ ?_⟩
    cases (leaseView_active hactive).1.symm.trans hrecovered
  · rintro later ⟨number, snapshot, value, lease, hnewest, hvalue, hlease, rfl⟩
    rw [hnewest] at hdisk
    exact hdisk value hvalue lease hlease

/-- Over any restarts, crashes, clock readings and heartbeats: every opening gives the leases it
recovers a durable deadline at most 90 seconds away, and once a recovered lease has a durable
deadline, that deadline never increases and the lease is never active again, until a claim of the
session finds a ready endpoint. -/
theorem recovered_deadline_never_increases (codec : Codec) (early : List Label) :
    (∀ io disk sup sessionId lease, (State.initial.run codec early).phase = .down disk →
      (Supervisor.open codec io disk).result = .ok sup →
      sup.leases.get? sessionId = some lease →
      RecoveredAt sessionId lease.expiresAt
          (State.initial.run codec (early ++ [.step (.boot io)])).phase ∧
        lease.expiresAt ≤ saturatingAdd (epochSeconds io.now) 90) ∧
    ∀ late sessionId deadline,
      RecoveredAt sessionId deadline (State.initial.run codec early).phase →
      Run.Meets (State.step codec)
        (fun state label ↦ ∀ step, label.step? = some step →
          ¬ ClaimsReady sessionId state.phase step) (State.initial.run codec early) late →
      StillRecovered sessionId deadline (State.initial.run codec (early ++ late)).phase := by
  have hrun (late : List Label) : State.initial.run codec (early ++ late) =
      (State.initial.run codec early).run codec late := Run.run_append _ _ _ _
  constructor
  · intro io disk sup sessionId lease hdown hopen hlease
    have hphase : (State.initial.run codec (early ++ [.step (.boot io)])).phase =
        boot codec io disk := by
      have hboot : (State.initial.run codec early).run codec [.step (.boot io)] =
          (State.initial.run codec early).perform codec (.boot io) := rfl
      rw [hrun, hboot, State.perform, hdown]
    rw [hphase]
    exact recoveredAt_boot hopen hlease
  · intro late sessionId deadline hrecovered hquiet
    have hinitial : (sound codec).Holds State.initial := trivial
    have hsound : (sound codec).Holds (State.initial.run codec early) :=
      (sound codec).holds_run hinitial (.of_forall (fun _ _ _ _ ↦ trivial) _ _)
    have hbounded : (bounded codec sessionId deadline).Holds (State.initial.run codec early) := by
      obtain ⟨sys, queue, lease, hphase, hrest⟩ := hrecovered
      rw [Invariant.Holds, hphase] at hsound ⊢
      exact bounded_of_recoveredAt hsound ⟨sys, queue, lease, rfl, hphase ▸ hrest⟩
    rw [hrun]
    exact stillRecovered_of_bounded ((bounded codec sessionId deadline).holds_run hbounded hquiet)

/-- A session claims a ready endpoint, and the daemon crashes. -/
def claimedAlpha : List Label := [
  .step (.boot (.plain 0)),
  .step (.manual (.named "alpha" none) true (.plain 1000000000 ⟨101, 1⟩)),
  .step (.call (.expireLeases 2000000000 (fun _ ↦ 0) (.ok "02"))),
  .step (.call (.schedule ⟨fun _ ↦ .alive 2000000000, fun _ ↦ 2000000000, fun _ ↦ 2000000000⟩)),
  .step (.call (.probe fun _ ↦ .ok ())),
  .step (.call (.applyProbes fun _ ↦ 2000000000)),
  .step (.call (.lease "knossos" "alpha" (.plain 3000000000))),
  .crash]

/-- A heartbeat of the session, a crash, and a boot with the clock far ahead. -/
def reopenedAlpha : List Label := [
  .step (.call (.renewLease "knossos" ⟨5000000000, 0, 5000000000, 0, .ok "06"⟩)),
  .crash,
  .step (.boot (.plain 9000000000000))]

/-- The digests of the two states committed here, and the lengths of their snapshots. -/
def claimCodec : Codec where
  digest state :=
    if state.leases.size = 0 then "ffe33b230577a8c27bc9a8233172ef35cb227d7cc2638360e0d3d934cf8b3d92"
    else "eb72b143d6a5e3bac707f35f6f4ae5b55a52e0bff108fff1c55e1f9330495da6"
  size snapshot := if snapshot.generation = 1 then 580 else 685

theorem recovered_deadline_never_increases_reopenedAlpha :
    let booted := claimedAlpha ++ [.step (.boot (.plain 4000000000))]
    ∃ deadline ≤ 94,
      RecoveredAt "knossos" deadline (State.initial.run claimCodec booted).phase ∧
        StillRecovered "knossos" deadline
          (State.initial.run claimCodec (booted ++ reopenedAlpha)).phase := by
  obtain ⟨disk, sup, lease, hdown, hopen, hlease⟩ : ∃ disk sup lease,
      (State.initial.run claimCodec claimedAlpha).phase = .down disk ∧
        (Supervisor.open claimCodec (.plain 4000000000) disk).result = .ok sup ∧
        sup.leases.get? "knossos" = some lease := ⟨_, _, _, rfl, rfl, rfl⟩
  obtain ⟨hrecovered, hle⟩ := (recovered_deadline_never_increases claimCodec claimedAlpha).1
    (.plain 4000000000) disk sup "knossos" lease hdown hopen hlease
  refine ⟨lease.expiresAt, hle.trans (by decide), hrecovered, ?_⟩
  refine (recovered_deadline_never_increases claimCodec _).2 reopenedAlpha "knossos" _ hrecovered
    ⟨?_, ?_, ?_, trivial⟩
  · intro step hstep hclaims
    cases hstep
    cases hclaims
  · intro step hstep
    cases hstep
  · intro step hstep hclaims
    cases hstep
    cases hclaims

end Cameo.Daemon
