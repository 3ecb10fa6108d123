import Cameo.Daemon.System

/-!
# The recovery budget

The number of recovery attempts of an endpoint is part of its durable intent, and a recovery
commits it, increased by one, before it spawns.  So whatever an opening can read, after any crash,
covers the processes recovery has spawned since the count was last reset: by a start on request, or
by an observation that the endpoint had been ready for long.
-/

namespace Cameo.Daemon

open Json Library Store Supervisor

/-- The intent is of the endpoint under whose id it is kept. -/
def Describes (key : String) (intent : Value) : Prop :=
  ∀ body, ModelRequest.fromValue intent = some body → body.id = key

/-- Every intent is of its endpoint, and that of one endpoint records at least the attempts
spent. -/
structure Covers (id : String) (spent : ℕ) (intents : Ordered.Map String Value) : Prop where
  describes : ∀ key intent, intents.get? key = some intent → Describes key intent
  attempts : ∀ intent, intents.get? id = some intent → spent ≤ recoveryAttempts intent

theorem describes_intentOf (body : ModelRequest) (attempts : ℕ) :
    Describes body.id (intentOf body attempts) := by
  intro read hread
  rw [fromValue_intentOf] at hread
  cases hread
  rfl

theorem covers_empty (id : String) : Covers id 0 .empty :=
  ⟨fun _ _ hintent ↦ by simp at hintent, fun _ hintent ↦ by simp at hintent⟩

section Covers

variable {id : String} {spent : ℕ} {intents : Ordered.Map String Value}

theorem Covers.mono {fewer : ℕ} (h : Covers id spent intents) (hle : fewer ≤ spent) :
    Covers id fewer intents :=
  ⟨h.describes, fun intent hintent ↦ hle.trans (h.attempts intent hintent)⟩

theorem Covers.insert {key : String} {intent : Value} (h : Covers id spent intents)
    (hdescribes : Describes key intent) (hspent : key = id → spent ≤ recoveryAttempts intent) :
    Covers id spent (intents.insert key intent) := by
  constructor
  · intro other found hfound
    rw [Ordered.Map.get?_insert] at hfound
    split at hfound
    · rename_i heq
      cases hfound
      exact heq ▸ hdescribes
    · exact h.describes other found hfound
  · intro found hfound
    rw [Ordered.Map.get?_insert] at hfound
    split at hfound
    · rename_i heq
      cases hfound
      exact hspent heq
    · exact h.attempts found hfound

theorem Covers.retract (h : Covers id spent intents) (victims : List String) :
    Covers id spent (intended victims none intents) := by
  constructor
  · intro key intent hintent
    rw [get?_intended_none] at hintent
    split at hintent
    · cases hintent
    · exact h.describes key intent hintent
  · intro intent hintent
    rw [get?_intended_none] at hintent
    split at hintent
    · cases hintent
    · exact h.attempts intent hintent

/-- An observation keeps the request in an intent. -/
theorem fromValue_observedIntent (seen : Observation) (intent : Value) :
    ModelRequest.fromValue (observedIntent seen intent).1 = ModelRequest.fromValue intent := by
  have hobserved (new value : Value) : ModelRequest.fromValue (value.set "_last_observed" new) =
      ModelRequest.fromValue value := ModelRequest.fromValue_set (by decide) new value
  have hattempts (new value : Value) : ModelRequest.fromValue
      (value.set "_recovery_attempts" new) = ModelRequest.fromValue value :=
    ModelRequest.fromValue_set (by decide) new value
  simp only [observedIntent]
  split <;> split <;> simp only [hobserved, hattempts]

/-- An observation that does not reset keeps the recorded attempts. -/
theorem recoveryAttempts_observedIntent {seen : Observation} (h : seen.resetRecovery = false)
    (intent : Value) :
    recoveryAttempts (observedIntent seen intent).1 = recoveryAttempts intent := by
  unfold observedIntent
  rw [h]
  simp only [Bool.false_and, Bool.false_eq_true, if_false]
  split
  · rw [recoveryAttempts, Value.get?_set_of_ne (by decide), recoveryAttempts]
  · rfl

theorem Covers.observe {changed : Bool} {seen : Observation} (h : Covers id spent intents)
    (hreset : spent = 0 ∨ (seen.endpointId = id → seen.resetRecovery = false)) :
    Covers id spent (recordObservation (intents, changed) seen).1 := by
  unfold recordObservation
  split
  · exact h
  · rename_i intent hintent
    refine h.insert ?_ ?_
    · intro body hbody
      rw [fromValue_observedIntent] at hbody
      exact h.describes _ intent hintent body hbody
    · intro heq
      rcases hreset with rfl | hkept
      · exact Nat.zero_le _
      · rw [recoveryAttempts_observedIntent (hkept heq)]
        exact h.attempts intent (heq ▸ hintent)

theorem Covers.observations {changed : Bool} {observations : List Observation}
    (h : Covers id spent intents)
    (hreset : spent = 0 ∨
      ∀ seen ∈ observations, seen.endpointId = id → seen.resetRecovery = false) :
    Covers id spent (observations.foldl recordObservation (intents, changed)).1 := by
  induction observations generalizing intents changed with
  | nil => exact h
  | cons seen rest ih =>
    have hseen : Covers id spent (recordObservation (intents, changed) seen).1 :=
      h.observe (hreset.imp_right fun hkept ↦ hkept seen List.mem_cons_self)
    exact ih hseen (hreset.imp_right fun hkept other hmem ↦
      hkept other (List.mem_cons_of_mem _ hmem))

end Covers

/-- The durable property: the spent attempts are within the budget and covered. -/
def coverage (id : String) (spent : ℕ) : DurableProperty where
  state state := spent ≤ recoveryBudget ∧ Covers id spent state.endpoints
  readable newest := spent ≤ recoveryBudget ∧
    match newest with
    | none => spent = 0
    | some (number, .snapshot snapshot) => 0 < number ∧ Covers id spent snapshot.state.endpoints
    | some (number, .corrupt) => 0 < number
  blank := by
    rintro ⟨hbudget, rfl⟩
    exact ⟨hbudget, covers_empty id⟩
  read := fun ⟨hbudget, _, hcovers⟩ ↦ ⟨hbudget, hcovers⟩
  write := fun generation _ ⟨hbudget, hcovers⟩ ↦ ⟨hbudget, Nat.succ_pos generation, hcovers⟩
  zero := by
    rintro data ⟨-, h⟩
    cases data with
    | snapshot value => exact absurd h.1 (lt_irrefl 0)
    | corrupt => exact absurd h (lt_irrefl 0)

theorem readable_coverage_mono {id : String} {spent fewer : ℕ} {newest : Option (ℕ × FileData)}
    (h : (coverage id spent).readable newest) (hle : fewer ≤ spent) :
    (coverage id fewer).readable newest := by
  obtain ⟨hbudget, h⟩ := h
  refine ⟨hle.trans hbudget, ?_⟩
  match newest with
  | none => exact Nat.le_zero.mp (hle.trans (Nat.le_zero.mpr h))
  | some (number, .snapshot snapshot) => exact ⟨h.1, h.2.mono hle⟩
  | some (number, .corrupt) => exact h

/-- What holds while the daemon is up: the store covers the attempts spent, and so do the intents
still to be recovered. -/
structure Recovering (id : String) (spent : ℕ) (sys : Sys) (queue : List (String × Value)) :
    Prop where
  keeps : sys.sup.Keeps (coverage id spent)
  nodup : (queue.map Prod.fst).Nodup
  queued : ∀ key intent, (key, intent) ∈ queue →
    Describes key intent ∧ (key = id → spent ≤ recoveryAttempts intent)

/-! ## Starts -/

theorem startedIds_append (early late : List Spawn) :
    startedIds (early ++ late) = startedIds early ++ startedIds late := by
  simp [startedIds]

/-- Automatic restarts are not counted. -/
theorem startedIds_eq_nil {spawns : List Spawn} (h : ∀ spawn ∈ spawns, spawn.cause = .restart) :
    startedIds spawns = [] := by
  simp only [startedIds, List.map_eq_nil_iff, List.filter_eq_nil_iff, decide_eq_true_eq]
  intro spawn hmem
  rw [h spawn hmem]
  exact nofun

/-- A start spawns at most one process that is no automatic restart, its own, and only if it
succeeds. -/
theorem startedIds_start (codec : Codec) (req : StartRequest) (io : StartIo) (sup : Supervisor) :
    startedIds (sup.start codec req io).spawns = [] ∨
      (startedIds (sup.start codec req io).spawns = [req.id] ∧
        ∃ view, (sup.start codec req io).result = .ok view) := by
  have hport : startedIds (checkPort req io sup.endpoints).spawns = [] :=
    startedIds_eq_nil fun _ ↦ checkPort_spawns
  have hdecided : startedIds (decided req io sup).spawns = [] :=
    startedIds_eq_nil fun _ ↦ arbitrate_spawns
  have hstarted := started codec req io sup
  generalize sup.start codec req io = out at hstarted
  cases hstarted with
  | latched _ => exact .inl rfl
  | taken _ _ => exact .inl hport
  | refused _ _ _ => exact .inl (by rw [startedIds_append, hport, hdecided]; rfl)
  | unevicted _ _ _ _ => exact .inl (by rw [startedIds_append, hport, hdecided]; rfl)
  | launched _ _ _ _ hlaunch =>
    subst hlaunch
    rw [startedIds_append, startedIds_append, hport, hdecided, List.nil_append, List.nil_append]
    rcases launch_cases codec req io _ with ⟨e, heq, -⟩ | ⟨heq, -⟩
    · rw [heq]
      exact .inl rfl
    · rw [heq]
      have hview : startedIds ((newEndpoint req io).refresh io.view).2 = [] :=
        startedIds_eq_nil fun _ hspawn ↦ (Endpoint.refresh_spawn hspawn).2.1
      dsimp only
      rw [startedIds_append, hview, List.append_nil, startSpawn]
      cases io.spawn with
      | ok child => exact .inr ⟨rfl, _, rfl⟩
      | error e => exact .inl rfl

section Starts

variable {codec : Codec} {id : String} {spent : ℕ} {sup : Supervisor} {req : StartRequest}
  {pinned : ModelRequest} {attempts : ℕ}

/-- A start whose intent records enough attempts keeps the coverage. -/
theorem survives_start_coverage (io : StartIo) (h : sup.Keeps (coverage id spent))
    (hid : req.id = pinned.id) (hintent : req.intent = intentOf pinned attempts)
    (hspent : pinned.id = id → spent ≤ attempts) :
    Survives (coverage id spent) sup (sup.start codec req io).sup := by
  refine survives_start h ?_ ?_
  · rintro victims state ⟨hbudget, hcovers⟩
    exact ⟨hbudget, hcovers.retract victims⟩
  · rintro state ⟨hbudget, hcovers⟩
    refine ⟨hbudget, hcovers.insert ?_ ?_⟩
    · rw [hid, hintent]
      exact describes_intentOf pinned attempts
    · intro heq
      rw [hintent, recoveryAttempts_intentOf]
      exact hspent (hid.symm.trans heq)

/-- A successful start with one attempt more than spent covers that attempt too. -/
theorem keeps_start_coverage {io : StartIo} {view : Value} (h : sup.Keeps (coverage id spent))
    (hok : (sup.start codec req io).result = .ok view)
    (hid : req.id = pinned.id) (hintent : req.intent = intentOf pinned (attempts + 1))
    (hown : pinned.id = id) (hspent : spent ≤ attempts) (hbudget : attempts < recoveryBudget) :
    (sup.start codec req io).sup.Keeps (coverage id (spent + 1)) := by
  refine keeps_start_of_ok h hok ?_ ?_
  · rintro victims state ⟨hwithin, hcovers⟩
    exact ⟨hwithin, hcovers.retract victims⟩
  · rintro state ⟨-, hcovers⟩
    have hdescribes : Describes req.id req.intent := by
      rw [hid, hintent]
      exact describes_intentOf pinned _
    refine ⟨by omega, ?_, ?_⟩
    · exact (hcovers.insert hdescribes fun _ ↦ by
        rw [hintent, recoveryAttempts_intentOf]; omega).describes
    · intro intent hfound
      rw [Ordered.Map.get?_insert, if_pos (hid.trans hown)] at hfound
      cases hfound
      rw [hintent, recoveryAttempts_intentOf]
      omega

end Starts

/-! ## Steps -/

/-- The steps that give an endpoint a new budget: a start on request, and persisting that it was
observed to be ready for long. -/
inductive Restores (id : String) : Phase → Step → Prop where
  | requested {phase : Phase} {body : ModelRequest} {allowEvict : Bool} {io : ServeIo}
      (h : body.id = id) : Restores id phase (.manual body allowEvict io)
  | settled {sys : Sys} {queue : List (String × Value)} {observations : List Observation}
      {seen : Observation} {io : CommitIo} (hphase : sys.maintenance = .observed observations)
      (hseen : seen ∈ observations) (hid : seen.endpointId = id)
      (hreset : seen.resetRecovery = true) :
    Restores id (.up sys queue) (.call (.persistObservations io))

section Steps

variable {codec : Codec} {id : String} {spent : ℕ} {sys : Sys} {queue : List (String × Value)}

theorem survives_perform_coverage (call : Call) (h : sys.sup.Keeps (coverage id spent))
    (hcond : spent = 0 ∨ ¬ Restores id (.up sys queue) (.call call)) :
    Survives (coverage id spent) sys.sup (call.perform codec sys).sup := by
  apply (persists_perform codec sys call).survives h
  rintro update hupdate state ⟨hbudget, hcovers⟩
  refine ⟨hbudget, ?_⟩
  cases commits_of_update hupdate with
  | retract key io => exact hcovers.retract [key]
  | observe hphase =>
    refine hcovers.observations (hcond.imp_right fun hnot seen hseen hid ↦ ?_)
    by_contra hreset
    exact hnot (.settled hphase hseen hid (by simpa using hreset))
  | _ => exact hcovers

/-- A start on request keeps the coverage, unless it is of the endpoint. -/
theorem survives_startServerInner (io : ServeIo) (body : ModelRequest) (allowEvict : Bool)
    (h : sys.sup.Keeps (coverage id spent)) (hcond : body.id = id → spent = 0) :
    Survives (coverage id spent) sys.sup
      (startServerInner codec io body allowEvict 0 sys.sup).sup := by
  rcases startServerInner_cases codec io body allowEvict 0 sys.sup with
    ⟨response, heq⟩ | ⟨req, pinned, hpinned, hreq, hintent, heq⟩
  · rw [heq]
    exact .of_store h rfl
  · rw [heq]
    refine survives_start_coverage io.start h (hreq.trans hpinned.symm) hintent fun hown ↦ ?_
    exact (hcond (hpinned.symm.trans hown)).le

/-- The starter model is only started before the first commit, and then no attempt was spent. -/
theorem survives_maybeAutostart (io : AutostartIo) (h : sys.sup.Keeps (coverage id spent)) :
    Survives (coverage id spent) sys.sup (maybeAutostart codec io sys.sup).sup := by
  unfold maybeAutostart
  split
  · exact .of_store h rfl
  rename_i hhistory
  split
  · exact .of_store h rfl
  split
  · refine survives_startServerInner io.serve _ true h fun _ ↦ ?_
    obtain ⟨store, hstore, hkeeps⟩ := h
    have hzero : store.generation = 0 := by
      simpa [hasHistory, hstore, EndpointStore.hasHistory] using hhistory
    exact (hkeeps.history hzero).2
  · exact .of_store h rfl

theorem Recovering.of_survives {sys' : Sys} (h : Recovering id spent sys queue)
    (hsurvives : Survives (coverage id spent) sys.sup sys'.sup) :
    Recovering id spent sys' queue :=
  ⟨hsurvives.keeps, h.nodup, h.queued⟩

theorem Recovering.tail {entry : String × Value} (h : Recovering id spent sys (entry :: queue)) :
    Recovering id spent sys queue :=
  ⟨h.keeps, (List.nodup_cons.mp h.nodup).2,
    fun key intent hmem ↦ h.queued key intent (List.mem_cons_of_mem _ hmem)⟩

/-- Recovering the next endpoint keeps what holds while up, and an own recovery is counted. -/
theorem recovering_recover (io : RecoverIo) {key : String} {intent : Value}
    (h : Recovering id spent sys ((key, intent) :: queue)) :
    let out := recoverEndpoint codec io intent sys.sup
    Recovering id (spent + (startedIds out.spawns).count id) (sys.after out sys.maintenance) queue ∧
      Survives (coverage id spent) sys.sup out.sup := by
  dsimp only
  obtain ⟨hdescribes, hspent⟩ := h.queued key intent List.mem_cons_self
  rcases recoverEndpoint_cases codec io intent sys.sup with
    ⟨response, heq⟩ | ⟨body, req, pinned, response, hbody, hbudget, hpinned, hreq, hintent, heq⟩
  · rw [heq]
    exact ⟨h.tail.of_survives (.of_store h.keeps rfl), .of_store h.keeps rfl⟩
  rw [heq]
  have hkey : pinned.id = key := hpinned.trans (hdescribes body hbody)
  have hid : req.id = pinned.id := hreq.trans hpinned.symm
  have hsurvives : Survives (coverage id spent) sys.sup
      (sys.sup.start codec req io.serve.start).sup :=
    survives_start_coverage io.serve.start h.keeps hid hintent fun hown ↦
      (hspent (hkey.symm.trans hown)).trans (Nat.le_succ _)
  refine ⟨?_, hsurvives⟩
  have huncounted : Recovering id spent
      (sys.after ⟨response, (sys.sup.start codec req io.serve.start).sup,
        (sys.sup.start codec req io.serve.start).spawns⟩ sys.maintenance) queue :=
    h.tail.of_survives hsurvives
  dsimp only
  rcases startedIds_start codec req io.serve.start sys.sup with hnone | ⟨hone, view, hok⟩
  · rw [hnone]
    exact huncounted
  · rw [hone]
    by_cases hown : key = id
    · -- the queue has no second entry of the endpoint
      rw [hid, hkey, hown, List.count_singleton_self]
      refine ⟨?_, huncounted.nodup, fun other value hmem ↦ ?_⟩
      · exact keeps_start_coverage h.keeps hok hid hintent (hkey.trans hown) (hspent hown) hbudget
      · refine ⟨(huncounted.queued other value hmem).1, fun hother ↦ ?_⟩
        refine absurd ?_ (List.nodup_cons.mp h.nodup).1
        exact List.mem_map.mpr ⟨(other, value), hmem, hother.trans hown.symm⟩
    · have hne : req.id ≠ id := fun heq ↦ hown (hkey.symm.trans (hid.symm.trans heq))
      rw [List.count_singleton, if_neg (by simpa using hne)]
      exact huncounted

/-- A step taken while up keeps what holds, counts the recoveries, and survives a crash. -/
theorem recovering_serve (step : Step) (h : Recovering id spent sys queue)
    (hcond : spent = 0 ∨ ¬ Restores id (.up sys queue) step) :
    Recovering id (spent + (serve codec sys queue step).recovered.count id)
        (serve codec sys queue step).sys (serve codec sys queue step).queue ∧
      Survives (coverage id spent) sys.sup (serve codec sys queue step).sys.sup := by
  cases step with
  | boot io => exact ⟨h, .of_store h.keeps rfl⟩
  | call call =>
    have hsurvives : Survives (coverage id spent) sys.sup (call.perform codec sys).sup :=
      survives_perform_coverage call h.keeps hcond
    exact ⟨h.of_survives hsurvives, hsurvives⟩
  | manual body allowEvict io =>
    have hsurvives : Survives (coverage id spent) sys.sup
        (startServerWithEviction codec io body allowEvict sys.sup).sup := by
      refine survives_startServerInner io body allowEvict h.keeps fun hown ↦ ?_
      exact hcond.resolve_right fun hnot ↦ hnot (.requested hown)
    exact ⟨h.of_survives hsurvives, hsurvives⟩
  | autostart io =>
    have hsurvives : Survives (coverage id spent) sys.sup
        (maybeAutostart codec io sys.sup).sup := survives_maybeAutostart io h.keeps
    exact ⟨h.of_survives hsurvives, hsurvives⟩
  | recover io =>
    cases queue with
    | nil => exact ⟨h, .of_store h.keeps rfl⟩
    | cons entry rest => exact recovering_recover io h

/-- An opening takes over the intents with the attempts they record. -/
theorem recovering_open {io : SupervisorOpenIo} {disk : Directory}
    (h : (coverage id spent).readable disk.newest?) :
    (∀ directory ∈ (Supervisor.open codec io disk).passed,
        (coverage id spent).readable directory.newest?) ∧
      ∀ sup, (Supervisor.open codec io disk).result = .ok sup →
        Recovering id spent (.fresh sup) sup.recoveryIntents := by
  have hopen := @survives_open codec _ io disk h fun state leases hstate _ ↦ hstate
  refine ⟨hopen.1, fun sup hsup ↦ ?_⟩
  obtain ⟨store, hstore, hstoreKeeps⟩ := hopen.2 sup hsup
  have hcovers := hstoreKeeps.state.2
  refine ⟨⟨store, hstore, hstoreKeeps⟩, ?_, ?_⟩
  · rw [recoveryIntents, hstore]
    exact store.state.endpoints.nodup_keys
  · intro key intent hmem
    rw [recoveryIntents, hstore] at hmem
    have hget := (store.state.endpoints.mem_entries_iff key intent).mp hmem
    exact ⟨hcovers.describes key intent hget, fun hown ↦ hcovers.attempts intent (hown ▸ hget)⟩

theorem Recovering.mono {fewer : ℕ} (h : Recovering id spent sys queue) (hle : fewer ≤ spent) :
    Recovering id fewer sys queue := by
  obtain ⟨store, hstore, hkeeps⟩ := h.keeps
  refine ⟨⟨store, hstore, hkeeps.bounded, ?_, ?_, ?_⟩, h.nodup, fun key intent hmem ↦ ?_⟩
  · exact ⟨hle.trans hkeeps.state.1, hkeeps.state.2.mono hle⟩
  · exact readable_coverage_mono hkeeps.readable hle
  · exact fun hzero ↦ readable_coverage_mono (hkeeps.history hzero) hle
  · obtain ⟨hdescribes, hspent⟩ := h.queued key intent hmem
    exact ⟨hdescribes, fun hown ↦ hle.trans (hspent hown)⟩

end Steps

/-! ## Runs -/

/-- Every intent is of its endpoint, in every run. -/
def described (codec : Codec) (id : String) : Invariant codec fun _ _ ↦ True where
  durable _ := coverage id 0
  up _ := Recovering id 0
  keeps := Recovering.keeps
  opens := recovering_open
  serves := by
    intro recoveries sys queue step h _
    obtain ⟨hup, hsurvives⟩ := recovering_serve step h (.inl rfl)
    exact ⟨hup.mono (Nat.zero_le _), hsurvives⟩

/-- The recoveries of the endpoint beyond the first `base` are covered, as long as no step restores
the budget. -/
def covered (codec : Codec) (id : String) (base : ℕ) :
    Invariant codec fun state step ↦ ¬ Restores id state.phase step where
  durable recoveries := coverage id (recoveries.count id - base)
  up recoveries := Recovering id (recoveries.count id - base)
  keeps := Recovering.keeps
  opens := recovering_open
  serves := by
    intro recoveries sys queue step h hcond
    obtain ⟨hup, hsurvives⟩ := recovering_serve step h (.inr hcond)
    refine ⟨hup.mono ?_, hsurvives⟩
    rw [List.count_append]
    omega

theorem covered_of_described {codec : Codec} {id : String} {state : State}
    (h : (described codec id).Holds state) :
    (covered codec id (state.recoveries.count id)).Holds state := by
  obtain ⟨phase, recoveries⟩ := state
  have hzero : recoveries.count id - recoveries.count id = 0 := Nat.sub_self _
  cases phase with
  | down disk =>
    change (coverage id (recoveries.count id - recoveries.count id)).readable disk.newest?
    rw [hzero]
    exact h
  | up sys queue =>
    change Recovering id (recoveries.count id - recoveries.count id) sys queue
    rw [hzero]
    exact h

/-- Over any restarts and crashes of the daemon, in a stretch without a start of the endpoint on
request and without a sustained ready period, recovery spawns the endpoint at most five times; what
an opening would read always records at least as many attempts. -/
theorem recovery_spawns_le_five (codec : Codec) (early late : List Label) (id : String)
    (hquiet : Run.Meets (State.step codec)
      (fun state label ↦ ∀ step, label.step? = some step → ¬ Restores id state.phase step)
      (State.initial.run codec early) late) :
    let before := State.initial.run codec early
    let after := State.initial.run codec (early ++ late)
    after.recoveries.count id ≤ before.recoveries.count id + 5 ∧
      ∀ number snapshot intent, after.phase.disk.newest? = some (number, .snapshot snapshot) →
        snapshot.state.endpoints.get? id = some intent →
        after.recoveries.count id ≤ before.recoveries.count id + recoveryAttempts intent := by
  dsimp only
  have hinitial : (described codec id).Holds State.initial := ⟨Nat.zero_le _, rfl⟩
  have hearly : (described codec id).Holds (State.initial.run codec early) :=
    (described codec id).holds_run hinitial (.of_forall (fun _ _ _ _ ↦ trivial) _ _)
  have hlate := (covered codec id _).holds_run (covered_of_described hearly) hquiet
  have hrun : State.initial.run codec (early ++ late) =
      (State.initial.run codec early).run codec late := Run.run_append _ _ _ _
  rw [← hrun] at hlate
  obtain ⟨hbudget, hdisk⟩ := (covered codec id _).readable_disk hlate
  constructor
  · unfold recoveryBudget at hbudget
    omega
  · intro number snapshot intent hnewest hintent
    rw [hnewest] at hdisk
    have hspent := hdisk.2.attempts intent hintent
    omega

/-- An endpoint is started on request, and the daemon crashes. -/
def crashedAlpha : List Label := [
  .step (.boot (.plain 0)),
  .step (.manual (.named "alpha" none) true (.plain 1000000000 ⟨101, 1⟩)),
  .crash]

def recoveredAlpha : List Label := [
  .step (.boot (.plain 2000000000)),
  .step (.recover ⟨fun _ _ ↦ true, .plain 3000000000 ⟨102, 2⟩⟩)]

/-- The digests of the two states committed here, and the length of their snapshots. -/
def recoveryCodec : Codec where
  digest state :=
    if (state.endpoints.get? "alpha-8080").any fun intent ↦ recoveryAttempts intent = 0 then
      "ffe33b230577a8c27bc9a8233172ef35cb227d7cc2638360e0d3d934cf8b3d92"
    else "95396de85ca6d1363175cc6d51f13ad18eaeb0e1b789816be0a81f0aefe5b9a9"
  size _ := 580

theorem recovery_spawns_le_five_recoveredAlpha :
    let before := State.initial.run recoveryCodec crashedAlpha
    let after := State.initial.run recoveryCodec (crashedAlpha ++ recoveredAlpha)
    before.recoveries = [] ∧ after.recoveries = ["alpha-8080"] ∧
      after.recoveries.count "alpha-8080" ≤ before.recoveries.count "alpha-8080" + 5 := by
  refine ⟨by decide, by decide,
    (recovery_spawns_le_five recoveryCodec crashedAlpha recoveredAlpha _ ⟨?_, ?_, trivial⟩).1⟩
  · intro step hstep hrestores
    cases hstep
    cases hrestores
  · intro step hstep hrestores
    cases hstep
    cases hrestores

end Cameo.Daemon
