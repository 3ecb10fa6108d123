import Cameo.Supervisor.Effects

/-!
# What calls persist

Every call commits at most one update of the durable state and adopts the corresponding lease map
only if that commit succeeds.  `Update` lists the updates, `Call.update` says which one a call
commits, and `persists_perform` connects the two; a start commits the retraction of its victims
and then its own intent.
-/

namespace Cameo.Supervisor

open Json Library Store

inductive Update where
  /-- Remove endpoint intents, then add one. -/
  | intents (remove : List String) (add : Option (String × Value))
  /-- A session claims an endpoint. -/
  | claim (lease : Lease)
  /-- A session's heartbeat. -/
  | renew (sessionId : String) (io : RenewIo)
  /-- Keep the leases that satisfy a predicate. -/
  | keepLeases (keep : Lease → Bool)
  /-- Record a session. -/
  | record (session : SessionRecord)
  /-- Forget a session and its lease. -/
  | forget (id : String)
  /-- Write the observations of the endpoints. -/
  | observe (observations : List Observation)

namespace Update

/-- The lease map after an update. -/
def onLeases (leases : LeaseMap) : Update → LeaseMap
  | .claim lease => leases.insert lease
  | .renew sessionId io => leases.modify sessionId (renewed io) (sessionId_renewed io)
  | .keepLeases keep => leases.retain keep
  | .forget id => leases.erase id
  | _ => leases

/-- The durable state after an update, which writes the lease map as a whole where it concerns
leases. -/
def apply (leases : LeaseMap) (update : Update) (state : IntentState) : IntentState :=
  match update with
  | .intents remove add => { state with endpoints := intended remove add state.endpoints }
  | .claim _ | .renew _ _ | .keepLeases _ =>
    { state with leases := leaseValues (update.onLeases leases) }
  | .record session =>
    { state with sessions := state.sessions.insert session.id session.toValue }
  | .forget id =>
    { state with sessions := state.sessions.erase id, leases := state.leases.erase id }
  | .observe observations =>
    { state with endpoints := (observations.foldl recordObservation (state.endpoints, false)).1 }

end Update

/-- The store and the leases after an operation that commits at most one update. -/
inductive Persists (codec : Codec) (before after : Supervisor) : Option Update → Prop where
  | quiet (hstore : after.store = before.store) (hleases : after.leases = before.leases) :
    Persists codec before after none
  | failed {update : Update} {io : CommitIo} {e : String}
      (hcommit : (commitStore codec io (update.apply before.leases) before.store).1 = .error e)
      (hstore : after.store =
        (commitStore codec io (update.apply before.leases) before.store).2)
      (hleases : after.leases = before.leases) : Persists codec before after (some update)
  | committed {update : Update} {io : CommitIo}
      (hcommit : (commitStore codec io (update.apply before.leases) before.store).1 = .ok ())
      (hstore : after.store =
        (commitStore codec io (update.apply before.leases) before.store).2)
      (hleases : after.leases = update.onLeases before.leases) :
    Persists codec before after (some update)

/-- Only the store and the leases of the supervisor before matter. -/
theorem Persists.of_endpoints {codec : Codec} {before after : Supervisor} {map : EndpointMap}
    {update : Option Update}
    (h : Persists codec { before with endpoints := map } after update) :
    Persists codec before after update := by
  cases h with
  | quiet hstore hleases => exact .quiet hstore hleases
  | failed hcommit hstore hleases => exact .failed hcommit hstore hleases
  | committed hcommit hstore hleases => exact .committed hcommit hstore hleases

/-- Memory afterwards, durable state and leases, is as before or has the committed update. -/
theorem Persists.memory {codec : Codec} {before after : Supervisor} {update : Option Update}
    (h : Persists codec before after update) :
    (after.durable = before.durable ∧ after.leases = before.leases) ∨
      ∃ committed, update = some committed ∧
        after.durable = before.durable.map (committed.apply before.leases) ∧
        after.leases = committed.onLeases before.leases := by
  cases h with
  | quiet hstore hleases => exact .inl ⟨congrArg (Option.map EndpointStore.state) hstore, hleases⟩
  | @failed update io e hcommit hstore hleases =>
    rcases state_commitStore codec io (update.apply before.leases) before.store with
      ⟨hok, -⟩ | ⟨-, hsame⟩
    · cases hok.symm.trans hcommit
    · exact .inl ⟨(congrArg (Option.map EndpointStore.state) hstore).trans hsame, hleases⟩
  | @committed update io hcommit hstore hleases =>
    rcases state_commitStore codec io (update.apply before.leases) before.store with
      ⟨-, hnew⟩ | ⟨⟨e, herror⟩, -⟩
    · exact .inr ⟨update, rfl, (congrArg (Option.map EndpointStore.state) hstore).trans hnew,
        hleases⟩
    · cases herror.symm.trans hcommit

section Operations

variable (codec : Codec) (sup : Supervisor)

/-- A commit after which the leases stay as they are, for an update that does not concern them. -/
theorem persists_of_commit (update : Update) (io : CommitIo) {after : Supervisor}
    (hstore : after.store = (commitStore codec io (update.apply sup.leases) sup.store).2)
    (hleases : after.leases = sup.leases) (hsame : update.onLeases sup.leases = sup.leases) :
    Persists codec sup after (some update) := by
  cases hcommit : (commitStore codec io (update.apply sup.leases) sup.store).1 with
  | ok _ => exact .committed hcommit hstore (hleases.trans hsame.symm)
  | error e => exact .failed hcommit hstore hleases

def stopUpdate (id : String) : Option Update :=
  if (sup.endpoints.get? id).isNone && !(sup.recoveryIntents.any fun pair ↦ pair.1 = id) then none
  else some (.intents [id] none)

theorem persists_stop (id : String) (io : StopIo) :
    Persists codec sup (sup.stop codec id io).sup (sup.stopUpdate id) := by
  unfold stop stopUpdate
  dsimp only
  split
  · exact .quiet rfl rfl
  · split
    · rename_i heq
      obtain ⟨-, rfl⟩ := commitWith_eq codec heq
      exact persists_of_commit codec sup (.intents [id] none) io.commit rfl rfl rfl
    · rename_i heq
      obtain ⟨-, rfl⟩ := commitWith_eq codec heq
      split
      · exact persists_of_commit codec sup (.intents [id] none) io.commit rfl rfl rfl
      · split <;> exact persists_of_commit codec sup (.intents [id] none) io.commit rfl rfl rfl

/-- Adopting the lease map of an update. -/
theorem persists_adoptLeases {α : Type} (io : CommitIo) (answer : α) (update : Update)
    (happly : (fun state : IntentState ↦
      { state with leases := leaseValues (update.onLeases sup.leases) }) =
        update.apply sup.leases) :
    Persists codec sup (adoptLeases codec io (update.onLeases sup.leases) answer sup).sup
      (some update) := by
  unfold adoptLeases persistLeases
  rw [happly]
  split
  · rename_i e failed heq
    obtain ⟨hcommit, rfl⟩ := commitWith_eq codec heq
    exact .failed hcommit rfl rfl
  · rename_i persisted heq
    obtain ⟨hcommit, rfl⟩ := commitWith_eq codec heq
    exact .committed hcommit rfl rfl

/-- The update a claim commits: none, if no ready endpoint serves the model. -/
def leaseUpdate (sessionId model : String) (io : LeaseIo) : Option Update :=
  (visit (fun _ ↦ true) (fun endpoint ↦ endpoint.model = model && endpoint.isReady) io.refresh
    sup.endpoints).found.map fun endpoint ↦
      .claim (grantedLease sessionId model endpoint.id io)

theorem persists_lease (sessionId model : String) (io : LeaseIo) :
    Persists codec sup (sup.lease codec sessionId model io).sup
      (sup.leaseUpdate sessionId model io) := by
  unfold lease leaseUpdate
  dsimp only
  split
  · rename_i hfound
    rw [hfound]
    exact .quiet rfl rfl
  · rename_i endpoint hfound
    rw [hfound]
    split
    · rename_i e failed heq
      obtain ⟨hcommit, rfl⟩ := commitWith_eq codec heq
      exact .failed hcommit rfl rfl
    · rename_i persisted heq
      obtain ⟨hcommit, rfl⟩ := commitWith_eq codec heq
      exact .committed hcommit rfl rfl

/-- The update a release commits: none, if the session has no lease. -/
def releaseUpdate (sessionId : String) : Option Update :=
  (sup.leases.get? sessionId).map fun _ ↦ .keepLeases fun lease ↦ lease.sessionId ≠ sessionId

theorem persists_release (sessionId : String) (io : CommitIo) :
    Persists codec sup (sup.release codec sessionId io).sup (sup.releaseUpdate sessionId) := by
  unfold release releaseUpdate
  cases sup.leases.get? sessionId with
  | none => exact .quiet rfl rfl
  | some lease =>
    exact persists_adoptLeases codec sup io true
      (.keepLeases fun lease ↦ lease.sessionId ≠ sessionId) rfl

/-- The update a heartbeat commits: none without a lease or for a recovered one. -/
def renewUpdate (sessionId : String) (io : RenewIo) : Option Update :=
  match sup.leases.get? sessionId with
  | none => none
  | some lease =>
    if lease.recovered then none
    else if lease.expired (epochSeconds io.checkedAt) io.checkedInstant then
      some (.keepLeases fun lease ↦ lease.sessionId ≠ sessionId)
    else some (.renew sessionId io)

theorem persists_renewLease (sessionId : String) (io : RenewIo) :
    Persists codec sup (sup.renewLease codec sessionId io).sup (sup.renewUpdate sessionId io) := by
  unfold renewLease renewUpdate
  cases sup.leases.get? sessionId with
  | none => exact .quiet rfl rfl
  | some lease =>
    dsimp only
    split
    · exact .quiet rfl rfl
    · split
      · exact persists_adoptLeases codec sup io.commit ()
          (.keepLeases fun lease ↦ lease.sessionId ≠ sessionId) rfl
      · exact persists_adoptLeases codec sup io.commit () (.renew sessionId io) rfl

/-- The update an expiry commits: none, if every lease is kept. -/
def expireUpdate (now : ℕ) (instants : String → Instant) : Option Update :=
  let keep (lease : Lease) := !lease.expired now (instants lease.sessionId)
  if (sup.leases.retain keep).entries.length ≠ sup.leases.entries.length then
    some (.keepLeases keep)
  else none

theorem persists_expireLeases (now : ℕ) (instants : String → Instant) (io : CommitIo) :
    Persists codec sup (sup.expireLeases codec now instants io).sup
      (sup.expireUpdate now instants) := by
  unfold expireLeases expireUpdate
  dsimp only
  split
  · exact persists_adoptLeases codec sup io ()
      (.keepLeases fun lease ↦ !lease.expired now (instants lease.sessionId)) rfl
  · exact .quiet rfl rfl

theorem persists_persistSession (session : SessionRecord) (io : CommitIo) :
    Persists codec sup (sup.persistSession codec session io).sup (some (.record session)) :=
  persists_of_commit codec sup (.record session) io rfl rfl rfl

theorem persists_removeSession (id : String) (io : CommitIo) :
    Persists codec sup (sup.removeSession codec id io).sup (some (.forget id)) := by
  unfold removeSession
  dsimp only
  split
  · rename_i e failed heq
    obtain ⟨hcommit, rfl⟩ := commitWith_eq codec heq
    exact .failed hcommit rfl rfl
  · rename_i committed heq
    obtain ⟨hcommit, rfl⟩ := commitWith_eq codec heq
    exact .committed hcommit rfl rfl

/-- The update the last phase of `maintain` commits: none, if no intent changes. -/
def observationsUpdate (observations : List Observation) : Option Update :=
  match sup.store with
  | none => none
  | some store =>
    if (observations.foldl recordObservation (store.state.endpoints, false)).2 then
      some (.observe observations)
    else none

theorem persists_persistObservations (observations : List Observation) (io : CommitIo) :
    Persists codec sup (sup.persistObservations codec observations io).sup
      (sup.observationsUpdate observations) := by
  unfold persistObservations observationsUpdate
  dsimp only
  cases sup.store with
  | none => exact .quiet rfl rfl
  | some store =>
    dsimp only
    split
    · exact persists_of_commit codec sup (.observe observations) io rfl rfl rfl
    · exact .quiet rfl rfl

theorem persists_evict (io : StartIo) (victims : List String) :
    Persists codec sup (evict codec io victims sup).2
      (if victims.isEmpty then none else some (.intents victims none)) := by
  unfold evict retractIntents
  cases hvictims : victims.isEmpty with
  | true => exact .quiet rfl rfl
  | false =>
    simp only [Bool.false_eq_true, if_false]
    split <;> rename_i heq
    · obtain ⟨-, rfl⟩ := commitWith_eq codec heq
      exact persists_of_commit codec sup (.intents victims none) io.retract rfl rfl rfl
    · obtain ⟨-, rfl⟩ := commitWith_eq codec heq
      exact persists_of_commit codec sup (.intents victims none) io.retract rfl rfl rfl

theorem persists_launch (req : StartRequest) (io : StartIo) :
    Persists codec sup (launch codec req io sup).sup
      (some (.intents [] (some (req.id, req.intent)))) := by
  unfold launch
  split <;> rename_i heq
  · obtain ⟨-, rfl⟩ := commitWith_eq codec heq
    exact persists_of_commit codec sup (.intents [] (some (req.id, req.intent))) io.intend
      rfl rfl rfl
  · obtain ⟨-, rfl⟩ := commitWith_eq codec heq
    exact persists_of_commit codec sup (.intents [] (some (req.id, req.intent))) io.intend
      rfl rfl rfl

/-- The supervisor between the two commits of a start, after the eviction. -/
def retracted (req : StartRequest) (io : StartIo) : Supervisor :=
  if sup.shuttingDown then sup
  else
    match (checkPort req io sup.endpoints).result, (decided req io sup).result with
    | .ok (), .ok victims =>
      (evict codec io victims { sup with endpoints := (decided req io sup).map }).2
    | _, _ => sup

/-- A start commits nothing, the retraction of its victims, or that and its own intent. -/
theorem persists_retracted (req : StartRequest) (io : StartIo) :
    ∃ early late, Persists codec sup (retracted codec sup req io) early ∧
      Persists codec (retracted codec sup req io) (start codec req io sup).sup late ∧
      (∀ update, early = some update → ∃ victims, update = .intents victims none) ∧
      (∀ update, late = some update → update = .intents [] (some (req.id, req.intent))) := by
  have hretraction (victims : List String) (update : Update)
      (h : (if victims.isEmpty then none else some (Update.intents victims none)) = some update) :
      ∃ victims, update = .intents victims none := by
    cases hvictims : victims.isEmpty with
    | true => simp [hvictims] at h
    | false => exact ⟨victims, by simpa [hvictims] using h.symm⟩
  have hnone {P : Update → Prop} (update : Update) (h : none = some update) : P update := by
    cases h
  have hstarted := started codec req io sup
  generalize start codec req io sup = out at hstarted
  unfold retracted
  cases hstarted with
  | latched hlatch =>
    rw [if_pos hlatch]
    exact ⟨none, none, .quiet rfl rfl, .quiet rfl rfl, hnone, hnone⟩
  | taken hlatch hport =>
    rw [if_neg (by simp [hlatch]), hport]
    exact ⟨none, none, .quiet rfl rfl, .quiet rfl rfl, hnone, hnone⟩
  | refused hlatch hport hdecided =>
    rw [if_neg (by simp [hlatch]), hport, hdecided]
    exact ⟨none, none, .quiet rfl rfl, .quiet rfl rfl, hnone, hnone⟩
  | @unevicted _ victims hlatch hport hdecided _ =>
    rw [if_neg (by simp [hlatch]), hport, hdecided]
    exact ⟨_, none, (persists_evict codec _ io victims).of_endpoints, .quiet rfl rfl,
      hretraction victims, hnone⟩
  | @launched victims hlatch hport hdecided _ launched hlaunch =>
    rw [if_neg (by simp [hlatch]), hport, hdecided]
    refine ⟨_, _, (persists_evict codec _ io victims).of_endpoints,
      hlaunch ▸ persists_launch codec _ req io, hretraction victims, ?_⟩
    intro update hupdate
    exact (Option.some.inj hupdate).symm

theorem persists_start (req : StartRequest) (io : StartIo) :
    ∃ middle early late, Persists codec sup middle early ∧
      Persists codec middle (start codec req io sup).sup late ∧
      (∀ update, early = some update → ∃ victims, update = .intents victims none) ∧
      (∀ update, late = some update → update = .intents [] (some (req.id, req.intent))) :=
  ⟨retracted codec sup req io, persists_retracted codec sup req io⟩

end Operations

/-! ## Calls as steps -/

def Call.update (sys : Sys) : Call → Option Update
  | .stop id _ => sys.sup.stopUpdate id
  | .lease sessionId model io => sys.sup.leaseUpdate sessionId model io
  | .release sessionId _ => sys.sup.releaseUpdate sessionId
  | .renewLease sessionId io => sys.sup.renewUpdate sessionId io
  | .persistSession session _ => some (.record session)
  | .removeSession id _ => some (.forget id)
  | .expireLeases now instants _ =>
    match sys.maintenance with
    | .idle => sys.sup.expireUpdate (epochSeconds now) instants
    | _ => none
  | .persistObservations _ =>
    match sys.maintenance with
    | .observed observations => sys.sup.observationsUpdate observations
    | _ => none
  | _ => none

/-- A call commits its update and nothing else. -/
theorem persists_perform (codec : Codec) (sys : Sys) (call : Call) :
    Persists codec sys.sup (call.perform codec sys).sup (call.update sys) := by
  cases call with
  | stop id io => exact persists_stop codec sys.sup id io
  | lease sessionId model io => exact persists_lease codec sys.sup sessionId model io
  | release sessionId io => exact persists_release codec sys.sup sessionId io
  | renewLease sessionId io => exact persists_renewLease codec sys.sup sessionId io
  | leaseStatus sessionId io =>
    simp only [Call.perform, Sys.after, leaseStatus, Call.update]
    split <;> exact .quiet rfl rfl
  | persistSession session io => exact persists_persistSession codec sys.sup session io
  | removeSession id io => exact persists_removeSession codec sys.sup id io
  | expireLeases now instants io =>
    cases hphase : sys.maintenance with
    | idle =>
      simp only [Call.perform, Call.update, hphase]
      exact persists_expireLeases codec sys.sup (epochSeconds now) instants io
    | _ =>
      simp only [Call.perform, Call.update, hphase]
      exact .quiet rfl rfl
  | persistObservations io =>
    cases hphase : sys.maintenance with
    | observed observations =>
      simp only [Call.perform, Call.update, hphase]
      exact persists_persistObservations codec sys.sup observations io
    | _ =>
      simp only [Call.perform, Call.update, hphase]
      exact .quiet rfl rfl
  | schedule io | probe answers | applyProbes now =>
    simp only [Call.perform]
    split <;> exact .quiet rfl rfl
  | _ => exact .quiet rfl rfl

inductive Commits (sys : Sys) : Call → Update → Prop where
  | retract (id : String) (io : StopIo) : Commits sys (.stop id io) (.intents [id] none)
  | claim {sessionId model : String} {io : LeaseIo} {endpoint : Endpoint}
      (hfound : (visit (fun _ ↦ true) (fun endpoint ↦ endpoint.model = model && endpoint.isReady)
        io.refresh sys.sup.endpoints).found = some endpoint) :
    Commits sys (.lease sessionId model io) (.claim (grantedLease sessionId model endpoint.id io))
  | renew {sessionId : String} {io : RenewIo} {lease : Lease}
      (hlease : sys.sup.leases.get? sessionId = some lease) (hactive : lease.recovered = false) :
    Commits sys (.renewLease sessionId io) (.renew sessionId io)
  | keepLeases {call : Call} (keep : Lease → Bool) : Commits sys call (.keepLeases keep)
  | record (session : SessionRecord) (io : CommitIo) :
    Commits sys (.persistSession session io) (.record session)
  | forget (id : String) (io : CommitIo) : Commits sys (.removeSession id io) (.forget id)
  | observe {observations : List Observation} {io : CommitIo}
      (hphase : sys.maintenance = .observed observations) :
    Commits sys (.persistObservations io) (.observe observations)

theorem commits_of_update {sys : Sys} {call : Call} {update : Update}
    (h : call.update sys = some update) : Commits sys call update := by
  cases call with
  | stop id io =>
    simp only [Call.update, stopUpdate] at h
    split at h
    · cases h
    · cases h
      exact .retract id io
  | lease sessionId model io =>
    obtain ⟨endpoint, hfound, heq⟩ := Option.map_eq_some_iff.mp h
    cases heq
    exact .claim hfound
  | release sessionId io =>
    obtain ⟨lease, -, heq⟩ := Option.map_eq_some_iff.mp h
    cases heq
    exact .keepLeases _
  | renewLease sessionId io =>
    simp only [Call.update, renewUpdate] at h
    split at h
    · cases h
    · rename_i lease hlease
      split at h
      · cases h
      · rename_i hactive
        split at h
        · cases h
          exact .keepLeases _
        · cases h
          exact .renew hlease (by simpa using hactive)
  | persistSession session io =>
    cases h
    exact .record session io
  | removeSession id io =>
    cases h
    exact .forget id io
  | expireLeases now instants io =>
    simp only [Call.update] at h
    split at h
    · simp only [expireUpdate] at h
      split at h
      · cases h
        exact .keepLeases _
      · cases h
    · cases h
  | persistObservations io =>
    simp only [Call.update] at h
    split at h
    · rename_i observations hphase
      simp only [observationsUpdate] at h
      split at h
      · cases h
      · split at h
        · cases h
          exact .observe hphase
        · cases h
    · cases h
  | _ => cases h

/-- A session's lease after a committed call: the one before, a claimed one, or an active one that
was renewed. -/
theorem Commits.lease_cases {sys : Sys} {call : Call} {update : Update}
    (h : Commits sys call update) {sessionId : String} {lease : Lease}
    (hlease : (update.onLeases sys.sup.leases).get? sessionId = some lease) :
    sys.sup.leases.get? sessionId = some lease ∨
      (∃ model io endpoint, call = .lease sessionId model io ∧
        (visit (fun _ ↦ true) (fun endpoint ↦ endpoint.model = model && endpoint.isReady)
          io.refresh sys.sup.endpoints).found = some endpoint ∧
        lease = grantedLease sessionId model endpoint.id io) ∨
      ∃ io old, sys.sup.leases.get? sessionId = some old ∧ old.recovered = false ∧
        lease = renewed io old := by
  cases h with
  | @claim claimant model io endpoint hfound =>
    rw [Update.onLeases, Keyed.Table.get?_insert] at hlease
    split at hlease
    · rename_i hown
      have hclaimant : claimant = sessionId := hown
      subst hclaimant
      cases hlease
      exact .inr (.inl ⟨model, io, endpoint, rfl, hfound, rfl⟩)
    · exact .inl hlease
  | @renew renewing io old hold hactive =>
    rw [Update.onLeases, Keyed.Table.get?_modify sys.sup.leases renewing sessionId (renewed io)
      fun _ ↦ rfl] at hlease
    split at hlease
    · rename_i hown
      subst hown
      rw [hold] at hlease
      cases hlease
      exact .inr (.inr ⟨io, old, hold, hactive, rfl⟩)
    · exact .inl hlease
  | keepLeases keep =>
    rw [Update.onLeases, Keyed.Table.get?_retain] at hlease
    exact .inl (Option.filter_eq_some_iff.mp hlease).1
  | forget id io =>
    rw [Update.onLeases, Keyed.Table.erase, Keyed.Table.get?_retain] at hlease
    exact .inl (Option.filter_eq_some_iff.mp hlease).1
  | _ => exact .inl hlease

end Cameo.Supervisor
