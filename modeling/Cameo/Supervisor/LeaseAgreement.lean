import Cameo.Supervisor.Persistence

/-!
# Agreement of the lease map with the durable leases

The lease map and the leases of the durable state describe the same sessions, models, endpoints
and deadlines: an opening establishes this, every update changes both sides alike, and an update
that cannot be committed changes neither.
-/

namespace Cameo.Supervisor

open Json Library Store

/-- The durable part of a session's lease, as memory has it. -/
def leaseRecord (leases : LeaseMap) (sessionId : String) : Option LeaseRecord :=
  (leases.get? sessionId).map Lease.record

/-- The durable part of a session's lease, as the durable state has it: the inner option is for a
value that is no lease. -/
def durableRecord (state : IntentState) (sessionId : String) : Option (Option LeaseRecord) :=
  (state.leases.get? sessionId).map fun value ↦ (Lease.fromValue value).map Lease.record

/-- The lease map and a durable state have the same leases. -/
def LeasesAgree (leases : LeaseMap) (state : IntentState) : Prop :=
  ∀ sessionId, durableRecord state sessionId = (leaseRecord leases sessionId).map some

/-- The lease map agrees with the durable state, if there is one. -/
def Agrees (sup : Supervisor) : Prop :=
  ∀ state, sup.durable = some state → LeasesAgree sup.leases state

/-! ## Updates -/

theorem get?_leaseValues (leases : LeaseMap) (sessionId : String) :
    (leaseValues leases).get? sessionId = (leases.get? sessionId).map Lease.toValue := by
  have hnodup : ((leases.entries.map fun lease ↦ (lease.sessionId, lease.toValue)).map
      Prod.fst).Nodup := by
    rw [List.map_map]
    exact leases.nodup
  rw [leaseValues, Ordered.Map.get?_ofList hnodup, List.find?_map, Keyed.Table.get?]
  simp only [Function.comp_def, Option.map_map]

theorem record_fromValue_toValue (lease : Lease) :
    (Lease.fromValue lease.toValue).map Lease.record = some lease.record := by
  rw [Lease.fromValue_toValue]
  rfl

theorem leasesAgree_leaseValues (leases : LeaseMap) {state : IntentState}
    (h : state.leases = leaseValues leases) : LeasesAgree leases state := by
  intro sessionId
  rw [durableRecord, h, get?_leaseValues, leaseRecord]
  cases leases.get? sessionId with
  | none => rfl
  | some lease => exact congrArg some (record_fromValue_toValue lease)

/-- An update changes both sides alike. -/
theorem leasesAgree_apply (update : Update) {leases : LeaseMap} {state : IntentState}
    (h : LeasesAgree leases state) :
    LeasesAgree (update.onLeases leases) (update.apply leases state) := by
  cases update with
  | intents remove add => exact h
  | claim lease => exact leasesAgree_leaseValues _ rfl
  | renew sessionId io => exact leasesAgree_leaseValues _ rfl
  | keepLeases keep => exact leasesAgree_leaseValues _ rfl
  | record session => exact h
  | observe observations => exact h
  | forget id =>
    intro sessionId
    have hbefore := h sessionId
    simp only [durableRecord, leaseRecord, Update.apply, Update.onLeases, Ordered.Map.get?_erase]
      at hbefore ⊢
    by_cases hid : sessionId = id
    · rw [if_pos hid, hid, Keyed.Table.get?_erase_self]
      rfl
    · rw [if_neg hid, Keyed.Table.get?_erase_of_ne _ hid]
      exact hbefore

/-- What persists keeps the agreement. -/
theorem Persists.agrees {codec : Codec} {before after : Supervisor} {update : Option Update}
    (h : Persists codec before after update) (hbefore : Agrees before) : Agrees after := by
  intro state hstate
  rcases h.memory with ⟨hdurable, hleases⟩ | ⟨committed, -, hdurable, hleases⟩
  · rw [hleases]
    exact hbefore state (hdurable ▸ hstate)
  · rw [hdurable] at hstate
    obtain ⟨old, hold, rfl⟩ := Option.map_eq_some_iff.mp hstate
    rw [hleases]
    exact leasesAgree_apply committed (hbefore old hold)

theorem agrees_step (codec : Codec) (sys : Sys) (label : Label) (h : Agrees sys.sup) :
    Agrees (sys.step codec label).sup := by
  cases label with
  | start req io =>
    obtain ⟨middle, early, late, hearly, hlate, -, -⟩ := persists_start codec sys.sup req io
    exact hlate.agrees (hearly.agrees h)
  | call call => exact (persists_perform codec sys call).agrees h

/-! ## Openings -/

/-- What a recovered lease is made of. -/
theorem recoverLease_ok {now : ℕ} {instant : Instant} {id : String} {value : Value} {lease : Lease}
    (h : recoverLease now instant id value = .ok lease) :
    ∃ persisted, Lease.fromValue value = some persisted ∧ persisted.sessionId = id ∧
      lease = { persisted with
        recovered := true
        expiresAt := boundedDeadline now persisted.expiresAt
        renewedAt := some instant } := by
  unfold recoverLease at h
  cases hvalue : Lease.fromValue value with
  | none => rw [hvalue] at h; cases h
  | some persisted =>
    rw [hvalue] at h
    dsimp only at h
    split at h
    · cases h
    · rename_i hidentity
      simp only [not_or, not_not] at hidentity
      cases h
      exact ⟨persisted, rfl, hidentity.1, rfl⟩

/-- The recovery loop recovers each persisted lease under its own id, and keeps the rest. -/
theorem get?_recoverLeases {now : ℕ} {instants : String → Instant}
    {persisted : List (String × Value)} {leases recovered : LeaseMap}
    (hnodup : (persisted.map Prod.fst).Nodup)
    (h : recoverLeases now instants persisted leases = .ok recovered) (id : String) :
    (∃ value lease, (id, value) ∈ persisted ∧
        recoverLease now (instants id) id value = .ok lease ∧ recovered.get? id = some lease) ∨
      ((∀ value, (id, value) ∉ persisted) ∧ recovered.get? id = leases.get? id) := by
  induction persisted generalizing leases with
  | nil =>
    cases h
    exact .inr ⟨fun _ ↦ List.not_mem_nil, rfl⟩
  | cons head rest ih =>
    obtain ⟨key, value⟩ := head
    obtain ⟨hfresh, hrest⟩ := List.nodup_cons.mp hnodup
    rw [recoverLeases] at h
    cases hlease : recoverLease now (instants key) key value with
    | error e => rw [hlease] at h; cases h
    | ok lease =>
      rw [hlease] at h
      obtain ⟨parsed, -, hkey, hshape⟩ := recoverLease_ok hlease
      have hleaseKey : lease.sessionId = key := by rw [hshape]; exact hkey
      rcases ih hrest h with ⟨other, found, hmem, hfound, hget⟩ | ⟨hnone, hget⟩
      · exact .inl ⟨other, found, List.mem_cons_of_mem _ hmem, hfound, hget⟩
      · rw [Keyed.Table.get?_insert, hleaseKey] at hget
        by_cases hid : key = id
        · subst hid
          rw [if_pos rfl] at hget
          exact .inl ⟨value, lease, List.mem_cons_self, hlease, hget⟩
        · rw [if_neg hid] at hget
          refine .inr ⟨?_, hget⟩
          intro other hmem
          rcases List.mem_cons.mp hmem with heq | hmem
          · exact hid (congrArg Prod.fst heq).symm
          · exact hnone other hmem

/-- Writing the recovered leases over the persisted ones. -/
theorem get?_migratedLeases (leases : LeaseMap) (values : Ordered.Map String Value)
    (id : String) :
    (migratedLeases leases values).get? id =
      ((leases.get? id).map Lease.toValue).or (values.get? id) := by
  obtain ⟨entries, nodup⟩ := leases
  unfold migratedLeases Keyed.Table.get?
  dsimp only
  induction entries generalizing values with
  | nil => rfl
  | cons lease rest ih =>
    obtain ⟨hfresh, hrest⟩ := List.nodup_cons.mp nodup
    rw [List.foldl_cons, ih _ hrest, Ordered.Map.get?_insert]
    by_cases hid : lease.sessionId = id
    · have hnone : rest.find? (fun lease ↦ lease.sessionId = id) = none := by
        rw [List.find?_eq_none]
        intro other hmem
        have hne : other.sessionId ≠ id := fun heq ↦
          hfresh (List.mem_map.mpr ⟨other, hmem, heq.trans hid.symm⟩)
        simpa using hne
      rw [hnone, if_pos hid, List.find?_cons_of_pos (by simpa using hid)]
      rfl
    · rw [if_neg hid, List.find?_cons_of_neg (by simpa using hid)]

/-- An opening leaves the lease map in agreement with the durable state. -/
theorem agrees_open {codec : Codec} {io : SupervisorOpenIo} {directory : Directory}
    {sup : Supervisor} (h : (Supervisor.open codec io directory).result = .ok sup) :
    Agrees sup := by
  obtain ⟨-, -, store, -, hleases, hcommitted⟩ := open_ok codec h
  have hrecovered := get?_recoverLeases store.state.leases.nodup_keys hleases
  rcases hcommitted with ⟨hmigrated, hstore⟩ | ⟨committed, hcommit, hstore⟩
  · intro state hstate sessionId
    rw [durable, hstore] at hstate
    cases hstate
    rw [durableRecord, leaseRecord]
    rcases hrecovered sessionId with ⟨value, lease, hmem, hlease, hget⟩ | ⟨hnone, hget⟩
    · obtain ⟨persisted, hvalue, -, rfl⟩ := recoverLease_ok hlease
      have hsame : persisted.expiresAt =
          boundedDeadline (epochSeconds io.now) persisted.expiresAt := by
        have hnot := List.any_eq_false.mp hmigrated (sessionId, value) hmem
        simpa [hvalue] using hnot
      rw [(store.state.leases.mem_entries_iff sessionId value).mp hmem, hget]
      simp only [Option.map_some, hvalue, Lease.record, ← hsame]
    · rw [Ordered.Map.get?_eq_none_of_forall hnone, hget]
      rfl
  · intro state hstate sessionId
    have hnew := EndpointStore.state_commit_of_ok (congrArg Prod.fst hcommit)
    rw [hcommit] at hnew
    rw [durable, hstore] at hstate
    cases hstate
    rw [durableRecord, leaseRecord, hnew, get?_migratedLeases]
    rcases hrecovered sessionId with ⟨value, lease, hmem, hlease, hget⟩ | ⟨hnone, hget⟩
    · rw [hget]
      exact congrArg some (record_fromValue_toValue lease)
    · rw [Ordered.Map.get?_eq_none_of_forall hnone, hget]
      rfl

theorem Initial.agrees {codec : Codec} {sup : Supervisor} (h : Initial codec sup) :
    Agrees sup := by
  cases h with
  | default =>
    intro state hstate
    have hnone : none = some state := hstate
    cases hnone
  | opened h => exact agrees_open h

/-! ## Storage errors -/

def Unchanged (before after : Supervisor) : Prop :=
  after.leases = before.leases ∧ after.durable = before.durable

section Errors

variable {codec : Codec} {sup : Supervisor} {e : String}

theorem unchanged_adoptLeases {α : Type} {io : CommitIo} {next : LeaseMap} {answer : α}
    (h : (adoptLeases codec io next answer sup).result = .error e) :
    Unchanged sup (adoptLeases codec io next answer sup).sup := by
  unfold adoptLeases at h ⊢
  split at h
  · rename_i failed heq
    have hdurable := durable_commitWith_of_error codec (congrArg Prod.fst heq)
    obtain ⟨-, rfl⟩ := commitWith_eq codec heq
    exact ⟨rfl, hdurable⟩
  · cases h

theorem unchanged_lease {sessionId model : String} {io : LeaseIo}
    (h : (sup.lease codec sessionId model io).result = .error (.persistence e)) :
    Unchanged sup (sup.lease codec sessionId model io).sup := by
  unfold lease at h ⊢
  dsimp only at h ⊢
  split at h
  · cases h
  · split at h
    · rename_i failed heq
      have hdurable := durable_commitWith_of_error codec (congrArg Prod.fst heq)
      obtain ⟨-, rfl⟩ := commitWith_eq codec heq
      exact ⟨rfl, hdurable⟩
    · cases h

theorem unchanged_release {sessionId : String} {io : CommitIo}
    (h : (sup.release codec sessionId io).result = .error e) :
    Unchanged sup (sup.release codec sessionId io).sup := by
  unfold release at h ⊢
  split at h
  · cases h
  · exact unchanged_adoptLeases h

theorem unchanged_renewLease {sessionId : String} {io : RenewIo}
    (h : (sup.renewLease codec sessionId io).result = .error e) :
    Unchanged sup (sup.renewLease codec sessionId io).sup := by
  revert h
  unfold renewLease
  split
  · exact nofun
  · split
    · exact nofun
    · split <;> exact unchanged_adoptLeases

theorem unchanged_expireLeases {now : ℕ} {instants : String → Instant} {io : CommitIo}
    (h : (sup.expireLeases codec now instants io).result = .error e) :
    Unchanged sup (sup.expireLeases codec now instants io).sup := by
  revert h
  unfold expireLeases
  dsimp only
  split
  · exact unchanged_adoptLeases
  · exact nofun

theorem unchanged_removeSession {id : String} {io : CommitIo}
    (h : (sup.removeSession codec id io).result = .error e) :
    Unchanged sup (sup.removeSession codec id io).sup := by
  unfold removeSession at h ⊢
  dsimp only at h ⊢
  split at h
  · rename_i failed heq
    have hdurable := durable_commitWith_of_error codec (congrArg Prod.fst heq)
    obtain ⟨-, rfl⟩ := commitWith_eq codec heq
    exact ⟨rfl, hdurable⟩
  · cases h

end Errors

/-- The lease operations, as far as a storage error goes. -/
structure StorageErrorsUnchanged (codec : Codec) (sup : Supervisor) : Prop where
  lease : ∀ sessionId model io e,
    (sup.lease codec sessionId model io).result = .error (.persistence e) →
      Unchanged sup (sup.lease codec sessionId model io).sup
  release : ∀ sessionId io e, (sup.release codec sessionId io).result = .error e →
    Unchanged sup (sup.release codec sessionId io).sup
  renew : ∀ sessionId io e, (sup.renewLease codec sessionId io).result = .error e →
    Unchanged sup (sup.renewLease codec sessionId io).sup
  expire : ∀ now instants io e, (sup.expireLeases codec now instants io).result = .error e →
    Unchanged sup (sup.expireLeases codec now instants io).sup
  remove : ∀ id io e, (sup.removeSession codec id io).result = .error e →
    Unchanged sup (sup.removeSession codec id io).sup

/-- After every run, the lease map agrees with the durable leases, and a lease operation that
returns a storage error leaves both as they are. -/
theorem leases_agree_run {codec : Codec} {sup : Supervisor} (hinitial : Initial codec sup)
    (labels : List Label) :
    Agrees ((Sys.fresh sup).run codec labels).sup ∧
      StorageErrorsUnchanged codec ((Sys.fresh sup).run codec labels).sup := by
  constructor
  · exact Run.invariant_run_of_step (fun sys : Sys ↦ Agrees sys.sup)
      (fun sys label h ↦ agrees_step codec sys label h) labels hinitial.agrees
  · exact ⟨fun _ _ _ _ ↦ unchanged_lease, fun _ _ _ ↦ unchanged_release,
      fun _ _ _ ↦ unchanged_renewLease, fun _ _ _ _ ↦ unchanged_expireLeases,
      fun _ _ _ ↦ unchanged_removeSession⟩

/-- The digest and the length of the first snapshot of an empty state. -/
def emptyStateCodec : Codec :=
  ⟨fun _ ↦ "b91358b16668157c8953135cc2c252003d1897c4ef872161d83f4b1617eb46eb", fun _ ↦ 129⟩

/-- On an empty store, a session that never claimed anything is removed. -/
theorem leases_agree_run_openedEmpty :
    let sup := ((Sys.fresh openedEmpty).run emptyStateCodec
      [.call (.removeSession "session" (.ok "06"))]).sup
    Agrees sup ∧ StorageErrorsUnchanged emptyStateCodec sup :=
  leases_agree_run (initial_openedEmpty _) _

end Cameo.Supervisor
