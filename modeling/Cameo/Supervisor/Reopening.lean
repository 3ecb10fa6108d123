import Cameo.Store.Archive
import Cameo.Supervisor.LeaseAgreement

/-!
# Reopening what was committed

`commit` checks how much it writes and an opening checks what it reads, so what is written has to
be accepted later because of what the operations put into it.  `Restorable` is what an opening asks
of a durable state; every update keeps it, as long as the leases it claims and the sessions it
records have names.

An opening writes as well: it moves deadlines that lie too far ahead of its clock, and it has to
commit that.  The reopening of a restorable state can therefore fail, namely if the clock has been
set back and the moved deadlines cannot be committed any more.
-/

namespace Cameo.Supervisor

open Json Library Store

/-! ## States that an opening accepts -/

structure Lease.Proper (lease : Lease) : Prop where
  sessionId : lease.sessionId ≠ ""
  model : lease.model ≠ ""
  endpointId : lease.endpointId ≠ ""
  expiresAt : lease.expiresAt ≠ 0

def ProperLeases (leases : LeaseMap) : Prop :=
  ∀ id lease, leases.get? id = some lease → lease.Proper

/-- A persisted value is a proper lease of a session. -/
def ReadsProper (id : String) (value : Value) : Prop :=
  ∃ lease, Lease.fromValue value = some lease ∧ lease.sessionId = id ∧ lease.Proper

/-- A durable state that an opening accepts. -/
structure Restorable (state : IntentState) : Prop where
  leases : ∀ id value, state.leases.get? id = some value → ReadsProper id value
  sessions : ∀ id value, state.sessions.get? id = some value → sessionIdentityOk (id, value)

/-- The updates that claim proper leases and record named sessions only. -/
def Update.Named : Update → Prop
  | .claim lease => lease.Proper
  | .record session => session.id ≠ ""
  | _ => True

theorem saturatingAdd_ttl_ne_zero (now : ℕ) : saturatingAdd now leaseTtlSecs ≠ 0 := by
  unfold saturatingAdd leaseTtlSecs u64Max
  omega

theorem boundedDeadline_ne_zero (now deadline : ℕ) : boundedDeadline now deadline ≠ 0 := by
  have hbound := saturatingAdd_ttl_ne_zero now
  unfold boundedDeadline
  split <;> omega

theorem asStr_index (field : String) (value : Value) :
    (value.index field).asStr = (value.get? field).bind Value.asStr := by
  unfold Value.index
  cases value.get? field <;> rfl

/-- The fields of a value that reads as a lease. -/
theorem fields_of_fromValue {value : Value} {lease : Lease}
    (h : Lease.fromValue value = some lease) :
    (value.index "session_id").asStr = some lease.sessionId ∧
      (value.index "model").asStr = some lease.model ∧
      (value.index "endpoint_id").asStr = some lease.endpointId := by
  simp only [Lease.fromValue, Option.bind_eq_bind, Option.bind_eq_some_iff, Option.pure_def] at h
  obtain ⟨sessionId, hsession, model, hmodel, endpointId, hendpoint, expiresAt, -, hlease⟩ := h
  cases hlease
  refine ⟨?_, ?_, ?_⟩ <;> rw [asStr_index] <;> exact Option.bind_eq_some_iff.mpr ‹_›

theorem readsProper_toValue {lease : Lease} (h : lease.Proper) :
    ReadsProper lease.sessionId lease.toValue :=
  ⟨_, lease.fromValue_toValue, rfl, h.sessionId, h.model, h.endpointId, h.expiresAt⟩

/-- `read_snapshot` accepts a restorable state. -/
theorem Restorable.readable {state : IntentState} (h : Restorable state) : state.Readable := by
  constructor
  · rw [List.all_eq_true]
    rintro ⟨id, value⟩ hmem
    obtain ⟨lease, hvalue, rfl, hproper⟩ :=
      h.leases id value ((state.leases.mem_entries_iff id value).mp hmem)
    obtain ⟨hsession, hmodel, hendpoint⟩ := fields_of_fromValue hvalue
    simp [leaseIdentityOk, hsession, hmodel, hendpoint, hproper.sessionId, hproper.model,
      hproper.endpointId]
  · rw [List.all_eq_true]
    rintro ⟨id, value⟩ hmem
    exact h.sessions id value ((state.sessions.mem_entries_iff id value).mp hmem)

/-! ## Updates -/

section Updates

variable {leases : LeaseMap} {state : IntentState} {update : Update}

theorem properLeases_onLeases (h : ProperLeases leases) (hnamed : update.Named) :
    ProperLeases (update.onLeases leases) := by
  intro id lease hlease
  cases update with
  | claim claimed =>
    rw [Update.onLeases, Keyed.Table.get?_insert] at hlease
    split at hlease
    · cases hlease
      exact hnamed
    · exact h id lease hlease
  | renew sessionId io =>
    rw [Update.onLeases, Keyed.Table.get?_modify _ _ _ _ (sessionId_renewed io)] at hlease
    split at hlease
    · obtain ⟨old, hold, rfl⟩ := Option.map_eq_some_iff.mp hlease
      obtain ⟨hsession, hmodel, hendpoint, -⟩ := h _ old hold
      exact ⟨hsession, hmodel, hendpoint, saturatingAdd_ttl_ne_zero _⟩
    · exact h id lease hlease
  | keepLeases keep =>
    rw [Update.onLeases, Keyed.Table.get?_retain] at hlease
    exact h id lease (Option.filter_eq_some_iff.mp hlease).1
  | forget forgotten =>
    rw [Update.onLeases, Keyed.Table.erase, Keyed.Table.get?_retain] at hlease
    exact h id lease (Option.filter_eq_some_iff.mp hlease).1
  | intents _ _ | record _ | observe _ => exact h id lease hlease

/-- Writing out a map of proper leases. -/
theorem readsProper_leaseValues (h : ProperLeases leases) {id : String} {value : Value}
    (hvalue : (leaseValues leases).get? id = some value) : ReadsProper id value := by
  rw [get?_leaseValues] at hvalue
  obtain ⟨lease, hlease, rfl⟩ := Option.map_eq_some_iff.mp hvalue
  have hid : lease.sessionId = id := Keyed.Table.key_of_get? hlease
  exact hid ▸ readsProper_toValue (h id lease hlease)

theorem sessionIdentityOk_record {session : SessionRecord} (h : session.id ≠ "") :
    sessionIdentityOk (session.id, session.toValue) := by
  have hid : session.toValue.get? "id" = some (.string session.id) := by
    rw [SessionRecord.toValue, Value.get?_ofFields (by simp)]
    rfl
  simp [sessionIdentityOk, Value.index, hid, Value.asStr, h]

/-- Every update of the operations keeps a state restorable. -/
theorem restorable_apply (hleases : ProperLeases leases) (h : Restorable state)
    (hnamed : update.Named) : Restorable (update.apply leases state) := by
  have hnext := properLeases_onLeases hleases hnamed
  cases update with
  | intents remove add => exact ⟨h.leases, h.sessions⟩
  | claim _ | renew _ _ | keepLeases _ =>
    exact ⟨fun id value ↦ readsProper_leaseValues hnext, h.sessions⟩
  | record session =>
    refine ⟨h.leases, fun id value hvalue ↦ ?_⟩
    rw [Update.apply, Ordered.Map.get?_insert] at hvalue
    split at hvalue
    · rename_i hid
      cases hvalue
      exact hid ▸ sessionIdentityOk_record hnamed
    · exact h.sessions id value hvalue
  | forget forgotten =>
    refine ⟨fun id value hvalue ↦ ?_, fun id value hvalue ↦ ?_⟩ <;>
      rw [Update.apply, Ordered.Map.get?_erase] at hvalue <;> split at hvalue
    · cases hvalue
    · exact h.leases id value hvalue
    · cases hvalue
    · exact h.sessions id value hvalue
  | observe observations => exact ⟨h.leases, h.sessions⟩

end Updates

/-! ## Operations -/

/-- A supervisor whose leases are proper and whose durable state an opening accepts. -/
structure Orderly (sup : Supervisor) : Prop where
  leases : ProperLeases sup.leases
  store : ∀ store, sup.store = some store → store.Bounded ∧ Restorable store.state

/-- The store after an operation that commits at most once, if its commit has succeeded. -/
def acknowledged (before after : Supervisor) : Option EndpointStore :=
  before.store.bind fun old ↦ after.store.filter fun new ↦ old.generation < new.generation

section Operations

variable {codec : Codec} {before after : Supervisor}

/-- After a commit, the store is acknowledged exactly if the commit has succeeded. -/
theorem acknowledged_commit {io : CommitIo} {update : IntentState → IntentState}
    {old : EndpointStore} (hbefore : before.store = some old)
    (hafter : after.store = (commitStore codec io update before.store).2) :
    acknowledged before after =
      match (old.commit codec io (update old.state)).1 with
      | .ok () => some (old.commit codec io (update old.state)).2
      | .error _ => none := by
  have hiff := @EndpointStore.ok_iff_generation_lt codec io old (update old.state)
  rw [acknowledged, hafter, hbefore]
  simp only [commitStore, Option.bind_some, Option.filter_some]
  cases hresult : (old.commit codec io (update old.state)).1 with
  | ok _ => rw [if_pos (by simpa using hiff.mp hresult)]
  | error e =>
    rw [if_neg]
    intro hlt
    cases hresult.symm.trans (hiff.mpr (by simpa using hlt))

/-- What the store becomes in a commit of a restorable state. -/
theorem orderly_commit {io : CommitIo} {old : EndpointStore} {state : IntentState}
    (hold : old.Bounded ∧ Restorable old.state) (hstate : Restorable state) :
    (old.commit codec io state).2.Bounded ∧ Restorable (old.commit codec io state).2.state := by
  refine ⟨EndpointStore.bounded_commit codec io state hold.1, ?_⟩
  rcases EndpointStore.state_commit codec io old state with ⟨-, hnew, -⟩ | ⟨-, hsame, -⟩
  · rw [hnew]
    exact hstate
  · rw [hsame]
    exact hold.2

variable {update : Option Update}

/-- What a named update leaves behind is orderly. -/
theorem Persists.orderly (h : Persists codec before after update) (hbefore : Orderly before)
    (hnamed : ∀ applied, update = some applied → applied.Named) : Orderly after := by
  have hcommit (applied : Update) (io : CommitIo) (happlied : applied.Named)
      (hstore : after.store = (commitStore codec io (applied.apply before.leases) before.store).2)
      (store : EndpointStore) (hsome : after.store = some store) :
      store.Bounded ∧ Restorable store.state := by
    rw [hstore] at hsome
    cases hold : before.store with
    | none => rw [hold] at hsome; cases hsome
    | some old =>
      rw [hold] at hsome
      cases hsome
      have hkept := hbefore.store old hold
      exact orderly_commit hkept (restorable_apply hbefore.leases hkept.2 happlied)
  cases h with
  | quiet hstore hleases =>
    exact ⟨hleases ▸ hbefore.leases, fun store hsome ↦ hbefore.store store (hstore ▸ hsome)⟩
  | failed _ hstore hleases =>
    exact ⟨hleases ▸ hbefore.leases, hcommit _ _ (hnamed _ rfl) hstore⟩
  | committed _ hstore hleases =>
    exact ⟨hleases ▸ properLeases_onLeases hbefore.leases (hnamed _ rfl),
      hcommit _ _ (hnamed _ rfl) hstore⟩

/-- A successful commit of an operation leaves its directory committed, with a restorable state. -/
theorem Persists.committed_of_acknowledged (h : Persists codec before after update)
    (hbefore : Orderly before) (hnamed : ∀ applied, update = some applied → applied.Named)
    {store : EndpointStore} (hstore : acknowledged before after = some store) :
    store.directory.Committed codec store.generation store.state ∧ Restorable store.state := by
  have hcommit (applied : Update) (io : CommitIo) (happlied : applied.Named)
      (hafter : after.store = (commitStore codec io (applied.apply before.leases) before.store).2) :
      store.directory.Committed codec store.generation store.state ∧ Restorable store.state := by
    cases hold : before.store with
    | none => rw [acknowledged, hold] at hstore; cases hstore
    | some old =>
      rw [acknowledged_commit hold hafter] at hstore
      obtain ⟨hbounded, hrestorable⟩ := hbefore.store old hold
      rcases EndpointStore.state_commit codec io old (applied.apply before.leases old.state) with
        ⟨hok, hstate, hgeneration⟩ | ⟨⟨e, herror⟩, -⟩
      · rw [hok] at hstore
        cases hstore
        rw [hstate, hgeneration]
        exact ⟨Directory.committed_commit hbounded hok,
          restorable_apply hbefore.leases hrestorable happlied⟩
      · rw [herror] at hstore
        cases hstore
  cases h with
  | quiet hsame _ =>
    rw [acknowledged, hsame] at hstore
    obtain ⟨old, hold, hfilter⟩ := Option.bind_eq_some_iff.mp hstore
    rw [hold, Option.filter_some, if_neg (by simp)] at hfilter
    cases hfilter
  | failed _ hafter _ => exact hcommit _ _ (hnamed _ rfl) hafter
  | committed _ hafter _ => exact hcommit _ _ (hnamed _ rfl) hafter

end Operations

/-! ## Openings -/

def Lease.identity (lease : Lease) : String × String × String :=
  (lease.sessionId, lease.model, lease.endpointId)

/-- The identity of a session's lease, as a durable state has it: the inner option is for a value
that is no lease. -/
def durableIdentity (state : IntentState) (sessionId : String) :
    Option (Option (String × String × String)) :=
  (state.leases.get? sessionId).map fun value ↦ (Lease.fromValue value).map Lease.identity

/-- A supervisor has the intents, the sessions and the lease identities of a durable state, the
latter in its own durable state and in its lease map. -/
structure Restored (state : IntentState) (sup : Supervisor) : Prop where
  durable : ∃ opened, sup.durable = some opened ∧ opened.endpoints = state.endpoints ∧
    opened.sessions = state.sessions ∧
    ∀ sessionId, durableIdentity opened sessionId = durableIdentity state sessionId
  leases : ∀ sessionId, durableIdentity state sessionId =
    (sup.leases.get? sessionId).map fun lease ↦ some lease.identity

/-- Some lease ends later than an opening at this clock allows, as after the clock was set back. -/
def SetBack (now : ℕ) (state : IntentState) : Prop :=
  ∃ id value lease, state.leases.get? id = some value ∧ Lease.fromValue value = some lease ∧
    saturatingAdd now leaseTtlSecs < lease.expiresAt

/-- The state with the deadlines that an opening gives its leases. -/
def rewritten (now : ℕ) (instants : String → Instant) (state : IntentState) : IntentState :=
  match recoverLeases now instants state.leases.entries .empty with
  | .ok leases => { state with leases := migratedLeases leases state.leases }
  | .error _ => state

section Recovering

variable {now : ℕ} {instants : String → Instant}

theorem recoverLease_proper {instant : Instant} {id : String} {value : Value} {lease : Lease}
    (h : recoverLease now instant id value = .ok lease) : lease.Proper := by
  unfold recoverLease at h
  split at h
  · cases h
  · split at h
    · cases h
    · rename_i persisted hvalue hidentity
      simp only [not_or, not_not] at hidentity
      obtain ⟨hsession, hid, hendpoint, hmodel⟩ := hidentity
      cases h
      exact ⟨hsession ▸ hid, hmodel, hendpoint, boundedDeadline_ne_zero _ _⟩

/-- An opening recovers every proper lease. -/
theorem recoverLease_of_readsProper (now : ℕ) (instant : Instant) {id : String} {value : Value}
    (h : ReadsProper id value) : ∃ lease, recoverLease now instant id value = .ok lease := by
  obtain ⟨persisted, hvalue, hid, hproper⟩ := h
  unfold recoverLease
  rw [hvalue]
  dsimp only
  rw [if_neg (by simp [← hid, hproper.sessionId, hproper.endpointId, hproper.model])]
  exact ⟨_, rfl⟩

theorem recoverLeases_of_readsProper (now : ℕ) (instants : String → Instant)
    {persisted : List (String × Value)}
    (h : ∀ id value, (id, value) ∈ persisted → ReadsProper id value) (leases : LeaseMap) :
    ∃ recovered, recoverLeases now instants persisted leases = .ok recovered := by
  induction persisted generalizing leases with
  | nil => exact ⟨leases, rfl⟩
  | cons head rest ih =>
    obtain ⟨id, value⟩ := head
    obtain ⟨lease, hlease⟩ := recoverLease_of_readsProper now (instants id)
      (h id value List.mem_cons_self)
    obtain ⟨recovered, hrecovered⟩ := ih
      (fun id value hmem ↦ h id value (List.mem_cons_of_mem _ hmem)) (leases.insert lease)
    refine ⟨recovered, ?_⟩
    rw [recoverLeases, hlease]
    exact hrecovered

/-- What the recovery loop makes of a session's lease. -/
theorem recovered_cases {state : IntentState} {leases : LeaseMap}
    (h : recoverLeases now instants state.leases.entries .empty = .ok leases) (id : String) :
    (∃ value persisted lease, state.leases.get? id = some value ∧
        Lease.fromValue value = some persisted ∧ leases.get? id = some lease ∧ lease.Proper ∧
        persisted.sessionId = id ∧ lease.identity = persisted.identity ∧
        lease.expiresAt = boundedDeadline now persisted.expiresAt) ∨
      (state.leases.get? id = none ∧ leases.get? id = none) := by
  rcases get?_recoverLeases state.leases.nodup_keys h id with
    ⟨value, lease, hmem, hlease, hget⟩ | ⟨hnone, hget⟩
  · obtain ⟨persisted, hvalue, hid, hshape⟩ := recoverLease_ok hlease
    have hproper := recoverLease_proper hlease
    subst hshape
    exact .inl ⟨value, persisted, _, (state.leases.mem_entries_iff id value).mp hmem, hvalue, hget,
      hproper, hid, rfl, rfl⟩
  · exact .inr ⟨Ordered.Map.get?_eq_none_of_forall hnone, hget⟩

/-- A deadline is moved exactly if it lies too far ahead. -/
theorem migrated_iff {state : IntentState} (h : Restorable state) :
    migrated now state.leases.entries = true ↔ SetBack now state := by
  have hmoved {deadline : ℕ} (hdeadline : deadline ≠ 0) :
      deadline ≠ boundedDeadline now deadline ↔ saturatingAdd now leaseTtlSecs < deadline := by
    rw [boundedDeadline, if_neg hdeadline]
    omega
  constructor
  · intro hmigrated
    obtain ⟨⟨id, value⟩, hmem, hany⟩ := List.any_eq_true.mp hmigrated
    have hget := (state.leases.mem_entries_iff id value).mp hmem
    obtain ⟨lease, hvalue, -, hproper⟩ := h.leases id value hget
    refine ⟨id, value, lease, hget, hvalue, (hmoved hproper.expiresAt).mp ?_⟩
    simpa [hvalue] using hany
  · rintro ⟨id, value, lease, hget, hvalue, hlt⟩
    obtain ⟨read, hread, -, hproper⟩ := h.leases id value hget
    cases hvalue.symm.trans hread
    refine List.any_eq_true.mpr ⟨(id, value), (state.leases.mem_entries_iff id value).mpr hget, ?_⟩
    simpa [hvalue] using (hmoved hproper.expiresAt).mpr hlt

/-- Writing recovered leases over the persisted ones adds none. -/
theorem size_migratedLeases {leases : LeaseMap} {values : Ordered.Map String Value}
    (h : ∀ lease ∈ leases.entries, (values.get? lease.sessionId).isSome) :
    (migratedLeases leases values).size = values.size := by
  unfold migratedLeases
  generalize leases.entries = entries at h
  induction entries generalizing values with
  | nil => rfl
  | cons lease rest ih =>
    rw [List.foldl_cons, ih, Ordered.Map.size_insert_of_mem (h lease List.mem_cons_self)]
    intro other hmem
    rw [Ordered.Map.get?_insert]
    split
    · rfl
    · exact h other (List.mem_cons_of_mem _ hmem)

end Recovering

section Openings

variable {codec : Codec} {io : SupervisorOpenIo} {directory : Directory} {sup : Supervisor}

/-- What a successful opening leaves in the store: what it has read, with the recovered leases
written over it if a deadline was moved. -/
theorem open_state {store : EndpointStore}
    (hstore : EndpointStore.open codec io.store directory = .ok store)
    (h : (Supervisor.open codec io directory).result = .ok sup) :
    recoverLeases (epochSeconds io.now) io.instants store.state.leases.entries .empty =
        .ok sup.leases ∧
      ∃ opened, sup.store = some opened ∧ opened.Bounded ∧
        (opened.state = store.state ∧
            migrated (epochSeconds io.now) store.state.leases.entries = false ∨
          opened.state = { store.state with
            leases := migratedLeases sup.leases store.state.leases }) := by
  have hbounded := EndpointStore.bounded_open hstore
  obtain ⟨-, -, read, hread, hleases, hcommitted⟩ := open_ok codec h
  cases hstore.symm.trans hread
  refine ⟨hleases, ?_⟩
  rcases hcommitted with ⟨hmigrated, hsome⟩ | ⟨committed, hcommit, hsome⟩
  · exact ⟨store, hsome, hbounded, .inl ⟨rfl, hmigrated⟩⟩
  · have hnew := EndpointStore.state_commit_of_ok (congrArg Prod.fst hcommit)
    have hnext := EndpointStore.bounded_commit codec io.commit
      { store.state with leases := migratedLeases sup.leases store.state.leases } hbounded
    rw [hcommit] at hnew hnext
    exact ⟨committed, hsome, hnext, .inr hnew⟩

/-- The lease that an opening commits for a session. -/
theorem get?_migrated_recovered {now : ℕ} {instants : String → Instant} {state : IntentState}
    {leases : LeaseMap}
    (h : recoverLeases now instants state.leases.entries .empty = .ok leases) (id : String) :
    (migratedLeases leases state.leases).get? id = (leases.get? id).map Lease.toValue := by
  rw [get?_migratedLeases]
  rcases recovered_cases h id with ⟨_, _, lease, -, -, hget, -⟩ | ⟨hnone, hget⟩
  · rw [hget]
    rfl
  · rw [hget, hnone]
    rfl

/-- The sessions of a snapshot that was read are named. -/
theorem sessions_of_open {store : EndpointStore} {io : OpenIo}
    (h : EndpointStore.open codec io directory = .ok store) (id : String) (value : Value)
    (hvalue : store.state.sessions.get? id = some value) : sessionIdentityOk (id, value) := by
  obtain ⟨-, -, ⟨-, -, hdefault⟩ | ⟨snapshot, hnewest, hstate⟩⟩ := EndpointStore.open_eq_ok h
  · rw [hdefault] at hvalue
    cases hvalue
  · obtain ⟨-, read, hread, -⟩ := Directory.reads_of_open h hnewest
    cases readSnapshot_eq_ok hread
    have hvalid := (Directory.written_of_readSnapshot hread).2
    have hsessions := (Directory.acceptable_of_validate hvalid).readable.2
    rw [hstate] at hsessions
    have hmem := (store.state.sessions.mem_entries_iff id value).mpr hvalue
    exact List.all_eq_true.mp hsessions _ hmem

/-- A supervisor is orderly after its opening. -/
theorem orderly_open (h : (Supervisor.open codec io directory).result = .ok sup) :
    Orderly sup := by
  obtain ⟨-, -, store, hstore, -⟩ := open_ok codec h
  obtain ⟨hleases, opened, hsome, hbounded, hopened⟩ := open_state hstore h
  have hproper : ProperLeases sup.leases := by
    intro id lease hlease
    rcases recovered_cases hleases id with ⟨_, _, found, -, -, hget, hproper, -⟩ | ⟨-, hget⟩
    · cases hget.symm.trans hlease
      exact hproper
    · cases hget.symm.trans hlease
  refine ⟨hproper, fun store' hstore' ↦ ?_⟩
  cases hsome.symm.trans hstore'
  refine ⟨hbounded, ?_⟩
  rcases hopened with ⟨hstate, hmigrated⟩ | hstate
  · rw [hstate]
    refine ⟨fun id value hvalue ↦ ?_, sessions_of_open hstore⟩
    rcases recovered_cases hleases id with
      ⟨found, persisted, lease, hfound, hread, -, hlease, hid, hidentity, -⟩ | ⟨hnone, -⟩
    · cases hfound.symm.trans hvalue
      -- the deadline was not moved, so it is the recovered one
      have hmem := (store.state.leases.mem_entries_iff id value).mpr hvalue
      have hsame := List.any_eq_false.mp hmigrated (id, value) hmem
      have hdeadline : persisted.expiresAt =
          boundedDeadline (epochSeconds io.now) persisted.expiresAt := by
        simpa [hread] using hsame
      simp only [Lease.identity, Prod.mk.injEq] at hidentity
      obtain ⟨hsession, hmodel, hendpoint⟩ := hidentity
      exact ⟨persisted, hread, hid, hsession ▸ hlease.sessionId, hmodel ▸ hlease.model,
        hendpoint ▸ hlease.endpointId, hdeadline ▸ boundedDeadline_ne_zero _ _⟩
    · cases hnone.symm.trans hvalue
  · rw [hstate]
    refine ⟨fun id value hvalue ↦ ?_, sessions_of_open hstore⟩
    rw [get?_migrated_recovered hleases] at hvalue
    obtain ⟨lease, hlease, rfl⟩ := Option.map_eq_some_iff.mp hvalue
    have hid : lease.sessionId = id := Keyed.Table.key_of_get? hlease
    exact hid ▸ readsProper_toValue (hproper id lease hlease)

variable {number : ℕ} {state : IntentState}

/-- Whatever opening succeeds on a directory, it restores the state that the directory holds. -/
theorem restored_open (hholds : directory.Holds codec number state)
    (h : (Supervisor.open codec io directory).result = .ok sup) : Restored state sup := by
  obtain ⟨-, -, store, hstore, -⟩ := open_ok codec h
  obtain ⟨rfl, -⟩ := hholds.state_of_open hstore
  obtain ⟨hleases, opened, hsome, -, hopened⟩ := open_state hstore h
  constructor
  · refine ⟨opened.state, by rw [durable, hsome]; rfl, ?_⟩
    rcases hopened with ⟨hstate, -⟩ | hstate
    · rw [hstate]
      exact ⟨rfl, rfl, fun _ ↦ rfl⟩
    · rw [hstate]
      refine ⟨rfl, rfl, fun sessionId ↦ ?_⟩
      rw [durableIdentity, durableIdentity, get?_migrated_recovered hleases]
      rcases recovered_cases hleases sessionId with
        ⟨value, persisted, lease, hvalue, hread, hget, -, -, hidentity, -⟩ | ⟨hnone, hget⟩
      · rw [hget, hvalue]
        simp only [Option.map_some, hread, Lease.fromValue_toValue]
        exact congrArg (some ∘ some) hidentity
      · rw [hget, hnone]
        rfl
  · intro sessionId
    rw [durableIdentity]
    rcases recovered_cases hleases sessionId with
      ⟨value, persisted, lease, hvalue, hread, hget, -, -, hidentity, -⟩ | ⟨hnone, hget⟩
    · rw [hget, hvalue]
      simp only [Option.map_some, hread, hidentity]
    · rw [hget, hnone]
      rfl

/-- Of the limits on a commit, only that on its size can stand in the way of moved deadlines. -/
theorem fits_migrated_iff (hcommitted : directory.Committed codec number state) {now : ℕ}
    {instants : String → Instant} {leases : LeaseMap}
    (hleases : recoverLeases now instants state.leases.entries .empty = .ok leases) :
    EndpointStore.Fits codec ⟨directory, number, state, [directory]⟩
        { state with leases := migratedLeases leases state.leases } ↔
      codec.size ⟨3, number + 1,
        codec.digest { state with leases := migratedLeases leases state.leases },
        { state with leases := migratedLeases leases state.leases }⟩ ≤ limit := by
  have hsize : (migratedLeases leases state.leases).size = state.leases.size := by
    apply size_migratedLeases
    intro lease hmem
    have hget := (leases.get?_eq_some_iff lease.sessionId lease).mpr ⟨hmem, rfl⟩
    rcases recovered_cases hleases lease.sessionId with ⟨value, _, _, hvalue, -⟩ | ⟨-, hnone⟩
    · rw [hvalue]
      rfl
    · cases hnone.symm.trans hget
  constructor
  · exact EndpointStore.Fits.size
  · intro hlimit
    exact ⟨hcommitted.sessions, hsize.trans_le hcommitted.leases, hcommitted.endpoints, hlimit⟩

/-- With working calls, a committed directory with a restorable state is reopened exactly if no
deadline lies too far ahead of the clock or the moved deadlines can be committed. -/
theorem open_ok_iff (hcommitted : directory.Committed codec number state)
    (hrestorable : Restorable state) (now : SystemTime) (instants : String → Instant)
    {suffix : String} (hpending : directory.get? (.pending suffix) = none) :
    (∃ sup, (Supervisor.open codec ⟨.ok, now, instants, .ok suffix⟩ directory).result = .ok sup) ↔
      (SetBack (epochSeconds now) state → number < u64Max ∧
        codec.size ⟨3, number + 1, codec.digest (rewritten (epochSeconds now) instants state),
          rewritten (epochSeconds now) instants state⟩ ≤ limit) := by
  have hopen := hcommitted.holds.open_eq hrestorable.readable
  have hvalues (id : String) (value : Value) (hmem : (id, value) ∈ state.leases.entries) :
      ReadsProper id value :=
    hrestorable.leases id value ((state.leases.mem_entries_iff id value).mp hmem)
  obtain ⟨leases, hleases⟩ :=
    recoverLeases_of_readsProper (epochSeconds now) instants hvalues .empty
  rw [← migrated_iff hrestorable, rewritten, hleases]
  dsimp only
  unfold Supervisor.open
  rw [hopen]
  dsimp only
  rw [hleases]
  dsimp only
  cases hmigrated : migrated (epochSeconds now) state.leases.entries with
  | false => simp
  | true =>
    have hiff := @EndpointStore.commit_ok_iff codec ⟨directory, number, state, [directory]⟩
      { state with leases := migratedLeases leases state.leases } suffix hpending
      (EndpointStore.InSync.not_ahead hcommitted.holds)
    rw [fits_migrated_iff hcommitted hleases, and_comm] at hiff
    simp only [if_true, true_implies]
    rw [← hiff]
    cases EndpointStore.commit codec (.ok suffix) ⟨directory, number, state, [directory]⟩
        { state with leases := migratedLeases leases state.leases } with
    | mk result after => cases result <;> simp

end Openings

/-- A directory is read back exactly as it was committed; whatever opening succeeds restores the
state; and with working calls an opening succeeds, unless the clock has been set back and the moved
deadlines cannot be committed any more. -/
structure Reopens (codec : Codec) (directory : Directory) (number : ℕ) (state : IntentState) :
    Prop where
  reads : EndpointStore.open codec .ok directory = .ok ⟨directory, number, state, [directory]⟩
  restores : ∀ io sup, (Supervisor.open codec io directory).result = .ok sup → Restored state sup
  opens : ∀ now instants suffix, directory.get? (.pending suffix) = none →
    ((∃ sup, (Supervisor.open codec ⟨.ok, now, instants, .ok suffix⟩ directory).result = .ok sup) ↔
      (SetBack (epochSeconds now) state → number < u64Max ∧
        codec.size ⟨3, number + 1, codec.digest (rewritten (epochSeconds now) instants state),
          rewritten (epochSeconds now) instants state⟩ ≤ limit))

theorem reopens_of_committed {codec : Codec} {directory : Directory} {number : ℕ}
    {state : IntentState} (hcommitted : directory.Committed codec number state)
    (hrestorable : Restorable state) : Reopens codec directory number state where
  reads := hcommitted.holds.open_eq hrestorable.readable
  restores _ _ := restored_open hcommitted.holds
  opens now instants _ := open_ok_iff hcommitted hrestorable now instants

end Cameo.Supervisor
