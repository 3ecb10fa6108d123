import Cameo.Library.Patch
import Cameo.Supervisor.LeaseAgreement

/-!
# Durable updates entry by entry

The durable state as a view of its entries, one for each endpoint, lease and session id, and every
update as a patch of the entries it concerns.  An update of the leases writes the whole lease map,
so it is a patch of single entries only if the map it was made from agrees with the durable one.
-/

namespace Cameo.Supervisor

open Json Library Store

/-! ## Entries of the durable state -/

inductive Key where
  | endpoint (id : String)
  | lease (sessionId : String)
  | session (id : String)

/-- What is kept under a key; a lease is read as its durable part, if the value is a lease. -/
@[reducible]
def Key.Entry : Key → Type
  | .endpoint _ => Value
  | .lease _ => Option LeaseRecord
  | .session _ => Value

def entries (state : IntentState) : View Key.Entry
  | .endpoint id => state.endpoints.get? id
  | .lease sessionId => durableRecord state sessionId
  | .session id => state.sessions.get? id

/-- An intent with the observations of its endpoint written into it. -/
def observedBy (observations : List Observation) (id : String) (intent : Value) : Value :=
  (observations.filter fun seen ↦ seen.endpointId = id).foldl
    (fun intent seen ↦ (observedIntent seen intent).1) intent

/-- The update entry by entry; what a retention drops depends on the lease map it is made from. -/
def Update.patch (leases : LeaseMap) : Update → Patch Key.Entry
  | .intents remove add => fun
    | .endpoint id =>
      if add.any fun pair ↦ pair.1 = id then some fun _ ↦ add.map Prod.snd
      else if id ∈ remove then some fun _ ↦ none
      else none
    | _ => none
  | .claim lease => fun
    | .lease sessionId =>
      if sessionId = lease.sessionId then some fun _ ↦ some (some lease.record) else none
    | _ => none
  | .renew renewing io => fun
    | .lease sessionId =>
      if sessionId = renewing then
        some (Option.map (Option.map fun record ↦
          { record with expiresAt := saturatingAdd (epochSeconds io.now) leaseTtlSecs }))
      else none
    | _ => none
  | .keepLeases keep => fun
    | .lease sessionId =>
      if (leases.get? sessionId).any fun lease ↦ !keep lease then some fun _ ↦ none else none
    | _ => none
  | .record session => fun
    | .session id => if id = session.id then some fun _ ↦ some session.toValue else none
    | _ => none
  | .forget forgotten => fun
    | .session id => if id = forgotten then some fun _ ↦ none else none
    | .lease sessionId => if sessionId = forgotten then some fun _ ↦ none else none
    | .endpoint _ => none
  | .observe observations => fun
    | .endpoint id =>
      if observations.any fun seen ↦ seen.endpointId = id then
        some (Option.map (observedBy observations id))
      else none
    | _ => none

/-- The update writes the lease map as a whole. -/
def Update.RewritesLeases : Update → Prop
  | .claim _ | .renew _ _ | .keepLeases _ => True
  | _ => False

theorem observedBy_cons_of_ne {seen : Observation} {id : String} (h : seen.endpointId ≠ id)
    (rest : List Observation) : observedBy (seen :: rest) id = observedBy rest id := by
  funext intent
  rw [observedBy, List.filter_cons_of_neg (by simpa using h), observedBy]

theorem observedBy_of_forall_ne {observations : List Observation} {id : String}
    (h : ∀ seen ∈ observations, seen.endpointId ≠ id) :
    observedBy observations id = fun intent ↦ intent := by
  induction observations with
  | nil => rfl
  | cons seen rest ih =>
    rw [observedBy_cons_of_ne (h seen List.mem_cons_self)]
    exact ih fun other hmem ↦ h other (List.mem_cons_of_mem _ hmem)

theorem get?_recordObservations (observations : List Observation)
    (intents : Ordered.Map String Value × Bool) (id : String) :
    (observations.foldl recordObservation intents).1.get? id =
      (intents.1.get? id).map (observedBy observations id) := by
  induction observations generalizing intents with
  | nil => exact Option.map_id.symm ▸ rfl
  | cons seen rest ih =>
    rw [List.foldl_cons, ih, recordObservation]
    by_cases hid : seen.endpointId = id
    · subst hid
      cases hget : intents.1.get? seen.endpointId with
      | none => simp [hget]
      | some intent => simp [Ordered.Map.get?_insert, observedBy]
    · rw [observedBy_cons_of_ne hid]
      cases hget : intents.1.get? seen.endpointId with
      | none => rfl
      | some intent => simp [Ordered.Map.get?_insert, hid]

theorem get?_intended (remove : List String) (add : Option (String × Value))
    (endpoints : Ordered.Map String Value) (id : String) :
    (intended remove add endpoints).get? id =
      if add.any fun pair ↦ pair.1 = id then add.map Prod.snd
      else if id ∈ remove then none
      else endpoints.get? id := by
  cases add with
  | none => exact get?_intended_none remove endpoints id
  | some pair =>
    have hremoved := get?_intended_none remove endpoints id
    simp only [intended] at hremoved ⊢
    rw [Ordered.Map.get?_insert, hremoved]
    simp

/-- The leases an update writes, read back. -/
theorem durableRecord_rewritten (update : Update) (h : update.RewritesLeases) (leases : LeaseMap)
    (state : IntentState) (sessionId : String) :
    durableRecord (update.apply leases state) sessionId =
      (((update.onLeases leases).get? sessionId).map Lease.record).map some := by
  apply leasesAgree_leaseValues (update.onLeases leases)
  cases update with
  | claim lease | renew sessionId io | keepLeases keep => rfl
  | _ => exact h.elim

theorem entries_apply_endpoint (update : Update) (leases : LeaseMap) (state : IntentState)
    (id : String) :
    entries (update.apply leases state) (.endpoint id) =
      (update.patch leases).apply (entries state) (.endpoint id) := by
  cases update with
  | intents remove add =>
    simp only [Patch.apply, Update.patch, entries, Update.apply, get?_intended]
    by_cases hadd : add.any fun pair ↦ pair.1 = id
    · simp [hadd]
    · by_cases hremove : id ∈ remove <;> simp [hadd, hremove]
  | observe observations =>
    simp only [Patch.apply, Update.patch, entries, Update.apply, get?_recordObservations]
    cases hany : observations.any fun seen ↦ seen.endpointId = id with
    | true => simp
    | false => simp [observedBy_of_forall_ne (by simpa using hany)]
  | claim lease => rfl
  | renew renewing io => rfl
  | keepLeases keep => rfl
  | record session => rfl
  | forget forgotten => rfl

theorem entries_apply_lease (update : Update) {leases : LeaseMap} {state : IntentState}
    (h : update.RewritesLeases → LeasesAgree leases state) (sessionId : String) :
    entries (update.apply leases state) (.lease sessionId) =
      (update.patch leases).apply (entries state) (.lease sessionId) := by
  cases update with
  | claim lease =>
    have hbefore := h trivial sessionId
    simp only [Patch.apply, Update.patch, entries]
    rw [durableRecord_rewritten (.claim lease) trivial, Update.onLeases, Keyed.Table.get?_insert]
    by_cases hid : sessionId = lease.sessionId
    · simp [hid]
    · simp [hid, Ne.symm hid, hbefore, leaseRecord]
  | renew renewing io =>
    have hbefore := h trivial sessionId
    simp only [Patch.apply, Update.patch, entries]
    rw [durableRecord_rewritten (.renew renewing io) trivial, Update.onLeases,
      Keyed.Table.get?_modify leases renewing sessionId (renewed io) fun _ ↦ rfl]
    by_cases hid : sessionId = renewing
    · subst hid
      cases hlease : leases.get? sessionId with
      | none => simp [hbefore, leaseRecord, hlease]
      | some lease => simp [hbefore, leaseRecord, hlease, Lease.record, renewed]
    · simp [hid, hbefore, leaseRecord]
  | keepLeases keep =>
    have hbefore := h trivial sessionId
    simp only [Patch.apply, Update.patch, entries]
    rw [durableRecord_rewritten (.keepLeases keep) trivial, Update.onLeases,
      Keyed.Table.get?_retain]
    cases hlease : leases.get? sessionId with
    | none => simp [hbefore, leaseRecord, hlease]
    | some lease => cases hkeep : keep lease <;> simp [hbefore, leaseRecord, hlease, hkeep]
  | forget forgotten =>
    simp only [Patch.apply, Update.patch, entries, Update.apply, durableRecord,
      Ordered.Map.get?_erase]
    by_cases hid : sessionId = forgotten <;> simp [hid]
  | intents remove add => rfl
  | record session => rfl
  | observe observations => rfl

theorem entries_apply_session (update : Update) (leases : LeaseMap) (state : IntentState)
    (id : String) :
    entries (update.apply leases state) (.session id) =
      (update.patch leases).apply (entries state) (.session id) := by
  cases update with
  | record session =>
    simp only [Patch.apply, Update.patch, entries, Update.apply, Ordered.Map.get?_insert]
    by_cases hid : id = session.id <;> simp [hid, eq_comm]
  | forget forgotten =>
    simp only [Patch.apply, Update.patch, entries, Update.apply, Ordered.Map.get?_erase]
    by_cases hid : id = forgotten <;> simp [hid]
  | intents remove add => rfl
  | claim lease => rfl
  | renew renewing io => rfl
  | keepLeases keep => rfl
  | observe observations => rfl

/-- An update changes the durable state entry by entry, if the lease map it rewrites was the one in
force. -/
theorem entries_apply (update : Update) {leases : LeaseMap} {state : IntentState}
    (h : update.RewritesLeases → LeasesAgree leases state) :
    entries (update.apply leases state) = (update.patch leases).apply (entries state) := by
  funext k
  cases k with
  | endpoint id => exact entries_apply_endpoint update leases state id
  | lease sessionId => exact entries_apply_lease update h sessionId
  | session id => exact entries_apply_session update leases state id

/-! ## Same intent

An observation writes two fields of an intent and no others. -/

/-- The fields of an intent that `maintain` writes. -/
def observationFields : List String := ["_last_observed", "_recovery_attempts"]

def intentFields (intent : Value) (field : { field : String // field ∉ observationFields }) :
    Option Value := intent.get? field

/-- The same entry, up to observations. -/
def Key.Same : (k : Key) → Option k.Entry → Option k.Entry → Prop
  | .endpoint _, before, after => after.map intentFields = before.map intentFields
  | .lease _, before, after => after = before
  | .session _, before, after => after = before

theorem Key.same_refl (k : Key) (entry : Option k.Entry) : k.Same entry entry := by
  cases k <;> rfl

theorem Key.same_trans {k : Key} {first second third : Option k.Entry} (h : k.Same first second)
    (h' : k.Same second third) : k.Same first third := by
  cases k <;> exact h'.trans h

theorem intentFields_observedIntent (seen : Observation) (intent : Value) :
    intentFields (observedIntent seen intent).1 = intentFields intent := by
  funext ⟨field, hfield⟩
  have hobserved : "_last_observed" ≠ field := fun heq ↦ hfield (by simp [← heq, observationFields])
  have hattempts : "_recovery_attempts" ≠ field := fun heq ↦
    hfield (by simp [← heq, observationFields])
  unfold intentFields observedIntent
  dsimp only
  split <;> split <;>
    simp only [Value.get?_set_of_ne hobserved, Value.get?_set_of_ne hattempts]

theorem intentFields_observedBy (observations : List Observation) (id : String) (intent : Value) :
    intentFields (observedBy observations id intent) = intentFields intent := by
  unfold observedBy
  induction observations.filter (fun seen ↦ seen.endpointId = id) generalizing intent with
  | nil => rfl
  | cons seen rest ih =>
    rw [List.foldl_cons, ih, intentFields_observedIntent]

/-- An observation keeps every entry, up to observations. -/
theorem same_observe (leases : LeaseMap) (observations : List Observation) (k : Key)
    (view : View Key.Entry) :
    k.Same (view k) (((Update.observe observations).patch leases).apply view k) := by
  cases k with
  | endpoint id =>
    simp only [Patch.apply, Update.patch]
    cases observations.any fun seen ↦ seen.endpointId = id with
    | true =>
      simp only [if_true, Key.Same, Option.map_map]
      congr 1
      funext intent
      exact intentFields_observedBy observations id intent
    | false => exact Key.same_refl (.endpoint id) _
  | lease sessionId => rfl
  | session id => rfl

end Cameo.Supervisor
