import Cameo.Store.EndpointStore
import Cameo.Supervisor.Admission
import Cameo.Supervisor.Lease
import Cameo.Supervisor.Lifecycle

/-!
# Supervisor state

The supervisor's four shared cells: the shutdown latch, the endpoint map, the lease map and the
optional durable store.  Every traversal of the endpoint map that refreshes endpoints is one
`visit`, and every durable update is one `commitWith`; the lemmas about these two say what the
operations built from them can do.

An operation returns an `Outcome`: its answer, the supervisor after it and the processes it
spawned.
-/

namespace Cameo

open Json Library Store

namespace Supervisor

abbrev EndpointMap := Keyed.Table Endpoint.id

end Supervisor

open Supervisor in
/-- `Supervisor`. -/
structure Supervisor where
  shuttingDown : Bool
  endpoints : EndpointMap
  leases : LeaseMap
  store : Option EndpointStore

namespace Supervisor

structure Outcome (α : Type) where
  result : α
  sup : Supervisor
  spawns : List Spawn

/-! ## Refreshing traversals -/

/-- What a refreshing traversal of the endpoint map leaves behind. -/
structure Visited where
  found : Option Endpoint
  map : EndpointMap
  spawns : List Spawn

/-- Refresh the picked endpoints in iteration order until a refreshed one is a hit. -/
def visit (pick hit : Endpoint → Bool) (io : String → RefreshIo) (map : EndpointMap) : Visited :=
  let walked := Keyed.walk pick (fun endpoint ↦ endpoint.refresh (io endpoint.id)) hit map.entries
  ⟨walked.found,
    map.rebuild walked.entries
      (Keyed.map_key_walk _ _ _ (fun endpoint ↦ Endpoint.id_refresh _ endpoint) _),
    walked.events⟩

def refreshAll (io : String → RefreshIo) (map : EndpointMap) : Visited :=
  visit (fun _ ↦ true) (fun _ ↦ false) io map

/-- One refresh of an endpoint, every process it spawns being allowed. -/
def RefreshStep (P : Spawn → Prop) (before after : Endpoint) : Prop :=
  ∃ io : RefreshIo, after = (before.refresh io).1 ∧
    ∀ spawn ∈ (before.refresh io).2, P spawn

/-- Any number of refreshes: reaping and automatic restart of exited children. -/
def Refreshes (P : Spawn → Prop) : Endpoint → Endpoint → Prop :=
  Relation.ReflTransGen (RefreshStep P)

theorem Refreshes.evolved {P : Spawn → Prop} {before after : Endpoint}
    (h : Refreshes P before after) : Endpoint.Evolved P before after := by
  induction h with
  | refl => exact .refl before
  | tail _ hstep ih =>
    obtain ⟨io, rfl, hspawns⟩ := hstep
    exact ih.trans (Endpoint.evolved_refresh io _ hspawns)

theorem Refreshes.mono {P Wider : Spawn → Prop} {before after : Endpoint}
    (h : Refreshes P before after) (hwider : ∀ spawn, P spawn → Wider spawn) :
    Refreshes Wider before after := by
  refine Relation.ReflTransGen.mono ?_ _ _ h
  rintro a b ⟨io, heq, hspawns⟩
  exact ⟨io, heq, fun spawn hmem ↦ hwider _ (hspawns spawn hmem)⟩

/-- The entries of one map, position by position, refreshed any number of times. -/
def MapRefreshes (P : Spawn → Prop) (before after : EndpointMap) : Prop :=
  List.Forall₂ (Refreshes P) before.entries after.entries

theorem MapRefreshes.refl {P : Spawn → Prop} (map : EndpointMap) :
    MapRefreshes P map map :=
  List.forall₂_same.mpr fun _ _ ↦ .refl

theorem MapRefreshes.mono {P Wider : Spawn → Prop} {before after : EndpointMap}
    (h : MapRefreshes P before after) (hwider : ∀ spawn, P spawn → Wider spawn) :
    MapRefreshes Wider before after :=
  List.Forall₂.imp (fun _ _ hab ↦ hab.mono hwider) h

theorem MapRefreshes.trans {P : Spawn → Prop} {first second third : EndpointMap}
    (h : MapRefreshes P first second) (h' : MapRefreshes P second third) :
    MapRefreshes P first third := by
  unfold MapRefreshes at *
  generalize first.entries = entries at h
  generalize second.entries = entries' at h h'
  generalize third.entries = entries'' at h'
  induction h generalizing entries'' with
  | nil =>
    cases h'
    exact .nil
  | cons hab _ ih =>
    cases h' with
    | cons hbc htail => exact .cons (Relation.ReflTransGen.trans hab hbc) (ih _ htail)

/-- Every entry of the map after is an evolution of an entry before. -/
def MapEvolved (P : Spawn → Prop) (before after : EndpointMap) : Prop :=
  ∀ endpoint ∈ after.entries, ∃ old ∈ before.entries, Endpoint.Evolved P old endpoint

theorem MapEvolved.refl {P : Spawn → Prop} (map : EndpointMap) :
    MapEvolved P map map := fun endpoint hmem ↦ ⟨endpoint, hmem, .refl endpoint⟩

theorem MapEvolved.trans {P : Spawn → Prop} {first second third : EndpointMap}
    (h : MapEvolved P first second) (h' : MapEvolved P second third) :
    MapEvolved P first third := by
  intro endpoint hmem
  obtain ⟨middle, hmiddle, hlate⟩ := h' endpoint hmem
  obtain ⟨old, hold, hearly⟩ := h middle hmiddle
  exact ⟨old, hold, hearly.trans hlate⟩

theorem MapEvolved.mono {P Wider : Spawn → Prop} {before after : EndpointMap}
    (h : MapEvolved P before after) (hwider : ∀ spawn, P spawn → Wider spawn) :
    MapEvolved Wider before after := by
  intro endpoint hmem
  obtain ⟨old, hold, hevolved⟩ := h endpoint hmem
  exact ⟨old, hold, hevolved.mono hwider⟩

theorem MapEvolved.kept {P : Spawn → Prop} {before after : EndpointMap}
    (h : MapEvolved P before after) {endpoint : Endpoint} (hmem : endpoint ∈ after.entries) :
    ∃ old ∈ before.entries, Endpoint.Kept old endpoint := by
  obtain ⟨old, hold, hevolved⟩ := h endpoint hmem
  exact ⟨old, hold, hevolved.toKept⟩

/-- An entry of a pointwise related list comes from an entry of the other list. -/
theorem exists_of_forall₂ {α : Type} {R : α → α → Prop} {before after : List α}
    (h : List.Forall₂ R before after) {b : α} (hb : b ∈ after) : ∃ a ∈ before, R a b := by
  obtain ⟨i, hi, rfl⟩ := List.getElem_of_mem hb
  have hlength : i < before.length := h.length_eq ▸ hi
  exact ⟨before[i], List.getElem_mem hlength, h.get hlength hi⟩

theorem MapRefreshes.evolved {P : Spawn → Prop} {before after : EndpointMap}
    (h : MapRefreshes P before after) : MapEvolved P before after := by
  intro endpoint hmem
  obtain ⟨old, hold, hrefreshes⟩ := exists_of_forall₂ h hmem
  exact ⟨old, hold, hrefreshes.evolved⟩

/-- Refreshing loses no entry. -/
theorem MapRefreshes.exists_after {P : Spawn → Prop} {before after : EndpointMap}
    (h : MapRefreshes P before after) {endpoint : Endpoint} (hmem : endpoint ∈ before.entries) :
    ∃ later ∈ after.entries, Refreshes P endpoint later :=
  exists_of_forall₂ (R := flip (Refreshes P)) (List.Forall₂.flip h) hmem

/-- A traversal refreshes, and spawns what it reports. -/
theorem visit_refreshes (pick hit : Endpoint → Bool) (io : String → RefreshIo)
    (map : EndpointMap) :
    MapRefreshes (fun spawn ↦ spawn ∈ (visit pick hit io map).spawns) map
      (visit pick hit io map).map := by
  refine List.Forall₂.imp ?_ (Keyed.forall₂_walk pick
    (fun endpoint ↦ endpoint.refresh (io endpoint.id)) hit map.entries)
  rintro before after (rfl | ⟨-, rfl, hevents⟩)
  · exact .refl
  · exact .single ⟨io before.id, rfl, hevents⟩

/-- A traversal spawns only restarts of tracked endpoints that have restarts enabled. -/
theorem visit_spawns {pick hit : Endpoint → Bool} {io : String → RefreshIo} {map : EndpointMap}
    {spawn : Spawn} (h : spawn ∈ (visit pick hit io map).spawns) :
    spawn.cause = .restart ∧ ∃ endpoint ∈ map.entries,
      endpoint.restartEnabled = true ∧ spawn.endpointId = endpoint.id := by
  obtain ⟨endpoint, hmem, -, hspawn⟩ := Keyed.mem_walk_events _ _ _ h
  obtain ⟨henabled, hcause, hid⟩ := Endpoint.refresh_spawn hspawn
  exact ⟨hcause, endpoint, hmem, henabled, hid⟩

/-- A traversal without a hit has refreshed every picked endpoint, and left the others alone. -/
theorem visit_not_found {pick hit : Endpoint → Bool} {io : String → RefreshIo} {map : EndpointMap}
    (h : (visit pick hit io map).found = none) {endpoint : Endpoint}
    (hmem : endpoint ∈ (visit pick hit io map).map.entries) :
    ∃ old ∈ map.entries,
      (pick old = true ∧ endpoint = (old.refresh (io old.id)).1 ∧ hit endpoint = false) ∨
        (pick old = false ∧ endpoint = old) := by
  obtain ⟨hentries, hmissed⟩ := Keyed.walk_not_found _ _ _ h
  rw [visit, Keyed.Table.entries_rebuild, hentries, List.mem_map] at hmem
  obtain ⟨old, hold, rfl⟩ := hmem
  refine ⟨old, hold, ?_⟩
  cases hpick : pick old with
  | true => exact .inl ⟨rfl, rfl, hmissed old hold hpick⟩
  | false => exact .inr ⟨rfl, rfl⟩

/-! ## Durable updates -/

variable (codec : Codec)

/-- Commit an update of the durable state, if there is a store. -/
def commitStore (io : CommitIo) (update : IntentState → IntentState) :
    Option EndpointStore → Except String Unit × Option EndpointStore
  | none => (.ok (), none)
  | some store =>
    let committed := store.commit codec io (update store.state)
    (committed.1, some committed.2)

def commitWith (io : CommitIo) (update : IntentState → IntentState) (sup : Supervisor) :
    Except String Unit × Supervisor :=
  let committed := commitStore codec io update sup.store
  (committed.1, { sup with store := committed.2 })

/-- A commit answers as the store does and changes nothing but the store. -/
theorem commitWith_eq {io : CommitIo} {update : IntentState → IntentState} {sup after : Supervisor}
    {result : Except String Unit} (h : commitWith codec io update sup = (result, after)) :
    (commitStore codec io update sup.store).1 = result ∧
      after = { sup with store := (commitStore codec io update sup.store).2 } :=
  ⟨congrArg Prod.fst h, (congrArg Prod.snd h).symm⟩

def durable (sup : Supervisor) : Option IntentState := sup.store.map EndpointStore.state

@[simp]
theorem endpoints_commitWith (io : CommitIo) (update : IntentState → IntentState)
    (sup : Supervisor) : (commitWith codec io update sup).2.endpoints = sup.endpoints := rfl

@[simp]
theorem leases_commitWith (io : CommitIo) (update : IntentState → IntentState)
    (sup : Supervisor) : (commitWith codec io update sup).2.leases = sup.leases := rfl

@[simp]
theorem shuttingDown_commitWith (io : CommitIo) (update : IntentState → IntentState)
    (sup : Supervisor) :
    (commitWith codec io update sup).2.shuttingDown = sup.shuttingDown := rfl

theorem state_commitStore (io : CommitIo) (update : IntentState → IntentState)
    (store : Option EndpointStore) :
    ((commitStore codec io update store).1 = .ok () ∧
        (commitStore codec io update store).2.map EndpointStore.state =
          (store.map EndpointStore.state).map update) ∨
      ((∃ e, (commitStore codec io update store).1 = .error e) ∧
        (commitStore codec io update store).2.map EndpointStore.state =
          store.map EndpointStore.state) := by
  cases store with
  | none => exact .inl ⟨rfl, rfl⟩
  | some store =>
    rcases EndpointStore.state_commit codec io store (update store.state) with
      ⟨hok, hstate, -⟩ | ⟨herror, hstate, -⟩
    · exact .inl ⟨hok, congrArg some hstate⟩
    · exact .inr ⟨herror, congrArg some hstate⟩

/-- A successful durable update is in force. -/
theorem durable_commitWith_of_ok {io : CommitIo} {update : IntentState → IntentState}
    {sup : Supervisor} (h : (commitWith codec io update sup).1 = .ok ()) :
    (commitWith codec io update sup).2.durable = sup.durable.map update := by
  rcases state_commitStore codec io update sup.store with ⟨-, hstate⟩ | ⟨⟨e, herror⟩, -⟩
  · exact hstate
  · cases h.symm.trans herror

/-- The endpoint intents after some are removed and one is added. -/
def intended (remove : List String) (add : Option (String × Value))
    (endpoints : Ordered.Map String Value) : Ordered.Map String Value :=
  let removed := remove.foldl (fun map id ↦ map.erase id) endpoints
  match add with
  | none => removed
  | some (id, intent) => removed.insert id intent

/-- `Supervisor::commit_intent`. -/
def commitIntent (io : CommitIo) (remove : List String) (add : Option (String × Value))
    (sup : Supervisor) : Except String Unit × Supervisor :=
  commitWith codec io
    (fun state ↦ { state with endpoints := intended remove add state.endpoints }) sup

theorem get?_intended_none (remove : List String) (endpoints : Ordered.Map String Value)
    (id : String) :
    (intended remove none endpoints).get? id =
      if id ∈ remove then none else endpoints.get? id := by
  simp only [intended]
  induction remove generalizing endpoints with
  | nil => simp
  | cons head rest ih =>
    rw [List.foldl_cons, ih, Ordered.Map.get?_erase]
    by_cases hid : id = head <;> by_cases hrest : id ∈ rest <;> simp [hid, hrest]

/-- A failed durable update leaves the durable state in memory as it was. -/
theorem durable_commitWith_of_error {io : CommitIo} {update : IntentState → IntentState}
    {sup : Supervisor} {e : String} (h : (commitWith codec io update sup).1 = .error e) :
    (commitWith codec io update sup).2.durable = sup.durable := by
  rcases state_commitStore codec io update sup.store with ⟨hok, -⟩ | ⟨-, hstate⟩
  · cases hok.symm.trans h
  · exact hstate

end Supervisor

end Cameo
