import Cameo.Supervisor.Entries

/-!
# Concurrent writers of the durable state

Every durable operation clones the whole durable state, edits a part of it and writes it back.
Here the operations are cut into the sections between which they can be interrupted: a claim,
release, renewal or expiry computes the next lease map under the lease lock, writes it in a section
of the store lock and adopts it before it releases the lease lock; the other operations write in one
section of the store lock, with what they have computed before.
-/

namespace Cameo.Supervisor

open Json Library Store

/-! ## Sections -/

/-- What a claim, release, renewal or expiry is to do to the lease map it has locked. -/
inductive LeaseEdit where
  | claim (lease : Lease)
  | release (sessionId : String)
  | renew (sessionId : String) (io : RenewIo)
  | expire (now : ℕ) (instants : String → Instant)

namespace LeaseEdit

/-- The update an edit makes of the lease map: none, if there is nothing to write. -/
def update (sup : Supervisor) : LeaseEdit → Option Update
  | .claim lease => some (.claim lease)
  | .release sessionId => sup.releaseUpdate sessionId
  | .renew sessionId io => sup.renewUpdate sessionId io
  | .expire now instants => sup.expireUpdate now instants

/-- The sessions whose lease an edit is about. -/
def About (leases : LeaseMap) : LeaseEdit → String → Prop
  | .claim lease, sessionId => sessionId = lease.sessionId
  | .release released, sessionId => sessionId = released
  | .renew renewed _, sessionId => sessionId = renewed
  | .expire now instants, sessionId =>
    ∃ lease, leases.get? sessionId = some lease ∧ lease.expired now (instants sessionId) = true

end LeaseEdit

/-- An operation between the computation of its lease map and the adoption of it: it holds the lease
lock and has or has not yet written the map. -/
structure Pending where
  edit : LeaseEdit
  update : Update
  next : LeaseMap
  written : Bool

/-- The leases and the store as the operations share them. -/
structure Shared where
  sup : Supervisor
  /-- The holder of the lease lock. -/
  pending : Option Pending

/-- A section that runs without interruption by other writers. -/
inductive Section where
  /-- `lease`, `release`, `renew_lease` or `expire_leases` takes the lease lock and computes the
  next map. -/
  | edit (edit : LeaseEdit)
  /-- Its `persist_leases`. -/
  | persistLeases (io : CommitIo)
  /-- It adopts the map and releases the lease lock. -/
  | adopt
  /-- The first commit of `start`. -/
  | startRetracts (victims : List String) (io : CommitIo)
  /-- The second commit of `start`. -/
  | startIntends (id : String) (intent : Value) (io : CommitIo)
  /-- The commit of `stop`. -/
  | stopRetracts (id : String) (io : CommitIo)
  | persistSession (session : SessionRecord) (io : CommitIo)
  | removeSession (id : String) (io : CommitIo)
  /-- The last part of `maintain`, with the observations made before. -/
  | observe (observations : List Observation) (io : CommitIo)

namespace Shared

variable (codec : Codec)

/-- One section; one that has to wait for the lease lock does nothing. -/
def step (shared : Shared) : Section → Shared
  | .edit edit =>
    match shared.pending, edit.update shared.sup with
    | none, some update =>
      { shared with pending := some ⟨edit, update, update.onLeases shared.sup.leases, false⟩ }
    | _, _ => shared
  | .persistLeases io =>
    match shared.pending with
    | some ⟨edit, update, next, false⟩ =>
      match Supervisor.persistLeases codec io next shared.sup with
      | (.error _, failed) => ⟨failed, none⟩
      | (.ok (), persisted) => ⟨persisted, some ⟨edit, update, next, true⟩⟩
    | _ => shared
  | .adopt =>
    match shared.pending with
    | some ⟨_, _, next, true⟩ => ⟨{ shared.sup with leases := next }, none⟩
    | _ => shared
  | .startRetracts victims io =>
    { shared with sup := (retractIntents codec io victims shared.sup).2 }
  | .startIntends id intent io =>
    { shared with sup := (commitIntent codec io [] (some (id, intent)) shared.sup).2 }
  | .stopRetracts id io => { shared with sup := (commitIntent codec io [id] none shared.sup).2 }
  | .persistSession session io =>
    { shared with sup := (shared.sup.persistSession codec session io).sup }
  | .removeSession id io =>
    match shared.pending with
    | none => ⟨(shared.sup.removeSession codec id io).sup, none⟩
    | some _ => shared
  | .observe observations io =>
    { shared with sup := (shared.sup.persistObservations codec observations io).sup }

/-- The state after an interleaving of sections. -/
def run (shared : Shared) (sections : List Section) : Shared :=
  Run.run (step codec) shared sections

end Shared

namespace Section

def attempt (shared : Shared) : Section → Option (Update × CommitIo)
  | .edit _ | .adopt => none
  | .persistLeases io =>
    (shared.pending.filter fun pending ↦ !pending.written).map fun pending ↦ (pending.update, io)
  | .startRetracts victims io => if victims.isEmpty then none else some (.intents victims none, io)
  | .startIntends id intent io => some (.intents [] (some (id, intent)), io)
  | .stopRetracts id io => some (.intents [id] none, io)
  | .persistSession session io => some (.record session, io)
  | .removeSession id io => if shared.pending.isNone then some (.forget id, io) else none
  | .observe observations io =>
    (shared.sup.observationsUpdate observations).map fun update ↦ (update, io)

/-- The keys the operation of a section is about. -/
def About (shared : Shared) : Section → Key → Prop
  | .persistLeases _, .lease sessionId => ∃ pending, shared.pending = some pending ∧
      pending.edit.About shared.sup.leases sessionId
  | .startRetracts victims _, .endpoint id => id ∈ victims
  | .startIntends started _ _, .endpoint id => id = started
  | .stopRetracts stopped _, .endpoint id => id = stopped
  | .persistSession session _, .session id => id = session.id
  | .removeSession removed _, .session id => id = removed
  | .removeSession removed _, .lease sessionId => sessionId = removed
  | .observe observations _, .endpoint id => ∃ seen ∈ observations, seen.endpointId = id
  | _, _ => False

end Section

/-- A committed update, with the lease map it was made from. -/
structure Commit where
  update : Update
  leases : LeaseMap

def Commit.patch (commit : Commit) : Patch Key.Entry := commit.update.patch commit.leases

namespace Shared

variable (codec : Codec)

def commit (shared : Shared) (part : Section) : Option Commit :=
  (part.attempt shared).bind fun (update, io) ↦
    match (commitStore codec io (update.apply shared.sup.leases) shared.sup.store).1 with
    | .ok () => some ⟨update, shared.sup.leases⟩
    | .error _ => none

/-- What an interleaving commits, in order. -/
def commits : Shared → List Section → List Commit
  | _, [] => []
  | shared, part :: rest =>
    (shared.commit codec part).toList ++ commits (shared.step codec part) rest

end Shared

/-! ## One section -/

theorem LeaseEdit.update_congr {before after : Supervisor} (h : after.leases = before.leases)
    (edit : LeaseEdit) : edit.update after = edit.update before := by
  cases edit <;> simp only [update, releaseUpdate, renewUpdate, expireUpdate, h]

/-- An edit of the lease map writes it as a whole. -/
theorem LeaseEdit.rewritesLeases {sup : Supervisor} {edit : LeaseEdit} {made : Update}
    (h : edit.update sup = some made) : made.RewritesLeases := by
  cases edit with
  | claim lease =>
    cases h
    trivial
  | release sessionId =>
    obtain ⟨lease, -, rfl⟩ := Option.map_eq_some_iff.mp h
    trivial
  | renew sessionId io =>
    simp only [update, renewUpdate] at h
    split at h
    · cases h
    · split at h
      · cases h
      · split at h <;> cases h <;> trivial
  | expire now instants =>
    simp only [update, expireUpdate] at h
    split at h <;> cases h
    trivial

/-- Writing the lease map an update makes. -/
theorem Update.RewritesLeases.apply_eq {update : Update} (h : update.RewritesLeases)
    (leases : LeaseMap) :
    (fun state : IntentState ↦ { state with leases := leaseValues (update.onLeases leases) }) =
      update.apply leases := by
  cases update with
  | claim lease | renew sessionId io | keepLeases keep => rfl
  | _ => exact h.elim

theorem Update.apply_of_not_rewritesLeases {update : Update} (h : ¬ update.RewritesLeases)
    (leases others : LeaseMap) : update.apply leases = update.apply others := by
  cases update with
  | claim lease | renew sessionId io | keepLeases keep => exact absurd trivial h
  | _ => rfl

theorem observe_of_observationsUpdate {sup : Supervisor} {observations : List Observation}
    {update : Update} (h : sup.observationsUpdate observations = some update) :
    update = .observe observations := by
  unfold observationsUpdate at h
  split at h
  · cases h
  · split at h <;> cases h
    rfl

namespace Shared

/-- The shared state before any operation. -/
def of (sup : Supervisor) : Shared := ⟨sup, none⟩

/-- The lease map that has been written: the pending one, once it is. -/
def writtenLeases (shared : Shared) : LeaseMap :=
  match shared.pending with
  | some ⟨_, _, next, true⟩ => next
  | _ => shared.sup.leases

/-- The durable leases are those last written, and a pending map was made from the one in force. -/
structure Sound (shared : Shared) : Prop where
  agrees : ∀ state, shared.sup.durable = some state → LeasesAgree shared.writtenLeases state
  pending : ∀ pending, shared.pending = some pending →
    pending.edit.update shared.sup = some pending.update ∧
      pending.next = pending.update.onLeases shared.sup.leases

variable (codec : Codec) {shared : Shared}

/-- A section writes what it attempts to, and nothing else. -/
theorem store_step (h : shared.Sound) (part : Section) :
    (shared.step codec part).sup.store =
      match part.attempt shared with
      | none => shared.sup.store
      | some (update, io) =>
        (commitStore codec io (update.apply shared.sup.leases) shared.sup.store).2 := by
  cases part with
  | edit edit =>
    simp only [step, Section.attempt]
    split <;> rfl
  | persistLeases io =>
    obtain ⟨sup, pending⟩ := shared
    cases pending with
    | none => rfl
    | some pending =>
      obtain ⟨edit, update, next, written⟩ := pending
      obtain ⟨hupdate, hnext⟩ := h.pending _ rfl
      dsimp only at hupdate hnext
      cases written with
      | true => rfl
      | false =>
        simp only [step, Section.attempt, Supervisor.persistLeases, hnext,
          (LeaseEdit.rewritesLeases hupdate).apply_eq]
        split <;> rename_i heq
        · obtain ⟨-, rfl⟩ := commitWith_eq codec heq
          rfl
        · obtain ⟨-, rfl⟩ := commitWith_eq codec heq
          rfl
  | adopt =>
    simp only [step, Section.attempt]
    split <;> rfl
  | startRetracts victims io =>
    simp only [step, Section.attempt, retractIntents]
    split <;> rfl
  | startIntends id intent io => rfl
  | stopRetracts id io => rfl
  | persistSession session io => rfl
  | removeSession id io =>
    obtain ⟨sup, pending⟩ := shared
    cases pending with
    | none =>
      simp only [step, Section.attempt, Supervisor.removeSession]
      split <;> rename_i heq
      · obtain ⟨-, rfl⟩ := commitWith_eq codec heq
        rfl
      · obtain ⟨-, rfl⟩ := commitWith_eq codec heq
        rfl
    | some pending => rfl
  | observe observations io =>
    simp only [step, Section.attempt, persistObservations, observationsUpdate]
    cases hstore : shared.sup.store with
    | none => exact hstore
    | some store =>
      dsimp only
      cases (observations.foldl recordObservation (store.state.endpoints, false)).2 with
      | true =>
        simp only [if_true, commitWith, hstore]
        rfl
      | false => exact hstore

/-- The durable state after a section is the one before, or has its update. -/
theorem durable_step (h : shared.Sound) (part : Section) :
    (shared.step codec part).sup.durable =
      match shared.commit codec part with
      | none => shared.sup.durable
      | some committed =>
        shared.sup.durable.map (committed.update.apply shared.sup.leases) := by
  rw [durable, store_step codec h, commit]
  cases part.attempt shared with
  | none => rfl
  | some attempted =>
    obtain ⟨update, io⟩ := attempted
    dsimp only [Option.bind_some]
    rcases state_commitStore codec io (update.apply shared.sup.leases) shared.sup.store with
      ⟨hok, hstate⟩ | ⟨⟨e, herror⟩, hstate⟩
    · rw [hok]
      exact hstate
    · rw [herror]
      exact hstate

/-- A section that is to rewrite the lease map finds the written one in force. -/
theorem writtenLeases_of_attempt {part : Section} {update : Update} {io : CommitIo}
    (h : part.attempt shared = some (update, io)) (hrewrites : update.RewritesLeases) :
    shared.writtenLeases = shared.sup.leases := by
  cases part with
  | persistLeases written =>
    obtain ⟨pending, hpending, -⟩ := Option.map_eq_some_iff.mp h
    obtain ⟨hsome, hunwritten⟩ := Option.filter_eq_some_iff.mp hpending
    obtain ⟨edit, made, next, written⟩ := pending
    cases written with
    | true => simp at hunwritten
    | false => rw [writtenLeases, hsome]
  | startRetracts victims written =>
    simp only [Section.attempt] at h
    split at h <;> cases h
    exact hrewrites.elim
  | removeSession id written =>
    simp only [Section.attempt] at h
    split at h <;> cases h
    exact hrewrites.elim
  | observe observations written =>
    obtain ⟨made, hmade, heq⟩ := Option.map_eq_some_iff.mp h
    cases heq
    rw [observe_of_observationsUpdate hmade] at hrewrites
    exact hrewrites.elim
  | startIntends id intent written | stopRetracts id written | persistSession session written =>
    cases h
    exact hrewrites.elim
  | edit _ | adopt => cases h

theorem writtenLeases_congr {before after : Shared} (hpending : after.pending = before.pending)
    (hleases : after.sup.leases = before.sup.leases) :
    after.writtenLeases = before.writtenLeases := by
  rw [writtenLeases, writtenLeases, hpending, hleases]

theorem commit_of_attempt {part : Section} {update : Update} {io : CommitIo}
    (h : part.attempt shared = some (update, io)) :
    shared.commit codec part =
      match (commitStore codec io (update.apply shared.sup.leases) shared.sup.store).1 with
      | .ok () => some ⟨update, shared.sup.leases⟩
      | .error _ => none := by
  rw [commit, h]
  rfl

theorem attempt_of_commit {part : Section} {committed : Commit}
    (h : shared.commit codec part = some committed) :
    committed.leases = shared.sup.leases ∧
      ∃ io, part.attempt shared = some (committed.update, io) := by
  obtain ⟨⟨update, io⟩, hattempt, hcommit⟩ := Option.bind_eq_some_iff.mp h
  dsimp only at hcommit
  split at hcommit
  · cases hcommit
    exact ⟨rfl, io, hattempt⟩
  · cases hcommit

/-- A section that leaves the lease map and its holder alone, and writes nothing about leases. -/
theorem writtenLeases_aside {part : Section}
    (hpending : (shared.step codec part).pending = shared.pending)
    (hleases : (shared.step codec part).sup.leases = shared.sup.leases)
    (hattempt : ∀ update io, part.attempt shared = some (update, io) →
      ∀ leases, update.onLeases leases = leases) :
    (shared.step codec part).writtenLeases =
      match shared.commit codec part with
      | none => shared.writtenLeases
      | some committed => committed.update.onLeases shared.writtenLeases := by
  rw [writtenLeases_congr hpending hleases]
  cases hcommit : shared.commit codec part with
  | none => rfl
  | some committed =>
    obtain ⟨-, io, hmade⟩ := attempt_of_commit codec hcommit
    exact (hattempt _ io hmade _).symm

theorem leases_step_startRetracts (victims : List String) (io : CommitIo) :
    (shared.step codec (.startRetracts victims io)).sup.leases = shared.sup.leases := by
  simp only [step, retractIntents]
  split <;> rfl

theorem leases_step_observe (observations : List Observation) (io : CommitIo) :
    (shared.step codec (.observe observations io)).sup.leases = shared.sup.leases := by
  simp only [step, persistObservations]
  split
  · rfl
  · split <;> rfl

/-- The pending map counts as written once it is persisted. -/
theorem writtenLeases_persistLeases (h : shared.Sound) (io : CommitIo) :
    (shared.step codec (.persistLeases io)).writtenLeases =
      match shared.commit codec (.persistLeases io) with
      | none => shared.writtenLeases
      | some committed => committed.update.onLeases shared.writtenLeases := by
  obtain ⟨sup, pending⟩ := shared
  cases pending with
  | none => rfl
  | some pending =>
    obtain ⟨edit, update, next, written⟩ := pending
    obtain ⟨hupdate, hnext⟩ := h.pending _ rfl
    dsimp only at hupdate hnext
    cases written with
    | true => rfl
    | false =>
      rw [commit_of_attempt codec rfl]
      simp only [step, Supervisor.persistLeases, hnext,
        (LeaseEdit.rewritesLeases hupdate).apply_eq]
      split <;> rename_i heq
      · obtain ⟨hcommit, rfl⟩ := commitWith_eq codec heq
        rw [hcommit]
        rfl
      · obtain ⟨hcommit, rfl⟩ := commitWith_eq codec heq
        rw [hcommit]
        rfl

/-- Removing a session writes and adopts in one section. -/
theorem writtenLeases_removeSession (id : String) (io : CommitIo) :
    (shared.step codec (.removeSession id io)).writtenLeases =
      match shared.commit codec (.removeSession id io) with
      | none => shared.writtenLeases
      | some committed => committed.update.onLeases shared.writtenLeases := by
  obtain ⟨sup, pending⟩ := shared
  cases pending with
  | some pending => rfl
  | none =>
    rw [commit_of_attempt codec rfl]
    simp only [step, Supervisor.removeSession]
    have hresult {result : Except String Unit} {after : Supervisor}
        (heq : commitWith codec io ((Update.forget id).apply sup.leases) sup = (result, after)) :
        (commitStore codec io ((Update.forget id).apply sup.leases) sup.store).1 = result :=
      (commitWith_eq codec heq).1
    split <;> rename_i heq
    · rw [hresult heq]
      obtain ⟨-, rfl⟩ := commitWith_eq codec heq
      rfl
    · rw [hresult heq]
      obtain ⟨-, rfl⟩ := commitWith_eq codec heq
      rfl

/-- The written lease map after a section. -/
theorem writtenLeases_step (h : shared.Sound) (part : Section) :
    (shared.step codec part).writtenLeases =
      match shared.commit codec part with
      | none => shared.writtenLeases
      | some committed => committed.update.onLeases shared.writtenLeases := by
  cases part with
  | edit edit =>
    obtain ⟨sup, pending⟩ := shared
    simp only [step, commit, Section.attempt, Option.bind_none]
    cases pending with
    | none => cases edit.update sup <;> rfl
    | some pending => rfl
  | persistLeases io => exact writtenLeases_persistLeases codec h io
  | adopt =>
    obtain ⟨sup, pending⟩ := shared
    cases pending with
    | none => rfl
    | some pending =>
      obtain ⟨edit, update, next, written⟩ := pending
      cases written <;> rfl
  | startRetracts victims io =>
    apply writtenLeases_aside codec rfl (leases_step_startRetracts codec victims io)
    intro update io hattempt leases
    simp only [Section.attempt] at hattempt
    split at hattempt <;> cases hattempt
    rfl
  | startIntends id intent io =>
    apply writtenLeases_aside codec rfl rfl
    rintro update io ⟨⟩ leases
    rfl
  | stopRetracts id io =>
    apply writtenLeases_aside codec rfl rfl
    rintro update io ⟨⟩ leases
    rfl
  | persistSession session io =>
    apply writtenLeases_aside codec rfl rfl
    rintro update io ⟨⟩ leases
    rfl
  | removeSession id io => exact writtenLeases_removeSession codec id io
  | observe observations io =>
    apply writtenLeases_aside codec rfl (leases_step_observe codec observations io)
    intro update io hattempt leases
    obtain ⟨made, hmade, heq⟩ := Option.map_eq_some_iff.mp hattempt
    cases heq
    rw [observe_of_observationsUpdate hmade]
    rfl

/-- A map is pending as before, if neither it nor the one in force has changed. -/
theorem Sound.pending_congr (h : shared.Sound) (after : Shared)
    (hpending : after.pending = shared.pending) (hleases : after.sup.leases = shared.sup.leases)
    (pending : Pending) (hsome : after.pending = some pending) :
    pending.edit.update after.sup = some pending.update ∧
      pending.next = pending.update.onLeases after.sup.leases := by
  obtain ⟨hupdate, hnext⟩ := h.pending pending (hpending ▸ hsome)
  rw [LeaseEdit.update_congr hleases, hleases]
  exact ⟨hupdate, hnext⟩

/-- A section makes a map pending from the one in force. -/
theorem pending_step (h : shared.Sound) (part : Section) (pending : Pending)
    (hsome : (shared.step codec part).pending = some pending) :
    pending.edit.update (shared.step codec part).sup = some pending.update ∧
      pending.next = pending.update.onLeases (shared.step codec part).sup.leases := by
  cases part with
  | edit edit =>
    simp only [step] at hsome ⊢
    split at hsome
    · rename_i hupdate
      cases hsome
      exact ⟨hupdate, rfl⟩
    · exact h.pending pending hsome
  | persistLeases io =>
    simp only [step] at hsome ⊢
    split at hsome
    · rename_i hheld
      obtain ⟨hupdate, hnext⟩ := h.pending _ hheld
      simp only [Supervisor.persistLeases] at hsome ⊢
      split at hsome <;> rename_i heq
      · cases hsome
      · cases hsome
        obtain ⟨-, rfl⟩ := commitWith_eq codec heq
        exact ⟨(LeaseEdit.update_congr rfl _).trans hupdate, hnext⟩
    · exact h.pending pending hsome
  | adopt =>
    simp only [step] at hsome ⊢
    split at hsome
    · cases hsome
    · exact h.pending pending hsome
  | removeSession id io =>
    simp only [step] at hsome ⊢
    split at hsome
    · cases hsome
    · exact h.pending pending hsome
  | startRetracts victims io =>
    exact h.pending_congr (shared.step codec _) rfl (leases_step_startRetracts codec victims io)
      pending hsome
  | observe observations io =>
    exact h.pending_congr (shared.step codec _) rfl (leases_step_observe codec observations io)
      pending hsome
  | startIntends id intent io | stopRetracts id io | persistSession session io =>
    exact h.pending_congr _ rfl rfl pending hsome

/-- The invariant is kept. -/
theorem sound_step (h : shared.Sound) (part : Section) : (shared.step codec part).Sound := by
  refine ⟨?_, pending_step codec h part⟩
  intro state hstate
  rw [writtenLeases_step codec h]
  rw [durable_step codec h] at hstate
  cases hcommit : shared.commit codec part with
  | none =>
    rw [hcommit] at hstate
    exact h.agrees state hstate
  | some committed =>
    rw [hcommit] at hstate
    obtain ⟨old, hold, rfl⟩ := Option.map_eq_some_iff.mp hstate
    obtain ⟨-, io, hattempt⟩ := attempt_of_commit codec hcommit
    have hagree := leasesAgree_apply committed.update (h.agrees old hold)
    by_cases hrewrites : committed.update.RewritesLeases
    · rwa [writtenLeases_of_attempt hattempt hrewrites] at hagree ⊢
    · rwa [Update.apply_of_not_rewritesLeases hrewrites _ shared.sup.leases] at hagree

end Shared

end Cameo.Supervisor
