import Cameo.Supervisor.FailedStart
import Cameo.Supervisor.Writers

/-!
# Interleavings of durable updates

Whatever the other threads have done since an operation began, its commit changes only the entries
the operation is about, and the durable state is the result of the committed updates, one after
another.  A call that is not interrupted is its sections in sequence.
-/

namespace Cameo.Supervisor

open Json Library Store

namespace Shared

variable (codec : Codec) {shared : Shared}

/-! ## Entries -/

def view (shared : Shared) : View Key.Entry := fun k ↦
  shared.sup.durable.bind fun state ↦ entries state k

theorem view_of_durable {state : IntentState} (h : shared.sup.durable = some state) :
    shared.view = entries state := by
  funext k
  rw [view, h, Option.bind_some]

/-- A section changes the entries as the update it commits does, if it commits one. -/
theorem view_step (h : shared.Sound) (hstore : shared.sup.durable.isSome) (part : Section) :
    (shared.step codec part).view =
      Patch.applyAll ((shared.commit codec part).toList.map Commit.patch) shared.view := by
  obtain ⟨state, hstate⟩ := Option.isSome_iff_exists.mp hstore
  have hdurable := durable_step codec h part
  cases hcommit : shared.commit codec part with
  | none =>
    rw [hcommit] at hdurable
    rw [view_of_durable hstate, view_of_durable (hdurable.trans hstate)]
    rfl
  | some committed =>
    rw [hcommit, hstate] at hdurable
    obtain ⟨hleases, io, hattempt⟩ := attempt_of_commit codec hcommit
    rw [view_of_durable hstate, view_of_durable hdurable, entries_apply]
    · simp [Commit.patch, hleases]
    · intro hrewrites
      exact writtenLeases_of_attempt hattempt hrewrites ▸ h.agrees state hstate

theorem isSome_durable_step (h : shared.Sound) (hstore : shared.sup.durable.isSome)
    (part : Section) : (shared.step codec part).sup.durable.isSome := by
  rw [durable_step codec h]
  cases shared.commit codec part <;> simpa using hstore

/-- A retention concerns the leases it drops. -/
theorem dropped_of_concerns {leases : LeaseMap} {keep : Lease → Bool} {k : Key}
    (h : ((Update.keepLeases keep).patch leases).Concerns k) :
    ∃ lease, k = .lease lease.sessionId ∧ leases.get? lease.sessionId = some lease ∧
      keep lease = false := by
  cases k with
  | lease sessionId =>
    obtain ⟨lease, hlease, hkeep⟩ : ∃ lease, leases.get? sessionId = some lease ∧
        keep lease = false := by
      simpa [Patch.Concerns, Update.patch, Option.any_eq_true] using h
    have hkey : lease.sessionId = sessionId := Keyed.Table.key_of_get? hlease
    exact ⟨lease, by rw [hkey], by rwa [hkey], hkeep⟩
  | endpoint id => cases h
  | session id => cases h

/-- An edit of the lease map concerns the leases it is about. -/
theorem about_of_edit {sup : Supervisor} {edit : LeaseEdit} {update : Update}
    (h : edit.update sup = some update) {k : Key}
    (hconcerns : (update.patch sup.leases).Concerns k) :
    ∃ sessionId, k = .lease sessionId ∧ edit.About sup.leases sessionId := by
  cases edit with
  | claim lease =>
    cases h
    cases k with
    | lease sessionId =>
      exact ⟨sessionId, rfl,
        by simpa [Patch.Concerns, Update.patch, LeaseEdit.About] using hconcerns⟩
    | endpoint id | session id => cases hconcerns
  | release sessionId =>
    obtain ⟨_, -, rfl⟩ := Option.map_eq_some_iff.mp h
    obtain ⟨lease, rfl, -, hkeep⟩ := dropped_of_concerns hconcerns
    exact ⟨_, rfl, by simpa [LeaseEdit.About] using hkeep⟩
  | renew sessionId io =>
    simp only [LeaseEdit.update, renewUpdate] at h
    split at h
    · cases h
    · split at h
      · cases h
      · split at h <;> cases h
        · obtain ⟨lease, rfl, -, hkeep⟩ := dropped_of_concerns hconcerns
          exact ⟨_, rfl, by simpa [LeaseEdit.About] using hkeep⟩
        · cases k with
          | lease renewed =>
            exact ⟨renewed, rfl,
              by simpa [Patch.Concerns, Update.patch, LeaseEdit.About] using hconcerns⟩
          | endpoint id | session id => cases hconcerns
  | expire now instants =>
    simp only [LeaseEdit.update, expireUpdate] at h
    split at h <;> cases h
    obtain ⟨lease, rfl, hlease, hkeep⟩ := dropped_of_concerns hconcerns
    exact ⟨_, rfl, lease, hlease, by simpa using hkeep⟩

/-- What a section writes concerns only what its operation is about. -/
theorem about_of_concerns (h : shared.Sound) {part : Section} {update : Update} {io : CommitIo}
    (hattempt : part.attempt shared = some (update, io)) {k : Key}
    (hconcerns : (update.patch shared.sup.leases).Concerns k) : part.About shared k := by
  cases part with
  | persistLeases io =>
    obtain ⟨pending, hpending, heq⟩ := Option.map_eq_some_iff.mp hattempt
    cases heq
    have hsome := (Option.filter_eq_some_iff.mp hpending).1
    obtain ⟨sessionId, rfl, habout⟩ := about_of_edit (h.pending pending hsome).1 hconcerns
    exact ⟨pending, hsome, habout⟩
  | startRetracts victims io =>
    simp only [Section.attempt] at hattempt
    split at hattempt <;> cases hattempt
    cases k with
    | endpoint id => simpa [Patch.Concerns, Update.patch, Section.About] using hconcerns
    | lease _ | session _ => cases hconcerns
  | startIntends started intent io =>
    cases hattempt
    cases k with
    | endpoint id =>
      have hid : started = id := by simpa [Patch.Concerns, Update.patch] using hconcerns
      exact hid.symm
    | lease _ | session _ => cases hconcerns
  | stopRetracts stopped io =>
    cases hattempt
    cases k with
    | endpoint id => simpa [Patch.Concerns, Update.patch, Section.About] using hconcerns
    | lease _ | session _ => cases hconcerns
  | persistSession session io =>
    cases hattempt
    cases k with
    | session id => simpa [Patch.Concerns, Update.patch, Section.About] using hconcerns
    | endpoint _ | lease _ => cases hconcerns
  | removeSession removed io =>
    simp only [Section.attempt] at hattempt
    split at hattempt <;> cases hattempt
    cases k with
    | session id => simpa [Patch.Concerns, Update.patch, Section.About] using hconcerns
    | lease sessionId => simpa [Patch.Concerns, Update.patch, Section.About] using hconcerns
    | endpoint _ => cases hconcerns
  | observe observations io =>
    obtain ⟨made, hmade, heq⟩ := Option.map_eq_some_iff.mp hattempt
    cases heq
    rw [observe_of_observationsUpdate hmade] at hconcerns
    cases k with
    | endpoint id => simpa [Patch.Concerns, Update.patch, Section.About] using hconcerns
    | lease _ | session _ => cases hconcerns
  | edit _ | adopt => cases hattempt

/-! ## Interleavings -/

theorem sound_of_initial {sup : Supervisor} (h : Initial codec sup) : (Shared.of sup).Sound := by
  refine ⟨h.agrees, ?_⟩
  intro pending hsome
  cases hsome

/-- The invariant and the store hold along every interleaving. -/
theorem sound_run {sup : Supervisor} (h : Initial codec sup) (hstore : sup.durable.isSome)
    (sections : List Section) :
    ((Shared.of sup).run codec sections).Sound ∧
      ((Shared.of sup).run codec sections).sup.durable.isSome :=
  Run.invariant_run_of_step (fun shared : Shared ↦ shared.Sound ∧ shared.sup.durable.isSome)
    (fun _ part held ↦ ⟨sound_step codec held.1 part, isSome_durable_step codec held.1 held.2 part⟩)
    sections ⟨sound_of_initial codec h, hstore⟩

/-- The entries after an interleaving are those before it, with the committed updates applied in
order. -/
theorem view_run (h : shared.Sound) (hstore : shared.sup.durable.isSome)
    (sections : List Section) :
    (shared.run codec sections).view =
      Patch.applyAll ((shared.commits codec sections).map Commit.patch) shared.view := by
  induction sections generalizing shared with
  | nil => rfl
  | cons part rest ih =>
    have hrest := ih (sound_step codec h part) (isSome_durable_step codec h hstore part)
    rw [view_step codec h hstore] at hrest
    rw [commits, List.map_append, Patch.applyAll_append]
    exact hrest

/-- A section leaves alone what its operation is not about. -/
theorem view_step_of_not_about (h : shared.Sound) (hstore : shared.sup.durable.isSome)
    {part : Section} {k : Key} (hk : ¬ part.About shared k) :
    (shared.step codec part).view k = shared.view k := by
  rw [view_step codec h hstore]
  cases hcommit : shared.commit codec part with
  | none => rfl
  | some committed =>
    obtain ⟨hleases, io, hattempt⟩ := attempt_of_commit codec hcommit
    apply Patch.apply_of_not_concerns
    intro hconcerns
    rw [Commit.patch, hleases] at hconcerns
    exact hk (about_of_concerns h hattempt hconcerns)

/-- A section of `maintain` writes nothing but observations. -/
theorem same_step_observe (h : shared.Sound) (hstore : shared.sup.durable.isSome)
    (observations : List Observation) (io : CommitIo) (k : Key) :
    k.Same (shared.view k) ((shared.step codec (.observe observations io)).view k) := by
  rw [view_step codec h hstore]
  cases hcommit : shared.commit codec (.observe observations io) with
  | none => exact k.same_refl _
  | some committed =>
    obtain ⟨-, io', hattempt⟩ := attempt_of_commit codec hcommit
    obtain ⟨made, hmade, heq⟩ := Option.map_eq_some_iff.mp hattempt
    have hupdate : committed.update = .observe observations :=
      (congrArg Prod.fst heq).symm.trans (observe_of_observationsUpdate hmade)
    simp only [Option.toList_some, List.map_cons, List.map_nil, Patch.applyAll_cons,
      Patch.applyAll_nil, Commit.patch, hupdate]
    exact same_observe committed.leases observations k shared.view

/-- An entry stays, up to observations, as long as no other commit concerns it. -/
theorem same_run (h : shared.Sound) (hstore : shared.sup.durable.isSome) {late : List Section}
    {k : Key} (hlate : ∀ later ∈ shared.commits codec late, later.patch.Concerns k →
      ∃ observations, later.update = .observe observations) :
    k.Same (shared.view k) ((shared.run codec late).view k) := by
  rw [view_run codec h hstore]
  apply Patch.applyAll_related k.same_refl Key.same_trans
  intro patch hmem hconcerns view
  obtain ⟨later, hlater, rfl⟩ := List.mem_map.mp hmem
  obtain ⟨observations, hupdate⟩ := hlate later hlater hconcerns
  rw [Commit.patch, hupdate]
  exact same_observe later.leases observations k view

/-- In every interleaving, the durable entries are those at the beginning with the committed updates
applied one after another; every section leaves alone what its operation is not about, and a
committed entry stays, up to observations, until another committed operation is about it. -/
theorem no_lost_update {sup : Supervisor} (h : Initial codec sup) (hstore : sup.durable.isSome)
    (sections : List Section) :
    ((Shared.of sup).run codec sections).view =
        Patch.applyAll (((Shared.of sup).commits codec sections).map Commit.patch)
          (Shared.of sup).view ∧
      ∀ early part late, sections = early ++ part :: late →
        let before := (Shared.of sup).run codec early
        let after := before.step codec part
        (∀ k, ¬ part.About before k → after.view k = before.view k) ∧
          (∀ observations io, part = .observe observations io →
            ∀ k : Key, k.Same (before.view k) (after.view k)) ∧
          ∀ committed, before.commit codec part = some committed →
            after.view = committed.patch.apply before.view ∧
              ∀ k : Key, (∀ later ∈ after.commits codec late, later.patch.Concerns k →
                  ∃ observations, later.update = .observe observations) →
                k.Same (after.view k) (((Shared.of sup).run codec sections).view k) := by
  refine ⟨view_run codec (sound_of_initial codec h) hstore sections, ?_⟩
  intro early part late hsections
  obtain ⟨hsound, hdurable⟩ := sound_run codec h hstore early
  have hrun : (Shared.of sup).run codec sections =
      (((Shared.of sup).run codec early).step codec part).run codec late := by
    rw [hsections, run, Run.run_append, Run.run_cons]
    rfl
  refine ⟨fun k ↦ view_step_of_not_about codec hsound hdurable, ?_, ?_⟩
  · intro observations io hpart k
    rw [hpart]
    exact same_step_observe codec hsound hdurable observations io k
  · intro committed hcommit
    constructor
    · rw [view_step codec hsound hdurable, hcommit]
      rfl
    · intro k hlate
      rw [hrun]
      exact same_run codec (sound_step codec hsound part)
        (isSome_durable_step codec hsound hdurable part) hlate

/-- The first session recorded in an empty directory is durable, whatever else is committed. -/
theorem no_lost_update_openedEmpty :
    let session : SessionRecord := ⟨"s1", "", "", "", "", ""⟩
    let sections : List Section := [.persistSession session (.ok "06"),
      .stopRetracts "alpha-8080" (.ok "07")]
    ((Shared.of openedEmpty).run .constant sections).view =
      Patch.applyAll (((Shared.of openedEmpty).commits .constant sections).map Commit.patch)
        (Shared.of openedEmpty).view :=
  (no_lost_update .constant (initial_openedEmpty .constant) rfl _).1

end Shared

/-! ## Calls as sections -/

/-- The sections of a call, in order. -/
def Call.sections (sys : Sys) : Call → List Section
  | .stop id io => if (sys.sup.stopUpdate id).isSome then [.stopRetracts id io.commit] else []
  | .lease sessionId model io =>
    match (visit (fun _ ↦ true) (fun endpoint ↦ endpoint.model = model && endpoint.isReady)
      io.refresh sys.sup.endpoints).found with
    | none => []
    | some endpoint =>
      [.edit (.claim (grantedLease sessionId model endpoint.id io)), .persistLeases io.commit,
        .adopt]
  | .release sessionId io => [.edit (.release sessionId), .persistLeases io, .adopt]
  | .renewLease sessionId io => [.edit (.renew sessionId io), .persistLeases io.commit, .adopt]
  | .persistSession session io => [.persistSession session io]
  | .removeSession id io => [.removeSession id io]
  | .expireLeases now instants io =>
    match sys.maintenance with
    | .idle => [.edit (.expire (epochSeconds now) instants), .persistLeases io, .adopt]
    | _ => []
  | .persistObservations io =>
    match sys.maintenance with
    | .observed observations => [.observe observations io]
    | _ => []
  | _ => []

/-- The sections of a start: none, if it is refused, and only the first, if it cannot evict. -/
def startSections (codec : Codec) (req : StartRequest) (io : StartIo) (sup : Supervisor) :
    List Section :=
  if sup.shuttingDown then []
  else
    match (checkPort req io sup.endpoints).result, (decided req io sup).result with
    | .ok (), .ok victims =>
      .startRetracts victims io.retract ::
        match (evict codec io victims { sup with endpoints := (decided req io sup).map }).1 with
        | .ok () => [.startIntends req.id req.intent io.intend]
        | .error _ => []
    | _, _ => []

def Label.sections (codec : Codec) (sys : Sys) : Label → List Section
  | .start req io => startSections codec req io sys.sup
  | .call issued => issued.sections sys

namespace Shared

variable (codec : Codec)

/-- No operation is under way, and leases and store are those of a supervisor. -/
structure Settled (shared : Shared) (sup : Supervisor) : Prop where
  pending : shared.pending = none
  store : shared.sup.store = sup.store
  leases : shared.sup.leases = sup.leases

/-- The sections of an edit are the adoption of its map. -/
theorem run_edit (sup : Supervisor) (edit : LeaseEdit) (io : CommitIo) :
    (Shared.of sup).run codec [.edit edit, .persistLeases io, .adopt] =
      match edit.update sup with
      | none => Shared.of sup
      | some update =>
        Shared.of (adoptLeases codec io (update.onLeases sup.leases) () sup).sup := by
  cases hupdate : edit.update sup with
  | none => simp [run, step, Shared.of, hupdate]
  | some update =>
    rcases hpersist : Supervisor.persistLeases codec io (update.onLeases sup.leases) sup with
      ⟨e | _, after⟩ <;>
    simp [run, step, Shared.of, hupdate, adoptLeases, hpersist]

theorem settled_edit {α : Type} (answer : α) {sup after : Supervisor} {edit : LeaseEdit}
    {io : CommitIo}
    (h : match edit.update sup with
      | none => after = sup
      | some update =>
        after = (adoptLeases codec io (update.onLeases sup.leases) answer sup).sup) :
    ((Shared.of sup).run codec [.edit edit, .persistLeases io, .adopt]).Settled after := by
  rw [run_edit]
  cases hupdate : edit.update sup with
  | none =>
    rw [hupdate] at h
    exact h ▸ ⟨rfl, rfl, rfl⟩
  | some update =>
    rw [hupdate] at h
    dsimp only at h ⊢
    rw [h]
    unfold adoptLeases
    split <;> exact ⟨rfl, rfl, rfl⟩

theorem settled_stop (sup : Supervisor) (id : String) (io : StopIo) :
    ((Shared.of sup).run codec
        (if (sup.stopUpdate id).isSome then [.stopRetracts id io.commit] else [])).Settled
      (sup.stop codec id io).sup := by
  unfold stop stopUpdate
  dsimp only
  split
  · exact ⟨rfl, rfl, rfl⟩
  · rw [if_pos (by rfl)]
    split
    · rename_i heq
      obtain ⟨-, rfl⟩ := commitWith_eq codec heq
      exact ⟨rfl, rfl, rfl⟩
    · rename_i heq
      obtain ⟨-, rfl⟩ := commitWith_eq codec heq
      split
      · exact ⟨rfl, rfl, rfl⟩
      · split <;> exact ⟨rfl, rfl, rfl⟩

theorem settled_lease (sup : Supervisor) (sessionId model : String) (io : LeaseIo) :
    ((Shared.of sup).run codec
        (match (visit (fun _ ↦ true) (fun endpoint ↦ endpoint.model = model && endpoint.isReady)
          io.refresh sup.endpoints).found with
        | none => []
        | some endpoint =>
          [.edit (.claim (grantedLease sessionId model endpoint.id io)), .persistLeases io.commit,
            .adopt])).Settled
      (sup.lease codec sessionId model io).sup := by
  unfold lease
  dsimp only
  cases (visit (fun _ ↦ true) (fun endpoint ↦ endpoint.model = model && endpoint.isReady)
    io.refresh sup.endpoints).found with
  | none => exact ⟨rfl, rfl, rfl⟩
  | some endpoint =>
    dsimp only
    rw [run_edit]
    simp only [LeaseEdit.update, adoptLeases, Supervisor.persistLeases, commitWith, Update.onLeases]
    rcases commitStore codec io.commit _ sup.store with ⟨e | _, store⟩ <;> exact ⟨rfl, rfl, rfl⟩

theorem settled_call (sys : Sys) (call : Call) :
    ((Shared.of sys.sup).run codec (call.sections sys)).Settled (call.perform codec sys).sup := by
  cases call with
  | stop id io => exact settled_stop codec sys.sup id io
  | lease sessionId model io => exact settled_lease codec sys.sup sessionId model io
  | release sessionId io =>
    apply settled_edit codec true
    simp only [LeaseEdit.update, releaseUpdate, Call.perform, Sys.after, release]
    cases sys.sup.leases.get? sessionId <;> rfl
  | renewLease sessionId io =>
    apply settled_edit codec ()
    simp only [LeaseEdit.update, renewUpdate, Call.perform, Sys.after, renewLease]
    cases sys.sup.leases.get? sessionId with
    | none => rfl
    | some lease =>
      dsimp only
      cases lease.recovered with
      | true => rfl
      | false =>
        cases lease.expired (epochSeconds io.checkedAt) io.checkedInstant <;> rfl
  | persistSession session io => exact ⟨rfl, rfl, rfl⟩
  | removeSession id io => exact ⟨rfl, rfl, rfl⟩
  | expireLeases now instants io =>
    cases hphase : sys.maintenance with
    | idle =>
      simp only [Call.sections, Call.perform, hphase, Sys.after]
      apply settled_edit codec ()
      simp only [LeaseEdit.update, expireUpdate, expireLeases]
      by_cases hsome : (sys.sup.leases.retain fun lease ↦
          !lease.expired (epochSeconds now) (instants lease.sessionId)).entries.length ≠
            sys.sup.leases.entries.length
      · simp only [if_pos hsome]
        rfl
      · simp only [if_neg hsome]
    | _ =>
      simp only [Call.sections, Call.perform, hphase]
      exact ⟨rfl, rfl, rfl⟩
  | persistObservations io =>
    cases hphase : sys.maintenance with
    | observed observations =>
      simp only [Call.sections, Call.perform, hphase, Sys.after]
      exact ⟨rfl, rfl, rfl⟩
    | _ =>
      simp only [Call.sections, Call.perform, hphase]
      exact ⟨rfl, rfl, rfl⟩
  | schedule io | probe answers | applyProbes now =>
    simp only [Call.perform]
    split <;> exact ⟨rfl, rfl, rfl⟩
  | leaseStatus sessionId io =>
    simp only [Call.perform, Sys.after, leaseStatus]
    split <;> exact ⟨rfl, rfl, rfl⟩
  | _ => exact ⟨rfl, rfl, rfl⟩

/-- An eviction writes its retraction and nothing else. -/
theorem settled_evict (io : StartIo) (victims : List String) (sup : Supervisor)
    (map : EndpointMap) :
    (Shared.of (retractIntents codec io.retract victims sup).2).Settled
      (evict codec io victims { sup with endpoints := map }).2 := by
  unfold evict retractIntents
  cases victims.isEmpty with
  | true => exact ⟨rfl, rfl, rfl⟩
  | false =>
    simp only [Bool.false_eq_true, if_false]
    split <;> rename_i heq
    · obtain ⟨-, rfl⟩ := commitWith_eq codec heq
      exact ⟨rfl, rfl, rfl⟩
    · obtain ⟨-, rfl⟩ := commitWith_eq codec heq
      exact ⟨rfl, rfl, rfl⟩

/-- A launch writes its intent and nothing else. -/
theorem settled_launch (req : StartRequest) (io : StartIo) (sup : Supervisor) :
    (Shared.of (commitIntent codec io.intend [] (some (req.id, req.intent)) sup).2).Settled
      (launch codec req io sup).sup := by
  unfold launch
  split <;> rename_i heq
  · rw [heq]
    exact ⟨rfl, rfl, rfl⟩
  · rw [heq]
    exact ⟨rfl, rfl, rfl⟩

theorem settled_start (req : StartRequest) (io : StartIo) (sup : Supervisor) :
    ((Shared.of sup).run codec (startSections codec req io sup)).Settled
      (start codec req io sup).sup := by
  have hstarted := started codec req io sup
  generalize start codec req io sup = out at hstarted
  unfold startSections
  cases hstarted with
  | latched hlatch =>
    rw [if_pos hlatch]
    exact ⟨rfl, rfl, rfl⟩
  | taken hlatch hport =>
    rw [if_neg (by simp [hlatch]), hport]
    exact ⟨rfl, rfl, rfl⟩
  | refused hlatch hport hdecided =>
    rw [if_neg (by simp [hlatch]), hport, hdecided]
    exact ⟨rfl, rfl, rfl⟩
  | @unevicted e victims hlatch hport hdecided hevict =>
    rw [if_neg (by simp [hlatch]), hport, hdecided]
    dsimp only
    rw [hevict]
    exact settled_evict codec io victims sup _
  | @launched victims hlatch hport hdecided hevict out hlaunch =>
    rw [if_neg (by simp [hlatch]), hport, hdecided]
    dsimp only
    rw [hevict]
    obtain ⟨-, hstore, hleases⟩ := settled_evict codec io victims sup (decided req io sup).map
    have hout := settled_launch codec req io
      (evict codec io victims { sup with endpoints := (decided req io sup).map }).2
    rw [hlaunch] at hout
    refine ⟨rfl, ?_, hleases.trans hout.leases⟩
    rw [← hout.store]
    exact congrArg (fun store ↦ (commitStore codec io.intend _ store).2) hstore

/-- A step that is not interrupted is its sections in sequence. -/
theorem settled_step (sys : Sys) (label : Label) :
    ((Shared.of sys.sup).run codec (label.sections codec sys)).Settled
      (sys.step codec label).sup := by
  cases label with
  | start req io => exact settled_start codec req io sys.sup
  | call call => exact settled_call codec sys call

end Shared

end Cameo.Supervisor
