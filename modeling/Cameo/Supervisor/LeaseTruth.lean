import Cameo.Supervisor.Availability
import Cameo.Supervisor.LeaseAgreement

/-!
# What an active lease says

A lease names its endpoint by id, and `lease_view` reports it active when the endpoint of that id
is ready.  An id is a slug of the model and the port, so two models can share one: after the
endpoint of a lease is stopped, a start of the other model on the same port revives the lease.  As
long as no start takes the id of a granted lease for another model, every lease is *bound*: the
endpoint of its id serves its model, and what is reported as active is true.
-/

namespace Cameo.Supervisor

open Json Library Store

/-! ## Reports -/

/-- A lease report is true of the endpoints: if it says `active`, the endpoint it names is ready and
serves the model it names. -/
def ReportTrue (report : Value) (map : EndpointMap) : Prop :=
  report.get? "state" = some (.string "active") →
    ∃ endpoint ∈ map.entries, report.get? "endpoint_id" = some (.string endpoint.id) ∧
      endpoint.isReady = true ∧ report.get? "model" = some (.string endpoint.model)

instance (report : Value) (map : EndpointMap) : Decidable (ReportTrue report map) :=
  inferInstanceAs (Decidable (_ → ∃ endpoint ∈ map.entries, _ ∧ _ ∧ _))

/-- Every lease report of a supervisor is true of the endpoints it leaves: the status of a session,
and the answer to a claim. -/
structure ReportsTrue (codec : Codec) (sup : Supervisor) : Prop where
  status : ∀ sessionId io report, (sup.leaseStatus sessionId io).result = some report →
    ReportTrue report (sup.leaseStatus sessionId io).sup.endpoints
  claim : ∀ sessionId model io report,
    (sup.lease codec sessionId model io).result = .ok report →
      ReportTrue report (sup.lease codec sessionId model io).sup.endpoints

theorem get?_leaseJson (lease : Lease) (state : LeaseState) :
    (leaseJson lease state).get? "state" = some (.string state.label) ∧
      (leaseJson lease state).get? "endpoint_id" = some (.string lease.endpointId) ∧
      (leaseJson lease state).get? "model" = some (.string lease.model) := by
  unfold leaseJson
  refine ⟨?_, ?_, ?_⟩ <;>
    rw [Value.get?_ofFields (by simp)] <;> rfl

theorem eq_active_of_label {state : LeaseState} (h : state.label = "active") :
    state = .active := by
  cases state with
  | active => rfl
  | expired => simp [LeaseState.label] at h
  | recoveryRequired => simp [LeaseState.label] at h
  | unavailable => simp [LeaseState.label] at h

theorem json_leaseView (io : LeaseViewIo) (lease : Lease) (map : EndpointMap) :
    (leaseView io lease map).json = leaseJson lease (leaseView io lease map).state := by
  unfold leaseView
  split
  · rfl
  · split <;> rfl

/-! ## Bound leases -/

/-- The endpoint of a lease's id, if there is one, serves the lease's model. -/
def Lease.Bound (lease : Lease) (map : EndpointMap) : Prop :=
  ∀ endpoint ∈ map.entries, endpoint.id = lease.endpointId → endpoint.model = lease.model

/-- Endpoints that are kept leave a lease bound. -/
theorem Lease.Bound.of_kept {lease : Lease} {before after : EndpointMap} (h : lease.Bound before)
    (hkept : ∀ endpoint ∈ after.entries, ∃ old ∈ before.entries, Endpoint.Kept old endpoint) :
    lease.Bound after := by
  intro endpoint hmem hid
  obtain ⟨old, hold, hsame⟩ := hkept endpoint hmem
  rw [hsame.model]
  exact h old hold (hsame.id.symm.trans hid)

/-- A lease on an endpoint of the map, for the model it serves, is bound. -/
theorem bound_of_mem {lease : Lease} {map : EndpointMap} {endpoint : Endpoint}
    (hmem : endpoint ∈ map.entries) (hid : endpoint.id = lease.endpointId)
    (hmodel : endpoint.model = lease.model) : lease.Bound map := by
  intro other hother hotherId
  rw [Keyed.Table.eq_of_key_eq hother hmem (hotherId.trans hid.symm)]
  exact hmodel

theorem kept_visit (pick hit : Endpoint → Bool) (io : String → RefreshIo) (map : EndpointMap) :
    ∀ endpoint ∈ (visit pick hit io map).map.entries,
      ∃ old ∈ map.entries, Endpoint.Kept old endpoint :=
  fun _ hmem ↦ (visit_refreshes pick hit io map).evolved.kept hmem

/-- The view of a bound lease is true. -/
theorem reportTrue_leaseView (io : LeaseViewIo) {lease : Lease} {map : EndpointMap}
    (h : lease.recovered = false → lease.Bound map) :
    ReportTrue (leaseView io lease map).json (leaseView io lease map).map := by
  intro hreport
  rw [json_leaseView] at hreport ⊢
  obtain ⟨hstate, hendpoint, hmodel⟩ := get?_leaseJson lease (leaseView io lease map).state
  have hlabel : (leaseView io lease map).state.label = "active" := by
    rw [hstate] at hreport
    exact Value.string.inj (Option.some.inj hreport)
  have hactive := eq_active_of_label hlabel
  obtain ⟨hgranted, hfresh⟩ := leaseView_active hactive
  rw [hendpoint, hmodel]
  unfold leaseView at hactive ⊢
  rw [if_neg (by simp [hfresh]), if_neg (by simp [hgranted])] at hactive ⊢
  dsimp only at hactive ⊢
  split at hactive
  · rename_i hready
    obtain ⟨endpoint, hfound, hisReady⟩ := (Option.any_eq_true _ _).mp hready
    obtain ⟨-, hmem, old, -, hpick, heq⟩ := Keyed.walk_found _ _ _ hfound
    have hid : endpoint.id = lease.endpointId := by
      rw [heq, Endpoint.id_refresh]
      simpa using hpick
    have hbound := (h hgranted).of_kept (kept_visit (fun endpoint ↦ endpoint.id = lease.endpointId)
      (fun _ ↦ true) (fun _ ↦ io.refresh) map)
    exact ⟨endpoint, hmem, by rw [hid], hisReady, by rw [hbound endpoint hmem hid]⟩
  · cases hactive

/-! ## Runs -/

/-- Every lease granted by this daemon is bound; recovered ones are never reported active. -/
def LeasesBound (sup : Supervisor) : Prop :=
  ∀ sessionId lease, sup.leases.get? sessionId = some lease → lease.recovered = false →
    lease.Bound sup.endpoints

/-- A start that passes the port check and admission does not take the endpoint id of a granted
lease for another model. -/
def KeepsLeasedIds (sys : Sys) : Label → Prop
  | .start req io => (checkPort req io sys.sup.endpoints).result.toBool = true →
      (decided req io sys.sup).result.toBool = true →
        ∀ lease ∈ sys.sup.leases.entries, lease.recovered = false →
          lease.endpointId = req.id → lease.model = req.model
  | .call _ => True

instance (sys : Sys) : ∀ label, Decidable (KeepsLeasedIds sys label)
  | .start req io => inferInstanceAs (Decidable (
      (checkPort req io sys.sup.endpoints).result.toBool = true →
        (decided req io sys.sup).result.toBool = true →
          ∀ lease ∈ sys.sup.leases.entries, lease.recovered = false →
            lease.endpointId = req.id → lease.model = req.model))
  | .call _ => .isTrue trivial

/-- What a claim finds serves the claimed model. -/
theorem bound_of_found {sessionId model : String} {io : LeaseIo} {map : EndpointMap}
    {endpoint : Endpoint}
    (hfound : (visit (fun _ ↦ true) (fun endpoint ↦ endpoint.model = model && endpoint.isReady)
      io.refresh map).found = some endpoint) :
    (grantedLease sessionId model endpoint.id io).Bound map ∧
      (grantedLease sessionId model endpoint.id io).Bound
        (visit (fun _ ↦ true) (fun endpoint ↦ endpoint.model = model && endpoint.isReady)
          io.refresh map).map := by
  obtain ⟨hhit, hmem, old, hold, -, heq⟩ := Keyed.walk_found _ _ _ hfound
  simp only [Bool.and_eq_true, decide_eq_true_eq] at hhit
  have hkept := Endpoint.kept_refresh (io.refresh old.id) old
  rw [← heq] at hkept
  exact ⟨bound_of_mem hold hkept.id.symm (hkept.model.symm.trans hhit.1),
    bound_of_mem hmem rfl hhit.1⟩

theorem leasesBound_start (codec : Codec) {sys : Sys} {req : StartRequest} {io : StartIo}
    (h : LeasesBound sys.sup) (hids : KeepsLeasedIds sys (.start req io)) :
    LeasesBound (sys.step codec (.start req io)).sup := by
  intro sessionId lease hlease hgranted endpoint hmem hid
  change (start codec req io sys.sup).sup.leases.get? sessionId = some lease at hlease
  rw [(leases_start codec req io sys.sup).1] at hlease
  have hkeeps {old : Endpoint} {spawned : Spawn → Prop} (hold : old ∈ sys.sup.endpoints.entries)
      (hevolved : Endpoint.Evolved spawned old endpoint) : endpoint.model = lease.model := by
    rw [hevolved.model]
    exact h sessionId lease hlease hgranted old hold (hevolved.id.symm.trans hid)
  cases hresult : (start codec req io sys.sup).result with
  | error e =>
    obtain ⟨old, hold, hevolved⟩ := evolved_start_of_error codec hresult endpoint hmem
    exact hkeeps hold hevolved
  | ok view =>
    obtain ⟨victims, hlaunched⟩ := start_ok codec hresult
    rcases mem_start codec hmem with ⟨old, hold, hevolved⟩ | ⟨hevolved, -⟩
    · exact hkeeps hold hevolved
    · rw [hevolved.model]
      exact (hids (by rw [hlaunched.port]; rfl) (by rw [hlaunched.decided]; rfl) lease
        (Keyed.Table.mem_of_get? hlease) hgranted (hid.symm.trans hevolved.id)).symm

theorem leasesBound_perform (codec : Codec) (call : Call) {sys : Sys} (h : LeasesBound sys.sup) :
    LeasesBound (call.perform codec sys).sup := by
  intro sessionId lease hlease hgranted
  have hkept := fun endpoint ↦ @kept_perform codec sys call endpoint
  have hold (hsame : sys.sup.leases.get? sessionId = some lease) :
      lease.Bound (call.perform codec sys).sup.endpoints :=
    (h sessionId lease hsame hgranted).of_kept hkept
  rcases (persists_perform codec sys call).memory with ⟨-, hleases⟩ |
    ⟨committed, hupdate, -, hleases⟩
  · rw [hleases] at hlease
    exact hold hlease
  · rw [hleases] at hlease
    rcases (commits_of_update hupdate).lease_cases hlease with
      hsame | ⟨model, io, found, -, hfound, rfl⟩ | ⟨io, old, hbefore, hactive, rfl⟩
    · exact hold hsame
    · exact (bound_of_found hfound).1.of_kept hkept
    · exact (h sessionId old hbefore hactive).of_kept hkept

theorem leasesBound_step (codec : Codec) (sys : Sys) (label : Label) (h : LeasesBound sys.sup)
    (hids : KeepsLeasedIds sys label) : LeasesBound (sys.step codec label).sup := by
  cases label with
  | start req io => exact leasesBound_start codec h hids
  | call call => exact leasesBound_perform codec call h

/-- A daemon begins with recovered leases at most. -/
theorem Initial.leasesBound {codec : Codec} {sup : Supervisor} (h : Initial codec sup) :
    LeasesBound sup := by
  intro sessionId lease _ _ endpoint hmem
  rw [h.endpoints.1] at hmem
  cases hmem

/-- While the leases are bound, what is reported of them is true. -/
theorem reportsTrue_of_leasesBound (codec : Codec) {sup : Supervisor} (h : LeasesBound sup) :
    ReportsTrue codec sup where
  status := by
    intro sessionId io report hreport
    unfold leaseStatus at hreport ⊢
    cases hlease : sup.leases.get? sessionId with
    | none =>
      rw [hlease] at hreport
      cases hreport
    | some lease =>
      rw [hlease] at hreport
      cases hreport
      exact reportTrue_leaseView io (h sessionId lease hlease)
  claim := by
    intro sessionId model io report hreport
    unfold lease at hreport ⊢
    dsimp only at hreport ⊢
    split at hreport
    · cases hreport
    · rename_i endpoint hfound
      split at hreport
      · cases hreport
      · rename_i persisted hcommit
        obtain ⟨-, rfl⟩ := commitWith_eq codec hcommit
        cases hreport
        exact reportTrue_leaseView io.view fun _ ↦ (bound_of_found hfound).2

/-- In every run in which no admitted start takes the id of a granted lease for another model, every
lease reported as active names a ready endpoint that serves the lease's model. -/
theorem active_leases_true {codec : Codec} {sup : Supervisor} (hinitial : Initial codec sup)
    {labels : List Label} (hids : Run.Meets (Sys.step codec) KeepsLeasedIds (.fresh sup) labels)
    {early : List Label} (hearly : early <+: labels) :
    ReportsTrue codec ((Sys.fresh sup).run codec early).sup :=
  reportsTrue_of_leasesBound codec (Run.invariant_reached (fun sys : Sys ↦ LeasesBound sys.sup)
    (leasesBound_step codec) hinitial.leasesBound hids hearly)

/-- One session claims a model, and its endpoint is stopped. -/
def stoppedLease : List Label :=
  [.start (.simple "a_b" 8081 8 16 false) (.plain 4000000000 ⟨101, 1⟩)] ++
    healthyPass 5000000000 ++
    [.call (.lease "session" "a_b" (.plain 6000000000)),
      .call (.stop "a-b-8081" ⟨.ok "07", .prompt⟩)]

def startsReady (model : String) : List Label :=
  .start (.simple model 8081 8 16 false) (.plain 7000000000 ⟨102, 2⟩) :: healthyPass 8000000000

/-- The same model comes back, and the status of the lease is true. -/
theorem active_leases_true_returned :
    let sup := ((Sys.fresh default).run .constant (stoppedLease ++ startsReady "a_b")).sup
    Run.Meets (Sys.step .constant) KeepsLeasedIds (.fresh default)
        (stoppedLease ++ startsReady "a_b") ∧
      ReportsTrue .constant sup := by
  have hids : Run.Meets (Sys.step .constant) KeepsLeasedIds (.fresh default)
      (stoppedLease ++ startsReady "a_b") := by
    decide +kernel
  exact ⟨hids, active_leases_true .default hids (List.prefix_refl _)⟩

/-- Another model of the same slug takes the port, and the lease is reported active again. -/
theorem not_reportsTrue_revived :
    Initial .constant default ∧
      let sup := ((Sys.fresh default).run .constant (stoppedLease ++ startsReady "a-b")).sup
      let status := sup.leaseStatus "session" ⟨9000000000, 0, .alive 9000000000⟩
      (∃ report, status.result = some report ∧ ¬ ReportTrue report status.sup.endpoints) ∧
        ¬ ReportsTrue .constant sup := by
  refine ⟨.default, ?_⟩
  dsimp only
  generalize hsup : ((Sys.fresh default).run .constant
    (stoppedLease ++ startsReady "a-b")).sup = sup
  have hfalse : ∃ report ∈ (sup.leaseStatus "session" ⟨9000000000, 0, .alive 9000000000⟩).result,
      ¬ ReportTrue report
        (sup.leaseStatus "session" ⟨9000000000, 0, .alive 9000000000⟩).sup.endpoints := by
    subst hsup
    decide +kernel
  obtain ⟨report, hreport, hnot⟩ := hfalse
  exact ⟨⟨report, hreport, hnot⟩, fun h ↦ hnot (h.status _ _ report hreport)⟩

end Cameo.Supervisor
