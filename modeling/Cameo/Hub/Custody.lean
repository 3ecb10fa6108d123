import Cameo.Hub.Fleet

/-!
# Who has which credential

A device credential is drawn for one connection, is sent to the node that has opened it, and is from
then on in that node's memory or file.  So what a node has was issued to it, two nodes never have
the same secret, and the hub keeps the row of a credential bound to it through crashes and restarts
until the row is removed or evicted.
-/

namespace Cameo.Hub

open Json Library Library.Durable

variable {ι : Type} [DecidableEq ι] {codec : Codec} {hash : String → Digest}
  {cfg : ι → HubConfig} {fleet : Fleet ι} {event : FleetEvent ι}

namespace Fleet

/-! ## What every fleet is like -/

/-- The roster is sound, every pairing under way has been checked, and every node waits for a
connection of its own. -/
structure Orderly (fleet : Fleet ι) : Prop where
  sound : Sound fleet.farm
  checked : ∀ (n : ℕ) (connection : Connection ι), fleet.connections[n]? = some connection →
    ∀ request, connection.stage.request? = some request → checkPairing request.registration = none
  awaits : ∀ i n, fleet.awaiting i = some n →
    ∃ stage, fleet.connections[n]? = some ⟨some i, stage⟩

omit [DecidableEq ι] in
/-- What the first section of a request comes to. -/
theorem admission_cases (codec : Codec) (hash : String → Digest) (fleet : Fleet ι)
    (req : Daemon.Request) (body : Option Value) (now : Instant) (parseError : String) :
    let admission := fleet.admission codec hash req body now parseError
    (∃ response, admission.stage = .answered response ∧ IsRefusal response ∧ admission.op = none) ∨
      (∃ request, admission.stage = .live request ∧ checkPairing request.registration = none ∧
        admission.op = none) ∨
      (∃ reg, admission.stage = .answered
          (registeredResponse (fleet.farm.register codec now reg).1) ∧
        admission.op = some (.register now reg)) ∨
      (∃ beat, admission.stage = .beating beat ∧
        authenticateHeartbeat hash fleet.access req body fleet.farm = .ok beat ∧
        admission.op = none) ∨
      (admission.stage = .closed ∧ admission.op = none) := by
  unfold admission
  cases hroute : Daemon.route fleet.access now req with
  | mk routed rateLimits =>
    dsimp only
    split
    · exact .inl ⟨_, rfl, isRefusal_of_route (by rw [hroute]), rfl⟩
    · split
      · rename_i hadmit
        rcases admitPair_cases hadmit with ⟨response, hresponse, hrefusal⟩ | ⟨request, hok, -⟩
        · obtain rfl := Except.error.inj hresponse
          exact .inl ⟨_, rfl, hrefusal, rfl⟩
        · cases hok
      · rename_i hadmit
        rcases admitPair_cases hadmit with ⟨response, hresponse, -⟩ | ⟨request, hok, hchecked⟩
        · cases hresponse
        · obtain rfl := Except.ok.inj hok
          exact .inr (.inl ⟨_, rfl, hchecked, rfl⟩)
    · split
      · exact .inl ⟨_, rfl, isRefusal_error (by decide), rfl⟩
      · exact .inr (.inr (.inl ⟨_, rfl, rfl⟩))
    · split
      · rename_i hbeat
        exact .inl ⟨_, rfl, isRefusal_of_authenticateHeartbeat hbeat, rfl⟩
      · rename_i hbeat
        exact .inr (.inr (.inr (.inl ⟨_, rfl, hbeat, rfl⟩)))
    · exact .inr (.inr (.inr (.inr ⟨rfl, rfl⟩)))

omit [DecidableEq ι] in
theorem routed_of_op? (h : fleet.Orderly) {op : Op}
    (hop : op? codec hash fleet event = some op) : Routed op := by
  cases event with
  | accept n now parseError =>
    simp only [op?] at hop
    split at hop
    · rename_i req body hstage
      rcases admission_cases codec hash fleet req body now parseError with
        ⟨_, -, -, hnone⟩ | ⟨_, -, -, hnone⟩ | ⟨reg, -, hsome⟩ | ⟨_, -, -, hnone⟩ | ⟨-, hnone⟩
      case inr.inr.inl =>
        cases hsome.symm.trans hop
        trivial
      all_goals cases hnone.symm.trans hop
    · cases hop
  | enroll n io now =>
    simp only [op?] at hop
    split at hop
    · rename_i hstage
      cases hop
      obtain ⟨opener, hconnection⟩ := stage?_eq_some hstage
      exact h.checked n _ hconnection _ rfl
    · cases hop
  | refresh n now =>
    simp only [op?] at hop
    split at hop
    · cases hop
      trivial
    · cases hop
  | operate op' hoperator =>
    obtain rfl := Option.some.inj hop
    cases op' with
    | pair io now reg digest label => cases hoperator
    | _ => trivial
  | node i event hlocal => cases hop
  | call i description headers => cases hop
  | foreign req body => cases hop
  | fail i error => cases hop
  | deliver i => cases hop
  | issue n random => cases hop
  | redeem n now => cases hop
  | offer label random now => cases hop
  | restart during cut access io now => cases hop

theorem sound_new : Sound Farm.new :=
  ⟨by decide, fun _ _ hrow ↦ (by cases hrow), fun _ _ hstate ↦ (by cases hstate)⟩

theorem sound_fleet_step (h : fleet.Orderly) : Sound (step codec hash cfg fleet event).farm := by
  by_cases hrestarts : Restarts event
  · obtain ⟨during, cut, access, io, now, rfl⟩ := hrestarts
    simp only [step]
    split
    · exact h.sound
    · rename_i farm hfarm
      unfold restarted at hfarm
      split at hfarm
      · cases hfarm
        exact sound_new
      · split at hfarm
        · rename_i hopen
          cases hfarm
          exact sound_open hopen
        · cases hfarm
  · rw [farm_step hrestarts]
    cases hop : op? codec hash fleet event with
    | none => exact h.sound
    | some op => exact sound_step (routed_of_op? h hop) h.sound

/-- An opened connection keeps its opener. -/
theorem opener_step {n : ℕ} {opener : Option ι} {stage : Stage}
    (h : fleet.connections[n]? = some ⟨opener, stage⟩) :
    ∃ after, (step codec hash cfg fleet event).connections[n]? = some ⟨opener, after⟩ := by
  have hchange := connection_step codec hash cfg fleet event n
  rw [h] at hchange
  generalize (step codec hash cfg fleet event).connections[n]? = after at hchange
  cases hchange with
  | kept => exact ⟨_, rfl⟩
  | admitted hevent hstage => exact ⟨_, rfl⟩
  | issued hevent hrandom => exact ⟨_, rfl⟩
  | redeemed => exact ⟨_, rfl⟩
  | refused hrequest hrefusal => exact ⟨_, rfl⟩
  | enrolled hevent => exact ⟨_, rfl⟩
  | refreshed hevent => exact ⟨_, rfl⟩
  | closed => exact ⟨_, rfl⟩

theorem orderly_step (h : fleet.Orderly) (event : FleetEvent ι) :
    (step codec hash cfg fleet event).Orderly := by
  refine ⟨sound_fleet_step h, ?_, ?_⟩
  · intro n connection hafter request hrequest
    have hchange := connection_step codec hash cfg fleet event n
    rw [hafter] at hchange
    generalize hbefore : fleet.connections[n]? = before at hchange
    cases hchange with
    | kept => exact h.checked n _ hbefore _ hrequest
    | called hevent hn hcall => cases hrequest
    | foreign hn => cases hrequest
    | @admitted opener req body now parseError stage hevent hstage =>
      rcases admission_cases codec hash fleet req body now parseError with
        ⟨_, hcase, -⟩ | ⟨request', hcase, hchecked, -⟩ | ⟨_, hcase, -⟩ | ⟨_, hcase, -⟩ |
          ⟨hcase, -⟩
      case inr.inl =>
        cases hstage.symm.trans hcase
        cases hrequest
        exact hchecked
      all_goals
        cases hstage.symm.trans hcase
        cases hrequest
    | issued hevent hrandom => exact h.checked n _ hbefore _ hrequest
    | redeemed => exact h.checked n _ hbefore _ hrequest
    | refused hpairing hrefusal => cases hrequest
    | enrolled hevent => cases hrequest
    | refreshed hevent => cases hrequest
    | closed => cases hrequest
  · intro i n hawaiting
    rcases awaiting_step hawaiting with hbefore | hopened
    · obtain ⟨stage, hconnection⟩ := h.awaits i n hbefore
      exact opener_step hconnection
    · exact hopened

omit [DecidableEq ι] in
theorem orderly_first {farm : Farm} (h : Sound farm) (access : Daemon.AccessState) :
    (first farm access : Fleet ι).Orderly :=
  ⟨h, fun n _ hconnection ↦ (by simp [first] at hconnection), fun _ _ hawaiting ↦ nomatch hawaiting⟩

/-! ## Custody -/

/-- A credential is on its way to a node, or the node has it in its memory or its file. -/
def InCustody (i : ι) (credential : DeviceCredential) (fleet : Fleet ι) : Prop :=
  (∃ (n : ℕ) (response : Daemon.Response),
      fleet.connections[n]? = some ⟨some i, .answered response⟩ ∧
      DeviceCredential.fromValue response.body = some credential) ∨
    (fleet.nodes i).phase.credential? = some credential ∨
    Bears credential (fleet.nodes i).disk.file

variable (codec hash) in
/-- The event is the last section of a pairing that a node has asked for, and the roster takes the
node: its answer carries the credential. -/
def Issues (i : ι) (credential : DeviceCredential) (fleet : Fleet ι) (event : FleetEvent ι) :
    Prop :=
  ∃ n io now request label, event = .enroll n io now ∧
    fleet.connections[n]? =
      some ⟨some i, .redeemed request credential.deviceCredential label⟩ ∧
    (fleet.farm.pair codec io now request.registration (hash credential.deviceCredential) label).1 =
      .ok credential.nodeId

theorem inCustody_step (h : fleet.Orderly) {i : ι} {credential : DeviceCredential}
    (hafter : InCustody i credential (step codec hash cfg fleet event)) :
    InCustody i credential fleet ∨ Issues codec hash i credential fleet event := by
  rcases hafter with ⟨n, response, hconnection, hbody⟩ | hnode
  · have hchange := connection_step codec hash cfg fleet event n
    rw [hconnection] at hchange
    generalize hbefore : fleet.connections[n]? = before at hchange
    cases hchange with
    | kept => exact .inl (.inl ⟨n, response, hbefore, hbody⟩)
    | @admitted _ req body now parseError stage hevent hstage =>
      rcases admission_cases codec hash fleet req body now parseError with
        ⟨other, hother, hrefusal, -⟩ | ⟨_, hother, -⟩ | ⟨reg, hother, -⟩ | ⟨_, hother, -⟩ |
          ⟨hother, -⟩
      · cases hstage.symm.trans hother
        cases (fromValue_of_isRefusal hrefusal).symm.trans hbody
      · cases hstage.symm.trans hother
      · cases hstage.symm.trans hother
        cases (fromValue_registeredResponse _).symm.trans hbody
      · cases hstage.symm.trans hother
      · cases hstage.symm.trans hother
    | refused hrequest hrefusal =>
      cases (fromValue_of_isRefusal hrefusal).symm.trans hbody
    | @enrolled _ request secret label io now hevent =>
      obtain ⟨hok, rfl⟩ := of_fromValue_enrollResponse hbody
      exact .inr ⟨n, io, now, request, label, hevent, hbefore, hok⟩
    | refreshed hevent =>
      cases (fromValue_heartbeatResponse _).symm.trans hbody
  · have hchange := node_step codec hash cfg fleet event i
    left
    generalize (step codec hash cfg fleet event).nodes i = node at hchange hnode
    cases hchange with
    | kept => exact .inr hnode
    | @moved change hlocal hevent =>
      rcases credential_step hnode with hbefore | ⟨body, rfl, -⟩
      · exact .inr hbefore
      · cases hlocal
    | failed error =>
      rcases credential_step hnode with hbefore | ⟨body, hanswer, -⟩
      · exact .inr hbefore
      · cases hanswer
    | @delivered n response hawaiting hstage =>
      rcases credential_step hnode with hbefore | ⟨body, hanswer, hbody⟩
      · exact .inr hbefore
      · left
        obtain ⟨stage, hconnection⟩ := h.awaits i n hawaiting
        obtain ⟨opener, hopened⟩ := stage?_eq_some hstage
        cases hconnection.symm.trans hopened
        refine ⟨n, response, hopened, ?_⟩
        unfold transferred at hanswer
        split at hanswer
        · cases hanswer
        · cases hanswer
          exact hbody

/-! ## The hub's side -/

variable (codec hash) in
/-- The event neither removes nor evicts an id, and the hub comes up only from a state file, if it
has died in an operation that does neither. -/
def Spares (id : String) (fleet : Fleet ι) (event : FleetEvent ι) : Prop :=
  (∀ op, op? codec hash fleet event = some op → SparesRow id fleet.farm op) ∧
    ∀ during cut access io now, event = .restart during cut access io now →
      fleet.farm.state.isSome = true ∧
        ∀ op, during = some op → Routed op ∧ SparesRow id fleet.farm op

theorem binds_fleet_step (h : fleet.Orderly) {id : String} {digest : Digest}
    (hspares : Spares codec hash id fleet event) (hbinds : Binds id digest fleet.farm) :
    Binds id digest (step codec hash cfg fleet event).farm := by
  by_cases hrestarts : Restarts event
  · obtain ⟨during, cut, access, io, now, rfl⟩ := hrestarts
    obtain ⟨hstate, hduring⟩ := hspares.2 _ _ _ _ _ rfl
    simp only [step]
    split
    · exact hbinds
    · rename_i farm hfarm
      unfold restarted at hfarm
      split at hfarm
      · rename_i hnone
        rw [hnone] at hstate
        cases hstate
      · rename_i location disk hplace
        split at hfarm
        · rename_i hopen
          cases hfarm
          obtain ⟨state, hholds, hrecord⟩ := hasRecord_diskLeft h.sound hduring hplace hbinds cut
          exact binds_open hholds hrecord hopen
        · cases hfarm
  · rw [farm_step hrestarts]
    cases hop : op? codec hash fleet event with
    | none => exact hbinds
    | some op => exact binds_step (routed_of_op? h hop) h.sound (hspares.1 op hop) hbinds

/-- A credential that is issued binds its id. -/
theorem binds_of_issues (h : fleet.Orderly) {i : ι} {credential : DeviceCredential}
    (hissues : Issues codec hash i credential fleet event) :
    Binds credential.nodeId (hash credential.deviceCredential)
      (step codec hash cfg fleet event).farm := by
  obtain ⟨n, io, now, request, label, rfl, hconnection, hok⟩ := hissues
  have hchecked := h.checked n _ hconnection request rfl
  have hstage : fleet.stage? n =
      some (.redeemed request credential.deviceCredential label) := by
    rw [stage?, hconnection, Option.map_some]
  simp only [step, hstage]
  exact (binds_pair hchecked h.sound hok).2

theorem binds_run {fleet : Fleet ι} (h : fleet.Orderly) {id : String} {digest : Digest}
    {events : List (FleetEvent ι)}
    (hspares : Run.Meets (step codec hash cfg) (Spares codec hash id) fleet events)
    (hbinds : Binds id digest fleet.farm) :
    Binds id digest (Run.run (step codec hash cfg) fleet events).farm := by
  have hboth := Run.invariant_run (fun fleet : Fleet ι ↦ fleet.Orderly ∧ Binds id digest fleet.farm)
    (fun _ event hfleet hevent ↦
      ⟨orderly_step hfleet.1 event, binds_fleet_step hfleet.1 hevent hfleet.2⟩)
    ⟨h, hbinds⟩ hspares
  exact hboth.2

theorem orderly_run {fleet : Fleet ι} (h : fleet.Orderly) (events : List (FleetEvent ι)) :
    (Run.run (step codec hash cfg) fleet events).Orderly :=
  Run.invariant_run_of_step Orderly (fun _ event hfleet ↦ orderly_step hfleet event) events h

omit [DecidableEq ι] in
theorem not_inCustody_first (farm : Farm) (access : Daemon.AccessState) (i : ι)
    (credential : DeviceCredential) : ¬ InCustody i credential (first farm access) := by
  rintro (⟨n, response, hconnection, -⟩ | hphase | hfile)
  · simp [first] at hconnection
  · cases hphase
  · exact not_bears_none hfile

/-- What a node has was issued to it, at a moment of the run: the roster took the node at the end of
a pairing on a connection of its own.  From that moment the hub holds the id bound to the
credential, in its roster and in its state file, through crashes and restarts, as long as the row is
neither removed nor evicted. -/
theorem custody_origin {farm : Farm} (hfarm : Sound farm) (access : Daemon.AccessState)
    (events : List (FleetEvent ι)) {i : ι} {credential : DeviceCredential}
    (h : InCustody i credential (Run.run (step codec hash cfg) (first farm access) events)) :
    ∃ early event late, events = early ++ event :: late ∧
      Issues codec hash i credential (Run.run (step codec hash cfg) (first farm access) early)
        event ∧
      (Run.Meets (step codec hash cfg) (Spares codec hash credential.nodeId)
          (Run.run (step codec hash cfg) (first farm access) (early ++ [event])) late →
        Binds credential.nodeId (hash credential.deviceCredential)
          (Run.run (step codec hash cfg) (first farm access) events).farm) := by
  obtain ⟨early, event, late, rfl, hissues⟩ := Run.exists_origin Orderly
    (fun _ event hfleet ↦ orderly_step hfleet event)
    (fun _ _ hfleet hafter ↦ inCustody_step hfleet hafter) (orderly_first hfarm access)
    (not_inCustody_first farm access i credential) h
  refine ⟨early, event, late, rfl, hissues, ?_⟩
  intro hspares
  have hearly : (Run.run (step codec hash cfg) (first farm access) early).Orderly :=
    orderly_run (orderly_first hfarm access) early
  rw [Run.run_append, Run.run_cons, Run.run_nil] at hspares
  rw [Run.run_append, Run.run_cons]
  exact binds_run (orderly_step hearly event) hspares (binds_of_issues hearly hissues)

/-! ## One node for a secret -/

/-- A connection carries the secret that has been drawn for it. -/
def Carries (secret : String) (n : ℕ) (fleet : Fleet ι) : Prop :=
  ∃ opener request, fleet.connections[n]? = some ⟨opener, .issued request secret⟩ ∨
    ∃ label, fleet.connections[n]? = some ⟨opener, .redeemed request secret label⟩

theorem carries_step {secret : String} {n : ℕ}
    (h : Carries secret n (step codec hash cfg fleet event)) :
    Carries secret n fleet ∨
      ∃ random, event = .issue n random ∧ random.map secretOf = some secret := by
  have hchange := connection_step codec hash cfg fleet event n
  obtain ⟨opener, request, hconnection | ⟨label, hconnection⟩⟩ := h
  · rw [hconnection] at hchange
    generalize hbefore : fleet.connections[n]? = before at hchange
    cases hchange with
    | kept => exact .inl ⟨opener, request, .inl hbefore⟩
    | issued hevent hrandom => exact .inr ⟨_, hevent, hrandom⟩
    | @admitted _ req body now parseError stage hevent hstage =>
      rcases admission_cases codec hash fleet req body now parseError with
        ⟨_, hcase, -⟩ | ⟨_, hcase, -⟩ | ⟨_, hcase, -⟩ | ⟨_, hcase, -⟩ | ⟨hcase, -⟩
      all_goals cases hstage.symm.trans hcase
  · rw [hconnection] at hchange
    generalize hbefore : fleet.connections[n]? = before at hchange
    cases hchange with
    | kept => exact .inl ⟨opener, request, .inr ⟨label, hbefore⟩⟩
    | redeemed => exact .inl ⟨opener, request, .inl hbefore⟩
    | @admitted _ req body now parseError stage hevent hstage =>
      rcases admission_cases codec hash fleet req body now parseError with
        ⟨_, hcase, -⟩ | ⟨_, hcase, -⟩ | ⟨_, hcase, -⟩ | ⟨_, hcase, -⟩ | ⟨hcase, -⟩
      all_goals cases hstage.symm.trans hcase

/-- The secret that an event draws for a device. -/
def drawn? : FleetEvent ι → Option String
  | .issue _ random => random.map secretOf
  | .node _ _ _ | .call _ _ _ | .foreign _ _ | .fail _ _ | .deliver _ | .accept _ _ _ | .redeem _ _
  | .enroll _ _ _ | .refresh _ _ | .offer _ _ _ | .operate _ _ | .restart _ _ _ _ _ => none

/-- A credential in custody came on a connection of its node, for which its secret was drawn. -/
theorem drawn_of_inCustody {farm : Farm} (hfarm : Sound farm) (access : Daemon.AccessState)
    (events : List (FleetEvent ι)) {i : ι} {credential : DeviceCredential}
    (h : InCustody i credential (Run.run (step codec hash cfg) (first farm access) events)) :
    ∃ n random stage, FleetEvent.issue n random ∈ events ∧
      random.map secretOf = some credential.deviceCredential ∧
      (Run.run (step codec hash cfg) (first farm access) events).connections[n]? =
        some ⟨some i, stage⟩ := by
  obtain ⟨early, event, late, rfl, hissues, -⟩ := custody_origin hfarm access events h
  obtain ⟨n, io, now, request, label, -, hconnection, -⟩ := hissues
  have hcarries : Carries credential.deviceCredential n
      (Run.run (step codec hash cfg) (first farm access) early) :=
    ⟨_, request, .inr ⟨label, hconnection⟩⟩
  have hnot : ¬ Carries credential.deviceCredential n (first farm access : Fleet ι) := by
    rintro ⟨opener, request, hconnection | ⟨label, hconnection⟩⟩
    · simp [first] at hconnection
    · simp [first] at hconnection
  obtain ⟨before, _, after, rfl, random, rfl, hrandom⟩ :=
    @Run.exists_origin _ _ (step codec hash cfg) (Carries credential.deviceCredential n)
      (fun _ event ↦ ∃ random, event = .issue n random ∧
        random.map secretOf = some credential.deviceCredential)
      (fun _ ↦ True) (fun _ _ _ ↦ trivial) (fun _ _ _ hafter ↦ carries_step hafter) _ _ trivial
      hnot hcarries
  have hopened : ∃ stage, (Run.run (step codec hash cfg)
      (Run.run (step codec hash cfg) (first farm access) (before ++ .issue n random :: after))
      (event :: late)).connections[n]? = some ⟨some i, stage⟩ :=
    Run.invariant_run_of_step
      (fun fleet : Fleet ι ↦ ∃ stage, fleet.connections[n]? = some ⟨some i, stage⟩)
      (fun _ _ ⟨_, hfleet⟩ ↦ opener_step hfleet) (event :: late) ⟨_, hconnection⟩
  obtain ⟨stage, hopened⟩ := hopened
  rw [← Run.run_append] at hopened
  exact ⟨n, random, stage, by simp, hrandom, hopened⟩

/-- If different secrets are drawn, two nodes never have the same one, be it on its way, in memory
or in a file. -/
theorem custody_exclusive {farm : Farm} (hfarm : Sound farm) (access : Daemon.AccessState)
    (events : List (FleetEvent ι)) (hfresh : (events.filterMap drawn?).Nodup) {i j : ι}
    (hij : i ≠ j) {credential other : DeviceCredential}
    (h : InCustody i credential (Run.run (step codec hash cfg) (first farm access) events))
    (hother : InCustody j other (Run.run (step codec hash cfg) (first farm access) events)) :
    credential.deviceCredential ≠ other.deviceCredential := by
  intro hsame
  obtain ⟨n, random, stage, hmem, hdrawn, hconnection⟩ := drawn_of_inCustody hfarm access events h
  obtain ⟨m, random', stage', hmem', hdrawn', hconnection'⟩ :=
    drawn_of_inCustody hfarm access events hother
  have hpairwise : events.Pairwise fun a b ↦ ∀ s, drawn? a = some s → drawn? b ≠ some s := by
    refine (List.pairwise_filterMap.mp hfresh).imp ?_
    rintro a b hne s ha hb
    exact hne s ha s hb rfl
  have : Std.Symm fun a b : FleetEvent ι ↦ ∀ s, drawn? a = some s → drawn? b ≠ some s :=
    ⟨fun a b hab s hb ha ↦ hab s ha hb⟩
  have hevents : FleetEvent.issue n random = (FleetEvent.issue m random' : FleetEvent ι) := by
    by_contra hne
    exact hpairwise.forall hmem hmem' hne _ hdrawn (hsame ▸ hdrawn')
  obtain ⟨rfl, -⟩ := FleetEvent.issue.inj hevents
  cases hconnection.symm.trans hconnection'
  exact hij rfl

/-! ## Two nodes that pair -/

def hubAccess : Daemon.AccessState := { Daemon.freshAccess ⟨[]⟩ with hubEnabled := true }

def hashOfTwoNodes (secret : String) : Digest :=
  if secret = secretOf (.replicate 32 1) then
    #v[88, 186, 221, 155, 69, 81, 69, 180, 135, 173, 36, 199, 242, 89, 204, 67, 124, 196, 255, 208,
      120, 71, 22, 132, 82, 73, 50, 31, 181, 150, 28, 252]
  else if secret = secretOf (.replicate 32 2) then
    #v[116, 159, 26, 151, 255, 108, 208, 14, 164, 108, 203, 58, 71, 187, 18, 50, 131, 254, 86, 200,
      250, 50, 75, 234, 41, 93, 146, 143, 85, 129, 97, 223]
  else Ledger.hashOfTwoCodes secret

def twoConfigs : Bool → HubConfig
  | false => boxConfig "gpu-box" (.replicate 32 0)
  | true => boxConfig "cpu-box" (.replicate 32 1)

def pairsOver (i : Bool) (n : ℕ) (random : Vector UInt8 32) : List (FleetEvent Bool) := [
  .node i (.boot ⟨.ok (), .ok (), ""⟩) rfl,
  .call i none .empty,
  .accept n 1 "",
  .issue n (some random),
  .redeem n 2,
  .enroll n (.working 1) 3,
  .deliver i,
  .node i (.save ⟨.working 2, true⟩) rfl]

/-- The operator asks for two codes, and the nodes pair with them. -/
def twoPair : List (FleetEvent Bool) :=
  [.offer "desk" (some (.replicate 32 0)) 0, .offer "rack" (some (.replicate 32 1)) 0] ++
    pairsOver false 0 (.replicate 32 255) ++ pairsOver true 1 (.replicate 32 2)

/-- The hub and the nodes after that. -/
def twoPaired : Fleet Bool :=
  Run.run (step .compact hashOfTwoNodes twoConfigs) (first .new hubAccess) twoPair

theorem phase_twoPaired : (twoPaired.nodes false).phase = .paired boxCredential ∧
    (twoPaired.nodes true).phase = .paired ⟨"cpu-box", secretOf (.replicate 32 2)⟩ := by
  decide +kernel

theorem inCustody_of_phase {fleet : Fleet Bool} {i : Bool} {credential : DeviceCredential}
    (h : (fleet.nodes i).phase = .paired credential) : InCustody i credential fleet :=
  .inr (.inl (by rw [h]; rfl))

theorem custody_origin_box : ∃ early event late, twoPair = early ++ event :: late ∧
    Issues .compact hashOfTwoNodes false boxCredential
      (Run.run (step .compact hashOfTwoNodes twoConfigs) (first .new hubAccess) early) event := by
  obtain ⟨early, event, late, hevents, hissues, -⟩ :=
    custody_origin sound_new hubAccess twoPair (inCustody_of_phase phase_twoPaired.1)
  exact ⟨early, event, late, hevents, hissues⟩

theorem custody_exclusive_two : boxCredential.deviceCredential ≠ secretOf (.replicate 32 2) :=
  custody_exclusive sound_new hubAccess twoPair (by decide +kernel) Bool.false_ne_true
    (inCustody_of_phase phase_twoPaired.1) (inCustody_of_phase phase_twoPaired.2)

end Fleet

end Cameo.Hub
