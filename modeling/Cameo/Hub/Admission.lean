import Cameo.Hub.Dispatch

/-!
# The admission book

The hub writes down every dispatch that it executes, under the request id of the client or, if there
is none, under a key it makes from a serial number.  A reservation counts against the node for a
while, so that the next dispatch does not book the same memory again, and a request that is repeated
within that time gets the same answer.  The keys of both kinds are in one map, so a client that
happens to use a generated key loses its reservation to the request the key is generated for.
-/

namespace Cameo.Hub

open Json Library Placement

/-- `ADMISSION_TTL`. -/
def admissionTtl : Duration := .fromSecs 45

/-- `MAX_ADMISSIONS`. -/
def maxAdmissions : ℕ := 4096

/-- `AdmissionState`. -/
inductive AdmissionState where
  | reserved
  | committed
  | failed
deriving DecidableEq

/-- `AdmissionLease`. -/
structure AdmissionLease where
  id : String
  requestId : String
  nodeId : String
  model : String
  reservedVramBytes : ℕ
  expiresInMs : ℕ
  state : AdmissionState
deriving DecidableEq

/-- `AdmissionOutcome`. -/
structure AdmissionOutcome where
  dispatch : Dispatch
  lease : Option AdmissionLease
  replayed : Bool
deriving DecidableEq

/-- `Reservation`. -/
structure Reservation where
  /-- The JSON value of the request. -/
  fingerprint : Value
  dispatch : Dispatch
  lease : AdmissionLease
  expires : Instant
deriving DecidableEq

/-- `AdmissionError`; a request is never invalid, as serde can write every one down. -/
inductive AdmissionError where
  | route (e : RouteError)
  | invalid (message : String)
  | conflict (message : String)
  | capacity (message : String)
deriving DecidableEq

def Reservation.isActive (item : Reservation) : Bool :=
  item.lease.state = .reserved || item.lease.state = .committed

def Reservation.withState (state : AdmissionState) (item : Reservation) : Reservation :=
  { item with lease := { item.lease with state := state } }

/-- A reservation is added to what is reserved on its node. -/
def addReservation (byNode : Ordered.Map String ℕ) (item : Reservation) : Ordered.Map String ℕ :=
  byNode.insert item.lease.nodeId
    (saturatingAdd ((byNode.get? item.lease.nodeId).getD 0) item.lease.reservedVramBytes)

/-- `active_reserved_by_node`. -/
def activeReservedByNode (reservations : Ordered.Map String Reservation) : Ordered.Map String ℕ :=
  ((reservations.entries.map Prod.snd).filter Reservation.isActive).foldl addReservation .empty

/-- `AdmissionBook`. -/
structure AdmissionBook where
  byRequest : Ordered.Map String Reservation
  nextId : UInt64

namespace AdmissionBook

/-- `AdmissionBook::new`. -/
def new : AdmissionBook := ⟨.empty, 1⟩

/-- The book without the reservations that have expired. -/
def live (now : Instant) (book : AdmissionBook) : AdmissionBook :=
  { book with byRequest := book.byRequest.retain fun item ↦ decide (now < item.expires) }

/-- The key that the next request without an id gets. -/
def legacyKey (book : AdmissionBook) : String := "legacy-" ++ toString book.nextId

def keyOf (book : AdmissionBook) (body : DispatchBody) : String :=
  body.requestId.getD book.legacyKey

/-- The lease of a request that is sent to a node. -/
def leaseOf (book : AdmissionBook) (body : DispatchBody) (dispatch : Dispatch) :
    AdmissionLease where
  id := "adm-" ++ toString book.nextId
  requestId := book.keyOf body
  nodeId := dispatch.nodeId
  model := body.model
  reservedVramBytes := if dispatch.choice.warm then 0 else body.modelMeta.totalBytes
  expiresInMs := admissionTtl / 1000000
  state := .reserved

def grant (book : AdmissionBook) (now : Instant) (body : DispatchBody) (dispatch : Dispatch) :
    AdmissionBook where
  byRequest := book.byRequest.insert (book.keyOf body)
    ⟨body.toValue, dispatch, book.leaseOf body dispatch, now + admissionTtl⟩
  nextId := book.nextId + 1

/-- `AdmissionBook::admit`. -/
def admitRequest (now : Instant) (roster : List (String × Value)) (body : DispatchBody)
    (book : AdmissionBook) : Except AdmissionError AdmissionOutcome × AdmissionBook :=
  let live := book.live now
  match body.requestId.bind live.byRequest.get? with
  | some existing =>
    if existing.fingerprint ≠ body.toValue then
      (.error (.conflict ("request_id '" ++ body.requestId.getD "" ++
        "' was already used with a different dispatch body")), live)
    else (.ok ⟨existing.dispatch, some existing.lease, true⟩, live)
  | none =>
    match decideWithReserved roster body (activeReservedByNode live.byRequest) with
    | .error e => (.error (.route e), live)
    | .ok dispatch =>
      if !body.execute then (.ok ⟨dispatch, none, false⟩, live)
      else if live.byRequest.size ≥ maxAdmissions then
        (.error (.capacity "admission ledger is full; retry after a lease expires"), live)
      else (.ok ⟨dispatch, some (live.leaseOf body dispatch), false⟩, live.grant now body dispatch)

/-- `AdmissionBook::finish`. -/
def finish (admissionId : String) (success : Bool) (book : AdmissionBook) : AdmissionBook :=
  match book.byRequest.entries.find? fun entry ↦ entry.2.lease.id = admissionId with
  | some entry =>
    let state := if success then .committed else .failed
    { book with byRequest := book.byRequest.insert entry.1 (entry.2.withState state) }
  | none => book

end AdmissionBook

/-! ## What an admission does -/

/-- What `admit` can answer, and the book it leaves. -/
inductive Admits (now : Instant) (roster : List (String × Value)) (body : DispatchBody)
    (book : AdmissionBook) : Except AdmissionError AdmissionOutcome → AdmissionBook → Prop
  | replayed {existing : Reservation}
      (hfound : body.requestId.bind (book.live now).byRequest.get? = some existing)
      (hsame : existing.fingerprint = body.toValue) :
      Admits now roster body book (.ok ⟨existing.dispatch, some existing.lease, true⟩)
        (book.live now)
  | conflict {existing : Reservation}
      (hfound : body.requestId.bind (book.live now).byRequest.get? = some existing)
      (hdiffers : existing.fingerprint ≠ body.toValue) (message : String) :
      Admits now roster body book (.error (.conflict message)) (book.live now)
  | refused (hnew : body.requestId.bind (book.live now).byRequest.get? = none)
      (e : AdmissionError) : Admits now roster body book (.error e) (book.live now)
  | advised (hnew : body.requestId.bind (book.live now).byRequest.get? = none)
      (dispatch : Dispatch) :
      Admits now roster body book (.ok ⟨dispatch, none, false⟩) (book.live now)
  | granted (hnew : body.requestId.bind (book.live now).byRequest.get? = none)
      (hexecute : body.execute = true) {dispatch : Dispatch}
      (hdispatch : decideWithReserved roster body
        (activeReservedByNode (book.live now).byRequest) = .ok dispatch) :
      Admits now roster body book
        (.ok ⟨dispatch, some ((book.live now).leaseOf body dispatch), false⟩)
        ((book.live now).grant now body dispatch)

theorem admits_admitRequest (now : Instant) (roster : List (String × Value)) (body : DispatchBody)
    (book : AdmissionBook) :
    Admits now roster body book (book.admitRequest now roster body).1
      (book.admitRequest now roster body).2 := by
  unfold AdmissionBook.admitRequest
  dsimp only
  cases hfound : body.requestId.bind (book.live now).byRequest.get? with
  | some existing =>
    dsimp only
    split
    · rename_i hdiffers
      exact .conflict hfound hdiffers _
    · rename_i hsame
      exact .replayed hfound (not_not.mp hsame)
  | none =>
    dsimp only
    cases hdispatch : decideWithReserved roster body
        (activeReservedByNode (book.live now).byRequest) with
    | error e => exact .refused hfound _
    | ok dispatch =>
      dsimp only
      split
      · exact .advised hfound dispatch
      · rename_i hexecute
        split
        · exact .refused hfound _
        · exact .granted hfound (by simpa using hexecute) hdispatch

theorem get?_live {book : AdmissionBook} {now : Instant} {key : String} {item : Reservation} :
    (book.live now).byRequest.get? key = some item ↔
      book.byRequest.get? key = some item ∧ now < item.expires := by
  rw [AdmissionBook.live, Ordered.Map.get?_retain, Option.filter_eq_some_iff, decide_eq_true_eq]

/-- A result for a known reservation changes the state of its lease, and nothing else. -/
theorem get?_finish (book : AdmissionBook) (admissionId : String) (success : Bool) {key : String}
    {item : Reservation} (h : book.byRequest.get? key = some item) :
    ∃ state, (book.finish admissionId success).byRequest.get? key =
      some (item.withState state) := by
  unfold AdmissionBook.finish
  split
  · rename_i entry hentry
    have hrow : book.byRequest.get? entry.1 = some entry.2 :=
      (book.byRequest.mem_entries_iff _ _).mp (List.mem_of_find?_eq_some hentry)
    dsimp only
    rw [Ordered.Map.get?_insert]
    split
    · rename_i hkey
      obtain rfl : entry.2 = item := Option.some.inj (hrow.symm.trans (hkey ▸ h))
      exact ⟨_, rfl⟩
    · exact ⟨item.lease.state, h⟩
  · exact ⟨item.lease.state, h⟩

/-! ## Runs of the book -/

inductive BookOp where
  | admitRequest (now : Instant) (roster : List (String × Value)) (body : DispatchBody)
  | finish (admissionId : String) (success : Bool)

def bookStep (book : AdmissionBook) : BookOp → AdmissionBook
  | .admitRequest now roster body => (book.admitRequest now roster body).2
  | .finish admissionId success => book.finish admissionId success

/-- A request without an id is executed only while no reservation is under the key it gets, unless
that has expired. -/
def DrawsFreeKey (book : AdmissionBook) : BookOp → Prop
  | .admitRequest now _ body => body.requestId = none → body.execute = true →
      ∀ item, book.byRequest.get? book.legacyKey = some item → item.expires ≤ now
  | .finish _ _ => True

/-- An admission leaves every reservation that has not expired as it is; a result changes the state
of a lease at most. -/
def KeepsReservations (book : AdmissionBook) (op : BookOp) : Prop :=
  ∀ key item, book.byRequest.get? key = some item →
    match op with
    | .admitRequest now _ _ => now < item.expires →
        (bookStep book op).byRequest.get? key = some item
    | .finish _ _ => ∃ state, (bookStep book op).byRequest.get? key = some (item.withState state)

/-- A request comes before a time. -/
def BookOp.isBefore (time : Instant) : BookOp → Prop
  | admitRequest now _ _ => now < time
  | finish _ _ => True

theorem keepsReservations_of_drawsFreeKey {book : AdmissionBook} {op : BookOp}
    (h : DrawsFreeKey book op) : KeepsReservations book op := by
  intro key item hrow
  cases op with
  | finish admissionId success => exact get?_finish book admissionId success hrow
  | admitRequest now roster body =>
    intro hlive
    have hkept : (book.live now).byRequest.get? key = some item := get?_live.mpr ⟨hrow, hlive⟩
    have hadmits := admits_admitRequest now roster body book
    change (book.admitRequest now roster body).2.byRequest.get? key = some item
    generalize (book.admitRequest now roster body).1 = result at hadmits
    generalize (book.admitRequest now roster body).2 = after at hadmits
    cases hadmits with
    | replayed hfound hsame => exact hkept
    | conflict hfound hdiffers message => exact hkept
    | refused hnew e => exact hkept
    | advised hnew dispatch => exact hkept
    | @granted hnew hexecute dispatch hdispatch =>
      -- The new key is neither that of the client nor that of another request.
      have hne : (book.live now).keyOf body ≠ key := by
        rintro rfl
        cases hid : body.requestId with
        | some requestId =>
          rw [hid, Option.bind_some] at hnew
          rw [AdmissionBook.keyOf, hid, Option.getD_some] at hkept
          cases hnew.symm.trans hkept
        | none =>
          have hkey : (book.live now).keyOf body = book.legacyKey := by
            rw [AdmissionBook.keyOf, hid]
            rfl
          rw [hkey] at hrow
          exact absurd (h hid hexecute item hrow) (not_le.mpr hlive)
      rw [AdmissionBook.grant, Ordered.Map.get?_insert, if_neg hne]
      exact hkept

/-! ## Repeated requests -/

/-- A reservation is in the book, in whatever state its lease is now. -/
def HasReservation (key : String) (item : Reservation) (book : AdmissionBook) : Prop :=
  ∃ state, book.byRequest.get? key = some (item.withState state)

theorem hasReservation_step {key : String} {item : Reservation} {book : AdmissionBook} {op : BookOp}
    (hop : DrawsFreeKey book op) (hbefore : op.isBefore item.expires)
    (h : HasReservation key item book) : HasReservation key item (bookStep book op) := by
  obtain ⟨state, hrow⟩ := h
  have hkeeps := keepsReservations_of_drawsFreeKey hop key _ hrow
  cases op with
  | admitRequest now roster body => exact ⟨state, hkeeps hbefore⟩
  | finish admissionId success =>
    obtain ⟨state', hafter⟩ := hkeeps
    exact ⟨state', hafter⟩

theorem hasReservation_run {key : String} {item : Reservation} {book : AdmissionBook}
    {ops : List BookOp} (hops : Run.Meets bookStep DrawsFreeKey book ops)
    (hbefore : ∀ op ∈ ops, op.isBefore item.expires) (h : HasReservation key item book) :
    HasReservation key item (Run.run bookStep book ops) := by
  induction ops generalizing book with
  | nil => exact h
  | cons op ops ih =>
    obtain ⟨hop, hrest⟩ := List.forall_mem_cons.mp hbefore
    exact ih hops.2 hrest (hasReservation_step hops.1 hop h)

/-- A new lease is in the book under the client's id. -/
theorem hasReservation_admitRequest {book : AdmissionBook} {now : Instant}
    {roster : List (String × Value)} {body : DispatchBody} {requestId : String}
    {dispatch : Dispatch} {lease : AdmissionLease} (hid : body.requestId = some requestId)
    (h : (book.admitRequest now roster body).1 = .ok ⟨dispatch, some lease, false⟩) :
    HasReservation requestId ⟨body.toValue, dispatch, lease, now + admissionTtl⟩
      (book.admitRequest now roster body).2 := by
  have hadmits := admits_admitRequest now roster body book
  rw [h] at hadmits
  generalize (book.admitRequest now roster body).2 = after at hadmits
  cases hadmits with
  | granted hnew hexecute hdispatch =>
    refine ⟨.reserved, ?_⟩
    rw [AdmissionBook.grant, Ordered.Map.get?_insert, AdmissionBook.keyOf, hid, Option.getD_some,
      if_pos rfl]
    rfl

/-- What a request gets whose id is that of an earlier one: the earlier answer if the two are the
same, and a conflict otherwise. -/
def RepeatAnswer (first again : DispatchBody) (dispatch : Dispatch) (lease : AdmissionLease)
    (result : Except AdmissionError AdmissionOutcome) : Prop :=
  (again = first → ∃ state, result = .ok ⟨dispatch, some { lease with state := state }, true⟩) ∧
    (again ≠ first → ∃ message, result = .error (.conflict message))

theorem repeatAnswer_of_hasReservation {book : AdmissionBook} {now expires : Instant}
    {first again : DispatchBody} {requestId : String} {dispatch : Dispatch} {lease : AdmissionLease}
    (h : HasReservation requestId ⟨first.toValue, dispatch, lease, expires⟩ book)
    (hid : again.requestId = some requestId) (hnow : now < expires)
    (roster : List (String × Value)) :
    RepeatAnswer first again dispatch lease (book.admitRequest now roster again).1 := by
  obtain ⟨state, hrow⟩ := h
  have hfound : again.requestId.bind (book.live now).byRequest.get? =
      some (Reservation.withState state ⟨first.toValue, dispatch, lease, expires⟩) := by
    rw [hid, Option.bind_some]
    exact get?_live.mpr ⟨hrow, hnow⟩
  unfold AdmissionBook.admitRequest
  simp only [hfound, Reservation.withState]
  refine ⟨?_, ?_⟩
  · rintro rfl
    refine ⟨state, ?_⟩
    rw [if_neg (not_not.mpr rfl)]
  · intro hne
    have hdiffers : first.toValue ≠ again.toValue :=
      fun hsame ↦ hne (DispatchBody.toValue_inj hsame).symm
    rw [if_pos hdiffers]
    exact ⟨_, rfl⟩

/-- In a run in which no generated key is that of a reservation, no reservation is lost, and a
request that is repeated within the time of its lease is answered as the first one, or is refused if
it is not the same. -/
theorem no_reservation_lost {start : AdmissionBook} {ops : List BookOp}
    (h : Run.Meets bookStep DrawsFreeKey start ops) :
    Run.Meets bookStep KeepsReservations start ops ∧
    ∀ early granted roster first middle now roster' again,
      early ++ .admitRequest granted roster first ::
        (middle ++ [.admitRequest now roster' again]) <+: ops →
      ∀ requestId dispatch lease, first.requestId = some requestId →
        again.requestId = some requestId →
        ((Run.run bookStep start early).admitRequest granted roster first).1 =
          .ok ⟨dispatch, some lease, false⟩ →
        (∀ op ∈ middle, op.isBefore (granted + admissionTtl)) → now < granted + admissionTtl →
        RepeatAnswer first again dispatch lease
          ((Run.run bookStep start
            (early ++ .admitRequest granted roster first :: middle)).admitRequest
              now roster' again).1 := by
  refine ⟨h.of_invariant (fun _ ↦ True) (fun _ _ _ _ ↦ trivial)
    (fun _ _ _ hop ↦ keepsReservations_of_drawsFreeKey hop) trivial, ?_⟩
  intro early granted roster first middle now roster' again hops requestId dispatch lease hfirst
    hagain hgranted hmiddle hnow
  obtain ⟨late, rfl⟩ := hops
  have hmeets := (Run.meets_append.mp h.of_append).2.2
  have hheld := hasReservation_run (Run.meets_append.mp hmeets).1 hmiddle
    (hasReservation_admitRequest hfirst hgranted)
  rw [Run.run_append]
  exact repeatAnswer_of_hasReservation hheld hagain hnow roster'

/-! ## A request with a generated key -/

/-- A request for a small model, as its defaults are. -/
def chatBody : DispatchBody where
  model := "qwen2.5-0.5b"
  params := none
  quant := "Q4_K_M"
  moe := false
  task := none
  minTier := none
  execute := true
  port := 8080
  sessionAffinity := none
  privacy := .pool
  preference := .balanced
  deadlineMs := none
  expectedOutputTokens := 512
  priority := 5
  allowLegacyToken := true
  protocolMajor := 1
  requestId := none

/-- A node without GPUs. -/
def cpuRoster : List (String × Value) := [("cpu-box", .ofFields [
  ("topology", .ofFields [("gpus", .array []), ("links", .array []), ("host_mem", .null)]),
  ("gpus", .array [])])]

def chatDispatch : Dispatch where
  choice := {
    index := 0
    nodeId := "cpu-box"
    nodeName := "cpu-box"
    warm := false
    affinity := false
    freeVramBytes := 0
    predictedCompletionMs := 26350
    trust := .legacyToken
    health := .ready
    protocolMajor := 1
    reason := "'cpu-box' is the best eligible Balanced target (predicted 26350 ms)" }
  nodeId := "cpu-box"

def firstLease (requestId : String) : AdmissionLease :=
  ⟨"adm-1", requestId, "cpu-box", "qwen2.5-0.5b", 739332616, 45000, .reserved⟩

def named (requestId : String) : DispatchBody := { chatBody with requestId := some requestId }

theorem chat_is_replayed :
    Run.Meets bookStep KeepsReservations .new
      [.admitRequest 0 cpuRoster (named "chat-1"), .admitRequest 1 cpuRoster (named "chat-1")] ∧
    RepeatAnswer (named "chat-1") (named "chat-1") chatDispatch (firstLease "chat-1")
      ((Run.run bookStep .new [.admitRequest 0 cpuRoster (named "chat-1")]).admitRequest 1 cpuRoster
        (named "chat-1")).1 := by
  have hmeets : Run.Meets bookStep DrawsFreeKey .new
      [.admitRequest 0 cpuRoster (named "chat-1"), .admitRequest 1 cpuRoster (named "chat-1")] := by
    refine ⟨fun h ↦ ?_, fun h ↦ ?_, trivial⟩
    · cases h
    · cases h
  obtain ⟨hkeeps, hrepeats⟩ := no_reservation_lost hmeets
  exact ⟨hkeeps, hrepeats [] 0 cpuRoster _ [] 1 cpuRoster _ List.prefix_rfl "chat-1" _ _ rfl rfl
    (by decide +kernel) (fun _ h ↦ absurd h List.not_mem_nil) (by decide)⟩

/-- A client's reservation under a name like a generated key is lost to a request without an id. -/
theorem generated_key_overwrites_reservation :
    ¬ Run.Meets bookStep KeepsReservations .new [
      .admitRequest 0 cpuRoster (named "legacy-2"),
      .admitRequest 0 cpuRoster chatBody] := by
  have hrow : (Run.run bookStep .new [.admitRequest 0 cpuRoster
      (named "legacy-2")]).byRequest.get? "legacy-2" =
      some ⟨(named "legacy-2").toValue, chatDispatch,
        firstLease "legacy-2", admissionTtl⟩ := by decide +kernel
  have hlost : ((Run.run bookStep .new [.admitRequest 0 cpuRoster
      (named "legacy-2"), .admitRequest 0 cpuRoster chatBody]).byRequest.get?
      "legacy-2").map (fun item ↦ item.lease.id) = some "adm-2" := by decide +kernel
  rintro ⟨-, hkeeps, -⟩
  have hkept := hkeeps "legacy-2" _ hrow (by decide)
  have hid := (congrArg (Option.map fun item ↦ item.lease.id) hkept).symm.trans hlost
  revert hid
  decide +kernel

end Cameo.Hub
