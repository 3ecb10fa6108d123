import Cameo.Hub.Admission

/-!
# Booking memory

A cold placement is admitted where the node's usable memory covers what the node reports, what the
book has reserved on it and what the request needs.  The book then reserves the memory that the
model takes for inference, also for a training request, which needs four times the weights: the
scheduler has checked one figure and the next admission counts with another.
-/

namespace Cameo.Hub

open Json Library Placement

/-! ## What is reserved -/

/-- The bytes that the active reservations of a list hold on a node. -/
def reservedBytes (nodeId : String) (items : List Reservation) : ℕ :=
  ((items.filter fun item ↦ item.lease.nodeId = nodeId).map
    fun item ↦ item.lease.reservedVramBytes).sum

def reservedOn (nodeId : String) (reservations : Ordered.Map String Reservation) : ℕ :=
  reservedBytes nodeId ((reservations.entries.map Prod.snd).filter Reservation.isActive)

theorem getD_foldl_addReservation (nodeId : String) (items : List Reservation)
    {byNode : Ordered.Map String ℕ} (h : (byNode.get? nodeId).getD 0 ≤ u64Max) :
    ((items.foldl addReservation byNode).get? nodeId).getD 0 =
      min ((byNode.get? nodeId).getD 0 + reservedBytes nodeId items) u64Max := by
  induction items generalizing byNode with
  | nil => simp [reservedBytes, h]
  | cons item rest ih =>
    have hadd : ((addReservation byNode item).get? nodeId).getD 0 =
        if item.lease.nodeId = nodeId then
          saturatingAdd ((byNode.get? nodeId).getD 0) item.lease.reservedVramBytes
        else (byNode.get? nodeId).getD 0 := by
      rw [addReservation, Ordered.Map.get?_insert]
      split
      · rename_i hnode
        rw [hnode, Option.getD_some]
      · rfl
    have hbound : ((addReservation byNode item).get? nodeId).getD 0 ≤ u64Max := by
      rw [hadd]
      split
      · exact min_le_right _ _
      · exact h
    rw [List.foldl_cons, ih hbound, hadd]
    by_cases hnode : item.lease.nodeId = nodeId
    · simp only [reservedBytes, hnode, if_true, List.filter_cons, decide_true, List.map_cons,
        List.sum_cons, saturatingAdd]
      omega
    · simp only [reservedBytes, hnode, if_false, List.filter_cons, decide_false, Bool.false_eq_true]

/-- What the book says is reserved on a node, which saturates. -/
theorem getD_activeReservedByNode (reservations : Ordered.Map String Reservation)
    (nodeId : String) :
    ((activeReservedByNode reservations).get? nodeId).getD 0 =
      min (reservedOn nodeId reservations) u64Max := by
  have hfold := getD_foldl_addReservation nodeId
    ((reservations.entries.map Prod.snd).filter Reservation.isActive)
    (show ((Ordered.Map.empty : Ordered.Map String ℕ).get? nodeId).getD 0 ≤ u64Max from
      Nat.zero_le _)
  rw [Ordered.Map.get?_empty, Option.getD_none, Nat.zero_add] at hfold
  exact hfold

/-! ## What a request needs -/

theorem saturatingMul_pos {a b : ℕ} (ha : 0 < a) (hb : 0 < b) : 0 < saturatingMul a b :=
  lt_min (Nat.mul_pos ha hb) (by decide)

theorem defaultLayers_pos (paramsB : F64) : 0 < (defaultLayers paramsB).toNat := by
  unfold defaultLayers
  split_ifs <;> decide

/-- Every model takes memory for its context, whatever its size is said to be. -/
theorem kvBytes_pos (body : DispatchBody) : 0 < body.modelMeta.kvBytes := by
  have hdense (paramsB : F64) : 0 < saturatingMul (saturatingMul
      (saturatingMul (defaultLayers paramsB).toNat 4096) 1) kvBytesPerLayerPerToken :=
    saturatingMul_pos (saturatingMul_pos (saturatingMul_pos (defaultLayers_pos paramsB)
      (by decide)) (by decide)) (by decide)
  unfold DispatchBody.modelMeta
  dsimp only
  split
  · exact hdense _
  · exact hdense _

theorem totalBytes_pos (body : DispatchBody) : 0 < body.modelMeta.totalBytes := by
  have hkv := kvBytes_pos body
  rw [ModelMeta.totalBytes, saturatingAdd]
  exact lt_min (by omega) (by decide)

/-- Where a positive need fits what is left, nothing has saturated. -/
theorem booked_le_usable {used reserved need usable : ℕ} (hneed : 0 < need)
    (husable : usable ≤ u64Max)
    (hfits : need ≤ usable - saturatingAdd used (min reserved u64Max)) :
    used + reserved + need ≤ usable := by
  rw [saturatingAdd] at hfits
  omega

/-! ## Admissions -/

/-- Every new cold placement reserves what the scheduler has checked, and fits the node with all
that is reserved there, as far as the node's memory is known. -/
def BooksWithin (book : AdmissionBook) : BookOp → Prop
  | .admitRequest now roster body => ∀ dispatch lease,
      (book.admitRequest now roster body).1 = .ok ⟨dispatch, some lease, false⟩ →
      dispatch.choice.warm = false →
      lease.reservedVramBytes = body.routeRequest.need ∧
      ∃ p, (parsedNodes roster)[dispatch.choice.index]? = some p ∧ p.nodeId = dispatch.nodeId ∧
        (p.info.usableVram.2 = true →
          p.load.usedVramBytes + reservedOn dispatch.nodeId (book.live now).byRequest +
            body.routeRequest.need ≤ p.info.usableVram.1)
  | .finish _ _ => True

/-- A training request that is executed, is not in the book yet and is placed on a node that does
not serve its model needs what the model takes for inference. -/
def NeedsTotal (book : AdmissionBook) : BookOp → Prop
  | .admitRequest now roster body => body.execute = true → body.routeTask = .training →
      body.requestId.bind (book.live now).byRequest.get? = none →
        ∀ dispatch, decideWithReserved roster body
            (activeReservedByNode (book.live now).byRequest) = .ok dispatch →
          dispatch.choice.warm = false → body.routeRequest.need = body.modelMeta.totalBytes
  | .finish _ _ => True

/-- A cold candidate with known memory has room for what the request needs. -/
theorem need_le_free {p : ParsedNode} {reservedByNode : Ordered.Map String ℕ} {body : DispatchBody}
    {rank : Rank} (hrank : (p.candidate reservedByNode).rank? body.meshRequest = some rank)
    (hcold : rank.warm = false) (hknown : p.info.usableVram.2 = true) :
    body.routeRequest.need ≤ p.info.usableVram.1 - saturatingAdd p.load.usedVramBytes
      ((reservedByNode.get? p.nodeId).getD 0) := by
  obtain ⟨-, hroom, hwarm⟩ := MeshCandidate.rank?_eq_some hrank
  have hnotWarm : (p.candidate reservedByNode).warmFor body.meshRequest = false :=
    hwarm.symm.trans hcold
  have hfree : (freeVram (p.candidate reservedByNode).placement).2 = true := hknown
  have hneed : body.meshRequest.placement.need ≤
      (freeVram (p.candidate reservedByNode).placement).1 := by
    simpa [MeshCandidate.hasRoom, hnotWarm, hfree] using hroom
  exact hneed

theorem booksWithin_of_needsTotal {book : AdmissionBook} {op : BookOp} (h : NeedsTotal book op) :
    BooksWithin book op := by
  cases op with
  | finish admissionId success => trivial
  | admitRequest now roster body =>
    intro dispatch lease hresult hcold
    have hadmits := admits_admitRequest now roster body book
    rw [hresult] at hadmits
    generalize (book.admitRequest now roster body).2 = after at hadmits
    cases hadmits with
    | granted hnew hexecute hdispatch =>
      have hneed : body.routeRequest.need = body.modelMeta.totalBytes := by
        cases htask : body.routeTask with
        | training => exact h hexecute htask hnew dispatch hdispatch hcold
        | inference => rw [RouteRequest.need, DispatchBody.routeRequest, htask]
      obtain ⟨p, rank, hp, hrank, hchoice, hid⟩ := decideWithReserved_eq_ok hdispatch
      refine ⟨?_, p, hp, hid.symm, fun hknown ↦ ?_⟩
      · rw [AdmissionBook.leaseOf, hcold, hneed]
        rfl
      · have hrankCold : rank.warm = false :=
          (congrArg MeshRouteChoice.warm hchoice).symm.trans hcold
        have hfits := need_le_free hrank hrankCold hknown
        rw [getD_activeReservedByNode] at hfits
        rw [hid]
        exact booked_le_usable (hneed ▸ totalBytes_pos body) (usableVram_le p.info) hfits

/-- In a run in which no training request is newly placed that needs another amount than its model
takes for inference, no node is overbooked. -/
theorem placements_fit {start : AdmissionBook} {ops : List BookOp}
    (h : Run.Meets bookStep NeedsTotal start ops) : Run.Meets bookStep BooksWithin start ops :=
  h.of_invariant (fun _ ↦ True) (fun _ _ _ _ ↦ trivial)
    (fun _ _ _ hop ↦ booksWithin_of_needsTotal hop) trivial

/-! ## Training on a large card -/

def cardValue : Value := .ofFields [
  ("model", .string "Navi 31"), ("pci_id", .string "1002:744c"), ("vram_mb", .nat 24576),
  ("gfx_arch", .string "gfx1100")]

def cardRoster : List (String × Value) := [("gpu-box", .ofFields [
  ("topology", .ofFields [
    ("gpus", .array [cardValue]), ("links", .array []), ("host_mem", .null)]),
  ("gpus", .array [.ofFields [
    ("gpu", cardValue), ("tier", .string "Tier1"), ("training_supported", .bool true),
    ("rationale", .string "gfx1100 is officially ROCm-supported.")]])])]

def trainingBody : DispatchBody := { chatBody with model := "llama-7b", task := some "training" }

theorem chat_fits : Run.Meets bookStep BooksWithin .new [.admitRequest 0 cardRoster chatBody] := by
  refine placements_fit ⟨fun _ htask ↦ ?_, trivial⟩
  cases htask

def trainingDispatch : Dispatch where
  choice := { chatDispatch.choice with
    nodeId := "gpu-box"
    nodeName := "gpu-box"
    freeVramBytes := 23192823398
    reason := "'gpu-box' is the best eligible Balanced target (predicted 26350 ms)" }
  nodeId := "gpu-box"

/-- What the training reserves: the memory of the model for inference. -/
def trainingLease : AdmissionLease :=
  ⟨"adm-1", "legacy-1", "gpu-box", "llama-7b", 4780620911, 45000, .reserved⟩

/-- A training request for 15.8 GiB reserves 4.5 of them. -/
theorem training_is_underbooked :
    ¬ Run.Meets bookStep BooksWithin .new [.admitRequest 0 cardRoster trainingBody] := by
  rintro ⟨hbooks, -⟩
  have hresult : (AdmissionBook.new.admitRequest 0 cardRoster trainingBody).1 =
      .ok ⟨trainingDispatch, some trainingLease, false⟩ := by decide +kernel
  have hneed : trainingBody.routeRequest.need = 16974999996 := by decide +kernel
  have hsame : trainingLease.reservedVramBytes = 16974999996 :=
    (hbooks _ _ hresult rfl).1.trans hneed
  cases hsame

end Cameo.Hub
